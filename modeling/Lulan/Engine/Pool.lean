import Lulan.Engine.Inventory

/-!
# Count-based pools

A pool in memory: counters of what is left on each segment, in 32-bit machine integers that
wrap around as they do in a release build. The statements of the tables that it stands beside
are here as well, where a column is a signed integer or carries a check.
-/

namespace Lulan

inductive PoolError where
  | spanOutOfRange (spanTo segments : Nat)
  | insufficient (requested remaining : Int32)
  | releaseExceedsCapacity (requested capacity : Int32)
  | nonPositiveQuantity (quantity : Int32)
deriving DecidableEq

structure PoolOccupancy where
  capacity : Int32
  remaining : List Int32
deriving DecidableEq

namespace PoolOccupancy

/-- A fresh pool: every segment starts at full capacity. -/
def new (capacity : Int32) (segmentCount : UInt8) : PoolOccupancy :=
  ⟨max capacity 0, List.replicate segmentCount.toNat (max capacity 0)⟩

/-- The number of counters, narrowed to a byte. -/
def segmentCount (p : PoolOccupancy) : Nat := p.remaining.length % 256

def checkSpan (p : PoolOccupancy) (span : SegmentSpan) : Except PoolError Unit :=
  if span.toIndex > p.segmentCount then .error (.spanOutOfRange span.toIndex p.segmentCount) else .ok ()

/-- The counters of a span. -/
def segments (p : PoolOccupancy) (span : SegmentSpan) : List Int32 :=
  (p.remaining.take span.toIndex).drop span.fromIndex

/-- How many can still be reserved on a span. -/
def remainingFor (p : PoolOccupancy) (span : SegmentSpan) : Except PoolError Int32 :=
  match p.checkSpan span with
  | .error e => .error e
  | .ok () => .ok ((p.segments span).min?.getD 0)

def isAvailable (p : PoolOccupancy) (span : SegmentSpan) (qty : Int32) : Except PoolError Bool :=
  if qty ≤ 0 then .error (.nonPositiveQuantity qty)
  else
    match p.remainingFor span with
    | .error e => .error e
    | .ok remaining => .ok (decide (remaining ≥ qty))

/-- The counters with those of a span changed. -/
def adjust (p : PoolOccupancy) (span : SegmentSpan) (f : Int32 → Int32) : PoolOccupancy :=
  { p with remaining := p.remaining.mapIdx (fun i r => if span.covers i then f r else r) }

/-- Take a quantity from every segment of a span, or fail. -/
def reserve (p : PoolOccupancy) (span : SegmentSpan) (qty : Int32) : Except PoolError Unit × PoolOccupancy :=
  if qty ≤ 0 then (.error (.nonPositiveQuantity qty), p)
  else
    match p.remainingFor span with
    | .error e => (.error e, p)
    | .ok remaining =>
      if remaining < qty then (.error (.insufficient qty remaining), p)
      else (.ok (), p.adjust span (fun r => r - qty))

/-- Return a quantity to every segment of a span, or fail if a segment would exceed the capacity. -/
def release (p : PoolOccupancy) (span : SegmentSpan) (qty : Int32) : Except PoolError Unit × PoolOccupancy :=
  if qty ≤ 0 then (.error (.nonPositiveQuantity qty), p)
  else
    match p.checkSpan span with
    | .error e => (.error e, p)
    | .ok () =>
      if (p.segments span).any (fun r => decide (r + qty > p.capacity)) then
        (.error (.releaseExceedsCapacity qty p.capacity), p)
      else (.ok (), p.adjust span (fun r => r + qty))

end PoolOccupancy

namespace SegmentSpan

/-- The mask of a span as it is bound to a `bigint` parameter. -/
def maskParam (s : SegmentSpan) : Int64 := Int64.ofBitVec s.mask

end SegmentSpan

/-- The claim of a seat on its `bigint` column: rows affected, and the column afterwards. -/
def claimSeatColumn (occupiedMask : Int64) (span : SegmentSpan) : Nat × Int64 :=
  if occupiedMask &&& span.maskParam = 0 then (1, occupiedMask ||| span.maskParam) else (0, occupiedMask)

/-- The release of a seat on its `bigint` column. -/
def releaseSeatColumn (occupiedMask : Int64) (span : SegmentSpan) : Nat × Int64 :=
  if occupiedMask &&& span.maskParam = span.maskParam then (1, occupiedMask &&& ~~~span.maskParam)
  else (0, occupiedMask)

namespace Db

/-- The release of a pool under the table's `CHECK (0 <= ALL (remaining))`, which a quantity below
zero can break. -/
def releasePoolChecked (db : Db) (tripId unitId : Uuid) (span : SegmentSpan) (qty : Int) :
    Except DbError (Nat × Db) :=
  if db.poolOccupancy.rows.all (fun r => !poolRoom db tripId unitId span qty r ||
      (addBetween r.remaining (span.fromIndex + 1) span.toIndex qty).all (fun val => decide (0 ≤ val))) then
    .ok (db.releasePoolExec tripId unitId span qty)
  else .error .checkViolation

end Db

end Lulan
