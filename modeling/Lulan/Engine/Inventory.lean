import Lulan.Engine.Database

/-!
# Inventory: resolution of sales and the guarded claims

Every claim and release is one guarded `UPDATE`; the number of rows it affects says
whether it won.
-/

namespace Lulan

inductive StoreError where
  | unknownStop (code : String)
  | stopsOutOfOrder (origin destination : String)
  | tripNotSellable (status : String)
  | tripDeparted (origin : String) (departedAt : Timestamp)
  | span (e : SpanError)
  | unreplayableStream (streamId : Uuid) (streamSeq : Nat)
  | db (e : DbError)
deriving DecidableEq, Repr

inductive ClaimOutcome where
  | claimed
  | conflict
  | notFound
deriving DecidableEq, Repr

/-- What a claim or hold request resolves to. -/
structure ClaimTarget where
  unitId : Uuid
  kind : UnitKind
  fareClass : Option String
  span : SegmentSpan
deriving DecidableEq

def ClaimTarget.fareKey (t : ClaimTarget) (unitCode : String) : String := t.fareClass.getD unitCode

/-- One stop on a route, as `pickSpan` needs it. -/
structure Stop where
  code : String
  index : Nat
  departOffset : Int
deriving DecidableEq

/-- The earliest occurrence of the origin, then the earliest occurrence of the destination
after it. Stop indices are narrowed to a byte. -/
def pickSpan (stops : List Stop) (origin destination : String) : Except StoreError (SegmentSpan × Int) :=
  let ordered := stops.insertionSort (fun a b => a.index ≤ b.index)
  match ordered.find? (fun s => decide (s.code = origin)) with
  | none => .error (.unknownStop origin)
  | some start =>
    if !ordered.any (fun s => decide (s.code = destination)) then .error (.unknownStop destination)
    else
      match ordered.find? (fun s => decide (s.code = destination) && decide (s.index > start.index)) with
      | none => .error (.stopsOutOfOrder origin destination)
      | some stop =>
        match SegmentSpan.new (start.index % 256) (stop.index % 256) with
        | .error e => .error (.span e)
        | .ok span => .ok (span, start.departOffset)

namespace Db

def resolveSpan (db : Db) (routeId : Uuid) (origin destination : String) :
    Except StoreError (SegmentSpan × Int) :=
  let stops := db.routeStops.rows.filterMap (fun rs =>
    if rs.routeId = routeId then
      match db.locations.find? rs.locationId with
      | some l =>
        if l.code = origin ∨ l.code = destination then some ⟨l.code, rs.stopIndex, rs.departOffsetMin⟩
        else none
      | none => none
    else none)
  pickSpan stops origin destination

/-- The one gate every sale passes through: the trip is open, its unit exists on the
vessel, and it has not left the origin. -/
def resolveTarget (w : World) (tripId : Uuid) (unitCode origin destination : String) :
    Except StoreError (Option ClaimTarget) :=
  match w.db.trips.find? tripId with
  | none => .ok none
  | some t =>
    match w.db.capacityUnits.rows.find? (fun cu =>
        decide (cu.resourceId = t.resourceId) && decide (cu.code = unitCode)) with
    | none => .ok none
    | some cu =>
      if t.status ≠ .scheduled then .error (.tripNotSellable t.status.asStr)
      else
        match resolveSpan w.db t.routeId origin destination with
        | .error e => .error e
        | .ok (span, departOffset) =>
          let boardsAt := t.departsAt + departOffset * 60
          if boardsAt ≤ w.now then .error (.tripDeparted origin boardsAt)
          else .ok (some ⟨cu.id, cu.kind, cu.fareClass, span⟩)

/-- The guard of a seat claim. -/
def seatFree (tripId unitId : Uuid) (span : SegmentSpan) (r : SeatOccupancyRow) : Bool :=
  decide (r.key = (tripId, unitId)) && (r.occupiedMask &&& span.mask == 0#64)

/-- The guard of a seat release: every bit of the span is owned. -/
def seatOwned (tripId unitId : Uuid) (span : SegmentSpan) (r : SeatOccupancyRow) : Bool :=
  decide (r.key = (tripId, unitId)) && (r.occupiedMask &&& span.mask == span.mask)

def claimSeatExec (db : Db) (tripId unitId : Uuid) (span : SegmentSpan) : Nat × Db :=
  let guard := seatFree tripId unitId span
  let seatOccupancy := db.seatOccupancy.update guard
    ⟨fun r => { r with occupiedMask := r.occupiedMask ||| span.mask }, fun _ => rfl⟩
  (db.seatOccupancy.affected guard, { db with seatOccupancy })

def releaseSeatExec (db : Db) (tripId unitId : Uuid) (span : SegmentSpan) : Nat × Db :=
  let guard := seatOwned tripId unitId span
  let seatOccupancy := db.seatOccupancy.update guard
    ⟨fun r => { r with occupiedMask := r.occupiedMask &&& ~~~span.mask }, fun _ => rfl⟩
  (db.seatOccupancy.affected guard, { db with seatOccupancy })

/-- The array slice `remaining[lo:hi]`, with 1-based inclusive bounds. -/
def slice (remaining : List Int) (lo hi : Nat) : List Int := (remaining.take hi).drop (lo - 1)

/-- Add `delta` to the entries at the 1-based positions `lo` to `hi`. -/
def addBetween (remaining : List Int) (lo hi : Nat) (delta : Int) : List Int :=
  remaining.mapIdx (fun i val => if lo ≤ i + 1 ∧ i + 1 ≤ hi then val + delta else val)

/-- The guard of a pool claim; a slice without entries has no minimum. -/
def poolHas (tripId unitId : Uuid) (span : SegmentSpan) (qty : Int) (r : PoolOccupancyRow) : Bool :=
  decide (r.key = (tripId, unitId)) &&
    match (slice r.remaining (span.fromIndex + 1) span.toIndex).min? with
    | some low => decide (low ≥ qty)
    | none => false

/-- The guard of a pool release: no segment may exceed the unit's capacity. -/
def poolRoom (db : Db) (tripId unitId : Uuid) (span : SegmentSpan) (qty : Int) (r : PoolOccupancyRow) : Bool :=
  decide (r.key = (tripId, unitId)) &&
    match (slice r.remaining (span.fromIndex + 1) span.toIndex).max?,
      (db.capacityUnits.find? unitId).bind CapacityUnitRow.poolCapacity with
    | some high, some capacity => decide (high + qty ≤ capacity)
    | _, _ => false

def claimPoolExec (db : Db) (tripId unitId : Uuid) (span : SegmentSpan) (qty : Int) : Nat × Db :=
  let guard := poolHas tripId unitId span qty
  let poolOccupancy := db.poolOccupancy.update guard
    ⟨fun r => { r with remaining := addBetween r.remaining (span.fromIndex + 1) span.toIndex (-qty) },
      fun _ => rfl⟩
  (db.poolOccupancy.affected guard, { db with poolOccupancy })

def releasePoolExec (db : Db) (tripId unitId : Uuid) (span : SegmentSpan) (qty : Int) : Nat × Db :=
  let guard := poolRoom db tripId unitId span qty
  let poolOccupancy := db.poolOccupancy.update guard
    ⟨fun r => { r with remaining := addBetween r.remaining (span.fromIndex + 1) span.toIndex qty },
      fun _ => rfl⟩
  (db.poolOccupancy.affected guard, { db with poolOccupancy })

/-- Why a guarded claim affected no row. -/
def disambiguateSeat (db : Db) (tripId unitId : Uuid) : ClaimOutcome :=
  if (db.seatOccupancy.find? (tripId, unitId)).isSome then .conflict else .notFound

def disambiguatePool (db : Db) (tripId unitId : Uuid) : ClaimOutcome :=
  if (db.poolOccupancy.find? (tripId, unitId)).isSome then .conflict else .notFound

end Db

end Lulan
