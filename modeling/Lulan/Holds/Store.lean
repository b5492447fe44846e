import Lulan.Lib.Concurrent
import Lulan.Engine.Segment
import Lulan.Holds.Redis

/-!
# The hold store

Soft holds as programs over Redis commands, the reader of the seat map, and the system of any
number of such operations at work at once.
-/

namespace Lulan.Holds

def indexTtlMultiplier : Nat := 4

def maxHoldTtlSecs : Nat := 1800

def minHoldTtlSecs : Nat := 30

def defaultHoldTtlSecs : Nat := 600

/-- The TTL `create_hold` asks for, in milliseconds. -/
def holdTtl (requested : Option Nat) : Nat :=
  1000 * max minHoldTtlSecs (min (requested.getD defaultHoldTtlSecs) maxHoldTtlSecs)

/-- An operation of the store; it stops where a command fails. -/
abbrev Operation (α : Type) : Type := ExceptT Unit (Lib.Prog Redis Command Reply Unit Uuid) α

namespace Operation

variable {α : Type}

/-- `Uuid::new_v4()`. -/
def newV4 : Operation Uuid := Lib.Prog.call () (fun id => Lib.Prog.ret (.ok id))

/-- The reply as the caller reads it. -/
def returned (f : Reply → Option α) (reply : Reply) : Operation α :=
  match f reply with
  | some a => Lib.Prog.ret (.ok a)
  | none => Lib.Prog.ret (.error ())

/-- A command and what its reply is read as. -/
def send (command : Command) (f : Reply → Option α) : Operation α := Lib.Prog.tx command (returned f)

/-- `let _ = x.await`. -/
def ignore (x : Operation α) : Operation Unit := Lib.Prog.bind x (fun _ => Lib.Prog.ret (.ok ()))

end Operation

namespace Reply

def int? : Reply → Option Nat
  | .int n => some n
  | _ => none

def ok? : Reply → Option Unit
  | .ok => some ()
  | _ => none

def seat? : Reply → Option (Option (Uuid × Uuid))
  | .seat trip unit => some (some (trip, unit))
  | .nil => some none
  | _ => none

def itinerary? : Reply → Option (Option (List (Uuid × Uuid × Uuid)))
  | .itinerary seats => some (some seats)
  | .nil => some none
  | _ => none

def members? : Reply → Option (List Uuid)
  | .members units => some units
  | _ => none

def fields? : Reply → Option Hash
  | .fields fs => some fs
  | _ => none

end Reply

structure Hold where
  holdId : Uuid
  expiresAt : Nat
deriving DecidableEq

/-- The halves of a span's mask, as the script receives them. -/
def maskHi (span : SegmentSpan) : Nat := (span.mask >>> 32).toNat

def maskLo (span : SegmentSpan) : Nat := (span.mask &&& 0xFFFFFFFF#64).toNat

namespace HoldStore

def now : Operation Nat := Operation.send .clock Reply.int?

/-- Try to hold `span` on one seat for `ttl`; `none` where somebody else holds it. -/
def acquire (trip unit : Uuid) (span : SegmentSpan) (ttl : Nat) : Operation (Option Hold) := do
  let holdId ← Operation.newV4
  let now ← now
  let admitted ← Operation.send (.acquire trip unit now ttl holdId (maskHi span) (maskLo span) (ttl * indexTtlMultiplier))
    Reply.int?
  if admitted = 1 then
    Operation.send (.setRegistry holdId trip unit ttl) Reply.ok?
    return some ⟨holdId, now + ttl⟩
  else return none

/-- Release a hold by id; false where it had already expired. -/
def release (holdId : Uuid) : Operation Bool := do
  match ← Operation.send (.getRegistry holdId) Reply.seat? with
  | none => return false
  | some (trip, unit) =>
    Operation.send (.hdel trip unit holdId) Reply.ok?
    let remaining ← Operation.send (.hlen trip unit) Reply.int?
    if remaining = 0 then Operation.send (.srem trip [unit]) Reply.ok?
    Operation.send (.delRegistry holdId) Reply.ok?
    return true

/-- Give back the seats taken so far. -/
def rollBack : List (Uuid × Uuid × Uuid) → Operation Unit
  | [] => return ()
  | (seatHoldId, _, _) :: rest => do
    Operation.ignore (release seatHoldId)
    rollBack rest

/-- One seat after the other; `none`, with nothing kept, as soon as one is held. -/
def acquireSeats (ttl : Nat) : List (Uuid × Uuid × SegmentSpan) → List (Uuid × Uuid × Uuid) →
    Operation (Option (List (Uuid × Uuid × Uuid)))
  | [], acquired => return some acquired
  | (trip, unit, span) :: rest, acquired => do
    match ← acquire trip unit span ttl with
    | some hold => acquireSeats ttl rest (acquired ++ [(hold.holdId, trip, unit)])
    | none => do
      rollBack acquired
      return none

/-- Hold several seats as one itinerary, all or nothing. -/
def acquireItinerary (seats : List (Uuid × Uuid × SegmentSpan)) (ttl : Nat) :
    Operation (Option (Hold × List (Uuid × Uuid))) := do
  let groupId ← Operation.newV4
  match ← acquireSeats ttl seats [] with
  | none => return none
  | some acquired =>
    Operation.send (.setItinerary groupId acquired ttl) Reply.ok?
    let now ← now
    return some (⟨groupId, now + ttl⟩, acquired.map Prod.snd)

def releaseSeats : List (Uuid × Uuid × Uuid) → Operation Unit
  | [] => return ()
  | (seatHoldId, _, _) :: rest => do
    let _ ← release seatHoldId
    releaseSeats rest

/-- Release every seat of an itinerary hold; false where it had already expired. -/
def releaseItinerary (holdId : Uuid) : Operation Bool := do
  match ← Operation.send (.getItinerary holdId) Reply.itinerary? with
  | none => return false
  | some members =>
    releaseSeats members
    Operation.send (.delItinerary holdId) Reply.ok?
    return true

/-- A stored hold as the Rust reader parses it. -/
def readRust (value : String) : Option (Int × Nat × Nat) :=
  match value.toList.splitOn ':' with
  | exp :: hi :: lo :: _ => do
    let exp ← Lib.Text.parseSigned exp
    let hi ← Lib.Text.parseUnsigned hi
    let lo ← Lib.Text.parseUnsigned lo
    if -2 ^ 63 ≤ exp ∧ exp < 2 ^ 63 ∧ hi < 2 ^ 64 ∧ lo < 2 ^ 64 then some (exp, hi, lo) else none
  | _ => none

/-- The segments a stored hold still blocks. -/
def liveMask (now : Nat) (value : String) : BitVec 64 :=
  match readRust value with
  | some (exp, hi, lo) => if exp > now then BitVec.ofNat 64 hi <<< 32 ||| BitVec.ofNat 64 lo else 0#64
  | none => 0#64

def liveUnion (now : Nat) (fields : Hash) : BitVec 64 := fields.foldl (fun union f => union ||| liveMask now f.2) 0#64

/-- The units of a trip with a live hold, each with the union of its held spans, and the stale ones. -/
def readUnits (trip : Uuid) (now : Nat) : List Uuid → Operation (List (Uuid × BitVec 64) × List Uuid)
  | [] => return ([], [])
  | unit :: rest => do
    let fields ← Operation.send (.hgetall trip unit) Reply.fields?
    let (live, stale) ← readUnits trip now rest
    if liveUnion now fields = 0#64 then return (live, unit :: stale)
    else return ((unit, liveUnion now fields) :: live, stale)

/-- Every unit of the trip with a live hold; the index is pruned of the others. -/
def liveHeldUnits (trip : Uuid) : Operation (List (Uuid × BitVec 64)) := do
  let members ← Operation.send (.smembers trip) Reply.members?
  let now ← now
  let (live, stale) ← readUnits trip now members
  if !stale.isEmpty then Operation.send (.srem trip stale) Reply.ok?
  return live

/-- Units with a live hold that overlaps `span`. -/
def heldUnits (trip : Uuid) (span : SegmentSpan) : Operation (List Uuid) := do
  let live ← liveHeldUnits trip
  return (live.filter (fun u => u.2 &&& span.mask != 0#64)).map Prod.fst

/-- How many seats carry a hold: the size of the index, recounted from `accurateAbove` on. -/
def heldUnitCount (trip : Uuid) (accurateAbove : Nat) : Operation Nat := do
  let approximate ← Operation.send (.scard trip) Reply.int?
  if approximate < accurateAbove then return approximate
  else
    let live ← liveHeldUnits trip
    return live.length

end HoldStore

inductive Request where
  | acquire (trip unit : Uuid) (span : SegmentSpan) (ttl : Nat)
  | release (holdId : Uuid)
  | acquireItinerary (seats : List (Uuid × Uuid × SegmentSpan)) (ttl : Nat)
  | releaseItinerary (holdId : Uuid)
  | liveHeldUnits (trip : Uuid)
  | heldUnits (trip : Uuid) (span : SegmentSpan)
  | heldUnitCount (trip : Uuid) (accurateAbove : Nat)
deriving DecidableEq

inductive Response where
  | hold (hold : Option Hold)
  | released (found : Bool)
  | itinerary (hold : Option (Hold × List (Uuid × Uuid)))
  | live (units : List (Uuid × BitVec 64))
  | held (units : List Uuid)
  | count (n : Nat)
deriving DecidableEq

def Request.operation : Request → Operation Response
  | .acquire trip unit span ttl => Response.hold <$> HoldStore.acquire trip unit span ttl
  | .release holdId => Response.released <$> HoldStore.release holdId
  | .acquireItinerary seats ttl => Response.itinerary <$> HoldStore.acquireItinerary seats ttl
  | .releaseItinerary holdId => Response.released <$> HoldStore.releaseItinerary holdId
  | .liveHeldUnits trip => Response.live <$> HoldStore.liveHeldUnits trip
  | .heldUnits trip span => Response.held <$> HoldStore.heldUnits trip span
  | .heldUnitCount trip accurateAbove => Response.count <$> HoldStore.heldUnitCount trip accurateAbove

/-- Any number of operations over one Redis, whose clock runs between their commands. -/
def store : Lib.Site Request Redis Command Reply Unit Uuid (Except Unit Response) Bool Nat where
  handler i := i.operation.run
  run command reaches s := command.run reaches s
  env ms s := { s with now := s.now + ms }
  fits _ _ := true

abbrev Event : Type := Lib.Ev Request Command Reply Unit Uuid (Except Unit Response)

/-! ### One operation by itself -/

/-- What a command meets on its way: the time until it is run, and whether it gets there. A command
that is run and whose reply is lost is left out. -/
structure Fate where
  elapsed : Nat
  reaches : Bool
deriving DecidableEq

def Command.meets (command : Command) (fate : Fate) (s : Redis) : Reply × Redis :=
  command.run fate.reaches { s with now := s.now + fate.elapsed }

end Lulan.Holds
