import Lulan.Api.Orders
import Lulan.Holds.Store
import Lulan.Lib.Trace

/-!
# Placing holds

`POST /v1/holds`: every seat of a selection is looked up in the database, each trip is kept
below its ceiling of held seats, and the seats are held as one itinerary.
-/

namespace Lulan

namespace Db

/-- The mask of one seat. -/
def seatMask (db : Db) (tripId unitId : Uuid) : Option (BitVec 64) :=
  (db.seatOccupancy.find? (tripId, unitId)).map SeatOccupancyRow.occupiedMask

/-- How many seats a trip has. -/
def seatCount (db : Db) (tripId : Uuid) : Nat :=
  db.seatOccupancy.rows.countP (fun so => decide (so.tripId = tripId) &&
    (db.capacityUnits.find? so.unitId).any (fun cu => cu.kind == .seat))

end Db

structure HoldItem where
  unitCode : String
  origin : String
  destination : String
deriving DecidableEq

structure HoldJourney where
  tripId : Uuid
  items : List HoldItem
deriving DecidableEq

/-- The body of `POST /v1/holds`: the itinerary shape or the single-trip shape. -/
structure HoldRequest where
  tripId : Option Uuid
  items : Option (List HoldItem)
  journeys : Option (List HoldJourney)
  ttlSeconds : Option Nat
deriving DecidableEq

structure HeldItemInfo where
  tripId : Uuid
  unitCode : String
  origin : String
  destination : String
deriving DecidableEq

structure HoldResponse where
  holdId : Uuid
  expiresAt : Nat
  items : List HeldItemInfo
deriving DecidableEq

namespace Reservations

/-- A program over the database, which it reads, and the hold store. -/
abbrev HoldHandler (α : Type) : Type :=
  ExceptT ApiError (Lib.Prog (World × Holds.Redis) Holds.Command Holds.Reply Unit Uuid) α

namespace HoldHandler

variable {α : Type}

def query (f : World → Except StoreError α) : HoldHandler α :=
  Lib.Prog.read (fun s =>
    match s with
    | none => Lib.Prog.ret (.error (ApiError.ofStore (.db .connection)))
    | some s => Lib.Prog.ret ((f s.1).mapError ApiError.ofStore))

/-- An operation of the hold store, whose failure is looked at rather than returned. -/
def attempt (x : Holds.Operation α) : HoldHandler (Except Unit α) :=
  Lib.Prog.bind (Lib.Prog.beside World x) (fun r => Lib.Prog.ret (.ok r))

end HoldHandler

def maxSeatsPerHold : Nat := 20

/-- The seats asked for, each with its trip. -/
def flatten (req : HoldRequest) : Except ApiError (List (Uuid × HoldItem)) :=
  match req.tripId, req.items, req.journeys with
  | none, none, some journeys =>
    if journeys.isEmpty || journeys.any (fun j => j.items.isEmpty) then
      .error (.badRequest (.text "every journey needs at least one item"))
    else if journeys.length > 8 then .error (.badRequest (.text "max 8 journeys per itinerary"))
    else .ok (journeys.flatMap (fun j => j.items.map (fun i => (j.tripId, i))))
  | some tripId, some items, none =>
    if items.isEmpty then .error (.badRequest (.text "provide either journeys[] or trip_id + items"))
    else .ok (items.map (fun i => (tripId, i)))
  | _, _, _ => .error (.badRequest (.text "provide either journeys[] or trip_id + items"))

/-- One seat, looked up and found free. -/
def resolveSeat (tripId : Uuid) (item : HoldItem) : HoldHandler (Uuid × Uuid × SegmentSpan) := do
  match ← HoldHandler.query (fun w => Db.resolveTarget w tripId item.unitCode item.origin item.destination) with
  | none => throw (.notFound s!"trip {tripId} with unit {item.unitCode.quote} not found")
  | some target =>
    if target.kind ≠ .seat then
      throw (.badRequest (.text "holds are only supported for seats; pools are claimed at order time"))
    else
      match ← HoldHandler.query (fun w => .ok (w.db.seatMask tripId target.unitId)) with
      | none => throw (.notFound "no occupancy row for this trip/unit")
      | some occupied =>
        if target.span.isAvailable occupied then return (tripId, target.unitId, target.span)
        else throw (.conflict (.text s!"span already sold for seat {item.unitCode} on trip {tripId}"))

def resolveSeats : List (Uuid × HoldItem) → HoldHandler (List (Uuid × Uuid × SegmentSpan) × List HeldItemInfo)
  | [] => return ([], [])
  | (tripId, item) :: rest => do
    let seat ← resolveSeat tripId item
    let (seats, infos) ← resolveSeats rest
    return (seat :: seats, ⟨tripId, item.unitCode, item.origin, item.destination⟩ :: infos)

/-- How many seats are asked for on each trip. -/
def wanted (seats : List (Uuid × Uuid × SegmentSpan)) : List (Uuid × Nat) :=
  (seats.map Prod.fst).dedup.map (fun tripId => (tripId, (seats.map Prod.fst).count tripId))

/-- The refusal at the ceiling. -/
def tooManyHeld (tripId : Uuid) : ApiError :=
  .conflict (.text (s!"too many seats on trip {tripId} are being held right now — " ++
    "try again shortly, or book without a hold (holds never gate the sale)"))

/-- How many seats of a trip may be held at once; `share` is the fraction of a number of seats,
rounded down. -/
def ceiling (share : Nat → Nat) (total : Nat) : Nat := max 1 (share total)

/-- One trip after the other. A count that fails blocks nothing. -/
def checkCeilings (share : Nat → Nat) : List (Uuid × Nat) → HoldHandler Unit
  | [] => return ()
  | (tripId, adding) :: rest => do
    let total ← HoldHandler.query (fun w => .ok (w.db.seatCount tripId))
    if total = 0 then checkCeilings share rest
    else
      match ← HoldHandler.attempt (Holds.HoldStore.heldUnitCount tripId (ceiling share total)) with
      | .ok held =>
        if held + adding > ceiling share total then throw (tooManyHeld tripId) else checkCeilings share rest
      | .error _ => checkCeilings share rest

/-- Reads the shape of the request before anything else. -/
def accept (app : AppState) (req : HoldRequest) : Except ApiError (List (Uuid × HoldItem)) := do
  let flat ← flatten req
  if flat.length > maxSeatsPerHold then
    throw (.badRequest (.text (s!"a hold covers at most {maxSeatsPerHold} seats; split larger " ++
      "selections across separate holds")))
  if !app.holds then throw (.serviceUnavailable "hold service unavailable (no Redis)")
  return flat

/-- `POST /v1/holds`. `share` is `none` where no ceiling is in force, and `order` is the order in
which the map of trips is walked. -/
def createHold (app : AppState) (share : Option (Nat → Nat)) (order : List (Uuid × Nat) → List (Uuid × Nat))
    (req : HoldRequest) : HoldHandler HoldResponse := do
  let flat ← ExceptT.mk (Lib.Prog.ret (accept app req))
  let (seats, infos) ← resolveSeats flat
  match share with
  | none => pure ()
  | some share => checkCeilings share (order (wanted seats))
  match ← HoldHandler.attempt (Holds.HoldStore.acquireItinerary seats (Holds.holdTtl req.ttlSeconds)) with
  | .error _ => throw (.internal (.text "hold store error"))
  | .ok none => throw (.conflict (.text "a seat in this itinerary is currently held by another session"))
  | .ok (some hold) => return ⟨hold.1.holdId, hold.1.expiresAt, infos⟩

end Reservations

end Lulan
