import Lulan.Api.Orders

/-!
# Claims outside an order

`POST /v1/trips/{trip_id}/claims`: an integration sells one unit directly.
-/

namespace Lulan

structure ClaimRequest where
  unitCode : String
  origin : String
  destination : String
  quantity : Option Int
  holdId : Option Uuid
deriving DecidableEq

structure ClaimResponse where
  tripId : Uuid
  unitCode : String
  fromIndex : Nat
  toIndex : Nat
deriving DecidableEq

namespace Reservations

/-- A presented hold must be alive and cover the unit; a hold service that does not answer
blocks nothing. -/
def checkHold (app : AppState) (holdId : Option Uuid) (tripId unitId : Uuid) : Handler Unit := do
  match holdId with
  | none => return ()
  | some holdId =>
    if app.holds then
      match ← Io.call (.itineraryMembers holdId) with
      | .members (some (some members)) =>
        if members.any (fun m => m.tripId == tripId && m.unitId == unitId) then return ()
        else throw (.conflict (.text "hold does not cover this trip/unit"))
      | .members (some none) => throw (.conflict (.text "hold expired or unknown"))
      | _ => return ()
    else return ()

def claimTarget (tripId : Uuid) (quantity : Option Int) (target : ClaimTarget) : Handler ClaimOutcome :=
  match target.kind with
  | .seat => Handler.store (InventoryStore.claimSeat tripId target.unitId target.span)
  | .pool =>
    if quantity.getD 1 ≤ 0 then throw (.badRequest (.text "quantity must be positive"))
    else Handler.store (InventoryStore.claimPool tripId target.unitId target.span (quantity.getD 1))

/-- `POST /v1/trips/{trip_id}/claims`. -/
def createClaim (app : AppState) (tripId : Uuid) (req : ClaimRequest) : Handler ClaimResponse := do
  match ← Handler.store (InventoryStore.resolveTarget tripId req.unitCode req.origin req.destination) with
  | none => throw (.notFound s!"trip {tripId} with unit {req.unitCode.quote} not found")
  | some target =>
    checkHold app req.holdId tripId target.unitId
    match ← claimTarget tripId req.quantity target with
    | .claimed =>
      Orders.releaseHold app req.holdId
      return ⟨tripId, req.unitCode, target.span.fromIndex, target.span.toIndex⟩
    | .conflict => throw (.conflict (.text "no longer available for the requested span"))
    | .notFound => throw (.notFound "no occupancy row for this trip/unit")

end Reservations

end Lulan
