import Lulan.Api.Tokens
import Lulan.Lib.JsonText

/-!
# The fingerprint of a booking request

The canonical form of a parsed request, what `Idempotency-Key` is bound to, and how a body is
parsed into one.
-/

namespace Lulan.Idempotency

open Http (Bytes asBytes)
open Lib (Json)
open Tokens

variable (crates : Crates)

/-! ### The canonical form -/

def orderItemJson (item : OrderItemRequest) : Json := .obj [
  ("unit_code", .str item.unitCode), ("origin", .str item.origin), ("destination", .str item.destination),
  ("quantity", nullable Json.int item.quantity),
  ("passenger", nullable (fun n : Nat => Json.int n) item.passenger)]

def itemsJson (items : List OrderItemRequest) : Json := .arr (items.map orderItemJson)

def orderJourneyJson (journey : OrderJourneyRequest) : Json :=
  .obj [("trip_id", uuidJson crates journey.tripId), ("items", itemsJson journey.items)]

def journeysJson (journeys : List OrderJourneyRequest) : Json := .arr (journeys.map (orderJourneyJson crates))

def passengerJson (p : PassengerRequest) : Json := .obj [
  ("full_name", .str p.fullName), ("type", .str p.passengerType), ("birthdate", nullable Json.str p.birthdate)]

def lineJson (line : AncillaryLine) : Json := .obj (lineFields crates line)

/-- The request with every field written, in the order of the type. -/
def orderJson (req : CreateOrderRequest) : Json := .obj [
  ("trip_id", nullable (uuidJson crates) req.tripId),
  ("items", nullable itemsJson req.items),
  ("journeys", nullable (journeysJson crates) req.journeys),
  ("passengers", .arr (req.passengers.map passengerJson)),
  ("guest_contact", nullable Json.str req.guestContact),
  ("quote_token", nullable Json.str req.quoteToken),
  ("promo_code", nullable Json.str req.promoCode),
  ("hold_id", nullable (uuidJson crates) req.holdId),
  ("ancillaries", .arr (req.ancillaries.map (lineJson crates)))]

/-! ### Parsing a body -/

def readOrderItem (value : Json) : Option OrderItemRequest := do
  let source ← value.source 5
  let unitCode ← source.get "unit_code" 0 none Json.readStr
  let origin ← source.get "origin" 1 none Json.readStr
  let destination ← source.get "destination" 2 none Json.readStr
  let quantity ← source.get "quantity" 3 (some none) (Json.readOption readI32)
  let passenger ← source.get "passenger" 4 (some none) (Json.readOption readUsize)
  return ⟨unitCode, origin, destination, quantity, passenger⟩

def readOrderJourney (value : Json) : Option OrderJourneyRequest := do
  let source ← value.source 2
  let tripId ← source.get "trip_id" 0 none (readUuid crates)
  let items ← source.get "items" 1 none (Json.readList readOrderItem)
  return ⟨tripId, items⟩

def readPassenger (value : Json) : Option PassengerRequest := do
  let source ← value.source 3
  let fullName ← source.get "full_name" 0 none Json.readStr
  let passengerType ← source.get "type" 1 none Json.readStr
  let birthdate ← source.get "birthdate" 2 (some none) (Json.readOption Json.readStr)
  return ⟨fullName, passengerType, birthdate⟩

def readAncillaryLine (value : Json) : Option AncillaryLine := (value.source 4).bind (readLine crates)

def readOrder (value : Json) : Option CreateOrderRequest := do
  let source ← value.source 9
  let tripId ← source.get "trip_id" 0 (some none) (Json.readOption (readUuid crates))
  let items ← source.get "items" 1 (some none) (Json.readOption (Json.readList readOrderItem))
  let journeys ← source.get "journeys" 2 (some none) (Json.readOption (Json.readList (readOrderJourney crates)))
  let passengers ← source.get "passengers" 3 none (Json.readList readPassenger)
  let guestContact ← source.get "guest_contact" 4 (some none) (Json.readOption Json.readStr)
  let quoteToken ← source.get "quote_token" 5 (some none) (Json.readOption Json.readStr)
  let promoCode ← source.get "promo_code" 6 (some none) (Json.readOption Json.readStr)
  let holdId ← source.get "hold_id" 7 (some none) (Json.readOption (readUuid crates))
  let ancillaries ← source.get "ancillaries" 8 (some []) (Json.readList (readAncillaryLine crates))
  return ⟨tripId, items, journeys, passengers, guestContact, quoteToken, promoCode, holdId, ancillaries⟩

/-! ### Hashes -/

/-- Fingerprint of the request a key stands for, as text; `sha` is SHA-256. -/
def requestHash (sha : Bytes → Bytes) (req : CreateOrderRequest) : String :=
  base64 (sha (orderJson crates req).toVec)

/-- `lower` is `str::to_lowercase`. -/
def normalised (lower : String → String) (contact : String) : String := lower (trim contact)

/-- What a guest is keyed by. -/
def contactHash (sha : Bytes → Bytes) (lower : String → String) (contact : String) : String :=
  base64 (sha (asBytes (normalised lower contact)))

end Lulan.Idempotency
