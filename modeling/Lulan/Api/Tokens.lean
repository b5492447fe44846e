import Lulan.Lib.Base64
import Lulan.Lib.Json
import Lulan.Api.Pricing
import Lulan.Payments.Http

/-!
# Tokens under the quote secret

The signed quotes and the retrieval tokens of guest orders, down to the JSON of a quote and the
bytes that are authenticated.
-/

namespace Lulan.Tokens

open Http (Bytes asBytes constantTimeEq)
open Lib (Json)

/-- The crates a token passes through: `serde_json`, `hmac` with SHA-256, and `uuid`. -/
structure Crates where
  toVec : Json → Bytes
  fromSlice : Bytes → Option Json
  hmac : Bytes → Bytes → Bytes
  uuidText : Uuid → String
  parseUuid : String → Option Uuid

def base64 (bytes : Bytes) : String := String.ofList (Lib.Base64.encode bytes)

def unbase64 (s : String) : Option Bytes := Lib.Base64.decode s.toList

variable (crates : Crates)

/-! ### The payload of a quote -/

def uuidJson (id : Uuid) : Json := .str (crates.uuidText id)

def nullable {α : Type} (f : α → Json) : Option α → Json
  | none => .null
  | some a => f a

/-- A field that is skipped when there is nothing to say. -/
def skipped {α : Type} (name : String) (f : α → Json) : Option α → List (String × Json)
  | none => []
  | some a => [(name, f a)]

def itemJson (item : QuoteTokenItem) : Json := .obj [
  ("trip_id", uuidJson crates item.tripId), ("unit_code", .str item.unitCode), ("origin", .str item.origin),
  ("destination", .str item.destination), ("quantity", .int item.quantity),
  ("passenger_type", nullable Json.str item.passengerType), ("price_minor", .int item.priceMinor)]

/-- The fields of an add-on line, which a quote flattens into its own. -/
def lineFields (line : AncillaryLine) : List (String × Json) :=
  ("code", .str line.code) :: (skipped "trip_id" (uuidJson crates) line.tripId ++
    (skipped "passenger" (fun n => Json.int (n : Int)) line.passenger ++ [("quantity", .int line.quantity)]))

def ancillaryJson (ancillary : QuoteTokenAncillary) : Json :=
  .obj (lineFields crates ancillary.line ++ [("total_minor", .int ancillary.totalMinor)])

def tokenJson (token : QuoteToken) : Json := .obj [
  ("currency", .str token.currency), ("total_minor", .int token.totalMinor), ("exp", .int token.exp),
  ("items", .arr (token.items.map (itemJson crates))),
  ("ancillaries", .arr (token.ancillaries.map (ancillaryJson crates)))]

def readI64 : Json → Option Int := Json.readInt (-2 ^ 63) (2 ^ 63)

def readI32 : Json → Option Int := Json.readInt (-2 ^ 31) (2 ^ 31)

def readUsize (value : Json) : Option Nat := (Json.readInt 0 (2 ^ 64) value).map Int.toNat

def readUuid (value : Json) : Option Uuid := (Json.readStr value).bind crates.parseUuid

def readItem (value : Json) : Option QuoteTokenItem := do
  let source ← value.source 7
  let tripId ← source.get "trip_id" 0 none (readUuid crates)
  let unitCode ← source.get "unit_code" 1 none Json.readStr
  let origin ← source.get "origin" 2 none Json.readStr
  let destination ← source.get "destination" 3 none Json.readStr
  let quantity ← source.get "quantity" 4 none readI32
  let passengerType ← source.get "passenger_type" 5 (some none) (Json.readOption Json.readStr)
  let priceMinor ← source.get "price_minor" 6 none readI64
  return ⟨tripId, unitCode, origin, destination, quantity, passengerType, priceMinor⟩

def readLine (source : Json.Source) : Option AncillaryLine := do
  let code ← source.get "code" 0 none Json.readStr
  let tripId ← source.get "trip_id" 1 (some none) (Json.readOption (readUuid crates))
  let passenger ← source.get "passenger" 2 (some none) (Json.readOption readUsize)
  let quantity ← source.get "quantity" 3 (some 1) readI32
  return ⟨code, tripId, passenger, quantity⟩

/-- A record with a flattened part is read from an object only. -/
def readAncillary : Json → Option QuoteTokenAncillary
  | .obj fields => do
    let totalMinor ← (Json.Source.map fields).get "total_minor" 0 none readI64
    let line ← readLine crates (.map fields)
    return ⟨line, totalMinor⟩
  | _ => none

def readToken (value : Json) : Option QuoteToken := do
  let source ← value.source 5
  let currency ← source.get "currency" 0 none Json.readStr
  let totalMinor ← source.get "total_minor" 1 none readI64
  let exp ← source.get "exp" 2 none readI64
  let items ← source.get "items" 3 none (Json.readList (readItem crates))
  let ancillaries ← source.get "ancillaries" 4 (some []) (Json.readList (readAncillary crates))
  return ⟨currency, totalMinor, exp, items, ancillaries⟩

/-! ### Quote tokens -/

def encode (token : QuoteToken) : String := base64 (crates.toVec (tokenJson crates token))

def decode (payload : String) : Option QuoteToken :=
  ((unbase64 payload).bind crates.fromSlice).bind (readToken crates)

def tag (secret : Bytes) (payload : String) : String := base64 (crates.hmac secret (asBytes payload))

/-- `verify_slice` on the decoded tag. -/
def tagMatches (secret : Bytes) (payload tag : String) : Bool :=
  match unbase64 tag with
  | none => false
  | some bytes => decide (bytes = crates.hmac secret (asBytes payload))

def sign (secret : Bytes) (token : QuoteToken) : String :=
  encode crates token ++ "." ++ tag crates secret (encode crates token)

/-- Verification and TTL check; `none` is a token to reject. -/
def verify (secret : Bytes) (now : Timestamp) (token : String) : Option QuoteToken := do
  let (payload, tag) ← Lib.Text.splitOnce '.' token.toList
  if tagMatches crates secret (String.ofList payload) (String.ofList tag) then
    let decoded ← decode crates (String.ofList payload)
    if decoded.exp > now then some decoded else none
  else none

/-! ### Retrieval tokens -/

/-- `Uuid::as_bytes`. -/
def uuidBytes (id : Uuid) : Bytes := (List.range 16).map (fun i => UInt8.ofNat (id / 256 ^ (15 - i)))

/-- HMAC retrieval token for guest orders. -/
def retrievalToken (secret : Bytes) (orderId : Uuid) : String :=
  base64 (crates.hmac secret (asBytes "order-retrieval:" ++ uuidBytes orderId))

def verifyRetrievalToken (secret : Bytes) (orderId : Uuid) (token : String) : Bool :=
  constantTimeEq (retrievalToken crates secret orderId) token

/-- The deployment that signs with these crates and this secret. -/
def deploy (secret : Bytes) (app : AppState) : AppState :=
  { app with
    encode := encode crates
    decode := decode crates
    tag := tag crates secret
    tagMatches := tagMatches crates secret
    retrievalToken := retrievalToken crates secret }

end Lulan.Tokens
