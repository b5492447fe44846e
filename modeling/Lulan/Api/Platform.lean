import Lulan.Engine.Stores

/-!
# The application state and its errors

What the endpoints share: the errors they answer with, and the parts of the deployment
that live outside the repository (the payment provider's callback format, the pricing
engine, serialisation and cryptography).
-/

namespace Lulan

/-- The text of an error; a store error is shown as itself. -/
inductive Message where
  | text (s : String)
  | store (e : StoreError)
deriving DecidableEq, Repr

inductive Internal where
  | db (e : DbError)
  | store (e : StoreError)
  | ticket (e : TicketError)
  | text (s : String)
deriving DecidableEq, Repr

inductive ApiError where
  | badRequest (m : Message)
  | unauthorized (m : String)
  | forbidden (m : String)
  | notFound (m : String)
  | conflict (m : Message)
  | tooManyRequests
  | serviceUnavailable (m : String)
  | internal (e : Internal)
deriving DecidableEq, Repr

namespace ApiError

/-- Responses the caller can do nothing about. -/
def isInternal : ApiError → Bool
  | internal _ => true
  | _ => false

def ofDb (e : DbError) : ApiError := internal (.db e)

def ofStore : StoreError → ApiError
  | .unknownStop code => badRequest (.store (.unknownStop code))
  | .stopsOutOfOrder origin destination => badRequest (.store (.stopsOutOfOrder origin destination))
  | .span e => badRequest (.store (.span e))
  | .tripNotSellable status => conflict (.store (.tripNotSellable status))
  | .tripDeparted origin departedAt => conflict (.store (.tripDeparted origin departedAt))
  | .unreplayableStream streamId streamSeq => internal (.store (.unreplayableStream streamId streamSeq))
  | .db e => internal (.db e)

/-- A provider saying no is the customer's problem to fix, a provider out of reach is ours. -/
def ofPayment : PaymentError → ApiError
  | .rejected message => conflict (.text s!"payment provider declined: {message}")
  | .unavailable _ => serviceUnavailable "payment provider is unavailable — try again shortly"
  | .badSignature => unauthorized "callback signature is missing or invalid"
  | .malformed message => badRequest (.text s!"callback payload: {message}")

def ofTicket (orderId : Uuid) : TicketError → ApiError
  | .orderNotFound => notFound s!"order {orderId} not found"
  | .notPaid status =>
    conflict (.text s!"tickets require a paid order; current state is {status.asStr.quote}")
  | .noSigningKey => serviceUnavailable "no active ticket signing key"
  | .sealing => internal (.ticket .sealing)
  | .store e => internal (.ticket (.store e))
  | .db e => internal (.ticket (.db e))

end ApiError

/-- A stored fare policy, as the pricing engine receives it. -/
structure FareRuleSet where
  json : String
deriving DecidableEq

structure Adjustment where
  label : String
  amountMinor : Int
deriving DecidableEq

structure Quote where
  currency : String
  baseMinor : Int
  adjustments : List Adjustment
  totalMinor : Int
deriving DecidableEq

/-- Host-derived scalars for one priced line item. -/
structure RuleInput where
  fareKey : String
  segments : Nat
  quantity : Int
  weekday : Nat
  daysBeforeDeparture : Int
  occupancyBp : Int
  promoCode : Option String
  passengerType : Option String
  journeyCount : Nat
  isRoundTrip : Bool
deriving DecidableEq

/-- An add-on line as clients request it. -/
structure AncillaryLine where
  code : String
  tripId : Option Uuid
  passenger : Option Nat
  quantity : Int
deriving DecidableEq

structure QuoteTokenAncillary where
  line : AncillaryLine
  totalMinor : Int
deriving DecidableEq

structure QuoteTokenItem where
  tripId : Uuid
  unitCode : String
  origin : String
  destination : String
  quantity : Int
  passengerType : Option String
  priceMinor : Int
deriving DecidableEq

/-- The signed payload of a quote. -/
structure QuoteToken where
  currency : String
  totalMinor : Int
  exp : Timestamp
  items : List QuoteTokenItem
  ancillaries : List QuoteTokenAncillary
deriving DecidableEq

structure OrderItemRequest where
  unitCode : String
  origin : String
  destination : String
  quantity : Option Int
  passenger : Option Nat
deriving DecidableEq

structure OrderJourneyRequest where
  tripId : Uuid
  items : List OrderItemRequest
deriving DecidableEq

structure PassengerRequest where
  fullName : String
  passengerType : String
  birthdate : Option String
deriving DecidableEq

/-- The body of `POST /v1/orders`: the itinerary shape or the single-trip shape. -/
structure CreateOrderRequest where
  tripId : Option Uuid
  items : Option (List OrderItemRequest)
  journeys : Option (List OrderJourneyRequest)
  passengers : List PassengerRequest
  guestContact : Option String
  quoteToken : Option String
  promoCode : Option String
  holdId : Option Uuid
  ancillaries : List AncillaryLine
deriving DecidableEq

/-- A verified identity assertion. -/
structure Subject where
  issuer : String
  subject : String
  email : Option String
deriving DecidableEq

/-- The deployment: what the endpoints use and the repository does not define. `encode` and
`decode` are the payload of a quote token (JSON in URL-safe base64), `tag` its signature
and `tagMatches` the comparison with a presented one; `digestContact` and `requestHash`
are the SHA-256 of the normalised contact and of the canonical request. -/
structure AppState where
  providerName : String
  authenticatesCallbacks : Bool
  verifyCallback : Option String → String → Except PaymentError PaymentEvent
  parseRules : String → Option FareRuleSet
  price : FareRuleSet → RuleInput → Except String Quote
  encode : QuoteToken → String
  decode : String → Option QuoteToken
  tag : String → String
  tagMatches : String → String → Bool
  retrievalToken : Uuid → String
  digestContact : String → String
  requestHash : CreateOrderRequest → String
  holds : Bool

/-- The program behind an endpoint. -/
abbrev Handler (α : Type) : Type := Io ApiError α

namespace Handler

variable {ε α : Type}

/-- `x.map_err(f)?`. -/
def mapErr (f : ε → ApiError) (x : Io ε α) : Handler α :=
  Lib.Prog.bind x (fun r =>
    match r with
    | .ok a => Lib.Prog.ret (.ok a)
    | .error e => Lib.Prog.ret (.error (f e)))

/-- `store.method().await?`. -/
def store (x : Io StoreError α) : Handler α := mapErr ApiError.ofStore x

def query (f : World → α) : Handler α := Io.query ApiError.ofDb (fun w => .ok (f w))

def transact (t : Tx) (f : TxResult → Option α) : Handler α := Io.transact ApiError.ofDb t f

end Handler

/-- The characters `str::trim` strips. -/
def isWhite (c : Char) : Bool :=
  (9 ≤ c.toNat && c.toNat ≤ 13) || c.toNat == 32 || c.toNat == 0x85 || c.toNat == 0xA0 || c.toNat == 0x1680 ||
    (0x2000 ≤ c.toNat && c.toNat ≤ 0x200A) || c.toNat == 0x2028 || c.toNat == 0x2029 || c.toNat == 0x202F ||
    c.toNat == 0x205F || c.toNat == 0x3000

def trim (s : String) : String :=
  String.ofList ((s.toList.dropWhile isWhite).reverse.dropWhile isWhite).reverse

end Lulan
