import Lulan.Api.Idempotency
import Lulan.Api.Pricing

/-!
# Order endpoints

Create (prices, then claims inventory for the whole party), request payment, the payment
provider's webhook, and cancel.
-/

namespace Lulan

structure PaymentResponse where
  orderId : Uuid
  status : OrderStatus
  paymentIntentId : String
  clientSecret : Option String
  provider : String
deriving DecidableEq

/-- `applied` is false when the delivery was a duplicate, out of order, or not about the
order lifecycle. -/
structure WebhookResponse where
  orderStatus : Option OrderStatus
  applied : Bool
deriving DecidableEq

structure CancelResponse where
  orderId : Uuid
  status : OrderStatus
deriving DecidableEq

/-- The items of an order as they are priced. -/
structure PricedOrder where
  currency : String
  items : List NewOrderItem
  quoteAncillaries : Option (List QuoteTokenAncillary)

namespace Orders

def maxPassengers : Nat := 20

/-- Either request shape as journeys of a trip and its items. -/
def journeysOf (req : CreateOrderRequest) : Except ApiError (List (Uuid × List OrderItemRequest)) :=
  match req.tripId, req.items, req.journeys with
  | none, none, some journeys =>
    if journeys.isEmpty || journeys.any (fun j => j.items.isEmpty) then
      .error (.badRequest (.text "every journey needs at least one item"))
    else if journeys.length > 8 then .error (.badRequest (.text "max 8 journeys per itinerary"))
    else .ok (journeys.map (fun j => (j.tripId, j.items)))
  | some tripId, some items, none =>
    if items.isEmpty then .error (.badRequest (.text "provide either journeys[] or trip_id + items"))
    else .ok [(tripId, items)]
  | _, _, _ => .error (.badRequest (.text "provide either journeys[] or trip_id + items"))

def flatten (journeys : List (Uuid × List OrderItemRequest)) : List (Uuid × OrderItemRequest) :=
  journeys.flatMap (fun j => j.2.map (fun i => (j.1, i)))

def parsePassenger (p : PassengerRequest) : Except ApiError NewPassenger :=
  if (trim p.fullName).isEmpty then .error (.badRequest (.text "passenger full_name is required"))
  else
    match PassengerType.parse p.passengerType with
    | none => .error (.badRequest (.text
        s!"unknown passenger type {p.passengerType.quote} (adult/child/senior/pwd/infant)"))
    | some passengerType => .ok ⟨trim p.fullName, passengerType, p.birthdate⟩

/-- The passenger type a seat item travels under. -/
def seatPassengerType (passengers : List NewPassenger) (item : OrderItemRequest) : Option String :=
  match item.passenger.or (if passengers.length = 1 then some 0 else none) with
  | none => none
  | some index => (passengers[index]?).map (fun p => p.passengerType.asStr)

/-- A presented hold must be alive and cover the trips; a hold service that does not
answer blocks nothing. -/
def checkHold (app : AppState) (holdId : Option Uuid) (trips : List Uuid) : Handler Unit := do
  match holdId with
  | none => return ()
  | some holdId =>
    if app.holds then
      match ← Io.call (.itineraryMembers holdId) with
      | .members (some (some members)) =>
        if trips.all (fun t => members.any (fun m => m.tripId == t)) then return ()
        else throw (.conflict (.text "hold does not cover this itinerary's trips"))
      | .members (some none) =>
        throw (.conflict (.text ("hold expired — the seats were released; re-select and hold again " ++
          "(or retry without hold_id)")))
      | _ => return ()
    else return ()

def contextOf (journeys : List (Uuid × List OrderItemRequest)) : JourneyContext :=
  journeyContext (journeys.map (fun j =>
    (j.1, j.2.map (fun i => ⟨i.unitCode, i.origin, i.destination, i.quantity, none⟩))))

/-- Whether a quoted item covers a requested one. -/
def quotes (tripId : Uuid) (item : OrderItemRequest) (quantity : Int) (passengerType : Option String)
    (q : QuoteTokenItem) : Bool :=
  decide (q.tripId = tripId) && decide (q.unitCode = item.unitCode) && decide (q.origin = item.origin) &&
    decide (q.destination = item.destination) && decide (q.quantity = quantity) &&
    decide (q.passengerType = passengerType)

/-- One requested item at its quoted price. -/
def quotedItem (quote : QuoteToken) (passengers : List NewPassenger) (tripId : Uuid) (item : OrderItemRequest) :
    Handler NewOrderItem := do
  let quantity := item.quantity.getD 1
  match ← Handler.store (InventoryStore.resolveTarget tripId item.unitCode item.origin item.destination) with
  | none => throw (.notFound s!"trip {tripId} with unit {item.unitCode.quote}")
  | some target =>
    let passengerType := if target.kind = .seat then seatPassengerType passengers item else none
    match quote.items.find? (quotes tripId item quantity passengerType) with
    | none => throw (.badRequest (.text (s!"item {item.unitCode} ({item.origin}→{item.destination} " ++
        s!"×{quantity}, {passengerType.map String.quote}) is not covered by the quote")))
    | some quoted =>
      return ⟨tripId, item.unitCode, item.origin, item.destination, quantity, quoted.priceMinor, item.passenger⟩

def quotedItems (quote : QuoteToken) (passengers : List NewPassenger) :
    List (Uuid × OrderItemRequest) → Handler (List NewOrderItem)
  | [] => return []
  | (tripId, item) :: rest => do
    let first ← quotedItem quote passengers tripId item
    let others ← quotedItems quote passengers rest
    return first :: others

/-- The items at the prices of the quote token, or else at live prices. -/
def priceOrder (app : AppState) (req : CreateOrderRequest) (passengers : List NewPassenger)
    (journeys : List (Uuid × List OrderItemRequest)) : Handler PricedOrder := do
  match req.quoteToken with
  | some token =>
    let now ← Io.now
    match Quotes.verify app now token with
    | none => throw (.badRequest (.text "invalid or expired quote token"))
    | some quote =>
      let items ← quotedItems quote passengers (flatten journeys)
      return ⟨quote.currency, items, some quote.ancillaries⟩
  | none =>
    let priced ← Pricing.priceItems app ((flatten journeys).map (fun i => ⟨i.1, i.2.unitCode, i.2.origin,
      i.2.destination, i.2.quantity, seatPassengerType passengers i.2⟩)) req.promoCode (contextOf journeys)
    let currency := (priced.head?.map (fun p => p.quote.currency)).getD ""
    match priced.find? (fun p => decide (p.quote.currency ≠ currency)) with
    | some odd => throw (.internal (.text (s!"fare rules priced one itinerary in two currencies " ++
        s!"({currency} and {odd.quote.currency})")))
    | none =>
      return ⟨currency, (priced.zip (flatten journeys)).map (fun x => ⟨x.1.tripId, x.1.unitCode, x.1.origin,
        x.1.destination, x.1.quantity, x.1.quote.totalMinor, x.2.2.passenger⟩), none⟩

def PricedAncillary.toOrder (priced : PricedAncillary) (totalMinor : Int) : NewOrderAncillary where
  ancillaryId := priced.ancillary.id
  code := priced.ancillary.code
  name := priced.ancillary.name
  tripId := priced.line.tripId
  passengerIndex := priced.line.passenger
  quantity := priced.line.quantity
  totalMinor

/-- One add-on line at its quoted total. -/
def lockLine (quoted : List QuoteTokenAncillary) (priced : PricedAncillary) : Except ApiError NewOrderAncillary :=
  match quoted.find? (fun q => decide (q.line = priced.line)) with
  | none => .error (.badRequest (.text s!"ancillary {priced.line.code} is not covered by the quote"))
  | some locked => .ok (PricedAncillary.toOrder priced locked.totalMinor)

/-- The add-on lines of an order: with a quote they must match the quoted lines. -/
def ancillaryLines (quoted : Option (List QuoteTokenAncillary)) (priced : List PricedAncillary) :
    Except ApiError (List NewOrderAncillary) :=
  match quoted with
  | none => .ok (priced.map (fun p => PricedAncillary.toOrder p p.totalMinor))
  | some quoted =>
    if quoted.length ≠ priced.length then
      .error (.badRequest (.text "ancillaries differ from the quote — re-quote or match them exactly"))
    else priced.mapM (lockLine quoted)

def ofOutcome : CreateOutcome → ApiError
  | .conflict unitCode => .conflict (.text s!"{unitCode} is no longer available for the requested span")
  | .notFound what => .notFound s!"{what} not found"
  | .invalid v =>
    .badRequest (.text (match v with
      | .seatNeedsPassenger unitCode => s!"seat {unitCode} needs a passenger index"
      | .passengerIndexOutOfRange unitCode index =>
        s!"seat {unitCode} references passenger {index}, which does not exist"
      | .poolWithPassenger unitCode => s!"pool item {unitCode} cannot reference a passenger"
      | .noPassengers => "orders need at least one passenger"))
  | .created _ => .internal (.text "matched above")

/-- The itinerary hold has served its purpose. -/
def releaseHold (app : AppState) (holdId : Option Uuid) : Handler Unit := do
  match holdId with
  | none => return ()
  | some holdId =>
    if app.holds then
      let _ ← Io.call (.releaseItinerary holdId)
      return ()
    else return ()

/-- Give a key back, if one was reserved. -/
def giveBack (reservation : Option Reservation) : Handler Unit :=
  match reservation with
  | none => return ()
  | some reservation => Idempotency.release reservation

/-- Store the response under the key, if one was reserved. -/
def complete (reservation : Option Reservation) (orderId : Uuid) (body : CreateOrderResponse) : Handler Unit := do
  match reservation with
  | none => return ()
  | some reservation =>
    let _ ← Idempotency.complete reservation orderId 201 body
    return ()

/-- The reservation window: create the order, then complete the key or give it back. -/
def book (app : AppState) (reservation : Option Reservation) (order : NewOrder) (holdId : Option Uuid) :
    Handler (Nat × CreateOrderResponse) := do
  match ← Io.attempt (OrderStore.create order) with
  | .ok (.created record) =>
    releaseHold app holdId
    let body : CreateOrderResponse := ⟨record, app.retrievalToken record.orderId, order.customerId⟩
    complete reservation record.orderId body
    return (201, body)
  | .ok outcome =>
    giveBack reservation
    throw (ofOutcome outcome)
  | .error e =>
    giveBack reservation
    throw (.ofStore e)

/-- The customer behind a bearer token. -/
def customerOf (subject : Option Subject) : Handler (Option Uuid) := do
  match subject with
  | none => return none
  | some subject =>
    let id ← Handler.transact (.upsertCustomer subject.issuer subject.subject subject.email) TxResult.customer?
    return some id

/-- The caller's identity: a customer, or a guest with a contact. -/
def identify (subject : Option Subject) (req : CreateOrderRequest) : Handler (Option Uuid × Option String) := do
  let customerId ← customerOf subject
  let guestContact := req.guestContact.map trim
  if customerId.isNone ∧ guestContact.all String.isEmpty then
    throw (.badRequest (.text "guest orders need guest_contact (email or phone) for retrieval"))
  else return (customerId, guestContact)

/-- Everything the caller's request has to pass before its key is reserved. -/
def prepare (app : AppState) (req : CreateOrderRequest) (journeys : List (Uuid × List OrderItemRequest))
    (customerId : Option Uuid) (guestContact : Option String) : Handler NewOrder := do
  match req.passengers.mapM parsePassenger with
  | .error e => throw e
  | .ok passengers =>
    checkHold app req.holdId ((flatten journeys).map Prod.fst)
    let priced ← priceOrder app req passengers journeys
    let pricedAncillaries ← Pricing.priceLines req.ancillaries (journeys.map Prod.fst)
    match ancillaryLines priced.quoteAncillaries pricedAncillaries with
    | .error e => throw e
    | .ok ancillaries =>
      return ⟨passengers, priced.items, ancillaries, priced.currency, customerId, guestContact⟩

/-- `POST /v1/orders`. -/
def create (app : AppState) (subject : Option Subject) (idempotencyKey : Option String)
    (req : CreateOrderRequest) : Handler (Nat × CreateOrderResponse) := do
  let key := Idempotency.keyFromHeader idempotencyKey
  let requestHash := app.requestHash req
  match journeysOf req with
  | .error e => throw e
  | .ok journeys =>
    if req.passengers.isEmpty || req.passengers.length > maxPassengers then
      throw (.badRequest (.text s!"orders need 1–{maxPassengers} passengers"))
    else
      let (customerId, guestContact) ← identify subject req
      let scope := Idempotency.scope app customerId guestContact
      match ← Idempotency.replayIfCompleted key scope requestHash with
      | some response => return response
      | none =>
        let order ← prepare app req journeys customerId guestContact
        match ← Idempotency.reserve key scope requestHash with
        | .replay statusCode response => return (statusCode, response)
        | .held reservation => book app (some reservation) order req.holdId
        | .disabled => book app none order req.holdId

/-- `POST /v1/orders/{order_id}/payment`. -/
def requestPayment (app : AppState) (orderId : Uuid) : Handler PaymentResponse := do
  match ← Handler.store (OrderStore.get orderId) with
  | none => throw (.notFound s!"order {orderId} not found")
  | some record =>
    match ← Io.call (.createIntent orderId record.totalMinor record.currency) with
    | .intent (.ok intent) =>
      match ← Handler.store (OrderStore.requestPayment orderId intent.id) with
      | .applied status => return ⟨orderId, status, intent.id, intent.clientSecret, app.providerName⟩
      | .noOp current =>
        throw (.conflict (.text s!"payment cannot be requested in state {current.asStr.quote}"))
      | .notFound => throw (.notFound s!"order {orderId} not found")
    | .intent (.error e) => throw (.ofPayment e)
    | _ => throw (.ofPayment (.unavailable "no reply"))

/-- After a callback was reconciled: a capture issues the tickets, best-effort. -/
def afterPayment (paymentIntentId : String) : TransitionOutcome → Handler WebhookResponse
  | .notFound => throw (.notFound s!"no order for payment intent {paymentIntentId.quote}")
  | .noOp status => return ⟨some status, false⟩
  | .applied .paid => do
    match ← Handler.store (OrderStore.findByIntent paymentIntentId) with
    | none => return ⟨some .paid, true⟩
    | some orderId =>
      match ← Io.attempt (TicketStore.issueForOrder orderId) with
      | .ok _ => return ⟨some .ticketed, true⟩
      | .error _ => return ⟨some .paid, true⟩
  | .applied status => return ⟨some status, true⟩

/-- `POST /v1/payments/webhook`. A provider that signs its callbacks is authenticated by
the signature, any other by an integration key; `keyError` is what checking that key ends
with. -/
def paymentWebhook (app : AppState) (signature : Option String) (keyError : Option ApiError) (body : String) :
    Handler WebhookResponse := do
  match if app.authenticatesCallbacks then none else keyError with
  | some e => throw e
  | none =>
    match app.verifyCallback (if app.authenticatesCallbacks then signature else none) body with
    | .error e => throw (.ofPayment e)
    | .ok .ignored => return ⟨none, false⟩
    | .ok (.captured intent) =>
      let outcome ← Handler.store (OrderStore.applyPaymentResult intent true)
      afterPayment intent outcome
    | .ok (.failed intent) =>
      let outcome ← Handler.store (OrderStore.applyPaymentResult intent false)
      afterPayment intent outcome

/-- `POST /v1/orders/{order_id}/cancel`. -/
def cancel (orderId : Uuid) : Handler CancelResponse := do
  match ← Handler.store (OrderStore.cancel orderId) with
  | .applied status => return ⟨orderId, status⟩
  | .noOp current => throw (.conflict (.text s!"order cannot be cancelled in state {current.asStr.quote}"))
  | .notFound => throw (.notFound s!"order {orderId} not found")

end Orders

end Lulan
