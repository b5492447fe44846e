import Lulan.Lib.RowLock
import Lulan.Api.Reservations

/-!
# The running system

Every request the server and its sweeper can be working on, the handler of each, and the
two levels at which their transactions interleave: one step for each transaction, and row
locks.
-/

namespace Lulan

structure ScanRequest where
  ticketId : Uuid
  scannedAt : Timestamp
  result : String
deriving DecidableEq

namespace Tickets

/-- `POST /v1/orders/{order_id}/tickets`. -/
def issue (orderId : Uuid) : Handler (List IssuedTicket) :=
  Handler.mapErr (ApiError.ofTicket orderId) (TicketStore.issueForOrder orderId)

def syncScans (deviceId : String) : List ScanRequest → Handler (List ScanOutcome)
  | [] => return []
  | scan :: rest => do
    let outcome ← Handler.mapErr (fun e => .internal (.ticket e))
      (TicketStore.recordScan scan.ticketId deviceId scan.scannedAt scan.result)
    let outcomes ← syncScans deviceId rest
    return outcome :: outcomes

/-- `POST /v1/scans`. -/
def sync (deviceId : String) (scans : List ScanRequest) : Handler (List ScanOutcome) := do
  if (trim deviceId).isEmpty then throw (.badRequest (.text "device_id is required"))
  else if scans.length > 1000 then throw (.badRequest (.text "max 1000 scans per batch"))
  else syncScans deviceId scans

def revocationHorizonHours : Int := 72

/-- `GET /v1/revocations`. -/
def revocations (tripId : Option Uuid) : Handler (List Uuid) :=
  Handler.query (fun w => w.db.revokedTickets w.now tripId revocationHorizonHours)

end Tickets

namespace Admin

def inlineCascadeLimit : Nat := 25

/-- `POST /v1/admin/orders/{id}/refund`: money back first, then the inventory. -/
def refundOrder (orderId : Uuid) : Handler OrderStatus := do
  match ← Handler.query (fun w => w.db.orders.find? orderId) with
  | none => throw (.notFound s!"order {orderId} not found")
  | some row =>
    match ← OrderStore.refundMoney row with
    | .error e => throw (.ofPayment e)
    | .ok () =>
      match ← Handler.store (OrderStore.refund orderId) with
      | .applied status =>
        let _ ← Handler.transact (.audit ⟨"order.refunded", some orderId, none⟩) TxResult.rows?
        return status
      | .noOp current => throw (.conflict (.text s!"order cannot be refunded in state {current.asStr.quote}"))
      | .notFound => throw (.notFound s!"order {orderId} not found")

/-- `POST /v1/admin/trips/{id}/cancel`: stop the sale, then settle a first batch of orders. -/
def cancelTrip (tripId : Uuid) : Handler CascadeStats := do
  let updated ← Handler.transact (.cancelTrip tripId) TxResult.rows?
  if updated = 0 then throw (.notFound s!"trip {tripId} not found or already cancelled")
  else
    let stats ← Handler.store (OrderStore.settleCancelledTrips inlineCascadeLimit)
    let _ ← Handler.transact (.audit ⟨"trip.cancelled", none, some tripId⟩) TxResult.rows?
    return stats

end Admin

/-- Endpoints, sweeper passes, and the store methods that can also be called by themselves. -/
inductive Request where
  | createQuote (req : QuoteRequest)
  | createOrder (subject : Option Subject) (idempotencyKey : Option String) (req : CreateOrderRequest)
  | requestPayment (orderId : Uuid)
  | paymentWebhook (signature : Option String) (keyError : Option ApiError) (body : String)
  | cancelOrder (orderId : Uuid)
  | issueTickets (orderId : Uuid)
  | syncScans (deviceId : String) (scans : List ScanRequest)
  | refundOrder (orderId : Uuid)
  | cancelTrip (tripId : Uuid)
  | expireDue
  | settleCancelledTrips (limit : Nat)
  | storeCreate (order : NewOrder)
  | claimSeat (tripId unitId : Uuid) (span : SegmentSpan)
  | claimPool (tripId unitId : Uuid) (span : SegmentSpan) (qty : Int)
  | createClaim (tripId : Uuid) (req : ClaimRequest)
deriving DecidableEq

inductive Response where
  | quote (response : QuoteResponse)
  | order (statusCode : Nat) (response : CreateOrderResponse)
  | payment (response : PaymentResponse)
  | webhook (response : WebhookResponse)
  | cancelled (response : CancelResponse)
  | tickets (tickets : List IssuedTicket)
  | scans (outcomes : List ScanOutcome)
  | refunded (status : OrderStatus)
  | settled (stats : CascadeStats)
  | expired (n : Nat)
  | outcome (outcome : CreateOutcome)
  | claim (outcome : ClaimOutcome)
  | claimed (response : ClaimResponse)
deriving DecidableEq

/-- How a request ends. -/
abbrev Answer : Type := Except ApiError Response

def Handler.answer {α : Type} (x : Handler α) (f : α → Response) : Program Answer :=
  Lib.Prog.bind x (fun r => Lib.Prog.ret (r.map f))

/-- The handler of each request. -/
def Request.handler (app : AppState) : Request → Program Answer
  | .createQuote req => (Quotes.create app req).answer .quote
  | .createOrder subject key req => (Orders.create app subject key req).answer (fun r => .order r.1 r.2)
  | .requestPayment orderId => (Orders.requestPayment app orderId).answer .payment
  | .paymentWebhook signature keyError body =>
    (Orders.paymentWebhook app signature keyError body).answer .webhook
  | .cancelOrder orderId => (Orders.cancel orderId).answer .cancelled
  | .issueTickets orderId => (Tickets.issue orderId).answer .tickets
  | .syncScans deviceId scans => (Tickets.sync deviceId scans).answer .scans
  | .refundOrder orderId => (Admin.refundOrder orderId).answer .refunded
  | .cancelTrip tripId => (Admin.cancelTrip tripId).answer .settled
  | .expireDue => (Handler.store OrderStore.expireDue).answer .expired
  | .settleCancelledTrips limit => (Handler.store (OrderStore.settleCancelledTrips limit)).answer .settled
  | .storeCreate order => (Handler.store (OrderStore.create order)).answer .outcome
  | .claimSeat tripId unitId span => (Handler.store (InventoryStore.claimSeat tripId unitId span)).answer .claim
  | .claimPool tripId unitId span qty =>
    (Handler.store (InventoryStore.claimPool tripId unitId span qty)).answer .claim
  | .createClaim tripId req => (Reservations.createClaim app tripId req).answer .claimed

/-- The server: requests over the database, which lets time pass between their steps. The sweep of
idempotency keys is left out, so a completed key stays. -/
def site (app : AppState) : Lib.Site Request World Tx TxResult Call Reply Answer Oracle Nat where
  handler := Request.handler app
  run := Tx.run
  env seconds w := { w with now := w.now + seconds }
  fits := Call.fits

/-- An event of the history. -/
abbrev Event : Type := Lib.Ev Request Tx TxResult Call Reply Answer

end Lulan
