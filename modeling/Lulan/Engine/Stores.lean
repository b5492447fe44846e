import Lulan.Engine.Program

/-!
# The store methods

Orders, tickets and inventory as the API and the background sweeper call them.
-/

namespace Lulan

namespace Db

/-- `SELECT id FROM orders WHERE payment_intent_id = $1`. -/
def findByIntent (db : Db) (paymentIntentId : String) : Option Uuid :=
  (db.orders.rows.find? (fun r => decide (r.paymentIntentId = some paymentIntentId))).map OrderRow.id

/-- Unpaid orders past their deadline. -/
def dueOrders (w : World) : List Uuid :=
  (w.db.orders.select (fun r => (r.status == .locked || r.status == .pendingPayment) &&
    r.expiresAt.any (fun t => decide (t < w.now)))).map OrderRow.id

/-- Orders that still hold capacity on a cancelled trip. -/
def unsettledOrders (db : Db) : List OrderRow :=
  db.orders.select (fun o =>
    (o.status == .locked || o.status == .pendingPayment || o.status == .paid || o.status == .ticketed) &&
      db.orderItems.rows.any (fun oi => decide (oi.orderId = o.id) &&
        (db.trips.find? oi.tripId).any (fun t => t.status == .cancelled)))

/-- How sold the fare bucket of a unit is for a span, in basis points. Seats measure their
fare class across the vessel, pools their own fill. -/
def spanOccupancyBp (db : Db) (tripId unitId : Uuid) (kind : UnitKind) (span : SegmentSpan) : Int :=
  match kind with
  | .seat =>
    let fareClass := (db.capacityUnits.find? unitId).bind CapacityUnitRow.fareClass
    let seats := db.seatOccupancy.select (fun so => decide (so.tripId = tripId) && fareClass.isSome &&
      (db.capacityUnits.find? so.unitId).any (fun cu => decide (cu.fareClass = fareClass)))
    let sold := seats.countP (fun so => so.occupiedMask &&& span.mask != 0#64)
    if seats.length = 0 then 0 else (sold * 10000 / seats.length : Nat)
  | .pool =>
    match db.poolOccupancy.find? (tripId, unitId), db.capacityUnits.find? unitId with
    | some po, some cu =>
      let remaining := ((slice po.remaining (span.fromIndex + 1) span.toIndex).min?).getD 0
      let capacity := cu.poolCapacity.getD 0
      if capacity ≤ 0 then 0 else Int.tdiv ((capacity - remaining) * 10000) capacity
    | _, _ => 0

end Db

namespace InventoryStore

def resolveTarget (tripId : Uuid) (unitCode origin destination : String) : Io StoreError (Option ClaimTarget) :=
  Io.query .db (fun w => Db.resolveTarget w tripId unitCode origin destination)

/-- The hard claim: a single guarded `UPDATE`. -/
def claimSeat (tripId unitId : Uuid) (span : SegmentSpan) : Io StoreError ClaimOutcome := do
  let rows ← Io.transact .db (.claimSeat tripId unitId span) TxResult.rows?
  if rows = 1 then return .claimed
  Io.query .db (fun w => .ok (w.db.disambiguateSeat tripId unitId))

def claimPool (tripId unitId : Uuid) (span : SegmentSpan) (qty : Int) : Io StoreError ClaimOutcome := do
  if qty ≤ 0 then return .conflict
  let rows ← Io.transact .db (.claimPool tripId unitId span qty) TxResult.rows?
  if rows = 1 then return .claimed
  Io.query .db (fun w => .ok (w.db.disambiguatePool tripId unitId))

end InventoryStore

/-- What one pass of the cancellation cascade did, and how much is left. -/
structure CascadeStats where
  cancelled : Nat
  refunded : Nat
  failed : Nat
  remaining : Nat
deriving DecidableEq, Repr

/-- How the end of one settlement counts. -/
def CascadeStats.tally (stats : CascadeStats) : Except StoreError TransitionOutcome → CascadeStats
  | .ok (.applied .cancelled) => { stats with cancelled := stats.cancelled + 1 }
  | .ok (.applied _) => { stats with refunded := stats.refunded + 1 }
  | .ok _ => stats
  | .error _ => { stats with failed := stats.failed + 1 }

namespace OrderStore

def resolveTargets : List NewOrderItem → Io StoreError (Except CreateOutcome (List (NewOrderItem × ClaimTarget)))
  | [] => return .ok []
  | item :: rest => do
    match ← InventoryStore.resolveTarget item.tripId item.unitCode item.origin item.destination with
    | none => return .error (.notFound s!"trip {item.tripId} with unit {item.unitCode.quote}")
    | some target =>
      match ← resolveTargets rest with
      | .error outcome => return .error outcome
      | .ok targets => return .ok ((item, target) :: targets)

/-- Create an order, one itinerary: everything is resolved before the write transaction. -/
def create (order : NewOrder) : Io StoreError CreateOutcome := do
  if order.passengers.isEmpty then return .invalid .noPassengers
  if order.items.isEmpty then return .notFound "items (order must contain at least one)"
  match ← resolveTargets order.items with
  | .error outcome => return outcome
  | .ok targets =>
    match wireItems order.passengers targets with
    | .error validation => return .invalid validation
    | .ok wired =>
      match checkAncillaries order.passengers order.ancillaries with
      | .error validation => return .invalid validation
      | .ok () =>
        let now ← Io.now
        Io.transact .db (.createOrder order wired (now + orderTtlMinutes * 60)) TxResult.created?

def get (orderId : Uuid) : Io StoreError (Option OrderRecord) :=
  Io.query .db (fun w => .ok (w.db.getOrder orderId))

def requestPayment (orderId : Uuid) (paymentIntentId : String) : Io StoreError TransitionOutcome :=
  Io.transact .db (.requestPayment orderId paymentIntentId) TxResult.outcome?

def findByIntent (paymentIntentId : String) : Io StoreError (Option Uuid) :=
  Io.query .db (fun w => .ok (w.db.findByIntent paymentIntentId))

/-- Reconcile a provider callback by intent id. -/
def applyPaymentResult (paymentIntentId : String) (succeeded : Bool) : Io StoreError TransitionOutcome := do
  match ← findByIntent paymentIntentId with
  | none => return .notFound
  | some orderId => Io.transact .db (.paymentResult orderId succeeded) TxResult.outcome?

def cancel (orderId : Uuid) : Io StoreError TransitionOutcome :=
  Io.transact .db (.cancel orderId) TxResult.outcome?

def refund (orderId : Uuid) : Io StoreError TransitionOutcome :=
  Io.transact .db (.refund orderId) TxResult.outcome?

def expireAll : List Uuid → Nat → Io StoreError Nat
  | [], expired => return expired
  | orderId :: rest, expired => do
    match ← Io.transact .db (.expire orderId) TxResult.outcome? with
    | .applied _ => expireAll rest (expired + 1)
    | _ => expireAll rest expired

/-- Expire every overdue order. -/
def expireDue : Io StoreError Nat := do
  let due ← Io.query .db (fun w => .ok (Db.dueOrders w))
  expireAll due 0

/-- The provider's part of a refund; an order without an intent has no money to give back. -/
def refundMoney {ε : Type} (row : OrderRow) : Io ε (Except PaymentError Unit) := do
  match row.paymentIntentId with
  | none => return .ok ()
  | some intent =>
    match ← Io.call (.refund row.id intent row.totalMinor) with
    | .refunded result => return result
    | _ => return .error (.unavailable "no reply")

/-- Settle one order of a cancelled trip: money first, inventory second. -/
def settleOrder (row : OrderRow) (stats : CascadeStats) : Io StoreError CascadeStats := do
  if row.status = .locked ∨ row.status = .pendingPayment then
    let outcome ← Io.attempt (cancel row.id)
    return stats.tally outcome
  else
    match ← refundMoney row with
    | .error _ => return { stats with failed := stats.failed + 1 }
    | .ok () =>
      let outcome ← Io.attempt (refund row.id)
      return stats.tally outcome

def settleOrders : List OrderRow → CascadeStats → Io StoreError CascadeStats
  | [], stats => return stats
  | row :: rest, stats => do
    let stats ← settleOrder row stats
    settleOrders rest stats

/-- Settle up to `limit` orders that still hold capacity on a cancelled trip. -/
def settleCancelledTrips (limit : Nat) : Io StoreError CascadeStats := do
  let rows ← Io.query .db (fun w =>
    .ok ((w.db.unsettledOrders.insertionSort (fun a b => a.id ≤ b.id)).take limit))
  let stats ← settleOrders rows ⟨0, 0, 0, 0⟩
  let remaining ← Io.query .db (fun w => .ok w.db.unsettledOrders.length)
  return { stats with remaining }

end OrderStore

namespace TicketStore

/-- The active signing key. -/
def activeSigner : Io TicketError TicketSigner := do
  match ← Io.query .db (fun w => .ok w.db.activeKey) with
  | none => throw .noSigningKey
  | some row =>
    match row.secret with
    | none => throw .sealing
    | some key => return ⟨row.kid, key⟩

def ticketsForOrder (orderId : Uuid) : Io TicketError (List IssuedTicket) :=
  Io.query .db (fun w => .ok (w.db.ticketsForOrder orderId))

/-- Issue the tickets of a paid order; an order that has them returns them. -/
def issueForOrder (orderId : Uuid) : Io TicketError (List IssuedTicket) := do
  let signer ← activeSigner
  match ← Io.transact .db (.issueForOrder orderId signer) TxResult.issued? with
  | .issued tickets => return tickets
  | .alreadyTicketed => ticketsForOrder orderId
  | .notPaid status => throw (.notPaid status)
  | .orderNotFound => throw .orderNotFound

def recordScan (ticketId : Uuid) (deviceId : String) (scannedAt : Timestamp) (result : String) :
    Io TicketError ScanOutcome :=
  Io.transact .db (.recordScan ticketId deviceId scannedAt result) TxResult.scanned?

end TicketStore

end Lulan
