import Lulan.Engine.Events
import Lulan.Engine.Inventory

/-!
# Order engine: creation and lifecycle transitions

The bodies of the order transactions. A transition starts with `SELECT … FOR UPDATE` on
the order row; what it reads under that lock (the status, and the position its event
takes in the stream) is an argument here, so that the same body can be run in one step
or statement by statement.
-/

namespace Lulan

def orderTtlMinutes : Int := 15

structure NewPassenger where
  fullName : String
  passengerType : PassengerType
  birthdate : Option String
deriving DecidableEq

structure NewOrderItem where
  tripId : Uuid
  unitCode : String
  origin : String
  destination : String
  quantity : Int
  priceMinor : Int
  passengerIndex : Option Nat
deriving DecidableEq

structure NewOrderAncillary where
  ancillaryId : Uuid
  code : String
  name : String
  tripId : Option Uuid
  passengerIndex : Option Nat
  quantity : Int
  totalMinor : Int
deriving DecidableEq

/-- Everything one booking needs. -/
structure NewOrder where
  passengers : List NewPassenger
  items : List NewOrderItem
  ancillaries : List NewOrderAncillary
  currency : String
  customerId : Option Uuid
  guestContact : Option String
deriving DecidableEq

/-- Rejections that are the caller's fault, surfaced before anything is written. -/
inductive ItemValidation where
  | seatNeedsPassenger (unitCode : String)
  | passengerIndexOutOfRange (unitCode : String) (index : Nat)
  | poolWithPassenger (unitCode : String)
  | noPassengers
deriving DecidableEq, Repr

inductive CreateOutcome where
  | created (record : OrderRecord)
  | conflict (unitCode : String)
  | notFound (what : String)
  | invalid (v : ItemValidation)
deriving DecidableEq

/-- Result of a lifecycle transition. An event that is illegal in the current state is
not an error: duplicate and out-of-order deliveries land in `noOp`. -/
inductive TransitionOutcome where
  | applied (status : OrderStatus)
  | noOp (status : OrderStatus)
  | notFound
deriving DecidableEq, Repr

/-- An item with the target it resolved to and the passenger slot it travels under. -/
structure WiredItem where
  item : NewOrderItem
  target : ClaimTarget
  slot : Option Nat
deriving DecidableEq

/-- Why the booking transaction rolls back. -/
inductive Abort where
  | conflict (unitCode : String)
  | db (e : DbError)
deriving DecidableEq, Repr

def NewOrder.totalMinor (o : NewOrder) : Int :=
  (o.items.map NewOrderItem.priceMinor).sum + (o.ancillaries.map NewOrderAncillary.totalMinor).sum

/-- Distinct trips in item order: the legs of the itinerary. -/
def distinctTrips (items : List OrderItem) : List Uuid :=
  items.foldl (fun trips item => if item.tripId ∈ trips then trips else trips ++ [item.tripId]) []

/-- Passenger wiring of one item: every seat belongs to exactly one passenger, pools are order-level. -/
def wireItem (passengers : List NewPassenger) (item : NewOrderItem) (target : ClaimTarget) :
    Except ItemValidation WiredItem :=
  match target.kind with
  | .seat =>
    let index := match item.passengerIndex with
      | some index => some index
      | none => if passengers.length = 1 then some 0 else none
    match index with
    | none => .error (.seatNeedsPassenger item.unitCode)
    | some index =>
      if index ≥ passengers.length then .error (.passengerIndexOutOfRange item.unitCode index)
      else .ok ⟨item, target, some index⟩
  | .pool =>
    if item.passengerIndex.isSome then .error (.poolWithPassenger item.unitCode)
    else .ok ⟨item, target, none⟩

def wireItems (passengers : List NewPassenger) :
    List (NewOrderItem × ClaimTarget) → Except ItemValidation (List WiredItem)
  | [] => .ok []
  | (item, target) :: rest => do
    let wired ← wireItem passengers item target
    let wireds ← wireItems passengers rest
    .ok (wired :: wireds)

/-- Every add-on that names a passenger names one of the party. -/
def checkAncillaries (passengers : List NewPassenger) : List NewOrderAncillary → Except ItemValidation Unit
  | [] => .ok ()
  | line :: rest =>
    match line.passengerIndex with
    | some index =>
      if index ≥ passengers.length then .error (.passengerIndexOutOfRange line.code index)
      else checkAncillaries passengers rest
    | none => checkAncillaries passengers rest

namespace Db

def insertPassengers (orderId : Uuid) (now : Timestamp) :
    List (Uuid × NewPassenger) → Db → Except DbError (List PassengerRecord × Db)
  | [], db => .ok ([], db)
  | (id, p) :: rest, db => do
    let db ← db.insertPassenger ⟨id, orderId, p.fullName, p.passengerType, p.birthdate, now⟩
    let (records, db) ← insertPassengers orderId now rest db
    .ok (⟨id, p.fullName, p.passengerType, p.birthdate⟩ :: records, db)

/-- The guarded claim behind one item. -/
def claimTarget (db : Db) (item : NewOrderItem) (target : ClaimTarget) : Nat × Db :=
  match target.kind with
  | .seat => db.claimSeatExec item.tripId target.unitId target.span
  | .pool =>
    if item.quantity ≤ 0 then (0, db)
    else db.claimPoolExec item.tripId target.unitId target.span item.quantity

/-- The row an item is recorded as. -/
def itemRow (orderId : Uuid) (passengers : List PassengerRecord) (w : WiredItem) : OrderItemRow where
  orderId
  tripId := w.item.tripId
  unitId := w.target.unitId
  unitCode := w.item.unitCode
  kind := w.target.kind
  span := w.target.span
  quantity := max w.item.quantity 1
  priceMinor := w.item.priceMinor
  passengerId := w.slot.bind (fun index => (passengers[index]?).map PassengerRecord.id)

def claimItem (orderId : Uuid) (passengers : List PassengerRecord) (w : WiredItem) (db : Db) :
    Except Abort Db :=
  let (rows, db) := db.claimTarget w.item w.target
  if rows ≠ 1 then .error (.conflict w.item.unitCode)
  else
    match db.insertOrderItem (itemRow orderId passengers w) with
    | .error e => .error (.db e)
    | .ok db => .ok db

def claimItems (orderId : Uuid) (passengers : List PassengerRecord) : List WiredItem → Db → Except Abort Db
  | [], db => .ok db
  | w :: rest, db => do
    let db ← claimItem orderId passengers w db
    claimItems orderId passengers rest db

def ancillaryRow (id orderId : Uuid) (passengers : List PassengerRecord) (line : NewOrderAncillary) :
    OrderAncillaryRow where
  id
  orderId
  ancillaryId := line.ancillaryId
  code := line.code
  name := line.name
  tripId := line.tripId
  passengerId := line.passengerIndex.bind (fun index => (passengers[index]?).map PassengerRecord.id)
  quantity := line.quantity
  totalMinor := line.totalMinor

def insertAncillaries (orderId : Uuid) (passengers : List PassengerRecord) :
    List (Uuid × NewOrderAncillary) → Db → Except DbError Db
  | [], db => .ok db
  | (id, line) :: rest, db => do
    let db ← db.insertOrderAncillary (ancillaryRow id orderId passengers line)
    insertAncillaries orderId passengers rest db

end Db

def OrderItemRow.toItem (r : OrderItemRow) : OrderItem :=
  ⟨r.tripId, r.unitCode, r.kind, r.span.fromIndex, r.span.toIndex, r.quantity, r.priceMinor, r.passengerId⟩

def OrderAncillaryRow.toAncillary (r : OrderAncillaryRow) : OrderAncillary :=
  ⟨r.code, r.name, r.tripId, r.passengerId, r.quantity, r.totalMinor⟩

def PassengerRow.toRecord (r : PassengerRow) : PassengerRecord :=
  ⟨r.id, r.fullName, r.passengerType, r.birthdate⟩

/-- Where the identifiers of a booking come from. -/
structure BookingIds where
  orderId : Uuid
  passengerId : Nat → Uuid
  ancillaryId : Nat → Uuid

namespace Db

/-- The row a new order starts as. -/
def newOrderRow (orderId : Uuid) (o : NewOrder) (expiresAt : Timestamp) : OrderRow where
  id := orderId
  passengerName := (o.passengers.head?.map NewPassenger.fullName).getD ""
  status := .locked
  totalMinor := o.totalMinor
  currency := o.currency
  paymentIntentId := none
  expiresAt := some expiresAt
  customerId := o.customerId
  guestContact := o.guestContact

def recordOf (orderId : Uuid) (o : NewOrder) (expiresAt : Timestamp) (passengers : List PassengerRecord)
    (wired : List WiredItem) : OrderRecord :=
  let items := wired.map (fun w => (itemRow orderId passengers w).toItem)
  { orderId
    tripIds := distinctTrips items
    passengerName := (o.passengers.head?.map NewPassenger.fullName).getD ""
    status := .locked
    totalMinor := o.totalMinor
    currency := o.currency
    paymentIntentId := none
    expiresAt := some expiresAt
    passengers
    items
    ancillaries := o.ancillaries.map (fun line => (ancillaryRow 0 orderId passengers line).toAncillary) }

def liftDb {α : Type} : Except DbError α → Except Abort α
  | .ok a => .ok a
  | .error e => .error (.db e)

/-- The booking transaction: order row, passengers, claims and events commit together. -/
def createOrder (db : Db) (ids : BookingIds) (now expiresAt : Timestamp) (o : NewOrder)
    (wired : List WiredItem) : Except Abort (OrderRecord × Db) := do
  let db ← liftDb (db.insertOrder (newOrderRow ids.orderId o expiresAt))
  let (passengers, db) ← liftDb (insertPassengers ids.orderId now
    (o.passengers.mapIdx (fun i p => (ids.passengerId i, p))) db)
  let db ← claimItems ids.orderId passengers wired db
  let db ← liftDb (insertAncillaries ids.orderId passengers
    (o.ancillaries.mapIdx (fun i line => (ids.ancillaryId i, line))) db)
  let db ← liftDb (db.append ids.orderId (db.maxStreamSeq ids.orderId + 1) OrderEventType.orderCreated.asStr)
  let db ← liftDb (db.append ids.orderId (db.maxStreamSeq ids.orderId + 1) OrderEventType.inventoryLocked.asStr)
  .ok (recordOf ids.orderId o expiresAt passengers wired, db)

/-- `SELECT status FROM orders WHERE id = $1 FOR UPDATE`. -/
def lockOrder (db : Db) (orderId : Uuid) : Option OrderStatus :=
  (db.orders.find? orderId).map OrderRow.status

/-- `UPDATE orders SET … WHERE id = $1`. -/
def updateOrder (db : Db) (orderId : Uuid) (f : Lib.Assign OrderRow.id) : Db :=
  { db with orders := db.orders.update (fun r => decide (r.id = orderId)) f }

def setStatus (db : Db) (orderId : Uuid) (next : OrderStatus) : Db :=
  db.updateOrder orderId ⟨fun r => { r with status := next }, fun _ => rfl⟩

/-- One lifecycle step under the order row lock: check legality, update the read model,
append exactly one event. -/
def applyEventLocked (db : Db) (current : Option OrderStatus) (seq : Nat) (orderId : Uuid)
    (event : OrderEventType) : Except DbError (TransitionOutcome × Db) :=
  match current with
  | none => .ok (.notFound, db)
  | some current =>
    match apply (some current) event with
    | .error _ => .ok (.noOp current, db)
    | .ok next => do
      let db ← (db.setStatus orderId next).append orderId seq event.asStr
      .ok (.applied next, db)

/-- Locked → PendingPayment, recording the provider intent id, which no other order may hold. -/
def requestPayment (db : Db) (current : Option OrderStatus) (seq : Nat) (orderId : Uuid)
    (paymentIntentId : String) : Except DbError (TransitionOutcome × Db) := do
  let (outcome, db) ← db.applyEventLocked current seq orderId .paymentRequested
  match outcome with
  | .applied _ =>
    if db.orders.rows.any (fun r => decide (r.id ≠ orderId) &&
        decide (r.paymentIntentId = some paymentIntentId)) then
      .error .uniqueViolation
    else
      .ok (outcome, db.updateOrder orderId
        ⟨fun r => { r with paymentIntentId := some paymentIntentId }, fun _ => rfl⟩)
  | _ => .ok (outcome, db)

/-- Reconcile a provider callback; paid claims stop the expiry clock. -/
def applyPaymentResult (db : Db) (current : Option OrderStatus) (seq : Nat) (orderId : Uuid)
    (succeeded : Bool) : Except DbError (TransitionOutcome × Db) := do
  let event := if succeeded then .paymentCaptured else .paymentFailed
  let (outcome, db) ← db.applyEventLocked current seq orderId event
  if outcome = .applied .paid then
    .ok (outcome, db.updateOrder orderId ⟨fun r => { r with expiresAt := none }, fun _ => rfl⟩)
  else .ok (outcome, db)

/-- The guarded release of one claim, and the rows it affected. -/
def releaseItem (db : Db) (item : OrderItemRow) : Nat × Db :=
  match item.kind with
  | .seat => db.releaseSeatExec item.tripId item.unitId item.span
  | .pool => db.releasePoolExec item.tripId item.unitId item.span item.quantity

def releaseItems : List OrderItemRow → Db → List (OrderItemRow × Nat) × Db
  | [], db => ([], db)
  | item :: rest, db =>
    let (rows, db) := db.releaseItem item
    let (released, db) := releaseItems rest db
    ((item, rows) :: released, db)

/-- Release every claim of an order. An item whose release affected other than one row
is what the code logs as an inconsistent ledger. -/
def releaseOrderItems (db : Db) (orderId : Uuid) : List (OrderItemRow × Nat) × Db :=
  releaseItems (db.orderItems.select (fun r => decide (r.orderId = orderId))) db

/-- The body `cancel` and `expire_due` share: a transition that gives the claims back. -/
def exitOrder (db : Db) (current : Option OrderStatus) (seq : Nat) (orderId : Uuid) (event : OrderEventType) :
    Except DbError (TransitionOutcome × List (OrderItemRow × Nat) × Db) := do
  let (outcome, db) ← db.applyEventLocked current seq orderId event
  match outcome with
  | .applied _ =>
    let (released, db) := db.releaseOrderItems orderId
    .ok (outcome, released, db)
  | _ => .ok (outcome, [], db)

/-- Cancel a not-yet-paid order, releasing its claims atomically. -/
def cancel (db : Db) (current : Option OrderStatus) (seq : Nat) (orderId : Uuid) :
    Except DbError (TransitionOutcome × List (OrderItemRow × Nat) × Db) :=
  db.exitOrder current seq orderId .orderCancelled

/-- Expire one overdue order. -/
def expire (db : Db) (current : Option OrderStatus) (seq : Nat) (orderId : Uuid) :
    Except DbError (TransitionOutcome × List (OrderItemRow × Nat) × Db) :=
  db.exitOrder current seq orderId .orderExpired

def voidTickets (db : Db) (orderId : Uuid) : Db :=
  let tickets := db.tickets.update (fun t => decide (t.orderId = orderId))
    ⟨fun t => { t with status := .void }, fun _ => rfl⟩
  { db with tickets }

/-- Paid/Ticketed → Refunded: releases every claim on every leg and voids the tickets. -/
def refund (db : Db) (current : Option OrderStatus) (seq : Nat) (orderId : Uuid) :
    Except DbError (TransitionOutcome × List (OrderItemRow × Nat) × Db) := do
  let (outcome, db) ← db.applyEventLocked current seq orderId .orderRefunded
  match outcome with
  | .applied _ =>
    let (released, db) := db.releaseOrderItems orderId
    .ok (outcome, released, db.voidTickets orderId)
  | _ => .ok (outcome, [], db)

/-- Fold the event stream through the state machine; `none` is an unreplayable stream. -/
def replayStatus (db : Db) (orderId : Uuid) : Option (Option OrderStatus) :=
  replay none ((db.stream orderId).map EventRow.eventType)

/-- The read model of one order. -/
def getOrder (db : Db) (orderId : Uuid) : Option OrderRecord :=
  (db.orders.find? orderId).map (fun row =>
    let passengers := (db.passengers.select (fun r => decide (r.orderId = orderId))).insertionSort
      (fun a b => a.createdAt < b.createdAt ∨ a.createdAt = b.createdAt ∧ a.id ≤ b.id)
    let items := (db.orderItems.select (fun r => decide (r.orderId = orderId))).insertionSort
      (fun a b => a.unitCode ≤ b.unitCode)
    let ancillaries := (db.orderAncillaries.select (fun r => decide (r.orderId = orderId))).insertionSort
      (fun a b => a.code ≤ b.code)
    { orderId
      tripIds := distinctTrips (items.map OrderItemRow.toItem)
      passengerName := row.passengerName
      status := row.status
      totalMinor := row.totalMinor
      currency := row.currency
      paymentIntentId := row.paymentIntentId
      expiresAt := row.expiresAt
      passengers := passengers.map PassengerRow.toRecord
      items := items.map OrderItemRow.toItem
      ancillaries := ancillaries.map OrderAncillaryRow.toAncillary })

end Db

end Lulan
