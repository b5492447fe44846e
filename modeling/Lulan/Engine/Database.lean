import Mathlib.Algebra.Ring.Int.Defs
import Mathlib.Data.List.Sort
import Lulan.Lib.Table
import Lulan.Engine.Segment
import Lulan.Engine.Order

/-!
# The database schema

One table for each relation the order engine touches, with the primary keys of the
migrations. Timestamps are seconds.
-/

namespace Lulan

abbrev Uuid := Nat

abbrev Timestamp := Int

inductive UnitKind where
  | seat
  | pool
deriving DecidableEq, Repr

def UnitKind.asStr : UnitKind → String
  | seat => "seat"
  | pool => "pool"

inductive TripStatus where
  | scheduled
  | cancelled
deriving DecidableEq, Repr

def TripStatus.asStr : TripStatus → String
  | scheduled => "scheduled"
  | cancelled => "cancelled"

structure LocationRow where
  id : Uuid
  code : String
deriving DecidableEq

structure RouteStopRow where
  routeId : Uuid
  stopIndex : Nat
  locationId : Uuid
  departOffsetMin : Int
deriving DecidableEq

structure TripRow where
  id : Uuid
  routeId : Uuid
  resourceId : Uuid
  departsAt : Timestamp
  segmentCount : Nat
  status : TripStatus
deriving DecidableEq

structure CapacityUnitRow where
  id : Uuid
  resourceId : Uuid
  kind : UnitKind
  code : String
  fareClass : Option String
  poolCapacity : Option Int
  admission : Bool
deriving DecidableEq

structure SeatOccupancyRow where
  tripId : Uuid
  unitId : Uuid
  occupiedMask : BitVec 64
deriving DecidableEq

structure PoolOccupancyRow where
  tripId : Uuid
  unitId : Uuid
  remaining : List Int
deriving DecidableEq

structure OrderRow where
  id : Uuid
  passengerName : String
  status : OrderStatus
  totalMinor : Int
  currency : String
  paymentIntentId : Option String
  expiresAt : Option Timestamp
  customerId : Option Uuid
  guestContact : Option String
deriving DecidableEq

structure PassengerRow where
  id : Uuid
  orderId : Uuid
  fullName : String
  passengerType : PassengerType
  birthdate : Option String
  createdAt : Timestamp
deriving DecidableEq

/-- The indices of the span are stored as two columns; a row is only written from a span. -/
structure OrderItemRow where
  orderId : Uuid
  tripId : Uuid
  unitId : Uuid
  unitCode : String
  kind : UnitKind
  span : SegmentSpan
  quantity : Int
  priceMinor : Int
  passengerId : Option Uuid
deriving DecidableEq

structure OrderAncillaryRow where
  id : Uuid
  orderId : Uuid
  ancillaryId : Uuid
  code : String
  name : String
  tripId : Option Uuid
  passengerId : Option Uuid
  quantity : Int
  totalMinor : Int
deriving DecidableEq

structure EventRow where
  sequence : Nat
  streamId : Uuid
  streamSeq : Nat
  eventType : String
deriving DecidableEq

structure OutboxRow where
  id : Nat
  eventSequence : Nat
deriving DecidableEq

inductive TicketStatus where
  | issued
  | boarded
  | void
deriving DecidableEq, Repr

def TicketStatus.asStr : TicketStatus → String
  | issued => "issued"
  | boarded => "boarded"
  | void => "void"

/-- The signed claims of a ticket. -/
structure TicketClaims where
  v : Nat
  tid : Uuid
  trp : Uuid
  unt : String
  f : Nat
  t : Nat
  pax : String
  fc : Option String
  exp : Timestamp
  kid : String
deriving DecidableEq

/-- The key pair behind a `kid`. -/
structure SigningKey where
  seed : Nat
deriving DecidableEq

/-- What the text `LT1.<payload>.<signature>` stands for. -/
structure TicketToken where
  claims : TicketClaims
  signedBy : SigningKey
deriving DecidableEq

structure TicketRow where
  id : Uuid
  orderId : Uuid
  passengerId : Uuid
  tripId : Uuid
  unitId : Uuid
  status : TicketStatus
  token : TicketToken
  kid : String
  boardedAt : Option Timestamp
deriving DecidableEq

/-- `secret` is the stored seed; `none` where it cannot be unsealed. -/
structure TicketKeyRow where
  kid : String
  secret : Option SigningKey
  active : Bool
  createdAt : Timestamp
deriving DecidableEq

structure ScanEventRow where
  ticketId : Uuid
  deviceId : String
  scannedAt : Timestamp
  result : String
deriving DecidableEq

structure CustomerRow where
  id : Uuid
  issuer : String
  subject : String
  email : Option String
deriving DecidableEq

inductive AncillaryPer where
  | passenger
  | order
deriving DecidableEq, Repr

inductive AncillaryScope where
  | journey
  | itinerary
deriving DecidableEq, Repr

structure AncillaryRow where
  id : Uuid
  code : String
  name : String
  priceMinor : Int
  per : AncillaryPer
  scope : AncillaryScope
  active : Bool
deriving DecidableEq

structure FareRulesRow where
  id : Uuid
  active : Bool
  rules : String
  createdAt : Timestamp
deriving DecidableEq

structure AuditLogRow where
  action : String
  orderId : Option Uuid
  tripId : Option Uuid
deriving DecidableEq

structure PassengerRecord where
  id : Uuid
  fullName : String
  passengerType : PassengerType
  birthdate : Option String
deriving DecidableEq

structure OrderItem where
  tripId : Uuid
  unitCode : String
  kind : UnitKind
  fromIndex : Nat
  toIndex : Nat
  quantity : Int
  priceMinor : Int
  passengerId : Option Uuid
deriving DecidableEq

structure OrderAncillary where
  code : String
  name : String
  tripId : Option Uuid
  passengerId : Option Uuid
  quantity : Int
  totalMinor : Int
deriving DecidableEq

/-- The read model of one order. -/
structure OrderRecord where
  orderId : Uuid
  tripIds : List Uuid
  passengerName : String
  status : OrderStatus
  totalMinor : Int
  currency : String
  paymentIntentId : Option String
  expiresAt : Option Timestamp
  passengers : List PassengerRecord
  items : List OrderItem
  ancillaries : List OrderAncillary
deriving DecidableEq

/-- The body of a 201 from `POST /v1/orders`. -/
structure CreateOrderResponse where
  record : OrderRecord
  retrievalToken : String
  customerId : Option Uuid
deriving DecidableEq

inductive IdempotencyStatus where
  | pending
  | completed
deriving DecidableEq, Repr

structure IdempotencyRow where
  scope : String
  key : String
  requestHash : String
  status : IdempotencyStatus
  orderId : Option Uuid
  statusCode : Option Nat
  response : Option CreateOrderResponse
  createdAt : Timestamp
deriving DecidableEq

def OrderItemRow.key (r : OrderItemRow) : Uuid × Uuid × Uuid := (r.orderId, r.tripId, r.unitId)

def RouteStopRow.key (r : RouteStopRow) : Uuid × Nat := (r.routeId, r.stopIndex)

def SeatOccupancyRow.key (r : SeatOccupancyRow) : Uuid × Uuid := (r.tripId, r.unitId)

def PoolOccupancyRow.key (r : PoolOccupancyRow) : Uuid × Uuid := (r.tripId, r.unitId)

def ScanEventRow.key (r : ScanEventRow) : Uuid × String × Timestamp := (r.ticketId, r.deviceId, r.scannedAt)

def IdempotencyRow.idempotencyKey (r : IdempotencyRow) : String × String := (r.scope, r.key)

structure Db where
  locations : Lib.Table LocationRow.id
  routeStops : Lib.Table RouteStopRow.key
  trips : Lib.Table TripRow.id
  capacityUnits : Lib.Table CapacityUnitRow.id
  seatOccupancy : Lib.Table SeatOccupancyRow.key
  poolOccupancy : Lib.Table PoolOccupancyRow.key
  orders : Lib.Table OrderRow.id
  passengers : Lib.Table PassengerRow.id
  orderItems : Lib.Table OrderItemRow.key
  ancillaries : Lib.Table AncillaryRow.id
  orderAncillaries : Lib.Table OrderAncillaryRow.id
  fareRules : Lib.Table FareRulesRow.id
  events : Lib.Table EventRow.sequence
  nextSequence : Nat
  outbox : Lib.Table OutboxRow.id
  nextOutboxId : Nat
  tickets : Lib.Table TicketRow.id
  ticketKeys : Lib.Table TicketKeyRow.kid
  scanEvents : Lib.Table ScanEventRow.key
  customers : Lib.Table CustomerRow.id
  idempotencyKeys : Lib.Table IdempotencyRow.idempotencyKey
  auditLog : List AuditLogRow

def Db.empty : Db where
  locations := .empty
  routeStops := .empty
  trips := .empty
  capacityUnits := .empty
  seatOccupancy := .empty
  poolOccupancy := .empty
  orders := .empty
  passengers := .empty
  orderItems := .empty
  ancillaries := .empty
  orderAncillaries := .empty
  fareRules := .empty
  events := .empty
  nextSequence := 1
  outbox := .empty
  nextOutboxId := 1
  tickets := .empty
  ticketKeys := .empty
  scanEvents := .empty
  customers := .empty
  idempotencyKeys := .empty
  auditLog := []

/-- The committed state of the system: the database and its clock. -/
structure World where
  now : Timestamp
  db : Db

/-- A database before the first order: network, inventory, catalog, keys and customers may
hold anything the schema admits. -/
structure Db.Seeded (db : Db) : Prop where
  orders : db.orders.rows = []
  passengers : db.passengers.rows = []
  orderItems : db.orderItems.rows = []
  orderAncillaries : db.orderAncillaries.rows = []
  events : db.events.rows = []
  outbox : db.outbox.rows = []
  tickets : db.tickets.rows = []
  scanEvents : db.scanEvents.rows = []
  idempotencyKeys : db.idempotencyKeys.rows = []
  remaining : ∀ r ∈ db.poolOccupancy.rows, ∀ val ∈ r.remaining, 0 ≤ val

inductive DbError where
  | connection
  | uniqueViolation
  | foreignKeyViolation
  | checkViolation
deriving DecidableEq, Repr

namespace Db

/-- `INSERT` into a table, with the foreign keys and checks the row has to pass. -/
def insertRow {α κ : Type} {key : α → κ} [DecidableEq κ] (t : Lib.Table key) (r : α) (refs checks : Bool) :
    Except DbError (Lib.Table key) :=
  if checks then
    match t.insert r with
    | none => .error .uniqueViolation
    | some t' => if refs then .ok t' else .error .foreignKeyViolation
  else .error .checkViolation

lemma insertRow_eq_ok {α κ : Type} {key : α → κ} [DecidableEq κ] {t t' : Lib.Table key} {r : α}
    {refs checks : Bool} :
    insertRow t r refs checks = .ok t' ↔ checks = true ∧ refs = true ∧ t.insert r = some t' := by
  unfold insertRow
  cases checks with
  | false => simp
  | true =>
    cases t.insert r with
    | none => simp
    | some u => cases refs <;> simp

/-- Whether an optional reference points at a row. -/
def refersTo {α κ : Type} {key : α → κ} [DecidableEq κ] (t : Lib.Table key) : Option κ → Bool
  | none => true
  | some k => (t.find? k).isSome

def insertOrder (db : Db) (r : OrderRow) : Except DbError Db := do
  let orders ← insertRow db.orders r (refersTo db.customers r.customerId) true
  .ok { db with orders }

def insertPassenger (db : Db) (r : PassengerRow) : Except DbError Db := do
  let passengers ← insertRow db.passengers r (refersTo db.orders (some r.orderId)) true
  .ok { db with passengers }

def insertOrderItem (db : Db) (r : OrderItemRow) : Except DbError Db := do
  let orderItems ← insertRow db.orderItems r
    (refersTo db.orders (some r.orderId) && refersTo db.trips (some r.tripId) &&
      refersTo db.capacityUnits (some r.unitId) && refersTo db.passengers r.passengerId)
    (decide (0 < r.quantity))
  .ok { db with orderItems }

def insertOrderAncillary (db : Db) (r : OrderAncillaryRow) : Except DbError Db := do
  let orderAncillaries ← insertRow db.orderAncillaries r
    (refersTo db.orders (some r.orderId) && refersTo db.ancillaries (some r.ancillaryId) &&
      refersTo db.trips r.tripId && refersTo db.passengers r.passengerId)
    (decide (0 < r.quantity) && decide (0 ≤ r.totalMinor))
  .ok { db with orderAncillaries }

/-- Tickets are unique by order, trip, passenger and unit besides their id. -/
def insertTicket (db : Db) (r : TicketRow) : Except DbError Db :=
  if db.tickets.rows.any (fun t => decide (t.orderId = r.orderId) && decide (t.tripId = r.tripId) &&
      decide (t.passengerId = r.passengerId) && decide (t.unitId = r.unitId)) then
    .error .uniqueViolation
  else do
    let tickets ← insertRow db.tickets r
      (refersTo db.orders (some r.orderId) && refersTo db.passengers (some r.passengerId) &&
        refersTo db.trips (some r.tripId) && refersTo db.capacityUnits (some r.unitId) &&
        refersTo db.ticketKeys (some r.kid))
      true
    .ok { db with tickets }

end Db

end Lulan
