import Lulan.Engine.Tickets

/-!
# The transactions of the system

Every way the committed state changes. A transaction either commits as a whole or fails
and leaves the state alone.
-/

namespace Lulan

inductive Tx where
  | createOrder (order : NewOrder) (wired : List WiredItem) (expiresAt : Timestamp)
  | requestPayment (orderId : Uuid) (paymentIntentId : String)
  | paymentResult (orderId : Uuid) (succeeded : Bool)
  | cancel (orderId : Uuid)
  | expire (orderId : Uuid)
  | refund (orderId : Uuid)
  | issueForOrder (orderId : Uuid) (signer : TicketSigner)
  | recordScan (ticketId : Uuid) (deviceId : String) (scannedAt : Timestamp) (result : String)
  | claimSeat (tripId unitId : Uuid) (span : SegmentSpan)
  | claimPool (tripId unitId : Uuid) (span : SegmentSpan) (qty : Int)
  | cancelTrip (tripId : Uuid)
  | audit (row : AuditLogRow)
  | upsertCustomer (issuer subject : String) (email : Option String)
  | insertKey (scope key requestHash : String)
  | selectKey (scope key : String)
  | completeKey (scope key : String) (orderId : Uuid) (statusCode : Nat) (response : CreateOrderResponse)
  | deletePendingKey (scope key : String)
deriving DecidableEq

inductive TxResult where
  | created (record : OrderRecord)
  | bookingConflict (unitCode : String)
  | transition (outcome : TransitionOutcome) (released : List (OrderItemRow × Nat))
  | issued (outcome : IssueOutcome)
  | scanned (outcome : ScanOutcome)
  | rows (affected : Nat)
  | customer (id : Uuid)
  | keyRow (row : Option IdempotencyRow)
  | failed (e : DbError)
deriving DecidableEq

/-- What a transaction leaves to its surroundings: whether it fails, the random
identifiers it draws, and how many boardings its count does not see. -/
structure Oracle where
  fail : Option DbError
  fresh : Nat → Uuid
  lag : Nat

/-- What a transaction reads under the order row lock. -/
structure LockRead where
  current : Option OrderStatus
  seq : Nat
deriving DecidableEq

namespace Db

def lockRead (db : Db) (orderId : Uuid) : LockRead := ⟨db.lockOrder orderId, db.maxStreamSeq orderId + 1⟩

def cancelTrip (db : Db) (tripId : Uuid) : Nat × Db :=
  let guard := fun t : TripRow => decide (t.id = tripId) && decide (t.status = .scheduled)
  let trips := db.trips.update guard ⟨fun t => { t with status := .cancelled }, fun _ => rfl⟩
  (db.trips.affected guard, { db with trips })

/-- `INSERT INTO customers … ON CONFLICT (issuer, subject) DO UPDATE … RETURNING id`. -/
def upsertCustomer (db : Db) (id : Uuid) (issuer subject : String) (email : Option String) :
    Except DbError (Uuid × Db) :=
  match db.customers.rows.find? (fun c => decide (c.issuer = issuer) && decide (c.subject = subject)) with
  | some c =>
    let customers := db.customers.update (fun r => decide (r.id = c.id))
      ⟨fun r => { r with email := email.or r.email }, fun _ => rfl⟩
    .ok (c.id, { db with customers })
  | none => do
    let customers ← insertRow db.customers ⟨id, issuer, subject, email⟩ true true
    .ok (id, { db with customers })

/-- `INSERT INTO idempotency_keys … ON CONFLICT (scope, key) DO NOTHING`. -/
def insertKey (db : Db) (now : Timestamp) (scope key requestHash : String) : Nat × Db :=
  match db.idempotencyKeys.insert ⟨scope, key, requestHash, .pending, none, none, none, now⟩ with
  | none => (0, db)
  | some idempotencyKeys => (1, { db with idempotencyKeys })

def completeKey (db : Db) (scope key : String) (orderId : Uuid) (statusCode : Nat)
    (response : CreateOrderResponse) : Nat × Db :=
  let guard := fun r : IdempotencyRow => decide (r.idempotencyKey = (scope, key))
  let idempotencyKeys := db.idempotencyKeys.update guard
    ⟨fun r => { r with
      status := .completed
      orderId := some orderId
      statusCode := some statusCode
      response := some response }, fun _ => rfl⟩
  (db.idempotencyKeys.affected guard, { db with idempotencyKeys })

def deletePendingKey (db : Db) (scope key : String) : Nat × Db :=
  let guard := fun r : IdempotencyRow =>
    decide (r.idempotencyKey = (scope, key)) && decide (r.status = .pending)
  (db.idempotencyKeys.affected guard, { db with idempotencyKeys := db.idempotencyKeys.delete guard })

end Db

def Oracle.bookingIds (w : Oracle) : BookingIds where
  orderId := w.fresh 0
  passengerId i := w.fresh (2 * i + 1)
  ancillaryId i := w.fresh (2 * i + 2)

namespace Tx

/-- The order whose row lock the transaction starts with. -/
def locks : Tx → Option Uuid
  | .requestPayment orderId _ | .paymentResult orderId _ | .cancel orderId | .expire orderId
  | .refund orderId | .issueForOrder orderId _ => some orderId
  | _ => none

/-- How a body ends: commit with a result, or fail and roll back. -/
def settle {α : Type} (s : World) (result : α → TxResult) : Except DbError (α × Db) → TxResult × World
  | .ok (a, db) => (result a, { s with db })
  | .error e => (.failed e, s)

def settleReleasing (s : World) :
    Except DbError (TransitionOutcome × List (OrderItemRow × Nat) × Db) → TxResult × World
  | .ok (o, released, db) => (.transition o released, { s with db })
  | .error e => (.failed e, s)

/-- The statements after the row lock. -/
def body (t : Tx) (r : LockRead) (w : Oracle) (s : World) : TxResult × World :=
  match t with
  | .createOrder order wired expiresAt =>
    match s.db.createOrder w.bookingIds s.now expiresAt order wired with
    | .ok (record, db) => (.created record, { s with db })
    | .error (.conflict unitCode) => (.bookingConflict unitCode, s)
    | .error (.db e) => (.failed e, s)
  | .requestPayment orderId intent =>
    settle s (.transition · []) (s.db.requestPayment r.current r.seq orderId intent)
  | .paymentResult orderId succeeded =>
    settle s (.transition · []) (s.db.applyPaymentResult r.current r.seq orderId succeeded)
  | .cancel orderId => settleReleasing s (s.db.cancel r.current r.seq orderId)
  | .expire orderId => settleReleasing s (s.db.expire r.current r.seq orderId)
  | .refund orderId => settleReleasing s (s.db.refund r.current r.seq orderId)
  | .issueForOrder orderId signer =>
    settle s .issued (s.db.issueForOrder r.current r.seq orderId signer s.now w.fresh)
  | .recordScan ticketId deviceId scannedAt result =>
    settle s .scanned (s.db.recordScan w.lag ticketId deviceId scannedAt result)
  | .claimSeat tripId unitId span =>
    settle s .rows (.ok (s.db.claimSeatExec tripId unitId span))
  | .claimPool tripId unitId span qty =>
    settle s .rows (.ok (s.db.claimPoolExec tripId unitId span qty))
  | .cancelTrip tripId => settle s .rows (.ok (s.db.cancelTrip tripId))
  | .audit row => (.rows 1, { s with db := { s.db with auditLog := s.db.auditLog ++ [row] } })
  | .upsertCustomer issuer subject email =>
    settle s .customer (s.db.upsertCustomer (w.fresh 0) issuer subject email)
  | .insertKey scope key requestHash =>
    settle s .rows (.ok (s.db.insertKey s.now scope key requestHash))
  | .selectKey scope key => (.keyRow (s.db.idempotencyKeys.find? (scope, key)), s)
  | .completeKey scope key orderId statusCode response =>
    settle s .rows (.ok (s.db.completeKey scope key orderId statusCode response))
  | .deletePendingKey scope key => settle s .rows (.ok (s.db.deletePendingKey scope key))

/-- What a transaction reads before its body, when it runs in one step. -/
def reads (t : Tx) (s : World) : LockRead :=
  match t.locks with
  | some orderId => s.db.lockRead orderId
  | none => ⟨none, 0⟩

/-- A transaction run in one step. One that fails has been rolled back: a COMMIT that was executed
but whose reply is lost is left out. -/
def run (t : Tx) (w : Oracle) (s : World) : TxResult × World :=
  match w.fail with
  | some e => (.failed e, s)
  | none => t.body (t.reads s) w s

end Tx

end Lulan
