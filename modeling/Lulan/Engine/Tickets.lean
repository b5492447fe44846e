import Lulan.Engine.Orders

/-!
# Ticket issuance and boarding

One ticket for each passenger-seat and for each unit of an admission pool, issued in the
transaction that moves the order from Paid to Ticketed.
-/

namespace Lulan

def validityAfterDepartureHours : Int := 24

/-- `GENERAL_ADMISSION` reads as `General Admission`. Only ASCII letters change their case here. -/
def humanize (code : String) : String :=
  let words := (code.toList.splitOnP (fun c => c = '_' || c = ' ')).filter (fun w => !w.isEmpty)
  let title := words.map (fun w =>
    match w with
    | first :: rest => String.ofList (first.toUpper :: rest.map Char.toLower)
    | [] => "")
  " ".intercalate title

structure TicketSigner where
  kid : String
  key : SigningKey
deriving DecidableEq

structure IssuedTicket where
  ticketId : Uuid
  passengerId : Uuid
  passengerName : String
  unitCode : String
  status : TicketStatus
  token : TicketToken
deriving DecidableEq

inductive IssueOutcome where
  | issued (tickets : List IssuedTicket)
  | alreadyTicketed
  | notPaid (status : OrderStatus)
  | orderNotFound
deriving DecidableEq

structure ScanOutcome where
  ticketId : Uuid
  status : String
  orderStatus : Option String
deriving DecidableEq

/-- What a ticket is issued for: an order item joined with its unit and its trip. -/
structure TicketLine where
  item : OrderItemRow
  fareClass : Option String
  departsAt : Timestamp
deriving DecidableEq

def TicketLine.le (a b : TicketLine) : Prop :=
  a.departsAt < b.departsAt ∨ a.departsAt = b.departsAt ∧ a.item.unitCode ≤ b.item.unitCode

instance : DecidableRel TicketLine.le := fun a b => by
  unfold TicketLine.le
  infer_instance

namespace Db

/-- The key tickets are currently signed with; `none` inside where it cannot be unsealed. -/
def activeKey (db : Db) : Option TicketKeyRow :=
  ((db.ticketKeys.select TicketKeyRow.active).insertionSort (fun a b => a.createdAt ≥ b.createdAt)).head?

def joinLine (db : Db) (oi : OrderItemRow) : Option (TicketLine × CapacityUnitRow) :=
  match db.capacityUnits.find? oi.unitId, db.trips.find? oi.tripId with
  | some cu, some t => some (⟨oi, cu.fareClass, t.departsAt⟩, cu)
  | _, _ => none

def joinSeat (db : Db) (oi : OrderItemRow) : Option (TicketLine × PassengerRow) :=
  match oi.passengerId.bind db.passengers.find?, db.joinLine oi with
  | some p, some (line, _) => some (line, p)
  | _, _ => none

def joinAdmission (db : Db) (oi : OrderItemRow) : Option TicketLine :=
  match db.joinLine oi with
  | some (line, cu) => if cu.admission then some line else none
  | none => none

/-- Seat items with their passengers. -/
def seatLines (db : Db) (orderId : Uuid) : List (TicketLine × PassengerRow) :=
  ((db.orderItems.select (fun oi => decide (oi.orderId = orderId) && decide (oi.kind = .seat))).filterMap
    db.joinSeat).insertionSort (fun a b => a.1.le b.1)

/-- Admission pool items. -/
def poolLines (db : Db) (orderId : Uuid) : List TicketLine :=
  ((db.orderItems.select (fun oi => decide (oi.orderId = orderId) && decide (oi.kind = .pool))).filterMap
    db.joinAdmission).insertionSort TicketLine.le

/-- One entry for each admission: `for _ in 0..quantity.max(0)` over the pool lines. -/
def admissions (db : Db) (orderId : Uuid) : List TicketLine :=
  (db.poolLines orderId).flatMap (fun line => List.replicate (max line.item.quantity 0).toNat line)

def claimsFor (signer : TicketSigner) (line : TicketLine) (ticketId : Uuid) (pax : String) : TicketClaims where
  v := 1
  tid := ticketId
  trp := line.item.tripId
  unt := line.item.unitCode
  f := line.item.span.fromIndex
  t := line.item.span.toIndex
  pax
  fc := line.fareClass
  exp := line.departsAt + validityAfterDepartureHours * 3600
  kid := signer.kid

/-- The row of one ticket. -/
def ticketRow (orderId : Uuid) (signer : TicketSigner) (line : TicketLine) (ticketId passengerId : Uuid)
    (pax : String) : TicketRow where
  id := ticketId
  orderId
  passengerId
  tripId := line.item.tripId
  unitId := line.item.unitId
  status := .issued
  token := ⟨claimsFor signer line ticketId pax, signer.key⟩
  kid := signer.kid
  boardedAt := none

def issueTicket (db : Db) (orderId : Uuid) (signer : TicketSigner) (line : TicketLine)
    (ticketId passengerId : Uuid) (pax : String) : Except DbError (IssuedTicket × Db) := do
  let row := ticketRow orderId signer line ticketId passengerId pax
  let db ← db.insertTicket row
  .ok (⟨ticketId, passengerId, pax, line.item.unitCode, row.status, row.token⟩, db)

def issueSeats (orderId : Uuid) (signer : TicketSigner) :
    List (Uuid × TicketLine × PassengerRow) → Db → Except DbError (List IssuedTicket × Db)
  | [], db => .ok ([], db)
  | (ticketId, line, p) :: rest, db => do
    let (ticket, db) ← db.issueTicket orderId signer line ticketId p.id p.fullName
    let (tickets, db) ← issueSeats orderId signer rest db
    .ok (ticket :: tickets, db)

/-- Each admission gets a fresh bearer passenger and a ticket of its own. -/
def issueAdmissions (orderId : Uuid) (signer : TicketSigner) (now : Timestamp) :
    List ((Uuid × Uuid) × TicketLine) → Db → Except DbError (List IssuedTicket × Db)
  | [], db => .ok ([], db)
  | ((passengerId, ticketId), line) :: rest, db => do
    let label := humanize line.item.unitCode
    let db ← db.insertPassenger ⟨passengerId, orderId, label, .adult, none, now⟩
    let (ticket, db) ← db.issueTicket orderId signer line ticketId passengerId label
    let (tickets, db) ← issueAdmissions orderId signer now rest db
    .ok (ticket :: tickets, db)

/-- Issue the tickets of a paid order and transition Paid → Ticketed. `fresh` supplies the
identifiers of the tickets and of the bearer passengers. -/
def issueForOrder (db : Db) (current : Option OrderStatus) (seq : Nat) (orderId : Uuid)
    (signer : TicketSigner) (now : Timestamp) (fresh : Nat → Uuid) : Except DbError (IssueOutcome × Db) :=
  match current with
  | none => .ok (.orderNotFound, db)
  | some status =>
    if status = .ticketed ∨ status = .boarded then .ok (.alreadyTicketed, db)
    else if status ≠ .paid then .ok (.notPaid status, db)
    else
      match apply (some status) .ticketIssued with
      | .error _ => .ok (.notPaid status, db)
      | .ok next => do
        let (seats, db) ← issueSeats orderId signer
          ((db.seatLines orderId).mapIdx (fun i line => (fresh (3 * i), line))) db
        let (admitted, db) ← issueAdmissions orderId signer now
          ((db.admissions orderId).mapIdx (fun i line => ((fresh (3 * i + 1), fresh (3 * i + 2)), line))) db
        let db ← (db.setStatus orderId next).append orderId seq OrderEventType.ticketIssued.asStr
        .ok (.issued (seats ++ admitted), db)

def joinTicket (db : Db) (t : TicketRow) : Option IssuedTicket :=
  match db.passengers.find? t.passengerId, db.capacityUnits.find? t.unitId with
  | some p, some cu => some ⟨t.id, t.passengerId, p.fullName, cu.code, t.status, t.token⟩
  | _, _ => none

def ticketsForOrder (db : Db) (orderId : Uuid) : List IssuedTicket :=
  ((db.tickets.select (fun t => decide (t.orderId = orderId))).filterMap db.joinTicket).insertionSort
    (fun a b => a.unitCode ≤ b.unitCode)

/-- Asked about one departure: every void ticket of it. Asked about everything: those that
depart within the last day and the next `hours`. -/
def revocable (now : Timestamp) (tripId : Option Uuid) (hours : Int) (trip : TripRow) : Bool :=
  match tripId with
  | some id => decide (trip.id = id)
  | none => decide (now - 24 * 3600 ≤ trip.departsAt) && decide (trip.departsAt ≤ now + hours * 3600)

/-- `revoked_tickets`: the void tickets joined with their trips, by id. `as i32` keeps the
low 32 bits of the horizon. -/
def revokedTickets (db : Db) (now : Timestamp) (tripId : Option Uuid) (horizonHours : Int) : List Uuid :=
  ((db.tickets.select (fun t => decide (t.status = .void) &&
    (db.trips.find? t.tripId).any (revocable now tripId (horizonHours.bmod (2 ^ 32))))).map
      TicketRow.id).insertionSort (· ≤ ·)

/-- `SELECT count(*) FROM tickets WHERE order_id = $1 AND status = 'issued'`. -/
def unboarded (db : Db) (orderId : Uuid) : Nat :=
  db.tickets.rows.countP (fun t => decide (t.orderId = orderId) && decide (t.status = .issued))

def boardTicket (db : Db) (ticketId : Uuid) (scannedAt : Timestamp) : Db :=
  let tickets := db.tickets.update (fun t => decide (t.id = ticketId))
    ⟨fun t => { t with status := .boarded, boardedAt := some scannedAt }, fun _ => rfl⟩
  { db with tickets }

/-- Last passenger aboard: the order becomes Boarded. -/
def boardOrder (db : Db) (orderId : Uuid) : Except DbError (Option String × Db) :=
  match db.lockOrder orderId with
  | none => .error .connection
  | some current =>
    match apply (some current) .passengerBoarded with
    | .error _ => .ok (none, db)
    | .ok next => do
      let db ← (db.setStatus orderId next).append orderId (db.maxStreamSeq orderId + 1)
        OrderEventType.passengerBoarded.asStr
      .ok (some next.asStr, db)

/-- Record one synced scan. The count of unboarded tickets is a statement of its own: it
also sees as issued the `lag` tickets whose transactions commit between it and this one. -/
def recordScan (db : Db) (lag : Nat) (ticketId : Uuid) (deviceId : String) (scannedAt : Timestamp)
    (result : String) : Except DbError (ScanOutcome × Db) :=
  match db.tickets.find? ticketId with
  | none => .ok (⟨ticketId, "unknown_ticket", none⟩, db)
  | some ticket =>
    match db.scanEvents.insert ⟨ticketId, deviceId, scannedAt, result⟩ with
    | none => .ok (⟨ticketId, "duplicate_scan", none⟩, db)
    | some scanEvents =>
      let db := { db with scanEvents }
      match ticket.status with
      | .boarded => .ok (⟨ticketId, "already_boarded", none⟩, db)
      | .void => .ok (⟨ticketId, "void", none⟩, db)
      | .issued =>
        let db := db.boardTicket ticketId scannedAt
        if db.unboarded ticket.orderId + lag = 0 then do
          let (orderStatus, db) ← db.boardOrder ticket.orderId
          .ok (⟨ticketId, "boarded", orderStatus⟩, db)
        else .ok (⟨ticketId, "boarded", none⟩, db)

end Db

end Lulan
