import Lulan.Api.Site
import Lulan.Lib.ReadCommitted

/-!
# Scans, statement by statement

`POST /v1/scans` and the transaction of each scan, as gates that work at the same time run
them under READ COMMITTED.
-/

namespace Lulan

open Lib.ReadCommitted

/-- A failed statement, as the ticket store reports it. -/
def TicketError.ofFailure : Failure → TicketError
  | .connection => db .connection
  | .duplicate => db .uniqueViolation

namespace Scans

/-- A row of the tables a scan works on, or the entry of an event in the unique index on
`(stream_id, stream_seq)`. -/
inductive Row where
  | ticket (t : TicketRow)
  | scan (e : ScanEventRow)
  | order (o : OrderRow)
  | event (e : EventRow)
  | position (streamId : Uuid) (streamSeq : Nat)
  | outbox (o : OutboxRow)
deriving DecidableEq

inductive RowKey where
  | ticket (id : Uuid)
  | scan (key : Uuid × String × Timestamp)
  | order (id : Uuid)
  | event (sequence : Nat)
  | position (streamId : Uuid) (streamSeq : Nat)
  | outbox (id : Nat)
deriving DecidableEq

namespace Row

def id : Row → RowKey
  | ticket t => .ticket t.id
  | scan e => .scan e.key
  | order o => .order o.id
  | event e => .event e.sequence
  | position s n => .position s n
  | outbox o => .outbox o.id

def ticket? : Row → Option TicketRow
  | ticket t => some t
  | _ => none

def order? : Row → Option OrderRow
  | order o => some o
  | _ => none

end Row

abbrev ScanScript (ε α : Type) : Type := ExceptT ε (Script Row.id) α

/-- A statement of the ticket store. -/
def sql {α : Type} (x : ScanScript Failure α) : ScanScript TicketError α := ExceptT.adapt TicketError.ofFailure x

/-- The numbers the two rows of an appended event draw. -/
structure Draw where
  sequence : Nat
  outboxId : Nat
deriving DecidableEq

/-- `SELECT t.status, t.order_id FROM tickets t WHERE t.id = $1 FOR UPDATE`. -/
def lockTicket (ticketId : Uuid) : Change Row.id where
  cond _ r := decide (r.id = .ticket ticketId)
  set := ⟨fun r => r, fun _ => rfl⟩

/-- `UPDATE tickets SET status = 'boarded', boarded_at = $2 WHERE id = $1`. -/
def boardTicket (ticketId : Uuid) (scannedAt : Timestamp) : Change Row.id where
  cond _ r := decide (r.id = .ticket ticketId)
  set := {
    set := fun r => match r with
      | .ticket t => .ticket { t with status := .boarded, boardedAt := some scannedAt }
      | r => r
    key_set := fun r => by cases r <;> rfl }

/-- `SELECT count(*) FROM tickets WHERE order_id = $1 AND status = 'issued'`. -/
def unboarded (rows : List Row) (orderId : Uuid) : Nat :=
  (rows.filterMap Row.ticket?).countP (fun t => decide (t.orderId = orderId) && decide (t.status = .issued))

/-- `SELECT status FROM orders WHERE id = $1 FOR UPDATE`. -/
def lockOrder (orderId : Uuid) : Change Row.id where
  cond _ r := decide (r.id = .order orderId)
  set := ⟨fun r => r, fun _ => rfl⟩

/-- `UPDATE orders SET status = $2 WHERE id = $1`. -/
def setStatus (orderId : Uuid) (status : OrderStatus) : Change Row.id where
  cond _ r := decide (r.id = .order orderId)
  set := {
    set := fun r => match r with
      | .order o => .order { o with status }
      | r => r
    key_set := fun r => by cases r <;> rfl }

/-- `coalesce(max(stream_seq), 0)` of a stream. -/
def maxStreamSeq (rows : List Row) (streamId : Uuid) : Nat :=
  (rows.map (fun r => match r with
    | .event e => if e.streamId = streamId then e.streamSeq else 0
    | _ => 0)).foldr max 0

/-- Append one event and its outbox row inside the transaction. -/
def append (draw : Draw) (streamId : Uuid) (eventType : String) : ScanScript Failure Unit := do
  let _ ← Script.add .main ⟨fun rows =>
    [.event ⟨draw.sequence, streamId, maxStreamSeq rows streamId + 1, eventType⟩,
      .position streamId (maxStreamSeq rows streamId + 1)], true⟩
  let _ ← Script.add .main ⟨fun _ => [.outbox ⟨draw.outboxId, draw.sequence⟩], true⟩
  return ()

/-- Last passenger aboard: the order becomes Boarded, if it may. -/
def boardOrder (draw : Draw) (orderId : Uuid) : ScanScript TicketError (Option String) := do
  let locked ← sql (.change .main (lockOrder orderId))
  match locked.findSome? Row.order? with
  | none => throw (.db .connection)
  | some order =>
    match apply (some order.status) .passengerBoarded with
    | .error _ => return none
    | .ok next =>
      let _ ← sql (.change .main (setStatus orderId next))
      sql (append draw orderId OrderEventType.passengerBoarded.asStr)
      return some next.asStr

def lastAboard (draw : Draw) (orderId : Uuid) (rows : List Row) : ScanScript TicketError (Option String) :=
  if unboarded rows orderId = 0 then boardOrder draw orderId else return none

/-- End the transaction of a scan that has done nothing but its journal row. -/
def close (ticketId : Uuid) (status : String) : ScanScript TicketError ScanOutcome := do
  sql (.publish .main)
  return ⟨ticketId, status, none⟩

/-- Record one synced scan. -/
def recordScan (draw : Draw) (ticketId : Uuid) (deviceId : String) (scannedAt : Timestamp) (result : String) :
    ScanScript TicketError ScanOutcome := do
  let locked ← sql (.change .main (lockTicket ticketId))
  match locked.findSome? Row.ticket? with
  | none => return ⟨ticketId, "unknown_ticket", none⟩
  | some ticket =>
    let inserted ← sql (.add .main ⟨fun _ => [.scan ⟨ticketId, deviceId, scannedAt, result⟩], false⟩)
    if inserted.isEmpty then close ticketId "duplicate_scan"
    else
      match ticket.status with
      | .boarded => close ticketId "already_boarded"
      | .void => close ticketId "void"
      | .issued =>
        let _ ← sql (.change .main (boardTicket ticketId scannedAt))
        let rows ← sql (.read .main)
        let orderStatus ← lastAboard draw ticket.orderId rows
        sql (.publish .main)
        return ⟨ticketId, "boarded", orderStatus⟩

def syncScans (deviceId : String) : List (ScanRequest × Draw) → ScanScript ApiError (List ScanOutcome)
  | [] => return []
  | (scan, draw) :: rest => do
    let outcome ← ExceptT.adapt (fun e => .internal (.ticket e))
      (recordScan draw scan.ticketId deviceId scan.scannedAt scan.result)
    let outcomes ← syncScans deviceId rest
    return outcome :: outcomes

/-- What `POST /v1/scans` is called with, and what each scan draws. -/
structure SyncRequest where
  deviceId : String
  scans : List (ScanRequest × Draw)

/-- `POST /v1/scans`. -/
def sync (req : SyncRequest) : ScanScript ApiError (List ScanOutcome) := do
  if (trim req.deviceId).isEmpty then throw (.badRequest (.text "device_id is required"))
  else if req.scans.length > 1000 then throw (.badRequest (.text "max 1000 scans per batch"))
  else syncScans req.deviceId req.scans

def gates : SyncRequest → Script Row.id (Except ApiError (List ScanOutcome)) := sync

end Scans

end Lulan
