import Lulan.Engine.Events
import Lulan.Lib.ReadCommitted

/-!
# The outbox relay and its fan-out into webhook deliveries

The event log, its outbox, the registered endpoints and the delivery queue, statement by
statement as relays and callers use them at the same time. A relay drains one batch in a
transaction; the sink's insert runs beside it, on a connection from the pool.
-/

namespace Lulan.Webhooks

open Lib.ReadCommitted

/-- An event as stored, with its global and per-stream position. -/
structure StoredEvent where
  sequence : Nat
  streamId : Uuid
  streamSeq : Nat
  eventType : String
  payload : String
  occurredAt : Timestamp
deriving DecidableEq

structure OutboxEntry where
  id : Nat
  eventSequence : Nat
  deliveredAt : Option Timestamp
deriving DecidableEq

structure Endpoint where
  id : Uuid
  url : String
  secret : String
  eventTypes : List String
  active : Bool
deriving DecidableEq

/-- A row of the four tables, or the entry of an event in the unique index on
`(stream_id, stream_seq)`. -/
inductive Row where
  | event (e : StoredEvent)
  | position (streamId : Uuid) (streamSeq : Nat)
  | outbox (o : OutboxEntry)
  | endpoint (w : Endpoint)
  | delivery (endpointId : Uuid) (eventSequence : Nat)
deriving DecidableEq

inductive RowKey where
  | event (sequence : Nat)
  | position (streamId : Uuid) (streamSeq : Nat)
  | outbox (id : Nat)
  | endpoint (id : Uuid)
  | delivery (endpointId : Uuid) (eventSequence : Nat)
deriving DecidableEq

def Row.id : Row → RowKey
  | event e => .event e.sequence
  | position s n => .position s n
  | outbox o => .outbox o.id
  | endpoint w => .endpoint w.id
  | delivery w n => .delivery w n

abbrev WebhookScript (ε α : Type) : Type := ExceptT ε (Script Row.id) α

/-- What an append is called with, and what its two rows draw. -/
structure Draft where
  streamId : Uuid
  eventType : String
  payload : String
  sequence : Nat
  outboxId : Nat
  occurredAt : Timestamp
deriving DecidableEq

/-- `coalesce(max(stream_seq), 0)` of a stream. -/
def maxStreamSeq (rows : List Row) (streamId : Uuid) : Nat :=
  (rows.map (fun r => match r with
    | .event e => if e.streamId = streamId then e.streamSeq else 0
    | _ => 0)).foldr max 0

def Draft.event (draft : Draft) (rows : List Row) : StoredEvent :=
  ⟨draft.sequence, draft.streamId, maxStreamSeq rows draft.streamId + 1, draft.eventType, draft.payload,
    draft.occurredAt⟩

/-- Append one event and its outbox row inside the caller's transaction. -/
def append (draft : Draft) : WebhookScript Failure Nat := do
  let _ ← Script.add .main ⟨fun rows => [.event (draft.event rows),
    .position draft.streamId (draft.event rows).streamSeq], true⟩
  let _ ← Script.add .main ⟨fun _ => [.outbox ⟨draft.outboxId, draft.sequence, none⟩], true⟩
  return draft.sequence

/-- A caller's transaction, as far as these tables go. -/
def appendAll : List Draft → WebhookScript Failure Unit
  | [] => Script.publish .main
  | draft :: rest => do
    let _ ← append draft
    appendAll rest

/-- The event of an outbox row. -/
def joinEvent (rows : List Row) (o : OutboxEntry) : Option StoredEvent :=
  rows.findSome? (fun r => match r with
    | .event e => if e.sequence = o.eventSequence then some e else none
    | _ => none)

def outboxId : Row → Nat
  | .outbox o => o.id
  | _ => 0

/-- `SELECT … FROM outbox o JOIN events e … WHERE o.delivered_at IS NULL ORDER BY o.id LIMIT 100
FOR UPDATE OF o SKIP LOCKED`. -/
def undelivered : Change Row.id where
  cond rows r := match r with
    | .outbox o => o.deliveredAt.isNone && (joinEvent rows o).isSome
    | _ => false
  set := ⟨id, fun _ => rfl⟩
  order := some (fun rows => rows.insertionSort (fun a b => outboxId a ≤ outboxId b))
  skipLocked := true
  limit := some 100

/-- The outbox rows that were locked, each with its event. -/
def batch (rows locked : List Row) : List (OutboxEntry × StoredEvent) :=
  locked.filterMap (fun r => match r with
    | .outbox o => (joinEvent rows o).map (fun e => (o, e))
    | _ => none)

/-- Empty `event_types` means everything. -/
def Endpoint.subscribed (w : Endpoint) (eventType : String) : Bool :=
  w.active && (w.eventTypes.isEmpty || decide (eventType ∈ w.eventTypes))

/-- One delivery for each endpoint that is active and subscribed. -/
def fanOut (e : StoredEvent) (rows : List Row) : List Row :=
  rows.filterMap (fun r => match r with
    | .endpoint w => if w.subscribed e.eventType then some (.delivery w.id e.sequence) else none
    | _ => none)

/-- `WebhookSink::deliver`: enqueue one durable delivery for each matching endpoint. -/
def deliver (e : StoredEvent) : WebhookScript Failure Unit :=
  Script.execute .side ⟨fanOut e, false⟩

/-- `UPDATE outbox SET delivered_at = now() WHERE id = $1`. -/
def markDelivered (now : Timestamp) (id : Nat) : Change Row.id where
  cond _ r := match r with
    | .outbox o => decide (o.id = id)
    | _ => false
  set := ⟨fun r => match r with
    | .outbox o => .outbox { o with deliveredAt := some now }
    | r => r, fun r => by cases r <;> rfl⟩

/-- The loop of `relay_once` over its batch. -/
def relayBatch (now : Timestamp) : List (OutboxEntry × StoredEvent) → Nat → WebhookScript Failure Nat
  | [], delivered => return delivered
  | (o, e) :: rest, delivered => do
    match ← Script.attempt (deliver e) with
    | .ok _ => do
      let _ ← Script.change .main (markDelivered now o.id)
      relayBatch now rest (delivered + 1)
    -- the rest of the batch retries in a later pass, in order
    | .error _ => return delivered

/-- Drain one batch of undelivered outbox rows to the sink. -/
def relayOnce (now : Timestamp) : WebhookScript Failure Nat := do
  let (rows, locked) ← Script.lock .main undelivered
  let delivered ← relayBatch now (batch rows locked) 0
  Script.publish .main
  return delivered

end Lulan.Webhooks
