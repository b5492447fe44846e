import Mathlib.Logic.Function.Basic
import Lulan.Engine.Signature
import Lulan.Engine.Webhooks
import Lulan.Lib.Json

/-!
# Delivering the queued webhooks

`deliver_due` as any number of workers run it at the same time, statement by statement: one
transaction selects and locks a batch of due rows, posts each of them and records what came of
it, and commits. Times are in microseconds; `now()` is the start of the transaction. Other
callers enqueue rows and register or deactivate endpoints meanwhile, and a worker can stop at
any point.
-/

namespace Lulan.Deliveries

open Http (Bytes)
open Lib (Json)
open Webhooks (Endpoint StoredEvent signature)

def maxAttempts : Int32 := 8

def baseBackoffSecs : Int64 := 2

inductive Status where
  | pending
  | delivered
  | failed
deriving DecidableEq

/-- A row of `webhook_deliveries`. -/
structure Delivery where
  id : Nat
  endpointId : Uuid
  eventSequence : Nat
  status : Status
  attempts : Int32
  nextAttemptAt : Timestamp
  lastError : Option String
  deliveredAt : Option Timestamp
deriving DecidableEq

/-- A row with the defaults of its table. -/
def Delivery.queued (id : Nat) (endpointId : Uuid) (eventSequence : Nat) (now : Timestamp) : Delivery :=
  ⟨id, endpointId, eventSequence, .pending, 0, now, none, none⟩

/-- A delivery as selected, joined to its endpoint and its event. -/
structure Due where
  delivery : Delivery
  endpoint : Endpoint
  event : StoredEvent
deriving DecidableEq

def Due.id (row : Due) : Nat := row.delivery.id

/-! ### One attempt -/

/-- The crates a request passes through. -/
structure Crates where
  hmac : Bytes → Bytes → Bytes
  toString : Json → String
  value : String → Json
  uuidText : Uuid → String
  rfc3339 : Timestamp → String
  statusText : Nat → String

structure Post where
  url : String
  headers : List (String × String)
  body : String
deriving DecidableEq

/-- What a POST came to: a response by its status, or the error in its place. -/
inductive Outcome where
  | response (status : Nat)
  | error (text : String)
deriving DecidableEq

def Outcome.isSuccess : Outcome → Bool
  | response status => 200 ≤ status && status < 300
  | error _ => false

variable (crates : Crates)

def Outcome.text : Outcome → String
  | response status => "HTTP " ++ crates.statusText status
  | error text => text

def body (e : StoredEvent) : String := crates.toString (.obj [
  ("sequence", .int e.sequence), ("stream_id", .str (crates.uuidText e.streamId)),
  ("stream_seq", .int e.streamSeq), ("event_type", .str e.eventType), ("payload", crates.value e.payload),
  ("occurred_at", .str (crates.rfc3339 e.occurredAt))])

/-- The request of an attempt, signed at the time of the server's own clock. -/
def request (timestamp : Int64) (row : Due) : Post where
  url := row.endpoint.url
  headers := [("content-type", "application/json"),
    ("x-lulan-signature", signature crates.hmac row.endpoint.secret timestamp (body crates row.event))]
  body := body crates row.event

def backoff (nextAttempt : Int32) : Int64 := baseBackoffSecs <<< (min nextAttempt 8).toInt64

/-- What an attempt counts as. -/
inductive Verdict where
  | delivered
  | retried
  | exhausted
deriving DecidableEq

/-- The branch taken after an attempt on a row read with that many attempts. -/
def verdict (attempts : Int32) (outcome : Outcome) : Verdict :=
  if outcome.isSuccess then .delivered else if attempts + 1 ≥ maxAttempts then .exhausted else .retried

/-- The `UPDATE` of each branch, on the version it finds. -/
def settle (now : Timestamp) (attempts : Int32) (outcome : Outcome) (d : Delivery) : Delivery :=
  match verdict attempts outcome with
  | .delivered => { d with status := .delivered, attempts := d.attempts + 1, deliveredAt := some now }
  | .exhausted => { d with status := .failed, attempts := attempts + 1, lastError := some (outcome.text crates) }
  | .retried => { d with
      attempts := attempts + 1, lastError := some (outcome.text crates),
      nextAttemptAt := now + (backoff (attempts + 1)).toInt * 1000000 }

/-- An attempt on a locked row: the start of its transaction, when its outcome was recorded, and
the version its `UPDATE` leaves. -/
structure Attempt where
  row : Due
  outcome : Outcome
  began : Timestamp
  ended : Timestamp
  write : Option Delivery

def Attempt.id (a : Attempt) : Nat := a.row.id

def Attempt.verdict (a : Attempt) : Verdict := Deliveries.verdict a.row.delivery.attempts a.outcome

structure DeliveryStats where
  delivered : Nat
  retried : Nat
  exhausted : Nat
deriving DecidableEq

def stats (attempts : List Attempt) : DeliveryStats where
  delivered := attempts.countP (fun a => a.verdict = .delivered)
  retried := attempts.countP (fun a => a.verdict = .retried)
  exhausted := attempts.countP (fun a => a.verdict = .exhausted)

/-! ### Workers over one database -/

/-- A worker: between two passes, with the result of the last one that committed, or at some
point of its transaction that began at `now`. -/
inductive Worker where
  | idle (result : Option DeliveryStats)
  | begun (now : Timestamp)
  | locking (now : Timestamp) (candidates batch : List Due)
  | posting (now : Timestamp) (sent : List Attempt) (todo : List Due) (inFlight : Option Post)

/-- The committed rows, the row locks, the workers, and the attempts committed so far. -/
structure State where
  clock : Timestamp
  endpoints : List Endpoint
  events : List StoredEvent
  deliveries : List Delivery
  locks : Nat → Option Nat
  workers : Nat → Worker
  committed : List Attempt

/-- No worker has begun, and nothing is queued. -/
def State.init (clock : Timestamp) (endpoints : List Endpoint) (events : List StoredEvent) : State :=
  ⟨clock, endpoints, events, [], fun _ => none, fun _ => .idle none, []⟩

def State.find (s : State) (id : Nat) : Option Delivery := s.deliveries.find? (fun d => d.id = id)

def join (s : State) (d : Delivery) : Option Due :=
  (s.endpoints.find? (fun w => w.id = d.endpointId)).bind fun w =>
    (s.events.find? (fun e => e.sequence = d.eventSequence)).map fun e => ⟨d, w, e⟩

/-- `d.status = 'pending' AND d.next_attempt_at <= now() AND w.active`. -/
def Due.isDue (now : Timestamp) (row : Due) : Bool :=
  row.delivery.status = .pending && row.delivery.nextAttemptAt ≤ now && row.endpoint.active

def due (s : State) (now : Timestamp) : List Due := (s.deliveries.filterMap (join s)).filter (Due.isDue now)

/-- The selected row on the version that its lock finds, where that version still qualifies. -/
def recheck (s : State) (now : Timestamp) (row : Due) : Option Due :=
  ((s.find row.id).map fun d => { row with delivery := d }).filter (Due.isDue now)

/-- The version of a row once the writes of a transaction are visible. -/
def overwrite (sent : List Attempt) (d : Delivery) : Delivery :=
  ((sent.find? (fun a => a.id = d.id)).bind Attempt.write).getD d

def release (w : Nat) (locks : Nat → Option Nat) (id : Nat) : Option Nat :=
  if locks id = some w then none else locks id

inductive Event where
  | tick (elapsed : Nat)
  | store (e : StoredEvent)
  | register (endpoint : Endpoint)
  | deactivate (id : Uuid)
  | enqueue (id : Nat) (endpointId : Uuid) (eventSequence : Nat) (now : Timestamp)
  | begin (w : Nat)
  | select (w : Nat) (rows : List Due)
  | lock (w : Nat)
  | fetched (w : Nat)
  | post (w : Nat) (timestamp : Int64)
  | answer (w : Nat) (outcome : Outcome)
  | commit (w : Nat)
  | crash (w : Nat)

/-- Worker `w` goes on. -/
def State.goes (s : State) (w : Nat) (worker : Worker) : State :=
  { s with workers := Function.update s.workers w worker }

/-- The next candidate is locked, or skipped: where another transaction holds it, or where its
version has moved on. -/
def lockNext (s : State) (w : Nat) (now : Timestamp) (row : Due) (candidates batch : List Due) : State :=
  match s.locks row.id with
  | some _ => s.goes w (.locking now candidates batch)
  | none =>
    match recheck s now row with
    | none => s.goes w (.locking now candidates batch)
    | some found =>
      { s.goes w (.locking now candidates (batch ++ [found])) with
        locks := Function.update s.locks row.id (some w) }

def step (s : State) : Event → Option State
  | .tick elapsed => some { s with clock := s.clock + elapsed }
  | .store e => some { s with events := s.events ++ [e] }
  | .register endpoint => some { s with endpoints := s.endpoints ++ [endpoint] }
  | .deactivate id => some { s with
      endpoints := s.endpoints.map (fun w => if w.id = id then { w with active := false } else w) }
  | .enqueue id endpointId eventSequence now =>
    if s.deliveries.all (fun d => d.id ≠ id && (d.endpointId ≠ endpointId || d.eventSequence ≠ eventSequence)) then
      some { s with deliveries := s.deliveries ++ [.queued id endpointId eventSequence now] }
    else none
  | .begin w =>
    match s.workers w with
    | .idle _ => some (s.goes w (.begun s.clock))
    | _ => none
  | .select w rows =>
    match s.workers w with
    | .begun now =>
      if rows.Perm (due s now) ∧
          rows.Pairwise (fun r r' => r.delivery.nextAttemptAt ≤ r'.delivery.nextAttemptAt) then
        some (s.goes w (.locking now rows []))
      else none
    | _ => none
  | .lock w =>
    match s.workers w with
    | .locking now (row :: candidates) batch =>
      if batch.length < 20 then some (lockNext s w now row candidates batch) else none
    | _ => none
  | .fetched w =>
    match s.workers w with
    | .locking now candidates batch =>
      if candidates = [] ∨ batch.length = 20 then some (s.goes w (.posting now [] batch none)) else none
    | _ => none
  | .post w timestamp =>
    match s.workers w with
    | .posting now sent (row :: todo) none =>
      some (s.goes w (.posting now sent (row :: todo) (some (request crates timestamp row))))
    | _ => none
  | .answer w outcome =>
    match s.workers w with
    | .posting now sent (row :: todo) (some _) =>
      let write := (s.find row.id).map (settle crates now row.delivery.attempts outcome)
      some (s.goes w (.posting now (sent ++ [⟨row, outcome, now, s.clock, write⟩]) todo none))
    | _ => none
  | .commit w =>
    match s.workers w with
    | .posting _ sent [] none => some { s.goes w (.idle (some (stats sent))) with
        deliveries := s.deliveries.map (overwrite sent)
        locks := release w s.locks
        committed := s.committed ++ sent }
    | _ => none
  | .crash w => some { s.goes w (.idle none) with locks := release w s.locks }

def run (s : State) (events : List Event) : Option State := events.foldlM (step crates) s

end Lulan.Deliveries
