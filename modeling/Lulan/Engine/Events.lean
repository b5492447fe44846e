import Lulan.Engine.Database

/-!
# Append-only event log and transactional outbox

An append and its outbox row belong to the caller's transaction.
-/

namespace Lulan

namespace Db

/-- All events of one stream, in order. -/
def stream (db : Db) (streamId : Uuid) : List EventRow :=
  (db.events.select (fun e => decide (e.streamId = streamId))).insertionSort (fun a b => a.streamSeq ≤ b.streamSeq)

/-- `coalesce(max(stream_seq), 0)` of a stream. -/
def maxStreamSeq (db : Db) (streamId : Uuid) : Nat :=
  ((db.events.select (fun e => decide (e.streamId = streamId))).map EventRow.streamSeq).foldr max 0

/-- Append one event and its outbox row at position `seq` of the stream. -/
def append (db : Db) (streamId : Uuid) (seq : Nat) (eventType : String) : Except DbError Db :=
  if db.events.rows.any (fun e => decide (e.streamId = streamId) && decide (e.streamSeq = seq)) then
    .error .uniqueViolation
  else do
    let events ← insertRow db.events ⟨db.nextSequence, streamId, seq, eventType⟩ true (decide (1 ≤ seq))
    let outbox ← insertRow db.outbox ⟨db.nextOutboxId, db.nextSequence⟩ true true
    .ok { db with
      events
      nextSequence := db.nextSequence + 1
      outbox
      nextOutboxId := db.nextOutboxId + 1 }

/-- What an append that succeeds leaves behind. -/
lemma append_eq_ok {db db' : Db} {streamId seq : Nat} {eventType : String}
    (h : db.append streamId seq eventType = .ok db') :
    ∃ events outbox,
      events.rows = db.events.rows ++ [⟨db.nextSequence, streamId, seq, eventType⟩] ∧
      outbox.rows = db.outbox.rows ++ [⟨db.nextOutboxId, db.nextSequence⟩] ∧
      db' = { db with
        events := events
        nextSequence := db.nextSequence + 1
        outbox := outbox
        nextOutboxId := db.nextOutboxId + 1 } := by
  unfold append at h
  split at h
  · cases h
  · cases he : insertRow db.events ⟨db.nextSequence, streamId, seq, eventType⟩ true (decide (1 ≤ seq)) with
    | error e =>
      rw [he] at h
      cases h
    | ok events =>
      cases ho : insertRow db.outbox ⟨db.nextOutboxId, db.nextSequence⟩ true true with
      | error e =>
        rw [he, ho] at h
        cases h
      | ok outbox =>
        rw [he, ho] at h
        cases h
        obtain ⟨-, -, hev⟩ := insertRow_eq_ok.mp he
        obtain ⟨-, -, hob⟩ := insertRow_eq_ok.mp ho
        exact ⟨events, outbox, (Lib.Table.insert_eq_some.mp hev).2, (Lib.Table.insert_eq_some.mp hob).2, rfl⟩

lemma maxStreamSeq_append {db db' : Db} {streamId : Uuid} {new : List EventRow}
    (h : db'.events.rows = db.events.rows ++ new) (hn : ∀ e ∈ new, e.streamId ≠ streamId) :
    db'.maxStreamSeq streamId = db.maxStreamSeq streamId := by
  have hnil : new.filter (fun e => decide (e.streamId = streamId)) = [] := by
    rw [List.filter_eq_nil_iff]
    exact fun e he => by simp [hn e he]
  unfold maxStreamSeq Lib.Table.select
  rw [h, List.filter_append, hnil, List.append_nil]

end Db

end Lulan
