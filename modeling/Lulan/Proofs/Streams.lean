import Lulan.Proofs.Ledger

/-!
# Event streams

The stream of an order replays to the status of its row, position by position, and every
event has its outbox row.
-/

namespace Lulan.Proofs

open Lulan Lulan.Db Lib

/-- The events of a stream in the order they were appended. -/
def eventsOf (db : Db) (streamId : Uuid) : List EventRow :=
  db.events.select (fun e => decide (e.streamId = streamId))

structure StreamsOk (db : Db) : Prop where
  positions : ∀ id, (eventsOf db id).map EventRow.streamSeq = List.range' 1 (eventsOf db id).length
  replays : ∀ id row, db.orders.find? id = some row →
    replay none ((eventsOf db id).map EventRow.eventType) = some (some row.status)
  orphans : ∀ id, db.orders.find? id = none → eventsOf db id = []
  outbox : db.outbox.rows.map OutboxRow.eventSequence = db.events.rows.map EventRow.sequence

lemma foldr_max_range' (n : Nat) : (List.range' 1 n).foldr max 0 = n := by
  induction n with
  | zero => rfl
  | succ n ih =>
    have hfold : ∀ (l : List Nat) (b : Nat), l.foldr max b = max (l.foldr max 0) b := by
      intro l b
      induction l with
      | nil => simp
      | cons a l ihl =>
        simp only [List.foldr_cons, ihl]
        omega
    rw [List.range'_1_concat, List.foldr_append, hfold, ih]
    simp only [List.foldr_cons, List.foldr_nil]
    omega

/-- The last position of a stream is its length. -/
lemma StreamsOk.maxStreamSeq {db : Db} (h : StreamsOk db) (id : Uuid) :
    db.maxStreamSeq id = (eventsOf db id).length := by
  unfold Db.maxStreamSeq
  rw [show db.events.select (fun e => decide (e.streamId = id)) = eventsOf db id from rfl, h.positions,
    foldr_max_range']

lemma eventsOf_append {db db' : Db} {new : List EventRow} (h : db'.events.rows = db.events.rows ++ new)
    (id : Uuid) : eventsOf db' id = eventsOf db id ++ new.filter (fun e => decide (e.streamId = id)) := by
  unfold eventsOf Lib.Table.select
  rw [h, List.filter_append]

lemma StreamsOk.congr {db db' : Db} (h : StreamsOk db) (ho : db'.orders = db.orders)
    (he : db'.events = db.events) (hb : db'.outbox = db.outbox) : StreamsOk db' := by
  have hev : ∀ id, eventsOf db' id = eventsOf db id := fun id => by rw [eventsOf, eventsOf, he]
  constructor
  · exact fun id => by rw [hev]; exact h.positions id
  · exact fun id row hr => by rw [hev]; exact h.replays id row (ho ▸ hr)
  · exact fun id hn => by rw [hev]; exact h.orphans id (ho ▸ hn)
  · rw [hb, he]
    exact h.outbox

lemma streamsOk_of_seeded {db : Db} (h : db.Seeded) : StreamsOk db := by
  have hev : ∀ id, eventsOf db id = [] := fun id => by simp [eventsOf, Lib.Table.select, h.events]
  constructor
  · exact fun id => by simp [hev]
  · intro id row hr
    have hm := Lib.Table.find?_mem hr
    rw [h.orders] at hm
    cases hm
  · exact fun id _ => hev id
  · rw [h.outbox, h.events]
    rfl

/-- A transition appends the one legal event at the one free position. -/
lemma StreamsOk.advance {db db' : Db} {orderId seq : Nat} {event : OrderEventType}
    {change : Lib.Assign OrderRow.id} {cur next : OrderStatus} (h : StreamsOk db)
    (ha : Advance db db' orderId seq event change) (hl : LockedAt db orderId cur seq)
    (happ : apply (some cur) event = .ok next) (hs : ∀ r, (change.set r).status = next) : StreamsOk db' := by
  obtain ⟨o, hrow, hcur⟩ := Option.map_eq_some_iff.mp hl.current
  have hev := eventsOf_append ha.events_rows
  have hmine : eventsOf db' orderId = eventsOf db orderId ++ [⟨db.nextSequence, orderId, seq, event.asStr⟩] := by
    rw [hev]
    simp
  have hother : ∀ id, id ≠ orderId → eventsOf db' id = eventsOf db id := by
    intro id hne
    rw [hev]
    simp [hne.symm]
  have hseq : seq = 1 + (eventsOf db orderId).length := by
    rw [hl.seq, h.maxStreamSeq]
    omega
  constructor
  · intro id
    by_cases hid : id = orderId
    · subst hid
      rw [hmine, List.map_append, h.positions, List.length_append, List.length_singleton, List.range'_1_concat,
        List.map_singleton, hseq]
    · rw [hother id hid]
      exact h.positions id
  · intro id row hr
    rw [ha.find?_orders] at hr
    by_cases hid : id = orderId
    · subst hid
      rw [if_pos rfl, hrow, Option.map_some] at hr
      cases hr
      rw [hmine, List.map_append, replay_append, h.replays id o hrow, hcur, hs]
      simp [replay, happ]
    · rw [if_neg hid] at hr
      rw [hother id hid]
      exact h.replays id row hr
  · intro id hn
    rw [ha.find?_orders] at hn
    by_cases hid : id = orderId
    · subst hid
      rw [if_pos rfl, hrow] at hn
      cases hn
    · rw [if_neg hid] at hn
      rw [hother id hid]
      exact h.orphans id hn
  · rw [ha.events_rows, ha.outbox_rows, List.map_append, List.map_append, h.outbox]
    rfl

/-- A booking starts its stream with the two events that lock its inventory. -/
lemma StreamsOk.book {db db' : Db} {ids : BookingIds} {now expiresAt : Timestamp} {o : NewOrder}
    {wired : List WiredItem} {record : OrderRecord} (h : StreamsOk db)
    (hb : Booked ids now expiresAt o wired record db db') : StreamsOk db' := by
  obtain ⟨orders, passengers, orderAncillaries, events, outbox, records, db₁, hord, -, -, -, hclaims, he, ho, rfl⟩ := hb
  obtain ⟨-, hframe⟩ := claimItems_frame hclaims
  have hid : (newOrderRow ids.orderId o expiresAt).id = ids.orderId := rfl
  have hnew := (Lib.Table.insert_eq_some.mp hord).1
  have hfind := Lib.Table.find?_insert hord
  rw [hid] at hnew hfind
  have horders : db₁.orders = orders := by rw [hframe]
  have hnone := h.orphans _ hnew
  rw [h.maxStreamSeq, hnone] at he
  suffices hs : ∀ db₂ : Db, db₂.orders = orders → db₂.events = events → db₂.outbox = outbox → StreamsOk db₂ from
    hs _ horders rfl rfl
  intro db₂ h₁ h₂ h₃
  have hev := eventsOf_append (h₂ ▸ he)
  have hmine : eventsOf db₂ ids.orderId =
      [⟨db.nextSequence, ids.orderId, 1, OrderEventType.orderCreated.asStr⟩,
        ⟨db.nextSequence + 1, ids.orderId, 2, OrderEventType.inventoryLocked.asStr⟩] := by
    rw [hev, hnone]
    simp
  have hother : ∀ id, id ≠ ids.orderId → eventsOf db₂ id = eventsOf db id := by
    intro id hne
    rw [hev]
    simp [hne.symm]
  constructor
  · intro id
    by_cases hi : id = ids.orderId
    · rw [hi, hmine]
      rfl
    · rw [hother id hi]
      exact h.positions id
  · intro id row hr
    rw [h₁, hfind] at hr
    by_cases hi : ids.orderId = id
    · rw [if_pos hi] at hr
      cases hr
      rw [← hi, hmine]
      simp [replay, apply, newOrderRow]
    · rw [if_neg hi] at hr
      rw [hother id (Ne.symm hi)]
      exact h.replays id row hr
  · intro id hn
    rw [h₁, hfind] at hn
    by_cases hi : ids.orderId = id
    · rw [if_pos hi] at hn
      cases hn
    · rw [if_neg hi] at hn
      rw [hother id (Ne.symm hi)]
      exact h.orphans id hn
  · rw [h₂, h₃, he, ho, List.map_append, List.map_append, h.outbox]
    rfl

lemma releaseOrderItems_frame (db : Db) (orderId : Uuid) :
    (db.releaseOrderItems orderId).2 = { db with
      seatOccupancy := (db.releaseOrderItems orderId).2.seatOccupancy
      poolOccupancy := (db.releaseOrderItems orderId).2.poolOccupancy } :=
  releaseItems_frame _ db

lemma LockedAt.congr {db db' : Db} {orderId : Uuid} {cur : OrderStatus} {seq : Nat} (h : LockedAt db orderId cur seq)
    (ho : db'.orders = db.orders) (he : db'.events = db.events) : LockedAt db' orderId cur seq := by
  constructor
  · rw [lockOrder_congr ho]
    exact h.current
  · rw [h.seq, Db.maxStreamSeq, Db.maxStreamSeq, he]

/-- Every transaction keeps the streams replayable. -/
theorem StreamsOk.step {db db' : Db} {w : Oracle} {now : Timestamp} {t : Tx} {res : TxResult} (h : StreamsOk db)
    (he : Effect w now db t res db') : StreamsOk db' := by
  cases he with
  | quiet frame _ _ => exact h.congr frame.orders frame.events frame.outbox
  | booked hb => exact h.book hb
  | seatSold _ => exact h.congr rfl rfl rfl
  | poolSold _ => exact h.congr rfl rfl rfl
  | requested hl ha => exact h.advance ha hl rfl (fun _ => rfl)
  | captured hl ha => exact h.advance ha hl rfl (fun _ => rfl)
  | declined hl ha => exact h.advance ha hl rfl (fun _ => rfl)
  | exited _ hl happ ha =>
    have hmid := h.advance ha hl happ (fun _ => rfl)
    rw [releaseOrderItems_frame]
    exact hmid.congr rfl rfl rfl
  | refunded hl happ ha =>
    have hmid := h.advance ha hl happ (fun _ => rfl)
    rw [releaseOrderItems_frame]
    exact hmid.congr rfl rfl rfl
  | issued hl hi ha =>
    have hf := hi.frame
    exact (h.congr hf.orders hf.events hf.outbox).advance ha (hl.congr hf.orders hf.events) rfl (fun _ => rfl)
  | boarded _ _ => exact h.congr rfl rfl rfl
  | lastBoarded _ _ hl _ ha =>
    refine StreamsOk.advance ?_ ha (hl.congr rfl rfl) rfl (fun _ => rfl)
    exact h.congr rfl rfl rfl

/-- What replay says about a stream, read through the queries of the code. -/
theorem StreamsOk.replayStatus {db : Db} (h : StreamsOk db) {orderId : Uuid} {row : OrderRow}
    (hr : db.orders.find? orderId = some row) :
    (db.stream orderId).map EventRow.streamSeq = List.range' 1 (db.stream orderId).length ∧
    db.replayStatus orderId = some (some row.status) ∧
    ∀ e ∈ db.stream orderId, db.outbox.rows.countP (fun o => decide (o.eventSequence = e.sequence)) = 1 := by
  have hpos := h.positions orderId
  have hsorted : (eventsOf db orderId).Pairwise (fun a b => a.streamSeq ≤ b.streamSeq) := by
    have hlt : ((eventsOf db orderId).map EventRow.streamSeq).Pairwise (fun a b => a ≤ b) := by
      rw [hpos]
      exact (List.pairwise_lt_range').imp (fun h => h.le)
    exact List.pairwise_map.mp hlt
  have hstream : db.stream orderId = eventsOf db orderId := List.Pairwise.insertionSort_eq hsorted
  refine ⟨by rw [hstream]; exact hpos, ?_, fun e he => ?_⟩
  · rw [Db.replayStatus, hstream]
    exact h.replays orderId row hr
  · rw [hstream] at he
    have hm : e.sequence ∈ db.events.rows.map EventRow.sequence :=
      List.mem_map_of_mem (Lib.Table.mem_select.mp he).1
    have hcount : db.outbox.rows.countP (fun o => decide (o.eventSequence = e.sequence)) =
        (db.outbox.rows.map OutboxRow.eventSequence).count e.sequence := by
      rw [List.count, List.countP_map]
      rfl
    rw [hcount, h.outbox]
    exact List.count_eq_one_of_mem db.events.nodup hm

end Lulan.Proofs
