import Lulan.Lib.Alone
import Lulan.Proofs.Boarding
import Lulan.Proofs.Duplicates

/-!
# Scans at the gate

A scan that is recorded once is never recorded again, and what a journal does to the tickets
depends on the scans in it alone, not on their order.
-/

namespace Lulan.Proofs

open Lulan Lulan.Db Lib

/-- The tickets and the journal, as the gate knows them. -/
structure Gate where
  status : Uuid → Option TicketStatus
  journal : Uuid × String × Timestamp → Option ScanEventRow

/-- A ticket goes aboard once. -/
def aboard : Option TicketStatus → Option TicketStatus
  | some .issued => some .boarded
  | status => status

namespace Gate

variable {g : Gate} {e : ScanEventRow} {l l' : List ScanEventRow}

/-- Nothing is left to do for a scan of an unknown ticket, or one that is in the journal. -/
def Settled (g : Gate) (e : ScanEventRow) : Prop := g.status e.ticketId = none ∨ (g.journal e.key).isSome = true

instance (g : Gate) (e : ScanEventRow) : Decidable (g.Settled e) := inferInstanceAs (Decidable (_ ∨ _))

def scan (g : Gate) (e : ScanEventRow) : Gate :=
  if g.Settled e then g
  else ⟨Function.update g.status e.ticketId (aboard (g.status e.ticketId)), Function.update g.journal e.key (some e)⟩

lemma scan_settled (h : g.Settled e) : g.scan e = g := if_pos h

lemma aboard_eq_none {status : Option TicketStatus} : aboard status = none ↔ status = none := by
  cases status with
  | none => exact Iff.rfl
  | some s => cases s <;> simp [aboard]

lemma aboard_aboard (status : Option TicketStatus) : aboard (aboard status) = aboard status := by
  cases status with
  | none => rfl
  | some s => cases s <;> rfl

lemma scan_status (k : Uuid) :
    (g.scan e).status k = if k = e.ticketId ∧ (g.journal e.key).isSome = false then aboard (g.status k) else g.status k := by
  by_cases hs : g.Settled e
  · rw [scan_settled hs]
    split
    · rename_i hk
      rcases hs with hs | hs
      · rw [hk.1, hs]
        rfl
      · rw [hk.2] at hs
        cases hs
    · rfl
  · rw [scan, if_neg hs]
    have hj : (g.journal e.key).isSome = false := Bool.eq_false_iff.mpr (fun h => hs (.inr h))
    by_cases hk : k = e.ticketId
    · subst hk
      rw [if_pos ⟨rfl, hj⟩]
      exact Function.update_self ..
    · rw [if_neg (fun h => hk h.1)]
      exact Function.update_of_ne hk ..

lemma scan_unknown (k : Uuid) : (g.scan e).status k = none ↔ g.status k = none := by
  rw [scan_status]
  split
  · exact aboard_eq_none
  · exact Iff.rfl

lemma scan_journal (k : Uuid × String × Timestamp) :
    (g.scan e).journal k = if k = e.key ∧ ¬g.Settled e then some e else g.journal k := by
  by_cases hs : g.Settled e
  · rw [scan_settled hs, if_neg (fun h => h.2 hs)]
  · rw [scan, if_neg hs]
    by_cases hk : k = e.key
    · subst hk
      rw [if_pos ⟨rfl, hs⟩]
      exact Function.update_self ..
    · rw [if_neg (fun h => hk h.1)]
      exact Function.update_of_ne hk ..

lemma scan_recorded (h : g.status e.ticketId ≠ none) : ((g.scan e).journal e.key).isSome = true := by
  rw [scan_journal]
  by_cases hs : g.Settled e
  · rw [if_neg (fun hn => hn.2 hs)]
    exact hs.resolve_left h
  · rw [if_pos ⟨rfl, hs⟩]
    rfl

/-- After a journal a ticket is aboard if it was issued and a new scan of it came in. -/
lemma foldl_status (l : List ScanEventRow) (g : Gate) (k : Uuid) :
    (l.foldl scan g).status k =
      if ∃ e ∈ l, e.ticketId = k ∧ g.journal e.key = none then aboard (g.status k) else g.status k := by
  induction l generalizing g with
  | nil => simp
  | cons a rest ih =>
    rw [List.foldl_cons, ih]
    by_cases ha : a.ticketId = k ∧ g.journal a.key = none
    · have hnew : (g.scan a).status k = aboard (g.status k) := by
        rw [scan_status, if_pos ⟨ha.1.symm, by rw [ha.2]; rfl⟩]
      rw [hnew, aboard_aboard, ite_self, if_pos ⟨a, by simp, ha⟩]
    · have hsame : (g.scan a).status k = g.status k := by
        rw [scan_status, if_neg]
        rintro ⟨hk, hn⟩
        exact ha ⟨hk.symm, by simpa using hn⟩
      rw [hsame]
      refine if_congr ?_ rfl rfl
      constructor
      · rintro ⟨e, he, hk, hn⟩
        refine ⟨e, List.mem_cons_of_mem _ he, hk, ?_⟩
        rw [scan_journal] at hn
        split at hn
        · cases hn
        · exact hn
      · rintro ⟨e, he, hk, hn⟩
        rcases List.mem_cons.mp he with rfl | he
        · exact absurd ⟨hk, hn⟩ ha
        · refine ⟨e, he, hk, ?_⟩
          rw [scan_journal, if_neg, hn]
          rintro ⟨hkey, -⟩
          have hticket : e.ticketId = a.ticketId := congrArg Prod.fst hkey
          exact ha ⟨hticket.symm.trans hk, hkey ▸ hn⟩

/-- Of several scans with one key the first is the one in the journal. -/
lemma foldl_journal (l : List ScanEventRow) (g : Gate) (k : Uuid × String × Timestamp) :
    (l.foldl scan g).journal k = (g.journal k).or
      (l.find? (fun e => decide (e.key = k) && (g.status e.ticketId).isSome)) := by
  induction l generalizing g with
  | nil => simp
  | cons a rest ih =>
    have hknown : ∀ t, ((g.scan a).status t).isSome = (g.status t).isSome := fun t => by
      rw [Bool.eq_iff_iff, Option.isSome_iff_ne_none, Option.isSome_iff_ne_none, ne_eq, ne_eq, scan_unknown]
    rw [List.foldl_cons, ih, scan_journal, List.find?_cons]
    simp only [hknown]
    cases hj : g.journal k with
    | some e =>
      have hs : ¬(k = a.key ∧ ¬g.Settled a) := fun h => h.2 (.inr (by rw [← h.1, hj]; rfl))
      rw [if_neg hs]
      rfl
    | none =>
      by_cases ha : a.key = k ∧ (g.status a.ticketId).isSome = true
      · have hs : ¬g.Settled a := by
          rintro (hs | hs)
          · rw [hs] at ha
            cases ha.2
          · rw [ha.1, hj] at hs
            cases hs
        rw [if_pos ⟨ha.1.symm, hs⟩, decide_eq_true ha.1, ha.2]
        rfl
      · have hs : ¬(k = a.key ∧ ¬g.Settled a) := fun h =>
          ha ⟨h.1.symm, Option.isSome_iff_ne_none.mpr (fun hn => h.2 (.inl hn))⟩
        have hf : (decide (a.key = k) && (g.status a.ticketId).isSome) = false := by
          rw [Bool.eq_false_iff]
          intro h
          rw [Bool.and_eq_true, decide_eq_true_eq] at h
          exact ha h
        rw [if_neg hs, hf]

/-- The scans of two journals have the same keys. -/
def SameKeys (l l' : List ScanEventRow) : Prop := ∀ k, k ∈ l.map ScanEventRow.key ↔ k ∈ l'.map ScanEventRow.key

lemma SameKeys.exists (h : SameKeys l l') (he : e ∈ l) : ∃ e' ∈ l', e'.key = e.key :=
  List.mem_map.mp ((h e.key).mp (List.mem_map_of_mem he))

lemma SameKeys.symm (h : SameKeys l l') : SameKeys l' l := fun k => (h k).symm

lemma SameKeys.status (h : SameKeys l l') (g : Gate) (k : Uuid) :
    (l.foldl scan g).status k = (l'.foldl scan g).status k := by
  have himp : ∀ {l l'}, SameKeys l l' → (∃ e ∈ l, e.ticketId = k ∧ g.journal e.key = none) →
      ∃ e ∈ l', e.ticketId = k ∧ g.journal e.key = none := by
    rintro l l' h ⟨e, he, hk, hn⟩
    obtain ⟨e', he', hkey⟩ := h.exists he
    refine ⟨e', he', (congrArg Prod.fst hkey).trans hk, ?_⟩
    rw [hkey, hn]
  rw [foldl_status, foldl_status]
  exact if_congr ⟨himp h, himp h.symm⟩ rfl rfl

lemma SameKeys.find? (h : SameKeys l l') (g : Gate) (k : Uuid × String × Timestamp) :
    (l.find? (fun e => decide (e.key = k) && (g.status e.ticketId).isSome)).isSome = true →
      (l'.find? (fun e => decide (e.key = k) && (g.status e.ticketId).isSome)).isSome = true := by
  rw [List.find?_isSome, List.find?_isSome]
  rintro ⟨e, he, hp⟩
  obtain ⟨e', he', hkey⟩ := h.exists he
  refine ⟨e', he', ?_⟩
  have hticket : e'.ticketId = e.ticketId := congrArg Prod.fst hkey
  rwa [hkey, hticket]

lemma SameKeys.recorded (h : SameKeys l l') (g : Gate) (k : Uuid × String × Timestamp) :
    ((l.foldl scan g).journal k).isSome = ((l'.foldl scan g).journal k).isSome := by
  rw [foldl_journal, foldl_journal, Option.isSome_or, Option.isSome_or]
  congr 1
  exact Bool.eq_iff_iff.mpr ⟨h.find? g k, h.symm.find? g k⟩

/-- Where every scan has one verdict, the journals are the same row for row. -/
lemma SameKeys.journal (h : SameKeys l l') (hone : ∀ e ∈ l, ∀ e' ∈ l', e.key = e'.key → e = e') (g : Gate)
    (k : Uuid × String × Timestamp) : (l.foldl scan g).journal k = (l'.foldl scan g).journal k := by
  rw [foldl_journal, foldl_journal]
  congr 1
  cases hl : l.find? (fun e => decide (e.key = k) && (g.status e.ticketId).isSome) with
  | none =>
    cases hl' : l'.find? (fun e => decide (e.key = k) && (g.status e.ticketId).isSome) with
    | none => rfl
    | some e' =>
      have hs := h.symm.find? g k (by rw [hl']; rfl)
      rw [hl] at hs
      cases hs
  | some e =>
    obtain ⟨e', he'⟩ := Option.isSome_iff_exists.mp (h.find? g k (by rw [hl]; rfl))
    rw [he']
    have hp := List.find?_some hl
    have hp' := List.find?_some he'
    rw [Bool.and_eq_true, decide_eq_true_eq] at hp hp'
    rw [hone e (List.mem_of_find?_eq_some hl) e' (List.mem_of_find?_eq_some he') (hp.1.trans hp'.1.symm)]

/-- A journal whose scans are all settled changes nothing, and one that has come in is settled. -/
lemma settled_foldl (g : Gate) (he : e.key ∈ l.map ScanEventRow.key ∨ g.Settled e) : (l.foldl scan g).Settled e := by
  by_cases hn : g.status e.ticketId = none
  · left
    rw [foldl_status]
    split
    · exact aboard_eq_none.mpr hn
    · exact hn
  · right
    rw [foldl_journal, Option.isSome_or]
    rcases he with he | he | he
    · obtain ⟨e', he', hkey⟩ := List.mem_map.mp he
      rw [Bool.or_eq_true, List.find?_isSome]
      right
      refine ⟨e', he', ?_⟩
      have hticket : e'.ticketId = e.ticketId := congrArg Prod.fst hkey
      rw [hkey, hticket, decide_eq_true rfl, Bool.true_and]
      exact Option.isSome_iff_ne_none.mpr hn
    · exact absurd he hn
    · rw [he, Bool.true_or]

end Gate

section Recording

variable {db db' : Db} {e : ScanEventRow} {o : ScanOutcome} {lag : Nat}

/-- What the gate knows of a database. -/
def gateOf (db : Db) : Gate := ⟨statusOf db, db.scanEvents.find?⟩

/-- What every scan relies on: each ticket belongs to an order, and the event store takes
the next event of a stream. -/
structure ScanOk (db : Db) : Prop where
  numbered : Numbered db
  streams : StreamsOk db
  orders : ∀ t ∈ db.tickets.rows, (db.lockOrder t.orderId).isSome = true

lemma ScanOk.step {w : Oracle} {now : Timestamp} {tx : Tx} {res : TxResult} (h : ScanOk db)
    (he : Effect w now db tx res db') : ScanOk db' := by
  refine ⟨h.numbered.step he, h.streams.step he, fun t' ht' => ?_⟩
  obtain ⟨f, new, hrows, hold, hnew⟩ := he.tickets
  rw [hrows, List.mem_append] at ht'
  rcases ht' with ht' | ht'
  · obtain ⟨t, ht, rfl⟩ := List.mem_map.mp ht'
    obtain ⟨st, hst⟩ := Option.isSome_iff_exists.mp (h.orders t ht)
    obtain ⟨st', hst', -⟩ := he.lockOrder_step hst
    rw [(hold t ht).orderId, hst']
    rfl
  · obtain ⟨row, next, -, -, hk⟩ := he.moved (hnew t' ht').order
    rw [Db.lockOrder, hk, if_pos rfl]
    rfl

lemma Reaches.scanOk {app : AppState} {s : World}
    {c : LockConf Request World Tx TxResult Call Reply Answer Uuid LockRead LockRead} (hs : s.db.Seeded)
    (hc : Reaches app s c) : ScanOk c.store.db := by
  refine ⟨hc.numbered hs, (hc.runOk hs).streams, fun t ht => ?_⟩
  obtain ⟨st, hst, -⟩ := (Reaches.ticketsOk hs hc).suits t ht
  rw [hst]
  rfl

lemma statusOf_boardTicket (db : Db) (ticketId : Uuid) (scannedAt : Timestamp) (k : Uuid) :
    statusOf (db.boardTicket ticketId scannedAt) k =
      if k = ticketId then (statusOf db k).map (fun _ => .boarded) else statusOf db k := by
  simp only [statusOf, boardTicket, Lib.Table.find?_update]
  cases hf : db.tickets.find? k with
  | none => simp
  | some t =>
    have hid : t.id = k := Lib.Table.find?_key hf
    by_cases hk : k = ticketId <;> simp [hid, hk]

lemma boardOrder_frame {orderId : Uuid} {status : Option String} (h : db.boardOrder orderId = .ok (status, db')) :
    db'.tickets = db.tickets ∧ db'.scanEvents = db.scanEvents := by
  unfold boardOrder at h
  split at h
  · cases h
  · split at h
    · cases h
      exact ⟨rfl, rfl⟩
    · obtain ⟨db₁, happ, h⟩ := bind_eq_ok.mp h
      cases h
      obtain ⟨events, outbox, -, -, rfl⟩ := append_eq_ok happ
      exact ⟨rfl, rfl⟩

lemma statusOf_congr (h : db'.tickets = db.tickets) (k : Uuid) : statusOf db' k = statusOf db k := by
  simp only [statusOf, h]

/-- A scan that goes into the journal sends its ticket aboard if it is issued. -/
lemma recordScan_fresh {ticket : TicketRow} {scanEvents : Table ScanEventRow.key}
    (ht : db.tickets.find? e.ticketId = some ticket) (hi : db.scanEvents.insert e = some scanEvents)
    (h : db.recordScan lag e.ticketId e.deviceId e.scannedAt e.result = .ok (o, db')) :
    db'.scanEvents = scanEvents ∧
      ∀ k, statusOf db' k = if k = e.ticketId then aboard (statusOf db k) else statusOf db k := by
  have hstatus : statusOf db e.ticketId = some ticket.status := by
    simp only [statusOf, ht, Option.map_some]
  have hkept : aboard (some ticket.status) = some ticket.status → ∀ k,
      statusOf { db with scanEvents := scanEvents } k =
        if k = e.ticketId then aboard (statusOf db k) else statusOf db k := by
    intro ha k
    by_cases hk : k = e.ticketId
    · rw [if_pos hk, hk, hstatus, ha]
      exact hstatus
    · rw [if_neg hk]
      rfl
  have hboarded : ticket.status = .issued → ∀ k,
      statusOf ({ db with scanEvents := scanEvents }.boardTicket e.ticketId e.scannedAt) k =
        if k = e.ticketId then aboard (statusOf db k) else statusOf db k := by
    intro hs k
    rw [statusOf_boardTicket]
    refine if_ctx_congr Iff.rfl (fun hk => ?_) (fun _ => rfl)
    rw [hk, hstatus, hs]
    change (statusOf db e.ticketId).map (fun _ => TicketStatus.boarded) = _
    rw [hstatus]
    rfl
  have hi' : db.scanEvents.insert ⟨e.ticketId, e.deviceId, e.scannedAt, e.result⟩ = some scanEvents := hi
  unfold recordScan at h
  simp only [ht, hi'] at h
  cases hs : ticket.status with
  | boarded =>
    rw [hs] at h
    cases h
    exact ⟨rfl, hkept (by rw [hs]; rfl)⟩
  | void =>
    rw [hs] at h
    cases h
    exact ⟨rfl, hkept (by rw [hs]; rfl)⟩
  | issued =>
    rw [hs] at h
    dsimp only at h
    split at h
    · obtain ⟨⟨status, db₁⟩, horder, h⟩ := bind_eq_ok.mp h
      cases h
      obtain ⟨htickets, hscans⟩ := boardOrder_frame horder
      exact ⟨hscans, fun k => (statusOf_congr htickets k).trans (hboarded hs k)⟩
    · cases h
      exact ⟨rfl, hboarded hs⟩

/-- A recorded scan is a scan at the gate. -/
lemma recordScan_gate (h : db.recordScan lag e.ticketId e.deviceId e.scannedAt e.result = .ok (o, db')) :
    gateOf db' = (gateOf db).scan e ∧ ((gateOf db).Settled e → db' = db) := by
  cases ht : db.tickets.find? e.ticketId with
  | none =>
    have hs : (gateOf db).Settled e := by
      left
      simp only [gateOf, statusOf, ht, Option.map_none]
    simp only [recordScan, ht, Except.ok.injEq, Prod.mk.injEq] at h
    rw [← h.2]
    exact ⟨(Gate.scan_settled hs).symm, fun _ => rfl⟩
  | some ticket =>
    cases hi : db.scanEvents.insert e with
    | none =>
      have hs : (gateOf db).Settled e := .inr (Option.isSome_iff_ne_none.mpr (Lib.Table.insert_eq_none.mp hi))
      have hi' : db.scanEvents.insert ⟨e.ticketId, e.deviceId, e.scannedAt, e.result⟩ = none := hi
      simp only [recordScan, ht, hi'] at h
      cases h
      exact ⟨(Gate.scan_settled hs).symm, fun _ => rfl⟩
    | some scanEvents =>
      obtain ⟨hscans, hstatus⟩ := recordScan_fresh ht hi h
      have hnew := (Lib.Table.insert_eq_some.mp hi).1
      have hns : ¬(gateOf db).Settled e := by
        rintro (hs | hs)
        · simp only [gateOf, statusOf, ht, Option.map_some, reduceCtorEq] at hs
        · change (db.scanEvents.find? e.key).isSome = true at hs
          rw [hnew] at hs
          cases hs
      refine ⟨?_, fun hs => absurd hs hns⟩
      rw [Gate.scan, if_neg hns, gateOf, hscans]
      congr 1
      · funext k
        rw [hstatus, Function.update_apply]
        exact if_ctx_congr Iff.rfl (fun hk => by rw [hk]; rfl) (fun _ => rfl)
      · funext k
        rw [Lib.Table.find?_insert hi, Function.update_apply]
        exact if_congr eq_comm rfl rfl

/-- A scan on a sound database is always recorded. -/
lemma recordScan_succeeds (lag : Nat) (hok : ScanOk db) (e : ScanEventRow) :
    ∃ o db', db.recordScan lag e.ticketId e.deviceId e.scannedAt e.result = .ok (o, db') := by
  cases ht : db.tickets.find? e.ticketId with
  | none => exact ⟨⟨e.ticketId, "unknown_ticket", none⟩, db, by simp only [recordScan, ht]⟩
  | some ticket =>
    cases hi : db.scanEvents.insert ⟨e.ticketId, e.deviceId, e.scannedAt, e.result⟩ with
    | none => exact ⟨⟨e.ticketId, "duplicate_scan", none⟩, db, by simp only [recordScan, ht, hi]⟩
    | some scanEvents =>
      have horder : ∃ status db', ({ db with scanEvents }.boardTicket e.ticketId e.scannedAt).boardOrder
          ticket.orderId = .ok (status, db') := by
        obtain ⟨current, hcur⟩ := Option.isSome_iff_exists.mp (hok.orders ticket (Lib.Table.find?_mem ht))
        have hlock : ({ db with scanEvents }.boardTicket e.ticketId e.scannedAt).lockOrder ticket.orderId =
            some current := hcur
        unfold boardOrder
        simp only [hlock]
        cases happ : apply (some current) .passengerBoarded with
        | error err => exact ⟨_, _, rfl⟩
        | ok next =>
          have hnum : Numbered (({ db with scanEvents }.boardTicket e.ticketId e.scannedAt).setStatus
            ticket.orderId next) := hok.numbered.congr rfl rfl rfl rfl
          obtain ⟨db', hdb⟩ := append_succeeds ticket.orderId OrderEventType.passengerBoarded.asStr hnum
            (Nat.le_add_left 1 _) (fun e he hid => hok.streams.seq_lt he hid)
          refine ⟨some next.asStr, db', ?_⟩
          dsimp only
          rw [bind_eq_ok]
          exact ⟨db', hdb, rfl⟩
      obtain ⟨status, db', hboard⟩ := horder
      unfold recordScan
      simp only [ht, hi]
      cases ticket.status with
      | boarded => exact ⟨_, _, rfl⟩
      | void => exact ⟨_, _, rfl⟩
      | issued =>
        dsimp only
        split
        · rw [hboard]
          exact ⟨_, _, rfl⟩
        · exact ⟨_, _, rfl⟩

end Recording

section Sessions

variable {w : Oracle}

/-- What a device syncs at once. -/
structure Batch where
  deviceId : String
  scans : List ScanRequest

def Batch.rows (b : Batch) : List ScanEventRow :=
  b.scans.map (fun scan => ⟨scan.ticketId, b.deviceId, scan.scannedAt, scan.result⟩)

/-- The batches that `POST /v1/scans` takes. -/
def Batch.Accepted (b : Batch) : Prop := (trim b.deviceId).isEmpty = false ∧ b.scans.length ≤ 1000

/-- The server by itself with one request after another, each meeting `w`. -/
def sessions (app : AppState) (w : Oracle) (reply : Call → Reply) : List Request → World → List Answer × World
  | [], s => ([], s)
  | i :: rest, s =>
    let r := (Request.handler app i).alone (fun t s => Tx.run t w s) reply s
    let r' := sessions app w reply rest r.store
    (r.answer :: r'.1, r'.2)

/-- One scan after another: all are recorded. -/
lemma syncScans_alone (reply : Call → Reply) (hw : w.fail = none) (deviceId : String) (scans : List ScanRequest) {s : World}
    (hok : ScanOk s.db) : ∃ outcomes s',
    Prog.alone (fun t s => Tx.run t w s) reply (Tickets.syncScans deviceId scans) s = ⟨.ok outcomes, s', []⟩ ∧
      ScanOk s'.db ∧ gateOf s'.db = (Batch.rows ⟨deviceId, scans⟩).foldl Gate.scan (gateOf s.db) ∧
      ((∀ e ∈ Batch.rows ⟨deviceId, scans⟩, (gateOf s.db).Settled e) → s' = s) := by
  induction scans generalizing s with
  | nil => exact ⟨[], s, rfl, hok, rfl, fun _ => rfl⟩
  | cons scan rest ih =>
    obtain ⟨o, db', hrec⟩ := recordScan_succeeds w.lag hok
      ⟨scan.ticketId, deviceId, scan.scannedAt, scan.result⟩
    obtain ⟨hgate, hsame⟩ := recordScan_gate hrec
    have hrun : Tx.run (.recordScan scan.ticketId deviceId scan.scannedAt scan.result) w s =
        (.scanned o, { s with db := db' }) := by
      simp only [Tx.run, hw, Tx.body, hrec, Tx.settle]
    have heffect : Effect w s.now s.db _ (.scanned o) db' := recordScan_effect hrec
    obtain ⟨outcomes, s', halone, hok', hgate', hsame'⟩ := ih (s := { s with db := db' }) (hok.step heffect)
    have hone : Prog.alone (fun t s => Tx.run t w s) reply (Handler.mapErr (fun e => .internal (.ticket e))
        (TicketStore.recordScan scan.ticketId deviceId scan.scannedAt scan.result)) s =
        ⟨.ok o, { s with db := db' }, []⟩ := by
      simp only [TicketStore.recordScan, Io.transact, Handler.mapErr, Prog.bind, Prog.alone_tx, hrun]
      rfl
    have hrest : Prog.alone (fun t s => Tx.run t w s) reply
        (Tickets.syncScans deviceId rest >>= fun outcomes => pure (o :: outcomes) : Handler (List ScanOutcome))
        { s with db := db' } = ⟨.ok (o :: outcomes), s', []⟩ := Prog.alone_ok halone
    refine ⟨o :: outcomes, s', ?_, hok', ?_, fun hall => ?_⟩
    · rw [Tickets.syncScans]
      refine (Prog.alone_ok hone).trans ?_
      rw [hrest]
      rfl
    · rw [hgate', hgate]
      rfl
    · have hfirst := hall _ (List.mem_cons_self ..)
      have hdb := hsame hfirst
      subst hdb
      exact hsame' (fun e he => hall e (List.mem_cons_of_mem _ he))

lemma sync_alone (app : AppState) (reply : Call → Reply) (hw : w.fail = none) {b : Batch} (hb : b.Accepted) {s : World} (hok : ScanOk s.db) :
    ∃ outcomes s', (Request.handler app (.syncScans b.deviceId b.scans)).alone (fun t s => Tx.run t w s) reply s =
      ⟨.ok (.scans outcomes), s', []⟩ ∧ ScanOk s'.db ∧ gateOf s'.db = b.rows.foldl Gate.scan (gateOf s.db) ∧
        ((∀ e ∈ b.rows, (gateOf s.db).Settled e) → s' = s) := by
  obtain ⟨outcomes, s', halone, hrest⟩ := syncScans_alone reply hw b.deviceId b.scans hok
  refine ⟨outcomes, s', ?_, hrest⟩
  have hsync : Tickets.sync b.deviceId b.scans = Tickets.syncScans b.deviceId b.scans := by
    rw [Tickets.sync, hb.1, if_neg Bool.false_ne_true, if_neg (not_lt.mpr hb.2)]
  rw [Request.handler, hsync, Handler.answer, Prog.alone_bind, halone]
  rfl

def syncs (bs : List Batch) : List Request := bs.map (fun b => .syncScans b.deviceId b.scans)

/-- Every scan of every batch, in the order in which they come in. -/
def journalOf (bs : List Batch) : List ScanEventRow := bs.flatMap Batch.rows

lemma sessions_syncs (app : AppState) (reply : Call → Reply) (hw : w.fail = none) (bs : List Batch)
    (hb : ∀ b ∈ bs, b.Accepted) {s : World} (hok : ScanOk s.db) : ∃ answers s',
    sessions app w reply (syncs bs) s = (answers, s') ∧ (∀ a ∈ answers, ∃ outcomes, a = .ok (.scans outcomes)) ∧
      ScanOk s'.db ∧ gateOf s'.db = (journalOf bs).foldl Gate.scan (gateOf s.db) ∧
      ((∀ e ∈ journalOf bs, (gateOf s.db).Settled e) → s' = s) := by
  induction bs generalizing s with
  | nil => exact ⟨[], s, rfl, by simp, hok, rfl, fun _ => rfl⟩
  | cons b rest ih =>
    obtain ⟨outcomes, s₁, halone, hok₁, hgate₁, hsame₁⟩ :=
      sync_alone app reply hw (hb b (by simp)) hok
    obtain ⟨answers, s', hrest, hans, hok', hgate', hsame'⟩ := ih (fun b' hb' => hb b' (by simp [hb'])) hok₁
    refine ⟨.ok (.scans outcomes) :: answers, s', ?_, fun a ha => ?_, hok', ?_, fun hall => ?_⟩
    · rw [syncs, List.map_cons, sessions]
      simp only [halone]
      rw [← syncs, hrest]
    · rcases List.mem_cons.mp ha with rfl | ha
      · exact ⟨outcomes, rfl⟩
      · exact hans a ha
    · rw [hgate', hgate₁, journalOf, journalOf, List.flatMap_cons, List.foldl_append]
    · simp only [journalOf, List.flatMap_cons, List.mem_append] at hall
      have hs := hsame₁ (fun e he => hall e (.inl he))
      subst hs
      exact hsame' (fun e he => hall e (.inr he))

end Sessions

section Journals

variable {app : AppState} {w : Oracle} {reply : Call → Reply} {s : World}
  {c : LockConf Request World Tx TxResult Call Reply Answer Uuid LockRead LockRead}

/-- What the server is left with after the batches. -/
def after (app : AppState) (w : Oracle) (reply : Call → Reply) (bs : List Batch) (s : World) : World :=
  (sessions app w reply (syncs bs) s).2

/-- A journal recorded scan by scan, as the store records one. -/
def recordAll (lag : Nat) (l : List ScanEventRow) (db : Db) : Except DbError Db :=
  l.foldlM (fun db e => (db.recordScan lag e.ticketId e.deviceId e.scannedAt e.result).map Prod.snd) db

lemma recordAll_gate (lag : Nat) (l : List ScanEventRow) {db : Db} (hok : ScanOk db) :
    ∃ db', recordAll lag l db = .ok db' ∧ gateOf db' = l.foldl Gate.scan (gateOf db) := by
  induction l generalizing db with
  | nil => exact ⟨db, rfl, rfl⟩
  | cons e rest ih =>
    obtain ⟨o, db₁, hrec⟩ := recordScan_succeeds lag hok e
    have heffect : Effect { drawn 0 with lag } 0 db _ (.scanned o) db₁ := recordScan_effect hrec
    obtain ⟨db', hrest, hgate⟩ := ih (hok.step heffect)
    refine ⟨db', ?_, ?_⟩
    · rw [recordAll, List.foldlM_cons, hrec]
      exact hrest
    · rw [hgate, (recordScan_gate hrec).1, List.foldl_cons]

/-- The batches are a run of the server. -/
theorem syncs_reachable (hreply : ∀ q, (site app).fits q (reply q) = true) (is : List Request)
    (c : Conf Request World Tx TxResult Call Reply Answer) :
    ∃ c', (site app).Reachable c c' ∧ c'.store = (sessions app w reply is c.store).2 := by
  induction is generalizing c with
  | nil => exact ⟨c, .refl, rfl⟩
  | cons i rest ih =>
    obtain ⟨c₁, hc₁, hstore₁⟩ := (site app).reachable_session w hreply i c
    obtain ⟨c', hc', hstore⟩ := ih c₁
    refine ⟨c', hc₁.trans hc', hstore.trans ?_⟩
    rw [hstore₁]
    rfl

/-- Every scan of the batches is on record, if its ticket is known, and a ticket is aboard
exactly if it was, or was issued and came with a new scan; and whatever is on record or came in
changes nothing when it comes in again. -/
lemma syncs_record (hok : ScanOk s.db) (hw : w.fail = none) {bs : List Batch} (hb : ∀ b ∈ bs, b.Accepted) :
    (∀ k, statusOf (after app w reply bs s).db k =
      if ∃ e ∈ journalOf bs, e.ticketId = k ∧ s.db.scanEvents.find? e.key = none then aboard (statusOf s.db k)
      else statusOf s.db k) ∧
    (∀ k, ((after app w reply bs s).db.scanEvents.find? k).isSome = true ↔
      (s.db.scanEvents.find? k).isSome = true ∨
        ∃ e ∈ journalOf bs, e.key = k ∧ (statusOf s.db e.ticketId).isSome = true) := by
  obtain ⟨answers, s₁, h₁, -, -, hgate, -⟩ := sessions_syncs app reply hw bs hb hok
  have hafter : after app w reply bs s = s₁ := by rw [after, h₁]
  rw [hafter]
  refine ⟨fun k => ?_, fun k => ?_⟩
  · change (gateOf s₁.db).status k = _
    rw [hgate, Gate.foldl_status]
    rfl
  · change ((gateOf s₁.db).journal k).isSome = true ↔ _
    rw [hgate, Gate.foldl_journal, Option.isSome_or, Bool.or_eq_true, List.find?_isSome]
    simp only [Bool.and_eq_true, decide_eq_true_eq]
    rfl

/-- Two lists of batches with the same scans, however they are split, repeated and ordered, are
taken whole, are a run of the server, and leave every ticket in the same status and the same
scans on record, with the same verdicts unless one scan comes in with two: what recording the
scans one by one leaves, each once and in any order. Every scan of a known ticket is on record then, and a
ticket went aboard exactly if it was issued and came with a new scan; a scan that is on record
or came in changes nothing when it comes in again. -/
theorem journals_agree (hs : s.db.Seeded) (hc : Reaches app s c) (hw : w.fail = none) {bs bs' : List Batch}
    (hb : ∀ b ∈ bs, b.Accepted) (hb' : ∀ b ∈ bs', b.Accepted) (hsame : Gate.SameKeys (journalOf bs) (journalOf bs')) :
    (∀ a ∈ (sessions app w reply (syncs bs) c.store).1, ∃ outcomes, a = .ok (.scans outcomes)) ∧
    (∀ c₀ : Conf Request World Tx TxResult Call Reply Answer, c₀.store = c.store →
      (∀ q, (site app).fits q (reply q) = true) →
      ∃ c', (site app).Reachable c₀ c' ∧ c'.store = after app w reply bs c.store) ∧
    (∀ k, statusOf (after app w reply bs c.store).db k = statusOf (after app w reply bs' c.store).db k) ∧
    (∀ k, ((after app w reply bs c.store).db.scanEvents.find? k).isSome =
      ((after app w reply bs' c.store).db.scanEvents.find? k).isSome) ∧
    ((∀ e ∈ journalOf bs, ∀ e' ∈ journalOf bs', e.key = e'.key → e = e') → ∀ k,
      (after app w reply bs c.store).db.scanEvents.find? k = (after app w reply bs' c.store).db.scanEvents.find? k) ∧
    (∀ lag once, Gate.SameKeys (journalOf bs) once → ∃ db, recordAll lag once c.store.db = .ok db ∧
      (∀ k, statusOf (after app w reply bs c.store).db k = statusOf db k) ∧
      ∀ k, ((after app w reply bs c.store).db.scanEvents.find? k).isSome = (db.scanEvents.find? k).isSome) ∧
    (∀ k, statusOf (after app w reply bs c.store).db k =
      if ∃ e ∈ journalOf bs, e.ticketId = k ∧ c.store.db.scanEvents.find? e.key = none
      then aboard (statusOf c.store.db k) else statusOf c.store.db k) ∧
    (∀ k, ((after app w reply bs c.store).db.scanEvents.find? k).isSome = true ↔
      (c.store.db.scanEvents.find? k).isSome = true ∨
        ∃ e ∈ journalOf bs, e.key = k ∧ (statusOf c.store.db e.ticketId).isSome = true) ∧
    ∀ again, (∀ b ∈ again, b.Accepted) → (∀ e ∈ journalOf again, e.key ∈ (journalOf bs).map ScanEventRow.key ∨
      (c.store.db.scanEvents.find? e.key).isSome = true) →
      after app w reply again (after app w reply bs c.store) = after app w reply bs c.store := by
  have hok := Reaches.scanOk hs hc
  have hrecord := @syncs_record app w reply c.store hok hw bs hb
  obtain ⟨answers, s₁, h₁, hans, hok₁, hgate₁, -⟩ := sessions_syncs app reply hw bs hb hok
  obtain ⟨_, s₂, h₂, -, -, hgate₂, -⟩ := sessions_syncs app reply hw bs' hb' hok
  have ha₁ : after app w reply bs c.store = s₁ := by rw [after, h₁]
  have ha₂ : after app w reply bs' c.store = s₂ := by rw [after, h₂]
  rw [ha₁] at hrecord
  rw [ha₁, ha₂, h₁]
  refine ⟨hans, fun c₀ hstore hreply => ?_, fun k => ?_, fun k => ?_, fun hone k => ?_, fun lag once honce => ?_,
    hrecord.1, hrecord.2, fun again hagain hall => ?_⟩
  · obtain ⟨c', hc', hstore'⟩ := syncs_reachable (w := w) hreply (syncs bs) c₀
    rw [hstore, h₁] at hstore'
    exact ⟨c', hc', hstore'⟩
  · change (gateOf s₁.db).status k = (gateOf s₂.db).status k
    rw [hgate₁, hgate₂]
    exact hsame.status _ k
  · change ((gateOf s₁.db).journal k).isSome = ((gateOf s₂.db).journal k).isSome
    rw [hgate₁, hgate₂]
    exact hsame.recorded _ k
  · change (gateOf s₁.db).journal k = (gateOf s₂.db).journal k
    rw [hgate₁, hgate₂]
    exact hsame.journal hone _ k
  · obtain ⟨db, hdb, hgate⟩ := recordAll_gate lag once hok
    refine ⟨db, hdb, fun k => ?_, fun k => ?_⟩
    · change (gateOf s₁.db).status k = (gateOf db).status k
      rw [hgate₁, hgate]
      exact honce.status _ k
    · change ((gateOf s₁.db).journal k).isSome = ((gateOf db).journal k).isSome
      rw [hgate₁, hgate]
      exact honce.recorded _ k
  · obtain ⟨_, s₃, h₃, -, -, -, hsettled⟩ := sessions_syncs app reply hw again hagain hok₁
    rw [after, h₃]
    refine hsettled (fun e he => ?_)
    rw [hgate₁]
    exact Gate.settled_foldl _ ((hall e he).imp_right .inr)

/-- A batch that repeats a scan, and the same scans in two batches the other way round. -/
def repeated : List Batch := [⟨"gate-1", [⟨200, 5, "ok"⟩, ⟨200, 5, "ok"⟩, ⟨202, 6, "ok"⟩]⟩]

def splitUp : List Batch := [⟨"gate-1", [⟨202, 6, "ok"⟩]⟩, ⟨"gate-1", [⟨200, 5, "ok"⟩]⟩]

lemma repeated_splitUp : Gate.SameKeys (journalOf repeated) (journalOf splitUp) := by
  have hnames : (journalOf repeated).map ScanEventRow.key =
      [(200, "gate-1", 5), (200, "gate-1", 5), (202, "gate-1", 6)] := rfl
  have hnames' : (journalOf splitUp).map ScanEventRow.key = [(202, "gate-1", 6), (200, "gate-1", 5)] := rfl
  intro k
  rw [hnames, hnames']
  simp only [List.mem_cons, List.not_mem_nil, or_false]
  tauto

theorem journals_agree_harbour : ∃ c, Reaches sandbox harbour c ∧ statusOf c.store.db 200 = some .issued ∧
    (∀ k, statusOf (after sandbox (drawn 0) (fun _ => .released) repeated c.store).db k =
      statusOf (after sandbox (drawn 0) (fun _ => .released) splitUp c.store).db k) ∧
    statusOf (after sandbox (drawn 0) (fun _ => .released) repeated c.store).db 200 = some .boarded ∧
    ((after sandbox (drawn 0) (fun _ => .released) repeated c.store).db.scanEvents.find?
      (200, "gate-1", 5)).isSome = true := by
  have hrun : ((rowLocks sandbox).exec (RowLocks.init harbour) ticketedRun).map (fun c =>
      (statusOf c.store.db 200, c.store.db.scanEvents.find? (200, "gate-1", 5))) = some (some .issued, none) := by
    decide
  obtain ⟨c, hc, hbefore⟩ := Option.map_eq_some_iff.mp hrun
  have hissued : statusOf c.store.db 200 = some .issued := congrArg Prod.fst hbefore
  have hnew : c.store.db.scanEvents.find? (200, "gate-1", 5) = none := congrArg Prod.snd hbefore
  have hreach : Reaches sandbox harbour c := RowLocks.reachable_of_exec hc
  have hrepeated : ∀ b ∈ repeated, b.Accepted := by
    intro b hb
    rw [List.mem_singleton.mp hb]
    exact ⟨by decide, by decide⟩
  have hsplit : ∀ b ∈ splitUp, b.Accepted := by
    intro b hb
    rcases List.mem_cons.mp hb with rfl | hb
    · exact ⟨by decide, by decide⟩
    · rw [List.mem_singleton.mp hb]
      exact ⟨by decide, by decide⟩
  obtain ⟨-, -, hstatus, -, -, -, hleft, hrecord, -⟩ :=
    @journals_agree sandbox (drawn 0) (fun _ => .released) harbour c harbour_seeded hreach rfl _ _ hrepeated hsplit
      repeated_splitUp
  refine ⟨c, hreach, hissued, hstatus, ?_, ?_⟩
  · rw [hleft, if_pos ⟨⟨200, "gate-1", 5, "ok"⟩, by decide, rfl, hnew⟩]
    exact congrArg aboard hissued
  · exact (hrecord _).mpr (.inr ⟨⟨200, "gate-1", 5, "ok"⟩, by decide, rfl, congrArg Option.isSome hissued⟩)

end Journals

section Verdicts

variable {app : AppState} {w : Oracle} {db db' : Db} {now : Timestamp} {tx : Tx} {res : TxResult} {s : World}
  {c : LockConf Request World Tx TxResult Call Reply Answer Uuid LockRead LockRead}

/-- The condition on a run: a scan that the device refused finds no issued ticket. -/
def RefusedLate (s : World) (_ : List Event) : Event → Prop
  | .commit _ _ (.recordScan ticketId _ _ result) _ => result ≠ "ok" → statusOf s.db ticketId ≠ some .issued
  | _ => True

/-- A scan of a ticket that is not issued touches the journal only. -/
lemma recordScan_refused {e : ScanEventRow} {o : ScanOutcome} {lag : Nat}
    (h : db.recordScan lag e.ticketId e.deviceId e.scannedAt e.result = .ok (o, db'))
    (hn : statusOf db e.ticketId ≠ some .issued) : db'.tickets = db.tickets ∧ db'.orders = db.orders := by
  cases ht : db.tickets.find? e.ticketId with
  | none =>
    simp only [recordScan, ht] at h
    cases h
    exact ⟨rfl, rfl⟩
  | some ticket =>
    cases hi : db.scanEvents.insert ⟨e.ticketId, e.deviceId, e.scannedAt, e.result⟩ with
    | none =>
      simp only [recordScan, ht, hi] at h
      cases h
      exact ⟨rfl, rfl⟩
    | some scanEvents =>
      simp only [recordScan, ht, hi] at h
      cases hst : ticket.status with
      | boarded | void =>
        rw [hst] at h
        cases h
        exact ⟨rfl, rfl⟩
      | issued => exact absurd (by rw [statusOf, ht, Option.map_some, hst]) hn

lemma statusOf_board {mid : Db} {ticket : TicketRow} {ticketId k : Uuid} {scannedAt : Timestamp}
    (ht : db.tickets.find? ticketId = some ticket) (hs : ticket.status = .issued) (hm : mid.tickets = db.tickets)
    (hd : db'.tickets = (mid.boardTicket ticketId scannedAt).tickets) (hk : statusOf db' k = some .boarded) :
    statusOf db k = some .boarded ∨ k = ticketId ∧ statusOf db k = some .issued := by
  rw [statusOf_congr hd, statusOf_boardTicket, statusOf_congr hm] at hk
  by_cases he : k = ticketId
  · subst he
    exact .inr ⟨rfl, by rw [statusOf, ht, Option.map_some, hs]⟩
  · rw [if_neg he] at hk
    exact .inl hk

/-- Whatever sends a ticket aboard is a scan that found it issued. -/
lemma Effect.boards (he : Effect w now db tx res db') {k : Uuid} (hk : statusOf db' k = some .boarded) :
    statusOf db k = some .boarded ∨ ∃ deviceId scannedAt result o, tx = .recordScan k deviceId scannedAt result ∧
      res = .scanned o ∧ o.status = "boarded" ∧ statusOf db k = some .issued := by
  have hsame : ∀ {db'}, db'.tickets = db.tickets → statusOf db' k = some .boarded → statusOf db k = some .boarded :=
    fun h hk => by rwa [statusOf_congr h] at hk
  cases he with
  | quiet frame _ _ _ => exact .inl (hsame frame.tickets hk)
  | booked hb => exact .inl (hsame hb.tickets hk)
  | seatSold _ => exact .inl hk
  | poolSold _ => exact .inl hk
  | requested _ ha => exact .inl (hsame ha.tickets hk)
  | captured _ ha => exact .inl (hsame ha.tickets hk)
  | declined _ ha => exact .inl (hsame ha.tickets hk)
  | exited _ _ _ ha =>
    refine .inl (hsame ?_ hk)
    rw [releaseOrderItems_frame]
    exact ha.tickets
  | @refunded orderId cur seq mid _ _ ha =>
    have htickets : (mid.releaseOrderItems orderId).2.tickets = db.tickets := by
      rw [releaseOrderItems_frame]
      exact ha.tickets
    obtain ⟨t', ht', hs⟩ := Option.map_eq_some_iff.mp hk
    change ((mid.releaseOrderItems orderId).2.tickets.update _ _).find? k = some t' at ht'
    rw [htickets, Lib.Table.find?_update] at ht'
    obtain ⟨t, ht, rfl⟩ := Option.map_eq_some_iff.mp ht'
    left
    rw [statusOf, ht]
    split at hs
    · cases hs
    · rw [Option.map_some, hs]
  | issued _ hi ha =>
    obtain ⟨new, hrows, hnew⟩ := hi.fresh
    obtain ⟨t', ht', hs⟩ := Option.map_eq_some_iff.mp hk
    have hm := Lib.Table.find?_mem ht'
    rw [ha.tickets, hrows, List.mem_append] at hm
    rcases hm with hm | hm
    · left
      rw [statusOf, ← Lib.Table.find?_key ht', Lib.Table.find?_of_mem hm, Option.map_some, hs]
    · rw [(hnew t' hm).status] at hs
      cases hs
  | boarded ht hs =>
    refine (statusOf_board ht hs rfl rfl hk).imp_right ?_
    rintro ⟨rfl, hissued⟩
    exact ⟨_, _, _, _, rfl, rfl, rfl, hissued⟩
  | lastBoarded ht hs _ _ ha =>
    refine (statusOf_board ht hs rfl ha.tickets hk).imp_right ?_
    rintro ⟨rfl, hissued⟩
    exact ⟨_, _, _, _, rfl, rfl, rfl, hissued⟩

/-- Whatever boards an order is a scan that found a ticket of it issued. -/
lemma Effect.boards_order (he : Effect w now db tx res db') {orderId : Uuid}
    (hm : moveOf db tx res = some (orderId, .passengerBoarded)) : ∃ k deviceId scannedAt result o,
    tx = .recordScan k deviceId scannedAt result ∧ res = .scanned o ∧ o.orderStatus.isSome = true ∧
      (db.tickets.find? k).map TicketRow.orderId = some orderId ∧ statusOf db k = some .issued := by
  obtain ⟨k, deviceId, scannedAt, result, o, rfl, rfl, hsome, horder⟩ := boards_of_moveOf hm
  refine ⟨k, deviceId, scannedAt, result, o, rfl, rfl, hsome, horder, ?_⟩
  cases he with
  | quiet _ hw _ _ =>
    rw [moveOf_of_not_wins hw] at hm
    cases hm
  | boarded ht hs => cases hsome
  | lastBoarded ht hs _ _ _ => rw [statusOf, ht, Option.map_some, hs]

lemma apply_boarded {st : OrderStatus} {event : OrderEventType} (h : apply (some st) event = .ok .boarded) :
    event = .passengerBoarded := by
  rcases apply_cases h with h | h | h | h | h | h | h | h | h | h <;> obtain ⟨-, hev, hn⟩ := h
  case inr.inr.inr.inr.inr.inr.inr.inl => exact hev
  all_goals cases hn

/-- An order that is Boarded was, or the last of its passengers has gone aboard. -/
lemma Effect.order_boarded (he : Effect w now db tx res db') {orderId : Uuid}
    (hk : db'.lockOrder orderId = some .boarded) :
    db.lockOrder orderId = some .boarded ∨ moveOf db tx res = some (orderId, .passengerBoarded) := by
  cases hm : moveOf db tx res with
  | none =>
    rcases he.unmoved hm orderId with h | ⟨-, o, expiresAt, h⟩
    · left
      rwa [Db.lockOrder, h] at hk
    · rw [Db.lockOrder, h] at hk
      cases hk
  | some x =>
    obtain ⟨row, next, -, happ, hfind⟩ := he.moved hm
    rw [Db.lockOrder, hfind] at hk
    by_cases hid : orderId = x.1
    · rw [if_pos hid] at hk
      cases hk
      exact .inr (congrArg some (Prod.ext hid.symm (apply_boarded happ)))
    · rw [if_neg hid] at hk
      exact .inl hk

/-- Whoever is aboard got there by a scan that passed on its device. -/
structure PassedAboard (s : World) (h : List Event) : Prop where
  tickets : ∀ k, statusOf s.db k = some .boarded → ∃ pid i deviceId scannedAt o,
    .commit pid i (.recordScan k deviceId scannedAt "ok") (.scanned o) ∈ h ∧ o.status = "boarded"
  orders : ∀ orderId, s.db.lockOrder orderId = some .boarded → ∃ pid i k deviceId scannedAt o,
    .commit pid i (.recordScan k deviceId scannedAt "ok") (.scanned o) ∈ h ∧ o.orderStatus.isSome = true ∧
      (s.db.tickets.find? k).map TicketRow.orderId = some orderId

/-- A ticket stays with its order. -/
lemma Effect.ticket_order (he : Effect w now db tx res db') {k orderId : Uuid}
    (h : (db.tickets.find? k).map TicketRow.orderId = some orderId) :
    (db'.tickets.find? k).map TicketRow.orderId = some orderId := by
  obtain ⟨t, ht, hid⟩ := Option.map_eq_some_iff.mp h
  obtain ⟨f, new, hrows, hchange, -⟩ := he.tickets
  have hm : f t ∈ db'.tickets.rows := by
    rw [hrows]
    exact List.mem_append_left _ (List.mem_map_of_mem (Lib.Table.find?_mem ht))
  have hfrom := hchange t (Lib.Table.find?_mem ht)
  have hfind := Lib.Table.find?_of_mem hm
  rw [hfrom.id, Lib.Table.find?_key ht] at hfind
  rw [hfind, Option.map_some, hfrom.orderId, hid]

/-- Under the condition only passed scans send anyone aboard. -/
lemma PassedAboard.commit {h : List Event} (hP : PassedAboard s h) (pid : Nat) (i : Request) (tx : Tx) (w : Oracle)
    (hG : RefusedLate s h (.commit pid i tx (tx.run w s).1)) :
    PassedAboard (tx.run w s).2 (h ++ [.commit pid i tx (tx.run w s).1]) := by
  have he := (run_effect tx w s).1
  constructor
  · intro k hk
    rcases he.boards hk with hold | ⟨deviceId, scannedAt, result, o, rfl, hres, hst, hissued⟩
    · obtain ⟨p, j, deviceId, scannedAt, o, hmem, ho⟩ := hP.tickets k hold
      exact ⟨p, j, deviceId, scannedAt, o, List.mem_append_left _ hmem, ho⟩
    · have hok : result = "ok" := not_not.mp (fun hne => hG hne hissued)
      subst hok
      rw [hres]
      exact ⟨pid, i, deviceId, scannedAt, o, by simp, hst⟩
  · intro orderId hk
    rcases he.order_boarded hk with hold | hmove
    · obtain ⟨p, j, k, deviceId, scannedAt, o, hmem, ho, horder⟩ := hP.orders orderId hold
      exact ⟨p, j, k, deviceId, scannedAt, o, List.mem_append_left _ hmem, ho, he.ticket_order horder⟩
    · obtain ⟨k, deviceId, scannedAt, result, o, rfl, hres, hsome, horder, hissued⟩ := he.boards_order hmove
      have hok : result = "ok" := not_not.mp (fun hne => hG hne hissued)
      subst hok
      rw [hres]
      exact ⟨pid, i, k, deviceId, scannedAt, o, by simp, hsome, he.ticket_order horder⟩

lemma recordScan_run {k : Uuid} {deviceId result : String} {scannedAt : Timestamp} :
    (∃ e, (Tx.recordScan k deviceId scannedAt result).run w s = (.failed e, s)) ∨ ∃ o db',
      s.db.recordScan w.lag k deviceId scannedAt result = .ok (o, db') ∧
        (Tx.recordScan k deviceId scannedAt result).run w s = (.scanned o, { s with db := db' }) := by
  cases hw : w.fail with
  | some e => exact .inl ⟨e, by simp only [Tx.run, hw]⟩
  | none =>
    cases hrec : s.db.recordScan w.lag k deviceId scannedAt result with
    | error e => exact .inl ⟨e, by simp only [Tx.run, hw, Tx.body, hrec, Tx.settle]⟩
    | ok r => exact .inr ⟨r.1, r.2, rfl, by simp only [Tx.run, hw, Tx.body, hrec, Tx.settle]⟩

/-- In a run where no refused scan finds an issued ticket, every ticket aboard and every Boarded
order got there by a scan that passed on its device, and a refused scan that comes in is put on
record and changes no ticket and no order. -/
theorem boarded_by_passed (hs : s.db.Seeded) (hc : (rowLocks app).ReachableWhen RefusedLate (RowLocks.init s) c) :
    PassedAboard c.store c.trace ∧ ∀ pid i k deviceId scannedAt result w, result ≠ "ok" →
      RefusedLate c.store c.trace (.commit pid i (.recordScan k deviceId scannedAt result)
        ((Tx.recordScan k deviceId scannedAt result).run w c.store).1) →
      ((Tx.recordScan k deviceId scannedAt result).run w c.store).2.db.tickets = c.store.db.tickets ∧
      ((Tx.recordScan k deviceId scannedAt result).run w c.store).2.db.orders = c.store.db.orders ∧
      (∀ o, ((Tx.recordScan k deviceId scannedAt result).run w c.store).1 = .scanned o → statusOf c.store.db k ≠ none →
        (((Tx.recordScan k deviceId scannedAt result).run w c.store).2.db.scanEvents.find?
          (k, deviceId, scannedAt)).isSome = true) := by
  constructor
  · have hS : ∀ i, (Request.handler app i).Only (fun _ => True) (fun _ => True) (fun _ => True) (fun _ => True) :=
      fun i => Lib.Prog.only_mono (handler_only (fun _ => True) app i) (fun _ _ => trivial) (fun _ _ => trivial)
        (fun _ _ => trivial)
    have h₀ : PassedAboard s [] := by
      constructor
      · intro k hk
        simp [statusOf, Lib.Table.find?, hs.tickets] at hk
      · intro orderId hk
        simp [Db.lockOrder, Lib.Table.find?, hs.orders] at hk
    refine Lib.Site.store_invariantWhen (S := site app) (P := fun _ _ => True) hS h₀ (fun _ _ _ => trivial)
      (fun _ _ _ h => ⟨h.tickets, h.orders⟩) (fun s h ev _ hP => ⟨fun k hk => ?_, fun k hk => ?_⟩)
      (fun s h pid i t w _ hP hG => hP.commit pid i t w hG) ((rowLocks app).reachable_atomicWhen hc)
    · obtain ⟨p, j, deviceId, scannedAt, o, hmem, ho⟩ := hP.tickets k hk
      exact ⟨p, j, deviceId, scannedAt, o, List.mem_append_left _ hmem, ho⟩
    · obtain ⟨p, j, t, deviceId, scannedAt, o, hmem, ho⟩ := hP.orders k hk
      exact ⟨p, j, t, deviceId, scannedAt, o, List.mem_append_left _ hmem, ho⟩
  · intro pid i k deviceId scannedAt result w hne hG
    rcases recordScan_run with ⟨e, h⟩ | ⟨o, db', hrec, h⟩
    · rw [h]
      exact ⟨rfl, rfl, fun _ ho => by cases ho⟩
    · rw [h]
      obtain ⟨htickets, horders⟩ := recordScan_refused (e := ⟨k, deviceId, scannedAt, result⟩) hrec (hG hne)
      refine ⟨htickets, horders, fun _ _ hk => ?_⟩
      have hgate := (recordScan_gate (e := ⟨k, deviceId, scannedAt, result⟩) hrec).1
      have hrecorded := Gate.scan_recorded (g := gateOf c.store.db) (e := ⟨k, deviceId, scannedAt, result⟩) hk
      rw [← hgate] at hrecorded
      exact hrecorded

instance (s : World) (h : List Event) (ev : Event) : Decidable (RefusedLate s h ev) := by
  unfold RefusedLate
  split <;> infer_instance

/-- A scan of the ticket that passed on its device. -/
def passedScan (k : Uuid) : Event → Bool
  | .commit _ _ (.recordScan ticketId _ _ result) _ => decide (ticketId = k) && decide (result = "ok")
  | _ => false

/-- A ticket that the gate refused as expired is aboard. -/
theorem refused_scan_boards : ¬ ∀ (app : AppState) (s : World)
    (c : LockConf Request World Tx TxResult Call Reply Answer Uuid LockRead LockRead), s.db.Seeded →
    Reaches app s c → PassedAboard c.store c.trace := by
  intro hclaim
  have hrun : ((rowLocks sandbox).exec (RowLocks.init harbour) (ticketedRun ++
      [.arrive (.syncScans "gate-1" [⟨200, 0, "expired"⟩]), .short 11 (drawn 0), .answer 11])).map (fun c =>
      (statusOf c.store.db 200, c.trace.any (passedScan 200))) = some (some .boarded, false) := by decide
  obtain ⟨c, hc, hend⟩ := Option.map_eq_some_iff.mp hrun
  obtain ⟨hboarded, hnone⟩ := Prod.mk.inj hend
  obtain ⟨pid, i, deviceId, scannedAt, o, hmem, -⟩ :=
    (hclaim sandbox harbour c harbour_seeded (RowLocks.reachable_of_exec hc)).tickets 200 hboarded
  rw [List.any_eq_false] at hnone
  exact hnone _ hmem rfl

theorem boarded_by_passed_harbour : ∃ c, (rowLocks sandbox).ReachableWhen RefusedLate (RowLocks.init harbour) c ∧
    statusOf c.store.db 200 = some .boarded ∧ (c.store.db.scanEvents.find? (200, "gate-2", 7)).isSome = true ∧
    ∃ pid i deviceId scannedAt o, .commit pid i (.recordScan 200 deviceId scannedAt "ok") (.scanned o) ∈ c.trace ∧
      o.status = "boarded" := by
  have hrun : ((rowLocks sandbox).execWhen RefusedLate (RowLocks.init harbour) (ticketedRun ++ scanRun ++
      [.arrive (.syncScans "gate-2" [⟨200, 7, "expired"⟩]), .short 14 (drawn 0), .answer 14])).map (fun c =>
      (statusOf c.store.db 200, (c.store.db.scanEvents.find? (200, "gate-2", 7)).isSome)) =
      some (some .boarded, true) := by decide
  obtain ⟨c, hc, hend⟩ := Option.map_eq_some_iff.mp hrun
  obtain ⟨hboarded, hrecorded⟩ := Prod.mk.inj hend
  have hreach := RowLocks.reachable_of_execWhen hc
  exact ⟨c, hreach, hboarded, hrecorded, (boarded_by_passed harbour_seeded hreach).1.tickets 200 hboarded⟩

end Verdicts

end Lulan.Proofs
