import Mathlib.Data.Int.Interval
import Mathlib.Tactic.IntervalCases
import Lulan.Engine.Deliveries
import Lulan.Lib.Loop

/-!
# What becomes of a webhook delivery

A delivery lives through attempts that its workers commit one after another. Any number of
workers, stopping wherever they do, leave every row such a life, and no two of them send it at
once. The wait after a failed attempt runs from the start of its transaction.
-/

namespace Lulan.Proofs

open Deliveries

/-! ### One life -/

/-- The attempts committed on a row, oldest first, and the version they leave. -/
inductive Life (crates : Deliveries.Crates) : List Attempt → Delivery → Prop where
  | queued (id : Nat) (endpointId : Uuid) (eventSequence : Nat) (now : Timestamp) :
    Life crates [] (.queued id endpointId eventSequence now)
  | attempt {l : List Attempt} {a : Attempt} {d : Delivery} (hlife : Life crates l a.row.delivery)
    (hpending : a.row.delivery.status = .pending) (hdue : a.row.delivery.nextAttemptAt ≤ a.began)
    (hd : d = settle crates a.began a.row.delivery.attempts a.outcome a.row.delivery) (hwrite : a.write = some d) :
    Life crates (l ++ [a]) d

/-- The attempts of a row as their outcomes decide them. -/
inductive Story : List Attempt → Status → Prop where
  | going {l : List Attempt} (hfew : l.length < 8) (hfailed : ∀ a ∈ l, ¬a.outcome.isSuccess) : Story l .pending
  | delivered {l : List Attempt} {a : Attempt} (hfew : l.length < 8) (hfailed : ∀ b ∈ l, ¬b.outcome.isSuccess)
    (hok : a.outcome.isSuccess) : Story (l ++ [a]) .delivered
  | failed {l : List Attempt} (hall : l.length = 8) (hfailed : ∀ a ∈ l, ¬a.outcome.isSuccess) : Story l .failed

variable {crates : Deliveries.Crates} {d : Delivery} {l pre : List Attempt} {a b : Attempt}

lemma attempts_eq {n : Nat} {attempts : Int32} (h : attempts.toInt = n) : attempts = Int32.ofInt n := by
  rw [← h, Int32.ofInt_toInt]

/-- The attempt after `n` of them is the last one where `n` is seven. -/
lemma last_iff {n : Nat} {attempts : Int32} (h : attempts.toInt = n) (hn : n < 8) :
    attempts + 1 ≥ maxAttempts ↔ n = 7 := by
  rw [attempts_eq h]
  interval_cases n <;> decide

lemma succ_toInt {n : Nat} {attempts : Int32} (h : attempts.toInt = n) (hn : n < 8) :
    (attempts + 1).toInt = ((n + 1 : Nat) : Int) := by
  rw [attempts_eq h]
  interval_cases n <;> decide

/-- The wait after the attempt `n`, in seconds. -/
def waitSecs (n : Nat) : Nat := 2 * 2 ^ n

lemma backoff_toInt {n : Nat} {attempts : Int32} (h : attempts.toInt = n) (hn : n < 8) :
    (backoff (attempts + 1)).toInt = waitSecs (n + 1) := by
  rw [attempts_eq h]
  interval_cases n <;> decide

lemma verdict_of_success {attempts : Int32} {outcome : Outcome} (h : outcome.isSuccess) :
    verdict attempts outcome = .delivered := by
  rw [verdict, if_pos h]

lemma verdict_of_last {n : Nat} {attempts : Int32} {outcome : Outcome} (h : ¬outcome.isSuccess)
    (hn : attempts.toInt = n) (hlast : n = 7) : verdict attempts outcome = .exhausted := by
  rw [verdict, if_neg h, if_pos ((last_iff hn (by omega)).mpr hlast)]

lemma verdict_of_few {n : Nat} {attempts : Int32} {outcome : Outcome} (h : ¬outcome.isSuccess)
    (hn : attempts.toInt = n) (hfew : n < 7) : verdict attempts outcome = .retried := by
  rw [verdict, if_neg h, if_neg]
  intro hge
  have := (last_iff hn (by omega)).mp hge
  omega

@[simp] lemma settle_id {now : Timestamp} {attempts : Int32} {outcome : Outcome} :
    (settle crates now attempts outcome d).id = d.id := by
  unfold settle
  cases verdict attempts outcome with
  | delivered => rfl
  | exhausted => rfl
  | retried => rfl

/-- What is committed on a row decides its status, and its attempts are counted exactly. -/
lemma Life.story (h : Life crates l d) : Story l d.status ∧ d.attempts.toInt = l.length := by
  induction h with
  | queued => exact ⟨.going (by decide) (by simp), rfl⟩
  | @attempt l a d hlife hpending hdue hd hwrite ih =>
    obtain ⟨hstory, hcount⟩ := ih
    rw [hpending] at hstory
    cases hstory with
    | going hfew hfailed =>
      subst hd
      have hsucc := succ_toInt hcount hfew
      have hlength : (l ++ [a]).length = l.length + 1 := by rw [List.length_append, List.length_singleton]
      by_cases hok : a.outcome.isSuccess
      · rw [settle, verdict_of_success hok, hlength]
        exact ⟨.delivered hfew hfailed hok, hsucc⟩
      · have hall : ∀ b ∈ l ++ [a], ¬b.outcome.isSuccess := by
          intro b hb
          cases List.mem_append.mp hb with
          | inl hb => exact hfailed b hb
          | inr hb => rwa [List.mem_singleton.mp hb]
        by_cases hlast : l.length = 7
        · rw [settle, verdict_of_last hok hcount hlast, hlength]
          exact ⟨.failed (by omega) hall, hsucc⟩
        · rw [settle, verdict_of_few hok hcount (by omega), hlength]
          refine ⟨?_, hsucc⟩
          rw [hpending]
          exact .going (by omega) hall

lemma Life.of_prefix (h : Life crates l d) (hpre : pre ++ [a] <+: l) :
    Life crates pre a.row.delivery ∧ a.row.delivery.status = .pending ∧ a.row.delivery.nextAttemptAt ≤ a.began ∧
      a.write = some (settle crates a.began a.row.delivery.attempts a.outcome a.row.delivery) := by
  induction h with
  | queued =>
    have := hpre.length_le
    simp at this
  | @attempt l c d hlife hpending hdue hd hwrite ih =>
    rcases List.prefix_concat_iff.mp hpre with heq | hpre
    · obtain ⟨rfl, rfl⟩ := List.append_inj' heq rfl |>.imp_right List.singleton_inj.mp
      exact ⟨hlife, hpending, hdue, hd ▸ hwrite⟩
    · exact ih hpre

/-! ### The queue under its workers -/

def history (s : Deliveries.State) (id : Nat) : List Attempt := s.committed.filter (fun a => a.id = id)

/-- When the transaction of a worker began. -/
def beganAt : Worker → Timestamp
  | .idle _ => 0
  | .begun now => now
  | .locking now _ _ => now
  | .posting now _ _ _ => now

/-- The rows a worker has locked. -/
def lockedRows : Worker → List Due
  | .locking _ _ batch => batch
  | .posting _ sent todo _ => sent.map Attempt.row ++ todo
  | _ => []

/-- The rows a worker has selected and not yet come to. -/
def candidateRows : Worker → List Due
  | .locking _ candidates _ => candidates
  | _ => []

def recordedBy : Worker → List Attempt
  | .posting _ sent _ _ => sent
  | _ => []

/-- A worker holds the locks of its rows, as they are committed, and each row once. -/
structure WorkerOk (crates : Deliveries.Crates) (s : Deliveries.State) (w : Nat) (worker : Worker) : Prop where
  lock : ∀ row ∈ lockedRows worker, s.locks row.id = some w
  version : ∀ row ∈ lockedRows worker, row.delivery ∈ s.deliveries
  due : ∀ row ∈ lockedRows worker, row.isDue (beganAt worker)
  distinct : ((lockedRows worker ++ candidateRows worker).map Due.id).Nodup
  sent : ∀ a ∈ recordedBy worker, a.began = beganAt worker ∧
    a.write = some (settle crates a.began a.row.delivery.attempts a.outcome a.row.delivery)

/-- The invariant of the queue. -/
structure QueueOk (crates : Deliveries.Crates) (s : Deliveries.State) : Prop where
  ids : (s.deliveries.map Delivery.id).Nodup
  lives : ∀ d ∈ s.deliveries, Life crates (history s d.id) d
  known : ∀ a ∈ s.committed, ∃ d ∈ s.deliveries, d.id = a.id
  workers : ∀ w, WorkerOk crates s w (s.workers w)

variable {s s' : Deliveries.State} {w v : Nat} {worker : Worker} {row found : Due} {now : Timestamp}
  {candidates batch todo rows : List Due} {sent : List Attempt}

lemma queueOk_init (clock : Timestamp) (endpoints : List Webhooks.Endpoint) (events : List Webhooks.StoredEvent) :
    QueueOk crates (.init clock endpoints events) where
  ids := List.nodup_nil
  lives := by simp [State.init]
  known := by simp [State.init]
  workers w := ⟨by simp [State.init, lockedRows], by simp [State.init, lockedRows],
    by simp [State.init, lockedRows], List.nodup_nil, by simp [State.init, recordedBy]⟩

lemma find_eq_some (h : QueueOk crates s) (hd : d ∈ s.deliveries) : s.find d.id = some d := by
  rw [State.find]
  cases hf : s.deliveries.find? (fun e => e.id = d.id) with
  | none =>
    have := List.find?_eq_none.mp hf d hd
    simp at this
  | some e =>
    have hid : e.id = d.id := by simpa using List.find?_some hf
    exact congrArg some (List.inj_on_of_nodup_map h.ids (List.mem_of_find?_eq_some hf) hd hid)

lemma mem_of_find {id : Nat} (h : s.find id = some d) : d ∈ s.deliveries ∧ d.id = id :=
  ⟨List.mem_of_find?_eq_some h, by simpa using List.find?_some h⟩

/-- What a worker knows outlives what the others do. -/
lemma WorkerOk.mono (h : WorkerOk crates s w worker)
    (hlocks : ∀ id, s.locks id = some w → s'.locks id = some w)
    (hrows : ∀ d ∈ s.deliveries, s.locks d.id = some w → d ∈ s'.deliveries) : WorkerOk crates s' w worker where
  lock row hrow := hlocks _ (h.lock row hrow)
  version row hrow := hrows _ (h.version row hrow) (h.lock row hrow)
  due := h.due
  distinct := h.distinct
  sent := h.sent

lemma idleOk (s : Deliveries.State) (w : Nat) (result : Option DeliveryStats) :
    WorkerOk crates s w (.idle result) :=
  ⟨by simp [lockedRows], by simp [lockedRows], by simp [lockedRows], List.nodup_nil, by simp [recordedBy]⟩

lemma goes_self : (s.goes w worker).workers w = worker := by
  simp only [State.goes, Function.update_self]

lemma goes_other (h : v ≠ w) : (s.goes w worker).workers v = s.workers v := by
  simp only [State.goes, Function.update_of_ne h]

/-- One worker goes on over the same rows and locks. -/
lemma QueueOk.goes (h : QueueOk crates s) (hw : WorkerOk crates s w worker) :
    QueueOk crates (s.goes w worker) where
  ids := h.ids
  lives := h.lives
  known := h.known
  workers v := by
    by_cases hv : v = w
    · subst hv
      rw [goes_self]
      exact hw.mono (fun _ hlock => hlock) (fun _ hd _ => hd)
    · rw [goes_other hv]
      exact (h.workers v).mono (fun _ hlock => hlock) (fun _ hd _ => hd)

lemma join_delivery (h : Deliveries.join s d = some row) : row.delivery = d := by
  rw [Deliveries.join, Option.bind_eq_some_iff] at h
  obtain ⟨endpoint, -, h⟩ := h
  obtain ⟨event, -, rfl⟩ := Option.map_eq_some_iff.mp h
  rfl

lemma joined_ids (deliveries : List Delivery) :
    ((deliveries.filterMap (Deliveries.join s)).map Due.id).Sublist (deliveries.map Delivery.id) := by
  induction deliveries with
  | nil => exact List.Sublist.refl []
  | cons d rest ih =>
    cases hj : Deliveries.join s d with
    | none =>
      rw [List.filterMap_cons_none hj]
      exact ih.cons _
    | some row =>
      rw [List.filterMap_cons_some hj, List.map_cons, List.map_cons, Due.id, join_delivery hj]
      exact ih.cons_cons _

lemma due_ids (h : QueueOk crates s) : ((Deliveries.due s now).map Due.id).Nodup :=
  h.ids.sublist ((List.filter_sublist.map Due.id).trans (joined_ids s.deliveries))

lemma QueueOk.select (h : QueueOk crates s) (hrows : rows.Perm (Deliveries.due s now)) :
    QueueOk crates (s.goes w (.locking now rows [])) :=
  h.goes ⟨by simp [lockedRows], by simp [lockedRows], by simp [lockedRows],
    (hrows.map Due.id).nodup_iff.mpr (due_ids h), by simp [recordedBy]⟩

lemma recheck_eq_some (h : recheck s now row = some found) :
    found.delivery ∈ s.deliveries ∧ found.id = row.id ∧ found.isDue now := by
  rw [recheck, Option.filter_eq_some_iff, Option.map_eq_some_iff] at h
  obtain ⟨⟨d, hd, rfl⟩, hdue⟩ := h
  obtain ⟨hmem, hid⟩ := mem_of_find hd
  exact ⟨hmem, hid, hdue⟩

/-- A candidate is passed over. -/
lemma QueueOk.skip (h : QueueOk crates s) (hw : s.workers w = .locking now (row :: candidates) batch) :
    QueueOk crates (s.goes w (.locking now candidates batch)) := by
  have hok := h.workers w
  rw [hw] at hok
  refine h.goes ⟨hok.lock, hok.version, hok.due, ?_, hok.sent⟩
  apply List.Nodup.sublist _ hok.distinct
  apply List.Sublist.map
  exact (List.Sublist.refl batch).append (List.sublist_cons_self row candidates)

lemma QueueOk.lockNext (h : QueueOk crates s) (hw : s.workers w = .locking now (row :: candidates) batch) :
    QueueOk crates (Deliveries.lockNext s w now row candidates batch) := by
  rw [Deliveries.lockNext]
  cases hfree : s.locks row.id with
  | some _ => exact h.skip hw
  | none =>
    cases hfound : recheck s now row with
    | none => exact h.skip hw
    | some found =>
      obtain ⟨hmem, hid, hdue⟩ := recheck_eq_some hfound
      -- a lock that is held is on another row
      have hkept : ∀ id v, s.locks id = some v → Function.update s.locks row.id (some w) id = some v := by
        intro id v hlock
        rw [Function.update_of_ne _ _ _]
        · exact hlock
        · rintro rfl
          rw [hfree] at hlock
          cases hlock
      have hok := h.workers w
      rw [hw] at hok
      refine ⟨h.ids, h.lives, h.known, ?_⟩
      intro v
      by_cases hv : v = w
      · subst hv
        dsimp only
        rw [goes_self]
        have hold : ∀ r ∈ lockedRows (.locking now candidates (batch ++ [found])), r ∈ batch ∨ r = found := by
          intro r hr
          cases List.mem_append.mp hr with
          | inl hr => exact Or.inl hr
          | inr hr => exact Or.inr (List.mem_singleton.mp hr)
        refine ⟨?_, ?_, ?_, ?_, hok.sent⟩
        · intro r hr
          cases hold r hr with
          | inl hr => exact hkept _ _ (hok.lock r hr)
          | inr hr =>
            rw [hr, hid]
            exact Function.update_self _ _ _
        · intro r hr
          cases hold r hr with
          | inl hr => exact hok.version r hr
          | inr hr => rwa [hr]
        · intro r hr
          cases hold r hr with
          | inl hr => exact hok.due r hr
          | inr hr => rwa [hr]
        · have hsame :
              ((batch ++ [found]) ++ candidates).map Due.id = (batch ++ row :: candidates).map Due.id := by
            simp [hid]
          exact hsame ▸ hok.distinct
      · dsimp only
        rw [goes_other hv]
        exact (h.workers v).mono (fun id hlock => hkept id v hlock) (fun _ hd _ => hd)

lemma QueueOk.fetched (h : QueueOk crates s) (hw : s.workers w = .locking now candidates batch) :
    QueueOk crates (s.goes w (.posting now [] batch none)) := by
  have hok := h.workers w
  rw [hw] at hok
  refine h.goes ⟨hok.lock, hok.version, hok.due, ?_, by simp [recordedBy]⟩
  apply List.Nodup.sublist _ hok.distinct
  apply List.Sublist.map
  exact (List.Sublist.refl batch).append (List.nil_sublist candidates)

lemma QueueOk.answer {inFlight : Option Post} {outcome : Outcome} {ended : Timestamp} (h : QueueOk crates s)
    (hw : s.workers w = .posting now sent (row :: todo) inFlight) :
    QueueOk crates (s.goes w (.posting now (sent ++ [⟨row, outcome, now, ended,
      (s.find row.id).map (settle crates now row.delivery.attempts outcome)⟩]) todo none)) := by
  have hok := h.workers w
  rw [hw] at hok
  have hrow : row ∈ lockedRows (.posting now sent (row :: todo) inFlight) := by simp [lockedRows]
  have hfind : s.find row.id = some row.delivery := find_eq_some h (hok.version row hrow)
  have hsame : lockedRows (.posting now (sent ++ [⟨row, outcome, now, ended,
      (s.find row.id).map (settle crates now row.delivery.attempts outcome)⟩]) todo none) =
      lockedRows (.posting now sent (row :: todo) inFlight) := by
    simp [lockedRows]
  apply h.goes
  refine ⟨?_, ?_, ?_, ?_, ?_⟩
  · rw [hsame]
    exact hok.lock
  · rw [hsame]
    exact hok.version
  · rw [hsame]
    exact hok.due
  · rw [hsame]
    exact hok.distinct
  · intro a ha
    cases List.mem_append.mp ha with
    | inl ha => exact hok.sent a ha
    | inr ha =>
      rw [List.mem_singleton.mp ha, hfind]
      exact ⟨rfl, rfl⟩

/-! ### Commits -/

lemma filter_id (hdistinct : (sent.map Attempt.id).Nodup) (ha : a ∈ sent) :
    sent.filter (fun b => b.id = a.id) = [a] := by
  induction sent with
  | nil => cases ha
  | cons c rest ih =>
    rw [List.map_cons, List.nodup_cons] at hdistinct
    obtain ⟨hnew, hrest⟩ := hdistinct
    cases List.mem_cons.mp ha with
    | inl heq =>
      subst heq
      rw [List.filter_cons_of_pos (by simp), List.filter_eq_nil_iff.mpr]
      intro b hb hid
      exact hnew (List.mem_map.mpr ⟨b, hb, of_decide_eq_true hid⟩)
    | inr ha =>
      have hne : ¬c.id = a.id := fun hid => hnew (hid ▸ List.mem_map_of_mem ha)
      rw [List.filter_cons_of_neg (by simpa using hne), ih hrest ha]

lemma overwrite_eq (sent : List Attempt) (d : Delivery) :
    overwrite sent d = ((sent.filter (fun a => a.id = d.id)).head?.bind Attempt.write).getD d := by
  rw [overwrite, List.head?_filter]

/-- What a commit leaves of a row: the version its attempt wrote, or the row as it was. -/
lemma commit_cases (h : QueueOk crates s) (hw : s.workers w = .posting now sent [] none) (hd : d ∈ s.deliveries) :
    (∃ a ∈ sent, a.row.delivery = d ∧ sent.filter (fun b => b.id = d.id) = [a] ∧ d.status = .pending ∧
      d.nextAttemptAt ≤ a.began ∧ a.write = some (overwrite sent d) ∧
      overwrite sent d = settle crates a.began d.attempts a.outcome d) ∨
    overwrite sent d = d ∧ sent.filter (fun b => b.id = d.id) = [] := by
  have hok := h.workers w
  rw [hw] at hok
  have hdistinct : (sent.map Attempt.id).Nodup := by
    have := hok.distinct
    simp only [lockedRows, candidateRows, List.append_nil, List.map_map] at this
    exact this
  by_cases hex : ∃ a ∈ sent, a.id = d.id
  · obtain ⟨a, ha, hid⟩ := hex
    have hrow : a.row ∈ lockedRows (.posting now sent [] none) := by
      simpa [lockedRows] using ⟨a, ha, rfl⟩
    have hsame : a.row.delivery = d :=
      List.inj_on_of_nodup_map h.ids (hok.version _ hrow) hd hid
    have hfilter : sent.filter (fun b => b.id = d.id) = [a] := hid ▸ filter_id hdistinct ha
    obtain ⟨hbegan, hwrite⟩ := hok.sent a ha
    have hdue := hok.due _ hrow
    rw [Due.isDue, Bool.and_eq_true, Bool.and_eq_true, hsame, decide_eq_true_eq, decide_eq_true_eq] at hdue
    have hover : overwrite sent d = settle crates a.began d.attempts a.outcome d := by
      rw [overwrite_eq, hfilter, List.head?_cons, Option.bind_some, hwrite, Option.getD_some, hsame]
    refine Or.inl ⟨a, ha, hsame, hfilter, hdue.1.1, hbegan ▸ hdue.1.2, ?_, hover⟩
    rw [hwrite, hsame, hover]
  · have hfilter : sent.filter (fun b => b.id = d.id) = [] := by
      apply List.filter_eq_nil_iff.mpr
      intro b hb hid
      exact hex ⟨b, hb, of_decide_eq_true hid⟩
    refine Or.inr ⟨?_, hfilter⟩
    rw [overwrite_eq, hfilter]
    rfl

lemma overwrite_id (h : QueueOk crates s) (hw : s.workers w = .posting now sent [] none) (hd : d ∈ s.deliveries) :
    (overwrite sent d).id = d.id := by
  rcases commit_cases h hw hd with ⟨a, -, -, -, -, -, -, hover⟩ | ⟨hover, -⟩
  · rw [hover, settle_id]
  · rw [hover]

lemma release_other {locks : Nat → Option Nat} {id : Nat} (hv : v ≠ w) (h : locks id = some v) :
    release w locks id = some v := by
  rw [release, if_neg]
  · exact h
  · rw [h]
    exact fun heq => hv (Option.some.inj heq)

/-- The state a commit leaves. -/
def committedBy (s : Deliveries.State) (w : Nat) (sent : List Attempt) : Deliveries.State :=
  { s.goes w (.idle (some (stats sent))) with
    deliveries := s.deliveries.map (overwrite sent)
    locks := release w s.locks
    committed := s.committed ++ sent }

lemma history_committedBy (id : Nat) :
    history (committedBy s w sent) id = history s id ++ sent.filter (fun a => a.id = id) :=
  List.filter_append _ _

lemma QueueOk.commit (h : QueueOk crates s) (hw : s.workers w = .posting now sent [] none) :
    QueueOk crates (committedBy s w sent) where
  ids := by
    have hsame : (s.deliveries.map (overwrite sent)).map Delivery.id = s.deliveries.map Delivery.id := by
      rw [List.map_map]
      exact List.map_congr_left (fun d hd => overwrite_id h hw hd)
    exact hsame ▸ h.ids
  lives d' hd' := by
    obtain ⟨d, hd, rfl⟩ := List.mem_map.mp hd'
    have hlife := h.lives d hd
    rw [history_committedBy, overwrite_id h hw hd]
    rcases commit_cases h hw hd with ⟨a, -, hsame, hfilter, hpending, hdue, hwrite, hover⟩ | ⟨hover, hfilter⟩
    · subst hsame
      rw [hfilter]
      exact .attempt hlife hpending hdue hover hwrite
    · rw [hfilter, hover, List.append_nil]
      exact hlife
  known a ha := by
    have hrow : ∃ d ∈ s.deliveries, d.id = a.id := by
      cases List.mem_append.mp ha with
      | inl ha => exact h.known a ha
      | inr ha =>
        have hok := h.workers w
        rw [hw] at hok
        exact ⟨a.row.delivery, hok.version a.row (by simpa [lockedRows] using ⟨a, ha, rfl⟩), rfl⟩
    obtain ⟨d, hd, hid⟩ := hrow
    exact ⟨overwrite sent d, List.mem_map_of_mem hd, (overwrite_id h hw hd).trans hid⟩
  workers v := by
    by_cases hv : v = w
    · subst hv
      have hidle : (committedBy s v sent).workers v = .idle (some (stats sent)) := goes_self
      rw [hidle]
      exact idleOk _ _ _
    · have hother : (committedBy s w sent).workers v = s.workers v := goes_other hv
      rw [hother]
      apply (h.workers v).mono
      · intro id hlock
        exact release_other hv hlock
      · intro d hd hlock
        -- a row another worker holds is not among those written
        rcases commit_cases h hw hd with ⟨a, ha, hsame, -⟩ | ⟨hover, -⟩
        · have hok := h.workers w
          rw [hw] at hok
          have hmine := hok.lock a.row (by simpa [lockedRows] using ⟨a, ha, rfl⟩)
          rw [Due.id, hsame, hlock] at hmine
          exact absurd (Option.some.inj hmine) hv
        · exact List.mem_map.mpr ⟨d, hd, hover⟩

lemma QueueOk.crash (h : QueueOk crates s) (w : Nat) :
    QueueOk crates { s.goes w (.idle none) with locks := release w s.locks } where
  ids := h.ids
  lives := h.lives
  known := h.known
  workers v := by
    dsimp only
    by_cases hv : v = w
    · subst hv
      rw [goes_self]
      exact idleOk _ _ _
    · rw [goes_other hv]
      exact (h.workers v).mono (fun _ hlock => release_other hv hlock) (fun _ hd _ => hd)

lemma QueueOk.enqueue {id eventSequence : Nat} {endpointId : Uuid} (h : QueueOk crates s)
    (hnew : ∀ d ∈ s.deliveries, d.id ≠ id) :
    QueueOk crates { s with deliveries := s.deliveries ++ [.queued id endpointId eventSequence now] } where
  ids := by
    rw [List.map_append, List.nodup_append]
    refine ⟨h.ids, List.nodup_singleton _, ?_⟩
    intro n hn m hm heq
    obtain ⟨d, hd, rfl⟩ := List.mem_map.mp hn
    exact hnew d hd (heq.trans (List.mem_singleton.mp hm))
  lives d hd := by
    cases List.mem_append.mp hd with
    | inl hd => exact h.lives d hd
    | inr hd =>
      have hnone : history s id = [] := by
        apply List.filter_eq_nil_iff.mpr
        intro a ha hid
        obtain ⟨d, hd, heq⟩ := h.known a ha
        exact hnew d hd (heq.trans (of_decide_eq_true hid))
      rw [List.mem_singleton.mp hd]
      exact hnone ▸ .queued id endpointId eventSequence now
  known a ha := by
    obtain ⟨d, hd, hid⟩ := h.known a ha
    exact ⟨d, List.mem_append_left _ hd, hid⟩
  workers v := (h.workers v).mono (fun _ hlock => hlock) (fun _ hd _ => List.mem_append_left _ hd)

/-! ### Runs -/

/-- What a step can do. -/
inductive Moves (crates : Deliveries.Crates) (s : Deliveries.State) : Deliveries.State → Prop where
  | elsewhere (clock : Timestamp) (endpoints : List Webhooks.Endpoint) (events : List Webhooks.StoredEvent) :
    Moves crates s { s with clock := clock, endpoints := endpoints, events := events }
  | enqueue (id : Nat) (endpointId : Uuid) (eventSequence : Nat) (now : Timestamp)
    (hnew : ∀ d ∈ s.deliveries, d.id ≠ id) :
    Moves crates s { s with deliveries := s.deliveries ++ [.queued id endpointId eventSequence now] }
  | begin (w : Nat) : Moves crates s (s.goes w (.begun s.clock))
  | select (w : Nat) {now : Timestamp} {rows : List Due} (hrows : rows.Perm (Deliveries.due s now)) :
    Moves crates s (s.goes w (.locking now rows []))
  | lock {w : Nat} {now : Timestamp} {row : Due} {candidates batch : List Due}
    (hw : s.workers w = .locking now (row :: candidates) batch) :
    Moves crates s (Deliveries.lockNext s w now row candidates batch)
  | fetched {w : Nat} {now : Timestamp} {candidates batch : List Due}
    (hw : s.workers w = .locking now candidates batch) : Moves crates s (s.goes w (.posting now [] batch none))
  | post {w : Nat} {now : Timestamp} {sent : List Attempt} {row : Due} {todo : List Due}
    (hw : s.workers w = .posting now sent (row :: todo) none) (request : Post) :
    Moves crates s (s.goes w (.posting now sent (row :: todo) (some request)))
  | answer {w : Nat} {now : Timestamp} {sent : List Attempt} {row : Due} {todo : List Due} {request : Post}
    (hw : s.workers w = .posting now sent (row :: todo) (some request)) (outcome : Outcome) :
    Moves crates s (s.goes w (.posting now (sent ++ [⟨row, outcome, now, s.clock,
      (s.find row.id).map (settle crates now row.delivery.attempts outcome)⟩]) todo none))
  | commit {w : Nat} {now : Timestamp} {sent : List Attempt} (hw : s.workers w = .posting now sent [] none) :
    Moves crates s (committedBy s w sent)
  | crash (w : Nat) : Moves crates s { s.goes w (.idle none) with locks := release w s.locks }

lemma step_moves {ev : Deliveries.Event} (h : Deliveries.step crates s ev = some s') : Moves crates s s' := by
  cases ev with
  | tick elapsed =>
    cases h
    exact .elsewhere _ _ _
  | store e =>
    cases h
    exact .elsewhere _ _ _
  | register endpoint =>
    cases h
    exact .elsewhere _ _ _
  | deactivate id =>
    cases h
    exact .elsewhere _ _ _
  | enqueue id endpointId eventSequence now =>
    rw [Deliveries.step] at h
    split at h
    · next hall =>
      cases h
      apply Moves.enqueue
      intro d hd
      have := List.all_eq_true.mp hall d hd
      rw [Bool.and_eq_true, decide_eq_true_eq] at this
      exact this.1
    · cases h
  | begin w =>
    rw [Deliveries.step] at h
    split at h
    · cases h
      exact .begin w
    · cases h
  | select w rows =>
    rw [Deliveries.step] at h
    split at h
    · split at h
      · next hrows =>
        cases h
        exact .select w hrows.1
      · cases h
    · cases h
  | lock w =>
    rw [Deliveries.step] at h
    split at h
    · next hw =>
      split at h
      · cases h
        exact .lock hw
      · cases h
    · cases h
  | fetched w =>
    rw [Deliveries.step] at h
    split at h
    · next hw =>
      split at h
      · cases h
        exact .fetched hw
      · cases h
    · cases h
  | post w timestamp =>
    rw [Deliveries.step] at h
    split at h
    · next hw =>
      cases h
      exact .post hw _
    · cases h
  | answer w outcome =>
    rw [Deliveries.step] at h
    split at h
    · next hw =>
      cases h
      exact .answer hw outcome
    · cases h
  | commit w =>
    rw [Deliveries.step] at h
    split at h
    · next hw =>
      cases h
      exact .commit hw
    · cases h
  | crash w =>
    cases h
    exact .crash w

/-- A step of any party keeps the invariant. -/
lemma QueueOk.step (h : QueueOk crates s) (hmoves : Moves crates s s') : QueueOk crates s' := by
  cases hmoves with
  | elsewhere =>
    exact ⟨h.ids, h.lives, h.known, fun v => (h.workers v).mono (fun _ hlock => hlock) (fun _ hd _ => hd)⟩
  | enqueue _ _ _ _ hnew => exact h.enqueue hnew
  | begin w =>
    exact h.goes ⟨by simp [lockedRows], by simp [lockedRows], by simp [lockedRows], List.nodup_nil,
      by simp [recordedBy]⟩
  | select w hrows => exact h.select hrows
  | lock hw => exact h.lockNext hw
  | fetched hw => exact h.fetched hw
  | @post w now sent row todo hw request =>
    have hok := h.workers w
    rw [hw] at hok
    exact h.goes ⟨hok.lock, hok.version, hok.due, hok.distinct, hok.sent⟩
  | answer hw outcome => exact h.answer hw
  | commit hw => exact h.commit hw
  | crash w => exact h.crash w

lemma lockNext_rows (s : Deliveries.State) (w : Nat) (now : Timestamp) (row : Due) (candidates batch : List Due) :
    (Deliveries.lockNext s w now row candidates batch).deliveries = s.deliveries ∧
      (Deliveries.lockNext s w now row candidates batch).committed = s.committed := by
  rw [Deliveries.lockNext]
  cases s.locks row.id with
  | some _ => exact ⟨rfl, rfl⟩
  | none =>
    cases recheck s now row with
    | none => exact ⟨rfl, rfl⟩
    | some found => exact ⟨rfl, rfl⟩

/-- What a later state keeps: the rows that are settled, and the attempts committed. -/
structure Onwards (s s' : Deliveries.State) : Prop where
  settled : ∀ d ∈ s.deliveries, d.status ≠ .pending → d ∈ s'.deliveries
  history : ∀ id, history s id <+: history s' id

lemma Onwards.same (hrows : s'.deliveries = s.deliveries) (hcommitted : s'.committed = s.committed) :
    Onwards s s' where
  settled d hd _ := hrows.symm ▸ hd
  history id := by
    rw [Proofs.history, Proofs.history, hcommitted]

lemma QueueOk.onwards (h : QueueOk crates s) (hmoves : Moves crates s s') : Onwards s s' := by
  cases hmoves with
  | elsewhere => exact .same rfl rfl
  | enqueue => exact ⟨fun d hd _ => List.mem_append_left _ hd, fun id => List.prefix_rfl⟩
  | begin w => exact .same rfl rfl
  | select w hrows => exact .same rfl rfl
  | lock hw => exact .same (lockNext_rows _ _ _ _ _ _).1 (lockNext_rows _ _ _ _ _ _).2
  | fetched hw => exact .same rfl rfl
  | post hw request => exact .same rfl rfl
  | answer hw outcome => exact .same rfl rfl
  | commit hw =>
    refine ⟨?_, fun id => ?_⟩
    · intro d hd hstatus
      rcases commit_cases h hw hd with ⟨a, -, -, -, hpending, -⟩ | ⟨hover, -⟩
      · exact absurd hpending hstatus
      · exact List.mem_map.mpr ⟨d, hd, hover⟩
    · rw [history_committedBy]
      exact List.prefix_append _ _
  | crash w => exact .same rfl rfl

/-- Whatever is run, the invariant is kept and nothing settled or committed is undone. -/
theorem queue_run {events : List Deliveries.Event} (h : QueueOk crates s)
    (hrun : Deliveries.run crates s events = some s') : QueueOk crates s' ∧ Onwards s s' := by
  have hinv := Lib.foldlM_some_keeps (I := fun t => QueueOk crates t ∧ Onwards s t) ⟨h, .same rfl rfl⟩ ?_ hrun
  · exact hinv
  · rintro ev t t' ⟨hok, hon⟩ hstep
    have hmoves := step_moves hstep
    have hnext := hok.onwards hmoves
    refine ⟨hok.step hmoves, ?_, ?_⟩
    · intro d hd hstatus
      exact hnext.settled d (hon.settled d hd hstatus) hstatus
    · intro id
      exact (hon.history id).trans (hnext.history id)

/-! ### What is promised of a delivery -/

/-- A worker has locked the row. -/
def HasLocked (s : Deliveries.State) (w id : Nat) : Prop := ∃ row ∈ lockedRows (s.workers w), row.id = id

/-- A worker has a request for the row in flight. -/
def Sending (s : Deliveries.State) (w id : Nat) : Prop :=
  ∃ now sent row todo request, s.workers w = .posting now sent (row :: todo) (some request) ∧ row.id = id

/-- The failed attempt `n` moves its row into the future by the wait of that number. -/
def Waits (n : Nat) (a : Attempt) : Prop :=
  ∃ d, a.write = some d ∧ d.nextAttemptAt = a.began + (waitSecs n : Int) * 1000000 ∧
    a.row.delivery.nextAttemptAt < d.nextAttemptAt ∧ a.ended < d.nextAttemptAt

/-- What is promised of every row in a state of the queue. -/
structure Promised (s : Deliveries.State) : Prop where
  atMost : ∀ id, (history s id).length ≤ 8
  counted : ∀ d ∈ s.deliveries, d.attempts.toInt = (history s d.id).length
  latest : ∀ d ∈ s.deliveries, ∀ l a, history s d.id = l ++ [a] → a.write = some d
  delivered : ∀ d ∈ s.deliveries, d.status = .delivered ↔
    ∃ l a, history s d.id = l ++ [a] ∧ a.outcome.isSuccess ∧ ∀ b ∈ l, ¬b.outcome.isSuccess
  failed : ∀ d ∈ s.deliveries, d.status = .failed ↔
    (history s d.id).length = 8 ∧ ∀ a ∈ history s d.id, ¬a.outcome.isSuccess
  unselected : ∀ d ∈ s.deliveries, d.status ≠ .pending → ∀ w, ¬HasLocked s w d.id
  alone : ∀ w v id, Sending s w id → Sending s v id → w = v
  waits : ∀ id l a, l ++ [a] <+: history s id → ¬a.outcome.isSuccess → l.length + 1 < 8 → Waits (l.length + 1) a
  waited : ∀ id l a b, l ++ [a, b] <+: history s id →
    a.write = some b.row.delivery ∧ b.row.delivery.nextAttemptAt ≤ b.began

/-- Every committed failure short of the last was recorded within its wait of the start of its
transaction. -/
def Prompt (s : Deliveries.State) : Prop :=
  ∀ id l a, l ++ [a] <+: history s id → ¬a.outcome.isSuccess → l.length + 1 < 8 →
    a.ended < a.began + (waitSecs (l.length + 1) : Int) * 1000000

lemma Life.length_le (h : Life crates l d) : l.length ≤ 8 := by
  obtain ⟨hstory, -⟩ := h.story
  generalize d.status = status at hstory
  cases hstory with
  | going hfew hfailed => omega
  | delivered hfew hfailed hok =>
    rw [List.length_append, List.length_singleton]
    omega
  | failed hall hfailed => omega

lemma Story.delivered_iff {status : Status} (h : Story l status) : status = .delivered ↔
    ∃ pre a, l = pre ++ [a] ∧ a.outcome.isSuccess ∧ ∀ b ∈ pre, ¬b.outcome.isSuccess := by
  have hlast : ∀ {pre a}, l = pre ++ [a] → (∀ b ∈ l, ¬b.outcome.isSuccess) → ¬a.outcome.isSuccess := by
    intro pre a hl hfailed
    exact hfailed a (hl ▸ List.mem_append_right _ (List.mem_singleton_self a))
  cases h with
  | going hfew hfailed =>
    refine ⟨fun heq => (by cases heq), ?_⟩
    rintro ⟨pre, a, hl, hok, -⟩
    exact absurd hok (hlast hl hfailed)
  | @delivered pre a hfew hfailed hok => exact ⟨fun _ => ⟨pre, a, rfl, hok, hfailed⟩, fun _ => rfl⟩
  | failed hall hfailed =>
    refine ⟨fun heq => (by cases heq), ?_⟩
    rintro ⟨pre, a, hl, hok, -⟩
    exact absurd hok (hlast hl hfailed)

lemma Story.failed_iff {status : Status} (h : Story l status) : status = .failed ↔
    l.length = 8 ∧ ∀ a ∈ l, ¬a.outcome.isSuccess := by
  cases h with
  | going hfew hfailed =>
    refine ⟨fun heq => (by cases heq), ?_⟩
    rintro ⟨hall, -⟩
    omega
  | delivered hfew hfailed hok =>
    refine ⟨fun heq => (by cases heq), ?_⟩
    rintro ⟨-, hnone⟩
    exact absurd hok (hnone _ (List.mem_append_right _ (List.mem_singleton_self _)))
  | failed hall hfailed => exact ⟨fun _ => ⟨hall, hfailed⟩, fun _ => rfl⟩

/-- Every history is one that some row lived. -/
lemma QueueOk.life (h : QueueOk crates s) (id : Nat) : history s id = [] ∨ ∃ d, Life crates (history s id) d := by
  cases hh : history s id with
  | nil => exact Or.inl rfl
  | cons a rest =>
    have ha : a ∈ history s id := hh ▸ List.mem_cons_self
    obtain ⟨ha, hid⟩ := List.mem_filter.mp ha
    obtain ⟨d, hd, heq⟩ := h.known a ha
    have hlife := h.lives d hd
    rw [heq, of_decide_eq_true hid, hh] at hlife
    exact Or.inr ⟨d, hlife⟩

lemma QueueOk.of_prefix {id : Nat} (h : QueueOk crates s) (hpre : pre ++ [a] <+: history s id) :
    Life crates pre a.row.delivery ∧ a.row.delivery.status = .pending ∧ a.row.delivery.nextAttemptAt ≤ a.began ∧
      a.write = some (settle crates a.began a.row.delivery.attempts a.outcome a.row.delivery) := by
  rcases h.life id with hnil | ⟨d, hlife⟩
  · have := hpre.length_le
    rw [hnil] at this
    simp at this
  · exact hlife.of_prefix hpre

/-- What a failed attempt short of the last leaves of its row. -/
lemma settle_retried {n : Nat} {attempts : Int32} {outcome : Outcome} (h : ¬outcome.isSuccess)
    (hn : attempts.toInt = n) (hfew : n + 1 < 8) :
    (settle crates now attempts outcome d).nextAttemptAt = now + (waitSecs (n + 1) : Int) * 1000000 := by
  rw [settle, verdict_of_few h hn (by omega)]
  dsimp only
  rw [backoff_toInt hn (by omega)]

lemma Life.latest (h : Life crates l d) (hl : l = pre ++ [a]) : a.write = some d := by
  cases h with
  | queued => simp at hl
  | attempt hlife hpending hdue hd hwrite =>
    obtain ⟨-, heq⟩ := List.append_inj' hl rfl
    rwa [← List.singleton_inj.mp heq]

lemma QueueOk.waited {id : Nat} (h : QueueOk crates s) (hpre : pre ++ [a, b] <+: history s id) :
    a.write = some b.row.delivery ∧ b.row.delivery.nextAttemptAt ≤ b.began := by
  have hpair : pre ++ [a, b] = (pre ++ [a]) ++ [b] := by simp
  obtain ⟨hlife, -, hdue, -⟩ := h.of_prefix (hpair ▸ hpre)
  exact ⟨hlife.latest rfl, hdue⟩

lemma QueueOk.waits_iff {id : Nat} (h : QueueOk crates s) (hpre : pre ++ [a] <+: history s id)
    (hfailed : ¬a.outcome.isSuccess) (hfew : pre.length + 1 < 8) :
    Waits (pre.length + 1) a ↔ a.ended < a.began + (waitSecs (pre.length + 1) : Int) * 1000000 := by
  obtain ⟨hlife, hpending, hdue, hwrite⟩ := h.of_prefix hpre
  have hnext : (settle crates a.began a.row.delivery.attempts a.outcome a.row.delivery).nextAttemptAt =
      a.began + (waitSecs (pre.length + 1) : Int) * 1000000 := settle_retried hfailed hlife.story.2 hfew
  have hpos : 0 < (waitSecs (pre.length + 1) : Int) * 1000000 := by
    rw [waitSecs]
    positivity
  constructor
  · rintro ⟨d, -, hd, -, hended⟩
    rwa [← hd]
  · intro hended
    refine ⟨_, hwrite, hnext, ?_, hnext.symm ▸ hended⟩
    rw [hnext]
    exact lt_add_of_le_of_pos hdue hpos

lemma QueueOk.holder (h : QueueOk crates s) {id : Nat} (hlocked : HasLocked s w id) : s.locks id = some w := by
  obtain ⟨row, hrow, rfl⟩ := hlocked
  exact (h.workers w).lock row hrow

lemma Sending.hasLocked {id : Nat} (h : Sending s w id) : HasLocked s w id := by
  obtain ⟨now, sent, row, todo, request, hw, hid⟩ := h
  refine ⟨row, ?_, hid⟩
  rw [hw]
  simp [lockedRows]

lemma QueueOk.unselected (h : QueueOk crates s) (hd : d ∈ s.deliveries) (hstatus : d.status ≠ .pending) (w : Nat) :
    ¬HasLocked s w d.id := by
  rintro ⟨row, hrow, hid⟩
  have hsame : row.delivery = d := List.inj_on_of_nodup_map h.ids ((h.workers w).version row hrow) hd hid
  have hdue := (h.workers w).due row hrow
  rw [Due.isDue, Bool.and_eq_true, Bool.and_eq_true, decide_eq_true_eq, hsame] at hdue
  exact hstatus hdue.1.1

/-- Everything that is promised holds, the wait where attempts end in time. -/
lemma promised_iff (h : QueueOk crates s) : Promised s ↔ Prompt s := by
  constructor
  · intro hp id l a hpre hfailed hfew
    exact (h.waits_iff hpre hfailed hfew).mp (hp.waits id l a hpre hfailed hfew)
  · intro hprompt
    refine ⟨?_, ?_, ?_, ?_, ?_, ?_, ?_, ?_, ?_⟩
    · intro id
      rcases h.life id with hnil | ⟨d, hlife⟩
      · rw [hnil]
        exact Nat.zero_le 8
      · exact hlife.length_le
    · intro d hd
      exact (h.lives d hd).story.2
    · intro d hd l a hl
      exact (h.lives d hd).latest hl
    · intro d hd
      exact (h.lives d hd).story.1.delivered_iff
    · intro d hd
      exact (h.lives d hd).story.1.failed_iff
    · intro d hd hstatus w
      exact h.unselected hd hstatus w
    · intro w v id hw hv
      exact Option.some.inj ((h.holder hw.hasLocked).symm.trans (h.holder hv.hasLocked))
    · intro id l a hpre hfailed hfew
      exact (h.waits_iff hpre hfailed hfew).mpr (hprompt id l a hpre hfailed hfew)
    · intro id l a b hpre
      exact h.waited hpre

/-- Along a run, every state keeps the promises, and what was settled once is settled for good. -/
def KeepsPromises (crates : Deliveries.Crates) (s₀ : Deliveries.State) (events : List Deliveries.Event) : Prop :=
  ∀ before after s s', before ++ after <+: events → Deliveries.run crates s₀ before = some s →
    Deliveries.run crates s after = some s' →
    Promised s' ∧ ∀ d ∈ s.deliveries, d.status ≠ .pending → d ∈ s'.deliveries ∧ ∀ w, ¬HasLocked s' w d.id

lemma run_append (s : Deliveries.State) (before after : List Deliveries.Event) :
    Deliveries.run crates s (before ++ after) =
      (Deliveries.run crates s before).bind (fun t => Deliveries.run crates t after) := List.foldlM_append

/-- A run honours what is promised exactly where its failed attempts end within their wait. -/
theorem promises_kept_iff (crates : Deliveries.Crates) (clock : Timestamp) (endpoints : List Webhooks.Endpoint)
    (events : List Webhooks.StoredEvent) (run : List Deliveries.Event) (s : Deliveries.State)
    (hrun : Deliveries.run crates (.init clock endpoints events) run = some s) :
    KeepsPromises crates (.init clock endpoints events) run ↔ Prompt s := by
  have hinit : QueueOk crates (.init clock endpoints events) := queueOk_init clock endpoints events
  constructor
  · intro h
    exact (promised_iff (queue_run hinit hrun).1).mp (h [] run _ s List.prefix_rfl rfl hrun).1
  · intro hprompt before after t t' hpre hbefore hafter
    obtain ⟨hok, -⟩ := queue_run hinit hbefore
    obtain ⟨hok', hon⟩ := queue_run hok hafter
    obtain ⟨rest, hrest⟩ := hpre
    -- what is left of the run only adds to the histories
    have hleft : Deliveries.run crates t' rest = some s := by
      rw [← hrest, run_append, run_append, hbefore, Option.bind_some, hafter, Option.bind_some] at hrun
      exact hrun
    obtain ⟨-, hon'⟩ := queue_run hok' hleft
    refine ⟨(promised_iff hok').mpr ?_, ?_⟩
    · intro id l a hpre hfailed hfew
      exact hprompt id l a (hpre.trans (hon'.history id)) hfailed hfew
    · intro d hd hstatus
      have hd' := hon.settled d hd hstatus
      exact ⟨hd', hok'.unselected hd' hstatus⟩

section TimedOut

def plainCrates : Deliveries.Crates :=
  ⟨fun _ _ => [], fun _ => "", fun _ => .null, fun _ => "", fun _ => "", fun _ => ""⟩

def hookEndpoint : Webhooks.Endpoint := ⟨1, "https://hooks.example/lulan", "whsec", [], true⟩

def hookEvent : Webhooks.StoredEvent := ⟨1, 7, 1, "order_created", "\x7b\x7d", 0⟩

def hookRow : Due := ⟨.queued 1 1 1 0, hookEndpoint, hookEvent⟩

/-- The first attempt on a row gets no response in the time that passes. -/
def timedOutRun (elapsed : Nat) : List Deliveries.Event :=
  [.enqueue 1 1 1 0, .begin 0, .select 0 [hookRow], .lock 0, .fetched 0, .post 0 0, .tick elapsed,
    .answer 0 (.error "operation timed out"), .commit 0]

def timedOut (ended : Timestamp) : Attempt :=
  ⟨hookRow, .error "operation timed out", 0, ended,
    some (settle plainCrates 0 0 (.error "operation timed out") hookRow.delivery)⟩

lemma timedOutRun_ends (elapsed : Nat) :
    ∃ s, Deliveries.run plainCrates (.init 0 [hookEndpoint] [hookEvent]) (timedOutRun elapsed) = some s ∧
      s.committed = [timedOut elapsed] := by
  refine ⟨_, rfl, ?_⟩
  exact congrArg (fun ended => [timedOut ended]) (Int.zero_add elapsed)

lemma prompt_timedOut {elapsed : Nat} (h : s.committed = [timedOut elapsed]) (hshort : elapsed < 4000000) :
    Prompt s := by
  intro id l a hpre _ _
  have hsub : (l ++ [a]).Sublist [timedOut elapsed] := by
    rw [← h]
    exact hpre.sublist.trans List.filter_sublist
  have hlength := hsub.length_le
  rw [List.length_append, List.length_singleton, List.length_singleton] at hlength
  have hnil : l = [] := List.length_eq_zero_iff.mp (by omega)
  subst hnil
  have ha : a = timedOut elapsed := List.mem_singleton.mp (hsub.subset (List.mem_singleton_self a))
  rw [ha]
  change (elapsed : Int) < 0 + 4 * 1000000
  omega

/-- An attempt refused within three seconds leaves its row a second to wait. -/
theorem promises_kept_iff_refused : ∃ s,
    Deliveries.run plainCrates (.init 0 [hookEndpoint] [hookEvent]) (timedOutRun 3000000) = some s ∧
      KeepsPromises plainCrates (.init 0 [hookEndpoint] [hookEvent]) (timedOutRun 3000000) := by
  obtain ⟨s, hrun, hcommitted⟩ := timedOutRun_ends 3000000
  exact ⟨s, hrun, (promises_kept_iff plainCrates 0 [hookEndpoint] [hookEvent] (timedOutRun 3000000) s hrun).mpr
    (prompt_timedOut hcommitted (by decide))⟩

/-- A request that times out after ten seconds leaves its row due at once. -/
theorem timeout_due_at_once : ¬∀ crates clock endpoints events run s,
    Deliveries.run crates (.init clock endpoints events) run = some s →
    KeepsPromises crates (.init clock endpoints events) run := by
  intro h
  obtain ⟨s, hrun, hcommitted⟩ := timedOutRun_ends 10000000
  have hkept := h plainCrates 0 [hookEndpoint] [hookEvent] (timedOutRun 10000000) s hrun
  have hpromised := (hkept [] (timedOutRun 10000000) _ s List.prefix_rfl rfl hrun).1
  have hhistory : history s 1 = [timedOut ((10000000 : Nat) : Int)] := by
    rw [history, hcommitted]
    rfl
  obtain ⟨d, hwrite, -, -, hended⟩ := hpromised.waits 1 [] (timedOut ((10000000 : Nat) : Int))
    (by rw [hhistory]; exact List.prefix_rfl) (by decide) (by decide)
  cases hwrite
  exact absurd hended (by decide)

end TimedOut

end Lulan.Proofs
