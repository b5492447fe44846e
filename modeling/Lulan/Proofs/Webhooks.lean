import Lulan.Api.Webhooks

/-!
# The relay loses no event and duplicates no delivery

Whatever appends, passes of relays, registrations and deactivations do at the same time, and
wherever a pass is lost: an outbox row is marked delivered only after the sink's insert for it
has been committed, every event keeps its outbox row, and one that is not delivered yet is
still selected.
-/

namespace Lulan.Proofs

open Lib Lib.ReadCommitted
open Webhooks (Row RowKey StoredEvent OutboxEntry Endpoint Draft)

section Rows

abbrev RelayEvent : Type :=
  ReadCommitted.Ev Webhooks.Request Row.id (Except Webhooks.Error Webhooks.Response)

abbrev RelayConf : Type :=
  ReadCommitted.Conf Webhooks.Request Row.id (Except Webhooks.Error Webhooks.Response)

/-- An undelivered outbox row that the request has locked. -/
def lockedBy (pid : Nat) : RelayEvent → Option OutboxEntry
  | .did q _ (.took .main (.outbox o)) => if q = pid ∧ o.deliveredAt = none then some o else none
  | _ => none

/-- The request runs the sink's insert. -/
def sinkRun (pid : Nat) : RelayEvent → Bool
  | .did q _ (.snap .side .insert _) => decide (q = pid)
  | _ => false

/-- The sink's insert for the outbox row `id` has run on the rows `seen`: its pass runs one
insert for each row it has locked, in order. -/
def SinkInsert (h : List RelayEvent) (id : Nat) (seen : List Row) : Prop :=
  ∃ pid now f o, f ++ [.did pid (.relayOnce now) (.snap .side .insert seen)] <+: h ∧
    (f.filterMap (lockedBy pid))[f.countP (sinkRun pid)]? = some o ∧ o.id = id

/-- Every endpoint that was active and subscribed when the sink's insert ran has its delivery. -/
def Fanned (s : Table Row.id) (h : List RelayEvent) (o : OutboxEntry) : Prop :=
  ∃ e seen, s.find? (.event o.eventSequence) = some (.event e) ∧ SinkInsert h o.id seen ∧
    ∀ w, .endpoint w ∈ seen → w.subscribed e.eventType = true → s.find? (.delivery w.id e.sequence) ≠ none

/-- From one committed table to a later one. -/
structure RelayKept (s s' : Table Row.id) : Prop where
  events : ∀ n e, s.find? (.event n) = some (.event e) → s'.find? (.event n) = some (.event e)
  outbox : ∀ id o, s.find? (.outbox id) = some (.outbox o) → ∃ o', s'.find? (.outbox id) = some (.outbox o') ∧
    (o' = o ∨ o.deliveredAt = none ∧ ∃ now, o' = { o with deliveredAt := some now })
  rows : ∀ k, s.find? k ≠ none → s'.find? k ≠ none

structure RelayInv (s : Table Row.id) (h : List RelayEvent) : Prop where
  logged : ∀ n e, s.find? (.event n) = some (.event e) →
    ∃ id o, s.find? (.outbox id) = some (.outbox o) ∧ o.eventSequence = n
  joined : ∀ id o, s.find? (.outbox id) = some (.outbox o) → s.find? (.event o.eventSequence) ≠ none
  fanned : ∀ id o, s.find? (.outbox id) = some (.outbox o) → o.deliveredAt ≠ none → Fanned s h o

/-- What a transaction holds: events that are not there yet, and versions of outbox rows, marked
delivered only once they are fanned out. -/
def Held (s : Table Row.id) (h : List RelayEvent) (k : RowKey) : Row → Prop
  | .event _ => s.find? k = none
  | .outbox o' => (∃ o, s.find? k = some (.outbox o) ∧
      (o' = o ∨ o.deliveredAt = none ∧ Fanned s h o ∧ ∃ now, o' = { o with deliveredAt := some now })) ∨
    s.find? k = none ∧ o'.deliveredAt = none
  | _ => True

/-- What may be committed: each new event with its outbox row, each outbox row with its event. -/
structure Committable (s : Table Row.id) (h : List RelayEvent) (t : Table Row.id) : Prop where
  held : ∀ k r, t.find? k = some r → Held s h k r
  logged : ∀ n e, t.find? (.event n) = some (.event e) →
    ∃ id o, t.find? (.outbox id) = some (.outbox o) ∧ o.eventSequence = n
  joined : ∀ id o, t.find? (.outbox id) = some (.outbox o) → (s.merge t).find? (.event o.eventSequence) ≠ none

lemma RelayKept.refl (s : Table Row.id) : RelayKept s s :=
  ⟨fun _ _ h => h, fun _ o ho => ⟨o, ho, .inl rfl⟩, fun _ h => h⟩

lemma RelayKept.trans {s₁ s₂ s₃ : Table Row.id} (h : RelayKept s₁ s₂) (h' : RelayKept s₂ s₃) : RelayKept s₁ s₃ := by
  refine ⟨fun n e he => h'.events n e (h.events n e he), fun id o ho => ?_, fun k hk => h'.rows k (h.rows k hk)⟩
  obtain ⟨o₂, ho₂, he₂⟩ := h.outbox id o ho
  obtain ⟨o₃, ho₃, he₃⟩ := h'.outbox id o₂ ho₂
  refine ⟨o₃, ho₃, ?_⟩
  rcases he₂ with rfl | ⟨hnone, now, rfl⟩
  · exact he₃
  · rcases he₃ with rfl | ⟨hnone', -⟩
    · exact .inr ⟨hnone, now, rfl⟩
    · cases hnone'

lemma find?_event {s : Table Row.id} {n : Nat} {r : Row} (h : s.find? (.event n) = some r) :
    ∃ e, r = .event e ∧ e.sequence = n := by
  have hk := Table.find?_key h
  cases r with
  | event e => exact ⟨e, rfl, RowKey.event.inj hk⟩
  | _ => cases hk

lemma find?_outbox {s : Table Row.id} {id : Nat} {r : Row} (h : s.find? (.outbox id) = some r) :
    ∃ o, r = .outbox o ∧ o.id = id := by
  have hk := Table.find?_key h
  cases r with
  | outbox o => exact ⟨o, rfl, RowKey.outbox.inj hk⟩
  | _ => cases hk

lemma SinkInsert.mono {h h' : List RelayEvent} {id : Nat} {seen : List Row} (hs : SinkInsert h id seen)
    (hp : h <+: h') : SinkInsert h' id seen := by
  obtain ⟨pid, now, f, o, hf, ho⟩ := hs
  exact ⟨pid, now, f, o, hf.trans hp, ho⟩

lemma Fanned.mono {s s' : Table Row.id} {h h' : List RelayEvent} {o : OutboxEntry} (hf : Fanned s h o)
    (hs : RelayKept s s') (hp : h <+: h') : Fanned s' h' o := by
  obtain ⟨e, seen, he, hseen, hall⟩ := hf
  exact ⟨e, seen, hs.events _ e he, hseen.mono hp, fun w hw hsub => hs.rows _ (hall w hw hsub)⟩

lemma RelayInv.mono {s : Table Row.id} {h h' : List RelayEvent} (hI : RelayInv s h) (hp : h <+: h') :
    RelayInv s h' :=
  ⟨hI.logged, hI.joined, fun id o ho hd => (hI.fanned id o ho hd).mono (.refl s) hp⟩

lemma Held.mono {s s' : Table Row.id} {h h' : List RelayEvent} {k : RowKey} {r : Row} (hr : Held s h k r)
    (hs : RelayKept s s') (hp : h <+: h') (hk : s'.find? k = s.find? k) : Held s' h' k r := by
  cases r with
  | event e => exact hk.trans hr
  | outbox o' =>
    rcases hr with ⟨o, ho, he⟩ | ⟨hnone, hd⟩
    · refine .inl ⟨o, hk.trans ho, ?_⟩
      rcases he with rfl | ⟨hd, hf, hnow⟩
      · exact .inl rfl
      · exact .inr ⟨hd, hf.mono hs hp, hnow⟩
    · exact .inr ⟨hk.trans hnone, hd⟩
  | position s n => trivial
  | endpoint w => trivial
  | delivery w n => trivial

lemma merge_find?_ne_none {s t : Table Row.id} {k : RowKey} (h : s.find? k ≠ none) : (s.merge t).find? k ≠ none := by
  rw [Table.find?_merge]
  cases t.find? k with
  | none => exact h
  | some r => simp

/-- What a transaction holds stays committable while others commit. -/
lemma Committable.mono {s s' t : Table Row.id} {h h' : List RelayEvent} (hc : Committable s h t) (hs : RelayKept s s')
    (hp : h <+: h') (hframe : ∀ k, t.find? k ≠ none → s'.find? k = s.find? k) : Committable s' h' t := by
  refine ⟨fun k r hk => (hc.held k r hk).mono hs hp (hframe k (by simp [hk])), hc.logged, fun id o ho => ?_⟩
  have hj := hc.joined id o ho
  rw [Table.find?_merge] at hj ⊢
  cases ht : t.find? (.event o.eventSequence) with
  | none =>
    rw [ht, Option.none_or] at hj
    exact hs.rows _ hj
  | some r => simp

/-- A commit keeps the invariant. -/
lemma Committable.commit {s t : Table Row.id} {h : List RelayEvent} (hI : RelayInv s h) (hc : Committable s h t) :
    RelayKept s (s.merge t) ∧ RelayInv (s.merge t) h := by
  have hevents : ∀ n e, s.find? (.event n) = some (.event e) → (s.merge t).find? (.event n) = some (.event e) := by
    intro n e he
    rw [Table.find?_merge]
    cases ht : t.find? (.event n) with
    | none => exact he
    | some r =>
      obtain ⟨e', rfl, -⟩ := find?_event ht
      have hnone : s.find? (.event n) = none := hc.held _ _ ht
      rw [he] at hnone
      cases hnone
  have hs : RelayKept s (s.merge t) := by
    refine ⟨hevents, fun id o ho => ?_, fun k hk => merge_find?_ne_none hk⟩
    rw [Table.find?_merge]
    cases ht : t.find? (.outbox id) with
    | none => exact ⟨o, ho, .inl rfl⟩
    | some r =>
      obtain ⟨o', rfl, -⟩ := find?_outbox ht
      rcases hc.held _ _ ht with ⟨o₀, ho₀, he⟩ | ⟨hnone, -⟩
      · rw [ho] at ho₀
        cases ho₀
        rcases he with he | ⟨hd, -, hnow⟩
        · exact ⟨o', rfl, .inl he⟩
        · exact ⟨o', rfl, .inr ⟨hd, hnow⟩⟩
      · rw [ho] at hnone
        cases hnone
  refine ⟨hs, fun n e he => ?_, fun id o ho => ?_, fun id o ho hd => ?_⟩
  · rw [Table.find?_merge] at he
    cases ht : t.find? (.event n) with
    | none =>
      rw [ht, Option.none_or] at he
      obtain ⟨id, o, ho, hn⟩ := hI.logged n e he
      obtain ⟨o', ho', ho''⟩ := hs.outbox id o ho
      refine ⟨id, o', ho', ?_⟩
      rcases ho'' with rfl | ⟨-, now, rfl⟩
      · exact hn
      · exact hn
    | some r =>
      rw [ht, Option.some_or] at he
      cases he
      obtain ⟨id, o, ho, hn⟩ := hc.logged n e ht
      refine ⟨id, o, ?_, hn⟩
      rw [Table.find?_merge, ho, Option.some_or]
  · rw [Table.find?_merge] at ho
    cases ht : t.find? (.outbox id) with
    | none =>
      rw [ht, Option.none_or] at ho
      exact merge_find?_ne_none (hI.joined id o ho)
    | some r =>
      rw [ht, Option.some_or] at ho
      cases ho
      exact hc.joined id o ht
  · rw [Table.find?_merge] at ho
    cases ht : t.find? (.outbox id) with
    | none =>
      rw [ht, Option.none_or] at ho
      exact (hI.fanned id o ho hd).mono hs List.prefix_rfl
    | some r =>
      rw [ht, Option.some_or] at ho
      cases ho
      rcases hc.held _ _ ht with ⟨o₀, ho₀, he⟩ | ⟨-, hnone⟩
      · rcases he with rfl | ⟨-, hf, now, rfl⟩
        · exact (hI.fanned id o ho₀ hd).mono hs List.prefix_rfl
        · exact hf.mono hs List.prefix_rfl
      · exact absurd hnone hd

/-- Rows of the other tables may always be committed. -/
lemma committable_of_plain {s t : Table Row.id} {h : List RelayEvent}
    (ht : ∀ k r, t.find? k = some r → (∀ e, r ≠ .event e) ∧ ∀ o, r ≠ .outbox o) : Committable s h t := by
  refine ⟨fun k r hk => ?_, fun n e he => absurd rfl ((ht _ _ he).1 e), fun id o ho => absurd rfl ((ht _ _ ho).2 o)⟩
  obtain ⟨he, ho⟩ := ht k r hk
  cases r with
  | event e => exact absurd rfl (he e)
  | outbox o => exact absurd rfl (ho o)
  | _ => trivial

end Rows

section Protocol

/-- What each event keeps to: a commit keeps the rows and the invariant. -/
def RelayStep (s : Table Row.id) (h : List RelayEvent) : RelayEvent → Prop
  | .did _ _ (.commit _ rows) => RelayKept s (s.merge rows) ∧ RelayInv (s.merge rows) h
  | _ => True

lemma RelayStep.kept {s : Table Row.id} {h : List RelayEvent} {ev : RelayEvent} (hE : RelayStep s h ev) :
    RelayKept s (ev.store s) := by
  cases ev with
  | arrive pid i => exact .refl s
  | did pid i n =>
    cases n with
    | commit d rows => exact hE.1
    | _ => exact .refl s

lemma RelayStep.step {s : Table Row.id} {h : List RelayEvent} {ev : RelayEvent} (hI : RelayInv s h)
    (hE : RelayStep s h ev) : RelayInv (ev.store s) (h ++ [ev]) := by
  have hp : h <+: h ++ [ev] := List.prefix_append _ _
  cases ev with
  | arrive pid i => exact hI.mono hp
  | did pid i n =>
    cases n with
    | commit d rows => exact hE.2.mono hp
    | _ => exact hI.mono hp

abbrev RelayWp (pid : Nat) (i : Webhooks.Request) {ε α : Type} (x : ExceptT ε (Script Row.id) α)
    (Q : α → (Conn → Table Row.id) → Table Row.id → List RelayEvent → Prop) (own : Conn → Table Row.id)
    (s : Table Row.id) (h : List RelayEvent) : Prop :=
  Wp RelayInv (fun _ _ _ => True) RelayStep pid i x Q own s h

variable {pid : Nat} {i : Webhooks.Request} {own : Conn → Table Row.id} {s : Table Row.id} {h : List RelayEvent}

lemma committable_stable {own : Conn → Table Row.id} {d : Conn} :
    Stable RelayInv RelayStep pid own (fun s h => Committable s h (own d)) :=
  fun _ _ _ _ _ hE hframe hc => hc.mono hE.kept (List.prefix_append _ _) (fun k hk => hframe d k hk)

lemma relay_wp_publish {d : Conn} (hc : Committable s h (own d)) :
    RelayWp pid i (Script.publish d) (fun _ _ _ _ => True) own s h :=
  wp_publish hc committable_stable (fun _ _ hc hI _ => ⟨hc.commit hI, trivial⟩)

/-- None of the rows is there yet. -/
def NewRows (s t : Table Row.id) : Prop := ∀ k, t.find? k ≠ none → s.find? k = none

/-- What an insert leaves its connection with. -/
structure Added (t₀ : Table Row.id) (rows : List Row) (t : Table Row.id) : Prop where
  old : ∀ k r, t₀.find? k = some r → t.find? k = some r
  new : ∀ r ∈ rows, t.find? r.id = some r
  only : ∀ k r, t.find? k = some r → t₀.find? k = some r ∨ r ∈ rows

lemma Added.put {t₀ t : Table Row.id} {rows : List Row} {r : Row} (h : Added t₀ rows t) (hr : t.find? r.id = none) :
    Added t₀ (rows ++ [r]) (t.put r) := by
  have hother : ∀ k r', t.find? k = some r' → (t.put r).find? k = some r' := by
    intro k r' hk
    rw [Table.find?_put, if_neg]
    · exact hk
    · rintro rfl
      rw [hr] at hk
      cases hk
  refine ⟨fun k r' hk => hother k r' (h.old k r' hk), fun r' hr' => ?_, fun k r' hk => ?_⟩
  · rcases List.mem_append.mp hr' with hr' | hr'
    · exact hother _ _ (h.new r' hr')
    · rw [List.mem_singleton.mp hr', Table.find?_put, if_pos rfl]
  · rw [Table.find?_put] at hk
    split at hk
    · cases hk
      exact .inr (by simp)
    · rcases h.only k r' hk with hk | hk
      · exact .inl hk
      · exact .inr (by simp [hk])

/-- An `INSERT` of rows that are not there yet. -/
lemma relay_wp_add {d : Conn} {n : Addition Row} (hn : n.strict = true) (hnew : NewRows s (own d)) :
    RelayWp pid i (Script.add d n) (fun _ own' s _ => ∃ seen t, own' = Function.update own d t ∧
      Added (own d) (n.rows seen) t ∧ NewRows s t) own s h := by
  have hstable : ∀ t : Table Row.id, ∀ own : Conn → Table Row.id, own d = t →
      Stable RelayInv RelayStep pid own (fun s _ => NewRows s t) := by
    rintro _ own rfl s h ev - - - hframe hs k hk
    rw [hframe d k hk]
    exact hs k hk
  refine wp_add (fun seen pending done t s _ => Added (own d) done t ∧ done ++ pending = n.rows seen ∧ NewRows s t)
    hnew (hstable _ own rfl) (fun seen pending done t s h ev hne hI hE hf hl => ?_) (fun s h hs _ _ => ?_)
    (fun seen r pending done t s h hl _ hr _ => ?_) (fun _ _ _ _ _ _ _ hstrict => ?_) (fun seen done t s h hl _ => ?_)
  · exact ⟨hl.1, hl.2.1, hstable t _ (Function.update_self ..) s h ev hne hI hE hf hl.2.2⟩
  · exact ⟨trivial, ⟨fun _ _ hk => hk, fun _ hr => absurd hr List.not_mem_nil, fun _ _ hk => .inl hk⟩, rfl, hs⟩
  · rw [Table.find?_merge, Option.or_eq_none_iff] at hr
    refine ⟨trivial, hl.1.put hr.1, by simpa using hl.2.1, fun k hk => ?_⟩
    rw [Table.find?_put] at hk
    split at hk
    · rename_i he
      exact he ▸ hr.2
    · exact hl.2.2 k hk
  · rw [hn] at hstrict
    cases hstrict
  · obtain ⟨hadded, hrows, hnew⟩ := hl
    rw [List.append_nil] at hrows
    exact ⟨seen, t, rfl, hrows ▸ hadded, hnew⟩

end Protocol

section Appends

variable {pid : Nat} {i : Webhooks.Request} {own : Conn → Table Row.id} {s : Table Row.id} {h : List RelayEvent}

/-- What a transaction that appends holds between two appends. -/
structure Drafting (s t : Table Row.id) : Prop where
  new : NewRows s t
  undelivered : ∀ id o, t.find? (.outbox id) = some (.outbox o) → o.deliveredAt = none
  logged : ∀ n e, t.find? (.event n) = some (.event e) →
    ∃ id o, t.find? (.outbox id) = some (.outbox o) ∧ o.eventSequence = n
  joined : ∀ id o, t.find? (.outbox id) = some (.outbox o) → t.find? (.event o.eventSequence) ≠ none

lemma Drafting.committable {t : Table Row.id} (ht : Drafting s t) : Committable s h t := by
  refine ⟨fun k r hk => ?_, ht.logged, fun id o ho => ?_⟩
  · have hnone := ht.new k (by simp [hk])
    cases r with
    | event e => exact hnone
    | outbox o =>
      have hkey := Table.find?_key hk
      subst hkey
      exact .inr ⟨hnone, ht.undelivered o.id o hk⟩
    | _ => trivial
  · have hj := ht.joined id o ho
    rw [Table.find?_merge]
    cases he : t.find? (.event o.eventSequence) with
    | none => exact absurd he hj
    | some r => simp

lemma relay_wp_append {draft : Draft} (hd : Drafting s (own .main)) :
    RelayWp pid i (Webhooks.append draft) (fun _ own' s _ => Drafting s (own' .main)) own s h := by
  refine wp_bind (wp_mono (relay_wp_add rfl hd.new) (fun _ own₁ s h ⟨seen, t₁, hown, hadd, hnew⟩ => ?_))
  have hmain : own₁ .main = t₁ := by rw [hown, Function.update_self]
  refine wp_bind (wp_mono (relay_wp_add rfl (by rwa [hmain])) (fun _ own₂ s h ⟨_, t₂, hown₂, hadd₂, hnew₂⟩ =>
    wp_pure ?_))
  rw [hown₂, Function.update_self]
  rw [hmain] at hadd₂
  have hevent := hadd₂.old _ _ (hadd.new (.event (draft.event seen)) (by simp))
  have houtbox := hadd₂.new (.outbox ⟨draft.outboxId, draft.sequence, none⟩) (by simp)
  refine ⟨hnew₂, fun id o ho => ?_, fun n e he => ?_, fun id o ho => ?_⟩
  · rcases hadd₂.only _ _ ho with ho | ho
    · rcases hadd.only _ _ ho with ho | ho
      · exact hd.undelivered id o ho
      · simp at ho
    · cases List.mem_singleton.mp ho
      rfl
  · have hkey := Table.find?_key he
    rcases hadd₂.only _ _ he with he | he
    · rcases hadd.only _ _ he with he | he
      · obtain ⟨id, o, ho, hn⟩ := hd.logged n e he
        exact ⟨id, o, hadd₂.old _ _ (hadd.old _ _ ho), hn⟩
      · refine ⟨_, _, houtbox, ?_⟩
        simp only [List.mem_cons, Row.event.injEq, reduceCtorEq, List.not_mem_nil, or_false] at he
        rw [← RowKey.event.inj hkey, he]
        rfl
    · cases List.mem_singleton.mp he
  · rcases hadd₂.only _ _ ho with ho | ho
    · rcases hadd.only _ _ ho with ho | ho
      · have hj := hd.joined id o ho
        obtain ⟨r, hr⟩ := Option.ne_none_iff_exists'.mp hj
        rw [hadd₂.old _ _ (hadd.old _ _ hr)]
        exact Option.some_ne_none r
      · simp at ho
    · cases List.mem_singleton.mp ho
      exact fun hnone => by simp [Row.id, Draft.event, hnone] at hevent

lemma relay_wp_appendAll {drafts : List Draft} (hd : Drafting s (own .main)) :
    RelayWp pid i (Webhooks.appendAll drafts) (fun _ _ _ _ => True) own s h := by
  induction drafts generalizing own s h with
  | nil => exact relay_wp_publish hd.committable
  | cons draft rest ih => exact wp_bind (wp_mono (relay_wp_append hd) (fun _ _ _ _ hd => ih hd))

end Appends

section Endpoints

variable {pid : Nat} {i : Webhooks.Request} {own : Conn → Table Row.id} {s : Table Row.id} {h : List RelayEvent}

lemma newRows_empty (s : Table Row.id) : NewRows s .empty := fun _ hk => absurd rfl hk

lemma relay_wp_create {id : Uuid} {secret url : String} {eventTypes : List String} (hside : own .side = .empty) :
    RelayWp pid i (Webhooks.create id secret url eventTypes) (fun _ _ _ _ => True) own s h := by
  unfold Webhooks.create
  split
  · exact wp_throw
  · refine wp_bind (wp_adapt (wp_bind (wp_mono (relay_wp_add rfl (by rw [hside]; exact newRows_empty s))
      (fun _ own₁ s h ⟨seen, t, hown, hadd, _⟩ => ?_))))
    refine wp_mono (relay_wp_publish ?_) (fun _ _ _ _ _ => wp_pure trivial)
    rw [hown, Function.update_self]
    refine committable_of_plain (fun k r hk => ?_)
    rcases hadd.only k r hk with hk | hr
    · rw [hside] at hk
      cases hk
    · cases List.mem_singleton.mp hr
      exact ⟨fun _ he => (nomatch he), fun _ he => (nomatch he)⟩

/-- Only endpoints are held. -/
def EndpointsOnly (t : Table Row.id) : Prop := ∀ k r, t.find? k = some r → ∃ w, r = .endpoint w

lemma EndpointsOnly.committable {t : Table Row.id} (ht : EndpointsOnly t) : Committable s h t := by
  refine committable_of_plain (fun k r hk => ?_)
  obtain ⟨w, rfl⟩ := ht k r hk
  exact ⟨fun _ he => (nomatch he), fun _ he => (nomatch he)⟩

lemma relay_wp_remove {id : Uuid} (hside : own .side = .empty) :
    RelayWp pid i (Webhooks.remove id) (fun _ _ _ _ => True) own s h := by
  refine wp_bind (wp_adapt (wp_mono (wp_change (A := fun _ _ => True)
    (Q := fun _ own _ _ => EndpointsOnly (own .side))
    (fun _ _ _ t _ _ => EndpointsOnly t) trivial (fun _ _ _ _ _ _ _ _ => trivial)
    (fun _ _ _ _ _ _ _ _ _ _ _ hl => hl) (fun s h _ _ _ => ?_) (fun seen pending done t s h j r hl _ _ _ hc _ => ?_)
    (fun _ _ _ _ _ _ _ hl _ _ _ => hl) (fun _ _ _ _ _ _ hl _ _ => ?_)) (fun updated own₁ s h ho => ?_)))
  · refine ⟨trivial, fun k r hk => ?_⟩
    rw [hside] at hk
    cases hk
  · refine ⟨trivial, fun k r' hk => ?_⟩
    rw [Table.find?_put] at hk
    split at hk
    · cases hk
      cases r with
      | endpoint w => exact ⟨_, rfl⟩
      | _ => cases hc
    · exact hl k r' hk
  · rwa [Function.update_self]
  · refine wp_bind (wp_adapt (wp_mono (relay_wp_publish ho.committable) (fun _ _ _ _ _ => ?_)))
    cases updated.isEmpty with
    | true => exact wp_bind wp_throw
    | false => exact wp_bind (wp_pure (wp_pure trivial))

end Endpoints

section Passes

variable {pid : Nat} {i : Webhooks.Request} {own : Conn → Table Row.id} {s : Table Row.id} {h : List RelayEvent}
  {now : Timestamp}

/-- What a pass holds: versions of outbox rows and nothing else. -/
structure Locks (s : Table Row.id) (h : List RelayEvent) (t : Table Row.id) : Prop where
  committable : Committable s h t
  outbox : ∀ k r, t.find? k = some r → ∃ o, r = .outbox o

/-- The rest of a batch: still locked, and as it was selected. -/
def Waiting (s t : Table Row.id) (rest : List (OutboxEntry × StoredEvent)) : Prop :=
  ∀ p ∈ rest, s.find? (.outbox p.1.id) = some (.outbox p.1) ∧ p.1.deliveredAt = none ∧
    s.find? (.event p.1.eventSequence) = some (.event p.2) ∧ t.find? (.outbox p.1.id) ≠ none

/-- What the history shows of a pass: the rows it has locked and how often the sink has run. -/
def PassShows (pid : Nat) (all : List OutboxEntry) (n : Nat) (h : List RelayEvent) : Prop :=
  h.filterMap (lockedBy pid) = all ∧ h.countP (sinkRun pid) = n

/-- A pass between two rows of its batch. -/
structure Draining (pid : Nat) (all : List OutboxEntry) (n : Nat) (rest : List (OutboxEntry × StoredEvent))
    (t s : Table Row.id) (h : List RelayEvent) : Prop where
  locks : Locks s h t
  waiting : Waiting s t rest
  counted : PassShows pid all n h

lemma PassShows.append {all : List OutboxEntry} {n : Nat} (hc : PassShows pid all n h) {ev : RelayEvent}
    (hl : lockedBy pid ev = none) (hs : sinkRun pid ev = false) : PassShows pid all n (h ++ [ev]) := by
  refine ⟨?_, ?_⟩
  · rw [List.filterMap_append, hc.1, List.filterMap_cons_none hl, List.filterMap_nil, List.append_nil]
  · rw [List.countP_append, hc.2, List.countP_singleton, hs, if_neg Bool.false_ne_true, Nat.add_zero]

lemma counted_other {ev : RelayEvent} (hne : ev.pid ≠ pid) : lockedBy pid ev = none ∧ sinkRun pid ev = false := by
  cases ev with
  | arrive q i => exact ⟨rfl, rfl⟩
  | did q i n =>
    have hq : q ≠ pid := hne
    cases n with
    | took d r =>
      refine ⟨?_, rfl⟩
      cases d with
      | side => rfl
      | main =>
        cases r with
        | outbox o => simp [lockedBy, hq]
        | _ => rfl
    | snap d kind seen =>
      refine ⟨rfl, ?_⟩
      cases d with
      | main => rfl
      | side =>
        cases kind with
        | insert => simp [sinkRun, hq]
        | _ => rfl
    | _ => exact ⟨rfl, rfl⟩

lemma Locks.mono {s' t : Table Row.id} {h' : List RelayEvent} (hl : Locks s h t) (hs : RelayKept s s')
    (hp : h <+: h') (hframe : ∀ k, t.find? k ≠ none → s'.find? k = s.find? k) : Locks s' h' t :=
  ⟨hl.committable.mono hs hp hframe, hl.outbox⟩

lemma Waiting.mono {s' t : Table Row.id} {rest : List (OutboxEntry × StoredEvent)} (hw : Waiting s t rest)
    (hs : RelayKept s s') (hframe : ∀ k, t.find? k ≠ none → s'.find? k = s.find? k) : Waiting s' t rest := by
  intro p hp
  obtain ⟨ho, hd, he, ht⟩ := hw p hp
  exact ⟨(hframe _ ht).trans ho, hd, hs.events _ _ he, ht⟩

lemma draining_stable {all : List OutboxEntry} {n : Nat} {rest : List (OutboxEntry × StoredEvent)}
    {own : Conn → Table Row.id} :
    Stable RelayInv RelayStep pid own (fun s h => Draining pid all n rest (own .main) s h) := by
  rintro s h ev hne - hE hframe ⟨hl, hw, hc⟩
  exact ⟨hl.mono hE.kept (List.prefix_append _ _) (hframe .main), hw.mono hE.kept (hframe .main),
    hc.append (counted_other hne).1 (counted_other hne).2⟩

/-- A version of a locked row takes the place of the one before. -/
lemma Locks.put {t : Table Row.id} {o : OutboxEntry} (hl : Locks s h t)
    (ho : Held s h (.outbox o.id) (.outbox o)) (he : s.find? (.event o.eventSequence) ≠ none) :
    Locks s h (t.put (.outbox o)) := by
  have hevent : ∀ n, (t.put (.outbox o)).find? (.event n) = none := by
    intro n
    rw [Table.find?_put, if_neg (fun hk => RowKey.noConfusion hk)]
    cases ht : t.find? (.event n) with
    | none => rfl
    | some r =>
      obtain ⟨o', rfl⟩ := hl.outbox _ _ ht
      cases Table.find?_key ht
  have hrow : ∀ k r, (t.put (.outbox o)).find? k = some r →
      k = .outbox o.id ∧ r = .outbox o ∨ t.find? k = some r := by
    intro k r hk
    rw [Table.find?_put] at hk
    split at hk
    · rename_i hid
      cases hk
      exact .inl ⟨hid.symm, rfl⟩
    · exact .inr hk
  refine ⟨⟨fun k r hk => ?_, fun n e hn => ?_, fun id o' ho' => ?_⟩, fun k r hk => ?_⟩
  · rcases hrow k r hk with ⟨rfl, rfl⟩ | hk
    · exact ho
    · exact hl.committable.held k r hk
  · rw [hevent n] at hn
    cases hn
  · refine merge_find?_ne_none ?_
    rcases hrow _ _ ho' with ⟨-, ho'⟩ | ho'
    · cases ho'
      exact he
    · have hj := hl.committable.joined id o' ho'
      rw [Table.find?_merge] at hj
      cases ht : t.find? (.event o'.eventSequence) with
      | none => rwa [ht, Option.none_or] at hj
      | some r =>
        obtain ⟨o₁, rfl⟩ := hl.outbox _ _ ht
        cases Table.find?_key ht
  · rcases hrow k r hk with ⟨-, rfl⟩ | hk
    · exact ⟨o, rfl⟩
    · exact hl.outbox k r hk

/-- Only deliveries are held. -/
def DeliveriesOnly (t : Table Row.id) : Prop := ∀ k r, t.find? k = some r → ∃ w n, r = .delivery w n

lemma DeliveriesOnly.committable {t : Table Row.id} (ht : DeliveriesOnly t) : Committable s h t := by
  refine committable_of_plain (fun k r hk => ?_)
  obtain ⟨w, n, rfl⟩ := ht k r hk
  exact ⟨fun _ he => (nomatch he), fun _ he => (nomatch he)⟩

lemma mem_fanOut {e : StoredEvent} {rows : List Row} {r : Row} (hr : r ∈ Webhooks.fanOut e rows) :
    ∃ w n, r = .delivery w n := by
  obtain ⟨r', -, he⟩ := List.mem_filterMap.mp hr
  cases r' with
  | endpoint w =>
    simp only [Option.ite_none_right_eq_some, Option.some.injEq] at he
    exact ⟨w.id, e.sequence, he.2.symm⟩
  | _ => cases he

lemma fanOut_mem {e : StoredEvent} {rows : List Row} {w : Endpoint} (hw : .endpoint w ∈ rows)
    (hsub : w.subscribed e.eventType = true) : .delivery w.id e.sequence ∈ Webhooks.fanOut e rows := by
  refine List.mem_filterMap.mpr ⟨_, hw, ?_⟩
  simp [hsub]

/-- What the sink's insert for `o` still owes. -/
def Inserting (pid : Nat) (all : List OutboxEntry) (n : Nat) (rest : List (OutboxEntry × StoredEvent))
    (main : Table Row.id) (o : OutboxEntry) (e : StoredEvent) (seen pending : List Row) (t s : Table Row.id)
    (h : List RelayEvent) : Prop :=
  Draining pid all n rest main s h ∧ DeliveriesOnly t ∧ SinkInsert h o.id seen ∧
    (∀ r ∈ pending, ∃ w n, r = .delivery w n) ∧
    ∀ r ∈ Webhooks.fanOut e seen, r ∈ pending ∨ (s.merge t).find? r.id ≠ none

lemma inserting_stable {all : List OutboxEntry} {n : Nat} {rest : List (OutboxEntry × StoredEvent)} {o : OutboxEntry}
    {e : StoredEvent} {seen pending : List Row} {t : Table Row.id} {own : Conn → Table Row.id} :
    Stable RelayInv RelayStep pid (Function.update own .side t)
      (Inserting pid all n rest (own .main) o e seen pending t) := by
  rintro s h ev hne hI hE hframe ⟨hd, ht, hsink, hpending, hall⟩
  have hd' : Stable RelayInv RelayStep pid (Function.update own .side t)
      (fun s h => Draining pid all n rest (Function.update own .side t .main) s h) := draining_stable
  refine ⟨hd' s h ev hne hI hE hframe hd, ht, hsink.mono (List.prefix_append _ _), hpending,
    fun r hr => (hall r hr).imp_right (fun hs => ?_)⟩
  rw [Table.find?_merge] at hs ⊢
  cases ht' : t.find? r.id with
  | none =>
    rw [ht', Option.none_or] at hs
    exact hE.kept.rows _ hs
  | some r' => simp

/-- One delivery of the sink: either its insert is committed, or nothing of it is left. -/
lemma relay_wp_deliver {all : List OutboxEntry} {n : Nat} {rest : List (OutboxEntry × StoredEvent)} {o : OutboxEntry}
    {e : StoredEvent} (hi : i = .relayOnce now) (hside : own .side = .empty) (hget : all[n]? = some o)
    (hd : Draining pid all n ((o, e) :: rest) (own .main) s h) :
    RelayWp pid i (Script.attempt (Webhooks.deliver e) : ExceptT Failure (Script Row.id) (Except Failure Unit))
      (fun r own' s h => own' = own ∧ Locks s h (own .main) ∧ (r = .ok () →
        Draining pid all (n + 1) ((o, e) :: rest) (own .main) s h ∧ Fanned s h o)) own s h := by
  have hown : Function.update own .side .empty = own := by rw [← hside, Function.update_eq_self]
  refine wp_attempt_execute (B := fun t s h => ∃ seen,
      Inserting pid all (n + 1) ((o, e) :: rest) (own .main) o e seen [] t s h)
    (fun seen pending _ t s h => Inserting pid all (n + 1) ((o, e) :: rest) (own .main) o e seen pending t s h) hd
    draining_stable (fun _ _ _ _ => inserting_stable) (fun t s h ev hne hI hE hf => ?_) (fun s h hd hI _ => ?_)
    (fun seen r pending done t s h hl hI hr _ => ?_) (fun seen r pending done t s h _ hl hI hr => ?_)
    (fun seen done t s h hl hI => ⟨seen, hl⟩) (fun t s h hb hI _ => ?_) (fun f s h hI hl => ?_)
  · rintro ⟨seen, hl⟩
    exact ⟨seen, inserting_stable s h ev hne hI hE hf hl⟩
  · refine ⟨trivial, ⟨hd.locks.mono (.refl s) (List.prefix_append _ _) (fun _ _ => rfl), hd.waiting, ?_⟩, ?_, ?_,
      fun r hr => mem_fanOut hr, fun r hr => .inl hr⟩
    · refine ⟨?_, ?_⟩
      · rw [List.filterMap_append, hd.counted.1]
        exact List.append_nil all
      · rw [List.countP_append, hd.counted.2]
        simp [sinkRun]
    · intro k r hk
      rw [hside] at hk
      cases hk
    · subst hi
      refine ⟨pid, now, h, o, List.prefix_rfl, ?_, rfl⟩
      rw [hd.counted.1, hd.counted.2]
      exact hget
  · obtain ⟨hd, ht, hsink, hpending, hall⟩ := hl
    refine ⟨trivial, ⟨hd.locks.mono (.refl s) (List.prefix_append _ _) (fun _ _ => rfl), hd.waiting,
      hd.counted.append rfl rfl⟩, fun k r' hk => ?_, hsink.mono (List.prefix_append _ _),
      fun r' hr' => hpending r' (by simp [hr']), fun r' hr' => ?_⟩
    · rw [Table.find?_put] at hk
      split at hk
      · cases hk
        exact hpending r (by simp)
      · exact ht k r' hk
    · rw [Table.find?_merge, Table.find?_put]
      by_cases hk : r.id = r'.id
      · rw [if_pos hk]
        exact .inr (by simp)
      · rw [if_neg hk]
        rcases hall r' hr' with hm | hs
        · rcases List.mem_cons.mp hm with rfl | hm
          · exact absurd rfl hk
          · exact .inl hm
        · exact .inr (by rwa [Table.find?_merge] at hs)
  · obtain ⟨hd, ht, hsink, hpending, hall⟩ := hl
    refine ⟨hd, ht, hsink, fun r' hr' => hpending r' (by simp [hr']), fun r' hr' => ?_⟩
    rcases hall r' hr' with hm | hs
    · rcases List.mem_cons.mp hm with rfl | hm
      · exact .inr hr
      · exact .inl hm
    · exact .inr hs
  · obtain ⟨seen, hd, ht, hsink, -, hall⟩ := hb
    have hcommit := ht.committable.commit hI
    have hp : h <+: h ++ [.did pid i (.commit .side t)] := List.prefix_append _ _
    have hframe : ∀ k, (own .main).find? k ≠ none → (s.merge t).find? k = s.find? k := by
      intro k hk
      rw [Table.find?_merge]
      cases htk : t.find? k with
      | none => rfl
      | some r =>
        obtain ⟨w, m, rfl⟩ := ht k r htk
        obtain ⟨r', hr'⟩ := Option.ne_none_iff_exists'.mp hk
        obtain ⟨o', rfl⟩ := hd.locks.outbox k r' hr'
        cases (Table.find?_key htk).trans (Table.find?_key hr').symm
    refine ⟨hcommit, hown, hd.locks.mono hcommit.1 hp hframe, fun _ => ⟨⟨hd.locks.mono hcommit.1 hp hframe,
      hd.waiting.mono hcommit.1 hframe, hd.counted.append rfl rfl⟩, ?_⟩⟩
    obtain ⟨ho, -, he, -⟩ := hd.waiting (o, e) (by simp)
    refine ⟨e, seen, hcommit.1.events _ _ he, hsink.mono hp, fun w hw hsub => ?_⟩
    rcases hall _ (fanOut_mem hw hsub) with hm | hs
    · cases hm
    · exact hs
  · refine ⟨hown, ?_, ?_⟩
    · rcases hl with (hd | ⟨_, _, _, _, hd, -⟩) | ⟨_, _, hd, -⟩
      · exact hd.locks
      · exact hd.locks
      · exact hd.locks
    · intro hok
      cases hok

lemma draining_update {all : List OutboxEntry} {n : Nat} {rest : List (OutboxEntry × StoredEvent)}
    {own : Conn → Table Row.id} {t : Table Row.id} :
    Stable RelayInv RelayStep pid (Function.update own .main t) (fun s h => Draining pid all n rest t s h) := by
  have hs : Stable RelayInv RelayStep pid (Function.update own .main t)
      (fun s h => Draining pid all n rest (Function.update own .main t .main) s h) := draining_stable
  simpa only [Function.update_self] using hs

lemma put_find?_ne_none {t : Table Row.id} {k : RowKey} (hk : t.find? k ≠ none) (r : Row) :
    (t.put r).find? k ≠ none := by
  rw [Table.find?_put]
  split
  · simp
  · exact hk

/-- The mark of a row that is fanned out. -/
lemma relay_wp_mark {all : List OutboxEntry} {n : Nat} {rest : List (OutboxEntry × StoredEvent)} {o : OutboxEntry}
    {e : StoredEvent} (hd : Draining pid all n ((o, e) :: rest) (own .main) s h) (hf : Fanned s h o) :
    RelayWp pid i (Script.change .main (Webhooks.markDelivered now o.id))
      (fun _ own' s h => own' .side = own .side ∧ Draining pid all n rest (own' .main) s h) own s h := by
  refine wp_change (A := fun s h => Draining pid all n ((o, e) :: rest) (own .main) s h ∧ Fanned s h o)
    (fun _ _ _ t s h => Draining pid all n ((o, e) :: rest) t s h ∧ Fanned s h o) ⟨hd, hf⟩
    (fun s h ev hne hI hE hframe hl => ?_) (fun seen pending done t s h ev hne hI hE hframe hl => ?_)
    (fun s h hl hI _ => ?_) (fun seen pending done t s h j r hl hI hj hr hc _ => ?_)
    (fun _ _ _ _ _ _ _ hl _ _ _ => hl) (fun _ _ _ t s h hl _ _ => ?_)
  · exact ⟨draining_stable s h ev hne hI hE hframe hl.1, hl.2.mono hE.kept (List.prefix_append _ _)⟩
  · exact ⟨draining_update s h ev hne hI hE hframe hl.1, hl.2.mono hE.kept (List.prefix_append _ _)⟩
  · obtain ⟨⟨hlocks, hw, hcount⟩, hf⟩ := hl
    exact ⟨trivial, ⟨hlocks.mono (.refl s) (List.prefix_append _ _) (fun _ _ => rfl), hw, hcount.append rfl rfl⟩,
      hf.mono (.refl s) (List.prefix_append _ _)⟩
  · obtain ⟨⟨hlocks, hw, hcount⟩, hf⟩ := hl
    obtain ⟨ho, hnone, he, ht⟩ := hw (o, e) (by simp)
    cases r with
    | outbox o' =>
      have hid : o'.id = o.id := of_decide_eq_true hc
      have hkey := Table.find?_key hr
      have hj' : j = .outbox o.id := hkey.symm.trans (congrArg RowKey.outbox hid)
      subst hj'
      obtain ⟨r', hr'⟩ := Option.ne_none_iff_exists'.mp ht
      rw [Table.find?_merge, hr', Option.some_or] at hr
      cases hr
      have hmarked : (⟨o'.id, o'.eventSequence, some now⟩ : OutboxEntry) = { o with deliveredAt := some now } := by
        rcases hlocks.committable.held _ _ hr' with ⟨o₀, ho₀, hsame⟩ | ⟨hgone, -⟩
        · rw [ho] at ho₀
          cases ho₀
          rcases hsame with rfl | ⟨-, -, _, rfl⟩
          · rfl
          · rfl
        · rw [ho] at hgone
          cases hgone
      have hp : h <+: h ++ [.did pid i (.took .main (.outbox { o with deliveredAt := some now }))] :=
        List.prefix_append _ _
      change True ∧ Draining pid all n ((o, e) :: rest) (t.put (.outbox ⟨o'.id, o'.eventSequence, some now⟩)) s
        (h ++ [.did pid i (.took .main (.outbox ⟨o'.id, o'.eventSequence, some now⟩))]) ∧ Fanned s
        (h ++ [.did pid i (.took .main (.outbox ⟨o'.id, o'.eventSequence, some now⟩))]) o
      rw [hmarked]
      refine ⟨trivial, ⟨(hlocks.put ?_ ?_).mono (.refl s) hp (fun _ _ => rfl), fun p hpw => ?_,
        hcount.append (by simp [lockedBy]) rfl⟩, hf.mono (.refl s) hp⟩
      · exact .inl ⟨o, ho, .inr ⟨hnone, hf, now, rfl⟩⟩
      · exact fun hgone => by simp [he] at hgone
      · obtain ⟨ho', hd', he', ht'⟩ := hw p hpw
        exact ⟨ho', hd', he', put_find?_ne_none ht' _⟩
    | _ => cases hc
  · obtain ⟨⟨hlocks, hw, hcount⟩, -⟩ := hl
    rw [Function.update_self]
    exact ⟨Function.update_of_ne (show Conn.side ≠ .main by decide) _ _, hlocks,
      fun p hp => hw p (by simp [hp]), hcount⟩

/-- The loop over a batch whose first `n` rows have been delivered. -/
lemma relay_wp_relayBatch {all : List OutboxEntry} {n : Nat} {rest : List (OutboxEntry × StoredEvent)}
    {delivered : Nat} (hi : i = .relayOnce now) (hside : own .side = .empty) (hrest : all.drop n = rest.map Prod.fst)
    (hd : Draining pid all n rest (own .main) s h) :
    RelayWp pid i (Webhooks.relayBatch now rest delivered) (fun _ own' s h => Locks s h (own' .main)) own s h := by
  induction rest generalizing n own s h delivered with
  | nil => exact wp_pure hd.locks
  | cons p rest ih =>
    obtain ⟨o, e⟩ := p
    have hget : all[n]? = some o := by
      rw [← List.head?_drop, hrest]
      rfl
    refine wp_bind (wp_mono (relay_wp_deliver hi hside hget hd) (fun r own₁ s h hr => ?_))
    obtain ⟨rfl, hlocks, hok⟩ := hr
    cases r with
    | error f => exact wp_pure hlocks
    | ok u =>
      obtain ⟨hd, hf⟩ := hok rfl
      refine wp_bind (wp_mono (relay_wp_mark hd hf) (fun _ own₂ s h ⟨hside₂, hd₂⟩ => ?_))
      refine ih (hside₂.trans hside) ?_ hd₂
      rw [← List.tail_drop, hrest]
      rfl

lemma joinEvent_mem {rows : List Row} {o : OutboxEntry} {e : StoredEvent} (h : Webhooks.joinEvent rows o = some e) :
    .event e ∈ rows ∧ e.sequence = o.eventSequence := by
  obtain ⟨r, hr, he⟩ := List.exists_of_findSome?_eq_some h
  cases r with
  | event e' =>
    simp only [Option.ite_none_right_eq_some, Option.some.injEq] at he
    obtain ⟨hseq, rfl⟩ := he
    exact ⟨hr, hseq⟩
  | _ => cases he

lemma batch_outbox {rows : List Row} {os : List OutboxEntry}
    (h : ∀ o ∈ os, ∃ e, Webhooks.joinEvent rows o = some e) :
    (Webhooks.batch rows (os.map .outbox)).map Prod.fst = os := by
  induction os with
  | nil => rfl
  | cons o rest ih =>
    obtain ⟨e, he⟩ := h o (by simp)
    have hrest := ih (fun o' ho' => h o' (by simp [ho']))
    simp only [Webhooks.batch, List.map_cons, List.filterMap_cons, he, Option.map_some] at hrest ⊢
    rw [hrest]

lemma mem_batch {rows : List Row} {os : List OutboxEntry} {p : OutboxEntry × StoredEvent}
    (h : p ∈ Webhooks.batch rows (os.map .outbox)) : p.1 ∈ os ∧ Webhooks.joinEvent rows p.1 = some p.2 := by
  obtain ⟨r, hr, he⟩ := List.mem_filterMap.mp h
  obtain ⟨o, ho, rfl⟩ := List.mem_map.mp hr
  obtain ⟨e, hjoin, rfl⟩ := Option.map_eq_some_iff.mp he
  exact ⟨ho, hjoin⟩

/-- The rows that a pass has locked so far, on the rows `seen` at first. -/
structure Locking (pid : Nat) (seen done : List Row) (t s : Table Row.id) (h : List RelayEvent) : Prop where
  held : ∀ k r, t.find? k = some r → ∃ o, r = .outbox o ∧ s.find? k = some (.outbox o)
  events : ∀ e, .event e ∈ seen → s.find? (.event e.sequence) = some (.event e)
  done : ∃ os, done = os.map .outbox ∧ PassShows pid os 0 h ∧ ∀ o ∈ os, o.deliveredAt = none ∧
    t.find? (.outbox o.id) = some (.outbox o) ∧ ∃ e, Webhooks.joinEvent seen o = some e

lemma Locking.draining {seen done : List Row} {t : Table Row.id} (hI : RelayInv s h)
    (hl : Locking pid seen done t s h) :
    ∃ all, all = (Webhooks.batch seen done).map Prod.fst ∧ Draining pid all 0 (Webhooks.batch seen done) t s h := by
  obtain ⟨os, rfl, hcount, hos⟩ := hl.done
  have hall := batch_outbox (fun o ho => (hos o ho).2.2)
  have houtbox : ∀ k r, t.find? k = some r → ∃ o, r = .outbox o := by
    intro k r hk
    obtain ⟨o, rfl, -⟩ := hl.held k r hk
    exact ⟨o, rfl⟩
  refine ⟨os, hall.symm, ⟨⟨fun k r hk => ?_, fun n e he => ?_, fun id o ho => ?_⟩, houtbox⟩, fun p hp => ?_, hcount⟩
  · obtain ⟨o, rfl, hs⟩ := hl.held k r hk
    exact .inl ⟨o, hs, .inl rfl⟩
  · obtain ⟨o, ho⟩ := houtbox _ _ he
    cases ho
  · obtain ⟨o', ho', hs⟩ := hl.held _ _ ho
    cases ho'
    exact merge_find?_ne_none (hI.joined id o hs)
  · obtain ⟨hp, hjoin⟩ := mem_batch hp
    obtain ⟨hd, ht, -⟩ := hos p.1 hp
    obtain ⟨o', ho', hs⟩ := hl.held _ _ ht
    cases ho'
    obtain ⟨he, hseq⟩ := joinEvent_mem hjoin
    refine ⟨hs, hd, ?_, by rw [ht]; exact Option.some_ne_none _⟩
    rw [← hseq]
    exact hl.events _ he

lemma relay_wp_relayOnce (hi : i = .relayOnce now) (hempty : ∀ d, own d = .empty) (hcount : PassShows pid [] 0 h) :
    RelayWp pid i (Webhooks.relayOnce now) (fun _ _ _ _ => True) own s h := by
  have hstable : ∀ t own, own .main = t → Stable RelayInv RelayStep pid own (fun s h => PassShows pid [] 0 h) :=
    fun _ _ _ s h ev hne _ _ _ hc => hc.append (counted_other hne).1 (counted_other hne).2
  refine wp_bind (wp_mono (wp_lock (Q := fun p own' s h => own' .side = .empty ∧
      Locking pid p.1 p.2 (own' .main) s h ∧ RelayInv s h)
    (fun seen _ done t s h => Locking pid seen done t s h) hcount (hstable _ own rfl)
    (fun seen pending done t s h ev hne _ hE hframe hl => ?_) (fun s h hc hI _ => ?_)
    (fun seen pending done t s h j r hl _ hj hr hc _ => ?_) (fun _ _ _ _ _ _ _ hl _ _ _ => hl)
    (fun seen pending done t s h hl hI _ => ?_)) (fun p own₁ s h ⟨hside, hl, hI⟩ => ?_))
  · obtain ⟨hheld, hevents, os, hdone, hcount, hos⟩ := hl
    refine ⟨fun k r hk => ?_, fun e he => hE.kept.events _ _ (hevents e he), os, hdone,
      hcount.append (counted_other hne).1 (counted_other hne).2, hos⟩
    obtain ⟨o, rfl, hs⟩ := hheld k r hk
    have hsame := hframe .main k (by rw [Function.update_self, hk]; exact Option.some_ne_none _)
    exact ⟨o, rfl, hsame.trans hs⟩
  · rw [hempty, Table.merge_empty]
    refine ⟨trivial, fun k r hk => ?_, fun e he => ?_, [], rfl, hc.append rfl rfl, fun o ho => ?_⟩
    · cases hk
    · exact Table.find?_of_mem he
    · cases ho
  · obtain ⟨hheld, hevents, os, rfl, hcount, hos⟩ := hl
    cases r with
    | outbox o =>
      have hkey := Table.find?_key hr
      subst hkey
      obtain ⟨hd, hjoin⟩ := Bool.and_eq_true_iff.mp hc
      have hnone : o.deliveredAt = none := Option.isNone_iff_eq_none.mp hd
      obtain ⟨e, he⟩ := Option.isSome_iff_exists.mp hjoin
      have hs : s.find? (.outbox o.id) = some (.outbox o) := by
        rw [Table.find?_merge] at hr
        cases ht : t.find? (Row.outbox o).id with
        | none => rwa [ht, Option.none_or] at hr
        | some r' =>
          rw [ht, Option.some_or] at hr
          cases hr
          obtain ⟨o', ho', hs⟩ := hheld _ _ ht
          cases ho'
          exact hs
      refine ⟨trivial, fun k r' hk => ?_, hevents, os ++ [o], by simp [Webhooks.undelivered], ?_, fun o' ho' => ?_⟩
      · rw [Table.find?_put] at hk
        split at hk
        · rename_i hid
          cases hk
          exact ⟨o, rfl, hid ▸ hs⟩
        · exact hheld k r' hk
      · refine ⟨?_, ?_⟩
        · rw [List.filterMap_append, hcount.1]
          simp [lockedBy, Webhooks.undelivered, hnone]
        · rw [List.countP_append, hcount.2]
          rfl
      · rcases List.mem_append.mp ho' with ho' | ho'
        · obtain ⟨hd', ht', hj'⟩ := hos o' ho'
          refine ⟨hd', ?_, hj'⟩
          rw [Table.find?_put]
          split
          · rename_i hid
            obtain ⟨o₁, ho₁, hs₁⟩ := hheld _ _ ht'
            cases ho₁
            have hid' : RowKey.outbox o.id = .outbox o'.id := hid
            rw [← hid', hs] at hs₁
            exact hs₁
          · exact ht'
        · cases List.mem_singleton.mp ho'
          exact ⟨hnone, by rw [Table.find?_put]; exact if_pos rfl, e, he⟩
    | _ => cases hc
  · exact ⟨by rw [Function.update_of_ne (show Conn.side ≠ .main by decide), hempty],
      by rwa [Function.update_self], hI⟩
  · obtain ⟨all, hall, hd⟩ := hl.draining hI
    refine wp_bind (wp_mono (relay_wp_relayBatch hi hside (show all.drop 0 = _ from hall) hd)
      (fun delivered own₂ s h hlocks => ?_))
    exact wp_bind (wp_mono (relay_wp_publish hlocks.committable) (fun _ _ _ _ _ => wp_pure trivial))

/-- Every request keeps to its part. -/
theorem webhooks_protocol :
    ReadCommitted.Protocol Webhooks.webhooks RelayInv (fun _ _ _ => True) RelayStep := by
  refine ⟨fun s h ev hI hE => hE.step hI, fun _ _ _ _ _ => trivial, fun s h i hI hfresh => ?_⟩
  have hsafe : ∀ {ε α : Type} {x : ExceptT ε (Script Row.id) α} {f : ε → Webhooks.Error} {g : α → Webhooks.Response},
      RelayWp h.length i x (fun _ _ _ _ => True) (fun _ => .empty) s (h ++ [.arrive h.length i]) →
      Safe RelayInv (fun _ _ _ => True) RelayStep h.length i
        ⟨fun _ => .empty, .ready (ExceptT.run (ExceptT.adapt f (g <$> x)))⟩ s (h ++ [.arrive h.length i]) :=
    fun hx => safe_of_wp (Q := fun _ _ _ _ => True) (wp_adapt (wp_map hx)) (fun _ _ _ _ _ _ _ _ _ _ => trivial)
      (fun _ _ _ _ _ => trivial) (fun _ _ _ _ _ _ _ => trivial)
  cases i with
  | append drafts =>
    refine hsafe (relay_wp_appendAll ⟨newRows_empty s, fun id o ho => ?_, fun n e he => ?_, fun id o ho => ?_⟩)
    · cases ho
    · cases he
    · cases ho
  | relayOnce now =>
    refine hsafe (relay_wp_relayOnce rfl (fun _ => rfl) ?_)
    have hother : ∀ ev ∈ h, lockedBy h.length ev = none ∧ sinkRun h.length ev = false :=
      fun ev hev => counted_other (hfresh ev hev)
    refine ⟨?_, ?_⟩
    · rw [List.filterMap_eq_nil_iff]
      intro ev hev
      rcases List.mem_append.mp hev with hev | hev
      · exact (hother ev hev).1
      · cases List.mem_singleton.mp hev
        rfl
    · rw [List.countP_eq_zero]
      intro ev hev
      rcases List.mem_append.mp hev with hev | hev
      · simp [(hother ev hev).2]
      · cases List.mem_singleton.mp hev
        simp [sinkRun]
  | create id secret url eventTypes => exact hsafe (relay_wp_create rfl)
  | remove id => exact hsafe (relay_wp_remove rfl)

/-- A database before any pass of a relay: every event with its outbox row and the other way
round, nothing delivered. -/
structure Unrelayed (s : Table Row.id) : Prop where
  logged : ∀ n e, s.find? (.event n) = some (.event e) →
    ∃ id o, s.find? (.outbox id) = some (.outbox o) ∧ o.eventSequence = n
  joined : ∀ id o, s.find? (.outbox id) = some (.outbox o) → s.find? (.event o.eventSequence) ≠ none
  undelivered : ∀ id o, s.find? (.outbox id) = some (.outbox o) → o.deliveredAt = none

lemma Unrelayed.inv (hs : Unrelayed s) : RelayInv s [] :=
  ⟨hs.logged, hs.joined, fun id o ho hd => absurd (hs.undelivered id o ho) hd⟩

lemma joinEvent_isSome {o : OutboxEntry} {e : StoredEvent}
    (he : s.find? (.event o.eventSequence) = some (.event e)) : (Webhooks.joinEvent s.rows o).isSome = true := by
  obtain ⟨hmem, hkey⟩ := Table.find?_eq_some.mp he
  have hseq : e.sequence = o.eventSequence := RowKey.event.inj hkey
  refine List.findSome?_isSome_iff.mpr ⟨_, hmem, ?_⟩
  simp [hseq]

/-- A pass goes through every undelivered row. -/
lemma RelayInv.selected (hI : RelayInv s h) {id : Nat} {o : OutboxEntry}
    (ho : s.find? (.outbox id) = some (.outbox o)) (hd : o.deliveredAt = none) :
    .outbox id ∈ Webhooks.undelivered.visit s.rows := by
  obtain ⟨r, hr⟩ := Option.ne_none_iff_exists'.mp (hI.joined id o ho)
  obtain ⟨e, rfl, -⟩ := find?_event hr
  obtain ⟨hmem, hkey⟩ := Table.find?_eq_some.mp ho
  refine List.mem_map.mpr ⟨.outbox o, ?_, hkey⟩
  refine (List.mem_insertionSort _).mpr (List.mem_filter.mpr ⟨hmem, ?_⟩)
  exact Bool.and_eq_true_iff.mpr ⟨Option.isNone_iff_eq_none.mpr hd, joinEvent_isSome hr⟩

/-- However passes of relays, appends and changes of the endpoints interleave, and wherever they
are lost: a row is delivered only with a delivery for every endpoint the sink's insert saw, no
delivery is there twice, and what is not delivered yet is selected by every later pass. -/
theorem relay_loses_nothing {s₀ : Table Row.id} {c c' : RelayConf} (h₀ : Unrelayed s₀)
    (hc : ReadCommitted.Reachable Webhooks.webhooks (ReadCommitted.init s₀) c)
    (hc' : ReadCommitted.Reachable Webhooks.webhooks c c') :
    (∀ id o, c.store.find? (.outbox id) = some (.outbox o) → o.deliveredAt ≠ none →
      ∃ e seen, c.store.find? (.event o.eventSequence) = some (.event e) ∧ SinkInsert c.trace o.id seen ∧
        ∀ w, .endpoint w ∈ seen → w.subscribed e.eventType = true → .delivery w.id e.sequence ∈ c'.store.rows) ∧
    (∀ w n, (c.store.rows.filter (fun r => decide (r = .delivery w n))).length ≤ 1) ∧
    (∀ n e, c.store.find? (.event n) = some (.event e) →
      ∃ id o, c.store.find? (.outbox id) = some (.outbox o) ∧ o.eventSequence = n) ∧
    ∀ id o, c.store.find? (.outbox id) = some (.outbox o) →
      ∃ o', c'.store.find? (.outbox id) = some (.outbox o') ∧ o'.eventSequence = o.eventSequence ∧
        (o'.deliveredAt ≠ none ∨ .outbox id ∈ Webhooks.undelivered.visit c'.store.rows) := by
  have hI := (webhooks_protocol.invariant h₀.inv hc).1
  have hI' := (webhooks_protocol.invariant h₀.inv (hc.trans hc')).1
  have hkept : RelayKept c.store c'.store :=
    webhooks_protocol.store_related h₀.inv .refl .trans (fun _ _ _ _ hE => RelayStep.kept hE) hc hc'
  refine ⟨fun id o ho hd => ?_, fun w n => ?_, hI.logged, fun id o ho => ?_⟩
  · obtain ⟨e, seen, he, hsink, hall⟩ := hI.fanned id o ho hd
    refine ⟨e, seen, he, hsink, fun w hw hsub => ?_⟩
    obtain ⟨r, hr⟩ := Option.ne_none_iff_exists'.mp (hkept.rows _ (hall w hw hsub))
    obtain ⟨hmem, hkey⟩ := Table.find?_eq_some.mp hr
    cases r with
    | delivery w' n' =>
      cases hkey
      exact hmem
    | _ => cases hkey
  · have hnodup : c.store.rows.Nodup := List.Nodup.of_map _ c.store.nodup
    have hcount := List.nodup_iff_count_le_one.mp hnodup (.delivery w n)
    rwa [List.count_eq_countP, List.countP_eq_length_filter] at hcount
  · obtain ⟨o', ho', hsame⟩ := hkept.outbox id o ho
    refine ⟨o', ho', ?_, ?_⟩
    · rcases hsame with rfl | ⟨-, now, rfl⟩
      · rfl
      · rfl
    · by_cases hd : o'.deliveredAt = none
      · exact .inr (hI'.selected ho' hd)
      · exact .inl hd

end Passes

section Harbour

/-- An endpoint is registered and an event appended; the first pass is lost between the sink's
delivery and its own commit, the second goes through. -/
def relayCrashes : List (ReadCommitted.Act Webhooks.Request RowKey) :=
  [.arrive (.create 7 "whsec" "https://harbour" ["OrderPaid"]), .move 0 .step, .move 0 (.row (.endpoint 7)),
    .move 0 .finish, .move 0 .step, .move 0 .step,
    .arrive (.append [⟨3, "OrderPaid", "{}", 1, 1, 0⟩]), .move 5 .step, .move 5 (.row (.event 1)),
    .move 5 (.row (.position 3 1)), .move 5 .finish, .move 5 .step, .move 5 (.row (.outbox 1)), .move 5 .finish,
    .move 5 .step, .move 5 .step,
    .arrive (.relayOnce 10), .move 13 .step, .move 13 (.row (.outbox 1)), .move 13 .finish, .move 13 .step,
    .move 13 (.row (.delivery 7 1)), .move 13 .finish, .move 13 .step, .crash 13,
    .arrive (.relayOnce 20), .move 19 .step, .move 19 (.row (.outbox 1)), .move 19 .finish, .move 19 .step,
    .move 19 (.row (.delivery 7 1)), .move 19 .finish, .move 19 .step, .move 19 .step,
    .move 19 (.row (.outbox 1)), .move 19 .finish, .move 19 .step, .move 19 .step]

lemma unrelayed_empty : Unrelayed .empty :=
  ⟨fun _ _ h => (nomatch h), fun _ _ h => (nomatch h), fun _ _ h => (nomatch h)⟩

theorem relay_loses_nothing_harbour : ∃ c : RelayConf,
    ReadCommitted.Reachable Webhooks.webhooks (ReadCommitted.init .empty) c ∧
    c.store.find? (.outbox 1) = some (.outbox ⟨1, 1, some 20⟩) ∧
    ∃ e seen, c.store.find? (.event 1) = some (.event e) ∧ SinkInsert c.trace 1 seen ∧
      ∀ w, .endpoint w ∈ seen → w.subscribed e.eventType = true → .delivery w.id e.sequence ∈ c.store.rows := by
  have hrun : (ReadCommitted.exec Webhooks.webhooks (ReadCommitted.init .empty) relayCrashes).map
      (fun c => c.store.find? (.outbox 1)) = some (some (.outbox ⟨1, 1, some 20⟩)) := by
    decide
  obtain ⟨c, hexec, hrow⟩ := Option.map_eq_some_iff.mp hrun
  have hc := reachable_of_exec hexec
  exact ⟨c, hc, hrow, (relay_loses_nothing unrelayed_empty hc .refl).1 1 _ hrow (Option.some_ne_none _)⟩

end Harbour

end Lulan.Proofs
