import Lulan.Api.FareRules

/-!
# One active ruleset

A ruleset is made active by first deactivating whatever is active. Under READ COMMITTED
the deactivating `UPDATE` cannot see a ruleset that is committed after it began. As long as
no transaction is overtaken in this way, exactly one ruleset is active after the first
commit: the one of the transaction that committed last.
-/

namespace Lulan.Proofs

open Lib Lib.ReadCommitted

abbrev RulesEvent : Type := ReadCommitted.Ev FareRulesRequest FareRulesRow.id (Except ApiError Uuid)

abbrev RulesConf : Type := ReadCommitted.Conf FareRulesRequest FareRulesRow.id (Except ApiError Uuid)

abbrev RulesScript : Type := Script FareRulesRow.id (Except ApiError Uuid)

/-- The request whose transaction an event commits. -/
def enacts : RulesEvent → Option FareRulesRequest
  | .did _ i (.commit .main _) => some i
  | _ => none

/-- The last transaction to commit, with what happened before and after it. -/
def lastEnacted : List RulesEvent → Option (List RulesEvent × FareRulesRequest × List RulesEvent)
  | [] => none
  | ev :: rest =>
    match lastEnacted rest with
    | some (g, i, g') => some (ev :: g, i, g')
    | none => (enacts ev).map (fun i => ([], i, rest))

/-- The ruleset made active last. -/
def inForce (s : Table FareRulesRow.id) (h : List RulesEvent) : Option Uuid :=
  match lastEnacted h with
  | some (_, i, _) => some i.target
  | none => (s.select FareRulesRow.active).head?.map FareRulesRow.id

/-- An `UPDATE` of the request has looked at the table; its first is the deactivating one. -/
def begins (pid : Nat) : RulesEvent → Bool
  | .did q _ (.snap .main .update _) => decide (q = pid)
  | _ => false

/-- The request has written the ruleset `k`. -/
def reaches (pid : Nat) (k : Uuid) : RulesEvent → Bool
  | .did q _ (.took .main r) => decide (q = pid) && decide (r.id = k)
  | _ => false

/-- Another transaction has committed since the request began to deactivate. -/
def overtaken (pid : Nat) (h : List RulesEvent) : Bool :=
  match lastEnacted h with
  | some (g, _, _) => g.any (begins pid)
  | none => false

/-- A transaction commits only if none has overtaken it, or the last one that has made the
same ruleset active, or one that this transaction has still come to. -/
def unmissed (h : List RulesEvent) : RulesEvent → Bool
  | .did pid i (.commit .main _) =>
    match lastEnacted h with
    | some (g, j, g') => !g.any (begins pid) || decide (j.target = i.target) || g'.any (reaches pid j.target)
    | none => true
  | _ => true

def Unmissed (_ : Table FareRulesRow.id) (h : List RulesEvent) (ev : RulesEvent) : Prop := unmissed h ev = true

instance (s : Table FareRulesRow.id) (h : List RulesEvent) (ev : RulesEvent) : Decidable (Unmissed s h ev) :=
  inferInstanceAs (Decidable (unmissed h ev = true))

lemma lastEnacted_commit {ev : RulesEvent} {i : FareRulesRequest} (h : List RulesEvent) (he : enacts ev = some i) :
    lastEnacted (h ++ [ev]) = some (h, i, []) := by
  induction h with
  | nil => simp [lastEnacted, he]
  | cons ev' rest ih => simp [lastEnacted, ih]

lemma lastEnacted_quiet {ev : RulesEvent} (h : List RulesEvent) (he : enacts ev = none) :
    lastEnacted (h ++ [ev]) = (lastEnacted h).map (fun x => (x.1, x.2.1, x.2.2 ++ [ev])) := by
  induction h with
  | nil => simp [lastEnacted, he]
  | cons ev' rest ih =>
    rw [List.cons_append, lastEnacted, ih, lastEnacted]
    cases lastEnacted rest with
    | none => cases enacts ev' <;> simp
    | some x => simp

lemma lastEnacted_mem {h g g' : List RulesEvent} {i : FareRulesRequest} (he : lastEnacted h = some (g, i, g')) :
    ∀ ev ∈ g', ev ∈ h := by
  induction h generalizing g with
  | nil => simp [lastEnacted] at he
  | cons ev rest ih =>
    rw [lastEnacted] at he
    split at he
    · rename_i g₁ j g₂ hrest
      cases he
      exact fun ev' hev => List.mem_cons_of_mem ev (ih hrest ev' hev)
    · obtain ⟨j, -, hj⟩ := Option.map_eq_some_iff.mp he
      cases hj
      exact fun ev' hev => List.mem_cons_of_mem ev hev

lemma inForce_commit {s : Table FareRulesRow.id} {ev : RulesEvent} {i : FareRulesRequest} (h : List RulesEvent)
    (he : enacts ev = some i) : inForce s (h ++ [ev]) = some i.target := by
  rw [inForce, lastEnacted_commit h he]

lemma inForce_quiet {s : Table FareRulesRow.id} {ev : RulesEvent} (h : List RulesEvent) (he : enacts ev = none) :
    inForce s (h ++ [ev]) = inForce s h := by
  rw [inForce, inForce, lastEnacted_quiet h he]
  cases lastEnacted h <;> rfl

lemma overtaken_commit {pid : Nat} {ev : RulesEvent} {i : FareRulesRequest} {h : List RulesEvent}
    (he : enacts ev = some i) (hb : h.any (begins pid) = true) : overtaken pid (h ++ [ev]) = true := by
  rwa [overtaken, lastEnacted_commit h he]

lemma overtaken_quiet {pid : Nat} {ev : RulesEvent} (h : List RulesEvent) (he : enacts ev = none) :
    overtaken pid (h ++ [ev]) = overtaken pid h := by
  rw [overtaken, overtaken, lastEnacted_quiet h he]
  cases lastEnacted h <;> rfl

/-- The ruleset `k` is active in a table. -/
def ActiveIn (s : Table FareRulesRow.id) (k : Uuid) : Prop := ∃ r, s.find? k = some r ∧ r.active = true

/-- The active rulesets are those in force. -/
def OneActive (s₀ : Table FareRulesRow.id) (s : Table FareRulesRow.id) (h : List RulesEvent) : Prop :=
  ∀ k, ActiveIn s k ↔ inForce s₀ h = some k

/-- What a transaction commits: its own ruleset active and the one in force not. -/
def Enacts (s₀ : Table FareRulesRow.id) (_ : Table FareRulesRow.id) (h : List RulesEvent) : RulesEvent → Prop
  | .did _ i (.commit d rows) => d = .main ∧ ActiveIn rows i.target ∧
      (∀ k, ActiveIn rows k → k = i.target) ∧ ∀ k, inForce s₀ h = some k → k ≠ i.target → rows.find? k ≠ none
  | _ => True

lemma Enacts.step {s₀ s : Table FareRulesRow.id} {h : List RulesEvent} {ev : RulesEvent} (hI : OneActive s₀ s h)
    (hE : Enacts s₀ s h ev) : OneActive s₀ (ev.store s) (h ++ [ev]) := by
  have hquiet : enacts ev = none → ev.store s = s → OneActive s₀ (ev.store s) (h ++ [ev]) := by
    intro he hs k
    rw [hs, inForce_quiet h he]
    exact hI k
  cases ev with
  | arrive pid i => exact hquiet rfl rfl
  | did pid i n =>
    cases n with
    | commit d rows =>
      obtain ⟨rfl, hown, hothers, hold⟩ := hE
      intro k
      have he : enacts (.did pid i (.commit .main rows)) = some i := rfl
      have hfind : ∀ k, ((.did pid i (.commit .main rows) : RulesEvent).store s).find? k =
          (rows.find? k).or (s.find? k) := fun k => Table.find?_merge s rows k
      rw [inForce_commit h he]
      constructor
      · rintro ⟨r, hr, hactive⟩
        rw [hfind] at hr
        cases hrow : rows.find? k with
        | some r' =>
          rw [hrow, Option.some_or] at hr
          cases hr
          exact congrArg some (hothers k ⟨r, hrow, hactive⟩).symm
        | none =>
          rw [hrow, Option.none_or] at hr
          by_contra hne
          exact hold k ((hI k).mp ⟨r, hr, hactive⟩) (fun hk => hne (congrArg some hk.symm)) hrow
      · intro hk
        obtain ⟨r, hr, hactive⟩ := hown
        cases hk
        exact ⟨r, by rw [hfind, hr, Option.some_or], hactive⟩
    | _ => exact hquiet rfl rfl

/-- What a transaction has achieved since its deactivating `UPDATE` began: unless it has been
overtaken, the ruleset in force is written or among the rows still to come. -/
structure Caught (s₀ : Table FareRulesRow.id) (pid : Nat) (i : FareRulesRequest) (t : Table FareRulesRow.id)
    (h : List RulesEvent) (pending : List Uuid) : Prop where
  begun : h.any (begins pid) = true
  written : ∀ k, h.any (reaches pid k) = true → t.find? k ≠ none
  active : ∀ k, ActiveIn t k → k = i.target
  caught : overtaken pid h = true ∨ ∀ k, inForce s₀ h = some k → t.find? k ≠ none ∨ k ∈ pending

section Caught

variable {s₀ : Table FareRulesRow.id} {pid : Nat} {i : FareRulesRequest} {t : Table FareRulesRow.id}
  {h : List RulesEvent} {pending : List Uuid}

/-- Any event that is not a row written by the request leaves it where it is. -/
lemma Caught.concat {ev : RulesEvent} (hc : Caught s₀ pid i t h pending) (hr : ∀ k, reaches pid k ev = false) :
    Caught s₀ pid i t (h ++ [ev]) pending := by
  refine ⟨by simp [hc.begun], fun k hk => hc.written k (by simpa [hr] using hk), hc.active, ?_⟩
  cases he : enacts ev with
  | some j => exact .inl (overtaken_commit he hc.begun)
  | none =>
    rw [overtaken_quiet h he, inForce_quiet h he]
    exact hc.caught

lemma reaches_other {ev : RulesEvent} (hne : ev.pid ≠ pid) (k : Uuid) : reaches pid k ev = false := by
  unfold reaches
  split
  · rename_i q j r
    have hq : q ≠ pid := hne
    simp [hq]
  · rfl

lemma Caught.stable {I : Table FareRulesRow.id → List RulesEvent → Prop}
    {E : Table FareRulesRow.id → List RulesEvent → RulesEvent → Prop} {own : Conn → Table FareRulesRow.id} :
    Stable I E pid own (fun _ h => Caught s₀ pid i t h pending) :=
  fun _ _ _ hne _ _ _ hc => hc.concat (reaches_other hne)

lemma Caught.took {r : FareRulesRow} (hc : Caught s₀ pid i t h pending) (hr : r.active = true → r.id = i.target) :
    Caught s₀ pid i (t.put r) (h ++ [.did pid i (.took .main r)]) (pending.erase r.id) := by
  refine ⟨by simp [hc.begun], fun k hk => ?_, fun k hk => ?_, ?_⟩
  · rw [Table.find?_put]
    split
    · simp
    · rename_i hne
      exact hc.written k (by simpa [reaches, hne] using hk)
  · obtain ⟨r', hf, ha⟩ := hk
    rw [Table.find?_put] at hf
    split at hf
    · rename_i he
      cases hf
      exact he.symm.trans (hr ha)
    · exact hc.active k ⟨r', hf, ha⟩
  · rw [overtaken_quiet h rfl, inForce_quiet h rfl]
    refine hc.caught.imp id (fun hall k hk => ?_)
    rw [Table.find?_put]
    split
    · simp
    · rename_i hne
      exact (hall k hk).imp id (fun hm => (List.mem_erase_of_ne (fun he => hne he.symm)).mpr hm)

/-- Passing a row by loses nothing: the row in force is active, or written already. -/
lemma Caught.pass {s : Table FareRulesRow.id} {j : Uuid} (hc : Caught s₀ pid i t h pending) (hI : OneActive s₀ s h)
    (hp : ∀ r, (s.merge t).find? j = some r → r.active = false) : Caught s₀ pid i t h (pending.erase j) := by
  refine ⟨hc.begun, hc.written, hc.active, hc.caught.imp id (fun hall k hk => ?_)⟩
  by_cases hkj : k = j
  · subst hkj
    left
    intro hnone
    obtain ⟨r, hr, ha⟩ := (hI k).mpr hk
    have hinactive := hp r (by rw [Table.find?_merge, hnone, Option.none_or, hr])
    rw [ha] at hinactive
    cases hinactive
  · exact (hall k hk).imp id (fun hm => (List.mem_erase_of_ne hkj).mpr hm)

/-- A transaction that is not overtaken, or meets the condition all the same, enacts its ruleset. -/
lemma Caught.enacts {s : Table FareRulesRow.id} (hc : Caught s₀ pid i t h []) (hown : ActiveIn t i.target)
    (hG : Unmissed s h (.did pid i (.commit .main t))) : Enacts s₀ s h (.did pid i (.commit .main t)) := by
  refine ⟨rfl, hown, hc.active, fun k hk hne => ?_⟩
  rcases hc.caught with ho | hall
  · unfold overtaken at ho
    cases hl : lastEnacted h with
    | none => simp [hl] at ho
    | some x =>
      obtain ⟨g, j, g'⟩ := x
      rw [hl] at ho
      simp only [inForce, hl, Option.some.injEq] at hk
      simp only [Unmissed, unmissed, hl, ho, Bool.not_true, Bool.false_or, Bool.or_eq_true,
        decide_eq_true_eq] at hG
      rcases hG with he | hr
      · exact absurd (hk.symm.trans he) hne
      · subst hk
        obtain ⟨ev, hev, hreach⟩ := List.any_eq_true.mp hr
        exact hc.written _ (List.any_eq_true.mpr ⟨ev, lastEnacted_mem hl ev hev, hreach⟩)
  · simpa using hall k hk

end Caught

section Scripts

variable {s₀ : Table FareRulesRow.id} {pid : Nat} {i : FareRulesRequest} {s : Table FareRulesRow.id}
  {h : List RulesEvent} {own : Conn → Table FareRulesRow.id}

abbrev RulesSafe (s₀ : Table FareRulesRow.id) (pid : Nat) (i : FareRulesRequest) :
    Session FareRulesRow.id (Except ApiError Uuid) → Table FareRulesRow.id → List RulesEvent → Prop :=
  Safe (OneActive s₀) Unmissed (Enacts s₀) pid i

lemma rules_safe_ret (b : Except ApiError Uuid) : RulesSafe s₀ pid i ⟨own, .ready (.ret b)⟩ s h := by
  have hA : Stable (OneActive s₀) (Enacts s₀) pid own (fun _ _ => True) := fun _ _ _ _ _ _ _ _ => trivial
  exact safe_ret trivial hA (fun _ _ _ _ _ => trivial)

/-- The deactivating `UPDATE`. -/
lemma rules_safe_deactivate {k : Except Failure (List FareRulesRow) → RulesScript}
    {A : Table FareRulesRow.id → List RulesEvent → Prop} (h₁ : A s h)
    (hA : ∀ own, Stable (OneActive s₀) (Enacts s₀) pid own A)
    (hown : ∀ ev s h, enacts ev = none → A s h → A s (h ++ [ev])) (hempty : own .main = .empty)
    (hfresh : ∀ k, h.any (reaches pid k) = false)
    (hfail : ∀ f s h own, RulesSafe s₀ pid i ⟨own, .ready (k (.error f))⟩ s h)
    (hdone : ∀ s h t done, A s h → Caught s₀ pid i t h [] →
      RulesSafe s₀ pid i ⟨Function.update own .main t, .ready (k (.ok done))⟩ s h) :
    RulesSafe s₀ pid i ⟨own, .ready (.update .main Admin.deactivateRules (fun _ => k))⟩ s h := by
  have hA' : Stable (OneActive s₀) (Enacts s₀) pid own
      (fun s h => A s h ∧ ∀ k, h.any (reaches pid k) = false) := by
    intro s h ev hne hI hE hf hs
    refine ⟨hA own s h ev hne hI hE hf hs.1, fun k => ?_⟩
    simp [hs.2 k, reaches_other hne k]
  refine safe_update (fun _ pending _ t s h => A s h ∧ Caught s₀ pid i t h pending) ⟨h₁, hfresh⟩ hA'
    (fun seen pending done t s h ev hne hI hE hf hs => ?_) (fun s h hs hI _ => ?_)
    (fun seen pending done t s h j r hl hI hj hr hc _ => ?_) (fun seen pending done t s h j hl hI hj hp => ?_)
    (fun seen pending done t s h hl hI ho => ?_) (fun _ f s h hI _ => hfail f s h _)
  · exact ⟨hA _ s h ev hne hI hE hf hs.1, hs.2.concat (reaches_other hne)⟩
  · rw [hempty, Table.merge_empty]
    refine ⟨trivial, hown _ s h rfl hs.1, by simp [begins], fun k hk => ?_, fun k hk => ?_,
      .inr (fun k hk => .inr ?_)⟩
    · simp [hs.2 k, reaches] at hk
    · obtain ⟨r, hr, -⟩ := hk
      cases hr
    · rw [inForce_quiet h rfl] at hk
      obtain ⟨r, hr, ha⟩ := (hI k).mpr hk
      obtain ⟨hmem, rfl⟩ := Table.find?_eq_some.mp hr
      exact List.mem_map.mpr ⟨r, List.mem_filter.mpr ⟨hmem, ha⟩, rfl⟩
  · refine ⟨trivial, hown _ s h rfl hl.1, ?_⟩
    rw [show j = (Admin.deactivateRules.set.set r).id from (Table.find?_key hr).symm]
    exact hl.2.took (fun ha => Bool.noConfusion ha)
  · refine ⟨hl.1, hl.2.pass hI (fun r hr => ?_)⟩
    rcases hp with hskip | hcond
    · cases hskip
    · exact hcond r hr
  · have hnil : pending = [] := by simpa [Change.over, Admin.deactivateRules] using ho
    subst hnil
    exact hdone s h t done hl.1 hl.2

/-- The commit, once nothing is left to deactivate and the request's own ruleset is active. -/
lemma rules_safe_commit {k : Bool → RulesScript}
    (h₁ : Caught s₀ pid i (own .main) h []) (hown : ActiveIn (own .main) i.target)
    (hk : ∀ ok s h own, RulesSafe s₀ pid i ⟨own, .ready (k ok)⟩ s h) :
    RulesSafe s₀ pid i ⟨own, .ready (.commit .main k)⟩ s h :=
  safe_commit h₁ Caught.stable (fun _ _ hc _ hG => ⟨hc.enacts hown hG, hk true _ _ _⟩)
    (fun _ _ _ _ => hk false _ _ _)

/-- The new ruleset is inserted active. -/
lemma rules_safe_insert {r : FareRulesRow}
    {k : Except Failure (List FareRulesRow) → RulesScript}
    (h₁ : Caught s₀ pid i (own .main) h []) (hid : r.id = i.target) (hactive : r.active = true)
    (hfail : ∀ f s h own, RulesSafe s₀ pid i ⟨own, .ready (k (.error f))⟩ s h)
    (hdone : ∀ s h t done, Caught s₀ pid i t h [] → ActiveIn t i.target →
      RulesSafe s₀ pid i ⟨Function.update own .main t, .ready (k (.ok done))⟩ s h) :
    RulesSafe s₀ pid i ⟨own, .ready (.insert .main ⟨fun _ => [r], true⟩ k)⟩ s h := by
  refine safe_insert (fun _ pending _ t _ h => Caught s₀ pid i t h [] ∧ (∀ r' ∈ pending, r' = r) ∧
    (r ∈ pending ∨ ActiveIn t i.target)) h₁
    Caught.stable (fun seen pending done t s h ev hne hI hE hf hs => ?_) (fun s h hs hI _ => ?_)
    (fun seen r' pending done t s h hl hI hr _ => ?_) (fun seen r' pending done t s h hstrict => ?_)
    (fun seen done t s h hl hI => ?_) (fun f s h hI _ => hfail f s h _)
  · exact ⟨hs.1.concat (reaches_other hne), hs.2⟩
  · exact ⟨trivial, hs.concat (fun _ => rfl), by simp, .inl (by simp)⟩
  · obtain ⟨hc, hall, -⟩ := hl
    have he : r' = r := hall r' (by simp)
    subst he
    refine ⟨trivial, hc.took (fun _ => hid), fun x hx => hall x (by simp [hx]), .inr ⟨r', ?_, hactive⟩⟩
    rw [Table.find?_put, if_pos hid]
  · cases hstrict
  · rcases hl.2.2 with hnil | hown
    · cases hnil
    · exact hdone s h t done hl.1 hown

/-- The ruleset that is there already is made active. -/
lemma rules_safe_activate {k : Except Failure (List FareRulesRow) → RulesScript}
    (h₁ : Caught s₀ pid i (own .main) h []) (hs : s.find? i.target ≠ none)
    (hfail : ∀ f s h own, RulesSafe s₀ pid i ⟨own, .ready (k (.error f))⟩ s h)
    (hdone : ∀ s h t done, Caught s₀ pid i t h [] → ActiveIn t i.target →
      RulesSafe s₀ pid i ⟨Function.update own .main t, .ready (k (.ok done))⟩ s h) :
    RulesSafe s₀ pid i ⟨own, .ready (.update .main (Admin.activateRules i.target) (fun _ => k))⟩ s h := by
  have hthere : ∀ s h (ev : RulesEvent), s.find? i.target ≠ none → Enacts s₀ s h ev →
      (ev.store s).find? i.target ≠ none := fun s _ ev hs _ => ev.find?_store_ne_none hs
  refine safe_update (A := fun s h => Caught s₀ pid i (own .main) h [] ∧ s.find? i.target ≠ none)
    (fun _ pending _ t s h => Caught s₀ pid i t h [] ∧ s.find? i.target ≠ none ∧
      (∀ j ∈ pending, j = i.target) ∧ (i.target ∈ pending ∨ ActiveIn t i.target)) ⟨h₁, hs⟩
    (fun s h ev hne hI hE hf hs => ?_) (fun seen pending done t s h ev hne hI hE hf hs => ?_)
    (fun s h hs hI _ => ?_) (fun seen pending done t s h j r hl hI hj hr hc _ => ?_)
    (fun seen pending done t s h j hl hI hj hp => ?_)
    (fun seen pending done t s h hl hI ho => ?_) (fun _ f s h hI _ => hfail f s h _)
  · exact ⟨hs.1.concat (reaches_other hne), hthere s h ev hs.2 hE⟩
  · exact ⟨hs.1.concat (reaches_other hne), hthere s h ev hs.2.1 hE, hs.2.2⟩
  · have hsome : (s.merge (own .main)).find? i.target ≠ none := by
      rw [Table.find?_merge]
      cases (own .main).find? i.target with
      | none => exact hs.2
      | some r => simp
    obtain ⟨r, hr⟩ := Option.ne_none_iff_exists'.mp hsome
    obtain ⟨hmem, hid⟩ := Table.find?_eq_some.mp hr
    refine ⟨trivial, hs.1.concat (fun _ => rfl), hs.2, fun j hj => ?_, .inl ?_⟩
    · obtain ⟨r', hr', rfl⟩ := List.mem_map.mp hj
      exact of_decide_eq_true (List.mem_filter.mp hr').2
    · exact List.mem_map.mpr ⟨r, List.mem_filter.mpr ⟨hmem, decide_eq_true hid⟩, hid⟩
  · obtain ⟨hcaught, hthere', hall, -⟩ := hl
    have hid : r.id = i.target := of_decide_eq_true hc
    refine ⟨trivial, hcaught.took (fun _ => hid), hthere', fun x hx => hall x (List.mem_of_mem_erase hx), .inr ?_⟩
    exact ⟨_, by rw [Table.find?_put, if_pos ((Admin.activateRules i.target).set.key_set r |>.trans hid)], rfl⟩
  · obtain ⟨hcaught, hthere', hall, hown⟩ := hl
    refine ⟨hcaught, hthere', fun x hx => hall x (List.mem_of_mem_erase hx), ?_⟩
    rcases hp with hskip | hcond
    · cases hskip
    · have hsome : (s.merge t).find? j ≠ none := by
        rw [Table.find?_merge, hall j hj]
        cases t.find? i.target with
        | none => exact hthere'
        | some r => simp
      obtain ⟨r, hr⟩ := Option.ne_none_iff_exists'.mp hsome
      have hid : r.id = i.target := (Table.find?_key hr).trans (hall j hj)
      exact absurd hid (of_decide_eq_false (hcond r hr))
  · have hnil : pending = [] := by simpa [Change.over, Admin.activateRules] using ho
    subst hnil
    rcases hl.2.2.2 with hm | hown
    · cases hm
    · exact hdone s h t done hl.1 hown

theorem fareRules_protocol (schema : FareRulesSchema) :
    ReadCommitted.Protocol (Admin.fareRules schema) (OneActive s₀) Unmissed (Enacts s₀) := by
  refine ⟨fun s h ev hI hE => hE.step hI, fun _ _ _ _ _ => trivial, fun s h i hI hpid => ?_⟩
  have hfresh : ∀ k, (h ++ [(.arrive h.length i : RulesEvent)]).any (reaches h.length k) = false := by
    intro k
    rw [List.any_append, List.any_eq_false.mpr (fun ev he => by simp [reaches_other (hpid ev he) k])]
    rfl
  cases i with
  | publish id createdAt rules =>
    simp only [Admin.fareRules, Admin.publishFareRules, Session.init]
    split
    · exact rules_safe_ret _
    · split
      · exact rules_safe_ret _
      · refine rules_safe_deactivate (A := fun _ _ => True) trivial (fun _ _ _ _ _ _ _ _ _ => trivial)
          (fun _ _ _ _ _ => trivial) rfl hfresh (fun f s h own => rules_safe_ret _) (fun s h t done _ hc => ?_)
        refine rules_safe_insert (by rwa [Function.update_self]) rfl rfl (fun f s h own => rules_safe_ret _)
          (fun s h t' done hc hown => ?_)
        refine rules_safe_commit (by rwa [Function.update_self]) (by rwa [Function.update_self])
          (fun ok s h own => ?_)
        cases ok <;> exact rules_safe_ret _
  | activate id =>
    simp only [Admin.fareRules, Admin.activateFareRules, Session.init]
    refine safe_select (A := fun _ h' => ∀ k, h'.any (reaches h.length k) = false) hfresh
      (fun s h' ev hne _ _ _ hs k => ?_) (fun s h' hs hI _ => ⟨trivial, ?_⟩) (fun f s h' _ _ => rules_safe_ret _)
    · simp [hs k, reaches_other hne k]
    · change RulesSafe s₀ h.length (.activate id) ⟨_, .ready (if s.rows.any (fun r => decide (r.id = id)) = true
        then _ else _)⟩ s _
      split
      · rename_i hany
        have hthere : s.find? id ≠ none := by
          obtain ⟨r, hr, hid⟩ := List.any_eq_true.mp hany
          intro hnone
          exact Table.find?_eq_none.mp hnone r hr (of_decide_eq_true hid)
        refine rules_safe_deactivate (A := fun s _ => s.find? id ≠ none) hthere
          (fun _ _ _ ev _ _ _ _ hs => ev.find?_store_ne_none hs) (fun _ _ _ _ hs => hs) rfl ?_
          (fun f s h own => rules_safe_ret _) (fun s h t done hs hc => ?_)
        · intro k
          simp [hs k, reaches]
        refine rules_safe_activate (by rwa [Function.update_self]) hs (fun f s h own => rules_safe_ret _)
          (fun s h t' done hc hown => ?_)
        refine rules_safe_commit (by rwa [Function.update_self]) (by rwa [Function.update_self])
          (fun ok s h own => ?_)
        cases ok <;> exact rules_safe_ret _
      · exact rules_safe_ret _

end Scripts

lemma activeIn_iff {s : Table FareRulesRow.id} {k : Uuid} :
    ActiveIn s k ↔ ∃ r ∈ s.select FareRulesRow.active, r.id = k := by
  constructor
  · rintro ⟨r, hr, ha⟩
    obtain ⟨hmem, hid⟩ := Table.find?_eq_some.mp hr
    exact ⟨r, Table.mem_select.mpr ⟨hmem, ha⟩, hid⟩
  · rintro ⟨r, hr, hid⟩
    obtain ⟨hmem, ha⟩ := Table.mem_select.mp hr
    exact ⟨r, Table.find?_eq_some.mpr ⟨hmem, hid⟩, ha⟩

lemma select_singleton {s : Table FareRulesRow.id} {id : Uuid} (h : ∀ k, ActiveIn s k ↔ some id = some k) :
    ∃ r, s.select FareRulesRow.active = [r] ∧ r.id = id := by
  have hids : ∀ r ∈ s.select FareRulesRow.active, r.id = id := fun r hr =>
    (Option.some.inj ((h r.id).mp (activeIn_iff.mpr ⟨r, hr, rfl⟩))).symm
  have hnodup : ((s.select FareRulesRow.active).map FareRulesRow.id).Nodup :=
    s.nodup.sublist (List.filter_sublist.map FareRulesRow.id)
  obtain ⟨r₀, hr₀, -⟩ := activeIn_iff.mp ((h id).mpr rfl)
  generalize s.select FareRulesRow.active = rows at *
  cases rows with
  | nil => cases hr₀
  | cons r rest =>
    cases rest with
    | nil => exact ⟨r, rfl, hids r (by simp)⟩
    | cons r' rest =>
      have he : r'.id = r.id := (hids r' (by simp)).trans (hids r (by simp)).symm
      simp [he] at hnodup

lemma oneActive_nil {s₀ : Table FareRulesRow.id} (hs₀ : (s₀.select FareRulesRow.active).length ≤ 1) :
    OneActive s₀ s₀ [] := by
  intro k
  rw [activeIn_iff]
  simp only [inForce, lastEnacted]
  generalize s₀.select FareRulesRow.active = rows at hs₀
  cases rows with
  | nil => simp
  | cons r rest =>
    have hnil : rest = [] := List.eq_nil_of_length_eq_zero (by simpa using hs₀)
    simp [hnil]

/-- After the first commit exactly one ruleset is active, the one of the transaction that
committed last, and it is the one orders are priced with. -/
def OneInForce (c : RulesConf) : Prop :=
  ∀ g i g', lastEnacted c.trace = some (g, i, g') →
    ∃ r, c.store.select FareRulesRow.active = [r] ∧ r.id = i.target ∧ Pricing.newestRules c.store = some r

/-- In every run in which no transaction misses the ruleset enacted last, exactly one
ruleset is active after the first commit. -/
theorem fareRules_one_active (schema : FareRulesSchema) (s₀ : Table FareRulesRow.id)
    (c : RulesConf)
    (hs₀ : (s₀.select FareRulesRow.active).length ≤ 1)
    (hc : ReadCommitted.ReachableWhen (Admin.fareRules schema) Unmissed (ReadCommitted.init s₀) c) :
    OneInForce c := by
  intro g i g' hl
  have hI := ((fareRules_protocol schema).invariant (oneActive_nil hs₀) hc).1
  have hforce : inForce s₀ c.trace = some i.target := by rw [inForce, hl]
  obtain ⟨r, hr, hid⟩ := select_singleton (fun k => by rw [← hforce]; exact hI k)
  exact ⟨r, hr, hid, by rw [Pricing.newestRules, hr]; rfl⟩

/-- A schema that takes any text. -/
def textSchema : FareRulesSchema := ⟨fun s => .ok ⟨s⟩, fun _ => true⟩

/-- The rulesets of a deployment that has one, number 1, and it is active. -/
def seededRules : Table FareRulesRow.id := ⟨[⟨1, true, "{}", 0⟩], by simp⟩

/-- One ruleset is published, and then the first one activated again. -/
def rolledBack : List (ReadCommitted.Act FareRulesRequest Uuid) :=
  [.arrive (.publish 2 10 "{}"), .move 0 .step, .move 0 (.row 1), .move 0 .finish, .move 0 .step,
    .move 0 (.row 2), .move 0 .finish, .move 0 .step, .move 0 .step,
    .arrive (.activate 1), .move 7 .step, .move 7 .step, .move 7 (.row 2), .move 7 .finish,
    .move 7 .step, .move 7 (.row 1), .move 7 .finish, .move 7 .step, .move 7 .step]

theorem fareRules_one_active_seeded : ∃ c g g',
    ReadCommitted.ReachableWhen (Admin.fareRules textSchema) Unmissed (ReadCommitted.init seededRules) c ∧
    OneInForce c ∧ lastEnacted c.trace = some (g, .activate 1, g') := by
  have hrun : (ReadCommitted.execWhen (Admin.fareRules textSchema) Unmissed (ReadCommitted.init seededRules)
      rolledBack).map (fun c => (lastEnacted c.trace).map (fun x => x.2.1)) = some (some (.activate 1)) := by
    decide
  obtain ⟨c, hexec, hlast⟩ := Option.map_eq_some_iff.mp hrun
  obtain ⟨⟨g, i, g'⟩, hl, hi⟩ := Option.map_eq_some_iff.mp hlast
  cases hi
  have hc := reachable_of_execWhen hexec
  exact ⟨c, g, g', hc, fareRules_one_active textSchema seededRules c (by decide) hc, hl⟩

/-- Two rulesets published at once: both transactions look for the active ruleset before
either has committed. -/
def publishedTwice : List (ReadCommitted.Act FareRulesRequest Uuid) :=
  [.arrive (.publish 2 10 "{}"), .arrive (.publish 3 11 "{}"), .move 0 .step, .move 1 .step,
    .move 1 (.row 1), .move 1 .finish, .move 1 .step, .move 1 (.row 3), .move 1 .finish, .move 1 .step,
    .move 1 .step, .move 0 (.row 1), .move 0 .finish, .move 0 .step, .move 0 (.row 2), .move 0 .finish,
    .move 0 .step, .move 0 .step]

/-- Two transactions that do not see each other's ruleset leave both active. -/
theorem fareRules_two_active : ¬ ∀ (schema : FareRulesSchema) (s₀ : Table FareRulesRow.id)
    (c : RulesConf),
    (s₀.select FareRulesRow.active).length ≤ 1 →
    ReadCommitted.Reachable (Admin.fareRules schema) (ReadCommitted.init s₀) c → c.Quiet → OneInForce c := by
  intro hclaim
  have hrun : (ReadCommitted.exec (Admin.fareRules textSchema) (ReadCommitted.init seededRules)
      publishedTwice).map (fun c => ((c.store.select FareRulesRow.active).length, (lastEnacted c.trace).isSome,
        (List.range c.trace.length).all (fun pid => (c.procs pid).isNone))) = some (2, true, true) := by
    decide
  obtain ⟨c, hexec, hfin⟩ := Option.map_eq_some_iff.mp hrun
  simp only [Prod.mk.injEq] at hfin
  obtain ⟨htwo, hsome, hnone⟩ := hfin
  have hc := reachable_of_exec hexec
  have hquiet : c.Quiet := quiet_of_range hc (fun pid hp => List.all_eq_true.mp hnone pid (List.mem_range.mpr hp))
  obtain ⟨⟨g, i, g'⟩, hl⟩ := Option.isSome_iff_exists.mp hsome
  obtain ⟨r, hr, -⟩ := hclaim textSchema seededRules c (by decide) hc hquiet g i g' hl
  simp [hr] at htwo

end Lulan.Proofs
