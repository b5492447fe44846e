import Lulan.Lib.Answers

/-!
# Stores that a history determines

A part of the store that only the transactions write, each by a function of what it returned, is
the fold of the history. What a handler has seen of it is then a fact about an earlier history.
-/

namespace Lib.Site

variable {ι σ τ ρ χ β α γ υ ω ε : Type} {S : Site ι σ τ ρ χ β α ω ε}
  {G : σ → List (Ev ι τ ρ χ β α) → Ev ι τ ρ χ β α → Prop}

/-- A schedule that can be executed, with what it ends in. -/
lemma reachable_of_exec_map {δ : Type} {f : Conf ι σ τ ρ χ β α → δ} {c : Conf ι σ τ ρ χ β α}
    {as : List (Act ι β ω ε)}
    {x : δ} (h : (S.exec c as).map f = some x) : ∃ c', S.Reachable c c' ∧ f c' = x := by
  obtain ⟨c', hc, hx⟩ := Option.map_eq_some_iff.mp h
  exact ⟨c', reachable_of_exec hc, hx⟩

/-- Transactions write the part `view` of the store as `step` says, and nothing else does. -/
structure Replays (S : Site ι σ τ ρ χ β α ω ε) (view : σ → υ) (step : υ → τ → ρ → υ) : Prop where
  run : ∀ t w s, view (S.run t w s).2 = step (view s) t (S.run t w s).1
  env : ∀ e s, view (S.env e s) = view s

def replayEvent (step : υ → τ → ρ → υ) (v : υ) : Ev ι τ ρ χ β α → υ
  | .commit _ _ t r => step v t r
  | _ => v

/-- Induction along the prefixes of a history. -/
lemma prefix_induction {M : List (Ev ι τ ρ χ β α) → Prop} {h : List (Ev ι τ ρ χ β α)} (hnil : M [])
    (hstep : ∀ g ev, g ++ [ev] <+: h → M g → M (g ++ [ev])) : M h := by
  have hall : ∀ n, ∀ g, g.length = n → g <+: h → M g := by
    intro n
    induction n with
    | zero =>
      intro g hg _
      rwa [List.length_eq_zero_iff.mp hg]
    | succ n ih =>
      intro g hg hp
      have hne : g ≠ [] := List.ne_nil_of_length_eq_add_one hg
      have hsplit := List.dropLast_concat_getLast hne
      rw [← hsplit] at hp ⊢
      exact hstep _ _ hp (ih _ (by rw [List.length_dropLast, hg, Nat.add_sub_cancel])
        ((List.prefix_append _ _).trans hp))
  exact hall h.length h rfl (List.prefix_refl h)

/-- Of two places in a history, one comes first. -/
lemma prefix_cases {g g' h : List (Ev ι τ ρ χ β α)} {ev ev' : Ev ι τ ρ χ β α} (hp : g ++ [ev] <+: h)
    (hp' : g' ++ [ev'] <+: h) : g = g' ∨ g ++ [ev] <+: g' ∨ g' ++ [ev'] <+: g := by
  have hg := (List.prefix_append g [ev]).trans hp
  have hg' := (List.prefix_append g' [ev']).trans hp'
  rcases Nat.lt_trichotomy g.length g'.length with hlt | heq | hgt
  · refine .inr (.inl (List.prefix_of_prefix_length_le hp hg' ?_))
    rwa [List.length_append]
  · exact .inl ((List.prefix_of_prefix_length_le hg hg' (Nat.le_of_eq heq)).eq_of_length heq)
  · refine .inr (.inr (List.prefix_of_prefix_length_le hp' hg ?_))
    rwa [List.length_append]

/-- The view after a history. -/
def replay (step : υ → τ → ρ → υ) (v : υ) (h : List (Ev ι τ ρ χ β α)) : υ := h.foldl (replayEvent step) v

/-- What a request has committed so far, in order. -/
def made (pid : Nat) (h : List (Ev ι τ ρ χ β α)) : List (τ × ρ) :=
  h.filterMap (fun ev =>
    match ev with
    | .commit p _ t r => if p = pid then some (t, r) else none
    | _ => none)

section Histories

variable {step : υ → τ → ρ → υ} {v : υ} {h h' : List (Ev ι τ ρ χ β α)} {pid : Nat}

lemma replay_append (l : List (Ev ι τ ρ χ β α)) : replay step v (h ++ l) = replay step (replay step v h) l :=
  List.foldl_append

lemma replay_commit {i : ι} {t : τ} {r : ρ} :
    replay step v (h ++ [.commit pid i t r]) = step (replay step v h) t r := by
  rw [replay_append]
  rfl

lemma replay_quiet {ev : Ev ι τ ρ χ β α} (hev : ∀ p i t r, ev ≠ .commit p i t r) :
    replay step v (h ++ [ev]) = replay step v h := by
  rw [replay_append]
  cases ev with
  | commit p i t r => exact absurd rfl (hev p i t r)
  | _ => rfl

/-- What holds of the view and is kept by every commit since still holds. -/
lemma replay_carries {Q : υ → Prop} {g : List (Ev ι τ ρ χ β α)} (hg : g <+: h) (hQ : Q (replay step v g))
    (hstep : ∀ g' p i t r, g <+: g' → g' ++ [.commit p i t r] <+: h → Q (replay step v g') →
      Q (step (replay step v g') t r)) : Q (replay step v h) := by
  obtain ⟨l, rfl⟩ := hg
  induction l generalizing g with
  | nil => rwa [List.append_nil]
  | cons ev l ih =>
    have hnext : g ++ [ev] <+: g ++ ev :: l := ⟨l, by rw [List.append_assoc, List.singleton_append]⟩
    have hall : g ++ [ev] ++ l = g ++ ev :: l := by rw [List.append_assoc, List.singleton_append]
    rw [← hall]
    refine ih ?_ (fun g' p i t r hg' hp => hstep g' p i t r ((List.prefix_append _ _).trans hg') (hall ▸ hp))
    cases ev with
    | commit p i t r =>
      rw [replay_commit]
      exact hstep g p i t r (List.prefix_refl g) hnext hQ
    | _ =>
      rw [replay_quiet (fun _ _ _ _ he => by cases he)]
      exact hQ

@[simp] lemma made_commit {i : ι} {t : τ} {r : ρ} :
    made pid (h ++ [.commit pid i t r]) = made pid h ++ [(t, r)] := by
  simp [made]

lemma made_other {l : List (Ev ι τ ρ χ β α)} (hl : ∀ ev ∈ l, ev.pid ≠ pid) : made pid l = [] := by
  refine List.filterMap_eq_nil_iff.mpr (fun ev hev => ?_)
  cases ev with
  | commit p i t r => exact if_neg (hl _ hev)
  | _ => rfl

lemma made_quiet {ev : Ev ι τ ρ χ β α} (hev : ∀ i t r, ev ≠ .commit pid i t r) :
    made pid (h ++ [ev]) = made pid h := by
  unfold made
  rw [List.filterMap_append]
  cases ev with
  | commit p i t r =>
    have hp : p ≠ pid := fun he => hev i t r (by rw [he])
    simp [hp]
  | _ => exact List.append_nil _

lemma Later.made (hl : Later pid h h') : Site.made pid h' = Site.made pid h := by
  obtain ⟨l, rfl, hne⟩ := hl
  have ho := made_other hne
  unfold Site.made at ho ⊢
  rw [List.filterMap_append, ho, List.append_nil]

lemma mem_made {t : τ} {r : ρ} : (t, r) ∈ made pid h ↔ ∃ i, .commit pid i t r ∈ h := by
  unfold made
  rw [List.mem_filterMap]
  constructor
  · rintro ⟨ev, hev, he⟩
    cases ev with
    | commit p i t' r' =>
      by_cases hp : p = pid
      · subst hp
        cases Option.some.inj ((if_pos rfl).symm.trans he)
        exact ⟨i, hev⟩
      · cases (if_neg hp).symm.trans he
    | _ => cases he
  · rintro ⟨i, hm⟩
    exact ⟨_, hm, if_pos rfl⟩

/-- At some point since the request arrived, the view was such. -/
def During (step : υ → τ → ρ → υ) (v : υ) (h : List (Ev ι τ ρ χ β α)) (pid : Nat) (P : υ → Prop) : Prop :=
  ∃ g, g <+: h ∧ pid < g.length ∧ P (replay step v g)

lemma During.mono {P : υ → Prop} (hd : During step v h pid P) (hp : h <+: h') : During step v h' pid P := by
  obtain ⟨g, hg, hlen, hP⟩ := hd
  exact ⟨g, hg.trans hp, hlen, hP⟩

lemma During.imp {P Q : υ → Prop} (hd : During step v h pid P) (hpq : ∀ u, P u → Q u) : During step v h pid Q := by
  obtain ⟨g, hg, hlen, hP⟩ := hd
  exact ⟨g, hg, hlen, hpq _ hP⟩

/-- What is true of the view before the request arrives, and is kept from then on, is true at every
point since. -/
lemma During.and_carries {P Q : υ → Prop} {g : List (Ev ι τ ρ χ β α)} (hd : During step v h pid P) (hh : h <+: h')
    (hg : g <+: h') (hlen : g.length ≤ pid) (hQ : Q (replay step v g))
    (hstep : ∀ g' p i t r, g <+: g' → g' ++ [.commit p i t r] <+: h' → Q (replay step v g') →
      Q (step (replay step v g') t r)) : During step v h pid (fun u => P u ∧ Q u) := by
  obtain ⟨g', hg', hlen', hP⟩ := hd
  refine ⟨g', hg', hlen', hP, ?_⟩
  exact replay_carries (List.prefix_of_prefix_length_le hg (hg'.trans hh) (by omega)) hQ
    (fun g'' p i t r hg'' hp => hstep g'' p i t r hg'' (hp.trans (hg'.trans hh)))

/-- What has been true once and is kept by every commit still holds. -/
lemma During.carries {Q : υ → Prop} (hd : During step v h pid Q)
    (hstep : ∀ g' p i t r, g' ++ [.commit p i t r] <+: h → Q (replay step v g') →
      Q (step (replay step v g') t r)) : Q (replay step v h) := by
  obtain ⟨g, hg, -, hQ⟩ := hd
  exact replay_carries hg hQ (fun g' p i t r _ => hstep g' p i t r)

end Histories

/-- The rule for such a part: what every event of a history has to meet when it is added. -/
def Justified (P : List (Ev ι τ ρ χ β α) → Ev ι τ ρ χ β α → Prop) (h : List (Ev ι τ ρ χ β α)) : Prop :=
  ∀ g ev, g ++ [ev] <+: h → P g ev

lemma Justified.concat {P : List (Ev ι τ ρ χ β α) → Ev ι τ ρ χ β α → Prop} {h : List (Ev ι τ ρ χ β α)}
    {ev : Ev ι τ ρ χ β α} (hj : Justified P h) (hev : P h ev) : Justified P (h ++ [ev]) := by
  intro g x hg
  rcases List.prefix_concat_iff.mp hg with he | hg
  · obtain ⟨rfl, hx⟩ := List.append_inj' he rfl
    cases hx
    exact hev
  · exact hj g x hg

/-- Where an event stands in a history. -/
lemma prefix_of_mem {h : List (Ev ι τ ρ χ β α)} {ev : Ev ι τ ρ χ β α} (hm : ev ∈ h) : ∃ g, g ++ [ev] <+: h := by
  obtain ⟨g, l, rfl⟩ := List.append_of_mem hm
  exact ⟨g, l, by rw [List.append_assoc, List.singleton_append]⟩

lemma Justified.of_prefix {P : List (Ev ι τ ρ χ β α) → Ev ι τ ρ χ β α → Prop} {h h' : List (Ev ι τ ρ χ β α)}
    (hj : Justified P h') (hp : h <+: h') : Justified P h := fun g ev hg => hj g ev (hg.trans hp)

/-- The store shows the history, and every event of it is justified. -/
def Recorded (view : σ → υ) (step : υ → τ → ρ → υ) (v : υ)
    (P : List (Ev ι τ ρ χ β α) → Ev ι τ ρ χ β α → Prop) (s : σ) (h : List (Ev ι τ ρ χ β α)) : Prop :=
  view s = replay step v h ∧ Justified P h

section Protocols

variable {view : σ → υ} {step : υ → τ → ρ → υ} {v : υ} {P : List (Ev ι τ ρ χ β α) → Ev ι τ ρ χ β α → Prop}
  {h : List (Ev ι τ ρ χ β α)} {s : σ} {pid : Nat} {i : ι}

lemma Recorded.commit (hr : Replays S view step) (hi : Recorded view step v P s h) (t : τ) (w : ω)
    (hP : P h (.commit pid i t (S.run t w s).1)) :
    Recorded view step v P (S.run t w s).2 (h ++ [.commit pid i t (S.run t w s).1]) := by
  refine ⟨?_, hi.2.concat hP⟩
  rw [replay_commit, hr.run, hi.1]

lemma Recorded.quiet {ev : Ev ι τ ρ χ β α} (hi : Recorded view step v P s h)
    (hev : ∀ p i t r, ev ≠ .commit p i t r)
    (hP : P h ev) : Recorded view step v P s (h ++ [ev]) :=
  ⟨by rw [replay_quiet hev, hi.1], hi.2.concat hP⟩

/-- The rule for justified histories. -/
theorem recorded_protocol {R : Nat → ι → List (Ev ι τ ρ χ β α) → α → Prop} (hr : Replays S view step)
    (harrive : ∀ h i, P h (.arrive h.length i))
    (hkeeps : ∀ h i, (∀ ev ∈ h, ev.pid < h.length) →
      S.Keeps G (Recorded view step v P) h.length i (R h.length i) (S.handler i)
      (h ++ [.arrive h.length i]))
    (hanswer : ∀ h pid i a, R pid i h a → P h (.answer pid i a)) :
    Protocol S G (Recorded view step v P) R where
  env s h e hi := ⟨by rw [hr.env, hi.1], hi.2⟩
  arrive s h i hi hpids _ := ⟨hi.quiet (fun _ _ _ _ he => by cases he) (harrive h i), hkeeps h i hpids⟩
  answer s h pid i a hi _ hR := hi.quiet (fun _ _ _ _ he => by cases he) (hanswer h pid i a hR)

lemma recorded_init : Recorded view step (view s) P s [] :=
  ⟨rfl, fun g ev hg => absurd (List.prefix_nil.mp hg) (by simp)⟩

end Protocols

end Lib.Site
