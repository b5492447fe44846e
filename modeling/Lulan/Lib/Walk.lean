import Lulan.Lib.Concurrent

/-!
# One request by itself

The points a single handler passes, whatever the rest of the site does in between. Every
request of a run walks along its own handler, and the events it leaves in the history are
those of its walk.
-/

namespace Lib

/-- A point a handler has passed, with what it met there. -/
inductive Point (σ τ χ β ω : Type) : Type where
  | saw (s : σ)
  | looked (s : Option σ)
  | ran (t : τ) (w : ω) (s : σ)
  | heard (q : χ) (b : β)

namespace Site

variable {ι σ τ ρ χ β α ω ε : Type} {S : Site ι σ τ ρ χ β α ω ε}

/-- One point passed. The store met there is whatever the others have made of it. -/
inductive Passes (S : Site ι σ τ ρ χ β α ω ε) :
    Prog σ τ ρ χ β α → Point σ τ χ β ω → Prog σ τ ρ χ β α → Prop where
  | saw (k : σ → Prog σ τ ρ χ β α) (s : σ) : Passes S (.peek k) (.saw s) (k s)
  | looked (k : Option σ → Prog σ τ ρ χ β α) (s : Option σ) : Passes S (.read k) (.looked s) (k s)
  | ran (t : τ) (k : ρ → Prog σ τ ρ χ β α) (w : ω) (s : σ) : Passes S (.tx t k) (.ran t w s) (k (S.run t w s).1)
  | heard (q : χ) (k : β → Prog σ τ ρ χ β α) (b : β) (hb : S.fits q b = true) :
      Passes S (.call q k) (.heard q b) (k b)

/-- From a program to what is left of it. -/
inductive Walk (S : Site ι σ τ ρ χ β α ω ε) :
    Prog σ τ ρ χ β α → List (Point σ τ χ β ω) → Prog σ τ ρ χ β α → Prop where
  | nil (p : Prog σ τ ρ χ β α) : Walk S p [] p
  | cons {p q r : Prog σ τ ρ χ β α} {x : Point σ τ χ β ω} {xs : List (Point σ τ χ β ω)} (h : Passes S p x q)
      (hw : Walk S q xs r) : Walk S p (x :: xs) r

lemma Walk.concat {p q r : Prog σ τ ρ χ β α} {x : Point σ τ χ β ω} {xs : List (Point σ τ χ β ω)}
    (hw : Walk S p xs q) (h : Passes S q x r) : Walk S p (xs ++ [x]) r := by
  induction hw with
  | nil p => exact .cons h (.nil r)
  | cons h' _ ih => exact .cons h' (ih h)

lemma walk_ret {a : α} {xs : List (Point σ τ χ β ω)} {q : Prog σ τ ρ χ β α} (h : Walk S (.ret a) xs q) :
    xs = [] ∧ q = .ret a := by
  cases h with
  | nil => exact ⟨rfl, rfl⟩
  | cons h _ => cases h

lemma walk_read {k : Option σ → Prog σ τ ρ χ β α} {xs : List (Point σ τ χ β ω)} {a : α}
    (h : Walk S (.read k) xs (.ret a)) : ∃ s ys, xs = .looked s :: ys ∧ Walk S (k s) ys (.ret a) := by
  cases h with
  | cons h hw =>
    cases h with
    | looked k s => exact ⟨s, _, rfl, hw⟩

lemma walk_tx {t : τ} {k : ρ → Prog σ τ ρ χ β α} {xs : List (Point σ τ χ β ω)} {a : α}
    (h : Walk S (.tx t k) xs (.ret a)) : ∃ w s ys, xs = .ran t w s :: ys ∧ Walk S (k (S.run t w s).1) ys (.ret a) := by
  cases h with
  | cons h hw =>
    cases h with
    | ran t k w s => exact ⟨w, s, _, rfl, hw⟩

lemma walk_call {q : χ} {k : β → Prog σ τ ρ χ β α} {xs : List (Point σ τ χ β ω)} {a : α}
    (h : Walk S (.call q k) xs (.ret a)) :
    ∃ b ys, xs = .heard q b :: ys ∧ S.fits q b = true ∧ Walk S (k b) ys (.ret a) := by
  cases h with
  | cons h hw =>
    cases h with
    | heard q k b hb => exact ⟨b, _, rfl, hb, hw⟩

/-- What a point leaves in the history. -/
def event (S : Site ι σ τ ρ χ β α ω ε) (pid : Nat) (i : ι) : Point σ τ χ β ω → Option (Ev ι τ ρ χ β α)
  | .saw _ | .looked _ => none
  | .ran t w s => some (.commit pid i t (S.run t w s).1)
  | .heard q b => some (.call pid i q b)

/-- The events of one request. -/
def own (pid : Nat) (h : List (Ev ι τ ρ χ β α)) : List (Ev ι τ ρ χ β α) := h.filter (fun ev => decide (ev.pid = pid))

lemma own_concat {pid : Nat} {h : List (Ev ι τ ρ χ β α)} {ev : Ev ι τ ρ χ β α} :
    own pid (h ++ [ev]) = if ev.pid = pid then own pid h ++ [ev] else own pid h := by
  unfold own
  rw [List.filter_append]
  by_cases he : ev.pid = pid
  · simp [he]
  · simp [he]

/-- A request that has got as far as `p` walked there, and its events are those of its walk. -/
def Walked (S : Site ι σ τ ρ χ β α ω ε) (pid : Nat) (i : ι) (p : Prog σ τ ρ χ β α)
    (h : List (Ev ι τ ρ χ β α)) : Prop :=
  ∃ xs, Walk S (S.handler i) xs p ∧ own pid h = .arrive pid i :: xs.filterMap (S.event pid i)

lemma Walked.later {pid : Nat} {i : ι} {p : Prog σ τ ρ χ β α} {h : List (Ev ι τ ρ χ β α)} {ev : Ev ι τ ρ χ β α}
    (hw : Walked S pid i p h) (hne : pid ≠ ev.pid) : Walked S pid i p (h ++ [ev]) := by
  obtain ⟨xs, hx, ho⟩ := hw
  exact ⟨xs, hx, by rw [own_concat, if_neg (Ne.symm hne), ho]⟩

lemma Walked.silent {pid : Nat} {i : ι} {p q : Prog σ τ ρ χ β α} {h : List (Ev ι τ ρ χ β α)} {x : Point σ τ χ β ω}
    (hw : Walked S pid i p h) (hp : Passes S p x q) (hx : S.event pid i x = none) : Walked S pid i q h := by
  obtain ⟨xs, hxs, ho⟩ := hw
  refine ⟨xs ++ [x], hxs.concat hp, ?_⟩
  rw [List.filterMap_append, ho, List.filterMap_cons_none hx, List.filterMap_nil, List.append_nil]

lemma Walked.noted {pid : Nat} {i : ι} {p q : Prog σ τ ρ χ β α} {h : List (Ev ι τ ρ χ β α)} {x : Point σ τ χ β ω}
    {ev : Ev ι τ ρ χ β α} (hw : Walked S pid i p h) (hp : Passes S p x q) (hx : S.event pid i x = some ev)
    (hev : ev.pid = pid) : Walked S pid i q (h ++ [ev]) := by
  obtain ⟨xs, hxs, ho⟩ := hw
  refine ⟨xs ++ [x], hxs.concat hp, ?_⟩
  rw [own_concat, if_pos hev, List.filterMap_append, ho, List.filterMap_cons_some hx, List.filterMap_nil,
    List.cons_append]

/-- A call of the request is a point of its walk. -/
lemma heard_of_call {pid : Nat} {i : ι} {h : List (Ev ι τ ρ χ β α)} {xs : List (Point σ τ χ β ω)} {q : χ} {b : β}
    (ho : own pid h = .arrive pid i :: xs.filterMap (S.event pid i)) (hm : .call pid i q b ∈ h) : .heard q b ∈ xs := by
  have hin : .call pid i q b ∈ own pid h := List.mem_filter.mpr ⟨hm, by simp [Ev.pid]⟩
  rw [ho, List.mem_cons] at hin
  rcases hin with he | hin
  · cases he
  · obtain ⟨x, hx, he⟩ := List.mem_filterMap.mp hin
    cases x with
    | saw s => cases he
    | looked s => cases he
    | ran t w s => cases he
    | heard q' b' =>
      cases he
      exact hx

/-- Every request in flight walked to where it is, and an answered one to its answer. -/
theorem walked {G : σ → List (Ev ι τ ρ χ β α) → Ev ι τ ρ χ β α → Prop} {s : σ} {c : Conf ι σ τ ρ χ β α}
    (hc : S.ReachableWhen G (init s) c) :
    (∀ ev ∈ c.trace, ev.pid < c.trace.length) ∧
    (∀ pid i p, c.procs pid = some (i, p) → pid < c.trace.length ∧ Walked S pid i p c.trace) ∧
    ∀ g pid i a, g ++ [.answer pid i a] <+: c.trace → Walked S pid i (.ret a) g := by
  induction hc with
  | refl => exact ⟨by simp [init], fun pid i p hp => by simp [init] at hp, fun g pid i a hg => by simp [init] at hg⟩
  | @tail c c' _ hstep ih =>
    obtain ⟨hpids, hprocs, hanswers⟩ := ih
    obtain ⟨act, hn, -⟩ := hstep
    have hmore : ∀ ev : Ev ι τ ρ χ β α, ev.pid ≤ c.trace.length →
        ∀ x ∈ c.trace ++ [ev], x.pid < (c.trace ++ [ev]).length := by
      intro ev hev x hx
      rw [List.length_append, List.length_singleton]
      rcases List.mem_append.mp hx with hx | hx
      · have := hpids x hx
        omega
      · rw [List.mem_singleton.mp hx]
        omega
    have hothers : ∀ ev : Ev ι τ ρ χ β α, ∀ pid i p, pid ≠ ev.pid → c.procs pid = some (i, p) →
        pid < (c.trace ++ [ev]).length ∧ Walked S pid i p (c.trace ++ [ev]) := by
      intro ev pid i p hne hp
      obtain ⟨hlt, hw⟩ := hprocs pid i p hp
      rw [List.length_append]
      exact ⟨by omega, hw.later hne⟩
    have hquiet : ∀ ev : Ev ι τ ρ χ β α, (∀ pid i a, ev ≠ .answer pid i a) → ∀ g pid i a,
        g ++ [.answer pid i a] <+: c.trace ++ [ev] → Walked S pid i (.ret a) g := by
      intro ev hne g pid i a hg
      rcases List.prefix_concat_iff.mp hg with he | hg
      · exact absurd (List.singleton_inj.mp (List.append_inj' he rfl).2).symm (hne pid i a)
      · exact hanswers g pid i a hg
    rcases next_cases hn with ⟨e, -, rfl⟩ | ⟨j, -, rfl⟩ | ⟨q, j, k, -, hp, rfl⟩ |
      ⟨q, ok, j, k, -, hp, rfl⟩ | ⟨q, w, j, t, k, -, hp, rfl⟩ | ⟨q, b, j, x, k, -, hp, hf, rfl⟩ |
      ⟨q, j, x, -, hp, rfl⟩
    · exact ⟨hpids, hprocs, hanswers⟩
    · refine ⟨hmore _ (Nat.le_refl _), forall_update (hothers (.arrive c.trace.length j)) (fun i p he => ?_),
        hquiet _ (by simp)⟩
      cases he
      refine ⟨by simp, [], .nil _, ?_⟩
      have hnone : own c.trace.length c.trace = [] := by
        rw [own, List.filter_eq_nil_iff]
        intro ev hev
        have := hpids ev hev
        simp only [decide_eq_true_eq]
        omega
      rw [own_concat, hnone]
      exact if_pos rfl
    · obtain ⟨hlt, hw⟩ := hprocs q j _ hp
      refine ⟨hpids, forall_update (fun pid i p _ => hprocs pid i p) (fun i p he => ?_), hanswers⟩
      cases he
      exact ⟨hlt, hw.silent (.saw k _) rfl⟩
    · obtain ⟨hlt, hw⟩ := hprocs q j _ hp
      refine ⟨hpids, forall_update (fun pid i p _ => hprocs pid i p) (fun i p he => ?_), hanswers⟩
      cases he
      exact ⟨hlt, hw.silent (.looked k _) rfl⟩
    · obtain ⟨hlt, hw⟩ := hprocs q j _ hp
      refine ⟨hmore _ (Nat.le_of_lt hlt), forall_update (hothers (.commit q j t _)) (fun i p he => ?_),
        hquiet _ (by simp)⟩
      cases he
      exact ⟨by simp; omega, hw.noted (.ran t k w _) rfl rfl⟩
    · obtain ⟨hlt, hw⟩ := hprocs q j _ hp
      refine ⟨hmore _ (Nat.le_of_lt hlt), forall_update (hothers (.call q j x b)) (fun i p he => ?_),
        hquiet _ (by simp)⟩
      cases he
      exact ⟨by simp; omega, hw.noted (.heard x k b hf) rfl rfl⟩
    · obtain ⟨hlt, hw⟩ := hprocs q j _ hp
      refine ⟨hmore _ (Nat.le_of_lt hlt), forall_update (hothers (.answer q j x)) (fun i p he => by cases he), ?_⟩
      intro g pid i a hg
      rcases List.prefix_concat_iff.mp hg with he | hg
      · obtain ⟨rfl, hev⟩ := List.append_inj' he rfl
        cases List.singleton_inj.mp hev
        exact hw
      · exact hanswers g pid i a hg

end Site

end Lib
