import Mathlib.Data.List.Basic

/-!
# Loops that can stop

A loop over a list carries a state and ends at the first error. What holds of the state
and the part of the list behind it holds at the end.
-/

namespace Lib

variable {ε σ α : Type}

/-- An invariant of the state and the elements already seen. -/
theorem foldlM_invariant {step : σ → α → Except ε σ} {I : List α → σ → Prop} {l : List α} {s s' : σ}
    (h₀ : I [] s)
    (hstep : ∀ pre x t t', pre ++ [x] <+: l → I pre t → step t x = .ok t' → I (pre ++ [x]) t')
    (h : l.foldlM step s = .ok s') : I l s' := by
  suffices hs : ∀ rest pre t, pre ++ rest = l → I pre t → rest.foldlM step t = .ok s' → I l s' from
    hs l [] s rfl h₀ h
  intro rest
  induction rest with
  | nil =>
    intro pre t hl hI hf
    cases hf
    rw [← hl, List.append_nil]
    exact hI
  | cons x rest ih =>
    intro pre t hl hI hf
    rw [List.foldlM_cons] at hf
    have hpre : pre ++ [x] ++ rest = l := by rw [List.append_assoc]; exact hl
    cases ht : step t x with
    | error e =>
      rw [ht] at hf
      cases hf
    | ok t' =>
      rw [ht] at hf
      exact ih (pre ++ [x]) t' hpre (hstep pre x t t' ⟨rest, hpre⟩ hI ht) hf

/-- An invariant of the state alone. -/
lemma foldlM_keeps {step : σ → α → Except ε σ} {I : σ → Prop} {l : List α} {s s' : σ} (h₀ : I s)
    (hstep : ∀ x t t', x ∈ l → I t → step t x = .ok t' → I t') (h : l.foldlM step s = .ok s') : I s' :=
  foldlM_invariant (I := fun _ => I) h₀
    (fun _ x t t' hp hI ht => hstep x t t' (hp.subset (List.mem_append_right _ (List.mem_singleton_self x))) hI ht)
    h

/-- A loop whose every step succeeds from where the invariant holds succeeds. -/
lemma foldlM_total {step : σ → α → Except ε σ} {I : List α → σ → Prop} {l : List α} {s : σ} (h₀ : I [] s)
    (hstep : ∀ pre x t, pre ++ [x] <+: l → I pre t → ∃ t', step t x = .ok t' ∧ I (pre ++ [x]) t') :
    ∃ s', l.foldlM step s = .ok s' ∧ I l s' := by
  suffices hs : ∀ rest pre t, pre ++ rest = l → I pre t → ∃ s', rest.foldlM step t = .ok s' ∧ I l s' from
    hs l [] s rfl h₀
  intro rest
  induction rest with
  | nil =>
    intro pre t hl hI
    rw [List.append_nil] at hl
    exact ⟨t, rfl, hl ▸ hI⟩
  | cons x rest ih =>
    intro pre t hl hI
    have hpre : pre ++ [x] ++ rest = l := by rw [List.append_assoc]; exact hl
    obtain ⟨t', ht, hI'⟩ := hstep pre x t ⟨rest, hpre⟩ hI
    obtain ⟨s', hs, hend⟩ := ih (pre ++ [x]) t' hpre hI'
    exact ⟨s', by rw [List.foldlM_cons, ht]; exact hs, hend⟩

/-- An invariant of the states of a machine that can refuse a step. -/
lemma foldlM_some_keeps {step : σ → α → Option σ} {I : σ → Prop} {l : List α} {s s' : σ} (h₀ : I s)
    (hstep : ∀ x t t', I t → step t x = some t' → I t') (h : l.foldlM step s = some s') : I s' := by
  induction l generalizing s with
  | nil =>
    cases h
    exact h₀
  | cons x rest ih =>
    rw [List.foldlM_cons] at h
    cases ht : step s x with
    | none =>
      rw [ht] at h
      cases h
    | some t =>
      rw [ht] at h
      exact ih (hstep x s t h₀ ht) h

/-- A loop whose every turn has left what its own repetition looks for changes nothing when it is
run again; `R` says that nothing is lost from one state to another. -/
theorem foldlM_again {f g : σ → α → Except ε σ} {R : σ → σ → Prop} {l : List α} {s s' e : σ} (hrefl : ∀ s, R s s)
    (htrans : ∀ s t u, R s t → R t u → R s u)
    (hstep : ∀ x t t' u, x ∈ l → f t x = .ok t' → R t' u → R t t' ∧ g u x = .ok u)
    (h : l.foldlM f s = .ok s') (he : R s' e) : R s s' ∧ l.foldlM g e = .ok e := by
  induction l generalizing s with
  | nil =>
    cases h
    exact ⟨hrefl _, rfl⟩
  | cons x rest ih =>
    rw [List.foldlM_cons] at h
    cases ht : f s x with
    | error err =>
      rw [ht] at h
      cases h
    | ok t =>
      rw [ht] at h
      obtain ⟨hR, hrest⟩ := ih (fun y t t' u hy => hstep y t t' u (List.mem_cons_of_mem x hy)) h
      obtain ⟨hR', hx⟩ := hstep x s t e List.mem_cons_self ht (htrans t s' e hR he)
      refine ⟨htrans s t s' hR' hR, ?_⟩
      rw [List.foldlM_cons, hx]
      exact hrest

lemma eq_ok_of_toOption {x : Except ε α} {a : α} (h : x.toOption = some a) : x = .ok a := by
  cases x with
  | error e => cases h
  | ok b =>
    cases h
    rfl

end Lib
