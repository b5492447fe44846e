import Mathlib.Data.List.Perm.Basic
import Mathlib.Data.List.Nodup

/-!
# All or nothing

Steps that each take what their key names. A batch of them succeeds as a whole exactly when
every step could be made by itself and no two steps have the same key, so the order of the
steps does not matter.
-/

namespace Lib

variable {γ σ ε κ β : Type}

/-- Steps one after another, up to the first that fails. -/
def batch (step : γ → σ → Except ε σ) : List γ → σ → Except ε σ
  | [], s => .ok s
  | x :: xs, s => do
    let s ← step x s
    batch step xs s

/-- A step can be made when it is enabled, it takes its key for good, and it is no matter to
the steps with other keys. -/
structure Exclusive (step : γ → σ → Except ε σ) (key : γ → κ) (enabled : γ → σ → Prop) : Prop where
  ok_iff : ∀ x s, (∃ s', step x s = .ok s') ↔ enabled x s
  taken : ∀ x y s s', step x s = .ok s' → key y = key x → ¬ enabled y s'
  other : ∀ x y s s', step x s = .ok s' → key y ≠ key x → (enabled y s' ↔ enabled y s)

section Batch

variable {step : γ → σ → Except ε σ} {key : γ → κ} {enabled : γ → σ → Prop}

lemma batch_cons {x : γ} {xs : List γ} {s s' : σ} :
    batch step (x :: xs) s = .ok s' ↔ ∃ t, step x s = .ok t ∧ batch step xs t = .ok s' := by
  rw [batch]
  cases step x s with
  | error e =>
    constructor
    · intro h
      cases h
    · rintro ⟨t, h, -⟩
      cases h
  | ok t =>
    constructor
    · exact fun h => ⟨t, rfl, h⟩
    · rintro ⟨t', h, h'⟩
      cases h
      exact h'

/-- A batch succeeds exactly when each step is enabled at the start and the keys differ. -/
theorem Exclusive.batch_ok_iff (h : Exclusive step key enabled) (xs : List γ) (s : σ) :
    (∃ s', batch step xs s = .ok s') ↔ (∀ x ∈ xs, enabled x s) ∧ (xs.map key).Nodup := by
  induction xs generalizing s with
  | nil =>
    constructor
    · exact fun _ => ⟨fun x hx => absurd hx List.not_mem_nil, List.nodup_nil⟩
    · exact fun _ => ⟨s, rfl⟩
  | cons x xs ih =>
    constructor
    · rintro ⟨s', hs'⟩
      obtain ⟨t, hx, ht⟩ := batch_cons.mp hs'
      obtain ⟨hall, hnodup⟩ := (ih t).mp ⟨s', ht⟩
      have hne : ∀ y ∈ xs, key y ≠ key x := fun y hy he => h.taken x y s t hx he (hall y hy)
      refine ⟨?_, ?_⟩
      · intro y hy
        rcases List.mem_cons.mp hy with rfl | hy
        · exact (h.ok_iff y s).mp ⟨t, hx⟩
        · exact (h.other x y s t hx (hne y hy)).mp (hall y hy)
      · rw [List.map_cons, List.nodup_cons]
        refine ⟨?_, hnodup⟩
        intro hmem
        obtain ⟨y, hy, he⟩ := List.mem_map.mp hmem
        exact hne y hy he
    · rintro ⟨hall, hnodup⟩
      obtain ⟨hnew, hrest⟩ := List.nodup_cons.mp (List.map_cons ▸ hnodup)
      obtain ⟨t, hx⟩ := (h.ok_iff x s).mpr (hall x List.mem_cons_self)
      have hthen : ∀ y ∈ xs, enabled y t := by
        intro y hy
        have hne : key y ≠ key x := fun he => hnew (he ▸ List.mem_map_of_mem hy)
        exact (h.other x y s t hx hne).mpr (hall y (List.mem_cons_of_mem _ hy))
      obtain ⟨s', hs'⟩ := (ih t).mpr ⟨hthen, hrest⟩
      exact ⟨s', batch_cons.mpr ⟨t, hx, hs'⟩⟩

/-- What a batch leaves of a view that each step changes at its own key only. -/
theorem batch_view {view : σ → κ → β} {f : γ → β → β}
    (hview : ∀ x s s', step x s = .ok s' →
      view s' (key x) = f x (view s (key x)) ∧ ∀ k, k ≠ key x → view s' k = view s k)
    {xs : List γ} {s s' : σ} (h : batch step xs s = .ok s') (hnodup : (xs.map key).Nodup) :
    (∀ x ∈ xs, view s' (key x) = f x (view s (key x))) ∧
      ∀ k, (∀ x ∈ xs, key x ≠ k) → view s' k = view s k := by
  induction xs generalizing s with
  | nil =>
    cases h
    exact ⟨fun x hx => absurd hx List.not_mem_nil, fun k _ => rfl⟩
  | cons x xs ih =>
    obtain ⟨hnew, hrest⟩ := List.nodup_cons.mp (List.map_cons ▸ hnodup)
    obtain ⟨t, hx, ht⟩ := batch_cons.mp h
    obtain ⟨hown, hothers⟩ := hview x s t hx
    obtain ⟨hdone, hleft⟩ := ih ht hrest
    have hne : ∀ y ∈ xs, key y ≠ key x := fun y hy he => hnew (he ▸ List.mem_map_of_mem hy)
    constructor
    · intro y hy
      rcases List.mem_cons.mp hy with rfl | hy
      · rw [hleft (key y) hne, hown]
      · rw [hdone y hy, hothers (key y) (hne y hy)]
    · intro k hk
      rw [hleft k (fun y hy => hk y (List.mem_cons_of_mem _ hy)),
        hothers k (fun he => hk x List.mem_cons_self he.symm)]

end Batch

end Lib
