import Mathlib.Data.List.Perm.Basic
import Mathlib.Order.Lattice

/-!
# The element of greatest key

A search for the greatest key takes the last of the elements that share it, so the order of
the list decides between them and nothing else.
-/

namespace Lib

variable {α κ : Type} [LinearOrder κ] {key : α → κ}

/-- The element of greatest key, the last one of several. -/
def maxByKey (key : α → κ) : List α → Option α
  | [] => none
  | a :: rest =>
    match maxByKey key rest with
    | none => some a
    | some b => if key a ≤ key b then some b else some a

/-- An element of a list that no element of the list exceeds. -/
structure IsTop (key : α → κ) (l : List α) (m : α) : Prop where
  mem : m ∈ l
  max : ∀ a ∈ l, key a ≤ key m

lemma IsTop.perm {l l' : List α} {m : α} (h : IsTop key l m) (hp : l.Perm l') : IsTop key l' m :=
  ⟨hp.mem_iff.mp h.mem, fun a ha => h.max a (hp.mem_iff.mpr ha)⟩

lemma maxByKey_eq_none {l : List α} : maxByKey key l = none ↔ l = [] := by
  cases l with
  | nil => simp [maxByKey]
  | cons a rest =>
    simp only [maxByKey, reduceCtorEq, iff_false]
    split
    · simp
    · split <;> simp

lemma isTop_of_maxByKey {l : List α} {m : α} (h : maxByKey key l = some m) : IsTop key l m := by
  induction l generalizing m with
  | nil => cases h
  | cons a rest ih =>
    rw [maxByKey] at h
    cases hr : maxByKey key rest with
    | none =>
      rw [hr] at h
      cases h
      rw [maxByKey_eq_none.mp hr]
      exact ⟨by simp, fun b hb => by simp_all⟩
    | some b =>
      have hb := ih hr
      simp only [hr] at h
      by_cases hab : key a ≤ key b
      · rw [if_pos hab] at h
        cases h
        refine ⟨List.mem_cons_of_mem _ hb.mem, fun c hc => ?_⟩
        rcases List.mem_cons.mp hc with rfl | hc
        · exact hab
        · exact hb.max c hc
      · rw [if_neg hab] at h
        cases h
        refine ⟨List.mem_cons_self, fun c hc => ?_⟩
        rcases List.mem_cons.mp hc with rfl | hc
        · exact le_rfl
        · exact (hb.max c hc).trans (le_of_not_ge hab)

lemma maxByKey_concat {l : List α} {m : α} (h : ∀ a ∈ l, key a ≤ key m) : maxByKey key (l ++ [m]) = some m := by
  induction l with
  | nil => rfl
  | cons a rest ih =>
    rw [List.cons_append, maxByKey, ih (fun b hb => h b (by simp [hb]))]
    exact if_pos (h a (by simp))

/-- Any top element is the one found in some order of the list. -/
lemma exists_perm_maxByKey {p : α → Bool} {l : List α} {m : α} (h : IsTop key (l.filter p) m) :
    ∃ l' : List α, l'.Perm l ∧ maxByKey key (l'.filter p) = some m := by
  obtain ⟨hm, hp⟩ := List.mem_filter.mp h.mem
  obtain ⟨s, t, rfl⟩ := List.append_of_mem hm
  refine ⟨s ++ t ++ [m], ?_, ?_⟩
  · rw [List.append_assoc]
    exact List.Perm.append_left s (List.perm_append_singleton m t)
  · rw [List.filter_append, List.filter_singleton, hp]
    refine maxByKey_concat (fun a ha => h.max a ?_)
    simp only [List.filter_append, List.mem_append, List.filter_cons, hp, if_true, List.mem_cons] at ha ⊢
    exact ha.imp_right .inr

/-- What is read off the winner does not depend on the order of the list exactly when all the
top elements read alike. -/
theorem maxByKey_order_iff {β : Type} {p : α → Bool} {l : List α} (f : Option α → β) :
    (∀ l' : List α, l'.Perm l → f (maxByKey key (l'.filter p)) = f (maxByKey key (l.filter p))) ↔
      ∀ m m', IsTop key (l.filter p) m → IsTop key (l.filter p) m' → f (some m) = f (some m') := by
  constructor
  · intro h m m' hm hm'
    obtain ⟨s, hs, hsm⟩ := exists_perm_maxByKey hm
    obtain ⟨t, ht, htm⟩ := exists_perm_maxByKey hm'
    rw [← hsm, ← htm, h s hs, h t ht]
  · intro h l' hp
    have hf : (l'.filter p).Perm (l.filter p) := hp.filter p
    cases hl : maxByKey key (l.filter p) with
    | none =>
      rw [maxByKey_eq_none] at hl
      rw [hl] at hf
      rw [hf.eq_nil]
      rfl
    | some m =>
      cases hl' : maxByKey key (l'.filter p) with
      | none =>
        rw [maxByKey_eq_none] at hl'
        rw [hl'] at hf
        rw [← hf.nil_eq] at hl
        cases hl
      | some m' => exact h m' m ((isTop_of_maxByKey hl').perm hf) (isTop_of_maxByKey hl)

end Lib
