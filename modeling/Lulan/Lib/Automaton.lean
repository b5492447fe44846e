import Mathlib.Algebra.BigOperators.Group.List.Basic
import Mathlib.Algebra.Ring.Int.Defs
import Mathlib.Order.Basic
import Mathlib.Tactic.Common

/-!
# Machines that read words

A deterministic machine that can refuse a letter. What the state after a word says about the
letters of the word is proved from what each step does: a potential that every step raises by
at least the weight of its letter bounds the weight of the word, and one that no step raises
by more bounds it from below.
-/

namespace Lib.Automaton

variable {σ ε τ : Type} {step : σ → ε → Except τ σ} {s t : σ} {es fs : List ε} {e : ε}

/-- Reads a word, letter by letter. -/
def read (step : σ → ε → Except τ σ) (s : σ) (es : List ε) : Except τ σ := es.foldlM step s

@[simp] lemma read_nil : read step s [] = .ok s := rfl

lemma read_cons_eq_ok : read step s (e :: es) = .ok t ↔ ∃ u, step s e = .ok u ∧ read step u es = .ok t := by
  unfold read
  rw [List.foldlM_cons]
  cases hstep : step s e with
  | error err =>
    constructor
    · intro h
      cases h
    · rintro ⟨u, hu, -⟩
      cases hu
  | ok u =>
    constructor
    · exact fun h => ⟨u, rfl, h⟩
    · rintro ⟨_, ⟨⟩, h⟩
      exact h

lemma read_append_eq_ok : read step s (es ++ fs) = .ok t ↔ ∃ u, read step s es = .ok u ∧ read step u fs = .ok t := by
  induction es generalizing s with
  | nil => simp
  | cons e es ih =>
    rw [List.cons_append]
    constructor
    · intro h
      obtain ⟨u, hu, h⟩ := read_cons_eq_ok.mp h
      obtain ⟨v, hv, h⟩ := ih.mp h
      exact ⟨v, read_cons_eq_ok.mpr ⟨u, hu, hv⟩, h⟩
    · rintro ⟨v, hv, h⟩
      obtain ⟨u, hu, hv⟩ := read_cons_eq_ok.mp hv
      exact read_cons_eq_ok.mpr ⟨u, hu, ih.mpr ⟨v, hv, h⟩⟩

/-- A word at one of its letters: the state it is read in and the one it leads to. -/
lemma read_at (h : read step s (es ++ e :: fs) = .ok t) :
    ∃ u v, read step s es = .ok u ∧ step u e = .ok v ∧ read step v fs = .ok t := by
  obtain ⟨u, hu, h⟩ := read_append_eq_ok.mp h
  obtain ⟨v, hv, h⟩ := read_cons_eq_ok.mp h
  exact ⟨u, v, hu, hv, h⟩

/-- Where every letter is refused, the word has ended. -/
lemma eq_nil_of_stuck (hs : ∀ e, ∃ err, step s e = .error err) (h : read step s es = .ok t) : es = [] := by
  cases es with
  | nil => rfl
  | cons e es =>
    obtain ⟨u, hu, -⟩ := read_cons_eq_ok.mp h
    obtain ⟨err, he⟩ := hs e
    rw [he] at hu
    cases hu

section Potential

variable {w : ε → Int} {f : σ → Int}

/-- Every step raises the potential by at least the weight of its letter. -/
lemma weight_le (hf : ∀ u e v, step u e = .ok v → f u + w e ≤ f v) (h : read step s es = .ok t) :
    f s + (es.map w).sum ≤ f t := by
  induction es generalizing s with
  | nil =>
    cases h
    simp
  | cons e es ih =>
    obtain ⟨u, hu, h⟩ := read_cons_eq_ok.mp h
    have hstep := hf s e u hu
    have hrest := ih h
    rw [List.map_cons, List.sum_cons]
    omega

/-- No step raises the potential by more than the weight of its letter. -/
lemma le_weight (hf : ∀ u e v, step u e = .ok v → f v ≤ f u + w e) (h : read step s es = .ok t) :
    f t ≤ f s + (es.map w).sum := by
  induction es generalizing s with
  | nil =>
    cases h
    simp
  | cons e es ih =>
    obtain ⟨u, hu, h⟩ := read_cons_eq_ok.mp h
    have hstep := hf s e u hu
    have hrest := ih h
    rw [List.map_cons, List.sum_cons]
    omega

end Potential

section Count

variable [DecidableEq ε] {x : ε} {f : σ → Nat}

/-- A letter counts one. -/
def indicator (x e : ε) : Int := if e = x then 1 else 0

lemma sum_indicator (x : ε) (es : List ε) : (es.map (indicator x)).sum = es.count x := by
  induction es with
  | nil => rfl
  | cons e es ih =>
    rw [List.map_cons, List.sum_cons, ih, List.count_cons, indicator]
    by_cases he : e = x <;> simp [he, add_comm]

lemma count_le (hf : ∀ u e v, step u e = .ok v → f u + (if e = x then 1 else 0) ≤ f v)
    (h : read step s es = .ok t) : f s + es.count x ≤ f t := by
  have hle := weight_le (f := fun u => (f u : Int)) (w := indicator x) (fun u e v hv => by
    have hstep := hf u e v hv
    unfold indicator
    split <;> rename_i he <;> simp only [he, if_true, if_false] at hstep <;> omega) h
  rw [sum_indicator] at hle
  omega

lemma le_count (hf : ∀ u e v, step u e = .ok v → f v ≤ f u + if e = x then 1 else 0)
    (h : read step s es = .ok t) : f t ≤ f s + es.count x := by
  have hle := le_weight (f := fun u => (f u : Int)) (w := indicator x) (fun u e v hv => by
    have hstep := hf u e v hv
    unfold indicator
    split <;> rename_i he <;> simp only [he, if_true, if_false] at hstep <;> omega) h
  rw [sum_indicator] at hle
  omega

end Count

end Lib.Automaton
