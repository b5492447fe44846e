import Mathlib.Algebra.BigOperators.Group.List.Basic
import Mathlib.Algebra.Order.BigOperators.Group.List
import Mathlib.Tactic.Linarith

/-!
# Ledgers of interval claims

A claim takes a quantity of one cell on a half-open range of segments. The load of a list
of claims is what they take of each segment together.
-/

namespace Lib

structure Claim (κ : Type) where
  cell : κ
  lo : Nat
  hi : Nat
  qty : Int

namespace Claim

variable {κ : Type} [DecidableEq κ]

/-- What the claim takes of segment `i` of cell `k`. -/
def on (c : Claim κ) (k : κ) (i : Nat) : Int := if c.cell = k ∧ c.lo ≤ i ∧ i < c.hi then c.qty else 0

lemma on_of_covers {c : Claim κ} {i : Nat} (hlo : c.lo ≤ i) (hhi : i < c.hi) : c.on c.cell i = c.qty := by
  simp [on, hlo, hhi]

lemma on_of_ne {c : Claim κ} {k : κ} (h : c.cell ≠ k) (i : Nat) : c.on k i = 0 := by
  simp [on, h]

lemma on_nonneg {c : Claim κ} (h : 0 ≤ c.qty) (k : κ) (i : Nat) : 0 ≤ c.on k i := by
  unfold on
  split
  · exact h
  · exact le_rfl

end Claim

section Load

variable {κ : Type} [DecidableEq κ]

def load (cs : List (Claim κ)) (k : κ) (i : Nat) : Int := (cs.map (fun c => c.on k i)).sum

@[simp] lemma load_nil (k : κ) (i : Nat) : load [] k i = 0 := rfl

@[simp] lemma load_cons (c : Claim κ) (cs : List (Claim κ)) (k : κ) (i : Nat) :
    load (c :: cs) k i = c.on k i + load cs k i := by
  simp [load]

@[simp] lemma load_append (cs ds : List (Claim κ)) (k : κ) (i : Nat) :
    load (cs ++ ds) k i = load cs k i + load ds k i := by
  simp [load]

/-- Where every cell is claimed once, its load is its one claim. -/
lemma load_of_nodup {cs : List (Claim κ)} (h : (cs.map Claim.cell).Nodup) {c : Claim κ} (hc : c ∈ cs) (i : Nat) :
    load cs c.cell i = c.on c.cell i := by
  induction cs with
  | nil => cases hc
  | cons d ds ih =>
    rw [List.map_cons, List.nodup_cons] at h
    rw [load_cons]
    rcases List.mem_cons.mp hc with rfl | hc
    · have hrest : load ds c.cell i = 0 := by
        apply List.sum_eq_zero
        intro x hx
        obtain ⟨d, hd, rfl⟩ := List.mem_map.mp hx
        have hne : d.cell ≠ c.cell := fun he => h.1 (he ▸ List.mem_map_of_mem hd)
        exact Claim.on_of_ne hne i
      omega
    · have hne : d.cell ≠ c.cell := fun he => h.1 (he ▸ List.mem_map_of_mem hc)
      rw [Claim.on_of_ne hne, ih h.2 hc, zero_add]

lemma load_nonneg {cs : List (Claim κ)} (h : ∀ c ∈ cs, 0 ≤ c.qty) (k : κ) (i : Nat) : 0 ≤ load cs k i := by
  induction cs with
  | nil => exact le_rfl
  | cons c cs ih =>
    rw [load_cons]
    have hc := Claim.on_nonneg (h c List.mem_cons_self) k i
    have hcs := ih (fun d hd => h d (List.mem_cons_of_mem _ hd))
    omega

/-- The load of the rows a predicate selects and of those it leaves. -/
lemma load_filter_add {α : Type} (l : List α) (f : α → Claim κ) (p : α → Bool) (k : κ) (i : Nat) :
    load ((l.filter p).map f) k i + load ((l.filter (fun a => !p a)).map f) k i = load (l.map f) k i := by
  induction l with
  | nil => rfl
  | cons a l ih =>
    cases hp : p a
    · simp only [List.filter_cons, hp, List.map_cons, load_cons, Bool.not_false, if_true,
        Bool.false_eq_true, if_false]
      omega
    · simp only [List.filter_cons, hp, List.map_cons, load_cons, Bool.not_true, if_true,
        Bool.false_eq_true, if_false]
      omega

end Load

section Masks

variable {w : Nat}

/-- How many of the masks have bit `i`. -/
def bitCount (ms : List (BitVec w)) (i : Nat) : Nat := ms.countP (fun m => m.getLsbD i)

lemma getLsbD_foldr_or (ms : List (BitVec w)) (i : Nat) :
    (ms.foldr (fun a b => a ||| b) 0#w).getLsbD i = decide (0 < bitCount ms i) := by
  induction ms with
  | nil => simp [bitCount]
  | cons m ms ih =>
    rw [List.foldr_cons, BitVec.getLsbD_or, ih]
    cases hm : m.getLsbD i <;> simp [bitCount, hm]

/-- Masks that cover each bit at most once are pairwise disjoint. -/
lemma pairwise_disjoint_of_bitCount {ms : List (BitVec w)} (h : ∀ i, i < w → bitCount ms i ≤ 1) :
    ms.Pairwise (fun a b => a &&& b = 0#w) := by
  induction ms with
  | nil => exact List.Pairwise.nil
  | cons m ms ih =>
    have htail : ∀ i, i < w → bitCount ms i ≤ 1 := by
      intro i hi
      have hle := h i hi
      simp only [bitCount, List.countP_cons] at hle ⊢
      omega
    refine List.Pairwise.cons ?_ (ih htail)
    intro m' hm'
    apply BitVec.eq_of_getLsbD_eq
    intro i hi
    rw [BitVec.getLsbD_and, BitVec.getLsbD_zero]
    by_contra hne
    rw [Bool.not_eq_false, Bool.and_eq_true] at hne
    have hpos : 0 < ms.countP (fun m => m.getLsbD i) := List.countP_pos_iff.mpr ⟨m', hm', hne.2⟩
    have hle := h i hi
    simp only [bitCount, List.countP_cons, hne.1, if_true] at hle
    omega

/-- A mask that counts a family of masks bit by bit is their disjoint union. -/
theorem disjoint_union_of_bitCount {ms : List (BitVec w)} {occupied : BitVec w}
    (h : ∀ i, i < w → bitCount ms i = (occupied.getLsbD i).toNat) :
    ms.Pairwise (fun a b => a &&& b = 0#w) ∧ occupied = ms.foldr (fun a b => a ||| b) 0#w := by
  constructor
  · refine pairwise_disjoint_of_bitCount (fun i hi => ?_)
    rw [h i hi]
    exact Bool.toNat_le _
  · apply BitVec.eq_of_getLsbD_eq
    intro i hi
    rw [getLsbD_foldr_or, h i hi]
    cases occupied.getLsbD i <;> rfl

end Masks

end Lib
