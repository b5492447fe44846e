import Mathlib.Data.List.Perm.Basic
import Mathlib.Data.List.Sort

/-!
# Ordered queries

What a query may return that orders its rows by a key: every arrangement of the rows in which the
keys ascend. Rows that tie come in any order, so the answer is one list only where no two
different rows tie.
-/

namespace Lib

variable {α β : Type} {le : α → α → Prop} {le' : β → β → Prop} {rows out : List α} {a b : α}

/-- A total preorder. -/
structure Ranks (le : α → α → Prop) : Prop where
  total : ∀ a b, le a b ∨ le b a
  trans : ∀ a b c, le a b → le b c → le a c

/-- The order by a column. -/
lemma Ranks.column {le : β → β → Prop} (h : Ranks le) (f : α → β) : Ranks (fun a b => le (f a) (f b)) :=
  ⟨fun a b => h.total (f a) (f b), fun a b c => h.trans (f a) (f b) (f c)⟩

/-- The arrangements of the rows in which the order ascends. -/
def OrderedBy (le : α → α → Prop) (rows out : List α) : Prop := out.Perm rows ∧ out.Pairwise le

/-- The rows stand in order, and rows that tie are equal. -/
def InPlace (le : α → α → Prop) (rows : List α) : Prop := rows.Pairwise (fun a b => le a b ∧ (le b a → a = b))

lemma InPlace.ordered (h : InPlace le rows) : OrderedBy le rows rows := ⟨List.Perm.refl rows, h.imp And.left⟩

lemma Ranks.refl (h : Ranks le) (a : α) : le a a := (h.total a a).elim id id

lemma exists_orderedBy (h : Ranks le) (rows : List α) : ∃ out, OrderedBy le rows out := by
  classical
  refine ⟨rows.mergeSort (fun a b => decide (le a b)), List.mergeSort_perm _ _, ?_⟩
  have hsorted : (rows.mergeSort (fun a b => decide (le a b))).Pairwise (fun a b => decide (le a b) = true) :=
    List.pairwise_mergeSort ?_ ?_ rows
  · exact hsorted.imp of_decide_eq_true
  · intro a b c hab hbc
    exact decide_eq_true (h.trans a b c (of_decide_eq_true hab) (of_decide_eq_true hbc))
  · intro a b
    rw [Bool.or_eq_true, decide_eq_true_eq, decide_eq_true_eq]
    exact h.total a b

lemma orderedBy_insertionSort [DecidableRel le] (h : Ranks le) (rows : List α) :
    OrderedBy le rows (rows.insertionSort le) := by
  have : Std.Total le := ⟨h.total⟩
  have : IsTrans α le := ⟨h.trans⟩
  exact ⟨List.perm_insertionSort le rows, List.pairwise_insertionSort le rows⟩

/-- Rows that tie are equal, wherever they stand. -/
lemma InPlace.eq_of_tie (h : InPlace le rows) (ha : a ∈ rows) (hb : b ∈ rows) (hab : le a b) (hba : le b a) :
    a = b := by
  by_contra hne
  obtain ⟨l, r, rfl⟩ := List.append_of_mem ha
  obtain ⟨-, hr, hlr⟩ := List.pairwise_append.mp h
  cases List.mem_append.mp hb with
  | inl hb => exact hne ((hlr b hb a List.mem_cons_self).2 hab).symm
  | inr hb =>
    cases List.mem_cons.mp hb with
    | inl heq => exact hne heq.symm
    | inr hb => exact hne ((List.rel_of_pairwise_cons hr hb).2 hba)

lemma InPlace.only (h : InPlace le rows) (hout : OrderedBy le rows out) : out = rows := by
  apply List.Perm.eq_of_pairwise _ hout.2 h.ordered.2 hout.1
  intro a b ha hb hab hba
  exact h.eq_of_tie (hout.1.subset ha) hb hab hba

/-- Two rows that tie can trade places. -/
lemma swap_ordered (h : Ranks le) {l m r : List α} (hba : le b a)
    (hsorted : (l ++ a :: m ++ b :: r).Pairwise le) :
    OrderedBy le (l ++ a :: m ++ b :: r) (l ++ b :: m ++ a :: r) := by
  constructor
  · simp only [List.append_assoc, List.cons_append]
    apply List.Perm.append_left
    refine (List.perm_middle.cons b).trans ((List.Perm.swap a b _).trans ?_)
    exact (List.perm_middle.symm).cons a
  · simp only [List.append_assoc, List.cons_append, List.pairwise_append, List.pairwise_cons, List.mem_append,
      List.mem_cons] at hsorted ⊢
    obtain ⟨hl, ⟨ha, hm, ⟨hb, hr⟩, hmr⟩, hlr⟩ := hsorted
    have hab := ha b (Or.inr (Or.inl rfl))
    refine ⟨hl, ⟨?_, hm, ⟨?_, hr⟩, ?_⟩, ?_⟩
    · rintro x (hx | rfl | hx)
      · exact h.trans _ _ _ hba (ha x (Or.inl hx))
      · exact hba
      · exact hb x hx
    · exact fun x hx => ha x (Or.inr (Or.inr hx))
    · rintro x hx y (rfl | hy)
      · exact h.trans _ _ _ (hmr x hx b (Or.inl rfl)) hba
      · exact hmr x hx y (Or.inr hy)
    · rintro x hx y (rfl | hy | rfl | hy)
      · exact hlr x hx _ (Or.inr (Or.inr (Or.inl rfl)))
      · exact hlr x hx _ (Or.inr (Or.inl hy))
      · exact hlr x hx _ (Or.inl rfl)
      · exact hlr x hx _ (Or.inr (Or.inr (Or.inr hy)))

/-- The answer is the rows as they stand exactly where they stand in order and none ties with
another. -/
theorem ordered_only_iff (h : Ranks le) : (∀ out, OrderedBy le rows out → out = rows) ↔ InPlace le rows := by
  refine ⟨?_, fun hs out hout => hs.only hout⟩
  intro honly
  obtain ⟨out, hout⟩ := exists_orderedBy h rows
  have hsorted : rows.Pairwise le := honly out hout ▸ hout.2
  apply List.pairwise_iff_forall_sublist.mpr
  intro a b hsub
  refine ⟨List.pairwise_iff_forall_sublist.mp hsorted hsub, fun hba => ?_⟩
  obtain ⟨front, rest, rfl, ha, hb⟩ := List.cons_sublist_iff.mp hsub
  obtain ⟨l, m, rfl⟩ := List.append_of_mem ha
  obtain ⟨n, r, rfl⟩ := List.append_of_mem (List.singleton_sublist.mp hb)
  have hshape : (l ++ a :: m) ++ (n ++ b :: r) = l ++ a :: (m ++ n) ++ b :: r := by simp
  rw [hshape] at honly hsorted
  have hswap := honly _ (swap_ordered h hba hsorted)
  simp only [List.append_assoc, List.append_cancel_left_eq, List.cons_append, List.cons.injEq] at hswap
  exact hswap.1.symm

/-- A column of an ordered answer, where the order is by that column. -/
lemma map_orderedBy (f : α → β) (hle : ∀ a b, le a b ↔ le' (f a) (f b)) {column : List β} :
    (∃ out, OrderedBy le rows out ∧ column = out.map f) ↔ OrderedBy le' (rows.map f) column := by
  constructor
  · rintro ⟨out, ⟨hperm, hsorted⟩, rfl⟩
    exact ⟨hperm.map f, List.pairwise_map.mpr (hsorted.imp (fun {a b} hab => (hle a b).mp hab))⟩
  · rintro ⟨hperm, hsorted⟩
    have hcomp := congrFun (congrFun (List.eq_map_comp_perm f) column) rows
    obtain ⟨out, rfl, hout⟩ := hcomp.mpr hperm
    exact ⟨out, ⟨hout, (List.pairwise_map.mp hsorted).imp (fun {a b} hab => (hle a b).mpr hab)⟩, rfl⟩

end Lib
