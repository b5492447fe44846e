import Lulan.Lib.Text
import Lulan.Lib.While

/-!
# Splicing

The loop that looks for a pattern, writes what stands before it and a replacement, and goes on
behind it, replaces every occurrence of the pattern and never reads what it has written.
-/

namespace Lib.Text

open While (Progress Turn run run_ends)

variable {α : Type} [DecidableEq α]

/-- `slice::windows`. -/
def windows (n : Nat) (s : List α) : List (List α) :=
  (List.range (s.length + 1 - n)).map (fun i => (s.drop i).take n)

/-- Where a pattern is found first: `windows(pat.len()).position(|w| w == pat)`. -/
def position (pat s : List α) : Option Nat := (windows pat.length s).findIdx? (fun w => w == pat)

/-- `&s[..i]`, or the panic past the end. -/
def sliceTo (s : List α) (i : Nat) : Option (List α) := if i ≤ s.length then some (s.take i) else none

/-- `&s[i..]`, or the panic past the end. -/
def sliceFrom (s : List α) (i : Nat) : Option (List α) := if i ≤ s.length then some (s.drop i) else none

/-- The variables of the splicing loop: what is written and what is still to be read. -/
structure Splicing (α : Type) where
  out : List α
  rest : List α

/-- One turn of the loop. -/
def Splicing.turn (pat new : List α) (s : Splicing α) : Option (Turn (Splicing α) (List α)) :=
  match position pat s.rest with
  | some idx => do
    let before ← sliceTo s.rest idx
    let rest ← sliceFrom s.rest (idx + pat.length)
    return .again ⟨s.out ++ before ++ new, rest⟩
  | none => some (.done (s.out ++ s.rest))

variable {pat new s : List α} {i : Nat}

lemma position_eq_some : position pat s = some i ↔
    i + pat.length < s.length + 1 ∧ pat <+: s.drop i ∧ ∀ j < i, ¬pat <+: s.drop j := by
  rw [position, List.findIdx?_eq_some_iff_getElem]
  simp only [windows, List.length_map, List.length_range, List.getElem_map, List.getElem_range, beq_iff_eq,
    List.prefix_iff_eq_take]
  constructor
  · rintro ⟨hi, heq, hbefore⟩
    exact ⟨by omega, heq.symm, fun j hj h => hbefore j hj h.symm⟩
  · rintro ⟨hi, heq, hbefore⟩
    exact ⟨by omega, heq.symm, fun j hj h => hbefore j hj h.symm⟩

lemma position_eq_none (h : position pat s = none) : ¬pat <:+: s := by
  rintro ⟨l, r, rfl⟩
  rw [position, List.findIdx?_eq_none_iff] at h
  have hmem : pat ∈ windows pat.length (l ++ pat ++ r) := by
    rw [windows, List.mem_map]
    refine ⟨l.length, ?_, ?_⟩
    · rw [List.mem_range, List.length_append, List.length_append]
      omega
    · rw [List.append_assoc, List.drop_left, List.take_left]
  have hne := h pat hmem
  rw [beq_self_eq_true] at hne
  cases hne

/-- What stands before the first occurrence is not changed. -/
lemma replace_before (hi : i ≤ s.length) (h : ∀ j < i, ¬pat <+: s.drop j) :
    replace pat new s = s.take i ++ replace pat new (s.drop i) := by
  induction i generalizing s with
  | zero => rfl
  | succ i ih =>
    cases s with
    | nil => cases hi
    | cons x s =>
      rw [replace_cons (h 0 (Nat.succ_pos i)), ih (Nat.le_of_succ_le_succ hi) (fun j hj => h (j + 1) (Nat.succ_lt_succ hj))]
      rfl

/-- A turn either ends with all occurrences replaced or leaves less of the text. -/
lemma turn_progress (hpat : pat ≠ []) (s : Splicing α) :
    Progress (Splicing.turn pat new) (fun s => s.rest.length) (fun s a => a = s.out ++ replace pat new s.rest) s := by
  unfold Progress Splicing.turn
  cases h : position pat s.rest with
  | none =>
    have hkeep : replace pat new s.rest = s.rest := replace_of_not_infix (position_eq_none h)
    exact .inl ⟨s.out ++ s.rest, rfl, congrArg (s.out ++ ·) hkeep.symm⟩
  | some idx =>
    obtain ⟨hfits, ⟨r, hr⟩, hbefore⟩ := position_eq_some.mp h
    have hpos := List.length_pos_of_ne_nil hpat
    have hto : sliceTo s.rest idx = some (s.rest.take idx) := if_pos (by omega)
    have hfrom : sliceFrom s.rest (idx + pat.length) = some (s.rest.drop (idx + pat.length)) := if_pos (by omega)
    have hrest : s.rest.drop (idx + pat.length) = r := by
      rw [← List.drop_drop, ← hr, List.drop_left]
    refine .inr ⟨⟨s.out ++ s.rest.take idx ++ new, s.rest.drop (idx + pat.length)⟩, ?_, ?_, ?_⟩
    · simp only [hto, hfrom]
      rfl
    · simp only [List.length_drop]
      omega
    · rintro a rfl
      simp only [hrest]
      rw [replace_before (by omega) hbefore, ← hr, replace_append hpat]
      simp only [List.append_assoc]

/-- The loop ends, and replaces every occurrence of the pattern. -/
theorem splicing_ends (hpat : pat ≠ []) {fuel : Nat} (hfuel : s.length < fuel) :
    run (Splicing.turn pat new) fuel ⟨[], s⟩ = some (replace pat new s) := by
  have hturn : ∀ s : Splicing α, Progress (Splicing.turn pat new) (fun s => s.rest.length)
      (fun s a => a = s.out ++ replace pat new s.rest) s := turn_progress hpat
  obtain ⟨a, hrun, ha⟩ := run_ends hturn fuel ⟨[], s⟩ hfuel
  rw [hrun, ha]
  rfl

end Lib.Text
