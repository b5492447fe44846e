import Mathlib.Data.Nat.Basic
import Mathlib.Tactic.Common

/-!
# Segment spans and occupancy bitmasks

Occupancy of a seat across a trip is a 64-bit mask, one bit for each segment; a journey
is a half-open span of segments.
-/

namespace Lulan

def maxSegments : Nat := 64

lemma one_le_maxSegments : 1 ≤ maxSegments := by decide

lemma two_le_maxSegments : 2 ≤ maxSegments := by decide

inductive SpanError where
  | empty (fromIndex toIndex : Nat)
  | tooLong (toIndex : Nat)
deriving DecidableEq, Repr

/-- A half-open range of segment indices within a single trip. -/
structure SegmentSpan where
  fromIndex : Nat
  toIndex : Nat
  nonempty : fromIndex < toIndex
  bounded : toIndex ≤ maxSegments
deriving DecidableEq, Repr

namespace SegmentSpan

def new (fromIndex toIndex : Nat) : Except SpanError SegmentSpan :=
  if he : fromIndex ≥ toIndex then .error (.empty fromIndex toIndex)
  else if ht : toIndex > maxSegments then .error (.tooLong toIndex)
  else .ok ⟨fromIndex, toIndex, not_le.mp he, not_lt.mp ht⟩

def segmentCount (s : SegmentSpan) : Nat := s.toIndex - s.fromIndex

/-- Bitmask with the bits of the span set. -/
def mask (s : SegmentSpan) : BitVec 64 :=
  let width := s.toIndex - s.fromIndex
  if width = 64 then BitVec.allOnes 64 else ((1#64 <<< width) - 1#64) <<< s.fromIndex

def isAvailable (s : SegmentSpan) (occupied : BitVec 64) : Bool := occupied &&& s.mask == 0#64

def overlaps (s other : SegmentSpan) : Bool := s.mask &&& other.mask != 0#64

/-- The segments a span covers. -/
def covers (s : SegmentSpan) (i : Nat) : Bool := decide (s.fromIndex ≤ i) && decide (i < s.toIndex)

@[simp] lemma covers_iff (s : SegmentSpan) (i : Nat) :
    s.covers i = true ↔ s.fromIndex ≤ i ∧ i < s.toIndex := by
  simp [covers]

lemma covers_fromIndex (s : SegmentSpan) : s.covers s.fromIndex = true :=
  (covers_iff s _).mpr ⟨le_rfl, s.nonempty⟩

lemma lt_of_covers {s : SegmentSpan} {i : Nat} (h : s.covers i = true) : i < 64 :=
  lt_of_lt_of_le ((covers_iff s i).mp h).2 s.bounded

/-- The bits below `width`. -/
lemma getLsbD_low (width i : Nat) (hw : width < 64) :
    ((1#64 <<< width) - 1#64).getLsbD i = decide (i < width) := by
  have hpow : 2 ^ width < 2 ^ 64 := Nat.pow_lt_pow_right (by decide) hw
  have hpos : 0 < 2 ^ width := Nat.two_pow_pos width
  have hval : ((1#64 <<< width) - 1#64).toNat = 2 ^ width - 1 := by
    have hone : (1#64 <<< width).toNat = 2 ^ width := by
      rw [BitVec.toNat_shiftLeft, BitVec.toNat_ofNat, Nat.shiftLeft_eq, Nat.one_mod_eq_one.mpr (by decide),
        Nat.one_mul, Nat.mod_eq_of_lt hpow]
    rw [BitVec.toNat_sub_of_le, hone]
    · rfl
    · rw [BitVec.le_def, hone]
      exact hpos
  rw [BitVec.getLsbD, hval, Nat.testBit_two_pow_sub_one]

@[simp] lemma getLsbD_mask (s : SegmentSpan) (i : Nat) : s.mask.getLsbD i = s.covers i := by
  have hne := s.nonempty
  have hb : s.toIndex ≤ 64 := s.bounded
  rw [Bool.eq_iff_iff, covers_iff]
  by_cases hw : s.toIndex - s.fromIndex = 64
  · simp only [mask, hw, if_true, BitVec.getLsbD_allOnes, decide_eq_true_eq]
    omega
  · simp only [mask, hw, if_false, BitVec.getLsbD_shiftLeft, Bool.and_eq_true, decide_eq_true_eq,
      Bool.not_eq_true']
    rw [getLsbD_low _ _ (by omega)]
    simp only [decide_eq_true_eq, decide_eq_false_iff_not]
    omega

lemma isAvailable_iff (s : SegmentSpan) (occupied : BitVec 64) :
    s.isAvailable occupied = true ↔ ∀ i, s.covers i = true → occupied.getLsbD i = false := by
  rw [isAvailable, beq_iff_eq]
  constructor
  · intro h i hi
    have hbit : (occupied &&& s.mask).getLsbD i = false := by rw [h, BitVec.getLsbD_zero]
    rw [BitVec.getLsbD_and, getLsbD_mask, hi, Bool.and_true] at hbit
    exact hbit
  · intro h
    apply BitVec.eq_of_getLsbD_eq
    intro i _
    rw [BitVec.getLsbD_and, getLsbD_mask, BitVec.getLsbD_zero]
    cases hc : s.covers i with
    | false => rw [Bool.and_false]
    | true => rw [h i hc, Bool.false_and]

end SegmentSpan

end Lulan
