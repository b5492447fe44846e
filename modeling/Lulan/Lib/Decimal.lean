import Mathlib.Algebra.Order.Field.Rat
import Mathlib.Data.Rat.Floor
import Lulan.Lib.Text

/-!
# Decimal numerals

Numerals with a sign and a fraction, the text they are written as, the number they stand for,
and the reader that gives a numeral back from its text.
-/

namespace Lib.Decimal

/-- Decimal digits, on both sides of a point where there is one. -/
structure Numeral where
  negative : Bool
  whole : List Char
  fraction : List Char
  nonempty : whole ≠ []
  digits : ∀ c ∈ whole ++ fraction, c.isDigit = true

namespace Numeral

def text (n : Numeral) : List Char :=
  (if n.negative then ['-'] else []) ++ n.whole ++ if n.fraction = [] then [] else '.' :: n.fraction

/-- The number of all digits. -/
def magnitude (n : Numeral) : Nat := Nat.ofDigitChars 10 (n.whole ++ n.fraction) 0

/-- The number in units of the last digit. -/
def scaled (n : Numeral) : Int := if n.negative then -n.magnitude else n.magnitude

def value (n : Numeral) : ℚ := n.scaled / 10 ^ n.fraction.length

end Numeral

/-- Digits as a numeral. -/
def ofDigits (negative : Bool) (whole fraction : List Char) : Option Numeral :=
  if h : whole ≠ [] ∧ (whole ++ fraction).all Char.isDigit = true then
    some ⟨negative, whole, fraction, h.1, List.all_eq_true.mp h.2⟩
  else none

/-- A numeral without its sign; a point stands before at least one digit. -/
def parseUnsigned (negative : Bool) (s : List Char) : Option Numeral :=
  match Text.splitOnce '.' s with
  | none => ofDigits negative s []
  | some (whole, fraction) => if fraction = [] then none else ofDigits negative whole fraction

def parse : List Char → Option Numeral
  | '-' :: s => parseUnsigned true s
  | s => parseUnsigned false s

section Parse

lemma splitOnce_digits {s : List Char} (h : ∀ c ∈ s, c.isDigit = true) : Text.splitOnce '.' s = none := by
  cases hs : Text.splitOnce '.' s with
  | none => rfl
  | some parts =>
    obtain ⟨rfl, -⟩ := Text.splitOnce_eq_some.mp hs
    have hpoint := h '.' (List.mem_append_right _ List.mem_cons_self)
    cases hpoint

lemma parseUnsigned_text (n : Numeral) (negative : Bool) (hn : n.negative = negative) :
    parseUnsigned negative (n.whole ++ if n.fraction = [] then [] else '.' :: n.fraction) = some n := by
  have hwhole : ∀ c ∈ n.whole, c.isDigit = true := fun c hc => n.digits c (List.mem_append_left _ hc)
  unfold parseUnsigned
  by_cases hf : n.fraction = []
  · rw [if_pos hf, List.append_nil, splitOnce_digits hwhole]
    simp only
    have hdigits : n.whole ≠ [] ∧ (n.whole ++ []).all Char.isDigit = true := by
      rw [List.append_nil]
      exact ⟨n.nonempty, List.all_eq_true.mpr hwhole⟩
    rw [ofDigits, dif_pos hdigits]
    cases n
    simp_all
  · have hpoint : '.' ∉ n.whole := by
      intro hm
      cases hwhole '.' hm
    rw [if_neg hf, Text.splitOnce_append hpoint]
    simp only
    rw [if_neg hf, ofDigits, dif_pos ⟨n.nonempty, List.all_eq_true.mpr n.digits⟩]
    cases n
    simp_all

/-- A numeral is read back from its text. -/
theorem parse_text (n : Numeral) : parse n.text = some n := by
  unfold Numeral.text
  cases hn : n.negative with
  | true =>
    rw [if_pos rfl, List.append_assoc, List.singleton_append]
    exact parseUnsigned_text n true hn
  | false =>
    rw [if_neg Bool.false_ne_true, List.nil_append]
    obtain ⟨c, rest, hc⟩ := List.exists_cons_of_ne_nil n.nonempty
    have hd : c.isDigit = true := n.digits c (by rw [hc]; exact List.mem_cons_self)
    rw [hc, List.cons_append, parse]
    · rw [← List.cons_append, ← hc]
      exact parseUnsigned_text n false hn
    · rintro s ⟨rfl, -⟩
      cases hd

/-- Numerals with one text are one numeral. -/
lemma text_injective : Function.Injective Numeral.text := by
  intro n m h
  apply Option.some.inj
  rw [← parse_text n, h, parse_text m]

end Parse

/-- The part of a number before its point. -/
def truncate (q : ℚ) : Int := if 0 ≤ q then ⌊q⌋ else ⌈q⌉

lemma truncate_div (n : Int) {d : Nat} (hd : 0 < d) : truncate ((n : ℚ) / d) = n.tdiv d := by
  have hpos : (0 : ℚ) < d := Nat.cast_pos.mpr hd
  unfold truncate
  by_cases hn : 0 ≤ n
  · have hq : (0 : ℚ) ≤ (n : ℚ) / d := div_nonneg (Int.cast_nonneg hn) hpos.le
    rw [if_pos hq, Rat.floor_intCast_div_natCast, Int.tdiv_eq_ediv_of_nonneg hn]
  · have hneg : n < 0 := not_le.mp hn
    have hq : ¬(0 : ℚ) ≤ (n : ℚ) / d := not_le.mpr (div_neg_of_neg_of_pos (Int.cast_lt_zero.mpr hneg) hpos)
    have hflip : (n : ℚ) / d = -(((-n : Int) : ℚ) / d) := by
      rw [Int.cast_neg, neg_div, neg_neg]
    rw [if_neg hq, hflip, Int.ceil_neg, Rat.floor_intCast_div_natCast, ← Int.tdiv_eq_ediv_of_nonneg (by omega),
      Int.neg_tdiv, neg_neg]

end Lib.Decimal
