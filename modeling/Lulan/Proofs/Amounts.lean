import Lulan.Lib.Decimal
import Lulan.Payments.Amounts
import Lulan.Proofs.Calls

/-!
# The numerals of an amount

An amount of any currency is rendered as the decimal numeral of its value, from which it can be
read back, up to the ends of the range of 64 bits.
-/

namespace Lulan.Proofs

open Http (CaseMapping)

section Machine

lemma toNat_unsignedAbs (n : Int64) : (Http.I64.unsignedAbs n).toNat = n.toInt.natAbs := by
  have hbits : (Http.I64.unsignedAbs n).toNat = n.toBitVec.abs.toNat := rfl
  have hint : n.toInt = n.toBitVec.toInt := rfl
  rw [hbits, hint, BitVec.toNat_abs, BitVec.toInt_eq_msb_cond]
  have hlt := n.toBitVec.isLt
  split <;> omega

variable {cases : CaseMapping} {currency : String}

lemma toInt_scale (cases : CaseMapping) (currency : String) :
    (Http.I64.scale cases currency).toInt = 10 ^ Http.isoExponent cases currency := by
  unfold Http.I64.scale
  rcases isoExponent_cases cases currency with h | h | h <;> rw [h] <;> rfl

lemma toNat_scale (cases : CaseMapping) (currency : String) :
    (Http.I64.scale cases currency).toUInt64.toNat = 10 ^ Http.isoExponent cases currency := by
  unfold Http.I64.scale
  rcases isoExponent_cases cases currency with h | h | h <;> rw [h] <;> rfl

/-- In 64 bits an amount is rendered as it is over all integers. -/
lemma amountDecimal_i64 (amount : Int64) : Http.I64.amountDecimal cases amount currency =
    Http.amountDecimal cases amount.toInt currency := by
  unfold Http.I64.amountDecimal Http.amountDecimal
  have hneg : amount < 0 ↔ amount.toInt < 0 := Int64.lt_iff_toInt_lt
  have hmajor : toString (Http.I64.unsignedAbs amount / (Http.I64.scale cases currency).toUInt64) =
      toString (amount.toInt.natAbs / 10 ^ Http.isoExponent cases currency) := by
    rw [← toNat_unsignedAbs, ← toNat_scale, ← UInt64.toNat_div]
    rfl
  have hfrac : (Http.I64.unsignedAbs amount % (Http.I64.scale cases currency).toUInt64).toNat =
      amount.toInt.natAbs % 10 ^ Http.isoExponent cases currency := by
    rw [UInt64.toNat_mod, toNat_unsignedAbs, toNat_scale]
  simp only [hneg, hmajor, hfrac]
  rfl

lemma amountMajor_i64 (amount : Int64) : (Http.I64.amountMajor cases amount currency).toInt =
    Http.amountMajor cases amount.toInt currency := by
  unfold Http.I64.amountMajor Http.amountMajor
  rw [Int64.toInt_div_of_ne_right, toInt_scale]
  intro h
  have hscale := toInt_scale cases currency
  rw [h] at hscale
  have hpos : (0 : Int) < 10 ^ Http.isoExponent cases currency := by positivity
  have hminus : (-1 : Int64).toInt = -1 := rfl
  omega

end Machine

section Numerals

/-- The digits behind the point. -/
def decimals (exp n : Nat) : List Char := if exp = 0 then [] else (Http.padded exp (n % 10 ^ exp)).toList

lemma isDigit_of_mem_decimals {exp n : Nat} {c : Char} (h : c ∈ decimals exp n) : c.isDigit = true := by
  unfold decimals at h
  split at h
  · cases h
  · exact isDigit_of_mem_padded h

lemma length_decimals (exp n : Nat) : (decimals exp n).length = exp := by
  unfold decimals
  split
  · rename_i he
    exact he.symm
  · rename_i he
    exact length_padded he (Nat.mod_lt _ (Nat.pow_pos (by decide)))

/-- The numeral of an amount with `exp` digits behind the point. -/
def amountNumeral (amount : Int) (exp : Nat) : Lib.Decimal.Numeral where
  negative := decide (amount < 0)
  whole := Nat.toDigits 10 (amount.natAbs / 10 ^ exp)
  fraction := decimals exp amount.natAbs
  nonempty := Nat.toDigits_ne_nil
  digits c hc := by
    rcases List.mem_append.mp hc with hc | hc
    · exact Nat.isDigit_of_mem_toDigits (by decide) (by decide) hc
    · exact isDigit_of_mem_decimals hc

lemma ofDigitChars_padded (width n init : Nat) (hn : (Nat.toDigits 10 n).length ≤ width) :
    Nat.ofDigitChars 10 (Http.padded width n).toList init = 10 ^ width * init + n := by
  rw [Nat.ofDigitChars_eq_ofDigitChars_zero, Http.padded, String.toList_ofList, List.length_leftpad, max_eq_left hn,
    List.leftpad, Nat.ofDigitChars_append, Nat.ofDigitChars_replicate_zero, Nat.mul_zero,
    Nat.ofDigitChars_ten_toDigits]

lemma fraction_amountNumeral (amount : Int) (exp : Nat) :
    (amountNumeral amount exp).fraction = decimals exp amount.natAbs := rfl

/-- Its digits are those of the amount. -/
lemma magnitude_amountNumeral (amount : Int) (exp : Nat) : (amountNumeral amount exp).magnitude = amount.natAbs := by
  have hmag : (amountNumeral amount exp).magnitude = Nat.ofDigitChars 10
      (Nat.toDigits 10 (amount.natAbs / 10 ^ exp) ++ decimals exp amount.natAbs) 0 := rfl
  rw [hmag, Nat.ofDigitChars_append, Nat.ofDigitChars_ten_toDigits]
  unfold decimals
  split
  · rename_i he
    rw [he, Nat.pow_zero, Nat.div_one]
    rfl
  · rename_i he
    have hlt : amount.natAbs % 10 ^ exp < 10 ^ exp := Nat.mod_lt _ (Nat.pow_pos (by decide))
    rw [ofDigitChars_padded exp _ _ ((Nat.length_toDigits_le_iff (by decide) (Nat.pos_of_ne_zero he)).mpr hlt)]
    exact Nat.div_add_mod _ _

lemma scaled_amountNumeral (amount : Int) (exp : Nat) : (amountNumeral amount exp).scaled = amount := by
  unfold Lib.Decimal.Numeral.scaled
  rw [magnitude_amountNumeral]
  have hneg : (amountNumeral amount exp).negative = decide (amount < 0) := rfl
  rw [hneg]
  split <;> rename_i h <;> simp only [decide_eq_true_eq] at h <;> omega

lemma value_amountNumeral (amount : Int) (exp : Nat) : (amountNumeral amount exp).value = (amount : ℚ) / 10 ^ exp := by
  rw [Lib.Decimal.Numeral.value, scaled_amountNumeral, fraction_amountNumeral, length_decimals]

variable {cases : CaseMapping} {currency : String}

/-- A decimal amount is written as its numeral. -/
lemma amountDecimal_text (amount : Int) : (Http.amountDecimal cases amount currency).toList =
    (amountNumeral amount (Http.isoExponent cases currency)).text := by
  unfold Lib.Decimal.Numeral.text
  have hlen := length_decimals (Http.isoExponent cases currency) amount.natAbs
  rw [fraction_amountNumeral]
  by_cases he : Http.isoExponent cases currency = 0
  · have hnil : decimals (Http.isoExponent cases currency) amount.natAbs = [] :=
      List.eq_nil_of_length_eq_zero (hlen.trans he)
    have hwhole : Http.amountDecimal cases amount currency = toString (amount.tdiv (1 : Nat)) := by
      rw [Http.amountDecimal, if_pos he, Nat.cast_one, Int.tdiv_one]
    have hsign : (amount < 0 ∧ amount.natAbs ≠ 0) = (amount < 0) := by
      apply propext
      omega
    rw [hwhole, toString_tdiv, if_pos hnil, List.append_nil, Nat.div_one]
    unfold amountNumeral
    simp only [hsign, he, Nat.pow_zero, Nat.div_one, decide_eq_true_eq]
  · have hne : decimals (Http.isoExponent cases currency) amount.natAbs ≠ [] := by
      intro hnil
      rw [hnil] at hlen
      exact he hlen.symm
    have hdigits : decimals (Http.isoExponent cases currency) amount.natAbs = (Http.padded
        (Http.isoExponent cases currency) (amount.natAbs % 10 ^ Http.isoExponent cases currency)).toList := by
      rw [decimals, if_neg he]
    rw [amountDecimal_toList rfl he, if_neg hne, hdigits]
    unfold amountNumeral
    simp only [decide_eq_true_eq]

end Numerals

/-- The text of an amount in a currency: a numeral with the decimals of the currency, worth the
amount, which can be read back and is the amount's alone. -/
structure Renders (cases : CaseMapping) (currency : String) (amount : Int64) (n : Lib.Decimal.Numeral) : Prop where
  text : (Http.I64.amountDecimal cases amount currency).toList = n.text
  decimals : n.fraction.length = Http.isoExponent cases currency
  value : n.value = (amount.toInt : ℚ) / 10 ^ Http.isoExponent cases currency
  reads : Lib.Decimal.parse (Http.I64.amountDecimal cases amount currency).toList = some n
  recovers : n.value * 10 ^ Http.isoExponent cases currency = amount.toInt
  distinct : ∀ other : Int64, Http.I64.amountDecimal cases other currency = Http.I64.amountDecimal cases amount currency →
    other = amount
  major : (Http.I64.amountMajor cases amount currency).toInt = Lib.Decimal.truncate n.value

/-- Every amount in every currency is rendered exactly. -/
theorem amount_rendered (cases : CaseMapping) (currency : String) (amount : Int64) :
    ∃ n, Renders cases currency amount n := by
  have htext : ∀ amount : Int64, (Http.I64.amountDecimal cases amount currency).toList =
      (amountNumeral amount.toInt (Http.isoExponent cases currency)).text := by
    intro amount
    rw [amountDecimal_i64, amountDecimal_text]
  have hvalue := value_amountNumeral amount.toInt (Http.isoExponent cases currency)
  have hpow : (10 : ℚ) ^ Http.isoExponent cases currency ≠ 0 := by positivity
  have hlen : (amountNumeral amount.toInt (Http.isoExponent cases currency)).fraction.length =
      Http.isoExponent cases currency := by
    rw [fraction_amountNumeral, length_decimals]
  refine ⟨amountNumeral amount.toInt (Http.isoExponent cases currency), htext amount, hlen, hvalue, ?_, ?_,
    fun other h => ?_, ?_⟩
  · rw [htext, Lib.Decimal.parse_text]
  · rw [hvalue, div_mul_cancel₀ _ hpow]
  · have hsame := Lib.Decimal.text_injective (by rw [← htext, ← htext, h] :
      (amountNumeral other.toInt (Http.isoExponent cases currency)).text =
        (amountNumeral amount.toInt (Http.isoExponent cases currency)).text)
    apply Int64.toInt_inj.mp
    rw [← scaled_amountNumeral other.toInt (Http.isoExponent cases currency), hsame, scaled_amountNumeral]
  · rw [amountMajor_i64, hvalue, Http.amountMajor]
    have htrunc := Lib.Decimal.truncate_div amount.toInt (Nat.pow_pos (n := Http.isoExponent cases currency)
      (show 0 < 10 by decide))
    rw [Nat.cast_pow, Nat.cast_pow] at htrunc
    exact htrunc.symm

end Lulan.Proofs
