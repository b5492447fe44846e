import Lulan.Payments.Calls

/-!
# Amounts in 64 bits

The rendering of an amount with the machine integers of the source; the calls use the same
functions over all integers.
-/

namespace Lulan.Http.I64

/-- `i64::unsigned_abs`. -/
def unsignedAbs (n : Int64) : UInt64 := n.abs.toUInt64

variable (cases : CaseMapping)

/-- `10i64.pow(iso_exponent(currency))`. -/
def scale (currency : String) : Int64 := Int64.ofNat (10 ^ isoExponent cases currency)

/-- The amount as a major-unit decimal string for the currency. -/
def amountDecimal (amountMinor : Int64) (currency : String) : String :=
  let exp := isoExponent cases currency
  if exp = 0 then toString amountMinor
  else
    let sign := if amountMinor < 0 then "-" else ""
    let n := unsignedAbs amountMinor
    let major := n / (scale cases currency).toUInt64
    let frac := n % (scale cases currency).toUInt64
    sign ++ toString major ++ "." ++ padded exp frac.toNat

/-- The integer major unit, truncating. -/
def amountMajor (amountMinor : Int64) (currency : String) : Int64 := amountMinor / scale cases currency

end Lulan.Http.I64
