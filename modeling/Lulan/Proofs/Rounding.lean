import Lulan.Proofs.Evaluation

/-!
# How a quote rounds

The contract of the pricing module divides downwards; the code divides towards zero.
-/

namespace Lulan.Proofs

open Lib Rules

section Contract

/-- The basis points of a base, rounded down. -/
def Rate.floorShare (base : Int) (r : Rate) : Int := (base * r.basisPoints.toInt).fdiv 10000

/-- What a rate adds to the price under the contract: surcharges are added, discounts negated. -/
def Rate.floorAmount (base : Int) (r : Rate) : Int := if r.discount then -r.floorShare base else r.floorShare base

/-- The quote that the determinism contract prescribes for a base. -/
structure FloorQuote (rules : Rules.FareRuleSet) (input : Rules.RuleInput) (base : Int) (q : Rules.Quote) : Prop where
  baseMinor : q.baseMinor.toInt = base
  adjustments : q.adjustments.map (fun a => (a.label, a.amountMinor.toInt)) =
    (rates rules input).map (fun r => (r.label, r.floorAmount base))
  total : q.totalMinor.toInt = max 0 (base + (q.adjustments.map (fun a => a.amountMinor.toInt)).sum)

variable {rules : Rules.FareRuleSet} {input : Rules.RuleInput} {perSegment : Int64} {q : Rules.Quote}

/-- Division towards zero is division downwards where nothing negative is cut off. -/
lemma tdiv_eq_fdiv_iff {x n : Int} (hn : 0 < n) : x.tdiv n = x.fdiv n ↔ 0 ≤ x ∨ n ∣ x := by
  rw [Int.tdiv_eq_ediv, Int.fdiv_eq_ediv_of_nonneg x hn.le, Int.sign_eq_one_of_pos hn]
  by_cases h : 0 ≤ x ∨ n ∣ x
  · simp [h]
  · simp [h]

lemma amount_eq_floorAmount_iff (base : Int) (r : Rate) :
    r.amount base = r.floorAmount base ↔ 0 ≤ base * r.basisPoints.toInt ∨ 10000 ∣ base * r.basisPoints.toInt := by
  rw [← tdiv_eq_fdiv_iff (by norm_num), Rate.amount, Rate.floorAmount]
  cases r.discount with
  | false => rfl
  | true => exact neg_inj

lemma amounts_eq_iff (rs : List Rate) (base : Int) :
    rs.map (fun r => (r.label, r.amount base)) = rs.map (fun r => (r.label, r.floorAmount base)) ↔
      ∀ r ∈ rs, 0 ≤ base * r.basisPoints.toInt ∨ 10000 ∣ base * r.basisPoints.toInt := by
  rw [List.map_inj_left]
  refine forall₂_congr (fun r _ => ?_)
  rw [Prod.mk.injEq, amount_eq_floorAmount_iff, and_iff_right rfl]

/-- Where nothing overflows, a quote is the one that the contract prescribes if and only if every
product of its base and a rate that applies is non-negative or a multiple of 10000. -/
theorem evaluate_floors_iff (hp : Prices rules input perSegment)
    (hfit : NoWrap (rates rules input) input perSegment (unboundedBase perSegment input))
    (hq : evaluate rules input = .ok q) :
    FloorQuote rules input (unboundedBase perSegment input) q ↔
      ∀ r ∈ rates rules input, 0 ≤ unboundedBase perSegment input * r.basisPoints.toInt ∨
        10000 ∣ unboundedBase perSegment input * r.basisPoints.toInt := by
  obtain ⟨p, hp', rfl⟩ := evaluate_eq_ok.mp hq
  obtain rfl := Option.some.inj (hp.fare.symm.trans hp'.fare)
  have hexact := hfit.amountsFit.unbounded
  have hsum : ((quoteOf rules input perSegment).adjustments.map (fun a => a.amountMinor.toInt)).sum =
      unboundedSum (rates rules input) (unboundedBase perSegment input) := by
    have h := congrArg (List.map Prod.snd) hexact.adjustments
    simp only [List.map_map, Function.comp_def] at h
    rw [h, unboundedSum]
  rw [← amounts_eq_iff, ← hexact.adjustments]
  constructor
  · exact fun h => h.adjustments
  · intro h
    refine ⟨hexact.base, h, ?_⟩
    rw [hexact.total, hsum, max_comm]

/-- A policy with cheaper fares on peak days. -/
def offPeakRules : Rules.FareRuleSet :=
  { tiedRules with
    baseFarePerSegment := ⟨[("economy", 15001)], by decide⟩
    peakWeekdays := [1]
    peakSurchargeBp := -500
    occupancyTiers := [] }

/-- A seat for some segments on a peak day. -/
def offPeakSeat (segments : UInt8) : Rules.RuleInput := { economySeat with segments }

lemma offPeak_prices {n : UInt8} (hn : n ≠ 0) : Prices offPeakRules (offPeakSeat n) 15001 := by
  have hquantity : ¬economySeat.quantity ≤ 0 := by decide
  have hfare : offPeakRules.baseFarePerSegment.get economySeat.fareKey = some 15001 := by decide
  exact ⟨hn, hquantity, hfare⟩

lemma offPeak_rates (n : UInt8) : rates offPeakRules (offPeakSeat n) = [⟨"peak_weekday", -500, false⟩] := by
  simp [rates, listed, offPeakRules, tiedRules, offPeakSeat, economySeat, maxByKey]

lemma offPeak_base (n : UInt8) : unboundedBase 15001 (offPeakSeat n) = 15001 * n.toNat := by
  have hfare : (15001 : Int64).toInt = 15001 := by decide
  have hone : (1 : Int32).toInt = 1 := by decide
  simp only [unboundedBase, offPeakSeat, economySeat, hfare, hone, mul_one]

lemma offPeak_fits (n : UInt8) : NoWrap (rates offPeakRules (offPeakSeat n)) (offPeakSeat n) 15001
    (unboundedBase 15001 (offPeakSeat n)) := by
  have hlt := n.toNat_lt
  have hrate : (-500 : Int64).toInt = -500 := by decide
  have hfits : Fits (15001 * n.toNat) := ⟨by omega, by omega⟩
  obtain ⟨hlow, hhigh⟩ := share_bound (x := 15001 * n.toNat * -500) (n := 15001 * 256 * 500) (by omega) (by omega)
  have hshare : Fits ((15001 * n.toNat * -500 : Int).tdiv 10000) := ⟨by omega, by omega⟩
  have hsums : ∀ added, added <+: [(⟨"peak_weekday", -500, false⟩ : Rate)] →
      Fits (unboundedSum added (15001 * n.toNat)) := by
    intro added h
    rcases List.prefix_cons_iff.mp h with rfl | ⟨rest, rfl, hrest⟩
    · rw [unboundedSum, List.map_nil, List.sum_nil]
      decide
    · rw [List.prefix_nil.mp hrest]
      simpa [unboundedSum, Rate.amount, Rate.share, hrate] using hshare
  rw [offPeak_rates, offPeak_base]
  constructor
  · exact hfits
  · rw [← unboundedBase, offPeak_base]
    exact hfits
  · simp [hrate]
    omega
  · simpa [Rate.share, hrate] using hshare
  · simp
  · exact hsums
  · have hsum : unboundedSum [(⟨"peak_weekday", -500, false⟩ : Rate)] (15001 * n.toNat) =
        (15001 * n.toNat * -500 : Int).tdiv 10000 := by
      rw [unboundedSum, List.map_singleton, List.sum_singleton, Rate.amount, Rate.share, hrate]
      rfl
    rw [hsum]
    exact ⟨by omega, by omega⟩

/-- Five hundred basis points off 15001 are 750 by the code and 751 by the contract. -/
theorem discount_cut_short : ¬∀ (rules : Rules.FareRuleSet) (input : Rules.RuleInput) (perSegment : Int64)
    (q : Rules.Quote), Prices rules input perSegment →
    NoWrap (rates rules input) input perSegment (unboundedBase perSegment input) → evaluate rules input = .ok q →
    FloorQuote rules input (unboundedBase perSegment input) q := by
  intro h
  have hprices := offPeak_prices (n := 1) (by decide)
  have hcontract := (h _ _ _ _ hprices (offPeak_fits 1) (evaluate_eq_ok.mpr ⟨_, hprices, rfl⟩)).adjustments
  have hcode : (quoteOf offPeakRules (offPeakSeat 1) 15001).adjustments = [⟨"peak_weekday", -750⟩] := by
    rw [quoteOf, adjustments_eq, offPeak_rates]
    decide
  rw [offPeak_rates, offPeak_base, hcode] at hcontract
  revert hcontract
  decide

/-- Off 300020 they are 15001 by both. -/
theorem evaluate_floors_iff_offPeak :
    FloorQuote offPeakRules (offPeakSeat 20) 300020 (quoteOf offPeakRules (offPeakSeat 20) 15001) := by
  have hprices := offPeak_prices (n := 20) (by decide)
  have hbase : unboundedBase 15001 (offPeakSeat 20) = 300020 := offPeak_base 20
  rw [← hbase]
  refine (evaluate_floors_iff hprices (offPeak_fits 20) (evaluate_eq_ok.mpr ⟨_, hprices, rfl⟩)).mpr ?_
  rw [offPeak_rates, hbase]
  decide

end Contract

end Lulan.Proofs
