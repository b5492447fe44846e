import Mathlib.Algebra.BigOperators.Group.List.Basic
import Mathlib.Algebra.Order.Ring.Abs
import Mathlib.Tactic.Ring
import Mathlib.Tactic.Linarith
import Lulan.Pricing.Rules

/-!
# What a quote says

Which rulesets price alike in every order of their tiers, and which quotes are what
unbounded integers make them.
-/

namespace Lulan.Proofs

open Lib Rules

variable {rules : Rules.FareRuleSet} {input : Rules.RuleInput} {perSegment base : Int64}

/-- Nothing is wrong with the booking, and its fare key has a base fare. -/
structure Prices (rules : Rules.FareRuleSet) (input : Rules.RuleInput) (perSegment : Int64) : Prop where
  segments : input.segments ≠ 0
  quantity : ¬input.quantity ≤ 0
  fare : rules.baseFarePerSegment.get input.fareKey = some perSegment

/-- The quote that a booking gets from its fare. -/
def quoteOf (rules : Rules.FareRuleSet) (input : Rules.RuleInput) (perSegment : Int64) : Rules.Quote :=
  let base := baseFare perSegment input
  let sum := ((adjustments rules input base).map Rules.Adjustment.amountMinor).foldl (· + ·) 0
  ⟨rules.currency, base, adjustments rules input base, max (base + sum) 0⟩

lemma evaluate_eq_ok {q : Rules.Quote} :
    evaluate rules input = .ok q ↔ ∃ perSegment, Prices rules input perSegment ∧ q = quoteOf rules input perSegment := by
  rw [evaluate]
  by_cases hs : input.segments = 0
  · rw [if_pos hs]
    exact ⟨fun h => (nomatch h), fun ⟨_, h, _⟩ => absurd hs h.segments⟩
  · rw [if_neg hs]
    by_cases hq : input.quantity ≤ 0
    · rw [if_pos hq]
      exact ⟨fun h => (nomatch h), fun ⟨_, h, _⟩ => absurd hq h.quantity⟩
    · rw [if_neg hq]
      cases hf : rules.baseFarePerSegment.get input.fareKey with
      | none => exact ⟨fun h => (nomatch h), fun ⟨_, h, _⟩ => by cases hf.symm.trans h.fare⟩
      | some perSegment =>
        constructor
        · intro h
          cases h
          exact ⟨perSegment, ⟨hs, hq, hf⟩, rfl⟩
        · rintro ⟨p, h, rfl⟩
          cases hf.symm.trans h.fare
          rfl

/-- A fare policy with its peak weekdays and its tiers listed anew. -/
def reorder (rules : Rules.FareRuleSet) (peak : List UInt8) (occupancy : List OccupancyTier)
    (advance : List AdvanceTier) : Rules.FareRuleSet :=
  { rules with peakWeekdays := peak, occupancyTiers := occupancy, advancePurchaseTiers := advance }

/-- Two rates that a base is charged alike under. -/
def ChargedAlike (base rate rate' : Int64) : Prop :=
  (rate = 0 ↔ rate' = 0) ∧ (rate ≠ 0 → bp base rate = bp base rate')

/-- The tiers that share the highest threshold the booking reaches charge alike. -/
structure TiesAgree (rules : Rules.FareRuleSet) (input : Rules.RuleInput) (base : Int64) : Prop where
  occupancy : ∀ t t',
    IsTop OccupancyTier.threshold (rules.occupancyTiers.filter (OccupancyTier.reachedBy input)) t →
    IsTop OccupancyTier.threshold (rules.occupancyTiers.filter (OccupancyTier.reachedBy input)) t' →
    ChargedAlike base t.surchargeBp t'.surchargeBp
  advance : ∀ t t',
    IsTop AdvanceTier.threshold (rules.advancePurchaseTiers.filter (AdvanceTier.reachedBy input)) t →
    IsTop AdvanceTier.threshold (rules.advancePurchaseTiers.filter (AdvanceTier.reachedBy input)) t' →
    ChargedAlike base t.discountBp t'.discountBp

lemma chargedAlike_iff {label : String} (charge : Int64 → Int64) (hinj : ∀ a b, charge a = charge b → a = b)
    (rate rate' : Int64) :
    (if rate ≠ 0 then [(⟨label, charge (bp base rate)⟩ : Rules.Adjustment)] else []) =
      (if rate' ≠ 0 then [⟨label, charge (bp base rate')⟩] else []) ↔ ChargedAlike base rate rate' := by
  rw [ChargedAlike]
  by_cases h : rate = 0 <;> by_cases h' : rate' = 0
  · simp [h, h']
  · simp [h, h']
  · simp [h, h']
  · simp only [ne_eq, h, h', not_false_eq_true, if_true, List.cons.injEq, Rules.Adjustment.mk.injEq, true_and, and_true,
      forall_const]
    exact ⟨hinj _ _, congrArg charge⟩

lemma occupancy_alike_iff (t t' : OccupancyTier) :
    occupancyAdjustment base (some t) = occupancyAdjustment base (some t') ↔
      ChargedAlike base t.surchargeBp t'.surchargeBp :=
  chargedAlike_iff id (fun _ _ h => h) _ _

lemma advance_alike_iff (t t' : AdvanceTier) :
    advanceAdjustment base (some t) = advanceAdjustment base (some t') ↔
      ChargedAlike base t.discountBp t'.discountBp :=
  chargedAlike_iff Neg.neg (fun _ _ h => Int64.neg_inj.mp h) _ _

lemma adjustments_reorder {peak : List UInt8} (hp : peak.Perm rules.peakWeekdays) (occupancy : List OccupancyTier)
    (advance : List AdvanceTier) :
    adjustments (reorder rules peak occupancy advance) input base =
      peakAdjustment rules input base ++
      occupancyAdjustment base (maxByKey OccupancyTier.threshold (occupancy.filter (OccupancyTier.reachedBy input))) ++
      advanceAdjustment base (maxByKey AdvanceTier.threshold (advance.filter (AdvanceTier.reachedBy input))) ++
      passengerAdjustment rules input base ++ roundTripAdjustment rules input base ++
      promoAdjustment rules input base := by
  have hpeak : peakAdjustment (reorder rules peak occupancy advance) input base = peakAdjustment rules input base := by
    simp only [peakAdjustment, reorder, hp.mem_iff]
  rw [adjustments, hpeak]
  rfl

lemma quoteOf_adjustments (peak : List UInt8) (occupancy : List OccupancyTier) (advance : List AdvanceTier)
    (h : Prices rules input perSegment) :
    evaluate (reorder rules peak occupancy advance) input = evaluate rules input ↔
      adjustments (reorder rules peak occupancy advance) input (baseFare perSegment input) =
        adjustments rules input (baseFare perSegment input) := by
  have hold : evaluate rules input = .ok (quoteOf rules input perSegment) := evaluate_eq_ok.mpr ⟨_, h, rfl⟩
  have hnew : evaluate (reorder rules peak occupancy advance) input =
      .ok (quoteOf (reorder rules peak occupancy advance) input perSegment) :=
    evaluate_eq_ok.mpr ⟨_, ⟨h.segments, h.quantity, h.fare⟩, rfl⟩
  rw [hold, hnew, Except.ok.injEq]
  refine ⟨congrArg Rules.Quote.adjustments, fun he => ?_⟩
  rw [quoteOf, he]
  rfl

lemma evaluate_unpriced (peak : List UInt8) (occupancy : List OccupancyTier) (advance : List AdvanceTier)
    (h : ∀ perSegment, ¬Prices rules input perSegment) :
    evaluate (reorder rules peak occupancy advance) input = evaluate rules input := by
  rw [evaluate, evaluate]
  by_cases hs : input.segments = 0
  · rw [if_pos hs, if_pos hs]
  · by_cases hq : input.quantity ≤ 0
    · rw [if_neg hs, if_neg hs, if_pos hq, if_pos hq]
    · cases hf : rules.baseFarePerSegment.get input.fareKey with
      | none => simp only [reorder, hf]
      | some perSegment => exact absurd ⟨hs, hq, hf⟩ (h perSegment)

/-- A ruleset prices a booking alike in every order of its lists exactly when the booking gets
no price, or tiers tied at the highest threshold reached charge it alike. -/
theorem evaluate_order_iff (rules : Rules.FareRuleSet) (input : Rules.RuleInput) :
    (∀ peak occupancy advance, peak.Perm rules.peakWeekdays → occupancy.Perm rules.occupancyTiers →
      advance.Perm rules.advancePurchaseTiers →
      evaluate (reorder rules peak occupancy advance) input = evaluate rules input) ↔
    ∀ perSegment, Prices rules input perSegment → TiesAgree rules input (baseFare perSegment input) := by
  constructor
  · intro h perSegment hprices
    constructor
    · intro t t' ht ht'
      refine (occupancy_alike_iff t t').mp ((maxByKey_order_iff _).mp (fun l hl => ?_) t t' ht ht')
      have heq := (quoteOf_adjustments _ _ _ hprices).mp (h rules.peakWeekdays l _ (.refl _) hl (.refl _))
      rw [adjustments_reorder (.refl _)] at heq
      simp only [adjustments, List.append_cancel_right_eq, List.append_cancel_left_eq] at heq
      exact heq
    · intro t t' ht ht'
      refine (advance_alike_iff t t').mp ((maxByKey_order_iff _).mp (fun l hl => ?_) t t' ht ht')
      have heq := (quoteOf_adjustments _ _ _ hprices).mp (h rules.peakWeekdays _ l (.refl _) (.refl _) hl)
      rw [adjustments_reorder (.refl _)] at heq
      simp only [adjustments, List.append_cancel_right_eq, List.append_cancel_left_eq] at heq
      exact heq
  · intro h peak occupancy advance hp ho ha
    by_cases hprices : ∃ perSegment, Prices rules input perSegment
    · obtain ⟨perSegment, hprices⟩ := hprices
      have hties := h perSegment hprices
      rw [quoteOf_adjustments peak occupancy advance hprices, adjustments_reorder hp, adjustments]
      have hocc := (maxByKey_order_iff (occupancyAdjustment (baseFare perSegment input))).mpr
        (fun t t' ht ht' => (occupancy_alike_iff t t').mpr (hties.occupancy t t' ht ht')) occupancy ho
      have hadv := (maxByKey_order_iff (advanceAdjustment (baseFare perSegment input))).mpr
        (fun t t' ht ht' => (advance_alike_iff t t').mpr (hties.advance t t' ht ht')) advance ha
      rw [hocc, hadv]
    · exact evaluate_unpriced peak occupancy advance (fun p hp => hprices ⟨p, hp⟩)

/-- A policy whose two occupancy tiers share a threshold. -/
def tiedRules : Rules.FareRuleSet where
  currency := "PHP"
  baseFarePerSegment := ⟨[("economy", 15000)], by decide +kernel⟩
  peakWeekdays := []
  peakSurchargeBp := 0
  occupancyTiers := [⟨5000, 1000⟩, ⟨5000, 2500⟩]
  advancePurchaseTiers := []
  promos := ⟨[], by decide⟩
  passengerTypeDiscounts := ⟨[], by decide⟩
  roundTripDiscountBp := 0

/-- A seat on a trip that is nine tenths sold. -/
def economySeat : Rules.RuleInput where
  fareKey := "economy"
  segments := 3
  quantity := 1
  weekday := 1
  daysBeforeDeparture := 0
  occupancyBp := 9000
  promoCode := none
  passengerType := none
  journeyCount := 1
  isRoundTrip := false

/-- The tier listed last among equals sets the price. -/
theorem evaluate_order_matters :
    ¬∀ peak occupancy advance, peak.Perm tiedRules.peakWeekdays → occupancy.Perm tiedRules.occupancyTiers →
      advance.Perm tiedRules.advancePurchaseTiers →
      evaluate (reorder tiedRules peak occupancy advance) economySeat = evaluate tiedRules economySeat := by
  intro h
  have heq := h [] [⟨5000, 2500⟩, ⟨5000, 1000⟩] [] (.refl _) (.swap _ _ _) (.refl _)
  have hold : (evaluate tiedRules economySeat).toOption.map Rules.Quote.totalMinor = some 56250 := by decide
  have hnew : (evaluate (reorder tiedRules [] [⟨5000, 2500⟩, ⟨5000, 1000⟩] []) economySeat).toOption.map
      Rules.Quote.totalMinor = some 49500 := by decide
  rw [heq, hold] at hnew
  cases hnew

section Exactness

/-- Whether 64 bits hold a number. -/
def Fits (x : Int) : Prop := -2 ^ 63 ≤ x ∧ x < 2 ^ 63

instance (x : Int) : Decidable (Fits x) := inferInstanceAs (Decidable (_ ∧ _))

/-- A surcharge or a discount that applies to a booking. -/
structure Rate where
  label : String
  basisPoints : Int64
  discount : Bool

/-- The code's charge of a rate. -/
def Rate.charge (base : Int64) (r : Rate) : Rules.Adjustment :=
  ⟨r.label, if r.discount then -bp base r.basisPoints else bp base r.basisPoints⟩

/-- The basis points of an unbounded base. -/
def Rate.share (base : Int) (r : Rate) : Int := (base * r.basisPoints.toInt).tdiv 10000

def Rate.amount (base : Int) (r : Rate) : Int := if r.discount then -r.share base else r.share base

def listed (label : String) (basisPoints : Int64) (discount : Bool) : List Rate :=
  if basisPoints ≠ 0 then [⟨label, basisPoints, discount⟩] else []

/-- What applies to a booking, in the order of its quote. -/
def rates (rules : Rules.FareRuleSet) (input : Rules.RuleInput) : List Rate :=
  (if input.weekday ∈ rules.peakWeekdays then listed "peak_weekday" rules.peakSurchargeBp false else []) ++
  ((maxByKey OccupancyTier.threshold (rules.occupancyTiers.filter (OccupancyTier.reachedBy input))).elim []
    (fun t => listed "occupancy" t.surchargeBp false)) ++
  ((maxByKey AdvanceTier.threshold (rules.advancePurchaseTiers.filter (AdvanceTier.reachedBy input))).elim []
    (fun t => listed "advance_purchase" t.discountBp true)) ++
  (input.passengerType.elim [] (fun p => (rules.passengerTypeDiscounts.get p).elim []
    (fun d => listed s!"passenger:{p}" d true))) ++
  (if input.isRoundTrip then listed "round_trip" rules.roundTripDiscountBp true else []) ++
  (input.promoCode.elim [] (fun c => (rules.promos.get c).elim [] (fun d => [⟨s!"promo:{c}", d, true⟩])))

lemma map_surcharge (label : String) (basisPoints : Int64) :
    (listed label basisPoints false).map (Rate.charge base) =
      if basisPoints ≠ 0 then [⟨label, bp base basisPoints⟩] else [] := by
  rw [listed]
  split <;> rfl

lemma map_discount (label : String) (basisPoints : Int64) :
    (listed label basisPoints true).map (Rate.charge base) =
      if basisPoints ≠ 0 then [⟨label, -bp base basisPoints⟩] else [] := by
  rw [listed]
  split <;> rfl

lemma adjustments_eq : adjustments rules input base = (rates rules input).map (Rate.charge base) := by
  have hpeak : peakAdjustment rules input base = (if input.weekday ∈ rules.peakWeekdays then
      listed "peak_weekday" rules.peakSurchargeBp false else []).map (Rate.charge base) := by
    rw [peakAdjustment]
    by_cases hw : input.weekday ∈ rules.peakWeekdays
    · rw [if_pos hw, map_surcharge]
      simp only [hw, true_and]
    · rw [if_neg hw, if_neg (fun h => hw h.1)]
      rfl
  have hocc : ∀ t, occupancyAdjustment base t =
      (t.elim [] (fun t => listed "occupancy" t.surchargeBp false)).map (Rate.charge base) := by
    intro t
    cases t with
    | none => rfl
    | some t => exact (map_surcharge _ _).symm
  have hadv : ∀ t, advanceAdjustment base t =
      (t.elim [] (fun t => listed "advance_purchase" t.discountBp true)).map (Rate.charge base) := by
    intro t
    cases t with
    | none => rfl
    | some t => exact (map_discount _ _).symm
  have hpassenger : passengerAdjustment rules input base = (input.passengerType.elim [] (fun p =>
      (rules.passengerTypeDiscounts.get p).elim [] (fun d => listed s!"passenger:{p}" d true))).map
        (Rate.charge base) := by
    rw [passengerAdjustment]
    cases input.passengerType with
    | none => rfl
    | some p =>
      simp only [Option.elim_some]
      cases rules.passengerTypeDiscounts.get p with
      | none => rfl
      | some d => exact (map_discount _ _).symm
  have hround : roundTripAdjustment rules input base =
      (if input.isRoundTrip then listed "round_trip" rules.roundTripDiscountBp true else []).map
        (Rate.charge base) := by
    rw [roundTripAdjustment]
    cases input.isRoundTrip with
    | false => rfl
    | true =>
      rw [if_pos rfl, map_discount]
      simp only [true_and]
  have hpromo : promoAdjustment rules input base = (input.promoCode.elim [] (fun c =>
      (rules.promos.get c).elim [] (fun d => [⟨s!"promo:{c}", d, true⟩]))).map (Rate.charge base) := by
    rw [promoAdjustment]
    cases input.promoCode with
    | none => rfl
    | some c =>
      simp only [Option.elim_some]
      cases rules.promos.get c with
      | none => rfl
      | some d => rfl
  rw [adjustments, hpeak, hocc, hadv, hpassenger, hround, hpromo, rates]
  simp only [List.map_append]

def unboundedBase (perSegment : Int64) (input : Rules.RuleInput) : Int :=
  perSegment.toInt * input.segments.toNat * input.quantity.toInt

def unboundedSum (rs : List Rate) (base : Int) : Int := (rs.map (Rate.amount base)).sum

/-- The quote that unbounded integers give. -/
structure Unbounded (rules : Rules.FareRuleSet) (input : Rules.RuleInput) (perSegment : Int64) (q : Rules.Quote) :
    Prop where
  base : q.baseMinor.toInt = unboundedBase perSegment input
  adjustments : q.adjustments.map (fun a => (a.label, a.amountMinor.toInt)) =
    (rates rules input).map (fun r => (r.label, r.amount (unboundedBase perSegment input)))
  total : q.totalMinor.toInt =
    max (unboundedBase perSegment input + unboundedSum (rates rules input) (unboundedBase perSegment input)) 0

/-- No operation of the evaluation leaves its type. -/
structure NoWrap (rs : List Rate) (input : Rules.RuleInput) (perSegment : Int64) (base : Int) : Prop where
  segments : Fits (perSegment.toInt * input.segments.toNat)
  quantity : Fits (perSegment.toInt * input.segments.toNat * input.quantity.toInt)
  product : ∀ r ∈ rs, -2 ^ 127 ≤ base * r.basisPoints.toInt ∧ base * r.basisPoints.toInt < 2 ^ 127
  narrowing : ∀ r ∈ rs, Fits (r.share base)
  negation : ∀ r ∈ rs, r.discount = true → Fits (-r.share base)
  sum : ∀ added, added <+: rs → Fits (unboundedSum added base)
  total : Fits (base + unboundedSum rs base)

/-- The amounts of a quote stay in range: its base, every surcharge, every discount with the
amount it takes off, their running sums, and what is left to pay. -/
structure AmountsFit (rs : List Rate) (base : Int) : Prop where
  fare : Fits base
  surcharges : ∀ r ∈ rs, r.discount = false → Fits (r.amount base)
  discounts : ∀ r ∈ rs, r.discount = true → |r.amount base| < 2 ^ 63
  sums : ∀ added, added <+: rs → Fits (unboundedSum added base)
  net : Fits (base + unboundedSum rs base)

lemma fits_toInt (x : Int64) : Fits x.toInt := ⟨x.le_toInt, x.toInt_lt⟩

lemma bmod_of_fits {x : Int} (h : Fits x) : x.bmod (2 ^ 64) = x := by
  obtain ⟨hlow, hhigh⟩ := h
  exact Int.bmod_eq_of_le (by omega) (by omega)

lemma product_bound {x y : Int} (hx : Fits x) (hy : Fits y) : -2 ^ 126 ≤ x * y ∧ x * y ≤ 2 ^ 126 := by
  have hx' : |x| ≤ 2 ^ 63 := abs_le.mpr ⟨hx.1, hx.2.le⟩
  have hy' : |y| ≤ 2 ^ 63 := abs_le.mpr ⟨hy.1, hy.2.le⟩
  have hxy : |x * y| ≤ 2 ^ 126 := by
    rw [abs_mul]
    calc |x| * |y| ≤ 2 ^ 63 * 2 ^ 63 := mul_le_mul hx' hy' (abs_nonneg _) (by norm_num)
      _ = 2 ^ 126 := by norm_num
  exact abs_le.mp hxy

lemma share_bound {x n : Int} (hlow : -n ≤ x) (hhigh : x ≤ n) : -n ≤ x.tdiv 10000 ∧ x.tdiv 10000 ≤ n := by
  have hle : (x.tdiv 10000).natAbs ≤ x.natAbs := by
    rw [Int.natAbs_tdiv]
    exact Nat.div_le_self _ _
  omega

/-- The product never leaves 128 bits; only the cast back can lose digits. -/
lemma toInt_bp (amount basisPoints : Int64) :
    (bp amount basisPoints).toInt = ((amount.toInt * basisPoints.toInt).tdiv 10000).bmod (2 ^ 64) := by
  obtain ⟨hlow, hhigh⟩ := product_bound (fits_toInt amount) (fits_toInt basisPoints)
  have hproduct : (amount.toBitVec.signExtend 128 * basisPoints.toBitVec.signExtend 128).toInt =
      amount.toInt * basisPoints.toInt := by
    rw [BitVec.toInt_mul, BitVec.toInt_signExtend_of_le (by decide), BitVec.toInt_signExtend_of_le (by decide)]
    exact Int.bmod_eq_of_le (by norm_num at *; linarith) (by norm_num at *; linarith)
  have hquot : ((amount.toBitVec.signExtend 128 * basisPoints.toBitVec.signExtend 128).sdiv 10000#128).toInt =
      (amount.toInt * basisPoints.toInt).tdiv 10000 := by
    have hten : (10000#128 : BitVec 128).toInt = 10000 := by decide
    rw [BitVec.toInt_sdiv, hproduct, hten]
    obtain ⟨hlow', hhigh'⟩ := share_bound hlow hhigh
    exact Int.bmod_eq_of_le (by norm_num at *; linarith) (by norm_num at *; linarith)
  rw [bp, Int64.toInt_ofBitVec, BitVec.truncate_eq_setWidth, BitVec.toInt_setWidth, ← hquot,
    BitVec.toInt_eq_toNat_bmod, Int.bmod_bmod_of_dvd (by norm_num)]

lemma toInt_foldl_add (l : List Int64) (x : Int64) :
    (l.foldl (· + ·) x).toInt = (x.toInt + (l.map Int64.toInt).sum).bmod (2 ^ 64) := by
  induction l generalizing x with
  | nil =>
    rw [List.foldl_nil, List.map_nil, List.sum_nil, Int.add_zero, bmod_of_fits (fits_toInt x)]
  | cons y rest ih =>
    rw [List.foldl_cons, ih, Int64.toInt_add, Int.bmod_add_bmod, List.map_cons, List.sum_cons, Int.add_assoc]

lemma toInt_baseFare (perSegment : Int64) (input : Rules.RuleInput) :
    (baseFare perSegment input).toInt = (unboundedBase perSegment input).bmod (2 ^ 64) := by
  have hs : (Int64.ofNat input.segments.toNat).toInt = input.segments.toNat := by
    have hlt := input.segments.toNat_lt
    exact Int64.toInt_ofNat_of_lt (by omega)
  rw [baseFare, Int64.toInt_mul, Int64.toInt_mul, hs, Int32.toInt_toInt64, Int.bmod_mul_bmod]
  rfl

lemma toInt_charge {r : Rate} {b : Int} (hb : base.toInt = b)
    (hs : r.discount = false → Fits (r.amount b)) (hd : r.discount = true → |r.amount b| < 2 ^ 63) :
    (r.charge base).amountMinor.toInt = r.amount b := by
  have hshare : (bp base r.basisPoints).toInt = (r.share b).bmod (2 ^ 64) := by
    rw [toInt_bp, hb]
    rfl
  cases hr : r.discount with
  | false =>
    have hfit := hs hr
    simp only [Rate.charge, Rate.amount, hr, Bool.false_eq_true, if_false] at hfit ⊢
    rw [hshare, bmod_of_fits hfit]
  | true =>
    have hlt := abs_lt.mp (hd hr)
    simp only [Rate.charge, Rate.amount, hr, if_true] at hlt ⊢
    have hfit : Fits (r.share b) := ⟨by omega, by omega⟩
    rw [Int64.toInt_neg, hshare, bmod_of_fits hfit]
    exact bmod_of_fits ⟨by omega, by omega⟩

lemma toInt_sum (rs : List Rate) {b : Int} (hb : base.toInt = b)
    (hs : ∀ r ∈ rs, r.discount = false → Fits (r.amount b))
    (hd : ∀ r ∈ rs, r.discount = true → |r.amount b| < 2 ^ 63) :
    (((rs.map (Rate.charge base)).map Rules.Adjustment.amountMinor).map Int64.toInt).sum = unboundedSum rs b := by
  rw [List.map_map, List.map_map, unboundedSum]
  congr 1
  exact List.map_congr_left (fun r hr => toInt_charge hb (hs r hr) (hd r hr))

lemma toInt_max_zero (x : Int64) : (max x 0).toInt = max x.toInt 0 := by
  have hzero : (0 : Int64).toInt = 0 := rfl
  change (if x ≤ 0 then (0 : Int64) else x).toInt = _
  by_cases hx : x ≤ 0
  · rw [if_pos hx, hzero]
    exact (max_eq_right (Int64.le_iff_toInt_le.mp hx)).symm
  · rw [if_neg hx]
    exact (max_eq_left (le_of_lt (not_le.mp (fun h => hx (Int64.le_iff_toInt_le.mpr h))))).symm

/-- In range, nothing wraps and the quote is the unbounded one. -/
lemma AmountsFit.unbounded
    (h : AmountsFit (rates rules input) (unboundedBase perSegment input)) :
    Unbounded rules input perSegment (quoteOf rules input perSegment) := by
  have hbase : (baseFare perSegment input).toInt = unboundedBase perSegment input := by
    rw [toInt_baseFare, bmod_of_fits h.fare]
  refine ⟨hbase, ?_, ?_⟩
  · simp only [quoteOf, adjustments_eq, List.map_map]
    refine List.map_congr_left (fun r hr => Prod.ext rfl ?_)
    exact toInt_charge hbase (h.surcharges r hr) (h.discounts r hr)
  · have hzero : (0 : Int64).toInt = 0 := rfl
    simp only [quoteOf]
    rw [toInt_max_zero, Int64.toInt_add, toInt_foldl_add, adjustments_eq,
      toInt_sum _ hbase h.surcharges h.discounts, hbase, hzero, Int.zero_add,
      bmod_of_fits (h.sums _ List.prefix_rfl), bmod_of_fits h.net]

lemma fits_of_mul {x y : Int} (hy : 0 < y) (h : Fits (x * y)) : Fits x := by
  obtain ⟨hlow, hhigh⟩ := h
  constructor
  · by_contra hx
    have hmul : x * y ≤ x * 1 := mul_le_mul_of_nonpos_left hy (by omega)
    omega
  · by_contra hx
    have hmul : x * 1 ≤ x * y := mul_le_mul_of_nonneg_left hy (by omega)
    omega

lemma AmountsFit.noWrap (hq : 0 < input.quantity.toInt)
    (h : AmountsFit (rates rules input) (unboundedBase perSegment input)) :
    NoWrap (rates rules input) input perSegment (unboundedBase perSegment input) := by
  refine ⟨fits_of_mul hq h.fare, h.fare, fun r _ => ?_, fun r hr => ?_, fun r hr hd => ?_, h.sums, h.net⟩
  · obtain ⟨hlow, hhigh⟩ := product_bound h.fare (fits_toInt r.basisPoints)
    norm_num at *
    exact ⟨by linarith, by linarith⟩
  · cases hd : r.discount with
    | false =>
      have hfit := h.surcharges r hr hd
      rwa [Rate.amount, hd] at hfit
    | true =>
      have hlt := abs_lt.mp (h.discounts r hr hd)
      simp only [Rate.amount, hd, if_true] at hlt
      exact ⟨by omega, by omega⟩
  · have hlt := abs_lt.mp (h.discounts r hr hd)
    simp only [Rate.amount, hd, if_true] at hlt
    exact ⟨by omega, by omega⟩

lemma NoWrap.amountsFit {rs : List Rate} (h : NoWrap rs input perSegment (unboundedBase perSegment input)) :
    AmountsFit rs (unboundedBase perSegment input) := by
  refine ⟨h.quantity, fun r hr hd => ?_, fun r hr hd => ?_, h.sum, h.total⟩
  · have hfit := h.narrowing r hr
    rwa [Rate.amount, hd]
  · obtain ⟨hlow, hhigh⟩ := h.narrowing r hr
    obtain ⟨hlow', hhigh'⟩ := h.negation r hr hd
    simp only [Rate.amount, hd, if_true]
    exact abs_lt.mpr ⟨by omega, by omega⟩

/-- A booking that gets a price gets the one that unbounded integers give, with no operation
leaving its type, exactly when the amounts of its quote stay in range. -/
theorem evaluate_exact_iff (rules : Rules.FareRuleSet) (input : Rules.RuleInput) :
    (∀ q, evaluate rules input = .ok q → ∃ perSegment, Prices rules input perSegment ∧
      Unbounded rules input perSegment q ∧
      NoWrap (rates rules input) input perSegment (unboundedBase perSegment input)) ↔
    ∀ perSegment, Prices rules input perSegment →
      AmountsFit (rates rules input) (unboundedBase perSegment input) := by
  constructor
  · intro h perSegment hp
    obtain ⟨p, hp', -, hwrap⟩ := h _ (evaluate_eq_ok.mpr ⟨perSegment, hp, rfl⟩)
    cases hp.fare.symm.trans hp'.fare
    exact hwrap.amountsFit
  · intro h q hq
    obtain ⟨perSegment, hp, rfl⟩ := evaluate_eq_ok.mp hq
    have hrange := h perSegment hp
    have hpos : 0 < input.quantity.toInt := by
      have hnot := hp.quantity
      rw [Int32.le_iff_toInt_le] at hnot
      exact not_le.mp hnot
    exact ⟨perSegment, hp, hrange.unbounded, hrange.noWrap hpos⟩

/-- A policy whose base fare is a quarter of what 64 bits hold. -/
def dearRules : Rules.FareRuleSet :=
  { tiedRules with baseFarePerSegment := ⟨[("economy", 2 ^ 62)], by decide +kernel⟩ }

/-- Four segments of it are free. -/
theorem evaluate_wraps :
    ¬∀ q, evaluate dearRules { economySeat with segments := 4 } = .ok q → ∃ perSegment,
      Prices dearRules { economySeat with segments := 4 } perSegment ∧
      Unbounded dearRules { economySeat with segments := 4 } perSegment q ∧
      NoWrap (rates dearRules { economySeat with segments := 4 }) { economySeat with segments := 4 } perSegment
        (unboundedBase perSegment { economySeat with segments := 4 }) := by
  intro h
  have hprices : Prices dearRules { economySeat with segments := 4 } (2 ^ 62) :=
    ⟨by decide, by decide, by decide +kernel⟩
  obtain ⟨p, hp, hq, -⟩ := h _ (evaluate_eq_ok.mpr ⟨_, hprices, rfl⟩)
  obtain rfl := Option.some.inj (hp.fare.symm.trans hprices.fare)
  have hbase := hq.base
  have hfree : (quoteOf dearRules { economySeat with segments := 4 } (2 ^ 62)).baseMinor.toInt = 0 := by decide +kernel
  have hdear : unboundedBase (2 ^ 62) { economySeat with segments := 4 } = 2 ^ 64 := by decide +kernel
  rw [hfree, hdear] at hbase
  norm_num at hbase

end Exactness

end Lulan.Proofs
