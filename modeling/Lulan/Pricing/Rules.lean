import Mathlib.Data.Int.Order.Basic
import Lulan.Lib.MaxBy

/-!
# Fare rule evaluation

The quote of one line item from a ruleset and the scalars the host derives for it. Amounts
are 64-bit machine integers, and operations wrap around as they do in a release build.
-/

namespace Lulan.Rules

/-- A map, its keys in order. -/
structure BTreeMap (α : Type) where
  entries : List (String × α)
  sorted : (entries.map Prod.fst).Pairwise (· < ·)
deriving DecidableEq

def BTreeMap.get {α : Type} (m : BTreeMap α) (key : String) : Option α := m.entries.lookup key

structure OccupancyTier where
  /-- Applies when occupancy, in basis points, is at least this. -/
  minOccupancyBp : Int64
  surchargeBp : Int64
deriving DecidableEq

structure AdvanceTier where
  /-- Applies when booking at least this many days before departure. -/
  minDays : Int32
  discountBp : Int64
deriving DecidableEq

/-- A complete fare policy. -/
structure FareRuleSet where
  currency : String
  /-- Fare key to minor units for each segment. -/
  baseFarePerSegment : BTreeMap Int64
  /-- Weekdays, from 0 for Monday, that attract the peak surcharge. -/
  peakWeekdays : List UInt8
  peakSurchargeBp : Int64
  occupancyTiers : List OccupancyTier
  advancePurchaseTiers : List AdvanceTier
  promos : BTreeMap Int64
  passengerTypeDiscounts : BTreeMap Int64
  roundTripDiscountBp : Int64
deriving DecidableEq

/-- Host-derived scalars for one priced line item. -/
structure RuleInput where
  fareKey : String
  segments : UInt8
  quantity : Int32
  weekday : UInt8
  daysBeforeDeparture : Int32
  occupancyBp : Int64
  promoCode : Option String
  passengerType : Option String
  journeyCount : UInt32
  isRoundTrip : Bool
deriving DecidableEq

structure Adjustment where
  label : String
  amountMinor : Int64
deriving DecidableEq

structure Quote where
  currency : String
  baseMinor : Int64
  adjustments : List Adjustment
  totalMinor : Int64
deriving DecidableEq

inductive EvalError where
  | unknownFareKey (key : String)
  | noSegments
  | nonPositiveQuantity (quantity : Int32)
deriving DecidableEq

/-- `amount * basis_points / 10000` in 128 bits, cast back to 64. -/
def bp (amount basisPoints : Int64) : Int64 :=
  Int64.ofBitVec
    (((amount.toBitVec.signExtend 128 * basisPoints.toBitVec.signExtend 128).sdiv 10000#128).truncate 64)

def peakAdjustment (rules : FareRuleSet) (input : RuleInput) (base : Int64) : List Adjustment :=
  if input.weekday ∈ rules.peakWeekdays ∧ rules.peakSurchargeBp ≠ 0 then
    [⟨"peak_weekday", bp base rules.peakSurchargeBp⟩]
  else []

/-- The occupancy tiers that a booking reaches. -/
def OccupancyTier.reachedBy (input : RuleInput) (t : OccupancyTier) : Bool := input.occupancyBp ≥ t.minOccupancyBp

def OccupancyTier.threshold (t : OccupancyTier) : Int := t.minOccupancyBp.toInt

def occupancyAdjustment (base : Int64) : Option OccupancyTier → List Adjustment
  | none => []
  | some tier => if tier.surchargeBp ≠ 0 then [⟨"occupancy", bp base tier.surchargeBp⟩] else []

/-- The advance purchase tiers that a booking reaches. -/
def AdvanceTier.reachedBy (input : RuleInput) (t : AdvanceTier) : Bool := input.daysBeforeDeparture ≥ t.minDays

def AdvanceTier.threshold (t : AdvanceTier) : Int := t.minDays.toInt

def advanceAdjustment (base : Int64) : Option AdvanceTier → List Adjustment
  | none => []
  | some tier => if tier.discountBp ≠ 0 then [⟨"advance_purchase", -bp base tier.discountBp⟩] else []

def passengerAdjustment (rules : FareRuleSet) (input : RuleInput) (base : Int64) : List Adjustment :=
  match input.passengerType with
  | none => []
  | some passengerType =>
    match rules.passengerTypeDiscounts.get passengerType with
    | none => []
    | some discountBp =>
      if discountBp ≠ 0 then [⟨s!"passenger:{passengerType}", -bp base discountBp⟩] else []

def roundTripAdjustment (rules : FareRuleSet) (input : RuleInput) (base : Int64) : List Adjustment :=
  if input.isRoundTrip ∧ rules.roundTripDiscountBp ≠ 0 then
    [⟨"round_trip", -bp base rules.roundTripDiscountBp⟩]
  else []

/-- A promo of zero basis points is listed too. -/
def promoAdjustment (rules : FareRuleSet) (input : RuleInput) (base : Int64) : List Adjustment :=
  match input.promoCode with
  | none => []
  | some code =>
    match rules.promos.get code with
    | none => []
    | some discountBp => [⟨s!"promo:{code}", -bp base discountBp⟩]

/-- Every surcharge and discount, in the order of the quote. The highest tier whose threshold is met wins. -/
def adjustments (rules : FareRuleSet) (input : RuleInput) (base : Int64) : List Adjustment :=
  peakAdjustment rules input base ++
  occupancyAdjustment base
    (Lib.maxByKey OccupancyTier.threshold (rules.occupancyTiers.filter (OccupancyTier.reachedBy input))) ++
  advanceAdjustment base
    (Lib.maxByKey AdvanceTier.threshold (rules.advancePurchaseTiers.filter (AdvanceTier.reachedBy input))) ++
  passengerAdjustment rules input base ++
  roundTripAdjustment rules input base ++
  promoAdjustment rules input base

def baseFare (perSegment : Int64) (input : RuleInput) : Int64 :=
  perSegment * Int64.ofNat input.segments.toNat * input.quantity.toInt64

/-- Evaluate one line item. -/
def evaluate (rules : FareRuleSet) (input : RuleInput) : Except EvalError Quote :=
  if input.segments = 0 then .error .noSegments
  else if input.quantity ≤ 0 then .error (.nonPositiveQuantity input.quantity)
  else
    match rules.baseFarePerSegment.get input.fareKey with
    | none => .error (.unknownFareKey input.fareKey)
    | some perSegment =>
      let base := baseFare perSegment input
      let adjustments := adjustments rules input base
      let sum := (adjustments.map Adjustment.amountMinor).foldl (· + ·) 0
      .ok ⟨rules.currency, base, adjustments, max (base + sum) 0⟩

end Lulan.Rules
