import Lulan.Proofs.Evaluation
import Lulan.Proofs.Inventory

/-!
# Prices and demand

A claim raises what is sold of a fare bucket, and what is sold raises the price.
-/

namespace Lulan.Proofs

open Lib Rules

section Surcharge

variable {rules : Rules.FareRuleSet} {input : Rules.RuleInput} {perSegment : Int64}

/-- A fare policy that asks more of a fuller trip. -/
structure Rising (rules : Rules.FareRuleSet) : Prop where
  fares : ∀ key perSegment, rules.baseFarePerSegment.get key = some perSegment → 0 ≤ perSegment
  distinct : (rules.occupancyTiers.map OccupancyTier.minOccupancyBp).Nodup
  nonneg : ∀ t ∈ rules.occupancyTiers, 0 ≤ t.surchargeBp
  rising : ∀ t ∈ rules.occupancyTiers, ∀ t' ∈ rules.occupancyTiers, t.minOccupancyBp < t'.minOccupancyBp →
    t.surchargeBp ≤ t'.surchargeBp

/-- The same item on a trip sold to another degree. -/
def atOccupancy (input : Rules.RuleInput) (occupancyBp : Int64) : Rules.RuleInput := { input with occupancyBp }

/-- The basis points that the tier of an occupancy adds. -/
def surchargeAt (rules : Rules.FareRuleSet) (input : Rules.RuleInput) : Int :=
  (maxByKey OccupancyTier.threshold (rules.occupancyTiers.filter (OccupancyTier.reachedBy input))).elim 0
    (fun t => t.surchargeBp.toInt)

/-- What the rates that do not depend on the occupancy add to a base. -/
def otherRates (rules : Rules.FareRuleSet) (input : Rules.RuleInput) : List Rate :=
  (if input.weekday ∈ rules.peakWeekdays then listed "peak_weekday" rules.peakSurchargeBp false else []) ++
  (((maxByKey AdvanceTier.threshold (rules.advancePurchaseTiers.filter (AdvanceTier.reachedBy input))).elim []
    (fun t => listed "advance_purchase" t.discountBp true)) ++
  (input.passengerType.elim [] (fun p => (rules.passengerTypeDiscounts.get p).elim []
    (fun d => listed s!"passenger:{p}" d true))) ++
  (if input.isRoundTrip then listed "round_trip" rules.roundTripDiscountBp true else []) ++
  (input.promoCode.elim [] (fun c => (rules.promos.get c).elim [] (fun d => [⟨s!"promo:{c}", d, true⟩]))))

lemma unboundedBase_atOccupancy (o : Int64) :
    unboundedBase perSegment (atOccupancy input o) = unboundedBase perSegment input := rfl

/-- What is left to pay before the price is kept from falling below zero, in unbounded integers. -/
def netTotal (rules : Rules.FareRuleSet) (input : Rules.RuleInput) (perSegment : Int64) : Int :=
  unboundedBase perSegment input + unboundedSum (rates rules input) (unboundedBase perSegment input)

lemma unboundedSum_append (rs rs' : List Rate) (b : Int) :
    unboundedSum (rs ++ rs') b = unboundedSum rs b + unboundedSum rs' b := by
  rw [unboundedSum, List.map_append, List.sum_append]
  rfl

lemma unboundedSum_listed (label : String) (basisPoints : Int64) (b : Int) :
    unboundedSum (listed label basisPoints false) b = (b * basisPoints.toInt).tdiv 10000 := by
  rw [listed]
  by_cases h : basisPoints = 0
  · rw [if_neg (not_not.mpr h), h]
    simp [unboundedSum]
  · rw [if_pos h]
    simp [unboundedSum, Rate.amount, Rate.share]

/-- The occupancy enters the total by its surcharge alone. -/
lemma unboundedSum_rates (b : Int) : unboundedSum (rates rules input) b =
    unboundedSum (otherRates rules input) b + (b * surchargeAt rules input).tdiv 10000 := by
  have hocc : unboundedSum ((maxByKey OccupancyTier.threshold
      (rules.occupancyTiers.filter (OccupancyTier.reachedBy input))).elim []
        (fun t => listed "occupancy" t.surchargeBp false)) b = (b * surchargeAt rules input).tdiv 10000 := by
    rw [surchargeAt]
    cases maxByKey OccupancyTier.threshold (rules.occupancyTiers.filter (OccupancyTier.reachedBy input)) with
    | none => simp [unboundedSum]
    | some t => exact unboundedSum_listed _ _ _
  simp only [rates, otherRates, unboundedSum_append, hocc]
  omega

/-- A fuller trip has no smaller surcharge. -/
lemma Rising.surcharge (h : Rising rules) {o o' : Int64} (ho : o ≤ o') :
    0 ≤ surchargeAt rules (atOccupancy input o) ∧
      surchargeAt rules (atOccupancy input o) ≤ surchargeAt rules (atOccupancy input o') := by
  have hnonneg : ∀ i, 0 ≤ surchargeAt rules i := by
    intro i
    rw [surchargeAt]
    cases hm : maxByKey OccupancyTier.threshold (rules.occupancyTiers.filter (OccupancyTier.reachedBy i)) with
    | none => exact le_rfl
    | some t => exact Int64.le_iff_toInt_le.mp (h.nonneg t (List.mem_filter.mp (isTop_of_maxByKey hm).mem).1)
  refine ⟨hnonneg _, ?_⟩
  cases hm : maxByKey OccupancyTier.threshold
      (rules.occupancyTiers.filter (OccupancyTier.reachedBy (atOccupancy input o))) with
  | none =>
    have hzero : surchargeAt rules (atOccupancy input o) = 0 := by rw [surchargeAt, hm]; rfl
    rw [hzero]
    exact hnonneg _
  | some t =>
    obtain ⟨hmem, hreached⟩ := List.mem_filter.mp (isTop_of_maxByKey hm).mem
    have hreached' : OccupancyTier.reachedBy (atOccupancy input o') t = true :=
      decide_eq_true (Int64.le_trans (of_decide_eq_true hreached) ho)
    have hin := List.mem_filter.mpr ⟨hmem, hreached'⟩
    cases hm' : maxByKey OccupancyTier.threshold
        (rules.occupancyTiers.filter (OccupancyTier.reachedBy (atOccupancy input o'))) with
    | none =>
      rw [maxByKey_eq_none.mp hm'] at hin
      exact absurd hin List.not_mem_nil
    | some t' =>
      have htop := isTop_of_maxByKey hm'
      have hle : t.surchargeBp ≤ t'.surchargeBp := by
        have hthreshold : t.minOccupancyBp ≤ t'.minOccupancyBp := Int64.le_iff_toInt_le.mpr (htop.max t hin)
        by_cases heq : t.minOccupancyBp = t'.minOccupancyBp
        · rw [List.inj_on_of_nodup_map h.distinct hmem (List.mem_filter.mp htop.mem).1 heq]
          exact Int64.le_refl _
        · exact h.rising t hmem t' (List.mem_filter.mp htop.mem).1 (Int64.lt_of_le_of_ne hthreshold heq)
      rw [surchargeAt, surchargeAt, hm, hm']
      exact Int64.le_iff_toInt_le.mp hle

/-- Wrapped charges add up to the wrapped sum. -/
lemma sum_charges_bmod {base : Int64} {b : Int} (hb : base.toInt = b) (rs : List Rate) :
    (((rs.map (Rate.charge base)).map Rules.Adjustment.amountMinor).map Int64.toInt).sum.bmod (2 ^ 64) =
      (unboundedSum rs b).bmod (2 ^ 64) := by
  have hcharge : ∀ r : Rate, (r.charge base).amountMinor.toInt = (r.amount b).bmod (2 ^ 64) := by
    intro r
    have hshare : (bp base r.basisPoints).toInt = (r.share b).bmod (2 ^ 64) := by
      rw [toInt_bp, hb]
      rfl
    rw [Rate.charge, Rate.amount]
    cases r.discount with
    | false => exact hshare
    | true =>
      simp only [if_true]
      rw [Int64.toInt_neg, hshare, Int.bmod_neg_bmod]
  induction rs with
  | nil => rfl
  | cons r rest ih =>
    have hsum : unboundedSum (r :: rest) b = r.amount b + unboundedSum rest b := by
      rw [unboundedSum, List.map_cons, List.sum_cons]
      rfl
    rw [List.map_cons, List.map_cons, List.map_cons, List.sum_cons, hcharge, hsum, Int.bmod_add_bmod,
      Int.add_comm, ← Int.bmod_add_bmod, ih, Int.bmod_add_bmod, Int.add_comm]

/-- Only the base and what is left to pay have to stay in range for the total to be right. -/
lemma total_of_fits (hb : Fits (unboundedBase perSegment input)) (hn : Fits (netTotal rules input perSegment)) :
    (quoteOf rules input perSegment).totalMinor.toInt = max (netTotal rules input perSegment) 0 := by
  have hbase : (baseFare perSegment input).toInt = unboundedBase perSegment input := by
    rw [toInt_baseFare, bmod_of_fits hb]
  have hzero : (0 : Int64).toInt = 0 := rfl
  simp only [quoteOf]
  rw [toInt_max_zero, Int64.toInt_add, toInt_foldl_add, hzero, Int.zero_add, adjustments_eq,
    sum_charges_bmod hbase, hbase, Int.add_bmod_bmod, ← netTotal, bmod_of_fits hn]

/-- The fare of an item, and what is left to pay for it at two occupancies, stay within 64 bits. -/
structure TotalsFit (rules : Rules.FareRuleSet) (input : Rules.RuleInput) (perSegment o o' : Int64) : Prop where
  base : Fits (unboundedBase perSegment input)
  before : Fits (netTotal rules (atOccupancy input o) perSegment)
  after : Fits (netTotal rules (atOccupancy input o') perSegment)

/-- Whatever an item costs at one occupancy, it costs no less at another. -/
def NoCheaper (rules : Rules.FareRuleSet) (input : Rules.RuleInput) (o o' : Int64) : Prop :=
  ∀ q, evaluate rules (atOccupancy input o) = .ok q →
    ∃ q', evaluate rules (atOccupancy input o') = .ok q' ∧ q.totalMinor ≤ q'.totalMinor

lemma Rising.noCheaper (h : Rising rules) {o o' : Int64} (ho : o ≤ o')
    (hfit : ∀ perSegment, Prices rules input perSegment → TotalsFit rules input perSegment o o') :
    NoCheaper rules input o o' := by
  intro q hq
  obtain ⟨perSegment, hp, rfl⟩ := evaluate_eq_ok.mp hq
  have hp' : Prices rules (atOccupancy input o') perSegment := ⟨hp.segments, hp.quantity, hp.fare⟩
  obtain ⟨hbase, hbefore, hafter⟩ := hfit perSegment ⟨hp.segments, hp.quantity, hp.fare⟩
  refine ⟨_, evaluate_eq_ok.mpr ⟨perSegment, hp', rfl⟩, ?_⟩
  rw [← unboundedBase_atOccupancy o] at hbase
  have htotal := total_of_fits hbase hbefore
  rw [unboundedBase_atOccupancy, ← unboundedBase_atOccupancy o'] at hbase
  have htotal' := total_of_fits hbase hafter
  rw [unboundedBase_atOccupancy] at hbase
  rw [Int64.le_iff_toInt_le, htotal, htotal']
  have hnonneg : 0 ≤ unboundedBase perSegment input := by
    have hfare : 0 ≤ perSegment.toInt := Int64.le_iff_toInt_le.mp (h.fares _ _ hp.fare)
    have hquantity : 0 ≤ input.quantity.toInt := by
      have hq := hp.quantity
      rw [Int32.le_iff_toInt_le] at hq
      exact (not_le.mp hq).le
    exact mul_nonneg (mul_nonneg hfare (Int.natCast_nonneg _)) hquantity
  have hsurcharge : 0 ≤ surchargeAt rules (atOccupancy input o) ∧
      surchargeAt rules (atOccupancy input o) ≤ surchargeAt rules (atOccupancy input o') := h.surcharge ho
  obtain ⟨hpos, hle⟩ := hsurcharge
  have hshare : (unboundedBase perSegment input * surchargeAt rules (atOccupancy input o)).tdiv 10000 ≤
      (unboundedBase perSegment input * surchargeAt rules (atOccupancy input o')).tdiv 10000 := by
    rw [Int.tdiv_eq_ediv_of_nonneg (mul_nonneg hnonneg hpos),
      Int.tdiv_eq_ediv_of_nonneg (mul_nonneg hnonneg (hpos.trans hle))]
    exact Int.ediv_le_ediv (by norm_num) (mul_le_mul_of_nonneg_left hle hnonneg)
  have hnet : netTotal rules (atOccupancy input o) perSegment ≤ netTotal rules (atOccupancy input o') perSegment := by
    rw [netTotal, netTotal, unboundedSum_rates, unboundedSum_rates]
    exact add_le_add_right (add_le_add_right hshare _) _
  exact max_le_max_right 0 hnet

end Surcharge

section Occupancy

open Lulan Lulan.Db

variable {db₀ db db' : Db} {direct : List (Claim Cell)} {tripId unitId : Uuid} {kind : UnitKind} {span : SegmentSpan}

/-- The same seats and pools, with more of them sold. -/
structure Fuller (db db' : Db) : Prop where
  units : db'.capacityUnits = db.capacityUnits
  seats : ∃ g : SeatOccupancyRow → SeatOccupancyRow, db'.seatOccupancy.rows = db.seatOccupancy.rows.map g ∧
    ∀ r, (g r).tripId = r.tripId ∧ (g r).unitId = r.unitId ∧
      ∀ m, r.occupiedMask &&& m ≠ 0#64 → (g r).occupiedMask &&& m ≠ 0#64
  pools : ∀ k, (db.poolOccupancy.find? k = none ∧ db'.poolOccupancy.find? k = none) ∨
    ∃ row row', db.poolOccupancy.find? k = some row ∧ db'.poolOccupancy.find? k = some row' ∧
      row'.remaining.length = row.remaining.length ∧
      ∀ i, i < row.remaining.length → row'.remaining.getD i 0 ≤ row.remaining.getD i 0

/-- A claim of a seat, or of some quantity of a pool, on a trip. -/
inductive ClaimOn (db : Db) (tripId : Uuid) : Db → Prop where
  | seat (unitId : Uuid) (span : SegmentSpan) : ClaimOn db tripId (db.claimSeatExec tripId unitId span).2
  | pool (unitId : Uuid) (span : SegmentSpan) {qty : Int} (hq : 0 < qty) :
    ClaimOn db tripId (db.claimPoolExec tripId unitId span qty).2

lemma pools_refl (db : Db) (k : Uuid × Uuid) : (db.poolOccupancy.find? k = none ∧ db.poolOccupancy.find? k = none) ∨
    ∃ row row', db.poolOccupancy.find? k = some row ∧ db.poolOccupancy.find? k = some row' ∧
      row'.remaining.length = row.remaining.length ∧
      ∀ i, i < row.remaining.length → row'.remaining.getD i 0 ≤ row.remaining.getD i 0 := by
  cases h : db.poolOccupancy.find? k with
  | none => exact .inl ⟨rfl, rfl⟩
  | some row => exact .inr ⟨row, row, rfl, rfl, rfl, fun _ _ => le_rfl⟩

lemma ClaimOn.fuller (h : ClaimOn db tripId db') : Fuller db db' := by
  cases h with
  | seat unitId span =>
    refine ⟨rfl, ⟨_, rfl, fun r => ?_⟩, pools_refl db⟩
    by_cases hp : seatFree tripId unitId span r = true
    · refine ⟨by simp [hp], by simp [hp], fun m hm => ?_⟩
      simp only [hp, if_true]
      intro hzero
      apply hm
      apply BitVec.eq_of_getLsbD_eq
      intro i hi
      have hbit := congrArg (fun b => BitVec.getLsbD b i) hzero
      simp only [BitVec.getLsbD_and, BitVec.getLsbD_or, BitVec.getLsbD_zero] at hbit ⊢
      cases hr : r.occupiedMask.getLsbD i
      · rfl
      · rw [hr] at hbit
        simpa using hbit
    · simp [hp]
  | pool unitId span hq =>
    refine ⟨rfl, ⟨id, (List.map_id _).symm, fun r => ⟨rfl, rfl, fun _ hm => hm⟩⟩, fun k => ?_⟩
    simp only [claimPoolExec, Table.find?_update]
    cases hk : db.poolOccupancy.find? k with
    | none => exact .inl ⟨rfl, rfl⟩
    | some row =>
      refine .inr ⟨row, _, rfl, rfl, ?_, fun i hi => ?_⟩
      · dsimp only
        split
        · exact length_addBetween _ _ _ _
        · rfl
      · dsimp only
        split
        · rw [getD_addBetween _ _ _ hi]
          split <;> omega
        · exact le_rfl

/-- The least count of a slice falls with its counts. -/
lemma min_slice_le {l l' : List Int} (hlen : l'.length = l.length)
    (hle : ∀ i, i < l.length → l'.getD i 0 ≤ l.getD i 0) :
    (slice l' (span.fromIndex + 1) span.toIndex).min?.getD 0 ≤
      (slice l (span.fromIndex + 1) span.toIndex).min?.getD 0 := by
  cases hm : (slice l (span.fromIndex + 1) span.toIndex).min? with
  | none =>
    have hempty : slice l' (span.fromIndex + 1) span.toIndex = [] := by
      rw [List.min?_eq_none_iff] at hm
      have hzero : (slice l (span.fromIndex + 1) span.toIndex).length = 0 := by rw [hm]; rfl
      apply List.eq_nil_of_length_eq_zero
      rw [← hzero]
      simp only [slice, List.length_drop, List.length_take, hlen]
    rw [hempty]
    exact le_rfl
  | some m =>
    obtain ⟨hmem, -⟩ := List.min?_eq_some_iff.mp hm
    obtain ⟨i, hc, hi, hget⟩ := mem_slice.mp hmem
    have hin : l'.getD i 0 ∈ slice l' (span.fromIndex + 1) span.toIndex :=
      mem_slice.mpr ⟨i, hc, by rw [hlen]; exact hi, rfl⟩
    cases hm' : (slice l' (span.fromIndex + 1) span.toIndex).min? with
    | none =>
      rw [List.min?_eq_none_iff] at hm'
      rw [hm'] at hin
      exact absurd hin List.not_mem_nil
    | some m' =>
      have hmin := (List.min?_eq_some_iff.mp hm').2 _ hin
      have hi' := hle i hi
      rw [hget] at hi'
      exact hmin.trans hi'

/-- What is sold of a fare bucket does not fall. -/
lemma Fuller.occupancy (h : Fuller db db') (tripId unitId : Uuid) (kind : UnitKind) (span : SegmentSpan) :
    db.spanOccupancyBp tripId unitId kind span ≤ db'.spanOccupancyBp tripId unitId kind span := by
  cases kind with
  | seat =>
    obtain ⟨g, hrows, hg⟩ := h.seats
    simp only [spanOccupancyBp, h.units, Table.select, hrows, List.filter_map, List.length_map, List.countP_map]
    have hsame : ∀ fareClass : Option String,
        ((fun so : SeatOccupancyRow => decide (so.tripId = tripId) && fareClass.isSome &&
          (db.capacityUnits.find? so.unitId).any (fun cu => decide (cu.fareClass = fareClass))) ∘ g) =
        (fun so : SeatOccupancyRow => decide (so.tripId = tripId) && fareClass.isSome &&
          (db.capacityUnits.find? so.unitId).any (fun cu => decide (cu.fareClass = fareClass))) := by
      intro fareClass
      funext so
      simp only [Function.comp_apply, (hg so).1, (hg so).2.1]
    rw [hsame]
    have hsold : ∀ seats : List SeatOccupancyRow,
        (if seats.length = 0 then (0 : Int)
          else (seats.countP (fun so => so.occupiedMask &&& span.mask != 0#64) * 10000 / seats.length : Nat)) ≤
        if seats.length = 0 then (0 : Int)
          else (seats.countP ((fun so => so.occupiedMask &&& span.mask != 0#64) ∘ g) * 10000 / seats.length : Nat) := by
      intro seats
      split
      · exact le_rfl
      · refine Int.ofNat_le.mpr (Nat.div_le_div_right (Nat.mul_le_mul_right _ (List.countP_mono_left ?_)))
        intro so _ hso
        exact bne_iff_ne.mpr ((hg so).2.2 _ (bne_iff_ne.mp hso))
    exact hsold _
  | pool =>
    simp only [spanOccupancyBp, h.units]
    rcases h.pools (tripId, unitId) with ⟨h₁, h₂⟩ | ⟨row, row', h₁, h₂, hlen, hle⟩
    · rw [h₁, h₂]
    · rw [h₁, h₂]
      cases db.capacityUnits.find? unitId with
      | none => exact le_rfl
      | some cu =>
        have hmin : (slice row'.remaining (span.fromIndex + 1) span.toIndex).min?.getD 0 ≤
            (slice row.remaining (span.fromIndex + 1) span.toIndex).min?.getD 0 := min_slice_le hlen hle
        simp only
        split
        · exact le_rfl
        · exact Int.tdiv_le_tdiv (by omega) (by omega)

/-- Every pool starts full. -/
def PoolsFull (db : Db) : Prop :=
  ∀ tripId unitId row, db.poolOccupancy.find? (tripId, unitId) = some row → Regular db (.pool, tripId, unitId)

lemma Balanced.used_nonneg (h : Balanced db₀ db direct) (h₀ : db₀.Seeded) {k : Cell} (hk : Regular db₀ k) {i : Nat}
    (hi : i < Proofs.width db k) : 0 ≤ Proofs.used db k i := by
  have hseed := (used_seed_nonneg h₀ hk (by rw [← h.width]; exact hi)).1
  have hlive := load_live_nonneg h (liveItems db) (fun r hr => (Table.mem_select.mp hr).1) k i
  have hdirect := load_nonneg (fun d hd => (h.sold d hd).le) k i
  have hbalance := h.balance k hk i hi
  omega

/-- What is sold of a fare bucket is a share of it. -/
lemma Balanced.occupancy_range (h : Balanced db₀ db direct) (h₀ : db₀.Seeded) (hfull : PoolsFull db₀)
    (tripId unitId : Uuid) (kind : UnitKind) (span : SegmentSpan) :
    0 ≤ db.spanOccupancyBp tripId unitId kind span ∧ db.spanOccupancyBp tripId unitId kind span ≤ 10000 := by
  cases kind with
  | seat =>
    simp only [spanOccupancyBp]
    split
    · exact ⟨le_rfl, by norm_num⟩
    · refine ⟨Int.natCast_nonneg _, Int.ofNat_le.mpr (Nat.div_le_of_le_mul ?_)⟩
      exact Nat.mul_le_mul_right _ List.countP_le_length
  | pool =>
    simp only [spanOccupancyBp]
    split
    · rename_i row cu hrow hcu
      split
      · exact ⟨le_rfl, by norm_num⟩
      · rename_i hpos
        have hlimit : limit db (.pool, tripId, unitId) = cu.poolCapacity.getD 0 := by simp [limit, hcu]
        have hcount : ∀ x ∈ slice row.remaining (span.fromIndex + 1) span.toIndex,
            0 ≤ x ∧ x ≤ cu.poolCapacity.getD 0 := by
          intro x hx
          obtain ⟨i, -, hi, rfl⟩ := mem_slice.mp hx
          have hin : i < Proofs.width db (.pool, tripId, unitId) := by simpa [Proofs.width, hrow] using hi
          have hreg : Regular db₀ (.pool, tripId, unitId) := by
            have hin₀ := hin
            rw [h.width, Proofs.width] at hin₀
            split at hin₀
            · exact hfull _ _ _ ‹_›
            · cases hin₀
          have hlow := h.fits _ hreg i hin
          have hhigh := h.used_nonneg h₀ hreg hin
          simp only [Proofs.used, hrow, hlimit] at hlow hhigh
          omega
        have hleast : 0 ≤ (slice row.remaining (span.fromIndex + 1) span.toIndex).min?.getD 0 ∧
            (slice row.remaining (span.fromIndex + 1) span.toIndex).min?.getD 0 ≤ cu.poolCapacity.getD 0 := by
          cases hm : (slice row.remaining (span.fromIndex + 1) span.toIndex).min? with
          | none => exact ⟨le_rfl, (not_le.mp hpos).le⟩
          | some m => exact hcount m (List.min?_eq_some_iff.mp hm).1
        rw [Int.tdiv_eq_ediv_of_nonneg (by omega)]
        exact ⟨Int.ediv_nonneg (by omega) (by omega), Int.ediv_le_of_le_mul (by omega) (by omega)⟩
    · exact ⟨le_rfl, by norm_num⟩

lemma ClaimOn.balanced (h : Balanced db₀ db direct) (hc : ClaimOn db tripId db') :
    ∃ direct', Balanced db₀ db' direct' := by
  cases hc with
  | seat unitId span =>
    by_cases hw : (db.claimSeatExec tripId unitId span).1 = 1
    · exact ⟨_, h.sell (claimSeatExec_claims hw) (by simp [spanClaim]) rfl rfl rfl⟩
    · have hle := affected_le_one db.seatOccupancy (seatFree tripId unitId span) _ (fun r hr => seatFree_key hr)
      have hzero : db.seatOccupancy.affected (seatFree tripId unitId span) = 0 := by
        have hne : db.seatOccupancy.affected (seatFree tripId unitId span) ≠ 1 := hw
        omega
      exact ⟨direct, h.congr rfl rfl (update_of_affected_zero _ _ _ hzero) rfl rfl⟩
  | @pool unitId span qty hq =>
    by_cases hw : (db.claimPoolExec tripId unitId span qty).1 = 1
    · exact ⟨_, h.sell (claimPoolExec_claims hw) (by simpa [spanClaim] using hq) rfl rfl rfl⟩
    · have hle := affected_le_one db.poolOccupancy (poolHas tripId unitId span qty) _ (fun r hr => poolHas_key hr)
      have hzero : db.poolOccupancy.affected (poolHas tripId unitId span qty) = 0 := by
        have hne : db.poolOccupancy.affected (poolHas tripId unitId span qty) ≠ 1 := hw
        omega
      exact ⟨direct, h.congr rfl rfl rfl (update_of_affected_zero _ _ _ hzero) rfl⟩

end Occupancy

section Run

open Lulan Lulan.Db

variable {app : AppState} {s : World}
  {c : LockConf Request World Tx TxResult Call Reply Answer Uuid LockRead LockRead}

/-- Whatever is claimed, no fare bucket of the system is sold to a smaller share, and no item costs
less under a policy that asks more of a fuller trip, if its fare and its totals stay in range. -/
theorem claim_raises_prices (hs : s.db.Seeded) (hfull : PoolsFull s.db) (hc : Reaches app s c) {tripId : Uuid}
    {db' : Db} (hclaim : ClaimOn c.store.db tripId db') (pricedTrip unitId : Uuid) (kind : UnitKind)
    (span : SegmentSpan) {o o' : Int} (ho : c.store.db.spanOccupancyBp pricedTrip unitId kind span = o)
    (ho' : db'.spanOccupancyBp pricedTrip unitId kind span = o') :
    (0 ≤ o ∧ o ≤ o' ∧ o' ≤ 10000) ∧
    ∀ (rules : Rules.FareRuleSet) (input : Rules.RuleInput), Rising rules →
      (∀ perSegment, Prices rules input perSegment →
        TotalsFit rules input perSegment (Int64.ofInt o) (Int64.ofInt o')) →
      NoCheaper rules input (Int64.ofInt o) (Int64.ofInt o') := by
  have hbalanced := (hc.runOk hs).balanced
  obtain ⟨direct', hbalanced'⟩ := hclaim.balanced hbalanced
  have hlow := (hbalanced.occupancy_range hs hfull pricedTrip unitId kind span).1
  have hhigh := (hbalanced'.occupancy_range hs hfull pricedTrip unitId kind span).2
  have hle := hclaim.fuller.occupancy pricedTrip unitId kind span
  rw [ho] at hlow hle
  rw [ho'] at hhigh hle
  refine ⟨⟨hlow, hle, hhigh⟩, fun rules input hrising hfit => hrising.noCheaper ?_ hfit⟩
  rw [Int64.le_iff_toInt_le, Int64.toInt_ofInt_of_le (by omega) (by omega),
    Int64.toInt_ofInt_of_le (by omega) (by omega)]
  exact hle

def demandTiers : List OccupancyTier := [⟨8000, 20000⟩, ⟨5000, 10000⟩]

/-- A policy that doubles the fare of a trip that is half sold. -/
def demandRules (perSegment : Int64) : Rules.FareRuleSet where
  currency := "PHP"
  baseFarePerSegment := ⟨[("business", perSegment)], List.pairwise_singleton _ _⟩
  peakWeekdays := []
  peakSurchargeBp := 0
  occupancyTiers := demandTiers
  advancePurchaseTiers := []
  promos := ⟨[], .nil⟩
  passengerTypeDiscounts := ⟨[], .nil⟩
  roundTripDiscountBp := 0

lemma demandRules_rising {perSegment : Int64} (h : 0 ≤ perSegment) : Rising (demandRules perSegment) where
  fares key p hp := by
    simp only [BTreeMap.get, demandRules, List.lookup_cons, List.lookup_nil] at hp
    split at hp
    · cases hp
      exact h
    · cases hp
  distinct := (by decide : (demandTiers.map OccupancyTier.minOccupancyBp).Nodup)
  nonneg := (by decide : ∀ t ∈ demandTiers, 0 ≤ t.surchargeBp)
  rising := (by decide : ∀ t ∈ demandTiers, ∀ t' ∈ demandTiers, t.minOccupancyBp < t'.minOccupancyBp →
    t.surchargeBp ≤ t'.surchargeBp)

def businessSeat : Rules.RuleInput := { economySeat with fareKey := "business", segments := 1 }

lemma businessSeat_prices (perSegment o : Int64) :
    Prices (demandRules perSegment) (atOccupancy businessSeat o) perSegment where
  segments := (by decide : businessSeat.segments ≠ 0)
  quantity := (by decide : ¬businessSeat.quantity ≤ 0)
  fare := by simp [BTreeMap.get, demandRules, atOccupancy, businessSeat]

lemma harbour_poolsFull : PoolsFull harbour.db := by
  intro tripId unitId row hrow
  have hkey := Table.find?_key hrow
  have hmem : row = ⟨1, 3, [10, 10]⟩ ∨ row = ⟨2, 3, [10, 10]⟩ := by simpa [harbour] using Table.find?_mem hrow
  rcases hmem with rfl | rfl
  · cases hkey
    exact ⟨⟨1, 1, 1, 86400, 2, .scheduled⟩, _, 10, by decide, hrow, by decide, rfl⟩
  · cases hkey
    exact ⟨⟨2, 2, 1, 172800, 2, .scheduled⟩, _, 10, by decide, hrow, by decide, rfl⟩

/-- The whole trip. -/
def wholeTrip : SegmentSpan := ⟨0, 2, Nat.zero_lt_two, two_le_maxSegments⟩

/-- A seat of the two in business is sold. -/
lemma harbour_occupancy : harbour.db.spanOccupancyBp 1 2 .seat wholeTrip = 0 ∧
    (harbour.db.claimSeatExec 1 1 wholeTrip).2.spanOccupancyBp 1 2 .seat wholeTrip = 5000 := by
  decide

/-- A fare that doubles beyond what 64 bits hold is charged at nothing. -/
theorem demand_wraps : ¬∀ (app : AppState) (s : World)
    (c : LockConf Request World Tx TxResult Call Reply Answer Uuid LockRead LockRead) (tripId : Uuid) (db' : Db)
    (pricedTrip unitId : Uuid) (kind : UnitKind) (span : SegmentSpan), s.db.Seeded → PoolsFull s.db →
    Reaches app s c → ClaimOn c.store.db tripId db' → ∀ rules input, Rising rules →
    NoCheaper rules input (Int64.ofInt (c.store.db.spanOccupancyBp pricedTrip unitId kind span))
      (Int64.ofInt (db'.spanOccupancyBp pricedTrip unitId kind span)) := by
  intro h
  have hrising : Rising (demandRules (2 ^ 62)) := demandRules_rising (by decide +kernel)
  have hcheaper : NoCheaper (demandRules (2 ^ 62)) businessSeat 0 5000 := by
    have hclaim := h sandbox harbour (RowLocks.init harbour) 1 _ 1 2 .seat wholeTrip harbour_seeded harbour_poolsFull
      .refl (.seat 1 wholeTrip) _ businessSeat hrising
    obtain ⟨hbefore, hafter⟩ := harbour_occupancy
    change NoCheaper _ _ (Int64.ofInt (harbour.db.spanOccupancyBp 1 2 .seat wholeTrip))
      (Int64.ofInt ((harbour.db.claimSeatExec 1 1 wholeTrip).2.spanOccupancyBp 1 2 .seat wholeTrip)) at hclaim
    rw [hbefore, hafter] at hclaim
    exact hclaim
  obtain ⟨q', hq', hle⟩ := hcheaper _ (evaluate_eq_ok.mpr ⟨_, businessSeat_prices _ _, rfl⟩)
  rw [evaluate_eq_ok.mpr ⟨_, businessSeat_prices _ _, rfl⟩] at hq'
  cases hq'
  revert hle
  decide +kernel

/-- At ordinary fares the second seat costs more than the first. -/
theorem claim_raises_prices_harbour : NoCheaper (demandRules 15000) businessSeat 0 5000 := by
  obtain ⟨hbefore, hafter⟩ := harbour_occupancy
  have hinit : Reaches sandbox harbour (RowLocks.init harbour) := .refl
  refine (claim_raises_prices harbour_seeded harbour_poolsFull hinit (.seat 1 wholeTrip) 1 2 .seat
    wholeTrip hbefore hafter).2 (demandRules 15000) businessSeat (demandRules_rising (by decide)) ?_
  intro perSegment hp
  obtain rfl : 15000 = perSegment := Option.some.inj ((businessSeat_prices 15000 0).fare.symm.trans hp.fare)
  constructor <;> decide

end Run

end Lulan.Proofs
