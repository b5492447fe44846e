import Lulan.Engine.Pool
import Lulan.Proofs.Runs

/-!
# Pools in memory

Where the counters of a pool in memory are those of unbounded integers, and where they and
the array in the table take the same course.
-/

namespace Lulan.Proofs

open Lulan Lulan.Db Lib

section Counting

/-- A pool counted in unbounded integers. -/
structure Stock where
  capacity : Int
  left : List Int

/-- A call of a pool. -/
inductive PoolCall where
  | reserve (span : SegmentSpan) (qty : Int32)
  | release (span : SegmentSpan) (qty : Int32)

def PoolCall.exec (p : PoolOccupancy) : PoolCall → Except PoolError Unit × PoolOccupancy
  | .reserve span qty => p.reserve span qty
  | .release span qty => p.release span qty

/-- Whether a call can be met. -/
def Stock.Allows (s : Stock) : PoolCall → Prop
  | .reserve span qty => 0 < qty.toInt ∧ span.toIndex ≤ s.left.length ∧
    ∀ r ∈ slice s.left (span.fromIndex + 1) span.toIndex, qty.toInt ≤ r
  | .release span qty => 0 < qty.toInt ∧ span.toIndex ≤ s.left.length ∧
    ∀ r ∈ slice s.left (span.fromIndex + 1) span.toIndex, r + qty.toInt ≤ s.capacity

/-- What is left after a call that was met. -/
def Stock.after (s : Stock) : PoolCall → Stock
  | .reserve span qty => { s with left := addBetween s.left (span.fromIndex + 1) span.toIndex (-qty.toInt) }
  | .release span qty => { s with left := addBetween s.left (span.fromIndex + 1) span.toIndex qty.toInt }

/-- The counters of a pool as unbounded integers. -/
def stockOf (p : PoolOccupancy) : Stock := ⟨p.capacity.toInt, p.remaining.map Int32.toInt⟩

/-- Every counter lies between nothing and the capacity; there are no more than a byte can count. -/
structure Bounded (p : PoolOccupancy) : Prop where
  counters : ∀ r ∈ p.remaining, 0 ≤ r.toInt ∧ r.toInt ≤ p.capacity.toInt
  length : p.remaining.length < 256

variable {p : PoolOccupancy} {span : SegmentSpan} {qty : Int32}

lemma new_bounded (capacity : Int32) (segmentCount : UInt8) : Bounded (PoolOccupancy.new capacity segmentCount) := by
  constructor
  · intro r hr
    rw [PoolOccupancy.new, List.mem_replicate] at hr
    rw [hr.2]
    refine ⟨?_, le_rfl⟩
    have hzero : (0 : Int32).toInt = 0 := rfl
    rw [← hzero, ← Int32.le_iff_toInt_le]
    change 0 ≤ (if capacity ≤ 0 then (0 : Int32) else capacity)
    split
    · exact Int32.le_refl 0
    · exact Int32.le_of_lt (Int32.not_le.mp ‹_›)
  · rw [PoolOccupancy.new, List.length_replicate]
    exact segmentCount.toNat_lt

lemma segmentCount_eq (hp : Bounded p) : p.segmentCount = p.remaining.length := Nat.mod_eq_of_lt hp.length

lemma map_segments (p : PoolOccupancy) (span : SegmentSpan) :
    (p.segments span).map Int32.toInt = slice (p.remaining.map Int32.toInt) (span.fromIndex + 1) span.toIndex := by
  rw [PoolOccupancy.segments, slice, Nat.add_sub_cancel, List.map_drop, List.map_take]

lemma forall_slice {P : Int → Prop} :
    (∀ r ∈ slice (p.remaining.map Int32.toInt) (span.fromIndex + 1) span.toIndex, P r) ↔
      ∀ r ∈ p.segments span, P r.toInt := by
  rw [← map_segments, List.forall_mem_map]

lemma mem_segments {i : Nat} (hc : span.covers i = true) (hi : i < p.remaining.length) :
    p.remaining[i] ∈ p.segments span := by
  obtain ⟨hlo, hhi⟩ := (SegmentSpan.covers_iff span i).mp hc
  rw [PoolOccupancy.segments, List.mem_iff_getElem?]
  refine ⟨i - span.fromIndex, ?_⟩
  rw [List.getElem?_drop, Nat.add_sub_cancel' hlo, List.getElem?_take, if_pos hhi, List.getElem?_eq_getElem hi]

lemma of_mem_segments {r : Int32} (hr : r ∈ p.segments span) : r ∈ p.remaining :=
  List.mem_of_mem_take (List.mem_of_mem_drop hr)

lemma segments_ne_nil (h : span.toIndex ≤ p.remaining.length) : p.segments span ≠ [] := by
  have hlt := span.nonempty
  exact List.ne_nil_of_mem (mem_segments (SegmentSpan.covers_fromIndex span) (by omega))

/-- Counters changed one by one are the array changed between its bounds. -/
lemma map_adjust {f : Int32 → Int32} {d : Int} (hf : ∀ r ∈ p.segments span, (f r).toInt = r.toInt + d) :
    (p.adjust span f).remaining.map Int32.toInt =
      addBetween (p.remaining.map Int32.toInt) (span.fromIndex + 1) span.toIndex d := by
  apply List.ext_getElem
  · simp [PoolOccupancy.adjust, addBetween]
  · intro i hi _
    have hlt : i < p.remaining.length := by simpa [PoolOccupancy.adjust] using hi
    simp only [PoolOccupancy.adjust, addBetween, List.getElem_map, List.getElem_mapIdx]
    by_cases hc : span.covers i = true
    · have hbounds := (SegmentSpan.covers_iff span i).mp hc
      rw [if_pos hc, if_pos (by omega), hf _ (mem_segments hc hlt)]
    · have hbounds := mt (SegmentSpan.covers_iff span i).mpr hc
      rw [if_neg hc, if_neg (by omega)]

/-- A reservation is met where every counter of the span has the quantity, and changes nothing else. -/
lemma reserve_cases (hp : Bounded p) (span : SegmentSpan) (qty : Int32) :
    ((stockOf p).Allows (.reserve span qty) ∧
      p.reserve span qty = (.ok (), p.adjust span (fun r => r - qty))) ∨
    (¬(stockOf p).Allows (.reserve span qty) ∧ ∃ e, p.reserve span qty = (.error e, p)) := by
  have hzero : (0 : Int32).toInt = 0 := rfl
  simp only [Stock.Allows, stockOf, forall_slice, List.length_map, PoolOccupancy.reserve]
  by_cases hq : qty ≤ 0
  · rw [if_pos hq]
    rw [Int32.le_iff_toInt_le, hzero] at hq
    exact .inr ⟨fun h => by omega, _, rfl⟩
  · rw [if_neg hq]
    rw [Int32.le_iff_toInt_le, hzero, not_le] at hq
    rw [PoolOccupancy.remainingFor, PoolOccupancy.checkSpan, segmentCount_eq hp]
    by_cases hs : span.toIndex > p.remaining.length
    · rw [if_pos hs]
      exact .inr ⟨fun h => by omega, _, rfl⟩
    · rw [if_neg hs]
      rw [gt_iff_lt, not_lt] at hs
      cases hm : (p.segments span).min? with
      | none => exact absurd (List.min?_eq_none_iff.mp hm) (segments_ne_nil hs)
      | some low =>
        obtain ⟨hmem, hmin⟩ := List.min?_eq_some_iff.mp hm
        simp only [Option.getD_some]
        by_cases hl : low < qty
        · rw [if_pos hl]
          rw [Int32.lt_iff_toInt_lt] at hl
          refine .inr ⟨fun h => ?_, _, rfl⟩
          have hle := h.2.2 low hmem
          omega
        · rw [if_neg hl]
          rw [Int32.lt_iff_toInt_lt, not_lt] at hl
          refine .inl ⟨⟨hq, hs, fun r hr => ?_⟩, rfl⟩
          exact hl.trans (Int32.le_iff_toInt_le.mp (hmin r hr))

/-- A return is met where no counter of the span, as far as 32 bits show, exceeds the capacity. -/
lemma release_cases (hp : Bounded p) (span : SegmentSpan) (qty : Int32) :
    ((0 < qty.toInt ∧ span.toIndex ≤ p.remaining.length ∧ ∀ r ∈ p.segments span, r + qty ≤ p.capacity) ∧
      p.release span qty = (.ok (), p.adjust span (fun r => r + qty))) ∨
    (¬(0 < qty.toInt ∧ span.toIndex ≤ p.remaining.length ∧ ∀ r ∈ p.segments span, r + qty ≤ p.capacity) ∧
      ∃ e, p.release span qty = (.error e, p)) := by
  have hzero : (0 : Int32).toInt = 0 := rfl
  simp only [PoolOccupancy.release]
  by_cases hq : qty ≤ 0
  · rw [if_pos hq]
    rw [Int32.le_iff_toInt_le, hzero] at hq
    exact .inr ⟨fun h => by omega, _, rfl⟩
  · rw [if_neg hq]
    rw [Int32.le_iff_toInt_le, hzero, not_le] at hq
    rw [PoolOccupancy.checkSpan, segmentCount_eq hp]
    by_cases hs : span.toIndex > p.remaining.length
    · rw [if_pos hs]
      exact .inr ⟨fun h => by omega, _, rfl⟩
    · rw [if_neg hs]
      rw [gt_iff_lt, not_lt] at hs
      simp only
      split
      · rename_i hany
        obtain ⟨r, hr, hlt⟩ := List.any_eq_true.mp hany
        refine .inr ⟨fun h => ?_, _, rfl⟩
        exact absurd (h.2.2 r hr) (Int32.not_le.mpr (of_decide_eq_true hlt))
      · rename_i hany
        refine .inl ⟨⟨hq, hs, fun r hr => ?_⟩, rfl⟩
        by_contra hlt
        exact hany (List.any_eq_true.mpr ⟨r, hr, decide_eq_true (Int32.not_le.mp hlt)⟩)

/-- A counter and a quantity add up past what 32 bits hold. -/
def Wraps (p : PoolOccupancy) (span : SegmentSpan) (qty : Int32) : Prop :=
  ∃ r ∈ p.segments span, 2 ^ 31 ≤ r.toInt + qty.toInt

/-- A counter and a quantity add up to more than the capacity, in full view of the check. -/
def Noticed (p : PoolOccupancy) (span : SegmentSpan) (qty : Int32) : Prop :=
  ∃ r ∈ p.segments span, p.capacity.toInt < r.toInt + qty.toInt ∧ r.toInt + qty.toInt < 2 ^ 31

/-- Where the sum of a counter and a returned quantity wraps around, another sum is noticed. -/
def Counts (p : PoolOccupancy) : PoolCall → Prop
  | .reserve _ _ => True
  | .release span qty => 0 < qty.toInt → span.toIndex ≤ p.remaining.length → Wraps p span qty → Noticed p span qty

lemma toInt_sum32 {r : Int32} (hr : 0 ≤ r.toInt) (hq : 0 < qty.toInt) :
    (r.toInt + qty.toInt < 2 ^ 31 → (r + qty).toInt = r.toInt + qty.toInt) ∧
    (2 ^ 31 ≤ r.toInt + qty.toInt → (r + qty).toInt < 0) := by
  have hr' := r.toInt_lt
  have hq' := qty.toInt_lt
  rw [Int32.toInt_add]
  constructor
  · intro h
    exact Int.bmod_eq_of_le (by omega) (by omega)
  · intro h
    have hwrap : (r.toInt + qty.toInt).bmod (2 ^ 32) = r.toInt + qty.toInt - 2 ^ 32 := by
      rw [← Int.sub_bmod_right]
      exact Int.bmod_eq_of_le (by omega) (by omega)
    omega

/-- The check of a return, counter by counter. -/
lemma fits_iff (hp : Bounded p) (hq : 0 < qty.toInt) {r : Int32} (hr : r ∈ p.segments span) :
    r + qty ≤ p.capacity ↔ r.toInt + qty.toInt ≤ p.capacity.toInt ∨ 2 ^ 31 ≤ r.toInt + qty.toInt := by
  obtain ⟨hlow, hhigh⟩ := hp.counters r (of_mem_segments hr)
  obtain ⟨hexact, hwrap⟩ := toInt_sum32 hlow hq
  have hcap := p.capacity.toInt_lt
  rw [Int32.le_iff_toInt_le]
  by_cases hsum : r.toInt + qty.toInt < 2 ^ 31
  · rw [hexact hsum]
    omega
  · have hneg := hwrap (by omega)
    omega

/-- A return that counts is met exactly where unbounded integers allow it. -/
lemma release_allows_iff (hp : Bounded p) :
    ((0 < qty.toInt ∧ span.toIndex ≤ p.remaining.length ∧ ∀ r ∈ p.segments span, r + qty ≤ p.capacity) ↔
      (stockOf p).Allows (.release span qty)) ↔ Counts p (.release span qty) := by
  simp only [Stock.Allows, stockOf, forall_slice, List.length_map, Counts]
  constructor
  · intro h hq hs ⟨r, hr, hwrap⟩
    by_contra hnoticed
    have hmet : ∀ r ∈ p.segments span, r + qty ≤ p.capacity := by
      intro r' hr'
      rw [fits_iff hp hq hr']
      by_contra hnot
      exact hnoticed ⟨r', hr', by omega, by omega⟩
    have hle := (h.mp ⟨hq, hs, hmet⟩).2.2 r hr
    have hcap := p.capacity.toInt_lt
    omega
  · intro h
    refine and_congr_right (fun hq => and_congr_right (fun hs => ?_))
    constructor
    · intro hmet r hr
      rcases (fits_iff hp hq hr).mp (hmet r hr) with hle | hwrap
      · exact hle
      · obtain ⟨r', hr', hlow, hhigh⟩ := h hq hs ⟨r, hr, hwrap⟩
        rcases (fits_iff hp hq hr').mp (hmet r' hr') with hle' | hwrap'
        · omega
        · omega
    · exact fun hallows r hr => (fits_iff hp hq hr).mpr (.inl (hallows r hr))

/-- One call as unbounded integers have it. -/
structure AsCounted (p : PoolOccupancy) (call : PoolCall) : Prop where
  allowed : (call.exec p).1 = .ok () ↔ (stockOf p).Allows call
  counted : (call.exec p).1 = .ok () → stockOf (call.exec p).2 = (stockOf p).after call
  unchanged : (call.exec p).1 ≠ .ok () → (call.exec p).2 = p
  restored : ∀ span qty, call = .reserve span qty → (call.exec p).1 = .ok () →
    (call.exec p).2.release span qty = (.ok (), p)

/-- The counters stay in range, and every call is as unbounded integers have it. -/
def CountedThrough : PoolOccupancy → List PoolCall → Prop
  | p, [] => Bounded p
  | p, call :: rest => Bounded p ∧ AsCounted p call ∧ CountedThrough (call.exec p).2 rest

/-- No return of a run wraps around unnoticed. -/
def AllCount : PoolOccupancy → List PoolCall → Prop
  | _, [] => True
  | p, call :: rest => Counts p call ∧ AllCount (call.exec p).2 rest

lemma adjust_adjust {f g : Int32 → Int32} (h : ∀ r, g (f r) = r) : (p.adjust span f).adjust span g = p := by
  obtain ⟨capacity, remaining⟩ := p
  simp only [PoolOccupancy.adjust, PoolOccupancy.mk.injEq, true_and]
  apply List.ext_getElem
  · simp
  · intro i _ _
    simp only [List.getElem_mapIdx]
    split
    · exact h _
    · rfl

lemma segments_adjust {f : Int32 → Int32} {r : Int32} (h : r ∈ (p.adjust span f).segments span) :
    ∃ r' ∈ p.segments span, r = f r' := by
  obtain ⟨i, hi⟩ := List.mem_iff_getElem?.mp h
  rw [PoolOccupancy.segments, List.getElem?_drop, List.getElem?_take] at hi
  split at hi
  · rename_i hlt
    obtain ⟨hlen, hget⟩ := List.getElem?_eq_some_iff.mp hi
    have hc : span.covers (span.fromIndex + i) = true :=
      (SegmentSpan.covers_iff span _).mpr ⟨Nat.le_add_right _ _, hlt⟩
    have hlen' : span.fromIndex + i < p.remaining.length := by simpa [PoolOccupancy.adjust] using hlen
    refine ⟨_, mem_segments hc hlen', ?_⟩
    simp only [PoolOccupancy.adjust, List.getElem_mapIdx, if_pos hc] at hget
    exact hget.symm
  · cases hi

/-- Within bounds, a counter less a quantity is exact. -/
lemma toInt_less {r : Int32} (hq : 0 < qty.toInt) (h : qty.toInt ≤ r.toInt) :
    (r - qty).toInt = r.toInt + -qty.toInt := by
  have hr := r.toInt_lt
  rw [Int32.toInt_sub, ← sub_eq_add_neg]
  exact Int.bmod_eq_of_le (by omega) (by omega)

lemma adjust_bounded (hp : Bounded p) {f : Int32 → Int32}
    (hf : ∀ r ∈ p.segments span, 0 ≤ (f r).toInt ∧ (f r).toInt ≤ p.capacity.toInt) : Bounded (p.adjust span f) := by
  constructor
  · intro r hr
    obtain ⟨i, hi, rfl⟩ := List.mem_iff_getElem.mp hr
    have hlt : i < p.remaining.length := by simpa [PoolOccupancy.adjust] using hi
    simp only [PoolOccupancy.adjust, List.getElem_mapIdx]
    split
    · exact hf _ (mem_segments ‹_› hlt)
    · exact hp.counters _ (List.getElem_mem hlt)
  · simpa [PoolOccupancy.adjust] using hp.length

lemma reserve_asCounted (hp : Bounded p) (span : SegmentSpan) (qty : Int32) :
    AsCounted p (.reserve span qty) ∧ Bounded (p.reserve span qty).2 := by
  rcases reserve_cases hp span qty with ⟨hallows, hexec⟩ | ⟨hnot, e, hexec⟩
  · have hmet := hallows
    simp only [Stock.Allows, stockOf, forall_slice, List.length_map] at hmet
    obtain ⟨hq, hs, hle⟩ := hmet
    have hless : ∀ r ∈ p.segments span, (r - qty).toInt = r.toInt + -qty.toInt :=
      fun r hr => toInt_less hq (hle r hr)
    have hrange : Bounded (p.adjust span (fun r => r - qty)) := by
      refine adjust_bounded hp (fun r hr => ?_)
      have hc := hp.counters r (of_mem_segments hr)
      have hr := hle r hr
      rw [hless _ ‹_›]
      omega
    rw [hexec]
    refine ⟨⟨by simp [PoolCall.exec, hexec, hallows], fun _ => ?_, fun h => ?_, ?_⟩, hrange⟩
    · rw [PoolCall.exec, hexec]
      simp only [stockOf, Stock.after, map_adjust hless]
      rfl
    · rw [PoolCall.exec, hexec] at h
      exact absurd rfl h
    · intro span' qty' hcall _
      cases hcall
      rw [PoolCall.exec, hexec]
      have hback : ∀ r : Int32, r - qty + qty = r := fun r => Int32.sub_add_cancel r qty
      rcases release_cases hrange span qty with ⟨-, hrelease⟩ | ⟨hrefused, -⟩
      · rw [hrelease, adjust_adjust hback]
      · refine absurd ⟨hq, by simpa [PoolOccupancy.adjust] using hs, fun r hr => ?_⟩ hrefused
        obtain ⟨r', hr', rfl⟩ := segments_adjust hr
        rw [hback]
        exact Int32.le_iff_toInt_le.mpr (hp.counters r' (of_mem_segments hr')).2
  · rw [hexec]
    refine ⟨⟨by simp [PoolCall.exec, hexec, hnot], fun h => ?_, fun _ => by rw [PoolCall.exec, hexec], ?_⟩, hp⟩
    · rw [PoolCall.exec, hexec] at h
      cases h
    · intro _ _ _ h
      rw [PoolCall.exec, hexec] at h
      cases h

lemma release_asCounted_iff (hp : Bounded p) (span : SegmentSpan) (qty : Int32) :
    AsCounted p (.release span qty) ↔ Counts p (.release span qty) := by
  rw [← release_allows_iff hp]
  rcases release_cases hp span qty with ⟨hmet, hexec⟩ | ⟨hnot, e, hexec⟩
  · constructor
    · intro h
      exact iff_of_true hmet (h.allowed.mp (congrArg Prod.fst hexec))
    · intro h
      have hallows := h.mp hmet
      have hle := hallows
      simp only [Stock.Allows, stockOf, forall_slice, List.length_map] at hle
      obtain ⟨hq, hs, hle⟩ := hle
      refine ⟨by simp [PoolCall.exec, hexec, hallows], fun _ => ?_, fun h => ?_, fun _ _ hcall => by cases hcall⟩
      · have hmore : ∀ r ∈ p.segments span, (r + qty).toInt = r.toInt + qty.toInt := by
          intro r hr
          refine (toInt_sum32 (hp.counters r (of_mem_segments hr)).1 hq).1 ?_
          exact lt_of_le_of_lt (hle r hr) p.capacity.toInt_lt
        rw [PoolCall.exec, hexec]
        simp only [stockOf, Stock.after, map_adjust hmore]
        rfl
      · rw [PoolCall.exec, hexec] at h
        exact absurd rfl h
  · constructor
    · intro h
      refine iff_of_false hnot (fun hallows => ?_)
      have hok := h.allowed.mpr hallows
      rw [PoolCall.exec, hexec] at hok
      cases hok
    · intro h
      refine ⟨?_, fun hok => ?_, fun _ => by rw [PoolCall.exec, hexec], fun _ _ hcall => by cases hcall⟩
      · rw [← h]
        simp [PoolCall.exec, hexec, hnot]
      · rw [PoolCall.exec, hexec] at hok
        cases hok

/-- What such a call leaves is in range. -/
lemma AsCounted.bounded {call : PoolCall} (h : AsCounted p call) (hp : Bounded p) : Bounded (call.exec p).2 := by
  cases call with
  | reserve span qty => exact (reserve_asCounted hp span qty).2
  | release span qty =>
    by_cases hok : ((PoolCall.release span qty).exec p).1 = .ok ()
    · have hallows := h.allowed.mp hok
      simp only [Stock.Allows, stockOf, forall_slice, List.length_map] at hallows
      obtain ⟨hq, hs, hle⟩ := hallows
      rcases release_cases hp span qty with ⟨-, hexec⟩ | ⟨-, e, hexec⟩
      · rw [PoolCall.exec, hexec]
        refine adjust_bounded hp (fun r hr => ?_)
        have hc := hp.counters r (of_mem_segments hr)
        have hr' := hle r hr
        rw [(toInt_sum32 hc.1 hq).1 (lt_of_le_of_lt hr' p.capacity.toInt_lt)]
        omega
      · rw [PoolCall.exec, hexec] at hok
        cases hok
    · rw [h.unchanged hok]
      exact hp

lemma asCounted_iff (hp : Bounded p) (call : PoolCall) : AsCounted p call ↔ Counts p call := by
  cases call with
  | reserve span qty => exact iff_of_true (reserve_asCounted hp span qty).1 trivial
  | release span qty => exact release_asCounted_iff hp span qty

lemma countedThrough_iff (hp : Bounded p) (calls : List PoolCall) : CountedThrough p calls ↔ AllCount p calls := by
  induction calls generalizing p with
  | nil => exact iff_of_true hp trivial
  | cons call rest ih =>
    rw [CountedThrough, AllCount, asCounted_iff hp, and_iff_right hp]
    exact and_congr_right (fun hc => ih (((asCounted_iff hp call).mpr hc).bounded hp))

/-- Through any run of calls a pool that starts full behaves as one counted in unbounded integers,
with its counters in range, if and only if every return whose sums wrap around is noticed by
another of its sums. -/
theorem pool_counts_iff (capacity : Int32) (segmentCount : UInt8) (calls : List PoolCall) :
    CountedThrough (PoolOccupancy.new capacity segmentCount) calls ↔
      AllCount (PoolOccupancy.new capacity segmentCount) calls :=
  countedThrough_iff (new_bounded capacity segmentCount) calls

def firstSegment : SegmentSpan := ⟨0, 1, Nat.zero_lt_one, one_le_maxSegments⟩

/-- A pool of all that 32 bits hold takes one back that it never gave, and is left with less than nothing. -/
theorem full_pool_takes_back :
    ¬∀ (capacity : Int32) (segmentCount : UInt8) (calls : List PoolCall),
      CountedThrough (PoolOccupancy.new capacity segmentCount) calls := by
  intro h
  obtain ⟨-, -, hrange⟩ := h Int32.maxValue 1 [.release firstSegment 1]
  have hlow := (hrange.counters Int32.minValue (by decide)).1
  revert hlow
  decide

end Counting

section Tables

variable {db : Db} {p : PoolOccupancy} {tripId unitId : Uuid} {span : SegmentSpan} {qty : Int32}

/-- A statement on the array of a pool and a call on its counters take the same course. -/
structure SamePool (db : Db) (tripId unitId : Uuid) (statement : Nat × Db)
    (call : Except PoolError Unit × PoolOccupancy) : Prop where
  affected : statement.1 = 1 ↔ call.1 = .ok ()
  remaining : (statement.2.poolOccupancy.find? (tripId, unitId)).map PoolOccupancyRow.remaining =
    some (call.2.remaining.map Int32.toInt)

/-- The row of a pool with its counters. -/
structure PoolRow (db : Db) (tripId unitId : Uuid) (p : PoolOccupancy) : Prop where
  row : db.poolOccupancy.find? (tripId, unitId) = some ⟨tripId, unitId, p.remaining.map Int32.toInt⟩
  capacity : (db.capacityUnits.find? unitId).bind CapacityUnitRow.poolCapacity = some p.capacity.toInt

lemma poolHas_stored (hs : span.toIndex ≤ p.remaining.length) (hq : 0 < qty.toInt) :
    poolHas tripId unitId span qty.toInt ⟨tripId, unitId, p.remaining.map Int32.toInt⟩ = true ↔
      (stockOf p).Allows (.reserve span qty) := by
  simp only [Stock.Allows, stockOf, List.length_map, hs, hq, true_and, poolHas, PoolOccupancyRow.key, decide_true,
    Bool.true_and]
  have hne : slice (p.remaining.map Int32.toInt) (span.fromIndex + 1) span.toIndex ≠ [] := by
    rw [← map_segments]
    simpa using segments_ne_nil hs
  cases hm : (slice (p.remaining.map Int32.toInt) (span.fromIndex + 1) span.toIndex).min? with
  | none => exact absurd (List.min?_eq_none_iff.mp hm) hne
  | some low =>
    obtain ⟨hmem, hmin⟩ := List.min?_eq_some_iff.mp hm
    simp only [decide_eq_true_eq]
    exact ⟨fun h r hr => h.trans (hmin r hr), fun h => h low hmem⟩

lemma poolRoom_stored (h : PoolRow db tripId unitId p) (hs : span.toIndex ≤ p.remaining.length) (hq : 0 < qty.toInt) :
    poolRoom db tripId unitId span qty.toInt ⟨tripId, unitId, p.remaining.map Int32.toInt⟩ = true ↔
      (stockOf p).Allows (.release span qty) := by
  simp only [Stock.Allows, stockOf, List.length_map, hs, hq, true_and, poolRoom, PoolOccupancyRow.key, decide_true,
    Bool.true_and, h.capacity]
  have hne : slice (p.remaining.map Int32.toInt) (span.fromIndex + 1) span.toIndex ≠ [] := by
    rw [← map_segments]
    simpa using segments_ne_nil hs
  cases hm : (slice (p.remaining.map Int32.toInt) (span.fromIndex + 1) span.toIndex).max? with
  | none => exact absurd (List.max?_eq_none_iff.mp hm) hne
  | some high =>
    obtain ⟨hmem, hmax⟩ := List.max?_eq_some_iff.mp hm
    simp only [decide_eq_true_eq]
    refine ⟨fun h r hr => ?_, fun h => h high hmem⟩
    have hle := hmax r hr
    omega

lemma affected_stored {guard : PoolOccupancyRow → Bool} (h : PoolRow db tripId unitId p)
    (hkey : ∀ r, guard r = true → r.key = (tripId, unitId)) :
    db.poolOccupancy.affected guard = 1 ↔ guard ⟨tripId, unitId, p.remaining.map Int32.toInt⟩ = true := by
  rw [Table.affected_of_key hkey, h.row]
  simp

/-- A guarded update of the pool's row, against a call that is met under the same condition. -/
lemma samePool_of_guard {guard : PoolOccupancyRow → Bool} {delta : Int} {call : PoolCall}
    (h : PoolRow db tripId unitId p) (hkey : ∀ r, guard r = true → r.key = (tripId, unitId))
    (hguard : guard ⟨tripId, unitId, p.remaining.map Int32.toInt⟩ = true ↔ (stockOf p).Allows call)
    (hafter : ((stockOf p).after call).left =
      addBetween (p.remaining.map Int32.toInt) (span.fromIndex + 1) span.toIndex delta)
    (hcounted : AsCounted p call) :
    SamePool db tripId unitId (db.poolOccupancy.affected guard, { db with
      poolOccupancy := db.poolOccupancy.update guard ⟨fun r => { r with
        remaining := addBetween r.remaining (span.fromIndex + 1) span.toIndex delta }, fun _ => rfl⟩ }) (call.exec p) := by
  constructor
  · exact (affected_stored h hkey).trans (hguard.trans hcounted.allowed.symm)
  · simp only [Table.find?_update, h.row, Option.map_some, Option.some.injEq]
    by_cases hg : guard ⟨tripId, unitId, p.remaining.map Int32.toInt⟩ = true
    · have hok := hcounted.allowed.mpr (hguard.mp hg)
      have hleft := congrArg Stock.left (hcounted.counted hok)
      rw [hafter] at hleft
      rw [if_pos hg]
      exact hleft.symm
    · have hfailed := hcounted.unchanged (fun hok => hg (hguard.mpr (hcounted.allowed.mp hok)))
      rw [if_neg hg, hfailed]

/-- The seat statements on a `bigint` column, on the table and on the mask as an unsigned word. -/
structure SameSeat (db : Db) (tripId unitId : Uuid) (column : Int64) (span : SegmentSpan) : Prop where
  claims : (db.claimSeatExec tripId unitId span).1 = (claimSeatColumn column span).1 ∧
    ((db.claimSeatExec tripId unitId span).2.seatOccupancy.find? (tripId, unitId)).map SeatOccupancyRow.occupiedMask =
      some (claimSeatColumn column span).2.toBitVec
  claimed : (claimSeatColumn column span).1 = 1 ↔ span.isAvailable column.toBitVec = true
  set : (claimSeatColumn column span).2.toBitVec =
    if span.isAvailable column.toBitVec then column.toBitVec ||| span.mask else column.toBitVec
  releases : (db.releaseSeatExec tripId unitId span).1 = (releaseSeatColumn column span).1 ∧
    ((db.releaseSeatExec tripId unitId span).2.seatOccupancy.find? (tripId, unitId)).map SeatOccupancyRow.occupiedMask =
      some (releaseSeatColumn column span).2.toBitVec
  released : (releaseSeatColumn column span).1 = 1 ↔ ∀ i, span.covers i = true → column.toBitVec.getLsbD i = true
  cleared : (releaseSeatColumn column span).2.toBitVec =
    if (releaseSeatColumn column span).1 = 1 then column.toBitVec &&& ~~~span.mask else column.toBitVec

lemma and_mask_eq_mask_iff (occupied : BitVec 64) (span : SegmentSpan) :
    occupied &&& span.mask = span.mask ↔ ∀ i, span.covers i = true → occupied.getLsbD i = true := by
  constructor
  · intro h i hi
    have hbit := congrArg (fun b => BitVec.getLsbD b i) h
    simpa [hi] using hbit
  · intro h
    apply BitVec.eq_of_getLsbD_eq
    intro i _
    rw [BitVec.getLsbD_and, SegmentSpan.getLsbD_mask]
    cases hc : span.covers i with
    | false => rw [Bool.and_false]
    | true => rw [h i hc, Bool.and_self]

lemma column_and_eq_zero (column : Int64) (span : SegmentSpan) :
    column &&& span.maskParam = 0 ↔ column.toBitVec &&& span.mask = 0#64 := by
  rw [← Int64.toBitVec_inj, Int64.toBitVec_and]
  rfl

lemma column_and_eq_mask (column : Int64) (span : SegmentSpan) :
    column &&& span.maskParam = span.maskParam ↔ column.toBitVec &&& span.mask = span.mask := by
  rw [← Int64.toBitVec_inj, Int64.toBitVec_and]
  rfl

lemma sameSeat_of_row {row : SeatOccupancyRow} (hrow : db.seatOccupancy.find? (tripId, unitId) = some row)
    {column : Int64} (hcolumn : row.occupiedMask = column.toBitVec) (span : SegmentSpan) :
    SameSeat db tripId unitId column span := by
  have hkey := Table.find?_key hrow
  have hclaim : (db.claimSeatExec tripId unitId span).1 = if seatFree tripId unitId span row then 1 else 0 := by
    change db.seatOccupancy.affected (seatFree tripId unitId span) = _
    rw [Table.affected_of_key (fun r hr => seatFree_key hr), hrow]
  have hrelease : (db.releaseSeatExec tripId unitId span).1 = if seatOwned tripId unitId span row then 1 else 0 := by
    change db.seatOccupancy.affected (seatOwned tripId unitId span) = _
    rw [Table.affected_of_key (fun r hr => seatOwned_key hr), hrow]
  have hfree : seatFree tripId unitId span row = true ↔ column &&& span.maskParam = 0 := by
    rw [column_and_eq_zero, ← hcolumn]
    simp [seatFree, hkey]
  have howned : seatOwned tripId unitId span row = true ↔ column &&& span.maskParam = span.maskParam := by
    rw [column_and_eq_mask, ← hcolumn]
    simp [seatOwned, hkey]
  have havailable : span.isAvailable column.toBitVec = true ↔ column &&& span.maskParam = 0 := by
    rw [column_and_eq_zero, SegmentSpan.isAvailable, beq_iff_eq]
  refine ⟨⟨?_, ?_⟩, ?_, ?_, ⟨?_, ?_⟩, ?_, ?_⟩
  · rw [hclaim, claimSeatColumn]
    by_cases h : column &&& span.maskParam = 0
    · rw [if_pos h, if_pos (hfree.mpr h)]
    · rw [if_neg h, if_neg (fun hf => h (hfree.mp hf))]
  · simp only [claimSeatExec, Table.find?_update, hrow, Option.map_some, Option.some.injEq, claimSeatColumn]
    by_cases h : column &&& span.maskParam = 0
    · rw [if_pos h, if_pos (hfree.mpr h), Int64.toBitVec_or, ← hcolumn]
      rfl
    · rw [if_neg h, if_neg (fun hf => h (hfree.mp hf)), hcolumn]
  · rw [havailable, claimSeatColumn]
    by_cases h : column &&& span.maskParam = 0 <;> simp [h]
  · rw [claimSeatColumn]
    by_cases h : column &&& span.maskParam = 0
    · rw [if_pos h, if_pos (havailable.mpr h), Int64.toBitVec_or]
      rfl
    · rw [if_neg h, if_neg (fun hf => h (havailable.mp hf))]
  · rw [hrelease, releaseSeatColumn]
    by_cases h : column &&& span.maskParam = span.maskParam
    · rw [if_pos h, if_pos (howned.mpr h)]
    · rw [if_neg h, if_neg (fun hf => h (howned.mp hf))]
  · simp only [releaseSeatExec, Table.find?_update, hrow, Option.map_some, Option.some.injEq, releaseSeatColumn]
    by_cases h : column &&& span.maskParam = span.maskParam
    · rw [if_pos h, if_pos (howned.mpr h), Int64.toBitVec_and, Int64.toBitVec_not, ← hcolumn]
      rfl
    · rw [if_neg h, if_neg (fun hf => h (howned.mp hf)), hcolumn]
  · rw [← and_mask_eq_mask_iff, ← column_and_eq_mask, releaseSeatColumn]
    by_cases h : column &&& span.maskParam = span.maskParam <;> simp [h]
  · rw [releaseSeatColumn]
    by_cases h : column &&& span.maskParam = span.maskParam
    · rw [if_pos h, if_pos rfl, Int64.toBitVec_and, Int64.toBitVec_not]
      rfl
    · rw [if_neg h, if_neg Nat.zero_ne_one]

/-- The table and the memory take the same course on every claim, on every release of a seat, and on a
return to a pool if and only if, where one of its sums wraps around, another is noticed. -/
theorem table_matches_memory_iff (hp : Bounded p) (h : PoolRow db tripId unitId p)
    (hs : span.toIndex ≤ p.remaining.length) (hq : 0 < qty.toInt) :
    (SamePool db tripId unitId (db.claimPoolExec tripId unitId span qty.toInt) (p.reserve span qty) ∧
      (qty ≤ p.capacity →
        SamePool db tripId unitId (db.releasePoolExec tripId unitId span qty.toInt) (p.release span qty)) ∧
      ∀ seatTrip seatUnit row, db.seatOccupancy.find? (seatTrip, seatUnit) = some row →
        ∀ seatSpan, SameSeat db seatTrip seatUnit (Int64.ofBitVec row.occupiedMask) seatSpan) ↔
    (qty ≤ p.capacity → Wraps p span qty → Noticed p span qty) := by
  have hclaims : SamePool db tripId unitId (db.claimPoolExec tripId unitId span qty.toInt) (p.reserve span qty) :=
    samePool_of_guard h (fun r hr => poolHas_key hr) (poolHas_stored hs hq) rfl (reserve_asCounted hp span qty).1
  have hseats : ∀ seatTrip seatUnit row, db.seatOccupancy.find? (seatTrip, seatUnit) = some row →
      ∀ seatSpan, SameSeat db seatTrip seatUnit (Int64.ofBitVec row.occupiedMask) seatSpan :=
    fun _ _ row hrow => sameSeat_of_row hrow rfl
  constructor
  · rintro ⟨-, hreleases, -⟩ hle
    have hroom := (affected_stored h (fun r hr => poolRoom_key hr)).symm.trans (hreleases hle).affected
    refine (release_allows_iff hp).mp ?_ hq hs
    rw [← poolRoom_stored h hs hq, hroom]
    rcases release_cases hp span qty with ⟨hmet, hexec⟩ | ⟨hnot, e, hexec⟩
    · exact iff_of_true hmet (congrArg Prod.fst hexec)
    · refine iff_of_false hnot (fun hok => ?_)
      rw [hexec] at hok
      cases hok
  · intro hcounts
    refine ⟨hclaims, fun hle => ?_, hseats⟩
    exact samePool_of_guard h (fun r hr => poolRoom_key hr) (poolRoom_stored h hs hq) rfl
      ((asCounted_iff hp _).mpr (fun _ _ => hcounts hle))

/-- A deck of all that 32 bits hold, on a trip of one segment. -/
def endlessDeck : Db :=
  { Db.empty with
    capacityUnits := ⟨[⟨3, 1, .pool, "DECK", none, some 2147483647, false⟩], by decide⟩
    poolOccupancy := ⟨[⟨1, 3, [2147483647]⟩], by decide⟩ }

/-- The table takes nothing back that it never gave; the memory does. -/
theorem memory_takes_back : ¬∀ (db : Db) (p : PoolOccupancy) (tripId unitId : Uuid) (span : SegmentSpan)
    (qty : Int32), Bounded p → PoolRow db tripId unitId p → span.toIndex ≤ p.remaining.length → 0 < qty.toInt →
    qty ≤ p.capacity →
    SamePool db tripId unitId (db.releasePoolExec tripId unitId span qty.toInt) (p.release span qty) := by
  intro h
  have hrange : Bounded (PoolOccupancy.new Int32.maxValue 1) := new_bounded _ _
  have hsame := h endlessDeck (PoolOccupancy.new Int32.maxValue 1) 1 3 firstSegment 1 hrange
    ⟨by decide, by decide⟩ (by decide) (by decide) (by decide)
  have hmet : ((PoolOccupancy.new Int32.maxValue 1).release firstSegment 1).1 = .ok () := by rfl
  have hone := hsame.affected.mpr hmet
  revert hone
  decide

/-- Three places on the deck of ten, taken and not to be had back. -/
theorem table_matches_memory_iff_harbour :
    SamePool harbour.db 1 3 (harbour.db.claimPoolExec 1 3 firstSegment 3)
      ((PoolOccupancy.new 10 2).reserve firstSegment 3) ∧
    SamePool harbour.db 1 3 (harbour.db.releasePoolExec 1 3 firstSegment 3)
      ((PoolOccupancy.new 10 2).release firstSegment 3) := by
  have hrow : PoolRow harbour.db 1 3 (PoolOccupancy.new 10 2) := ⟨by decide, by decide⟩
  have hcounts : (3 : Int32) ≤ (PoolOccupancy.new 10 2).capacity → Wraps (PoolOccupancy.new 10 2) firstSegment 3 →
      Noticed (PoolOccupancy.new 10 2) firstSegment 3 := by
    unfold Wraps Noticed
    decide
  obtain ⟨hclaim, hrelease, -⟩ :=
    (table_matches_memory_iff (new_bounded 10 2) hrow (by decide) (by decide)).mpr hcounts
  exact ⟨hclaim, hrelease (by decide)⟩

end Tables

end Lulan.Proofs
