import Lulan.Lib.Ledger
import Lulan.Proofs.Effects

/-!
# Occupancy as a ledger

Seats and pools are read as one ledger of segments: a seat has 64 segments that hold one
claim each, a pool has one counter for each of its segments. The guarded updates are the
claims and releases of that ledger.
-/

namespace Lulan.Proofs

open Lulan Lulan.Db

/-- A seat or a pool of one trip. -/
abbrev Cell := UnitKind × Uuid × Uuid

/-- How many segments a cell keeps. -/
def width (db : Db) : Cell → Nat
  | (.seat, tripId, unitId) => if (db.seatOccupancy.find? (tripId, unitId)).isSome then 64 else 0
  | (.pool, tripId, unitId) =>
    match db.poolOccupancy.find? (tripId, unitId) with
    | some r => r.remaining.length
    | none => 0

/-- What one segment of a cell can hold. -/
def limit (db : Db) : Cell → Int
  | (.seat, _, _) => 1
  | (.pool, _, unitId) => ((db.capacityUnits.find? unitId).bind CapacityUnitRow.poolCapacity).getD 0

/-- What is taken of a segment. -/
def used (db : Db) : Cell → Nat → Int
  | (.seat, tripId, unitId), i =>
    match db.seatOccupancy.find? (tripId, unitId) with
    | some r => (r.occupiedMask.getLsbD i).toNat
    | none => 0
  | (.pool, tripId, unitId), i =>
    match db.poolOccupancy.find? (tripId, unitId) with
    | some r => limit db (.pool, tripId, unitId) - r.remaining.getD i 0
    | none => 0

/-- The claim of a span. -/
def spanClaim (k : Cell) (span : SegmentSpan) (qty : Int) : Lib.Claim Cell := ⟨k, span.fromIndex, span.toIndex, qty⟩

/-- What an item holds while its order is alive. -/
def itemClaim (r : OrderItemRow) : Lib.Claim Cell :=
  spanClaim (r.kind, r.tripId, r.unitId) r.span (match r.kind with | .seat => 1 | .pool => r.quantity)

lemma width_congr {db db' : Db} (hs : db'.seatOccupancy = db.seatOccupancy)
    (hp : db'.poolOccupancy = db.poolOccupancy) (k : Cell) : width db' k = width db k := by
  obtain ⟨kind, t, u⟩ := k
  cases kind <;> simp [width, hs, hp]

lemma limit_congr {db db' : Db} (hc : db'.capacityUnits = db.capacityUnits) (k : Cell) :
    limit db' k = limit db k := by
  obtain ⟨kind, t, u⟩ := k
  cases kind <;> simp [limit, hc]

lemma used_congr {db db' : Db} (hs : db'.seatOccupancy = db.seatOccupancy)
    (hp : db'.poolOccupancy = db.poolOccupancy) (hc : db'.capacityUnits = db.capacityUnits) (k : Cell) (i : Nat) :
    used db' k i = used db k i := by
  obtain ⟨kind, t, u⟩ := k
  cases kind <;> simp [used, hs, hp, limit_congr hc]

/-- A claim that won. -/
structure Claims (db db' : Db) (c : Lib.Claim Cell) : Prop where
  enters : c.lo < width db c.cell
  fits : ∀ i, i < width db c.cell → c.lo ≤ i → i < c.hi → used db c.cell i + c.qty ≤ limit db c.cell
  width : ∀ k, width db' k = width db k
  used : ∀ k i, i < Proofs.width db k → used db' k i = used db k i + c.on k i

/-- A release that went through. -/
structure Releases (db db' : Db) (c : Lib.Claim Cell) : Prop where
  width : ∀ k, width db' k = width db k
  used : ∀ k i, i < Proofs.width db k → used db' k i = used db k i - c.on k i

/-- A claim that won keeps every segment within its limit. -/
lemma Claims.within {db db' : Db} {c : Lib.Claim Cell} (h : Claims db db' c)
    (hu : db'.capacityUnits = db.capacityUnits) {k : Cell} {i : Nat} (hi : i < Proofs.width db k)
    (hk : Proofs.used db k i ≤ limit db k) : Proofs.used db' k i ≤ limit db' k := by
  rw [h.used k i hi, limit_congr hu]
  by_cases hcov : c.cell = k ∧ c.lo ≤ i ∧ i < c.hi
  · obtain ⟨rfl, hlo, hhi⟩ := hcov
    rw [Lib.Claim.on_of_covers hlo hhi]
    exact h.fits i hi hlo hhi
  · rw [Lib.Claim.on, if_neg hcov, add_zero]
    exact hk

section Seats

variable {db : Db} {tripId unitId : Uuid} {span : SegmentSpan}

lemma affected_one {α κ : Type} {key : α → κ} [DecidableEq κ] {t : Lib.Table key} {p : α → Bool} {k : κ}
    (hp : ∀ r, p r = true → key r = k) (h : t.affected p = 1) : ∃ r, t.find? k = some r ∧ p r = true := by
  rw [Lib.Table.affected_of_key hp] at h
  cases hf : t.find? k with
  | none =>
    rw [hf] at h
    cases h
  | some r =>
    rw [hf] at h
    by_cases hr : p r = true
    · exact ⟨r, rfl, hr⟩
    · simp only [hr, Bool.false_eq_true, if_false] at h
      cases h

lemma affected_eq_one {α κ : Type} {key : α → κ} [DecidableEq κ] {t : Lib.Table key} {p : α → Bool} {k : κ}
    {r : α} (hp : ∀ r, p r = true → key r = k) (hf : t.find? k = some r) (hr : p r = true) :
    t.affected p = 1 := by
  rw [Lib.Table.affected_of_key hp, hf]
  simp [hr]

lemma seatOwned_key {r : SeatOccupancyRow} (h : seatOwned tripId unitId span r = true) :
    r.key = (tripId, unitId) := by
  simp only [seatOwned, Bool.and_eq_true, decide_eq_true_eq] at h
  exact h.1

lemma seat_update (db : Db) {p : SeatOccupancyRow → Bool} (f : Lib.Assign SeatOccupancyRow.key)
    (hp : ∀ r, p r = true → r.key = (tripId, unitId)) {row : SeatOccupancyRow}
    (hrow : db.seatOccupancy.find? (tripId, unitId) = some row) (hpr : p row = true)
    {delta : Nat → Int}
    (hbits : ∀ i, i < 64 → ((f.set row).occupiedMask.getLsbD i).toNat =
      ((row.occupiedMask.getLsbD i).toNat : Int) + delta i) (k : Cell) :
    width { db with seatOccupancy := db.seatOccupancy.update p f } k = width db k ∧
    ∀ i, i < width db k → used { db with seatOccupancy := db.seatOccupancy.update p f } k i =
      used db k i + if k = (.seat, tripId, unitId) then delta i else 0 := by
  obtain ⟨kind, t, u⟩ := k
  cases kind with
  | pool =>
    refine ⟨rfl, fun i _ => ?_⟩
    rw [if_neg (by simp), add_zero]
    rfl
  | seat =>
    by_cases hk : (t, u) = (tripId, unitId)
    · cases hk
      simp only [width, used, Lib.Table.find?_update, hrow, Option.map_some, Option.isSome_some, hpr, if_true]
      exact ⟨trivial, fun i hi => hbits i hi⟩
    · have hfind : (db.seatOccupancy.update p f).find? (t, u) = db.seatOccupancy.find? (t, u) := by
        refine Lib.Table.find?_update_of_forall_ne (fun r hr => ?_)
        by_contra hc
        exact hk (hr.symm.trans (hp r (by simpa using hc)))
      have hne : ((UnitKind.seat, t, u) : Cell) ≠ (.seat, tripId, unitId) := by
        intro he
        cases he
        exact hk rfl
      simp only [width, used, hfind, if_neg hne, add_zero]
      exact ⟨trivial, fun _ _ => trivial⟩

lemma getLsbD_of_free {row : SeatOccupancyRow} (h : seatFree tripId unitId span row = true) (i : Nat)
    (hi : span.covers i = true) : row.occupiedMask.getLsbD i = false := by
  simp only [seatFree, Bool.and_eq_true] at h
  exact (SegmentSpan.isAvailable_iff span row.occupiedMask).mp h.2 i hi

/-- Winning a seat claims its span. -/
theorem claimSeatExec_claims (h : (db.claimSeatExec tripId unitId span).1 = 1) :
    Claims db (db.claimSeatExec tripId unitId span).2 (spanClaim (.seat, tripId, unitId) span 1) := by
  obtain ⟨row, hrow, hfree⟩ := affected_one (fun r hr => seatFree_key hr) h
  have hbits : ∀ i, i < 64 → (((row.occupiedMask ||| span.mask).getLsbD i).toNat : Int) =
      ((row.occupiedMask.getLsbD i).toNat : Int) + if span.covers i then 1 else 0 := by
    intro i _
    rw [BitVec.getLsbD_or, SegmentSpan.getLsbD_mask]
    cases hc : span.covers i with
    | false => simp
    | true => simp [getLsbD_of_free hfree i hc]
  have hup := seat_update db ⟨fun r => { r with occupiedMask := r.occupiedMask ||| span.mask }, fun _ => rfl⟩
    (fun r hr => seatFree_key hr) hrow hfree hbits
  constructor
  · simp only [spanClaim, width, hrow, Option.isSome_some, if_true]
    exact lt_of_lt_of_le span.nonempty span.bounded
  · intro i _ hlo hhi
    have hc : span.covers i = true := (SegmentSpan.covers_iff span i).mpr ⟨hlo, hhi⟩
    simp [spanClaim, used, limit, hrow, getLsbD_of_free hfree i hc]
  · exact fun k => (hup k).1
  · intro k i hi
    refine ((hup k).2 i hi).trans (congrArg _ ?_)
    by_cases hk : k = (.seat, tripId, unitId)
    · subst hk
      simp [Lib.Claim.on, spanClaim]
    · simp only [if_neg hk]
      exact (Lib.Claim.on_of_ne (fun he => hk he.symm) i).symm

/-- A seat whose span is taken can be released. -/
theorem releaseSeatExec_releases (hw : 0 < width db (.seat, tripId, unitId))
    (hheld : ∀ i, span.covers i = true → 1 ≤ used db (.seat, tripId, unitId) i) :
    (db.releaseSeatExec tripId unitId span).1 = 1 ∧
      Releases db (db.releaseSeatExec tripId unitId span).2 (spanClaim (.seat, tripId, unitId) span 1) := by
  cases hrow : db.seatOccupancy.find? (tripId, unitId) with
  | none => simp [width, hrow] at hw
  | some row =>
    have hbit : ∀ i, span.covers i = true → row.occupiedMask.getLsbD i = true := by
      intro i hi
      have hu := hheld i hi
      simp only [used, hrow] at hu
      cases hb : row.occupiedMask.getLsbD i with
      | true => rfl
      | false => simp [hb] at hu
    have howned : seatOwned tripId unitId span row = true := by
      simp only [seatOwned, Bool.and_eq_true, decide_eq_true_eq, beq_iff_eq]
      refine ⟨Lib.Table.find?_key hrow, BitVec.eq_of_getLsbD_eq (fun i _ => ?_)⟩
      rw [BitVec.getLsbD_and, SegmentSpan.getLsbD_mask]
      cases hc : span.covers i with
      | false => simp
      | true => simp [hbit i hc]
    have hbits : ∀ i, i < 64 → (((row.occupiedMask &&& ~~~span.mask).getLsbD i).toNat : Int) =
        ((row.occupiedMask.getLsbD i).toNat : Int) + if span.covers i then -1 else 0 := by
      intro i hi
      rw [BitVec.getLsbD_and, BitVec.getLsbD_not, SegmentSpan.getLsbD_mask]
      cases hc : span.covers i with
      | false => simp [hi]
      | true => simp [hbit i hc]
    have hup := seat_update db ⟨fun r => { r with occupiedMask := r.occupiedMask &&& ~~~span.mask }, fun _ => rfl⟩
      (fun r hr => seatOwned_key hr) hrow howned hbits
    refine ⟨affected_eq_one (fun r hr => seatOwned_key hr) hrow howned, fun k => (hup k).1, fun k i hi => ?_⟩
    refine ((hup k).2 i hi).trans ?_
    rw [sub_eq_add_neg]
    refine congrArg _ ?_
    by_cases hk : k = (.seat, tripId, unitId)
    · subst hk
      by_cases hc : span.fromIndex ≤ i ∧ i < span.toIndex
      · simp [Lib.Claim.on, spanClaim, hc]
      · simp [Lib.Claim.on, spanClaim, hc]
    · simp only [if_neg hk]
      rw [Lib.Claim.on_of_ne (fun he => hk he.symm) i, neg_zero]

end Seats

section Pools

variable {db : Db} {tripId unitId : Uuid} {span : SegmentSpan} {qty : Int}

lemma length_addBetween (l : List Int) (lo hi : Nat) (delta : Int) :
    (addBetween l lo hi delta).length = l.length := by
  simp [addBetween]

lemma getD_addBetween (l : List Int) (span : SegmentSpan) (delta : Int) {i : Nat} (hi : i < l.length) :
    (addBetween l (span.fromIndex + 1) span.toIndex delta).getD i 0 =
      l.getD i 0 + if span.covers i then delta else 0 := by
  have hmap : (addBetween l (span.fromIndex + 1) span.toIndex delta).getD i 0 =
      if span.fromIndex + 1 ≤ i + 1 ∧ i + 1 ≤ span.toIndex then l.getD i 0 + delta else l.getD i 0 := by
    simp [addBetween, List.getD_eq_getElem?_getD, hi]
  rw [hmap]
  have hiff : (span.fromIndex + 1 ≤ i + 1 ∧ i + 1 ≤ span.toIndex) ↔ span.covers i = true := by
    rw [SegmentSpan.covers_iff]
    omega
  by_cases hc : span.covers i = true
  · rw [if_pos (hiff.mpr hc), if_pos hc]
  · rw [if_neg (fun h => hc (hiff.mp h)), if_neg hc, add_zero]

lemma mem_slice {l : List Int} {x : Int} :
    x ∈ slice l (span.fromIndex + 1) span.toIndex ↔
      ∃ i, span.covers i = true ∧ i < l.length ∧ l.getD i 0 = x := by
  unfold slice
  rw [Nat.add_sub_cancel, List.mem_iff_getElem?]
  simp only [List.getElem?_drop, List.getElem?_take, SegmentSpan.covers_iff]
  constructor
  · rintro ⟨j, hj⟩
    split at hj
    · rename_i hlt
      obtain ⟨hlen, hx⟩ := List.getElem?_eq_some_iff.mp hj
      refine ⟨span.fromIndex + j, ⟨by omega, hlt⟩, hlen, ?_⟩
      rw [List.getD_eq_getElem?_getD, hj, Option.getD_some]
    · cases hj
  · rintro ⟨i, ⟨hlo, hhi⟩, hlen, hx⟩
    refine ⟨i - span.fromIndex, ?_⟩
    rw [show span.fromIndex + (i - span.fromIndex) = i by omega, if_pos hhi,
      List.getElem?_eq_getElem hlen]
    rw [List.getD_eq_getElem?_getD, List.getElem?_eq_getElem hlen, Option.getD_some] at hx
    rw [hx]

lemma pool_update (db : Db) {p : PoolOccupancyRow → Bool} (span : SegmentSpan) (delta : Int)
    (hp : ∀ r, p r = true → r.key = (tripId, unitId)) {row : PoolOccupancyRow}
    (hrow : db.poolOccupancy.find? (tripId, unitId) = some row) (hpr : p row = true) (k : Cell) :
    width { db with poolOccupancy := db.poolOccupancy.update p ⟨fun r => { r with
        remaining := addBetween r.remaining (span.fromIndex + 1) span.toIndex delta }, fun _ => rfl⟩ } k = width db k ∧
    ∀ i, i < width db k → used { db with poolOccupancy := db.poolOccupancy.update p ⟨fun r => { r with
        remaining := addBetween r.remaining (span.fromIndex + 1) span.toIndex delta }, fun _ => rfl⟩ } k i =
      used db k i - if k = (.pool, tripId, unitId) then (if span.covers i then delta else 0) else 0 := by
  obtain ⟨kind, t, u⟩ := k
  cases kind with
  | seat =>
    refine ⟨rfl, fun i _ => ?_⟩
    rw [if_neg (by simp), sub_zero]
    rfl
  | pool =>
    by_cases hk : (t, u) = (tripId, unitId)
    · cases hk
      simp only [width, used, limit, Lib.Table.find?_update, hrow, Option.map_some, hpr, if_true, length_addBetween]
      refine ⟨trivial, fun i hi => ?_⟩
      rw [getD_addBetween row.remaining span delta hi]
      omega
    · have hfind : (db.poolOccupancy.update p ⟨fun r => { r with
          remaining := addBetween r.remaining (span.fromIndex + 1) span.toIndex delta }, fun _ => rfl⟩).find? (t, u) =
          db.poolOccupancy.find? (t, u) := by
        refine Lib.Table.find?_update_of_forall_ne (fun r hr => ?_)
        by_contra hc
        exact hk (hr.symm.trans (hp r (by simpa using hc)))
      have hne : ((UnitKind.pool, t, u) : Cell) ≠ (.pool, tripId, unitId) := by
        intro he
        cases he
        exact hk rfl
      simp only [width, used, limit, hfind, if_neg hne, sub_zero]
      exact ⟨trivial, fun _ _ => trivial⟩

/-- Winning a pool claims its quantity on every covered segment. -/
theorem claimPoolExec_claims (h : (db.claimPoolExec tripId unitId span qty).1 = 1) :
    Claims db (db.claimPoolExec tripId unitId span qty).2 (spanClaim (.pool, tripId, unitId) span qty) := by
  obtain ⟨row, hrow, hhas⟩ := affected_one (fun r hr => poolHas_key hr) h
  have hguard := hhas
  simp only [poolHas, Bool.and_eq_true] at hguard
  have hg := hguard.2
  split at hg
  · rename_i low hlow
    obtain ⟨hmem, hmin⟩ := List.min?_eq_some_iff.mp hlow
    have hqty : qty ≤ low := by simpa using hg
    have hup := pool_update db span (-qty) (fun r hr => poolHas_key hr) hrow hhas
    constructor
    · obtain ⟨i, hc, hi, -⟩ := mem_slice.mp hmem
      simp only [spanClaim, width, hrow]
      have hle := ((SegmentSpan.covers_iff span i).mp hc).1
      omega
    · intro i hi hlo hhi
      simp only [spanClaim, width, hrow] at hi hlo hhi
      have hin : row.remaining.getD i 0 ∈ slice row.remaining (span.fromIndex + 1) span.toIndex :=
        mem_slice.mpr ⟨i, (SegmentSpan.covers_iff span i).mpr ⟨hlo, hhi⟩, hi, rfl⟩
      have hle := hmin _ hin
      simp only [spanClaim, used, hrow]
      omega
    · exact fun k => (hup k).1
    · intro k i hi
      refine ((hup k).2 i hi).trans ?_
      by_cases hk : k = (.pool, tripId, unitId)
      · subst hk
        by_cases hc : span.fromIndex ≤ i ∧ i < span.toIndex <;> simp [Lib.Claim.on, spanClaim, hc]
      · rw [if_neg hk, Lib.Claim.on_of_ne (fun he => hk he.symm) i]
        omega
  · cases hg

lemma poolRoom_key {r : PoolOccupancyRow} (h : poolRoom db tripId unitId span qty r = true) :
    r.key = (tripId, unitId) := by
  simp only [poolRoom, Bool.and_eq_true, decide_eq_true_eq] at h
  exact h.1

/-- The guard of a pool release, segment by segment. -/
lemma poolRoom_iff {row : PoolOccupancyRow} {capacity : Int} (hrow : db.poolOccupancy.find? (tripId, unitId) = some row)
    (hcap : (db.capacityUnits.find? unitId).bind CapacityUnitRow.poolCapacity = some capacity) :
    poolRoom db tripId unitId span qty row = true ↔ span.fromIndex < row.remaining.length ∧
      ∀ i, span.covers i = true → i < row.remaining.length → row.remaining.getD i 0 + qty ≤ capacity := by
  rw [poolRoom, Lib.Table.find?_key hrow, hcap]
  simp only [decide_true, Bool.true_and]
  cases hm : (slice row.remaining (span.fromIndex + 1) span.toIndex).max? with
  | none =>
    have hnil := List.max?_eq_none_iff.mp hm
    refine iff_of_false Bool.false_ne_true (fun h => ?_)
    have hmem : row.remaining.getD span.fromIndex 0 ∈ slice row.remaining (span.fromIndex + 1) span.toIndex :=
      mem_slice.mpr ⟨span.fromIndex, SegmentSpan.covers_fromIndex span, h.1, rfl⟩
    rw [hnil] at hmem
    exact absurd hmem List.not_mem_nil
  | some high =>
    obtain ⟨hmem, hmax⟩ := List.max?_eq_some_iff.mp hm
    obtain ⟨j, hc, hj, hx⟩ := mem_slice.mp hmem
    have hlo := ((SegmentSpan.covers_iff span j).mp hc).1
    simp only [decide_eq_true_eq]
    constructor
    · intro h
      refine ⟨by omega, fun i hci hi => ?_⟩
      have hle := hmax _ (mem_slice.mpr ⟨i, hci, hi, rfl⟩)
      omega
    · rintro ⟨-, h⟩
      have hle := h j hc hj
      rw [hx] at hle
      exact hle

/-- A pool that holds a quantity within its capacity can give it back. -/
theorem releasePoolExec_releases (hw : span.fromIndex < width db (.pool, tripId, unitId))
    (hcap : (((db.capacityUnits.find? unitId).bind CapacityUnitRow.poolCapacity)).isSome = true)
    (hheld : ∀ i, i < width db (.pool, tripId, unitId) → span.covers i = true →
      qty ≤ used db (.pool, tripId, unitId) i) :
    (db.releasePoolExec tripId unitId span qty).1 = 1 ∧
      Releases db (db.releasePoolExec tripId unitId span qty).2 (spanClaim (.pool, tripId, unitId) span qty) := by
  cases hrow : db.poolOccupancy.find? (tripId, unitId) with
  | none => simp [width, hrow] at hw
  | some row =>
    simp only [width, used, limit, hrow] at hw hheld
    obtain ⟨capacity, hc⟩ := Option.isSome_iff_exists.mp hcap
    have hroom : poolRoom db tripId unitId span qty row = true := by
      refine (poolRoom_iff hrow hc).mpr ⟨hw, fun i hcov hi => ?_⟩
      have hle := hheld i hi hcov
      simp only [hc, Option.getD_some] at hle
      omega
    have hup := pool_update db span qty (fun r hr => poolRoom_key hr) hrow hroom
    refine ⟨affected_eq_one (fun r hr => poolRoom_key hr) hrow hroom, fun k => (hup k).1, fun k i hi => ?_⟩
    refine ((hup k).2 i hi).trans ?_
    by_cases hk : k = (.pool, tripId, unitId)
    · subst hk
      by_cases hcov : span.fromIndex ≤ i ∧ i < span.toIndex <;> simp [Lib.Claim.on, spanClaim, hcov]
    · rw [if_neg hk, Lib.Claim.on_of_ne (fun he => hk he.symm) i]

end Pools

section Items

variable {db : Db}

/-- A won item claims what its row says it holds. -/
theorem claimTarget_claims (orderId : Uuid) (passengers : List PassengerRecord) {w : WiredItem}
    (h : (db.claimTarget w.item w.target).1 = 1) :
    Claims db (db.claimTarget w.item w.target).2 (itemClaim (itemRow orderId passengers w)) := by
  unfold claimTarget at h ⊢
  cases hk : w.target.kind with
  | seat =>
    simp only [hk] at h
    have hc := claimSeatExec_claims h
    simpa [itemClaim, itemRow, hk] using hc
  | pool =>
    simp only [hk] at h
    by_cases hq : w.item.quantity ≤ 0
    · rw [if_pos hq] at h
      cases h
    · simp only [if_neg hq] at h ⊢
      have hc := claimPoolExec_claims h
      have hmax : max w.item.quantity 1 = w.item.quantity := max_eq_left (by omega)
      simpa [itemClaim, itemRow, hk, hmax] using hc

/-- An item that is booked claims what its row says it holds. -/
theorem claimItem_claims {orderId : Uuid} {passengers : List PassengerRecord} {w : WiredItem} {db' : Db}
    (h : claimItem orderId passengers w db = .ok db') :
    Claims db db' (itemClaim (itemRow orderId passengers w)) := by
  obtain ⟨hwin, -, orderItems, -, rfl⟩ := claimItem_eq_ok h
  have hc := claimTarget_claims orderId passengers hwin
  have hunits : (db.claimTarget w.item w.target).2.capacityUnits = db.capacityUnits := by
    rw [claimTarget_frame]
  refine ⟨hc.enters, hc.fits, fun k => ?_, fun k i hi => ?_⟩
  · rw [← hc.width]
    exact width_congr rfl rfl k
  · rw [← hc.used k i hi]
    refine used_congr ?_ ?_ ?_ k i
    · rfl
    · rfl
    · exact hunits.symm

lemma releaseItem_other (item : OrderItemRow) {k : Cell} (hk : k ≠ (itemClaim item).cell) :
    width (db.releaseItem item).2 k = width db k ∧ ∀ i, used (db.releaseItem item).2 k i = used db k i := by
  obtain ⟨kind, t, u⟩ := k
  have hne : ∀ kind', kind' = item.kind → kind = kind' → (t, u) ≠ (item.tripId, item.unitId) := by
    intro kind' h1 h2 he
    cases he
    exact hk (by rw [h2, h1]; rfl)
  unfold releaseItem
  cases hkind : item.kind with
  | seat =>
    cases kind with
    | pool => exact ⟨rfl, fun _ => rfl⟩
    | seat =>
      have hfind : (db.releaseSeatExec item.tripId item.unitId item.span).2.seatOccupancy.find? (t, u) =
          db.seatOccupancy.find? (t, u) := by
        refine Lib.Table.find?_update_of_forall_ne (fun r hr => ?_)
        by_contra hc
        exact hne _ hkind.symm rfl (hr.symm.trans (seatOwned_key (by simpa using hc)))
      simp only [width, used, hfind]
      exact ⟨trivial, fun _ => trivial⟩
  | pool =>
    cases kind with
    | seat => exact ⟨rfl, fun _ => rfl⟩
    | pool =>
      have hfind : (db.releasePoolExec item.tripId item.unitId item.span item.quantity).2.poolOccupancy.find?
          (t, u) = db.poolOccupancy.find? (t, u) := by
        refine Lib.Table.find?_update_of_forall_ne (fun r hr => ?_)
        by_contra hc
        exact hne _ hkind.symm rfl (hr.symm.trans (poolRoom_key (by simpa using hc)))
      simp only [width, used, limit, hfind]
      exact ⟨trivial, fun _ => rfl⟩

/-- A release never changes how many segments a cell keeps. -/
lemma releaseItem_width (item : OrderItemRow) (k : Cell) : width (db.releaseItem item).2 k = width db k := by
  obtain ⟨kind, t, u⟩ := k
  unfold releaseItem
  cases item.kind <;> cases kind
  · simp [width, releaseSeatExec, Lib.Table.find?_update]
  · rfl
  · rfl
  · simp only [width, releasePoolExec, Lib.Table.find?_update]
    cases db.poolOccupancy.find? (t, u) with
    | none => rfl
    | some r =>
      simp only [Option.map_some]
      split <;> simp [length_addBetween]

end Items

end Lulan.Proofs
