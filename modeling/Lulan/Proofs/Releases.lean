import Lulan.Proofs.Demand
import Lulan.Proofs.Pools

/-!
# Stray releases

The releases of seats and pools with spans and quantities that nobody claimed. Their guards
look at what is taken and not at who took it, so a release has no effect exactly where
something it would give back is not taken.
-/

namespace Lulan.Proofs

open Lulan Lulan.Db Lib

/-- A call that gives segments back, of whatever span and quantity. -/
inductive Release where
  | seat (tripId unitId : Uuid) (span : SegmentSpan)
  | pool (tripId unitId : Uuid) (span : SegmentSpan) (qty : Int)

namespace Release

def exec (db : Db) : Release → Except DbError (Nat × Db)
  | .seat tripId unitId span => .ok (db.releaseSeatExec tripId unitId span)
  | .pool tripId unitId span qty => db.releasePoolChecked tripId unitId span qty

def cell : Release → Cell
  | .seat tripId unitId _ => (.seat, tripId, unitId)
  | .pool tripId unitId _ _ => (.pool, tripId, unitId)

def span : Release → SegmentSpan
  | .seat _ _ span => span
  | .pool _ _ span _ => span

def qty : Release → Int
  | .seat _ _ _ => 1
  | .pool _ _ _ qty => qty

/-- The statement fails, or affects no row and changes nothing. -/
def NoEffect (db : Db) (r : Release) : Prop := ∀ n db', r.exec db = .ok (n, db') → n = 0 ∧ db' = db

end Release

/-- Exactly one claim that a live order or a direct sale holds. -/
def LiveClaim (db : Db) (h : List Event) (k : Cell) (span : SegmentSpan) (qty : Int) : Prop :=
  (span, qty) ∈ soldOn h k ∨ ∃ r ∈ itemsOn db k, r.span = span ∧ (itemClaim r).qty = qty

/-- What the seed, the live orders and the direct sales hold of a segment between them. -/
def claimedOn (db₀ db : Db) (h : List Event) (k : Cell) (i : Nat) : Int :=
  used db₀ k i + load ((liveItems db).map itemClaim) k i + load (directOf h) k i

/-- The cell has no segment of the span, or one on which less is claimed than is given back, or one
on which giving back less than nothing would exceed the limit. -/
def Unclaimed (db₀ db : Db) (h : List Event) (r : Release) : Prop :=
  width db r.cell ≤ r.span.fromIndex ∨
    ∃ i, i < width db r.cell ∧ r.span.covers i = true ∧
      (claimedOn db₀ db h r.cell i < r.qty ∨ limit db r.cell < claimedOn db₀ db h r.cell i - r.qty)

instance (db : Db) (h : List Event) (k : Cell) (span : SegmentSpan) (qty : Int) :
    Decidable (LiveClaim db h k span qty) :=
  inferInstanceAs (Decidable (_ ∨ _))

instance (db₀ db : Db) (h : List Event) (r : Release) : Decidable (Unclaimed db₀ db h r) :=
  inferInstanceAs (Decidable (_ ∨ _))

section Statements

variable {db : Db} {tripId unitId : Uuid} {span : SegmentSpan} {qty : Int}

lemma noEffect_seat_none (hrow : db.seatOccupancy.find? (tripId, unitId) = none) :
    (Release.seat tripId unitId span).NoEffect db := by
  intro n db' h
  have hzero : db.seatOccupancy.affected (seatOwned tripId unitId span) = 0 := by
    rw [Table.affected_of_key (fun r hr => seatOwned_key hr), hrow]
  cases h
  exact ⟨hzero, by rw [update_of_affected_zero _ _ _ hzero]⟩

/-- A seat is given back exactly where all of the span is taken. -/
lemma noEffect_seat_iff {row : SeatOccupancyRow} (hrow : db.seatOccupancy.find? (tripId, unitId) = some row) :
    (Release.seat tripId unitId span).NoEffect db ↔
      ∃ i, span.covers i = true ∧ row.occupiedMask.getLsbD i = false := by
  have howned : seatOwned tripId unitId span row = true ↔
      ∀ i, span.covers i = true → row.occupiedMask.getLsbD i = true := by
    rw [← and_mask_eq_mask_iff]
    simp [seatOwned, Table.find?_key hrow]
  have haffected : db.seatOccupancy.affected (seatOwned tripId unitId span) =
      if seatOwned tripId unitId span row then 1 else 0 := by
    rw [Table.affected_of_key (fun r hr => seatOwned_key hr), hrow]
  constructor
  · intro h
    have hzero := (h _ _ rfl).1
    change db.seatOccupancy.affected (seatOwned tripId unitId span) = 0 at hzero
    rw [haffected] at hzero
    by_contra hall
    have hbits : ∀ i, span.covers i = true → row.occupiedMask.getLsbD i = true := by
      intro i hi
      cases hb : row.occupiedMask.getLsbD i with
      | true => rfl
      | false => exact absurd ⟨i, hi, hb⟩ hall
    rw [if_pos (howned.mpr hbits)] at hzero
    cases hzero
  · rintro ⟨i, hi, hb⟩ n db' h
    have hnot : ¬seatOwned tripId unitId span row = true := by
      intro ho
      rw [howned.mp ho i hi] at hb
      cases hb
    rw [if_neg hnot] at haffected
    cases h
    exact ⟨haffected, by rw [update_of_affected_zero _ _ _ haffected]⟩

lemma noEffect_pool_of_not_room
    (hroom : ∀ r ∈ db.poolOccupancy.rows, poolRoom db tripId unitId span qty r = false) :
    (Release.pool tripId unitId span qty).NoEffect db := by
  intro n db' h
  have hzero : db.poolOccupancy.affected (poolRoom db tripId unitId span qty) = 0 := by
    rw [Table.affected, List.countP_eq_zero]
    intro r hr
    rw [hroom r hr]
    exact Bool.false_ne_true
  simp only [Release.exec, releasePoolChecked] at h
  split at h
  · cases h
    exact ⟨hzero, by rw [update_of_affected_zero _ _ _ hzero]⟩
  · cases h

/-- Where no counter was below nothing, the check looks at the covered ones. -/
lemma all_addBetween {l : List Int} (hl : ∀ i, i < l.length → 0 ≤ l.getD i 0) :
    (addBetween l (span.fromIndex + 1) span.toIndex qty).all (fun val => decide (0 ≤ val)) = true ↔
      ∀ i, i < l.length → span.covers i = true → 0 ≤ l.getD i 0 + qty := by
  have hget : ∀ i (hi : i < (addBetween l (span.fromIndex + 1) span.toIndex qty).length),
      (addBetween l (span.fromIndex + 1) span.toIndex qty)[i] =
        l.getD i 0 + if span.covers i then qty else 0 := by
    intro i hi
    rw [← getD_addBetween l span qty (by rwa [length_addBetween] at hi), List.getD_eq_getElem?_getD,
      List.getElem?_eq_getElem hi, Option.getD_some]
  rw [List.all_eq_true]
  constructor
  · intro h i hi hc
    have hlen : i < (addBetween l (span.fromIndex + 1) span.toIndex qty).length := by rwa [length_addBetween]
    have hval := of_decide_eq_true (h _ (List.getElem_mem hlen))
    rw [hget, if_pos hc] at hval
    exact hval
  · intro h val hval
    obtain ⟨i, hi, rfl⟩ := List.mem_iff_getElem.mp hval
    have hlt : i < l.length := by rwa [length_addBetween] at hi
    rw [decide_eq_true_eq, hget]
    by_cases hc : span.covers i = true
    · rw [if_pos hc]
      exact h i hlt hc
    · rw [if_neg hc, add_zero]
      exact hl i hlt

/-- A pool is given back exactly where its counters stay between nothing and the capacity. -/
lemma noEffect_pool_iff {row : PoolOccupancyRow} {capacity : Int}
    (hrow : db.poolOccupancy.find? (tripId, unitId) = some row)
    (hcap : (db.capacityUnits.find? unitId).bind CapacityUnitRow.poolCapacity = some capacity)
    (hleft : ∀ i, i < row.remaining.length → 0 ≤ row.remaining.getD i 0) :
    (Release.pool tripId unitId span qty).NoEffect db ↔ row.remaining.length ≤ span.fromIndex ∨
      ∃ i, i < row.remaining.length ∧ span.covers i = true ∧
        (capacity < row.remaining.getD i 0 + qty ∨ row.remaining.getD i 0 + qty < 0) := by
  have honly : ∀ r ∈ db.poolOccupancy.rows, poolRoom db tripId unitId span qty r = true → r = row := by
    intro r hr hroom
    have hfind := Table.find?_of_mem hr
    rw [poolRoom_key hroom, hrow] at hfind
    exact (Option.some.inj hfind).symm
  by_cases hroom : poolRoom db tripId unitId span qty row = true
  · obtain ⟨hin, hfits⟩ := (poolRoom_iff hrow hcap).mp hroom
    have hcheck : db.poolOccupancy.rows.all (fun r => !poolRoom db tripId unitId span qty r ||
        (addBetween r.remaining (span.fromIndex + 1) span.toIndex qty).all (fun val => decide (0 ≤ val))) = true ↔
        ∀ i, i < row.remaining.length → span.covers i = true → 0 ≤ row.remaining.getD i 0 + qty := by
      rw [← all_addBetween hleft, List.all_eq_true]
      constructor
      · intro h
        have hmine := h row (Table.find?_mem hrow)
        rwa [hroom, Bool.not_true, Bool.false_or] at hmine
      · intro h r hr
        cases hp : poolRoom db tripId unitId span qty r with
        | false => rfl
        | true =>
          rw [honly r hr hp]
          exact h
    constructor
    · intro h
      by_contra hnot
      simp only [not_or, not_exists, not_and, not_le, not_lt] at hnot
      have hexec : (Release.pool tripId unitId span qty).exec db =
          .ok (db.releasePoolExec tripId unitId span qty) :=
        if_pos (hcheck.mpr (fun i hi hc => (hnot.2 i hi hc).2))
      have hone : db.poolOccupancy.affected (poolRoom db tripId unitId span qty) = 1 :=
        affected_eq_one (fun r hr => poolRoom_key hr) hrow hroom
      exact absurd (hone.symm.trans (h _ _ hexec).1) Nat.one_ne_zero
    · intro h n db' hexec
      have hnot : ¬∀ i, i < row.remaining.length → span.covers i = true → 0 ≤ row.remaining.getD i 0 + qty := by
        intro hall
        rcases h with hout | ⟨i, hi, hc, hhigh | hlow⟩
        · omega
        · have hle := hfits i hc hi
          omega
        · have hle := hall i hi hc
          omega
      rw [Release.exec, releasePoolChecked, if_neg (fun hall => hnot (hcheck.mp hall))] at hexec
      cases hexec
  · have hnone : (Release.pool tripId unitId span qty).NoEffect db := by
      refine noEffect_pool_of_not_room (fun r hr => ?_)
      cases hp : poolRoom db tripId unitId span qty r with
      | false => rfl
      | true =>
        rw [honly r hr hp] at hp
        exact absurd hp hroom
    refine iff_of_true hnone ?_
    by_contra hnot
    simp only [not_or, not_exists, not_and, not_le, not_lt] at hnot
    exact hroom ((poolRoom_iff hrow hcap).mpr ⟨hnot.1, fun i hc hi => (hnot.2 i hi hc).1⟩)

end Statements

section Ledger

variable {db₀ db : Db} {h : List Event}

/-- What is taken of a segment is what is claimed of it. -/
lemma used_eq_claimedOn (hb : Balanced db₀ db (directOf h)) {k : Cell} (hk : Regular db₀ k) {i : Nat}
    (hi : i < width db k) : used db k i = claimedOn db₀ db h k i := hb.balance k hk i hi

/-- What a release finds taken, in terms of the claims. -/
lemma noEffect_iff (hb : Balanced db₀ db (directOf h)) (hfull : PoolsFull db₀) (r : Release) :
    r.NoEffect db ↔ Unclaimed db₀ db h r := by
  cases r with
  | seat tripId unitId span =>
    simp only [Unclaimed, Release.cell, Release.span, Release.qty]
    cases hrow : db.seatOccupancy.find? (tripId, unitId) with
    | none =>
      refine iff_of_true (noEffect_seat_none hrow) (.inl ?_)
      simp [width, hrow]
    | some row =>
      have hwidth : width db (.seat, tripId, unitId) = 64 := by simp [width, hrow]
      have hbit : ∀ i, i < 64 → ((row.occupiedMask.getLsbD i).toNat : Int) =
          claimedOn db₀ db h (.seat, tripId, unitId) i := by
        intro i hi
        have hused := used_eq_claimedOn (k := (.seat, tripId, unitId)) hb trivial (by rw [hwidth]; exact hi)
        rw [← hused, used, hrow]
      have hlimit : limit db (.seat, tripId, unitId) = 1 := rfl
      rw [noEffect_seat_iff hrow, hwidth, hlimit]
      constructor
      · rintro ⟨i, hc, hfree⟩
        have hi := SegmentSpan.lt_of_covers hc
        have hclaimed := hbit i hi
        rw [hfree, Bool.toNat_false] at hclaimed
        exact .inr ⟨i, hi, hc, .inl (by omega)⟩
      · rintro (hout | ⟨i, hi, hc, hlow | hhigh⟩)
        · have hlt := SegmentSpan.lt_of_covers (SegmentSpan.covers_fromIndex span)
          omega
        · refine ⟨i, hc, ?_⟩
          cases hm : row.occupiedMask.getLsbD i with
          | false => rfl
          | true =>
            have hclaimed := hbit i hi
            rw [hm, Bool.toNat_true] at hclaimed
            omega
        · have hone := Bool.toNat_le (row.occupiedMask.getLsbD i)
          have hclaimed := hbit i hi
          omega
  | pool tripId unitId span qty =>
    simp only [Unclaimed, Release.cell, Release.span, Release.qty]
    cases hrow : db.poolOccupancy.find? (tripId, unitId) with
    | none =>
      refine iff_of_true (noEffect_pool_of_not_room (fun r hr => ?_)) (.inl ?_)
      · cases hp : poolRoom db tripId unitId span qty r with
        | false => rfl
        | true => exact absurd (poolRoom_key hp) (Table.find?_eq_none.mp hrow r hr)
      · simp [width, hrow]
    | some row =>
      have hwidth : width db (.pool, tripId, unitId) = row.remaining.length := by simp [width, hrow]
      have hreg : 0 < width db (.pool, tripId, unitId) → Regular db₀ (.pool, tripId, unitId) := by
        intro hpos
        rw [hb.width, width] at hpos
        split at hpos
        · exact hfull _ _ _ ‹_›
        · cases hpos
      by_cases hpos : 0 < row.remaining.length
      · have hreg : Regular db₀ (.pool, tripId, unitId) := by
          rw [← hwidth, hb.width, width] at hpos
          split at hpos
          · exact hfull _ _ _ ‹_›
          · cases hpos
        have hcapacity : ∃ capacity,
            (db.capacityUnits.find? unitId).bind CapacityUnitRow.poolCapacity = some capacity := by
          obtain ⟨_, _, capacity, -, -, hcap, -⟩ := hreg
          exact ⟨capacity, by rw [hb.units]; exact hcap⟩
        obtain ⟨capacity, hcap⟩ := hcapacity
        have hlimit : limit db (.pool, tripId, unitId) = capacity := by simp [limit, hcap]
        have hcount : ∀ i, i < row.remaining.length →
            capacity - row.remaining.getD i 0 = claimedOn db₀ db h (.pool, tripId, unitId) i := by
          intro i hi
          rw [← used_eq_claimedOn hb hreg (by rw [hwidth]; exact hi), used, hrow, hlimit]
        have hleft : ∀ i, i < row.remaining.length → 0 ≤ row.remaining.getD i 0 := by
          intro i hi
          have hfit := hb.fits _ hreg i (by rw [hwidth]; exact hi)
          simp only [used, hrow, hlimit] at hfit
          omega
        rw [noEffect_pool_iff hrow hcap hleft, hwidth, hlimit]
        refine or_congr_right (exists_congr (fun i => and_congr_right (fun hi => and_congr_right (fun _ => ?_))))
        have hclaimed := hcount i hi
        omega
      · have hnil : row.remaining = [] := List.eq_nil_of_length_eq_zero (by omega)
        refine iff_of_true (noEffect_pool_of_not_room (fun r hr => ?_)) (.inl (by omega))
        cases hp : poolRoom db tripId unitId span qty r with
        | false => rfl
        | true =>
          have hfind := Table.find?_of_mem hr
          rw [poolRoom_key hp, hrow] at hfind
          cases hfind
          simp [poolRoom, hnil, slice] at hp

end Ledger

section Run

variable {app : AppState} {s : World}
  {c : LockConf Request World Tx TxResult Call Reply Answer Uuid LockRead LockRead}

/-- A release that is nobody's claim has no effect if and only if some of what it would give back is not
claimed: by whom does not matter. -/
theorem stray_release_iff (hs : s.db.Seeded) (hfull : PoolsFull s.db) (hc : Reaches app s c) (r : Release) :
    (¬LiveClaim c.store.db c.trace r.cell r.span r.qty → r.NoEffect c.store.db) ↔
      (LiveClaim c.store.db c.trace r.cell r.span r.qty ∨ Unclaimed s.db c.store.db c.trace r) := by
  have hb := (hc.runOk hs).balanced
  rw [← noEffect_iff hb hfull, or_iff_not_imp_left]

/-- Ana books a seat for the whole trip and two places on deck to the first stop. -/
def bookedRun : List (LockAct Request Reply Oracle Nat) := harbourRun.take 5

/-- The first of the two segments of Ana's seat is given back, although nobody claimed it alone. -/
theorem part_of_a_claim_released : ¬∀ (app : AppState) (s : World)
    (c : LockConf Request World Tx TxResult Call Reply Answer Uuid LockRead LockRead) (r : Release),
    s.db.Seeded → PoolsFull s.db → Reaches app s c → ¬LiveClaim c.store.db c.trace r.cell r.span r.qty →
    r.NoEffect c.store.db := by
  intro h
  have hrun : ((rowLocks sandbox).exec (RowLocks.init harbour) bookedRun).map (fun c =>
      (decide (LiveClaim c.store.db c.trace (.seat, 1, 1) firstSegment 1),
        (c.store.db.releaseSeatExec 1 1 firstSegment).1)) = some (false, 1) := by
    decide
  obtain ⟨c, hc, hpair⟩ := Option.map_eq_some_iff.mp hrun
  obtain ⟨hstray, hone⟩ := Prod.mk.inj hpair
  have hnone := h sandbox harbour c (.seat 1 1 firstSegment) harbour_seeded harbour_poolsFull
    (RowLocks.reachable_of_exec hc) (of_decide_eq_false hstray)
  exact absurd (hone.symm.trans (hnone _ _ rfl).1) Nat.one_ne_zero

/-- The seat beside Ana's cannot be given back. -/
theorem stray_release_iff_harbour : ∃ c, Reaches sandbox harbour c ∧
    ¬LiveClaim c.store.db c.trace (.seat, 1, 2) wholeTrip 1 ∧ (Release.seat 1 2 wholeTrip).NoEffect c.store.db := by
  have hrun : ((rowLocks sandbox).exec (RowLocks.init harbour) bookedRun).map (fun c =>
      (decide (LiveClaim c.store.db c.trace (.seat, 1, 2) wholeTrip 1),
        decide (Unclaimed harbour.db c.store.db c.trace (.seat 1 2 wholeTrip)))) = some (false, true) := by
    decide +kernel
  obtain ⟨c, hc, hpair⟩ := Option.map_eq_some_iff.mp hrun
  obtain ⟨hstray, hfree⟩ := Prod.mk.inj hpair
  have hreach := RowLocks.reachable_of_exec hc
  have hnot := of_decide_eq_false hstray
  have hnone := (stray_release_iff harbour_seeded harbour_poolsFull hreach (.seat 1 2 wholeTrip)).mpr
    (.inr (of_decide_eq_true hfree))
  exact ⟨c, hreach, hnot, hnone hnot⟩

end Run

end Lulan.Proofs
