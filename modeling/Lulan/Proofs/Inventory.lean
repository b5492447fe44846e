import Mathlib.Data.List.Pairwise
import Lulan.Proofs.Runs

/-!
# Seats and pools

The ledger of the runs, read back in the terms of the tables: what the mask of a seat is
the union of, and what the counters of a pool add up to.
-/

namespace Lulan.Proofs

open Lulan Lulan.Db Lib

/-- The items on a seat or pool whose orders own their claims. -/
def itemsOn (db : Db) (k : Cell) : List OrderItemRow :=
  (liveItems db).filter (fun r => decide ((r.kind, r.tripId, r.unitId) = k))

/-- The spans and quantities of a seat or pool sold directly. -/
def soldOn (h : List Event) (k : Cell) : List (SegmentSpan × Int) :=
  ((soldIn h).filter (fun x => decide (x.1 = k))).map Prod.snd

/-- Everything that takes segments of a seat: the seed, direct sales, and live orders. -/
def seatOwners (seeded : SeatOccupancyRow) (db : Db) (h : List Event) : List (BitVec 64) :=
  seeded.occupiedMask :: ((soldOn h (.seat, seeded.tripId, seeded.unitId)).map (fun x => x.1.mask) ++
    (itemsOn db (.seat, seeded.tripId, seeded.unitId)).map (fun r => r.span.mask))

/-- What live orders hold of segment `i` of a pool. -/
def heldQuantity (db : Db) (tripId unitId : Uuid) (i : Nat) : Int :=
  (((itemsOn db (.pool, tripId, unitId)).filter (fun r => r.span.covers i)).map OrderItemRow.quantity).sum

/-- What was sold directly of segment `i` of a pool. -/
def soldQuantity (h : List Event) (tripId unitId : Uuid) (i : Nat) : Int :=
  (((soldOn h (.pool, tripId, unitId)).filter (fun x => x.1.covers i)).map Prod.snd).sum

section Reading

/-- The load of spans on a cell is the sum of the quantities that cover the segment. -/
lemma load_spanClaim {α : Type} (l : List α) (cell : α → Cell) (span : α → SegmentSpan) (qty : α → Int)
    (k : Cell) (i : Nat) :
    load (l.map (fun x => spanClaim (cell x) (span x) (qty x))) k i =
      (((l.filter (fun x => decide (cell x = k))).filter (fun x => (span x).covers i)).map qty).sum := by
  induction l with
  | nil => rfl
  | cons x l ih =>
    have hon : (spanClaim (cell x) (span x) (qty x)).on k i =
        if cell x = k ∧ (span x).covers i = true then qty x else 0 :=
      if_congr (by simp [spanClaim]) rfl rfl
    rw [List.map_cons, load_cons, ih, hon]
    by_cases hk : cell x = k
    · rw [List.filter_cons_of_pos (by simpa using hk)]
      cases hc : (span x).covers i with
      | true => simp [hk, hc]
      | false => simp [hc]
    · rw [List.filter_cons_of_neg (by simpa using hk), if_neg (fun h => hk h.1), zero_add]

/-- Claims of one each count as masks. -/
lemma sum_covers_eq_bitCount {α : Type} (l : List α) (span : α → SegmentSpan) (qty : α → Int)
    (hq : ∀ x ∈ l, qty x = 1) (i : Nat) :
    ((l.filter (fun x => (span x).covers i)).map qty).sum = bitCount (l.map (fun x => (span x).mask)) i := by
  induction l with
  | nil => rfl
  | cons x l ih =>
    have htail := ih (fun y hy => hq y (List.mem_cons_of_mem _ hy))
    rw [bitCount, List.map_cons, List.countP_cons, SegmentSpan.getLsbD_mask]
    cases hc : (span x).covers i with
    | true =>
      simp only [List.filter_cons, hc, if_true, List.map_cons, List.sum_cons, htail, hq x List.mem_cons_self, bitCount]
      omega
    | false =>
      simp only [List.filter_cons, hc, Bool.false_eq_true, if_false, htail, bitCount, Nat.add_zero]

lemma soldBy_seat {t : Tx} {res : TxResult} {tripId unitId : Uuid} {x : Cell × SegmentSpan × Int}
    (hx : x ∈ soldBy t res) (hk : x.1 = (.seat, tripId, unitId)) : x.2.2 = 1 := by
  unfold soldBy at hx
  split at hx
  · split at hx
    · rw [List.mem_singleton.mp hx]
    · cases hx
  · split at hx
    · rw [List.mem_singleton.mp hx] at hk
      cases hk
    · cases hx
  · cases hx

variable {db : Db} {h : List Event} {tripId unitId : Uuid}

lemma load_live_seat (i : Nat) :
    load ((liveItems db).map itemClaim) (.seat, tripId, unitId) i =
      bitCount ((itemsOn db (.seat, tripId, unitId)).map (fun r => r.span.mask)) i := by
  rw [← sum_covers_eq_bitCount _ _ (fun r => (itemClaim r).qty)]
  · exact load_spanClaim (liveItems db) (fun r => (r.kind, r.tripId, r.unitId)) OrderItemRow.span _ _ i
  · intro r hr
    have hk := of_decide_eq_true (List.mem_filter.mp hr).2
    have hs : r.kind = .seat := congrArg Prod.fst hk
    simp only [itemClaim, spanClaim, hs]

lemma load_live_pool (i : Nat) :
    load ((liveItems db).map itemClaim) (.pool, tripId, unitId) i = heldQuantity db tripId unitId i := by
  refine (load_spanClaim (liveItems db) (fun r => (r.kind, r.tripId, r.unitId)) OrderItemRow.span _ _ i).trans ?_
  unfold heldQuantity itemsOn
  congr 1
  refine List.map_congr_left (fun r hr => ?_)
  have hk := of_decide_eq_true (List.mem_filter.mp (List.mem_filter.mp hr).1).2
  have hp : r.kind = .pool := congrArg Prod.fst hk
  simp only [hp]

lemma load_direct_seat (i : Nat) :
    load (directOf h) (.seat, tripId, unitId) i =
      bitCount ((soldOn h (.seat, tripId, unitId)).map (fun x => x.1.mask)) i := by
  refine (load_spanClaim (soldIn h) Prod.fst (fun x => x.2.1) (fun x => x.2.2) _ i).trans ?_
  rw [sum_covers_eq_bitCount _ _ _ ?_, soldOn, List.map_map]
  · rfl
  · intro x hx
    obtain ⟨hx, hk⟩ := List.mem_filter.mp hx
    obtain ⟨ev, -, hev⟩ := List.mem_flatMap.mp hx
    cases ev with
    | commit => exact soldBy_seat hev (of_decide_eq_true hk)
    | arrive | call | answer => cases hev

lemma load_direct_pool (i : Nat) :
    load (directOf h) (.pool, tripId, unitId) i = soldQuantity h tripId unitId i := by
  refine (load_spanClaim (soldIn h) Prod.fst (fun x => x.2.1) (fun x => x.2.2) _ i).trans ?_
  rw [soldQuantity, soldOn, List.filter_map, List.map_map]
  rfl

end Reading

section Seats

variable {app : AppState} {s : World}
  {c : LockConf Request World Tx TxResult Call Reply Answer Uuid LockRead LockRead}

/-- A seat is taken by its seed, its direct sales and its live orders, no segment twice. -/
lemma RunOk.seat {w : World} {h : List Event} (hr : RunOk s.db w h) {row₀ : SeatOccupancyRow} {tripId unitId : Uuid}
    (h₀ : s.db.seatOccupancy.find? (tripId, unitId) = some row₀) :
    ∃ row, w.db.seatOccupancy.find? (tripId, unitId) = some row ∧
      (seatOwners row₀ w.db h).Pairwise (fun a b => a &&& b = 0#64) ∧
      row.occupiedMask = (seatOwners row₀ w.db h).foldr (fun a b => a ||| b) 0#64 := by
  have hkey : row₀.key = (tripId, unitId) := Lib.Table.find?_key h₀
  cases hkey
  have hwidth := hr.balanced.width (.seat, row₀.tripId, row₀.unitId)
  simp only [width, h₀, Option.isSome_some, if_true] at hwidth
  split at hwidth
  · rename_i hsome
    obtain ⟨row, hrow⟩ := Option.isSome_iff_exists.mp hsome
    refine ⟨row, hrow, disjoint_union_of_bitCount (fun i hi => ?_)⟩
    have hb := hr.balanced.balance (.seat, row₀.tripId, row₀.unitId) trivial i (by simpa [width, hrow] using hi)
    rw [load_live_seat, load_direct_seat] at hb
    simp only [used, h₀, hrow] at hb
    have hcount : bitCount (seatOwners row₀ w.db h) i = (row₀.occupiedMask.getLsbD i).toNat +
        (bitCount ((soldOn h (.seat, row₀.tripId, row₀.unitId)).map (fun x => x.1.mask)) i +
          bitCount ((itemsOn w.db (.seat, row₀.tripId, row₀.unitId)).map (fun r => r.span.mask)) i) := by
      unfold seatOwners bitCount
      rw [List.countP_cons, List.countP_append]
      cases row₀.occupiedMask.getLsbD i <;> simp [Nat.add_comm]
    omega
  · cases hwidth

/-- Two live orders never own the same segment of a seat. -/
lemma RunOk.seat_once {w : World} {h : List Event} (hr : RunOk s.db w h) {r r' : OrderItemRow}
    (hm : r ∈ liveItems w.db) (hm' : r' ∈ liveItems w.db) (hs : r.kind = .seat) (hs' : r'.kind = .seat)
    (ht : r.tripId = r'.tripId) (hu : r.unitId = r'.unitId) (hne : r ≠ r') : r.span.overlaps r'.span = false := by
  have hsome : ∃ row₀, s.db.seatOccupancy.find? (r.tripId, r.unitId) = some row₀ := by
    have henter := hr.balanced.enters r (Lib.Table.mem_select.mp hm).1
    rw [hr.balanced.width] at henter
    simp only [itemClaim, spanClaim, hs, width] at henter
    split at henter
    · rename_i hsome
      exact Option.isSome_iff_exists.mp hsome
    · cases henter
  obtain ⟨row₀, h₀⟩ := hsome
  have hkey : row₀.key = (r.tripId, r.unitId) := Lib.Table.find?_key h₀
  obtain ⟨-, -, hpair, -⟩ := hr.seat h₀
  have hitems := (List.pairwise_append.mp (List.pairwise_cons.mp hpair).2).2.1
  rw [List.pairwise_map] at hitems
  have hmem : ∀ x ∈ liveItems w.db, x.kind = .seat → x.tripId = r.tripId → x.unitId = r.unitId →
      x ∈ itemsOn w.db (.seat, row₀.tripId, row₀.unitId) := by
    intro x hx h₁ h₂ h₃
    refine List.mem_filter.mpr ⟨hx, decide_eq_true ?_⟩
    rw [h₁, h₂, h₃, ← hkey]
    rfl
  have hsym : Std.Symm (fun a b : OrderItemRow => a.span.mask &&& b.span.mask = 0#64) :=
    ⟨fun a b hab => by rw [BitVec.and_comm]; exact hab⟩
  have hdisj := hitems.forall (hmem r hm hs rfl rfl) (hmem r' hm' hs' ht.symm hu.symm) hne
  simp [SegmentSpan.overlaps, hdisj]

/-- Zero double-sell, over every interleaving: the mask of each seat is the disjoint union
of its seed, its direct sales and the items of the orders that hold inventory; so no two
live orders own one segment, and every seat an order gives back was its own. -/
theorem seat_mask_disjoint_union (hs : s.db.Seeded) (hc : Reaches app s c) :
    (∀ tripId unitId row₀, s.db.seatOccupancy.find? (tripId, unitId) = some row₀ →
      ∃ row, c.store.db.seatOccupancy.find? (tripId, unitId) = some row ∧
        (seatOwners row₀ c.store.db c.trace).Pairwise (fun a b => a &&& b = 0#64) ∧
        row.occupiedMask = (seatOwners row₀ c.store.db c.trace).foldr (fun a b => a ||| b) 0#64) ∧
    (∀ r ∈ liveItems c.store.db, ∀ r' ∈ liveItems c.store.db, r.kind = .seat → r'.kind = .seat →
      r.tripId = r'.tripId → r.unitId = r'.unitId → r ≠ r' → r.span.overlaps r'.span = false) ∧
    (∀ x ∈ releasesIn c.trace, x.1.kind = .seat → x.2 = 1) := by
  have hr := hc.runOk hs
  refine ⟨fun tripId unitId row₀ h₀ => hr.seat h₀, fun r hm r' hm' hk hk' ht hu hne => ?_, fun x hx hk => ?_⟩
  · exact hr.seat_once hm hm' hk hk' ht hu hne
  · refine hr.released x hx ?_
    simp only [itemClaim, spanClaim, hk]
    trivial

/-- Ana books a seat and two places on deck; while her cancellation holds the lock on the
order, three more places are sold. -/
def harbourRun : List (LockAct Request Reply Oracle Nat) :=
  [.arrive (.storeCreate booking), .read 0 true, .read 0 true, .peek 0, .short 0 (drawn 100),
    .arrive (.cancelOrder 100), .lock 2, .plan 2,
    .arrive (.claimPool 1 3 ⟨0, 2, by decide, by decide⟩ 3), .short 3 (drawn 0), .commit 2 (drawn 0),
    .answer 2, .answer 0]

lemma harbourRun_reaches : ∃ c, Reaches sandbox harbour c ∧ (releasesIn c.trace).length = 2 := by
  have hrun : ((rowLocks sandbox).exec (RowLocks.init harbour) harbourRun).map
      (fun c => (releasesIn c.trace).length) = some 2 := by decide
  obtain ⟨c, hc, hlen⟩ := Option.map_eq_some_iff.mp hrun
  exact ⟨c, RowLocks.reachable_of_exec hc, hlen⟩

theorem seat_mask_harbour : ∃ c, Reaches sandbox harbour c ∧ (releasesIn c.trace).length = 2 ∧
    (∃ row, c.store.db.seatOccupancy.find? (1, 1) = some row ∧
      row.occupiedMask = (seatOwners ⟨1, 1, 0⟩ c.store.db c.trace).foldr (fun a b => a ||| b) 0#64) ∧
    ∀ x ∈ releasesIn c.trace, x.1.kind = .seat → x.2 = 1 := by
  obtain ⟨c, hc, hlen⟩ := harbourRun_reaches
  obtain ⟨hmask, -, hrel⟩ := seat_mask_disjoint_union harbour_seeded hc
  obtain ⟨row, hrow, -, hunion⟩ := hmask 1 1 ⟨1, 1, 0⟩ (by decide)
  exact ⟨c, hc, hlen, ⟨row, hrow, hunion⟩, hrel⟩

end Seats

section Pools

variable {app : AppState} {s : World}
  {c : LockConf Request World Tx TxResult Call Reply Answer Uuid LockRead LockRead}

lemma heldQuantity_nonneg {db₀ db : Db} {direct : List (Claim Cell)} (h : Balanced db₀ db direct)
    (tripId unitId : Uuid) (i : Nat) : 0 ≤ heldQuantity db tripId unitId i := by
  rw [← load_live_pool]
  exact load_live_nonneg h _ (fun r hr => (Lib.Table.mem_select.mp hr).1) _ i

/-- Pool conservation, over every interleaving: on each segment, what is left, what live
orders hold and what was sold directly add up to the capacity. -/
theorem pool_conservation (hs : s.db.Seeded) (hc : Reaches app s c) {tripId unitId : Uuid} {trip : TripRow}
    {unit : CapacityUnitRow} {capacity : Int} {row₀ : PoolOccupancyRow}
    (ht : s.db.trips.find? tripId = some trip) (hu : s.db.capacityUnits.find? unitId = some unit)
    (hcap : unit.poolCapacity = some capacity) (h₀ : s.db.poolOccupancy.find? (tripId, unitId) = some row₀)
    (hfull : row₀.remaining = List.replicate trip.segmentCount capacity) :
    (∀ i, i < trip.segmentCount → ∃ row left, c.store.db.poolOccupancy.find? (tripId, unitId) = some row ∧
      row.remaining.length = trip.segmentCount ∧ row.remaining[i]? = some left ∧
      left + heldQuantity c.store.db tripId unitId i + soldQuantity c.trace tripId unitId i = capacity ∧
      0 ≤ left ∧ left ≤ capacity) ∧
    ∀ x ∈ releasesIn c.trace, x.1.kind = .pool → x.1.tripId = tripId → x.1.unitId = unitId → x.2 = 1 := by
  have hr := hc.runOk hs
  have hreg : Regular s.db (.pool, tripId, unitId) :=
    ⟨trip, row₀, capacity, ht, h₀, by rw [hu]; exact hcap, hfull⟩
  have hlimit : limit c.store.db (.pool, tripId, unitId) = capacity := by
    simp [limit, hr.units, hu, hcap]
  constructor
  · intro i hi
    have hwidth := hr.balanced.width (.pool, tripId, unitId)
    have hin : i < width c.store.db (.pool, tripId, unitId) := by
      rw [hwidth]
      simpa [width, h₀, hfull] using hi
    simp only [width, h₀, hfull, List.length_replicate] at hwidth
    split at hwidth
    swap
    · omega
    rename_i row hrow
    have hget : row.remaining[i]? = some row.remaining[i] := List.getElem?_eq_getElem (by omega)
    refine ⟨row, row.remaining[i], hrow, hwidth, hget, ?_⟩
    have hb := hr.balanced.balance _ hreg i hin
    have hfit := hr.balanced.fits _ hreg i hin
    rw [load_live_pool, load_direct_pool] at hb
    have hused : used c.store.db (.pool, tripId, unitId) i = capacity - row.remaining[i] := by
      simp [used, hrow, hlimit, hget]
    have hseed : used s.db (.pool, tripId, unitId) i = 0 := by
      simp [used, h₀, limit, hu, hcap, hfull, hi]
    have hheld := heldQuantity_nonneg hr.balanced tripId unitId i
    have hsold : 0 ≤ soldQuantity c.trace tripId unitId i := by
      rw [← load_direct_pool]
      exact load_nonneg (fun d hd => (hr.balanced.sold d hd).le) _ i
    rw [hlimit] at hfit
    refine ⟨?_, ?_, ?_⟩ <;> omega
  · intro x hx hk ht' hu'
    refine hr.released x hx ?_
    simpa only [itemClaim, spanClaim, hk, ht', hu'] using hreg

theorem pool_conservation_harbour : ∃ c, Reaches sandbox harbour c ∧ (releasesIn c.trace).length = 2 ∧
    ∀ i, i < 2 → ∃ row left, c.store.db.poolOccupancy.find? (1, 3) = some row ∧ row.remaining[i]? = some left ∧
      left + heldQuantity c.store.db 1 3 i + soldQuantity c.trace 1 3 i = 10 ∧ 0 ≤ left := by
  obtain ⟨c, hc, hlen⟩ := harbourRun_reaches
  have ht : harbour.db.trips.find? 1 = some ⟨1, 1, 1, 86400, 2, .scheduled⟩ := by decide
  have hu : harbour.db.capacityUnits.find? 3 = some ⟨3, 1, .pool, "DECK", none, some 10, true⟩ := by decide
  have hp : harbour.db.poolOccupancy.find? (1, 3) = some ⟨1, 3, [10, 10]⟩ := by decide
  obtain ⟨hsum, -⟩ := pool_conservation harbour_seeded hc ht hu rfl hp rfl
  refine ⟨c, hc, hlen, fun i hi => ?_⟩
  obtain ⟨row, left, hrow, -, hget, htotal, hleft, -⟩ := hsum i hi
  exact ⟨row, left, hrow, hget, htotal, hleft⟩

end Pools

end Lulan.Proofs
