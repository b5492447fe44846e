import Lulan.Proofs.Occupancy

/-!
# The inventory ledger

What is taken of a segment is what the seed took, what the items of the orders that own
their claims hold, and what was sold directly. Every transaction keeps this balance, and
every release of an order goes through.
-/

namespace Lulan.Proofs

open Lulan Lulan.Db Lib

/-- The cells the ledger speaks of: every seat, and every pool that starts with one full
counter for each segment of its trip. -/
def Regular (db₀ : Db) : Cell → Prop
  | (.seat, _, _) => True
  | (.pool, tripId, unitId) => ∃ trip row capacity,
      db₀.trips.find? tripId = some trip ∧ db₀.poolOccupancy.find? (tripId, unitId) = some row ∧
      (db₀.capacityUnits.find? unitId).bind CapacityUnitRow.poolCapacity = some capacity ∧
      row.remaining = List.replicate trip.segmentCount capacity

/-- Whether the order of an item owns its claims. -/
def owned (db : Db) (r : OrderItemRow) : Bool :=
  match db.orders.find? r.orderId with
  | some o => o.status.holdsInventory
  | none => false

def liveItems (db : Db) : List OrderItemRow := db.orderItems.select (owned db)

/-- The segments a direct sale takes. -/
def soldBy : Tx → TxResult → List (Cell × SegmentSpan × Int)
  | .claimSeat tripId unitId span, .rows n => if n = 1 then [((.seat, tripId, unitId), span, 1)] else []
  | .claimPool tripId unitId span qty, .rows n => if n = 1 then [((.pool, tripId, unitId), span, qty)] else []
  | _, _ => []

def directClaim (t : Tx) (res : TxResult) : List (Claim Cell) :=
  (soldBy t res).map (fun x => spanClaim x.1 x.2.1 x.2.2)

lemma directClaim_of_not_wins {t : Tx} {res : TxResult} (h : wins t res = false) : directClaim t res = [] := by
  unfold directClaim soldBy
  split
  · rw [if_neg (by simpa [wins] using h), List.map_nil]
  · rw [if_neg (by simpa [wins] using h), List.map_nil]
  · rfl

lemma directClaim_of_not_rows {t : Tx} {res : TxResult} (h : ∀ n, res ≠ .rows n) : directClaim t res = [] := by
  cases res with
  | rows n => exact absurd rfl (h n)
  | _ => cases t <;> rfl

/-- The balance of the ledger, and what keeps it. -/
structure Balanced (db₀ db : Db) (direct : List (Claim Cell)) : Prop where
  units : db.capacityUnits = db₀.capacityUnits
  width : ∀ k, width db k = width db₀ k
  refs : ∀ r ∈ db.orderItems.rows, (db.orders.find? r.orderId).isSome = true
  quantity : ∀ r ∈ db.orderItems.rows, 0 < r.quantity
  enters : ∀ r ∈ db.orderItems.rows, (itemClaim r).lo < Proofs.width db (itemClaim r).cell
  noDraft : ∀ o ∈ db.orders.rows, o.status ≠ .draft
  sold : ∀ c ∈ direct, 0 < c.qty
  balance : ∀ k, Regular db₀ k → ∀ i, i < Proofs.width db k →
    used db k i = used db₀ k i + load ((liveItems db).map itemClaim) k i + load direct k i
  fits : ∀ k, Regular db₀ k → ∀ i, i < Proofs.width db k → used db k i ≤ limit db k

section Live

variable {db db' : Db} {orderId : Uuid} {seq : Nat} {event : OrderEventType}
  {change : Lib.Assign OrderRow.id} {cur next : OrderStatus}

lemma Advance.width (h : Advance db db' orderId seq event change) (k : Cell) : width db' k = width db k := by
  obtain ⟨_, _, _, _, rfl⟩ := h
  obtain ⟨kind, t, u⟩ := k
  cases kind <;> rfl

lemma Advance.used (h : Advance db db' orderId seq event change) (k : Cell) (i : Nat) :
    used db' k i = used db k i := by
  obtain ⟨_, _, _, _, rfl⟩ := h
  obtain ⟨kind, t, u⟩ := k
  cases kind <;> rfl

/-- After a transition the items of the other orders are owned as before. -/
lemma Advance.owned (h : Advance db db' orderId seq event change) (hl : db.lockOrder orderId = some cur)
    (hs : ∀ r, (change.set r).status = next) (r : OrderItemRow) :
    owned db' r = if r.orderId = orderId then next.holdsInventory else owned db r := by
  unfold Proofs.owned
  rw [h.find?_orders]
  by_cases hr : r.orderId = orderId
  · rw [if_pos hr, if_pos hr, hr]
    unfold lockOrder at hl
    obtain ⟨o, ho, -⟩ := Option.map_eq_some_iff.mp hl
    simp [ho, hs]
  · rw [if_neg hr, if_neg hr]

lemma owned_of_lock (hl : db.lockOrder orderId = some cur) {r : OrderItemRow} (hr : r.orderId = orderId) :
    owned db r = cur.holdsInventory := by
  obtain ⟨o, ho, hc⟩ := Option.map_eq_some_iff.mp hl
  simp [owned, hr, ho, hc]

lemma Advance.refs (h : Advance db db' orderId seq event change)
    (hr : ∀ r ∈ db.orderItems.rows, (db.orders.find? r.orderId).isSome = true) :
    ∀ r ∈ db'.orderItems.rows, (db'.orders.find? r.orderId).isSome = true := by
  rw [h.orderItems]
  intro r hm
  rw [h.orders, Lib.Table.find?_update, Option.isSome_map]
  exact hr r hm

lemma Advance.noDraft (h : Advance db db' orderId seq event change)
    (hd : ∀ o ∈ db.orders.rows, o.status ≠ .draft) (hs : ∀ r, (change.set r).status = next)
    (hn : next ≠ .draft) : ∀ o ∈ db'.orders.rows, o.status ≠ .draft := by
  rw [h.orders, Lib.Table.rows_update]
  intro o ho
  obtain ⟨r, hr, rfl⟩ := List.mem_map.mp ho
  split
  · rw [hs]
    exact hn
  · exact hd r hr

/-- A transition between states that own their claims changes no claim. -/
lemma Advance.liveItems_same (h : Advance db db' orderId seq event change) (hl : db.lockOrder orderId = some cur)
    (hs : ∀ r, (change.set r).status = next) (he : cur.holdsInventory = next.holdsInventory) :
    liveItems db' = liveItems db := by
  unfold liveItems
  rw [h.orderItems]
  refine List.filter_congr (fun r _ => ?_)
  rw [h.owned hl hs]
  by_cases hr : r.orderId = orderId
  · rw [if_pos hr, owned_of_lock hl hr, he]
  · rw [if_neg hr]

/-- A transition that gives up the claims takes exactly the order's items out. -/
lemma Advance.liveItems_exit (h : Advance db db' orderId seq event change) (hl : db.lockOrder orderId = some cur)
    (hs : ∀ r, (change.set r).status = next) (hc : cur.holdsInventory = true)
    (hn : next.holdsInventory = false) (k : Cell) (i : Nat) :
    load ((liveItems db).map itemClaim) k i =
      load ((db'.orderItems.select (fun r => decide (r.orderId = orderId))).map itemClaim) k i +
        load ((liveItems db').map itemClaim) k i := by
  have hsplit := load_filter_add (liveItems db) itemClaim (fun r => decide (r.orderId = orderId)) k i
  have hmine : (liveItems db).filter (fun r => decide (r.orderId = orderId)) =
      db'.orderItems.select (fun r => decide (r.orderId = orderId)) := by
    unfold liveItems Lib.Table.select
    rw [h.orderItems, List.filter_filter]
    refine List.filter_congr (fun r _ => ?_)
    by_cases hr : r.orderId = orderId
    · simp [hr, owned_of_lock hl hr, hc]
    · simp [hr]
  have hrest : (liveItems db).filter (fun r => !decide (r.orderId = orderId)) = liveItems db' := by
    unfold liveItems Lib.Table.select
    rw [h.orderItems, List.filter_filter]
    refine List.filter_congr (fun r _ => ?_)
    rw [h.owned hl hs]
    by_cases hr : r.orderId = orderId
    · simp [hr, hn]
    · simp [hr]
  rw [← hsplit, hmine, hrest]

end Live

section Release

/-- Releasing a list of items whose claims are all in the ledger takes out exactly their load,
and each release goes through. -/
theorem releaseItems_balance {R : Cell → Prop} {B : Cell → Nat → Int} (items : List OrderItemRow) (db : Db)
    (hB : ∀ k, R k → ∀ i, i < width db k → 0 ≤ B k i)
    (hcap : ∀ t u, R (.pool, t, u) →
      (((db.capacityUnits.find? u).bind CapacityUnitRow.poolCapacity)).isSome = true)
    (hqty : ∀ r ∈ items, 0 < r.quantity)
    (henters : ∀ r ∈ items, (itemClaim r).lo < width db (itemClaim r).cell)
    (hused : ∀ k, R k → ∀ i, i < width db k → used db k i = B k i + load (items.map itemClaim) k i) :
    (∀ k, width (releaseItems items db).2 k = width db k) ∧
    (∀ k, R k → ∀ i, i < width db k → used (releaseItems items db).2 k i = B k i) ∧
    ∀ x ∈ (releaseItems items db).1, R (itemClaim x.1).cell → x.2 = 1 := by
  induction items generalizing db with
  | nil =>
    refine ⟨fun _ => rfl, fun k hk i hi => ?_, fun x hx => ?_⟩
    · have h := hused k hk i hi
      rw [List.map_nil, load_nil, add_zero] at h
      exact h
    · cases hx
  | cons item rest ih =>
    have hunits : (db.releaseItem item).2.capacityUnits = db.capacityUnits := by
      rw [releaseItem_frame]
    have hwidth : ∀ k, width (db.releaseItem item).2 k = width db k := releaseItem_width item
    have hpos : 0 ≤ (itemClaim item).qty := by
      have hq := hqty item List.mem_cons_self
      unfold itemClaim spanClaim
      cases item.kind
      · exact Int.zero_le_ofNat 1
      · exact hq.le
    have hload : ∀ k i, 0 ≤ load (rest.map itemClaim) k i := by
      refine fun k i => load_nonneg (fun c hc => ?_) k i
      obtain ⟨r, hr, rfl⟩ := List.mem_map.mp hc
      have hq := hqty r (List.mem_cons_of_mem _ hr)
      unfold itemClaim spanClaim
      cases r.kind
      · exact Int.zero_le_ofNat 1
      · exact hq.le
    -- the item's own release: what is left to give back covers it
    have hstep : (R (itemClaim item).cell → (db.releaseItem item).1 = 1) ∧
        ∀ k, R k → ∀ i, i < width db k →
          used (db.releaseItem item).2 k i = B k i + load (rest.map itemClaim) k i := by
      by_cases hR : R (itemClaim item).cell
      · have hheld : ∀ i, i < width db (itemClaim item).cell → item.span.covers i = true →
            (itemClaim item).qty ≤ used db (itemClaim item).cell i := by
          intro i hi hc
          obtain ⟨hlo, hhi⟩ := (SegmentSpan.covers_iff item.span i).mp hc
          have hu := hused _ hR i hi
          rw [List.map_cons, load_cons, Claim.on_of_covers hlo hhi] at hu
          have h₁ := hB _ hR i hi
          have h₂ := hload (itemClaim item).cell i
          omega
        have hent := henters item List.mem_cons_self
        have hrel : (db.releaseItem item).1 = 1 ∧ Releases db (db.releaseItem item).2 (itemClaim item) := by
          unfold releaseItem
          unfold itemClaim at hheld hent hR ⊢
          cases hkind : item.kind with
          | seat =>
            simp only [hkind] at hheld hent ⊢
            have hw : 0 < width db (.seat, item.tripId, item.unitId) := lt_of_le_of_lt (Nat.zero_le _) hent
            refine releaseSeatExec_releases hw (fun i hc => hheld i ?_ hc)
            have hlt := SegmentSpan.lt_of_covers hc
            simp only [width] at hw
            split at hw
            · rename_i hs
              simp only [spanClaim, width, hs, if_true]
              exact hlt
            · cases hw
          | pool =>
            simp only [hkind] at hheld hent hR ⊢
            exact releasePoolExec_releases hent (hcap _ _ hR) hheld
        refine ⟨fun _ => hrel.1, fun k hk i hi => ?_⟩
        rw [hrel.2.used k i hi, hused k hk i hi, List.map_cons, load_cons]
        omega
      · refine ⟨fun h => absurd h hR, fun k hk i hi => ?_⟩
        have hne : k ≠ (itemClaim item).cell := fun h => hR (h ▸ hk)
        rw [(releaseItem_other item hne).2 i, hused k hk i hi, List.map_cons, load_cons,
          Claim.on_of_ne (fun h => hne h.symm), zero_add]
    obtain ⟨hw, hu, hone⟩ := ih (db.releaseItem item).2
      (fun k hk i hi => hB k hk i (by rw [hwidth] at hi; exact hi))
      (by rw [hunits]; exact hcap) (fun r hr => hqty r (List.mem_cons_of_mem _ hr))
      (fun r hr => by rw [hwidth]; exact henters r (List.mem_cons_of_mem _ hr))
      (fun k hk i hi => hstep.2 k hk i (by rw [hwidth] at hi; exact hi))
    refine ⟨fun k => ?_, fun k hk i hi => ?_, fun x hx => ?_⟩
    · exact (hw k).trans (hwidth k)
    · exact hu k hk i (by rw [hwidth]; exact hi)
    · rcases List.mem_cons.mp hx with rfl | hx
      · exact hstep.1
      · exact hone x hx

end Release

section Step

variable {db₀ db db' : Db} {direct : List (Claim Cell)}

lemma used_seed_nonneg (h₀ : db₀.Seeded) {k : Cell} (hk : Regular db₀ k) {i : Nat} (hi : i < width db₀ k) :
    0 ≤ used db₀ k i ∧ used db₀ k i ≤ limit db₀ k := by
  obtain ⟨kind, t, u⟩ := k
  cases kind with
  | seat =>
    unfold used limit
    simp only
    split
    · rename_i r _
      cases r.occupiedMask.getLsbD i <;> simp
    · simp
  | pool =>
    obtain ⟨trip, row, capacity, -, hrow, hcap, hrem⟩ := hk
    simp only [width, hrow, hrem, List.length_replicate] at hi
    have hnonneg : 0 ≤ capacity := by
      refine h₀.remaining row (Lib.Table.find?_mem hrow) capacity ?_
      rw [hrem]
      exact List.mem_replicate.mpr ⟨by omega, rfl⟩
    simp [used, limit, hrow, hcap, hrem, hi, hnonneg]

lemma balanced_of_seeded (h₀ : db₀.Seeded) : Balanced db₀ db₀ [] where
  units := rfl
  width _ := rfl
  refs := by simp [h₀.orderItems]
  quantity := by simp [h₀.orderItems]
  enters := by simp [h₀.orderItems]
  noDraft := by simp [h₀.orders]
  sold := by simp
  balance k _ i _ := by simp [liveItems, Lib.Table.select, h₀.orderItems]
  fits k hk i hi := (used_seed_nonneg h₀ hk hi).2

lemma load_live_nonneg (h : Balanced db₀ db direct) (l : List OrderItemRow)
    (hl : ∀ r ∈ l, r ∈ db.orderItems.rows) (k : Cell) (i : Nat) : 0 ≤ load (l.map itemClaim) k i := by
  refine load_nonneg (fun c hc => ?_) k i
  obtain ⟨r, hr, rfl⟩ := List.mem_map.mp hc
  have hq := h.quantity r (hl r hr)
  unfold itemClaim spanClaim
  cases r.kind
  · exact Int.zero_le_ofNat 1
  · exact hq.le

/-- The balance only depends on orders, items and occupancy. -/
lemma Balanced.congr (h : Balanced db₀ db direct) (ho : db'.orders = db.orders)
    (hi : db'.orderItems = db.orderItems) (hs : db'.seatOccupancy = db.seatOccupancy)
    (hp : db'.poolOccupancy = db.poolOccupancy) (hc : db'.capacityUnits = db.capacityUnits) :
    Balanced db₀ db' direct := by
  have hw := width_congr hs hp
  have hl := limit_congr hc
  have hu := used_congr hs hp hc
  have hlive : liveItems db' = liveItems db := by
    unfold liveItems owned
    rw [ho, hi]
  constructor
  · rw [hc, h.units]
  · exact fun k => (hw k).trans (h.width k)
  · rw [hi, ho]
    exact h.refs
  · rw [hi]
    exact h.quantity
  · rw [hi]
    exact fun r hr => by rw [hw]; exact h.enters r hr
  · rw [ho]
    exact h.noDraft
  · exact h.sold
  · intro k hk i hki
    rw [hu, hlive]
    exact h.balance k hk i (by rw [hw] at hki; exact hki)
  · intro k hk i hki
    rw [hu, hl]
    exact h.fits k hk i (by rw [hw] at hki; exact hki)

/-- A direct sale enters the ledger. -/
lemma Balanced.sell (h : Balanced db₀ db direct) {c : Claim Cell} (hc : Claims db db' c) (hq : 0 < c.qty)
    (ho : db'.orders = db.orders) (hi : db'.orderItems = db.orderItems)
    (hu : db'.capacityUnits = db.capacityUnits) : Balanced db₀ db' (direct ++ [c]) := by
  have hlive : liveItems db' = liveItems db := by
    unfold liveItems owned
    rw [ho, hi]
  constructor
  · rw [hu, h.units]
  · exact fun k => (hc.width k).trans (h.width k)
  · rw [hi, ho]
    exact h.refs
  · rw [hi]
    exact h.quantity
  · rw [hi]
    exact fun r hr => by rw [hc.width]; exact h.enters r hr
  · rw [ho]
    exact h.noDraft
  · intro d hd
    rcases List.mem_append.mp hd with hd | hd
    · exact h.sold d hd
    · rw [List.mem_singleton.mp hd]
      exact hq
  · intro k hk i hki
    rw [hc.width] at hki
    rw [hc.used k i hki, hlive, h.balance k hk i hki, load_append, load_cons, load_nil]
    omega
  · intro k hk i hki
    rw [hc.width] at hki
    exact hc.within hu hki (h.fits k hk i hki)

/-- The claims of a booking, item by item. -/
lemma claimItems_claims {orderId : Uuid} {passengers : List PassengerRecord} {ws : List WiredItem} {db db' : Db}
    (h : claimItems orderId passengers ws db = .ok db') :
    (∀ k, width db' k = width db k) ∧
    (∀ k i, i < width db k → used db' k i =
      used db k i + load ((ws.map (itemRow orderId passengers)).map itemClaim) k i) ∧
    ∀ w ∈ ws, (itemClaim (itemRow orderId passengers w)).lo <
      width db (itemClaim (itemRow orderId passengers w)).cell := by
  induction ws generalizing db with
  | nil =>
    cases h
    exact ⟨fun _ => rfl, fun k i _ => by simp, by simp⟩
  | cons w rest ih =>
    obtain ⟨db₁, h₁, h⟩ := bind_eq_ok.mp h
    have hc := claimItem_claims h₁
    obtain ⟨hw, hu, hent⟩ := ih h
    refine ⟨fun k => (hw k).trans (hc.width k), fun k i hi => ?_, fun x hx => ?_⟩
    · rw [hu k i (by rw [hc.width]; exact hi), hc.used k i hi]
      simp only [List.map_cons, load_cons]
      omega
    · rcases List.mem_cons.mp hx with rfl | hx
      · exact hc.enters
      · rw [← hc.width]
        exact hent x hx

lemma claimItems_fits {orderId : Uuid} {passengers : List PassengerRecord} {ws : List WiredItem} {db db' : Db}
    (h : claimItems orderId passengers ws db = .ok db')
    (hfit : ∀ k, Regular db₀ k → ∀ i, i < width db k → used db k i ≤ limit db k) :
    ∀ k, Regular db₀ k → ∀ i, i < width db' k → used db' k i ≤ limit db' k := by
  induction ws generalizing db with
  | nil =>
    cases h
    exact hfit
  | cons w rest ih =>
    obtain ⟨db₁, h₁, h⟩ := bind_eq_ok.mp h
    have hc := claimItem_claims h₁
    have hunits : db₁.capacityUnits = db.capacityUnits := by
      obtain ⟨-, -, orderItems, -, rfl⟩ := claimItem_eq_ok h₁
      rfl
    refine ih h (fun k hk i hi => ?_)
    rw [hc.width] at hi
    exact hc.within hunits hi (hfit k hk i hi)

/-- A booking: the new order owns exactly its new items. -/
lemma Balanced.book {ids : BookingIds} {now expiresAt : Timestamp} {o : NewOrder} {wired : List WiredItem}
    {record : OrderRecord} (h : Balanced db₀ db direct)
    (hb : Booked ids now expiresAt o wired record db db') : Balanced db₀ db' direct := by
  obtain ⟨orders, passengers, orderAncillaries, events, outbox, records, db₁, hord, -, -, -, hclaims, -, -, rfl⟩ := hb
  have hid : (newOrderRow ids.orderId o expiresAt).id = ids.orderId := rfl
  obtain ⟨hnew, hrows⟩ := Lib.Table.insert_eq_some.mp hord
  obtain ⟨hitems, hframe⟩ := claimItems_frame hclaims
  have hfind := Lib.Table.find?_insert hord
  rw [hid] at hnew hfind
  have horders : db₁.orders = orders := by rw [hframe]
  have hunits : db₁.capacityUnits = db.capacityUnits := by rw [hframe]
  obtain ⟨hw, hu, hent⟩ := claimItems_claims hclaims
  have hf := claimItems_fits hclaims (fun k hk i hi => h.fits k hk i hi)
  -- the items already there belong to orders that were there before
  have hold : ∀ r ∈ db.orderItems.rows, owned db₁ r = owned db r := by
    intro r hr
    have hsome := h.refs r hr
    have hne : ids.orderId ≠ r.orderId := by
      intro he
      rw [← he, hnew] at hsome
      cases hsome
    unfold owned
    rw [horders, hfind, if_neg hne]
  have hmine : ∀ w, owned db₁ (itemRow ids.orderId records w) = true := by
    intro w
    unfold owned
    rw [horders, hfind]
    simp [itemRow, newOrderRow, OrderStatus.holdsInventory]
  have hlive : liveItems db₁ = liveItems db ++ wired.map (itemRow ids.orderId records) := by
    unfold liveItems Lib.Table.select
    rw [hitems, List.filter_append, List.filter_congr hold]
    congr 1
    rw [List.filter_eq_self]
    intro r hr
    obtain ⟨w, -, rfl⟩ := List.mem_map.mp hr
    exact hmine w
  have hmem : ∀ r, r ∈ db₁.orderItems.rows ↔
      r ∈ db.orderItems.rows ∨ ∃ w ∈ wired, itemRow ids.orderId records w = r := by
    intro r
    rw [hitems, List.mem_append, List.mem_map]
  have hbal : Balanced db₀ db₁ direct := by
    constructor
    · rw [hunits, h.units]
    · exact fun k => (hw k).trans (h.width k)
    · intro r hr
      rw [horders, hfind]
      rcases (hmem r).mp hr with hr | ⟨w, -, rfl⟩
      · by_cases he : ids.orderId = r.orderId
        · rw [if_pos he]
          rfl
        · rw [if_neg he]
          exact h.refs r hr
      · simp [itemRow]
    · intro r hr
      rcases (hmem r).mp hr with hr | ⟨w, -, rfl⟩
      · exact h.quantity r hr
      · exact lt_of_lt_of_le Int.one_pos (le_max_right _ _)
    · intro r hr
      rw [hw]
      rcases (hmem r).mp hr with hr | ⟨w, hwm, rfl⟩
      · exact h.enters r hr
      · exact hent w hwm
    · rw [horders, hrows]
      intro x hx
      rcases List.mem_append.mp hx with hx | hx
      · exact h.noDraft x hx
      · rw [List.mem_singleton.mp hx]
        simp [newOrderRow]
    · exact h.sold
    · intro k hk i hi
      rw [hw] at hi
      have hb := h.balance k hk i hi
      have hused := hu k i hi
      rw [show Proofs.used { db with orders := orders, passengers := passengers } k i = Proofs.used db k i from
        used_congr rfl rfl rfl k i] at hused
      rw [hused, hb, hlive, List.map_append, load_append]
      omega
    · exact hf
  exact hbal.congr rfl rfl rfl rfl rfl

/-- A transition that gives no claim up. -/
lemma Balanced.advance {orderId : Uuid} {seq : Nat} {event : OrderEventType} {change : Lib.Assign OrderRow.id}
    {cur next : OrderStatus} (h : Balanced db₀ db direct) (ha : Advance db db' orderId seq event change)
    (hl : db.lockOrder orderId = some cur) (hs : ∀ r, (change.set r).status = next)
    (he : cur.holdsInventory = next.holdsInventory) (hd : next ≠ .draft) : Balanced db₀ db' direct := by
  have hlive := ha.liveItems_same hl hs he
  have hc := ha.capacityUnits
  constructor
  · rw [hc, h.units]
  · exact fun k => (ha.width k).trans (h.width k)
  · exact ha.refs h.refs
  · rw [ha.orderItems]
    exact h.quantity
  · rw [ha.orderItems]
    exact fun r hr => by rw [ha.width]; exact h.enters r hr
  · exact ha.noDraft h.noDraft hs hd
  · exact h.sold
  · intro k hk i hi
    rw [ha.width] at hi
    rw [ha.used, hlive]
    exact h.balance k hk i hi
  · intro k hk i hi
    rw [ha.width] at hi
    rw [ha.used, limit_congr hc]
    exact h.fits k hk i hi

/-- A transition that gives the claims up: every release goes through. -/
lemma Balanced.exit {orderId : Uuid} {seq : Nat} {event : OrderEventType} {change : Lib.Assign OrderRow.id}
    {cur next : OrderStatus} {mid : Db} (h₀ : db₀.Seeded) (h : Balanced db₀ db direct)
    (ha : Advance db mid orderId seq event change)
    (hl : db.lockOrder orderId = some cur) (hs : ∀ r, (change.set r).status = next)
    (hc : cur.holdsInventory = true) (hn : next.holdsInventory = false) (hd : next ≠ .draft) :
    Balanced db₀ (mid.releaseOrderItems orderId).2 direct ∧
      ∀ x ∈ (mid.releaseOrderItems orderId).1, Regular db₀ (itemClaim x.1).cell → x.2 = 1 := by
  have hunits := ha.capacityUnits
  have hitems := ha.orderItems
  have hmem : ∀ r ∈ mid.orderItems.select (fun r => decide (r.orderId = orderId)), r ∈ db.orderItems.rows := by
    intro r hr
    rw [← hitems]
    exact (Lib.Table.mem_select.mp hr).1
  have hlivemem : ∀ r ∈ liveItems mid, r ∈ db.orderItems.rows := by
    intro r hr
    rw [← hitems]
    exact (Lib.Table.mem_select.mp hr).1
  have hdirect : ∀ k i, 0 ≤ load direct k i := fun k i => load_nonneg (fun c hc => (h.sold c hc).le) k i
  obtain ⟨hw, hu, hone⟩ := releaseItems_balance
    (R := Regular db₀) (B := fun k i => Proofs.used db₀ k i + load ((liveItems mid).map itemClaim) k i + load direct k i)
    (mid.orderItems.select (fun r => decide (r.orderId = orderId))) mid
    (fun k hk i hi => by
      rw [ha.width, h.width] at hi
      have h₁ := (used_seed_nonneg h₀ hk hi).1
      have h₂ := load_live_nonneg h (liveItems mid) hlivemem k i
      have h₃ := hdirect k i
      omega)
    (fun t u hk => by
      obtain ⟨_, _, capacity, -, -, hcap, -⟩ := hk
      rw [hunits, h.units, hcap]
      rfl)
    (fun r hr => h.quantity r (hmem r hr))
    (fun r hr => by
      rw [ha.width]
      exact h.enters r (hmem r hr))
    (fun k hk i hi => by
      rw [ha.width] at hi
      rw [ha.used, h.balance k hk i hi, ha.liveItems_exit hl hs hc hn k i]
      omega)
  have hframe := releaseItems_frame (mid.orderItems.select (fun r => decide (r.orderId = orderId))) mid
  refine ⟨?_, hone⟩
  have hord : (mid.releaseOrderItems orderId).2.orders = mid.orders := by
    unfold releaseOrderItems
    rw [hframe]
  have hoi : (mid.releaseOrderItems orderId).2.orderItems = mid.orderItems := by
    unfold releaseOrderItems
    rw [hframe]
  have hcu : (mid.releaseOrderItems orderId).2.capacityUnits = mid.capacityUnits := by
    unfold releaseOrderItems
    rw [hframe]
  have hlive : liveItems (mid.releaseOrderItems orderId).2 = liveItems mid := by
    unfold liveItems owned
    rw [hord, hoi]
  have hwm : ∀ k, Proofs.width (mid.releaseOrderItems orderId).2 k = Proofs.width db k := fun k =>
    (hw k).trans (ha.width k)
  constructor
  · rw [hcu, hunits, h.units]
  · exact fun k => (hwm k).trans (h.width k)
  · rw [hoi, hord]
    exact ha.refs h.refs
  · rw [hoi, hitems]
    exact h.quantity
  · rw [hoi, hitems]
    exact fun r hr => by rw [hwm]; exact h.enters r hr
  · rw [hord]
    exact ha.noDraft h.noDraft hs hd
  · exact h.sold
  · intro k hk i hi
    rw [hwm] at hi
    rw [hlive]
    exact hu k hk i (by rw [ha.width]; exact hi)
  · intro k hk i hi
    rw [hwm] at hi
    have hafter := hu k hk i (by rw [ha.width]; exact hi)
    have hbefore := h.balance k hk i hi
    rw [ha.liveItems_exit hl hs hc hn k i] at hbefore
    have hpart := load_live_nonneg h _ hmem k i
    have hfit := h.fits k hk i hi
    rw [limit_congr (hcu.trans hunits)]
    refine le_trans ?_ hfit
    rw [hbefore]
    refine hafter.le.trans ?_
    omega

lemma Balanced.current_ne_draft {orderId : Uuid} {cur : OrderStatus} (h : Balanced db₀ db direct)
    (hl : db.lockOrder orderId = some cur) : cur ≠ .draft := by
  obtain ⟨o, ho, rfl⟩ := Option.map_eq_some_iff.mp hl
  exact h.noDraft o (Lib.Table.find?_mem ho)

/-- Every transaction keeps the ledger balanced, and every release it makes goes through. -/
theorem Balanced.step {w : Oracle} {now : Timestamp} {t : Tx} {res : TxResult} (h₀ : db₀.Seeded)
    (h : Balanced db₀ db direct) (he : Effect w now db t res db')
    (hqty : ∀ tripId unitId span qty, t = .claimPool tripId unitId span qty → 0 < qty) :
    Balanced db₀ db' (direct ++ directClaim t res) ∧
      ∀ x ∈ releasedBy res, Regular db₀ (itemClaim x.1).cell → x.2 = 1 := by
  cases he with
  | quiet frame hw hr =>
    rw [directClaim_of_not_wins hw, List.append_nil, hr]
    exact ⟨h.congr frame.orders frame.orderItems frame.seatOccupancy frame.poolOccupancy frame.capacityUnits,
      by simp⟩
  | booked hb =>
    refine ⟨?_, by simp [releasedBy]⟩
    rw [directClaim_of_not_rows (by simp), List.append_nil]
    exact h.book hb
  | seatSold hc => exact ⟨h.sell (claimSeatExec_claims hc) Int.one_pos rfl rfl rfl, by simp [releasedBy]⟩
  | @poolSold tripId unitId span qty hc =>
    exact ⟨h.sell (claimPoolExec_claims hc) (hqty tripId unitId span qty rfl) rfl rfl rfl, by simp [releasedBy]⟩
  | requested hl ha =>
    refine ⟨?_, by simp [releasedBy]⟩
    rw [directClaim_of_not_rows (by simp), List.append_nil]
    exact h.advance ha hl.current (fun _ => rfl) rfl (by decide)
  | captured hl ha =>
    refine ⟨?_, by simp [releasedBy]⟩
    rw [directClaim_of_not_rows (by simp), List.append_nil]
    exact h.advance ha hl.current (fun _ => rfl) rfl (by decide)
  | declined hl ha =>
    refine ⟨?_, by simp [releasedBy]⟩
    rw [directClaim_of_not_rows (by simp), List.append_nil]
    exact h.advance ha hl.current (fun _ => rfl) rfl (by decide)
  | exited ht hl happ ha =>
    rw [directClaim_of_not_rows (by simp), List.append_nil]
    have hd := h.current_ne_draft hl.current
    obtain ⟨hc, hn⟩ := apply_holdsInventory happ hd
    refine h.exit h₀ ha hl.current (fun _ => rfl) hc ?_ (apply_ne_draft happ)
    rw [hn]
    rcases ht with ⟨-, rfl⟩ | ⟨-, rfl⟩ <;> rfl
  | refunded hl happ ha =>
    rw [directClaim_of_not_rows (by simp), List.append_nil]
    have hd := h.current_ne_draft hl.current
    obtain ⟨hc, -⟩ := apply_holdsInventory happ hd
    obtain ⟨hb, hone⟩ := h.exit h₀ ha hl.current (fun _ => rfl) hc rfl (by decide)
    exact ⟨hb.congr rfl rfl rfl rfl rfl, hone⟩
  | issued hl hi ha =>
    refine ⟨?_, by simp [releasedBy]⟩
    rw [directClaim_of_not_rows (by simp), List.append_nil]
    have hmid := hi.frame
    have hb := h.congr hmid.orders hmid.orderItems hmid.seatOccupancy hmid.poolOccupancy hmid.capacityUnits
    exact hb.advance ha ((lockOrder_congr hmid.orders _).trans hl.current) (fun _ => rfl) rfl (by decide)
  | boarded _ _ =>
    refine ⟨?_, by simp [releasedBy]⟩
    rw [directClaim_of_not_rows (by simp), List.append_nil]
    exact h.congr rfl rfl rfl rfl rfl
  | lastBoarded _ _ hl _ ha =>
    refine ⟨?_, by simp [releasedBy]⟩
    rw [directClaim_of_not_rows (by simp), List.append_nil]
    refine Balanced.advance ?_ ha hl.current (fun _ => rfl) rfl (by decide)
    exact h.congr rfl rfl rfl rfl rfl

end Step

end Lulan.Proofs
