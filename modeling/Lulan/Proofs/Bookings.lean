import Lulan.Lib.Alone
import Lulan.Lib.Batch
import Lulan.Proofs.Duplicates
import Lulan.Proofs.Search

/-!
# All legs or none

A booking is made exactly when its items can each be claimed by themselves and no two of
them want the same unit of a trip. Otherwise it leaves nothing behind.
-/

namespace Lulan.Proofs

open Lulan Lulan.Db Lib

section Claims

variable {db db' : Db}

/-- What an item takes: a unit of a trip. -/
def cellOf (w : WiredItem) : Uuid × Uuid := (w.item.tripId, w.target.unitId)

/-- The item can be claimed by itself: the seat is free for the span, or the pool has as many
places left in every segment of it. -/
def CanClaim (db : Db) (item : NewOrderItem) (target : ClaimTarget) : Prop :=
  match target.kind with
  | .seat => ∃ row, db.seatOccupancy.find? (item.tripId, target.unitId) = some row ∧
      row.occupiedMask &&& target.span.mask = 0#64
  | .pool => 0 < item.quantity ∧ ∃ row low, db.poolOccupancy.find? (item.tripId, target.unitId) = some row ∧
      (slice row.remaining (target.span.fromIndex + 1) target.span.toIndex).min? = some low ∧ item.quantity ≤ low

/-- The occupancy of a unit of a trip. -/
def occupancy (db : Db) (k : Uuid × Uuid) : Option SeatOccupancyRow × Option PoolOccupancyRow :=
  (db.seatOccupancy.find? k, db.poolOccupancy.find? k)

/-- The occupancy an item leaves: the span's bits set, or its quantity taken off every segment. -/
def withClaim (w : WiredItem) (x : Option SeatOccupancyRow × Option PoolOccupancyRow) :
    Option SeatOccupancyRow × Option PoolOccupancyRow :=
  match w.target.kind with
  | .seat => (x.1.map (fun r => { r with occupiedMask := r.occupiedMask ||| w.target.span.mask }), x.2)
  | .pool => (x.1, x.2.map (fun r => { r with
      remaining := addBetween r.remaining (w.target.span.fromIndex + 1) w.target.span.toIndex (-w.item.quantity) }))

lemma claimTarget_affects (item : NewOrderItem) (target : ClaimTarget) :
    (db.claimTarget item target).1 = 1 ↔ CanClaim db item target := by
  unfold claimTarget CanClaim
  cases target.kind with
  | seat => exact claimSeatExec_affects target.unitId
  | pool =>
    by_cases hq : item.quantity ≤ 0
    · simp [hq, not_lt.mpr hq]
    · simp only [if_neg hq, not_le.mp hq, true_and]
      exact claimPoolExec_affects target.unitId item.quantity

/-- A guarded update by primary key rewrites the row it affects. -/
lemma find?_update_affected {α κ : Type} {key : α → κ} [DecidableEq κ] {t : Lib.Table key} {p : α → Bool}
    {f : Lib.Assign key} {k : κ} (hp : ∀ r, p r = true → key r = k) (h : t.affected p = 1) :
    (t.update p f).find? k = (t.find? k).map f.set ∧ ∀ k', k' ≠ k → (t.update p f).find? k' = t.find? k' := by
  rw [Lib.Table.affected_of_key hp] at h
  constructor
  · rw [Lib.Table.find?_update]
    cases hf : t.find? k with
    | none => rfl
    | some r =>
      rw [hf] at h
      by_cases hr : p r = true
      · simp [hr]
      · simp [hr] at h
  · intro k' hk
    apply Lib.Table.find?_update_of_forall_ne
    intro r hr
    by_contra hpr
    exact hk (hr.symm.trans (hp r (by simpa using hpr)))

/-- A claim that wins changes the occupancy of its own unit. -/
lemma claimTarget_occupancy {w : WiredItem} (h : (db.claimTarget w.item w.target).1 = 1) :
    occupancy (db.claimTarget w.item w.target).2 (cellOf w) = withClaim w (occupancy db (cellOf w)) ∧
      ∀ k, k ≠ cellOf w → occupancy (db.claimTarget w.item w.target).2 k = occupancy db k := by
  unfold claimTarget at h ⊢
  unfold withClaim
  cases hkind : w.target.kind with
  | seat =>
    simp only [hkind] at h
    obtain ⟨hown, hothers⟩ := find?_update_affected
      (f := ⟨fun r : SeatOccupancyRow => { r with occupiedMask := r.occupiedMask ||| w.target.span.mask },
        fun _ => rfl⟩) (fun r hr => seatFree_key hr) h
    exact ⟨Prod.ext hown rfl, fun k hk => Prod.ext (hothers k hk) rfl⟩
  | pool =>
    simp only [hkind] at h
    by_cases hq : w.item.quantity ≤ 0
    · simp [hq] at h
    · rw [if_neg hq] at h
      simp only [if_neg hq]
      obtain ⟨hown, hothers⟩ := find?_update_affected
        (f := ⟨fun r : PoolOccupancyRow => { r with
          remaining := addBetween r.remaining (w.target.span.fromIndex + 1) w.target.span.toIndex
            (-w.item.quantity) }, fun _ => rfl⟩) (fun r hr => poolHas_key hr) h
      exact ⟨Prod.ext rfl hown, fun k hk => Prod.ext rfl (hothers k hk)⟩

lemma claimable_congr (item : NewOrderItem) (target : ClaimTarget)
    (h : occupancy db' (item.tripId, target.unitId) = occupancy db (item.tripId, target.unitId)) :
    CanClaim db' item target ↔ CanClaim db item target := by
  obtain ⟨hs, hp⟩ := Prod.mk.inj h
  unfold CanClaim
  rw [hs, hp]

end Claims

section Batches

variable {db db' : Db} {orderId : Uuid} {passengers : List PassengerRecord}

lemma claimItems_batch (ws : List WiredItem) (db : Db) :
    claimItems orderId passengers ws db = batch (claimItem orderId passengers) ws db := by
  induction ws generalizing db with
  | nil => rfl
  | cons w ws ih =>
    rw [claimItems, batch]
    congr
    funext db₁
    exact ih db₁

/-- What one item needs: its claim, the rows it refers to, and no item of the order for its unit. -/
structure ItemReady (orderId : Uuid) (passengers : List PassengerRecord) (w : WiredItem) (db : Db) : Prop where
  claimable : CanClaim db w.item w.target
  refs : ItemRefs db (itemRow orderId passengers w)
  unclaimed : db.orderItems.find? (orderId, cellOf w) = none

lemma insertOrderItem_ok_iff (db : Db) {r : OrderItemRow} (hq : 0 < r.quantity) :
    (∃ db', db.insertOrderItem r = .ok db') ↔ ItemRefs db r ∧ db.orderItems.find? r.key = none := by
  constructor
  · rintro ⟨db', h⟩
    obtain ⟨hrefs, orderItems, hins, -⟩ := insertOrderItem_eq_ok h
    exact ⟨hrefs, (Lib.Table.insert_eq_some.mp hins).1⟩
  · rintro ⟨hrefs, hnone⟩
    have hall : (refersTo db.orders (some r.orderId) && refersTo db.trips (some r.tripId) &&
        refersTo db.capacityUnits (some r.unitId) && refersTo db.passengers r.passengerId) = true := by
      have hp : refersTo db.passengers r.passengerId = true := by
        cases hr : r.passengerId with
        | none => rfl
        | some id => exact hrefs.passenger id hr
      simp only [Bool.and_eq_true]
      exact ⟨⟨⟨hrefs.order, hrefs.trip⟩, hrefs.unit⟩, hp⟩
    cases hins : db.orderItems.insert r with
    | none => exact absurd hnone (Lib.Table.insert_eq_none.mp hins)
    | some orderItems =>
      refine ⟨{ db with orderItems := orderItems }, ?_⟩
      unfold insertOrderItem
      rw [insertRow_eq_ok.mpr ⟨decide_eq_true hq, hall, hins⟩]
      rfl

/-- Items of a booking: each takes its own unit of a trip. -/
lemma claimItem_exclusive : Exclusive (claimItem orderId passengers) cellOf (ItemReady orderId passengers) := by
  constructor
  · intro w db
    have hframe := claimTarget_frame db w.item w.target
    have hqty : 0 < (itemRow orderId passengers w).quantity := lt_of_lt_of_le Int.one_pos (le_max_right _ _)
    have hinsert := insertOrderItem_ok_iff (db.claimTarget w.item w.target).2 hqty
    constructor
    · rintro ⟨db', h⟩
      obtain ⟨hrows, hrefs, orderItems, hins, -⟩ := claimItem_eq_ok h
      exact ⟨claimTarget_affects _ _ |>.mp hrows, hrefs, (Lib.Table.insert_eq_some.mp hins).1⟩
    · rintro ⟨hclaim, hrefs, hnone⟩
      have hrows := (claimTarget_affects w.item w.target).mpr hclaim
      obtain ⟨db', hdb⟩ := hinsert.mpr (by
        rw [hframe]
        exact ⟨⟨hrefs.order, hrefs.trip, hrefs.unit, hrefs.passenger⟩, hnone⟩)
      refine ⟨db', ?_⟩
      unfold claimItem
      simp only [hrows, hdb]
      rfl
  · intro w w' db db' h he hready
    obtain ⟨-, -, orderItems, hins, rfl⟩ := claimItem_eq_ok h
    have hfind := Lib.Table.find?_insert hins (orderId, cellOf w')
    have hkey : (itemRow orderId passengers w).key = (orderId, cellOf w) := rfl
    rw [he, if_pos hkey] at hfind
    have hnone : orderItems.find? (orderId, cellOf w') = none := hready.unclaimed
    rw [he, hfind] at hnone
    cases hnone
  · intro w w' db db' h hne
    obtain ⟨hrows, -, orderItems, hins, rfl⟩ := claimItem_eq_ok h
    have hocc := (claimTarget_occupancy hrows).2 (cellOf w') hne
    have hfind := Lib.Table.find?_insert hins (orderId, cellOf w')
    have hkey : (itemRow orderId passengers w).key ≠ (orderId, cellOf w') :=
      fun he => hne (Prod.mk.inj he).2.symm
    rw [if_neg hkey] at hfind
    have hclaim := claimable_congr w'.item w'.target hocc
    constructor
    · rintro ⟨hc, hrefs, hnone⟩
      exact ⟨hclaim.mp hc, ⟨hrefs.order, hrefs.trip, hrefs.unit, hrefs.passenger⟩, hfind.symm.trans hnone⟩
    · rintro ⟨hc, hrefs, hnone⟩
      exact ⟨hclaim.mpr hc, ⟨hrefs.order, hrefs.trip, hrefs.unit, hrefs.passenger⟩, hfind.trans hnone⟩

/-- The occupancy after all claims: each item's own unit, and no other. -/
lemma claimItems_occupancy {ws : List WiredItem} (h : claimItems orderId passengers ws db = .ok db') :
    (∀ w ∈ ws, occupancy db' (cellOf w) = withClaim w (occupancy db (cellOf w))) ∧
      ∀ k, (∀ w ∈ ws, cellOf w ≠ k) → occupancy db' k = occupancy db k := by
  rw [claimItems_batch] at h
  refine batch_view ?_ h ((claimItem_exclusive.batch_ok_iff ws db).mp ⟨db', h⟩).2
  intro w db₁ db₂ hstep
  obtain ⟨hrows, -, orderItems, -, rfl⟩ := claimItem_eq_ok hstep
  exact claimTarget_occupancy hrows

/-- The row of a passenger of a booking. -/
def passengerRow (orderId : Uuid) (now : Timestamp) (p : Uuid × NewPassenger) : PassengerRow :=
  ⟨p.1, orderId, p.2.fullName, p.2.passengerType, p.2.birthdate, now⟩

lemma insertPassengers_batch (now : Timestamp) (ps : List (Uuid × NewPassenger)) (db : Db) :
    (insertPassengers orderId now ps db).map Prod.snd =
      batch (fun p db => db.insertPassenger (passengerRow orderId now p)) ps db := by
  induction ps generalizing db with
  | nil => rfl
  | cons p ps ih =>
    rw [insertPassengers, batch]
    change Except.map Prod.snd (db.insertPassenger (passengerRow orderId now p) >>= _) = _
    cases db.insertPassenger (passengerRow orderId now p) with
    | error e => rfl
    | ok db₁ =>
      refine Eq.trans ?_ (ih db₁)
      change Except.map Prod.snd (insertPassengers orderId now ps db₁ >>= _) = _
      cases insertPassengers orderId now ps db₁ <;> rfl

lemma insertPassenger_exclusive (now : Timestamp) :
    Exclusive (fun p (db : Db) => db.insertPassenger (passengerRow orderId now p)) Prod.fst
      (fun p db => (db.orders.find? orderId).isSome = true ∧ db.passengers.find? p.1 = none) := by
  constructor
  · intro p db
    constructor
    · rintro ⟨db', h⟩
      obtain ⟨t, ht, -⟩ := bind_eq_ok.mp h
      obtain ⟨-, hrefs, hins⟩ := insertRow_eq_ok.mp ht
      exact ⟨hrefs, (Lib.Table.insert_eq_some.mp hins).1⟩
    · rintro ⟨hrefs, hnone⟩
      cases hins : db.passengers.insert (passengerRow orderId now p) with
      | none => exact absurd hnone (Lib.Table.insert_eq_none.mp hins)
      | some t => exact ⟨_, bind_eq_ok.mpr ⟨t, insertRow_eq_ok.mpr ⟨rfl, hrefs, hins⟩, rfl⟩⟩
  · rintro p q db db' h he ⟨-, hnone⟩
    obtain ⟨t, hins, rfl⟩ := insertPassenger_eq_ok h
    have hfind : t.find? q.1 = some _ := (Lib.Table.find?_insert hins q.1).trans (if_pos he.symm)
    exact absurd (hfind.symm.trans hnone) (Option.some_ne_none _)
  · intro p q db db' h hne
    obtain ⟨t, hins, rfl⟩ := insertPassenger_eq_ok h
    have hfind : t.find? q.1 = db.passengers.find? q.1 :=
      (Lib.Table.find?_insert hins q.1).trans (if_neg (Ne.symm hne))
    exact and_congr Iff.rfl (by rw [hfind])

lemma insertAncillaries_batch (lines : List (Uuid × NewOrderAncillary)) (db : Db) :
    insertAncillaries orderId passengers lines db =
      batch (fun l db => db.insertOrderAncillary (ancillaryRow l.1 orderId passengers l.2)) lines db := by
  induction lines generalizing db with
  | nil => rfl
  | cons l lines ih =>
    rw [insertAncillaries, batch]
    congr
    funext db₁
    exact ih db₁

/-- What an add-on line needs of the database. -/
structure LineReady (orderId : Uuid) (passengers : List PassengerRecord) (l : Uuid × NewOrderAncillary) (db : Db) :
    Prop where
  order : (db.orders.find? orderId).isSome = true
  ancillary : (db.ancillaries.find? l.2.ancillaryId).isSome = true
  trip : refersTo db.trips l.2.tripId = true
  passenger : refersTo db.passengers (ancillaryRow l.1 orderId passengers l.2).passengerId = true
  quantity : 0 < l.2.quantity
  total : 0 ≤ l.2.totalMinor
  unused : db.orderAncillaries.find? l.1 = none

lemma insertAncillary_exclusive :
    Exclusive (fun l (db : Db) => db.insertOrderAncillary (ancillaryRow l.1 orderId passengers l.2)) Prod.fst
      (LineReady orderId passengers) := by
  constructor
  · intro l db
    constructor
    · rintro ⟨db', h⟩
      obtain ⟨t, ht, -⟩ := bind_eq_ok.mp h
      obtain ⟨hchecks, hrefs, hins⟩ := insertRow_eq_ok.mp ht
      simp only [Bool.and_eq_true, decide_eq_true_eq] at hchecks hrefs
      obtain ⟨⟨⟨ho, ha⟩, htrip⟩, hp⟩ := hrefs
      exact ⟨ho, ha, htrip, hp, hchecks.1, hchecks.2, (Lib.Table.insert_eq_some.mp hins).1⟩
    · rintro ⟨ho, ha, htrip, hp, hq, hm, hnone⟩
      cases hins : db.orderAncillaries.insert (ancillaryRow l.1 orderId passengers l.2) with
      | none => exact absurd hnone (Lib.Table.insert_eq_none.mp hins)
      | some t =>
        refine ⟨_, bind_eq_ok.mpr ⟨t, insertRow_eq_ok.mpr ⟨?_, ?_, hins⟩, rfl⟩⟩
        · simp only [Bool.and_eq_true, decide_eq_true_eq]
          exact ⟨hq, hm⟩
        · simp only [Bool.and_eq_true]
          exact ⟨⟨⟨ho, ha⟩, htrip⟩, hp⟩
  · intro l l' db db' h he hready
    obtain ⟨t, hins, rfl⟩ := insertOrderAncillary_eq_ok h
    have hfind : t.find? l'.1 = some _ := (Lib.Table.find?_insert hins l'.1).trans (if_pos he.symm)
    exact absurd (hfind.symm.trans hready.unused) (Option.some_ne_none _)
  · intro l l' db db' h hne
    obtain ⟨t, hins, rfl⟩ := insertOrderAncillary_eq_ok h
    have hfind : t.find? l'.1 = db.orderAncillaries.find? l'.1 :=
      (Lib.Table.find?_insert hins l'.1).trans (if_neg (Ne.symm hne))
    constructor
    · rintro ⟨ho, ha, ht, hp, hq, hm, hnone⟩
      exact ⟨ho, ha, ht, hp, hq, hm, hfind.symm.trans hnone⟩
    · rintro ⟨ho, ha, ht, hp, hq, hm, hnone⟩
      exact ⟨ho, ha, ht, hp, hq, hm, hfind.trans hnone⟩

end Batches

section Transaction

variable {db db' : Db} {w : Oracle} {now expiresAt : Timestamp} {o : NewOrder} {wired : List WiredItem}

/-- Identifiers that no row has. -/
structure Unused (fresh : Nat → Uuid) (db : Db) : Prop where
  injective : Function.Injective fresh
  orders : ∀ n, db.orders.find? (fresh n) = none
  passengers : ∀ n, db.passengers.find? (fresh n) = none
  orderItems : ∀ n, ∀ r ∈ db.orderItems.rows, r.orderId ≠ fresh n
  orderAncillaries : ∀ n, db.orderAncillaries.find? (fresh n) = none

/-- The database takes an add-on line: what it names exists, and its amounts are in range. -/
structure Takes (db : Db) (line : NewOrderAncillary) : Prop where
  ancillary : (db.ancillaries.find? line.ancillaryId).isSome = true
  trip : refersTo db.trips line.tripId = true
  quantity : 0 < line.quantity
  total : 0 ≤ line.totalMinor

/-- What an item that was resolved refers to. -/
structure Known (db : Db) (x : WiredItem) : Prop where
  trip : (db.trips.find? x.item.tripId).isSome = true
  unit : (db.capacityUnits.find? x.target.unitId).isSome = true

lemma seq_le_maxStreamSeq {streamId : Uuid} {e : EventRow} (he : e ∈ db.events.rows) (hid : e.streamId = streamId) :
    e.streamSeq ≤ db.maxStreamSeq streamId := by
  have hle : ∀ (l : List Nat) n, n ∈ l → n ≤ l.foldr max 0 := by
    intro l n hn
    induction l with
    | nil => cases hn
    | cons m l ih =>
      rw [List.foldr_cons]
      rcases List.mem_cons.mp hn with rfl | hn
      · exact le_max_left _ _
      · exact (ih hn).trans (le_max_right _ _)
  exact hle _ _ (List.mem_map_of_mem (Lib.Table.mem_select.mpr ⟨he, decide_eq_true hid⟩))

/-- The next event of a stream is always taken. -/
lemma append_next (streamId : Uuid) (eventType : String) (hn : Numbered db) :
    ∃ db', db.append streamId (db.maxStreamSeq streamId + 1) eventType = .ok db' ∧ Numbered db' := by
  obtain ⟨db', h⟩ := append_succeeds streamId eventType hn (Nat.le_add_left 1 _)
    (fun e he hid => Nat.lt_succ_of_le (seq_le_maxStreamSeq he hid))
  refine ⟨db', h, ?_⟩
  obtain ⟨events, outbox, he, ho, rfl⟩ := append_eq_ok h
  constructor
  · intro e hm
    rw [he, List.mem_append, List.mem_singleton] at hm
    rcases hm with hm | rfl
    · exact Nat.lt_succ_of_lt (hn.events e hm)
    · exact Nat.lt_succ_self _
  · intro r hm
    rw [ho, List.mem_append, List.mem_singleton] at hm
    rcases hm with hm | rfl
    · exact Nat.lt_succ_of_lt (hn.outbox r hm)
    · exact Nat.lt_succ_self _

lemma insertOrder_ok_iff {r : OrderRow} : (∃ db', db.insertOrder r = .ok db') ↔
    refersTo db.customers r.customerId = true ∧ db.orders.find? r.id = none := by
  constructor
  · rintro ⟨db', h⟩
    obtain ⟨t, ht, -⟩ := bind_eq_ok.mp h
    obtain ⟨-, hrefs, hins⟩ := insertRow_eq_ok.mp ht
    exact ⟨hrefs, (Lib.Table.insert_eq_some.mp hins).1⟩
  · rintro ⟨hrefs, hnone⟩
    cases hins : db.orders.insert r with
    | none => exact absurd hnone (Lib.Table.insert_eq_none.mp hins)
    | some t => exact ⟨_, bind_eq_ok.mpr ⟨t, insertRow_eq_ok.mpr ⟨rfl, hrefs, hins⟩, rfl⟩⟩

lemma map_mapIdx {α β γ : Type} (f : Nat → α → β) (g : β → γ) (l : List α) :
    (l.mapIdx f).map g = l.mapIdx (fun i a => g (f i a)) := by
  apply List.ext_getElem
  · simp
  · intro i h₁ h₂
    simp

lemma nodup_numbered {α : Type} {f : Nat → Uuid} (hf : Function.Injective f) (l : List α) :
    ((l.mapIdx (fun i a => (f i, a))).map Prod.fst).Nodup := by
  have he : (l.mapIdx (fun i a => (f i, a))).map Prod.fst = (List.range l.length).map f := by
    apply List.ext_getElem
    · simp
    · intro i h₁ h₂
      simp
  rw [he]
  exact List.nodup_range.map hf

lemma mem_numbered {α : Type} {f : Nat → Uuid} {l : List α} {x : Uuid × α}
    (h : x ∈ l.mapIdx (fun i a => (f i, a))) : (∃ i, x.1 = f i) ∧ x.2 ∈ l := by
  obtain ⟨i, hi, rfl⟩ := List.mem_mapIdx.mp h
  exact ⟨⟨i, rfl⟩, List.getElem_mem hi⟩

/-- A passenger of the party has a row, whoever is named. -/
lemma refersTo_record {orderId : Uuid} {records : List PassengerRecord} {old : List PassengerRow}
    {t : Lib.Table PassengerRow.id} (h : t.rows = old ++ records.map (fun p : PassengerRecord =>
      ⟨p.id, orderId, p.fullName, p.passengerType, p.birthdate, now⟩)) (slot : Option Nat) :
    refersTo t (slot.bind (fun index => (records[index]?).map PassengerRecord.id)) = true := by
  cases slot with
  | none => rfl
  | some index =>
    rw [Option.bind_some]
    cases hr : records[index]? with
    | none => rfl
    | some p =>
      have hmem : (⟨p.id, orderId, p.fullName, p.passengerType, p.birthdate, now⟩ : PassengerRow) ∈ t.rows := by
        rw [h]
        exact List.mem_append_right _ (List.mem_map_of_mem (List.mem_of_getElem? hr))
      have hfind : t.find? p.id = some _ := Lib.Table.find?_of_mem hmem
      change (t.find? p.id).isSome = true
      rw [hfind]
      rfl

/-- New identifiers make room for the whole party. -/
lemma insertPassengers_succeeds (db : Db) (now : Timestamp) {orderId : Uuid} {f : Nat → Uuid}
    (horder : (db.orders.find? orderId).isSome = true)
    (hf : Function.Injective f) (hnone : ∀ i, db.passengers.find? (f i) = none) (ps : List NewPassenger) :
    ∃ records db', insertPassengers orderId now (ps.mapIdx (fun i p => (f i, p))) db = .ok (records, db') := by
  have hall : ∀ p ∈ ps.mapIdx (fun i p => (f i, p)),
      (db.orders.find? orderId).isSome = true ∧ db.passengers.find? p.1 = none := by
    intro p hp
    obtain ⟨⟨i, hi⟩, -⟩ := mem_numbered hp
    rw [hi]
    exact ⟨horder, hnone i⟩
  obtain ⟨db', h⟩ := ((insertPassenger_exclusive now).batch_ok_iff _ _).mpr ⟨hall, nodup_numbered hf ps⟩
  rw [← insertPassengers_batch] at h
  cases hi : insertPassengers orderId now (ps.mapIdx (fun i p => (f i, p))) db with
  | error e =>
    rw [hi] at h
    cases h
  | ok r => exact ⟨r.1, r.2, rfl⟩

/-- The booking transaction commits exactly when the database takes the order's references, every
item can be claimed and no two items want the same unit of a trip. -/
lemma createOrder_ok_iff (hn : Numbered db) (hf : Unused w.fresh db) (hknown : ∀ x ∈ wired, Known db x) :
    (∃ r, db.createOrder w.bookingIds now expiresAt o wired = .ok r) ↔
      refersTo db.customers o.customerId = true ∧ (∀ x ∈ wired, CanClaim db x.item x.target) ∧
        (wired.map cellOf).Nodup ∧ ∀ line ∈ o.ancillaries, Takes db line := by
  constructor
  · rintro ⟨⟨record, db'⟩, h⟩
    unfold createOrder at h
    obtain ⟨db₁, h₁, h⟩ := bind_eq_ok.mp h
    obtain ⟨⟨records, db₂⟩, h₂, h⟩ := bind_eq_ok.mp h
    obtain ⟨db₃, h₃, h⟩ := bind_eq_ok.mp h
    obtain ⟨db₄, h₄, -⟩ := bind_eq_ok.mp h
    have hcustomer := (insertOrder_ok_iff.mp ⟨db₁, liftDb_eq_ok.mp h₁⟩).1
    obtain ⟨orders, -, rfl⟩ := insertOrder_eq_ok (liftDb_eq_ok.mp h₁)
    obtain ⟨-, passengers, -, rfl⟩ := insertPassengers_eq_ok (liftDb_eq_ok.mp h₂)
    obtain ⟨hready, hapart⟩ := (claimItem_exclusive.batch_ok_iff wired _).mp
      ⟨db₃, (claimItems_batch wired _).symm.trans h₃⟩
    obtain ⟨-, hframe⟩ := claimItems_frame h₃
    obtain ⟨hlines, -⟩ := (insertAncillary_exclusive.batch_ok_iff _ _).mp
      ⟨db₄, (insertAncillaries_batch _ _).symm.trans (liftDb_eq_ok.mp h₄)⟩
    refine ⟨hcustomer, fun x hx => (hready x hx).claimable, hapart, ?_⟩
    intro line hline
    obtain ⟨i, hi, rfl⟩ := List.getElem_of_mem hline
    have hl := hlines (w.bookingIds.ancillaryId i, o.ancillaries[i]) (List.mem_mapIdx.mpr ⟨i, hi, rfl⟩)
    rw [hframe] at hl
    exact ⟨hl.ancillary, hl.trip, hl.quantity, hl.total⟩
  · rintro ⟨hcustomer, hclaims, hapart, hlines⟩
    have hnew : ∃ db₁, db.insertOrder (newOrderRow w.bookingIds.orderId o expiresAt) = .ok db₁ :=
      insertOrder_ok_iff.mpr ⟨hcustomer, hf.orders 0⟩
    obtain ⟨db₁, h₁⟩ := hnew
    obtain ⟨orders, horders, rfl⟩ := insertOrder_eq_ok h₁
    have hfound : orders.find? w.bookingIds.orderId = some (newOrderRow w.bookingIds.orderId o expiresAt) :=
      (Lib.Table.find?_insert horders _).trans (if_pos rfl)
    have horder : (orders.find? w.bookingIds.orderId).isSome = true := by rw [hfound, Option.isSome_some]
    have hodd : Function.Injective w.bookingIds.passengerId := by
      intro i j h
      have := hf.injective h
      omega
    have heven : Function.Injective w.bookingIds.ancillaryId := by
      intro i j h
      have := hf.injective h
      omega
    obtain ⟨records, db₂, h₂⟩ := insertPassengers_succeeds { db with orders := orders } now horder hodd
      (fun i => hf.passengers (2 * i + 1)) o.passengers
    obtain ⟨-, passengers, hpassengers, rfl⟩ := insertPassengers_eq_ok h₂
    have hready : ∀ x ∈ wired, ItemReady w.bookingIds.orderId records x
        { db with orders := orders, passengers := passengers } := by
      intro x hx
      refine ⟨hclaims x hx, ⟨horder, (hknown x hx).trip, (hknown x hx).unit, ?_⟩, ?_⟩
      · intro id hid
        have href := refersTo_record hpassengers x.slot
        change x.slot.bind _ = some id at hid
        rw [hid] at href
        exact href
      · rw [Lib.Table.find?_eq_none]
        exact fun r hr he => hf.orderItems 0 r hr (Prod.mk.inj he).1
    obtain ⟨db₃, h₃⟩ := (claimItem_exclusive.batch_ok_iff wired _).mpr ⟨hready, hapart⟩
    rw [← claimItems_batch] at h₃
    obtain ⟨-, hframe⟩ := claimItems_frame h₃
    have hlinesReady : ∀ l ∈ o.ancillaries.mapIdx (fun i line => (w.bookingIds.ancillaryId i, line)),
        LineReady w.bookingIds.orderId records l db₃ := by
      intro l hl
      obtain ⟨⟨i, hi⟩, hline⟩ := mem_numbered hl
      obtain ⟨ha, ht, hq, hm⟩ := hlines l.2 hline
      rw [hframe]
      refine ⟨horder, ha, ht, refersTo_record hpassengers l.2.passengerIndex, hq, hm, ?_⟩
      rw [hi]
      exact hf.orderAncillaries (2 * i + 2)
    obtain ⟨db₄, h₄⟩ := (insertAncillary_exclusive.batch_ok_iff _ db₃).mpr
      ⟨hlinesReady, nodup_numbered heven o.ancillaries⟩
    rw [← insertAncillaries_batch] at h₄
    obtain ⟨orderAncillaries, -, hdb₄⟩ := insertAncillaries_eq_ok h₄
    have hn₄ : Numbered db₄ := by
      rw [hdb₄, hframe]
      exact hn.congr rfl rfl rfl rfl
    obtain ⟨db₅, h₅, hn₅⟩ := append_next w.bookingIds.orderId OrderEventType.orderCreated.asStr hn₄
    obtain ⟨db₆, h₆, -⟩ := append_next w.bookingIds.orderId OrderEventType.inventoryLocked.asStr hn₅
    refine ⟨(recordOf w.bookingIds.orderId o expiresAt records wired, db₆), ?_⟩
    unfold createOrder
    rw [h₁, bind_eq_ok]
    refine ⟨_, rfl, bind_eq_ok.mpr ⟨_, liftDb_eq_ok.mpr h₂, bind_eq_ok.mpr ⟨db₃, h₃, ?_⟩⟩⟩
    refine bind_eq_ok.mpr ⟨db₄, liftDb_eq_ok.mpr h₄, bind_eq_ok.mpr ⟨db₅, liftDb_eq_ok.mpr h₅, ?_⟩⟩
    exact bind_eq_ok.mpr ⟨db₆, liftDb_eq_ok.mpr h₆, rfl⟩

end Transaction

section Create

variable {allowed : Oracle → Prop} {s s' : World} {o : NewOrder} {wired : List WiredItem}

/-- What the database says about an item: the unit and span it stands for, if it is for sale. -/
def resolve (s : World) (item : NewOrderItem) : Except StoreError (Option ClaimTarget) :=
  Db.resolveTarget s item.tripId item.unitCode item.origin item.destination

lemma ends_query {ε α : Type} {fail : DbError → ε} {f : World → Except ε α} {a : Except ε α}
    (h : Prog.Ends Tx.run allowed (Io.query fail f) s a s') : s' = s ∧ (a = f s ∨ ∃ e, a = .error e) := by
  cases h with
  | read h =>
    obtain ⟨rfl, rfl⟩ := Prog.ends_ret h
    exact ⟨rfl, .inl rfl⟩
  | missed h =>
    obtain ⟨rfl, rfl⟩ := Prog.ends_ret h
    exact ⟨rfl, .inr ⟨_, rfl⟩⟩

lemma ends_transact {ε α : Type} {fail : DbError → ε} {t : Tx} {f : TxResult → Option α} {a : Except ε α}
    (h : Prog.Ends Tx.run allowed (Io.transact fail t f) s a s') :
    ∃ w, allowed w ∧ s' = (t.run w s).2 ∧ (∀ v, a = .ok v → f (t.run w s).1 = some v) ∧
      ∀ v, (∀ e, (t.run w s).1 ≠ .failed e) → f (t.run w s).1 = some v → a = .ok v := by
  cases h with
  | tx w hw h =>
    refine ⟨w, hw, ?_⟩
    simp only at h
    split at h
    · rename_i e he
      obtain ⟨rfl, rfl⟩ := Prog.ends_ret h
      exact ⟨rfl, fun v h => (by cases h), fun v hne => absurd he (hne e)⟩
    · split at h
      · rename_i v hv
        obtain ⟨rfl, rfl⟩ := Prog.ends_ret h
        refine ⟨rfl, fun v' h => ?_, fun v' _ h => ?_⟩
        · cases h
          exact hv
        · rw [Option.some.inj (hv.symm.trans h)]
      · rename_i hv
        obtain ⟨rfl, rfl⟩ := Prog.ends_ret h
        refine ⟨rfl, fun v' h => (by cases h), fun v' _ h => ?_⟩
        rw [hv] at h
        cases h

lemma created?_eq_some {r : TxResult} {record : OrderRecord} (h : r.created? = some (.created record)) :
    r = .created record := by
  cases r <;> cases h
  rfl

/-- Resolving reads only, and what it returns is the target of each item in turn. -/
lemma resolveTargets_ends {items : List NewOrderItem}
    {a : Except StoreError (Except CreateOutcome (List (NewOrderItem × ClaimTarget)))}
    (h : Prog.Ends Tx.run allowed (OrderStore.resolveTargets items) s a s') :
    s' = s ∧ (∀ record, a ≠ .ok (.error (.created record))) ∧ ∀ targets, a = .ok (.ok targets) →
      targets.map Prod.fst = items ∧ ∀ x ∈ targets, resolve s x.1 = .ok (some x.2) := by
  induction items generalizing a s' with
  | nil =>
    obtain ⟨rfl, rfl⟩ := Prog.ends_ret h
    refine ⟨rfl, fun _ h => (by cases h), fun targets ht => ?_⟩
    cases ht
    exact ⟨rfl, by simp⟩
  | cons item rest ih =>
    unfold OrderStore.resolveTargets at h
    rcases Prog.ends_then h with ⟨e, hq, rfl⟩ | ⟨r, t, hq, h⟩
    · exact ⟨(ends_query hq).1, fun _ h => (by cases h), fun _ h => (by cases h)⟩
    · obtain ⟨rfl, hr⟩ := ends_query hq
      have hfound : resolve t item = .ok r := by
        rcases hr with hr | ⟨e, he⟩
        · exact hr.symm
        · cases he
      cases r with
      | none =>
        obtain ⟨rfl, rfl⟩ := Prog.ends_ret h
        exact ⟨rfl, fun _ h => (by cases h), fun _ h => (by cases h)⟩
      | some target =>
        rcases Prog.ends_then h with ⟨e, hrest, rfl⟩ | ⟨r, t', hrest, h⟩
        · exact ⟨(ih hrest).1, fun _ h => (by cases h), fun _ h => (by cases h)⟩
        · obtain ⟨rfl, hne, hall⟩ := ih hrest
          cases r with
          | error outcome =>
            obtain ⟨rfl, rfl⟩ := Prog.ends_ret h
            refine ⟨rfl, fun record he => ?_, fun _ h => (by cases h)⟩
            cases he
            exact hne record rfl
          | ok targets =>
            obtain ⟨rfl, rfl⟩ := Prog.ends_ret h
            obtain ⟨hmap, hres⟩ := hall targets rfl
            refine ⟨rfl, fun _ h => (by cases h), fun ts hts => ?_⟩
            cases hts
            refine ⟨by rw [List.map_cons, hmap], ?_⟩
            intro x hx
            rcases List.mem_cons.mp hx with rfl | hx
            · exact hfound
            · exact hres x hx

/-- The transaction of a booking: it commits, or it leaves the database as it was. -/
lemma createOrder_run (w : Oracle) (s : World) (o : NewOrder) (wired : List WiredItem) (expiresAt : Timestamp) :
    (∃ record db', w.fail = none ∧ s.db.createOrder w.bookingIds s.now expiresAt o wired = .ok (record, db') ∧
      (Tx.createOrder o wired expiresAt).run w s = (.created record, { s with db := db' })) ∨
    ((∀ r, s.db.createOrder w.bookingIds s.now expiresAt o wired = .ok r → w.fail ≠ none) ∧
      (∀ record, ((Tx.createOrder o wired expiresAt).run w s).1 ≠ .created record) ∧
      ((Tx.createOrder o wired expiresAt).run w s).2 = s) := by
  unfold Tx.run
  cases hw : w.fail with
  | some e => exact .inr ⟨fun _ _ h => (by cases h), fun _ h => (by cases h), rfl⟩
  | none =>
    simp only [Tx.body]
    cases hc : s.db.createOrder w.bookingIds s.now expiresAt o wired with
    | ok r => exact .inl ⟨r.1, r.2, trivial, rfl, rfl⟩
    | error e =>
      refine .inr ⟨fun _ h => (by cases h), ?_⟩
      cases e with
      | conflict unitCode => exact ⟨fun _ h => (by cases h), rfl⟩
      | db e => exact ⟨fun _ h => (by cases h), rfl⟩

/-- A booking that committed, from what was resolved before it. -/
structure Committed (w : Oracle) (o : NewOrder) (s : World) (a : Except StoreError CreateOutcome) (s' : World)
    (wired : List WiredItem) (record : OrderRecord) : Prop where
  passengers : o.passengers ≠ []
  items : o.items ≠ []
  resolved : Resolved (· = s) o wired
  addOns : checkAncillaries o.passengers o.ancillaries = .ok ()
  committed : ∃ db',
    s.db.createOrder w.bookingIds s.now (s.now + orderTtlMinutes * 60) o wired = .ok (record, db') ∧
    s' = { s with db := db' }
  answer : a = .ok (.created record)

/-- Creating an order ends with the booking committed, or with nothing changed. -/
lemma create_ends {a : Except StoreError CreateOutcome}
    (h : Prog.Ends Tx.run allowed (OrderStore.create o) s a s') :
    (∃ w wired record, allowed w ∧ Committed w o s a s' wired record) ∨
      (s' = s ∧ ∀ record, a ≠ .ok (.created record)) := by
  unfold OrderStore.create at h
  split at h
  · obtain ⟨rfl, rfl⟩ := Prog.ends_ret h
    exact .inr ⟨rfl, fun _ h => (by cases h)⟩
  · rename_i hparty
    split at h
    · obtain ⟨rfl, rfl⟩ := Prog.ends_ret h
      exact .inr ⟨rfl, fun _ h => (by cases h)⟩
    · rename_i hitems
      rcases Prog.ends_then h with ⟨e, hr, rfl⟩ | ⟨r, t, hr, h⟩
      · exact .inr ⟨(resolveTargets_ends hr).1, fun _ h => (by cases h)⟩
      · obtain ⟨rfl, hne, hall⟩ := resolveTargets_ends hr
        cases r with
        | error outcome =>
          obtain ⟨rfl, rfl⟩ := Prog.ends_ret h
          refine .inr ⟨rfl, fun record he => ?_⟩
          cases he
          exact hne record rfl
        | ok targets =>
          obtain ⟨hmap, hres⟩ := hall targets rfl
          simp only at h
          split at h
          · obtain ⟨rfl, rfl⟩ := Prog.ends_ret h
            exact .inr ⟨rfl, fun _ h => (by cases h)⟩
          · rename_i wired hwired
            obtain ⟨hmap', hwire⟩ := wireItems_resolved (J := (· = t)) hwired (fun x hx => ⟨t, rfl, hres x hx⟩)
            split at h
            · obtain ⟨rfl, rfl⟩ := Prog.ends_ret h
              exact .inr ⟨rfl, fun _ h => (by cases h)⟩
            · rename_i hlines
              cases h with
              | peek h =>
                obtain ⟨w, hw, hs, honly, hanswer⟩ := ends_transact h
                rcases createOrder_run w t o wired (t.now + orderTtlMinutes * 60) with
                  ⟨record, db', -, hc, hrun⟩ | ⟨-, hnone, hsame⟩
                · rw [hrun] at hs hanswer
                  refine .inl ⟨w, wired, record, hw, ?_, ?_, ⟨hmap'.trans hmap, hwire⟩, hlines, ⟨db', hc, hs⟩,
                    hanswer _ (fun _ h => (by cases h)) rfl⟩
                  · simpa using hparty
                  · simpa using hitems
                · refine .inr ⟨hs.trans hsame, fun record he => ?_⟩
                  exact hnone record (created?_eq_some (honly _ he))

lemma resolveTargets_alone (run : Tx → World → TxResult × World) (b : Call → Reply)
    (targets : List (NewOrderItem × ClaimTarget)) (h : ∀ x ∈ targets, resolve s x.1 = .ok (some x.2)) :
    Prog.alone run b (OrderStore.resolveTargets (targets.map Prod.fst)) s = ⟨.ok (.ok targets), s, []⟩ := by
  induction targets with
  | nil => rfl
  | cons x rest ih =>
    have hrest := ih (fun y hy => h y (List.mem_cons_of_mem _ hy))
    have hfound : Prog.alone run b (InventoryStore.resolveTarget x.1.tripId x.1.unitCode x.1.origin
        x.1.destination) s = ⟨.ok (some x.2), s, []⟩ := by
      have hx : Db.resolveTarget s x.1.tripId x.1.unitCode x.1.origin x.1.destination = .ok (some x.2) :=
        h x List.mem_cons_self
      unfold InventoryStore.resolveTarget Io.query
      rw [Prog.alone_read]
      simp only [Prog.alone_ret, hx]
    rw [List.map_cons, OrderStore.resolveTargets, Prog.alone_ok hfound]
    simp only
    rw [Prog.alone_ok hrest]
    rfl

lemma wireItems_of_forall {passengers : List NewPassenger}
    (h : ∀ x ∈ wired, wireItem passengers x.item x.target = .ok x) :
    wireItems passengers (wired.map (fun x => (x.item, x.target))) = .ok wired := by
  induction wired with
  | nil => rfl
  | cons x rest ih =>
    rw [List.map_cons, wireItems, h x List.mem_cons_self, ih (fun y hy => h y (List.mem_cons_of_mem _ hy))]
    rfl

/-- A booking whose transaction commits is answered with its record. -/
lemma create_alone {w : Oracle} {b : Call → Reply} {record : OrderRecord} {db' : Db} (hw : w.fail = none)
    (hparty : o.passengers ≠ []) (hitems : o.items ≠ []) (hres : Resolved (· = s) o wired)
    (hlines : checkAncillaries o.passengers o.ancillaries = .ok ())
    (hc : s.db.createOrder w.bookingIds s.now (s.now + orderTtlMinutes * 60) o wired = .ok (record, db')) :
    Prog.alone (fun t s => t.run w s) b (OrderStore.create o) s =
      ⟨.ok (.created record), { s with db := db' }, []⟩ := by
  obtain ⟨hmap, hall⟩ := hres
  have hpairs : (wired.map (fun x => (x.item, x.target))).map Prod.fst = o.items := by
    rw [List.map_map, ← hmap]
    rfl
  have hfound : ∀ x ∈ wired.map (fun x => (x.item, x.target)), resolve s x.1 = .ok (some x.2) := by
    intro x hx
    obtain ⟨y, hy, rfl⟩ := List.mem_map.mp hx
    obtain ⟨⟨v, rfl, hv⟩, -⟩ := hall y hy
    exact hv
  have htargets := resolveTargets_alone (fun t s => t.run w s) b _ hfound
  rw [hpairs] at htargets
  have hrun : (Tx.createOrder o wired (s.now + orderTtlMinutes * 60)).run w s =
      (.created record, { s with db := db' }) := by
    unfold Tx.run
    rw [hw]
    simp only [Tx.body, hc]
  unfold OrderStore.create
  rw [if_neg (by simpa using hparty), if_neg (by simpa using hitems), Prog.alone_ok htargets]
  simp only [wireItems_of_forall (fun x hx => (hall x hx).2), hlines]
  have hnow : Prog.alone (fun t s => t.run w s) b (Io.now : Io StoreError Timestamp) s = ⟨.ok s.now, s, []⟩ := rfl
  rw [Prog.alone_ok hnow]
  unfold Io.transact
  simp only [Prog.alone_tx, hrun]
  rfl

end Create

section Condition

variable {s : World} {o : NewOrder} {wired : List WiredItem}

/-- The item says who travels on it: one of the party on a seat, nobody in a pool. -/
def Travels (party : Nat) (item : NewOrderItem) : UnitKind → Prop
  | .seat => item.passengerIndex.elim (party = 1) (fun index => index < party)
  | .pool => item.passengerIndex = none

/-- The unit of a trip an item stands for. -/
def unitOf (s : World) (item : NewOrderItem) : Uuid × Option Uuid :=
  (item.tripId, ((resolve s item).toOption.join).map ClaimTarget.unitId)

/-- What an order has to bring, whatever the order of its items. -/
structure Bookable (s : World) (o : NewOrder) : Prop where
  passengers : o.passengers ≠ []
  items : o.items ≠ []
  sellable : ∀ item ∈ o.items, ∃ target, resolve s item = .ok (some target) ∧
    Travels o.passengers.length item target.kind ∧ CanClaim s.db item target
  addOns : ∀ line ∈ o.ancillaries, ∀ index, line.passengerIndex = some index → index < o.passengers.length
  apart : (o.items.map (unitOf s)).Nodup

/-- The database takes what an order refers to besides its items. -/
structure Accepted (db : Db) (o : NewOrder) : Prop where
  customer : refersTo db.customers o.customerId = true
  addOns : ∀ line ∈ o.ancillaries, Takes db line

lemma wireItem_ok_iff {passengers : List NewPassenger} {item : NewOrderItem} {target : ClaimTarget} :
    (∃ x, wireItem passengers item target = .ok x) ↔ Travels passengers.length item target.kind := by
  unfold wireItem Travels
  cases target.kind with
  | seat =>
    cases item.passengerIndex with
    | none =>
      by_cases h : passengers.length = 1
      · simp [h]
      · simp [h]
    | some index =>
      by_cases h : index ≥ passengers.length
      · simp [h, not_lt.mpr h]
      · simp [h, not_le.mp h]
  | pool =>
    cases item.passengerIndex with
    | none => simp
    | some index => simp

lemma checkAncillaries_iff {passengers : List NewPassenger} {lines : List NewOrderAncillary} :
    checkAncillaries passengers lines = .ok () ↔
      ∀ line ∈ lines, ∀ index, line.passengerIndex = some index → index < passengers.length := by
  induction lines with
  | nil => simp [checkAncillaries]
  | cons line rest ih =>
    rw [checkAncillaries, List.forall_mem_cons]
    cases line.passengerIndex with
    | none => simp [ih]
    | some index =>
      by_cases h : index ≥ passengers.length
      · simp [h, not_lt.mpr h]
      · simp [h, not_le.mp h, ih]

/-- The items with their targets, as the code pairs them. -/
lemma exists_wired {items : List NewOrderItem} {passengers : List NewPassenger}
    (h : ∀ item ∈ items, ∃ target, resolve s item = .ok (some target) ∧
      Travels passengers.length item target.kind ∧ CanClaim s.db item target) :
    ∃ wired : List WiredItem, wired.map WiredItem.item = items ∧ ∀ x ∈ wired,
      resolve s x.item = .ok (some x.target) ∧ wireItem passengers x.item x.target = .ok x ∧
        CanClaim s.db x.item x.target := by
  induction items with
  | nil => exact ⟨[], rfl, by simp⟩
  | cons item rest ih =>
    obtain ⟨wired, hmap, hall⟩ := ih (fun i hi => h i (List.mem_cons_of_mem _ hi))
    obtain ⟨target, hres, htravels, hclaim⟩ := h item List.mem_cons_self
    obtain ⟨x, hx⟩ := wireItem_ok_iff.mpr htravels
    obtain ⟨rfl, rfl, -⟩ := wireItem_ok hx
    refine ⟨x :: wired, by rw [List.map_cons, hmap], ?_⟩
    intro y hy
    rcases List.mem_cons.mp hy with rfl | hy
    · exact ⟨hres, hx, hclaim⟩
    · exact hall y hy

/-- The units of the items are those of the claims. -/
lemma apart_iff (hmap : wired.map WiredItem.item = o.items)
    (hres : ∀ x ∈ wired, resolve s x.item = .ok (some x.target)) :
    (o.items.map (unitOf s)).Nodup ↔ (wired.map cellOf).Nodup := by
  have hunits : o.items.map (unitOf s) = (wired.map cellOf).map (Prod.map id some) := by
    rw [← hmap, List.map_map, List.map_map]
    apply List.map_congr_left
    intro x hx
    simp only [Function.comp_apply, unitOf, hres x hx, cellOf, Prod.map_apply, id_eq]
    rfl
  rw [hunits]
  exact List.nodup_map_iff (Function.Injective.prodMap Function.injective_id (Option.some_injective _))

/-- A booking is possible when its items are paired with targets they can claim, each its own. -/
lemma bookable_iff : Bookable s o ↔ o.passengers ≠ [] ∧ o.items ≠ [] ∧
    checkAncillaries o.passengers o.ancillaries = .ok () ∧ ∃ wired, Resolved (· = s) o wired ∧
      (∀ x ∈ wired, CanClaim s.db x.item x.target) ∧ (wired.map cellOf).Nodup := by
  rw [checkAncillaries_iff]
  constructor
  · rintro ⟨hparty, hitems, hsell, hlines, hapart⟩
    obtain ⟨wired, hmap, hall⟩ := exists_wired hsell
    refine ⟨hparty, hitems, hlines, wired, ⟨hmap, fun x hx => ⟨⟨s, rfl, (hall x hx).1⟩, (hall x hx).2.1⟩⟩,
      fun x hx => (hall x hx).2.2, ?_⟩
    exact (apart_iff hmap (fun x hx => (hall x hx).1)).mp hapart
  · rintro ⟨hparty, hitems, hlines, wired, ⟨hmap, hall⟩, hclaims, hapart⟩
    have hres : ∀ x ∈ wired, resolve s x.item = .ok (some x.target) := by
      intro x hx
      obtain ⟨⟨v, rfl, hv⟩, -⟩ := hall x hx
      exact hv
    refine ⟨hparty, hitems, ?_, hlines, (apart_iff hmap hres).mpr hapart⟩
    intro item hitem
    rw [← hmap] at hitem
    obtain ⟨x, hx, rfl⟩ := List.mem_map.mp hitem
    exact ⟨x.target, hres x hx, wireItem_ok_iff.mp ⟨x, (hall x hx).2⟩, hclaims x hx⟩

lemma Bookable.perm {items : List NewOrderItem} (h : items.Perm o.items) :
    Bookable s { o with items } ↔ Bookable s o := by
  have hnil : items = [] ↔ o.items = [] := by
    rw [← List.length_eq_zero_iff, h.length_eq, List.length_eq_zero_iff]
  constructor
  · rintro ⟨hparty, hitems, hsell, hlines, hapart⟩
    exact ⟨hparty, fun he => hitems (hnil.mpr he), fun item hi => hsell item (h.mem_iff.mpr hi), hlines,
      (h.map (unitOf s)).nodup_iff.mp hapart⟩
  · rintro ⟨hparty, hitems, hsell, hlines, hapart⟩
    exact ⟨hparty, fun he => hitems (hnil.mp he), fun item hi => hsell item (h.mem_iff.mp hi), hlines,
      (h.map (unitOf s)).nodup_iff.mpr hapart⟩

end Condition

section Result

variable {allowed : Oracle → Prop} {w : Oracle} {s s' : World} {o : NewOrder} {wired : List WiredItem}
  {record : OrderRecord} {db' : Db}

/-- The passengers of a booking, as it records them. -/
def party (w : Oracle) (o : NewOrder) : List PassengerRecord :=
  o.passengers.mapIdx (fun i p => ⟨w.bookingIds.passengerId i, p.fullName, p.passengerType, p.birthdate⟩)

/-- Everything a booking adds, and that it adds nothing else. -/
structure Adds (w : Oracle) (o : NewOrder) (s : World) (wired : List WiredItem) (db' : Db) : Prop where
  orders : db'.orders.rows =
    s.db.orders.rows ++ [newOrderRow w.bookingIds.orderId o (s.now + orderTtlMinutes * 60)]
  passengers : db'.passengers.rows = s.db.passengers.rows ++ (party w o).map (fun p =>
    ⟨p.id, w.bookingIds.orderId, p.fullName, p.passengerType, p.birthdate, s.now⟩)
  orderItems : db'.orderItems.rows =
    s.db.orderItems.rows ++ wired.map (itemRow w.bookingIds.orderId (party w o))
  orderAncillaries : db'.orderAncillaries.rows = s.db.orderAncillaries.rows ++ o.ancillaries.mapIdx (fun i line =>
    ancillaryRow (w.bookingIds.ancillaryId i) w.bookingIds.orderId (party w o) line)
  events : db'.events.rows = s.db.events.rows ++
    [⟨s.db.nextSequence, w.bookingIds.orderId, s.db.maxStreamSeq w.bookingIds.orderId + 1,
        OrderEventType.orderCreated.asStr⟩,
      ⟨s.db.nextSequence + 1, w.bookingIds.orderId, s.db.maxStreamSeq w.bookingIds.orderId + 2,
        OrderEventType.inventoryLocked.asStr⟩]
  outbox : db'.outbox.rows = s.db.outbox.rows ++
    [⟨s.db.nextOutboxId, s.db.nextSequence⟩, ⟨s.db.nextOutboxId + 1, s.db.nextSequence + 1⟩]
  claimed : ∀ x ∈ wired, occupancy db' (cellOf x) = withClaim x (occupancy s.db (cellOf x))
  unclaimed : ∀ k, (∀ x ∈ wired, cellOf x ≠ k) → occupancy db' k = occupancy s.db k
  rest : db' = { s.db with
    orders := db'.orders
    passengers := db'.passengers
    orderItems := db'.orderItems
    orderAncillaries := db'.orderAncillaries
    seatOccupancy := db'.seatOccupancy
    poolOccupancy := db'.poolOccupancy
    events := db'.events
    nextSequence := s.db.nextSequence + 2
    outbox := db'.outbox
    nextOutboxId := s.db.nextOutboxId + 2 }

/-- The rows a booking appends, and the record it returns. -/
lemma createOrder_rows {db : Db} {now expiresAt : Timestamp}
    (h : db.createOrder w.bookingIds now expiresAt o wired = .ok (record, db')) :
    db.orders.insert (newOrderRow w.bookingIds.orderId o expiresAt) = some db'.orders ∧
      db'.passengers.rows = db.passengers.rows ++ (party w o).map (fun p =>
        ⟨p.id, w.bookingIds.orderId, p.fullName, p.passengerType, p.birthdate, now⟩) ∧
      db'.orderItems.rows = db.orderItems.rows ++ wired.map (itemRow w.bookingIds.orderId (party w o)) ∧
      db'.orderAncillaries.rows = db.orderAncillaries.rows ++ o.ancillaries.mapIdx (fun i line =>
        ancillaryRow (w.bookingIds.ancillaryId i) w.bookingIds.orderId (party w o) line) ∧
      record = recordOf w.bookingIds.orderId o expiresAt (party w o) wired := by
  unfold createOrder at h
  obtain ⟨db₁, h₁, h⟩ := bind_eq_ok.mp h
  obtain ⟨⟨records, db₂⟩, h₂, h⟩ := bind_eq_ok.mp h
  obtain ⟨db₃, h₃, h⟩ := bind_eq_ok.mp h
  obtain ⟨db₄, h₄, h⟩ := bind_eq_ok.mp h
  obtain ⟨db₅, h₅, h⟩ := bind_eq_ok.mp h
  obtain ⟨db₆, h₆, h⟩ := bind_eq_ok.mp h
  cases h
  obtain ⟨orders, hord, rfl⟩ := insertOrder_eq_ok (liftDb_eq_ok.mp h₁)
  obtain ⟨hrec, passengers, hpas, rfl⟩ := insertPassengers_eq_ok (liftDb_eq_ok.mp h₂)
  have hparty : records = party w o := by
    rw [hrec, map_mapIdx]
    rfl
  subst hparty
  obtain ⟨hitems, hframe⟩ := claimItems_frame h₃
  obtain ⟨orderAncillaries, hanc, rfl⟩ := insertAncillaries_eq_ok (liftDb_eq_ok.mp h₄)
  obtain ⟨_, _, -, -, rfl⟩ := append_eq_ok (liftDb_eq_ok.mp h₅)
  obtain ⟨_, _, -, -, rfl⟩ := append_eq_ok (liftDb_eq_ok.mp h₆)
  rw [map_mapIdx, congrArg Db.orderAncillaries hframe] at hanc
  have horders : db₃.orders = orders := congrArg Db.orders hframe
  have hpassengers : db₃.passengers = passengers := congrArg Db.passengers hframe
  refine ⟨?_, ?_, hitems, hanc, rfl⟩
  · exact hord.trans (congrArg some horders.symm)
  · exact (congrArg Lib.Table.rows hpassengers).trans hpas

lemma createOrder_added
    (h : s.db.createOrder w.bookingIds s.now (s.now + orderTtlMinutes * 60) o wired = .ok (record, db')) :
    Adds w o s wired db' ∧
      record = recordOf w.bookingIds.orderId o (s.now + orderTtlMinutes * 60) (party w o) wired := by
  obtain ⟨hord, hpas, hitems, hanc, hrecord⟩ := createOrder_rows h
  obtain ⟨_, _, _, events, outbox, _, db₁, -, -, -, -, hclaims, hevents, houtbox, hbooked⟩ := createOrder_booked h
  obtain ⟨-, hframe⟩ := claimItems_frame hclaims
  obtain ⟨hown, hothers⟩ := claimItems_occupancy hclaims
  have hcells : ∀ k, occupancy db' k = occupancy db₁ k := by
    intro k
    rw [hbooked]
    rfl
  refine ⟨⟨(Lib.Table.insert_eq_some.mp hord).2, hpas, hitems, hanc, ?_, ?_, ?_, ?_, ?_⟩, hrecord⟩
  · rw [hbooked]
    exact hevents
  · rw [hbooked]
    exact houtbox
  · intro x hx
    rw [hcells]
    exact hown x hx
  · intro k hk
    rw [hcells]
    exact hothers k hk
  · rw [hbooked, hframe]

lemma resolve_known {x : WiredItem} (h : resolve s x.item = .ok (some x.target)) : Known s.db x := by
  obtain ⟨cu, hmem, -, hid⟩ := resolveTarget_unit h
  have hunit : s.db.capacityUnits.find? cu.id = some cu := Lib.Table.find?_of_mem hmem
  rw [hid] at hunit
  refine ⟨?_, by rw [hunit, Option.isSome_some]⟩
  unfold resolve resolveTarget at h
  cases ht : s.db.trips.find? x.item.tripId with
  | none =>
    rw [ht] at h
    cases h
  | some t => rfl

lemma Resolved.known (h : Resolved (· = s) o wired) : ∀ x ∈ wired, Known s.db x := by
  intro x hx
  obtain ⟨⟨v, rfl, hv⟩, -⟩ := h.2 x hx
  exact resolve_known hv

/-- When no statement fails, an order is created exactly when it is bookable and the database
accepts it. -/
lemma created_iff (hw : w.fail = none) (hn : Numbered s.db) (hu : Unused w.fresh s.db) (b : Call → Reply) :
    (∃ record, (Prog.alone (fun t s => t.run w s) b (OrderStore.create o) s).answer = .ok (.created record)) ↔
      Bookable s o ∧ Accepted s.db o := by
  rw [bookable_iff]
  constructor
  · rintro ⟨record, h⟩
    let e := Prog.alone (fun t s => t.run w s) b (OrderStore.create o) s
    have hends : Prog.Ends Tx.run (· = w) (OrderStore.create o) s e.answer e.store :=
      Prog.alone_ends Tx.run (· = w) rfl b _ s
    rcases create_ends hends with ⟨_, wired, record', rfl, hparty, hitems, hres, hlines, ⟨db', hc, -⟩, -⟩ | ⟨-, hne⟩
    · obtain ⟨hcustomer, hclaims, hapart, htakes⟩ := (createOrder_ok_iff hn hu hres.known).mp ⟨_, hc⟩
      exact ⟨⟨hparty, hitems, hlines, wired, hres, hclaims, hapart⟩, hcustomer, htakes⟩
    · exact absurd h (hne record)
  · rintro ⟨⟨hparty, hitems, hlines, wired, hres, hclaims, hapart⟩, hcustomer, htakes⟩
    have hok : ∃ r, s.db.createOrder w.bookingIds s.now (s.now + orderTtlMinutes * 60) o wired = .ok r :=
      (createOrder_ok_iff hn hu hres.known).mpr ⟨hcustomer, hclaims, hapart, htakes⟩
    obtain ⟨⟨record, db'⟩, hc⟩ := hok
    exact ⟨record, by rw [create_alone hw hparty hitems hres hlines hc]⟩

/-- Creating an order is all or nothing. It succeeds on a condition that does not look at the order
of the items, and then adds just its rows and claims. However else it ends, nothing has changed. -/
theorem create_all_or_nothing (s : World) (o : NewOrder) :
    (∀ w : Oracle, w.fail = none → Numbered s.db → Unused w.fresh s.db → ∀ b items, items.Perm o.items →
      ((∃ record, (Prog.alone (fun t s => t.run w s) b (OrderStore.create { o with items }) s).answer =
        .ok (.created record)) ↔ Bookable s o ∧ Accepted s.db o)) ∧
    ∀ a s', Prog.Ends Tx.run (fun _ => True) (OrderStore.create o) s a s' →
      (∀ record, a = .ok (.created record) → ∃ w wired, Resolved (· = s) o wired ∧ Adds w o s wired s'.db ∧
        s'.now = s.now ∧
        record = recordOf w.bookingIds.orderId o (s.now + orderTtlMinutes * 60) (party w o) wired) ∧
      ((∀ record, a ≠ .ok (.created record)) → s' = s) := by
  constructor
  · intro w hw hn hu b items hperm
    rw [created_iff hw hn hu b, Bookable.perm hperm]
    exact and_congr Iff.rfl ⟨fun h => ⟨h.customer, h.addOns⟩, fun h => ⟨h.customer, h.addOns⟩⟩
  · intro a s' h
    rcases create_ends h with ⟨w, wired, record, -, hc⟩ | ⟨rfl, hne⟩
    · obtain ⟨db', hdb, rfl⟩ := hc.committed
      obtain ⟨hadded, hrecord⟩ := createOrder_added hdb
      refine ⟨?_, fun hne => absurd hc.answer (hne record)⟩
      intro record' hr
      have he : record' = record := by
        rw [hc.answer] at hr
        cases hr
        rfl
      rw [he]
      exact ⟨w, wired, hc.resolved, hadded, rfl, hrecord⟩
    · exact ⟨fun record hr => absurd hr (hne record), fun _ => rfl⟩

end Result

section Harbour

lemma drawn_unused (n : Nat) : Unused (drawn n).fresh harbour.db where
  injective _ _ h := Nat.add_left_cancel h
  orders _ := rfl
  passengers _ := rfl
  orderItems _ _ hr := absurd hr List.not_mem_nil
  orderAncillaries _ := rfl

/-- The booking by itself, on the empty ferry. -/
def bookingAlone : Ended World Call (Except StoreError CreateOutcome) :=
  Prog.alone (fun t s => t.run (drawn 100) s) (fun _ => .released) (OrderStore.create booking) harbour

lemma booking_created : ∃ record, bookingAlone.answer = .ok (.created record) := by
  have hrows : bookingAlone.store.db.orders.rows.length = 1 := by decide
  have hends : Prog.Ends Tx.run (· = drawn 100) (OrderStore.create booking) harbour bookingAlone.answer
      bookingAlone.store := Prog.alone_ends Tx.run (· = drawn 100) rfl _ _ _
  rcases create_ends hends with ⟨_, _, record, -, hc⟩ | ⟨hsame, -⟩
  · exact ⟨record, hc.answer⟩
  · rw [hsame] at hrows
    cases hrows

/-- An add-on that is not in the catalogue makes the booking fail. -/
theorem unknown_add_on_fails : ¬ ∀ (s : World) (o : NewOrder) (w : Oracle) (b : Call → Reply), w.fail = none →
    Numbered s.db → Unused w.fresh s.db →
    ((∃ record, (Prog.alone (fun t s => t.run w s) b (OrderStore.create o) s).answer = .ok (.created record)) ↔
      Bookable s o) := by
  intro hclaim
  let o : NewOrder := { booking with ancillaries := [⟨7, "MEAL", "Meal", none, none, 1, 250⟩] }
  have hnumbered := numbered_of_seeded harbour_seeded
  have hplain : Bookable harbour booking :=
    ((created_iff rfl hnumbered (drawn_unused 100) _).mp booking_created).1
  have hbook : Bookable harbour o := by
    refine ⟨hplain.passengers, hplain.items, hplain.sellable, ?_, hplain.apart⟩
    intro line hline index hindex
    rw [List.mem_singleton.mp hline] at hindex
    cases hindex
  have hcreated := (hclaim harbour o (drawn 100) (fun _ => .released) rfl hnumbered (drawn_unused 100)).mpr hbook
  have htakes :=
    ((created_iff rfl hnumbered (drawn_unused 100) _).mp hcreated).2.addOns _ (List.mem_singleton_self _)
  cases htakes.ancillary

/-- Ana's booking, and the same with its items the other way round. -/
theorem create_all_or_nothing_harbour :
    (∃ record, (Prog.alone (fun t s => t.run (drawn 100) s) (fun _ => .released)
      (OrderStore.create { booking with items := booking.items.reverse }) harbour).answer = .ok (.created record)) ∧
    ∃ w wired, Resolved (· = harbour) booking wired ∧ Adds w booking harbour wired bookingAlone.store.db := by
  have hnumbered := numbered_of_seeded harbour_seeded
  have hends : Prog.Ends Tx.run (fun _ => True) (OrderStore.create booking) harbour bookingAlone.answer
      bookingAlone.store := Prog.alone_ends Tx.run (fun _ => True) trivial _ _ _
  obtain ⟨record, hr⟩ := booking_created
  constructor
  · have hcreated := (create_all_or_nothing harbour booking).1 (drawn 100) rfl hnumbered (drawn_unused 100)
      (fun _ => .released)
    exact (hcreated _ (List.reverse_perm _)).mpr ((hcreated _ (List.Perm.refl _)).mp ⟨record, hr⟩)
  · obtain ⟨w, wired, hres, hadded, -⟩ := ((create_all_or_nothing harbour booking).2 _ _ hends).1 record hr
    exact ⟨w, wired, hres, hadded⟩

end Harbour

end Lulan.Proofs
