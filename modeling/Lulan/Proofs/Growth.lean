import Lulan.Proofs.Streams

/-!
# What never changes

Orders, passengers and items are only ever added, and the network an order was booked on
stays. These facts outlive every transaction.
-/

namespace Lulan.Proofs

open Lulan Lulan.Db Lib

def itemsOf (db : Db) (orderId : Uuid) : List OrderItemRow :=
  db.orderItems.select (fun r => decide (r.orderId = orderId))

/-- The order an item names is in the table, and so are its trip, unit and passenger; a
seat has a passenger, and the item carries the code of its unit. -/
structure ItemOk (db : Db) (r : OrderItemRow) : Prop where
  refs : ItemRefs db r
  passenger : r.kind = .seat → r.passengerId.isSome = true
  code : ∃ cu, db.capacityUnits.find? r.unitId = some cu ∧ cu.code = r.unitCode

def ItemsOk (db : Db) : Prop := ∀ r ∈ db.orderItems.rows, ItemOk db r

/-- What the handlers guarantee about the transactions they run. -/
def Sound (units : Lib.Table CapacityUnitRow.id) : Tx → Prop
  | .createOrder o wired _ => ∀ w ∈ wired,
      (w.target.kind = .seat → ∃ index, w.slot = some index ∧ index < o.passengers.length) ∧
      ∃ cu, units.find? w.target.unitId = some cu ∧ cu.code = w.item.unitCode
  | .claimPool _ _ _ qty => 0 < qty
  | _ => True

/-- From one database to a later one. -/
structure Grows (db db' : Db) : Prop where
  units : db'.capacityUnits = db.capacityUnits
  trips : ∀ k, (db'.trips.find? k).isSome = (db.trips.find? k).isSome
  passengers : ∀ k p, db.passengers.find? k = some p → db'.passengers.find? k = some p
  orders : ∀ k, (db.orders.find? k).isSome = true → (db'.orders.find? k).isSome = true
  items : ∀ k, (db.orders.find? k).isSome = true → itemsOf db' k = itemsOf db k
  named : ∀ r ∈ db'.orderItems.rows, r ∈ db.orderItems.rows ∨
    ∀ p, r.passengerId = some p → db.passengers.find? p = none

lemma find?_of_append {α κ : Type} {key : α → κ} [DecidableEq κ] {t t' : Lib.Table key} {new : List α}
    (h : t'.rows = t.rows ++ new) {k : κ} {r : α} (hr : t.find? k = some r) : t'.find? k = some r := by
  obtain ⟨hm, hk⟩ := Lib.Table.find?_eq_some.mp hr
  exact Lib.Table.find?_eq_some.mpr ⟨h ▸ List.mem_append_left new hm, hk⟩

/-- A row that was appended was not there before. -/
lemma find?_none_of_append {α κ : Type} {key : α → κ} [DecidableEq κ] {t t' : Lib.Table key} {new : List α}
    (h : t'.rows = t.rows ++ new) {r : α} (hr : r ∈ new) : t.find? (key r) = none := by
  have hnd := t'.nodup
  rw [h, List.map_append, List.nodup_append] at hnd
  rw [Lib.Table.find?_eq_none]
  intro x hx he
  exact hnd.2.2 (key x) (List.mem_map_of_mem hx) (key r) (List.mem_map_of_mem hr) he

lemma Grows.of_eq {db db' : Db} (hu : db'.capacityUnits = db.capacityUnits)
    (ht : ∀ k, (db'.trips.find? k).isSome = (db.trips.find? k).isSome)
    (hp : ∀ k p, db.passengers.find? k = some p → db'.passengers.find? k = some p)
    (ho : ∀ k, (db'.orders.find? k).isSome = (db.orders.find? k).isSome)
    (hi : db'.orderItems = db.orderItems) : Grows db db' :=
  ⟨hu, ht, hp, fun k h => by rw [ho]; exact h, fun k _ => by rw [itemsOf, itemsOf, hi],
    fun r hr => .inl (hi ▸ hr)⟩

lemma Grows.refl (db : Db) : Grows db db :=
  .of_eq rfl (fun _ => rfl) (fun _ _ h => h) (fun _ => rfl) rfl

lemma Grows.trans {db₁ db₂ db₃ : Db} (h : Grows db₁ db₂) (h' : Grows db₂ db₃) : Grows db₁ db₃ where
  units := h'.units.trans h.units
  trips k := (h'.trips k).trans (h.trips k)
  passengers k p hp := h'.passengers k p (h.passengers k p hp)
  orders k hk := h'.orders k (h.orders k hk)
  items k hk := (h'.items k (h.orders k hk)).trans (h.items k hk)
  named r hr := by
    rcases h'.named r hr with hr | hn
    · exact h.named r hr
    · right
      intro p hp
      cases hf : db₁.passengers.find? p with
      | none => rfl
      | some row =>
        have hsome := h.passengers p row hf
        rw [hn p hp] at hsome
        cases hsome

lemma Advance.grows {db db' : Db} {orderId seq : Nat} {event : OrderEventType}
    {change : Lib.Assign OrderRow.id} (h : Advance db db' orderId seq event change) : Grows db db' := by
  refine .of_eq h.capacityUnits (fun k => by rw [h.trips]) (fun k p hp => by rw [h.passengers]; exact hp)
    (fun k => ?_) h.orderItems
  rw [h.orders, Lib.Table.find?_update, Option.isSome_map]

lemma ItemOk.mono {db db' : Db} {r : OrderItemRow} (h : ItemOk db r) (hg : Grows db db') : ItemOk db' r where
  refs := {
    order := hg.orders _ h.refs.order
    trip := (hg.trips _).trans h.refs.trip
    unit := by rw [hg.units]; exact h.refs.unit
    passenger := fun p hp => by
      obtain ⟨row, hrow⟩ := Option.isSome_iff_exists.mp (h.refs.passenger p hp)
      rw [hg.passengers p row hrow]
      rfl }
  passenger := h.passenger
  code := by rw [hg.units]; exact h.code

lemma itemsOk_of_seeded {db : Db} (h : db.Seeded) : ItemsOk db := by
  intro r hr
  rw [h.orderItems] at hr
  cases hr

/-- Every row a booking writes refers to rows that are there. -/
lemma claimItems_refs {orderId : Uuid} {passengers : List PassengerRecord} {ws : List WiredItem} {db db' : Db}
    (h : claimItems orderId passengers ws db = .ok db') : ∀ w ∈ ws, ItemRefs db (itemRow orderId passengers w) := by
  induction ws generalizing db with
  | nil => simp
  | cons w rest ih =>
    obtain ⟨db₁, h₁, h⟩ := bind_eq_ok.mp h
    obtain ⟨-, hrefs, orderItems, -, rfl⟩ := claimItem_eq_ok h₁
    intro x hx
    rcases List.mem_cons.mp hx with rfl | hx
    · exact hrefs
    · have hr := ih h x hx
      exact ⟨hr.order, hr.trip, hr.unit, hr.passenger⟩

/-- A booking adds its own items and nothing to the other orders. -/
lemma Booked.grows {db db' : Db} {ids : BookingIds} {now expiresAt : Timestamp} {o : NewOrder}
    {wired : List WiredItem} {record : OrderRecord} (h : ItemsOk db)
    (hb : Booked ids now expiresAt o wired record db db') (hs : Sound db.capacityUnits (.createOrder o wired expiresAt)) :
    Grows db db' ∧ ItemsOk db' := by
  obtain ⟨orders, passengers, orderAncillaries, events, outbox, records, db₁, hord, hpas, hlen, -, hclaims, -, -,
    rfl⟩ := hb
  have hid : (newOrderRow ids.orderId o expiresAt).id = ids.orderId := rfl
  obtain ⟨hnew, hrows⟩ := Lib.Table.insert_eq_some.mp hord
  have hfind := Lib.Table.find?_insert hord
  rw [hid] at hnew hfind
  obtain ⟨hitems, hframe⟩ := claimItems_frame hclaims
  have hunits : db₁.capacityUnits = db.capacityUnits := by rw [hframe]
  have htrips : db₁.trips = db.trips := by rw [hframe]
  have hpass : db₁.passengers = passengers := by rw [hframe]
  have horders : db₁.orders = orders := by rw [hframe]
  have hg : Grows db { db₁ with
      orderAncillaries := orderAncillaries
      events := events
      nextSequence := db.nextSequence + 2
      outbox := outbox
      nextOutboxId := db.nextOutboxId + 2 } := by
    constructor
    · exact hunits
    · exact fun k => congrArg (fun t : Lib.Table TripRow.id => (t.find? k).isSome) htrips
    · intro k p hp
      simp only [hpass]
      exact find?_of_append hpas hp
    · intro k hk
      simp only [horders]
      obtain ⟨row, hrow⟩ := Option.isSome_iff_exists.mp hk
      rw [find?_of_append hrows hrow]
      rfl
    · intro k hk
      unfold itemsOf Lib.Table.select
      simp only [hitems, List.filter_append]
      have hnil : (wired.map (itemRow ids.orderId records)).filter (fun r => decide (r.orderId = k)) = [] := by
        rw [List.filter_eq_nil_iff]
        intro r hr
        obtain ⟨w, -, rfl⟩ := List.mem_map.mp hr
        rw [decide_eq_true_eq]
        rintro rfl
        have hnone : db.orders.find? (itemRow ids.orderId records w).orderId = none := hnew
        rw [hnone] at hk
        cases hk
      rw [hnil, List.append_nil]
    · intro r hr
      have hr' : r ∈ db.orderItems.rows ++ wired.map (itemRow ids.orderId records) := by
        rw [← hitems]
        exact hr
      rcases List.mem_append.mp hr' with hr | hr
      · exact .inl hr
      · right
        obtain ⟨w, -, rfl⟩ := List.mem_map.mp hr
        intro p hp
        obtain ⟨index, -, hget⟩ := Option.bind_eq_some_iff.mp hp
        obtain ⟨record, hrec, rfl⟩ := Option.map_eq_some_iff.mp hget
        have hmem : record ∈ records := List.mem_of_getElem? hrec
        exact find?_none_of_append hpas (List.mem_map_of_mem hmem)
  refine ⟨hg, ?_⟩
  intro r hr
  have hr' : r ∈ db.orderItems.rows ++ wired.map (itemRow ids.orderId records) := by
    rw [← hitems]
    exact hr
  rcases List.mem_append.mp hr' with hr | hr
  · exact (h r hr).mono hg
  · obtain ⟨w, hw, rfl⟩ := List.mem_map.mp hr
    have hrefs := claimItems_refs hclaims w hw
    obtain ⟨hseat, cu, hcu, hcode⟩ := hs w hw
    refine ⟨⟨?_, ?_, ?_, ?_⟩, ?_, cu, ?_, hcode⟩
    · simp only [horders]
      exact hrefs.order
    · simp only [htrips]
      exact hrefs.trip
    · simp only [hunits]
      exact hrefs.unit
    · simp only [hpass]
      exact hrefs.passenger
    · intro hk
      obtain ⟨index, hslot, hlt⟩ := hseat hk
      have hget : index < records.length := by omega
      simp [itemRow, hslot, hget]
    · simp only [hunits]
      exact hcu

lemma releaseOrderItems_grows (db : Db) (orderId : Uuid) : Grows db (db.releaseOrderItems orderId).2 := by
  rw [releaseOrderItems_frame]
  exact .of_eq rfl (fun _ => rfl) (fun _ _ h => h) (fun _ => rfl) rfl

lemma IssuedInto.grows {now : Timestamp} {fresh : Nat → Uuid} {signer : TicketSigner} {orderId : Uuid}
    {tickets : List IssuedTicket} {db db' : Db} (h : IssuedInto now fresh signer orderId tickets db db') :
    Grows db db' := by
  obtain ⟨db₁, seats, admitted, h₁, h₂, -⟩ := h
  obtain ⟨_, -, -, rfl⟩ := issueSeats_eq_ok h₁
  obtain ⟨_, _, hp, -, -, rfl⟩ := issueAdmissions_eq_ok h₂
  exact .of_eq rfl (fun _ => rfl) (fun _ _ h => find?_of_append hp h) (fun _ => rfl) rfl

/-- Every transaction only adds, and every item stays well-formed. -/
theorem ItemsOk.step {db db' : Db} {w : Oracle} {now : Timestamp} {t : Tx} {res : TxResult} (h : ItemsOk db)
    (he : Effect w now db t res db') (hs : Sound db.capacityUnits t) : Grows db db' ∧ ItemsOk db' := by
  have hkeep : ∀ {db' : Db}, Grows db db' → db'.orderItems = db.orderItems → Grows db db' ∧ ItemsOk db' :=
    fun hg hi => ⟨hg, fun r hr => (h r (hi ▸ hr)).mono hg⟩
  cases he with
  | quiet frame _ _ =>
    refine hkeep (.of_eq frame.capacityUnits frame.trips (fun k p hp => ?_) (fun k => ?_) frame.orderItems)
      frame.orderItems
    · rw [frame.passengers]
      exact hp
    · rw [frame.orders]
  | booked hb => exact hb.grows h hs
  | seatSold _ => exact hkeep (.of_eq rfl (fun _ => rfl) (fun _ _ h => h) (fun _ => rfl) rfl) rfl
  | poolSold _ => exact hkeep (.of_eq rfl (fun _ => rfl) (fun _ _ h => h) (fun _ => rfl) rfl) rfl
  | requested _ ha => exact hkeep ha.grows ha.orderItems
  | captured _ ha => exact hkeep ha.grows ha.orderItems
  | declined _ ha => exact hkeep ha.grows ha.orderItems
  | exited _ _ _ ha =>
    refine hkeep (ha.grows.trans (releaseOrderItems_grows _ _)) ?_
    rw [releaseOrderItems_frame]
    exact ha.orderItems
  | refunded _ _ ha =>
    refine hkeep ((ha.grows.trans (releaseOrderItems_grows _ _)).trans
      (.of_eq rfl (fun _ => rfl) (fun _ _ h => h) (fun _ => rfl) rfl)) ?_
    rw [releaseOrderItems_frame]
    exact ha.orderItems
  | issued _ hi ha => exact hkeep (hi.grows.trans ha.grows) (ha.orderItems.trans hi.frame.orderItems)
  | boarded _ _ => exact hkeep (.of_eq rfl (fun _ => rfl) (fun _ _ h => h) (fun _ => rfl) rfl) rfl
  | lastBoarded _ _ _ _ ha =>
    refine hkeep (Grows.trans ?_ ha.grows) ha.orderItems
    exact .of_eq rfl (fun _ => rfl) (fun _ _ h => h) (fun _ => rfl) rfl

/-- Trips change when they are cancelled, and only then. -/
lemma Effect.schedule {w : Oracle} {now : Timestamp} {db db' : Db} {t : Tx} {res : TxResult}
    (he : Effect w now db t res db') : Schedule db t res db' := by
  cases he with
  | quiet _ _ _ hs => exact hs
  | booked hb =>
    obtain ⟨orders, passengers, _, _, _, records, db₁, -, -, -, -, hclaims, -, -, rfl⟩ := hb
    obtain ⟨-, hframe⟩ := claimItems_frame hclaims
    refine .inl ?_
    rw [hframe]
  | seatSold _ => exact .inl rfl
  | poolSold _ => exact .inl rfl
  | requested _ ha => exact .inl ha.trips
  | captured _ ha => exact .inl ha.trips
  | declined _ ha => exact .inl ha.trips
  | exited _ _ _ ha =>
    refine .inl ?_
    rw [releaseOrderItems_frame]
    exact ha.trips
  | refunded _ _ ha =>
    refine .inl ?_
    rw [releaseOrderItems_frame]
    exact ha.trips
  | issued _ hi ha => exact .inl (ha.trips.trans hi.frame.trips)
  | boarded _ _ => exact .inl rfl
  | lastBoarded _ _ _ _ ha => exact .inl ha.trips

end Lulan.Proofs
