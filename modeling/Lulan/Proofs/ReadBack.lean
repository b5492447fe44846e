import Lulan.Lib.OrderBy
import Lulan.Proofs.Boarding
import Lulan.Proofs.Bookings

/-!
# Reading a booking back

What a booking returns is put together from its input, what `get` returns from four queries that
order their rows by keys of their own. They are the same where the rows of the booking stand in
the order of those keys.
-/

namespace Lulan.Proofs

open Lulan Lulan.Db

section Queries

/-- How the database orders texts, and what a `timestamptz` column keeps of a time. -/
structure Columns where
  le : String → String → Prop
  ranks : Lib.Ranks le
  keeps : Timestamp → Timestamp

/-- `ORDER BY created_at, id`. -/
def enteredBefore (a b : PassengerRow) : Prop :=
  a.createdAt < b.createdAt ∨ a.createdAt = b.createdAt ∧ a.id ≤ b.id

/-- What `get` may return of an order: its four queries, with ties in any order. -/
def Reads (columns : Columns) (db : Db) (orderId : Uuid) (result : Option OrderRecord) : Prop :=
  match db.orders.find? orderId with
  | none => result = none
  | some row => ∃ passengers items ancillaries,
    Lib.OrderedBy enteredBefore (db.passengers.select (fun r => decide (r.orderId = orderId))) passengers ∧
    Lib.OrderedBy (fun a b => columns.le a.unitCode b.unitCode)
      (db.orderItems.select (fun r => decide (r.orderId = orderId))) items ∧
    Lib.OrderedBy (fun a b => columns.le a.code b.code)
      (db.orderAncillaries.select (fun r => decide (r.orderId = orderId))) ancillaries ∧
    result = some { orderId
                    tripIds := distinctTrips (items.map OrderItemRow.toItem)
                    passengerName := row.passengerName
                    status := row.status
                    totalMinor := row.totalMinor
                    currency := row.currency
                    paymentIntentId := row.paymentIntentId
                    expiresAt := row.expiresAt.map columns.keeps
                    passengers := passengers.map PassengerRow.toRecord
                    items := items.map OrderItemRow.toItem
                    ancillaries := ancillaries.map OrderAncillaryRow.toAncillary }

/-- The order of strings, and times kept as they are. -/
def plainColumns : Columns where
  le := (· ≤ ·)
  ranks := ⟨String.le_total, fun _ _ _ => String.le_trans⟩
  keeps := id

lemma entered_ranks : Lib.Ranks enteredBefore where
  total a b := by
    rcases lt_trichotomy a.createdAt b.createdAt with h | h | h
    · exact Or.inl (Or.inl h)
    · cases Nat.le_total a.id b.id with
      | inl hid => exact Or.inl (Or.inr ⟨h, hid⟩)
      | inr hid => exact Or.inr (Or.inr ⟨h.symm, hid⟩)
    · exact Or.inr (Or.inl h)
  trans a b c := by
    rintro (hab | ⟨hab, hid⟩) (hbc | ⟨hbc, hid'⟩)
    · exact Or.inl (hab.trans hbc)
    · exact Or.inl (hbc ▸ hab)
    · exact Or.inl (hab ▸ hbc)
    · exact Or.inr ⟨hab.trans hbc, hid.trans hid'⟩

/-- The read model is one of the answers. -/
theorem reads_getOrder (db : Db) (orderId : Uuid) : Reads plainColumns db orderId (db.getOrder orderId) := by
  unfold Reads getOrder
  cases db.orders.find? orderId with
  | none => rfl
  | some row =>
    have hentered : Lib.Ranks (fun a b : PassengerRow =>
        a.createdAt < b.createdAt ∨ a.createdAt = b.createdAt ∧ a.id ≤ b.id) := entered_ranks
    have hunits : Lib.Ranks (fun a b : OrderItemRow => a.unitCode ≤ b.unitCode) := plainColumns.ranks.column _
    have hcodes : Lib.Ranks (fun a b : OrderAncillaryRow => a.code ≤ b.code) := plainColumns.ranks.column _
    have hexpiry : row.expiresAt.map plainColumns.keeps = row.expiresAt := Option.map_id'
    refine ⟨_, _, _, Lib.orderedBy_insertionSort hentered _, Lib.orderedBy_insertionSort hunits _,
      Lib.orderedBy_insertionSort hcodes _, ?_⟩
    rw [hexpiry]
    rfl

end Queries

section Owners

variable {db db' : Db} {s : World} {w : Oracle} {t : Tx} {res : TxResult} {now : Timestamp}

/-- Passengers and add-on lines belong to orders that exist. -/
structure Owned (db : Db) : Prop where
  passengers : ∀ r ∈ db.passengers.rows, (db.orders.find? r.orderId).isSome = true
  orderAncillaries : ∀ r ∈ db.orderAncillaries.rows, (db.orders.find? r.orderId).isSome = true

lemma settle_keeps {α : Type} {P : Db → Prop} {f : α → TxResult} {r : Except DbError (α × Db)} (h₀ : P s.db)
    (h : ∀ a db, r = .ok (a, db) → P db) : P (Tx.settle s f r).2.db := by
  cases r with
  | error e => exact h₀
  | ok x => exact h x.1 x.2 rfl

lemma settleReleasing_keeps {P : Db → Prop}
    {r : Except DbError (TransitionOutcome × List (OrderItemRow × Nat) × Db)} (h₀ : P s.db)
    (h : ∀ o released db, r = .ok (o, released, db) → P db) : P (Tx.settleReleasing s r).2.db := by
  cases r with
  | error e => exact h₀
  | ok x => exact h x.1 x.2.1 x.2.2 rfl

/-- The tables that only a booking and the statements about idempotency keys write. -/
structure SameSides (db db' : Db) : Prop where
  lines : db'.orderAncillaries = db.orderAncillaries
  keys : db'.idempotencyKeys = db.idempotencyKeys

lemma SameSides.trans {db db' db'' : Db} (h : SameSides db db') (h' : SameSides db' db'') : SameSides db db'' :=
  ⟨h'.lines.trans h.lines, h'.keys.trans h.keys⟩

lemma applyEventLocked_sides {current : Option OrderStatus} {seq : Nat} {orderId : Uuid} {event : OrderEventType}
    {outcome : TransitionOutcome} (h : db.applyEventLocked current seq orderId event = .ok (outcome, db')) :
    SameSides db db' := by
  rcases applyEventLocked_eq_ok h with ⟨-, -, rfl⟩ | ⟨_, _, -, -, -, rfl⟩ | ⟨_, _, -, -, -, hadv⟩
  · exact ⟨rfl, rfl⟩
  · exact ⟨rfl, rfl⟩
  · obtain ⟨_, _, -, -, rfl⟩ := hadv
    exact ⟨rfl, rfl⟩

lemma releaseOrderItems_sides (db : Db) (orderId : Uuid) :
    SameSides db (db.releaseOrderItems orderId).2 := by
  rw [releaseOrderItems_frame]
  exact ⟨rfl, rfl⟩

lemma exitOrder_sides {current : Option OrderStatus} {seq : Nat} {orderId : Uuid} {event : OrderEventType}
    {outcome : TransitionOutcome} {released : List (OrderItemRow × Nat)}
    (h : db.exitOrder current seq orderId event = .ok (outcome, released, db')) :
    SameSides db db' := by
  obtain ⟨⟨o, mid⟩, hmid, h⟩ := bind_eq_ok.mp h
  have hsides := applyEventLocked_sides hmid
  cases o with
  | applied next =>
    cases h
    exact hsides.trans (releaseOrderItems_sides mid orderId)
  | noOp current =>
    cases h
    exact hsides
  | notFound =>
    cases h
    exact hsides

lemma recordScan_sides {lag : Nat} {ticketId : Uuid} {deviceId result : String} {scannedAt : Timestamp}
    {outcome : ScanOutcome} (h : db.recordScan lag ticketId deviceId scannedAt result = .ok (outcome, db')) :
    SameSides db db' := by
  unfold recordScan at h
  split at h
  · cases h
    exact ⟨rfl, rfl⟩
  · split at h
    · cases h
      exact ⟨rfl, rfl⟩
    · split at h
      · cases h
        exact ⟨rfl, rfl⟩
      · cases h
        exact ⟨rfl, rfl⟩
      · simp only at h
        split at h
        · obtain ⟨⟨orderStatus, mid⟩, hboard, h⟩ := bind_eq_ok.mp h
          cases h
          unfold boardOrder at hboard
          split at hboard
          · cases hboard
          · split at hboard
            · cases hboard
              exact ⟨rfl, rfl⟩
            · obtain ⟨mid', happend, hboard⟩ := bind_eq_ok.mp hboard
              cases hboard
              obtain ⟨_, _, -, -, rfl⟩ := append_eq_ok happend
              exact ⟨rfl, rfl⟩
        · cases h
          exact ⟨rfl, rfl⟩

lemma issueForOrder_sides {current : Option OrderStatus} {seq : Nat} {orderId : Uuid} {signer : TicketSigner}
    {fresh : Nat → Uuid} {outcome : IssueOutcome}
    (h : db.issueForOrder current seq orderId signer now fresh = .ok (outcome, db')) :
    SameSides db db' := by
  unfold issueForOrder at h
  split at h
  · cases h
    exact ⟨rfl, rfl⟩
  · split at h
    · cases h
      exact ⟨rfl, rfl⟩
    · split at h
      · cases h
        exact ⟨rfl, rfl⟩
      · split at h
        · cases h
          exact ⟨rfl, rfl⟩
        · obtain ⟨⟨seats, db₁⟩, h₁, h⟩ := bind_eq_ok.mp h
          obtain ⟨⟨admitted, db₂⟩, h₂, h⟩ := bind_eq_ok.mp h
          obtain ⟨db₃, h₃, h⟩ := bind_eq_ok.mp h
          cases h
          obtain ⟨_, -, -, rfl⟩ := issueSeats_eq_ok h₁
          obtain ⟨_, _, -, -, -, rfl⟩ := issueAdmissions_eq_ok h₂
          obtain ⟨_, _, -, -, rfl⟩ := append_eq_ok h₃
          exact ⟨rfl, rfl⟩

/-- The idempotency key a statement is about. -/
def keyOf : Tx → Option (String × String)
  | .insertKey scope key _ | .selectKey scope key | .completeKey scope key .. | .deletePendingKey scope key =>
    some (scope, key)
  | _ => none

lemma createOrder_keys {ids : BookingIds} {expiresAt : Timestamp} {o : NewOrder} {wired : List WiredItem}
    {record : OrderRecord} (h : db.createOrder ids now expiresAt o wired = .ok (record, db')) :
    db'.idempotencyKeys = db.idempotencyKeys := by
  obtain ⟨_, _, _, _, _, _, db₁, -, -, -, -, hitems, -, -, rfl⟩ := (createOrder_booked h).step
  rw [(claimItems_frame hitems).2]

/-- What the other transactions leave aside. -/
lemma run_sides (t : Tx) (w : Oracle) (s : World) (hk : keyOf t = none)
    (hb : ∀ o wired expiresAt, t ≠ .createOrder o wired expiresAt) : SameSides s.db (t.run w s).2.db := by
  unfold Tx.run
  cases w.fail with
  | some e => exact ⟨rfl, rfl⟩
  | none =>
    have h₀ : SameSides s.db s.db := ⟨rfl, rfl⟩
    cases t with
    | createOrder o wired expiresAt => exact absurd rfl (hb o wired expiresAt)
    | requestPayment orderId intent =>
      refine settle_keeps h₀ (fun outcome db h => ?_)
      obtain ⟨⟨o, mid⟩, hmid, h⟩ := bind_eq_ok.mp h
      have hsides := applyEventLocked_sides hmid
      cases o with
      | applied next =>
        simp only at h
        split at h
        · cases h
        · cases h
          exact ⟨hsides.lines, hsides.keys⟩
      | noOp current =>
        cases h
        exact hsides
      | notFound =>
        cases h
        exact hsides
    | paymentResult orderId succeeded =>
      refine settle_keeps h₀ (fun outcome db h => ?_)
      obtain ⟨⟨o, mid⟩, hmid, h⟩ := bind_eq_ok.mp h
      have hsides := applyEventLocked_sides hmid
      simp only at h
      split at h
      · cases h
        exact ⟨hsides.lines, hsides.keys⟩
      · cases h
        exact hsides
    | cancel orderId => exact settleReleasing_keeps h₀ (fun _ _ _ h => exitOrder_sides h)
    | expire orderId => exact settleReleasing_keeps h₀ (fun _ _ _ h => exitOrder_sides h)
    | refund orderId =>
      refine settleReleasing_keeps h₀ (fun outcome released db h => ?_)
      obtain ⟨⟨o, mid⟩, hmid, h⟩ := bind_eq_ok.mp h
      have hsides := applyEventLocked_sides hmid
      cases o with
      | applied next =>
        cases h
        have hreleased := hsides.trans (releaseOrderItems_sides mid orderId)
        exact ⟨hreleased.lines, hreleased.keys⟩
      | noOp current =>
        cases h
        exact hsides
      | notFound =>
        cases h
        exact hsides
    | issueForOrder orderId signer => exact settle_keeps h₀ (fun _ _ h => issueForOrder_sides h)
    | recordScan ticketId deviceId scannedAt result => exact settle_keeps h₀ (fun _ _ h => recordScan_sides h)
    | claimSeat tripId unitId span => exact ⟨rfl, rfl⟩
    | claimPool tripId unitId span qty => exact ⟨rfl, rfl⟩
    | cancelTrip tripId => exact ⟨rfl, rfl⟩
    | audit row => exact ⟨rfl, rfl⟩
    | upsertCustomer issuer subject email =>
      refine settle_keeps h₀ (fun id db h => ?_)
      unfold upsertCustomer at h
      split at h
      · cases h
        exact ⟨rfl, rfl⟩
      · obtain ⟨customers, -, h⟩ := bind_eq_ok.mp h
        cases h
        exact ⟨rfl, rfl⟩
    | insertKey scope key requestHash => cases hk
    | selectKey scope key => cases hk
    | completeKey scope key orderId statusCode response => cases hk
    | deletePendingKey scope key => cases hk

/-- What a booking does to the tables beside the order. -/
lemma run_booking (o : NewOrder) (wired : List WiredItem) (expiresAt : Timestamp) (w : Oracle) (s : World) :
    ((Tx.createOrder o wired expiresAt).run w s).2.db.idempotencyKeys = s.db.idempotencyKeys ∧
      (((Tx.createOrder o wired expiresAt).run w s).2.db.orderAncillaries = s.db.orderAncillaries ∨
        ∃ record, ((Tx.createOrder o wired expiresAt).run w s).1 = .created record) := by
  unfold Tx.run
  cases w.fail with
  | some e => exact ⟨rfl, .inl rfl⟩
  | none =>
    simp only [Tx.body]
    cases h : s.db.createOrder w.bookingIds s.now expiresAt o wired with
    | ok r => exact ⟨createOrder_keys h, .inr ⟨r.1, rfl⟩⟩
    | error a =>
      cases a with
      | conflict unitCode => exact ⟨rfl, .inl rfl⟩
      | db e => exact ⟨rfl, .inl rfl⟩

/-- Only a booking writes add-on lines. -/
lemma run_lines (t : Tx) (w : Oracle) (s : World) :
    (t.run w s).2.db.orderAncillaries = s.db.orderAncillaries ∨
      ∃ o wired expiresAt record, t = .createOrder o wired expiresAt ∧ (t.run w s).1 = .created record := by
  by_cases hb : ∃ o wired expiresAt, t = .createOrder o wired expiresAt
  · obtain ⟨o, wired, expiresAt, rfl⟩ := hb
    refine (run_booking o wired expiresAt w s).2.imp_right (fun h => ?_)
    obtain ⟨record, h⟩ := h
    exact ⟨o, wired, expiresAt, record, rfl, h⟩
  · by_cases hk : keyOf t ≠ none
    · left
      unfold Tx.run
      cases w.fail with
      | some e => rfl
      | none =>
        cases t with
        | insertKey scope key requestHash =>
          change (s.db.insertKey s.now scope key requestHash).2.orderAncillaries = _
          unfold insertKey
          split <;> rfl
        | selectKey scope key => rfl
        | completeKey scope key orderId statusCode response => rfl
        | deletePendingKey scope key => rfl
        | _ => exact absurd rfl hk
    · left
      exact (run_sides t w s (not_not.mp hk) (fun o wired expiresAt h => hb ⟨o, wired, expiresAt, h⟩)).lines

/-- Only the statements about idempotency keys write them. -/
lemma run_keys (t : Tx) (w : Oracle) (s : World) (hk : keyOf t = none) :
    (t.run w s).2.db.idempotencyKeys = s.db.idempotencyKeys := by
  by_cases hb : ∃ o wired expiresAt, t = .createOrder o wired expiresAt
  · obtain ⟨o, wired, expiresAt, rfl⟩ := hb
    exact (run_booking o wired expiresAt w s).1
  · exact (run_sides t w s hk (fun o wired expiresAt h => hb ⟨o, wired, expiresAt, h⟩)).keys

lemma Effect.orders_isSome (he : Effect w now db t res db') {k : Uuid} (hk : (db.orders.find? k).isSome = true) :
    (db'.orders.find? k).isSome = true := by
  obtain ⟨row, hrow⟩ := Option.isSome_iff_exists.mp hk
  have hlock : db.lockOrder k = some row.status := by rw [lockOrder, hrow, Option.map_some]
  obtain ⟨st, hst, -⟩ := he.lockOrder_step hlock
  obtain ⟨row', hrow', -⟩ := Option.map_eq_some_iff.mp hst
  rw [hrow', Option.isSome_some]

/-- A passenger row is an old one, or belongs to the order that is booked or issued. -/
lemma Effect.passenger (he : Effect w now db t res db') {r : PassengerRow} (hr : r ∈ db'.passengers.rows) :
    r ∈ db.passengers.rows ∨ (db'.orders.find? r.orderId).isSome = true := by
  have hkept : ∀ k, (db.orders.find? k).isSome = true → (db'.orders.find? k).isSome = true :=
    fun k hk => he.orders_isSome hk
  cases he with
  | quiet frame _ _ => exact Or.inl (frame.passengers ▸ hr)
  | booked hb =>
    have hfind := Lib.Table.find?_insert hb.orders
    obtain ⟨orders, passengers, _, _, _, records, db₁, -, hpas, -, -, hclaims, -, -, rfl⟩ := hb
    obtain ⟨-, hframe⟩ := claimItems_frame hclaims
    have hpassengers : db₁.passengers = passengers := by rw [hframe]
    rw [hpassengers, hpas] at hr
    cases List.mem_append.mp hr with
    | inl hr => exact Or.inl hr
    | inr hr =>
      obtain ⟨p, -, rfl⟩ := List.mem_map.mp hr
      refine Or.inr ?_
      rw [hfind, newOrderRow, if_pos rfl, Option.isSome_some]
  | seatSold _ => exact Or.inl hr
  | poolSold _ => exact Or.inl hr
  | requested _ ha => exact Or.inl (ha.passengers ▸ hr)
  | captured _ ha => exact Or.inl (ha.passengers ▸ hr)
  | declined _ ha => exact Or.inl (ha.passengers ▸ hr)
  | exited _ _ _ ha =>
    rw [releaseOrderItems_frame] at hr
    exact Or.inl (ha.passengers ▸ hr)
  | @refunded orderId cur seq mid _ _ ha =>
    have hsame : (voidTickets (mid.releaseOrderItems orderId).2 orderId).passengers = mid.passengers := by
      change (mid.releaseOrderItems orderId).2.passengers = _
      rw [releaseOrderItems_frame]
    rw [hsame] at hr
    exact Or.inl (ha.passengers ▸ hr)
  | @issued orderId signer seq mid _ tickets hl hi ha =>
    obtain ⟨db₁, seats, admitted, h₁, h₂, -⟩ := hi
    obtain ⟨_, -, -, rfl⟩ := issueSeats_eq_ok h₁
    obtain ⟨passengers, _, hpas, -, -, rfl⟩ := issueAdmissions_eq_ok h₂
    rw [ha.passengers, hpas] at hr
    cases List.mem_append.mp hr with
    | inl hr => exact Or.inl hr
    | inr hr =>
      obtain ⟨line, -, rfl⟩ := List.mem_map.mp hr
      obtain ⟨row, hrow, -⟩ := Option.map_eq_some_iff.mp hl.1
      exact Or.inr (hkept orderId (by rw [hrow, Option.isSome_some]))
  | boarded _ _ => exact Or.inl hr
  | lastBoarded _ _ _ _ ha => exact Or.inl (ha.passengers ▸ hr)

lemma Owned.run (h : Owned s.db) (t : Tx) (w : Oracle) : Owned (t.run w s).2.db := by
  obtain ⟨he, -⟩ := run_effect t w s
  constructor
  · intro r hr
    cases he.passenger hr with
    | inl hr => exact he.orders_isSome (h.passengers r hr)
    | inr hr => exact hr
  · intro r hr
    rcases run_lines t w s with hsame | ⟨o, wired, expiresAt, record, rfl, hcreated⟩
    · rw [hsame] at hr
      exact he.orders_isSome (h.orderAncillaries r hr)
    · rcases createOrder_run w s o wired expiresAt with ⟨_, db', -, hc, hrun⟩ | ⟨-, hne, -⟩
      · obtain ⟨hord, -, -, hlines, -⟩ := createOrder_rows hc
        have hold := fun hr => he.orders_isSome (h.orderAncillaries r hr)
        rw [hrun] at hr hold ⊢
        rw [hlines] at hr
        cases List.mem_append.mp hr with
        | inl hr => exact hold hr
        | inr hr =>
          obtain ⟨i, line, -, rfl⟩ := List.mem_mapIdx.mp hr
          rw [Lib.Table.find?_insert hord, newOrderRow, ancillaryRow, if_pos rfl, Option.isSome_some]
      · exact absurd hcreated (hne record)

/-- Whatever is run, passengers and add-on lines belong to orders that exist. -/
theorem Reaches.owned {app : AppState}
    {c : Lib.LockConf Request World Tx TxResult Call Reply Answer Uuid LockRead LockRead} (hs : s.db.Seeded)
    (hc : Reaches app s c) : Owned c.store.db := by
  have hS : ∀ i, (Request.handler app i).Only (fun _ => True) (fun _ => True) (fun _ => True) (fun _ => True) :=
    fun i => Lib.Prog.only_mono (handler_only (fun _ => True) app i) (fun _ _ => trivial) (fun _ _ => trivial)
      (fun _ _ => trivial)
  have hseeded : Owned s.db := by
    constructor
    · rw [hs.passengers]
      exact fun _ hr => absurd hr List.not_mem_nil
    · rw [hs.orderAncillaries]
      exact fun _ hr => absurd hr List.not_mem_nil
  exact Lib.Site.store_invariant (S := site app) (P := fun _ _ => True) (I := fun v _ => Owned v.db) hS hseeded
    (fun _ _ _ => trivial) (fun _ _ _ h => ⟨h.passengers, h.orderAncillaries⟩) (fun _ _ _ _ h => h)
    (fun _ _ _ _ t w _ h => h.run t w) ((rowLocks app).reachable_atomic hc)

end Owners

section Created

variable {columns : Columns} {s v : World} {w : Oracle} {order : NewOrder} {wired : List WiredItem}
  {now expiresAt : Timestamp} {record : OrderRecord} {db db' : Db}

/-- An item of a booking as it is recorded. -/
def bookedItem (w : Oracle) (order : NewOrder) (x : WiredItem) : OrderItem :=
  (itemRow w.bookingIds.orderId (party w order) x).toItem

/-- An add-on line of a booking as it is recorded. -/
def bookedLine (w : Oracle) (order : NewOrder) (line : NewOrderAncillary) : OrderAncillary :=
  (ancillaryRow 0 w.bookingIds.orderId (party w order) line).toAncillary

/-- A booking in the order it is read in: the identifiers its passengers draw ascend, so do the codes
of its items and of its add-on lines, where only equal lines tie, and its expiry is a time that the
column keeps. -/
structure InReadOrder (columns : Columns) (w : Oracle) (order : NewOrder) (wired : List WiredItem)
    (expiresAt : Timestamp) : Prop where
  passengers : (party w order).Pairwise (fun p q => p.id < q.id)
  items : Lib.InPlace (fun a b : OrderItem => columns.le a.unitCode b.unitCode) (wired.map (bookedItem w order))
  ancillaries : Lib.InPlace (fun a b : OrderAncillary => columns.le a.code b.code)
    (order.ancillaries.map (bookedLine w order))
  expiry : columns.keeps expiresAt = expiresAt

/-- The rows of a new order are those it appends. -/
lemma filter_appended {α : Type} {orderId : α → Uuid} {k : Uuid} {old new : List α}
    (hold : ∀ r ∈ old, orderId r ≠ k) (hnew : ∀ r ∈ new, orderId r = k) :
    (old ++ new).filter (fun r => decide (orderId r = k)) = new := by
  rw [List.filter_append, List.filter_eq_nil_iff.mpr, List.filter_eq_self.mpr, List.nil_append]
  · exact fun r hr => decide_eq_true (hnew r hr)
  · exact fun r hr h => hold r hr (of_decide_eq_true h)

/-- The passengers of one booking are read by their identifiers. -/
lemma entered_column (orderId : Uuid) (passengers : List PassengerRecord) (now : Timestamp)
    (column : List PassengerRecord) :
    (∃ rows, Lib.OrderedBy enteredBefore (passengers.map (fun p =>
        ⟨p.id, orderId, p.fullName, p.passengerType, p.birthdate, now⟩)) rows ∧
        column = rows.map PassengerRow.toRecord) ↔
      Lib.OrderedBy (fun p q : PassengerRecord => p.id ≤ q.id) passengers column := by
  let row : PassengerRecord → PassengerRow := fun p =>
    ⟨p.id, orderId, p.fullName, p.passengerType, p.birthdate, now⟩
  have hentered : ∀ p q : PassengerRecord, p.id ≤ q.id ↔ enteredBefore (row p) (row q) := by
    intro p q
    refine ⟨fun h => Or.inr ⟨rfl, h⟩, ?_⟩
    rintro (h | ⟨-, h⟩)
    · exact absurd h (lt_irrefl now)
    · exact h
  have hback : ∀ out : List PassengerRecord, (out.map row).map PassengerRow.toRecord = out := by
    intro out
    rw [List.map_map]
    exact List.map_id out
  constructor
  · rintro ⟨rows, hrows, rfl⟩
    obtain ⟨out, hout, rfl⟩ := (Lib.map_orderedBy row hentered).mpr hrows
    rwa [hback]
  · intro h
    exact ⟨column.map row, (Lib.map_orderedBy row hentered).mp ⟨column, h, rfl⟩, (hback column).symm⟩

/-- What may be read of an order that was just booked. -/
lemma reads_created (ho : Owned db) (hi : ItemsOk db)
    (h : db.createOrder w.bookingIds now expiresAt order wired = .ok (record, db')) (columns : Columns)
    (result : Option OrderRecord) :
    Reads columns db' record.orderId result ↔ ∃ passengers items ancillaries,
      Lib.OrderedBy (fun p q : PassengerRecord => p.id ≤ q.id) (party w order) passengers ∧
      Lib.OrderedBy (fun a b : OrderItem => columns.le a.unitCode b.unitCode)
        (wired.map (bookedItem w order)) items ∧
      Lib.OrderedBy (fun a b : OrderAncillary => columns.le a.code b.code)
        (order.ancillaries.map (bookedLine w order)) ancillaries ∧
      result = some { record with
        tripIds := distinctTrips items
        expiresAt := some (columns.keeps expiresAt)
        passengers := passengers
        items := items
        ancillaries := ancillaries } := by
  obtain ⟨hord, hpas, hitems, hlines, rfl⟩ := createOrder_rows h
  obtain ⟨hnone, -⟩ := Lib.Table.insert_eq_some.mp hord
  have hfresh : ∀ k, (db.orders.find? k).isSome = true → k ≠ w.bookingIds.orderId := by
    rintro k hk rfl
    rw [newOrderRow] at hnone
    rw [hnone] at hk
    cases hk
  have hfind : db'.orders.find? w.bookingIds.orderId =
      some (newOrderRow w.bookingIds.orderId order expiresAt) := by
    rw [Lib.Table.find?_insert hord]
    exact if_pos rfl
  have hpassengers : db'.passengers.select (fun r => decide (r.orderId = w.bookingIds.orderId)) =
      (party w order).map (fun p =>
        ⟨p.id, w.bookingIds.orderId, p.fullName, p.passengerType, p.birthdate, now⟩) := by
    rw [Lib.Table.select, hpas]
    apply filter_appended (fun r hr => hfresh _ (ho.passengers r hr))
    intro r hr
    obtain ⟨p, -, rfl⟩ := List.mem_map.mp hr
    rfl
  have hunits : db'.orderItems.select (fun r => decide (r.orderId = w.bookingIds.orderId)) =
      wired.map (itemRow w.bookingIds.orderId (party w order)) := by
    rw [Lib.Table.select, hitems]
    apply filter_appended (fun r hr => hfresh _ (hi r hr).refs.order)
    intro r hr
    obtain ⟨x, -, rfl⟩ := List.mem_map.mp hr
    rfl
  have haddons : db'.orderAncillaries.select (fun r => decide (r.orderId = w.bookingIds.orderId)) =
      order.ancillaries.mapIdx (fun i line =>
        ancillaryRow (w.bookingIds.ancillaryId i) w.bookingIds.orderId (party w order) line) := by
    rw [Lib.Table.select, hlines]
    apply filter_appended (fun r hr => hfresh _ (ho.orderAncillaries r hr))
    intro r hr
    obtain ⟨i, line, -, rfl⟩ := List.mem_mapIdx.mp hr
    rfl
  have haddonRecords : (order.ancillaries.mapIdx (fun i line =>
      ancillaryRow (w.bookingIds.ancillaryId i) w.bookingIds.orderId (party w order) line)).map
        OrderAncillaryRow.toAncillary = order.ancillaries.map (bookedLine w order) := by
    apply List.ext_getElem
    · simp
    · intro i h₁ h₂
      simp only [List.getElem_map, List.getElem_mapIdx]
      rfl
  -- the columns of each query, in terms of what the booking records
  have hread₁ := entered_column w.bookingIds.orderId (party w order) now
  have hread₂ : ∀ column, (∃ rows, Lib.OrderedBy (fun a b : OrderItemRow => columns.le a.unitCode b.unitCode)
      (wired.map (itemRow w.bookingIds.orderId (party w order))) rows ∧ column = rows.map OrderItemRow.toItem) ↔
      Lib.OrderedBy (fun a b : OrderItem => columns.le a.unitCode b.unitCode) (wired.map (bookedItem w order))
        column := by
    intro column
    have hrecords : (wired.map (itemRow w.bookingIds.orderId (party w order))).map OrderItemRow.toItem =
        wired.map (bookedItem w order) := List.map_map
    rw [← hrecords]
    apply Lib.map_orderedBy
    exact fun _ _ => Iff.rfl
  have hread₃ : ∀ column, (∃ rows, Lib.OrderedBy (fun a b : OrderAncillaryRow => columns.le a.code b.code)
      (order.ancillaries.mapIdx (fun i line =>
        ancillaryRow (w.bookingIds.ancillaryId i) w.bookingIds.orderId (party w order) line)) rows ∧
        column = rows.map OrderAncillaryRow.toAncillary) ↔
      Lib.OrderedBy (fun a b : OrderAncillary => columns.le a.code b.code)
        (order.ancillaries.map (bookedLine w order)) column := by
    intro column
    rw [← haddonRecords]
    apply Lib.map_orderedBy
    exact fun _ _ => Iff.rfl
  have hid : (recordOf w.bookingIds.orderId order expiresAt (party w order) wired).orderId =
      w.bookingIds.orderId := rfl
  rw [hid]
  unfold Reads
  rw [hfind, hpassengers, hunits, haddons]
  constructor
  · rintro ⟨passengers, items, ancillaries, hp, hu, ha, rfl⟩
    exact ⟨_, _, _, (hread₁ _).mp ⟨_, hp, rfl⟩, (hread₂ _).mp ⟨_, hu, rfl⟩, (hread₃ _).mp ⟨_, ha, rfl⟩, rfl⟩
  · rintro ⟨_, _, _, hp, hu, ha, rfl⟩
    obtain ⟨passengers, hp', rfl⟩ := (hread₁ _).mpr hp
    obtain ⟨items, hu', rfl⟩ := (hread₂ _).mpr hu
    obtain ⟨ancillaries, ha', rfl⟩ := (hread₃ _).mpr ha
    exact ⟨passengers, items, ancillaries, hp', hu', ha', rfl⟩

/-- The identifiers the passengers of a booking draw differ. -/
lemma party_distinct (h : db.createOrder w.bookingIds now expiresAt order wired = .ok (record, db')) :
    (party w order).Pairwise (fun p q => p.id ≠ q.id) := by
  obtain ⟨-, hpas, -⟩ := createOrder_rows h
  have hnodup := db'.passengers.nodup
  rw [hpas, List.map_append, List.map_map] at hnodup
  exact List.pairwise_map.mp (List.nodup_append.mp hnodup).2.1

/-- What is read right after a booking is what the booking returned, whichever answers the queries
give, exactly where the booking is in the order it is read in. -/
theorem read_back_iff {app : AppState}
    {c : Lib.LockConf Request World Tx TxResult Call Reply Answer Uuid LockRead LockRead} (hs : s.db.Seeded)
    (hc : Reaches app s c) (hrun : (Tx.createOrder order wired expiresAt).run w c.store = (.created record, v))
    (columns : Columns) :
    (∀ result, Reads columns v.db record.orderId result → result = some record) ↔
      InReadOrder columns w order wired expiresAt := by
  rcases createOrder_run w c.store order wired expiresAt with ⟨_, db', -, hcreate, hrun'⟩ | ⟨-, hne, -⟩
  · rw [hrun] at hrun'
    cases hrun'
    have hreads := reads_created (hc.owned hs) (hc.runOk hs).items hcreate columns
    have hdistinct := party_distinct hcreate
    obtain ⟨-, -, -, -, hrecord⟩ := createOrder_rows hcreate
    have hids : Lib.Ranks (fun p q : PassengerRecord => p.id ≤ q.id) :=
      ⟨fun p q => Nat.le_total p.id q.id, fun _ _ _ => Nat.le_trans⟩
    have hunits : Lib.Ranks (fun a b : OrderItem => columns.le a.unitCode b.unitCode) := columns.ranks.column _
    have hcodes : Lib.Ranks (fun a b : OrderAncillary => columns.le a.code b.code) := columns.ranks.column _
    constructor
    · intro h
      obtain ⟨passengers, hp⟩ := Lib.exists_orderedBy hids (party w order)
      obtain ⟨items, hu⟩ := Lib.exists_orderedBy hunits (wired.map (bookedItem w order))
      obtain ⟨ancillaries, ha⟩ := Lib.exists_orderedBy hcodes (order.ancillaries.map (bookedLine w order))
      have hanswer := fun passengers hp items hu ancillaries ha =>
        Option.some.inj (h _ ((hreads _).mpr ⟨passengers, items, ancillaries, hp, hu, ha, rfl⟩))
      constructor
      · have hplace := (Lib.ordered_only_iff hids).mp
          (fun out hout => (congrArg OrderRecord.passengers (hanswer out hout items hu ancillaries ha)).trans
            (congrArg OrderRecord.passengers hrecord))
        exact (hplace.and hdistinct).imp (fun {p q} hpq => lt_of_le_of_ne hpq.1.1 hpq.2)
      · exact (Lib.ordered_only_iff hunits).mp
          (fun out hout => (congrArg OrderRecord.items (hanswer passengers hp out hout ancillaries ha)).trans
            (congrArg OrderRecord.items hrecord))
      · exact (Lib.ordered_only_iff hcodes).mp
          (fun out hout => (congrArg OrderRecord.ancillaries (hanswer passengers hp items hu out hout)).trans
            (congrArg OrderRecord.ancillaries hrecord))
      · have hexpiry := (congrArg OrderRecord.expiresAt (hanswer passengers hp items hu ancillaries ha)).trans
          (congrArg OrderRecord.expiresAt hrecord)
        exact Option.some.inj hexpiry
    · intro h result hresult
      obtain ⟨passengers, items, ancillaries, hp, hu, ha, rfl⟩ := (hreads result).mp hresult
      have hplace : Lib.InPlace (fun p q : PassengerRecord => p.id ≤ q.id) (party w order) :=
        h.passengers.imp (fun {p q} hpq => ⟨hpq.le, fun hle => absurd hpq (Nat.not_lt.mpr hle)⟩)
      rw [hplace.only hp, h.items.only hu, h.ancillaries.only ha, h.expiry, hrecord]
      rfl
  · rw [hrun] at hne
    exact absurd rfl (hne record)

end Created

section Harbour

/-- Two seats for two passengers. -/
def family : NewOrder :=
  { booking with
    passengers := [⟨"Ana", .adult, none⟩, ⟨"Ben", .child, none⟩]
    items := [⟨1, "1A", "CEB", "ORM", 1, 1000, some 0⟩, ⟨1, "1B", "CEB", "ORM", 1, 800, some 1⟩] }

def familySpan : SegmentSpan := ⟨0, 2, Nat.zero_lt_two, two_le_maxSegments⟩

def familyWired : List WiredItem :=
  [⟨⟨1, "1A", "CEB", "ORM", 1, 1000, some 0⟩, ⟨1, .seat, some "business", familySpan⟩, some 0⟩,
    ⟨⟨1, "1B", "CEB", "ORM", 1, 800, some 1⟩, ⟨2, .seat, some "business", familySpan⟩, some 1⟩]

/-- The identifiers of a booking, drawn downwards. -/
def drawnDown (n : Nat) : Oracle := ⟨none, fun i => n - i, 0⟩

lemma family_in_order : InReadOrder plainColumns (drawn 100) family familyWired 900 where
  passengers := by decide
  items := by
    refine List.pairwise_pair.mpr ⟨?_, ?_⟩
    · change "1A" ≤ "1B"
      decide
    · change "1B" ≤ "1A" → _
      intro h
      exact absurd h (by decide)
  ancillaries := List.Pairwise.nil
  expiry := rfl

theorem read_back_iff_harbour : ∃ record v,
    (Tx.createOrder family familyWired 900).run (drawn 100) harbour = (.created record, v) ∧
      ∀ result, Reads plainColumns v.db record.orderId result → result = some record := by
  have hc : Reaches sandbox harbour (Lib.RowLocks.init harbour) := .refl
  refine ⟨_, _, rfl, ?_⟩
  exact (read_back_iff harbour_seeded hc rfl plainColumns).mpr family_in_order

/-- Where the first passenger draws the greater identifier, the second one is read as the lead. -/
theorem lead_passenger_swapped : ¬∀ (app : AppState) (s : World)
    (c : Lib.LockConf Request World Tx TxResult Call Reply Answer Uuid LockRead LockRead) (w : Oracle)
    (order : NewOrder) (wired : List WiredItem) (expiresAt : Timestamp) (record : OrderRecord) (v : World)
    (columns : Columns), s.db.Seeded → Reaches app s c →
    (Tx.createOrder order wired expiresAt).run w c.store = (.created record, v) →
    ∀ result, Reads columns v.db record.orderId result → result = some record := by
  intro h
  have hread := h sandbox harbour (Lib.RowLocks.init harbour) (drawnDown 100) family familyWired 900 _ _
    plainColumns harbour_seeded .refl rfl _ (reads_getOrder _ _)
  have hnames := congrArg (Option.map (fun r : OrderRecord => r.passengers.map PassengerRecord.fullName)) hread
  exact absurd hnames (by decide)

end Harbour

end Lulan.Proofs
