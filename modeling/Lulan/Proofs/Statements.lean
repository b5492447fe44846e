import Lulan.Engine.Transactions

/-!
# What each statement of a transaction does

One lemma for each function of the engine: what it returns and the database it leaves.
-/

namespace Lulan.Proofs

open Lulan Lulan.Db

/-- A monadic step that succeeded. -/
lemma bind_eq_ok {ε α β : Type} {x : Except ε α} {f : α → Except ε β} {b : β} :
    (x >>= f) = .ok b ↔ ∃ a, x = .ok a ∧ f a = .ok b := by
  cases x with
  | error e =>
    constructor
    · intro h
      cases h
    · rintro ⟨a, h, -⟩
      cases h
  | ok a =>
    constructor
    · exact fun h => ⟨a, rfl, h⟩
    · rintro ⟨a', h, hf⟩
      cases h
      exact hf

lemma mapM_eq_ok {ε α β : Type} {f : α → Except ε β} {l : List α} {l' : List β} :
    l.mapM f = .ok l' ↔ List.Forall₂ (fun a b => f a = .ok b) l l' := by
  induction l generalizing l' with
  | nil =>
    constructor
    · intro h
      cases h
      exact .nil
    · intro h
      cases h
      rfl
  | cons a l ih =>
    rw [List.mapM_cons]
    constructor
    · intro h
      obtain ⟨b, hb, h⟩ := bind_eq_ok.mp h
      obtain ⟨bs, hbs, h⟩ := bind_eq_ok.mp h
      cases h
      exact .cons hb (ih.mp hbs)
    · intro h
      cases h with
      | cons hb hbs => exact bind_eq_ok.mpr ⟨_, hb, bind_eq_ok.mpr ⟨_, ih.mpr hbs, rfl⟩⟩

lemma liftDb_eq_ok {α : Type} {x : Except DbError α} {a : α} : liftDb x = .ok a ↔ x = .ok a := by
  cases x <;> simp [liftDb]

section Inserts

variable {db db' : Db}

lemma insertOrder_eq_ok {r : OrderRow} (h : db.insertOrder r = .ok db') :
    ∃ orders, db.orders.insert r = some orders ∧ db' = { db with orders := orders } := by
  obtain ⟨orders, ho, hr⟩ := bind_eq_ok.mp h
  cases hr
  exact ⟨orders, (insertRow_eq_ok.mp ho).2.2, rfl⟩

lemma insertPassenger_eq_ok {r : PassengerRow} (h : db.insertPassenger r = .ok db') :
    ∃ passengers, db.passengers.insert r = some passengers ∧ db' = { db with passengers := passengers } := by
  obtain ⟨passengers, ho, hr⟩ := bind_eq_ok.mp h
  cases hr
  exact ⟨passengers, (insertRow_eq_ok.mp ho).2.2, rfl⟩

/-- The references an item row has when it is written. -/
structure ItemRefs (db : Db) (r : OrderItemRow) : Prop where
  order : (db.orders.find? r.orderId).isSome = true
  trip : (db.trips.find? r.tripId).isSome = true
  unit : (db.capacityUnits.find? r.unitId).isSome = true
  passenger : ∀ p, r.passengerId = some p → (db.passengers.find? p).isSome = true

lemma insertOrderItem_eq_ok {r : OrderItemRow} (h : db.insertOrderItem r = .ok db') :
    ItemRefs db r ∧ ∃ orderItems, db.orderItems.insert r = some orderItems ∧
      db' = { db with orderItems := orderItems } := by
  obtain ⟨orderItems, ho, hr⟩ := bind_eq_ok.mp h
  cases hr
  obtain ⟨-, hrefs, hins⟩ := insertRow_eq_ok.mp ho
  simp only [refersTo, Bool.and_eq_true] at hrefs
  obtain ⟨⟨⟨h1, h2⟩, h3⟩, h4⟩ := hrefs
  refine ⟨⟨h1, h2, h3, fun p hp => ?_⟩, orderItems, hins, rfl⟩
  rw [hp] at h4
  exact h4

lemma insertOrderAncillary_eq_ok {r : OrderAncillaryRow} (h : db.insertOrderAncillary r = .ok db') :
    ∃ orderAncillaries, db.orderAncillaries.insert r = some orderAncillaries ∧
      db' = { db with orderAncillaries := orderAncillaries } := by
  obtain ⟨orderAncillaries, ho, hr⟩ := bind_eq_ok.mp h
  cases hr
  exact ⟨orderAncillaries, (insertRow_eq_ok.mp ho).2.2, rfl⟩

lemma insertTicket_eq_ok {r : TicketRow} (h : db.insertTicket r = .ok db') :
    ∃ tickets, db.tickets.insert r = some tickets ∧ db' = { db with tickets := tickets } := by
  unfold insertTicket at h
  split at h
  · cases h
  · obtain ⟨tickets, ho, hr⟩ := bind_eq_ok.mp h
    cases hr
    exact ⟨tickets, (insertRow_eq_ok.mp ho).2.2, rfl⟩

lemma insertPassengers_eq_ok {orderId : Uuid} {now : Timestamp} {ps : List (Uuid × NewPassenger)}
    {records : List PassengerRecord} (h : insertPassengers orderId now ps db = .ok (records, db')) :
    records = ps.map (fun p => ⟨p.1, p.2.fullName, p.2.passengerType, p.2.birthdate⟩) ∧
    ∃ passengers, passengers.rows = db.passengers.rows ++ records.map (fun p =>
        ⟨p.id, orderId, p.fullName, p.passengerType, p.birthdate, now⟩) ∧
      db' = { db with passengers := passengers } := by
  induction ps generalizing db records with
  | nil =>
    cases h
    exact ⟨rfl, db'.passengers, by simp, rfl⟩
  | cons p rest ih =>
    obtain ⟨db₁, h₁, h⟩ := bind_eq_ok.mp h
    obtain ⟨⟨records', db₂⟩, h₂, h⟩ := bind_eq_ok.mp h
    cases h
    obtain ⟨t₁, hins, rfl⟩ := insertPassenger_eq_ok h₁
    obtain ⟨hrec, t₂, hrows, rfl⟩ := ih h₂
    refine ⟨by rw [hrec, List.map_cons], t₂, ?_, rfl⟩
    rw [hrows, (Lib.Table.insert_eq_some.mp hins).2, List.map_cons, List.append_assoc]
    rfl

lemma insertAncillaries_eq_ok {orderId : Uuid} {passengers : List PassengerRecord}
    {lines : List (Uuid × NewOrderAncillary)}
    (h : insertAncillaries orderId passengers lines db = .ok db') :
    ∃ orderAncillaries, orderAncillaries.rows = db.orderAncillaries.rows ++
        lines.map (fun l => ancillaryRow l.1 orderId passengers l.2) ∧
      db' = { db with orderAncillaries := orderAncillaries } := by
  induction lines generalizing db with
  | nil =>
    cases h
    exact ⟨db'.orderAncillaries, by simp, rfl⟩
  | cons l rest ih =>
    obtain ⟨db₁, h₁, h⟩ := bind_eq_ok.mp h
    obtain ⟨t₁, hins, rfl⟩ := insertOrderAncillary_eq_ok h₁
    obtain ⟨t₂, hrows, rfl⟩ := ih h
    refine ⟨t₂, ?_, rfl⟩
    rw [hrows, (Lib.Table.insert_eq_some.mp hins).2, List.map_cons, List.append_assoc]
    rfl

end Inserts

section Claims

variable {db db' : Db}

/-- A claim writes to the occupancy tables only. -/
lemma claimTarget_frame (db : Db) (item : NewOrderItem) (target : ClaimTarget) :
    (db.claimTarget item target).2 = { db with
      seatOccupancy := (db.claimTarget item target).2.seatOccupancy
      poolOccupancy := (db.claimTarget item target).2.poolOccupancy } := by
  unfold claimTarget
  split
  · rfl
  · split <;> rfl

lemma releaseItem_frame (db : Db) (item : OrderItemRow) :
    (db.releaseItem item).2 = { db with
      seatOccupancy := (db.releaseItem item).2.seatOccupancy
      poolOccupancy := (db.releaseItem item).2.poolOccupancy } := by
  unfold releaseItem
  split <;> rfl

/-- One item of a booking: its claim won, and its row was written. -/
lemma claimItem_eq_ok {orderId : Uuid} {passengers : List PassengerRecord} {w : WiredItem}
    (h : claimItem orderId passengers w db = .ok db') :
    (db.claimTarget w.item w.target).1 = 1 ∧ ItemRefs db (itemRow orderId passengers w) ∧
    ∃ orderItems, db.orderItems.insert (itemRow orderId passengers w) = some orderItems ∧
      db' = { db with
        seatOccupancy := (db.claimTarget w.item w.target).2.seatOccupancy
        poolOccupancy := (db.claimTarget w.item w.target).2.poolOccupancy
        orderItems := orderItems } := by
  have hframe := claimTarget_frame db w.item w.target
  unfold claimItem at h
  simp only at h
  split at h
  · cases h
  · rename_i hrows
    split at h
    · cases h
    · rename_i db₁ hins
      cases h
      obtain ⟨hrefs, orderItems, hi, rfl⟩ := insertOrderItem_eq_ok hins
      rw [hframe] at hrefs hi
      refine ⟨not_not.mp hrows, ⟨hrefs.order, hrefs.trip, hrefs.unit, hrefs.passenger⟩, orderItems, hi, ?_⟩
      rw [hframe]

/-- Only occupancy and items change while a booking claims. -/
lemma claimItems_frame {orderId : Uuid} {passengers : List PassengerRecord} {ws : List WiredItem}
    (h : claimItems orderId passengers ws db = .ok db') :
    db'.orderItems.rows = db.orderItems.rows ++ ws.map (itemRow orderId passengers) ∧
    db' = { db with
      seatOccupancy := db'.seatOccupancy
      poolOccupancy := db'.poolOccupancy
      orderItems := db'.orderItems } := by
  induction ws generalizing db with
  | nil =>
    cases h
    exact ⟨by simp, rfl⟩
  | cons w rest ih =>
    obtain ⟨db₁, h₁, h⟩ := bind_eq_ok.mp h
    obtain ⟨-, -, orderItems, hi, rfl⟩ := claimItem_eq_ok h₁
    obtain ⟨hrows, hframe⟩ := ih h
    refine ⟨?_, ?_⟩
    · rw [hrows, List.map_cons]
      simp only [(Lib.Table.insert_eq_some.mp hi).2, List.append_assoc, List.singleton_append]
    · rw [hframe]

lemma releaseItems_frame (items : List OrderItemRow) (db : Db) :
    (releaseItems items db).2 = { db with
      seatOccupancy := (releaseItems items db).2.seatOccupancy
      poolOccupancy := (releaseItems items db).2.poolOccupancy } := by
  induction items generalizing db with
  | nil => rfl
  | cons item rest ih =>
    have h₁ := releaseItem_frame db item
    have h₂ := ih (db.releaseItem item).2
    unfold releaseItems
    simp only
    rw [h₂, h₁]

lemma releaseItems_map_fst (items : List OrderItemRow) (db : Db) :
    (releaseItems items db).1.map Prod.fst = items := by
  induction items generalizing db with
  | nil => rfl
  | cons item rest ih =>
    unfold releaseItems
    simp only [List.map_cons, ih]

end Claims

section Transitions

variable {db db' : Db}

/-- A committed lifecycle event: the order moves, and the event and its outbox row are
appended. Nothing else changes. -/
structure Advance (db db' : Db) (orderId : Uuid) (seq : Nat) (event : OrderEventType)
    (change : Lib.Assign OrderRow.id) : Prop where
  step : ∃ events outbox,
    events.rows = db.events.rows ++ [⟨db.nextSequence, orderId, seq, event.asStr⟩] ∧
    outbox.rows = db.outbox.rows ++ [⟨db.nextOutboxId, db.nextSequence⟩] ∧
    db' = { db with
      orders := db.orders.update (fun r => decide (r.id = orderId)) change
      events := events
      nextSequence := db.nextSequence + 1
      outbox := outbox
      nextOutboxId := db.nextOutboxId + 1 }

/-- A second update of the same order row folds into the first. -/
lemma Advance.updateOrder {orderId : Uuid} {seq : Nat} {event : OrderEventType}
    {change : Lib.Assign OrderRow.id} (h : Advance db db' orderId seq event change)
    (f : Lib.Assign OrderRow.id) :
    Advance db (db'.updateOrder orderId f) orderId seq event
      ⟨fun r => f.set (change.set r), fun r => (f.key_set _).trans (change.key_set r)⟩ := by
  obtain ⟨events, outbox, he, ho, rfl⟩ := h
  refine ⟨events, outbox, he, ho, ?_⟩
  unfold Db.updateOrder
  congr 1
  apply Lib.Table.ext
  rw [Lib.Table.rows_update, Lib.Table.rows_update, Lib.Table.rows_update, List.map_map]
  refine List.map_congr_left (fun r _ => ?_)
  by_cases hr : r.id = orderId
  · simp [hr, change.key_set]
  · simp [hr]

section Projections

variable {orderId : Uuid} {seq : Nat} {event : OrderEventType} {change : Lib.Assign OrderRow.id}

lemma Advance.orders (h : Advance db db' orderId seq event change) :
    db'.orders = db.orders.update (fun r => decide (r.id = orderId)) change := by
  obtain ⟨_, _, _, _, rfl⟩ := h
  rfl

lemma Advance.orderItems (h : Advance db db' orderId seq event change) : db'.orderItems = db.orderItems := by
  obtain ⟨_, _, _, _, rfl⟩ := h
  rfl

lemma Advance.capacityUnits (h : Advance db db' orderId seq event change) :
    db'.capacityUnits = db.capacityUnits := by
  obtain ⟨_, _, _, _, rfl⟩ := h
  rfl

lemma Advance.tickets (h : Advance db db' orderId seq event change) : db'.tickets = db.tickets := by
  obtain ⟨_, _, _, _, rfl⟩ := h
  rfl

lemma Advance.passengers (h : Advance db db' orderId seq event change) : db'.passengers = db.passengers := by
  obtain ⟨_, _, _, _, rfl⟩ := h
  rfl

lemma Advance.trips (h : Advance db db' orderId seq event change) : db'.trips = db.trips := by
  obtain ⟨_, _, _, _, rfl⟩ := h
  rfl

lemma Advance.events_rows (h : Advance db db' orderId seq event change) :
    db'.events.rows = db.events.rows ++ [⟨db.nextSequence, orderId, seq, event.asStr⟩] := by
  obtain ⟨_, _, he, _, rfl⟩ := h
  exact he

lemma Advance.outbox_rows (h : Advance db db' orderId seq event change) :
    db'.outbox.rows = db.outbox.rows ++ [⟨db.nextOutboxId, db.nextSequence⟩] := by
  obtain ⟨_, _, _, ho, rfl⟩ := h
  exact ho

lemma Advance.find?_orders (h : Advance db db' orderId seq event change) (k : Uuid) :
    db'.orders.find? k = if k = orderId then (db.orders.find? k).map change.set else db.orders.find? k := by
  rw [h.orders, Lib.Table.find?_update]
  cases hf : db.orders.find? k with
  | none => simp
  | some r =>
    have hid : r.id = k := Lib.Table.find?_key hf
    by_cases hk : k = orderId
    · simp [hid, hk]
    · simp [hid, hk]

end Projections

/-- The three ways a lifecycle step ends. -/
lemma applyEventLocked_eq_ok {current : Option OrderStatus} {seq : Nat} {orderId : Uuid}
    {event : OrderEventType} {outcome : TransitionOutcome}
    (h : db.applyEventLocked current seq orderId event = .ok (outcome, db')) :
    (current = none ∧ outcome = .notFound ∧ db' = db) ∨
    (∃ cur e, current = some cur ∧ apply (some cur) event = .error e ∧ outcome = .noOp cur ∧ db' = db) ∨
    (∃ cur next, current = some cur ∧ apply (some cur) event = .ok next ∧ outcome = .applied next ∧
      Advance db db' orderId seq event ⟨fun r => { r with status := next }, fun _ => rfl⟩) := by
  unfold applyEventLocked at h
  cases current with
  | none =>
    cases h
    exact .inl ⟨rfl, rfl, rfl⟩
  | some cur =>
    simp only at h
    cases ha : apply (some cur) event with
    | error e =>
      rw [ha] at h
      cases h
      exact .inr (.inl ⟨cur, e, rfl, ha, rfl, rfl⟩)
    | ok next =>
      rw [ha] at h
      obtain ⟨db₁, happ, h⟩ := bind_eq_ok.mp h
      cases h
      obtain ⟨events, outbox, he, ho, rfl⟩ := append_eq_ok happ
      exact .inr (.inr ⟨cur, next, rfl, ha, rfl, events, outbox, he, ho, rfl⟩)

end Transitions

section Issuing

variable {db db' : Db} {orderId : Uuid} {signer : TicketSigner}

lemma issueTicket_eq_ok {line : TicketLine} {ticketId passengerId : Uuid} {pax : String} {ticket : IssuedTicket}
    (h : db.issueTicket orderId signer line ticketId passengerId pax = .ok (ticket, db')) :
    ticket = ⟨ticketId, passengerId, pax, line.item.unitCode, .issued,
      ⟨claimsFor signer line ticketId pax, signer.key⟩⟩ ∧
    ∃ tickets, db.tickets.insert (ticketRow orderId signer line ticketId passengerId pax) = some tickets ∧
      db' = { db with tickets := tickets } := by
  obtain ⟨db₁, h₁, hr⟩ := bind_eq_ok.mp h
  cases hr
  exact ⟨rfl, insertTicket_eq_ok h₁⟩

/-- The seat tickets, in the order of their lines. -/
lemma issueSeats_eq_ok {lines : List (Uuid × TicketLine × PassengerRow)} {tickets : List IssuedTicket}
    (h : issueSeats orderId signer lines db = .ok (tickets, db')) :
    ∃ t : Lib.Table TicketRow.id, t.rows = db.tickets.rows ++ lines.map (fun l =>
        ticketRow orderId signer l.2.1 l.1 l.2.2.id l.2.2.fullName) ∧
      tickets = lines.map (fun l => ⟨l.1, l.2.2.id, l.2.2.fullName, l.2.1.item.unitCode, .issued,
        ⟨claimsFor signer l.2.1 l.1 l.2.2.fullName, signer.key⟩⟩) ∧
      db' = { db with tickets := t } := by
  induction lines generalizing db tickets with
  | nil =>
    cases h
    exact ⟨db'.tickets, by simp, rfl, rfl⟩
  | cons l rest ih =>
    obtain ⟨⟨ticket, db₁⟩, h₁, hr⟩ := bind_eq_ok.mp h
    obtain ⟨⟨tickets', db₂⟩, h₂, hr⟩ := bind_eq_ok.mp hr
    cases hr
    obtain ⟨rfl, t₁, hins, rfl⟩ := issueTicket_eq_ok h₁
    obtain ⟨t₂, hrows, htick, rfl⟩ := ih h₂
    refine ⟨t₂, ?_, by rw [htick, List.map_cons], rfl⟩
    rw [hrows, (Lib.Table.insert_eq_some.mp hins).2, List.map_cons, List.append_assoc]
    rfl

/-- The admission tickets, each with a bearer passenger that did not exist before. -/
lemma issueAdmissions_eq_ok {now : Timestamp} {lines : List ((Uuid × Uuid) × TicketLine)}
    {tickets : List IssuedTicket} (h : issueAdmissions orderId signer now lines db = .ok (tickets, db')) :
    ∃ (p : Lib.Table PassengerRow.id) (t : Lib.Table TicketRow.id),
      p.rows = db.passengers.rows ++ lines.map (fun l =>
        ⟨l.1.1, orderId, humanize l.2.item.unitCode, .adult, none, now⟩) ∧
      t.rows = db.tickets.rows ++ lines.map (fun l =>
        ticketRow orderId signer l.2 l.1.2 l.1.1 (humanize l.2.item.unitCode)) ∧
      tickets = lines.map (fun l => ⟨l.1.2, l.1.1, humanize l.2.item.unitCode, l.2.item.unitCode, .issued,
        ⟨claimsFor signer l.2 l.1.2 (humanize l.2.item.unitCode), signer.key⟩⟩) ∧
      db' = { db with passengers := p, tickets := t } := by
  induction lines generalizing db tickets with
  | nil =>
    cases h
    exact ⟨db'.passengers, db'.tickets, by simp, by simp, rfl, rfl⟩
  | cons l rest ih =>
    obtain ⟨db₀, h₀, hr⟩ := bind_eq_ok.mp h
    obtain ⟨⟨ticket, db₁⟩, h₁, hr⟩ := bind_eq_ok.mp hr
    obtain ⟨⟨tickets', db₂⟩, h₂, hr⟩ := bind_eq_ok.mp hr
    cases hr
    obtain ⟨p₀, hp₀, rfl⟩ := insertPassenger_eq_ok h₀
    obtain ⟨rfl, t₁, hins, rfl⟩ := issueTicket_eq_ok h₁
    obtain ⟨p₂, t₂, hp, ht, htick, rfl⟩ := ih h₂
    refine ⟨p₂, t₂, ?_, ?_, by rw [htick, List.map_cons], rfl⟩
    · rw [hp, (Lib.Table.insert_eq_some.mp hp₀).2, List.map_cons, List.append_assoc]
      rfl
    · rw [ht, (Lib.Table.insert_eq_some.mp hins).2, List.map_cons, List.append_assoc]
      rfl

end Issuing

end Lulan.Proofs
