import Lulan.Proofs.Statements

/-!
# What a transaction can do

`Effect` lists the ways the database changes; `run_effect` shows that every transaction is
one of them. The invariants of orders, inventory, events and tickets are proved from it.
-/

namespace Lulan.Proofs

open Lulan Lulan.Db

/-- Agreement on everything the invariants speak of. -/
structure Frame (db db' : Db) : Prop where
  orders : db'.orders = db.orders
  passengers : db'.passengers = db.passengers
  orderItems : db'.orderItems = db.orderItems
  seatOccupancy : db'.seatOccupancy = db.seatOccupancy
  poolOccupancy : db'.poolOccupancy = db.poolOccupancy
  capacityUnits : db'.capacityUnits = db.capacityUnits
  trips : ∀ k, (db'.trips.find? k).isSome = (db.trips.find? k).isSome
  events : db'.events = db.events
  nextSequence : db'.nextSequence = db.nextSequence
  outbox : db'.outbox = db.outbox
  nextOutboxId : db'.nextOutboxId = db.nextOutboxId
  tickets : db'.tickets = db.tickets

lemma Frame.refl (db : Db) : Frame db db := ⟨rfl, rfl, rfl, rfl, rfl, rfl, fun _ => rfl, rfl, rfl, rfl, rfl, rfl⟩

/-- A booking that committed. -/
structure Booked (ids : BookingIds) (now expiresAt : Timestamp) (o : NewOrder) (wired : List WiredItem)
    (record : OrderRecord) (db db' : Db) : Prop where
  step : ∃ orders passengers orderAncillaries events outbox records db₁,
    db.orders.insert (newOrderRow ids.orderId o expiresAt) = some orders ∧
    passengers.rows = db.passengers.rows ++ records.map (fun p : PassengerRecord =>
      ⟨p.id, ids.orderId, p.fullName, p.passengerType, p.birthdate, now⟩) ∧
    records.length = o.passengers.length ∧
    record = recordOf ids.orderId o expiresAt records wired ∧
    claimItems ids.orderId records wired { db with orders := orders, passengers := passengers } = .ok db₁ ∧
    events.rows = db.events.rows ++
      [⟨db.nextSequence, ids.orderId, db.maxStreamSeq ids.orderId + 1, OrderEventType.orderCreated.asStr⟩,
        ⟨db.nextSequence + 1, ids.orderId, db.maxStreamSeq ids.orderId + 2,
          OrderEventType.inventoryLocked.asStr⟩] ∧
    outbox.rows = db.outbox.rows ++
      [⟨db.nextOutboxId, db.nextSequence⟩, ⟨db.nextOutboxId + 1, db.nextSequence + 1⟩] ∧
    db' = { db₁ with
      orderAncillaries := orderAncillaries
      events := events
      nextSequence := db.nextSequence + 2
      outbox := outbox
      nextOutboxId := db.nextOutboxId + 2 }

/-- The events a callback stands for. -/
def paymentEvent (succeeded : Bool) : OrderEventType := if succeeded then .paymentCaptured else .paymentFailed

/-- Transactions that win: those whose result says the database moved. -/
def wins : Tx → TxResult → Bool
  | .createOrder .., .created _ => true
  | .claimSeat .., .rows n => n == 1
  | .claimPool .., .rows n => n == 1
  | _, .transition (.applied _) _ => true
  | _, .issued (.issued _) => true
  | _, .scanned o => o.status == "boarded"
  | _, _ => false

/-- The releases a transaction made, with the rows each affected. -/
def releasedBy : TxResult → List (OrderItemRow × Nat)
  | .transition _ released => released
  | _ => []

/-- The order row and stream position a transition read under its lock. -/
structure LockedAt (db : Db) (orderId : Uuid) (cur : OrderStatus) (seq : Nat) : Prop where
  current : db.lockOrder orderId = some cur
  seq : seq = db.maxStreamSeq orderId + 1

/-- The tickets an issue call wrote, and what it returned for them. -/
structure IssuedInto (now : Timestamp) (fresh : Nat → Uuid) (signer : TicketSigner) (orderId : Uuid)
    (tickets : List IssuedTicket) (db db' : Db) : Prop where
  step : ∃ db₁ seats admitted,
    issueSeats orderId signer ((db.seatLines orderId).mapIdx (fun i line => (fresh (3 * i), line))) db =
      .ok (seats, db₁) ∧
    issueAdmissions orderId signer now ((db₁.admissions orderId).mapIdx
      (fun i line => ((fresh (3 * i + 1), fresh (3 * i + 2)), line))) db₁ = .ok (admitted, db') ∧
    tickets = seats ++ admitted

/-- The trips stay as they are, unless one of them is cancelled. -/
def Schedule (db : Db) (t : Tx) (res : TxResult) (db' : Db) : Prop :=
  db'.trips = db.trips ∨
    ∃ tripId, t = .cancelTrip tripId ∧ res = .rows (db.cancelTrip tripId).1 ∧ db' = (db.cancelTrip tripId).2

/-- Every way a transaction can change the database. -/
inductive Effect (w : Oracle) (now : Timestamp) (db : Db) : Tx → TxResult → Db → Prop where
  | quiet {t res db'} (frame : Frame db db') (hw : wins t res = false) (hr : releasedBy res = [])
      (hs : Schedule db t res db') : Effect w now db t res db'
  | booked {o wired expiresAt record db'} (h : Booked w.bookingIds now expiresAt o wired record db db') :
      Effect w now db (.createOrder o wired expiresAt) (.created record) db'
  | seatSold {tripId unitId span} (h : (db.claimSeatExec tripId unitId span).1 = 1) :
      Effect w now db (.claimSeat tripId unitId span) (.rows 1) (db.claimSeatExec tripId unitId span).2
  | poolSold {tripId unitId span qty} (h : (db.claimPoolExec tripId unitId span qty).1 = 1) :
      Effect w now db (.claimPool tripId unitId span qty) (.rows 1) (db.claimPoolExec tripId unitId span qty).2
  | requested {orderId intent seq db'} (hl : LockedAt db orderId .locked seq)
      (h : Advance db db' orderId seq .paymentRequested
        ⟨fun r => { r with status := .pendingPayment, paymentIntentId := some intent }, fun _ => rfl⟩) :
      Effect w now db (.requestPayment orderId intent) (.transition (.applied .pendingPayment) []) db'
  | captured {orderId seq db'} (hl : LockedAt db orderId .pendingPayment seq)
      (h : Advance db db' orderId seq .paymentCaptured ⟨fun r => { r with status := .paid, expiresAt := none }, fun _ => rfl⟩) :
      Effect w now db (.paymentResult orderId true) (.transition (.applied .paid) []) db'
  | declined {orderId seq db'} (hl : LockedAt db orderId .pendingPayment seq)
      (h : Advance db db' orderId seq .paymentFailed ⟨fun r => { r with status := .locked }, fun _ => rfl⟩) :
      Effect w now db (.paymentResult orderId false) (.transition (.applied .locked) []) db'
  | exited {t event orderId cur next seq mid} (ht : (t = .cancel orderId ∧ event = .orderCancelled) ∨
        (t = .expire orderId ∧ event = .orderExpired))
      (hl : LockedAt db orderId cur seq) (ha : apply (some cur) event = .ok next)
      (h : Advance db mid orderId seq event ⟨fun r => { r with status := next }, fun _ => rfl⟩) :
      Effect w now db t (.transition (.applied next) (mid.releaseOrderItems orderId).1)
        (mid.releaseOrderItems orderId).2
  | refunded {orderId cur seq mid} (hl : LockedAt db orderId cur seq)
      (ha : apply (some cur) .orderRefunded = .ok .refunded)
      (h : Advance db mid orderId seq .orderRefunded ⟨fun r => { r with status := .refunded }, fun _ => rfl⟩) :
      Effect w now db (.refund orderId) (.transition (.applied .refunded) (mid.releaseOrderItems orderId).1)
        ((mid.releaseOrderItems orderId).2.voidTickets orderId)
  | issued {orderId signer seq mid db' tickets} (hl : LockedAt db orderId .paid seq)
      (hi : IssuedInto now w.fresh signer orderId tickets db mid)
      (h : Advance mid db' orderId seq .ticketIssued ⟨fun r => { r with status := .ticketed }, fun _ => rfl⟩) :
      Effect w now db (.issueForOrder orderId signer) (.issued (.issued tickets)) db'
  | boarded {ticketId deviceId scannedAt result ticket scanEvents} (ht : db.tickets.find? ticketId = some ticket)
      (hs : ticket.status = .issued) :
      Effect w now db (.recordScan ticketId deviceId scannedAt result)
        (.scanned ⟨ticketId, "boarded", none⟩)
        ({ db with scanEvents := scanEvents }.boardTicket ticketId scannedAt)
  | lastBoarded {ticketId deviceId scannedAt result ticket scanEvents seq db'}
      (ht : db.tickets.find? ticketId = some ticket) (hs : ticket.status = .issued)
      (hl : LockedAt db ticket.orderId .ticketed seq)
      (hall : ({ db with scanEvents := scanEvents }.boardTicket ticketId scannedAt).unboarded ticket.orderId = 0)
      (h : Advance ({ db with scanEvents := scanEvents }.boardTicket ticketId scannedAt) db' ticket.orderId seq
        .passengerBoarded ⟨fun r => { r with status := .boarded }, fun _ => rfl⟩) :
      Effect w now db (.recordScan ticketId deviceId scannedAt result)
        (.scanned ⟨ticketId, "boarded", some OrderStatus.boarded.asStr⟩) db'

lemma lockOrder_congr {db db' : Db} (h : db'.orders = db.orders) (orderId : Uuid) :
    db'.lockOrder orderId = db.lockOrder orderId := by
  rw [lockOrder, lockOrder, h]

lemma Booked.orders {ids : BookingIds} {now expiresAt : Timestamp} {o : NewOrder} {wired : List WiredItem}
    {record : OrderRecord} {db db' : Db} (h : Booked ids now expiresAt o wired record db db') :
    db.orders.insert (newOrderRow ids.orderId o expiresAt) = some db'.orders := by
  obtain ⟨orders, passengers, _, _, _, records, db₁, hord, -, -, -, hclaims, -, -, rfl⟩ := h
  obtain ⟨-, hframe⟩ := claimItems_frame hclaims
  rw [hframe]
  exact hord

lemma Booked.tickets {ids : BookingIds} {now expiresAt : Timestamp} {o : NewOrder} {wired : List WiredItem}
    {record : OrderRecord} {db db' : Db} (h : Booked ids now expiresAt o wired record db db') :
    db'.tickets = db.tickets := by
  obtain ⟨orders, passengers, _, _, _, records, db₁, -, -, -, -, hclaims, -, -, rfl⟩ := h
  obtain ⟨-, hframe⟩ := claimItems_frame hclaims
  rw [hframe]

/-- A booking adds one Locked order under a fresh id. -/
lemma Booked.lockOrder {ids : BookingIds} {now expiresAt : Timestamp} {o : NewOrder} {wired : List WiredItem}
    {record : OrderRecord} {db db' : Db} (h : Booked ids now expiresAt o wired record db db') :
    db.lockOrder ids.orderId = none ∧
      ∀ k, db'.lockOrder k = if ids.orderId = k then some .locked else db.lockOrder k := by
  have hnone : db.orders.find? ids.orderId = none := (Lib.Table.insert_eq_some.mp h.orders).1
  refine ⟨by rw [Db.lockOrder, hnone]; rfl, fun k => ?_⟩
  have hfind : db'.orders.find? k =
      if ids.orderId = k then some (newOrderRow ids.orderId o expiresAt) else db.orders.find? k :=
    Lib.Table.find?_insert h.orders k
  rw [Db.lockOrder, Db.lockOrder, hfind]
  split <;> rfl

/-- Issuing writes tickets and bearer passengers only. -/
structure IssueFrame (db db' : Db) : Prop where
  orders : db'.orders = db.orders
  orderItems : db'.orderItems = db.orderItems
  seatOccupancy : db'.seatOccupancy = db.seatOccupancy
  poolOccupancy : db'.poolOccupancy = db.poolOccupancy
  capacityUnits : db'.capacityUnits = db.capacityUnits
  trips : db'.trips = db.trips
  events : db'.events = db.events
  nextSequence : db'.nextSequence = db.nextSequence
  outbox : db'.outbox = db.outbox
  nextOutboxId : db'.nextOutboxId = db.nextOutboxId

lemma IssuedInto.frame {now : Timestamp} {fresh : Nat → Uuid} {signer : TicketSigner} {orderId : Uuid}
    {tickets : List IssuedTicket} {db db' : Db} (h : IssuedInto now fresh signer orderId tickets db db') :
    IssueFrame db db' := by
  obtain ⟨db₁, seats, admitted, h₁, h₂, -⟩ := h
  obtain ⟨_, -, -, rfl⟩ := issueSeats_eq_ok h₁
  obtain ⟨_, _, -, -, -, rfl⟩ := issueAdmissions_eq_ok h₂
  exact ⟨rfl, rfl, rfl, rfl, rfl, rfl, rfl, rfl, rfl, rfl⟩

lemma update_trips_isSome (t : Lib.Table TripRow.id) (p : TripRow → Bool) (f : Lib.Assign TripRow.id)
    (k : Uuid) : ((t.update p f).find? k).isSome = (t.find? k).isSome := by
  rw [Lib.Table.find?_update, Option.isSome_map]

/-- A guarded update by primary key that affects no row changes nothing. -/
lemma update_of_affected_zero {α κ : Type} {key : α → κ} (t : Lib.Table key) (p : α → Bool) (f : Lib.Assign key)
    (h : t.affected p = 0) : t.update p f = t := by
  refine Lib.Table.update_false t p f (fun r hr => ?_)
  have hp := List.countP_eq_zero.mp h r hr
  simpa using hp

/-- A guarded update by primary key affects at most one row. -/
lemma affected_le_one {α κ : Type} {key : α → κ} [DecidableEq κ] (t : Lib.Table key) (p : α → Bool) (k : κ)
    (hp : ∀ r, p r = true → key r = k) : t.affected p ≤ 1 := by
  rw [Lib.Table.affected_of_key hp]
  split
  · split <;> omega
  · omega

lemma seatFree_key {tripId unitId : Uuid} {span : SegmentSpan} {r : SeatOccupancyRow}
    (h : seatFree tripId unitId span r = true) : r.key = (tripId, unitId) := by
  simp only [seatFree, Bool.and_eq_true, decide_eq_true_eq] at h
  exact h.1

lemma poolHas_key {tripId unitId : Uuid} {span : SegmentSpan} {qty : Int} {r : PoolOccupancyRow}
    (h : poolHas tripId unitId span qty r = true) : r.key = (tripId, unitId) := by
  simp only [poolHas, Bool.and_eq_true, decide_eq_true_eq] at h
  exact h.1

lemma claimSeat_effect (w : Oracle) (now : Timestamp) (db : Db) (tripId unitId : Uuid) (span : SegmentSpan) :
    Effect w now db (.claimSeat tripId unitId span) (.rows (db.claimSeatExec tripId unitId span).1)
      (db.claimSeatExec tripId unitId span).2 := by
  by_cases h : (db.claimSeatExec tripId unitId span).1 = 1
  · rw [h]
    exact .seatSold h
  · have hle := affected_le_one db.seatOccupancy (seatFree tripId unitId span) (tripId, unitId)
      (fun r hr => seatFree_key hr)
    have hz : db.seatOccupancy.affected (seatFree tripId unitId span) = 0 := by
      have hne : db.seatOccupancy.affected (seatFree tripId unitId span) ≠ 1 := h
      omega
    refine .quiet ?_ (by simp [wins, h]) rfl (.inl rfl)
    exact { Frame.refl db with seatOccupancy := update_of_affected_zero _ _ _ hz }

lemma claimPool_effect (w : Oracle) (now : Timestamp) (db : Db) (tripId unitId : Uuid) (span : SegmentSpan)
    (qty : Int) :
    Effect w now db (.claimPool tripId unitId span qty) (.rows (db.claimPoolExec tripId unitId span qty).1)
      (db.claimPoolExec tripId unitId span qty).2 := by
  by_cases h : (db.claimPoolExec tripId unitId span qty).1 = 1
  · rw [h]
    exact .poolSold h
  · have hle := affected_le_one db.poolOccupancy (poolHas tripId unitId span qty) (tripId, unitId)
      (fun r hr => poolHas_key hr)
    have hz : db.poolOccupancy.affected (poolHas tripId unitId span qty) = 0 := by
      have hne : db.poolOccupancy.affected (poolHas tripId unitId span qty) ≠ 1 := h
      omega
    refine .quiet ?_ (by simp [wins, h]) rfl (.inl rfl)
    exact { Frame.refl db with poolOccupancy := update_of_affected_zero _ _ _ hz }

/-- The position after the first event of a booking. -/
lemma maxStreamSeq_append_self {db db' : Db} {streamId seq : Nat} {eventType : String}
    (h : db.append streamId seq eventType = .ok db') :
    db'.maxStreamSeq streamId = max (db.maxStreamSeq streamId) seq := by
  obtain ⟨events, outbox, he, -, rfl⟩ := append_eq_ok h
  have hmax : ∀ (l : List Nat) (b : Nat), l.foldr max b = max (l.foldr max 0) b := by
    intro l b
    induction l with
    | nil => simp
    | cons a l ih =>
      simp only [List.foldr_cons, ih]
      omega
  unfold maxStreamSeq Lib.Table.select
  simp only [he, List.filter_append, List.map_append, List.foldr_append]
  rw [hmax]
  congr 1
  simp

lemma createOrder_booked {ids : BookingIds} {now expiresAt : Timestamp} {o : NewOrder}
    {wired : List WiredItem} {record : OrderRecord} {db db' : Db}
    (h : db.createOrder ids now expiresAt o wired = .ok (record, db')) :
    Booked ids now expiresAt o wired record db db' := by
  unfold createOrder at h
  obtain ⟨db₁, h₁, h⟩ := bind_eq_ok.mp h
  obtain ⟨⟨records, db₂⟩, h₂, h⟩ := bind_eq_ok.mp h
  obtain ⟨db₃, h₃, h⟩ := bind_eq_ok.mp h
  obtain ⟨db₄, h₄, h⟩ := bind_eq_ok.mp h
  obtain ⟨db₅, h₅, h⟩ := bind_eq_ok.mp h
  obtain ⟨db₆, h₆, h⟩ := bind_eq_ok.mp h
  cases h
  obtain ⟨orders, hord, rfl⟩ := insertOrder_eq_ok (liftDb_eq_ok.mp h₁)
  obtain ⟨hrec, passengers, hpas, rfl⟩ := insertPassengers_eq_ok (liftDb_eq_ok.mp h₂)
  have hlen : records.length = o.passengers.length := by simp [hrec]
  obtain ⟨-, hframe⟩ := claimItems_frame h₃
  obtain ⟨orderAncillaries, -, rfl⟩ := insertAncillaries_eq_ok (liftDb_eq_ok.mp h₄)
  have hm := maxStreamSeq_append_self (liftDb_eq_ok.mp h₅)
  obtain ⟨ev₁, ob₁, he₁, ho₁, rfl⟩ := append_eq_ok (liftDb_eq_ok.mp h₅)
  obtain ⟨ev₂, ob₂, he₂, ho₂, rfl⟩ := append_eq_ok (liftDb_eq_ok.mp h₆)
  have hbase : db₃.maxStreamSeq ids.orderId = db.maxStreamSeq ids.orderId := by
    rw [hframe]
    rfl
  have hseq : (Db.maxStreamSeq { db₃ with orderAncillaries := orderAncillaries } ids.orderId) =
      db.maxStreamSeq ids.orderId := hbase
  rw [hm, hseq] at he₂
  rw [hseq] at he₁
  have hns : db₃.nextSequence = db.nextSequence := by rw [hframe]
  have hno : db₃.nextOutboxId = db.nextOutboxId := by rw [hframe]
  have hev : db₃.events = db.events := by rw [hframe]
  have hob : db₃.outbox = db.outbox := by rw [hframe]
  refine ⟨orders, passengers, orderAncillaries, ev₂, ob₂, records, db₃, hord, hpas, hlen, rfl, h₃, ?_, ?_, ?_⟩
  · rw [he₂, he₁]
    simp only [hev, hns, List.append_assoc, List.cons_append, List.nil_append]
    have : max (db.maxStreamSeq ids.orderId) (db.maxStreamSeq ids.orderId + 1) + 1 =
        db.maxStreamSeq ids.orderId + 2 := by omega
    rw [this]
  · rw [ho₂, ho₁]
    simp only [hob, hno, hns, List.append_assoc, List.cons_append, List.nil_append]
  · simp only [hns, hno]

section Transitions

variable {db db' : Db} {orderId : Uuid} {w : Oracle} {now : Timestamp}

/-- The effect of a step whose outcome is not `applied`. -/
lemma unapplied_effect {t : Tx} {outcome : TransitionOutcome} (ho : ∀ s, outcome ≠ .applied s) :
    Effect w now db t (.transition outcome []) db := by
  refine .quiet (Frame.refl db) ?_ rfl (.inl rfl)
  cases outcome with
  | applied s => exact absurd rfl (ho s)
  | noOp s => cases t <;> rfl
  | notFound => cases t <;> rfl

lemma lockedAt {cur : OrderStatus} (h : (db.lockRead orderId).current = some cur) :
    LockedAt db orderId cur (db.lockRead orderId).seq := ⟨h, rfl⟩

lemma requestPayment_effect {intent : String} {outcome : TransitionOutcome}
    (h : db.requestPayment (db.lockRead orderId).current (db.lockRead orderId).seq orderId intent =
      .ok (outcome, db')) :
    Effect w now db (.requestPayment orderId intent) (.transition outcome []) db' := by
  obtain ⟨⟨o, db₁⟩, h₁, hr⟩ := bind_eq_ok.mp h
  clear h
  rcases applyEventLocked_eq_ok h₁ with ⟨-, rfl, rfl⟩ | ⟨cur, e, -, -, rfl, rfl⟩ | ⟨cur, next, hc, ha, rfl, hadv⟩
  · cases hr
    exact unapplied_effect (by simp)
  · cases hr
    exact unapplied_effect (by simp)
  · simp only at hr
    split at hr
    · cases hr
    · cases hr
      rcases apply_cases ha with h | h | h | h | h | h | h | h | h | h <;> obtain ⟨hcur, hev, hnext⟩ := h <;>
        cases hev
      subst hcur hnext
      exact .requested (lockedAt hc) (hadv.updateOrder _)

lemma applyPaymentResult_effect {succeeded : Bool} {outcome : TransitionOutcome}
    (h : db.applyPaymentResult (db.lockRead orderId).current (db.lockRead orderId).seq orderId succeeded =
      .ok (outcome, db')) :
    Effect w now db (.paymentResult orderId succeeded) (.transition outcome []) db' := by
  obtain ⟨⟨o, db₁⟩, h₁, hr⟩ := bind_eq_ok.mp h
  clear h
  rcases applyEventLocked_eq_ok h₁ with ⟨-, rfl, rfl⟩ | ⟨cur, e, -, -, rfl, rfl⟩ | ⟨cur, next, hc, ha, rfl, hadv⟩
  · cases hr
    exact unapplied_effect (by simp)
  · cases hr
    exact unapplied_effect (by simp)
  · cases succeeded with
    | true =>
      rcases apply_cases ha with h' | h' | h' | h' | h' | h' | h' | h' | h' | h' <;>
        obtain ⟨hcur, hev, hnext⟩ := h' <;> cases hev
      subst hcur hnext
      cases hr
      exact .captured (lockedAt hc) (hadv.updateOrder _)
    | false =>
      rcases apply_cases ha with h' | h' | h' | h' | h' | h' | h' | h' | h' | h' <;>
        obtain ⟨hcur, hev, hnext⟩ := h' <;> cases hev
      subst hcur hnext
      cases hr
      exact .declined (lockedAt hc) hadv

lemma exitOrder_effect {t : Tx} {event : OrderEventType} {outcome : TransitionOutcome}
    {released : List (OrderItemRow × Nat)}
    (ht : (t = .cancel orderId ∧ event = .orderCancelled) ∨ (t = .expire orderId ∧ event = .orderExpired))
    (h : db.exitOrder (db.lockRead orderId).current (db.lockRead orderId).seq orderId event =
      .ok (outcome, released, db')) :
    Effect w now db t (.transition outcome released) db' := by
  obtain ⟨⟨o, db₁⟩, h₁, hr⟩ := bind_eq_ok.mp h
  clear h
  rcases applyEventLocked_eq_ok h₁ with ⟨-, rfl, rfl⟩ | ⟨cur, e, -, -, rfl, rfl⟩ | ⟨cur, next, hc, ha, rfl, hadv⟩
  · cases hr
    exact unapplied_effect (by simp)
  · cases hr
    exact unapplied_effect (by simp)
  · cases hr
    exact .exited ht (lockedAt hc) ha hadv

lemma refund_effect {outcome : TransitionOutcome} {released : List (OrderItemRow × Nat)}
    (h : db.refund (db.lockRead orderId).current (db.lockRead orderId).seq orderId =
      .ok (outcome, released, db')) :
    Effect w now db (.refund orderId) (.transition outcome released) db' := by
  obtain ⟨⟨o, db₁⟩, h₁, hr⟩ := bind_eq_ok.mp h
  clear h
  rcases applyEventLocked_eq_ok h₁ with ⟨-, rfl, rfl⟩ | ⟨cur, e, -, -, rfl, rfl⟩ | ⟨cur, next, hc, ha, rfl, hadv⟩
  · cases hr
    exact unapplied_effect (by simp)
  · cases hr
    exact unapplied_effect (by simp)
  · cases hr
    have hnext : next = .refunded := by
      rcases apply_cases ha with h' | h' | h' | h' | h' | h' | h' | h' | h' | h' <;>
        obtain ⟨-, hev, hnext⟩ := h' <;> cases hev
      exact hnext
    subst hnext
    exact .refunded (lockedAt hc) ha hadv

lemma issueForOrder_effect {signer : TicketSigner} {outcome : IssueOutcome}
    (h : db.issueForOrder (db.lockRead orderId).current (db.lockRead orderId).seq orderId signer now w.fresh =
      .ok (outcome, db')) :
    Effect w now db (.issueForOrder orderId signer) (.issued outcome) db' := by
  cases hc : (db.lockRead orderId).current with
  | none =>
    rw [hc] at h
    cases h
    exact .quiet (Frame.refl _) rfl rfl (.inl rfl)
  | some status =>
    rw [hc] at h
    simp only [issueForOrder] at h
    split at h
    · cases h
      exact .quiet (Frame.refl _) rfl rfl (.inl rfl)
    · split at h
      · cases h
        exact .quiet (Frame.refl _) rfl rfl (.inl rfl)
      · rename_i hpaid
        rw [not_not] at hpaid
        subst hpaid
        simp only [apply] at h
        obtain ⟨⟨seats, db₁⟩, h₁, h⟩ := bind_eq_ok.mp h
        obtain ⟨⟨admitted, db₂⟩, h₂, h⟩ := bind_eq_ok.mp h
        obtain ⟨db₃, h₃, h⟩ := bind_eq_ok.mp h
        cases h
        obtain ⟨events, outbox, he, ho, rfl⟩ := append_eq_ok h₃
        exact .issued (lockedAt hc) ⟨db₁, seats, admitted, h₁, h₂, rfl⟩
          ⟨events, outbox, he, ho, rfl⟩

lemma recordScan_effect {ticketId : Uuid} {deviceId : String} {scannedAt : Timestamp} {result : String}
    {outcome : ScanOutcome} (h : db.recordScan w.lag ticketId deviceId scannedAt result = .ok (outcome, db')) :
    Effect w now db (.recordScan ticketId deviceId scannedAt result) (.scanned outcome) db' := by
  unfold recordScan at h
  split at h
  · cases h
    exact .quiet (Frame.refl _) rfl rfl (.inl rfl)
  · rename_i ticket ht
    split at h
    · cases h
      exact .quiet (Frame.refl _) rfl rfl (.inl rfl)
    · rename_i scanEvents _
      split at h
      · cases h
        exact .quiet { Frame.refl db with } rfl rfl (.inl rfl)
      · cases h
        exact .quiet { Frame.refl db with } rfl rfl (.inl rfl)
      · rename_i hs
        simp only at h
        split at h
        · rename_i hall
          obtain ⟨⟨orderStatus, db₁⟩, h₁, h⟩ := bind_eq_ok.mp h
          cases h
          unfold boardOrder at h₁
          split at h₁
          · cases h₁
          · rename_i cur hcur
            split at h₁
            · cases h₁
              exact .boarded ht hs
            · rename_i next ha
              obtain ⟨db₂, h₂, h₁⟩ := bind_eq_ok.mp h₁
              cases h₁
              rcases apply_cases ha with h' | h' | h' | h' | h' | h' | h' | h' | h' | h' <;>
                obtain ⟨hc, hev, hnext⟩ := h' <;> cases hev
              subst hc hnext
              obtain ⟨events, outbox, he, ho, rfl⟩ := append_eq_ok h₂
              exact .lastBoarded ht hs ⟨hcur, rfl⟩ (by omega) ⟨events, outbox, he, ho, rfl⟩
        · cases h
          exact .boarded ht hs

end Transitions

/-- Every transaction has one of the listed effects, and none touches the clock. -/
theorem run_effect (t : Tx) (w : Oracle) (s : World) :
    Effect w s.now s.db t (t.run w s).1 (t.run w s).2.db ∧ (t.run w s).2.now = s.now := by
  have hfail : ∀ e, Effect w s.now s.db t (.failed e) s.db :=
    fun e => .quiet (Frame.refl _) (by cases t <;> rfl) rfl (.inl rfl)
  unfold Tx.run
  cases hf : w.fail with
  | some e => exact ⟨hfail e, rfl⟩
  | none =>
    cases t with
    | createOrder o wired expiresAt =>
      simp only [Tx.body]
      cases h : s.db.createOrder w.bookingIds s.now expiresAt o wired with
      | ok r => exact ⟨.booked (createOrder_booked h), rfl⟩
      | error a =>
        cases a with
        | conflict unitCode => exact ⟨.quiet (Frame.refl _) rfl rfl (.inl rfl), rfl⟩
        | db e => exact ⟨hfail e, rfl⟩
    | requestPayment orderId intent =>
      simp only [Tx.body, Tx.reads, Tx.locks]
      cases h : s.db.requestPayment _ _ orderId intent with
      | ok r => exact ⟨requestPayment_effect h, rfl⟩
      | error e => exact ⟨hfail e, rfl⟩
    | paymentResult orderId succeeded =>
      simp only [Tx.body, Tx.reads, Tx.locks]
      cases h : s.db.applyPaymentResult _ _ orderId succeeded with
      | ok r => exact ⟨applyPaymentResult_effect h, rfl⟩
      | error e => exact ⟨hfail e, rfl⟩
    | cancel orderId =>
      simp only [Tx.body, Tx.reads, Tx.locks]
      cases h : s.db.cancel _ _ orderId with
      | ok r => exact ⟨exitOrder_effect (.inl ⟨rfl, rfl⟩) h, rfl⟩
      | error e => exact ⟨hfail e, rfl⟩
    | expire orderId =>
      simp only [Tx.body, Tx.reads, Tx.locks]
      cases h : s.db.expire _ _ orderId with
      | ok r => exact ⟨exitOrder_effect (.inr ⟨rfl, rfl⟩) h, rfl⟩
      | error e => exact ⟨hfail e, rfl⟩
    | refund orderId =>
      simp only [Tx.body, Tx.reads, Tx.locks]
      cases h : s.db.refund _ _ orderId with
      | ok r => exact ⟨refund_effect h, rfl⟩
      | error e => exact ⟨hfail e, rfl⟩
    | issueForOrder orderId signer =>
      simp only [Tx.body, Tx.reads, Tx.locks]
      cases h : s.db.issueForOrder _ _ orderId signer s.now w.fresh with
      | ok r => exact ⟨issueForOrder_effect h, rfl⟩
      | error e => exact ⟨hfail e, rfl⟩
    | recordScan ticketId deviceId scannedAt result =>
      simp only [Tx.body]
      cases h : s.db.recordScan w.lag ticketId deviceId scannedAt result with
      | ok r => exact ⟨recordScan_effect h, rfl⟩
      | error e => exact ⟨hfail e, rfl⟩
    | claimSeat tripId unitId span => exact ⟨claimSeat_effect w s.now s.db tripId unitId span, rfl⟩
    | claimPool tripId unitId span qty => exact ⟨claimPool_effect w s.now s.db tripId unitId span qty, rfl⟩
    | cancelTrip tripId =>
      refine ⟨.quiet ?_ rfl rfl (.inr ⟨tripId, rfl, rfl, rfl⟩), rfl⟩
      exact { Frame.refl s.db with trips := update_trips_isSome _ _ _ }
    | audit row => exact ⟨.quiet { Frame.refl s.db with } rfl rfl (.inl rfl), rfl⟩
    | upsertCustomer issuer subject email =>
      simp only [Tx.body]
      cases h : s.db.upsertCustomer (w.fresh 0) issuer subject email with
      | error e => exact ⟨hfail e, rfl⟩
      | ok r =>
        have hframe : Frame s.db r.2 ∧ r.2.trips = s.db.trips := by
          unfold upsertCustomer at h
          split at h
          · cases h
            exact ⟨{ Frame.refl s.db with }, rfl⟩
          · obtain ⟨customers, -, h⟩ := bind_eq_ok.mp h
            cases h
            exact ⟨{ Frame.refl s.db with }, rfl⟩
        exact ⟨.quiet hframe.1 rfl rfl (.inl hframe.2), rfl⟩
    | insertKey scope key requestHash =>
      have hframe : Frame s.db (s.db.insertKey s.now scope key requestHash).2 ∧
          (s.db.insertKey s.now scope key requestHash).2.trips = s.db.trips := by
        unfold insertKey
        split <;> exact ⟨{ Frame.refl s.db with }, rfl⟩
      exact ⟨.quiet hframe.1 rfl rfl (.inl hframe.2), rfl⟩
    | selectKey scope key => exact ⟨.quiet (Frame.refl _) rfl rfl (.inl rfl), rfl⟩
    | completeKey scope key orderId statusCode response =>
      exact ⟨.quiet { Frame.refl s.db with } rfl rfl (.inl rfl), rfl⟩
    | deletePendingKey scope key => exact ⟨.quiet { Frame.refl s.db with } rfl rfl (.inl rfl), rfl⟩

lemma run_of_not_failed {t : Tx} {w : Oracle} {s : World} (h : ∀ e, (t.run w s).1 ≠ .failed e) :
    t.run w s = t.body (t.reads s) w s := by
  unfold Tx.run at h ⊢
  cases hf : w.fail with
  | some e =>
    rw [hf] at h
    exact absurd rfl (h e)
  | none => rfl

/-- A body that did not fail returned what its statements returned. -/
lemma settle_eq {α : Type} {s : World} {f : α → TxResult} {r : Except DbError (α × Db)} {res : TxResult}
    (h : (Tx.settle s f r).1 = res) (hne : ∀ e, res ≠ .failed e) : ∃ a db, r = .ok (a, db) ∧ f a = res := by
  cases r with
  | error e => exact absurd h.symm (hne e)
  | ok x => exact ⟨x.1, x.2, rfl, h⟩

end Lulan.Proofs
