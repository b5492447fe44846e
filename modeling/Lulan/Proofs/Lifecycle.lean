import Lulan.Proofs.Histories

/-!
# The lifecycle of an order over whole runs

Each transaction moves at most one order, by one legal event. The stream of an order
therefore replays to its status, and captured money ends in a settled order.
-/

namespace Lulan.Proofs

open Lulan Lulan.Db Lib

/-- The order a transaction moved, and the event it moved it by. -/
def moveOf (db : Db) : Tx → TxResult → Option (Uuid × OrderEventType)
  | .requestPayment orderId _, .transition (.applied _) _ => some (orderId, .paymentRequested)
  | .paymentResult orderId succeeded, .transition (.applied _) _ => some (orderId, paymentEvent succeeded)
  | .cancel orderId, .transition (.applied _) _ => some (orderId, .orderCancelled)
  | .expire orderId, .transition (.applied _) _ => some (orderId, .orderExpired)
  | .refund orderId, .transition (.applied _) _ => some (orderId, .orderRefunded)
  | .issueForOrder orderId _, .issued (.issued _) => some (orderId, .ticketIssued)
  | .recordScan ticketId .., .scanned o =>
    if o.status = "boarded" ∧ o.orderStatus.isSome then
      (db.tickets.find? ticketId).map (fun t => (t.orderId, .passengerBoarded))
    else none
  | _, _ => none

def movedRow (t : Tx) (event : OrderEventType) (next : OrderStatus) (row : OrderRow) : OrderRow :=
  { row with
    status := next
    paymentIntentId := match t with
      | .requestPayment _ intent => some intent
      | _ => row.paymentIntentId
    expiresAt := if event = .paymentCaptured then none else row.expiresAt }

section Moves

variable {db db' : Db} {w : Oracle} {now : Timestamp} {t : Tx} {res : TxResult}

lemma moveOf_of_not_wins (h : wins t res = false) : moveOf db t res = none := by
  unfold moveOf
  split
  case h_7 =>
    refine if_neg (fun hb => ?_)
    simp [wins, hb.1] at h
  case h_8 => rfl
  all_goals cases h

lemma boards_of_moveOf {orderId : Uuid} (h : moveOf db t res = some (orderId, .passengerBoarded)) :
    ∃ ticketId deviceId scannedAt result o, t = .recordScan ticketId deviceId scannedAt result ∧
      res = .scanned o ∧ o.orderStatus.isSome = true ∧
      (db.tickets.find? ticketId).map TicketRow.orderId = some orderId := by
  unfold moveOf at h
  split at h
  case h_2 succeeded _ _ =>
    cases succeeded <;> cases h
  case h_7 ticketId deviceId scannedAt result o =>
    split at h
    · rename_i hb
      obtain ⟨ticket, ht, he⟩ := Option.map_eq_some_iff.mp h
      cases he
      exact ⟨ticketId, deviceId, scannedAt, result, o, rfl, rfl, hb.2, by rw [ht]; rfl⟩
    · cases h
  all_goals cases h

lemma Advance.movedRow {orderId seq : Nat} {event : OrderEventType} {change : Lib.Assign OrderRow.id}
    {cur next : OrderStatus} (h : Advance db db' orderId seq event change) (t : Tx)
    (hl : db.lockOrder orderId = some cur) (happ : apply (some cur) event = .ok next)
    (hc : ∀ r, change.set r = movedRow t event next r) :
    ∃ row next, db.orders.find? orderId = some row ∧ apply (some row.status) event = .ok next ∧
      ∀ k, db'.orders.find? k = if k = orderId then some (Proofs.movedRow t event next row) else db.orders.find? k := by
  obtain ⟨row, hrow, hs⟩ := Option.map_eq_some_iff.mp hl
  refine ⟨row, next, hrow, by rw [hs]; exact happ, fun k => ?_⟩
  rw [h.find?_orders]
  by_cases hk : k = orderId
  · rw [if_pos hk, if_pos hk, hk, hrow, Option.map_some, hc]
  · rw [if_neg hk, if_neg hk]

/-- A move is one legal event of one order, and the other orders stay. -/
theorem Effect.moved (he : Effect w now db t res db') {orderId : Uuid} {event : OrderEventType}
    (hm : moveOf db t res = some (orderId, event)) :
    ∃ row next, db.orders.find? orderId = some row ∧ apply (some row.status) event = .ok next ∧
      ∀ k, db'.orders.find? k = if k = orderId then some (movedRow t event next row) else db.orders.find? k := by
  cases he with
  | quiet frame hw _ =>
    rw [moveOf_of_not_wins hw] at hm
    cases hm
  | booked _ => cases hm
  | seatSold _ => cases hm
  | poolSold _ => cases hm
  | requested hl ha =>
    cases hm
    exact ha.movedRow _ hl.current rfl (fun _ => rfl)
  | captured hl ha =>
    cases hm
    exact ha.movedRow _ hl.current rfl (fun _ => rfl)
  | declined hl ha =>
    cases hm
    exact ha.movedRow _ hl.current rfl (fun _ => rfl)
  | exited ht hl happ ha =>
    rw [releaseOrderItems_frame]
    rcases ht with ⟨rfl, rfl⟩ | ⟨rfl, rfl⟩
    · cases hm
      exact ha.movedRow _ hl.current happ (fun _ => rfl)
    · cases hm
      exact ha.movedRow _ hl.current happ (fun _ => rfl)
  | refunded hl happ ha =>
    cases hm
    rw [releaseOrderItems_frame]
    exact ha.movedRow _ hl.current happ (fun _ => rfl)
  | issued hl hin ha =>
    cases hm
    have hlm := (lockOrder_congr hin.frame.orders _).trans hl.current
    rw [← hin.frame.orders]
    exact ha.movedRow _ hlm rfl (fun _ => rfl)
  | boarded _ _ => cases hm
  | lastBoarded ht _ hl _ ha =>
    simp only [moveOf, Option.isSome_some, and_true, if_true, ht, Option.map_some, Option.some.injEq,
      Prod.mk.injEq] at hm
    obtain ⟨rfl, rfl⟩ := hm
    exact ha.movedRow _ hl.current rfl (fun _ => rfl)

/-- Where nothing moves, the orders that are there stay; a booking may add one. -/
theorem Effect.unmoved (he : Effect w now db t res db') (hm : moveOf db t res = none) (k : Uuid) :
    db'.orders.find? k = db.orders.find? k ∨
      db.orders.find? k = none ∧ ∃ o expiresAt, db'.orders.find? k = some (newOrderRow k o expiresAt) := by
  cases he with
  | quiet frame _ _ =>
    rw [frame.orders]
    exact .inl rfl
  | @booked o wired expiresAt record db' hb =>
    have hf : db'.orders.find? k =
        if w.bookingIds.orderId = k then some (newOrderRow w.bookingIds.orderId o expiresAt)
        else db.orders.find? k := Lib.Table.find?_insert hb.orders k
    by_cases hk : w.bookingIds.orderId = k
    · rw [if_pos hk] at hf
      subst hk
      exact .inr ⟨(Lib.Table.insert_eq_some.mp hb.orders).1, o, expiresAt, hf⟩
    · rw [if_neg hk] at hf
      exact .inl hf
  | seatSold _ => exact .inl rfl
  | poolSold _ => exact .inl rfl
  | requested _ _ => cases hm
  | captured _ _ => cases hm
  | declined _ _ => cases hm
  | exited ht _ _ _ => rcases ht with ⟨rfl, -⟩ | ⟨rfl, -⟩ <;> cases hm
  | refunded _ _ _ => cases hm
  | issued _ _ _ => cases hm
  | boarded _ _ => exact .inl rfl
  | lastBoarded ht _ _ _ _ =>
    simp [moveOf, ht] at hm

lemma Effect.status (he : Effect w now db t res db') {k : Uuid} {row : OrderRow}
    (hr : db.orders.find? k = some row) :
    ∃ row', db'.orders.find? k = some row' ∧
      (row' = row ∨ ∃ event next, moveOf db t res = some (k, event) ∧ apply (some row.status) event = .ok next ∧
        row' = movedRow t event next row) := by
  cases hm : moveOf db t res with
  | none =>
    rcases he.unmoved hm k with h | ⟨h, -⟩
    · exact ⟨row, h.trans hr, .inl rfl⟩
    · rw [h] at hr
      cases hr
  | some x =>
    obtain ⟨orderId, event⟩ := x
    obtain ⟨row₀, next, hrow, happ, hk⟩ := he.moved hm
    by_cases hid : k = orderId
    · subst hid
      rw [hr] at hrow
      cases hrow
      exact ⟨_, by rw [hk, if_pos rfl], .inr ⟨event, next, rfl, happ, rfl⟩⟩
    · exact ⟨row, by rw [hk, if_neg hid]; exact hr, .inl rfl⟩

end Moves

section Outcomes

/-- The order and the event a lifecycle transaction applies. -/
def lifecycle : Tx → Option (Uuid × OrderEventType)
  | .requestPayment orderId _ => some (orderId, .paymentRequested)
  | .paymentResult orderId succeeded => some (orderId, paymentEvent succeeded)
  | .cancel orderId => some (orderId, .orderCancelled)
  | .expire orderId => some (orderId, .orderExpired)
  | .refund orderId => some (orderId, .orderRefunded)
  | _ => none

/-- What an outcome says about the order it was read from. -/
def Judged (db : Db) (orderId : Uuid) (event : OrderEventType) : TransitionOutcome → Prop
  | .applied next => ∃ cur, db.lockOrder orderId = some cur ∧ apply (some cur) event = .ok next
  | .noOp cur => db.lockOrder orderId = some cur ∧ ∃ e, apply (some cur) event = .error e
  | .notFound => db.lockOrder orderId = none

variable {db db' : Db} {orderId seq : Nat} {event : OrderEventType} {outcome : TransitionOutcome}

lemma applyEventLocked_judged (h : db.applyEventLocked (db.lockOrder orderId) seq orderId event = .ok (outcome, db')) :
    Judged db orderId event outcome := by
  rcases applyEventLocked_eq_ok h with ⟨hc, rfl, -⟩ | ⟨cur, e, hc, ha, rfl, -⟩ | ⟨cur, next, hc, ha, rfl, -⟩
  · exact hc
  · exact ⟨hc, e, ha⟩
  · exact ⟨cur, hc, ha⟩

lemma exitOrder_judged {released : List (OrderItemRow × Nat)}
    (h : db.exitOrder (db.lockOrder orderId) seq orderId event = .ok (outcome, released, db')) :
    Judged db orderId event outcome := by
  obtain ⟨⟨o, db₁⟩, h₁, hr⟩ := bind_eq_ok.mp h
  have hj := applyEventLocked_judged h₁
  cases o <;> cases hr <;> exact hj

lemma settleReleasing_eq {s : World} {r : Except DbError (TransitionOutcome × List (OrderItemRow × Nat) × Db)}
    {released : List (OrderItemRow × Nat)} (h : (Tx.settleReleasing s r).1 = .transition outcome released) :
    ∃ db, r = .ok (outcome, released, db) := by
  cases r with
  | error e => cases h
  | ok x =>
    cases h
    exact ⟨x.2.2, rfl⟩

/-- The outcome of a lifecycle transaction is about the order as it was committed then. -/
theorem run_judged {t : Tx} {w : Oracle} {s : World} {released : List (OrderItemRow × Nat)}
    (ht : lifecycle t = some (orderId, event)) (h : (t.run w s).1 = .transition outcome released) :
    Judged s.db orderId event outcome := by
  rw [run_of_not_failed (by simp [h])] at h
  unfold lifecycle at ht
  split at ht
  · cases ht
    obtain ⟨o, db', hr, ho⟩ := settle_eq h (by simp)
    cases ho
    obtain ⟨⟨o', db₁⟩, h₁, hr⟩ := bind_eq_ok.mp hr
    have hj := applyEventLocked_judged h₁
    cases o' with
    | applied next =>
      simp only at hr
      split at hr
      · cases hr
      · cases hr
        exact hj
    | noOp cur =>
      cases hr
      exact hj
    | notFound =>
      cases hr
      exact hj
  · cases ht
    obtain ⟨o, db', hr, ho⟩ := settle_eq h (by simp)
    cases ho
    obtain ⟨⟨o', db₁⟩, h₁, hr⟩ := bind_eq_ok.mp hr
    have hj := applyEventLocked_judged h₁
    simp only at hr
    split at hr <;> cases hr <;> exact hj
  · cases ht
    obtain ⟨db', hr⟩ := settleReleasing_eq h
    exact exitOrder_judged hr
  · cases ht
    obtain ⟨db', hr⟩ := settleReleasing_eq h
    exact exitOrder_judged hr
  · cases ht
    obtain ⟨db', hr⟩ := settleReleasing_eq h
    obtain ⟨⟨o', db₁⟩, h₁, hr⟩ := bind_eq_ok.mp hr
    have hj := applyEventLocked_judged h₁
    cases o' <;> cases hr <;> exact hj
  · cases ht

end Outcomes

section Streams

/-- The stream of every order, in every state reached: positions 1 to n, a replay that
ends in the order's status, and one outbox row for each event. -/
theorem stream_replays {app : AppState} {s : World}
    {c : LockConf Request World Tx TxResult Call Reply Answer Uuid LockRead LockRead} (hs : s.db.Seeded)
    (hc : Reaches app s c) {orderId : Uuid} {row : OrderRow} (hr : c.store.db.orders.find? orderId = some row) :
    (c.store.db.stream orderId).map EventRow.streamSeq = List.range' 1 (c.store.db.stream orderId).length ∧
    c.store.db.replayStatus orderId = some (some row.status) ∧
    ∀ e ∈ c.store.db.stream orderId, c.store.db.outbox.rows.countP (fun o => decide (o.eventSequence = e.sequence)) = 1 :=
  (hc.runOk hs).streams.replayStatus hr

/-- A cancellation that commits while another order is booked. -/
theorem stream_replays_harbour : ∃ c row, Reaches sandbox harbour c ∧ c.store.db.orders.find? 100 = some row ∧
    row.status = .cancelled ∧ (c.store.db.stream 100).length = 3 ∧
    c.store.db.replayStatus 100 = some (some row.status) := by
  have hrun : ((rowLocks sandbox).exec (RowLocks.init harbour)
      [.arrive (.storeCreate booking), .read 0 true, .read 0 true, .peek 0, .short 0 (drawn 100),
        .arrive (.cancelOrder 100), .lock 2, .arrive (.storeCreate { booking with items := [⟨1, "1B", "CEB", "ORM", 1, 1000, some 0⟩] }), .read 3 true,
        .peek 3, .short 3 (drawn 200), .plan 2, .commit 2 (drawn 0), .answer 2]).map
      (fun c => ((c.store.db.orders.find? 100).map OrderRow.status, (c.store.db.stream 100).length)) =
        some (some .cancelled, 3) := by decide
  obtain ⟨c, hc, hlen⟩ := Option.map_eq_some_iff.mp hrun
  obtain ⟨hstatus, hlen⟩ := Prod.mk.inj hlen
  obtain ⟨row, hrow, hst⟩ := Option.map_eq_some_iff.mp hstatus
  have hreach : Reaches sandbox harbour c := RowLocks.reachable_of_exec hc
  exact ⟨c, row, hreach, hrow, hst, hlen, (stream_replays harbour_seeded hreach hrow).2.1⟩

end Streams

end Lulan.Proofs
