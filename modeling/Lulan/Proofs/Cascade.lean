import Lulan.Lib.Alone
import Lulan.Lib.Drain
import Lulan.Proofs.Duplicates

/-!
# Settling cancelled trips

A pass settles the first orders of the queue that its provider lets it settle. What the
provider refuses stays at its place in the queue.
-/

namespace Lulan.Proofs

open Lulan Lulan.Db Lib

/-- A provider that refuses the refunds of some intents, whenever they are asked for, and makes
all others. -/
def refundsBut (refusal : String → Option PaymentError) : Call → Reply
  | .refund _ intent _ => .refunded ((refusal intent).elim (.ok ()) .error)
  | .createIntent .. => .intent (.error (.unavailable ""))
  | .itineraryMembers _ => .members none
  | .releaseItinerary _ => .released

def unpaid (o : OrderRow) : Bool := o.status == .locked || o.status == .pendingPayment

/-- The orders the provider does not let settle. -/
def refused (refusal : String → Option PaymentError) (o : OrderRow) : Bool :=
  !unpaid o && (o.paymentIntentId.bind refusal).isSome

/-- The state an order of a cancelled trip settles in. -/
def settledStatus (o : OrderRow) : OrderStatus := if unpaid o then .cancelled else .refunded

/-- Whether the call asks for the refund of the order. -/
def asksFor (orderId : Uuid) : Call → Bool
  | .refund id _ _ => decide (id = orderId)
  | _ => false

/-- The orders of cancelled trips as a pass takes them. -/
def queue (db : Db) : List OrderRow := db.unsettledOrders.insertionSort (fun a b => a.id ≤ b.id)

/-- One pass with nobody else about. -/
def pass (w : Oracle) (refusal : String → Option PaymentError) (limit : Nat) (s : World) :
    Ended World Call (Except StoreError CascadeStats) :=
  Prog.alone (fun t s => t.run w s) (refundsBut refusal) (OrderStore.settleCancelledTrips limit) s

/-- Passes one after another: where they end, and every call they make. -/
def passes (w : Oracle) (refusal : String → Option PaymentError) (limit : Nat) :
    Nat → World → World × List Call
  | 0, s => (s, [])
  | n + 1, s =>
    let e := pass w refusal limit s
    let rest := passes w refusal limit n e.store
    (rest.1, e.calls ++ rest.2)

/-- What a settlement relies on. -/
structure Settleable (db₀ db : Db) (direct : List (Claim Cell)) : Prop where
  balanced : Balanced db₀ db direct
  streams : StreamsOk db
  numbered : Numbered db

def claimsOf (db : Db) (orderId : Uuid) : List (Claim Cell) :=
  (db.orderItems.select (fun r => decide (r.orderId = orderId))).map itemClaim

/-- What settling some orders changes. -/
structure Settled (db₀ db db' : Db) (done : List OrderRow) : Prop where
  settled : ∀ r ∈ done, db'.orders.find? r.id = some { r with status := settledStatus r }
  others : ∀ k, (∀ r ∈ done, r.id ≠ k) → db'.orders.find? k = db.orders.find? k
  items : db'.orderItems = db.orderItems
  trips : db'.trips = db.trips
  voided : ∀ r ∈ done, settledStatus r = .refunded →
    ∀ t ∈ db'.tickets.rows, t.orderId = r.id → t.status = .void
  kept : ∀ id, (∀ t ∈ db.tickets.rows, t.orderId = id → t.status = .void) →
    ∀ t ∈ db'.tickets.rows, t.orderId = id → t.status = .void
  width : ∀ k, width db' k = width db k
  used : ∀ k, Regular db₀ k → ∀ i, i < Proofs.width db k →
    used db' k i + load (done.flatMap (fun r => claimsOf db r.id)) k i = used db k i

section Settled

variable {db₀ db db₁ db₂ : Db} {done done' : List OrderRow}

lemma Settled.nil : Settled db₀ db db [] :=
  ⟨by simp, fun _ _ => rfl, rfl, rfl, by simp, fun _ h => h, fun _ => rfl, fun k _ i _ => by simp⟩

lemma Settled.trans (h : Settled db₀ db db₁ done) (h' : Settled db₀ db₁ db₂ done')
    (hne : ∀ r ∈ done, ∀ r' ∈ done', r'.id ≠ r.id) : Settled db₀ db db₂ (done ++ done') := by
  constructor
  · intro r hr
    rcases List.mem_append.mp hr with hr | hr
    · rw [h'.others r.id (hne r hr)]
      exact h.settled r hr
    · exact h'.settled r hr
  · intro k hk
    rw [h'.others k (fun r hr => hk r (List.mem_append_right _ hr)),
      h.others k (fun r hr => hk r (List.mem_append_left _ hr))]
  · rw [h'.items, h.items]
  · rw [h'.trips, h.trips]
  · intro r hr hs
    rcases List.mem_append.mp hr with hr | hr
    · exact h'.kept r.id (h.voided r hr hs)
    · exact h'.voided r hr hs
  · exact fun id hall => h'.kept id (h.kept id hall)
  · exact fun k => (h'.width k).trans (h.width k)
  · intro k hk i hi
    have h₁ := h.used k hk i hi
    have h₂ := h'.used k hk i (by rw [h.width]; exact hi)
    have hclaims : (fun r : OrderRow => claimsOf db₁ r.id) = fun r => claimsOf db r.id := by
      funext r
      rw [claimsOf, claimsOf, h.items]
    rw [hclaims] at h₂
    rw [List.flatMap_append, load_append]
    omega

lemma mem_unsettled {o : OrderRow} : o ∈ db.unsettledOrders ↔ db.orders.find? o.id = some o ∧
    (unpaid o = true ∨ o.status = .paid ∨ o.status = .ticketed) ∧
      db.orderItems.rows.any (fun oi => decide (oi.orderId = o.id) &&
        (db.trips.find? oi.tripId).any (fun t => t.status == .cancelled)) = true := by
  rw [unsettledOrders, Table.mem_select, Table.find?_eq_some, Bool.and_eq_true]
  simp only [unpaid, Bool.or_eq_true, beq_iff_eq, and_true, or_assoc]

lemma Settled.unsettled (h : Settled db₀ db db₁ done) (o : OrderRow) :
    o ∈ db₁.unsettledOrders ↔ o ∈ db.unsettledOrders ∧ ∀ r ∈ done, r.id ≠ o.id := by
  rw [mem_unsettled, mem_unsettled, h.items, h.trips]
  constructor
  · rintro ⟨hf, ho, hi⟩
    have hne : ∀ r ∈ done, r.id ≠ o.id := by
      intro r hr he
      have hs := h.settled r hr
      rw [he, hf] at hs
      have hstatus : o.status = settledStatus r := by rw [Option.some.inj hs]
      rw [unpaid, hstatus] at ho
      unfold settledStatus at ho
      split at ho <;> simp at ho
    rw [h.others o.id hne] at hf
    exact ⟨⟨hf, ho, hi⟩, hne⟩
  · rintro ⟨⟨hf, ho, hi⟩, hne⟩
    exact ⟨by rw [h.others o.id hne]; exact hf, ho, hi⟩

end Settled

section Order

variable {db₀ : Db} {direct : List (Claim Cell)} {w : Oracle} {s : World} {row : OrderRow}

lemma Settleable.step {now : Timestamp} {t : Tx} {res : TxResult} {db db' : Db} (h₀ : db₀.Seeded)
    (h : Settleable db₀ db direct) (he : Effect w now db t res db') (hd : directClaim t res = [])
    (hqty : ∀ tripId unitId span qty, t ≠ .claimPool tripId unitId span qty) : Settleable db₀ db' direct := by
  obtain ⟨hb, -⟩ := h.balanced.step h₀ he (fun tripId unitId span qty ht => absurd ht (hqty _ _ _ _))
  rw [hd, List.append_nil] at hb
  exact ⟨hb, h.streams.step he, h.numbered.step he⟩

lemma Settleable.advance {event : OrderEventType} {next : OrderStatus} (h : Settleable db₀ s.db direct)
    (ha : apply (some row.status) event = .ok next) :
    ∃ mid, s.db.applyEventLocked (some row.status) (s.db.maxStreamSeq row.id + 1) row.id event =
        .ok (.applied next, mid) ∧
      Advance s.db mid row.id (s.db.maxStreamSeq row.id + 1) event
        ⟨fun r => { r with status := next }, fun _ => rfl⟩ := by
  have hnum : Numbered (s.db.setStatus row.id next) := h.numbered.congr rfl rfl rfl rfl
  obtain ⟨mid, hmid⟩ := append_succeeds row.id event.asStr hnum (Nat.le_add_left 1 _)
    (fun e he hid => h.streams.seq_lt he hid)
  have happlied : s.db.applyEventLocked (some row.status) (s.db.maxStreamSeq row.id + 1) row.id event =
      .ok (.applied next, mid) := by
    unfold applyEventLocked
    simp only [ha]
    rw [hmid]
    rfl
  refine ⟨mid, happlied, ?_⟩
  rcases applyEventLocked_eq_ok happlied with ⟨-, he, -⟩ | ⟨_, _, -, -, he, -⟩ | ⟨cur, n, hc, hn, he, hadv⟩
  · cases he
  · cases he
  · cases he
    exact hadv

lemma settles_of_exit {seq : Nat} {event : OrderEventType} {mid db' : Db} (h : Settleable db₀ s.db direct)
    (h' : Settleable db₀ db' direct) (hrow : s.db.orders.find? row.id = some row)
    (hlive : row.status.holdsInventory = true)
    (ha : Advance s.db mid row.id seq event ⟨fun r => { r with status := settledStatus row }, fun _ => rfl⟩)
    (ho : db'.orders = mid.orders) (hi : db'.orderItems = mid.orderItems) (ht : db'.trips = mid.trips)
    (hvoid : settledStatus row = .refunded → db'.tickets = (mid.voidTickets row.id).tickets)
    (hkept : settledStatus row ≠ .refunded → db'.tickets = mid.tickets) : Settled db₀ s.db db' [row] := by
  have hgone : (settledStatus row).holdsInventory = false := by
    unfold settledStatus
    split <;> rfl
  have hlock : s.db.lockOrder row.id = some row.status := by rw [Db.lockOrder, hrow, Option.map_some]
  have hwidth : ∀ k, width db' k = width s.db k := fun k => (h'.balanced.width k).trans (h.balanced.width k).symm
  have hrest : liveItems db' = liveItems mid := by
    unfold liveItems owned
    rw [ho, hi]
  have htickets : ∀ t ∈ db'.tickets.rows, t.status = .void ∨ t ∈ s.db.tickets.rows := by
    intro t hm
    by_cases hs : settledStatus row = .refunded
    · rw [hvoid hs, voidTickets, Table.rows_update, ha.tickets] at hm
      obtain ⟨t₀, hm₀, rfl⟩ := List.mem_map.mp hm
      split
      · exact .inl rfl
      · exact .inr hm₀
    · rw [hkept hs, ha.tickets] at hm
      exact .inr hm
  constructor
  · intro r hr
    rw [List.mem_singleton.mp hr, ho, ha.find?_orders, if_pos rfl, hrow]
    rfl
  · intro k hk
    rw [ho, ha.find?_orders, if_neg (fun he => hk row (List.mem_singleton_self _) he.symm)]
  · rw [hi, ha.orderItems]
  · rw [ht, ha.trips]
  · intro r hr hs t hm hid
    rw [List.mem_singleton.mp hr] at hs hid
    rw [hvoid hs, voidTickets, Table.rows_update] at hm
    obtain ⟨t₀, -, rfl⟩ := List.mem_map.mp hm
    split
    · rfl
    · rename_i hne
      rw [if_neg hne] at hid
      exact absurd (decide_eq_true hid) hne
  · intro id hall t hm hid
    rcases htickets t hm with hv | hm
    · exact hv
    · exact hall t hm hid
  · exact hwidth
  · intro k hk i hlt
    have hsplit := ha.liveItems_exit hlock (fun _ => rfl) hlive hgone k i
    have hbefore := h.balanced.balance k hk i hlt
    have hafter := h'.balanced.balance k hk i (by rw [hwidth]; exact hlt)
    rw [hrest] at hafter
    have hclaims : load (claimsOf s.db row.id) k i =
        load ((mid.orderItems.select (fun r => decide (r.orderId = row.id))).map itemClaim) k i := by
      rw [claimsOf, ha.orderItems]
    rw [List.flatMap_singleton]
    omega

lemma cancel_settles (h₀ : db₀.Seeded) (h : Settleable db₀ s.db direct) (hw : w.fail = none)
    (hrow : s.db.orders.find? row.id = some row) (hs : unpaid row = true) :
    (∃ released, ((Tx.cancel row.id).run w s).1 = .transition (.applied .cancelled) released) ∧
      Settleable db₀ ((Tx.cancel row.id).run w s).2.db direct ∧
      Settled db₀ s.db ((Tx.cancel row.id).run w s).2.db [row] := by
  have hsettled : settledStatus row = .cancelled := by rw [settledStatus, if_pos hs]
  have hlegal : apply (some row.status) .orderCancelled = .ok .cancelled ∧ row.status.holdsInventory = true := by
    simp only [unpaid, Bool.or_eq_true, beq_iff_eq] at hs
    rcases hs with hs | hs <;> rw [hs] <;> exact ⟨rfl, rfl⟩
  obtain ⟨mid, happlied, hadv⟩ := h.advance hlegal.1
  have hrun : (Tx.cancel row.id).run w s =
      (.transition (.applied .cancelled) (mid.releaseOrderItems row.id).1,
        { s with db := (mid.releaseOrderItems row.id).2 }) := by
    simp only [Tx.run, hw, Tx.body, Tx.reads, Tx.locks, Db.lockRead, Db.lockOrder, hrow, Option.map_some]
    unfold cancel exitOrder
    rw [happlied]
    rfl
  have hafter : Settleable db₀ ((Tx.cancel row.id).run w s).2.db direct :=
    h.step h₀ (run_effect _ w s).1 (by rw [hrun]; rfl) (fun _ _ _ _ => by simp)
  refine ⟨⟨_, by rw [hrun]⟩, hafter, ?_⟩
  rw [hrun] at hafter ⊢
  rw [← hsettled] at hadv
  apply settles_of_exit h hafter hrow hlegal.2 hadv
  · rw [releaseOrderItems_frame]
  · rw [releaseOrderItems_frame]
  · rw [releaseOrderItems_frame]
  · intro hr
    rw [hsettled] at hr
    cases hr
  · intro _
    rw [releaseOrderItems_frame]

lemma refund_settles (h₀ : db₀.Seeded) (h : Settleable db₀ s.db direct) (hw : w.fail = none)
    (hrow : s.db.orders.find? row.id = some row) (hs : row.status = .paid ∨ row.status = .ticketed) :
    (∃ released, ((Tx.refund row.id).run w s).1 = .transition (.applied .refunded) released) ∧
      Settleable db₀ ((Tx.refund row.id).run w s).2.db direct ∧
      Settled db₀ s.db ((Tx.refund row.id).run w s).2.db [row] := by
  have hsettled : settledStatus row = .refunded := by
    rcases hs with hs | hs <;> simp [settledStatus, unpaid, hs]
  have hlegal : apply (some row.status) .orderRefunded = .ok .refunded ∧ row.status.holdsInventory = true := by
    rcases hs with hs | hs <;> rw [hs] <;> exact ⟨rfl, rfl⟩
  obtain ⟨mid, happlied, hadv⟩ := h.advance hlegal.1
  have hrun : (Tx.refund row.id).run w s =
      (.transition (.applied .refunded) (mid.releaseOrderItems row.id).1,
        { s with db := (mid.releaseOrderItems row.id).2.voidTickets row.id }) := by
    simp only [Tx.run, hw, Tx.body, Tx.reads, Tx.locks, Db.lockRead, Db.lockOrder, hrow, Option.map_some]
    unfold refund
    rw [happlied]
    rfl
  have hafter : Settleable db₀ ((Tx.refund row.id).run w s).2.db direct :=
    h.step h₀ (run_effect _ w s).1 (by rw [hrun]; rfl) (fun _ _ _ _ => by simp)
  refine ⟨⟨_, by rw [hrun]⟩, hafter, ?_⟩
  rw [hrun] at hafter ⊢
  rw [← hsettled] at hadv
  apply settles_of_exit h hafter hrow hlegal.2 hadv
  · rw [releaseOrderItems_frame]
    rfl
  · rw [releaseOrderItems_frame]
    rfl
  · rw [releaseOrderItems_frame]
    rfl
  · intro _
    rw [releaseOrderItems_frame]
    rfl
  · intro hr
    exact absurd hsettled hr

end Order

def isRepaid (o : OrderRow) : Bool := !unpaid o && o.paymentIntentId.isSome

section Alone

variable {db₀ : Db} {direct : List (Claim Cell)} {w : Oracle} {s : World}
  {refusal : String → Option PaymentError}
  {row : OrderRow}

lemma attempt_alone {b : Call → Reply} {t : Tx} {outcome : TransitionOutcome} {released : List (OrderItemRow × Nat)}
    (h : (t.run w s).1 = .transition outcome released) :
    Prog.alone (fun t s => t.run w s) b
      (Io.attempt (Io.transact .db t TxResult.outcome?) : Io StoreError (Except StoreError TransitionOutcome)) s =
        ⟨.ok (.ok outcome), (t.run w s).2, []⟩ := by
  unfold Io.attempt Io.transact
  simp only [Prog.bind, Prog.alone_tx, h]
  rfl

lemma refundMoney_alone : Prog.alone (fun t s => t.run w s) (refundsBut refusal)
    (OrderStore.refundMoney row : Io StoreError (Except PaymentError Unit)) s =
      ⟨.ok ((row.paymentIntentId.bind refusal).elim (.ok ()) .error), s,
        (row.paymentIntentId.map (fun intent => Call.refund row.id intent row.totalMinor)).toList⟩ := by
  unfold OrderStore.refundMoney
  cases row.paymentIntentId with
  | none => rfl
  | some intent => rfl

/-- One order by itself: it settles unless the provider refuses, and its money is asked for
once. -/
lemma settleOrder_alone (refusal : String → Option PaymentError) (h₀ : db₀.Seeded)
    (h : Settleable db₀ s.db direct) (hw : w.fail = none)
    (hrow : s.db.orders.find? row.id = some row)
    (hopen : unpaid row = true ∨ row.status = .paid ∨ row.status = .ticketed) (stats : CascadeStats) :
    ∃ stats' s' calls, Prog.alone (fun t s => t.run w s) (refundsBut refusal) (OrderStore.settleOrder row stats) s =
        ⟨.ok stats', s', calls⟩ ∧
      (if refused refusal row then s' = s else Settleable db₀ s'.db direct ∧ Settled db₀ s.db s'.db [row]) ∧
      ∀ id, calls.countP (asksFor id) = if row.id = id ∧ isRepaid row = true then 1 else 0 := by
  unfold OrderStore.settleOrder
  by_cases hu : unpaid row = true
  · obtain ⟨⟨released, hrun⟩, hok, hsettles⟩ := cancel_settles h₀ h hw hrow hu
    have hcond : row.status = .locked ∨ row.status = .pendingPayment := by
      simpa [unpaid] using hu
    have hcancel : Prog.alone (fun t s => t.run w s) (refundsBut refusal)
        (Io.attempt (OrderStore.cancel row.id) : Io StoreError (Except StoreError TransitionOutcome)) s = _ :=
      attempt_alone hrun
    rw [if_pos hcond, Prog.alone_ok hcancel]
    refine ⟨_, _, _, rfl, ?_, ?_⟩
    · rw [if_neg (by simp [refused, hu])]
      exact ⟨hok, hsettles⟩
    · intro id
      rw [if_neg (by simp [isRepaid, hu])]
      rfl
  · have hpaid := hopen.resolve_left hu
    have hcond : ¬(row.status = .locked ∨ row.status = .pendingPayment) := by
      simpa [unpaid] using hu
    have hasks : ∀ id,
        (row.paymentIntentId.map (fun intent => Call.refund row.id intent row.totalMinor)).toList.countP
          (asksFor id) = if row.id = id ∧ isRepaid row = true then 1 else 0 := by
      intro id
      cases hi : row.paymentIntentId with
      | none => simp [isRepaid, hi]
      | some intent => simp [isRepaid, hi, hu, asksFor, List.countP_cons]
    rw [if_neg hcond, Prog.alone_ok refundMoney_alone]
    cases hr : row.paymentIntentId.bind refusal with
    | some e =>
      refine ⟨_, _, _, rfl, ?_, ?_⟩
      · rw [if_pos (by simp [refused, hu, hr])]
        rfl
      · intro id
        rw [List.countP_append, hasks]
        rfl
    | none =>
      obtain ⟨⟨released, hrun⟩, hok, hsettles⟩ := refund_settles h₀ h hw hrow hpaid
      have hrefund : Prog.alone (fun t s => t.run w s) (refundsBut refusal)
          (Io.attempt (OrderStore.refund row.id) : Io StoreError (Except StoreError TransitionOutcome)) s = _ :=
        attempt_alone hrun
      simp only [Option.elim_none]
      rw [Prog.alone_ok hrefund]
      refine ⟨_, _, _, rfl, ?_, ?_⟩
      · rw [if_neg (by simp [refused, hu, hr])]
        exact ⟨hok, hsettles⟩
      · intro id
        rw [List.countP_append, hasks]
        rfl

lemma queue_mem {db : Db} {o : OrderRow} : o ∈ queue db ↔ o ∈ db.unsettledOrders := List.mem_insertionSort _

lemma queue_sorted (db : Db) : (queue db).Pairwise (fun a b => a.id < b.id) := by
  have htotal : Std.Total (fun a b : OrderRow => a.id ≤ b.id) := ⟨fun a b => Nat.le_total a.id b.id⟩
  have htrans : IsTrans OrderRow (fun a b => a.id ≤ b.id) := ⟨fun _ _ _ h h' => Nat.le_trans h h'⟩
  have hle := List.pairwise_insertionSort (fun a b : OrderRow => a.id ≤ b.id) db.unsettledOrders
  have hids : ((queue db).map OrderRow.id).Nodup := by
    rw [queue, ((List.perm_insertionSort _ _).map OrderRow.id).nodup_iff]
    exact db.orders.nodup.sublist (List.filter_sublist.map _)
  exact (hle.and (List.pairwise_map.mp hids)).imp (fun h => lt_of_le_of_ne h.1 h.2)

lemma eq_of_sorted {l l' : List OrderRow} (h : l.Pairwise (fun a b => a.id < b.id))
    (h' : l'.Pairwise (fun a b => a.id < b.id)) (hm : ∀ o, o ∈ l ↔ o ∈ l') : l = l' := by
  have hnodup : ∀ {l : List OrderRow}, l.Pairwise (fun a b => a.id < b.id) → l.Nodup := fun h =>
    h.imp (fun hlt he => Nat.ne_of_lt hlt (congrArg OrderRow.id he))
  refine ((List.perm_ext_iff_of_nodup (hnodup h) (hnodup h')).mpr hm).eq_of_pairwise ?_ h h'
  intro a b _ _ hab hba
  exact absurd hba (Nat.lt_asymm hab)

lemma settleOrders_alone (refusal : String → Option PaymentError) (h₀ : db₀.Seeded) (hw : w.fail = none)
    {rows : List OrderRow}
    (hids : rows.Pairwise (fun a b => a.id ≠ b.id)) (h : Settleable db₀ s.db direct)
    (hrows : ∀ r ∈ rows, r ∈ s.db.unsettledOrders) (stats : CascadeStats) :
    ∃ stats' s' calls, Prog.alone (fun t s => t.run w s) (refundsBut refusal) (OrderStore.settleOrders rows stats) s =
        ⟨.ok stats', s', calls⟩ ∧
      Settleable db₀ s'.db direct ∧ Settled db₀ s.db s'.db (rows.filter (fun r => !refused refusal r)) ∧
      ∀ id, calls.countP (asksFor id) = rows.countP (fun r => decide (r.id = id) && isRepaid r) := by
  induction rows generalizing s stats with
  | nil => exact ⟨stats, s, [], rfl, h, .nil, fun _ => rfl⟩
  | cons row rest ih =>
    obtain ⟨hrow, hids⟩ := List.pairwise_cons.mp hids
    obtain ⟨hfind, hopen, -⟩ := mem_unsettled.mp (hrows row List.mem_cons_self)
    obtain ⟨stats₁, s₁, calls₁, halone, hdone, hcalls⟩ :=
      settleOrder_alone refusal h₀ h hw hfind hopen stats
    have hfirst : Settleable db₀ s₁.db direct ∧
        Settled db₀ s.db s₁.db ([row].filter (fun r => !refused refusal r)) := by
      cases hr : refused refusal row with
      | true =>
        rw [hr, if_pos rfl] at hdone
        rw [hdone, List.filter_cons_of_neg (by simp [hr])]
        exact ⟨h, .nil⟩
      | false =>
        rw [hr, if_neg (by simp)] at hdone
        rw [List.filter_cons_of_pos (by simp [hr])]
        exact hdone
    have hleft : ∀ r ∈ rest, r ∈ s₁.db.unsettledOrders := by
      intro r hr
      refine (hfirst.2.unsettled r).mpr ⟨hrows r (List.mem_cons_of_mem _ hr), fun r' hr' => ?_⟩
      rw [List.mem_singleton.mp (List.mem_filter.mp hr').1]
      exact hrow r hr
    obtain ⟨stats₂, s₂, calls₂, halone₂, hok, hsettled, hcalls₂⟩ := ih hids hfirst.1 hleft stats₁
    refine ⟨stats₂, s₂, calls₁ ++ calls₂, ?_, hok, ?_, ?_⟩
    · rw [OrderStore.settleOrders, Prog.alone_ok halone, halone₂]
    · have hboth := hfirst.2.trans hsettled (fun r hr r' hr' => by
        rw [List.mem_singleton.mp (List.mem_filter.mp hr).1]
        exact (hrow r' (List.mem_filter.mp hr').1).symm)
      rw [← List.filter_append] at hboth
      exact hboth
    · intro id
      rw [List.countP_append, hcalls, hcalls₂, List.countP_cons]
      by_cases hid : row.id = id <;> cases hp : isRepaid row <;> simp [hid, Nat.add_comm]

lemma countP_id {l l' : List OrderRow} {p : OrderRow → Bool} {r : OrderRow}
    (hl : l.Pairwise (fun a b => a.id < b.id))
    (hsub : l'.Sublist l) (hr : r ∈ l) :
    l'.countP (fun x => decide (x.id = r.id) && p x) = if r ∈ l' ∧ p r = true then 1 else 0 := by
  have hids : (l.map OrderRow.id).Nodup := List.pairwise_map.mpr (hl.imp (fun hlt => Nat.ne_of_lt hlt))
  have hnodup : l'.Nodup := (hids.of_map _).sublist hsub
  have hone : ∀ x ∈ l', x.id = r.id → x = r :=
    fun x hx he => List.inj_on_of_nodup_map hids (hsub.subset hx) hr he
  cases hp : p r with
  | false =>
    rw [if_neg (by simp), List.countP_eq_zero]
    intro x hx hc
    obtain ⟨hid, hpx⟩ := Bool.and_eq_true_iff.mp hc
    rw [hone x hx (of_decide_eq_true hid), hp] at hpx
    cases hpx
  | true =>
    have hcount : l'.countP (fun x => decide (x.id = r.id) && p x) = l'.count r := by
      apply List.countP_congr
      intro x hx
      simp only [Bool.and_eq_true, decide_eq_true_eq, beq_iff_eq]
      constructor
      · exact fun h => hone x hx h.1
      · rintro rfl
        exact ⟨rfl, hp⟩
    rw [hcount]
    by_cases hm : r ∈ l'
    · rw [if_pos ⟨hm, rfl⟩, List.count_eq_one_of_mem hnodup hm]
    · rw [if_neg (fun h => hm h.1), List.count_eq_zero_of_not_mem hm]

lemma drained_apart {l : List OrderRow} {limit : Nat} {stuck : OrderRow → Bool} {r o : OrderRow}
    (hl : l.Pairwise (fun a b => a.id < b.id)) (hr : r ∈ (l.take limit).filter (fun r => !stuck r))
    (ho : o ∈ drain limit stuck l) : r.id ≠ o.id := by
  intro he
  obtain ⟨hr, hok⟩ := List.mem_filter.mp hr
  rcases List.mem_append.mp ho with ho | ho
  · obtain ⟨ho, hstuck⟩ := List.mem_filter.mp ho
    have hids : (l.map OrderRow.id).Nodup := List.pairwise_map.mpr (hl.imp (fun hlt => Nat.ne_of_lt hlt))
    have hsame := List.inj_on_of_nodup_map hids (List.mem_of_mem_take hr) (List.mem_of_mem_take ho) he
    rw [hsame, hstuck] at hok
    cases hok
  · rw [← List.take_append_drop limit l] at hl
    exact absurd he (Nat.ne_of_lt ((List.pairwise_append.mp hl).2.2 r hr o ho))

lemma pass_settled (refusal : String → Option PaymentError) (limit : Nat) (h₀ : db₀.Seeded) (hw : w.fail = none)
    (h : Settleable db₀ s.db direct) :
    Settleable db₀ (pass w refusal limit s).store.db direct ∧
      Settled db₀ s.db (pass w refusal limit s).store.db
        (((queue s.db).take limit).filter (fun r => !refused refusal r)) ∧
      queue (pass w refusal limit s).store.db = drain limit (refused refusal) (queue s.db) ∧
      ∀ id, (pass w refusal limit s).calls.countP (asksFor id) =
        ((queue s.db).take limit).countP (fun r => decide (r.id = id) && isRepaid r) := by
  have hids : ((queue s.db).take limit).Pairwise (fun a b => a.id ≠ b.id) :=
    ((queue_sorted s.db).sublist (List.take_sublist _ _)).imp (fun hlt => Nat.ne_of_lt hlt)
  obtain ⟨stats, s', calls, halone, hok, hsettled, hcalls⟩ := settleOrders_alone refusal h₀ hw hids h
    (fun r hr => queue_mem.mp (List.mem_of_mem_take hr)) ⟨0, 0, 0, 0⟩
  have hpass : (pass w refusal limit s).store = s' ∧ (pass w refusal limit s).calls = calls := by
    have hread : Prog.alone (fun t s => t.run w s) (refundsBut refusal)
        (Io.query StoreError.db (fun w =>
          .ok ((w.db.unsettledOrders.insertionSort (fun a b => a.id ≤ b.id)).take limit)))
        s = ⟨.ok ((queue s.db).take limit), s, []⟩ := rfl
    unfold pass OrderStore.settleCancelledTrips
    rw [Prog.alone_ok hread, Prog.alone_ok halone]
    exact ⟨rfl, List.append_nil calls⟩
  rw [hpass.1, hpass.2]
  refine ⟨hok, hsettled, ?_, hcalls⟩
  apply eq_of_sorted (queue_sorted _) ((queue_sorted s.db).sublist drain_sublist)
  intro o
  rw [queue_mem, hsettled.unsettled, ← queue_mem]
  constructor
  · rintro ⟨ho, hne⟩
    rcases mem_drain ho with hd | ⟨ht, hr⟩
    · exact hd
    · exact absurd rfl (hne o (List.mem_filter.mpr ⟨ht, by simp [hr]⟩))
  · intro hd
    exact ⟨drain_sublist.subset hd, fun r hr => drained_apart (queue_sorted s.db) hr hd⟩

/-- After some passes: the drained queue is left, everything else has settled, and its refund
has been asked for once. -/
lemma passes_settled (refusal : String → Option PaymentError) (limit : Nat) (h₀ : db₀.Seeded) (hw : w.fail = none)
    (n : Nat) (h : Settleable db₀ s.db direct) :
    queue (passes w refusal limit n s).1.db = (drain limit (refused refusal))^[n] (queue s.db) ∧
      (∃ done, Settled db₀ s.db (passes w refusal limit n s).1.db done ∧ done.Nodup ∧
        ∀ r, r ∈ done ↔ r ∈ queue s.db ∧ r ∉ (drain limit (refused refusal))^[n] (queue s.db)) ∧
      (∀ id, (∀ r ∈ queue s.db, r.id ≠ id) → (passes w refusal limit n s).2.countP (asksFor id) = 0) ∧
      ∀ r ∈ queue s.db, refused refusal r = false → (passes w refusal limit n s).2.countP (asksFor r.id) =
        if r ∉ (drain limit (refused refusal))^[n] (queue s.db) ∧ isRepaid r = true then 1 else 0 := by
  induction n generalizing s with
  | zero =>
    exact ⟨rfl, ⟨[], .nil, List.nodup_nil, fun r => by simp⟩, fun _ _ => rfl,
      fun r hr _ => by simp [passes, hr]⟩
  | succ n ih =>
    obtain ⟨hok, hfirst, hqueue, hcalls⟩ := pass_settled refusal limit h₀ hw h
    obtain ⟨hq, ⟨done, hrest, hnodup, hdone⟩, hnone, hasked⟩ := ih hok
    rw [hqueue] at hq hdone hnone hasked
    have hapart : ∀ r ∈ ((queue s.db).take limit).filter (fun r => !refused refusal r),
        ∀ o ∈ drain limit (refused refusal) (queue s.db), r.id ≠ o.id :=
      fun r hr o ho => drained_apart (queue_sorted s.db) hr ho
    have hleft : ∀ r, r ∈ (drain limit (refused refusal))^[n] (drain limit (refused refusal) (queue s.db)) →
        r ∈ drain limit (refused refusal) (queue s.db) := fun r => mem_iterate_drain n
    simp only [Function.iterate_succ_apply, passes, List.countP_append]
    refine ⟨hq, ⟨_, hfirst.trans hrest (fun r hr r' hr' => (hapart r hr r' ((hdone r').mp hr').1).symm), ?_, ?_⟩,
      ?_, ?_⟩
    · have hqueue : (queue s.db).Nodup := (queue_sorted s.db).imp (fun hlt he => Nat.ne_of_lt hlt (congrArg _ he))
      refine List.nodup_append.mpr ⟨(hqueue.sublist (List.take_sublist _ _)).filter _, hnodup, ?_⟩
      intro r hr r' hr' he
      exact hapart r hr r' ((hdone r').mp hr').1 (congrArg OrderRow.id he)
    · intro r
      rw [List.mem_append, hdone]
      constructor
      · rintro (hr | ⟨hr, hn⟩)
        · exact ⟨List.mem_of_mem_take (List.mem_filter.mp hr).1, fun hd => hapart r hr r (hleft r hd) rfl⟩
        · exact ⟨drain_sublist.subset hr, hn⟩
      · rintro ⟨hr, hn⟩
        rcases mem_drain hr with hd | ⟨ht, hok⟩
        · exact .inr ⟨hd, hn⟩
        · exact .inl (List.mem_filter.mpr ⟨ht, by simp [hok]⟩)
    · intro id hid
      rw [hcalls, hnone id (fun r hr => hid r (drain_sublist.subset hr)), Nat.add_zero, List.countP_eq_zero]
      intro r hr
      simp [hid r (List.mem_of_mem_take hr)]
    · intro r hr hok
      rw [hcalls]
      by_cases hd : r ∈ drain limit (refused refusal) (queue s.db)
      · have hnot : r ∉ (queue s.db).take limit := fun ht =>
          hapart r (List.mem_filter.mpr ⟨ht, by simp [hok]⟩) r hd rfl
        rw [countP_id (queue_sorted s.db) (List.take_sublist _ _) hr, if_neg (fun h => hnot h.1), Nat.zero_add]
        exact hasked r hd hok
      · have ht : r ∈ (queue s.db).take limit := by
          rcases mem_drain hr with hd' | ⟨ht, -⟩
          · exact absurd hd' hd
          · exact ht
        have hlater := hnone r.id (fun o ho => (hapart r (List.mem_filter.mpr ⟨ht, by simp [hok]⟩) o ho).symm)
        rw [countP_id (queue_sorted s.db) (List.take_sublist _ _) hr, hlater, Nat.add_zero]
        have hgone : r ∉ (drain limit (refused refusal))^[n] (drain limit (refused refusal) (queue s.db)) :=
          fun h => hd (hleft r h)
        simp only [ht, hgone, not_false_eq_true, true_and]

end Alone

section Cascade

variable {app : AppState} {s : World}
  {c : LockConf Request World Tx TxResult Call Reply Answer Uuid LockRead LockRead}

lemma Reaches.settleable (hs : s.db.Seeded) (hc : Reaches app s c) :
    Settleable s.db c.store.db (directOf c.trace) :=
  ⟨(hc.runOk hs).balanced, (hc.runOk hs).streams, hc.numbered hs⟩

lemma countP_before {pre post : List OrderRow} {o : OrderRow} (p : OrderRow → Bool)
    (h : (pre ++ o :: post).Pairwise (fun a b => a.id < b.id)) :
    (pre ++ o :: post).countP (fun r => p r && decide (r.id < o.id)) = pre.countP p := by
  obtain ⟨-, hpost, hpre⟩ := List.pairwise_append.mp h
  have hnone : (o :: post).countP (fun r => p r && decide (r.id < o.id)) = 0 := by
    rw [List.countP_eq_zero]
    intro r hr
    rcases List.mem_cons.mp hr with rfl | hr
    · simp
    · have hlt := (List.pairwise_cons.mp hpost).1 r hr
      simp [Nat.le_of_lt hlt]
  rw [List.countP_append, hnone, Nat.add_zero]
  apply List.countP_congr
  intro r hr
  simp [hpre r hr o List.mem_cons_self]

lemma unblocked_iff {db : Db} {limit : Nat} {stuck : OrderRow → Bool} : Unblocked limit stuck (queue db) ↔
    ∀ o ∈ db.unsettledOrders, stuck o = false →
      db.unsettledOrders.countP (fun r => stuck r && decide (r.id < o.id)) < limit := by
  have hcount : ∀ pre o post, queue db = pre ++ o :: post →
      db.unsettledOrders.countP (fun r => stuck r && decide (r.id < o.id)) = pre.countP stuck := by
    intro pre o post hq
    have hsorted := queue_sorted db
    rw [hq] at hsorted
    rw [← countP_before stuck hsorted, ← hq]
    exact ((List.perm_insertionSort _ _).countP_eq _).symm
  constructor
  · intro h o ho hok
    obtain ⟨pre, post, hq⟩ := List.append_of_mem (queue_mem.mpr ho)
    rw [hcount pre o post hq]
    exact h pre o post hq hok
  · intro h pre o post hq hok
    rw [← hcount pre o post hq]
    exact h o (queue_mem.mp (hq ▸ by simp)) hok

/-- As many passes as there are orders settle everything the provider lets settle, if and only
if before each such order fewer than `limit` refused ones stand in the queue. -/
theorem cascade_settles_iff (hs : s.db.Seeded) (hc : Reaches app s c) (w : Oracle) (hw : w.fail = none)
    (refusal : String → Option PaymentError) (limit : Nat) :
    ((∀ o ∈ c.store.db.unsettledOrders, refused refusal o = false →
        (passes w refusal limit c.store.db.unsettledOrders.length c.store).1.db.lockOrder o.id =
          some (settledStatus o) ∧
        (settledStatus o = .refunded →
          ∀ t ∈ (passes w refusal limit c.store.db.unsettledOrders.length c.store).1.db.tickets.rows,
            t.orderId = o.id → t.status = .void) ∧
        (passes w refusal limit c.store.db.unsettledOrders.length c.store).2.countP (asksFor o.id) =
          if isRepaid o then 1 else 0) ∧
      (∀ o, o ∈ (passes w refusal limit c.store.db.unsettledOrders.length c.store).1.db.unsettledOrders ↔
        o ∈ c.store.db.unsettledOrders ∧ refused refusal o = true) ∧
      ∀ k, Regular s.db k → ∀ i, i < width c.store.db k →
        used (passes w refusal limit c.store.db.unsettledOrders.length c.store).1.db k i +
          load ((c.store.db.unsettledOrders.filter (fun o => !refused refusal o)).flatMap
            (fun o => claimsOf c.store.db o.id)) k i = used c.store.db k i) ↔
      ∀ o ∈ c.store.db.unsettledOrders, refused refusal o = false →
        c.store.db.unsettledOrders.countP (fun r => refused refusal r && decide (r.id < o.id)) < limit := by
  have hlen : c.store.db.unsettledOrders.length = (queue c.store.db).length := (List.length_insertionSort _ _).symm
  obtain ⟨hqueue, ⟨done, hsettled, hnodup, hdone⟩, -, hasked⟩ :=
    passes_settled refusal limit hs hw c.store.db.unsettledOrders.length (Reaches.settleable hs hc)
  rw [← unblocked_iff, ← drained_iff, ← hlen]
  generalize passes w refusal limit c.store.db.unsettledOrders.length c.store = final at *
  constructor
  · rintro ⟨-, hleft, -⟩
    rw [← hqueue]
    apply eq_of_sorted (queue_sorted _) ((queue_sorted _).sublist List.filter_sublist)
    intro o
    rw [queue_mem, hleft, List.mem_filter, queue_mem]
  · intro hdrained
    rw [hdrained] at hqueue hdone hasked
    have hout : ∀ o, o ∈ done ↔ o ∈ c.store.db.unsettledOrders ∧ refused refusal o = false := by
      intro o
      rw [hdone, List.mem_filter, queue_mem]
      cases refused refusal o <;> simp
    refine ⟨?_, ?_, ?_⟩
    · intro o ho hok
      have hmem := (hout o).mpr ⟨ho, hok⟩
      refine ⟨?_, hsettled.voided o hmem, ?_⟩
      · rw [Db.lockOrder, hsettled.settled o hmem]
        rfl
      · rw [hasked o (queue_mem.mpr ho) hok]
        simp [List.mem_filter, hok]
    · intro o
      rw [← queue_mem, hqueue, List.mem_filter, queue_mem]
    · intro k hk i hi
      have hperm : done.Perm (c.store.db.unsettledOrders.filter (fun o => !refused refusal o)) := by
        have hrows : c.store.db.unsettledOrders.Nodup := c.store.db.orders.nodup.of_map.filter _
        rw [List.perm_ext_iff_of_nodup hnodup (hrows.filter _)]
        intro o
        rw [hout, List.mem_filter, Bool.not_eq_true']
      have hload : load (done.flatMap (fun o => claimsOf c.store.db o.id)) k i =
          load ((c.store.db.unsettledOrders.filter (fun o => !refused refusal o)).flatMap
            (fun o => claimsOf c.store.db o.id)) k i :=
        ((hperm.flatMap_right _).map _).sum_eq
      rw [← hload]
      exact hsettled.used k hk i hi

end Cascade

section Harbour

def seatBooking (contact code : String) : NewOrder where
  passengers := [⟨contact, .adult, none⟩]
  items := [⟨1, code, "CEB", "ORM", 1, 1000, some 0⟩]
  ancillaries := []
  currency := "PHP"
  customerId := none
  guestContact := some contact

/-- Two orders are booked and paid for, and then the trip is cancelled. -/
def cancelledTripRun : List (LockAct Request Reply Oracle Nat) :=
  [.arrive (.storeCreate (seatBooking "ana@example.com" "1A")), .read 0 true, .peek 0, .short 0 (drawn 100),
    .arrive (.storeCreate (seatBooking "ben@example.com" "1B")), .read 2 true, .peek 2, .short 2 (drawn 200),
    .arrive (.requestPayment 100), .read 4 true, .reply 4 (.intent (.ok ⟨"pi_1", none⟩)), .lock 4, .plan 4,
    .commit 4 (drawn 0), .arrive (.requestPayment 200), .read 7 true, .reply 7 (.intent (.ok ⟨"pi_2", none⟩)),
    .lock 7, .plan 7, .commit 7 (drawn 0), .arrive (.paymentWebhook none none "pi_1"), .read 10 true, .lock 10,
    .plan 10, .commit 10 (drawn 0), .arrive (.paymentWebhook none none "pi_2"), .read 12 true, .lock 12,
    .plan 12, .commit 12 (drawn 0), .arrive (.cancelTrip 1), .short 14 (drawn 0)]

/-- A provider that does not refund the first order. -/
def firstRefused (intent : String) : Option PaymentError :=
  if intent = "pi_1" then some (.rejected "expired") else none

/-- One at a time, the passes try the refused order over and over. -/
theorem refused_refund_blocks_cascade : ¬ ∀ (app : AppState) (s : World)
    (c : LockConf Request World Tx TxResult Call Reply Answer Uuid LockRead LockRead) (w : Oracle)
    (refusal : String → Option PaymentError) (limit : Nat), s.db.Seeded → Reaches app s c → w.fail = none →
    1 ≤ limit → ∀ o ∈ c.store.db.unsettledOrders, refused refusal o = false →
      (passes w refusal limit c.store.db.unsettledOrders.length c.store).1.db.lockOrder o.id =
        some (settledStatus o) := by
  intro hclaim
  have hrun : ((rowLocks sandbox).exec (RowLocks.init harbour) cancelledTripRun).map (fun c =>
      (c.store.db.unsettledOrders.map (fun o => (o.id, refused firstRefused o, settledStatus o)),
        (passes (drawn 0) firstRefused 1 2 c.store).1.db.lockOrder 200)) =
      some ([(100, true, .refunded), (200, false, .refunded)], some .paid) := by decide
  obtain ⟨c, hc, hend⟩ := Option.map_eq_some_iff.mp hrun
  obtain ⟨horders, hpaid⟩ := Prod.mk.inj hend
  have hlen : c.store.db.unsettledOrders.length = 2 := by
    have h := congrArg List.length horders
    rwa [List.length_map] at h
  have hmem : (200, false, OrderStatus.refunded) ∈
      c.store.db.unsettledOrders.map (fun o => (o.id, refused firstRefused o, settledStatus o)) := by
    rw [horders]
    simp
  obtain ⟨o, ho, hshape⟩ := List.mem_map.mp hmem
  simp only [Prod.mk.injEq] at hshape
  obtain ⟨hid, hok, hstatus⟩ := hshape
  have hsettled := hclaim sandbox harbour c (drawn 0) firstRefused 1 harbour_seeded
    (RowLocks.reachable_of_exec hc) rfl (Nat.le_refl 1) o ho hok
  rw [hlen, hid, hstatus, hpaid] at hsettled
  cases hsettled

/-- Two at a time, the second order is settled. -/
theorem cascade_settles_iff_harbour : ∃ c, Reaches sandbox harbour c ∧
    ∃ o ∈ c.store.db.unsettledOrders, refused firstRefused o = false ∧ o.id = 200 ∧
      (passes (drawn 0) firstRefused 2 c.store.db.unsettledOrders.length c.store).1.db.lockOrder 200 =
        some .refunded := by
  have hrun : ((rowLocks sandbox).exec (RowLocks.init harbour) cancelledTripRun).map (fun c =>
      c.store.db.unsettledOrders.map (fun o => (o.id, refused firstRefused o, settledStatus o))) =
      some [(100, true, .refunded), (200, false, .refunded)] := by decide
  obtain ⟨c, hc, horders⟩ := Option.map_eq_some_iff.mp hrun
  have hreach : Reaches sandbox harbour c := RowLocks.reachable_of_exec hc
  have hmem : (200, false, OrderStatus.refunded) ∈
      c.store.db.unsettledOrders.map (fun o => (o.id, refused firstRefused o, settledStatus o)) := by
    rw [horders]
    simp
  obtain ⟨o, ho, hshape⟩ := List.mem_map.mp hmem
  simp only [Prod.mk.injEq] at hshape
  obtain ⟨hid, hok, hstatus⟩ := hshape
  have hcount : c.store.db.unsettledOrders.countP (fun r => refused firstRefused r) = 1 := by
    have h := congrArg (List.countP (fun p => p.2.1)) horders
    rwa [List.countP_map] at h
  have hfew : ∀ o ∈ c.store.db.unsettledOrders, refused firstRefused o = false →
      c.store.db.unsettledOrders.countP (fun r => refused firstRefused r && decide (r.id < o.id)) < 2 := by
    intro o _ _
    have hle : c.store.db.unsettledOrders.countP (fun r => refused firstRefused r && decide (r.id < o.id)) ≤
        c.store.db.unsettledOrders.countP (fun r => refused firstRefused r) := by
      apply List.countP_mono_left
      intro r _ hr
      exact (Bool.and_eq_true _ _ ▸ hr).1
    omega
  have hsettled :=
    (((cascade_settles_iff harbour_seeded hreach (drawn 0) rfl firstRefused 2).mpr hfew).1 o ho hok).1
  rw [hid, hstatus] at hsettled
  exact ⟨c, hreach, o, ho, hok, hid, hsettled⟩

end Harbour

end Lulan.Proofs
