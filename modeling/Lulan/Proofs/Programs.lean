import Lulan.Api.Site
import Lulan.Proofs.Growth

/-!
# What the handlers run

Each request runs the transactions of its endpoint and no others, on what it has read.
-/

namespace Lulan.Proofs

open Lulan Lulan.Db Lib

/-- `Prog.Only` for programs that can stop with an error; `R` is about what they return. -/
def IoOnly {ε α : Type} (J : World → Prop) (P : Tx → Prop) (Q : Call → Prop) (R : α → Prop) (x : Io ε α) : Prop :=
  Prog.Only J P Q (fun r : Except ε α => ∀ a, r = .ok a → R a) x

section Rules

variable {ε ε' α β : Type} {J : World → Prop} {P : Tx → Prop} {Q : Call → Prop} {R : α → Prop} {R' : β → Prop}

lemma only_pure {a : α} (h : R a) : IoOnly J P Q R (pure a : Io ε α) := by
  intro b hb
  cases hb
  exact h

lemma only_throw (e : ε) : IoOnly J P Q R (throw e : Io ε α) := by
  intro b hb
  cases hb

lemma only_bind {x : Io ε α} {f : α → Io ε β} (hx : IoOnly J P Q R x)
    (hf : ∀ a, R a → IoOnly J P Q R' (f a)) : IoOnly J P Q R' (x >>= f) := by
  refine Prog.only_bind (f := ExceptT.bindCont f) hx ?_
  intro r hr
  cases r with
  | ok a => exact hf a (hr a rfl)
  | error e =>
    intro b hb
    cases hb

lemma IoOnly.weaken {R₁ : α → Prop} {x : Io ε α} (hx : IoOnly J P Q R x) (h : ∀ a, R a → R₁ a) :
    IoOnly J P Q R₁ x :=
  Prog.only_mono hx (fun _ h => h) (fun _ h => h) (fun _ hr a ha => h a (hr a ha))

lemma only_query {fail : DbError → ε} {f : World → Except ε α} (h : ∀ w a, J w → f w = .ok a → R a) :
    IoOnly J P Q R (Io.query fail f) := by
  refine ⟨fun a ha => ?_, fun w hw a ha => h w a hw ha⟩
  cases ha

lemma only_now {R : Timestamp → Prop} (h : ∀ t, R t) : IoOnly J P Q R (Io.now : Io ε Timestamp) := by
  intro w _ a _
  exact h a

lemma only_transact {fail : DbError → ε} {t : Tx} {f : TxResult → Option α} (ht : P t)
    (h : ∀ r a, f r = some a → R a) : IoOnly J P Q R (Io.transact fail t f) := by
  refine ⟨ht, fun r => ?_⟩
  cases r
  case failed e =>
    intro a ha
    cases ha
  all_goals
    simp only
    split
    · rename_i a ha
      intro b hb
      cases hb
      exact h _ _ ha
    · intro b hb
      cases hb

lemma only_attempt {x : Io ε α} (hx : IoOnly J P Q R x) :
    IoOnly J P Q (fun r => ∀ a, r = .ok a → R a) (Io.attempt x : Io ε' (Except ε α)) := by
  refine Prog.only_bind hx ?_
  intro r hr b hb
  cases hb
  exact hr

lemma only_call {q : Call} (hq : Q q) {R : Reply → Prop} (h : ∀ b, R b) :
    IoOnly J P Q R (Io.call q : Io ε Reply) := by
  refine ⟨hq, fun b a ha => ?_⟩
  cases ha
  exact h b

lemma only_mapErr {f : ε → ApiError} {x : Io ε α} (hx : IoOnly J P Q R x) :
    IoOnly J P Q R (Handler.mapErr f x) := by
  refine Prog.only_bind hx ?_
  intro r hr
  cases r with
  | ok a =>
    intro b hb
    cases hb
    exact hr a rfl
  | error e =>
    intro b hb
    cases hb

lemma only_answer {x : Handler α} {f : α → Response} (hx : IoOnly J P Q R x) :
    (x.answer f).Only J P Q (fun _ => True) :=
  Prog.only_bind hx (fun _ _ => trivial)

lemma only_handlerQuery {f : World → α} (h : ∀ w, J w → R (f w)) : IoOnly J P Q R (Handler.query f) := by
  refine only_query (fun w a hw ha => ?_)
  cases ha
  exact h w hw

end Rules

section Stores

variable {J : World → Prop} {P : Tx → Prop} {Q : Call → Prop}

/-- A target was read off a database the handler saw. -/
def ResolvedFrom (J : World → Prop) (tripId : Uuid) (unitCode origin destination : String)
    (target : ClaimTarget) : Prop :=
  ∃ v, J v ∧ Db.resolveTarget v tripId unitCode origin destination = .ok (some target)

/-- Every item of a booking is wired to the target it resolved to. -/
def Resolved (J : World → Prop) (order : NewOrder) (wired : List WiredItem) : Prop :=
  wired.map WiredItem.item = order.items ∧
    ∀ w ∈ wired, ResolvedFrom J w.item.tripId w.item.unitCode w.item.origin w.item.destination w.target ∧
      wireItem order.passengers w.item w.target = .ok w

lemma resolveTarget_only {tripId : Uuid} {unitCode origin destination : String} :
    IoOnly J P Q (fun r => ∀ target, r = some target → ResolvedFrom J tripId unitCode origin destination target)
      (InventoryStore.resolveTarget tripId unitCode origin destination) := by
  refine only_query (fun w r hw hr target ht => ⟨w, hw, ?_⟩)
  rw [hr, ht]

lemma resolveTargets_only {items : List NewOrderItem} :
    IoOnly J P Q (fun r => ∀ targets, r = .ok targets → targets.map Prod.fst = items ∧
        ∀ x ∈ targets, ResolvedFrom J x.1.tripId x.1.unitCode x.1.origin x.1.destination x.2)
      (OrderStore.resolveTargets items) := by
  induction items with
  | nil =>
    refine only_pure (fun targets ht => ?_)
    cases ht
    exact ⟨rfl, by simp⟩
  | cons item rest ih =>
    unfold OrderStore.resolveTargets
    refine only_bind resolveTarget_only (fun r hr => ?_)
    cases r with
    | none => exact only_pure (fun _ h => by cases h)
    | some target =>
      refine only_bind ih (fun r' hr' => ?_)
      cases r' with
      | error o => exact only_pure (fun _ h => by cases h)
      | ok targets =>
        refine only_pure (fun ts h => ?_)
        cases h
        obtain ⟨hm, hall⟩ := hr' targets rfl
        refine ⟨by rw [List.map_cons, hm], ?_⟩
        intro x hx
        rcases List.mem_cons.mp hx with rfl | hx
        · exact hr target rfl
        · exact hall x hx

lemma wireItem_ok {passengers : List NewPassenger} {item : NewOrderItem} {target : ClaimTarget} {w : WiredItem}
    (h : wireItem passengers item target = .ok w) : w.item = item ∧ w.target = target ∧
      (target.kind = .seat → ∃ index, w.slot = some index ∧ index < passengers.length ∧
        item.passengerIndex.or (if passengers.length = 1 then some 0 else none) = some index) := by
  unfold wireItem at h
  cases hk : target.kind with
  | seat =>
    simp only [hk] at h
    split at h
    · cases h
    · rename_i index hi
      split_ifs at h with hlt
      cases h
      refine ⟨rfl, rfl, fun _ => ⟨index, rfl, not_le.mp hlt, ?_⟩⟩
      rw [← hi]
      cases item.passengerIndex <;> rfl
  | pool =>
    simp only [hk] at h
    split_ifs at h
    cases h
    exact ⟨rfl, rfl, fun hs => by cases hs⟩

lemma wireItems_resolved {order : NewOrder} {targets : List (NewOrderItem × ClaimTarget)} {wired : List WiredItem}
    (h : wireItems order.passengers targets = .ok wired)
    (hr : ∀ x ∈ targets, ResolvedFrom J x.1.tripId x.1.unitCode x.1.origin x.1.destination x.2) :
    wired.map WiredItem.item = targets.map Prod.fst ∧
    ∀ w ∈ wired, ResolvedFrom J w.item.tripId w.item.unitCode w.item.origin w.item.destination w.target ∧
      wireItem order.passengers w.item w.target = .ok w := by
  induction targets generalizing wired with
  | nil =>
    cases h
    exact ⟨rfl, by simp⟩
  | cons x rest ih =>
    obtain ⟨w₁, h₁, h⟩ := bind_eq_ok.mp h
    obtain ⟨ws, h₂, h⟩ := bind_eq_ok.mp h
    cases h
    obtain ⟨hmap, hall⟩ := ih h₂ (fun y hy => hr y (List.mem_cons_of_mem _ hy))
    obtain ⟨hi, ht, -⟩ := wireItem_ok h₁
    refine ⟨by rw [List.map_cons, List.map_cons, hmap, hi], ?_⟩
    intro w hw
    rcases List.mem_cons.mp hw with rfl | hw
    · rw [hi, ht]
      exact ⟨hr x List.mem_cons_self, h₁⟩
    · exact hall w hw

lemma create_only {order : NewOrder}
    (hP : ∀ wired expiresAt, Resolved J order wired → P (.createOrder order wired expiresAt)) :
    IoOnly J P Q (fun _ => True) (OrderStore.create order) := by
  unfold OrderStore.create
  split
  · exact only_pure trivial
  · split
    · exact only_pure trivial
    · refine only_bind resolveTargets_only (fun r hr => ?_)
      cases r with
      | error o => exact only_pure trivial
      | ok targets =>
        obtain ⟨hmap, hres⟩ := hr targets rfl
        simp only
        split
        · exact only_pure trivial
        · rename_i wired hw
          obtain ⟨hmap', hall⟩ := wireItems_resolved hw hres
          split
          · exact only_pure trivial
          · refine only_bind (R := fun _ => True) (only_now (fun _ => trivial)) (fun now _ => ?_)
            exact only_transact (hP wired _ ⟨hmap'.trans hmap, hall⟩) (fun _ _ _ => trivial)

lemma expireAll_only {due : List Uuid} {n : Nat} (hP : ∀ id, P (.expire id)) :
    IoOnly J P Q (fun _ => True) (OrderStore.expireAll due n) := by
  induction due generalizing n with
  | nil => exact only_pure trivial
  | cons id rest ih =>
    unfold OrderStore.expireAll
    refine only_bind (R := fun _ => True) (only_transact (hP id) (fun _ _ _ => trivial)) (fun o _ => ?_)
    cases o <;> exact ih

lemma refundMoney_only {ε : Type} {row : OrderRow}
    (hQ : ∀ intent, row.paymentIntentId = some intent → Q (.refund row.id intent row.totalMinor)) :
    IoOnly J P Q (fun _ => True) (OrderStore.refundMoney row : Io ε (Except PaymentError Unit)) := by
  unfold OrderStore.refundMoney
  split
  · exact only_pure trivial
  · rename_i intent hi
    refine only_bind (R := fun _ => True) (only_call (hQ intent hi) (fun _ => trivial)) (fun b _ => ?_)
    cases b <;> exact only_pure trivial

lemma settleOrder_only {row : OrderRow} {stats : CascadeStats} (hc : P (.cancel row.id)) (hr : P (.refund row.id))
    (hQ : ∀ intent, row.paymentIntentId = some intent → Q (.refund row.id intent row.totalMinor)) :
    IoOnly J P Q (fun _ => True) (OrderStore.settleOrder row stats) := by
  have hend : ∀ t, P t → IoOnly J P Q (fun _ => True)
      (Io.attempt (Io.transact .db t TxResult.outcome?) >>= fun o => pure (stats.tally o) : Io StoreError _) := by
    intro t ht
    refine only_bind (only_attempt (R := fun _ => True) (only_transact ht (fun _ _ _ => trivial))) (fun o _ => ?_)
    exact only_pure trivial
  unfold OrderStore.settleOrder
  split
  · exact hend _ hc
  · refine only_bind (refundMoney_only hQ) (fun r _ => ?_)
    cases r with
    | error e => exact only_pure trivial
    | ok _ => exact hend _ hr

lemma settleOrders_only {rows : List OrderRow} {stats : CascadeStats} (hc : ∀ id, P (.cancel id))
    (hr : ∀ id, P (.refund id)) (hQ : ∀ id intent total, Q (.refund id intent total)) :
    IoOnly J P Q (fun _ => True) (OrderStore.settleOrders rows stats) := by
  induction rows generalizing stats with
  | nil => exact only_pure trivial
  | cons row rest ih =>
    refine only_bind (settleOrder_only (hc _) (hr _) (fun _ _ => hQ _ _ _)) (fun _ _ => ?_)
    exact ih

lemma settleCancelledTrips_only {limit : Nat} (hc : ∀ id, P (.cancel id)) (hr : ∀ id, P (.refund id))
    (hQ : ∀ id intent total, Q (.refund id intent total)) :
    IoOnly J P Q (fun _ => True) (OrderStore.settleCancelledTrips limit) := by
  refine only_bind (R := fun _ => True) (only_query (fun _ _ _ _ => trivial)) (fun rows _ => ?_)
  refine only_bind (settleOrders_only hc hr hQ) (fun stats _ => ?_)
  refine only_bind (R := fun _ => True) (only_query (fun _ _ _ _ => trivial)) (fun _ _ => ?_)
  exact only_pure trivial

lemma issueForOrder_only {orderId : Uuid} (hP : ∀ signer, P (.issueForOrder orderId signer)) :
    IoOnly J P Q (fun _ => True) (TicketStore.issueForOrder orderId) := by
  refine only_bind (R := fun _ => True) ?_ (fun signer _ => ?_)
  · refine only_bind (R := fun _ => True) (only_query (fun _ _ _ _ => trivial)) (fun row _ => ?_)
    cases row with
    | none => exact only_throw _
    | some row =>
      simp only
      split
      · exact only_throw _
      · exact only_pure trivial
  · refine only_bind (R := fun _ => True) (only_transact (hP signer) (fun _ _ _ => trivial)) (fun o _ => ?_)
    cases o with
    | issued tickets => exact only_pure trivial
    | alreadyTicketed => exact only_query (fun _ _ _ _ => trivial)
    | notPaid status => exact only_throw _
    | orderNotFound => exact only_throw _

end Stores

end Lulan.Proofs
