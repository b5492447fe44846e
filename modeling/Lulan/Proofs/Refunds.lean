import Mathlib.Data.List.Induction
import Lulan.Lib.Walk
import Lulan.Proofs.Boarding

/-!
# Refunded money

A refund pays the money back first and tells the order afterwards. What an order and its
history say about money that has left, and about money that has left but is not recorded
yet.
-/

namespace Lulan.Proofs

open Lulan Lulan.Db Lib

section Payouts

variable {orderId : Uuid} {pid : Nat} {h h' : List Event} {ev : Event}

/-- The provider confirmed a refund of the order. -/
def paidBack (orderId : Uuid) : Event → Bool
  | .call _ _ (.refund id _ _) (.refunded (.ok _)) => decide (id = orderId)
  | _ => false

/-- How often the money of an order left. -/
def payouts (orderId : Uuid) (h : List Event) : Nat := h.countP (paidBack orderId)

/-- An event's effect on the requests that had the money of an order paid back and have
not told the order yet. -/
def owing (orderId : Uuid) (pids : List Nat) : Event → List Nat
  | .call pid _ (.refund id _ _) (.refunded (.ok _)) => if id = orderId then pid :: pids else pids
  | .commit pid _ (.refund id) _ => if id = orderId then pids.erase pid else pids
  | _ => pids

/-- Who still owes the order word of a refund. -/
def unrecorded (orderId : Uuid) (h : List Event) : List Nat := h.foldl (owing orderId) []

@[simp] lemma payouts_concat : payouts orderId (h ++ [ev]) =
    payouts orderId h + if paidBack orderId ev = true then 1 else 0 := by
  rw [payouts, List.countP_append, List.countP_singleton]
  rfl

@[simp] lemma unrecorded_concat : unrecorded orderId (h ++ [ev]) = owing orderId (unrecorded orderId h) ev := by
  rw [unrecorded, List.foldl_append]
  rfl

/-- An event that is about no refund of the order. -/
def Aside (orderId : Uuid) : Event → Prop
  | .call _ _ (.refund id _ _) (.refunded (.ok _)) => id ≠ orderId
  | .commit _ _ (.refund id) _ => id ≠ orderId
  | _ => True

lemma Aside.owing (ha : Aside orderId ev) (pids : List Nat) : Proofs.owing orderId pids ev = pids := by
  unfold Proofs.owing
  split
  · exact if_neg ha
  · exact if_neg ha
  · rfl

lemma Aside.paidBack (ha : Aside orderId ev) : Proofs.paidBack orderId ev = false := by
  unfold Proofs.paidBack
  split
  · exact decide_eq_false ha
  · rfl

lemma mem_owing {pids : List Nat} (hne : ev.pid ≠ pid) : pid ∈ owing orderId pids ev ↔ pid ∈ pids := by
  unfold owing
  split
  · split
    · rw [List.mem_cons]
      exact ⟨fun hm => hm.resolve_left (Ne.symm hne), .inr⟩
    · rfl
  · split
    · exact List.mem_erase_of_ne (Ne.symm hne)
    · rfl
  · rfl

lemma mem_unrecorded (hl : Site.Later pid h h') : pid ∈ unrecorded orderId h' ↔ pid ∈ unrecorded orderId h := by
  obtain ⟨l, rfl, hl⟩ := hl
  induction l using List.reverseRecOn with
  | nil => rw [List.append_nil]
  | append_singleton l ev ih =>
    rw [← List.append_assoc, unrecorded_concat, mem_owing (hl ev (by simp))]
    exact ih (fun x hx => hl x (List.mem_append_left _ hx))

end Payouts

section Accounts

variable {orderId : Uuid} {s : World} {h : List Event} {t : Tx} {w : Oracle} {pid : Nat} {i : Request}

/-- The condition on a run: the money of the order is paid back while the order is Paid or
Ticketed and nobody else's payout is unrecorded; until the payout is recorded no scan
boards the order's last passenger, and recording it does not fail. -/
def OneRefund (orderId : Uuid) (s : World) (h : List Event) : Event → Prop
  | .call _ _ (.refund id _ _) (.refunded (.ok _)) => id = orderId → unrecorded orderId h = [] ∧
      (s.db.lockOrder orderId = some .paid ∨ s.db.lockOrder orderId = some .ticketed)
  | .commit pid _ (.refund id) (.failed _) => id = orderId → pid ∉ unrecorded orderId h
  | .commit _ _ (.recordScan ticketId _ _ _) (.scanned o) => o.orderStatus.isSome = true →
      (s.db.tickets.find? ticketId).map TicketRow.orderId = some orderId → unrecorded orderId h = []
  | _ => True

/-- The money is still there; or it left once, and the order is refunded or somebody is
about to refund it. -/
def Accounted (orderId : Uuid) (s : World) (h : List Event) : Prop :=
  (payouts orderId h = 0 ∧ unrecorded orderId h = []) ∨
  (payouts orderId h = 1 ∧ (∃ pid, unrecorded orderId h = [pid]) ∧ ∃ st, s.db.lockOrder orderId = some st ∧
    (st = .paid ∨ st = .ticketed ∨ st = .refunded)) ∨
  (payouts orderId h = 1 ∧ unrecorded orderId h = [] ∧ s.db.lockOrder orderId = some .refunded)

lemma Accounted.env {now : Timestamp} (ha : Accounted orderId s h) : Accounted orderId { s with now := now } h := ha

lemma Accounted.aside {s' : World} {ev : Event} (ha : Accounted orderId s h) (hev : Aside orderId ev)
    (hs : s'.db.lockOrder orderId = s.db.lockOrder orderId) : Accounted orderId s' (h ++ [ev]) := by
  unfold Accounted at ha ⊢
  rw [payouts_concat, hev.paidBack, unrecorded_concat, hev.owing, hs]
  simpa using ha

lemma Accounted.call {intent : String} {amount : Int} (ha : Accounted orderId s h)
    (hG : OneRefund orderId s h (.call pid i (.refund orderId intent amount) (.refunded (.ok ())))) :
    Accounted orderId s (h ++ [.call pid i (.refund orderId intent amount) (.refunded (.ok ()))]) := by
  obtain ⟨hnone, hst⟩ := hG rfl
  refine .inr (.inl ⟨?_, ⟨pid, ?_⟩, ?_⟩)
  · rcases ha with ⟨h₀, -⟩ | ⟨-, ⟨q, hq⟩, -⟩ | ⟨-, -, href⟩
    · rw [payouts_concat, h₀]
      simp [paidBack]
    · rw [hnone] at hq
      cases hq
    · rw [href] at hst
      rcases hst with hst | hst <;> cases hst
  · rw [unrecorded_concat, hnone]
    simp [owing]
  · rcases hst with hst | hst
    · exact ⟨_, hst, .inl rfl⟩
    · exact ⟨_, hst, .inr (.inl rfl)⟩

lemma status_step {st : OrderStatus} (hs : s.db.lockOrder orderId = some st)
    (hst : st = .paid ∨ st = .ticketed ∨ st = .refunded) :
    ∃ st', (t.run w s).2.db.lockOrder orderId = some st' ∧ (st = .refunded → st' = .refunded) ∧
      (st' = .paid ∨ st' = .ticketed ∨ st' = .refunded ∨
        (st = .ticketed ∧ moveOf s.db t (t.run w s).1 = some (orderId, .passengerBoarded))) := by
  obtain ⟨st', hs', ⟨rfl, -⟩ | ⟨event, hm, happ⟩⟩ := (run_effect t w s).1.lockOrder_step hs
  · refine ⟨st', hs', fun h => h, ?_⟩
    rcases hst with h | h | h
    · exact .inl h
    · exact .inr (.inl h)
    · exact .inr (.inr (.inl h))
  · refine ⟨st', hs', fun h => ?_, ?_⟩
    · rw [h] at happ
      cases event <;> cases happ
    · rcases hst with h | h | h
      · rw [h] at happ
        cases event <;> cases happ
        · exact .inr (.inl rfl)
        · exact .inr (.inr (.inl rfl))
      · rw [h] at happ
        cases event <;> cases happ
        · exact .inr (.inr (.inr ⟨h, hm⟩))
        · exact .inr (.inr (.inl rfl))
      · rw [h] at happ
        cases event <;> cases happ

lemma refund_result (orderId : Uuid) (w : Oracle) (s : World) :
    (∃ outcome released, ((Tx.refund orderId).run w s).1 = .transition outcome released) ∨
    ∃ e, (Tx.refund orderId).run w s = (.failed e, s) := by
  unfold Tx.run
  split
  · exact .inr ⟨_, rfl⟩
  · simp only [Tx.body]
    cases s.db.refund (Tx.reads (.refund orderId) s).current (Tx.reads (.refund orderId) s).seq orderId with
    | error e => exact .inr ⟨e, rfl⟩
    | ok x => exact .inl ⟨x.1, x.2.1, rfl⟩

lemma refund_refunds {st : OrderStatus} (hs : s.db.lockOrder orderId = some st)
    (hst : st = .paid ∨ st = .ticketed ∨ st = .refunded)
    (hok : ∀ e, ((Tx.refund orderId).run w s).1 ≠ .failed e) :
    ((Tx.refund orderId).run w s).2.db.lockOrder orderId = some .refunded := by
  obtain ⟨row, hrow, hstatus⟩ := Option.map_eq_some_iff.mp hs
  rcases refund_result orderId w s with ⟨outcome, released, hr⟩ | ⟨e, hr⟩
  · have hj : Judged s.db orderId .orderRefunded outcome := run_judged rfl hr
    cases outcome with
    | applied next =>
      have hm : moveOf s.db (.refund orderId) ((Tx.refund orderId).run w s).1 = some (orderId, .orderRefunded) := by
        rw [hr]
        rfl
      obtain ⟨row', next', hrow', happ, hk⟩ := (run_effect (.refund orderId) w s).1.moved hm
      rw [hrow] at hrow'
      cases hrow'
      rw [Db.lockOrder, hk, if_pos rfl, Option.map_some]
      rw [hstatus] at happ
      rcases hst with rfl | rfl | rfl <;> cases happ <;> rfl
    | noOp cur =>
      obtain ⟨hcur, e, he⟩ := hj
      rw [hs] at hcur
      cases hcur
      obtain ⟨st', hs', hback, -⟩ := status_step (t := .refund orderId) (w := w) hs hst
      rcases hst with rfl | rfl | rfl
      · cases he
      · cases he
      · rw [hs', hback rfl]
    | notFound =>
      have hnone : s.db.lockOrder orderId = none := hj
      rw [hs] at hnone
      cases hnone
  · exact absurd (congrArg Prod.fst hr) (hok e)

lemma Accounted.commit (ha : Accounted orderId s h)
    (hG : OneRefund orderId s h (.commit pid i t (t.run w s).1)) :
    Accounted orderId (t.run w s).2 (h ++ [.commit pid i t (t.run w s).1]) := by
  have hpay : payouts orderId (h ++ [.commit pid i t (t.run w s).1]) = payouts orderId h := by
    simp [paidBack]
  by_cases hrec : t = .refund orderId ∧ pid ∈ unrecorded orderId h
  · obtain ⟨rfl, hpid⟩ := hrec
    rcases ha with ⟨-, hnone⟩ | ⟨hone, ⟨q, hq⟩, st, hs, hst⟩ | ⟨-, hnone, -⟩
    · rw [hnone] at hpid
      cases hpid
    · have hok : ∀ e, ((Tx.refund orderId).run w s).1 ≠ .failed e := by
        intro e he
        rw [he] at hG
        exact hG rfl hpid
      refine .inr (.inr ⟨by rw [hpay, hone], ?_, refund_refunds hs hst hok⟩)
      rw [hq, List.mem_singleton] at hpid
      rw [unrecorded_concat, hq, hpid]
      simp [owing]
    · rw [hnone] at hpid
      cases hpid
  · have hun : unrecorded orderId (h ++ [.commit pid i t (t.run w s).1]) = unrecorded orderId h := by
      rw [unrecorded_concat]
      unfold owing
      split
      · rename_i he
        cases he
      · rename_i pid' i' id r he
        cases he
        split
        · rename_i hid
          refine List.erase_of_not_mem (fun hm => hrec ⟨by rw [hid], hm⟩)
        · rfl
      · rfl
    rcases ha with ⟨hzero, hnone⟩ | ⟨hone, ⟨q, hq⟩, st, hs, hst⟩ | ⟨hone, hnone, hs⟩
    · exact .inl ⟨by rw [hpay, hzero], by rw [hun, hnone]⟩
    · obtain ⟨st', hs', -, hnext⟩ := status_step (t := t) (w := w) hs hst
      refine .inr (.inl ⟨by rw [hpay, hone], ⟨q, by rw [hun, hq]⟩, st', hs', ?_⟩)
      rcases hnext with h₁ | h₁ | h₁ | ⟨-, hm⟩
      · exact .inl h₁
      · exact .inr (.inl h₁)
      · exact .inr (.inr h₁)
      · obtain ⟨ticketId, deviceId, scannedAt, result, o, rfl, hres, hsome, horder⟩ := boards_of_moveOf hm
        rw [hres] at hG
        have hempty := hG hsome horder
        rw [hq] at hempty
        cases hempty
    · obtain ⟨st', hs', hback, -⟩ := status_step (t := t) (w := w) hs (.inr (.inr rfl))
      exact .inr (.inr ⟨by rw [hpay, hone], by rw [hun, hnone], by rw [hs', hback rfl]⟩)

end Accounts

section Handlers

variable {app : AppState} {orderId id : Uuid} {pid : Nat} {i : Request} {h : List Event} {ε α : Type}

lemma Accounted.nodup {s : World} (ha : Accounted orderId s h) : (unrecorded orderId h).Nodup := by
  rcases ha with ⟨-, hnone⟩ | ⟨-, ⟨q, hq⟩, -⟩ | ⟨-, hnone, -⟩
  · rw [hnone]
    exact List.nodup_nil
  · rw [hq]
    exact List.nodup_singleton q
  · rw [hnone]
    exact List.nodup_nil

lemma clear_keeps {P : Tx → Prop} {Q : Call → Prop} {R : α → Prop} {p : Program α}
    (hp : p.Only (fun _ => True) P Q R) (hQ : ∀ q, Q q → ∀ id intent amount, q ≠ .refund id intent amount)
    (hC : pid ∉ unrecorded orderId h) :
    (site app).Keeps (OneRefund orderId) (Accounted orderId) pid i
      (fun g _ => pid ∉ unrecorded orderId g) p h := by
  refine (Site.keeps_carrying (C := fun g => pid ∉ unrecorded orderId g) hp (fun _ _ _ _ => trivial)
    (fun g g' hl hc => ?_) ?_ ?_ h hC).weaken (fun _ _ hr => hr.1)
  · rw [mem_unrecorded hl]
    exact hc
  · intro t w s g _ ha hc hG
    refine ⟨ha.commit hG, ?_⟩
    rw [unrecorded_concat]
    unfold owing
    split
    · rename_i he
      cases he
    · rename_i he
      cases he
      split
      · exact fun hm => hc (List.mem_of_mem_erase hm)
      · exact hc
    · exact hc
  · intro q b s g hq _ ha hc _
    have haside : Aside orderId (.call pid i q b) := by
      unfold Aside
      split
      · rename_i he
        cases he
        exact absurd rfl (hQ _ hq _ _ _)
      · rename_i he
        cases he
      · trivial
    refine ⟨ha.aside haside rfl, ?_⟩
    rw [unrecorded_concat, haside.owing]
    exact hc

/-- What a request owes once the provider has answered for the order `id`. -/
def Owes (orderId id : Uuid) (pid : Nat) (g : List Event) : Except ε (Except PaymentError Unit) → Prop
  | .ok (.ok _) => pid ∈ unrecorded orderId g → id = orderId
  | _ => pid ∉ unrecorded orderId g

lemma Owes.later {g g' : List Event} {r : Except ε (Except PaymentError Unit)} (ho : Owes orderId id pid g r)
    (hl : Site.Later pid g g') : Owes orderId id pid g' r := by
  unfold Owes at ho ⊢
  split at ho
  · rw [mem_unrecorded hl]
    exact ho
  · rw [mem_unrecorded hl]
    exact ho

lemma refundMoney_keeps (row : OrderRow) (hC : pid ∉ unrecorded orderId h) :
    (site app).Keeps (OneRefund orderId) (Accounted orderId) pid i (Owes orderId row.id pid)
      (OrderStore.refundMoney row : Io ε (Except PaymentError Unit)) h := by
  unfold OrderStore.refundMoney
  split
  · exact keeps_pure (fun g hg hm => absurd ((mem_unrecorded hg).mp hm) hC)
  · rename_i intent _
    refine keeps_seq (R := fun g r => ∃ b, r = .ok b ∧ (pid ∈ unrecorded orderId g →
      b = .refunded (.ok ()) ∧ row.id = orderId)) (keeps_call ?_) (fun b g hb => ?_) (fun e g he => ?_)
    · intro b s g _ hg ha hG
      have hc : pid ∉ unrecorded orderId g := by
        rw [mem_unrecorded hg]
        exact hC
      by_cases hpaid : b = .refunded (.ok ()) ∧ row.id = orderId
      · obtain ⟨rfl, hid⟩ := hpaid
        rw [hid] at hG ⊢
        exact ⟨ha.call hG, fun g' _ => ⟨_, rfl, fun _ => ⟨rfl, rfl⟩⟩⟩
      · have haside : Aside orderId (.call pid i (.refund row.id intent row.totalMinor) b) := by
          unfold Aside
          split
          · rename_i he
            cases he
            exact fun hid => hpaid ⟨rfl, hid⟩
          · rename_i he
            cases he
          · trivial
        refine ⟨ha.aside haside rfl, fun g' hg' => ⟨b, rfl, fun hm => ?_⟩⟩
        rw [mem_unrecorded hg', unrecorded_concat, haside.owing] at hm
        exact absurd hm hc
    · obtain ⟨b', hb', hb⟩ := hb
      cases hb'
      cases b with
      | refunded result =>
        cases result with
        | ok u =>
          refine keeps_pure (fun g' hg' hm => (hb ?_).2)
          exact (mem_unrecorded hg').mp hm
        | error e =>
          refine keeps_pure (fun g' hg' hm => ?_)
          cases (hb ((mem_unrecorded hg').mp hm)).1
      | _ =>
        refine keeps_pure (fun g' hg' hm => ?_)
        cases (hb ((mem_unrecorded hg').mp hm)).1
    · obtain ⟨b, hb, -⟩ := he
      cases hb

lemma refund_keeps (hO : pid ∈ unrecorded orderId h → id = orderId) :
    (site app).Keeps (OneRefund orderId) (Accounted orderId) pid i
      (fun g _ => pid ∉ unrecorded orderId g) (OrderStore.refund id) h := by
  refine keeps_transact (fun w s g hg ha hG => ⟨ha.commit hG, fun g' hg' => ?_⟩)
  rw [mem_unrecorded hg', unrecorded_concat]
  by_cases hid : id = orderId
  · simp only [owing, if_pos hid]
    exact ha.nodup.not_mem_erase
  · simp only [owing, if_neg hid]
    rw [mem_unrecorded hg]
    exact fun hm => hid (hO hm)

lemma settleOrder_keeps {row : OrderRow} {stats : CascadeStats} (hC : pid ∉ unrecorded orderId h) :
    (site app).Keeps (OneRefund orderId) (Accounted orderId) pid i
      (fun g _ => pid ∉ unrecorded orderId g) (OrderStore.settleOrder row stats) h := by
  have hlater : ∀ {g g' : List Event}, Site.Later pid g g' → pid ∉ unrecorded orderId g →
      pid ∉ unrecorded orderId g' := by
    intro g g' hl hc
    rw [mem_unrecorded hl]
    exact hc
  unfold OrderStore.settleOrder
  split
  · have honly : IoOnly (fun _ => True) (fun _ => True) (fun _ => False) (fun _ => True)
        (Io.attempt (OrderStore.cancel row.id) >>= fun o => pure (stats.tally o) : Io StoreError _) := by
      have hcancel : IoOnly (fun _ => True) (fun _ => True) (fun _ => False) (fun _ => True)
          (OrderStore.cancel row.id) := only_transact trivial (fun _ _ _ => trivial)
      exact only_bind (only_attempt hcancel) (fun o _ => only_pure trivial)
    exact clear_keeps honly (fun _ hq => hq.elim) hC
  · refine keeps_seq (refundMoney_keeps row hC) (fun r g ho => ?_) (fun e g ho g' hg' => hlater hg' ho)
    cases r with
    | error e => exact keeps_pure (fun g' hg' => hlater hg' ho)
    | ok u =>
      refine keeps_seq (R := fun g _ => pid ∉ unrecorded orderId g)
        (keeps_attempt (refund_keeps ho) (fun r g hc g' hg' => hlater hg' hc)) (fun o g hc => ?_)
        (fun e g hc g' hg' => hlater hg' hc)
      exact keeps_pure (fun g' hg' => hlater hg' hc)

lemma settleOrders_keeps {rows : List OrderRow} {stats : CascadeStats} (hC : pid ∉ unrecorded orderId h) :
    (site app).Keeps (OneRefund orderId) (Accounted orderId) pid i
      (fun g _ => pid ∉ unrecorded orderId g) (OrderStore.settleOrders rows stats) h := by
  induction rows generalizing stats h with
  | nil => exact keeps_pure (fun g hg hm => hC ((mem_unrecorded hg).mp hm))
  | cons row rest ih =>
    refine keeps_seq (settleOrder_keeps hC) (fun stats' g hc => ih hc) (fun e g hc g' hg' hm => ?_)
    exact hc ((mem_unrecorded hg').mp hm)

lemma settleCancelledTrips_keeps {limit : Nat} (hC : pid ∉ unrecorded orderId h) :
    (site app).Keeps (OneRefund orderId) (Accounted orderId) pid i
      (fun g _ => pid ∉ unrecorded orderId g) (OrderStore.settleCancelledTrips limit) h := by
  have hlater : ∀ {g g' : List Event}, Site.Later pid g g' → pid ∉ unrecorded orderId g →
      pid ∉ unrecorded orderId g' := fun hl hc hm => hc ((mem_unrecorded hl).mp hm)
  refine keeps_seq (R := fun g _ => pid ∉ unrecorded orderId g)
    (keeps_query (fun g hg => hlater hg hC) (fun _ g hg _ g' hg' => hlater hg' (hlater hg hC)))
    (fun rows g hc => ?_) (fun e g hc g' hg' => hlater hg' hc)
  refine keeps_seq (settleOrders_keeps hc) (fun stats g hc => ?_) (fun e g hc g' hg' => hlater hg' hc)
  refine keeps_seq (R := fun g _ => pid ∉ unrecorded orderId g)
    (keeps_query (fun g' hg => hlater hg hc) (fun _ g₁ hg _ g' hg' => hlater hg' (hlater hg hc)))
    (fun n g hc => ?_) (fun e g hc g' hg' => hlater hg' hc)
  exact keeps_pure (fun g' hg' => hlater hg' hc)

lemma refundOrder_keeps (hC : pid ∉ unrecorded orderId h) :
    (site app).Keeps (OneRefund orderId) (Accounted orderId) pid i
      (fun g _ => pid ∉ unrecorded orderId g) (Admin.refundOrder id) h := by
  have hlater : ∀ {g g' : List Event}, Site.Later pid g g' → pid ∉ unrecorded orderId g →
      pid ∉ unrecorded orderId g' := fun hl hc hm => hc ((mem_unrecorded hl).mp hm)
  have hfound : ∀ (v : World) (row : OrderRow),
      (Except.ok (v.db.orders.find? id) : Except ApiError (Option OrderRow)) = .ok (some row) → row.id = id := by
    intro v row hr
    have hfind : v.db.orders.find? id = some row := Except.ok.inj hr
    exact Lib.Table.find?_key hfind
  refine keeps_seq (R := fun g r => pid ∉ unrecorded orderId g ∧ ∀ row, r = .ok (some row) → row.id = id)
    (keeps_query (fun g hg => ⟨hlater hg hC, fun row hr => nomatch hr⟩)
      (fun v g hg _ g' hg' => ⟨hlater hg' (hlater hg hC), hfound v⟩))
    (fun r g hr => ?_) (fun e g hc g' hg' => hlater hg' hc.1)
  obtain ⟨hc, hid⟩ := hr
  cases r with
  | none => exact keeps_throw (fun g' hg' => hlater hg' hc)
  | some row =>
    refine keeps_seq (refundMoney_keeps row hc) (fun r g ho => ?_) (fun e g ho g' hg' => hlater hg' ho)
    cases r with
    | error e => exact keeps_throw (fun g' hg' => hlater hg' ho)
    | ok u =>
      have howes : pid ∈ unrecorded orderId g → id = orderId := fun hm => (hid row rfl).symm.trans (ho hm)
      refine keeps_seq (R := fun g _ => pid ∉ unrecorded orderId g)
        (keeps_mapErr (refund_keeps howes) (fun o g hc g' hg' => hlater hg' hc)
          (fun e g hc g' hg' => hlater hg' hc)) (fun o g hc => ?_) (fun e g hc g' hg' => hlater hg' hc)
      cases o with
      | applied status =>
        have honly : IoOnly (fun _ => True) (fun _ => True) (fun _ => False) (fun _ => True)
            (Handler.transact (.audit ⟨"order.refunded", some id, none⟩) TxResult.rows? >>= fun _ => pure status :
              Handler OrderStatus) := by
          refine only_bind (R := fun _ => True) (only_transact trivial (fun _ _ _ => trivial)) (fun _ _ => ?_)
          exact only_pure trivial
        exact clear_keeps honly (fun _ hq => hq.elim) hc
      | noOp current => exact keeps_throw (fun g' hg' => hlater hg' hc)
      | notFound => exact keeps_throw (fun g' hg' => hlater hg' hc)

lemma cancelTrip_keeps {tripId : Uuid} (hC : pid ∉ unrecorded orderId h) :
    (site app).Keeps (OneRefund orderId) (Accounted orderId) pid i
      (fun g _ => pid ∉ unrecorded orderId g) (Admin.cancelTrip tripId) h := by
  have hlater : ∀ {g g' : List Event}, Site.Later pid g g' → pid ∉ unrecorded orderId g →
      pid ∉ unrecorded orderId g' := fun hl hc hm => hc ((mem_unrecorded hl).mp hm)
  have htx : ∀ {t : Tx} {h : List Event}, pid ∉ unrecorded orderId h →
      (site app).Keeps (OneRefund orderId) (Accounted orderId) pid i (fun g _ => pid ∉ unrecorded orderId g)
        (Handler.transact t TxResult.rows?) h := by
    intro t h hc
    have honly : IoOnly (fun _ => True) (fun _ => True) (fun _ => False) (fun _ => True)
        (Handler.transact t TxResult.rows?) := only_transact trivial (fun _ _ _ => trivial)
    exact clear_keeps honly (fun _ hq => hq.elim) hc
  refine keeps_seq (htx hC) (fun n g hc => ?_) (fun e g hc g' hg' => hlater hg' hc)
  split
  · exact keeps_throw (fun g' hg' => hlater hg' hc)
  · refine keeps_seq (R := fun g _ => pid ∉ unrecorded orderId g)
      (keeps_mapErr (settleCancelledTrips_keeps hc) (fun o g hc g' hg' => hlater hg' hc)
        (fun e g hc g' hg' => hlater hg' hc)) (fun stats g hc => ?_) (fun e g hc g' hg' => hlater hg' hc)
    refine keeps_seq (htx hc) (fun n g hc => ?_) (fun e g hc g' hg' => hlater hg' hc)
    exact keeps_pure (fun g' hg' => hlater hg' hc)

lemma refundless {i : Request} {q : Call} {intent : String} {amount : Int} (hq : Calls i q)
    (he : q = .refund id intent amount) :
    i = .refundOrder id ∨ (∃ tripId, i = .cancelTrip tripId) ∨ ∃ limit, i = .settleCancelledTrips limit := by
  subst he
  cases i with
  | refundOrder orderId =>
    have hid : id = orderId := hq
    exact .inl (by rw [hid])
  | cancelTrip tripId => exact .inr (.inl ⟨tripId, rfl⟩)
  | settleCancelledTrips limit => exact .inr (.inr ⟨limit, rfl⟩)
  | _ => exact hq.elim

/-- Every handler keeps the account and owes nothing in the end. -/
lemma handler_keeps (app : AppState) (i : Request) (hC : pid ∉ unrecorded orderId h) :
    (site app).Keeps (OneRefund orderId) (Accounted orderId) pid i
      (fun g _ => pid ∉ unrecorded orderId g) (Request.handler app i) h := by
  have hlater : ∀ {g g' : List Event}, Site.Later pid g g' → pid ∉ unrecorded orderId g →
      pid ∉ unrecorded orderId g' := fun hl hc hm => hc ((mem_unrecorded hl).mp hm)
  by_cases hpays : (∃ id, i = .refundOrder id) ∨ (∃ tripId, i = .cancelTrip tripId) ∨
      ∃ limit, i = .settleCancelledTrips limit
  · rcases hpays with ⟨id, rfl⟩ | ⟨tripId, rfl⟩ | ⟨limit, rfl⟩
    · exact keeps_answer (refundOrder_keeps hC) (fun _ _ hc _ hg => hlater hg hc)
    · exact keeps_answer (cancelTrip_keeps hC) (fun _ _ hc _ hg => hlater hg hc)
    · refine keeps_answer (R := fun g _ => pid ∉ unrecorded orderId g) ?_ (fun _ _ hc _ hg => hlater hg hc)
      exact keeps_mapErr (settleCancelledTrips_keeps hC) (fun o g hc g' hg' => hlater hg' hc)
        (fun e g hc g' hg' => hlater hg' hc)
  · refine clear_keeps (Prog.only_mono (handler_only (fun _ => True) app i) (fun _ _ => trivial) (fun _ hq => hq)
      (fun _ hr => hr)) ?_ hC
    intro q hq id intent amount he
    rcases refundless hq he with hi | hi
    · exact hpays (.inl ⟨id, hi⟩)
    · exact hpays (.inr hi)

end Handlers

section Runs

variable {app : AppState} {orderId : Uuid} {c : Lib.Conf Request World Tx TxResult Call Reply Answer}

lemma not_mem_unrecorded {n : Nat} {h : List Event} (hpids : ∀ ev ∈ h, ev.pid < n) : n ∉ unrecorded orderId h := by
  have hl : Site.Later n ([] : List Event) h :=
    ⟨h, (List.nil_append h).symm, fun ev hev => Nat.ne_of_lt (hpids ev hev)⟩
  rw [mem_unrecorded hl]
  exact List.not_mem_nil

lemma refund_protocol (app : AppState) (orderId : Uuid) : Site.Protocol (site app) (OneRefund orderId)
    (Accounted orderId) (fun pid _ g _ => pid ∉ unrecorded orderId g) where
  env _ _ _ ha := ha
  answer _ _ _ _ _ ha _ _ := ha.aside trivial rfl
  arrive s h i ha hpids _ := by
    refine ⟨ha.aside trivial rfl, handler_keeps app i ?_⟩
    rw [unrecorded_concat]
    exact not_mem_unrecorded hpids

lemma arrived_of_unrecorded {s : World} (hc : (site app).ReachableWhen (OneRefund orderId) (Site.init s) c)
    {pid : Nat} (hm : pid ∈ unrecorded orderId c.trace) : ∃ i, .arrive pid i ∈ c.trace := by
  by_contra hno
  refine absurd hm ?_
  have hl : Site.Later pid ([] : List Event) c.trace := by
    refine ⟨c.trace, (List.nil_append _).symm, fun ev hev he => hno ?_⟩
    rw [← he]
    exact (Site.arrived hc).2 ev hev
  rw [mem_unrecorded hl]
  exact List.not_mem_nil

/-- The money of an order leaves at most once, and when every request has been answered
it has only left if the order is refunded. -/
theorem refunded_once {s : World}
    {c : LockConf Request World Tx TxResult Call Reply Answer Uuid LockRead LockRead}
    (hc : (rowLocks app).ReachableWhen (OneRefund orderId) (RowLocks.init s) c) :
    payouts orderId c.trace ≤ 1 ∧ ((∀ pid, c.procs pid = none) → payouts orderId c.trace = 1 →
      c.store.db.lockOrder orderId = some .refunded) := by
  have hat := (rowLocks app).reachable_atomicWhen hc
  have h₀ : Accounted orderId s [] := .inl ⟨rfl, rfl⟩
  have ha : Accounted orderId c.store c.trace := ((refund_protocol app orderId).invariant h₀ hat).1
  rcases ha with ⟨hzero, -⟩ | ⟨hone, ⟨pid, hpid⟩, -⟩ | ⟨hone, -, href⟩
  · rw [hzero]
    exact ⟨Nat.zero_le 1, fun _ h => nomatch h⟩
  · refine ⟨Nat.le_of_eq hone, fun hidle _ => ?_⟩
    have hmem : pid ∈ unrecorded orderId c.trace := by
      rw [hpid]
      exact List.mem_singleton.mpr rfl
    obtain ⟨i, hi⟩ := arrived_of_unrecorded hat hmem
    have hnone : (RowLocks.atomic c).procs pid = none := by
      simp only [RowLocks.atomic, hidle pid, Option.map_none]
    obtain ⟨g, j, a, hl⟩ := Site.answered_of_none hat hi hnone
    obtain ⟨l, htrace, -⟩ := id hl
    have hclear := (refund_protocol app orderId).answered h₀ hat ⟨l, htrace.symm⟩
    have hmem' := (mem_unrecorded hl).mp hmem
    rw [unrecorded_concat] at hmem'
    exact absurd hmem' hclear
  · exact ⟨Nat.le_of_eq hone, fun _ _ => href⟩

end Runs

section Answers

variable {app : AppState} {orderId : Uuid} {w : Oracle} {s : World} {xs : List (Lib.Point World Tx Call Reply Oracle)}

/-- What a refund finds before it may go ahead. -/
def Refundable (s : World) (orderId : Uuid) : Prop :=
  s.db.lockOrder orderId = some .paid ∨ s.db.lockOrder orderId = some .ticketed

lemma refund_refused {db : Db} (seq : Nat)
    (h : db.lockOrder orderId ≠ some .paid ∧ db.lockOrder orderId ≠ some .ticketed) :
    ∃ o, db.refund (db.lockOrder orderId) seq orderId = .ok (o, [], db) ∧ ∀ next, o ≠ .applied next := by
  cases hc : db.lockOrder orderId with
  | none => exact ⟨.notFound, rfl, by simp⟩
  | some cur =>
    rw [hc] at h
    cases cur with
    | paid => exact absurd rfl h.1
    | ticketed => exact absurd rfl h.2
    | _ => exact ⟨.noOp _, rfl, by simp⟩

lemma refund_cases (w : Oracle) (s : World) (orderId : Uuid) :
    (∃ e, (Tx.refund orderId).run w s = (.failed e, s) ∧ (w.fail = none → Refundable s orderId)) ∨
    (Refundable s orderId ∧ ∃ next released, ((Tx.refund orderId).run w s).1 = .transition (.applied next) released) ∨
    (¬ Refundable s orderId ∧ w.fail = none ∧
      ∃ o, (Tx.refund orderId).run w s = (.transition o [], s) ∧ ∀ next, o ≠ .applied next) := by
  cases hf : w.fail with
  | some e =>
    refine .inl ⟨e, ?_, fun h => nomatch h⟩
    unfold Tx.run
    rw [hf]
  | none =>
    by_cases href : Refundable s orderId
    · rcases refund_result orderId w s with ⟨o, released, hres⟩ | ⟨e, hres⟩
      · refine .inr (.inl ⟨href, ?_⟩)
        have hj : Judged s.db orderId .orderRefunded o := run_judged rfl hres
        cases o with
        | applied next => exact ⟨next, released, hres⟩
        | noOp cur =>
          obtain ⟨hcur, e, he⟩ := hj
          rcases href with h | h <;> rw [hcur] at h <;> cases h <;> cases he
        | notFound =>
          have hnone : s.db.lockOrder orderId = none := hj
          rcases href with h | h <;> rw [hnone] at h <;> cases h
      · exact .inl ⟨e, hres, fun _ => href⟩
    · obtain ⟨o, ho, hne⟩ := refund_refused (s.db.maxStreamSeq orderId + 1) (not_or.mp href)
      refine .inr (.inr ⟨href, rfl, o, ?_, hne⟩)
      unfold Tx.run
      rw [hf]
      change Tx.settleReleasing s (s.db.refund (s.db.lockOrder orderId) (s.db.maxStreamSeq orderId + 1) orderId) = _
      rw [ho]
      rfl

/-- No money has left and nothing has changed. -/
structure Untouched (xs : List (Lib.Point World Tx Call Reply Oracle)) : Prop where
  money : ∀ q, .heard q (.refunded (.ok ())) ∉ xs
  store : ∀ t w s, .ran t w s ∈ xs → (Tx.run t w s).2 = s

/-- When the provider has confirmed the refund, the order is Paid or Ticketed for the
transaction that records it, or the database fails there. -/
def Legal (orderId : Uuid) (xs : List (Lib.Point World Tx Call Reply Oracle)) : Prop :=
  (∃ q, .heard q (.refunded (.ok ())) ∈ xs) → ∀ w s, .ran (.refund orderId) w s ∈ xs → w.fail = none →
    Refundable s orderId

/-- The last part of a refund: record it, and answer. -/
def recorded (orderId : Uuid) : Handler OrderStatus := do
  match ← Handler.store (OrderStore.refund orderId) with
  | .applied status =>
    let _ ← Handler.transact (.audit ⟨"order.refunded", some orderId, none⟩) TxResult.rows?
    return status
  | .noOp current => throw (.conflict (.text s!"order cannot be refunded in state {current.asStr.quote}"))
  | .notFound => throw (.notFound s!"order {orderId} not found")

lemma walk_recorded {a : Answer}
    (h : Site.Walk (site app) ((recorded orderId).answer .refunded) xs (.ret a)) :
    ∃ w s ys, xs = .ran (.refund orderId) w s :: ys ∧
      ((¬ Refundable s orderId ∧ w.fail = none ∧ ((Tx.refund orderId).run w s).2 = s ∧ ys = [] ∧
        ∃ e, a = .error e ∧ e.isInternal = false) ∨
      ((w.fail = none → Refundable s orderId) ∧ (∀ w s, .ran (.refund orderId) w s ∉ ys) ∧
        ∀ e, a = .error e → e.isInternal = true)) := by
  obtain ⟨w, s, ys, rfl, hk⟩ := Site.walk_tx h
  refine ⟨w, s, ys, rfl, ?_⟩
  have hrun : (site app).run (.refund orderId) w s = (Tx.refund orderId).run w s := rfl
  rw [hrun] at hk
  rcases refund_cases w s orderId with ⟨e, he, hf⟩ | ⟨href, next, released, hres⟩ | ⟨hno, hf, o, he, hne⟩
  · rw [he] at hk
    obtain ⟨rfl, ha⟩ := Site.walk_ret hk
    refine .inr ⟨hf, by simp, fun e he => ?_⟩
    cases ha
    cases he
    rfl
  · rw [hres] at hk
    obtain ⟨w', s', zs, rfl, hend⟩ := Site.walk_tx hk
    refine .inr ⟨fun _ => href, ?_⟩
    cases hr : ((site app).run (.audit ⟨"order.refunded", some orderId, none⟩) w' s').1 with
    | rows n =>
      rw [hr] at hend
      obtain ⟨rfl, ha⟩ := Site.walk_ret hend
      cases ha
      exact ⟨by simp, fun e he => by cases he⟩
    | _ =>
      rw [hr] at hend
      obtain ⟨rfl, ha⟩ := Site.walk_ret hend
      cases ha
      refine ⟨by simp, fun e he => ?_⟩
      cases he
      rfl
  · rw [he] at hk
    cases o with
    | applied next => exact absurd rfl (hne next)
    | noOp cur =>
      obtain ⟨rfl, ha⟩ := Site.walk_ret hk
      cases ha
      exact .inl ⟨hno, hf, by rw [he], rfl, _, rfl, rfl⟩
    | notFound =>
      obtain ⟨rfl, ha⟩ := Site.walk_ret hk
      cases ha
      exact .inl ⟨hno, hf, by rw [he], rfl, _, rfl, rfl⟩

/-- The rest of a refund once it has looked for the order. -/
def paysBack (orderId : Uuid) : Option OrderRow → Handler OrderStatus
  | none => throw (.notFound s!"order {orderId} not found")
  | some row => do
    match ← OrderStore.refundMoney row with
    | .error e => throw (.ofPayment e)
    | .ok () => recorded orderId

/-- What a walk of a refund looks like: it ends before the transaction, or it gets there
without money or with the provider's word. -/
lemma walk_refundOrder {a : Answer} (h : Site.Walk (site app) (Request.handler app (.refundOrder orderId)) xs (.ret a)) :
    ((∀ t w s, .ran t w s ∉ xs) ∧ ∀ q, .heard q (.refunded (.ok ())) ∉ xs) ∨
    ∃ ys zs, xs = ys ++ zs ∧ (∀ t w s, .ran t w s ∉ ys) ∧
      Site.Walk (site app) ((recorded orderId).answer .refunded) zs (.ret a) := by
  obtain ⟨o, ys, rfl, hk⟩ := Site.walk_read h
  cases o with
  | none =>
    obtain ⟨rfl, -⟩ := Site.walk_ret hk
    exact .inl (by simp)
  | some s =>
    change Site.Walk (site app) ((paysBack orderId (s.db.orders.find? orderId)).answer .refunded) ys (.ret a) at hk
    cases hrow : s.db.orders.find? orderId with
    | none =>
      rw [hrow] at hk
      obtain ⟨rfl, -⟩ := Site.walk_ret hk
      exact .inl (by simp)
    | some row =>
      rw [hrow] at hk
      simp only [paysBack, OrderStore.refundMoney] at hk
      cases hint : row.paymentIntentId with
      | none =>
        rw [hint] at hk
        exact .inr ⟨[.looked (some s)], ys, rfl, by simp, hk⟩
      | some intent =>
        rw [hint] at hk
        obtain ⟨b, zs, rfl, hfit, hk⟩ := Site.walk_call hk
        cases b with
        | refunded result =>
          cases result with
          | error e =>
            obtain ⟨rfl, -⟩ := Site.walk_ret hk
            exact .inl (by simp)
          | ok u => exact .inr ⟨[.looked (some s), .heard _ (.refunded (.ok ()))], zs, rfl, by simp, hk⟩
        | _ => cases hfit

/-- A refund that answers with an error of its own has left money and order alone, exactly
as long as what the provider confirmed was legal. -/
theorem refund_error_clean {a : Answer}
    (h : Site.Walk (site app) (Request.handler app (.refundOrder orderId)) xs (.ret a)) :
    (∀ e, a = .error e → e.isInternal = false → Untouched xs) ↔ Legal orderId xs := by
  rcases walk_refundOrder h with ⟨hran, hheard⟩ | ⟨ys, zs, rfl, hran, hw⟩
  · exact ⟨fun _ ⟨q, hq⟩ => absurd hq (hheard q), fun _ _ _ _ => ⟨hheard, fun t w s hm => absurd hm (hran t w s)⟩⟩
  · obtain ⟨w, s, us, rfl, ⟨hno, hf, hsame, rfl, e, rfl, hint⟩ | ⟨hyes, hus, hint⟩⟩ := walk_recorded hw
    · constructor
      · rintro hclean ⟨q, hq⟩
        exact absurd hq ((hclean e rfl hint).money q)
      · intro hlegal e' _ _
        refine ⟨fun q hq => hno (hlegal ⟨q, hq⟩ w s (by simp) hf), fun t w' s' hm => ?_⟩
        rcases List.mem_append.mp hm with hm | hm
        · exact absurd hm (hran t w' s')
        · cases List.mem_singleton.mp hm
          exact hsame
    · constructor
      · rintro - - w' s' hm hf
        rcases List.mem_append.mp hm with hm | hm
        · exact absurd hm (hran _ w' s')
        · rcases List.mem_cons.mp hm with he | hm
          · cases he
            exact hyes hf
          · exact absurd hm (hus w' s')
      · intro _ e he hne
        rw [hint e he] at hne
        cases hne

end Answers

section Harbour

instance (orderId : Uuid) (s : World) (h : List Event) (ev : Event) : Decidable (OneRefund orderId s h ev) := by
  unfold OneRefund
  split <;> infer_instance

/-- Ana has her money back. -/
def refundRun : List (LockAct Request Reply Oracle Nat) := ticketedRun ++
  [.arrive (.refundOrder 100), .read 11 true, .reply 11 (.refunded (.ok ())), .lock 11, .plan 11,
    .commit 11 (drawn 0), .short 11 (drawn 0), .answer 11]

/-- Then the same refund is requested once more. -/
def repeatRun : List (LockAct Request Reply Oracle Nat) :=
  [.arrive (.refundOrder 100), .read 16 true, .reply 16 (.refunded (.ok ())), .lock 16, .plan 16,
    .commit 16 (drawn 0), .answer 16]

lemma repeatRun_reaches : ∃ c, Reaches sandbox harbour c ∧ payouts 100 c.trace = 2 := by
  have hrun : ((rowLocks sandbox).exec (RowLocks.init harbour) (refundRun ++ repeatRun)).map
      (fun c => payouts 100 c.trace) = some 2 := by decide
  obtain ⟨c, hc, htwo⟩ := Option.map_eq_some_iff.mp hrun
  exact ⟨c, RowLocks.reachable_of_exec hc, htwo⟩

/-- Nothing stops a refund of what has been refunded. -/
theorem refund_paid_twice : ¬ ∀ (app : AppState) (s : World)
    (c : LockConf Request World Tx TxResult Call Reply Answer Uuid LockRead LockRead), s.db.Seeded →
    Reaches app s c → ∀ orderId, payouts orderId c.trace ≤ 1 ∧
      ((∀ pid i t e, .commit pid i t (.failed e) ∉ c.trace) → (∀ pid, c.procs pid = none) →
        payouts orderId c.trace = 1 → c.store.db.lockOrder orderId = some .refunded) := by
  intro hclaim
  obtain ⟨c, hc, htwo⟩ := repeatRun_reaches
  have hone := (hclaim sandbox harbour c harbour_seeded hc 100).1
  rw [htwo] at hone
  omega

def endsRefused (h : List Event) : Bool :=
  match h.getLast? with
  | some (.answer 16 (.refundOrder 100) (.error e)) => !e.isInternal
  | _ => false

lemma repeatRun_walk : ∃ xs e q, Site.Walk (site sandbox) (Request.handler sandbox (.refundOrder 100)) xs
    (.ret (.error e)) ∧ e.isInternal = false ∧ .heard q (.refunded (.ok ())) ∈ xs := by
  have hrun : ((rowLocks sandbox).exec (RowLocks.init harbour) (refundRun ++ repeatRun)).map (fun c =>
      (endsRefused c.trace,
      decide (.call 16 (.refundOrder 100) (.refund 100 "pi_1" 1500) (.refunded (.ok ())) ∈ c.trace))) =
      some (true, true) := by decide
  obtain ⟨c, hc, hend⟩ := Option.map_eq_some_iff.mp hrun
  obtain ⟨hlast, hcall⟩ := Prod.mk.inj hend
  unfold endsRefused at hlast
  split at hlast
  · rename_i e hans
    obtain ⟨g, hg⟩ := List.getLast?_eq_some_iff.mp hans
    have hat := (rowLocks sandbox).reachable_atomic (RowLocks.reachable_of_exec hc)
    obtain ⟨xs, hw, ho⟩ := (Site.walked hat).2.2 g 16 _ _ ⟨[], by rw [List.append_nil]; exact hg.symm⟩
    have hmem := of_decide_eq_true hcall
    rw [hg, List.mem_append] at hmem
    rcases hmem with hmem | hmem
    · exact ⟨xs, e, _, hw, by simpa using hlast, Site.heard_of_call ho hmem⟩
    · cases List.mem_singleton.mp hmem
  · cases hlast

/-- A refund that is refused may have paid before. -/
theorem refund_refused_after_paying : ¬ ∀ (app : AppState) (orderId : Uuid)
    (xs : List (Lib.Point World Tx Call Reply Oracle)) (a : Answer),
    Site.Walk (site app) (Request.handler app (.refundOrder orderId)) xs (.ret a) →
    ∀ e, a = .error e → e.isInternal = false → Untouched xs := by
  intro hclaim
  obtain ⟨xs, e, q, hw, he, hq⟩ := repeatRun_walk
  exact (hclaim sandbox 100 xs _ hw e rfl he).money q hq

theorem refund_error_clean_harbour : ∃ xs e, e.isInternal = false ∧
    ((∀ e', (.error e : Answer) = .error e' → e'.isInternal = false → Untouched xs) ↔ Legal 100 xs) := by
  obtain ⟨xs, e, q, hw, he, -⟩ := repeatRun_walk
  exact ⟨xs, e, he, refund_error_clean hw⟩

theorem refunded_once_harbour : ∃ c, (rowLocks sandbox).ReachableWhen (OneRefund 100) (RowLocks.init harbour) c ∧
    payouts 100 c.trace = 1 ∧ (payouts 100 c.trace ≤ 1 ∧ ((∀ pid, c.procs pid = none) → payouts 100 c.trace = 1 →
      c.store.db.lockOrder 100 = some .refunded)) := by
  have hrun : ((rowLocks sandbox).execWhen (OneRefund 100) (RowLocks.init harbour) refundRun).map
      (fun c => payouts 100 c.trace) = some 1 := by decide
  obtain ⟨c, hc, hone⟩ := Option.map_eq_some_iff.mp hrun
  have hr := RowLocks.reachable_of_execWhen hc
  exact ⟨c, hr, hone, refunded_once hr⟩

end Harbour

end Lulan.Proofs
