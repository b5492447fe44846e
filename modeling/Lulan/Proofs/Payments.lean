import Lulan.Proofs.Lifecycle

/-!
# Captured money

What an acknowledged capture says about its order. A callback that finds its order
settled, or already given up, changes nothing and says so.
-/

namespace Lulan.Proofs

open Lulan Lulan.Db Lib

def SettledNow (db : Db) (orderId : Uuid) : Prop :=
  ∃ row, db.orders.find? orderId = some row ∧ row.status.settled = true

/-- What a reconciled capture says about its order from then on. -/
def Reconciled (db : Db) (orderId : Uuid) : TransitionOutcome → Prop
  | .applied _ => SettledNow db orderId
  | .noOp cur => cur = .locked ∨ cur = .cancelled ∨ cur = .expired ∨ SettledNow db orderId
  | .notFound => True

/-- The history in which an order recorded a payment intent. -/
def Asked (h : List Event) (orderId : Uuid) (intent : String) : Prop :=
  ∃ pid i next released,
    .commit pid i (.requestPayment orderId intent) (.transition (.applied next) released) ∈ h

structure PaymentsOk (db₀ : Db) (s : World) (h : List Event) : Prop where
  run : RunOk db₀ s h
  intents : ∀ orderId row intent, s.db.orders.find? orderId = some row → row.paymentIntentId = some intent →
    Asked h orderId intent
  reconciled : ∀ pid i orderId outcome released,
    .commit pid i (.paymentResult orderId true) (.transition outcome released) ∈ h →
    Reconciled s.db orderId outcome

section Step

variable {db₀ db db' : Db} {s : World} {h : List Event} {w : Oracle} {now : Timestamp} {t : Tx} {res : TxResult}

/-- Settled orders stay settled. -/
lemma SettledNow.step {orderId : Uuid} (hs : SettledNow db orderId) (he : Effect w now db t res db') :
    SettledNow db' orderId := by
  obtain ⟨row, hrow, hset⟩ := hs
  obtain ⟨row', hrow', rfl | ⟨event, next, -, happ, rfl⟩⟩ := he.status hrow
  · exact ⟨row', hrow', hset⟩
  · exact ⟨_, hrow', apply_settled happ hset⟩

lemma Reconciled.step {orderId : Uuid} {outcome : TransitionOutcome} (hs : Reconciled db orderId outcome)
    (he : Effect w now db t res db') : Reconciled db' orderId outcome := by
  cases outcome with
  | applied next => exact SettledNow.step hs he
  | noOp cur =>
    rcases hs with h | h | h | h
    · exact .inl h
    · exact .inr (.inl h)
    · exact .inr (.inr (.inl h))
    · exact .inr (.inr (.inr (h.step he)))
  | notFound => trivial

lemma Asked.mono {h h' : List Event} {orderId : Uuid} {intent : String} (ha : Asked h orderId intent)
    (hp : h <+: h') : Asked h' orderId intent := by
  obtain ⟨pid, i, next, released, hm⟩ := ha
  exact ⟨pid, i, next, released, hp.subset hm⟩

/-- An intent enters an order's row by the transaction that records it. -/
lemma Effect.intent (he : Effect w now db t res db') {orderId : Uuid} {row' : OrderRow} {intent : String}
    (hr : db'.orders.find? orderId = some row') (hi : row'.paymentIntentId = some intent) :
    (∃ row, db.orders.find? orderId = some row ∧ row.paymentIntentId = some intent) ∨
      ∃ next released, t = .requestPayment orderId intent ∧ res = .transition (.applied next) released := by
  cases hm : moveOf db t res with
  | none =>
    rcases he.unmoved hm orderId with h | ⟨-, o, expiresAt, h⟩
    · exact .inl ⟨row', h ▸ hr, hi⟩
    · rw [hr] at h
      cases h
      cases hi
  | some x =>
    obtain ⟨id, event⟩ := x
    obtain ⟨row, next, hrow, -, hk⟩ := he.moved hm
    rw [hk] at hr
    by_cases hid : orderId = id
    · rw [if_pos hid] at hr
      cases hr
      subst hid
      cases t
      case requestPayment id' intent' =>
        cases hi
        cases res
        case transition outcome released =>
          cases outcome with
          | applied next =>
            cases hm
            exact .inr ⟨next, released, rfl, rfl⟩
          | noOp cur => cases hm
          | notFound => cases hm
        all_goals cases hm
      all_goals exact .inl ⟨row, hrow, hi⟩
    · rw [if_neg hid] at hr
      exact .inl ⟨row', hr, hi⟩

/-- What a capture found, and what it leaves. -/
lemma reconciled_of_run {orderId : Uuid} {outcome : TransitionOutcome}
    {released : List (OrderItemRow × Nat)} (hp : PaymentsOk db₀ s h)
    (hr : ((Tx.paymentResult orderId true).run w s).1 = .transition outcome released) :
    Reconciled ((Tx.paymentResult orderId true).run w s).2.db orderId outcome := by
  obtain ⟨he, -⟩ := run_effect (.paymentResult orderId true) w s
  have hj := run_judged (t := .paymentResult orderId true) rfl hr
  rw [hr] at he
  cases outcome with
  | applied next =>
    obtain ⟨row, next', -, happ, hk⟩ := he.moved (rfl : moveOf s.db _ _ = some (orderId, .paymentCaptured))
    refine ⟨_, by rw [hk, if_pos rfl], ?_⟩
    rcases apply_cases happ with h | h | h | h | h | h | h | h | h | h <;> obtain ⟨-, he, rfl⟩ := h <;> first
      | rfl
      | cases he
  | noOp cur =>
    obtain ⟨hl, e, ha⟩ := hj
    have hd := hp.run.balanced.current_ne_draft hl
    obtain ⟨row, hrow, hst⟩ := Option.map_eq_some_iff.mp hl
    by_cases hset : cur.settled = true
    · exact .inr (.inr (.inr (SettledNow.step ⟨row, hrow, by rw [hst]; exact hset⟩ he)))
    · cases cur with
      | draft => exact absurd rfl hd
      | locked => exact .inl rfl
      | pendingPayment => cases ha
      | cancelled => exact .inr (.inl rfl)
      | expired => exact .inr (.inr (.inl rfl))
      | _ => exact absurd rfl hset
  | notFound => trivial

lemma PaymentsOk.quiet {ev : Event} (hp : PaymentsOk db₀ s h) (hev : ∀ pid i t r, ev ≠ .commit pid i t r) :
    PaymentsOk db₀ s (h ++ [ev]) where
  run := hp.run.quiet hev
  intents orderId row intent hr hi := (hp.intents orderId row intent hr hi).mono (List.prefix_append _ _)
  reconciled pid i orderId outcome released hm := by
    rcases List.mem_append.mp hm with hm | hm
    · exact hp.reconciled pid i orderId outcome released hm
    · exact absurd (List.mem_singleton.mp hm).symm (hev _ _ _ _)

/-- Every transaction keeps captured money accounted for. -/
lemma PaymentsOk.commit (h₀ : db₀.Seeded) (hp : PaymentsOk db₀ s h) (pid : Nat) (i : Request) (w : Oracle)
    (hs : Sound db₀.capacityUnits t) : PaymentsOk db₀ (t.run w s).2 (h ++ [.commit pid i t (t.run w s).1]) where
  run := hp.run.commit h₀ pid i w hs
  intents orderId row' intent hr hi := by
    rcases (run_effect t w s).1.intent hr hi with ⟨row, hrow, hint⟩ | ⟨next, released, rfl, hres⟩
    · exact (hp.intents orderId row intent hrow hint).mono (List.prefix_append _ _)
    · exact ⟨pid, i, next, released, by simp [hres]⟩
  reconciled q j orderId outcome released hm := by
    rcases List.mem_append.mp hm with hm | hm
    · exact (hp.reconciled q j orderId outcome released hm).step (run_effect t w s).1
    · obtain ⟨-, -, rfl, hres⟩ := Lib.Ev.commit.inj (List.mem_singleton.mp hm)
      exact reconciled_of_run hp hres.symm

end Step

section Callbacks

variable {app : AppState} {db₀ : Db} {pid : Nat} {i : Request} {intent : String}

/-- What the 200 to a capture stands for: the callback was applied to an order that had
recorded the intent, or it reports that it was not. -/
def Acknowledged (pid : Nat) (i : Request) (intent : String) (h : List Event) (resp : WebhookResponse) : Prop :=
  ∃ orderId outcome released, Asked h orderId intent ∧
    .commit pid i (.paymentResult orderId true) (.transition outcome released) ∈ h ∧
    match outcome with
    | .applied _ => True
    | .noOp cur => resp = ⟨some cur, false⟩
    | .notFound => False

lemma Acknowledged.mono {h h' : List Event} {resp : WebhookResponse} (ha : Acknowledged pid i intent h resp)
    (hp : h <+: h') : Acknowledged pid i intent h' resp := by
  obtain ⟨orderId, outcome, released, hasked, hm, ho⟩ := ha
  exact ⟨orderId, outcome, released, hasked.mono hp, hp.subset hm, ho⟩

/-- Programs of sound transactions keep captured money accounted for. -/
lemma paymentsOk_keeps {α : Type} {P : Tx → Prop} {Q : Call → Prop} {R : α → Prop} {p : Program α}
    (h₀ : db₀.Seeded) (hp : p.Only (fun v => v.db.capacityUnits = db₀.capacityUnits) P Q R)
    (hP : ∀ t, P t → Sound db₀.capacityUnits t) (pid : Nat) (i : Request) (h : List Event) :
    (site app).Keeps (fun _ _ _ => True) (PaymentsOk db₀) pid i (fun _ => R) p h :=
  Site.keeps_of_only hp (fun _ _ hr => hr.run.units) (fun _ w _ _ ht hr _ => hr.commit h₀ pid i w (hP _ ht))
    (fun _ _ _ _ _ _ hr _ => hr.quiet (by simp)) h

lemma find?_of_findByIntent {db : Db} {orderId : Uuid} (h : db.findByIntent intent = some orderId) :
    ∃ row, db.orders.find? orderId = some row ∧ row.paymentIntentId = some intent := by
  obtain ⟨row, hrow, rfl⟩ := Option.map_eq_some_iff.mp h
  have hint := List.find?_some hrow
  exact ⟨row, Lib.Table.find?_of_mem (List.mem_of_find?_eq_some hrow), by simpa using hint⟩

/-- The reconciliation of a capture. -/
lemma applyPaymentResult_keeps {h : List Event} (h₀ : db₀.Seeded) :
    (site app).Keeps (fun _ _ _ => True) (PaymentsOk db₀) pid i
      (OnOk (fun g outcome => outcome = .notFound ∨ ∃ orderId released, Asked g orderId intent ∧
        .commit pid i (.paymentResult orderId true) (.transition outcome released) ∈ g))
      (OrderStore.applyPaymentResult intent true) h := by
  unfold OrderStore.applyPaymentResult
  refine keeps_seq (R := OnOk (fun g r => ∀ orderId, r = some orderId → Asked g orderId intent)) ?_
    (fun r g hr => ?_) (fun _ _ _ _ _ => onOk_error)
  · refine keeps_query (fun _ _ => onOk_error) (fun v g _ hI g' hg => onOk_ok.mpr (fun orderId hf => ?_))
    obtain ⟨row, hrow, hint⟩ := find?_of_findByIntent hf
    exact (hI.intents orderId row intent hrow hint).mono hg.extends
  · cases r with
    | none => exact keeps_pure (fun _ _ => onOk_ok.mpr (.inl rfl))
    | some orderId =>
      have hasked := onOk_ok.mp hr orderId rfl
      refine keeps_transact (fun w s g' hg hI _ => ⟨hI.commit h₀ pid i w trivial, fun g'' hg' outcome ho => ?_⟩)
      have hf := txResult_eq_ok ho
      cases hres : ((Tx.paymentResult orderId true).run w s).1 <;> rw [hres] at hf <;> cases hf
      rename_i released
      refine .inr ⟨orderId, released, hasked.mono ((hg.extends.trans (List.prefix_append _ _)).trans hg'.extends), ?_⟩
      refine hg'.extends.subset (List.mem_append_right _ ?_)
      rw [hres]
      exact List.mem_singleton_self _

/-- What follows the reconciliation answers for it. -/
lemma afterPayment_keeps {h : List Event} {outcome : TransitionOutcome} (h₀ : db₀.Seeded)
    (ho : outcome = .notFound ∨ ∃ orderId released, Asked h orderId intent ∧
      .commit pid i (.paymentResult orderId true) (.transition outcome released) ∈ h) :
    (site app).Keeps (fun _ _ _ => True) (PaymentsOk db₀) pid i (OnOk (Acknowledged pid i intent))
      (Orders.afterPayment intent outcome) h := by
  rcases ho with rfl | ⟨orderId, released, hasked, hm⟩
  · exact keeps_throw (fun _ _ => onOk_error)
  · have hack : ∀ {g : List Event} {next : OrderStatus} (resp : WebhookResponse), outcome = .applied next →
        h <+: g → Acknowledged pid i intent g resp := by
      intro g next resp he hp
      subst he
      exact ⟨orderId, _, released, hasked.mono hp, hp.subset hm, trivial⟩
    cases outcome with
    | notFound => exact keeps_throw (fun _ _ => onOk_error)
    | noOp cur =>
      refine keeps_pure (fun g hg => onOk_ok.mpr ?_)
      exact ⟨orderId, _, released, hasked.mono hg.extends, hg.extends.subset hm, rfl⟩
    | applied next =>
      have honly : IoOnly (fun v => v.db.capacityUnits = db₀.capacityUnits) (Sound db₀.capacityUnits)
          (fun _ => True) (fun _ => True) (Orders.afterPayment intent (.applied next)) :=
        afterPayment_only (fun _ _ => trivial)
      have hk : (site app).Keeps (fun _ _ _ => True) (PaymentsOk db₀) pid i _ _ h :=
        (paymentsOk_keeps h₀ honly (fun _ ht => ht) pid i h).extending (List.prefix_refl h)
      exact hk.weaken (fun g r hr a _ => hack a rfl hr.1)

/-- The event a delivery stands for once the provider has authenticated it. -/
def delivered (app : AppState) (signature : Option String) (body : String) : Except PaymentError PaymentEvent :=
  app.verifyCallback (if app.authenticatesCallbacks then signature else none) body

lemma webhook_keeps {h : List Event} {signature : Option String} {keyError : Option ApiError} {body : String}
    (h₀ : db₀.Seeded) (hv : delivered app signature body = .ok (.captured intent)) :
    (site app).Keeps (fun _ _ _ => True) (PaymentsOk db₀) pid i (OnOk (Acknowledged pid i intent))
      (Orders.paymentWebhook app signature keyError body) h := by
  unfold delivered at hv
  unfold Orders.paymentWebhook
  rw [hv]
  split
  · exact keeps_throw (fun _ _ => onOk_error)
  · refine keeps_seq (keeps_mapErr (applyPaymentResult_keeps h₀) (T := OnOk (fun g outcome =>
      outcome = .notFound ∨ ∃ orderId released, Asked g orderId intent ∧
        .commit pid i (.paymentResult orderId true) (.transition outcome released) ∈ g)) ?_ ?_)
      (fun outcome g ho => ?_) (fun _ _ _ _ _ => onOk_error)
    · intro outcome g ho g' hg
      rcases onOk_ok.mp ho with hn | ⟨orderId, released, hasked, hm⟩
      · exact onOk_ok.mpr (.inl hn)
      · exact onOk_ok.mpr (.inr ⟨orderId, released, hasked.mono hg.extends, hg.extends.subset hm⟩)
    · exact fun _ _ _ _ _ => onOk_error
    · exact afterPayment_keeps h₀ (onOk_ok.mp ho)

lemma payment_protocol (h₀ : db₀.Seeded) :
    Site.Protocol (site app) (fun _ _ _ => True) (PaymentsOk db₀) (fun pid i g a =>
      ∀ signature keyError body intent resp, i = .paymentWebhook signature keyError body →
        delivered app signature body = .ok (.captured intent) → a = .ok (.webhook resp) →
        Acknowledged pid i intent g resp) where
  env _ _ _ hp := ⟨⟨hp.run.units, hp.run.balanced, hp.run.released, hp.run.streams, hp.run.items, hp.run.issuance⟩,
    hp.intents, hp.reconciled⟩
  answer _ _ _ _ _ hp _ _ := hp.quiet (by simp)
  arrive s h i hp _ _ := by
    refine ⟨hp.quiet (by simp), ?_⟩
    by_cases hi : ∃ signature keyError body intent, i = .paymentWebhook signature keyError body ∧
        delivered app signature body = .ok (.captured intent)
    · obtain ⟨signature, keyError, body, intent, rfl, hv⟩ := hi
      refine keeps_answer (webhook_keeps h₀ hv) (fun r g hr g' hg => ?_)
      intro signature' keyError' body' intent' resp hi hv' ha
      cases hi
      rw [hv] at hv'
      cases hv'
      cases r with
      | error e => cases ha
      | ok resp' =>
        cases ha
        exact (onOk_ok.mp hr).mono hg.extends
    · refine Site.Keeps.weaken (paymentsOk_keeps h₀ (handler_only _ app i) (fun _ ht => ht.sound) _ i _) ?_
      exact fun _ _ _ signature keyError body intent _ he hv _ => absurd ⟨signature, keyError, body, intent, he, hv⟩ hi

lemma paymentsOk_of_seeded {s : World} (hs : s.db.Seeded) : PaymentsOk s.db s [] := by
  refine ⟨runOk_of_seeded hs, fun orderId row _ hr _ => ?_, by simp⟩
  have hrow := Lib.Table.find?_mem hr
  rw [hs.orders] at hrow
  cases hrow

/-- Captured money is accounted for in every state the server reaches. -/
theorem Reaches.paymentsOk {s : World}
    {c : LockConf Request World Tx TxResult Call Reply Answer Uuid LockRead LockRead} (hs : s.db.Seeded)
    (hc : Reaches app s c) : PaymentsOk s.db c.store c.trace :=
  ((payment_protocol hs).invariant (paymentsOk_of_seeded hs) ((rowLocks app).reachable_atomic hc)).1

/-- A result of a transaction with which it leaves everything as it found it. -/
def ChangesNothing (t : Tx) (r : TxResult) : Prop := ∀ read w s s', t.body read w s = (r, s') → s' = s

lemma paymentResult_noOp (orderId : Uuid) (succeeded : Bool) (cur : OrderStatus)
    (released : List (OrderItemRow × Nat)) :
    ChangesNothing (.paymentResult orderId succeeded) (.transition (.noOp cur) released) := by
  intro read w s s' h
  change Tx.settle s (.transition · []) (s.db.applyPaymentResult read.current read.seq orderId succeeded) = _ at h
  cases hr : s.db.applyPaymentResult read.current read.seq orderId succeeded with
  | error e =>
    rw [hr] at h
    cases h
  | ok x =>
    rw [hr] at h
    obtain ⟨outcome, db⟩ := x
    cases h
    obtain ⟨⟨o, db'⟩, hevent, hrest⟩ := bind_eq_ok.mp hr
    dsimp only at hrest
    split_ifs at hrest with happlied
    · cases hrest
      cases happlied
    · cases hrest
      rcases applyEventLocked_eq_ok hevent with ⟨-, ho, -⟩ | ⟨_, _, _, _, _, rfl⟩ | ⟨_, _, _, _, ho, _⟩
      · cases ho
      · rfl
      · cases ho

/-- When a capture is acknowledged, its order is settled and stays so, unless the callback
found the order locked, cancelled or expired; then it changed nothing, and the 200 says
that it was not applied and in which state the order was. -/
theorem captured_settled {s : World}
    {c : LockConf Request World Tx TxResult Call Reply Answer Uuid LockRead LockRead} (hs : s.db.Seeded)
    (hc : Reaches app s c) {signature : Option String} {keyError : Option ApiError} {body : String}
    {resp : WebhookResponse} (hv : delivered app signature body = .ok (.captured intent))
    (hm : .answer pid (.paymentWebhook signature keyError body) (.ok (.webhook resp)) ∈ c.trace) :
    ∃ orderId, Asked c.trace orderId intent ∧
      (SettledNow c.store.db orderId ∨
        ∃ cur released, (cur = .locked ∨ cur = .cancelled ∨ cur = .expired) ∧ resp = ⟨some cur, false⟩ ∧
          .commit pid (.paymentWebhook signature keyError body) (.paymentResult orderId true)
            (.transition (.noOp cur) released) ∈ c.trace ∧
          ChangesNothing (.paymentResult orderId true) (.transition (.noOp cur) released)) := by
  have hat := (rowLocks app).reachable_atomic hc
  have hI := hc.paymentsOk hs
  obtain ⟨g, l, hl⟩ := List.append_of_mem hm
  have hg' : g <+: c.trace := ⟨_, hl.symm⟩
  have hg : g ++ [.answer pid (.paymentWebhook signature keyError body) (.ok (.webhook resp))] <+: c.trace :=
    ⟨l, by rw [hl]; simp⟩
  obtain ⟨orderId, outcome, released, hasked, hcommit, ho⟩ :=
    (payment_protocol hs).answered (paymentsOk_of_seeded hs) hat hg _ _ _ _ _ rfl hv rfl
  have hrec := hI.reconciled _ _ _ _ _ (hg'.subset hcommit)
  refine ⟨orderId, hasked.mono hg', ?_⟩
  cases outcome with
  | applied next => exact .inl hrec
  | notFound => cases ho
  | noOp cur =>
    have hnothing := paymentResult_noOp orderId true cur released
    rcases hrec with h | h | h | h
    · exact .inr ⟨cur, released, .inl h, ho, hg'.subset hcommit, hnothing⟩
    · exact .inr ⟨cur, released, .inr (.inl h), ho, hg'.subset hcommit, hnothing⟩
    · exact .inr ⟨cur, released, .inr (.inr h), ho, hg'.subset hcommit, hnothing⟩
    · exact .inl h

end Callbacks

section Harbour

/-- Ana asks to pay, cancels, and then the provider reports the capture. -/
def lateCaptureRun : List (LockAct Request Reply Oracle Nat) :=
  [.arrive (.storeCreate booking), .read 0 true, .read 0 true, .peek 0, .short 0 (drawn 100),
    .arrive (.requestPayment 100), .read 2 true, .reply 2 (.intent (.ok ⟨"pi_1", none⟩)), .lock 2, .plan 2,
    .commit 2 (drawn 0), .arrive (.cancelOrder 100), .lock 5, .plan 5, .commit 5 (drawn 0),
    .arrive (.paymentWebhook none none "pi_1"), .read 7 true, .lock 7, .plan 7, .commit 7 (drawn 0), .answer 7]

lemma lateCaptureRun_reaches : ∃ c row, Reaches sandbox harbour c ∧
    c.trace.getLast? = some (.answer 7 (.paymentWebhook none none "pi_1")
      (.ok (.webhook ⟨some .cancelled, false⟩))) ∧
    c.store.db.orders.find? 100 = some row ∧ row.paymentIntentId = some "pi_1" ∧ row.status = .cancelled := by
  have hrun : ((rowLocks sandbox).exec (RowLocks.init harbour) lateCaptureRun).map (fun c => (c.trace.getLast?,
      (c.store.db.orders.find? 100).map (fun row => (row.paymentIntentId, row.status)))) =
      some (some (.answer 7 (.paymentWebhook none none "pi_1") (.ok (.webhook ⟨some .cancelled, false⟩))),
        some (some "pi_1", .cancelled)) := by decide
  obtain ⟨c, hc, hend⟩ := Option.map_eq_some_iff.mp hrun
  obtain ⟨hlast, hrow⟩ := Prod.mk.inj hend
  obtain ⟨row, hrow, hst⟩ := Option.map_eq_some_iff.mp hrow
  obtain ⟨hint, hst⟩ := Prod.mk.inj hst
  exact ⟨c, row, RowLocks.reachable_of_exec hc, hlast, hrow, hint, hst⟩

/-- An acknowledged capture does not by itself mean a settled order: the order may have
been cancelled first. -/
theorem late_capture_acknowledged : ¬ ∀ (app : AppState) (s : World)
    (c : LockConf Request World Tx TxResult Call Reply Answer Uuid LockRead LockRead), s.db.Seeded →
    Reaches app s c → ∀ pid signature keyError body intent resp orderId row,
    c.trace.getLast? = some (.answer pid (.paymentWebhook signature keyError body) (.ok (.webhook resp))) →
    delivered app signature body = .ok (.captured intent) → c.store.db.orders.find? orderId = some row →
    row.paymentIntentId = some intent → row.status.settled = true := by
  intro hclaim
  obtain ⟨c, row, hc, hlast, hrow, hint, hst⟩ := lateCaptureRun_reaches
  have hset := hclaim sandbox harbour c harbour_seeded hc 7 none none "pi_1" "pi_1" _ 100 row hlast rfl hrow hint
  rw [hst] at hset
  cases hset

theorem captured_settled_harbour : ∃ c orderId, Reaches sandbox harbour c ∧ Asked c.trace orderId "pi_1" ∧
    (SettledNow c.store.db orderId ∨
      ∃ cur released, (cur = .locked ∨ cur = .cancelled ∨ cur = .expired) ∧
        (⟨some .cancelled, false⟩ : WebhookResponse) = ⟨some cur, false⟩ ∧
        .commit 7 (.paymentWebhook none none "pi_1") (.paymentResult orderId true)
          (.transition (.noOp cur) released) ∈ c.trace ∧
        ChangesNothing (.paymentResult orderId true) (.transition (.noOp cur) released)) := by
  obtain ⟨c, row, hc, hlast, -⟩ := lateCaptureRun_reaches
  have hv : delivered sandbox none "pi_1" = .ok (.captured "pi_1") := rfl
  obtain ⟨orderId, h⟩ := captured_settled harbour_seeded hc hv (List.mem_of_getLast? hlast)
  exact ⟨c, orderId, hc, h⟩

end Harbour

end Lulan.Proofs
