import Lulan.Proofs.Payments

/-!
# Repeated callbacks

A provider delivers a callback any number of times. A repeat finds its order where the
state machine has no use for it, or it is a failure that is applied once more.
-/

namespace Lulan.Proofs

open Lulan Lulan.Db Lib

/-- The numbers the next event and the next outbox row take are unused. -/
structure Numbered (db : Db) : Prop where
  events : ∀ e ∈ db.events.rows, e.sequence < db.nextSequence
  outbox : ∀ o ∈ db.outbox.rows, o.id < db.nextOutboxId

section Numbers

variable {db db' mid : Db} {w : Oracle} {now : Timestamp} {t : Tx} {res : TxResult}

lemma Numbered.congr (h : Numbered db) (he : db'.events = db.events) (hn : db'.nextSequence = db.nextSequence)
    (ho : db'.outbox = db.outbox) (hi : db'.nextOutboxId = db.nextOutboxId) : Numbered db' := by
  constructor
  · rw [he, hn]
    exact h.events
  · rw [ho, hi]
    exact h.outbox

lemma Numbered.advance {orderId seq : Nat} {event : OrderEventType} {change : Lib.Assign OrderRow.id}
    (h : Numbered db) (ha : Advance db db' orderId seq event change) : Numbered db' := by
  obtain ⟨events, outbox, he, ho, rfl⟩ := ha
  constructor
  · intro e hm
    simp only [he, List.mem_append, List.mem_singleton] at hm ⊢
    rcases hm with hm | rfl
    · exact Nat.lt_succ_of_lt (h.events e hm)
    · exact Nat.lt_succ_self _
  · intro o hm
    simp only [ho, List.mem_append, List.mem_singleton] at hm ⊢
    rcases hm with hm | rfl
    · exact Nat.lt_succ_of_lt (h.outbox o hm)
    · exact Nat.lt_succ_self _

lemma Numbered.book {ids : BookingIds} {expiresAt : Timestamp} {o : NewOrder} {wired : List WiredItem}
    {record : OrderRecord} (h : Numbered db) (hb : Booked ids now expiresAt o wired record db db') :
    Numbered db' := by
  obtain ⟨_, _, _, events, outbox, _, _, -, -, -, -, -, he, ho, rfl⟩ := hb
  constructor
  · intro e hm
    simp only [he, List.mem_append, List.mem_cons, List.not_mem_nil, or_false] at hm ⊢
    rcases hm with hm | rfl | rfl
    · have := h.events e hm
      omega
    · simp
    · simp
  · intro r hm
    simp only [ho, List.mem_append, List.mem_cons, List.not_mem_nil, or_false] at hm ⊢
    rcases hm with hm | rfl | rfl
    · have := h.outbox r hm
      omega
    · simp
    · simp

lemma Numbered.release {orderId : Uuid} (h : Numbered mid) : Numbered (mid.releaseOrderItems orderId).2 := by
  rw [releaseOrderItems_frame]
  exact h.congr rfl rfl rfl rfl

lemma Numbered.step (h : Numbered db) (he : Effect w now db t res db') : Numbered db' := by
  cases he with
  | quiet frame _ _ => exact h.congr frame.events frame.nextSequence frame.outbox frame.nextOutboxId
  | booked hb => exact h.book hb
  | seatSold _ => exact h.congr rfl rfl rfl rfl
  | poolSold _ => exact h.congr rfl rfl rfl rfl
  | requested _ ha => exact h.advance ha
  | captured _ ha => exact h.advance ha
  | declined _ ha => exact h.advance ha
  | exited _ _ _ ha => exact (h.advance ha).release
  | refunded _ _ ha => exact (h.advance ha).release.congr rfl rfl rfl rfl
  | issued _ hi ha =>
    have hf := hi.frame
    exact (h.congr hf.events hf.nextSequence hf.outbox hf.nextOutboxId).advance ha
  | boarded _ _ => exact h.congr rfl rfl rfl rfl
  | lastBoarded _ _ _ _ ha =>
    refine Numbered.advance ?_ ha
    exact h.congr rfl rfl rfl rfl

lemma numbered_of_seeded (h : db.Seeded) : Numbered db := by
  constructor
  · simp [h.events]
  · simp [h.outbox]

lemma insertRow_numbered {α : Type} {key : α → Nat} (tbl : Lib.Table key) (r : α)
    (h : ∀ r' ∈ tbl.rows, key r' < key r) : ∃ tbl', insertRow tbl r true true = .ok tbl' := by
  cases hi : tbl.insert r with
  | none =>
    have hfree : tbl.find? (key r) = none := Lib.Table.find?_eq_none.mpr (fun r' hr => Nat.ne_of_lt (h r' hr))
    exact absurd hfree (Lib.Table.insert_eq_none.mp hi)
  | some tbl' => exact ⟨tbl', insertRow_eq_ok.mpr ⟨rfl, rfl, hi⟩⟩

lemma StreamsOk.seq_lt (h : StreamsOk db) {streamId : Uuid} {e : EventRow} (he : e ∈ db.events.rows)
    (hid : e.streamId = streamId) : e.streamSeq < db.maxStreamSeq streamId + 1 := by
  have hmem : e.streamSeq ∈ (eventsOf db streamId).map EventRow.streamSeq :=
    List.mem_map_of_mem (Lib.Table.mem_select.mpr ⟨he, decide_eq_true hid⟩)
  rw [h.positions, List.mem_range'_1] at hmem
  rw [h.maxStreamSeq]
  omega

lemma append_succeeds {seq : Nat} (streamId : Uuid) (eventType : String) (hn : Numbered db) (h₁ : 1 ≤ seq)
    (hs : ∀ e ∈ db.events.rows, e.streamId = streamId → e.streamSeq < seq) :
    ∃ db', db.append streamId seq eventType = .ok db' := by
  have hfree : db.events.rows.any (fun e => decide (e.streamId = streamId) && decide (e.streamSeq = seq)) =
      false := by
    rw [List.any_eq_false]
    intro e he hc
    obtain ⟨hid, hseq⟩ := Bool.and_eq_true_iff.mp hc
    exact absurd (of_decide_eq_true hseq) (Nat.ne_of_lt (hs e he (of_decide_eq_true hid)))
  obtain ⟨events, he⟩ := insertRow_numbered db.events ⟨db.nextSequence, streamId, seq, eventType⟩ hn.events
  obtain ⟨outbox, ho⟩ := insertRow_numbered db.outbox ⟨db.nextOutboxId, db.nextSequence⟩ hn.outbox
  unfold append
  rw [if_neg (by simp [hfree]), decide_eq_true h₁, he, ho]
  exact ⟨_, rfl⟩

end Numbers

/-- Nothing changed about an order: its status, its events and its tickets. -/
structure Unchanged (db db' : Db) (orderId : Uuid) : Prop where
  status : db'.lockOrder orderId = db.lockOrder orderId
  events : eventsOf db' orderId = eventsOf db orderId
  tickets : ticketsOf db' orderId = ticketsOf db orderId

lemma Unchanged.refl (db : Db) (orderId : Uuid) : Unchanged db db orderId := ⟨rfl, rfl, rfl⟩

def PaymentEvent.succeeded : PaymentEvent → Bool
  | .captured _ => true
  | _ => false

def Reports (app : AppState) (i : Request) (ev : PaymentEvent) : Prop :=
  ∃ signature keyError body, i = .paymentWebhook signature keyError body ∧
    delivered app signature body = .ok ev

/-- The callback has been applied to the order. -/
def AppliedTo (app : AppState) (h : List Event) (ev : PaymentEvent) (orderId : Uuid) : Prop :=
  ∃ pid i next released, Reports app i ev ∧
    .commit pid i (.paymentResult orderId (PaymentEvent.succeeded ev)) (.transition (.applied next) released) ∈ h

section Reconciling

variable {s : World} {w : Oracle} {orderId : Uuid}

lemma paymentResult_idle (succeeded : Bool) (w : Oracle) (h : s.db.lockOrder orderId ≠ some .pendingPayment) :
    Unchanged s.db ((Tx.paymentResult orderId succeeded).run w s).2.db orderId ∧
      ∀ next released,
        ((Tx.paymentResult orderId succeeded).run w s).1 ≠ .transition (.applied next) released := by
  obtain ⟨he, -⟩ := run_effect (.paymentResult orderId succeeded) w s
  generalize ((Tx.paymentResult orderId succeeded).run w s).1 = res at he ⊢
  generalize ((Tx.paymentResult orderId succeeded).run w s).2.db = db' at he ⊢
  cases he with
  | quiet frame hw _ =>
    refine ⟨⟨lockOrder_congr frame.orders _, ?_, ?_⟩, ?_⟩
    · rw [eventsOf, eventsOf, frame.events]
    · rw [ticketsOf, ticketsOf, frame.tickets]
    · rintro next released rfl
      cases hw
  | captured hl _ => exact absurd hl.current h
  | declined hl _ => exact absurd hl.current h
  | exited ht _ _ _ => rcases ht with ⟨ht, -⟩ | ⟨ht, -⟩ <;> cases ht

lemma paymentResult_pending (hn : Numbered s.db) (hs : StreamsOk s.db) (hw : w.fail = none)
    (h : s.db.lockOrder orderId = some .pendingPayment) :
    ((Tx.paymentResult orderId false).run w s).2.db.lockOrder orderId = some .locked := by
  have hnum : Numbered (s.db.setStatus orderId .locked) := hn.congr rfl rfl rfl rfl
  obtain ⟨db', hdb⟩ := append_succeeds orderId OrderEventType.paymentFailed.asStr hnum (Nat.le_add_left 1 _)
    (fun e he hid => hs.seq_lt he hid)
  have hlocked : s.db.applyEventLocked (some .pendingPayment) (s.db.maxStreamSeq orderId + 1) orderId
      .paymentFailed = .ok (.applied .locked, db') := by
    unfold applyEventLocked
    simp only [apply]
    rw [hdb]
    rfl
  have hresult : s.db.applyPaymentResult (some .pendingPayment) (s.db.maxStreamSeq orderId + 1) orderId false =
      .ok (.applied .locked, db') := by
    unfold applyPaymentResult
    simp only [Bool.false_eq_true, if_false]
    rw [hlocked]
    rfl
  have hrun : (Tx.paymentResult orderId false).run w s =
      (.transition (.applied .locked) [], { s with db := db' }) := by
    simp only [Tx.run, hw, Tx.body, Tx.reads, Tx.locks, Db.lockRead, h]
    rw [hresult]
    rfl
  obtain ⟨events, outbox, -, -, rfl⟩ := append_eq_ok hdb
  obtain ⟨row, hrow, -⟩ := Option.map_eq_some_iff.mp h
  rw [hrun]
  simp [Db.lockOrder, Db.setStatus, Db.updateOrder, Lib.Table.find?_update, hrow, Lib.Table.find?_key hrow]

end Reconciling

section Deliveries

variable {app : AppState} {pid : Nat} {i : Request} {ev : PaymentEvent} {orderId : Uuid} {succeeded : Bool}
  {k : TxResult → Program Answer}

lemma reconcile_residual {intent : String} {b : Bool}
    (h : Prog.Residual ((Handler.mapErr ApiError.ofStore (OrderStore.applyPaymentResult intent b) >>=
      Orders.afterPayment intent).answer .webhook) (.tx (.paymentResult orderId succeeded) k)) :
    succeeded = b ∧
      ∀ r, (∀ released, r ≠ .transition (.applied .paid) released) → ∃ a, k r = .ret a := by
  rcases Prog.residual_read h with he | ⟨v, h⟩
  · cases he
  · cases v with
    | none => cases Prog.residual_ret h
    | some v =>
      cases hf : v.db.findByIntent intent with
      | none =>
        simp only [hf] at h
        cases Prog.residual_ret h
      | some found =>
        simp only [hf] at h
        rcases Prog.residual_tx h with he | ⟨r, h⟩
        · obtain ⟨ht, hk⟩ := Prog.tx.inj he
          cases ht
          refine ⟨rfl, fun r hr => ?_⟩
          rw [hk]
          cases r with
          | transition outcome released =>
            cases outcome with
            | applied next =>
              cases next with
              | paid => exact absurd rfl (hr released)
              | _ => exact ⟨_, rfl⟩
            | noOp cur => exact ⟨_, rfl⟩
            | notFound => exact ⟨_, rfl⟩
          | _ => exact ⟨_, rfl⟩
        · cases r with
          | transition outcome released =>
            have hrest : Prog.Residual ((Orders.afterPayment intent outcome).answer .webhook)
              (.tx (.paymentResult orderId succeeded) k) := h
            have honly := Prog.only_residual (only_answer (afterPayment_only (P := fun t => ∃ id signer,
              t = .issueForOrder id signer) (Q := fun _ => True) (fun id signer => ⟨id, signer, rfl⟩))) hrest
            obtain ⟨⟨id, signer, ht⟩, -⟩ := honly
            cases ht
          | _ => cases Prog.residual_ret h

/-- A delivery reconciles what its callback reports, and only an applied capture has
anything more to do. -/
lemma delivery_residual (hi : Reports app i ev)
    (h : Prog.Residual (Request.handler app i) (.tx (.paymentResult orderId succeeded) k)) :
    succeeded = PaymentEvent.succeeded ev ∧
      ∀ r, (∀ released, r ≠ .transition (.applied .paid) released) → ∃ a, k r = .ret a := by
  obtain ⟨signature, keyError, body, rfl, hv⟩ := hi
  unfold delivered at hv
  simp only [Request.handler, Orders.paymentWebhook] at h
  rw [hv] at h
  split at h
  · cases Prog.residual_ret h
  · cases ev with
    | ignored => cases Prog.residual_ret h
    | captured intent => exact reconcile_residual h
    | failed intent => exact reconcile_residual h

/-- The reconciliation a delivery is about to commit leaves the order alone, and the
delivery has nothing more to do. -/
def LeavesAlone (s : World) (orderId : Uuid) (t : Tx) (k : TxResult → Program Answer) : Prop :=
  ∀ w, Unchanged s.db (t.run w s).2.db orderId ∧ ∃ a, k (t.run w s).1 = .ret a

lemma Reaches.numbered {s : World}
    {c : LockConf Request World Tx TxResult Call Reply Answer Uuid LockRead LockRead} (hs : s.db.Seeded)
    (hc : Reaches app s c) : Numbered c.store.db := by
  have hat := (rowLocks app).reachable_atomic hc
  refine Site.store_invariant (S := site app) (J := fun _ => True) (P := Runs (fun _ => True) app)
    (I := fun v _ => Numbered v.db) ?_ (numbered_of_seeded hs) (fun _ _ _ => trivial) (fun _ _ _ h => h)
    (fun _ _ _ _ h => h) (fun s h pid i t w _ hn => hn.step (run_effect t w s).1) hat
  intro i
  exact Prog.only_mono (handler_only _ app i) (fun _ h => h) (fun _ _ => trivial) (fun _ _ => trivial)

/-- A callback that was applied to an order and is delivered once more leaves the order
alone exactly if it reports a capture, or the order awaits no payment. -/
theorem repeated_callback {s : World}
    {c : LockConf Request World Tx TxResult Call Reply Answer Uuid LockRead LockRead} 
    {held : Held World Tx TxResult Call Reply Answer Uuid LockRead LockRead} (hs : s.db.Seeded)
    (hc : Reaches app s c) (ha : AppliedTo app c.trace ev orderId) (hi : Reports app i ev)
    (hp : c.procs pid = some (i, held)) (ht : held.prog = .tx (.paymentResult orderId succeeded) k) :
    LeavesAlone c.store orderId (.paymentResult orderId succeeded) k ↔
      (∃ intent, ev = .captured intent) ∨ c.store.db.lockOrder orderId ≠ some .pendingPayment := by
  have hproc : (RowLocks.atomic c).procs pid = some (i, .tx (.paymentResult orderId succeeded) k) := by
    simp [RowLocks.atomic, hp, ht]
  have hres := Site.residual ((rowLocks app).reachable_atomic hc) hproc
  obtain ⟨rfl, hk⟩ := delivery_residual hi hres
  have hpay := hc.paymentsOk hs
  have hidle : c.store.db.lockOrder orderId ≠ some .pendingPayment →
      LeavesAlone c.store orderId (.paymentResult orderId (PaymentEvent.succeeded ev)) k := by
    intro hst w
    obtain ⟨hu, hno⟩ := paymentResult_idle (PaymentEvent.succeeded ev) w hst
    exact ⟨hu, hk _ (fun released => hno _ released)⟩
  constructor
  · intro hl
    by_contra hnot
    obtain ⟨hev, hst⟩ := not_or.mp hnot
    have hst := not_not.mp hst
    have hfail : PaymentEvent.succeeded ev = false := by
      cases ev with
      | captured intent => exact absurd ⟨intent, rfl⟩ hev
      | failed intent => rfl
      | ignored => rfl
    rw [hfail] at hl
    have hchanged := paymentResult_pending (w := drawn 0) (hc.numbered hs) hpay.run.streams rfl hst
    have hsame := (hl (drawn 0)).1.status
    rw [hchanged, hst] at hsame
    cases hsame
  · rintro (⟨intent, rfl⟩ | hst)
    · refine hidle (fun hst => ?_)
      obtain ⟨pid₀, i₀, next, released, -, hm⟩ := ha
      obtain ⟨row, hrow, hset⟩ := hpay.reconciled _ _ _ _ _ hm
      obtain ⟨row', hrow', hst'⟩ := Option.map_eq_some_iff.mp hst
      rw [hrow] at hrow'
      cases hrow'
      rw [hst'] at hset
      cases hset
    · exact hidle hst

end Deliveries

section Harbour

/-- A deployment whose provider reports every callback it is sent as a failure. -/
def declining : AppState := { sandbox with verifyCallback := fun _ body => .ok (.failed body) }

/-- The transaction a handler is about to run. -/
def pendingTx (c : LockConf Request World Tx TxResult Call Reply Answer Uuid LockRead LockRead) (pid : Nat) :
    Option (Request × Tx) :=
  (c.procs pid).bind (fun q =>
    match q.2.prog with
    | .tx t _ => some (q.1, t)
    | _ => none)

lemma pendingTx_eq_some {c : LockConf Request World Tx TxResult Call Reply Answer Uuid LockRead LockRead}
    {pid : Nat} {i : Request} {t : Tx} (h : pendingTx c pid = some (i, t)) :
    ∃ held k, c.procs pid = some (i, held) ∧ held.prog = .tx t k := by
  obtain ⟨q, hq, h⟩ := Option.bind_eq_some_iff.mp h
  split at h
  · rename_i t' k hk
    cases h
    exact ⟨q.2, k, hq, hk⟩
  · cases h

/-- Ana asks to pay, and a callback about the intent is reconciled. -/
def settledRun : List (LockAct Request Reply Oracle Nat) :=
  [.arrive (.storeCreate booking), .read 0 true, .read 0 true, .peek 0, .short 0 (drawn 100),
    .arrive (.requestPayment 100), .read 2 true, .reply 2 (.intent (.ok ⟨"pi_1", none⟩)), .lock 2, .plan 2,
    .commit 2 (drawn 0), .arrive (.paymentWebhook none none "pi_1"), .read 5 true, .lock 5, .plan 5,
    .commit 5 (drawn 0)]

/-- After the failure she asks again, gets the same intent, and the first callback is delivered once more. -/
def repeatedFailureRun : List (LockAct Request Reply Oracle Nat) :=
  settledRun ++ [.arrive (.requestPayment 100), .read 7 true, .reply 7 (.intent (.ok ⟨"pi_1", none⟩)), .lock 7,
    .plan 7, .commit 7 (drawn 0), .arrive (.paymentWebhook none none "pi_1"), .read 10 true]

set_option synthInstance.maxSize 256 in
/-- The failure of the first attempt, delivered again, takes the second attempt with it. -/
theorem repeated_failure_applied : ¬ ∀ (app : AppState) (s : World)
    (c : LockConf Request World Tx TxResult Call Reply Answer Uuid LockRead LockRead) (ev : PaymentEvent)
    (pid : Nat) (i : Request) (held : Held World Tx TxResult Call Reply Answer Uuid LockRead LockRead)
    (orderId : Uuid) (succeeded : Bool) (k : TxResult → Program Answer), s.db.Seeded → Reaches app s c →
    AppliedTo app c.trace ev orderId → Reports app i ev → c.procs pid = some (i, held) →
    held.prog = .tx (.paymentResult orderId succeeded) k →
    LeavesAlone c.store orderId (.paymentResult orderId succeeded) k := by
  intro hclaim
  have hrun : ((rowLocks declining).exec (RowLocks.init harbour) repeatedFailureRun).map (fun c =>
      (c.trace[6]?, pendingTx c 10, c.store.db.lockOrder 100,
        ((Tx.paymentResult 100 false).run (drawn 0) c.store).2.db.lockOrder 100)) =
      some (some (.commit 5 (.paymentWebhook none none "pi_1") (.paymentResult 100 false)
          (.transition (.applied .locked) [])),
        some (.paymentWebhook none none "pi_1", .paymentResult 100 false), some .pendingPayment,
        some .locked) := by decide
  obtain ⟨c, hc, hend⟩ := Option.map_eq_some_iff.mp hrun
  simp only [Prod.mk.injEq] at hend
  obtain ⟨hev, htx, hst, hst'⟩ := hend
  obtain ⟨held, k, hp, ht⟩ := pendingTx_eq_some htx
  have hdel : Reports declining (.paymentWebhook none none "pi_1") (.failed "pi_1") :=
    ⟨none, none, "pi_1", rfl, rfl⟩
  have happ : AppliedTo declining c.trace (.failed "pi_1") 100 :=
    ⟨5, _, .locked, [], hdel, List.mem_of_getElem? hev⟩
  have hsame := (hclaim declining harbour c (.failed "pi_1") 10 _ held 100 false k harbour_seeded
    (RowLocks.reachable_of_exec hc) happ hdel hp ht (drawn 0)).1.status
  rw [hst, hst'] at hsame
  cases hsame

/-- A capture, delivered once more. -/
theorem repeated_callback_harbour : ∃ c k, Reaches sandbox harbour c ∧
    AppliedTo sandbox c.trace (.captured "pi_1") 100 ∧ LeavesAlone c.store 100 (.paymentResult 100 true) k := by
  have hrun : ((rowLocks sandbox).exec (RowLocks.init harbour)
      (settledRun ++ [.arrive (.paymentWebhook none none "pi_1"), .read 7 true])).map (fun c =>
        (c.trace[6]?, pendingTx c 7)) =
      some (some (.commit 5 (.paymentWebhook none none "pi_1") (.paymentResult 100 true)
          (.transition (.applied .paid) [])),
        some (.paymentWebhook none none "pi_1", .paymentResult 100 true)) := by decide
  obtain ⟨c, hc, hend⟩ := Option.map_eq_some_iff.mp hrun
  obtain ⟨hev, htx⟩ := Prod.mk.inj hend
  obtain ⟨held, k, hp, ht⟩ := pendingTx_eq_some htx
  have hdel : Reports sandbox (.paymentWebhook none none "pi_1") (.captured "pi_1") :=
    ⟨none, none, "pi_1", rfl, rfl⟩
  have happ : AppliedTo sandbox c.trace (.captured "pi_1") 100 :=
    ⟨5, _, .paid, [], hdel, List.mem_of_getElem? hev⟩
  have hreach : Reaches sandbox harbour c := RowLocks.reachable_of_exec hc
  have hleaves := (repeated_callback harbour_seeded hreach happ hdel hp ht).mpr (.inl ⟨"pi_1", rfl⟩)
  exact ⟨c, k, hreach, happ, hleaves⟩

end Harbour

end Lulan.Proofs
