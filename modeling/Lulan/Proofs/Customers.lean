import Lulan.Proofs.ReadBack

/-!
# Customers

A customer's identifier stands for one issuer and subject, and keeps standing for them: only the
upsert behind a bearer token writes customers, and it never changes whom a row is about.
-/

namespace Lulan.Proofs

open Lulan Lulan.Db Lib

section Customers

variable {db db' db'' : Db} {s : World} {w : Oracle} {t : Tx} {id : Uuid}
  {issuer subject issuer' subject' : String}

/-- The customer with that identifier. -/
def Identifies (db : Db) (id : Uuid) (issuer subject : String) : Prop :=
  ∃ row, db.customers.find? id = some row ∧ row.issuer = issuer ∧ row.subject = subject

lemma Identifies.unique (h : Identifies db id issuer subject) (h' : Identifies db id issuer' subject') :
    issuer = issuer' ∧ subject = subject' := by
  obtain ⟨row, hrow, rfl, rfl⟩ := h
  obtain ⟨row', hrow', rfl, rfl⟩ := h'
  cases Option.some.inj (hrow.symm.trans hrow')
  exact ⟨rfl, rfl⟩

lemma Identifies.congr (h : Identifies db id issuer subject) (hc : db'.customers = db.customers) :
    Identifies db' id issuer subject := by
  obtain ⟨row, hrow, hi⟩ := h
  exact ⟨row, by rw [hc, hrow], hi⟩

lemma applyEventLocked_customers {current : Option OrderStatus} {seq : Nat} {orderId : Uuid}
    {event : OrderEventType}
    {outcome : TransitionOutcome} (h : db.applyEventLocked current seq orderId event = .ok (outcome, db')) :
    db'.customers = db.customers := by
  rcases applyEventLocked_eq_ok h with ⟨-, -, rfl⟩ | ⟨_, _, -, -, -, rfl⟩ | ⟨_, _, -, -, -, hadv⟩
  · rfl
  · rfl
  · obtain ⟨_, _, -, -, rfl⟩ := hadv
    rfl

lemma releaseOrderItems_customers (db : Db) (orderId : Uuid) :
    (db.releaseOrderItems orderId).2.customers = db.customers := by
  rw [releaseOrderItems_frame]

lemma exitOrder_customers {current : Option OrderStatus} {seq : Nat} {orderId : Uuid} {event : OrderEventType}
    {outcome : TransitionOutcome} {released : List (OrderItemRow × Nat)}
    (h : db.exitOrder current seq orderId event = .ok (outcome, released, db')) :
    db'.customers = db.customers := by
  obtain ⟨⟨o, mid⟩, hmid, h⟩ := bind_eq_ok.mp h
  have hcustomers := applyEventLocked_customers hmid
  cases o with
  | applied next =>
    cases h
    exact (releaseOrderItems_customers mid orderId).trans hcustomers
  | noOp current =>
    cases h
    exact hcustomers
  | notFound =>
    cases h
    exact hcustomers

lemma boardOrder_customers {orderId : Uuid} {status : Option String}
    (h : db.boardOrder orderId = .ok (status, db')) :
    db'.customers = db.customers := by
  unfold boardOrder at h
  split at h
  · cases h
  · split at h
    · cases h
      rfl
    · obtain ⟨mid, happend, h⟩ := bind_eq_ok.mp h
      cases h
      obtain ⟨_, _, -, -, rfl⟩ := append_eq_ok happend
      rfl

lemma recordScan_customers {lag : Nat} {ticketId : Uuid} {deviceId result : String} {scannedAt : Timestamp}
    {outcome : ScanOutcome} (h : db.recordScan lag ticketId deviceId scannedAt result = .ok (outcome, db')) :
    db'.customers = db.customers := by
  unfold recordScan at h
  split at h
  · cases h
    rfl
  · split at h
    · cases h
      rfl
    · split at h
      · cases h
        rfl
      · cases h
        rfl
      · simp only at h
        split at h
        · obtain ⟨⟨orderStatus, mid⟩, hboard, h⟩ := bind_eq_ok.mp h
          cases h
          exact (boardOrder_customers hboard).trans rfl
        · cases h
          rfl

lemma issueForOrder_customers {current : Option OrderStatus} {seq : Nat} {orderId : Uuid} {signer : TicketSigner}
    {now : Timestamp} {fresh : Nat → Uuid} {outcome : IssueOutcome}
    (h : db.issueForOrder current seq orderId signer now fresh = .ok (outcome, db')) :
    db'.customers = db.customers := by
  unfold issueForOrder at h
  split at h
  · cases h
    rfl
  · split at h
    · cases h
      rfl
    · split at h
      · cases h
        rfl
      · split at h
        · cases h
          rfl
        · obtain ⟨⟨seats, db₁⟩, h₁, h⟩ := bind_eq_ok.mp h
          obtain ⟨⟨admitted, db₂⟩, h₂, h⟩ := bind_eq_ok.mp h
          obtain ⟨db₃, h₃, h⟩ := bind_eq_ok.mp h
          cases h
          obtain ⟨_, -, -, rfl⟩ := issueSeats_eq_ok h₁
          obtain ⟨_, _, -, -, -, rfl⟩ := issueAdmissions_eq_ok h₂
          obtain ⟨_, _, -, -, rfl⟩ := append_eq_ok h₃
          rfl

lemma createOrder_customers {ids : BookingIds} {now expiresAt : Timestamp} {o : NewOrder} {wired : List WiredItem}
    {record : OrderRecord} (h : db.createOrder ids now expiresAt o wired = .ok (record, db')) :
    db'.customers = db.customers := by
  obtain ⟨_, _, _, _, _, _, db₁, -, -, -, -, hitems, -, -, rfl⟩ := (createOrder_booked h).step
  rw [(claimItems_frame hitems).2]

/-- Whoever is identified stays so, and the upsert identifies whom it is about. -/
lemma upsertCustomer_identifies {email : Option String} {new : Uuid}
    (h : db.upsertCustomer new issuer subject email = .ok (id, db')) :
    (∀ id' issuer' subject', Identifies db id' issuer' subject' → Identifies db' id' issuer' subject') ∧
      Identifies db' id issuer subject := by
  unfold upsertCustomer at h
  split at h
  · rename_i c hc
    cases h
    have hmem : c ∈ db.customers.rows := List.mem_of_find?_eq_some hc
    have hsame := List.find?_some hc
    simp only [Bool.and_eq_true, decide_eq_true_eq] at hsame
    let customers := db.customers.update (fun r => decide (r.id = c.id))
      ⟨fun r => { r with email := email.or r.email }, fun _ => rfl⟩
    have hkeep {id' : Uuid} {issuer' subject' : String} (hi : Identifies db id' issuer' subject') :
        Identifies { db with customers := customers } id' issuer' subject' := by
      obtain ⟨row, hrow, hissuer, hsubject⟩ := hi
      refine ⟨if row.id = c.id then { row with email := email.or row.email } else row, ?_, ?_, ?_⟩
      · change customers.find? id' = _
        rw [Lib.Table.find?_update, hrow]
        simp
      · split <;> exact hissuer
      · split <;> exact hsubject
    exact ⟨fun _ _ _ hi => hkeep hi, hkeep ⟨c, Lib.Table.find?_of_mem hmem, hsame.1, hsame.2⟩⟩
  · obtain ⟨customers, hinsert, h⟩ := bind_eq_ok.mp h
    cases h
    obtain ⟨-, -, hinsert⟩ := insertRow_eq_ok.mp hinsert
    refine ⟨fun id' issuer' subject' hi => ?_, ?_⟩
    · obtain ⟨row, hrow, hsame⟩ := hi
      refine ⟨row, ?_, hsame⟩
      rw [Lib.Table.find?_insert hinsert, if_neg, hrow]
      rintro rfl
      rw [(Lib.Table.insert_eq_some.mp hinsert).1] at hrow
      cases hrow
    · exact ⟨_, by rw [Lib.Table.find?_insert hinsert, if_pos rfl], rfl, rfl⟩

/-- Only the upsert behind a bearer token writes customers. -/
lemma run_customers (w : Oracle)
    (s : World) (hu : ∀ issuer subject email, t ≠ .upsertCustomer issuer subject email) :
    (t.run w s).2.db.customers = s.db.customers := by
  unfold Tx.run
  cases w.fail with
  | some e => rfl
  | none =>
    have h₀ : s.db.customers = s.db.customers := rfl
    cases t with
    | createOrder o wired expiresAt =>
      simp only [Tx.body]
      cases h : s.db.createOrder w.bookingIds s.now expiresAt o wired with
      | ok r => exact createOrder_customers h
      | error a => cases a <;> rfl
    | requestPayment orderId intent =>
      refine settle_keeps (P := fun db => db.customers = s.db.customers) h₀ (fun outcome db h => ?_)
      obtain ⟨⟨o, mid⟩, hmid, h⟩ := bind_eq_ok.mp h
      have hcustomers := applyEventLocked_customers hmid
      cases o with
      | applied next =>
        simp only at h
        split at h
        · cases h
        · cases h
          exact hcustomers
      | noOp current =>
        cases h
        exact hcustomers
      | notFound =>
        cases h
        exact hcustomers
    | paymentResult orderId succeeded =>
      refine settle_keeps (P := fun db => db.customers = s.db.customers) h₀ (fun outcome db h => ?_)
      obtain ⟨⟨o, mid⟩, hmid, h⟩ := bind_eq_ok.mp h
      have hcustomers := applyEventLocked_customers hmid
      simp only at h
      split at h
      · cases h
        exact hcustomers
      · cases h
        exact hcustomers
    | cancel orderId =>
      exact settleReleasing_keeps (P := fun db => db.customers = s.db.customers) h₀
        (fun _ _ _ h => exitOrder_customers h)
    | expire orderId =>
      exact settleReleasing_keeps (P := fun db => db.customers = s.db.customers) h₀
        (fun _ _ _ h => exitOrder_customers h)
    | refund orderId =>
      refine settleReleasing_keeps (P := fun db => db.customers = s.db.customers) h₀
        (fun outcome released db h => ?_)
      obtain ⟨⟨o, mid⟩, hmid, h⟩ := bind_eq_ok.mp h
      have hcustomers := applyEventLocked_customers hmid
      cases o with
      | applied next =>
        cases h
        exact (releaseOrderItems_customers mid orderId).trans hcustomers
      | noOp current =>
        cases h
        exact hcustomers
      | notFound =>
        cases h
        exact hcustomers
    | issueForOrder orderId signer =>
      exact settle_keeps (P := fun db => db.customers = s.db.customers) h₀ (fun _ _ h => issueForOrder_customers h)
    | recordScan ticketId deviceId scannedAt result =>
      exact settle_keeps (P := fun db => db.customers = s.db.customers) h₀ (fun _ _ h => recordScan_customers h)
    | upsertCustomer issuer subject email => exact absurd rfl (hu issuer subject email)
    | insertKey scope key requestHash =>
      change (s.db.insertKey s.now scope key requestHash).2.customers = _
      unfold insertKey
      split <;> rfl
    | _ => rfl

/-- Whoever is identified stays so in every transaction. -/
lemma run_identifies (t : Tx) (w : Oracle) (s : World) (h : Identifies s.db id issuer subject) :
    Identifies (t.run w s).2.db id issuer subject := by
  by_cases hu : ∃ issuer subject email, t = .upsertCustomer issuer subject email
  · obtain ⟨issuer', subject', email, rfl⟩ := hu
    unfold Tx.run
    cases w.fail with
    | some e => exact h
    | none =>
      refine settle_keeps (P := fun db => Identifies db id issuer subject) h (fun new db hdb => ?_)
      exact (upsertCustomer_identifies hdb).1 _ _ _ h
  · exact h.congr (run_customers w s (fun issuer subject email he => hu ⟨issuer, subject, email, he⟩))

/-- The upsert returns the identifier of whom it is about. -/
lemma run_upsert {email : Option String} (w : Oracle) (s : World)
    (h : ((Tx.upsertCustomer issuer subject email).run w s).1 = .customer id) :
    Identifies ((Tx.upsertCustomer issuer subject email).run w s).2.db id issuer subject := by
  unfold Tx.run at h ⊢
  cases hf : w.fail with
  | some e =>
    rw [hf] at h
    cases h
  | none =>
    rw [hf] at h
    change (Tx.settle s .customer (s.db.upsertCustomer (w.fresh 0) issuer subject email)).1 = _ at h
    change Identifies (Tx.settle s .customer (s.db.upsertCustomer (w.fresh 0) issuer subject email)).2.db id issuer
      subject
    cases hu : s.db.upsertCustomer (w.fresh 0) issuer subject email with
    | error e =>
      rw [hu] at h
      cases h
    | ok x =>
      rw [hu] at h
      cases h
      exact (upsertCustomer_identifies hu).2

end Customers

end Lulan.Proofs
