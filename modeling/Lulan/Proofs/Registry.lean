import Lulan.Lib.Replay
import Lulan.Access.Endpoints

/-!
# What the statements do to the registry

The registry is the fold of the history, and each table of it changes by few statements only. Rows
are never removed, and what identifies them stays.
-/

namespace Lulan.Access.Proofs

open Lulan Lib
open Lulan.Http (Bytes)

/-- What a statement leaves of the registry, by how it ended. -/
def registryStep (r : Registry) (t : Stmt) (o : Outcome) : Registry :=
  match o with
  | .error _ => r
  | .ok _ =>
    match t.effect r with
    | .ok x => x.2
    | .error _ => r

section Statements

variable {s : Desk} {t : Stmt} {failure : Option DbError} {returned : Returned}

/-- A statement fails, or it has its effect. -/
lemma run_cases (t : Stmt) (failure : Option DbError) (s : Desk) :
    (∃ e, t.run failure s = (.error e, s)) ∨
      ∃ returned registry, t.effect s.registry = .ok (returned, registry) ∧
        t.run failure s = (.ok returned, { s with registry }) := by
  unfold Stmt.run
  cases hf : failure.filter (fun _ => t.stored) with
  | some e => exact .inl ⟨e, rfl⟩
  | none =>
    cases he : t.effect s.registry with
    | error e => exact .inl ⟨e, rfl⟩
    | ok x => exact .inr ⟨x.1, x.2, rfl, rfl⟩

lemma effect_of_run (h : (t.run failure s).1 = .ok returned) :
    ∃ registry, t.effect s.registry = .ok (returned, registry) := by
  rcases run_cases t failure s with ⟨e, hrun⟩ | ⟨returned', registry, heffect, hrun⟩
  · rw [hrun] at h
    cases h
  · rw [hrun] at h
    cases h
    exact ⟨registry, heffect⟩

/-- The registry is the fold of the history. -/
lemma registry_replays (d : Deployment) : Site.Replays (site d) Desk.registry registryStep where
  run t failure s := by
    change (t.run failure s).2.registry = registryStep s.registry t (t.run failure s).1
    rcases run_cases t failure s with ⟨e, hrun⟩ | ⟨returned, registry, heffect, hrun⟩
    · rw [hrun]
      rfl
    · rw [hrun]
      simp only [registryStep, heffect]
  env _ _ := rfl

end Statements

section Effects

variable {r r' : Registry} {t : Stmt} {returned : Returned}

lemma affected_pos {α κ : Type} {key : α → κ} {u : Table key} {p : α → Bool} (h : u.affected p ≠ 0) :
    ∃ x ∈ u.rows, p x = true :=
  List.countP_pos_iff.mp (Nat.pos_of_ne_zero h)

lemma insertInto_eq_ok {α κ ι : Type} {key : α → κ} {idx : α → ι} [DecidableEq κ] [DecidableEq ι]
    {u u' : Indexed key idx} {row : α} (h : insertInto u row = .ok u') :
    (∀ x ∈ u.rows, key x ≠ key row) ∧ (∀ x ∈ u.rows, idx x ≠ idx row) ∧ u'.rows = u.rows ++ [row] := by
  unfold insertInto at h
  cases hi : u.insert row with
  | none =>
    rw [hi] at h
    cases h
  | some u'' =>
    rw [hi] at h
    cases h
    exact Indexed.insert_eq_some hi

lemma insertKey_ok {id : Uuid} {keyHash : Bytes} {label : String} {role : ApiRole}
    (h : r.insertKey id keyHash label role = .ok (returned, r')) :
    ∃ apiKeys, insertInto r.apiKeys ⟨id, keyHash, label, role, true⟩ = .ok apiKeys ∧ r' = { r with apiKeys } := by
  unfold Registry.insertKey at h
  cases hi : insertInto r.apiKeys ⟨id, keyHash, label, role, true⟩ with
  | error e =>
    rw [hi] at h
    cases h
  | ok apiKeys =>
    rw [hi] at h
    cases h
    exact ⟨apiKeys, rfl, rfl⟩

lemma bootstrapKey_ok {id : Uuid} {keyHash : Bytes} (h : r.bootstrapKey id keyHash = .ok (returned, r')) :
    (∃ f : Amend ApiKeyRow.id ApiKeyRow.keyHash,
      r' = { r with apiKeys := r.apiKeys.amend (fun k => decide (k.keyHash = keyHash)) f }) ∨
      ∃ apiKeys, insertInto r.apiKeys ⟨id, keyHash, "bootstrap", .operatorAdmin, true⟩ = .ok apiKeys ∧
        r' = { r with apiKeys } := by
  unfold Registry.bootstrapKey at h
  split at h
  · cases h
    exact .inl ⟨_, rfl⟩
  · exact .inr (insertKey_ok h)

/-- The person whom a statement makes staff. -/
def enrols : Stmt → Option Person
  | .upsertStaff _ issuer subject _ _ _ | .bootstrapStaff _ issuer subject => some (issuer, subject)
  | _ => none

lemma upsertStaff_ok {id : Uuid} {issuer subject : String} {email : Option String} {displayName : String}
    {role : StaffRole} (h : r.upsertStaff id issuer subject email displayName role = .ok (returned, r')) :
    (∃ m ∈ r.staff.rows, m.person = (issuer, subject) ∧ returned = .returning m.id ∧
      ∃ f : Amend StaffRow.id StaffRow.person,
        r' = { r with staff := r.staff.amend (fun m => decide (m.person = (issuer, subject))) f }) ∨
      ∃ staff, returned = .returning id ∧
        insertInto r.staff ⟨id, issuer, subject, email, displayName, role, true⟩ = .ok staff ∧
        r' = { r with staff } := by
  unfold Registry.upsertStaff at h
  split at h
  · rename_i m hm
    cases h
    obtain ⟨hmem, hperson⟩ := Indexed.lookup_eq_some.mp hm
    exact .inl ⟨m, hmem, hperson, rfl, _, rfl⟩
  · cases hi : insertInto r.staff ⟨id, issuer, subject, email, displayName, role, true⟩ with
    | error e =>
      rw [hi] at h
      cases h
    | ok staff =>
      rw [hi] at h
      cases h
      exact .inr ⟨staff, rfl, rfl, rfl⟩

lemma bootstrapStaff_ok {id : Uuid} {issuer subject : String}
    (h : r.bootstrapStaff id issuer subject = .ok (returned, r')) :
    (∃ f : Amend StaffRow.id StaffRow.person,
      r' = { r with staff := r.staff.amend (fun m => decide (m.person = (issuer, subject))) f }) ∨
      ∃ staff, insertInto r.staff ⟨id, issuer, subject, none, "bootstrap admin", .admin, true⟩ = .ok staff ∧
        r' = { r with staff } := by
  unfold Registry.bootstrapStaff at h
  split at h
  · cases h
    exact .inl ⟨_, rfl⟩
  · cases hi : insertInto r.staff ⟨id, issuer, subject, none, "bootstrap admin", .admin, true⟩ with
    | error e =>
      rw [hi] at h
      cases h
    | ok staff =>
      rw [hi] at h
      cases h
      exact .inr ⟨staff, rfl, rfl⟩

lemma upsertCustomer_ok {id : Uuid} {issuer subject : String} {email : Option String}
    (h : r.upsertCustomer id issuer subject email = .ok (returned, r')) :
    (∃ c ∈ r.customers.rows, holder c = (issuer, subject) ∧ returned = .returning c.id ∧
      ∃ f : Amend CustomerRow.id holder,
        r' = { r with customers := r.customers.amend (fun c => decide (holder c = (issuer, subject))) f }) ∨
      ∃ customers, returned = .returning id ∧ insertInto r.customers ⟨id, issuer, subject, email⟩ = .ok customers ∧
        r' = { r with customers } := by
  unfold Registry.upsertCustomer at h
  split at h
  · rename_i c hc
    cases h
    obtain ⟨hmem, hholder⟩ := Indexed.lookup_eq_some.mp hc
    exact .inl ⟨c, hmem, hholder, rfl, _, rfl⟩
  · cases hi : insertInto r.customers ⟨id, issuer, subject, email⟩ with
    | error e =>
      rw [hi] at h
      cases h
    | ok customers =>
      rw [hi] at h
      cases h
      exact .inr ⟨customers, rfl, rfl, rfl⟩

lemma book_ok {row : OwnedOrderRow} (h : r.book row = .ok (returned, r')) :
    ∃ orders, r.orders.insert row = some orders ∧ r' = { r with orders } := by
  unfold Registry.book at h
  cases hi : Db.insertRow r.orders row (Db.refersTo r.customers.toTable row.customerId) true with
  | error e =>
    rw [hi] at h
    cases h
  | ok orders =>
    rw [hi] at h
    cases h
    exact ⟨orders, (Db.insertRow_eq_ok.mp hi).2.2, rfl⟩

lemma claimOrder_ok {orderId customerId : Uuid} (h : r.claimOrder orderId customerId = .ok (returned, r')) :
    returned = .rows (r.orders.affected (Registry.unowned orderId)) ∧
      ∃ f : Assign OwnedOrderRow.id, (∀ o, f.set o = { o with customerId := some customerId }) ∧
        r' = { r with orders := r.orders.update (Registry.unowned orderId) f } := by
  unfold Registry.claimOrder at h
  split at h
  · rename_i hnone
    cases h
    refine ⟨by rw [hnone], ⟨fun o => { o with customerId := some customerId }, fun _ => rfl⟩, fun _ => rfl, ?_⟩
    have hall : ∀ o ∈ r.orders.rows, Registry.unowned orderId o = false := by
      intro o ho
      by_contra hne
      have hpos := List.countP_pos_iff.mpr ⟨o, ho, by simpa using hne⟩
      unfold Table.affected at hnone
      omega
    rw [Table.update_false r.orders _ _ hall]
  · split at h
    · cases h
      exact ⟨rfl, _, fun _ => rfl, rfl⟩
    · cases h

lemma audit_ok {row : AuditRow} (h : r.audit row = .ok (returned, r')) :
    r' = { r with auditLog := r.auditLog ++ [row] } := by
  unfold Registry.audit at h
  split at h
  · cases h
    rfl
  · cases h

/-- Nothing but the table of the statement has changed. -/
def Framed (t : Stmt) (r r' : Registry) : Prop :=
  match t with
  | .insertKey .. | .bootstrapKey .. | .deactivateKey _ => r' = { r with apiKeys := r'.apiKeys }
  | .upsertStaff .. | .bootstrapStaff .. | .deactivateStaff _ => r' = { r with staff := r'.staff }
  | .upsertCustomer .. => r' = { r with customers := r'.customers }
  | .book _ | .setStatus .. | .claimOrder .. => r' = { r with orders := r'.orders }
  | .audit row => r' = { r with auditLog := r.auditLog ++ [row] }
  | .storeKeys jwks => r' = { r with jwks }

lemma effect_framed (h : t.effect r = .ok (returned, r')) : Framed t r r' := by
  cases t with
  | insertKey id keyHash label role =>
    obtain ⟨apiKeys, -, rfl⟩ := insertKey_ok h
    rfl
  | bootstrapKey id keyHash =>
    rcases bootstrapKey_ok h with ⟨f, rfl⟩ | ⟨apiKeys, -, rfl⟩
    · rfl
    · rfl
  | upsertStaff id issuer subject email displayName role =>
    rcases upsertStaff_ok h with ⟨m, -, -, -, f, rfl⟩ | ⟨staff, -, -, rfl⟩
    · rfl
    · rfl
  | bootstrapStaff id issuer subject =>
    rcases bootstrapStaff_ok h with ⟨f, rfl⟩ | ⟨staff, -, rfl⟩
    · rfl
    · rfl
  | upsertCustomer id issuer subject email =>
    rcases upsertCustomer_ok h with ⟨c, -, -, -, f, rfl⟩ | ⟨customers, -, -, rfl⟩
    · rfl
    · rfl
  | book row =>
    obtain ⟨orders, -, rfl⟩ := book_ok h
    rfl
  | claimOrder orderId customerId =>
    obtain ⟨-, f, -, rfl⟩ := claimOrder_ok h
    rfl
  | audit row => exact audit_ok h
  | deactivateKey id =>
    cases h
    rfl
  | deactivateStaff id =>
    cases h
    rfl
  | setStatus orderId status =>
    cases h
    rfl
  | storeKeys jwks =>
    cases h
    rfl

/-- What holds of an API key goes on to hold of one. -/
lemma apiKeys_keep {P : ApiKeyRow → Prop} (h : t.effect r = .ok (returned, r'))
    (hdeactivate : ∀ k, t = .deactivateKey k.id → P k → P { k with active := false })
    (hbootstrap : ∀ id k k', t = .bootstrapKey id k.keyHash → k'.id = k.id → k'.keyHash = k.keyHash → P k → P k')
    (hP : ∃ k ∈ r.apiKeys.rows, P k) : ∃ k ∈ r'.apiKeys.rows, P k := by
  have hframe := effect_framed h
  cases t with
  | insertKey id keyHash label role =>
    obtain ⟨apiKeys, hi, rfl⟩ := insertKey_ok h
    exact Indexed.append_keeps (insertInto_eq_ok hi).2.2 hP
  | bootstrapKey id keyHash =>
    rcases bootstrapKey_ok h with ⟨f, rfl⟩ | ⟨apiKeys, hi, rfl⟩
    · refine Indexed.amend_keeps (fun k hk hPk => ?_) hP
      exact hbootstrap id k (f.set k) (by rw [of_decide_eq_true hk]) (f.key_set k) (f.idx_set k) hPk
    · exact Indexed.append_keeps (insertInto_eq_ok hi).2.2 hP
  | deactivateKey id =>
    cases h
    exact Indexed.amend_keeps (fun k hk hPk => hdeactivate k (by rw [of_decide_eq_true hk]) hPk) hP
  | _ =>
    simp only [Framed] at hframe
    rw [hframe]
    exact hP

/-- What holds of a member of staff goes on to hold of one. -/
lemma staff_keep {P : StaffRow → Prop} (h : t.effect r = .ok (returned, r'))
    (hdeactivate : ∀ m, t = .deactivateStaff m.id → P m → P { m with active := false })
    (henrol : ∀ m m', enrols t = some m.person → m'.id = m.id → m'.person = m.person → P m → P m')
    (hP : ∃ m ∈ r.staff.rows, P m) : ∃ m ∈ r'.staff.rows, P m := by
  have hframe := effect_framed h
  cases t with
  | upsertStaff id issuer subject email displayName role =>
    rcases upsertStaff_ok h with ⟨-, -, -, -, f, rfl⟩ | ⟨staff, -, hi, rfl⟩
    · refine Indexed.amend_keeps (fun m hm hPm => ?_) hP
      exact henrol m (f.set m) (by rw [of_decide_eq_true hm]; rfl) (f.key_set m) (f.idx_set m) hPm
    · exact Indexed.append_keeps (insertInto_eq_ok hi).2.2 hP
  | bootstrapStaff id issuer subject =>
    rcases bootstrapStaff_ok h with ⟨f, rfl⟩ | ⟨staff, hi, rfl⟩
    · refine Indexed.amend_keeps (fun m hm hPm => ?_) hP
      exact henrol m (f.set m) (by rw [of_decide_eq_true hm]; rfl) (f.key_set m) (f.idx_set m) hPm
    · exact Indexed.append_keeps (insertInto_eq_ok hi).2.2 hP
  | deactivateStaff id =>
    cases h
    exact Indexed.amend_keeps (fun m hm hPm => hdeactivate m (by rw [of_decide_eq_true hm]) hPm) hP
  | _ =>
    simp only [Framed] at hframe
    rw [hframe]
    exact hP

/-- A customer keeps the identifier. -/
lemma customers_keep {id : Uuid} {person : Person} (h : t.effect r = .ok (returned, r'))
    (hc : ∃ c ∈ r.customers.rows, holder c = person ∧ c.id = id) :
    ∃ c ∈ r'.customers.rows, holder c = person ∧ c.id = id := by
  have hframe := effect_framed h
  cases t with
  | upsertCustomer new issuer subject email =>
    rcases upsertCustomer_ok h with ⟨-, -, -, -, f, rfl⟩ | ⟨customers, -, hi, rfl⟩
    · refine Indexed.amend_keeps (fun c _ hc => ?_) hc
      exact ⟨(f.idx_set c).trans hc.1, (f.key_set c).trans hc.2⟩
    · exact Indexed.append_keeps (insertInto_eq_ok hi).2.2 hc
  | _ =>
    simp only [Framed] at hframe
    rw [hframe]
    exact hc

/-- An order keeps its owner. -/
lemma owner_keeps {orderId customerId : Uuid} (h : t.effect r = .ok (returned, r'))
    (ho : ∃ o ∈ r.orders.rows, o.id = orderId ∧ o.customerId = some customerId) :
    ∃ o ∈ r'.orders.rows, o.id = orderId ∧ o.customerId = some customerId := by
  have hframe := effect_framed h
  obtain ⟨o, hm, hid, hown⟩ := ho
  cases t with
  | book row =>
    obtain ⟨orders, hi, rfl⟩ := book_ok h
    exact ⟨o, by rw [(Table.insert_eq_some.mp hi).2]; exact List.mem_append_left _ hm, hid, hown⟩
  | setStatus orderId' status =>
    cases h
    refine ⟨_, List.mem_map.mpr ⟨o, hm, rfl⟩, ?_⟩
    split
    · exact ⟨hid, hown⟩
    · exact ⟨hid, hown⟩
  | claimOrder orderId' customerId' =>
    obtain ⟨-, f, hf, rfl⟩ := claimOrder_ok h
    refine ⟨_, List.mem_map.mpr ⟨o, hm, rfl⟩, ?_⟩
    have hnot : Registry.unowned orderId' o = false := by simp [Registry.unowned, hown]
    rw [hnot]
    exact ⟨hid, hown⟩
  | _ =>
    simp only [Framed] at hframe
    rw [hframe]
    exact ⟨o, hm, hid, hown⟩

end Effects

end Lulan.Access.Proofs
