import Lulan.Engine.Database
import Lulan.Lib.Indexed
import Lulan.Payments.Http

/-!
# Who may call

API keys, staff, customers, the owners of orders and the audit log, and the statements on them,
each a transaction of its own. The key set of the identity provider lives in the process, beside them.
-/

namespace Lulan.Access

open Http (Bytes)

inductive ApiRole where
  | operatorAdmin
  | integration
  | validator
deriving DecidableEq, Repr

def ApiRole.asStr : ApiRole → String
  | operatorAdmin => "operator_admin"
  | integration => "integration"
  | validator => "validator"

def ApiRole.parse (s : String) : Option ApiRole :=
  if s = "operator_admin" then some operatorAdmin
  else if s = "integration" then some integration
  else if s = "validator" then some validator
  else none

inductive StaffRole where
  | admin
  | ops
  | support
deriving DecidableEq, Repr

def StaffRole.asStr : StaffRole → String
  | admin => "admin"
  | ops => "ops"
  | support => "support"

def StaffRole.parse (s : String) : Option StaffRole :=
  if s = "admin" then some admin else if s = "ops" then some ops else if s = "support" then some support else none

/-! ### Tables -/

/-- The role columns are checked, so rows hold roles. -/
structure ApiKeyRow where
  id : Uuid
  keyHash : Bytes
  label : String
  role : ApiRole
  active : Bool
deriving DecidableEq

structure StaffRow where
  id : Uuid
  issuer : String
  subject : String
  email : Option String
  displayName : String
  role : StaffRole
  active : Bool
deriving DecidableEq

/-- An order, as its owner sees it listed. -/
structure OwnedOrderRow where
  id : Uuid
  customerId : Option Uuid
  status : String
  totalMinor : Int
  currency : String
  createdAt : Timestamp
  tripIds : List Uuid
deriving DecidableEq

/-- Who performed an audited action: a machine credential or a human. -/
structure Actor where
  apiKeyId : Option Uuid
  staffId : Option Uuid
deriving DecidableEq

/-- What an action of the key and staff administration was about. The rows that other endpoints
write to the audit log are left out. -/
inductive Detail where
  | keyCreated (id : Uuid) (label : String) (role : ApiRole)
  | keyRevoked (id : Uuid)
  | staffEnrolled (id : Uuid) (subject : String) (role : StaffRole)
  | staffRevoked (id : Uuid)
deriving DecidableEq

def Detail.action : Detail → String
  | keyCreated .. => "api_key.created"
  | keyRevoked _ => "api_key.revoked"
  | staffEnrolled .. => "staff.enrolled"
  | staffRevoked _ => "staff.revoked"

structure AuditRow where
  actor : Actor
  action : String
  detail : Detail
deriving DecidableEq

/-! ### The key set of the identity provider -/

inductive Algorithm where
  | hs256
  | hs384
  | hs512
  | es256
  | es384
  | rs256
  | rs384
  | rs512
  | ps256
  | ps384
  | ps512
  | edDsa
deriving DecidableEq, Repr

/-- The `alg` of a published key; those of encryption are no signature algorithm. -/
inductive KeyAlgorithm where
  | signature (alg : Algorithm)
  | encryption (name : String)
deriving DecidableEq

/-- `alg.to_string().parse()`. -/
def KeyAlgorithm.parse : KeyAlgorithm → Option Algorithm
  | signature alg => some alg
  | encryption _ => none

inductive AlgorithmParameters where
  | rsa (n e : String)
  | ellipticCurve (curve x y : String)
  | octetKeyPair (curve x : String)
  | octetKey (value : String)
deriving DecidableEq

structure Jwk where
  keyId : Option String
  keyAlgorithm : Option KeyAlgorithm
  algorithm : AlgorithmParameters
deriving DecidableEq

abbrev JwkSet : Type := List Jwk

def JwkSet.find (keys : JwkSet) (kid : String) : Option Jwk := List.find? (fun jwk => jwk.keyId = some kid) keys

/-- A person, as the identity provider names them. -/
abbrev Person : Type := String × String

def StaffRow.person (m : StaffRow) : Person := (m.issuer, m.subject)

def holder (c : CustomerRow) : Person := (c.issuer, c.subject)

/-- `SET email = COALESCE(EXCLUDED.email, customers.email)`. -/
def withEmail (email : Option String) (c : CustomerRow) : CustomerRow := { c with email := email.or c.email }

lemma withEmail_id (email : Option String) (c : CustomerRow) : (withEmail email c).id = c.id := rfl

lemma withEmail_holder (email : Option String) (c : CustomerRow) : holder (withEmail email c) = holder c := rfl

/-- What the requests read and write. -/
structure Registry where
  apiKeys : Lib.Indexed ApiKeyRow.id ApiKeyRow.keyHash
  staff : Lib.Indexed StaffRow.id StaffRow.person
  customers : Lib.Indexed CustomerRow.id holder
  orders : Lib.Table OwnedOrderRow.id
  auditLog : List AuditRow
  jwks : JwkSet

/-- The committed state, and the time. -/
structure Desk where
  now : Timestamp
  registry : Registry

/-! ### Statements -/

inductive Stmt where
  | insertKey (id : Uuid) (keyHash : Bytes) (label : String) (role : ApiRole)
  | bootstrapKey (id : Uuid) (keyHash : Bytes)
  | deactivateKey (id : Uuid)
  | upsertStaff (id : Uuid) (issuer subject : String) (email : Option String) (displayName : String)
      (role : StaffRole)
  | bootstrapStaff (id : Uuid) (issuer subject : String)
  | deactivateStaff (id : Uuid)
  | upsertCustomer (id : Uuid) (issuer subject : String) (email : Option String)
  | book (row : OwnedOrderRow)
  | setStatus (orderId : Uuid) (status : String)
  | claimOrder (orderId customerId : Uuid)
  | audit (row : AuditRow)
  | storeKeys (keys : JwkSet)
deriving DecidableEq

inductive Returned where
  | rows (affected : Nat)
  | returning (id : Uuid)
deriving DecidableEq

def Returned.rows? : Returned → Option Nat
  | rows n => some n
  | returning _ => none

def Returned.id? : Returned → Option Uuid
  | rows _ => none
  | returning id => some id

/-- `INSERT` into a table with a second unique column. -/
def insertInto {α κ ι : Type} {key : α → κ} {idx : α → ι} [DecidableEq κ] [DecidableEq ι] (t : Lib.Indexed key idx)
    (row : α) : Except DbError (Lib.Indexed key idx) :=
  match t.insert row with
  | some t' => .ok t'
  | none => .error .uniqueViolation

namespace Registry

variable (r : Registry)

/-- `INSERT INTO api_keys`. -/
def insertKey (id : Uuid) (keyHash : Bytes) (label : String) (role : ApiRole) :
    Except DbError (Returned × Registry) := do
  let apiKeys ← insertInto r.apiKeys ⟨id, keyHash, label, role, true⟩
  return (.rows 1, { r with apiKeys })

/-- `INSERT … ON CONFLICT (key_hash) DO UPDATE SET active = true`. -/
def bootstrapKey (id : Uuid) (keyHash : Bytes) : Except DbError (Returned × Registry) :=
  match r.apiKeys.lookup keyHash with
  | some _ =>
    let apiKeys := r.apiKeys.amend (fun k => decide (k.keyHash = keyHash))
      ⟨⟨fun k => { k with active := true }, fun _ => rfl⟩, fun _ => rfl⟩
    .ok (.rows 1, { r with apiKeys })
  | none => r.insertKey id keyHash "bootstrap" .operatorAdmin

/-- `UPDATE api_keys SET active = false WHERE id = $1`. -/
def deactivateKey (id : Uuid) : Returned × Registry :=
  let apiKeys := r.apiKeys.amend (fun k => decide (k.id = id))
    ⟨⟨fun k => { k with active := false }, fun _ => rfl⟩, fun _ => rfl⟩
  (.rows (r.apiKeys.affected (fun k => decide (k.id = id))), { r with apiKeys })

/-- `INSERT INTO staff … ON CONFLICT (issuer, subject) DO UPDATE … RETURNING id`. -/
def upsertStaff (id : Uuid) (issuer subject : String) (email : Option String) (displayName : String)
    (role : StaffRole) : Except DbError (Returned × Registry) :=
  match r.staff.lookup (issuer, subject) with
  | some m =>
    let staff := r.staff.amend (fun m => decide (m.person = (issuer, subject)))
      ⟨⟨fun m => { m with role, displayName, email, active := true }, fun _ => rfl⟩, fun _ => rfl⟩
    .ok (.returning m.id, { r with staff })
  | none => do
    let staff ← insertInto r.staff ⟨id, issuer, subject, email, displayName, role, true⟩
    return (.returning id, { r with staff })

/-- `INSERT … ON CONFLICT (issuer, subject) DO UPDATE SET active = true, role = 'admin'`. -/
def bootstrapStaff (id : Uuid) (issuer subject : String) : Except DbError (Returned × Registry) :=
  match r.staff.lookup (issuer, subject) with
  | some _ =>
    let staff := r.staff.amend (fun m => decide (m.person = (issuer, subject)))
      ⟨⟨fun m => { m with active := true, role := .admin }, fun _ => rfl⟩, fun _ => rfl⟩
    .ok (.rows 1, { r with staff })
  | none => do
    let staff ← insertInto r.staff ⟨id, issuer, subject, none, "bootstrap admin", .admin, true⟩
    return (.rows 1, { r with staff })

/-- `UPDATE staff SET active = false WHERE id = $1`. -/
def deactivateStaff (id : Uuid) : Returned × Registry :=
  let staff := r.staff.amend (fun m => decide (m.id = id))
    ⟨⟨fun m => { m with active := false }, fun _ => rfl⟩, fun _ => rfl⟩
  (.rows (r.staff.affected (fun m => decide (m.id = id))), { r with staff })

/-- `INSERT INTO customers … ON CONFLICT (issuer, subject) DO UPDATE … RETURNING id`. -/
def upsertCustomer (id : Uuid) (issuer subject : String) (email : Option String) :
    Except DbError (Returned × Registry) :=
  match r.customers.lookup (issuer, subject) with
  | some c =>
    let customers := r.customers.amend (fun c => decide (holder c = (issuer, subject)))
      ⟨⟨withEmail email, withEmail_id email⟩, withEmail_holder email⟩
    .ok (.returning c.id, { r with customers })
  | none => do
    let customers ← insertInto r.customers ⟨id, issuer, subject, email⟩
    return (.returning id, { r with customers })

/-- An order, as booked elsewhere. -/
def book (row : OwnedOrderRow) : Except DbError (Returned × Registry) := do
  let orders ← Db.insertRow r.orders row (Db.refersTo r.customers.toTable row.customerId) true
  return (.rows 1, { r with orders })

/-- What happens to an order elsewhere. -/
def setStatus (orderId : Uuid) (status : String) : Returned × Registry :=
  let orders := r.orders.update (fun o => decide (o.id = orderId)) ⟨fun o => { o with status }, fun _ => rfl⟩
  (.rows (r.orders.affected (fun o => decide (o.id = orderId))), { r with orders })

/-- An order that belongs to nobody yet. -/
def unowned (orderId : Uuid) (o : OwnedOrderRow) : Bool := decide (o.id = orderId) && decide (o.customerId = none)

/-- `UPDATE orders SET customer_id = $2 WHERE id = $1 AND customer_id IS NULL`. -/
def claimOrder (orderId customerId : Uuid) : Except DbError (Returned × Registry) :=
  if r.orders.affected (unowned orderId) = 0 then .ok (.rows 0, r)
  else if Db.refersTo r.customers.toTable (some customerId) then
    let orders := r.orders.update (unowned orderId)
      ⟨fun o => { o with customerId := some customerId }, fun _ => rfl⟩
    .ok (.rows (r.orders.affected (unowned orderId)), { r with orders })
  else .error .foreignKeyViolation

/-- `INSERT INTO audit_log`, which refers to the credential. -/
def audit (row : AuditRow) : Except DbError (Returned × Registry) :=
  if Db.refersTo r.apiKeys.toTable row.actor.apiKeyId && Db.refersTo r.staff.toTable row.actor.staffId then
    .ok (.rows 1, { r with auditLog := r.auditLog ++ [row] })
  else .error .foreignKeyViolation

end Registry

def Stmt.effect (t : Stmt) (r : Registry) : Except DbError (Returned × Registry) :=
  match t with
  | .insertKey id keyHash label role => r.insertKey id keyHash label role
  | .bootstrapKey id keyHash => r.bootstrapKey id keyHash
  | .deactivateKey id => .ok (r.deactivateKey id)
  | .upsertStaff id issuer subject email displayName role => r.upsertStaff id issuer subject email displayName role
  | .bootstrapStaff id issuer subject => r.bootstrapStaff id issuer subject
  | .deactivateStaff id => .ok (r.deactivateStaff id)
  | .upsertCustomer id issuer subject email => r.upsertCustomer id issuer subject email
  | .book row => r.book row
  | .setStatus orderId status => .ok (r.setStatus orderId status)
  | .claimOrder orderId customerId => r.claimOrder orderId customerId
  | .audit row => r.audit row
  | .storeKeys jwks => .ok (.rows 0, { r with jwks })

/-- How a statement ends. -/
abbrev Outcome : Type := Except DbError Returned

/-- Whether a statement needs the database; the key set is no table. -/
def Stmt.stored : Stmt → Bool
  | .storeKeys _ => false
  | _ => true

/-- A statement, as the connection lets it pass or not. -/
def Stmt.run (t : Stmt) (failure : Option DbError) (s : Desk) : Outcome × Desk :=
  match failure.filter (fun _ => t.stored) with
  | some e => (.error e, s)
  | none =>
    match t.effect s.registry with
    | .ok (returned, registry) => (.ok returned, { s with registry })
    | .error e => (.error e, s)

end Lulan.Access
