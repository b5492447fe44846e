import Lulan.Lib.Concurrent
import Lulan.Api.RateLimit
import Lulan.Api.Tokens
import Lulan.Access.Directory

/-!
# Who is calling

API keys and bearer tokens, the extractors that turn them into a caller with a role, and the
endpoints that hand out, take back and use these credentials.
-/

namespace Lulan.Access

open Http (Bytes asBytes)

/-! ### Programs over the desk -/

inductive Call where
  | newUuid
  | fetchJwks
deriving DecidableEq

inductive Reply where
  | uuid (id : Uuid)
  | fetched (result : Except String JwkSet)
deriving DecidableEq

def Call.fits : Call → Reply → Bool
  | .newUuid, .uuid _ => true
  | .fetchJwks, .fetched _ => true
  | _, _ => false

abbrev Program (α : Type) : Type := Lib.Prog Desk Stmt Outcome Call Reply α

abbrev Handler (α : Type) : Type := ExceptT ApiError (Lib.Prog Desk Stmt Outcome Call Reply) α

namespace Handler

variable {α : Type}

/-- A query, or the error it fails with when the database is out of reach. -/
def query (f : Desk → α) : Handler α :=
  Lib.Prog.read (fun s =>
    match s with
    | none => Lib.Prog.ret (.error (.ofDb .connection))
    | some s => Lib.Prog.ret (.ok (f s)))

/-- A look at what the process holds. -/
def look (f : Desk → α) : Handler α := Lib.Prog.peek (fun s => Lib.Prog.ret (.ok (f s)))

/-- How a statement has ended; `f` reads what it returned. -/
def settle (f : Returned → Option α) : Outcome → Handler α
  | .error e => Lib.Prog.ret (.error (.ofDb e))
  | .ok returned =>
    match f returned with
    | some a => Lib.Prog.ret (.ok a)
    | none => Lib.Prog.ret (.error (.ofDb .connection))

/-- A statement, or the error it fails with. -/
def execute (t : Stmt) (f : Returned → Option α) : Handler α := Lib.Prog.tx t (settle f)

/-- `Uuid::new_v4()`. -/
def newUuid : Handler Uuid :=
  Lib.Prog.call .newUuid (fun b =>
    match b with
    | .uuid id => Lib.Prog.ret (.ok id)
    | .fetched _ => Lib.Prog.ret (.error (.ofDb .connection)))

def fetchJwks : Handler (Except String JwkSet) :=
  Lib.Prog.call .fetchJwks (fun b =>
    match b with
    | .fetched result => Lib.Prog.ret (.ok result)
    | .uuid _ => Lib.Prog.ret (.error (.ofDb .connection)))

end Handler

/-! ### The identity provider -/

structure JwtHeader where
  alg : Algorithm
  kid : Option String
deriving DecidableEq

structure JwtClaims where
  iss : String
  sub : String
  email : Option String
deriving DecidableEq

inductive DecodingKey where
  | secret (bytes : Bytes)
  | published (parameters : List Bytes)
deriving DecidableEq

/-- What a token is checked against; no audience means that none is asked for. -/
structure JwtValidation where
  algorithm : Algorithm
  issuer : String
  audience : Option String
deriving DecidableEq

/-- The crate `jsonwebtoken`. Its clock decides which tokens have expired. -/
structure Jwt where
  decodeHeader : String → Option JwtHeader
  fromJwk : Jwk → Option DecodingKey
  decode : Timestamp → String → DecodingKey → JwtValidation → Option JwtClaims

inductive Provider where
  | hs (issuer : String) (secret : Bytes)
  | jwks (issuer : String) (audience : Option String)
deriving DecidableEq

/-- The deployment: its environment, and what it uses from elsewhere. `simple` writes an
identifier without hyphens. -/
structure Deployment where
  db : Bool
  identity : Option Provider
  idpIssuer : Option String
  sha256 : Bytes → Bytes
  simple : Uuid → String
  jwt : Jwt
  crates : Tokens.Crates
  quoteSecret : Bytes

variable (d : Deployment)

/-- Whether an algorithm belongs to the family of the key material. -/
def algFamilyMatches (alg : Algorithm) : AlgorithmParameters → Bool
  | .rsa .. => alg ∈ [.rs256, .rs384, .rs512, .ps256, .ps384, .ps512]
  | .ellipticCurve .. => alg ∈ [.es256, .es384]
  | .octetKeyPair .. => alg ∈ [.edDsa]
  | .octetKey _ => alg ∈ [.hs256, .hs384, .hs512]

/-- The algorithm of the key, and of the token only where the key names none. -/
def trustedAlgorithm (header : JwtHeader) (jwk : Jwk) : Option Algorithm :=
  match jwk.keyAlgorithm with
  | some alg => alg.parse
  | none => if algFamilyMatches header.alg jwk.algorithm then some header.alg else none

/-- The key a token names, and the algorithm to verify it with. -/
def selectKey (keys : JwkSet) (header : JwtHeader) (kid : String) : Option (DecodingKey × Algorithm) := do
  let jwk ← keys.find kid
  let algorithm ← trustedAlgorithm header jwk
  let key ← d.jwt.fromJwk jwk
  return (key, algorithm)

def JwtClaims.subject (claims : JwtClaims) : Subject := ⟨claims.iss, claims.sub, claims.email⟩

/-- `IdentityProvider::verify`. -/
def Provider.verify (token : String) : Provider → Handler (Option Subject)
  | .hs issuer secret => do
    let now ← Handler.look Desk.now
    return (d.jwt.decode now token (.secret secret) ⟨.hs256, issuer, none⟩).map JwtClaims.subject
  | .jwks issuer audience =>
    match (d.jwt.decodeHeader token).bind (fun header => header.kid.map (fun kid => (header, kid))) with
    | none => return none
    | some (header, kid) => do
      let keys ← Handler.look (fun s => s.registry.jwks)
      match selectKey d keys header kid with
      | none => return none
      | some (key, algorithm) => do
        let now ← Handler.look Desk.now
        return (d.jwt.decode now token key ⟨algorithm, issuer, audience⟩).map JwtClaims.subject

/-- `connect`: the first key set must not be empty. -/
def connect (jwksUrl : String) (fetched : Except String JwkSet) : Except String JwkSet :=
  match fetched with
  | .error e => .error ("could not fetch " ++ jwksUrl ++ ": " ++ e)
  | .ok set => if set.isEmpty then .error (jwksUrl ++ " published an empty key set") else .ok set

/-- One turn of `refresh_jwks`. A failed refresh keeps the previous keys. -/
def refreshJwks : Handler Unit := do
  match ← Handler.fetchJwks with
  | .ok set =>
    if set.isEmpty then return ()
    else
      let _ ← Handler.execute (.storeKeys set) Returned.rows?
      return ()
  | .error _ => return ()

/-! ### Headers -/

/-- A request's headers: names in lower case, one entry for each line. -/
structure Parts where
  headers : List (String × Bytes)
deriving DecidableEq

/-- `HeaderMap::get`. -/
def Parts.get (parts : Parts) (name : String) : Option Bytes :=
  (parts.headers.find? (fun h => h.1 = name)).map Prod.snd

/-- `HeaderValue::to_str`. -/
def toStr (value : Bytes) : Option String := (RateLimit.toStr value).map String.ofList

/-- `str::strip_prefix`. -/
def stripPrefix (start text : String) : Option String := (start.toList.isPrefixOf? text.toList).map String.ofList

def startsWith (start text : String) : Bool := start.toList.isPrefixOf text.toList

/-- `bearer_or_api_key`. -/
def Parts.bearerOrApiKey (parts : Parts) : Option String :=
  match parts.get "x-api-key" with
  | some value => toStr value
  | none => do
    let value ← parts.get "authorization"
    let auth ← toStr value
    let token ← stripPrefix "Bearer " auth
    if startsWith "llk_" token then some token else none

/-- The key of `require_integration` and `authorize_order_access`. -/
def Parts.rawKey (parts : Parts) : Option String := do
  let value ← (parts.get "x-api-key").or (parts.get "authorization")
  let raw ← toStr value
  let key := (stripPrefix "Bearer " raw).getD raw
  if startsWith "llk_" key then some key else none

/-- The bearer token of a person. -/
def Parts.bearerToken (parts : Parts) : Option String := do
  let value ← parts.get "authorization"
  let auth ← toStr value
  let token ← stripPrefix "Bearer " auth
  if startsWith "llk_" token then none else some token

/-- `bearer_subject`. -/
def bearerSubject (parts : Parts) : Handler (Option Subject) :=
  match d.identity, parts.bearerToken with
  | some provider, some token => provider.verify d token
  | _, _ => return none

/-! ### Callers -/

structure ApiKeyAuth where
  keyId : Uuid
  role : ApiRole
deriving DecidableEq

structure StaffMember where
  staffId : Uuid
  displayName : String
  role : StaffRole
deriving DecidableEq

def hashKey (key : String) : Bytes := d.sha256 (asBytes key)

/-- `state.db.as_ref()`. -/
def pool : Handler Unit :=
  if d.db then return () else throw (.serviceUnavailable "database not configured")

/-- `SELECT id, role FROM api_keys WHERE key_hash = $1 AND active`. -/
def authenticate (key : String) : Handler (Option ApiKeyAuth) :=
  Handler.query (fun s =>
    (s.registry.apiKeys.rows.find? (fun k => decide (k.keyHash = hashKey d key) && k.active)).map
      (fun k => ⟨k.id, k.role⟩))

def authenticated (key : String) : Handler ApiKeyAuth := do
  match ← authenticate d key with
  | some auth => return auth
  | none => throw (.unauthorized "unknown or inactive API key")

/-- `ApiKeyAuth::from_request_parts`. -/
def apiKeyAuth (parts : Parts) : Handler ApiKeyAuth := do
  pool d
  match parts.bearerOrApiKey with
  | none => throw (.unauthorized "API key required (X-Api-Key)")
  | some key => authenticated d key

/-- `staff::resolve`. -/
def resolve (parts : Parts) : Handler (Option StaffMember) := do
  match ← bearerSubject d parts with
  | none => return none
  | some subject =>
    pool d
    Handler.query (fun s =>
      (s.registry.staff.rows.find? (fun m =>
        decide (m.person = (subject.issuer, subject.subject)) && m.active)).map
        (fun m => ⟨m.id, m.displayName, m.role⟩))

/-- `AdminAuth::from_request_parts`: a machine credential first, otherwise a human. -/
def adminAuth (parts : Parts) : Handler Actor := do
  match parts.bearerOrApiKey with
  | some key =>
    pool d
    let auth ← authenticated d key
    if auth.role = .operatorAdmin then return ⟨some auth.keyId, none⟩
    else throw (.forbidden "operator_admin role required")
  | none =>
    match ← bearerSubject d parts with
    | none => throw (.unauthorized "admin API key or admin staff token required")
    | some _ =>
      match ← resolve d parts with
      | none => throw (.forbidden "not enrolled as staff")
      | some member =>
        if member.role = .admin then return ⟨none, some member.staffId⟩
        else throw (.forbidden "admin role required")

/-- A key of one of the roles. -/
def roleAuth (allowed : List ApiRole) (label : String) (parts : Parts) : Handler ApiKeyAuth := do
  let auth ← apiKeyAuth d parts
  if auth.role ∈ allowed then return auth else throw (.forbidden label)

/-- `IntegrationAuth::from_request_parts`. -/
def integrationAuth : Parts → Handler ApiKeyAuth :=
  roleAuth d [.integration, .operatorAdmin] "integration role required"

/-- `DeviceAuth::from_request_parts`. -/
def deviceAuth : Parts → Handler ApiKeyAuth := roleAuth d [.validator, .operatorAdmin] "validator role required"

/-- `require_integration`. -/
def requireIntegration (parts : Parts) : Handler ApiKeyAuth := do
  pool d
  match parts.rawKey with
  | none => throw (.unauthorized "API key required (X-Api-Key)")
  | some key =>
    let auth ← authenticated d key
    if auth.role ∈ [.integration, .operatorAdmin] then return auth
    else throw (.forbidden "integration role required")

/-- `require`: admin staff may do everything. -/
def requireStaff (allowed : List StaffRole) (label : String) (parts : Parts) : Handler StaffMember := do
  match ← bearerSubject d parts with
  | none => throw (.unauthorized "staff bearer token required")
  | some _ =>
    match ← resolve d parts with
    | none => throw (.forbidden "not enrolled as staff")
    | some member =>
      if member.role = .admin ∨ member.role ∈ allowed then return member else throw (.forbidden label)

def anyStaff : Parts → Handler StaffMember := requireStaff d [.ops, .support] "staff role required"

def opsStaff : Parts → Handler StaffMember := requireStaff d [.ops] "ops role required"

def supportStaff : Parts → Handler StaffMember := requireStaff d [.support] "support role required"

def adminStaff : Parts → Handler StaffMember := requireStaff d [] "admin role required"

def upsertCustomer (subject : Subject) : Handler Uuid := do
  let id ← Handler.newUuid
  Handler.execute (.upsertCustomer id subject.issuer subject.subject subject.email) Returned.id?

/-- `CustomerAuth::from_request_parts`. -/
def customerAuth (parts : Parts) : Handler Uuid := do
  pool d
  match ← bearerSubject d parts with
  | none => throw (.unauthorized "customer bearer token required")
  | some subject => upsertCustomer subject

/-! ### Handing credentials out and taking them back -/

structure CreateKeyRequest where
  label : String
  role : String
deriving DecidableEq

structure CreatedKey where
  id : Uuid
  label : String
  role : ApiRole
  key : String
deriving DecidableEq

structure EnrollStaffRequest where
  issuer : Option String
  subject : String
  displayName : String
  email : Option String
  role : String
deriving DecidableEq

structure StaffRecord where
  id : Uuid
  issuer : String
  subject : String
  displayName : String
  email : Option String
  role : StaffRole
  active : Bool
deriving DecidableEq

def audit (actor : Actor) (detail : Detail) : Handler Unit := do
  let _ ← Handler.execute (.audit ⟨actor, detail.action, detail⟩) Returned.rows?
  return ()

def generateKey : Handler String := do
  let first ← Handler.newUuid
  let second ← Handler.newUuid
  return "llk_" ++ d.simple first ++ d.simple second

/-- `POST /v1/api-keys`: the plaintext is returned once. -/
def createKey (parts : Parts) (req : CreateKeyRequest) : Handler CreatedKey := do
  let admin ← adminAuth d parts
  pool d
  match ApiRole.parse req.role with
  | none => throw (.badRequest (.text "role must be operator_admin, integration, or validator"))
  | some role =>
    if (trim req.label).isEmpty then throw (.badRequest (.text "label is required"))
    else
      let key ← generateKey d
      let id ← Handler.newUuid
      let _ ← Handler.execute (.insertKey id (hashKey d key) (trim req.label) role) Returned.rows?
      audit admin (.keyCreated id (trim req.label) role)
      return ⟨id, trim req.label, role, key⟩

/-- `DELETE /v1/api-keys/{id}`. -/
def revokeKey (parts : Parts) (id : Uuid) : Handler Uuid := do
  let admin ← adminAuth d parts
  pool d
  let updated ← Handler.execute (.deactivateKey id) Returned.rows?
  if updated = 0 then throw (.notFound s!"api key {id} not found")
  else
    audit admin (.keyRevoked id)
    return id

/-- `POST /v1/admin/staff`. -/
def enrollStaff (parts : Parts) (req : EnrollStaffRequest) : Handler StaffRecord := do
  let admin ← adminAuth d parts
  pool d
  match StaffRole.parse req.role, req.issuer.or d.idpIssuer with
  | none, _ => throw (.badRequest (.text "role must be admin, ops, or support"))
  | some _, none => throw (.badRequest (.text "issuer required (no IdP configured)"))
  | some role, some issuer =>
    if (trim req.subject).isEmpty ∨ (trim req.displayName).isEmpty then
      throw (.badRequest (.text "subject and display_name are required"))
    else
      let new ← Handler.newUuid
      let id ← Handler.execute
        (.upsertStaff new issuer (trim req.subject) req.email (trim req.displayName) role) Returned.id?
      audit admin (.staffEnrolled id (trim req.subject) role)
      return ⟨id, issuer, trim req.subject, trim req.displayName, req.email, role, true⟩

/-- `DELETE /v1/admin/staff/{id}`. -/
def revokeStaff (parts : Parts) (id : Uuid) : Handler Uuid := do
  let admin ← adminAuth d parts
  pool d
  let updated ← Handler.execute (.deactivateStaff id) Returned.rows?
  if updated = 0 then throw (.notFound s!"staff {id} not found")
  else
    audit admin (.staffRevoked id)
    return id

/-- The boot path of `LULAN_BOOTSTRAP_ADMIN_KEY`. -/
def bootstrapAdminKey (key : String) : Handler Unit := do
  let id ← Handler.newUuid
  let _ ← Handler.execute (.bootstrapKey id (hashKey d key)) Returned.rows?
  return ()

/-- The boot path of `LULAN_BOOTSTRAP_ADMIN_STAFF`. -/
def bootstrapAdminStaff (spec : String) : Handler Unit := do
  match Lib.Text.splitOnce '|' spec.toList with
  | none => throw (.internal (.text "LULAN_BOOTSTRAP_ADMIN_STAFF must be \"issuer|subject\""))
  | some (issuer, subject) =>
    let id ← Handler.newUuid
    let _ ← Handler.execute (.bootstrapStaff id (String.ofList issuer) (String.ofList subject)) Returned.rows?
    return ()

/-! ### Orders and their owners -/

def findCustomer (subject : Subject) : Handler (Option Uuid) :=
  Handler.query (fun s =>
    (s.registry.customers.lookup (subject.issuer, subject.subject)).map CustomerRow.id)

/-- `ORDER BY created_at DESC LIMIT 100`. -/
def newestFirst (rows : List OwnedOrderRow) : List OwnedOrderRow :=
  (rows.insertionSort (fun a b => b.createdAt ≤ a.createdAt)).take 100

/-- `GET /v1/customers/me/orders`. -/
def myOrders (parts : Parts) : Handler (List OwnedOrderRow) := do
  let customerId ← customerAuth d parts
  pool d
  Handler.query (fun s =>
    newestFirst (s.registry.orders.rows.filter (fun o => decide (o.customerId = some customerId))))

/-- `POST /v1/orders/{id}/claim`. -/
def claimOrder (parts : Parts) (orderId : Uuid) (retrievalToken : String) : Handler (Uuid × Uuid) := do
  let customerId ← customerAuth d parts
  pool d
  if Tokens.verifyRetrievalToken d.crates d.quoteSecret orderId retrievalToken then
    let updated ← Handler.execute (.claimOrder orderId customerId) Returned.rows?
    if updated = 0 then throw (.conflict (.text "order not found or already claimed"))
    else return (orderId, customerId)
  else throw (.forbidden "invalid retrieval token")

/-- Whether the bearer token is that of the order's owner. -/
def isOwner (parts : Parts) (orderId : Uuid) : Handler Bool := do
  match ← bearerSubject d parts with
  | none => return false
  | some subject =>
    match ← findCustomer subject with
    | none => return false
    | some customerId =>
      Handler.query (fun s =>
        (s.registry.orders.rows.find? (fun o =>
          decide (o.id = orderId) && decide (o.customerId = some customerId))).isSome)

/-- Whether the request carries an API key, of any role. -/
def hasApiKey (parts : Parts) : Handler Bool := do
  match parts.rawKey with
  | none => return false
  | some key =>
    let auth ← authenticate d key
    return auth.isSome

/-- `authorize_order_access`: the retrieval token, the owner's bearer token, or an API key. -/
def authorizeOrderAccess (parts : Parts) (orderId : Uuid) (token : Option String) : Handler Unit := do
  if token.any (Tokens.verifyRetrievalToken d.crates d.quoteSecret orderId) then return ()
  else
    if ← isOwner d parts orderId then return ()
    else
      if ← hasApiKey d parts then return ()
      else
        throw (.unauthorized
          "provide the order's retrieval token, the owning customer's bearer token, or an API key")

/-- `GET /v1/orders/{order_id}`, as far as its owner sees it listed. -/
def getOrder (parts : Parts) (orderId : Uuid) (token : Option String) : Handler OwnedOrderRow := do
  pool d
  authorizeOrderAccess d parts orderId token
  match ← Handler.query (fun s => s.registry.orders.find? orderId) with
  | some row => return row
  | none => throw (.notFound s!"order {orderId} not found")

/-- What `request_payment`, `cancel` and the ticket endpoints ask for first. -/
def accessOrder (parts : Parts) (orderId : Uuid) (token : Option String) : Handler Unit := do
  pool d
  authorizeOrderAccess d parts orderId token

/-- `POST /v1/orders`, as far as the owner of the order goes; `row` is what is booked. -/
def placeOrder (parts : Parts) (guestContact : Option String) (row : OwnedOrderRow) : Handler (Option Uuid) := do
  pool d
  let customerId ← (do
    match ← bearerSubject d parts with
    | some subject => return some (← upsertCustomer subject)
    | none => return none : Handler (Option Uuid))
  if customerId.isNone ∧ guestContact.all (fun contact => (trim contact).isEmpty) then
    throw (.badRequest (.text "guest orders need guest_contact (email or phone) for retrieval"))
  else
    let _ ← Handler.execute (.book { row with customerId }) Returned.rows?
    return customerId

/-- What becomes of an order elsewhere. -/
def setStatus (orderId : Uuid) (status : String) : Handler Unit := do
  let _ ← Handler.execute (.setStatus orderId status) Returned.rows?
  return ()

/-! ### The site -/

/-- What guards the endpoints that are modelled elsewhere. -/
inductive Extractor where
  | apiKey
  | admin
  | integration
  | requireIntegration
  | device
  | anyStaff
  | ops
  | support
  | adminStaff
  | customer
deriving DecidableEq

inductive Principal where
  | apiKey (auth : ApiKeyAuth)
  | actor (actor : Actor)
  | staff (member : StaffMember)
  | customer (id : Uuid)
deriving DecidableEq

def Extractor.extract (parts : Parts) : Extractor → Handler Principal
  | .apiKey => .apiKey <$> apiKeyAuth d parts
  | .admin => .actor <$> adminAuth d parts
  | .integration => .apiKey <$> integrationAuth d parts
  | .requireIntegration => .apiKey <$> Access.requireIntegration d parts
  | .device => .apiKey <$> deviceAuth d parts
  | .anyStaff => .staff <$> Access.anyStaff d parts
  | .ops => .staff <$> opsStaff d parts
  | .support => .staff <$> supportStaff d parts
  | .adminStaff => .staff <$> Access.adminStaff d parts
  | .customer => .customer <$> customerAuth d parts

/-- The administration of keys and staff, the guards, and what customers do with their orders. The
audited endpoints of ops and support staff appear by their guards alone. -/
inductive Request where
  | createKey (parts : Parts) (req : CreateKeyRequest)
  | revokeKey (parts : Parts) (id : Uuid)
  | enrollStaff (parts : Parts) (req : EnrollStaffRequest)
  | revokeStaff (parts : Parts) (id : Uuid)
  | guarded (extractor : Extractor) (parts : Parts)
  | myOrders (parts : Parts)
  | claimOrder (parts : Parts) (orderId : Uuid) (retrievalToken : String)
  | getOrder (parts : Parts) (orderId : Uuid) (token : Option String)
  | accessOrder (parts : Parts) (orderId : Uuid) (token : Option String)
  | placeOrder (parts : Parts) (guestContact : Option String) (row : OwnedOrderRow)
  | setStatus (orderId : Uuid) (status : String)
  | refreshJwks
  | bootstrapKey (key : String)
  | bootstrapStaff (spec : String)
deriving DecidableEq

inductive Response where
  | createdKey (key : CreatedKey)
  | enrolled (record : StaffRecord)
  | revoked (id : Uuid)
  | admitted (principal : Principal)
  | orders (rows : List OwnedOrderRow)
  | claimed (orderId customerId : Uuid)
  | order (row : OwnedOrderRow)
  | placed (customerId : Option Uuid)
  | done
deriving DecidableEq

abbrev Answer : Type := Except ApiError Response

def Handler.answer {α : Type} (x : Handler α) (f : α → Response) : Program Answer :=
  Lib.Prog.bind x (fun r => Lib.Prog.ret (r.map f))

def Request.handler : Request → Program Answer
  | .createKey parts req => (Access.createKey d parts req).answer .createdKey
  | .revokeKey parts id => (Access.revokeKey d parts id).answer .revoked
  | .enrollStaff parts req => (Access.enrollStaff d parts req).answer .enrolled
  | .revokeStaff parts id => (Access.revokeStaff d parts id).answer .revoked
  | .guarded extractor parts => (extractor.extract d parts).answer .admitted
  | .myOrders parts => (Access.myOrders d parts).answer .orders
  | .claimOrder parts orderId token => (Access.claimOrder d parts orderId token).answer (fun r => .claimed r.1 r.2)
  | .getOrder parts orderId token => (Access.getOrder d parts orderId token).answer .order
  | .accessOrder parts orderId token => (Access.accessOrder d parts orderId token).answer (fun _ => .done)
  | .placeOrder parts contact row => (Access.placeOrder d parts contact row).answer .placed
  | .setStatus orderId status => (Access.setStatus orderId status).answer (fun _ => .done)
  | .refreshJwks => Access.refreshJwks.answer (fun _ => .done)
  | .bootstrapKey key => (bootstrapAdminKey d key).answer (fun _ => .done)
  | .bootstrapStaff spec => (bootstrapAdminStaff spec).answer (fun _ => .done)

/-- The requests about credentials and owners. Time passes by the second. -/
def site : Lib.Site Request Desk Stmt Outcome Call Reply Answer (Option DbError) Nat where
  handler := Request.handler d
  run := Stmt.run
  env seconds s := { s with now := s.now + seconds }
  fits := Call.fits

abbrev Event : Type := Lib.Ev Request Stmt Outcome Call Reply Answer

instance : DecidableEq Event := inferInstance

abbrev Conf : Type := Lib.Conf Request Desk Stmt Outcome Call Reply Answer

end Lulan.Access
