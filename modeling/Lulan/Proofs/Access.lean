import Lulan.Proofs.Registry

/-!
# Every write and every answer has a credential behind it

Where an endpoint asks for a credential, whatever a request writes or is told, one it carries has been
good for it at some point since it arrived, whatever else the server does in the meantime. Guests book
with a contact alone; the boot statements, the refresh of the key set, and the webhook and the sweeper
that move orders on, ask for none.
-/

namespace Lulan.Access.Proofs

open Lulan Lib
open Lulan.Http (Bytes)

section Credentials

variable (d : Deployment)

/-- An active key of that hash. -/
def KeyHolds (hash : Bytes) (auth : ApiKeyAuth) (r : Registry) : Prop :=
  ∃ k ∈ r.apiKeys.rows, k.keyHash = hash ∧ k.id = auth.keyId ∧ k.role = auth.role ∧ k.active = true

/-- An active member of staff. -/
def StaffHolds (subject : Subject) (member : StaffMember) (r : Registry) : Prop :=
  ∃ m ∈ r.staff.rows, m.person = (subject.issuer, subject.subject) ∧ m.id = member.staffId ∧
    m.displayName = member.displayName ∧ m.role = member.role ∧ m.active = true

/-- What the identity provider makes of a token, by the keys it holds. -/
def accepts (provider : Provider) (keys : JwkSet) (now : Timestamp) (token : String) : Option Subject :=
  match provider with
  | .hs issuer secret => (d.jwt.decode now token (.secret secret) ⟨.hs256, issuer, none⟩).map JwtClaims.subject
  | .jwks issuer audience => do
    let header ← d.jwt.decodeHeader token
    let kid ← header.kid
    let (key, algorithm) ← selectKey d keys header kid
    (d.jwt.decode now token key ⟨algorithm, issuer, audience⟩).map JwtClaims.subject

variable (v : Registry) (h : List Event) (pid : Nat)

/-- Since the request arrived, the registry has been such at some point. -/
abbrev During (P : Registry → Prop) : Prop := Site.During registryStep v h pid P

/-- The request carries a key that was good when it was looked up. -/
def KeyBacked (key : Option String) (auth : ApiKeyAuth) : Prop :=
  ∃ text, key = some text ∧ During v h pid (KeyHolds (hashKey d text) auth)

/-- The request carries a token that the identity provider accepted, by the keys of that time. -/
def Verified (parts : Parts) (subject : Subject) : Prop :=
  ∃ provider token, d.identity = some provider ∧ parts.bearerToken = some token ∧
    During v h pid (fun r => ∃ now, accepts d provider r.jwks now token = some subject)

/-- The request is that of a member of staff. -/
def StaffBacked (parts : Parts) (member : StaffMember) : Prop :=
  ∃ subject, Verified d v h pid parts subject ∧ During v h pid (StaffHolds subject member)

/-- The request is that of an administrator: by an `operator_admin` key, or as `admin` staff. -/
def AdminBacked (parts : Parts) (actor : Actor) : Prop :=
  (∃ auth, KeyBacked d v h pid parts.bearerOrApiKey auth ∧ auth.role = .operatorAdmin ∧
      actor = ⟨some auth.keyId, none⟩) ∨
    (parts.bearerOrApiKey = none ∧ ∃ member, StaffBacked d v h pid parts member ∧ member.role = .admin ∧
      actor = ⟨none, some member.staffId⟩)

end Credentials

section Monotone

variable {d : Deployment} {v : Registry} {h h' : List Event} {pid : Nat} {parts : Parts}

lemma KeyBacked.mono {key : Option String} {auth : ApiKeyAuth} (hk : KeyBacked d v h pid key auth)
    (hp : h <+: h') :
    KeyBacked d v h' pid key auth := by
  obtain ⟨text, ht, hd⟩ := hk
  exact ⟨text, ht, hd.mono hp⟩

lemma Verified.mono {subject : Subject} (hv : Verified d v h pid parts subject) (hp : h <+: h') :
    Verified d v h' pid parts subject := by
  obtain ⟨provider, token, hi, ht, hd⟩ := hv
  exact ⟨provider, token, hi, ht, hd.mono hp⟩

lemma StaffBacked.mono {member : StaffMember} (hs : StaffBacked d v h pid parts member) (hp : h <+: h') :
    StaffBacked d v h' pid parts member := by
  obtain ⟨subject, hv, hd⟩ := hs
  exact ⟨subject, hv.mono hp, hd.mono hp⟩

lemma AdminBacked.mono {actor : Actor} (ha : AdminBacked d v h pid parts actor) (hp : h <+: h') :
    AdminBacked d v h' pid parts actor := by
  rcases ha with ⟨auth, hk, hrole, he⟩ | ⟨hn, member, hs, hrole, he⟩
  · exact .inl ⟨auth, hk.mono hp, hrole, he⟩
  · exact .inr ⟨hn, member, hs.mono hp, hrole, he⟩

end Monotone

section Authority

variable (d : Deployment) (v : Registry) (h : List Event) (pid : Nat)

/-- The API keys an extractor takes, by their roles. -/
def keyRoles : Extractor → Option (List ApiRole)
  | .apiKey => some [.operatorAdmin, .integration, .validator]
  | .integration | .requireIntegration => some [.integration, .operatorAdmin]
  | .device => some [.validator, .operatorAdmin]
  | _ => none

/-- Where an extractor takes the API key from. -/
def keyOf (parts : Parts) : Extractor → Option String
  | .requireIntegration => parts.rawKey
  | _ => parts.bearerOrApiKey

/-- The staff an extractor takes beside administrators, by their roles. -/
def staffRoles : Extractor → Option (List StaffRole)
  | .anyStaff => some [.ops, .support]
  | .ops => some [.ops]
  | .support => some [.support]
  | .adminStaff => some []
  | _ => none

/-- The headers of the requests that a customer may sign. -/
def signed : Request → Option Parts
  | .guarded .customer parts | .myOrders parts | .claimOrder parts _ _ | .placeOrder parts _ _ => some parts
  | _ => none

/-- The statement by which a verified person becomes a customer. -/
def SignedIn (parts : Parts) (t : Stmt) : Prop :=
  ∃ subject new, Verified d v h pid parts subject ∧
    t = .upsertCustomer new subject.issuer subject.subject subject.email

/-- What a request of an administrator changes, how the audit log tells it, and what the administrator
is told. -/
inductive Performed : Request → Parts → Stmt → Returned → Detail → Response → Prop
  | keyCreated {parts : Parts} {req : CreateKeyRequest} {id : Uuid} {key : String} {role : ApiRole} {n : Nat}
      (hr : ApiRole.parse req.role = some role) :
      Performed (.createKey parts req) parts (.insertKey id (hashKey d key) (trim req.label) role) (.rows n)
        (.keyCreated id (trim req.label) role) (.createdKey ⟨id, trim req.label, role, key⟩)
  | keyRevoked {parts : Parts} {id : Uuid} {n : Nat} (hn : n ≠ 0) :
      Performed (.revokeKey parts id) parts (.deactivateKey id) (.rows n) (.keyRevoked id) (.revoked id)
  | staffEnrolled {parts : Parts} {req : EnrollStaffRequest} {new id : Uuid} {issuer : String} {role : StaffRole}
      (hr : StaffRole.parse req.role = some role) (hi : req.issuer.or d.idpIssuer = some issuer) :
      Performed (.enrollStaff parts req) parts
        (.upsertStaff new issuer (trim req.subject) req.email (trim req.displayName) role) (.returning id)
        (.staffEnrolled id (trim req.subject) role)
        (.enrolled ⟨id, issuer, trim req.subject, trim req.displayName, req.email, role, true⟩)
  | staffRevoked {parts : Parts} {id : Uuid} {n : Nat} (hn : n ≠ 0) :
      Performed (.revokeStaff parts id) parts (.deactivateStaff id) (.rows n) (.staffRevoked id) (.revoked id)

/-- What a request may commit next, after what it has committed, and on what evidence. -/
inductive Warrant : Request → List (Stmt × Outcome) → Stmt → Prop
  | change {i : Request} {parts : Parts} {actor : Actor} {t : Stmt} {returned : Returned} {detail : Detail}
      {a : Response} (ha : AdminBacked d v h pid parts actor) (hp : Performed d i parts t returned detail a) :
      Warrant i [] t
  | audit {i : Request} {parts : Parts} {actor : Actor} {t : Stmt} {returned : Returned} {detail : Detail}
      {a : Response} (ha : AdminBacked d v h pid parts actor) (hp : Performed d i parts t returned detail a) :
      Warrant i [(t, .ok returned)] (.audit ⟨actor, detail.action, detail⟩)
  | signIn {i : Request} {parts : Parts} {t : Stmt} (hi : signed i = some parts)
      (hs : SignedIn d v h pid parts t) : Warrant i [] t
  | claim {parts : Parts} {orderId customerId : Uuid} {token : String} {t : Stmt}
      (hs : SignedIn d v h pid parts t)
      (ht : Tokens.verifyRetrievalToken d.crates d.quoteSecret orderId token = true) :
      Warrant (.claimOrder parts orderId token) [(t, .ok (.returning customerId))] (.claimOrder orderId customerId)
  | bookOwned {parts : Parts} {contact : Option String} {row : OwnedOrderRow} {customerId : Uuid} {t : Stmt}
      (hs : SignedIn d v h pid parts t) :
      Warrant (.placeOrder parts contact row) [(t, .ok (.returning customerId))]
        (.book { row with customerId := some customerId })
  | bookGuest {parts : Parts} {contact : String} {row : OwnedOrderRow} (hc : ¬(trim contact).isEmpty) :
      Warrant (.placeOrder parts (some contact) row) [] (.book { row with customerId := none })
  | setStatus {orderId : Uuid} {status : String} :
      Warrant (.setStatus orderId status) [] (.setStatus orderId status)
  | storeKeys {keys : JwkSet} (hk : keys ≠ [])
      (hf : .call pid .refreshJwks .fetchJwks (.fetched (.ok keys)) ∈ h) :
      Warrant .refreshJwks [] (.storeKeys keys)
  | bootstrapKey {id : Uuid} {key : String} : Warrant (.bootstrapKey key) [] (.bootstrapKey id (hashKey d key))
  | bootstrapStaff {id : Uuid} {spec : String} {issuer subject : List Char}
      (hs : Lib.Text.splitOnce '|' spec.toList = some (issuer, subject)) :
      Warrant (.bootstrapStaff spec) [] (.bootstrapStaff id (String.ofList issuer) (String.ofList subject))

/-- Whom an extractor lets in, and on what evidence. -/
inductive Admits (parts : Parts) : Extractor → List (Stmt × Outcome) → Principal → Prop
  | key {e : Extractor} {roles : List ApiRole} {auth : ApiKeyAuth} (he : keyRoles e = some roles)
      (hk : KeyBacked d v h pid (keyOf parts e) auth) (hr : auth.role ∈ roles) : Admits parts e [] (.apiKey auth)
  | staff {e : Extractor} {roles : List StaffRole} {member : StaffMember} (he : staffRoles e = some roles)
      (hs : StaffBacked d v h pid parts member) (hr : member.role = .admin ∨ member.role ∈ roles) :
      Admits parts e [] (.staff member)
  | admin {actor : Actor} (ha : AdminBacked d v h pid parts actor) : Admits parts .admin [] (.actor actor)
  | customer {t : Stmt} {id : Uuid} (hs : SignedIn d v h pid parts t) :
      Admits parts .customer [(t, .ok (.returning id))] (.customer id)

/-- The order belongs to the customer whose token the request carries. -/
def OwnerBacked (parts : Parts) (orderId : Uuid) : Prop :=
  ∃ subject customerId, Verified d v h pid parts subject ∧
    During v h pid (fun r => ∃ c ∈ r.customers.rows, holder c = (subject.issuer, subject.subject) ∧
      c.id = customerId) ∧
    During v h pid (fun r => ∃ o ∈ r.orders.rows, o.id = orderId ∧ o.customerId = some customerId)

/-- Who may see an order, pay it or cancel it. -/
inductive MayAccess (parts : Parts) (orderId : Uuid) : Option String → Prop
  | token {token : String} (ht : Tokens.verifyRetrievalToken d.crates d.quoteSecret orderId token = true) :
      MayAccess parts orderId (some token)
  | owner {token : Option String} (ho : OwnerBacked d v h pid parts orderId) : MayAccess parts orderId token
  | key {token : Option String} {auth : ApiKeyAuth} (hk : KeyBacked d v h pid parts.rawKey auth) :
      MayAccess parts orderId token

/-- What a request may be told, after what it has committed, and on what evidence. -/
inductive Entitled : Request → List (Stmt × Outcome) → Response → Prop
  | performed {i : Request} {parts : Parts} {actor : Actor} {t : Stmt} {returned returned' : Returned}
      {detail : Detail} {a : Response} (ha : AdminBacked d v h pid parts actor)
      (hp : Performed d i parts t returned detail a) :
      Entitled i [(t, .ok returned), (.audit ⟨actor, detail.action, detail⟩, .ok returned')] a
  | admitted {e : Extractor} {parts : Parts} {m : List (Stmt × Outcome)} {principal : Principal}
      (ha : Admits d v h pid parts e m principal) : Entitled (.guarded e parts) m (.admitted principal)
  | listed {parts : Parts} {t : Stmt} {id : Uuid} {rows : List OwnedOrderRow} (hs : SignedIn d v h pid parts t)
      (ho : During v h pid (fun r => rows = newestFirst
        (r.orders.rows.filter (fun o => decide (o.customerId = some id))))) :
      Entitled (.myOrders parts) [(t, .ok (.returning id))] (.orders rows)
  | claimed {parts : Parts} {orderId customerId : Uuid} {token : String} {t : Stmt} {n : Nat}
      (hs : SignedIn d v h pid parts t) (hn : n ≠ 0)
      (ht : Tokens.verifyRetrievalToken d.crates d.quoteSecret orderId token = true) :
      Entitled (.claimOrder parts orderId token)
        [(t, .ok (.returning customerId)), (.claimOrder orderId customerId, .ok (.rows n))]
          (.claimed orderId customerId)
  | order {parts : Parts} {token : Option String} {row : OwnedOrderRow}
      (ha : MayAccess d v h pid parts row.id token)
      (ho : During v h pid (fun r => row ∈ r.orders.rows)) :
      Entitled (.getOrder parts row.id token) [] (.order row)
  | accessed {parts : Parts} {orderId : Uuid} {token : Option String}
      (ha : MayAccess d v h pid parts orderId token) :
      Entitled (.accessOrder parts orderId token) [] .done
  | placed {parts : Parts} {contact : Option String} {row : OwnedOrderRow} {m : List (Stmt × Outcome)}
      {customerId : Option Uuid} {returned : Returned}
      (hw : Warrant d v h pid (.placeOrder parts contact row) m (.book { row with customerId })) :
      Entitled (.placeOrder parts contact row) (m ++ [(.book { row with customerId }, .ok returned)])
        (.placed customerId)
  | setStatus {orderId : Uuid} {status : String} {m : List (Stmt × Outcome)} :
      Entitled (.setStatus orderId status) m .done
  | refreshed {m : List (Stmt × Outcome)} : Entitled .refreshJwks m .done
  | bootstrapKey {key : String} {m : List (Stmt × Outcome)} : Entitled (.bootstrapKey key) m .done
  | bootstrapStaff {spec : String} {m : List (Stmt × Outcome)} : Entitled (.bootstrapStaff spec) m .done

variable {d v h pid} {h' : List Event} {parts : Parts} {orderId : Uuid}

lemma SignedIn.mono {t : Stmt} (hs : SignedIn d v h pid parts t) (hp : h <+: h') :
    SignedIn d v h' pid parts t := by
  obtain ⟨subject, new, hv, ht⟩ := hs
  exact ⟨subject, new, hv.mono hp, ht⟩

lemma Admits.mono {e : Extractor} {m : List (Stmt × Outcome)} {principal : Principal}
    (ha : Admits d v h pid parts e m principal) (hp : h <+: h') : Admits d v h' pid parts e m principal := by
  cases ha with
  | key he hk hr => exact .key he (hk.mono hp) hr
  | staff he hs hr => exact .staff he (hs.mono hp) hr
  | admin ha => exact .admin (ha.mono hp)
  | customer hs => exact .customer (hs.mono hp)

lemma OwnerBacked.mono (ho : OwnerBacked d v h pid parts orderId) (hp : h <+: h') :
    OwnerBacked d v h' pid parts orderId := by
  obtain ⟨subject, customerId, hv, hc, ho⟩ := ho
  exact ⟨subject, customerId, hv.mono hp, hc.mono hp, ho.mono hp⟩

lemma MayAccess.mono {token : Option String} (ha : MayAccess d v h pid parts orderId token) (hp : h <+: h') :
    MayAccess d v h' pid parts orderId token := by
  cases ha with
  | token ht => exact .token ht
  | owner ho => exact .owner (ho.mono hp)
  | key hk => exact .key (hk.mono hp)

lemma Warrant.mono {i : Request} {m : List (Stmt × Outcome)} {t : Stmt} (hw : Warrant d v h pid i m t)
    (hp : h <+: h') : Warrant d v h' pid i m t := by
  cases hw with
  | change ha hd => exact .change (ha.mono hp) hd
  | audit ha hd => exact .audit (ha.mono hp) hd
  | signIn hi hs => exact .signIn hi (hs.mono hp)
  | claim hs ht => exact .claim (hs.mono hp) ht
  | bookOwned hs => exact .bookOwned (hs.mono hp)
  | bookGuest hc => exact .bookGuest hc
  | setStatus => exact .setStatus
  | storeKeys hk hf => exact .storeKeys hk (hp.subset hf)
  | bootstrapKey => exact .bootstrapKey
  | bootstrapStaff hs => exact .bootstrapStaff hs

lemma Entitled.mono {i : Request} {m : List (Stmt × Outcome)} {a : Response} (he : Entitled d v h pid i m a)
    (hp : h <+: h') : Entitled d v h' pid i m a := by
  cases he with
  | performed ha hd => exact .performed (ha.mono hp) hd
  | admitted ha => exact .admitted (ha.mono hp)
  | listed hs ho => exact .listed (hs.mono hp) (ho.mono hp)
  | claimed hs hn ht => exact .claimed (hs.mono hp) hn ht
  | order ha ho => exact .order (ha.mono hp) (ho.mono hp)
  | accessed ha => exact .accessed (ha.mono hp)
  | placed hw => exact .placed (hw.mono hp)
  | setStatus => exact .setStatus
  | refreshed => exact .refreshed
  | bootstrapKey => exact .bootstrapKey
  | bootstrapStaff => exact .bootstrapStaff

/-- The events of a run: the statements are warranted and had their effect, and the answers are what
the request was entitled to. -/
def Justifies (d : Deployment) (v : Registry) (h : List Event) : Event → Prop
  | .commit pid i t o => Warrant d v h pid i (Site.made pid h) t ∧
      ∀ returned, o = .ok returned → ∃ r, t.effect (Site.replay registryStep v h) = .ok (returned, r)
  | .answer pid i (.ok a) => Entitled d v h pid i (Site.made pid h) a
  | _ => True

end Authority

section Rules

/-- A program of a request that has committed `m` keeps the histories justified; where it succeeds,
`R` tells what has been committed by then and what is known. -/
def Runs {α : Type} (d : Deployment) (v : Registry) (pid : Nat) (i : Request) (m : List (Stmt × Outcome))
    (R : List (Stmt × Outcome) → List Event → α → Prop) (x : Handler α) (h : List Event) : Prop :=
  pid < h.length → Site.made pid h = m →
    (site d).Keeps (fun _ _ _ => True) (Site.Recorded Desk.registry registryStep v (Justifies d v)) pid i
      (fun g r => ∀ a, r = .ok a → R (Site.made pid g) g a) x h

variable {α β : Type} {d : Deployment} {v : Registry} {pid : Nat} {i : Request} {m : List (Stmt × Outcome)}
  {R : List (Stmt × Outcome) → List Event → α → Prop} {Q : List (Stmt × Outcome) → List Event → β → Prop}
  {h : List Event}

lemma runs_pure {a : α} (hR : ∀ g, h <+: g → R m g a) : Runs d v pid i m R (pure a : Handler α) h := by
  intro _ hm g hg a' ha
  cases ha
  rw [hg.made, hm]
  exact hR g hg.extends

lemma runs_throw {e : ApiError} : Runs d v pid i m R (throw e : Handler α) h :=
  fun _ _ _ _ _ ha => by cases ha

/-- Sequencing: the second part starts from what the first has committed. -/
lemma runs_seq {x : Handler α} {f : α → Handler β} (hx : Runs d v pid i m R x h)
    (hf : ∀ a m' g, h <+: g → R m' g a → Runs d v pid i m' Q (f a) g) :
    Runs d v pid i m Q (x >>= f : Handler β) h := by
  intro hlen hm
  refine Site.keeps_seq ((hx hlen hm).extending (List.prefix_refl h)) (fun a g hr => ?_)
    (fun e g _ g' _ a ha => by cases ha)
  exact hf a (Site.made pid g) g hr.1 (hr.2 a rfl) (hlen.trans_le hr.1.length_le) rfl

lemma Runs.weaken {x : Handler α} {R' : List (Stmt × Outcome) → List Event → α → Prop}
    (hx : Runs d v pid i m R x h) (hR : ∀ m' g a, R m' g a → R' m' g a) : Runs d v pid i m R' x h :=
  fun hlen hm => (hx hlen hm).weaken (fun g _ hr a ha => hR _ g a (hr a ha))

/-- What is read has been so since the request arrived. -/
lemma runs_look {f : Desk → α} (hR : ∀ s g, h <+: g → (∀ P : Registry → Prop, P s.registry → During v g pid P) →
    R m g (f s)) : Runs d v pid i m R (Handler.look f) h := by
  intro hlen hm s g hg hI g' hg' a ha
  cases ha
  rw [hg'.made, hg.made, hm]
  refine hR s g' (hg.extends.trans hg'.extends)
    (fun P hP => ⟨g, hg'.extends, hlen.trans_le hg.extends.length_le, ?_⟩)
  rw [← hI.1]
  exact hP

lemma runs_query {f : Desk → α} (hR : ∀ s g, h <+: g → (∀ P : Registry → Prop, P s.registry → During v g pid P) →
    R m g (f s)) : Runs d v pid i m R (Handler.query f) h :=
  fun hlen hm s g hg hI =>
    ⟨runs_throw (hlen.trans_le hg.extends.length_le) (hg.made.trans hm), runs_look hR hlen hm s g hg hI⟩

lemma runs_call {c : Call} {k : Reply → Handler α} (hk : ∀ b g, c.fits b = true → h <+: g → .call pid i c b ∈ g →
    Runs d v pid i m R (k b) g) : Runs d v pid i m R (Prog.call c k) h := by
  intro hlen hm b s g hb hg hI _
  have hext := hg.extends.trans (List.prefix_append g [.call pid i c b])
  refine ⟨hI.quiet (fun _ _ _ _ he => by cases he) trivial, hk b _ hb hext (by simp) ?_ ?_⟩
  · exact hlen.trans_le hext.length_le
  · rw [Site.made_quiet (fun _ _ _ he => by cases he), hg.made, hm]

lemma runs_newUuid {R : List (Stmt × Outcome) → List Event → Uuid → Prop} (hR : ∀ id g, h <+: g → R m g id) :
    Runs d v pid i m R Handler.newUuid h := by
  refine runs_call (fun b g hb hg _ => ?_)
  cases b with
  | uuid id => exact runs_pure (fun g' hg' => hR id g' (hg.trans hg'))
  | fetched result => cases hb

lemma runs_fetchJwks {R : List (Stmt × Outcome) → List Event → Except String JwkSet → Prop}
    (hR : ∀ result g, h <+: g → .call pid i .fetchJwks (.fetched result) ∈ g → R m g result) :
    Runs d v pid i m R Handler.fetchJwks h := by
  refine runs_call (fun b g hb hg hm => ?_)
  cases b with
  | uuid id => cases hb
  | fetched result => exact runs_pure (fun g' hg' => hR result g' (hg.trans hg') (hg'.subset hm))

lemma runs_settle {f : Returned → Option α} {o : Outcome}
    (hR : ∀ returned a g, o = .ok returned → f returned = some a → h <+: g → R m g a) :
    Runs d v pid i m R (Handler.settle f o) h := by
  unfold Handler.settle
  cases o with
  | error e => exact runs_throw
  | ok returned =>
    simp only
    cases hf : f returned with
    | none => exact runs_throw
    | some a => exact runs_pure (fun g hg => hR returned a g rfl hf hg)

/-- A statement has to be warranted. -/
lemma runs_execute {t : Stmt} {f : Returned → Option α} (hw : ∀ g, h <+: g → Warrant d v g pid i m t)
    (hR : ∀ r returned registry a g, t.effect r = .ok (returned, registry) → f returned = some a → h <+: g →
      R (m ++ [(t, .ok returned)]) g a) : Runs d v pid i m R (Handler.execute t f) h := by
  intro hlen hm failure s g hg hI _
  have hmade : Site.made pid g = m := by rw [hg.made, hm]
  have hwarrant := hw g hg.extends
  rw [← hmade] at hwarrant
  have hext : h <+: g ++ [.commit pid i t (t.run failure s).1] := hg.extends.trans (List.prefix_append _ _)
  refine ⟨Site.Recorded.commit (registry_replays d) hI t failure ⟨hwarrant, fun returned ho => ?_⟩, ?_⟩
  · rw [← hI.1]
    exact effect_of_run ho
  refine runs_settle (o := (t.run failure s).1) (m := m ++ [(t, (t.run failure s).1)])
    (fun returned a g' ho hf hg' => ?_)
    (hlen.trans_le hext.length_le) ?_
  · obtain ⟨registry, heffect⟩ := effect_of_run ho
    rw [ho]
    exact hR _ returned registry a g' heffect hf (hext.trans hg')
  · exact Site.made_commit.trans (by rw [hmade]; rfl)

end Rules

section Callers

variable {d : Deployment} {v : Registry} {pid : Nat} {i : Request} {m : List (Stmt × Outcome)} {h : List Event}
  {parts : Parts}

lemma pool_runs : Runs d v pid i m (fun m' _ _ => m' = m) (pool d) h := by
  unfold pool
  split
  · exact runs_pure (fun _ _ => rfl)
  · exact runs_throw

lemma authenticate_runs {key : String} :
    Runs d v pid i m (fun m' g found => m' = m ∧ ∀ auth, found = some auth →
      During v g pid (KeyHolds (hashKey d key) auth)) (authenticate d key) h := by
  refine runs_query (fun s g _ hd => ⟨rfl, fun auth hauth => hd _ ?_⟩)
  obtain ⟨k, hk, rfl⟩ := Option.map_eq_some_iff.mp hauth
  have hp := List.find?_some hk
  simp only [Bool.and_eq_true, decide_eq_true_eq] at hp
  exact ⟨k, List.mem_of_find?_eq_some hk, hp.1, rfl, rfl, hp.2⟩

lemma authenticated_runs {key : String} :
    Runs d v pid i m (fun m' g auth => m' = m ∧ During v g pid (KeyHolds (hashKey d key) auth))
      (authenticated d key) h := by
  unfold authenticated
  refine runs_seq authenticate_runs (fun found m' g _ hfound => ?_)
  obtain ⟨rfl, hfound⟩ := hfound
  cases found with
  | none => exact runs_throw
  | some auth => exact runs_pure (fun g' hg' => ⟨rfl, (hfound auth rfl).mono hg'⟩)

lemma apiKeyAuth_runs :
    Runs d v pid i m (fun m' g auth => m' = m ∧ KeyBacked d v g pid parts.bearerOrApiKey auth)
      (apiKeyAuth d parts) h := by
  unfold apiKeyAuth
  refine runs_seq pool_runs (fun _ m' g _ hm => ?_)
  subst hm
  cases hkey : parts.bearerOrApiKey with
  | none => exact runs_throw
  | some key => exact authenticated_runs.weaken (fun m' g auth ha => ⟨ha.1, key, rfl, ha.2⟩)

lemma roleAuth_runs {allowed : List ApiRole} {label : String} :
    Runs d v pid i m (fun m' g auth => m' = m ∧ KeyBacked d v g pid parts.bearerOrApiKey auth ∧
      auth.role ∈ allowed) (roleAuth d allowed label parts) h := by
  unfold roleAuth
  refine runs_seq apiKeyAuth_runs (fun auth m' g _ hauth => ?_)
  obtain ⟨rfl, hauth⟩ := hauth
  split
  · rename_i hrole
    exact runs_pure (fun g' hg' => ⟨rfl, hauth.mono hg', hrole⟩)
  · exact runs_throw

lemma requireIntegration_runs :
    Runs d v pid i m (fun m' g auth => m' = m ∧ KeyBacked d v g pid parts.rawKey auth ∧
      auth.role ∈ [ApiRole.integration, .operatorAdmin]) (requireIntegration d parts) h := by
  unfold requireIntegration
  refine runs_seq pool_runs (fun _ m' g _ hm => ?_)
  subst hm
  cases hkey : parts.rawKey with
  | none => exact runs_throw
  | some key =>
    refine runs_seq authenticated_runs (fun auth m'' g' _ hauth => ?_)
    obtain ⟨rfl, hauth⟩ := hauth
    split
    · rename_i hrole
      exact runs_pure (fun g'' hg'' => ⟨rfl, ⟨key, rfl, hauth.mono hg''⟩, hrole⟩)
    · exact runs_throw

lemma verify_runs {provider : Provider} {token : String} (hi : d.identity = some provider)
    (ht : parts.bearerToken = some token) :
    Runs d v pid i m (fun m' g found => m' = m ∧ ∀ subject, found = some subject →
      Verified d v g pid parts subject) (provider.verify d token) h := by
  cases provider with
  | hs issuer secret =>
    refine runs_seq (R := fun m' g now => m' = m ∧ During v g pid (fun _ => True))
      (runs_look (fun s g _ hd => ⟨rfl, hd _ trivial⟩)) (fun now m' g _ hnow => ?_)
    obtain ⟨rfl, hnow⟩ := hnow
    refine runs_pure (fun g' hg' => ⟨rfl, fun subject hs => ⟨_, token, hi, ht, ?_⟩⟩)
    exact (hnow.mono hg').imp (fun r _ => ⟨now, hs⟩)
  | jwks issuer audience =>
    unfold Provider.verify
    simp only
    cases hheader : (d.jwt.decodeHeader token).bind (fun header => header.kid.map (fun kid => (header, kid))) with
    | none => exact runs_pure (fun g _ => ⟨rfl, fun _ he => by cases he⟩)
    | some found =>
      obtain ⟨header, hdecode, hpair⟩ := Option.bind_eq_some_iff.mp hheader
      obtain ⟨kid, hkid, rfl⟩ := Option.map_eq_some_iff.mp hpair
      refine runs_seq (R := fun m' g keys => m' = m ∧ During v g pid (fun r => r.jwks = keys))
        (runs_look (fun s g _ hd => ⟨rfl, hd _ rfl⟩)) (fun keys m' g _ hkeys => ?_)
      obtain ⟨rfl, hkeys⟩ := hkeys
      cases hselect : selectKey d keys header kid with
      | none => exact runs_pure (fun g _ => ⟨rfl, fun _ he => by cases he⟩)
      | some selected =>
        refine runs_seq (R := fun m'' _ _ => m'' = m') (runs_look (fun _ _ _ _ => rfl))
          (fun now m'' g' hg' hnow => ?_)
        subst hnow
        refine runs_pure (fun g'' hg'' => ⟨rfl, fun subject hs => ⟨_, token, hi, ht, ?_⟩⟩)
        refine (hkeys.mono (hg'.trans hg'')).imp (fun r hr => ⟨now, ?_⟩)
        simp only [accepts, hdecode, hkid, hr, hselect, Option.bind_eq_bind, Option.bind_some]
        exact hs

lemma bearerSubject_runs :
    Runs d v pid i m (fun m' g found => m' = m ∧ ∀ subject, found = some subject →
      Verified d v g pid parts subject) (bearerSubject d parts) h := by
  unfold bearerSubject
  cases hi : d.identity with
  | none => exact runs_pure (fun g _ => ⟨rfl, fun _ he => by cases he⟩)
  | some provider =>
    cases ht : parts.bearerToken with
    | none => exact runs_pure (fun g _ => ⟨rfl, fun _ he => by cases he⟩)
    | some token => exact verify_runs hi ht

lemma resolve_runs :
    Runs d v pid i m (fun m' g found => m' = m ∧ ∀ member, found = some member →
      StaffBacked d v g pid parts member) (resolve d parts) h := by
  unfold resolve
  refine runs_seq bearerSubject_runs (fun found m' g _ hfound => ?_)
  obtain ⟨rfl, hfound⟩ := hfound
  cases found with
  | none => exact runs_pure (fun g _ => ⟨rfl, fun _ he => by cases he⟩)
  | some subject =>
    refine runs_seq pool_runs (fun _ m'' g' hg' hm => ?_)
    subst hm
    refine runs_query (fun s g'' hg'' hd => ⟨rfl, fun member hmember => ?_⟩)
    refine ⟨subject, (hfound subject rfl).mono (hg'.trans hg''), hd _ ?_⟩
    obtain ⟨row, hrow, rfl⟩ := Option.map_eq_some_iff.mp hmember
    have hp := List.find?_some hrow
    simp only [Bool.and_eq_true, decide_eq_true_eq] at hp
    exact ⟨row, List.mem_of_find?_eq_some hrow, hp.1, rfl, rfl, rfl, hp.2⟩

lemma adminAuth_runs :
    Runs d v pid i m (fun m' g actor => m' = m ∧ AdminBacked d v g pid parts actor) (adminAuth d parts) h := by
  unfold adminAuth
  cases hkey : parts.bearerOrApiKey with
  | some key =>
    refine runs_seq pool_runs (fun _ m' g _ hm => ?_)
    subst hm
    refine runs_seq authenticated_runs (fun auth m'' g' _ hauth => ?_)
    obtain ⟨rfl, hauth⟩ := hauth
    split
    · rename_i hrole
      exact runs_pure (fun g'' hg'' => ⟨rfl, .inl ⟨auth, ⟨key, hkey, hauth.mono hg''⟩, hrole, rfl⟩⟩)
    · exact runs_throw
  | none =>
    refine runs_seq bearerSubject_runs (fun found m' g _ hfound => ?_)
    obtain ⟨rfl, -⟩ := hfound
    cases found with
    | none => exact runs_throw
    | some subject =>
      refine runs_seq resolve_runs (fun member m'' g' _ hmember => ?_)
      obtain ⟨rfl, hmember⟩ := hmember
      cases member with
      | none => exact runs_throw
      | some member =>
        simp only
        split
        · rename_i hrole
          exact runs_pure (fun g'' hg'' =>
            ⟨rfl, .inr ⟨hkey, member, (hmember member rfl).mono hg'', hrole, rfl⟩⟩)
        · exact runs_throw

lemma requireStaff_runs {allowed : List StaffRole} {label : String} :
    Runs d v pid i m (fun m' g member => m' = m ∧ StaffBacked d v g pid parts member ∧
      (member.role = .admin ∨ member.role ∈ allowed)) (requireStaff d allowed label parts) h := by
  unfold requireStaff
  refine runs_seq bearerSubject_runs (fun found m' g _ hfound => ?_)
  obtain ⟨rfl, -⟩ := hfound
  cases found with
  | none => exact runs_throw
  | some subject =>
    refine runs_seq resolve_runs (fun member m'' g' _ hmember => ?_)
    obtain ⟨rfl, hmember⟩ := hmember
    cases member with
    | none => exact runs_throw
    | some member =>
      simp only
      split
      · rename_i hrole
        exact runs_pure (fun g'' hg'' => ⟨rfl, (hmember member rfl).mono hg'', hrole⟩)
      · exact runs_throw

lemma upsertCustomer_runs {subject : Subject} (hi : signed i = some parts)
    (hv : Verified d v h pid parts subject) :
    Runs d v pid i [] (fun m' g id => ∃ t, SignedIn d v g pid parts t ∧ m' = [(t, .ok (.returning id))])
      (upsertCustomer subject) h := by
  unfold upsertCustomer
  refine runs_seq (R := fun m' _ _ => m' = []) (runs_newUuid (fun _ _ _ => rfl)) (fun new m' g hg hm => ?_)
  subst hm
  refine runs_execute (fun g' hg' => .signIn hi ⟨subject, new, hv.mono (hg.trans hg'), rfl⟩)
    (fun r returned registry id g' _ hid hg' => ?_)
  refine ⟨_, ⟨subject, new, hv.mono (hg.trans hg'), rfl⟩, ?_⟩
  cases returned with
  | rows n => cases hid
  | returning id' =>
    cases hid
    rfl

lemma customerAuth_runs (hi : signed i = some parts) :
    Runs d v pid i [] (fun m' g id => ∃ t, SignedIn d v g pid parts t ∧ m' = [(t, .ok (.returning id))])
      (customerAuth d parts) h := by
  unfold customerAuth
  refine runs_seq pool_runs (fun _ m' g _ hm => ?_)
  subst hm
  refine runs_seq bearerSubject_runs (fun found m' g' _ hfound => ?_)
  obtain ⟨rfl, hfound⟩ := hfound
  cases found with
  | none => exact runs_throw
  | some subject => exact upsertCustomer_runs hi (hfound subject rfl)

end Callers

section Endpoints

variable {d : Deployment} {v : Registry} {pid : Nat} {i : Request} {h : List Event} {parts : Parts}

/-- What an endpoint returns, it is entitled to return. -/
def Answers {α : Type} (d : Deployment) (v : Registry) (pid : Nat) (i : Request) (f : α → Response)
    (x : Handler α) (h : List Event) : Prop :=
  Runs d v pid i [] (fun m g a => Entitled d v g pid i m (f a)) x h

/-- An administrator's change, with what it returned, and then its entry in the audit log. -/
lemma performed_runs {α β : Type} {actor : Actor} {t : Stmt} {f : Returned → Option α} {x : α → Handler β}
    {w : β → Response} (ha : AdminBacked d v h pid parts actor)
    (hp : ∃ returned detail a, Performed d i parts t returned detail a)
    (hx : ∀ r returned registry a g, t.effect r = .ok (returned, registry) → f returned = some a → h <+: g →
      Runs d v pid i [(t, .ok returned)] (fun m g b => Entitled d v g pid i m (w b)) (x a) g) :
    Answers d v pid i w (Handler.execute t f >>= x : Handler β) h := by
  obtain ⟨returned, detail, a, hp⟩ := hp
  refine runs_seq (R := fun m' _ a => ∃ r returned registry, t.effect r = .ok (returned, registry) ∧
    f returned = some a ∧ m' = [(t, .ok returned)]) ?_ (fun a m' g hg hm => ?_)
  · refine runs_execute (fun g hg => .change (ha.mono hg) hp) (fun r returned registry a g heffect hf _ => ?_)
    exact ⟨r, returned, registry, heffect, hf, rfl⟩
  · obtain ⟨r, returned, registry, heffect, hf, rfl⟩ := hm
    exact hx r returned registry a g heffect hf hg

lemma audited_runs {β : Type} {actor : Actor} {t : Stmt} {returned : Returned} {detail : Detail} {b : β}
    {w : β → Response} (ha : AdminBacked d v h pid parts actor)
    (hp : Performed d i parts t returned detail (w b)) :
    Runs d v pid i [(t, .ok returned)] (fun m g b => Entitled d v g pid i m (w b))
      (do audit actor detail; return b : Handler β) h := by
  unfold audit
  refine runs_seq (R := fun m' _ _ => ∃ returned',
    m' = [(t, .ok returned), (.audit ⟨actor, detail.action, detail⟩, .ok returned')]) ?_ (fun _ m' g hg hm => ?_)
  · refine runs_seq (runs_execute (fun g hg => .audit (ha.mono hg) hp)
      (fun r returned' _ _ g _ _ _ => ⟨returned', rfl⟩))
      (fun _ m' g _ hm => runs_pure (fun _ _ => hm))
  · obtain ⟨returned', rfl⟩ := hm
    exact runs_pure (fun g' hg' => .performed (ha.mono (hg.trans hg')) hp)

lemma createKey_answers {req : CreateKeyRequest} :
    Answers d v pid (.createKey parts req) .createdKey (createKey d parts req) h := by
  unfold createKey
  refine runs_seq adminAuth_runs (fun actor m g _ hactor => ?_)
  obtain ⟨rfl, hactor⟩ := hactor
  refine runs_seq pool_runs (fun _ m g' hg' hm => ?_)
  subst hm
  cases hrole : ApiRole.parse req.role with
  | none => exact runs_throw
  | some role =>
    simp only
    split
    · exact runs_throw
    · have hnew : ∀ {g : List Event}, Runs d v pid (.createKey parts req) []
        (fun m _ _ => m = []) Handler.newUuid g :=
        runs_newUuid (fun _ _ _ => rfl)
      unfold generateKey
      refine runs_seq (R := fun m _ _ => m = []) (runs_seq hnew (fun first m g _ hm => ?_))
        (fun key m g₁ hg₁ hm => ?_)
      · subst hm
        refine runs_seq hnew (fun second m g _ hm => ?_)
        exact runs_pure (fun _ _ => hm)
      · subst hm
        refine runs_seq hnew (fun id m g₂ hg₂ hm => ?_)
        subst hm
        have hbacked := hactor.mono (hg'.trans (hg₁.trans hg₂))
        refine performed_runs hbacked ⟨.rows 1, _, _, .keyCreated hrole⟩
          (fun r returned registry n g₃ _ hn hg₃ => ?_)
        cases returned with
        | rows n => exact audited_runs (hbacked.mono hg₃) (.keyCreated hrole)
        | returning id => cases hn

lemma revokeKey_answers {id : Uuid} : Answers d v pid (.revokeKey parts id) .revoked (revokeKey d parts id) h := by
  unfold revokeKey
  refine runs_seq adminAuth_runs (fun actor m g _ hactor => ?_)
  obtain ⟨rfl, hactor⟩ := hactor
  refine runs_seq pool_runs (fun _ m g' hg' hm => ?_)
  subst hm
  refine performed_runs (hactor.mono hg') ⟨.rows 1, _, _, .keyRevoked (by omega)⟩
    (fun r returned registry n g₁ _ hn hg₁ => ?_)
  cases returned with
  | rows n' =>
    cases hn
    split
    · exact runs_throw
    · rename_i hne
      exact audited_runs ((hactor.mono hg').mono hg₁) (.keyRevoked hne)
  | returning id => cases hn

lemma enrollStaff_answers {req : EnrollStaffRequest} :
    Answers d v pid (.enrollStaff parts req) .enrolled (enrollStaff d parts req) h := by
  unfold enrollStaff
  refine runs_seq adminAuth_runs (fun actor m g _ hactor => ?_)
  obtain ⟨rfl, hactor⟩ := hactor
  refine runs_seq pool_runs (fun _ m g' hg' hm => ?_)
  subst hm
  cases hrole : StaffRole.parse req.role with
  | none => exact runs_throw
  | some role =>
    cases hissuer : req.issuer.or d.idpIssuer with
    | none => exact runs_throw
    | some issuer =>
      simp only
      split
      · exact runs_throw
      · refine runs_seq (R := fun m _ _ => m = []) (runs_newUuid (fun _ _ _ => rfl)) (fun new m g₁ hg₁ hm => ?_)
        subst hm
        have hbacked := hactor.mono (hg'.trans hg₁)
        refine performed_runs hbacked ⟨.returning new, _, _, .staffEnrolled hrole hissuer⟩
          (fun r returned registry id g₂ _ hid hg₂ => ?_)
        cases returned with
        | rows n => cases hid
        | returning id' =>
          cases hid
          exact audited_runs (hbacked.mono hg₂) (.staffEnrolled hrole hissuer)

lemma revokeStaff_answers {id : Uuid} : Answers d v pid (.revokeStaff parts id) .revoked
    (revokeStaff d parts id) h := by
  unfold revokeStaff
  refine runs_seq adminAuth_runs (fun actor m g _ hactor => ?_)
  obtain ⟨rfl, hactor⟩ := hactor
  refine runs_seq pool_runs (fun _ m g' hg' hm => ?_)
  subst hm
  refine performed_runs (hactor.mono hg') ⟨.rows 1, _, _, .staffRevoked (by omega)⟩
    (fun r returned registry n g₁ _ hn hg₁ => ?_)
  cases returned with
  | rows n' =>
    cases hn
    split
    · exact runs_throw
    · rename_i hne
      exact audited_runs ((hactor.mono hg').mono hg₁) (.staffRevoked hne)
  | returning id => cases hn

lemma Admits.runs {α : Type} {e : Extractor} {x : Handler α} {f : α → Principal} {m : List (Stmt × Outcome)}
    {R : List (Stmt × Outcome) → List Event → α → Prop} (hx : Runs d v pid i m R x h)
    (hR : ∀ m g a, R m g a → Admits d v g pid parts e m (f a)) :
    Runs d v pid i m (fun m g a => Admits d v g pid parts e m a) (f <$> x : Handler Principal) h := by
  change Runs d v pid i m _ (x >>= fun a => pure (f a)) h
  refine runs_seq hx (fun a m' g _ ha => runs_pure (fun g' hg' => ?_))
  exact (hR m' g a ha).mono hg'

lemma extract_answers {e : Extractor} : Answers d v pid (.guarded e parts) .admitted (e.extract d parts) h := by
  refine Runs.weaken (R := fun m g a => Admits d v g pid parts e m a) ?_ (fun m g a ha => .admitted ha)
  cases e with
  | apiKey =>
    refine Admits.runs apiKeyAuth_runs (fun m g auth ha => ?_)
    rw [ha.1]
    refine .key rfl ha.2 ?_
    cases auth.role <;> simp
  | admin =>
    refine Admits.runs adminAuth_runs (fun m g actor ha => ?_)
    rw [ha.1]
    exact .admin ha.2
  | integration =>
    refine Admits.runs roleAuth_runs (fun m g auth ha => ?_)
    rw [ha.1]
    exact .key rfl ha.2.1 ha.2.2
  | requireIntegration =>
    refine Admits.runs requireIntegration_runs (fun m g auth ha => ?_)
    rw [ha.1]
    exact .key rfl ha.2.1 ha.2.2
  | device =>
    refine Admits.runs roleAuth_runs (fun m g auth ha => ?_)
    rw [ha.1]
    exact .key rfl ha.2.1 ha.2.2
  | anyStaff =>
    refine Admits.runs requireStaff_runs (fun m g member ha => ?_)
    rw [ha.1]
    exact .staff rfl ha.2.1 ha.2.2
  | ops =>
    refine Admits.runs requireStaff_runs (fun m g member ha => ?_)
    rw [ha.1]
    exact .staff rfl ha.2.1 ha.2.2
  | support =>
    refine Admits.runs requireStaff_runs (fun m g member ha => ?_)
    rw [ha.1]
    exact .staff rfl ha.2.1 ha.2.2
  | adminStaff =>
    refine Admits.runs requireStaff_runs (fun m g member ha => ?_)
    rw [ha.1]
    exact .staff rfl ha.2.1 ha.2.2
  | customer =>
    refine Admits.runs (customerAuth_runs rfl) (fun m g id ha => ?_)
    obtain ⟨t, hs, rfl⟩ := ha
    exact .customer hs

lemma myOrders_answers : Answers d v pid (.myOrders parts) .orders (myOrders d parts) h := by
  unfold myOrders
  refine runs_seq (customerAuth_runs rfl) (fun id m g _ hid => ?_)
  obtain ⟨t, hs, rfl⟩ := hid
  refine runs_seq pool_runs (fun _ m g' hg' hm => ?_)
  subst hm
  exact runs_query (fun s g'' hg'' hd => .listed (hs.mono (hg'.trans hg'')) (hd _ rfl))

lemma claimOrder_answers {orderId : Uuid} {token : String} :
    Answers d v pid (.claimOrder parts orderId token) (fun r => .claimed r.1 r.2)
      (claimOrder d parts orderId token) h := by
  unfold claimOrder
  refine runs_seq (customerAuth_runs rfl) (fun customerId m g _ hid => ?_)
  obtain ⟨t, hs, rfl⟩ := hid
  refine runs_seq pool_runs (fun _ m g₁ hg₁ hm => ?_)
  subst hm
  split
  · rename_i htoken
    have hs₁ := hs.mono hg₁
    refine runs_seq (R := fun m _ n =>
      m = [(t, .ok (.returning customerId)), (.claimOrder orderId customerId, .ok (.rows n))])
      (runs_execute (fun g hg => .claim (hs₁.mono hg) htoken) (fun r returned _ n g _ hn _ => ?_))
      (fun n m g₂ hg₂ hm => ?_)
    · cases returned with
      | rows n' =>
        cases hn
        rfl
      | returning id => cases hn
    · subst hm
      split
      · exact runs_throw
      · rename_i hne
        exact runs_pure (fun g hg => .claimed (hs₁.mono (hg₂.trans hg)) hne htoken)
  · exact runs_throw

lemma findCustomer_runs {subject : Subject} {m : List (Stmt × Outcome)} :
    Runs d v pid i m (fun m' g found => m' = m ∧ ∀ customerId, found = some customerId → During v g pid (fun r =>
      ∃ c ∈ r.customers.rows, holder c = (subject.issuer, subject.subject) ∧ c.id = customerId))
      (findCustomer subject) h := by
  refine runs_query (fun s g _ hd => ⟨rfl, fun customerId hid => hd _ ?_⟩)
  obtain ⟨c, hc, rfl⟩ := Option.map_eq_some_iff.mp hid
  obtain ⟨hm, hh⟩ := Indexed.lookup_eq_some.mp hc
  exact ⟨c, hm, hh, rfl⟩

lemma isOwner_runs {orderId : Uuid} {m : List (Stmt × Outcome)} :
    Runs d v pid i m (fun m' g owns => m' = m ∧ (owns = true → OwnerBacked d v g pid parts orderId))
      (isOwner d parts orderId) h := by
  unfold isOwner
  refine runs_seq bearerSubject_runs (fun found m' g _ hfound => ?_)
  obtain ⟨rfl, hfound⟩ := hfound
  cases found with
  | none => exact runs_pure (fun _ _ => ⟨rfl, fun he => by cases he⟩)
  | some subject =>
    refine runs_seq findCustomer_runs (fun found m'' g' hg' hcustomer => ?_)
    obtain ⟨rfl, hcustomer⟩ := hcustomer
    cases found with
    | none => exact runs_pure (fun _ _ => ⟨rfl, fun he => by cases he⟩)
    | some customerId =>
      refine runs_query (fun s g'' hg'' hd => ⟨rfl, fun howns => ?_⟩)
      refine ⟨subject, customerId, (hfound subject rfl).mono (hg'.trans hg''),
        (hcustomer customerId rfl).mono hg'', ?_⟩
      obtain ⟨o, ho⟩ := Option.isSome_iff_exists.mp howns
      have hp := List.find?_some ho
      simp only [Bool.and_eq_true, decide_eq_true_eq] at hp
      exact hd _ ⟨o, List.mem_of_find?_eq_some ho, hp⟩

lemma hasApiKey_runs {m : List (Stmt × Outcome)} :
    Runs d v pid i m (fun m' g has => m' = m ∧ (has = true → ∃ auth, KeyBacked d v g pid parts.rawKey auth))
      (hasApiKey d parts) h := by
  unfold hasApiKey
  cases hkey : parts.rawKey with
  | none => exact runs_pure (fun _ _ => ⟨rfl, fun he => by cases he⟩)
  | some key =>
    refine runs_seq authenticate_runs (fun found m' g _ hfound => ?_)
    obtain ⟨rfl, hfound⟩ := hfound
    refine runs_pure (fun g' hg' => ⟨rfl, fun hsome => ?_⟩)
    obtain ⟨auth, rfl⟩ := Option.isSome_iff_exists.mp hsome
    exact ⟨auth, key, rfl, (hfound auth rfl).mono hg'⟩

lemma authorizeOrderAccess_runs {orderId : Uuid} {token : Option String} {m : List (Stmt × Outcome)} :
    Runs d v pid i m (fun m' g _ => m' = m ∧ MayAccess d v g pid parts orderId token)
      (authorizeOrderAccess d parts orderId token) h := by
  unfold authorizeOrderAccess
  split
  · rename_i htoken
    cases token with
    | none => cases htoken
    | some text => exact runs_pure (fun _ _ => ⟨rfl, .token htoken⟩)
  · refine runs_seq isOwner_runs (fun owns m' g _ howns => ?_)
    obtain ⟨rfl, howns⟩ := howns
    split
    · rename_i hyes
      exact runs_pure (fun g' hg' => ⟨rfl, .owner ((howns hyes).mono hg')⟩)
    · refine runs_seq hasApiKey_runs (fun has m'' g' _ hhas => ?_)
      obtain ⟨rfl, hhas⟩ := hhas
      split
      · rename_i hyes
        obtain ⟨auth, hkey⟩ := hhas hyes
        exact runs_pure (fun g'' hg'' => ⟨rfl, .key (hkey.mono hg'')⟩)
      · exact runs_throw

lemma getOrder_answers {orderId : Uuid} {token : Option String} :
    Answers d v pid (.getOrder parts orderId token) .order (getOrder d parts orderId token) h := by
  unfold getOrder
  refine runs_seq pool_runs (fun _ m g _ hm => ?_)
  subst hm
  refine runs_seq authorizeOrderAccess_runs (fun _ m g₁ _ haccess => ?_)
  obtain ⟨rfl, haccess⟩ := haccess
  refine runs_seq (R := fun m' g found => m' = [] ∧ ∀ row, found = some row → row.id = orderId ∧
    During v g pid (fun r => row ∈ r.orders.rows)) ?_ (fun found m g₂ hg₂ hfound => ?_)
  · refine runs_query (fun s g _ hd => ⟨rfl, fun row hrow => ?_⟩)
    exact ⟨Table.find?_key hrow, hd _ (Table.find?_mem hrow)⟩
  · obtain ⟨rfl, hfound⟩ := hfound
    cases found with
    | none => exact runs_throw
    | some row =>
      obtain ⟨rfl, hrow⟩ := hfound row rfl
      exact runs_pure (fun g hg => .order (haccess.mono (hg₂.trans hg)) (hrow.mono hg))

lemma accessOrder_answers {orderId : Uuid} {token : Option String} :
    Answers d v pid (.accessOrder parts orderId token) (fun _ => .done) (accessOrder d parts orderId token) h := by
  unfold accessOrder
  refine runs_seq pool_runs (fun _ m g _ hm => ?_)
  subst hm
  refine authorizeOrderAccess_runs.weaken (fun m g _ ha => ?_)
  rw [ha.1]
  exact .accessed ha.2

lemma book_answers {contact : Option String} {row : OwnedOrderRow} {customerId : Option Uuid}
    {m : List (Stmt × Outcome)}
    (hw : ∀ g, h <+: g → Warrant d v g pid (.placeOrder parts contact row) m (.book { row with customerId })) :
    Runs d v pid (.placeOrder parts contact row) m
      (fun m g a => Entitled d v g pid (.placeOrder parts contact row) m (.placed a))
      (do let _ ← Handler.execute (.book { row with customerId }) Returned.rows?; return customerId) h := by
  refine runs_seq (R := fun m' _ _ => ∃ returned, m' = m ++ [(.book { row with customerId }, .ok returned)])
    (runs_execute hw (fun _ returned _ _ _ _ _ _ => ⟨returned, rfl⟩)) (fun _ m' g hg hm => ?_)
  obtain ⟨returned, rfl⟩ := hm
  exact runs_pure (fun g' hg' => .placed (hw g' (hg.trans hg')))

lemma placeOrder_answers {contact : Option String} {row : OwnedOrderRow} :
    Answers d v pid (.placeOrder parts contact row) .placed (placeOrder d parts contact row) h := by
  unfold placeOrder
  refine runs_seq pool_runs (fun _ m g _ hm => ?_)
  subst hm
  refine runs_seq (R := fun m g customerId => (customerId = none ∧ m = []) ∨
    ∃ t id, customerId = some id ∧ SignedIn d v g pid parts t ∧ m = [(t, .ok (.returning id))]) ?_
    (fun customerId m g₁ hg₁ hcustomer => ?_)
  · refine runs_seq bearerSubject_runs (fun found m g' _ hfound => ?_)
    obtain ⟨rfl, hfound⟩ := hfound
    cases found with
    | none => exact runs_pure (fun _ _ => .inl ⟨rfl, rfl⟩)
    | some subject =>
      refine runs_seq (upsertCustomer_runs rfl (hfound subject rfl)) (fun id m g'' _ hid => ?_)
      obtain ⟨t, hs, rfl⟩ := hid
      exact runs_pure (fun g hg => .inr ⟨t, id, rfl, hs.mono hg, rfl⟩)
  · rcases hcustomer with ⟨rfl, rfl⟩ | ⟨t, id, rfl, hs, rfl⟩
    · cases contact with
      | none => exact runs_throw
      | some contact =>
        split
        · exact runs_throw
        · rename_i hcontact
          refine book_answers (fun g _ => .bookGuest (fun he => hcontact ⟨rfl, ?_⟩))
          simpa using he
    · split
      · exact runs_throw
      · exact book_answers (fun g hg => .bookOwned (hs.mono hg))

lemma setStatus_answers {orderId : Uuid} {status : String} :
    Answers d v pid (.setStatus orderId status) (fun _ => .done) (setStatus orderId status) h :=
  runs_seq (R := fun _ _ _ => True) (runs_execute (fun _ _ => .setStatus) (fun _ _ _ _ _ _ _ _ => trivial))
    (fun _ _ _ _ _ => runs_pure (fun _ _ => .setStatus))

lemma refreshJwks_answers : Answers d v pid .refreshJwks (fun _ => .done) refreshJwks h := by
  unfold refreshJwks
  refine runs_seq (R := fun m g result => m = [] ∧ .call pid .refreshJwks .fetchJwks (.fetched result) ∈ g)
    (runs_fetchJwks (fun result g _ hm => ⟨rfl, hm⟩)) (fun result m g _ hresult => ?_)
  obtain ⟨rfl, hcall⟩ := hresult
  cases result with
  | error e => exact runs_pure (fun _ _ => .refreshed)
  | ok keys =>
    simp only
    split
    · exact runs_pure (fun _ _ => .refreshed)
    · rename_i hne
      refine runs_seq (R := fun _ _ _ => True) (runs_execute (fun g' hg' => .storeKeys ?_ (hg'.subset hcall))
        (fun _ _ _ _ _ _ _ _ => trivial)) (fun _ _ _ _ _ => runs_pure (fun _ _ => .refreshed))
      exact fun he => hne (List.isEmpty_iff.mpr he)

lemma bootstrapKey_answers {key : String} :
    Answers d v pid (.bootstrapKey key) (fun _ => .done) (bootstrapAdminKey d key) h := by
  unfold bootstrapAdminKey
  refine runs_seq (R := fun m _ _ => m = []) (runs_newUuid (fun _ _ _ => rfl)) (fun id m g _ hm => ?_)
  subst hm
  exact runs_seq (R := fun _ _ _ => True)
    (runs_execute (fun _ _ => .bootstrapKey) (fun _ _ _ _ _ _ _ _ => trivial))
    (fun _ _ _ _ _ => runs_pure (fun _ _ => .bootstrapKey))

lemma bootstrapStaff_answers {spec : String} :
    Answers d v pid (.bootstrapStaff spec) (fun _ => .done) (bootstrapAdminStaff spec) h := by
  unfold bootstrapAdminStaff
  cases hsplit : Lib.Text.splitOnce '|' spec.toList with
  | none => exact runs_throw
  | some person =>
    refine runs_seq (R := fun m _ _ => m = []) (runs_newUuid (fun _ _ _ => rfl)) (fun id m g _ hm => ?_)
    subst hm
    exact runs_seq (R := fun _ _ _ => True)
      (runs_execute (fun _ _ => .bootstrapStaff hsplit) (fun _ _ _ _ _ _ _ _ => trivial))
      (fun _ _ _ _ _ => runs_pure (fun _ _ => .bootstrapStaff))

/-- An endpoint as a whole. -/
lemma answers_keeps {α : Type} {f : α → Response} {x : Handler α} (hx : Answers d v pid i f x h)
    (hlen : pid < h.length) (hm : Site.made pid h = []) :
    (site d).Keeps (fun _ _ _ => True) (Site.Recorded Desk.registry registryStep v (Justifies d v)) pid i
      (fun g a => Justifies d v g (.answer pid i a)) (x.answer f) h := by
  refine Site.keeps_bind (hx hlen hm) (fun r g hr g' hg' => ?_)
  cases r with
  | error e => trivial
  | ok a =>
    have he := (hr a rfl).mono hg'.extends
    rw [← hg'.made] at he
    exact he

lemma handler_keeps (i : Request) (hlen : pid < h.length) (hm : Site.made pid h = []) :
    (site d).Keeps (fun _ _ _ => True) (Site.Recorded Desk.registry registryStep v (Justifies d v)) pid i
      (fun g a => Justifies d v g (.answer pid i a)) (i.handler d) h := by
  cases i with
  | createKey parts req => exact answers_keeps createKey_answers hlen hm
  | revokeKey parts id => exact answers_keeps revokeKey_answers hlen hm
  | enrollStaff parts req => exact answers_keeps enrollStaff_answers hlen hm
  | revokeStaff parts id => exact answers_keeps revokeStaff_answers hlen hm
  | guarded e parts => exact answers_keeps extract_answers hlen hm
  | myOrders parts => exact answers_keeps myOrders_answers hlen hm
  | claimOrder parts orderId token => exact answers_keeps claimOrder_answers hlen hm
  | getOrder parts orderId token => exact answers_keeps getOrder_answers hlen hm
  | accessOrder parts orderId token => exact answers_keeps accessOrder_answers hlen hm
  | placeOrder parts contact row => exact answers_keeps placeOrder_answers hlen hm
  | setStatus orderId status => exact answers_keeps setStatus_answers hlen hm
  | refreshJwks => exact answers_keeps refreshJwks_answers hlen hm
  | bootstrapKey key => exact answers_keeps bootstrapKey_answers hlen hm
  | bootstrapStaff spec => exact answers_keeps bootstrapStaff_answers hlen hm

end Endpoints

section Histories

variable {d : Deployment} {s : Desk} {c : Conf} {v : Registry} {h g : List Event} {Q : Registry → Prop}

/-- In every run the registry shows the history, and every event of it is justified. -/
lemma recorded (hc : (site d).Reachable (Site.init s) c) :
    Site.Recorded Desk.registry registryStep s.registry (Justifies d s.registry) c.store c.trace := by
  refine (Site.Protocol.invariant (Site.recorded_protocol
    (R := fun pid i h a => Justifies d s.registry h (.answer pid i a)) (registry_replays d) (fun _ _ => trivial)
    (fun h i hpids => ?_) (fun _ _ _ _ hR => hR)) Site.recorded_init hc).1
  refine handler_keeps i (by simp) ?_
  rw [Site.made_quiet (fun _ _ _ he => by cases he)]
  exact Site.made_other (fun ev hev => (hpids ev hev).ne)

/-- A statement that succeeded had its effect. -/
lemma commit_effect {pid : Nat} {i : Request} {t : Stmt} {returned : Returned}
    (hj : Site.Justified (Justifies d v) h) (hp : g ++ [.commit pid i t (.ok returned)] <+: h) :
    t.effect (Site.replay registryStep v g) =
      .ok (returned, Site.replay registryStep v (g ++ [.commit pid i t (.ok returned)])) := by
  obtain ⟨r, hr⟩ := (hj g _ hp).2 returned rfl
  rw [Site.replay_commit, hr]
  simp only [registryStep, hr]

/-- Every statement that succeeds between two histories keeps `Q`. -/
def Kept (v : Registry) (g h : List Event) (Q : Registry → Prop) : Prop :=
  ∀ g' pid i t returned r, g <+: g' → g' ++ [.commit pid i t (.ok returned)] <+: h →
    t.effect (Site.replay registryStep v g') = .ok (returned, r) → Q (Site.replay registryStep v g') → Q r

lemma Kept.step (hk : Kept v g h Q) (hj : Site.Justified (Justifies d v) h) :
    ∀ g' pid i t o, g <+: g' → g' ++ [.commit pid i t o] <+: h → Q (Site.replay registryStep v g') →
      Q (registryStep (Site.replay registryStep v g') t o) := by
  intro g' pid i t o hg hp hQ
  cases o with
  | error e => exact hQ
  | ok returned =>
    have heffect := commit_effect hj hp
    have hstep := hk g' pid i t returned _ hg hp heffect hQ
    rwa [Site.replay_commit] at hstep

lemma Kept.carries (hk : Kept v g h Q) (hj : Site.Justified (Justifies d v) h) (hg : g <+: h)
    (hQ : Q (Site.replay registryStep v g)) : Q (Site.replay registryStep v h) :=
  Site.replay_carries hg hQ (hk.step hj)

end Histories

/-- The registry is what the statements have made of it, one after the other, and each was warranted at
that point of its request: what changes keys, staff, customers and owners, by a credential. -/
theorem writes_have_credentials {d : Deployment} {s : Desk} {c : Conf} (hc : (site d).Reachable (Site.init s) c) :
    c.store.registry = Site.replay registryStep s.registry c.trace ∧
      ∀ g pid i t o, g ++ [.commit pid i t o] <+: c.trace →
        Warrant d s.registry g pid i (Site.made pid g) t := by
  obtain ⟨hshow, hj⟩ := recorded hc
  exact ⟨hshow, fun g pid i t o hp => (hj g _ hp).1⟩

/-- A deployment that stores keys as they are, and whose provider takes a token for its subject. -/
def office : Deployment where
  db := true
  identity := some (.jwks "idp" none)
  idpIssuer := none
  sha256 := id
  simple := fun id => String.ofList [Nat.digitChar (id % 10)]
  jwt :=
    { decodeHeader := fun _ => some ⟨.rs256, some "k"⟩
      fromJwk := fun _ => some (.published [])
      decode := fun _ token _ v => some ⟨v.issuer, token, none⟩ }
  crates := ⟨fun _ => [], fun _ => none, fun _ _ => [0], fun _ => "", fun _ => none⟩
  quoteSecret := []

/-- An administrator's key, a validator's, a member of staff and an order. -/
def frontDesk : Desk where
  now := 0
  registry :=
    { apiKeys := ⟨⟨[⟨1, [97], "bootstrap", .operatorAdmin, true⟩, ⟨2, [98], "gate", .validator, true⟩], by decide⟩,
        by decide⟩
      staff := ⟨⟨[⟨3, "idp", "ann", none, "Ann", .support, true⟩], by decide⟩, by decide⟩
      customers := Indexed.empty
      orders := ⟨[⟨7, none, "confirmed", 100, "PHP", 0, [1]⟩], by decide⟩
      auditLog := []
      jwks := [⟨some "k", none, .rsa "n" "e"⟩] }

def withKey (key : UInt8) : Parts := ⟨[("x-api-key", [key])]⟩

def withToken (token : String) : Parts := ⟨[("authorization", Http.asBytes ("Bearer " ++ token))]⟩

/-- The gate's key is revoked, and tried again. -/
def revocation : List (Act Request Reply (Option DbError) Nat) :=
  [.arrive (.revokeKey (withKey 97) 2), .read 0 true, .commit 0 none, .commit 0 none, .answer 0,
    .arrive (.guarded .device (withKey 98)), .read 4 true, .answer 4]

def revocationTrace : List Event :=
  [.arrive 0 (.revokeKey (withKey 97) 2), .commit 0 (.revokeKey (withKey 97) 2) (.deactivateKey 2) (.ok (.rows 1)),
    .commit 0 (.revokeKey (withKey 97) 2) (.audit ⟨⟨some 1, none⟩, "api_key.revoked", .keyRevoked 2⟩)
      (.ok (.rows 1)),
    .answer 0 (.revokeKey (withKey 97) 2) (.ok (.revoked 2)), .arrive 4 (.guarded .device (withKey 98)),
    .answer 4 (.guarded .device (withKey 98)) (.error (.unauthorized "unknown or inactive API key"))]

lemma revocation_runs : ((site office).exec (Site.init frontDesk) revocation).map (fun c =>
    (c.trace, c.store.registry.apiKeys.rows)) = some (revocationTrace,
      [⟨1, [97], "bootstrap", .operatorAdmin, true⟩, ⟨2, [98], "gate", .validator, false⟩]) := by decide

theorem writes_have_credentials_office :
    Warrant office frontDesk.registry (revocationTrace.take 1) 0 (.revokeKey (withKey 97) 2) []
      (.deactivateKey 2) := by
  obtain ⟨c, hc, hends⟩ := Site.reachable_of_exec_map revocation_runs
  obtain ⟨htrace, -⟩ := Prod.mk.inj hends
  refine (writes_have_credentials hc).2 (revocationTrace.take 1) 0 _ _ (.ok (.rows 1)) ?_
  rw [htrace]
  exact ⟨revocationTrace.drop 2, rfl⟩

/-- Whoever is answered was entitled to the answer; where the endpoint asks for a credential, by one that
was good since the request arrived. -/
theorem answers_have_credentials {d : Deployment} {s : Desk} {c : Conf} {g : List Event} {pid : Nat} {i : Request}
    {a : Response} (hc : (site d).Reachable (Site.init s) c) (hp : g ++ [.answer pid i (.ok a)] <+: c.trace) :
    Entitled d s.registry g pid i (Site.made pid g) a :=
  (recorded hc).2 g _ hp

theorem answers_have_credentials_office :
    Entitled office frontDesk.registry (revocationTrace.take 3) 0 (.revokeKey (withKey 97) 2)
      [(.deactivateKey 2, .ok (.rows 1)),
        (.audit ⟨⟨some 1, none⟩, "api_key.revoked", .keyRevoked 2⟩, .ok (.rows 1))] (.revoked 2) := by
  obtain ⟨c, hc, hends⟩ := Site.reachable_of_exec_map revocation_runs
  obtain ⟨htrace, -⟩ := Prod.mk.inj hends
  have hp : revocationTrace.take 3 ++ [.answer 0 (.revokeKey (withKey 97) 2) (.ok (.revoked 2))] <+: c.trace := by
    rw [htrace]
    exact ⟨revocationTrace.drop 4, rfl⟩
  exact answers_have_credentials hc hp

end Lulan.Access.Proofs
