import Lulan.Proofs.Access

/-!
# Revocation holds

Once a key or a member of staff has been revoked, no request that arrives later acts by that
credential, however the requests interleave, until it is given out again.
-/

namespace Lulan.Access.Proofs

open Lulan Lib
open Lulan.Http (Bytes)

/-- The API key a request is judged by. -/
def presented : Request → Option String
  | .createKey parts _ | .revokeKey parts _ | .enrollStaff parts _ | .revokeStaff parts _ => parts.bearerOrApiKey
  | .guarded e parts => if (keyRoles e).isSome ∨ e = .admin then keyOf parts e else none
  | _ => none

section Keys

variable {d : Deployment} {v r r' : Registry} {h g : List Event} {pid : Nat} {i : Request} {text : String}
  {m : List (Stmt × Outcome)} {t : Stmt} {returned : Returned} {hash : Bytes}

lemma AdminBacked.key {parts : Parts} {actor : Actor} (ha : AdminBacked d v h pid parts actor)
    (hkey : parts.bearerOrApiKey = some text) : ∃ auth, KeyBacked d v h pid (some text) auth := by
  rcases ha with ⟨auth, hk, -, -⟩ | ⟨hnone, -⟩
  · rw [hkey] at hk
    exact ⟨auth, hk⟩
  · rw [hkey] at hnone
    cases hnone

lemma Performed.presented {parts : Parts} {detail : Detail} {a : Response}
    (hp : Performed d i parts t returned detail a) :
    Proofs.presented i = parts.bearerOrApiKey := by
  cases hp with
  | keyCreated hr => rfl
  | keyRevoked hn => rfl
  | staffEnrolled hr hi => rfl
  | staffRevoked hn => rfl

lemma signed_presents {parts : Parts} (hs : signed i = some parts) : presented i = none := by
  cases i with
  | guarded e parts =>
    cases e with
    | customer => rfl
    | _ => cases hs
  | myOrders parts => rfl
  | claimOrder parts orderId token => rfl
  | placeOrder parts contact row => rfl
  | _ => cases hs

lemma staffRoles_presents {e : Extractor} {roles : List StaffRole} {parts : Parts}
    (he : staffRoles e = some roles) :
    presented (.guarded e parts) = none := by
  cases e with
  | anyStaff => rfl
  | ops => rfl
  | support => rfl
  | adminStaff => rfl
  | _ => cases he

/-- A request that is judged by a key writes nothing without it. -/
lemma Warrant.key (hw : Warrant d v h pid i m t) (hkey : presented i = some text) :
    ∃ auth, KeyBacked d v h pid (some text) auth := by
  cases hw with
  | change ha hp => exact ha.key (hp.presented ▸ hkey)
  | audit ha hp => exact ha.key (hp.presented ▸ hkey)
  | signIn hi hs => rw [signed_presents hi] at hkey; cases hkey
  | _ => cases hkey

lemma Entitled.key {a : Response} (he : Entitled d v h pid i m a) (hkey : presented i = some text) :
    ∃ auth, KeyBacked d v h pid (some text) auth := by
  cases he with
  | performed ha hp => exact ha.key (hp.presented ▸ hkey)
  | admitted ha =>
    cases ha with
    | key he hk hr =>
      simp only [presented, he, Option.isSome_some, true_or, if_true] at hkey
      rw [hkey] at hk
      exact ⟨_, hk⟩
    | staff he hs hr =>
      rw [staffRoles_presents he] at hkey
      cases hkey
    | admin ha => exact ha.key hkey
    | customer hs => cases hkey
  | _ => cases hkey

/-- The key of that hash has been revoked. -/
def Dead (hash : Bytes) (r : Registry) : Prop := ∃ k ∈ r.apiKeys.rows, k.keyHash = hash ∧ k.active = false

lemma Dead.not_holds (hd : Dead hash r) {auth : ApiKeyAuth} : ¬KeyHolds hash auth r := by
  rintro ⟨k, hk, hhash, -, -, hactive⟩
  obtain ⟨k', hk', hhash', hdead⟩ := hd
  have he : k' = k := Indexed.eq_of_idx hk' hk (hhash'.trans hhash.symm)
  rw [he, hactive] at hdead
  cases hdead

lemma Dead.effect (hd : Dead hash r) (h : t.effect r = .ok (returned, r')) (ht : ∀ id, t ≠ .bootstrapKey id hash) :
    Dead hash r' := by
  refine apiKeys_keep h (fun k _ hk => ⟨hk.1, rfl⟩) (fun id k k' he _ _ hk => ?_) hd
  rw [hk.1] at he
  exact absurd he (ht id)

/-- A key row stays in the table, under its identifier and its hash. -/
lemma key_effect {id : Uuid} (h : t.effect r = .ok (returned, r'))
    (hk : ∃ k ∈ r.apiKeys.rows, k.id = id ∧ k.keyHash = hash) :
    ∃ k ∈ r'.apiKeys.rows, k.id = id ∧ k.keyHash = hash := by
  refine apiKeys_keep h (fun k _ hk => hk) (fun _ k k' _ hid hhash hk => ?_) hk
  exact ⟨hid.trans hk.1, hhash.trans hk.2⟩

lemma deactivateKey_dead {id : Uuid} (h : (Stmt.deactivateKey id).effect r = .ok (returned, r'))
    (hk : ∃ k ∈ r.apiKeys.rows, k.id = id ∧ k.keyHash = hash) : Dead hash r' := by
  obtain ⟨k, hk, hid, hhash⟩ := hk
  cases h
  refine ⟨_, Indexed.mem_amend.mpr ⟨k, hk, rfl⟩, ?_⟩
  simp [hid, hhash]

end Keys

section Run

variable {d : Deployment} {s : Desk} {c : Conf} {g : List Event} {k : ApiKeyRow} {q n pid : Nat} {j : Request}

/-- From the revocation on, the key is dead. -/
lemma revoked_dead (hc : (site d).Reachable (Site.init s) c) (hk : k ∈ c.store.registry.apiKeys.rows)
    (hp : g ++ [.commit q j (.deactivateKey k.id) (.ok (.rows n))] <+: c.trace) (hn : n ≠ 0) :
    Dead k.keyHash (Site.replay registryStep s.registry
      (g ++ [.commit q j (.deactivateKey k.id) (.ok (.rows n))])) := by
  obtain ⟨hshow, hj⟩ := recorded hc
  have heffect := commit_effect hj hp
  have haffected : .rows n = Returned.rows ((Site.replay registryStep s.registry g).apiKeys.affected
      (fun x => decide (x.id = k.id))) := (congrArg Prod.fst (Except.ok.inj heffect)).symm
  cases haffected
  obtain ⟨k₀, hk₀, hid⟩ := affected_pos hn
  have hstays : ∃ x ∈ c.store.registry.apiKeys.rows, x.id = k.id ∧ x.keyHash = k₀.keyHash := by
    rw [hshow]
    refine Kept.carries (Q := fun r => ∃ x ∈ r.apiKeys.rows, x.id = k.id ∧ x.keyHash = k₀.keyHash)
      (fun _ _ _ _ _ _ _ _ he => key_effect he) hj ((List.prefix_append g _).trans hp) ?_
    exact ⟨k₀, hk₀, of_decide_eq_true hid, rfl⟩
  obtain ⟨x, hx, hxid, hxhash⟩ := hstays
  have he : x = k := Indexed.eq_of_key hx hk hxid
  subst he
  exact deactivateKey_dead heffect ⟨k₀, hk₀, of_decide_eq_true hid, hxhash.symm⟩

/-- A request that arrives after the revocation does not find the key. -/
lemma revoked_unbacked {h : List Event} {key : Option String} {auth : ApiKeyAuth} {text : String}
    (hc : (site d).Reachable (Site.init s) c) (hk : k ∈ c.store.registry.apiKeys.rows)
    (hp : g ++ [.commit q j (.deactivateKey k.id) (.ok (.rows n))] <+: c.trace) (hn : n ≠ 0)
    (hboot : ∀ g' p i id o, g <+: g' → ¬g' ++ [.commit p i (.bootstrapKey id k.keyHash) o] <+: c.trace)
    (hlate : g.length < pid) (hkey : key = some text) (hhash : hashKey d text = k.keyHash) (hh : h <+: c.trace) :
    ¬KeyBacked d s.registry h pid key auth := by
  rintro ⟨text', htext, hd⟩
  cases hkey.symm.trans htext
  rw [hhash] at hd
  have hlen : (g ++ [.commit q j (.deactivateKey k.id) (.ok (.rows n))] : List Event).length ≤ pid := by
    rw [List.length_append]
    exact hlate
  have hkept : Kept s.registry (g ++ [.commit q j (.deactivateKey k.id) (.ok (.rows n))]) c.trace
      (Dead k.keyHash) := by
    intro g' p i t returned r hg hcommit heffect hdead
    refine hdead.effect heffect (fun id he => ?_)
    subst he
    exact hboot g' p i id _ ((List.prefix_append g _).trans hg) hcommit
  obtain ⟨g', -, -, hholds, hdead⟩ :=
    hd.and_carries hh hp hlen (revoked_dead hc hk hp hn) (hkept.step (recorded hc).2)
  exact hdead.not_holds hholds

end Run

/-- A revoked key opens nothing: a request that arrives after the revocation and is judged by the key
writes nothing and is refused, and to orders the key gives no access, unless the key is brought
back at boot. -/
theorem revoked_key_opens_nothing {d : Deployment} {s : Desk} {c : Conf} {g : List Event} {k : ApiKeyRow}
    {q n pid : Nat} {i j : Request} {text : String} (hc : (site d).Reachable (Site.init s) c)
    (hk : k ∈ c.store.registry.apiKeys.rows)
    (hp : g ++ [.commit q j (.deactivateKey k.id) (.ok (.rows n))] <+: c.trace) (hn : n ≠ 0)
    (hboot : ∀ g' p i id o, g <+: g' → ¬g' ++ [.commit p i (.bootstrapKey id k.keyHash) o] <+: c.trace)
    (hlate : g.length < pid) (hhash : hashKey d text = k.keyHash) :
    (presented i = some text → (∀ t o, .commit pid i t o ∉ c.trace) ∧ ∀ a, .answer pid i (.ok a) ∉ c.trace) ∧
      ∀ parts orderId token, i = .getOrder parts orderId token ∨ i = .accessOrder parts orderId token →
        parts.rawKey = some text → ∀ a, .answer pid i (.ok a) ∈ c.trace →
          (∃ secret, token = some secret ∧
            Tokens.verifyRetrievalToken d.crates d.quoteSecret orderId secret = true) ∨
            OwnerBacked d s.registry c.trace pid parts orderId := by
  have hj := (recorded hc).2
  have hun : ∀ {h key auth}, h <+: c.trace → key = some text → ¬KeyBacked d s.registry h pid key auth :=
    fun hh hkey => revoked_unbacked hc hk hp hn hboot hlate hkey hhash hh
  refine ⟨fun hkey => ⟨fun t o hm => ?_, fun a hm => ?_⟩, fun parts orderId token hi hkey a hm => ?_⟩
  · obtain ⟨h, hh⟩ := Site.prefix_of_mem hm
    obtain ⟨auth, hback⟩ := (hj h _ hh).1.key hkey
    exact hun ((List.prefix_append h _).trans hh) rfl hback
  · obtain ⟨h, hh⟩ := Site.prefix_of_mem hm
    have he : Entitled d s.registry h pid i (Site.made pid h) a := hj h _ hh
    obtain ⟨auth, hback⟩ := he.key hkey
    exact hun ((List.prefix_append h _).trans hh) rfl hback
  · obtain ⟨h, hh⟩ := Site.prefix_of_mem hm
    have hext := (List.prefix_append h _).trans hh
    have haccess : MayAccess d s.registry h pid parts orderId token := by
      have he : Entitled d s.registry h pid i (Site.made pid h) a := hj h _ hh
      rcases hi with rfl | rfl
      · generalize Site.made pid h = m at he
        cases he with
        | performed _ hp => cases hp
        | order ha _ => exact ha
      · generalize Site.made pid h = m at he
        cases he with
        | performed _ hp => cases hp
        | accessed ha => exact ha
    cases haccess with
    | token ht => exact .inl ⟨_, rfl, ht⟩
    | owner ho => exact .inr (ho.mono hext)
    | key hback => exact absurd hback (hun hext hkey)

def withText (key : String) : Parts := ⟨[("x-api-key", Http.asBytes key)]⟩

/-- The front desk, with a key as it is handed out. -/
def gateDesk : Desk := { frontDesk with
  registry := { frontDesk.registry with
    apiKeys := ⟨⟨[⟨1, [97], "bootstrap", .operatorAdmin, true⟩,
      ⟨2, Http.asBytes "llk_b", "gate", .validator, true⟩], by decide⟩, by decide⟩ } }

/-- The gate's key is revoked, and tried again: at the gate, on an order, and with the order's token. -/
def lockout : List (Act Request Reply (Option DbError) Nat) :=
  [.arrive (.revokeKey (withKey 97) 2), .read 0 true, .commit 0 none, .commit 0 none, .answer 0,
    .arrive (.guarded .device (withText "llk_b")), .read 4 true, .answer 4,
    .arrive (.getOrder (withText "llk_b") 7 none), .read 6 true, .answer 6,
    .arrive (.getOrder (withText "llk_b") 7 (some "AA")), .read 8 true, .answer 8]

def lockoutTrace : List Event :=
  [.arrive 0 (.revokeKey (withKey 97) 2), .commit 0 (.revokeKey (withKey 97) 2) (.deactivateKey 2) (.ok (.rows 1)),
    .commit 0 (.revokeKey (withKey 97) 2) (.audit ⟨⟨some 1, none⟩, "api_key.revoked", .keyRevoked 2⟩)
      (.ok (.rows 1)),
    .answer 0 (.revokeKey (withKey 97) 2) (.ok (.revoked 2)), .arrive 4 (.guarded .device (withText "llk_b")),
    .answer 4 (.guarded .device (withText "llk_b")) (.error (.unauthorized "unknown or inactive API key")),
    .arrive 6 (.getOrder (withText "llk_b") 7 none),
    .answer 6 (.getOrder (withText "llk_b") 7 none) (.error (.unauthorized
      "provide the order's retrieval token, the owning customer's bearer token, or an API key")),
    .arrive 8 (.getOrder (withText "llk_b") 7 (some "AA")),
    .answer 8 (.getOrder (withText "llk_b") 7 (some "AA"))
      (.ok (.order ⟨7, none, "confirmed", 100, "PHP", 0, [1]⟩))]

lemma lockout_runs : ((site office).exec (Site.init gateDesk) lockout).map (fun c =>
    (c.trace, c.store.registry.apiKeys.rows)) = some (lockoutTrace,
      [⟨1, [97], "bootstrap", .operatorAdmin, true⟩, ⟨2, Http.asBytes "llk_b", "gate", .validator, false⟩]) := by
  decide

/-- The key opens neither the gate nor the order; the order's token does. -/
theorem revoked_key_opens_nothing_office : ∃ c : Conf, (site office).Reachable (Site.init gateDesk) c ∧
    (∀ a, .answer 4 (.guarded .device (withText "llk_b")) (.ok a) ∉ c.trace) ∧
    (∀ a, .answer 6 (.getOrder (withText "llk_b") 7 none) (.ok a) ∉ c.trace) ∧
    Tokens.verifyRetrievalToken office.crates office.quoteSecret 7 "AA" = true := by
  obtain ⟨c, hc, hends⟩ := Site.reachable_of_exec_map lockout_runs
  obtain ⟨htrace, hrows⟩ := Prod.mk.inj hends
  have hhash : hashKey office "llk_b" = Http.asBytes "llk_b" := rfl
  have hpresented : presented (.guarded .device (withText "llk_b")) = some "llk_b" := by decide
  have hraw : (withText "llk_b").rawKey = some "llk_b" := by decide
  have hrow : ⟨2, Http.asBytes "llk_b", "gate", .validator, false⟩ ∈ c.store.registry.apiKeys.rows := by
    rw [hrows]
    exact List.mem_cons_of_mem _ List.mem_cons_self
  have hrevoked : lockoutTrace.take 1 ++
      [.commit 0 (.revokeKey (withKey 97) 2) (.deactivateKey 2) (.ok (.rows 1))] <+: c.trace := by
    rw [htrace]
    exact ⟨lockoutTrace.drop 2, rfl⟩
  have hboot : ∀ g' p i id o, lockoutTrace.take 1 <+: g' →
      ¬g' ++ [.commit p i (.bootstrapKey id (Http.asBytes "llk_b")) o] <+: c.trace := by
    intro g' p i id o _ hp
    have hm := hp.subset (List.mem_append_right g' (List.mem_singleton.mpr rfl))
    rw [htrace] at hm
    simp [lockoutTrace] at hm
  -- no bearer token came with the key, so nobody owns the order
  have hnobody : ∀ pid, ¬OwnerBacked office gateDesk.registry c.trace pid (withText "llk_b") 7 := by
    rintro pid ⟨subject, customerId, ⟨provider, token, -, htoken, -⟩, -⟩
    have hnone : (withText "llk_b").bearerToken = none := by decide
    rw [hnone] at htoken
    cases htoken
  have hclosed {pid : Nat} {i : Request} (hlate : 1 < pid) :=
    revoked_key_opens_nothing (i := i) hc hrow hrevoked (by decide) hboot hlate hhash
  refine ⟨c, hc, ((hclosed (by decide)).1 hpresented).2, fun a hm => ?_, ?_⟩
  · rcases (hclosed (by decide)).2 _ 7 none (.inl rfl) hraw a hm with ⟨secret, hno, -⟩ | howner
    · cases hno
    · exact hnobody 6 howner
  · have hm : .answer 8 (.getOrder (withText "llk_b") 7 (some "AA"))
        (.ok (.order ⟨7, none, "confirmed", 100, "PHP", 0, [1]⟩)) ∈ c.trace := by
      rw [htrace]
      simp [lockoutTrace]
    rcases (hclosed (by decide)).2 _ 7 _ (.inl rfl) hraw _ hm with ⟨secret, hsent, hverified⟩ | howner
    · cases hsent
      exact hverified
    · exact absurd howner (hnobody 8)

section Staff

variable {d : Deployment} {s : Desk} {c : Conf} {g h : List Event} {r r' : Registry} {t : Stmt}
  {returned : Returned}
  {m : StaffRow} {person : Person} {q n pid : Nat} {j : Request}

/-- The person has been staff, and is no longer. -/
def Left (person : Person) (r : Registry) : Prop := ∃ m ∈ r.staff.rows, m.person = person ∧ m.active = false

lemma Left.not_holds (hl : Left (m.person) r) {subject : Subject} {member : StaffMember} (hm : m ∈ r.staff.rows)
    (hid : member.staffId = m.id) : ¬StaffHolds subject member r := by
  rintro ⟨m', hm', -, hid', -, -, hactive⟩
  obtain ⟨m₀, hm₀, hperson, hleft⟩ := hl
  have he : m' = m := Indexed.eq_of_key hm' hm (hid'.trans hid)
  have he₀ : m₀ = m := Indexed.eq_of_idx hm₀ hm hperson
  rw [he₀, ← he, hactive] at hleft
  cases hleft

lemma Left.effect (hl : Left person r) (h : t.effect r = .ok (returned, r')) (ht : enrols t ≠ some person) :
    Left person r' := by
  refine staff_keep h (fun m _ hm => ⟨hm.1, rfl⟩) (fun m m' he _ _ hm => ?_) hl
  rw [hm.1] at he
  exact absurd he ht

/-- A member of staff stays in the table, under the identifier and as the same person. -/
lemma staff_effect {id : Uuid} (h : t.effect r = .ok (returned, r'))
    (hm : ∃ m ∈ r.staff.rows, m.id = id ∧ m.person = person) :
    ∃ m ∈ r'.staff.rows, m.id = id ∧ m.person = person := by
  refine staff_keep h (fun m _ hm => hm) (fun m m' _ hid hperson hm => ?_) hm
  exact ⟨hid.trans hm.1, hperson.trans hm.2⟩

lemma deactivateStaff_left {id : Uuid} (h : (Stmt.deactivateStaff id).effect r = .ok (returned, r'))
    (hm : ∃ m ∈ r.staff.rows, m.id = id ∧ m.person = person) : Left person r' := by
  obtain ⟨m, hm, hid, hperson⟩ := hm
  cases h
  refine ⟨_, Indexed.mem_amend.mpr ⟨m, hm, rfl⟩, ?_⟩
  rw [if_pos (decide_eq_true hid)]
  exact ⟨hperson, rfl⟩

/-- The member of staff has left, and is still in the table as who it was. -/
def Gone (m : StaffRow) (r : Registry) : Prop :=
  Left m.person r ∧ ∃ x ∈ r.staff.rows, x.id = m.id ∧ x.person = m.person

/-- From the revocation on, the member of staff has left. -/
lemma revoked_gone (hc : (site d).Reachable (Site.init s) c) (hm : m ∈ c.store.registry.staff.rows)
    (hp : g ++ [.commit q j (.deactivateStaff m.id) (.ok (.rows n))] <+: c.trace) (hn : n ≠ 0) :
    Gone m (Site.replay registryStep s.registry (g ++ [.commit q j (.deactivateStaff m.id) (.ok (.rows n))])) := by
  obtain ⟨hshow, hj⟩ := recorded hc
  have heffect := commit_effect hj hp
  have haffected : .rows n = Returned.rows ((Site.replay registryStep s.registry g).staff.affected
      (fun x => decide (x.id = m.id))) := (congrArg Prod.fst (Except.ok.inj heffect)).symm
  cases haffected
  obtain ⟨m₀, hm₀, hid⟩ := affected_pos hn
  have hstays : ∃ x ∈ c.store.registry.staff.rows, x.id = m.id ∧ x.person = m₀.person := by
    rw [hshow]
    refine Kept.carries (Q := fun r => ∃ x ∈ r.staff.rows, x.id = m.id ∧ x.person = m₀.person)
      (fun _ _ _ _ _ _ _ _ he => staff_effect he) hj ((List.prefix_append g _).trans hp) ?_
    exact ⟨m₀, hm₀, of_decide_eq_true hid, rfl⟩
  obtain ⟨x, hx, hxid, hxperson⟩ := hstays
  have he : x = m := Indexed.eq_of_key hx hm hxid
  subst he
  have hrow : ∃ m ∈ (Site.replay registryStep s.registry g).staff.rows, m.id = x.id ∧ m.person = x.person :=
    ⟨m₀, hm₀, of_decide_eq_true hid, hxperson.symm⟩
  exact ⟨deactivateStaff_left heffect hrow, staff_effect heffect hrow⟩

/-- A request that arrives after the revocation is not taken for that member of staff. -/
lemma revoked_unstaffed {parts : Parts} {member : StaffMember} (hc : (site d).Reachable (Site.init s) c)
    (hm : m ∈ c.store.registry.staff.rows)
    (hp : g ++ [.commit q j (.deactivateStaff m.id) (.ok (.rows n))] <+: c.trace) (hn : n ≠ 0)
    (henrol : ∀ g' p i t o, g <+: g' → enrols t = some m.person → ¬g' ++ [.commit p i t o] <+: c.trace)
    (hlate : g.length < pid) (hh : h <+: c.trace) (hs : StaffBacked d s.registry h pid parts member) :
    member.staffId ≠ m.id := by
  intro hid
  obtain ⟨subject, -, hd⟩ := hs
  have hlen : (g ++ [.commit q j (.deactivateStaff m.id) (.ok (.rows n))] : List Event).length ≤ pid := by
    rw [List.length_append]
    exact hlate
  have hkept : Kept s.registry (g ++ [.commit q j (.deactivateStaff m.id) (.ok (.rows n))]) c.trace (Gone m) := by
    intro g' p i t returned r hg hcommit heffect hgone
    refine ⟨hgone.1.effect heffect (fun he => ?_), staff_effect heffect hgone.2⟩
    exact henrol g' p i t _ ((List.prefix_append g _).trans hg) he hcommit
  obtain ⟨g', -, -, hholds, hleft, x, hx, hxid, hxperson⟩ :=
    hd.and_carries hh hp hlen (revoked_gone hc hm hp hn) (hkept.step (recorded hc).2)
  rw [← hxperson] at hleft
  exact hleft.not_holds hx (hid.trans hxid.symm) hholds

lemma AdminBacked.not_revoked {v : Registry} {parts : Parts} {actor : Actor} {id : Uuid}
    (ha : AdminBacked d v h pid parts actor)
    (hs : ∀ member, StaffBacked d v h pid parts member → member.staffId ≠ id) : actor.staffId ≠ some id := by
  rcases ha with ⟨auth, -, -, rfl⟩ | ⟨-, member, hback, -, rfl⟩
  · exact fun he => by cases he
  · exact fun he => hs member hback (Option.some.inj he)

end Staff

/-- A member of staff who has been revoked does nothing more: no request that arrives later is let in
as that person, and none is audited under the name, until the person is enrolled again. -/
theorem revoked_staff_act_no_more {d : Deployment} {s : Desk} {c : Conf} {g : List Event} {m : StaffRow}
    {q n pid : Nat} {j : Request} (hc : (site d).Reachable (Site.init s) c) (hm : m ∈ c.store.registry.staff.rows)
    (hp : g ++ [.commit q j (.deactivateStaff m.id) (.ok (.rows n))] <+: c.trace) (hn : n ≠ 0)
    (henrol : ∀ g' p i t o, g <+: g' → enrols t = some m.person → ¬g' ++ [.commit p i t o] <+: c.trace)
    (hlate : g.length < pid) :
    (∀ e parts member, .answer pid (.guarded e parts) (.ok (.admitted (.staff member))) ∈ c.trace →
        member.staffId ≠ m.id) ∧
      (∀ e parts actor, .answer pid (.guarded e parts) (.ok (.admitted (.actor actor))) ∈ c.trace →
        actor.staffId ≠ some m.id) ∧
      ∀ i row o, .commit pid i (.audit row) o ∈ c.trace → row.actor.staffId ≠ some m.id := by
  have hj := (recorded hc).2
  have hun : ∀ {h parts member}, h <+: c.trace → StaffBacked d s.registry h pid parts member →
      member.staffId ≠ m.id :=
    fun hh hs => revoked_unstaffed hc hm hp hn henrol hlate hh hs
  refine ⟨fun e parts member hmem => ?_, fun e parts actor hmem => ?_, fun i row o hmem => ?_⟩
  · obtain ⟨h, hh⟩ := Site.prefix_of_mem hmem
    have he : Entitled d s.registry h pid (.guarded e parts) (Site.made pid h)
      (.admitted (.staff member)) := hj h _ hh
    generalize Site.made pid h = made at he
    cases he with
    | performed _ hp => cases hp
    | admitted ha =>
      cases ha with
      | staff _ hs _ => exact hun ((List.prefix_append h _).trans hh) hs
  · obtain ⟨h, hh⟩ := Site.prefix_of_mem hmem
    have he : Entitled d s.registry h pid (.guarded e parts) (Site.made pid h)
      (.admitted (.actor actor)) := hj h _ hh
    generalize Site.made pid h = made at he
    cases he with
    | performed _ hp => cases hp
    | admitted ha =>
      cases ha with
      | admin ha => exact ha.not_revoked (fun member hs => hun ((List.prefix_append h _).trans hh) hs)
  · obtain ⟨h, hh⟩ := Site.prefix_of_mem hmem
    have hw := (hj h _ hh).1
    generalize Site.made pid h = made at hw
    cases hw with
    | audit ha _ => exact ha.not_revoked (fun member hs => hun ((List.prefix_append h _).trans hh) hs)
    | change _ hp => cases hp
    | signIn _ hs =>
      obtain ⟨subject, new, -, ht⟩ := hs
      cases ht

/-- A member of staff is dismissed, and tries the console. -/
def dismissal : List (Act Request Reply (Option DbError) Nat) :=
  [.arrive (.revokeStaff (withKey 97) 3), .read 0 true, .commit 0 none, .commit 0 none, .answer 0,
    .arrive (.guarded .anyStaff (withToken "ann")), .peek 4, .peek 4, .peek 4, .peek 4, .read 4 true, .answer 4]

def dismissalTrace : List Event :=
  [.arrive 0 (.revokeStaff (withKey 97) 3),
    .commit 0 (.revokeStaff (withKey 97) 3) (.deactivateStaff 3) (.ok (.rows 1)),
    .commit 0 (.revokeStaff (withKey 97) 3) (.audit ⟨⟨some 1, none⟩, "staff.revoked", .staffRevoked 3⟩)
      (.ok (.rows 1)),
    .answer 0 (.revokeStaff (withKey 97) 3) (.ok (.revoked 3)), .arrive 4 (.guarded .anyStaff (withToken "ann")),
    .answer 4 (.guarded .anyStaff (withToken "ann")) (.error (.forbidden "not enrolled as staff"))]

lemma dismissal_runs : ((site office).exec (Site.init frontDesk) dismissal).map (fun c =>
    (c.trace, c.store.registry.staff.rows)) =
      some (dismissalTrace, [⟨3, "idp", "ann", none, "Ann", .support, false⟩]) := by decide

theorem revoked_staff_act_no_more_office : ∃ c : Conf, (site office).Reachable (Site.init frontDesk) c ∧
    .arrive 4 (.guarded .anyStaff (withToken "ann")) ∈ c.trace ∧
      ∀ e parts member, .answer 4 (.guarded e parts) (.ok (.admitted (.staff member))) ∈ c.trace →
        member.staffId ≠ 3 := by
  obtain ⟨c, hc, hends⟩ := Site.reachable_of_exec_map dismissal_runs
  obtain ⟨htrace, hrows⟩ := Prod.mk.inj hends
  refine ⟨c, hc, by rw [htrace]; simp [dismissalTrace], ?_⟩
  refine (revoked_staff_act_no_more (g := dismissalTrace.take 1)
    (m := ⟨3, "idp", "ann", none, "Ann", .support, false⟩)
    (q := 0) (n := 1) (j := .revokeStaff (withKey 97) 3) hc ?_ ?_ (by decide) ?_ (by decide)).1
  · rw [hrows]
    exact List.mem_cons_self
  · rw [htrace]
    exact ⟨dismissalTrace.drop 2, rfl⟩
  · intro g' p i t o _ henrol hp
    have hm := hp.subset (List.mem_append_right g' (List.mem_singleton.mpr rfl))
    rw [htrace] at hm
    simp only [dismissalTrace, List.mem_cons, Ev.commit.injEq, reduceCtorEq, List.not_mem_nil, or_false,
      false_or] at hm
    rcases hm with ⟨-, -, rfl, -⟩ | ⟨-, -, rfl, -⟩
    · cases henrol
    · cases henrol

end Lulan.Access.Proofs
