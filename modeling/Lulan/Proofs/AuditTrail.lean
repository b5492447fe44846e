import Lulan.Proofs.Owners

/-!
# The audit log and the published keys

The audit log is the record of what administrators have done to keys and staff, one entry for each
change that was answered. The key set in use is the last one that was published with a key in it.
-/

namespace Lulan.Access.Proofs

open Lulan Lib

/-- What the statements that succeeded have put somewhere, in order. -/
def picked {α : Type} (f : Stmt → Option α) (h : List Event) : List α :=
  h.filterMap (fun ev =>
    match ev with
    | .commit _ _ t (.ok _) => f t
    | _ => none)

def auditEntry : Stmt → Option AuditRow
  | .audit row => some row
  | _ => none

def storedKeys : Stmt → Option JwkSet
  | .storeKeys keys => some keys
  | _ => none

/-- The requests of administrators that change who may call. -/
def administrative : Request → Bool
  | .createKey .. | .revokeKey .. | .enrollStaff .. | .revokeStaff .. => true
  | _ => false

section Histories

variable {d : Deployment} {v : Registry} {h : List Event}

/-- A part of the registry that is made of what the statements put there. -/
lemma replay_picked {α β : Type} (f : Stmt → Option α) (view : Registry → β) (add : β → α → β)
    (hstep : ∀ t r returned r', t.effect r = .ok (returned, r') → view r' = (f t).elim (view r) (add (view r)))
    (hj : Site.Justified (Justifies d v) h) :
    view (Site.replay registryStep v h) = (picked f h).foldl add (view v) := by
  refine Site.prefix_induction (h := h)
    (M := fun g => view (Site.replay registryStep v g) = (picked f g).foldl add (view v)) rfl ?_
  intro g ev hp ih
  have happend : picked f (g ++ [ev]) = picked f g ++ picked f [ev] := List.filterMap_append
  rw [happend, List.foldl_append, ← ih]
  cases ev with
  | commit pid i t o =>
    cases o with
    | error e =>
      rw [Site.replay_commit]
      rfl
    | ok returned =>
      rw [hstep _ _ _ _ (commit_effect hj hp)]
      have hpicked : picked f [.commit pid i t (.ok returned)] = (f t).toList := by
        cases hf : f t <;> simp [picked, hf]
      rw [hpicked]
      cases f t <;> rfl
  | _ =>
    rw [Site.replay_quiet (fun _ _ _ _ he => by cases he)]
    rfl

lemma auditEntry_effect {t : Stmt} {r r' : Registry} {returned : Returned} (h : t.effect r = .ok (returned, r')) :
    r'.auditLog = (auditEntry t).elim r.auditLog (fun row => r.auditLog ++ [row]) := by
  have hframe := effect_framed h
  cases t with
  | _ =>
    simp only [Framed] at hframe
    rw [hframe]
    rfl

lemma storedKeys_effect {t : Stmt} {r r' : Registry} {returned : Returned} (h : t.effect r = .ok (returned, r')) :
    r'.jwks = (storedKeys t).elim r.jwks id := by
  have hframe := effect_framed h
  cases t with
  | _ =>
    simp only [Framed] at hframe
    rw [hframe]
    rfl

/-- The audit log is what there was, and the entries since. -/
lemma auditLog_replay (hj : Site.Justified (Justifies d v) h) :
    (Site.replay registryStep v h).auditLog = v.auditLog ++ picked auditEntry h := by
  rw [replay_picked auditEntry Registry.auditLog (fun log row => log ++ [row])
    (fun _ _ _ _ he => auditEntry_effect he) hj]
  rw [List.foldl_append_eq_append, ← List.flatMap_def, List.flatMap_singleton']

/-- The key set is the last one stored. -/
lemma jwks_replay (hj : Site.Justified (Justifies d v) h) :
    (Site.replay registryStep v h).jwks = (picked storedKeys h).getLast?.getD v.jwks := by
  rw [replay_picked storedKeys Registry.jwks (fun _ keys => keys) (fun _ _ _ _ he => storedKeys_effect he) hj]
  have hlast : ∀ (l : List JwkSet) (keys : JwkSet), l.foldl (fun _ keys => keys) keys = l.getLast?.getD keys := by
    intro l
    induction l with
    | nil => exact fun _ => rfl
    | cons x rest ih =>
      intro keys
      rw [List.foldl_cons, ih, List.getLast?_cons, Option.getD_some]
  exact hlast _ _

end Histories

/-- The audit log tells what administrators have done to keys and staff: it only grows, by one entry for
each change that was answered, under the name of an administrator who was one at the time and with what
was changed. -/
theorem audit_log_tells_the_changes {d : Deployment} {s : Desk} {c : Conf}
    (hc : (site d).Reachable (Site.init s) c) :
    c.store.registry.auditLog = s.registry.auditLog ++ picked auditEntry c.trace ∧
      (∀ g pid i row o, g ++ [.commit pid i (.audit row) o] <+: c.trace →
        ∃ parts t returned a, AdminBacked d s.registry g pid parts row.actor ∧
          Performed d i parts t returned row.detail a ∧ row.action = row.detail.action ∧
          Site.made pid g = [(t, .ok returned)]) ∧
      ∀ g pid i a, administrative i = true → g ++ [.answer pid i (.ok a)] <+: c.trace →
        ∃ parts actor t returned detail written, Performed d i parts t returned detail a ∧
          Site.made pid g = [(t, .ok returned), (.audit ⟨actor, detail.action, detail⟩, .ok written)] := by
  obtain ⟨hshow, hj⟩ := recorded hc
  refine ⟨by rw [hshow, auditLog_replay hj], fun g pid i row o hp => ?_, fun g pid i a hi hp => ?_⟩
  · have hw := (hj g _ hp).1
    generalize Site.made pid g = m at hw
    cases hw with
    | audit ha hperformed => exact ⟨_, _, _, _, ha, hperformed, rfl, rfl⟩
    | change _ hperformed => cases hperformed
    | signIn _ hs =>
      obtain ⟨subject, new, -, ht⟩ := hs
      cases ht
  · have he : Entitled d s.registry g pid i (Site.made pid g) a := hj g _ hp
    generalize Site.made pid g = m at he
    cases he with
    | performed ha hperformed => exact ⟨_, _, _, _, _, _, hperformed, rfl⟩
    | _ => cases hi

theorem audit_log_tells_the_changes_office : ∃ c : Conf, (site office).Reachable (Site.init frontDesk) c ∧
    c.store.registry.auditLog = [⟨⟨some 1, none⟩, "api_key.revoked", .keyRevoked 2⟩] := by
  obtain ⟨c, hc, hends⟩ := Site.reachable_of_exec_map revocation_runs
  obtain ⟨htrace, -⟩ := Prod.mk.inj hends
  refine ⟨c, hc, ?_⟩
  rw [(audit_log_tells_the_changes hc).1, htrace]
  rfl

/-- How the JWKS adapter takes a token: by the published key it names, and by that key's own algorithm,
or one of the key's family where it names none. -/
structure TakenBy (d : Deployment) (issuer : String) (audience : Option String) (keys : JwkSet) (token : String)
    (subject : Subject) (jwk : Jwk) (algorithm : Algorithm) : Prop where
  named : ∃ header kid, d.jwt.decodeHeader token = some header ∧ header.kid = some kid ∧ keys.find kid = some jwk ∧
    (jwk.keyAlgorithm = some (.signature algorithm) ∨
      jwk.keyAlgorithm = none ∧ algorithm = header.alg ∧ algFamilyMatches header.alg jwk.algorithm = true)
  checked : ∃ key now claims, d.jwt.fromJwk jwk = some key ∧
    d.jwt.decode now token key ⟨algorithm, issuer, audience⟩ = some claims ∧ claims.subject = subject

lemma accepts_taken {d : Deployment} {issuer : String} {audience : Option String} {keys : JwkSet} {now : Timestamp}
    {token : String} {subject : Subject} (h : accepts d (.jwks issuer audience) keys now token = some subject) :
    ∃ jwk ∈ keys, ∃ algorithm, TakenBy d issuer audience keys token subject jwk algorithm := by
  simp only [accepts, Option.bind_eq_bind] at h
  obtain ⟨header, hdecode, h⟩ := Option.bind_eq_some_iff.mp h
  obtain ⟨kid, hkid, h⟩ := Option.bind_eq_some_iff.mp h
  obtain ⟨selected, hselect, h⟩ := Option.bind_eq_some_iff.mp h
  obtain ⟨claims, hclaims, hsubject⟩ := Option.map_eq_some_iff.mp h
  simp only [selectKey, Option.bind_eq_bind] at hselect
  obtain ⟨jwk, hfind, hselect⟩ := Option.bind_eq_some_iff.mp hselect
  obtain ⟨algorithm, htrusted, hselect⟩ := Option.bind_eq_some_iff.mp hselect
  obtain ⟨key, hkey, hpair⟩ := Option.bind_eq_some_iff.mp hselect
  cases hpair
  refine ⟨jwk, List.mem_of_find?_eq_some hfind, algorithm, ⟨header, kid, hdecode, hkid, hfind, ?_⟩,
    key, now, claims, hkey, hclaims, hsubject⟩
  cases halg : jwk.keyAlgorithm with
  | some alg =>
    simp only [trustedAlgorithm, halg] at htrusted
    cases alg with
    | signature alg =>
      cases htrusted
      exact .inl rfl
    | encryption name => cases htrusted
  | none =>
    simp only [trustedAlgorithm, halg] at htrusted
    split at htrusted
    · rename_i hfamily
      cases htrusted
      exact .inr ⟨rfl, rfl, hfamily⟩
    · cases htrusted

/-- The key set in force after a history. -/
def keysInForce (keys : JwkSet) (h : List Event) : JwkSet := (picked storedKeys h).getLast?.getD keys

/-- Since the request arrived, its token has been taken by a key in force. -/
def TokenTaken (d : Deployment) (keys : JwkSet) (h : List Event) (pid : Nat) (issuer : String)
    (audience : Option String) (parts : Parts) (subject : Subject) : Prop :=
  ∃ token g jwk algorithm, parts.bearerToken = some token ∧ g <+: h ∧ pid < g.length ∧ jwk ∈ keysInForce keys g ∧
    TakenBy d issuer audience (keysInForce keys g) token subject jwk algorithm

section Tokens

variable {d : Deployment} {v : Registry} {h : List Event} {pid : Nat} {parts : Parts} {subject : Subject}
  {issuer : String} {audience : Option String}

lemma Verified.taken (hv : Verified d v h pid parts subject) (hid : d.identity = some (.jwks issuer audience))
    (hj : Site.Justified (Justifies d v) h) : TokenTaken d v.jwks h pid issuer audience parts subject := by
  obtain ⟨provider, token, hprovider, htoken, g, hg, hlen, now, haccepts⟩ := hv
  cases hid.symm.trans hprovider
  rw [jwks_replay (hj.of_prefix hg)] at haccepts
  obtain ⟨jwk, hm, algorithm, htaken⟩ := accepts_taken haccepts
  exact ⟨token, g, jwk, algorithm, htoken, hg, hlen, hm, htaken⟩

/-- Where a customer comes from. -/
lemma customer_effect {t : Stmt} {r r' : Registry} {returned : Returned} (h : t.effect r = .ok (returned, r'))
    {x : CustomerRow} (hx : x ∈ r'.customers.rows) :
    (∃ x₀ ∈ r.customers.rows, holder x₀ = holder x) ∨
      ∃ new issuer subject email, t = .upsertCustomer new issuer subject email ∧ holder x = (issuer, subject) := by
  have hframe := effect_framed h
  cases t with
  | upsertCustomer new issuer subject email =>
    rcases upsertCustomer_ok h with ⟨-, -, -, -, f, rfl⟩ | ⟨customers, -, hi, rfl⟩
    · obtain ⟨x₀, hx₀, rfl⟩ := Indexed.mem_amend.mp hx
      refine .inl ⟨x₀, hx₀, ?_⟩
      split
      · exact (f.idx_set x₀).symm
      · rfl
    · rw [(insertInto_eq_ok hi).2.2] at hx
      rcases List.mem_append.mp hx with hx | hx
      · exact .inl ⟨x, hx, rfl⟩
      · rw [List.mem_singleton.mp hx]
        exact .inr ⟨new, issuer, subject, email, rfl, rfl⟩
  | _ =>
    simp only [Framed] at hframe
    rw [hframe] at hx
    exact .inl ⟨x, hx, rfl⟩

lemma signIn_warranted {i : Request} {m : List (Stmt × Outcome)} {new : Uuid} {iss sub : String}
    {email : Option String}
    (hw : Warrant d v h pid i m (.upsertCustomer new iss sub email)) :
    ∃ parts, signed i = some parts ∧ Verified d v h pid parts ⟨iss, sub, email⟩ := by
  cases hw with
  | change _ hp => cases hp
  | signIn hi hs =>
    obtain ⟨subject, new, hv, ht⟩ := hs
    cases ht
    exact ⟨_, hi, hv⟩

end Tokens

/-- Who connects to the identity provider starts with what it published, and a key in it. -/
lemma connect_eq_ok {jwksUrl : String} {fetched : Except String JwkSet} {keys : JwkSet} :
    connect jwksUrl fetched = .ok keys ↔ fetched = .ok keys ∧ keys ≠ [] := by
  cases fetched with
  | error e => simp [connect]
  | ok set =>
    cases set with
    | nil =>
      simp only [connect, List.isEmpty_nil, if_true, reduceCtorEq, Except.ok.injEq, false_iff, not_and, ne_eq,
        Decidable.not_not]
      exact Eq.symm
    | cons jwk rest =>
      simp only [connect, List.isEmpty_cons, Bool.false_eq_true, if_false, Except.ok.injEq, iff_self_and]
      rintro rfl
      exact List.cons_ne_nil _ _

/-- The key set in force is the last one stored, by a refresh that fetched it with a key in it; until then,
the one from boot. It is never empty after a boot that has connected. -/
theorem keys_in_force_are_published {d : Deployment} {s : Desk} {c : Conf}
    (hc : (site d).Reachable (Site.init s) c) :
    c.store.registry.jwks = keysInForce s.registry.jwks c.trace ∧
      (∀ g pid i keys o, g ++ [.commit pid i (.storeKeys keys) o] <+: c.trace →
        keys ≠ [] ∧ i = .refreshJwks ∧ .call pid i .fetchJwks (.fetched (.ok keys)) ∈ g) ∧
      (s.registry.jwks ≠ [] → c.store.registry.jwks ≠ []) ∧
      ∀ jwksUrl fetched, connect jwksUrl fetched = .ok s.registry.jwks →
        fetched = .ok s.registry.jwks ∧ c.store.registry.jwks ≠ [] := by
  obtain ⟨hshow, hj⟩ := recorded hc
  have hstored : ∀ g pid i keys o, g ++ [.commit pid i (.storeKeys keys) o] <+: c.trace →
      keys ≠ [] ∧ i = .refreshJwks ∧ .call pid i .fetchJwks (.fetched (.ok keys)) ∈ g := by
    intro g pid i keys o hp
    have hw := (hj g _ hp).1
    generalize Site.made pid g = m at hw
    cases hw with
    | storeKeys hk hf => exact ⟨hk, rfl, hf⟩
    | change _ hperformed => cases hperformed
    | signIn _ hs =>
      obtain ⟨subject, new, -, ht⟩ := hs
      cases ht
  have hkeys : c.store.registry.jwks = keysInForce s.registry.jwks c.trace := by rw [hshow, jwks_replay hj]; rfl
  have hkept : s.registry.jwks ≠ [] → c.store.registry.jwks ≠ [] := fun hne => ?_
  · exact ⟨hkeys, hstored, hkept, fun jwksUrl fetched hboot => (connect_eq_ok.mp hboot).imp_right hkept⟩
  rw [hkeys]
  unfold keysInForce
  cases hlast : (picked storedKeys c.trace).getLast? with
  | none => exact hne
  | some keys =>
    obtain ⟨ev, hev, hpick⟩ := List.mem_filterMap.mp (List.mem_of_getLast? hlast)
    obtain ⟨g, hg⟩ := Site.prefix_of_mem hev
    cases ev with
    | commit pid i t o =>
      cases o with
      | error e => cases hpick
      | ok returned =>
        cases t with
        | storeKeys keys' =>
          cases hpick
          exact (hstored g pid i _ _ hg).1
        | _ => cases hpick
    | _ => cases hpick

/-- What the identity provider publishes when it changes its key. -/
def rotatedKeys : JwkSet := [⟨some "l", some (.signature .es256), .ellipticCurve "P-256" "x" "y"⟩]

/-- Three refreshes: one that fails, one that finds nothing, one that finds the new key. -/
def refreshing : List (Act Request Reply (Option DbError) Nat) :=
  [.arrive .refreshJwks, .reply 0 (.fetched (.error "timeout")), .answer 0, .arrive .refreshJwks,
    .reply 3 (.fetched (.ok [])), .answer 3, .arrive .refreshJwks, .reply 6 (.fetched (.ok rotatedKeys)),
    .commit 6 none, .answer 6]

def refreshingTrace : List Event :=
  [.arrive 0 .refreshJwks, .call 0 .refreshJwks .fetchJwks (.fetched (.error "timeout")),
    .answer 0 .refreshJwks (.ok .done), .arrive 3 .refreshJwks,
    .call 3 .refreshJwks .fetchJwks (.fetched (.ok [])), .answer 3 .refreshJwks (.ok .done),
    .arrive 6 .refreshJwks, .call 6 .refreshJwks .fetchJwks (.fetched (.ok rotatedKeys)),
    .commit 6 .refreshJwks (.storeKeys rotatedKeys) (.ok (.rows 0)), .answer 6 .refreshJwks (.ok .done)]

lemma refreshing_runs : ((site office).exec (Site.init frontDesk) refreshing).map (fun c => c.trace) =
    some refreshingTrace := by decide

theorem keys_in_force_are_published_office : ∃ c : Conf, (site office).Reachable (Site.init frontDesk) c ∧
    keysInForce frontDesk.registry.jwks (c.trace.take 6) = frontDesk.registry.jwks ∧
    c.store.registry.jwks = rotatedKeys ∧ c.store.registry.jwks ≠ [] := by
  obtain ⟨c, hc, htrace⟩ := Site.reachable_of_exec_map refreshing_runs
  obtain ⟨hforce, -, -, hboot⟩ := keys_in_force_are_published hc
  have hconnected : connect "https://idp/keys" (.ok frontDesk.registry.jwks) = .ok frontDesk.registry.jwks := by
    decide
  refine ⟨c, hc, ?_, ?_, (hboot _ _ hconnected).2⟩
  · rw [htrace]
    rfl
  · rw [hforce, htrace]
    rfl

/-- Under the JWKS adapter nobody becomes a customer or is let in as staff but by a token, of that very
request, that a key in force vouches for: the key the token names, by the algorithm the key names, or
one of its family where it names none. -/
theorem callers_are_vouched_for {d : Deployment} {s : Desk} {c : Conf} {issuer : String} {audience : Option String}
    (hc : (site d).Reachable (Site.init s) c) (hid : d.identity = some (.jwks issuer audience)) :
    (∀ x ∈ c.store.registry.customers.rows, (∃ x₀ ∈ s.registry.customers.rows, holder x₀ = holder x) ∨
      ∃ g pid i new returned parts subject, holder x = (subject.issuer, subject.subject) ∧
        g ++ [.commit pid i (.upsertCustomer new subject.issuer subject.subject subject.email) (.ok returned)] <+:
          c.trace ∧ signed i = some parts ∧ TokenTaken d s.registry.jwks g pid issuer audience parts subject) ∧
      ∀ g pid e parts member, g ++ [.answer pid (.guarded e parts) (.ok (.admitted (.staff member)))] <+: c.trace →
        ∃ subject, TokenTaken d s.registry.jwks g pid issuer audience parts subject ∧
          During s.registry g pid (StaffHolds subject member) := by
  obtain ⟨hshow, hj⟩ := recorded hc
  refine ⟨?_, fun g pid e parts member hp => ?_⟩
  · rw [hshow]
    refine Site.prefix_induction (h := c.trace)
      (M := fun h => ∀ x ∈ (Site.replay registryStep s.registry h).customers.rows,
      (∃ x₀ ∈ s.registry.customers.rows, holder x₀ = holder x) ∨ ∃ g pid i new returned parts subject,
        holder x = (subject.issuer, subject.subject) ∧
        g ++ [.commit pid i (.upsertCustomer new subject.issuer subject.subject subject.email) (.ok returned)] <+:
          c.trace ∧ signed i = some parts ∧ TokenTaken d s.registry.jwks g pid issuer audience parts subject)
            (fun x hx => .inl ⟨x, hx, rfl⟩) ?_
    intro g ev hp ih x hx
    have hg := (List.prefix_append g _).trans hp
    cases ev with
    | commit pid i t outcome =>
      cases outcome with
      | error e => exact ih x (by rwa [Site.replay_commit] at hx)
      | ok returned =>
        rcases customer_effect (commit_effect hj hp) hx with ⟨x₀, hx₀, hholder⟩ |
          ⟨new, iss, sub, email, rfl, hholder⟩
        · rw [← hholder]
          exact ih x₀ hx₀
        · obtain ⟨parts, hsigned, hv⟩ := signIn_warranted (hj g _ hp).1
          exact .inr ⟨g, pid, i, new, returned, parts, _, hholder, hp, hsigned, hv.taken hid (hj.of_prefix hg)⟩
    | _ => exact ih x (by rwa [Site.replay_quiet (fun _ _ _ _ he => by cases he)] at hx)
  · have hg := (List.prefix_append g _).trans hp
    have he : Entitled d s.registry g pid (.guarded e parts) (Site.made pid g)
      (.admitted (.staff member)) := hj g _ hp
    generalize Site.made pid g = m at he
    cases he with
    | performed _ hp => cases hp
    | admitted ha =>
      cases ha with
      | staff _ hs _ =>
        obtain ⟨subject, hv, hd⟩ := hs
        exact ⟨subject, hv.taken hid (hj.of_prefix hg), hd⟩

theorem callers_are_vouched_for_office : ∃ g pid i new returned parts subject,
    ("idp", "bob") = (subject.issuer, subject.subject) ∧
      g ++ [.commit pid i (.upsertCustomer new subject.issuer subject.subject subject.email) (.ok returned)] <+:
        claimingTrace ∧
      signed i = some parts ∧ TokenTaken office frontDesk.registry.jwks g pid "idp" none parts subject := by
  obtain ⟨c, hc, hends⟩ := Site.reachable_of_exec_map claiming_runs
  obtain ⟨htrace, hrows⟩ := Prod.mk.inj hends
  have hholders := (Prod.mk.inj hrows).2
  have hm : (("idp", "bob") : Person) ∈ c.store.registry.customers.rows.map holder := by
    rw [hholders]
    exact List.mem_singleton.mpr rfl
  obtain ⟨x, hx, hholder⟩ := List.mem_map.mp hm
  have hvouched := (callers_are_vouched_for hc rfl).1 x hx
  rw [htrace, hholder] at hvouched
  rcases hvouched with ⟨x₀, hx₀, -⟩ | htaken
  · cases hx₀
  · exact htaken

end Lulan.Access.Proofs
