import Lulan.Proofs.Access

/-!
# Orders and their owners

An order is claimed at most once, with its retrieval token and by a verified customer, and keeps the
owner it has got. Whoever is shown an order without its token or an API key is that owner.
-/

namespace Lulan.Access.Proofs

open Lulan Lib

section Statements

variable {r r' : Registry} {t : Stmt} {returned : Returned} {orderId customerId : Uuid} {n : Nat}

/-- A claim that affects a row finds the order without an owner, and gives it one. -/
lemma claim_effect (h : (Stmt.claimOrder orderId customerId).effect r = .ok (.rows n, r')) (hn : n ≠ 0) :
    (∃ o ∈ r.orders.rows, o.id = orderId ∧ o.customerId = none) ∧
      ∃ o ∈ r'.orders.rows, o.id = orderId ∧ o.customerId = some customerId := by
  obtain ⟨hret, f, hf, rfl⟩ := claimOrder_ok h
  cases hret
  obtain ⟨o, ho, hp⟩ := affected_pos hn
  have hp' := hp
  simp only [Registry.unowned, Bool.and_eq_true, decide_eq_true_eq] at hp'
  refine ⟨⟨o, ho, hp'⟩, ?_⟩
  refine ⟨_, List.mem_map.mpr ⟨o, ho, rfl⟩, ?_⟩
  rw [hp, if_pos rfl, hf]
  exact ⟨hp'.1, rfl⟩

/-- Where an owner comes from. -/
lemma owner_effect (h : t.effect r = .ok (returned, r')) {o : OwnedOrderRow} (ho : o ∈ r'.orders.rows)
    (hown : o.customerId = some customerId) :
    (∃ o₀ ∈ r.orders.rows, o₀.id = o.id ∧ o₀.customerId = some customerId) ∨ t = .book o ∨
      ∃ n, t = .claimOrder o.id customerId ∧ returned = .rows n ∧ n ≠ 0 := by
  have hframe := effect_framed h
  cases t with
  | book row =>
    obtain ⟨orders, hi, rfl⟩ := book_ok h
    rw [(Table.insert_eq_some.mp hi).2] at ho
    rcases List.mem_append.mp ho with ho | ho
    · exact .inl ⟨o, ho, rfl, hown⟩
    · rw [List.mem_singleton.mp ho]
      exact .inr (.inl rfl)
  | setStatus orderId status =>
    cases h
    obtain ⟨o₀, ho₀, rfl⟩ := List.mem_map.mp ho
    refine .inl ⟨o₀, ho₀, ?_⟩
    revert hown
    split
    · exact fun hown => ⟨rfl, hown⟩
    · exact fun hown => ⟨rfl, hown⟩
  | claimOrder orderId customerId' =>
    obtain ⟨rfl, f, hf, rfl⟩ := claimOrder_ok h
    obtain ⟨o₀, ho₀, rfl⟩ := List.mem_map.mp ho
    cases hp : Registry.unowned orderId o₀ with
    | false =>
      simp only [hp] at hown ⊢
      exact .inl ⟨o₀, ho₀, rfl, hown⟩
    | true =>
      simp only [hp, if_pos, hf] at hown ⊢
      cases hown
      simp only [Registry.unowned, Bool.and_eq_true, decide_eq_true_eq] at hp
      refine .inr (.inr ⟨_, by rw [hp.1], rfl, ?_⟩)
      have hpos : 0 < r.orders.affected (Registry.unowned orderId) :=
        List.countP_pos_iff.mpr ⟨o₀, ho₀, by simp [Registry.unowned, hp]⟩
      exact hpos.ne'
  | _ =>
    simp only [Framed] at hframe
    rw [hframe] at ho
    exact .inl ⟨o, ho, rfl, hown⟩

/-- Who signs in is a customer from then on. -/
lemma signIn_effect {new id : Uuid} {issuer subject : String} {email : Option String}
    (h : (Stmt.upsertCustomer new issuer subject email).effect r = .ok (.returning id, r')) :
    ∃ x ∈ r'.customers.rows, holder x = (issuer, subject) ∧ x.id = id := by
  rcases upsertCustomer_ok h with ⟨x, hx, hholder, hret, f, rfl⟩ | ⟨customers, hret, hi, rfl⟩
  · cases hret
    exact Indexed.amend_keeps (fun y _ hy => ⟨(f.idx_set y).trans hy.1, (f.key_set y).trans hy.2⟩)
      ⟨x, hx, hholder, rfl⟩
  · cases hret
    refine ⟨⟨new, issuer, subject, email⟩, ?_, rfl, rfl⟩
    rw [(insertInto_eq_ok hi).2.2]
    exact List.mem_append_right _ (List.mem_singleton.mpr rfl)

end Statements

section Histories

variable {d : Deployment} {v : Registry} {g h : List Event} {pid : Nat} {parts : Parts}
  {orderId customerId : Uuid} {person : Person}

lemma owner_stays (hj : Site.Justified (Justifies d v) h) (hg : g <+: h)
    (ho : ∃ o ∈ (Site.replay registryStep v g).orders.rows, o.id = orderId ∧ o.customerId = some customerId) :
    ∃ o ∈ (Site.replay registryStep v h).orders.rows, o.id = orderId ∧ o.customerId = some customerId :=
  Kept.carries (Q := fun r => ∃ o ∈ r.orders.rows, o.id = orderId ∧ o.customerId = some customerId)
    (fun _ _ _ _ _ _ _ _ he => owner_keeps he) hj hg ho

lemma customer_stays (hj : Site.Justified (Justifies d v) h) (hg : g <+: h)
    (hx : ∃ x ∈ (Site.replay registryStep v g).customers.rows, holder x = person ∧ x.id = customerId) :
    ∃ x ∈ (Site.replay registryStep v h).customers.rows, holder x = person ∧ x.id = customerId :=
  Kept.carries (Q := fun r => ∃ x ∈ r.customers.rows, holder x = person ∧ x.id = customerId)
    (fun _ _ _ _ _ _ _ _ he => customers_keep he) hj hg hx

/-- The request is that of the customer of that identifier. -/
def CustomerBacked (d : Deployment) (v : Registry) (h : List Event) (pid : Nat) (parts : Parts)
    (customerId : Uuid) :
    Prop :=
  ∃ subject, Verified d v h pid parts subject ∧
    ∃ x ∈ (Site.replay registryStep v h).customers.rows, holder x = (subject.issuer, subject.subject) ∧
      x.id = customerId

lemma CustomerBacked.mono (hb : CustomerBacked d v g pid parts customerId) (hj : Site.Justified (Justifies d v) h)
    (hg : g <+: h) : CustomerBacked d v h pid parts customerId := by
  obtain ⟨subject, hv, hx⟩ := hb
  exact ⟨subject, hv.mono hg, customer_stays hj hg hx⟩

lemma SignedIn.backed {t : Stmt} (hs : SignedIn d v h pid parts t) (hj : Site.Justified (Justifies d v) h)
    (hm : (t, .ok (.returning customerId)) ∈ Site.made pid h) : CustomerBacked d v h pid parts customerId := by
  obtain ⟨subject, new, hv, rfl⟩ := hs
  obtain ⟨i, hmem⟩ := Site.mem_made.mp hm
  obtain ⟨g, hg⟩ := Site.prefix_of_mem hmem
  exact ⟨subject, hv, customer_stays hj hg (signIn_effect (commit_effect hj hg))⟩

lemma Verified.customer {subject : Subject} (hv : Verified d v h pid parts subject)
    (hx : During v h pid (fun r => ∃ x ∈ r.customers.rows, holder x = (subject.issuer, subject.subject) ∧
      x.id = customerId)) (hj : Site.Justified (Justifies d v) h) : CustomerBacked d v h pid parts customerId := by
  obtain ⟨g, hg, -, hx⟩ := hx
  exact ⟨subject, hv, customer_stays hj hg hx⟩

lemma OwnerBacked.customer (ho : OwnerBacked d v h pid parts orderId) (hj : Site.Justified (Justifies d v) h) :
    ∃ customerId, CustomerBacked d v h pid parts customerId ∧
      ∃ o ∈ (Site.replay registryStep v h).orders.rows, o.id = orderId ∧ o.customerId = some customerId := by
  obtain ⟨subject, customerId, hv, hx, ho⟩ := ho
  obtain ⟨g, hg, -, ho⟩ := ho
  exact ⟨customerId, hv.customer hx hj, owner_stays hj hg ho⟩

/-- A claim of the order, with its retrieval token and by a verified customer. -/
def Claimed (d : Deployment) (v : Registry) (h : List Event) (pid : Nat) (i : Request)
    (orderId customerId : Uuid) :
    Prop :=
  ∃ parts token, i = .claimOrder parts orderId token ∧
    Tokens.verifyRetrievalToken d.crates d.quoteSecret orderId token = true ∧
    CustomerBacked d v h pid parts customerId

lemma claim_warranted {i : Request} {m : List (Stmt × Outcome)} (hj : Site.Justified (Justifies d v) h)
    (hm : Site.made pid h = m) (hw : Warrant d v h pid i m (.claimOrder orderId customerId)) :
    Claimed d v h pid i orderId customerId := by
  cases hw with
  | claim hs ht => exact ⟨_, _, rfl, ht, hs.backed hj (by rw [hm]; exact List.mem_singleton.mpr rfl)⟩
  | change _ hp => cases hp
  | signIn _ hs =>
    obtain ⟨subject, new, -, ht⟩ := hs
    cases ht

/-- Whose booking it was. -/
lemma book_warranted {i : Request} {m : List (Stmt × Outcome)} {row : OwnedOrderRow}
    (hj : Site.Justified (Justifies d v) h) (hm : Site.made pid h = m) (hown : row.customerId = some customerId)
    (hw : Warrant d v h pid i m (.book row)) :
    ∃ parts contact booked, i = .placeOrder parts contact booked ∧ booked.id = row.id ∧
      CustomerBacked d v h pid parts customerId := by
  cases hw with
  | bookOwned hs =>
    cases hown
    exact ⟨_, _, _, rfl, rfl, hs.backed hj (by rw [hm]; exact List.mem_singleton.mpr rfl)⟩
  | bookGuest hc => cases hown
  | change _ hp => cases hp
  | signIn _ hs =>
    obtain ⟨subject, new, -, ht⟩ := hs
    cases ht

/-- The claim that gave the order to the customer, in the history. -/
structure WasClaimed (d : Deployment) (v : Registry) (h : List Event) (orderId customerId : Uuid) (g : List Event)
    (pid : Nat) (i : Request) (n : Nat) : Prop where
  committed : g ++ [.commit pid i (.claimOrder orderId customerId) (.ok (.rows n))] <+: h
  given : n ≠ 0
  claimed : Claimed d v g pid i orderId customerId

/-- The booking of the order by the customer, in the history. -/
structure WasBooked (d : Deployment) (v : Registry) (h : List Event) (orderId customerId : Uuid) (g : List Event)
    (pid : Nat) (i : Request) (row : OwnedOrderRow) (returned : Returned) : Prop where
  committed : g ++ [.commit pid i (.book row) (.ok returned)] <+: h
  order : row.id = orderId
  owner : row.customerId = some customerId
  placed : ∃ parts contact booked, i = .placeOrder parts contact booked ∧ booked.id = orderId ∧
    CustomerBacked d v g pid parts customerId

/-- The order has become the customer's in the course of the history. -/
def Acquired (d : Deployment) (v : Registry) (h : List Event) (orderId customerId : Uuid) : Prop :=
  ∃ g pid i, (∃ n, WasClaimed d v h orderId customerId g pid i n) ∨
    ∃ row returned, WasBooked d v h orderId customerId g pid i row returned

end Histories

/-- An order is claimed at most once: the one claim that succeeds found it without an owner, had its
retrieval token, and the customer who made it owns the order from then on. -/
theorem orders_are_claimed_once {d : Deployment} {s : Desk} {c : Conf} {g : List Event} {pid n : Nat} {i : Request}
    {orderId customerId : Uuid} (hc : (site d).Reachable (Site.init s) c)
    (hp : g ++ [.commit pid i (.claimOrder orderId customerId) (.ok (.rows n))] <+: c.trace) (hn : n ≠ 0) :
    Claimed d s.registry g pid i orderId customerId ∧
      (∃ o ∈ (Site.replay registryStep s.registry g).orders.rows, o.id = orderId ∧ o.customerId = none) ∧
      (∃ o ∈ c.store.registry.orders.rows, o.id = orderId ∧ o.customerId = some customerId) ∧
      ∀ g' pid' i' customerId' n', n' ≠ 0 →
        g' ++ [.commit pid' i' (.claimOrder orderId customerId') (.ok (.rows n'))] <+: c.trace → g' = g := by
  obtain ⟨hshow, hj⟩ := recorded hc
  have hext := (List.prefix_append g _).trans hp
  -- two claims that succeed are in conflict: the first gives the order away, the second finds it free
  have hsingle : ∀ {g₁ g₂ : List Event} {p₁ p₂ i₁ i₂ c₁ c₂ n₁ n₂}, n₁ ≠ 0 → n₂ ≠ 0 →
      g₁ ++ [.commit p₁ i₁ (.claimOrder orderId c₁) (.ok (.rows n₁))] <+: g₂ →
      g₂ ++ [.commit p₂ i₂ (.claimOrder orderId c₂) (.ok (.rows n₂))] <+: c.trace → False := by
    intro g₁ g₂ p₁ p₂ i₁ i₂ c₁ c₂ n₁ n₂ hn₁ hn₂ hp₁ hp₂
    have hg₂ := (List.prefix_append g₂ _).trans hp₂
    obtain ⟨o, ho, hid, hown⟩ := owner_stays (hj.of_prefix hg₂) hp₁
      (claim_effect (commit_effect hj (hp₁.trans hg₂)) hn₁).2
    obtain ⟨o', ho', hid', hnone⟩ := (claim_effect (commit_effect hj hp₂) hn₂).1
    have he : o = o' := List.inj_on_of_nodup_map (Table.nodup _) ho ho' (hid.trans hid'.symm)
    rw [he, hnone] at hown
    cases hown
  refine ⟨claim_warranted (hj.of_prefix hext) rfl (hj g _ hp).1, ?_, ?_,
    fun g' pid' i' customerId' n' hn' hp' => ?_⟩
  · exact (claim_effect (commit_effect hj hp) hn).1
  · rw [hshow]
    exact owner_stays hj hp (claim_effect (commit_effect hj hp) hn).2
  · rcases Site.prefix_cases hp hp' with he | hlt | hgt
    · exact he.symm
    · exact (hsingle hn hn' hlt hp').elim
    · exact (hsingle hn' hn hgt hp).elim

/-- A customer claims the order of a guest, and looks at it. -/
def claiming : List (Act Request Reply (Option DbError) Nat) :=
  [.arrive (.claimOrder (withToken "bob") 7 "AA"), .peek 0, .peek 0, .reply 0 (.uuid 50), .commit 0 none,
    .commit 0 none, .answer 0, .arrive (.getOrder (withToken "bob") 7 none), .peek 5, .peek 5, .read 5 true,
    .read 5 true, .read 5 true, .answer 5, .arrive (.myOrders (withToken "bob")), .peek 7, .peek 7,
    .reply 7 (.uuid 51),
    .commit 7 none, .read 7 true, .answer 7]

def claimedOrder : OwnedOrderRow := ⟨7, some 50, "confirmed", 100, "PHP", 0, [1]⟩

def claimingTrace : List Event :=
  [.arrive 0 (.claimOrder (withToken "bob") 7 "AA"),
    .call 0 (.claimOrder (withToken "bob") 7 "AA") .newUuid (.uuid 50),
    .commit 0 (.claimOrder (withToken "bob") 7 "AA") (.upsertCustomer 50 "idp" "bob" none) (.ok (.returning 50)),
    .commit 0 (.claimOrder (withToken "bob") 7 "AA") (.claimOrder 7 50) (.ok (.rows 1)),
    .answer 0 (.claimOrder (withToken "bob") 7 "AA") (.ok (.claimed 7 50)),
    .arrive 5 (.getOrder (withToken "bob") 7 none),
    .answer 5 (.getOrder (withToken "bob") 7 none) (.ok (.order claimedOrder)),
    .arrive 7 (.myOrders (withToken "bob")), .call 7 (.myOrders (withToken "bob")) .newUuid (.uuid 51),
    .commit 7 (.myOrders (withToken "bob")) (.upsertCustomer 51 "idp" "bob" none) (.ok (.returning 50)),
    .answer 7 (.myOrders (withToken "bob")) (.ok (.orders [claimedOrder]))]

lemma claiming_runs : ((site office).exec (Site.init frontDesk) claiming).map (fun c =>
    (c.trace, c.store.registry.orders.rows, c.store.registry.customers.rows.map holder)) =
      some (claimingTrace, [claimedOrder], [("idp", "bob")]) := by decide

theorem orders_are_claimed_once_office :
    Claimed office frontDesk.registry (claimingTrace.take 3) 0 (.claimOrder (withToken "bob") 7 "AA") 7 50 := by
  obtain ⟨c, hc, hends⟩ := Site.reachable_of_exec_map claiming_runs
  obtain ⟨htrace, -⟩ := Prod.mk.inj hends
  refine (orders_are_claimed_once (n := 1) hc ?_ (by decide)).1
  rw [htrace]
  exact ⟨claimingTrace.drop 4, rfl⟩

/-- Every owner of an order has been its owner from the start, or is the one for whom it was booked or by
whom it was claimed in the course of the run, as a verified customer. -/
theorem owners_are_verified {d : Deployment} {s : Desk} {c : Conf} {o : OwnedOrderRow} {customerId : Uuid}
    (hc : (site d).Reachable (Site.init s) c) (ho : o ∈ c.store.registry.orders.rows)
    (hown : o.customerId = some customerId) :
    (∃ o₀ ∈ s.registry.orders.rows, o₀.id = o.id ∧ o₀.customerId = some customerId) ∨
      Acquired d s.registry c.trace o.id customerId := by
  obtain ⟨hshow, hj⟩ := recorded hc
  rw [hshow] at ho
  revert o
  -- along the history, every step accounts for the owners it makes
  refine Site.prefix_induction (h := c.trace)
    (M := fun h => ∀ {o}, o ∈ (Site.replay registryStep s.registry h).orders.rows →
      o.customerId = some customerId →
      (∃ o₀ ∈ s.registry.orders.rows, o₀.id = o.id ∧ o₀.customerId = some customerId) ∨
      Acquired d s.registry c.trace o.id customerId) (fun ho hown => .inl ⟨_, ho, rfl, hown⟩) ?_
  intro g ev hp ih o ho hown
  have hg := (List.prefix_append g _).trans hp
  cases ev with
  | commit pid i t outcome =>
    cases outcome with
    | error e => exact ih (by rwa [Site.replay_commit] at ho) hown
    | ok returned =>
      have hj' := hj.of_prefix hg
      rcases owner_effect (commit_effect hj hp) ho hown with ⟨o₀, ho₀, hid, hown₀⟩ | rfl | ⟨n, rfl, rfl, hn⟩
      · rw [← hid]
        exact ih ho₀ hown₀
      · exact .inr ⟨g, pid, i, .inr ⟨o, returned, hp, rfl, hown, book_warranted hj' rfl hown (hj g _ hp).1⟩⟩
      · exact .inr ⟨g, pid, i, .inl ⟨n, hp, hn, claim_warranted hj' rfl (hj g _ hp).1⟩⟩
  | _ => exact ih (by rwa [Site.replay_quiet (fun _ _ _ _ he => by cases he)] at ho) hown

theorem owners_are_verified_office : Acquired office frontDesk.registry claimingTrace 7 50 := by
  obtain ⟨c, hc, hends⟩ := Site.reachable_of_exec_map claiming_runs
  obtain ⟨htrace, hrows⟩ := Prod.mk.inj hends
  have hrow : claimedOrder ∈ c.store.registry.orders.rows := by
    rw [(Prod.mk.inj hrows).1]
    exact List.mem_singleton.mpr rfl
  have howner := owners_are_verified hc hrow rfl
  rw [htrace] at howner
  refine howner.resolve_left ?_
  rintro ⟨o₀, ho₀, -, hown⟩
  rw [List.mem_singleton.mp ho₀] at hown
  cases hown

/-- Whoever sees an order, or may pay or cancel it, has shown its retrieval token or an API key, or owns it for
good. -/
theorem orders_open_to_their_own {d : Deployment} {s : Desk} {c : Conf} {g : List Event} {pid : Nat} {i : Request}
    {parts : Parts} {orderId : Uuid} {token : Option String} {a : Response}
    (hc : (site d).Reachable (Site.init s) c)
    (hi : i = .getOrder parts orderId token ∨ i = .accessOrder parts orderId token)
    (hp : g ++ [.answer pid i (.ok a)] <+: c.trace) :
    (∃ secret, token = some secret ∧ Tokens.verifyRetrievalToken d.crates d.quoteSecret orderId secret = true) ∨
      (∃ auth, KeyBacked d s.registry g pid parts.rawKey auth) ∨
      ∃ customerId, CustomerBacked d s.registry c.trace pid parts customerId ∧
        ∃ o ∈ c.store.registry.orders.rows, o.id = orderId ∧ o.customerId = some customerId := by
  obtain ⟨hshow, hj⟩ := recorded hc
  have hg := (List.prefix_append g _).trans hp
  have haccess : MayAccess d s.registry g pid parts orderId token := by
    have he : Entitled d s.registry g pid i (Site.made pid g) a := hj g _ hp
    generalize Site.made pid g = m at he
    rcases hi with rfl | rfl
    · cases he with
      | performed _ hp => cases hp
      | order ha _ => exact ha
    · cases he with
      | performed _ hp => cases hp
      | accessed ha => exact ha
  cases haccess with
  | token ht => exact .inl ⟨_, rfl, ht⟩
  | key hk => exact .inr (.inl ⟨_, hk⟩)
  | owner ho =>
    obtain ⟨customerId, hb, howned⟩ := ho.customer (hj.of_prefix hg)
    refine .inr (.inr ⟨customerId, hb.mono hj hg, ?_⟩)
    rw [hshow]
    exact owner_stays hj hg howned

theorem orders_open_to_their_own_office :
    (∃ secret, (none : Option String) = some secret ∧
      Tokens.verifyRetrievalToken office.crates office.quoteSecret 7 secret = true) ∨
      (∃ auth, KeyBacked office frontDesk.registry (claimingTrace.take 6) 5 (withToken "bob").rawKey auth) ∨
      ∃ customerId, CustomerBacked office frontDesk.registry claimingTrace 5 (withToken "bob") customerId ∧
        ∃ o ∈ [claimedOrder], o.id = 7 ∧ o.customerId = some customerId := by
  obtain ⟨c, hc, hends⟩ := Site.reachable_of_exec_map claiming_runs
  obtain ⟨htrace, hrows⟩ := Prod.mk.inj hends
  rw [← htrace, ← (Prod.mk.inj hrows).1]
  refine orders_open_to_their_own (a := .order claimedOrder) hc (.inl rfl) ?_
  rw [htrace]
  exact ⟨claimingTrace.drop 7, rfl⟩

/-- The orders listed to a customer are the customer's own, for good, the newest first. -/
theorem listed_orders_are_own {d : Deployment} {s : Desk} {c : Conf} {g : List Event} {pid : Nat} {parts : Parts}
    {rows : List OwnedOrderRow} (hc : (site d).Reachable (Site.init s) c)
    (hp : g ++ [.answer pid (.myOrders parts) (.ok (.orders rows))] <+: c.trace) :
    rows.length ≤ 100 ∧ rows.Pairwise (fun a b => b.createdAt ≤ a.createdAt) ∧
      ∃ customerId, CustomerBacked d s.registry c.trace pid parts customerId ∧
        ∀ o ∈ rows, ∃ o' ∈ c.store.registry.orders.rows, o'.id = o.id ∧ o'.customerId = some customerId := by
  obtain ⟨hshow, hj⟩ := recorded hc
  have hg := (List.prefix_append g _).trans hp
  have he : Entitled d s.registry g pid (.myOrders parts) (Site.made pid g) (.orders rows) := hj g _ hp
  generalize hmade : Site.made pid g = m at he
  cases he with
  | performed _ hp => cases hp
  | @listed _ t customerId _ hs hd =>
    obtain ⟨g', hg', -, rfl⟩ := hd
    have hsorted : (newestFirst ((Site.replay registryStep s.registry g').orders.rows.filter
        (fun o => decide (o.customerId = some customerId)))).Pairwise (fun a b => b.createdAt ≤ a.createdAt) := by
      unfold newestFirst
      refine List.Pairwise.sublist (List.take_sublist _ _) ?_
      exact List.pairwise_insertionSort (r := fun a b : OwnedOrderRow => b.createdAt ≤ a.createdAt) _
    refine ⟨List.length_take_le _ _, hsorted, customerId, ?_, fun o ho => ?_⟩
    · exact (hs.backed (hj.of_prefix hg) (by rw [hmade]; exact List.mem_singleton.mpr rfl)).mono hj hg
    · have hmem := (List.mem_insertionSort _).mp (List.mem_of_mem_take ho)
      obtain ⟨ho', hown⟩ := List.mem_filter.mp hmem
      rw [hshow]
      exact owner_stays hj (hg'.trans hg) ⟨o, ho', rfl, of_decide_eq_true hown⟩

theorem listed_orders_are_own_office :
    ∃ customerId, CustomerBacked office frontDesk.registry claimingTrace 7 (withToken "bob") customerId ∧
      ∀ o ∈ [claimedOrder], ∃ o' ∈ [claimedOrder], o'.id = o.id ∧ o'.customerId = some customerId := by
  obtain ⟨c, hc, hends⟩ := Site.reachable_of_exec_map claiming_runs
  obtain ⟨htrace, hrows⟩ := Prod.mk.inj hends
  have hp : claimingTrace.take 10 ++ [.answer 7 (.myOrders (withToken "bob")) (.ok (.orders [claimedOrder]))] <+:
      c.trace := by
    rw [htrace]
    exact ⟨claimingTrace.drop 11, rfl⟩
  have hlisted := (listed_orders_are_own hc hp).2.2
  rwa [htrace, (Prod.mk.inj hrows).1] at hlisted

end Lulan.Access.Proofs
