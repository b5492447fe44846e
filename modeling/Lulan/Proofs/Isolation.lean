import Lulan.Lib.Answers
import Lulan.Proofs.Customers
import Lulan.Proofs.Fingerprint
import Lulan.Proofs.Retries

/-!
# Replayed responses stay with their caller

What is stored under a key is only ever answered to requests of the same caller under the same
key, in every run; and as long as losing reservations find the row they lost to, only to
requests that are equal.
-/

namespace Lulan.Proofs

open Lulan Lulan.Db Lib

section Rules

variable {app : AppState} {G : World → List Event → Event → Prop} {I : World → List Event → Prop}
  {pid : Nat} {i : Request} {h : List Event} {ε ε' α β : Type}

lemma shows_pure {R : List Event → Except ε α → Prop} {a : α} (hR : ∀ g, Site.Later pid h g → R g (.ok a)) :
    (site app).Shows G I pid i R (pure a : Io ε α) h := hR

lemma shows_throw {R : List Event → Except ε α → Prop} {e : ε} (hR : ∀ g, Site.Later pid h g → R g (.error e)) :
    (site app).Shows G I pid i R (throw e : Io ε α) h := hR

lemma shows_seq {R : List Event → Except ε α → Prop} {T : List Event → Except ε β → Prop} {x : Io ε α}
    {f : α → Io ε β} (hx : (site app).Shows G I pid i R x h)
    (hok : ∀ a g, R g (.ok a) → (site app).Shows G I pid i T (f a) g)
    (herr : ∀ e g, R g (.error e) → ∀ g', Site.Later pid g g' → T g' (.error e)) :
    (site app).Shows G I pid i T (x >>= f : Io ε β) h :=
  Site.shows_seq hx hok herr

lemma shows_query {R : List Event → Except ε α → Prop} {fail : DbError → ε} {f : World → Except ε α}
    (hfail : ∀ g, Site.Later pid h g → R g (.error (fail .connection)))
    (hf : ∀ w g, Site.Later pid h g → I w g → ∀ g', Site.Later pid g g' → R g' (f w)) :
    (site app).Shows G I pid i R (Io.query fail f) h :=
  fun w g hg hI => ⟨fun g' hg' => hfail g' (hg.trans hg'), hf w g hg hI⟩

lemma shows_transact {R : List Event → Except ε α → Prop} {fail : DbError → ε} {t : Tx} {f : TxResult → Option α}
    (ht : ∀ w s g, Site.Later pid h g → I s g → G s g (.commit pid i t (t.run w s).1) →
      ∀ g', Site.Later pid (g ++ [.commit pid i t (t.run w s).1]) g' → R g' (txResult fail f (t.run w s).1)) :
    (site app).Shows G I pid i R (Io.transact fail t f) h := by
  intro w s g hg hI hG
  have hR := ht w s g hg hI hG
  change (site app).Shows G I pid i R _ (g ++ [.commit pid i t (t.run w s).1])
  rw [show (site app).run t w s = t.run w s from rfl]
  -- whatever the statement returned
  revert hR
  generalize (t.run w s).1 = r
  intro hr
  cases r
  case failed e => exact hr
  all_goals
    simp only [txResult] at hr
    split at hr
    all_goals
      rename_i hf
      simp only [hf]
      exact hr

lemma shows_attempt {R : List Event → Except ε α → Prop} {T : List Event → Except ε' (Except ε α) → Prop}
    {x : Io ε α}
    (hx : (site app).Shows G I pid i R x h) (hR : ∀ r g, R g r → ∀ g', Site.Later pid g g' → T g' (.ok r)) :
    (site app).Shows G I pid i T (Io.attempt x : Io ε' (Except ε α)) h :=
  Site.shows_bind hx (fun r g hr => hR r g hr)

lemma shows_answer {R : List Event → Except ApiError α → Prop} {T : List Event → Answer → Prop}
    {f : α → Response} {x : Handler α} (hx : (site app).Shows G I pid i R x h)
    (hR : ∀ r g, R g r → ∀ g', Site.Later pid g g' → T g' (r.map f)) :
    (site app).Shows G I pid i T (x.answer f) h :=
  Site.shows_bind hx (fun r g hr => hR r g hr)

end Rules

section Sources

variable {app : AppState} {G : World → List Event → Event → Prop} {I : World → List Event → Prop}
  {scope key : String} {pid : Nat} {i : Request} {h h₀ : List Event} {subject : Option Subject}
  {header : Option String} {req : CreateOrderRequest} {Q : List Event → CreateOrderResponse → Prop}

/-- The request has committed the order, and stored the response for it under the key. -/
def SettledFor (scope key : String) (pid : Nat) (i : Request) (h : List Event)
    (body : CreateOrderResponse) : Prop :=
  ∃ order wired expiresAt orderId n,
    .commit pid i (.createOrder order wired expiresAt) (.created body.record) ∈ h ∧
      .commit pid i (.completeKey scope key orderId 201 body) (.rows n) ∈ h

lemma SettledFor.mono {body : CreateOrderResponse} (hs : SettledFor scope key pid i h body) (hp : h <+: h₀) :
    SettledFor scope key pid i h₀ body := by
  obtain ⟨order, wired, expiresAt, orderId, n, hb, hc⟩ := hs
  exact ⟨order, wired, expiresAt, orderId, n, hp.subset hb, hp.subset hc⟩

/-- What is known, by an invariant, of every response that a request under the key can be answered
with: of a completed row with its hash, and of what it has stored itself. -/
structure Vouches (app : AppState) (I : World → List Event → Prop) (scope key : String) (pid : Nat)
    (subject : Option Subject) (header : Option String) (req : CreateOrderRequest)
    (Q : List Event → CreateOrderResponse → Prop) : Prop where
  mono : ∀ {g g' body}, g <+: g' → Q g body → Q g' body
  row : ∀ {s g row code body}, I s g → s.db.idempotencyKeys.find? (scope, key) = some row →
    row.status = .completed → row.requestHash = app.requestHash req →
    Idempotency.storedResponse row = .ok (code, body) → Q g body
  own : ∀ {g body}, Under app scope key g pid (.createOrder subject header req) →
    SettledFor scope key pid (.createOrder subject header req) g body → Q g body

lemma replay_shows (hv : Vouches app I scope key pid subject header req Q) :
    (site app).Shows G I pid i (fun g r => ∀ code body, r = .ok (some (code, body)) → Q g body)
      (Idempotency.replayIfCompleted (some key) scope (app.requestHash req)) h := by
  unfold Idempotency.replayIfCompleted
  simp only
  refine shows_seq (R := OnOk (fun g found => ∀ row, found = some row → row.requestHash = app.requestHash req →
    ∀ code body, Idempotency.storedResponse row = .ok (code, body) → Q g body)) ?_ (fun found g hfound => ?_)
    (fun _ _ _ _ _ _ _ hr => by cases hr)
  · refine shows_query (fun _ _ => onOk_error) (fun w g hl hI g' hl' => onOk_ok.mpr ?_)
    intro row hrow hhash code body hstored
    obtain ⟨hrow, hst⟩ := Option.filter_eq_some_iff.mp hrow
    exact hv.mono hl'.extends (hv.row hI hrow (eq_of_beq hst) hhash hstored)
  · have hfound' := onOk_ok.mp hfound
    cases found with
    | none => exact shows_pure (fun _ _ _ _ hr => by cases hr)
    | some row =>
      simp only
      split
      · exact shows_throw (fun _ _ _ _ hr => by cases hr)
      · rename_i hhash
        cases hstored : Idempotency.storedResponse row with
        | error e => exact shows_throw (fun _ _ _ _ hr => by cases hr)
        | ok response =>
          refine shows_pure (fun g' hl code body hr => ?_)
          cases hr
          exact hv.mono hl.extends (hfound' row rfl (not_not.mp hhash) code body hstored)

lemma reserve_shows (hv : Vouches app I scope key pid subject header req Q) :
    (site app).Shows G I pid i (OnOk (fun g reserved => reserved = .held ⟨scope, key⟩ ∨
      ∃ code body, reserved = .replay code body ∧ Q g body))
      (Idempotency.reserve (some key) scope (app.requestHash req)) h := by
  unfold Idempotency.reserve
  simp only
  refine shows_seq (R := fun _ _ => True) (shows_transact (fun _ _ _ _ _ _ _ _ => trivial)) (fun n g _ => ?_)
    (fun _ _ _ _ _ => onOk_error)
  split
  · exact shows_pure (fun _ _ => onOk_ok.mpr (.inl rfl))
  · refine shows_seq (R := OnOk (fun g found => ∀ row, found = some row → row.status = .completed →
      row.requestHash = app.requestHash req →
      ∀ code body, Idempotency.storedResponse row = .ok (code, body) → Q g body)) ?_ (fun found g hfound => ?_)
      (fun _ _ _ _ _ => onOk_error)
    · refine shows_transact (fun w s g hl hI _ g' hl' found hf row hrow hst hhash code body hstored => ?_)
      subst hrow
      have hres := txResult_eq_ok hf
      have hfind : s.db.idempotencyKeys.find? (scope, key) = some row := by
        unfold Tx.run at hres
        cases hfail : w.fail with
        | some e =>
          rw [hfail] at hres
          cases hres
        | none =>
          rw [hfail] at hres
          exact Option.some.inj hres
      exact hv.mono ((List.prefix_append _ _).trans hl'.extends) (hv.row hI hfind hst hhash hstored)
    · have hfound' := onOk_ok.mp hfound
      cases found with
      | none => exact shows_pure (fun _ _ => onOk_ok.mpr (.inl rfl))
      | some row =>
        simp only
        split
        · exact shows_throw (fun _ _ => onOk_error)
        · rename_i hhash
          split
          · rename_i hst
            cases hstored : Idempotency.storedResponse row with
            | error e => exact shows_throw (fun _ _ => onOk_error)
            | ok response =>
              exact shows_pure (fun g' hl => onOk_ok.mpr (.inr ⟨response.1, response.2, rfl,
                hv.mono hl.extends (hfound' row rfl hst (not_not.mp hhash) response.1 response.2 hstored)⟩))
          · exact shows_throw (fun _ _ => onOk_error)

/-- The order has been committed by the request. -/
def Ordered (pid : Nat) (i : Request) (g : List Event) (record : OrderRecord) : Prop :=
  ∃ order wired expiresAt, .commit pid i (.createOrder order wired expiresAt) (.created record) ∈ g

lemma Ordered.mono {record : OrderRecord} (hp : Ordered pid i h record) (hh : h <+: h₀) :
    Ordered pid i h₀ record := by
  obtain ⟨order, wired, expiresAt, hm⟩ := hp
  exact ⟨order, wired, expiresAt, hh.subset hm⟩

lemma resolveTargets_shows {items : List NewOrderItem} :
    (site app).Shows G I pid i (OnOk (fun _ found => ∀ record, found ≠ .error (.created record)))
      (OrderStore.resolveTargets items) h := by
  induction items generalizing h with
  | nil => exact shows_pure (fun _ _ => onOk_ok.mpr (fun _ he => by cases he))
  | cons item rest ih =>
    unfold OrderStore.resolveTargets
    refine shows_seq (Site.shows_extending (List.prefix_refl h)) (fun target g _ => ?_)
      (fun _ _ _ _ _ => onOk_error)
    cases target with
    | none => exact shows_pure (fun _ _ => onOk_ok.mpr (fun _ he => by cases he))
    | some target =>
      refine shows_seq ih (fun found g' hfound => ?_) (fun _ _ _ _ _ => onOk_error)
      have hfound' := onOk_ok.mp hfound
      cases found with
      | error outcome =>
        exact shows_pure (fun _ _ => onOk_ok.mpr (fun record he => hfound' record (by cases he; rfl)))
      | ok targets => exact shows_pure (fun _ _ => onOk_ok.mpr (fun _ he => by cases he))

/-- What the store returns as created, it has committed. -/
lemma createStore_shows {order : NewOrder} :
    (site app).Shows G I pid i (OnOk (fun g o => ∀ record, o = .created record → Ordered pid i g record))
      (OrderStore.create order) h := by
  unfold OrderStore.create
  split
  · exact shows_pure (fun _ _ => onOk_ok.mpr (fun _ he => by cases he))
  · split
    · exact shows_pure (fun _ _ => onOk_ok.mpr (fun _ he => by cases he))
    · refine shows_seq resolveTargets_shows (fun found g hfound => ?_) (fun _ _ _ _ _ => onOk_error)
      have hfound' := onOk_ok.mp hfound
      cases found with
      | error outcome =>
        exact shows_pure (fun _ _ => onOk_ok.mpr (fun record he => absurd (by rw [he]) (hfound' record)))
      | ok targets =>
        simp only
        split
        · exact shows_pure (fun _ _ => onOk_ok.mpr (fun _ he => by cases he))
        · rename_i wired hw
          split
          · exact shows_pure (fun _ _ => onOk_ok.mpr (fun _ he => by cases he))
          · refine shows_seq (Site.shows_extending (List.prefix_refl g)) (fun now g₁ _ => ?_)
              (fun _ _ _ _ _ => onOk_error)
            refine shows_transact (fun w s g₂ hl hI _ g₃ hl' o ho record hrecord => ?_)
            have hres := txResult_eq_ok ho
            refine Ordered.mono ⟨order, wired, now + orderTtlMinutes * 60, ?_⟩ hl'.extends
            refine List.mem_append_right _ (List.mem_singleton.mpr ?_)
            rw [hrecord] at hres
            cases hr : ((Tx.createOrder order wired (now + orderTtlMinutes * 60)).run w s).1 <;>
              rw [hr] at hres <;>
              cases hres
            rfl

/-- What the reservation window answers with, the request has stored. -/
lemma book_shows {order : NewOrder} {holdId : Option Uuid}
    (hv : Vouches app I scope key pid subject header req Q)
    (hu : Under app scope key h pid (.createOrder subject header req)) :
    (site app).Shows G I pid (.createOrder subject header req) (OnOk (fun g answer => Q g answer.2))
      (Orders.book app (some ⟨scope, key⟩) order holdId) h := by
  have hback {e : ApiError} {g : List Event} : (site app).Shows G I pid (.createOrder subject header req)
      (OnOk (fun g answer => Q g answer.2))
      (Orders.giveBack (some ⟨scope, key⟩) >>= fun _ => throw e : Handler (Nat × CreateOrderResponse)) g :=
    shows_seq (Site.shows_extending (List.prefix_refl g)) (fun _ _ _ => shows_throw (fun _ _ => onOk_error))
      (fun _ _ _ _ _ => onOk_error)
  unfold Orders.book
  refine shows_seq (shows_attempt (T := fun g o => ∀ record, o = .ok (.ok (.created record)) →
    h <+: g ∧ Ordered pid (.createOrder subject header req) g record)
    (createStore_shows.and (Site.shows_extending (List.prefix_refl h)))
    (fun r g hr g' hl record he => ?_)) (fun o g ho => ?_) (fun _ _ _ _ _ => onOk_error)
  · cases he
    exact ⟨hr.2.trans hl.extends, (hr.1 _ rfl record rfl).mono hl.extends⟩
  split
  · rename_i record
    obtain ⟨hg, hplaced⟩ := ho record rfl
    refine shows_seq (Site.shows_extending (List.prefix_refl g)) (fun _ g' hg' => ?_) (fun _ _ _ _ _ => onOk_error)
    simp only [Orders.complete]
    refine shows_seq (R := OnOk (fun g _ => Q g ⟨record, app.retrievalToken record.orderId, order.customerId⟩)) ?_
      (fun _ g'' hs => ?_) (fun _ _ _ _ _ => onOk_error)
    · refine shows_seq (R := OnOk (fun g _ =>
        Q g ⟨record, app.retrievalToken record.orderId, order.customerId⟩)) ?_
        (fun _ g'' hs => ?_) (fun _ _ _ _ _ => onOk_error)
      · refine shows_transact (fun w s g'' hl hI _ g₃ hl' n hn => ?_)
        have hrows := txResult_eq_ok hn
        have hext : g <+: g'' := hg'.trans hl.extends
        obtain ⟨o, wired, expiresAt, hmade⟩ := hplaced
        refine hv.mono hl'.extends (hv.own
          (under_mono ((hg.trans hext).trans (List.prefix_append _ _)) hu) ⟨o, wired, expiresAt, record.orderId, n,
            (hext.trans (List.prefix_append _ _)).subset hmade, List.mem_append_right _
              (List.mem_singleton.mpr ?_)⟩)
        cases hr : ((Tx.completeKey scope key record.orderId 201
          ⟨record, app.retrievalToken record.orderId, order.customerId⟩).run w s).1 <;>
          rw [hr] at hrows <;> cases hrows
        rfl
      · exact shows_pure (fun _ hl => onOk_ok.mpr (hv.mono hl.extends (hs _ rfl)))
    · exact shows_pure (fun _ hl => onOk_ok.mpr (hv.mono hl.extends (hs _ rfl)))
  · exact hback
  · exact hback

lemma customerIn_of_fresh {g : List Event} (hl : Site.Later pid h g) (hfresh : ∀ j t r, .commit pid j t r ∉ h) :
    customerIn g pid = none := by
  refine List.findSome?_eq_none_iff.mpr (fun ev hev => ?_)
  split
  · rename_i p _ _ _ _ _
    by_cases hp : p = pid
    · rw [hp] at hev
      exact absurd (hl.own hev rfl) (hfresh _ _ _)
    · exact if_neg hp
  · rfl

/-- Once the caller is identified, the scope of the request is known. -/
lemma identify_shows (hfresh : ∀ j t r, .commit pid j t r ∉ h) :
    (site app).Shows G I pid i (OnOk (fun g who => who.2 = req.guestContact.map trim ∧
      scopeIn app g pid subject req = some (Idempotency.scope app who.1 (req.guestContact.map trim))))
      (Orders.identify subject req) h := by
  unfold Orders.identify
  refine shows_seq (R := OnOk (fun g customerId =>
    scopeIn app g pid subject req = some (Idempotency.scope app customerId (req.guestContact.map trim)))) ?_
    (fun customerId g hr => ?_) (fun _ _ _ _ _ => onOk_error)
  · unfold Orders.customerOf
    cases subject with
    | none => exact shows_pure (fun _ _ => onOk_ok.mpr rfl)
    | some subject =>
      refine shows_seq (R := OnOk (fun g id => customerIn g pid = some id)) ?_ (fun id g hr => ?_)
        (fun _ _ _ _ _ => onOk_error)
      · refine shows_transact (fun w s g hl _ _ g' hl' id hid => ?_)
        have hres := txResult_eq_ok hid
        obtain ⟨l, rfl, -⟩ := hl'
        change customerIn _ pid = some id
        rw [customerIn_append, customerIn_concat, customerIn_of_fresh hl hfresh, Option.none_or]
        cases hr : ((Tx.upsertCustomer subject.issuer subject.subject subject.email).run w s).1 <;>
          rw [hr] at hres <;> cases hres
        simp [identified]
      · have hid : customerIn g pid = some id := hr id rfl
        refine shows_pure (fun g' hl => onOk_ok.mpr (scopeIn_mono hl.extends ?_))
        exact Option.map_eq_some_iff.mpr ⟨id, hid, rfl⟩
  · have hscope := onOk_ok.mp hr
    simp only
    split
    · exact shows_throw (fun _ _ => onOk_error)
    · exact shows_pure (fun g' hl => onOk_ok.mpr ⟨rfl, scopeIn_mono hl.extends hscope⟩)

/-- Each order a request under the key is answered with is vouched for. -/
lemma create_shows (hv : Vouches app I scope key pid subject header req Q)
    (hfresh : ∀ j t r, .commit pid j t r ∉ h) :
    (site app).Shows G I pid (.createOrder subject header req)
      (fun g r => Under app scope key g pid (.createOrder subject header req) →
        ∀ code body, r = .ok (code, body) → Q g body)
      (Orders.create app subject header req) h := by
  unfold Orders.create
  simp only
  split
  · exact shows_throw (fun _ _ _ _ _ hr => by cases hr)
  · split
    · exact shows_throw (fun _ _ _ _ _ hr => by cases hr)
    · refine shows_seq (identify_shows hfresh) (fun who g hwho => ?_) (fun _ _ _ _ _ _ _ _ hr => by cases hr)
      obtain ⟨customerId, contact⟩ := who
      obtain ⟨hcontact, hscope⟩ := onOk_ok.mp hwho
      simp only at hcontact hscope ⊢
      subst hcontact
      by_cases hmine : Idempotency.keyFromHeader header = some key ∧
          Idempotency.scope app customerId (req.guestContact.map trim) = scope
      · obtain ⟨hkey, rfl⟩ := hmine
        have hu : Under app (Idempotency.scope app customerId (req.guestContact.map trim)) key g pid
            (.createOrder subject header req) := ⟨hkey, hscope⟩
        rw [hkey]
        refine shows_seq ((replay_shows hv).and (Site.shows_extending (List.prefix_refl g)))
          (fun found g₁ hfound => ?_)
          (fun _ _ _ _ _ _ _ _ hr => by cases hr)
        obtain ⟨hstored, hg₁⟩ := hfound
        cases found with
        | some response =>
          refine shows_pure (fun g₂ hl _ code body hr => ?_)
          cases hr
          exact hv.mono hl.extends (hstored code body rfl)
        | none =>
          refine shows_seq (Site.shows_extending hg₁) (fun order g₂ hg₂ => ?_)
            (fun _ _ _ _ _ _ _ _ hr => by cases hr)
          refine shows_seq ((reserve_shows hv).and (Site.shows_extending hg₂)) (fun reserved g₃ hreserved => ?_)
            (fun _ _ _ _ _ _ _ _ hr => by cases hr)
          obtain ⟨hreserved, hg₃⟩ := hreserved
          rcases onOk_ok.mp hreserved with rfl | ⟨code, body, rfl, hq⟩
          · refine Site.Shows.weaken (book_shows hv (under_mono hg₃ hu)) (fun g₄ r hr _ code body he => ?_)
            exact hr _ he
          · refine shows_pure (fun g₄ hl _ code' body' he => ?_)
            cases he
            exact hv.mono hl.extends hq
      · refine Site.Shows.weaken (Site.shows_extending (List.prefix_refl g)) (fun g' r hg' hu => ?_)
        have hsame := (scopeIn_mono hg' hscope).symm.trans hu.2
        exact absurd ⟨hu.1, Option.some.inj hsame⟩ hmine

end Sources

/-- A request that has just arrived has committed nothing. -/
lemma fresh_of_arrival {h : List Event} {i j : Request} {t : Tx} {r : TxResult}
    (hpids : ∀ ev ∈ h, ev.pid < h.length)
    (hm : .commit h.length j t r ∈ h ++ [.arrive h.length i]) : False := by
  rcases List.mem_append.mp hm with hm | hm
  · exact absurd (hpids _ hm) (Nat.lt_irrefl _)
  · cases List.mem_singleton.mp hm

section Isolated

variable {app : AppState} {scope key : String} {s : World} {h : List Event} {pid : Nat} {i : Request}
  {subject : Option Subject} {header : Option String} {req : CreateOrderRequest}

/-- A request under the key has booked the order and stored the response for it. -/
def StoredUnder (app : AppState) (scope key : String) (h : List Event) (body : CreateOrderResponse) : Prop :=
  ∃ p subject header req, SettledFor scope key p (.createOrder subject header req) h body ∧
    Under app scope key h p (.createOrder subject header req)

/-- What is known of a key: the response its row holds, a request under it has stored, and each
customer identifier a request was told is that of the request's own subject. -/
structure Isolated (app : AppState) (scope key : String) (s : World) (h : List Event) : Prop where
  stored : ∀ row body, s.db.idempotencyKeys.find? (scope, key) = some row → row.response = some body →
    StoredUnder app scope key h body
  named : ∀ p i issuer name email r, .commit p i (.upsertCustomer issuer name email) r ∈ h →
    ∃ header req, i = .createOrder (some ⟨issuer, name, email⟩) header req
  customers : ∀ p i issuer name email id, .commit p i (.upsertCustomer issuer name email) (.customer id) ∈ h →
    Identifies s.db id issuer name

lemma StoredUnder.mono {h' : List Event} {body : CreateOrderResponse} (hs : StoredUnder app scope key h body)
    (hp : h <+: h') : StoredUnder app scope key h' body := by
  obtain ⟨p, subject, header, req, hm, hu⟩ := hs
  exact ⟨p, subject, header, req, hm.mono hp, under_mono hp hu⟩

lemma Isolated.extend {s' : World} {ev : Event} (hi : Isolated app scope key s h)
    (hstored : ∀ row body, s'.db.idempotencyKeys.find? (scope, key) = some row → row.response = some body →
      StoredUnder app scope key (h ++ [ev]) body)
    (hkept : ∀ id issuer name, Identifies s.db id issuer name → Identifies s'.db id issuer name)
    (hnamed : ∀ p i issuer name email r, ev = .commit p i (.upsertCustomer issuer name email) r →
      (∃ header req, i = .createOrder (some ⟨issuer, name, email⟩) header req) ∧
        ∀ id, r = .customer id → Identifies s'.db id issuer name) :
    Isolated app scope key s' (h ++ [ev]) where
  stored := hstored
  named p i issuer name email r hm := by
    rcases List.mem_append.mp hm with hm | hm
    · exact hi.named p i issuer name email r hm
    · exact (hnamed p i issuer name email r (List.mem_singleton.mp hm).symm).1
  customers p i issuer name email id hm := by
    rcases List.mem_append.mp hm with hm | hm
    · exact hkept id issuer name (hi.customers p i issuer name email id hm)
    · exact (hnamed p i issuer name email _ (List.mem_singleton.mp hm).symm).2 id rfl

/-- An event that is no statement. -/
lemma Isolated.quiet {ev : Event} (hi : Isolated app scope key s h) (hev : ∀ p i t r, ev ≠ .commit p i t r) :
    Isolated app scope key s (h ++ [ev]) :=
  hi.extend (fun row body hr hb => (hi.stored row body hr hb).mono (List.prefix_append _ _)) (fun _ _ _ hk => hk)
    (fun p i _ _ _ r he => absurd he (hev p i _ r))

/-- A completion fails, or leaves its response in the row that is there. -/
lemma completeKey_cases (orderId : Uuid) (code : Nat) (body : CreateOrderResponse) (w : Oracle) (s : World) :
    (∃ e, (Tx.completeKey scope key orderId code body).run w s = (.failed e, s)) ∨
    (∃ n, ((Tx.completeKey scope key orderId code body).run w s).1 = .rows n) ∧
      ((Tx.completeKey scope key orderId code body).run w s).2.db.idempotencyKeys.find? (scope, key) =
        (s.db.idempotencyKeys.find? (scope, key)).map (fun r => { r with
          status := .completed
          orderId := some orderId
          statusCode := some code
          response := some body }) := by
  unfold Tx.run
  cases w.fail with
  | some e => exact .inl ⟨e, rfl⟩
  | none =>
    refine .inr ⟨⟨_, rfl⟩, ?_⟩
    change (s.db.idempotencyKeys.update _ _).find? (scope, key) = _
    rw [Lib.Table.find?_update]
    cases hf : s.db.idempotencyKeys.find? (scope, key) with
    | none => rfl
    | some row => rw [Option.map_some, Option.map_some, if_pos (decide_eq_true (Lib.Table.find?_key hf))]

/-- What the statements of an order request are about: its own key, the response for what it has
booked, its own subject. -/
structure Rightful (app : AppState) (scope key : String) (h : List Event) (pid : Nat) (subject : Option Subject)
    (header : Option String) (req : CreateOrderRequest) (t : Tx) : Prop where
  under : keyOf t = some (scope, key) → Under app scope key h pid (.createOrder subject header req)
  placed : ∀ sc k orderId code body, t = .completeKey sc k orderId code body →
    code = 201 ∧ Ordered pid (.createOrder subject header req) h body.record
  named : ∀ issuer name email, t = .upsertCustomer issuer name email → subject = some ⟨issuer, name, email⟩

/-- A statement about the key by a request under it leaves a response stored under it. -/
lemma stored_step {t : Tx} (hi : Isolated app scope key s h) (w : Oracle)
    (ht : Rightful app scope key h pid subject header req t) (hk : keyOf t = some (scope, key))
    {row : IdempotencyRow}
    {body : CreateOrderResponse} (hr : (t.run w s).2.db.idempotencyKeys.find? (scope, key) = some row)
    (hb : row.response = some body) :
    StoredUnder app scope key (h ++ [.commit pid (.createOrder subject header req) t (t.run w s).1]) body := by
  have hsame (hr' : s.db.idempotencyKeys.find? (scope, key) = some row) :
      StoredUnder app scope key (h ++ [.commit pid (.createOrder subject header req) t (t.run w s).1]) body :=
    (hi.stored row body hr' hb).mono (List.prefix_append _ _)
  cases t with
  | insertKey scope' key' hash =>
    cases hk
    rcases insertKey_run w s scope key hash with ⟨e, h'⟩ | ⟨-, h'⟩ | ⟨-, -, hrow⟩
    · rw [h'] at hr
      exact hsame hr
    · rw [h'] at hr
      exact hsame hr
    · rw [hrow] at hr
      cases hr
      cases hb
  | selectKey scope' key' =>
    refine hsame ?_
    rw [← hr]
    unfold Tx.run
    cases w.fail <;> rfl
  | completeKey scope' key' orderId code body' =>
    cases hk
    rcases completeKey_cases orderId code body' w s with ⟨e, h'⟩ | ⟨⟨n, hn⟩, hrow⟩
    · rw [h'] at hr
      exact hsame hr
    · rw [hrow] at hr
      obtain ⟨r, -, rfl⟩ := Option.map_eq_some_iff.mp hr
      cases hb
      obtain ⟨rfl, order, wired, expiresAt, hmade⟩ := ht.placed _ _ _ _ _ rfl
      exact ⟨pid, subject, header, req, ⟨order, wired, expiresAt, orderId, n, List.mem_append_left _ hmade,
        List.mem_append_right _ (List.mem_singleton.mpr (by rw [hn]))⟩,
        under_mono (List.prefix_append _ _) (ht.under rfl)⟩
  | deletePendingKey scope' key' =>
    cases hk
    rcases deletePendingKey_run w s scope key with ⟨e, h'⟩ | ⟨-, hrow⟩
    · rw [h'] at hr
      exact hsame hr
    · rw [hrow] at hr
      exact hsame (Option.filter_eq_some_iff.mp hr).1
  | _ => cases hk

lemma Isolated.step {t : Tx} (hi : Isolated app scope key s h) (w : Oracle)
    (ht : Rightful app scope key h pid subject header req t) :
    Isolated app scope key (t.run w s).2
      (h ++ [.commit pid (.createOrder subject header req) t (t.run w s).1]) := by
  refine hi.extend (fun row body hr hb => ?_) (fun _ _ _ hk => run_identifies t w s hk)
    (fun p i issuer name email r he => ?_)
  · by_cases hk : keyOf t = some (scope, key)
    · exact stored_step hi w ht hk hr hb
    · rw [run_otherKey w s hk] at hr
      exact (hi.stored row body hr hb).mono (List.prefix_append _ _)
  · injection he with _ hi hp hr
    subst hp hi hr
    exact ⟨⟨header, req, by rw [ht.named issuer name email rfl]⟩, fun id hid => run_upsert w s hid⟩

/-- A transaction of a request that is not about an order. -/
lemma Isolated.elsewhere {t : Tx} (hi : Isolated app scope key s h) (w : Oracle) (hk : keyOf t ≠ some (scope, key))
    (hu : ∀ issuer name email, t ≠ .upsertCustomer issuer name email) :
    Isolated app scope key (t.run w s).2 (h ++ [.commit pid i t (t.run w s).1]) := by
  refine hi.extend (fun row body hr hb => ?_) (fun _ _ _ hk => run_identifies t w s hk)
    (fun p i issuer name email r he => ?_)
  · rw [run_otherKey w s hk] at hr
    exact (hi.stored row body hr hb).mono (List.prefix_append _ _)
  · injection he with _ _ ht _
    exact absurd ht (hu issuer name email)

/-- Identifying the caller has nothing to do with any key, and settles the scope. -/
lemma identify_isolated (hfresh : ∀ j t r, .commit pid j t r ∉ h) :
    (site app).Keeps (fun _ _ _ => True) (Isolated app scope key) pid (.createOrder subject header req)
      (OnOk (fun g who => who.2 = req.guestContact.map trim ∧
        scopeIn app g pid subject req = some (Idempotency.scope app who.1 (req.guestContact.map trim))))
      (Orders.identify subject req) h := by
  have honly : IoOnly (fun _ => True) (fun t => keyOf t = none ∧
      ∀ issuer name email, t = .upsertCustomer issuer name email → subject = some ⟨issuer, name, email⟩)
      (fun _ => True) (fun _ => True) (Orders.identify subject req) := by
    unfold Orders.identify
    refine only_bind (R := fun _ => True) ?_ (fun customerId _ => ?_)
    · unfold Orders.customerOf
      cases subject with
      | none => exact only_pure trivial
      | some subject =>
        refine only_bind (R := fun _ => True) (only_transact ⟨rfl, fun _ _ _ he => ?_⟩ (fun _ _ _ => trivial))
          (fun _ _ => only_pure trivial)
        cases he
        rfl
    · simp only
      split
      · exact only_throw _
      · exact only_pure trivial
  refine Site.Keeps.weaken (Site.Keeps.shows (Site.keeps_of_only honly (fun _ _ _ => trivial)
    (fun t w s g ht hI _ => hI.step w ⟨fun hk => absurd hk (by simp [ht.1]),
      fun _ _ _ _ _ he => absurd ht.1 (by simp [he, keyOf]), ht.2⟩)
    (fun q b s g _ _ hI _ => hI.quiet (fun _ _ _ _ he => by cases he)) h) (identify_shows hfresh))
    (fun _ _ hr => hr.2)

/-- A statement that is about the request's own key if about any, and stores no response. -/
structure ClearOf (header : Option String) (scope' : String) (t : Tx) : Prop where
  key : ∀ sc k, keyOf t = some (sc, k) → sc = scope' ∧ Idempotency.keyFromHeader header = some k
  complete : ∀ sc k orderId code body, t ≠ .completeKey sc k orderId code body
  named : ∀ issuer name email, t ≠ .upsertCustomer issuer name email

/-- Once the scope is settled, such statements keep the key isolated. -/
lemma clearOf_isolated {ε α : Type} {scope' : String} {Q : Call → Prop} {R : α → Prop} {x : Io ε α}
    (hx : IoOnly (fun _ => True) (ClearOf header scope') Q R x)
    (hscope : scopeIn app h pid subject req = some scope') :
    (site app).Keeps (fun _ _ _ => True) (Isolated app scope key) pid (.createOrder subject header req)
      (fun g r => (h <+: g ∧ scopeIn app g pid subject req = some scope') ∧ ∀ a, r = .ok a → R a) x h := by
  refine Site.keeps_carrying (C := fun g => h <+: g ∧ scopeIn app g pid subject req = some scope') hx
    (fun _ _ _ _ => trivial) (fun g g' hl hC => ⟨hC.1.trans hl.extends, scopeIn_mono hl.extends hC.2⟩)
    (fun t w s g ht hI hC _ => ⟨hI.step w ⟨fun hk => ?_, fun _ _ _ _ _ he => absurd he (ht.complete _ _ _ _ _),
      fun _ _ _ he => absurd he (ht.named _ _ _)⟩, hC.1.trans (List.prefix_append _ _),
      scopeIn_mono (List.prefix_append _ _) hC.2⟩)
    (fun q b s g _ _ hI hC _ => ⟨hI.quiet (fun _ _ _ _ he => by cases he), hC.1.trans (List.prefix_append _ _),
      scopeIn_mono (List.prefix_append _ _) hC.2⟩) h ⟨List.prefix_refl h, hscope⟩
  obtain ⟨rfl, hkey⟩ := ht.key _ _ hk
  exact ⟨hkey, hC.2⟩

/-- The reservation window stores the response for the order it has booked. -/
lemma book_isolated {reservation : Option Reservation} {order : NewOrder} {holdId : Option Uuid} {scope' : String}
    (hscope : scopeIn app h pid subject req = some scope')
    (hkey : ∀ r, reservation = some r → r.scope = scope' ∧ Idempotency.keyFromHeader header = some r.key) :
    (site app).Keeps (fun _ _ _ => True) (Isolated app scope key) pid (.createOrder subject header req)
      (fun _ _ => True) (Orders.book app reservation order holdId) h := by
  have haside {t : Tx} (hk : keyOf t = none) (hn : ∀ issuer name email, t ≠ .upsertCustomer issuer name email) :
      ClearOf header scope' t := by
    refine ⟨fun _ _ he => ?_, fun _ _ _ _ _ he => ?_, hn⟩
    · rw [hk] at he
      cases he
    · rw [he] at hk
      cases hk
  have hback {e : ApiError} {g : List Event} (hg : scopeIn app g pid subject req = some scope') :
      (site app).Keeps (fun _ _ _ => True) (Isolated app scope key) pid (.createOrder subject header req)
        (fun _ _ => True)
        (Orders.giveBack reservation >>= fun _ => throw e : Handler (Nat × CreateOrderResponse)) g := by
    refine keeps_seq (clearOf_isolated (Q := fun _ => True) (R := fun _ => True) ?_ hg)
      (fun _ _ _ => keeps_throw (fun _ _ => trivial)) (fun _ _ _ _ _ => trivial)
    unfold Orders.giveBack
    cases reservation with
    | none => exact only_pure trivial
    | some r =>
      obtain ⟨hsc, hk⟩ := hkey r rfl
      refine only_bind (R := fun _ => True) ?_ (fun _ _ => only_pure trivial)
      refine (only_attempt (R := fun _ => True) (only_transact
        ⟨fun _ _ he => ?_, fun _ _ _ _ _ he => (by cases he),
        fun _ _ _ he => by cases he⟩ (fun _ _ _ => trivial))).weaken (fun _ _ => trivial)
      cases he
      exact ⟨hsc, hk⟩
  unfold Orders.book
  refine keeps_seq (keeps_attempt (T := fun g o => h <+: g ∧ ∀ record, o = .ok (.ok (.created record)) →
      Ordered pid (.createOrder subject header req) g record)
    (Site.Keeps.shows (clearOf_isolated (Q := fun _ => True)
      (create_only (fun wired _ _ => haside rfl (fun _ _ _ he => by cases he))) hscope) createStore_shows)
    (fun r g hr g' hl => ⟨hr.1.1.1.trans hl.extends, fun record he => ?_⟩)) (fun o g ho => ?_)
    (fun _ _ _ _ _ => trivial)
  · cases he
    exact (hr.2 _ rfl record rfl).mono hl.extends
  · obtain ⟨hg, hplaced⟩ := ho
    have hscope' := scopeIn_mono hg hscope
    split
    · rename_i record
      refine keeps_seq (clearOf_isolated (releaseHold_only (Q := fun _ => True) (fun _ => trivial)) hscope')
        (fun _ g' hg' => ?_) (fun _ _ _ _ _ => trivial)
      obtain ⟨⟨hg', hscope''⟩, -⟩ := hg'
      have hmade := (hplaced record rfl).mono hg'
      refine keeps_seq (R := fun _ _ => True) ?_ (fun _ _ _ => keeps_pure (fun _ _ => trivial))
        (fun _ _ _ _ _ => trivial)
      cases reservation with
      | none => exact keeps_pure (fun _ _ => trivial)
      | some r =>
        obtain ⟨hsc, hk⟩ := hkey r rfl
        simp only [Orders.complete]
        refine keeps_seq (R := fun _ _ => True) ?_ (fun _ _ _ => keeps_pure (fun _ _ => trivial))
          (fun _ _ _ _ _ => trivial)
        refine keeps_transact (fun w s g'' hl hI _ => ⟨hI.step w ⟨fun he => ?_, fun _ _ _ _ _ he => ?_,
          fun _ _ _ he => by cases he⟩, fun _ _ => trivial⟩)
        · cases he
          exact ⟨hk, by rw [hsc]; exact scopeIn_mono hl.extends hscope''⟩
        · cases he
          exact ⟨rfl, hmade.mono hl.extends⟩
    · exact hback hscope'
    · exact hback hscope'

/-- An order request keeps the key isolated, whatever its own key is. -/
lemma create_isolated (hfresh : ∀ j t r, .commit pid j t r ∉ h) :
    (site app).Keeps (fun _ _ _ => True) (Isolated app scope key) pid (.createOrder subject header req)
      (fun _ _ => True) (Orders.create app subject header req) h := by
  unfold Orders.create
  simp only
  split
  · exact keeps_throw (fun _ _ => trivial)
  · rename_i journeys hj
    split
    · exact keeps_throw (fun _ _ => trivial)
    · refine keeps_seq (identify_isolated hfresh) (fun who g hwho => ?_) (fun _ _ _ _ _ => trivial)
      obtain ⟨customerId, contact⟩ := who
      obtain ⟨hcontact, hscope⟩ := onOk_ok.mp hwho
      simp only at hcontact hscope ⊢
      subst hcontact
      refine keeps_seq (clearOf_isolated (Q := fun _ => True) replayIfCompleted_only hscope)
        (fun found g₁ hg₁ => ?_) (fun _ _ _ _ _ => trivial)
      cases found with
      | some response => exact keeps_pure (fun _ _ => trivial)
      | none =>
        refine keeps_seq (clearOf_isolated (Q := fun _ => True) (prepare_only hj (fun _ => trivial)) hg₁.1.2)
          (fun order g₂ hg₂ => ?_) (fun _ _ _ _ _ => trivial)
        refine keeps_seq (clearOf_isolated (Q := fun _ => True)
          (reserve_only (fun k hk => ?_) (fun k hk => ?_)) hg₂.1.2)
          (fun reserved g₃ hg₃ => ?_) (fun _ _ _ _ _ => trivial)
        · refine ⟨fun _ _ he => ?_, fun _ _ _ _ _ he => (by cases he), fun _ _ _ he => by cases he⟩
          cases he
          exact ⟨rfl, hk⟩
        · refine ⟨fun _ _ he => ?_, fun _ _ _ _ _ he => (by cases he), fun _ _ _ he => by cases he⟩
          cases he
          exact ⟨rfl, hk⟩
        · obtain ⟨⟨-, hscope₃⟩, hheld⟩ := hg₃
          cases reserved with
          | replay code response => exact keeps_pure (fun _ _ => trivial)
          | held reservation =>
            refine book_isolated hscope₃ (fun _ hr => ?_)
            cases hr
            exact hheld _ rfl reservation rfl
          | disabled => exact book_isolated hscope₃ (fun r hr => by cases hr)

/-- Every request keeps the key isolated. -/
lemma isolated_protocol :
    Site.Protocol (site app) (fun _ _ _ => True) (Isolated app scope key) (fun _ _ _ _ => True) where
  env _ _ _ hi := ⟨hi.stored, hi.named, hi.customers⟩
  answer _ _ _ _ _ hi _ _ := hi.quiet (fun _ _ _ _ he => by cases he)
  arrive s h i hi hpids _ := by
    refine ⟨hi.quiet (fun _ _ _ _ he => by cases he), ?_⟩
    by_cases hcreate : ∃ subject header req, i = .createOrder subject header req
    · obtain ⟨subject, header, req, rfl⟩ := hcreate
      exact keeps_answer (create_isolated (fun j t r hm => fresh_of_arrival hpids hm)) (fun _ _ _ _ _ => trivial)
    · have hother : ∀ subject header req, i ≠ .createOrder subject header req :=
        fun subject header req he => hcreate ⟨subject, header, req, he⟩
      refine Site.Keeps.weaken (Site.keeps_of_only (handler_only (fun _ => True) app i) (fun _ _ _ => trivial)
        (fun t w s g ht hI _ => ?_) (fun q b s g _ _ hI _ => hI.quiet (fun _ _ _ _ he => by cases he)) _)
        (fun _ _ _ => trivial)
      obtain ⟨hk, hu⟩ := runs_elsewhere hother ht
      exact hI.elsewhere w hk hu

end Isolated

section Callers

variable {app : AppState} {scope key : String} {s : World} {h : List Event} {pid : Nat} {i : Request}
  {subject subject' : Option Subject} {header : Option String} {req req' : CreateOrderRequest}
  {c : LockConf Request World Tx TxResult Call Reply Answer Uuid LockRead LockRead}

/-- Requests of one customer, by issuer and subject, or of guests with one normalised contact. -/
def SameCaller (lower : String → String) (subject subject' : Option Subject) (req req' : CreateOrderRequest) :
    Prop :=
  subject.map (fun x => (x.issuer, x.subject)) = subject'.map (fun x => (x.issuer, x.subject)) ∧
    (subject = none →
      req.guestContact.map (Idempotency.normalised lower) = req'.guestContact.map (Idempotency.normalised lower))

lemma scope_customer_inj {id id' : Uuid} {contact contact' : Option String}
    (he : Idempotency.scope app (some id) contact = Idempotency.scope app (some id') contact') : id = id' := by
  have hlist := congrArg String.toList he
  simp only [Idempotency.scope, String.toList_append, List.append_cancel_left_eq] at hlist
  change (Nat.repr id).toList = (Nat.repr id').toList at hlist
  rw [Nat.toList_repr, Nat.toList_repr] at hlist
  have hdigits := congrArg Lib.Text.digits hlist
  rw [Lib.Text.digits_toDigits, Lib.Text.digits_toDigits] at hdigits
  exact Option.some.inj hdigits

lemma scope_guest_inj {sha : Http.Bytes → Http.Bytes} {lower : String → String} (hsha : Function.Injective sha)
    (happ : app.digestContact = Idempotency.contactHash sha lower) {contact contact' : Option String}
    (he : Idempotency.scope app none (contact.map trim) = Idempotency.scope app none (contact'.map trim)) :
    contact.map (Idempotency.normalised lower) = contact'.map (Idempotency.normalised lower) := by
  have hkinds (text : String) : "guest:" ++ text ≠ "anonymous" := by
    intro he
    have hfirst := congrArg (fun text : String => text.toList.head?) he
    have hg : "guest:".toList.head? = some 'g' := by decide
    have ha : "anonymous".toList.head? = some 'a' := by decide
    simp only [String.toList_append, List.head?_append, hg, ha, Option.some_or] at hfirst
    exact absurd (Option.some.inj hfirst) (by decide)
  cases contact with
  | none =>
    cases contact' with
    | none => rfl
    | some contact' => exact absurd he.symm (hkinds _)
  | some contact =>
    cases contact' with
    | none => exact absurd he (hkinds _)
    | some contact' =>
      have hlist := congrArg String.toList he
      simp only [Idempotency.scope, Option.map_some, String.toList_append, List.append_cancel_left_eq] at hlist
      have hhash := String.toList_inj.mp hlist
      rw [happ] at hhash
      have hnorm := contactHash_inj hsha hhash
      simp only [Idempotency.normalised, trim_trim] at hnorm
      simp only [Option.map_some, Idempotency.normalised, hnorm]

lemma vouches_isolated : Vouches app (Isolated app scope key) scope key pid subject header req
    (StoredUnder app scope key) where
  mono hp hs := hs.mono hp
  row hI hrow _ _ hstored := by
    refine hI.stored _ _ hrow ?_
    unfold Idempotency.storedResponse at hstored
    split at hstored
    · rename_i hbody
      cases hstored
      exact hbody
    · cases hstored
  own hu hs := ⟨pid, subject, header, req, hs, hu⟩

lemma create_scoped {G : World → List Event → Event → Prop} {I : World → List Event → Prop}
    (hfresh : ∀ j t r, .commit pid j t r ∉ h) :
    (site app).Shows G I pid i (OnOk (fun g _ => ∃ sc, scopeIn app g pid subject req = some sc))
      (Orders.create app subject header req) h := by
  unfold Orders.create
  simp only
  split
  · exact shows_throw (fun _ _ => onOk_error)
  · split
    · exact shows_throw (fun _ _ => onOk_error)
    · refine shows_seq (identify_shows hfresh) (fun who g hwho => ?_) (fun _ _ _ _ _ => onOk_error)
      refine Site.Shows.weaken (Site.shows_extending (List.prefix_refl g)) (fun g' r hg' a _ => ?_)
      exact ⟨_, scopeIn_mono hg' (onOk_ok.mp hwho).2⟩

/-- What a request that is answered with an order has been told. -/
def Replayed (app : AppState) (scope key : String)
    (Q : CreateOrderRequest → List Event → CreateOrderResponse → Prop)
    (pid : Nat) (i : Request) (g : List Event) (a : Answer) : Prop :=
  ∀ subject header req code body, i = .createOrder subject header req → a = .ok (.order code body) →
    (∃ sc, scopeIn app g pid subject req = some sc) ∧ (Under app scope key g pid i → Q req g body)

lemma replayed_shows {G : World → List Event → Event → Prop} {I : World → List Event → Prop}
    {Q : CreateOrderRequest → List Event → CreateOrderResponse → Prop}
    (hv : ∀ pid subject header req, Vouches app I scope key pid subject header req (Q req))
    (hpids : ∀ ev ∈ h, ev.pid < h.length) :
    (site app).Shows G I h.length i (Replayed app scope key Q h.length i) ((site app).handler i)
      (h ++ [.arrive h.length i]) := by
  by_cases hcreate : ∃ subject header req, i = .createOrder subject header req
  · obtain ⟨subject, header, req, rfl⟩ := hcreate
    have hfresh : ∀ j t r, .commit h.length j t r ∉ h ++ [.arrive h.length (.createOrder subject header req)] :=
      fun j t r hm => fresh_of_arrival hpids hm
    refine shows_answer ((create_scoped hfresh).and (create_shows (hv _ _ _ _) hfresh)) (fun r g hr g' hl => ?_)
    rintro subject' header' req' code body he ha
    cases he
    cases r with
    | error e => cases ha
    | ok answer =>
      cases ha
      obtain ⟨sc, hsc⟩ := hr.1 _ rfl
      have hsc' := scopeIn_mono hl.extends hsc
      refine ⟨⟨sc, hsc'⟩, fun hu => (hv h.length subject header req).mono hl.extends (hr.2 ⟨hu.1, ?_⟩ _ _ rfl)⟩
      rw [hsc, ← hsc', hu.2]
  · exact Site.Shows.weaken (Site.shows_extending (List.prefix_refl _))
      (fun _ _ _ subject header req _ _ he => absurd ⟨subject, header, req, he⟩ hcreate)

lemma replayed_answer {G : World → List Event → Event → Prop} {I : World → List Event → Prop}
    {R : Nat → Request → List Event → Answer → Prop}
    {Q : CreateOrderRequest → List Event → CreateOrderResponse → Prop}
    {c : Lib.Conf Request World Tx TxResult Call Reply Answer} {code : Nat} {body : CreateOrderResponse}
    (hv : ∀ pid subject header req, Vouches app I scope key pid subject header req (Q req))
    (hP : Site.Protocol (site app) G I R) (h₀ : I s []) (hat : (site app).ReachableWhen G (Site.init s) c)
    (ha : .answer pid (.createOrder subject header req) (.ok (.order code body)) ∈ c.trace) :
    (∃ sc, scopeIn app c.trace pid subject req = some sc) ∧
      (Under app scope key c.trace pid (.createOrder subject header req) → Q req c.trace body) := by
  obtain ⟨g, l, hsplit⟩ := List.append_of_mem ha
  have hprefix : g ++ [.answer pid (.createOrder subject header req) (.ok (.order code body))] <+: c.trace :=
    ⟨l, by rw [hsplit, List.append_assoc, List.singleton_append]⟩
  have hg : g <+: c.trace := (List.prefix_append _ _).trans hprefix
  obtain ⟨⟨sc, hsc⟩, hq⟩ := ((hP.shows (fun s h i _ hpids => replayed_shows hv hpids)).answered h₀ hat hprefix).2
    subject header req code body rfl rfl
  have hsc' := scopeIn_mono hg hsc
  refine ⟨⟨sc, hsc'⟩, fun hu => (hv pid subject header req).mono hg (hq ⟨hu.1, ?_⟩)⟩
  rw [hsc, ← hsc', hu.2]

lemma isolated_of_unanswered (h₀ : ∀ row ∈ s.db.idempotencyKeys.rows, row.response = none) :
    Isolated app scope key s [] where
  stored row body hr hb := by
    rw [h₀ row (Lib.Table.find?_mem hr)] at hb
    cases hb
  named p i issuer name email r hm := by cases hm
  customers p i issuer name email id hm := by cases hm

lemma identified_of_customerIn {id : Uuid} (hid : customerIn h pid = some id) :
    ∃ i issuer name email, .commit pid i (.upsertCustomer issuer name email) (.customer id) ∈ h := by
  obtain ⟨ev, hev, hf⟩ := List.exists_of_findSome?_eq_some hid
  split at hf
  · rename_i p j issuer name email id'
    split at hf
    · rename_i hp
      cases hf
      subst hp
      exact ⟨j, issuer, name, email, hev⟩
    · cases hf
  · cases hf

/-- Requests of one scope are of one caller. -/
lemma sameCaller {sha : Http.Bytes → Http.Bytes} {lower : String → String} (hsha : Function.Injective sha)
    (happ : app.digestContact = Idempotency.contactHash sha lower) (hi : Isolated app scope key s h)
    (hone : ∀ ev ∈ h, ∀ ev' ∈ h, ev.pid = ev'.pid → ev.request = ev'.request) {p : Nat} {header' : Option String}
    {ev ev' : Event} (hev : ev ∈ h ∧ ev.pid = pid ∧ ev.request = .createOrder subject header req)
    (hev' : ev' ∈ h ∧ ev'.pid = p ∧ ev'.request = .createOrder subject' header' req')
    (hs : scopeIn app h pid subject req = some scope) (hs' : scopeIn app h p subject' req' = some scope) :
    SameCaller lower subject subject' req req' := by
  have hknown {p : Nat} {x : Subject} {header : Option String} {req : CreateOrderRequest} {ev : Event} {id : Uuid}
      (hev : ev ∈ h ∧ ev.pid = p ∧ ev.request = .createOrder (some x) header req)
      (hid : customerIn h p = some id) :
      Identifies s.db id x.issuer x.subject := by
    obtain ⟨i, issuer, name, email, hm⟩ := identified_of_customerIn hid
    obtain ⟨header', req', rfl⟩ := hi.named _ _ _ _ _ _ hm
    have hsame := hone _ hm _ hev.1 hev.2.1.symm
    rw [hev.2.2] at hsame
    cases hsame
    exact hi.customers _ _ _ _ _ _ hm
  cases subject with
  | none =>
    cases subject' with
    | none => exact ⟨rfl, fun _ => scope_guest_inj hsha happ (Option.some.inj (hs.trans hs'.symm))⟩
    | some y =>
      obtain ⟨id, -, hid⟩ := Option.map_eq_some_iff.mp hs'
      exact absurd (hid.trans (Option.some.inj hs).symm) (scope_kinds id _ _)
  | some x =>
    obtain ⟨id, hx, hid⟩ := Option.map_eq_some_iff.mp hs
    cases subject' with
    | none => exact absurd (hid.trans (Option.some.inj hs').symm) (scope_kinds id _ _)
    | some y =>
      obtain ⟨id', hy, hid'⟩ := Option.map_eq_some_iff.mp hs'
      cases scope_customer_inj (hid.trans hid'.symm)
      obtain ⟨hissuer, hsubject⟩ := (hknown hev hx).unique (hknown hev' hy)
      exact ⟨by rw [Option.map_some, Option.map_some, hissuer, hsubject], fun hn => by cases hn⟩

/-- Whatever order a request with a key is answered with, a request of the same caller with the
same key has booked it and stored the response. -/
theorem replays_stay_with_caller {sha : Http.Bytes → Http.Bytes} {lower : String → String}
    (hsha : Function.Injective sha) (happ : app.digestContact = Idempotency.contactHash sha lower)
    (h₀ : ∀ row ∈ s.db.idempotencyKeys.rows, row.response = none) (hc : Reaches app s c)
    (hkey : Idempotency.keyFromHeader header = some key) {code : Nat} {body : CreateOrderResponse}
    (ha : .answer pid (.createOrder subject header req) (.ok (.order code body)) ∈ c.trace) :
    ∃ p subject' header' req' sc, SettledFor sc key p (.createOrder subject' header' req') c.trace body ∧
      Idempotency.keyFromHeader header' = some key ∧ SameCaller lower subject subject' req req' := by
  have hat := (rowLocks app).reachable_atomicWhen hc.reachableWhen
  have htold (scope : String) : (∃ sc, scopeIn app c.trace pid subject req = some sc) ∧
      (Under app scope key c.trace pid (.createOrder subject header req) →
        StoredUnder app scope key c.trace body) :=
    replayed_answer (Q := fun _ => StoredUnder app scope key) (fun _ _ _ _ => vouches_isolated) isolated_protocol
      (isolated_of_unanswered h₀) hat ha
  obtain ⟨⟨sc, hsc⟩, -⟩ := htold ""
  obtain ⟨p, subject', header', req', hsettled, hu⟩ := (htold sc).2 ⟨hkey, hsc⟩
  obtain ⟨_, _, _, _, _, hm, -⟩ := id hsettled
  refine ⟨p, subject', header', req', sc, hsettled, hu.1, ?_⟩
  have hi : Isolated app sc key c.store c.trace := (isolated_protocol.invariant (isolated_of_unanswered h₀) hat).1
  exact sameCaller hsha happ hi (fun ev he ev' he' hp => Site.one_request hat he he' hp) ⟨ha, rfl, rfl⟩
    ⟨hm, rfl, rfl⟩
    hsc hu.2

/-- A digest that is as listed, and never one for two texts. -/
def knownSha (table : List (Http.Bytes × Http.Bytes)) (bytes : Http.Bytes) : Http.Bytes :=
  ((table.find? (fun p => decide (p.1 = bytes))).map Prod.snd).getD (0 :: bytes)

lemma knownSha_injective {table : List (Http.Bytes × Http.Bytes)} (hhead : ∀ p ∈ table, p.2.head? ≠ some 0)
    (hdistinct : (table.map Prod.snd).Nodup) : Function.Injective (knownSha table) := by
  have hfound {bytes : Http.Bytes} {p : Http.Bytes × Http.Bytes}
      (h : table.find? (fun p => decide (p.1 = bytes)) = some p) : p ∈ table ∧ p.1 = bytes :=
    ⟨List.mem_of_find?_eq_some h, by simpa using List.find?_some h⟩
  intro a b he
  unfold knownSha at he
  cases ha : table.find? (fun p => decide (p.1 = a)) with
  | none =>
    cases hb : table.find? (fun p => decide (p.1 = b)) with
    | none =>
      rw [ha, hb] at he
      exact (List.cons.inj he).2
    | some p =>
      rw [ha, hb] at he
      exact absurd (by rw [show p.2 = 0 :: a from he.symm]; rfl) (hhead p (hfound hb).1)
  | some p =>
    cases hb : table.find? (fun p => decide (p.1 = b)) with
    | none =>
      rw [ha, hb] at he
      exact absurd (by rw [show p.2 = 0 :: b from he]; rfl) (hhead p (hfound ha).1)
    | some p' =>
      rw [ha, hb] at he
      rw [← (hfound ha).2, ← (hfound hb).2, List.inj_on_of_nodup_map hdistinct (hfound ha).1 (hfound hb).1 he]

/-- The digest of Ana's contact, as SHA-256 computes it. -/
def contactDigests : List (Http.Bytes × Http.Bytes) := [
  (Http.asBytes "ana@example.com",
    [142, 67, 202, 55, 112, 18, 40, 231, 73, 131, 239, 219, 208, 207, 245, 193, 107, 59, 30, 93, 78, 41, 167,
     192, 86, 38, 212, 210, 90, 1, 142, 17])]

lemma contactDigests_injective : Function.Injective (knownSha contactDigests) :=
  knownSha_injective (by decide) (by decide)

def lowercase (text : String) : String := String.ofList (text.toList.map Char.toLower)

/-- A deployment that keeps guests apart by the digest of their contact. -/
def discreet : AppState :=
  { sandbox with digestContact := Idempotency.contactHash (knownSha contactDigests) lowercase }

/-- What Ana's second attempt is answered with. -/
def secondAnswer : Event → Option CreateOrderResponse
  | .answer 5 (.createOrder none (some "k") req) (.ok (.order 201 body)) =>
      if req = deckOrder then some body else none
  | _ => none

lemma secondAnswer_eq {ev : Event} {body : CreateOrderResponse} (h : secondAnswer ev = some body) :
    ev = .answer 5 (.createOrder none (some "k") deckOrder) (.ok (.order 201 body)) := by
  unfold secondAnswer at h
  split at h
  · split at h
    · rename_i hreq
      cases h
      rw [hreq]
    · cases h
  · cases h

/-- Ana's second attempt is answered with what a guest of her contact has booked. -/
theorem replays_stay_with_caller_harbour :
    ∃ (c : LockConf Request World Tx TxResult Call Reply Answer Uuid LockRead LockRead)
      (body : CreateOrderResponse),
      (body.record.orderId = 100 ∧
        .answer 5 (.createOrder none (some "k") deckOrder) (.ok (.order 201 body)) ∈ c.trace) ∧
        ∃ p subject' header' req' sc, SettledFor sc "k" p (.createOrder subject' header' req') c.trace body ∧
          Idempotency.keyFromHeader header' = some "k" ∧ SameCaller lowercase none subject' deckOrder req' := by
  have hrun : ((rowLocks discreet).exec (RowLocks.init tariffs) replayedRun).map (fun c =>
      (c.trace.getLast?.bind secondAnswer).map (fun body => body.record.orderId)) = some (some 100) := by decide
  obtain ⟨c, hc, hend⟩ := Option.map_eq_some_iff.mp hrun
  obtain ⟨body, hlast, hid⟩ := Option.map_eq_some_iff.mp hend
  obtain ⟨ev, hev, hsecond⟩ := Option.bind_eq_some_iff.mp hlast
  have hm := List.mem_of_getLast? hev
  rw [secondAnswer_eq hsecond] at hm
  exact ⟨c, body, ⟨hid, hm⟩, replays_stay_with_caller contactDigests_injective rfl (fun row hr => by cases hr)
    (RowLocks.reachable_of_exec hc) (by decide) hm⟩

end Callers

section Bodies

open Tokens

variable {app : AppState} {crates : Crates} {sha : Http.Bytes → Http.Bytes} {scope key : String} {s : World}
  {h : List Event} {pid : Nat} {subject : Option Subject} {header : Option String} {req req' : CreateOrderRequest}
  {c : LockConf Request World Tx TxResult Call Reply Answer Uuid LockRead LockRead}

/-- What binds a key to the request it was first used for: it answers no other one, and books
nothing for it. -/
structure Bound (app : AppState) (scope key : String) (h : List Event) : Prop where
  answered : ∀ pid subject header req code body,
    .answer pid (.createOrder subject header req) (.ok (.order code body)) ∈ h →
    Under app scope key h pid (.createOrder subject header req) → StoredFor scope key h req body
  single : ∀ req req' body body', StoredFor scope key h req body → StoredFor scope key h req' body' → req = req'
  refused : ∀ pid subject header req a req' body', .answer pid (.createOrder subject header req) a ∈ h →
    Under app scope key h pid (.createOrder subject header req) → StoredFor scope key h req' body' → req ≠ req' →
    (∃ e, a = .error e) ∧ ¬BookedUnder app scope key h pid

/-- A response that was stored for a request of that fingerprint. -/
def Matching (app : AppState) (scope key : String) (req : CreateOrderRequest) (h : List Event)
    (body : CreateOrderResponse) : Prop :=
  ∃ req₀, StoredFor scope key h req₀ body ∧ app.requestHash req₀ = app.requestHash req

lemma SettledFor.storedFor {body : CreateOrderResponse}
    (hs : SettledFor scope key pid (.createOrder subject header req) h body) : StoredFor scope key h req body := by
  obtain ⟨_, _, _, orderId, n, -, hm⟩ := hs
  exact ⟨pid, subject, header, orderId, n, hm⟩

lemma vouches_guarded : Vouches app (Guarded app scope key) scope key pid subject header req
    (Matching app scope key req) where
  mono hp hs := by
    obtain ⟨req₀, hstored, hhash⟩ := hs
    exact ⟨req₀, hstored.mono hp, hhash⟩
  row hI hrow hst hhash hstored := by
    obtain ⟨req₀, body₀, hs, hcode, hbody⟩ := hI.completed _ hrow hst
    rw [Idempotency.storedResponse, hcode, hbody] at hstored
    cases hstored
    obtain ⟨p, subject', header', orderId, n, hm⟩ := id hs
    obtain ⟨-, -, _, _, _, row', he, -, hrow', hrem⟩ := hI.stored p _ orderId 201 _ n hm
    cases he
    cases hrow.symm.trans hrow'
    exact ⟨req₀, hs, hrem.requestHash.symm.trans hhash⟩
  own _ hs := ⟨req, hs.storedFor, rfl⟩

/-- As long as every reservation that loses finds the row it lost to, a key stands for one request. -/
theorem keys_bind_requests (hsha : Function.Injective sha) (hids : ReadsUuids crates)
    (happ : app.requestHash = Idempotency.requestHash crates sha)
    (h₀ : s.db.idempotencyKeys.find? (scope, key) = none)
    (hc : (rowLocks app).ReachableWhen (RowStays scope key) (RowLocks.init s) c)
    (hfits : ∀ p subject header req, .arrive p (.createOrder subject header req) ∈ c.trace → RequestFits req) :
    Bound app scope key c.trace := by
  have hat := (rowLocks app).reachable_atomicWhen hc
  have hg : Guarded app scope key c.store c.trace := (keys_protocol.invariant (guarded_of_unused h₀) hat).1
  have harrived {ev : Event} (hm : ev ∈ c.trace) : .arrive ev.pid ev.request ∈ c.trace :=
    List.mem_of_getElem? ((Site.arrival_at hat).2 ev hm)
  have hstoredFits {req : CreateOrderRequest} {body : CreateOrderResponse}
      (hs : StoredFor scope key c.trace req body) : RequestFits req := by
    obtain ⟨p, subject, header, orderId, n, hm⟩ := hs
    exact hfits p subject header req (harrived hm)
  have hsame {req req' : CreateOrderRequest} (hf : RequestFits req) (hf' : RequestFits req')
      (he : app.requestHash req = app.requestHash req') : req = req' := by
    rw [happ] at he
    exact requestHash_inj hsha hids hf hf' he
  have hone {req req' : CreateOrderRequest} {body body' : CreateOrderResponse}
      (hs : StoredFor scope key c.trace req body) (hs' : StoredFor scope key c.trace req' body') : req = req' := by
    obtain ⟨p, _, _, orderId, n, hm⟩ := id hs
    obtain ⟨p', _, _, orderId', n', hm'⟩ := id hs'
    obtain ⟨-, -, _, _, _, row, he, -, hrow, hrem⟩ := hg.stored p _ orderId 201 body n hm
    obtain ⟨-, -, _, _, _, row', he', -, hrow', hrem'⟩ := hg.stored p' _ orderId' 201 body' n' hm'
    cases he
    cases he'
    cases hrow.symm.trans hrow'
    exact hsame (hstoredFits hs) (hstoredFits hs') (hrem.requestHash.symm.trans hrem'.requestHash)
  have hanswered {pid : Nat} {subject : Option Subject} {header : Option String} {req : CreateOrderRequest}
      {code : Nat} {body : CreateOrderResponse}
      (hm : .answer pid (.createOrder subject header req) (.ok (.order code body)) ∈ c.trace)
      (hu : Under app scope key c.trace pid (.createOrder subject header req)) :
      StoredFor scope key c.trace req body := by
    obtain ⟨req₀, hs, hhash⟩ := (replayed_answer (Q := Matching app scope key) (fun _ _ _ _ => vouches_guarded)
      keys_protocol (guarded_of_unused h₀) hat hm).2 hu
    rw [← hsame (hstoredFits hs) (hfits _ _ _ _ (harrived hm)) hhash]
    exact hs
  constructor
  · intro pid subject header req code body hm hu
    exact hanswered hm hu
  · intro req req' body body' hs hs'
    exact hone hs hs'
  · intro pid subject header req a req' body' hm hu hs hne
    refine ⟨?_, fun hb => hne ?_⟩
    · obtain ⟨g, l, hsplit⟩ := List.append_of_mem hm
      have hprefix : g ++ [.answer pid (.createOrder subject header req) a] <+: c.trace :=
        ⟨l, by rw [hsplit, List.append_assoc, List.singleton_append]⟩
      obtain ⟨-, r, rfl, -⟩ := keys_protocol.answered (guarded_of_unused h₀) hat hprefix subject header req rfl
      cases r with
      | error e => exact ⟨e, rfl⟩
      | ok answer => exact absurd (hone (hanswered hm hu) hs) hne
    · obtain ⟨p, subject', header', orderId, n, hstored⟩ := hs
      cases hg.single pid p (hg.booked pid hb) (hg.stored p _ orderId 201 body' n hstored).1
      have hreq := Site.one_request hat hm hstored rfl
      cases hreq
      rfl

/-- Ana's order, with a promo code. -/
def promoOrder : CreateOrderRequest := { deckOrder with promoCode := some "SUMMER" }

/-- The digests of her requests, as SHA-256 computes them. -/
def requestDigests : List (Http.Bytes × Http.Bytes) := [
  ((Idempotency.orderJson tripCrates deckOrder).toVec,
    [230, 27, 145, 104, 110, 134, 100, 205, 82, 186, 205, 33, 231, 237, 68, 25, 70, 233, 177, 71, 243, 116, 19,
     0, 199, 131, 67, 24, 243, 255, 160, 90]),
  ((Idempotency.orderJson tripCrates promoOrder).toVec,
    [82, 233, 209, 208, 57, 222, 31, 144, 188, 112, 155, 225, 12, 27, 230, 212, 59, 190, 51, 207, 26, 12, 200,
     223, 214, 240, 128, 206, 202, 52, 62, 165])]

lemma requestDigests_injective : Function.Injective (knownSha requestDigests) :=
  knownSha_injective (by decide) (by decide)

lemma fits_ana {req : CreateOrderRequest} (h : req = deckOrder ∨ req = promoOrder) : RequestFits req := by
  rcases h with rfl | rfl <;> constructor <;> simp [deckOrder, promoOrder, withQuote] <;> constructor <;> simp

/-- The fingerprint of a request, known beforehand for Ana's. -/
def fingerprint (req : CreateOrderRequest) : String :=
  if req = deckOrder then "5huRaG6GZM1Sus0h5-1EGUbpsUfzdBMAx4NDGPP_oFo"
  else if req = promoOrder then "UunR0DneH5C8cJvhDBvm1Du-M88aDMjf1vCAzso0PqU"
  else Idempotency.requestHash tripCrates (knownSha requestDigests) req

lemma fingerprint_eq : fingerprint = Idempotency.requestHash tripCrates (knownSha requestDigests) := by
  have hother : (Idempotency.orderJson tripCrates deckOrder).toVec ≠
      (Idempotency.orderJson tripCrates promoOrder).toVec := by
    intro he
    exact absurd (orderJson_toVec_inj tripCrates_uuids (fits_ana (.inl rfl)) (fits_ana (.inr rfl)) he) (by decide)
  funext req
  unfold fingerprint
  split
  · rename_i he
    have hfind : requestDigests.find?
      (fun p => decide (p.1 = (Idempotency.orderJson tripCrates deckOrder).toVec)) =
        some requestDigests[0] := List.find?_cons_of_pos (decide_eq_true rfl)
    have hknown : knownSha requestDigests
      (Idempotency.orderJson tripCrates deckOrder).toVec = requestDigests[0].2 := by
      rw [knownSha, hfind]
      rfl
    rw [he, Idempotency.requestHash, hknown]
    decide +kernel
  · split
    · rename_i he
      have hfind : requestDigests.find?
        (fun p => decide (p.1 = (Idempotency.orderJson tripCrates promoOrder).toVec)) =
          some requestDigests[1] :=
        (List.find?_cons_of_neg (by simpa using hother)).trans (List.find?_cons_of_pos (decide_eq_true rfl))
      have hknown : knownSha requestDigests (Idempotency.orderJson tripCrates promoOrder).toVec =
          requestDigests[1].2 := by
        rw [knownSha, hfind]
        rfl
      rw [he, Idempotency.requestHash, hknown]
      decide +kernel
    · rfl

/-- A deployment that fingerprints requests. -/
def careful : AppState := { sandbox with requestHash := fingerprint }

/-- An order, and another one under its key. -/
def reusedRun : List (LockAct Request Reply Oracle Nat) :=
  deckRun 0 ++ [.short 0 (drawn 0), .read 0 true, .peek 0, .short 0 (drawn 100), .short 0 (drawn 0), .answer 0,
    .arrive (.createOrder none (some "k") promoOrder), .read 5 true, .answer 5]

/-- What the requests are told: the number of an order, or that the key is taken. -/
def reuseAnswer : Event → Option (Nat × Option Uuid)
  | .answer pid _ (.ok (.order _ body)) => some (pid, some body.record.orderId)
  | .answer pid _ (.error _) => some (pid, none)
  | _ => none

/-- Ana's orders are all that is asked. -/
def asksAna : Event → Bool
  | .arrive _ (.createOrder _ _ req) => decide (req = deckOrder) || decide (req = promoOrder)
  | _ => true

/-- The second order is refused. -/
theorem keys_bind_requests_harbour :
    ∃ c : LockConf Request World Tx TxResult Call Reply Answer Uuid LockRead LockRead,
      Bound careful "guest:ana@example.com" "k" c.trace ∧
        c.trace.filterMap reuseAnswer = [(0, some 100), (5, none)] := by
  have hrun : ((rowLocks careful).execWhen (RowStays "guest:ana@example.com" "k") (RowLocks.init tariffs)
      reusedRun).map (fun c => (c.trace.all asksAna, c.trace.filterMap reuseAnswer)) =
      some (true, [(0, some 100), (5, none)]) := by decide +kernel
  obtain ⟨c, hc, hend⟩ := Option.map_eq_some_iff.mp hrun
  obtain ⟨hasked, hanswers⟩ := Prod.mk.inj hend
  refine ⟨c, keys_bind_requests requestDigests_injective tripCrates_uuids fingerprint_eq rfl
    (RowLocks.reachable_of_execWhen hc)
    (fun p subject header req hm => fits_ana ?_), hanswers⟩
  simpa [asksAna] using List.all_eq_true.mp hasked _ hm

end Bodies

end Lulan.Proofs
