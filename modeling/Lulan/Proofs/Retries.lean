import Lulan.Proofs.Histories
import Lulan.Proofs.Quotes
import Lulan.Proofs.ReadBack

/-!
# Retries under one key

A reserved key has one owner until it is given back, and only its owner books under it. That
rests on the loser of a reservation finding the row it lost to: where the row has gone by then,
the loser takes the key for its own.
-/

namespace Lulan.Proofs

open Lulan Lulan.Db Lib

section Keys

/-- The customer a request was identified as. -/
def customerIn (h : List Event) (pid : Nat) : Option Uuid :=
  h.findSome? (fun ev =>
    match ev with
    | .commit p _ (.upsertCustomer ..) (.customer id) => if p = pid then some id else none
    | _ => none)

/-- The scope of a request, once its caller is known. -/
def scopeIn (app : AppState) (h : List Event) (pid : Nat) (subject : Option Subject) (req : CreateOrderRequest) :
    Option String :=
  match subject with
  | none => some (Idempotency.scope app none (req.guestContact.map trim))
  | some _ => (customerIn h pid).map (fun id => Idempotency.scope app (some id) (req.guestContact.map trim))

/-- A `POST /v1/orders` of that scope with that `Idempotency-Key`. -/
def Under (app : AppState) (scope key : String) (h : List Event) (pid : Nat) : Request → Prop
  | .createOrder subject header req =>
    Idempotency.keyFromHeader header = some key ∧ scopeIn app h pid subject req = some scope
  | _ => False

/-- A request under the key has committed an order. -/
def BookedUnder (app : AppState) (scope key : String) (h : List Event) (pid : Nat) : Prop :=
  ∃ i order wired expiresAt record,
    .commit pid i (.createOrder order wired expiresAt) (.created record) ∈ h ∧ Under app scope key h pid i

/-- The response to `req` is stored under the key. -/
def StoredFor (scope key : String) (h : List Event) (req : CreateOrderRequest) (body : CreateOrderResponse) : Prop :=
  ∃ pid subject header orderId n,
    .commit pid (.createOrder subject header req) (.completeKey scope key orderId 201 body) (.rows n) ∈ h

/-- What a key promises: one order for all that is asked under it, whose response is every
answer with an order and, once it is stored, the answer to each later request with its body. -/
structure BookedOnce (app : AppState) (scope key : String) (h : List Event) : Prop where
  once : ∀ p q, BookedUnder app scope key h p → BookedUnder app scope key h q → p = q
  stored : ∀ req req' body body', StoredFor scope key h req body → StoredFor scope key h req' body' → body = body'
  answered : ∀ pid subject header req code body, .answer pid (.createOrder subject header req)
    (.ok (.order code body)) ∈ h → Under app scope key h pid (.createOrder subject header req) →
    code = 201 ∧ ∃ req₀, StoredFor scope key h req₀ body
  replayed : ∀ pid subject header req body a, .answer pid (.createOrder subject header req) a ∈ h →
    Under app scope key h pid (.createOrder subject header req) → StoredFor scope key (h.take pid) req body →
    a = .ok (.order 201 body) ∨ ∃ e, a = .error (.internal (.db e))

/-- The reservation that loses finds the row it has lost to. -/
def RowStays (scope key : String) (s : World) (_ : List Event) (ev : Event) : Prop :=
  match ev with
  | .commit _ _ (.selectKey scope' key') _ =>
    scope' = scope → key' = key → (s.db.idempotencyKeys.find? (scope, key)).isSome = true
  | _ => True

/-- The request has inserted the row of the key and not given it back. -/
def Owns (scope key : String) (h : List Event) (pid : Nat) : Prop :=
  (∃ i hash, .commit pid i (.insertKey scope key hash) (.rows 1) ∈ h) ∧
    ∀ i n, .commit pid i (.deletePendingKey scope key) (.rows n) ∉ h

/-- A body the handler lets pass as far as the key, for a caller of that scope. -/
def Admitted (app : AppState) (scope : String) (req : CreateOrderRequest) : Prop :=
  (∃ journeys, Orders.journeysOf req = .ok journeys) ∧
    (req.passengers.isEmpty || decide (req.passengers.length > Orders.maxPassengers)) = false ∧
    ∃ customerId, scope = Idempotency.scope app customerId (req.guestContact.map trim) ∧
      ¬(customerId.isNone = true ∧ (req.guestContact.map trim).all String.isEmpty = true)

/-- The row holds the response to `req`. -/
structure Remembers (app : AppState) (row : IdempotencyRow) (req : CreateOrderRequest) (body : CreateOrderResponse) :
    Prop where
  status : row.status = .completed
  statusCode : row.statusCode = some 201
  response : row.response = some body
  requestHash : row.requestHash = app.requestHash req

/-- What ties the row of the key to the history. -/
structure Guarded (app : AppState) (scope key : String) (s : World) (h : List Event) : Prop where
  single : ∀ p q, Owns scope key h p → Owns scope key h q → p = q
  row : ∀ p, Owns scope key h p → ∃ row i, s.db.idempotencyKeys.find? (scope, key) = some row ∧
    .commit p i (.insertKey scope key row.requestHash) (.rows 1) ∈ h
  booked : ∀ p, BookedUnder app scope key h p → Owns scope key h p
  stored : ∀ p i orderId code body n, .commit p i (.completeKey scope key orderId code body) (.rows n) ∈ h →
    Owns scope key h p ∧ code = 201 ∧ ∃ subject header req row, i = .createOrder subject header req ∧
      Admitted app scope req ∧ s.db.idempotencyKeys.find? (scope, key) = some row ∧ Remembers app row req body
  completed : ∀ row, s.db.idempotencyKeys.find? (scope, key) = some row → row.status = .completed →
    ∃ req body, StoredFor scope key h req body ∧ row.statusCode = some 201 ∧ row.response = some body

end Keys

section Callers

variable {app : AppState} {scope key : String} {h : List Event} {ev : Event} {p pid : Nat} {i : Request}

/-- The customer an event identifies a request as. -/
def identified (pid : Nat) : Event → Option Uuid
  | .commit p _ (.upsertCustomer ..) (.customer id) => if p = pid then some id else none
  | _ => none

lemma customerIn_append (h l : List Event) (pid : Nat) :
    customerIn (h ++ l) pid = (customerIn h pid).or (customerIn l pid) := List.findSome?_append

lemma customerIn_concat (h : List Event) (ev : Event) (pid : Nat) :
    customerIn (h ++ [ev]) pid = (customerIn h pid).or (identified pid ev) := by
  rw [customerIn_append]
  congr 1
  unfold customerIn identified
  rw [List.findSome?_singleton]

lemma scopeIn_mono {h' : List Event} {subject : Option Subject} {req : CreateOrderRequest} (hp : h <+: h')
    (hs : scopeIn app h pid subject req = some scope) : scopeIn app h' pid subject req = some scope := by
  obtain ⟨l, rfl⟩ := hp
  cases subject with
  | none => exact hs
  | some subject =>
    obtain ⟨id, hid, hscope⟩ := Option.map_eq_some_iff.mp hs
    refine Option.map_eq_some_iff.mpr ⟨id, ?_, hscope⟩
    rw [customerIn_append, hid, Option.some_or]

lemma under_mono {h' : List Event} (hp : h <+: h') (hu : Under app scope key h pid i) :
    Under app scope key h' pid i := by
  cases i with
  | createOrder subject header req => exact ⟨hu.1, scopeIn_mono hp hu.2⟩
  | _ => exact hu

lemma under_concat (hn : identified pid ev = none) (hu : Under app scope key (h ++ [ev]) pid i) :
    Under app scope key h pid i := by
  cases i with
  | createOrder subject header req =>
    refine ⟨hu.1, ?_⟩
    have hscope := hu.2
    cases subject with
    | none => exact hscope
    | some subject =>
      simp only [scopeIn, customerIn_concat, hn, Option.or_none] at hscope
      exact hscope
  | _ => exact hu

end Callers

section Steps

variable {app : AppState} {scope key : String} {s s' : World} {h : List Event} {ev : Event} {pid : Nat} {i : Request}

/-- The events that the row of the key answers for. -/
def concerns (scope key : String) : Event → Bool
  | .commit _ _ (.insertKey scope' key' _) (.rows n) =>
    decide (scope' = scope) && decide (key' = key) && decide (n = 1)
  | .commit _ _ (.completeKey scope' key' _ _ _) (.rows _) => decide (scope' = scope) && decide (key' = key)
  | .commit _ _ (.deletePendingKey scope' key') (.rows _) => decide (scope' = scope) && decide (key' = key)
  | _ => false

lemma mem_concat_quiet {x : Event} (hc : concerns scope key ev = false) (hx : concerns scope key x = true) :
    x ∈ h ++ [ev] ↔ x ∈ h := by
  rw [List.mem_append, List.mem_singleton]
  refine ⟨fun hm => hm.resolve_right (fun he => ?_), .inl⟩
  rw [he, hc] at hx
  cases hx

lemma owns_concat (hc : concerns scope key ev = false) :
    Owns scope key (h ++ [ev]) pid ↔ Owns scope key h pid := by
  unfold Owns
  have hins (i : Request) (hash : String) := mem_concat_quiet (h := h) (x := .commit pid i (.insertKey scope key hash)
    (.rows 1)) hc (by simp [concerns])
  have hdel (i : Request) (n : Nat) := mem_concat_quiet (h := h) (x := .commit pid i (.deletePendingKey scope key)
    (.rows n)) hc (by simp [concerns])
  simp only [hins, hdel]

lemma storedFor_concat {req : CreateOrderRequest} {body : CreateOrderResponse} (hc : concerns scope key ev = false) :
    StoredFor scope key (h ++ [ev]) req body ↔ StoredFor scope key h req body := by
  unfold StoredFor
  have hst (pid : Nat) (subject : Option Subject) (header : Option String) (orderId : Uuid) (n : Nat) :=
    mem_concat_quiet (h := h) (x := .commit pid (.createOrder subject header req)
      (.completeKey scope key orderId 201 body) (.rows n)) hc (by simp [concerns])
  simp only [hst]

lemma StoredFor.mono {h' : List Event} {req : CreateOrderRequest} {body : CreateOrderResponse}
    (hs : StoredFor scope key h req body) (hp : h <+: h') : StoredFor scope key h' req body := by
  obtain ⟨pid, subject, header, orderId, n, hm⟩ := hs
  exact ⟨pid, subject, header, orderId, n, hp.subset hm⟩

lemma Guarded.other (hg : Guarded app scope key s h) (hc : concerns scope key ev = false)
    (hrow : s'.db.idempotencyKeys.find? (scope, key) = s.db.idempotencyKeys.find? (scope, key))
    (hb : ∀ p, BookedUnder app scope key (h ++ [ev]) p → BookedUnder app scope key h p ∨ Owns scope key h p) :
    Guarded app scope key s' (h ++ [ev]) := by
  constructor
  · intro p q hp hq
    exact hg.single p q ((owns_concat hc).mp hp) ((owns_concat hc).mp hq)
  · intro p hp
    obtain ⟨row, i, hr, hm⟩ := hg.row p ((owns_concat hc).mp hp)
    exact ⟨row, i, hrow.trans hr, List.mem_append_left _ hm⟩
  · intro p hp
    exact (owns_concat hc).mpr ((hb p hp).elim (hg.booked p) id)
  · intro p i orderId code body n hm
    obtain ⟨hown, hcode, subject, header, req, row, hi, ha, hr, hh⟩ :=
      hg.stored p i orderId code body n ((mem_concat_quiet hc (by simp [concerns])).mp hm)
    exact ⟨(owns_concat hc).mpr hown, hcode, subject, header, req, row, hi, ha, hrow.trans hr, hh⟩
  · intro row hr hst
    obtain ⟨req, body, hs, hcode, hbody⟩ := hg.completed row (hrow.symm.trans hr) hst
    exact ⟨req, body, (storedFor_concat hc).mpr hs, hcode, hbody⟩

lemma bookedUnder_concat (hn : identified pid ev = none) (hb : BookedUnder app scope key (h ++ [ev]) pid) :
    BookedUnder app scope key h pid ∨ ∃ i order wired expiresAt record,
      ev = .commit pid i (.createOrder order wired expiresAt) (.created record) ∧ Under app scope key h pid i := by
  obtain ⟨i, order, wired, expiresAt, record, hm, hu⟩ := hb
  have hu' := under_concat hn hu
  rcases List.mem_append.mp hm with hm | hm
  · exact .inl ⟨i, order, wired, expiresAt, record, hm, hu'⟩
  · exact .inr ⟨i, order, wired, expiresAt, record, (List.mem_singleton.mp hm).symm, hu'⟩

lemma Guarded.quiet (hg : Guarded app scope key s h) (hev : ∀ pid i t r, ev ≠ .commit pid i t r) :
    Guarded app scope key s (h ++ [ev]) := by
  have hnone (q : Nat) : identified q ev = none := by
    cases ev with
    | commit pid i t r => exact absurd rfl (hev pid i t r)
    | _ => rfl
  have hc : concerns scope key ev = false := by
    cases ev with
    | commit pid i t r => exact absurd rfl (hev pid i t r)
    | _ => rfl
  refine hg.other hc rfl (fun p hb => .inl ?_)
  rcases bookedUnder_concat (hnone p) hb with hb | ⟨i, order, wired, expiresAt, record, he, -⟩
  · exact hb
  · exact absurd he (hev _ _ _ _)

lemma concerns_of_keyOf {t : Tx} {r : TxResult} (hk : keyOf t ≠ some (scope, key)) :
    concerns scope key (.commit pid i t r) = false := by
  have hne {scope' key' : String} (h : some (scope', key') ≠ some (scope, key)) :
      (decide (scope' = scope) && decide (key' = key)) = false := by
    rw [Bool.eq_false_iff]
    intro he
    rw [Bool.and_eq_true, decide_eq_true_iff, decide_eq_true_iff] at he
    exact h (by rw [he.1, he.2])
  cases t with
  | insertKey scope' key' hash =>
    cases r with
    | rows n => rw [concerns, hne hk, Bool.false_and]
    | _ => rfl
  | completeKey scope' key' orderId code body =>
    cases r with
    | rows n => exact hne hk
    | _ => rfl
  | deletePendingKey scope' key' =>
    cases r with
    | rows n => exact hne hk
    | _ => rfl
  | _ => rfl

lemma run_otherKey {t : Tx} (w : Oracle) (s : World) (hk : keyOf t ≠ some (scope, key)) :
    (t.run w s).2.db.idempotencyKeys.find? (scope, key) = s.db.idempotencyKeys.find? (scope, key) := by
  by_cases hnone : keyOf t = none
  · rw [run_keys t w s hnone]
  · unfold Tx.run
    cases w.fail with
    | some e => rfl
    | none =>
      cases t with
      | insertKey scope' key' hash =>
        simp only [Tx.body, Tx.settle, insertKey]
        split
        · rfl
        · rename_i idempotencyKeys hi
          rw [Lib.Table.find?_insert hi, if_neg]
          exact fun he => hk (congrArg some he)
      | selectKey scope' key' => rfl
      | completeKey scope' key' orderId code body =>
        refine Lib.Table.find?_update_of_forall_ne (fun r hr => decide_eq_false (fun he => ?_))
        exact hk (congrArg some (he.symm.trans hr))
      | deletePendingKey scope' key' =>
        change (s.db.idempotencyKeys.delete _).find? (scope, key) = _
        rw [Lib.Table.find?_delete]
        cases hf : s.db.idempotencyKeys.find? (scope, key) with
        | none => rfl
        | some row =>
          have hkey := Lib.Table.find?_key hf
          have hne : ¬row.idempotencyKey = (scope', key') := fun he => hk (congrArg some (he.symm.trans hkey))
          rw [Option.filter_some, decide_eq_false hne]
          rfl
      | _ => exact absurd rfl hnone

/-- A transaction that is not about the key. What it books under the key, the owner books. -/
lemma Guarded.elsewhere {t : Tx} (hg : Guarded app scope key s h) (w : Oracle) (hk : keyOf t ≠ some (scope, key))
    (hu : ∀ issuer subject email, t ≠ .upsertCustomer issuer subject email)
    (hb : ∀ order wired expiresAt, t = .createOrder order wired expiresAt → Under app scope key h pid i →
      Owns scope key h pid) : Guarded app scope key (t.run w s).2 (h ++ [.commit pid i t (t.run w s).1]) := by
  have hnone (q : Nat) : identified q (.commit pid i t (t.run w s).1) = none := by
    cases t with
    | upsertCustomer issuer subject email => exact absurd rfl (hu issuer subject email)
    | _ => rfl
  refine hg.other (concerns_of_keyOf hk) (run_otherKey w s hk) (fun p hbooked => ?_)
  rcases bookedUnder_concat (hnone p) hbooked with hp | ⟨j, order, wired, expiresAt, record, he, hunder⟩
  · exact .inl hp
  · obtain ⟨rfl, rfl, ht, -⟩ := Lib.Ev.commit.inj he
    exact .inr (hb order wired expiresAt ht hunder)

lemma Guarded.identify {issuer subject : String} {email : Option String} (hg : Guarded app scope key s h)
    (w : Oracle) (hfresh : ∀ j t r, .commit pid j t r ∉ h) :
    Guarded app scope key ((Tx.upsertCustomer issuer subject email).run w s).2
      (h ++ [.commit pid i (.upsertCustomer issuer subject email)
        ((Tx.upsertCustomer issuer subject email).run w s).1]) := by
  have hk : keyOf (.upsertCustomer issuer subject email) ≠ some (scope, key) := fun he => by cases he
  refine hg.other (concerns_of_keyOf hk) (run_otherKey w s hk) (fun p hbooked => .inl ?_)
  by_cases hp : p = pid
  · subst hp
    obtain ⟨j, order, wired, expiresAt, record, hm, -⟩ := hbooked
    rcases List.mem_append.mp hm with hm | hm
    · exact absurd hm (hfresh _ _ _)
    · obtain ⟨-, -, ht, -⟩ := Lib.Ev.commit.inj (List.mem_singleton.mp hm)
      cases ht
  · have hnone : identified p (.commit pid i (.upsertCustomer issuer subject email)
        ((Tx.upsertCustomer issuer subject email).run w s).1) = none := by
      unfold identified
      split
      · rename_i q _ _ _ _ _ he
        obtain ⟨rfl, -⟩ := Lib.Ev.commit.inj he
        exact if_neg (Ne.symm hp)
      · rfl
    rcases bookedUnder_concat hnone hbooked with hp' | ⟨j, order, wired, expiresAt, record, he, -⟩
    · exact hp'
    · obtain ⟨-, -, ht, -⟩ := Lib.Ev.commit.inj he
      cases ht

lemma insertKey_run (w : Oracle) (s : World) (scope key hash : String) :
    (∃ e, (Tx.insertKey scope key hash).run w s = (.failed e, s)) ∨
    ((s.db.idempotencyKeys.find? (scope, key)).isSome = true ∧ (Tx.insertKey scope key hash).run w s = (.rows 0, s)) ∨
    (s.db.idempotencyKeys.find? (scope, key) = none ∧ ((Tx.insertKey scope key hash).run w s).1 = .rows 1 ∧
      ((Tx.insertKey scope key hash).run w s).2.db.idempotencyKeys.find? (scope, key) =
        some ⟨scope, key, hash, .pending, none, none, none, s.now⟩) := by
  unfold Tx.run
  cases w.fail with
  | some e => exact .inl ⟨e, rfl⟩
  | none =>
    right
    simp only [Tx.body, Tx.settle, insertKey]
    split
    · rename_i hi
      exact .inl ⟨Option.isSome_iff_ne_none.mpr (Lib.Table.insert_eq_none.mp hi), rfl⟩
    · rename_i idempotencyKeys hi
      refine .inr ⟨(Lib.Table.insert_eq_some.mp hi).1, rfl, ?_⟩
      rw [Lib.Table.find?_insert hi]
      exact if_pos rfl

lemma completeKey_run {row : IdempotencyRow} (orderId : Uuid) (body : CreateOrderResponse) (w : Oracle)
    (hrow : s.db.idempotencyKeys.find? (scope, key) = some row) :
    (∃ e, (Tx.completeKey scope key orderId 201 body).run w s = (.failed e, s)) ∨
    (∃ n, ((Tx.completeKey scope key orderId 201 body).run w s).1 = .rows n) ∧
      ((Tx.completeKey scope key orderId 201 body).run w s).2.db.idempotencyKeys.find? (scope, key) =
        some { row with
          status := .completed
          orderId := some orderId
          statusCode := some 201
          response := some body } := by
  unfold Tx.run
  cases w.fail with
  | some e => exact .inl ⟨e, rfl⟩
  | none =>
    refine .inr ⟨⟨_, rfl⟩, ?_⟩
    change (s.db.idempotencyKeys.update _ _).find? (scope, key) = _
    rw [Lib.Table.find?_update, hrow, Option.map_some, if_pos (decide_eq_true (Lib.Table.find?_key hrow))]

lemma deletePendingKey_run (w : Oracle) (s : World) (scope key : String) :
    (∃ e, (Tx.deletePendingKey scope key).run w s = (.failed e, s)) ∨
    (∃ n, ((Tx.deletePendingKey scope key).run w s).1 = .rows n) ∧
      ((Tx.deletePendingKey scope key).run w s).2.db.idempotencyKeys.find? (scope, key) =
        (s.db.idempotencyKeys.find? (scope, key)).filter (fun r => !decide (r.status = .pending)) := by
  unfold Tx.run
  cases w.fail with
  | some e => exact .inl ⟨e, rfl⟩
  | none =>
    refine .inr ⟨⟨_, rfl⟩, ?_⟩
    change (s.db.idempotencyKeys.delete _).find? (scope, key) = _
    rw [Lib.Table.find?_delete]
    cases hf : s.db.idempotencyKeys.find? (scope, key) with
    | none => rfl
    | some row =>
      rw [Option.filter_some, Option.filter_some, decide_eq_true (Lib.Table.find?_key hf), Bool.true_and]

lemma owns_concat_other {t : Tx} {r : TxResult} {q : Nat} (hq : q ≠ pid) :
    Owns scope key (h ++ [.commit pid i t r]) q ↔ Owns scope key h q := by
  have hmem (x : Event) (hx : x.pid = q) : x ∈ h ++ [.commit pid i t r] ↔ x ∈ h := by
    rw [List.mem_append, List.mem_singleton]
    refine ⟨fun hm => hm.resolve_right (fun he => ?_), .inl⟩
    rw [he] at hx
    exact hq hx.symm
  unfold Owns
  simp only [hmem _ (show Lib.Ev.pid (.commit q _ _ _) = q from rfl)]

lemma Guarded.failed {t : Tx} {e : DbError} (hg : Guarded app scope key s h) :
    Guarded app scope key s (h ++ [.commit pid i t (.failed e)]) := by
  have hc : concerns scope key (.commit pid i t (.failed e)) = false := by
    cases t <;> rfl
  have hnone (q : Nat) : identified q (.commit pid i t (.failed e)) = none := by
    cases t <;> rfl
  refine hg.other hc rfl (fun p hb => .inl ?_)
  rcases bookedUnder_concat (hnone p) hb with hb | ⟨j, order, wired, expiresAt, record, he, -⟩
  · exact hb
  · obtain ⟨-, -, -, hr⟩ := Lib.Ev.commit.inj he
    cases hr

lemma bookedUnder_of_key {t : Tx} {r : TxResult} {q : Nat} (hk : keyOf t ≠ none)
    (hb : BookedUnder app scope key (h ++ [.commit pid i t r]) q) : BookedUnder app scope key h q := by
  have hnone : identified q (.commit pid i t r) = none := by
    cases t with
    | insertKey | selectKey | completeKey | deletePendingKey => rfl
    | _ => exact absurd rfl hk
  rcases bookedUnder_concat hnone hb with hb | ⟨j, order, wired, expiresAt, record, he, -⟩
  · exact hb
  · obtain ⟨-, -, rfl, -⟩ := Lib.Ev.commit.inj he
    exact absurd rfl hk

lemma Guarded.reserve (hg : Guarded app scope key s h) (w : Oracle) (hash : String)
    (hfresh : ∀ j n, .commit pid j (.deletePendingKey scope key) (.rows n) ∉ h) :
    Guarded app scope key ((Tx.insertKey scope key hash).run w s).2
      (h ++ [.commit pid i (.insertKey scope key hash) ((Tx.insertKey scope key hash).run w s).1]) ∧
    (((Tx.insertKey scope key hash).run w s).1 = .rows 1 →
      Owns scope key (h ++ [.commit pid i (.insertKey scope key hash) (.rows 1)]) pid) := by
  have howns : Owns scope key (h ++ [.commit pid i (.insertKey scope key hash) (.rows 1)]) pid := by
    refine ⟨⟨i, hash, List.mem_append_right _ (List.mem_singleton_self _)⟩, fun j n hm => ?_⟩
    rcases List.mem_append.mp hm with hm | hm
    · exact hfresh j n hm
    · obtain ⟨-, -, ht, -⟩ := Lib.Ev.commit.inj (List.mem_singleton.mp hm)
      cases ht
  refine ⟨?_, fun _ => howns⟩
  rcases insertKey_run w s scope key hash with ⟨e, h'⟩ | ⟨-, h'⟩ | ⟨hnone, hres, hrow⟩
  · rw [h']
    exact hg.failed
  · rw [h']
    have hc : concerns scope key (.commit pid i (.insertKey scope key hash) (.rows 0)) = false := by
      simp [concerns]
    refine hg.other hc rfl (fun p hb => .inl (bookedUnder_of_key (by simp [keyOf]) hb))
  · rw [hres]
    have hfree (q : Nat) : ¬Owns scope key h q := by
      intro hq
      obtain ⟨row, j, hr, -⟩ := hg.row q hq
      rw [hnone] at hr
      cases hr
    have hmine (q : Nat) (hq : Owns scope key (h ++ [.commit pid i (.insertKey scope key hash) (.rows 1)]) q) :
        q = pid := by
      by_contra hne
      exact hfree q ((owns_concat_other hne).mp hq)
    constructor
    · intro p q hp hq
      rw [hmine p hp, hmine q hq]
    · intro p hp
      rw [hmine p hp]
      exact ⟨_, i, hrow, List.mem_append_right _ (List.mem_singleton_self _)⟩
    · intro p hb
      exact absurd (hg.booked p (bookedUnder_of_key (by simp [keyOf]) hb)) (hfree p)
    · intro p j orderId code body n hm
      rcases List.mem_append.mp hm with hm | hm
      · exact absurd (hg.stored p j orderId code body n hm).1 (hfree p)
      · obtain ⟨-, -, ht, -⟩ := Lib.Ev.commit.inj (List.mem_singleton.mp hm)
        cases ht
    · intro row hr hst
      rw [hrow] at hr
      cases hr
      cases hst

lemma Guarded.complete {subject : Option Subject} {header : Option String} {req : CreateOrderRequest} {orderId : Uuid}
    {body : CreateOrderResponse} (hg : Guarded app scope key s h) (w : Oracle) (hown : Owns scope key h pid)
    (hadm : Admitted app scope req)
    (hhash : ∀ j hash, .commit pid j (.insertKey scope key hash) (.rows 1) ∈ h → hash = app.requestHash req)
    (hnew : ∀ j orderId code body n, .commit pid j (.completeKey scope key orderId code body) (.rows n) ∉ h) :
    Guarded app scope key ((Tx.completeKey scope key orderId 201 body).run w s).2
      (h ++ [.commit pid (.createOrder subject header req) (.completeKey scope key orderId 201 body)
        ((Tx.completeKey scope key orderId 201 body).run w s).1]) := by
  obtain ⟨row, j, hrow, hins⟩ := hg.row pid hown
  rcases completeKey_run orderId body w hrow with ⟨e, h'⟩ | ⟨⟨n, hres⟩, hrow'⟩
  · rw [h']
    exact hg.failed
  · rw [hres]
    have howns (q : Nat) : Owns scope key (h ++ [.commit pid (.createOrder subject header req)
        (.completeKey scope key orderId 201 body) (.rows n)]) q ↔ Owns scope key h q := by
      unfold Owns
      simp only [List.mem_append, List.mem_singleton, Lib.Ev.commit.injEq, reduceCtorEq, false_and, and_false,
        or_false]
    constructor
    · intro p q hp hq
      exact hg.single p q ((howns p).mp hp) ((howns q).mp hq)
    · intro p hp
      rw [hg.single p pid ((howns p).mp hp) hown]
      exact ⟨_, j, hrow', List.mem_append_left _ hins⟩
    · intro p hb
      exact (howns p).mpr (hg.booked p (bookedUnder_of_key (by simp [keyOf]) hb))
    · intro p k orderId' code body' n' hm
      rcases List.mem_append.mp hm with hold | hlast
      · have hp := hg.single p pid (hg.stored p k orderId' code body' n' hold).1 hown
        rw [hp] at hold
        exact absurd hold (hnew k orderId' code body' n')
      · obtain ⟨rfl, rfl, ht, -⟩ := Lib.Ev.commit.inj (List.mem_singleton.mp hlast)
        cases ht
        exact ⟨(howns p).mpr hown, rfl, subject, header, req, _, rfl, hadm, hrow', rfl, rfl, rfl, hhash j _ hins⟩
    · intro row' hr _
      rw [hrow'] at hr
      cases hr
      exact ⟨req, body, ⟨pid, subject, header, orderId, n, List.mem_append_right _ (List.mem_singleton_self _)⟩, rfl, rfl⟩

lemma Guarded.giveBack (hg : Guarded app scope key s h) (w : Oracle) (hown : Owns scope key h pid)
    (hnobooking : ¬BookedUnder app scope key h pid)
    (hnew : ∀ j orderId code body n, .commit pid j (.completeKey scope key orderId code body) (.rows n) ∉ h) :
    Guarded app scope key ((Tx.deletePendingKey scope key).run w s).2
      (h ++ [.commit pid i (.deletePendingKey scope key) ((Tx.deletePendingKey scope key).run w s).1]) := by
  rcases deletePendingKey_run w s scope key with ⟨e, h'⟩ | ⟨⟨n, hres⟩, hrow'⟩
  · rw [h']
    exact hg.failed
  · rw [hres]
    have hfree (q : Nat) : ¬Owns scope key (h ++ [.commit pid i (.deletePendingKey scope key) (.rows n)]) q := by
      intro hq
      by_cases hne : q = pid
      · subst hne
        exact hq.2 i n (List.mem_append_right _ (List.mem_singleton_self _))
      · exact hne (hg.single q pid ((owns_concat_other hne).mp hq) hown)
    have hnone : ∀ p j orderId code body n, .commit p j (.completeKey scope key orderId code body) (.rows n) ∉ h := by
      intro p j orderId code body n hm
      have hp := hg.single p pid (hg.stored p j orderId code body n hm).1 hown
      subst hp
      exact hnew j orderId code body n hm
    constructor
    · exact fun p q hp => absurd hp (hfree p)
    · exact fun p hp => absurd hp (hfree p)
    · intro p hb
      have hb' := bookedUnder_of_key (by simp [keyOf]) hb
      have hp := hg.single p pid (hg.booked p hb') hown
      subst hp
      exact absurd hb' hnobooking
    · intro p j orderId code body n' hm
      rcases List.mem_append.mp hm with hm | hm
      · exact absurd hm (hnone p j orderId code body n')
      · obtain ⟨-, -, ht, -⟩ := Lib.Ev.commit.inj (List.mem_singleton.mp hm)
        cases ht
    · intro row hr hst
      rw [hrow'] at hr
      obtain ⟨hold, -⟩ := Option.filter_eq_some_iff.mp hr
      obtain ⟨req, body, ⟨p, subject, header, orderId, n', hm⟩, -⟩ := hg.completed row hold hst
      exact absurd hm (hnone p _ orderId 201 body n')

end Steps

section Requests

variable {app : AppState} {scope key : String} {h h₀ g g' : List Event} {pid : Nat} {i : Request}
  {subject : Option Subject} {header : Option String} {req : CreateOrderRequest}

/-- So far the request has identified its caller at most. -/
def Introduced (pid : Nat) (g : List Event) : Prop :=
  ∀ j t r, .commit pid j t r ∈ g → ∃ issuer name email, t = .upsertCustomer issuer name email

/-- The request has the key and has stored nothing under it. -/
structure Reserving (app : AppState) (scope key : String) (pid : Nat) (req : CreateOrderRequest) (g : List Event) :
    Prop where
  owns : Owns scope key g pid
  unstored : ∀ j orderId code body n, .commit pid j (.completeKey scope key orderId code body) (.rows n) ∉ g
  hash : ∀ j hash, .commit pid j (.insertKey scope key hash) (.rows 1) ∈ g → hash = app.requestHash req

def Unbooked (pid : Nat) (g : List Event) : Prop :=
  ∀ j order wired expiresAt record, .commit pid j (.createOrder order wired expiresAt) (.created record) ∉ g

lemma Introduced.later (hf : Introduced pid g) (hl : Site.Later pid g g') : Introduced pid g' :=
  fun j t r hm => hf j t r (hl.own hm rfl)

lemma Reserving.later (hh : Reserving app scope key pid req g) (hl : Site.Later pid g g') :
    Reserving app scope key pid req g' := by
  obtain ⟨⟨⟨j, hash, hins⟩, hdel⟩, hst, hhash⟩ := hh
  exact ⟨⟨⟨j, hash, hl.mem hins⟩, fun j n hm => hdel j n (hl.own hm rfl)⟩,
    fun j orderId code body n hm => hst j orderId code body n (hl.own hm rfl),
    fun j hash hm => hhash j hash (hl.own hm rfl)⟩

lemma Unbooked.later (hu : Unbooked pid g) (hl : Site.Later pid g g') : Unbooked pid g' :=
  fun j order wired expiresAt record hm => hu j order wired expiresAt record (hl.own hm rfl)

lemma mem_concat_call {x : Event} {q : Call} {b : Reply} (hx : ∀ p j q b, x ≠ .call p j q b) :
    x ∈ g ++ [.call pid i q b] ↔ x ∈ g := by
  rw [List.mem_append, List.mem_singleton]
  exact ⟨fun hm => hm.resolve_right (hx pid i q b), .inl⟩

lemma Introduced.call {q : Call} {b : Reply} (hf : Introduced pid g) : Introduced pid (g ++ [.call pid i q b]) :=
  fun j t r hm => hf j t r ((mem_concat_call (fun _ _ _ _ he => by cases he)).mp hm)

lemma Reserving.call {q : Call} {b : Reply} (hh : Reserving app scope key pid req g) :
    Reserving app scope key pid req (g ++ [.call pid i q b]) := by
  have hmem {j : Request} {t : Tx} {r : TxResult} : .commit pid j t r ∈ g ++ [.call pid i q b] ↔
      .commit pid j t r ∈ g := mem_concat_call (fun _ _ _ _ he => by cases he)
  obtain ⟨⟨⟨j, hash, hins⟩, hdel⟩, hst, hhash⟩ := hh
  exact ⟨⟨⟨j, hash, hmem.mpr hins⟩, fun j n hm => hdel j n (hmem.mp hm)⟩,
    fun j orderId code body n hm => hst j orderId code body n (hmem.mp hm), fun j hash hm => hhash j hash (hmem.mp hm)⟩

lemma silent_keeps {ε α : Type} {J : World → Prop} {Q : Call → Prop} {R : α → Prop} {C : List Event → Prop}
    {x : Io ε α} (hx : IoOnly J (fun _ => False) Q R x) (hJ : ∀ s, J s)
    (hlater : ∀ g g', Site.Later pid g g' → C g → C g') (hcall : ∀ g q b, C g → C (g ++ [.call pid i q b]))
    (hC : C h) : (site app).Keeps (RowStays scope key) (Guarded app scope key) pid i
      (fun g r => C g ∧ ∀ a, r = .ok a → R a) x h :=
  Site.keeps_carrying hx (fun s _ _ _ => hJ s) hlater (fun _ _ _ _ hf => hf.elim)
    (fun q b _ g _ _ hI hC _ => ⟨hI.quiet (fun _ _ _ _ he => by cases he), hcall g q b hC⟩) h hC

/-- What is known of the caller: the scope of the request, or why it goes no further. -/
def Identified (app : AppState) (pid : Nat) (subject : Option Subject) (req : CreateOrderRequest) (g : List Event) :
    Except ApiError (Option Uuid × Option String) → Prop
  | .ok who => Introduced pid g ∧ who.2 = req.guestContact.map trim ∧
      scopeIn app g pid subject req = some (Idempotency.scope app who.1 (req.guestContact.map trim)) ∧
      ¬(who.1.isNone = true ∧ (req.guestContact.map trim).all String.isEmpty = true)
  | .error e => (∃ d, e = .internal (.db d)) ∨
      subject = none ∧ (req.guestContact.map trim).all String.isEmpty = true

lemma identify_keeps (hfresh : ∀ j t r, .commit pid j t r ∉ h) :
    (site app).Keeps (RowStays scope key) (Guarded app scope key) pid i (Identified app pid subject req)
      (Orders.identify subject req) h := by
  have hnobody {g : List Event} (hl : Site.Later pid h g) : ∀ j t r, .commit pid j t r ∉ g :=
    fun j t r hm => hfresh j t r (hl.own hm rfl)
  unfold Orders.identify
  refine keeps_seq (R := fun g r => (∀ e, r = .error e → ∃ d, e = .internal (.db d)) ∧
    ∀ customerId, r = .ok customerId → Introduced pid g ∧ customerId.isNone = subject.isNone ∧
      scopeIn app g pid subject req = some (Idempotency.scope app customerId (req.guestContact.map trim))) ?_
    (fun customerId g hr => ?_) (fun e g hr _ _ => .inl (hr.1 e rfl))
  · unfold Orders.customerOf
    cases subject with
    | none =>
      refine keeps_pure (fun g hl => ⟨fun e he => (by cases he), fun customerId hc => ?_⟩)
      cases hc
      exact ⟨fun j t r hm => absurd hm (hnobody hl j t r), rfl, rfl⟩
    | some subject =>
      refine keeps_seq (R := fun g r => (∀ e, r = .error e → ∃ d, e = .internal (.db d)) ∧
        ∀ id, r = .ok id → Introduced pid g ∧ customerIn g pid = some id) ?_ (fun id g hr => ?_)
        (fun e g hr _ _ => ⟨fun e' he => hr.1 e' (by cases he; rfl), fun _ hc => by cases hc⟩)
      · refine keeps_transact (fun w s g hl hI _ => ⟨hI.identify w (hnobody hl), fun g' hl' => ?_⟩)
        have hown : Introduced pid (g ++ [.commit pid i (.upsertCustomer subject.issuer subject.subject subject.email)
            ((Tx.upsertCustomer subject.issuer subject.subject subject.email).run w s).1]) := by
          intro j t r hm
          rcases List.mem_append.mp hm with hm | hm
          · exact absurd hm (hnobody hl j t r)
          · obtain ⟨-, -, rfl, -⟩ := Lib.Ev.commit.inj (List.mem_singleton.mp hm)
            exact ⟨_, _, _, rfl⟩
        refine ⟨fun e he => ?_, fun id hid => ⟨hown.later hl', ?_⟩⟩
        · unfold txResult at he
          split at he
          · cases he
            exact ⟨_, rfl⟩
          · split at he
            · cases he
            · cases he
              exact ⟨_, rfl⟩
        · have hres := txResult_eq_ok hid
          have hbefore : customerIn g pid = none := by
            refine List.findSome?_eq_none_iff.mpr (fun ev hev => ?_)
            split
            · rename_i p j _ _ _ id'
              by_cases hp : p = pid
              · subst hp
                exact absurd hev (hnobody hl _ _ _)
              · exact if_neg hp
            · rfl
          obtain ⟨l, rfl, -⟩ := hl'
          rw [customerIn_append, customerIn_concat, hbefore, Option.none_or]
          cases hr : ((Tx.upsertCustomer subject.issuer subject.subject subject.email).run w s).1 <;>
            rw [hr] at hres <;> cases hres
          simp [identified]
      · obtain ⟨hf, hid⟩ := hr.2 id rfl
        refine keeps_pure (fun g' hl => ⟨fun e he => (by cases he), fun customerId hc => ?_⟩)
        cases hc
        refine ⟨hf.later hl, rfl, scopeIn_mono hl.extends ?_⟩
        exact Option.map_eq_some_iff.mpr ⟨id, hid, rfl⟩
  · obtain ⟨hf, hsame, hscope⟩ := hr.2 customerId rfl
    simp only
    split
    · rename_i hempty
      refine keeps_throw (fun _ _ => .inr ⟨?_, hempty.2⟩)
      rw [hsame] at hempty
      exact Option.isNone_iff_eq_none.mp hempty.1
    · rename_i hguest
      exact keeps_pure (fun g' hl => ⟨hf.later hl, rfl, scopeIn_mono hl.extends hscope, hguest⟩)

lemma replay_keeps (hh : h₀ <+: h) (hi : Introduced pid h) :
    (site app).Keeps (RowStays scope key) (Guarded app scope key) pid i
      (fun g r => Introduced pid g ∧
        (∀ code body, r = .ok (some (code, body)) → code = 201 ∧ ∃ req₀, StoredFor scope key g req₀ body) ∧
        ∀ body, StoredFor scope key h₀ req body →
          r = .ok (some (201, body)) ∨ ∃ e, r = .error (.internal (.db e)))
      (Idempotency.replayIfCompleted (some key) scope (app.requestHash req)) h := by
  unfold Idempotency.replayIfCompleted
  simp only
  refine keeps_seq (R := fun g r => Introduced pid g ∧ (∀ e, r = .error e → ∃ d, e = .internal (.db d)) ∧
    ∀ found, r = .ok found →
      (∀ row, found = some row → ∃ req₀ body, StoredFor scope key g req₀ body ∧ row.statusCode = some 201 ∧
        row.response = some body) ∧
      ∀ body, StoredFor scope key h₀ req body → ∃ row, found = some row ∧ Remembers app row req body) ?_
    (fun found g hr => ?_) (fun e g hr g' hl => ?_)
  · refine keeps_query (fun g hl => ⟨hi.later hl, fun e he => ?_, fun _ hf => by cases hf⟩)
      (fun w g hl hI g' hl' => ⟨hi.later (hl.trans hl'), fun e he => (by cases he), fun found hf => ?_⟩)
    · cases he
      exact ⟨_, rfl⟩
    · cases hf
      refine ⟨fun row hrow => ?_, fun body hs => ?_⟩
      · obtain ⟨hrow, hst⟩ := Option.filter_eq_some_iff.mp hrow
        obtain ⟨req₀, body, hs, hcode, hbody⟩ := hI.completed row hrow (eq_of_beq hst)
        exact ⟨req₀, body, hs.mono hl'.extends, hcode, hbody⟩
      · obtain ⟨p, subject', header', orderId, n, hm⟩ := hs.mono (hh.trans hl.extends)
        obtain ⟨-, -, _, _, _, row, hreq, -, hrow, hrem⟩ := hI.stored p _ orderId 201 body n hm
        cases hreq
        refine ⟨row, ?_, hrem⟩
        change Option.filter _ (w.db.idempotencyKeys.find? (scope, key)) = some row
        rw [hrow, Option.filter_some, hrem.status]
        rfl
  · obtain ⟨hin, -, hfound⟩ := hr
    obtain ⟨hcorrect, hthere⟩ := hfound found rfl
    have hnot {body : CreateOrderResponse} (hn : found = none) : ¬StoredFor scope key h₀ req body := by
      intro hs
      obtain ⟨row, hrow, -⟩ := hthere body hs
      rw [hn] at hrow
      cases hrow
    cases found with
    | none =>
      refine keeps_pure (fun g' hl => ⟨hin.later hl, fun code body he => (by cases he), fun body hs => ?_⟩)
      exact absurd hs (hnot rfl)
    | some row =>
      obtain ⟨req₀, body₀, hs₀, hcode, hbody⟩ := hcorrect row rfl
      have hstored : Idempotency.storedResponse row = .ok (201, body₀) := by
        rw [Idempotency.storedResponse, hcode, hbody]
        rfl
      simp only [hstored]
      split
      · rename_i hne
        refine keeps_throw (fun g' hl => ⟨hin.later hl, fun code body he => (by cases he), fun body hs => ?_⟩)
        obtain ⟨row', hrow, hrem⟩ := hthere body hs
        cases hrow
        exact absurd hrem.requestHash hne
      · refine keeps_pure (fun g' hl => ⟨hin.later hl, fun code body he => ?_, fun body hs => .inl ?_⟩)
        · cases he
          exact ⟨rfl, req₀, hs₀.mono hl.extends⟩
        · obtain ⟨row', hrow, hrem⟩ := hthere body hs
          cases hrow
          rw [hrem.response] at hbody
          cases hbody
          rfl
  · obtain ⟨hin, herr, -⟩ := hr
    obtain ⟨d, rfl⟩ := herr e rfl
    exact ⟨hin.later hl, fun code body he => (by cases he), fun body _ => .inr ⟨d, rfl⟩⟩

/-- The reservation: the key is the request's own, or its response is replayed. -/
lemma reserve_keeps (hi : Introduced pid h) :
    (site app).Keeps (RowStays scope key) (Guarded app scope key) pid i
      (OnOk (fun g reserved => reserved = .held ⟨scope, key⟩ ∧ Reserving app scope key pid req g ∧ Unbooked pid g ∨
        ∃ body req₀, reserved = .replay 201 body ∧ StoredFor scope key g req₀ body))
      (Idempotency.reserve (some key) scope (app.requestHash req)) h := by
  unfold Idempotency.reserve
  simp only
  refine keeps_seq (R := OnOk (fun g n => n = 1 → Reserving app scope key pid req g ∧ Unbooked pid g)) ?_
    (fun n g hr => ?_) (fun _ _ _ _ _ => onOk_error)
  · refine keeps_transact (fun w s g hl hI _ => ?_)
    have hin := hi.later hl
    obtain ⟨hg, hown⟩ := hI.reserve w (app.requestHash req) (fun j n hm => by
      obtain ⟨_, _, _, ht⟩ := hin _ _ _ hm
      cases ht)
    refine ⟨hg, fun g' hl' n hn hone => ?_⟩
    have hres := txResult_eq_ok hn
    subst hone
    have hrows : ((Tx.insertKey scope key (app.requestHash req)).run w s).1 = .rows 1 := by
      cases hr : ((Tx.insertKey scope key (app.requestHash req)).run w s).1 <;> rw [hr] at hres <;> cases hres
      rfl
    rw [hrows] at hl'
    have hunstored : ∀ j orderId code body n, .commit pid j (.completeKey scope key orderId code body) (.rows n) ∉
        g ++ [.commit pid i (.insertKey scope key (app.requestHash req)) (.rows 1)] := by
      intro j orderId code body n hm
      rcases List.mem_append.mp hm with hm | hm
      · obtain ⟨_, _, _, ht⟩ := hin _ _ _ hm
        cases ht
      · obtain ⟨-, -, ht, -⟩ := Lib.Ev.commit.inj (List.mem_singleton.mp hm)
        cases ht
    have hhash : ∀ j hash, .commit pid j (.insertKey scope key hash) (.rows 1) ∈
        g ++ [.commit pid i (.insertKey scope key (app.requestHash req)) (.rows 1)] → hash = app.requestHash req := by
      intro j hash hm
      rcases List.mem_append.mp hm with hm | hm
      · obtain ⟨_, _, _, ht⟩ := hin _ _ _ hm
        cases ht
      · obtain ⟨-, -, ht, -⟩ := Lib.Ev.commit.inj (List.mem_singleton.mp hm)
        cases ht
        rfl
    have hunbooked : Unbooked pid (g ++ [.commit pid i (.insertKey scope key (app.requestHash req)) (.rows 1)]) := by
      intro j order wired expiresAt record hm
      rcases List.mem_append.mp hm with hm | hm
      · obtain ⟨_, _, _, ht⟩ := hin _ _ _ hm
        cases ht
      · obtain ⟨-, -, ht, -⟩ := Lib.Ev.commit.inj (List.mem_singleton.mp hm)
        cases ht
    exact ⟨Reserving.later ⟨hown hrows, hunstored, hhash⟩ hl', hunbooked.later hl'⟩
  · have hclaimed := onOk_ok.mp hr
    split
    · rename_i hone
      obtain ⟨hres, hun⟩ := hclaimed hone
      exact keeps_pure (fun g' hl => onOk_ok.mpr (.inl ⟨rfl, hres.later hl, hun.later hl⟩))
    · refine keeps_seq (R := OnOk (fun g found => ∃ row : IdempotencyRow, found = some row ∧
        (row.status = .completed → ∃ req₀ body, StoredFor scope key g req₀ body ∧ row.statusCode = some 201 ∧
          row.response = some body))) ?_ (fun found g' hf => ?_) (fun _ _ _ _ _ => onOk_error)
      · refine keeps_transact (fun w s g' hl hI hG => ?_)
        have hk : keyOf (.selectKey scope key) ≠ none := by simp [keyOf]
        have hrun : (Tx.selectKey scope key).run w s = (.keyRow (s.db.idempotencyKeys.find? (scope, key)), s) ∨
            ∃ e, (Tx.selectKey scope key).run w s = (.failed e, s) := by
          unfold Tx.run
          cases w.fail with
          | some e => exact .inr ⟨e, rfl⟩
          | none => exact .inl rfl
        rcases hrun with hrun | ⟨e, hrun⟩
        · rw [hrun]
          refine ⟨hI.other rfl rfl (fun p hb => .inl (bookedUnder_of_key hk hb)), fun g'' hl' found hf => ?_⟩
          cases hf
          obtain ⟨row, hrow⟩ := Option.isSome_iff_exists.mp (hG rfl rfl)
          refine ⟨row, hrow, fun hst => ?_⟩
          obtain ⟨req₀, body, hs, hcode, hbody⟩ := hI.completed row hrow hst
          exact ⟨req₀, body, hs.mono ((List.prefix_append _ _).trans hl'.extends), hcode, hbody⟩
        · rw [hrun]
          exact ⟨hI.failed, fun _ _ => onOk_error⟩
      · obtain ⟨row, rfl, hstored⟩ := onOk_ok.mp hf
        simp only
        split
        · exact keeps_throw (fun _ _ => onOk_error)
        · split
          · rename_i hst
            obtain ⟨req₀, body, hs, hcode, hbody⟩ := hstored hst
            have hresponse : Idempotency.storedResponse row = .ok (201, body) := by
              rw [Idempotency.storedResponse, hcode, hbody]
              rfl
            rw [hresponse]
            exact keeps_pure (fun g'' hl => onOk_ok.mpr (.inr ⟨body, req₀, rfl, hs.mono hl.extends⟩))
          · exact keeps_throw (fun _ _ => onOk_error)

lemma createStore_keeps {order : NewOrder} (hr : Reserving app scope key pid req h) (hu : Unbooked pid h) :
    (site app).Keeps (RowStays scope key) (Guarded app scope key) pid i
      (fun g r => Reserving app scope key pid req g ∧ ((∃ record, r = .ok (.created record)) ∨ Unbooked pid g))
      (OrderStore.create order) h := by
  have hend {g : List Event} {r : Except StoreError CreateOutcome} (hl : Site.Later pid h g) :
      Reserving app scope key pid req g ∧ ((∃ record, r = .ok (.created record)) ∨ Unbooked pid g) :=
    ⟨hr.later hl, .inr (hu.later hl)⟩
  unfold OrderStore.create
  split
  · exact keeps_pure (fun _ hl => hend hl)
  · split
    · exact keeps_pure (fun _ hl => hend hl)
    · refine keeps_seq (silent_keeps (C := fun g => Reserving app scope key pid req g ∧ Unbooked pid g)
        (resolveTargets_only (J := fun _ => True) (Q := fun _ => True)) (fun _ => trivial)
        (fun _ _ hl hC => ⟨hC.1.later hl, hC.2.later hl⟩) (fun g q b hC => ⟨hC.1.call, fun j o wi e rec hm => ?_⟩)
        ⟨hr, hu⟩) (fun found g hg => ?_) (fun e g hg g' hl => ⟨hg.1.1.later hl, .inr (hg.1.2.later hl)⟩)
      · exact hC.2 j o wi e rec ((mem_concat_call (fun _ _ _ _ he => by cases he)).mp hm)
      · obtain ⟨⟨hr, hu⟩, -⟩ := hg
        have hend {g' : List Event} {r : Except StoreError CreateOutcome} (hl : Site.Later pid g g') :
            Reserving app scope key pid req g' ∧ ((∃ record, r = .ok (.created record)) ∨ Unbooked pid g') :=
          ⟨hr.later hl, .inr (hu.later hl)⟩
        cases found with
        | error outcome => exact keeps_pure (fun _ hl => hend hl)
        | ok targets =>
          simp only
          split
          · exact keeps_pure (fun _ hl => hend hl)
          · rename_i wired hw
            split
            · exact keeps_pure (fun _ hl => hend hl)
            · refine keeps_seq (R := fun g' _ => Reserving app scope key pid req g' ∧ Unbooked pid g')
                (keeps_now (fun _ _ hl => ⟨hr.later hl, hu.later hl⟩)) (fun now g' hg => ?_)
                (fun _ _ hg _ hl => ⟨hg.1.later hl, .inr (hg.2.later hl)⟩)
              refine keeps_transact (fun w s g'' hl hI _ => ?_)
              have hk : keyOf (.createOrder order wired (now + orderTtlMinutes * 60)) ≠ some (scope, key) :=
                fun he => by cases he
              have hres := hg.1.later hl
              refine ⟨hI.elsewhere w hk (fun _ _ _ he => by cases he) (fun _ _ _ _ _ => hres.owns), ?_⟩
              intro g₃ hl'
              have hmem {j : Request} {t : Tx} {r : TxResult} (ht : keyOf t ≠ none) : .commit pid j t r ∈
                  g'' ++ [.commit pid i (.createOrder order wired (now + orderTtlMinutes * 60))
                    ((Tx.createOrder order wired (now + orderTtlMinutes * 60)).run w s).1] ↔
                  .commit pid j t r ∈ g'' := by
                rw [List.mem_append, List.mem_singleton]
                refine ⟨fun hm => hm.resolve_right (fun he => ?_), .inl⟩
                obtain ⟨-, -, rfl, -⟩ := Lib.Ev.commit.inj he
                exact ht rfl
              have hkept : Reserving app scope key pid req
                  (g'' ++ [.commit pid i (.createOrder order wired (now + orderTtlMinutes * 60))
                    ((Tx.createOrder order wired (now + orderTtlMinutes * 60)).run w s).1]) := by
                obtain ⟨⟨⟨j, hash, hins⟩, hdel⟩, hst, hhash⟩ := hres
                exact ⟨⟨⟨j, hash, (hmem (by simp [keyOf])).mpr hins⟩,
                    fun j n hm => hdel j n ((hmem (by simp [keyOf])).mp hm)⟩,
                  fun j orderId code body n hm => hst j orderId code body n ((hmem (by simp [keyOf])).mp hm),
                  fun j hash hm => hhash j hash ((hmem (by simp [keyOf])).mp hm)⟩
              refine ⟨hkept.later hl', ?_⟩
              by_cases hcreated : ∃ record, ((Tx.createOrder order wired (now + orderTtlMinutes * 60)).run w s).1 =
                  .created record
              · obtain ⟨record, hrec⟩ := hcreated
                rw [hrec]
                exact .inl ⟨record, rfl⟩
              · refine .inr (Unbooked.later (fun j o wi e record hm => ?_) hl')
                rcases List.mem_append.mp hm with hm | hm
                · exact (hg.2.later hl) j o wi e record hm
                · obtain ⟨-, -, -, hrec⟩ := Lib.Ev.commit.inj (List.mem_singleton.mp hm)
                  exact hcreated ⟨record, hrec.symm⟩

/-- The reservation window of the owner: what it answers with an order, it has stored. -/
lemma book_keeps {order : NewOrder} {holdId : Option Uuid} (hadm : Admitted app scope req)
    (hr : Reserving app scope key pid req h) (hu : Unbooked pid h) :
    (site app).Keeps (RowStays scope key) (Guarded app scope key) pid (.createOrder subject header req)
      (OnOk (fun g answer => answer.1 = 201 ∧ StoredFor scope key g req answer.2))
      (Orders.book app (some ⟨scope, key⟩) order holdId) h := by
  have hback {e : ApiError} {g : List Event} (hr : Reserving app scope key pid req g) (hu : Unbooked pid g) :
      (site app).Keeps (RowStays scope key) (Guarded app scope key) pid (.createOrder subject header req)
        (OnOk (fun g answer => answer.1 = 201 ∧ StoredFor scope key g req answer.2))
        (Orders.giveBack (some ⟨scope, key⟩) >>= fun _ => throw e : Handler (Nat × CreateOrderResponse)) g := by
    refine keeps_seq (R := fun _ _ => True) ?_ (fun _ _ _ => keeps_throw (fun _ _ => onOk_error))
      (fun _ _ _ _ _ => onOk_error)
    simp only [Orders.giveBack, Idempotency.release]
    refine keeps_seq (R := fun _ _ => True) (keeps_attempt (R := fun _ _ => True) ?_ (fun _ _ _ _ _ => trivial))
      (fun _ _ _ => keeps_pure (fun _ _ => trivial)) (fun _ _ _ _ _ => trivial)
    refine keeps_transact (fun w s g' hl hI _ => ⟨?_, fun _ _ => trivial⟩)
    have hres := hr.later hl
    refine hI.giveBack w hres.owns (fun hb => ?_) hres.unstored
    obtain ⟨j, o, wi, e, record, hm, -⟩ := hb
    exact (hu.later hl) j o wi e record hm
  unfold Orders.book
  refine keeps_seq (keeps_attempt (createStore_keeps hr hu) (T := fun g r => ∃ o, r = .ok o ∧
    Reserving app scope key pid req g ∧ ((∃ record, o = .ok (.created record)) ∨ Unbooked pid g)) ?_)
    (fun o g ho => ?_) (fun e g he => ?_)
  · intro r g hg g' hl
    exact ⟨r, rfl, hg.1.later hl, hg.2.imp_right (fun hu => hu.later hl)⟩
  · obtain ⟨_, ho, hr, hcases⟩ := ho
    cases ho
    split
    · rename_i record
      refine keeps_seq (silent_keeps (C := fun g => Reserving app scope key pid req g)
        (releaseHold_only (J := fun _ => True) (Q := fun _ => True) (fun _ => trivial)) (fun _ => trivial)
        (fun _ _ hl hC => hC.later hl) (fun g q b hC => hC.call) hr) (fun _ g' hg => ?_)
        (fun _ _ _ _ _ => onOk_error)
      simp only [Orders.complete]
      refine keeps_seq (R := OnOk (fun g _ => StoredFor scope key g req
        ⟨record, app.retrievalToken record.orderId, order.customerId⟩)) ?_ (fun _ g'' hs => ?_)
        (fun _ _ _ _ _ => onOk_error)
      · refine keeps_seq (R := OnOk (fun g _ => StoredFor scope key g req
          ⟨record, app.retrievalToken record.orderId, order.customerId⟩)) ?_ (fun _ g'' hs => ?_)
          (fun _ _ _ _ _ => onOk_error)
        · refine keeps_transact (fun w s g'' hl hI _ => ?_)
          have hres := hg.1.later hl
          refine ⟨hI.complete w hres.owns hadm hres.hash hres.unstored, fun g₃ hl' n hn => ?_⟩
          have hrows := txResult_eq_ok hn
          refine StoredFor.mono ⟨pid, subject, header, record.orderId, n, ?_⟩ hl'.extends
          refine List.mem_append_right _ (List.mem_singleton.mpr ?_)
          cases hr : ((Tx.completeKey scope key record.orderId 201
            ⟨record, app.retrievalToken record.orderId, order.customerId⟩).run w s).1 <;>
            rw [hr] at hrows <;> cases hrows
          rfl
        · exact keeps_pure (fun _ hl => onOk_ok.mpr ((onOk_ok.mp hs).mono hl.extends))
      · exact keeps_pure (fun _ hl => onOk_ok.mpr ⟨rfl, (onOk_ok.mp hs).mono hl.extends⟩)
    · rename_i outcome hne
      exact hback hr (hcases.resolve_left (fun ⟨record, hrec⟩ => hne record (Except.ok.inj hrec)))
    · exact hback hr (hcases.resolve_left (fun ⟨record, hrec⟩ => by cases hrec))
  · obtain ⟨_, he, -⟩ := he
    cases he

lemma scope_kinds (id : Uuid) (contact contact' : Option String) :
    Idempotency.scope app (some id) contact ≠ Idempotency.scope app none contact' := by
  intro he
  have hfirst := congrArg (fun text : String => text.toList.head?) he
  have hc : (toString "customer:").toList.head? = some 'c' := by decide
  have hg : "guest:".toList.head? = some 'g' := by decide
  have ha : "anonymous".toList.head? = some 'a' := by decide
  cases contact' with
  | none =>
    simp only [Idempotency.scope, String.toList_append, List.head?_append, hc, ha, Option.some_or] at hfirst
    exact absurd (Option.some.inj hfirst) (by decide)
  | some contact' =>
    simp only [Idempotency.scope, String.toList_append, List.head?_append, hc, hg, Option.some_or] at hfirst
    exact absurd (Option.some.inj hfirst) (by decide)

/-- The request is of another scope than that of the key, or has another key. -/
def Elsewhere (app : AppState) (scope key : String) (pid : Nat) (subject : Option Subject) (header : Option String)
    (req : CreateOrderRequest) (g : List Event) : Prop :=
  Idempotency.keyFromHeader header = some key → ∃ scope', scopeIn app g pid subject req = some scope' ∧ scope' ≠ scope

lemma elsewhere_keeps {α : Type} {Q : Call → Prop} {R : α → Prop} {x : Handler α}
    (hx : IoOnly (fun _ => True) (fun t => keyOf t ≠ some (scope, key) ∧
      ∀ issuer name email, t ≠ .upsertCustomer issuer name email) Q R x)
    (he : Elsewhere app scope key pid subject header req h) :
    (site app).Keeps (RowStays scope key) (Guarded app scope key) pid (.createOrder subject header req)
      (fun g _ => Elsewhere app scope key pid subject header req g) x h := by
  have hlater : ∀ g g', g <+: g' → Elsewhere app scope key pid subject header req g →
      Elsewhere app scope key pid subject header req g' := by
    intro g g' hp he hk
    obtain ⟨scope', hs, hne⟩ := he hk
    exact ⟨scope', scopeIn_mono hp hs, hne⟩
  refine (Site.keeps_carrying (C := Elsewhere app scope key pid subject header req) hx (fun _ _ _ _ => trivial)
    (fun g g' hl => hlater g g' hl.extends) (fun t w s g ht hI hC _ => ⟨?_, hlater _ _ (List.prefix_append _ _) hC⟩)
    (fun q b s g _ _ hI hC _ => ⟨hI.quiet (fun _ _ _ _ he => by cases he), hlater _ _ (List.prefix_append _ _) hC⟩)
    h he).weaken (fun _ _ hC => hC.1)
  refine hI.elsewhere w ht.1 ht.2 (fun _ _ _ _ hu => ?_)
  obtain ⟨scope', hs, hne⟩ := hC hu.1
  rw [hu.2] at hs
  exact absurd (Option.some.inj hs).symm hne

/-- What an order request under the key is told: an order that is stored, and what was stored
before it came. -/
def Answered (app : AppState) (scope key : String) (pid : Nat) (subject : Option Subject) (header : Option String)
    (req : CreateOrderRequest) (h₀ g : List Event) (r : Except ApiError (Nat × CreateOrderResponse)) : Prop :=
  Idempotency.keyFromHeader header = some key → (∀ sc, scopeIn app g pid subject req = some sc → sc = scope) →
    (∀ code body, r = .ok (code, body) → code = 201 ∧ ∃ req₀, StoredFor scope key g req₀ body) ∧
    ∀ body, StoredFor scope key h₀ req body → r = .ok (201, body) ∨ ∃ e, r = .error (.internal (.db e))

lemma answered_error {e : ApiError} (hn : (∀ sc, scopeIn app g pid subject req = some sc → sc = scope) →
    ∀ body, ¬StoredFor scope key h₀ req body) :
    Answered app scope key pid subject header req h₀ g (.error e) :=
  fun _ hscope => ⟨fun _ _ he => (by cases he), fun body hs => absurd hs (hn hscope body)⟩

lemma create_keeps (hh : h₀ <+: h) (hfresh : ∀ j t r, .commit pid j t r ∉ h)
    (hadm : ∀ body, StoredFor scope key h₀ req body → Admitted app scope req) :
    (site app).Keeps (RowStays scope key) (Guarded app scope key) pid (.createOrder subject header req)
      (Answered app scope key pid subject header req h₀) (Orders.create app subject header req) h := by
  unfold Orders.create
  simp only
  split
  · rename_i e hj
    refine keeps_throw (fun _ _ => answered_error (fun _ body hs => ?_))
    obtain ⟨⟨journeys, hok⟩, -⟩ := hadm body hs
    rw [hj] at hok
    cases hok
  · rename_i journeys hj
    split
    · rename_i hp
      refine keeps_throw (fun _ _ => answered_error (fun _ body hs => ?_))
      rw [(hadm body hs).2.1] at hp
      cases hp
    · rename_i hp
      refine keeps_seq ((identify_keeps hfresh).extending hh) (fun who g hwho => ?_) (fun e g he g' hl => ?_)
      · obtain ⟨customerId, contact⟩ := who
        obtain ⟨hh', hin, hcontact, hscope, hguest⟩ := hwho
        simp only at hcontact hscope hguest ⊢
        subst hcontact
        by_cases hmine : Idempotency.keyFromHeader header = some key ∧
            Idempotency.scope app customerId (req.guestContact.map trim) = scope
        · obtain ⟨hkey, rfl⟩ := hmine
          rw [hkey]
          have hadm' : Admitted app (Idempotency.scope app customerId (req.guestContact.map trim)) req :=
            ⟨⟨journeys, hj⟩, Bool.eq_false_iff.mpr hp, customerId, rfl, hguest⟩
          refine keeps_seq (replay_keeps hh' hin) (fun found g₁ hfound => ?_) (fun e g₁ he g₂ hl => ?_)
          · obtain ⟨hin₁, hright, hreplay⟩ := hfound
            cases found with
            | some response =>
              refine keeps_pure (fun g₂ hl _ _ => ⟨fun code body hr => ?_, fun body hs => ?_⟩)
              · cases hr
                obtain ⟨hcode, req₀, hs⟩ := hright code body rfl
                exact ⟨hcode, req₀, hs.mono hl.extends⟩
              · rcases hreplay body hs with hr | ⟨e, hr⟩
                · cases hr
                  exact .inl rfl
                · cases hr
            | none =>
              have hnew : ∀ body, ¬StoredFor (Idempotency.scope app customerId (req.guestContact.map trim)) key h₀ req
                  body := by
                intro body hs
                rcases hreplay body hs with hr | ⟨e, hr⟩ <;> cases hr
              have herr {e : ApiError} {g : List Event} : Answered app
                  (Idempotency.scope app customerId (req.guestContact.map trim)) key pid subject header req h₀ g
                  (.error e) := answered_error (fun _ => hnew)
              have hanswer {g g' : List Event} {code : Nat} {body : CreateOrderResponse} (hl : Site.Later pid g g')
                  (hcode : code = 201) (hs : ∃ req₀, StoredFor
                    (Idempotency.scope app customerId (req.guestContact.map trim)) key g req₀ body) :
                  Answered app (Idempotency.scope app customerId (req.guestContact.map trim)) key pid subject header
                    req h₀ g' (.ok (code, body)) := by
                intro _ _
                refine ⟨fun code' body' hr => ?_, fun body' hs => absurd hs (hnew body')⟩
                cases hr
                obtain ⟨req₀, hs⟩ := hs
                exact ⟨hcode, req₀, hs.mono hl.extends⟩
              refine keeps_seq (silent_keeps (C := Introduced pid)
                (prepare_only (J := fun _ => True) (Q := fun _ => True) hj (fun _ => trivial)) (fun _ => trivial)
                (fun _ _ hl hC => hC.later hl) (fun _ _ _ hC => hC.call) hin₁) (fun order g₂ ho => ?_)
                (fun e g₂ _ _ _ => herr)
              refine keeps_seq (reserve_keeps ho.1) (fun reserved g₃ hres => ?_) (fun _ _ _ _ _ => herr)
              rcases onOk_ok.mp hres with ⟨rfl, hown, hun⟩ | ⟨body, req₀, rfl, hs⟩
              · refine Site.Keeps.weaken (book_keeps hadm' hown hun) (fun g₄ r hr => ?_)
                cases r with
                | error e => exact herr
                | ok answer =>
                  obtain ⟨hcode, hs⟩ := onOk_ok.mp hr
                  exact hanswer (.refl pid g₄) hcode ⟨req, hs⟩
              · exact keeps_pure (fun g₄ hl => hanswer hl rfl ⟨req₀, hs⟩)
          · obtain ⟨-, -, hreplay⟩ := he
            refine fun _ _ => ⟨fun _ _ hr => (by cases hr), fun body hs => ?_⟩
            rcases hreplay body hs with hr | ⟨d, hr⟩
            · cases hr
            · cases hr
              exact .inr ⟨d, rfl⟩
        · have helse : Elsewhere app scope key pid subject header req g := by
            intro hkey
            exact ⟨_, hscope, fun he => hmine ⟨hkey, he⟩⟩
          have hother {k : String} (hk : Idempotency.keyFromHeader header = some k) :
              some (Idempotency.scope app customerId (req.guestContact.map trim), k) ≠ some (scope, key) := by
            intro he
            cases he
            exact hmine ⟨hk, rfl⟩
          refine Site.Keeps.weaken (elsewhere_keeps (R := fun _ => True) (Q := fun _ => True) ?_ helse)
            (fun g' r he hkey hs => ?_)
          · refine only_bind replayIfCompleted_only (fun found _ => ?_)
            cases found with
            | some response => exact only_pure trivial
            | none =>
              refine only_bind (prepare_only hj (fun _ => trivial)) (fun order _ => ?_)
              refine only_bind (reserve_only (fun k hk => ⟨hother hk, fun _ _ _ ht => by cases ht⟩)
                (fun k hk => ⟨hother hk, fun _ _ _ ht => by cases ht⟩)) (fun reserved hheld => ?_)
              cases reserved with
              | replay code response => exact only_pure trivial
              | held reservation =>
                obtain ⟨hscope', hkey'⟩ := hheld reservation rfl
                refine book_only (fun wired _ _ => ⟨fun ht => (by cases ht), fun _ _ _ ht => by cases ht⟩)
                  (fun r _ _ _ hr => ?_) (fun r hr => ?_) (fun _ => trivial)
                · cases hr
                  rw [keyOf, hscope']
                  exact ⟨hother hkey', fun _ _ _ ht => by cases ht⟩
                · cases hr
                  rw [keyOf, hscope']
                  exact ⟨hother hkey', fun _ _ _ ht => by cases ht⟩
              | disabled =>
                exact book_only (fun wired _ _ => ⟨fun ht => (by cases ht), fun _ _ _ ht => by cases ht⟩)
                  (fun r _ _ _ hr => by cases hr) (fun r hr => by cases hr) (fun _ => trivial)
          · obtain ⟨scope', hs', hne⟩ := he hkey
            exact absurd (hs scope' hs') hne
      · rcases he.2 with ⟨d, rfl⟩ | ⟨rfl, hempty⟩
        · exact fun _ _ => ⟨fun _ _ hr => (by cases hr), fun _ _ => .inr ⟨d, rfl⟩⟩
        · refine answered_error (fun hscope body hs => ?_)
          obtain ⟨-, -, customerId, hsame, hguest⟩ := hadm body hs
          have hguestScope := hscope _ rfl
          cases customerId with
          | none => exact hguest ⟨rfl, hempty⟩
          | some id => exact scope_kinds id _ _ (hsame.symm.trans hguestScope.symm)

end Requests

section Main

variable {app : AppState} {scope key : String} {s : World} {pid : Nat} {i : Request}
  {c : LockConf Request World Tx TxResult Call Reply Answer Uuid LockRead LockRead}

/-- What a request is told, as far as it is one under the key. -/
def Told (app : AppState) (scope key : String) (pid : Nat) (i : Request) (g : List Event) (a : Answer) : Prop :=
  ∀ subject header req, i = .createOrder subject header req → pid < g.length ∧
    ∃ r : Except ApiError (Nat × CreateOrderResponse), a = r.map (fun r => .order r.1 r.2) ∧
      Answered app scope key pid subject header req (g.take pid) g r

lemma runs_elsewhere {t : Tx} (hi : ∀ subject header req, i ≠ .createOrder subject header req)
    (ht : Runs (fun _ => True) app i t) :
    keyOf t ≠ some (scope, key) ∧ ∀ issuer name email, t ≠ .upsertCustomer issuer name email := by
  cases i with
  | createOrder subject header req => exact absurd rfl (hi subject header req)
  | _ =>
    cases t with
    | upsertCustomer | insertKey | selectKey | completeKey | deletePendingKey => exact ht.elim
    | _ => exact ⟨fun he => (by cases he), fun _ _ _ he => by cases he⟩

/-- Every handler keeps the key guarded. -/
lemma keys_protocol : Site.Protocol (site app) (RowStays scope key) (Guarded app scope key) (Told app scope key) where
  env _ _ _ hg := ⟨hg.single, hg.row, hg.booked, hg.stored, hg.completed⟩
  answer _ _ _ _ _ hg _ _ := hg.quiet (fun _ _ _ _ he => by cases he)
  arrive s h i hg hpids _ := by
    refine ⟨hg.quiet (fun _ _ _ _ he => by cases he), ?_⟩
    by_cases hi : ∃ subject header req, i = .createOrder subject header req
    · obtain ⟨subject, header, req, rfl⟩ := hi
      have hfresh : ∀ j t r, .commit h.length j t r ∉ h ++ [.arrive h.length (.createOrder subject header req)] := by
        intro j t r hm
        rcases List.mem_append.mp hm with hm | hm
        · exact absurd (hpids _ hm) (Nat.lt_irrefl _)
        · cases List.mem_singleton.mp hm
      have hadm : ∀ body, StoredFor scope key h req body → Admitted app scope req := by
        rintro body ⟨p, subject', header', orderId, n, hm⟩
        obtain ⟨-, -, _, _, _, _, he, hadm, -⟩ := hg.stored p _ orderId 201 body n hm
        cases he
        exact hadm
      refine keeps_answer ((create_keeps (List.prefix_append _ _) hfresh hadm).extending (List.prefix_refl _))
        (fun r g hr g' hl => ?_)
      rintro subject' header' req' he
      cases he
      obtain ⟨l, hg'⟩ := hr.1.trans hl.extends
      have hlen : h.length < g'.length := by
        rw [← hg', List.length_append, List.length_append, List.length_singleton]
        omega
      have htake : g'.take h.length = h := by
        rw [← hg', List.append_assoc, List.take_left]
      refine ⟨hlen, r, rfl, fun hk hscope => ?_⟩
      rw [htake]
      obtain ⟨hright, hreplay⟩ := hr.2 hk (fun sc hsc => hscope sc (scopeIn_mono hl.extends hsc))
      refine ⟨fun code body he => ?_, hreplay⟩
      obtain ⟨hcode, req₀, hs⟩ := hright code body he
      exact ⟨hcode, req₀, hs.mono hl.extends⟩
    · have hi' : ∀ subject header req, i ≠ .createOrder subject header req :=
        fun subject header req he => hi ⟨subject, header, req, he⟩
      refine Site.Keeps.weaken (Site.keeps_of_only (handler_only (fun _ => True) app i) (fun _ _ _ => trivial)
        (fun t w s g ht hI _ => ?_) (fun q b s g _ _ hI _ => hI.quiet (fun _ _ _ _ he => by cases he)) _)
        (fun _ _ _ subject header req he => absurd he (hi' subject header req))
      obtain ⟨hk, hu⟩ := runs_elsewhere hi' ht
      refine hI.elsewhere w hk hu (fun _ _ _ _ hunder => ?_)
      cases i with
      | createOrder subject header req => exact absurd rfl (hi' subject header req)
      | _ => exact hunder.elim

lemma guarded_of_unused (h₀ : s.db.idempotencyKeys.find? (scope, key) = none) : Guarded app scope key s [] where
  single p q hp := by
    obtain ⟨⟨i, hash, hm⟩, -⟩ := hp
    cases hm
  row p hp := by
    obtain ⟨⟨i, hash, hm⟩, -⟩ := hp
    cases hm
  booked p hb := by
    obtain ⟨i, order, wired, expiresAt, record, hm, -⟩ := hb
    cases hm
  stored p i orderId code body n hm := by cases hm
  completed row hr _ := by
    rw [h₀] at hr
    cases hr

/-- As long as every reservation that loses finds the row it lost to, a key books once. -/
theorem booked_once (h₀ : s.db.idempotencyKeys.find? (scope, key) = none)
    (hc : (rowLocks app).ReachableWhen (RowStays scope key) (RowLocks.init s) c) :
    BookedOnce app scope key c.trace := by
  have hat := (rowLocks app).reachable_atomicWhen hc
  have hg : Guarded app scope key c.store c.trace := (keys_protocol.invariant (guarded_of_unused h₀) hat).1
  have htold {pid : Nat} {subject : Option Subject} {header : Option String} {req : CreateOrderRequest} {a : Answer}
      (hm : .answer pid (.createOrder subject header req) a ∈ c.trace)
      (hu : Under app scope key c.trace pid (.createOrder subject header req)) :
      ∃ r : Except ApiError (Nat × CreateOrderResponse), a = r.map (fun r => .order r.1 r.2) ∧
        (∀ code body, r = .ok (code, body) → code = 201 ∧ ∃ req₀, StoredFor scope key c.trace req₀ body) ∧
        ∀ body, StoredFor scope key (c.trace.take pid) req body →
          r = .ok (201, body) ∨ ∃ e, r = .error (.internal (.db e)) := by
    obtain ⟨g, l, hsplit⟩ := List.append_of_mem hm
    have hprefix : g ++ [.answer pid (.createOrder subject header req) a] <+: c.trace :=
      ⟨l, by rw [hsplit, List.append_assoc, List.singleton_append]⟩
    have hg' : g <+: c.trace := (List.prefix_append _ _).trans hprefix
    obtain ⟨hlen, r, ha, hr⟩ := keys_protocol.answered (guarded_of_unused h₀) hat hprefix subject header req rfl
    obtain ⟨hright, hreplay⟩ := hr hu.1 (fun sc hsc => Option.some.inj ((scopeIn_mono hg' hsc).symm.trans hu.2))
    have htake : c.trace.take pid = g.take pid := by
      rw [hsplit, List.take_append_of_le_length (Nat.le_of_lt hlen)]
    refine ⟨r, ha, fun code body he => ?_, fun body hs => hreplay body (htake ▸ hs)⟩
    obtain ⟨hcode, req₀, hs⟩ := hright code body he
    exact ⟨hcode, req₀, hs.mono hg'⟩
  constructor
  · intro p q hp hq
    exact hg.single p q (hg.booked p hp) (hg.booked q hq)
  · rintro req req' body body' ⟨p, subject, header, orderId, n, hm⟩ ⟨p', subject', header', orderId', n', hm'⟩
    obtain ⟨-, -, _, _, _, row, -, -, hrow, hrem⟩ := hg.stored p _ orderId 201 body n hm
    obtain ⟨-, -, _, _, _, row', -, -, hrow', hrem'⟩ := hg.stored p' _ orderId' 201 body' n' hm'
    rw [hrow] at hrow'
    cases hrow'
    exact Option.some.inj (hrem.response.symm.trans hrem'.response)
  · intro pid subject header req code body hm hu
    obtain ⟨r, ha, hright, -⟩ := htold hm hu
    cases r with
    | error e => cases ha
    | ok answer =>
      cases ha
      exact hright _ _ rfl
  · intro pid subject header req body a hm hu hs
    obtain ⟨r, rfl, -, hreplay⟩ := htold hm hu
    rcases hreplay body hs with rfl | ⟨e, rfl⟩
    · exact .inl rfl
    · exact .inr ⟨e, rfl⟩

end Main

section Harbour

def deckOrder : CreateOrderRequest :=
  { withQuote [⟨1, [⟨"DECK", "CEB", "TAG", none, none⟩]⟩] with quoteToken := none }

/-- Her request, up to the point where it reserves its key. -/
def deckRun (pid : Nat) : List (LockAct Request Reply Oracle Nat) :=
  [.arrive (.createOrder none (some "k") deckOrder), .read pid true, .read pid true, .read pid true, .peek pid,
    .read pid true, .read pid true]

/-- A first attempt gives the key back before the second has read the row it lost to, and a
third reserves it anew. -/
def vanishedRun : List (LockAct Request Reply Oracle Nat) :=
  deckRun 0 ++ deckRun 1 ++ deckRun 2 ++ [.short 0 (drawn 0), .read 0 true, .peek 0, .short 1 (drawn 0),
    .short 0 ⟨some .connection, id, 0⟩, .short 0 (drawn 0), .answer 0, .short 1 (drawn 0), .short 2 (drawn 0),
    .read 1 true, .peek 1, .short 1 (drawn 100), .read 2 true, .peek 2, .short 2 (drawn 200)]

/-- An attempt that books, and another after it. -/
def replayedRun : List (LockAct Request Reply Oracle Nat) :=
  deckRun 0 ++ [.short 0 (drawn 0), .read 0 true, .peek 0, .short 0 (drawn 100), .short 0 (drawn 0), .answer 0,
    .arrive (.createOrder none (some "k") deckOrder), .read 5 true, .answer 5]

instance (scope key : String) (s : World) (h : List Event) (ev : Event) : Decidable (RowStays scope key s h ev) := by
  unfold RowStays
  split <;> infer_instance

/-- The order of Ana's that an event books. -/
def deckBooked : Event → Option (Nat × OrderRecord)
  | .commit pid (.createOrder none (some "k") req) (.createOrder _ _ _) (.created record) =>
    if req = deckOrder then some (pid, record) else none
  | _ => none

lemma bookedUnder_of_deck {h : List Event} {ev : Event} {pid : Nat} {record : OrderRecord} (hm : ev ∈ h)
    (hb : deckBooked ev = some (pid, record)) : BookedUnder sandbox "guest:ana@example.com" "k" h pid := by
  unfold deckBooked at hb
  split at hb
  · rename_i pid' req order wired expiresAt record'
    split at hb
    · rename_i hreq
      cases hb
      refine ⟨_, order, wired, expiresAt, record, hm, (by decide), ?_⟩
      rw [hreq]
      change some (Idempotency.scope sandbox none (deckOrder.guestContact.map trim)) = _
      decide
    · cases hb
  · cases hb

/-- Two orders under one key. -/
theorem vanished_row_books_twice : ¬ ∀ (app : AppState) (s : World)
    (c : LockConf Request World Tx TxResult Call Reply Answer Uuid LockRead LockRead) (scope key : String),
    s.db.idempotencyKeys.find? (scope, key) = none → Reaches app s c → BookedOnce app scope key c.trace := by
  intro hclaim
  have hrun : ((rowLocks sandbox).exec (RowLocks.init tariffs) vanishedRun).map (fun c =>
      (c.trace[10]?.bind deckBooked, c.trace[11]?.bind deckBooked).map (Option.map Prod.fst) (Option.map Prod.fst)) =
      some (some 1, some 2) := by decide
  obtain ⟨c, hc, hend⟩ := Option.map_eq_some_iff.mp hrun
  obtain ⟨h₁, h₂⟩ := Prod.mk.inj hend
  have hbooked {k pid : Nat} (hk : (c.trace[k]?.bind deckBooked).map Prod.fst = some pid) :
      BookedUnder sandbox "guest:ana@example.com" "k" c.trace pid := by
    obtain ⟨⟨pid', record⟩, hb, rfl⟩ := Option.map_eq_some_iff.mp hk
    obtain ⟨ev, hev, hb⟩ := Option.bind_eq_some_iff.mp hb
    exact bookedUnder_of_deck (List.mem_of_getElem? hev) hb
  have hone := (hclaim sandbox tariffs c "guest:ana@example.com" "k" rfl (RowLocks.reachable_of_exec hc)).once 1 2
    (hbooked h₁) (hbooked h₂)
  cases hone

/-- The code and the order of an answer. -/
def answeredWith : Event → Option (Nat × Nat × Uuid)
  | .answer pid (.createOrder _ _ _) (.ok (.order code body)) => some (pid, code, body.record.orderId)
  | _ => none

/-- Both attempts are told of the one order. -/
theorem booked_once_harbour :
    ∃ c : LockConf Request World Tx TxResult Call Reply Answer Uuid LockRead LockRead,
      BookedOnce sandbox "guest:ana@example.com" "k" c.trace ∧
        c.trace.filterMap answeredWith = [(0, 201, 100), (5, 201, 100)] := by
  have hrun : ((rowLocks sandbox).execWhen (RowStays "guest:ana@example.com" "k") (RowLocks.init tariffs)
      replayedRun).map (fun c => c.trace.filterMap answeredWith) = some [(0, 201, 100), (5, 201, 100)] := by decide
  obtain ⟨c, hc, hend⟩ := Option.map_eq_some_iff.mp hrun
  exact ⟨c, booked_once rfl (RowLocks.reachable_of_execWhen hc), hend⟩

end Harbour

end Lulan.Proofs
