import Lulan.Engine.Order
import Lulan.Lib.Automaton

/-!
# What the events of an order exclude

The lifecycle as a machine that reads order events. The state after a stream bounds how often
each event can have occurred in it, and from these bounds follows which events exclude others.
-/

namespace Lulan.Proofs

open Lulan Lib

/-- `apply` as a step of the fold, whose state is `none` before the first event. -/
def advance (state : Option OrderStatus) (event : OrderEventType) : Except TransitionError (Option OrderStatus) :=
  (Lulan.apply state event).map some

/-- Events folded through `apply`. -/
abbrev fold (events : List OrderEventType) : Except TransitionError (Option OrderStatus) :=
  Automaton.read advance none events

/-- Every legal step. -/
def moves : List (Option OrderStatus × OrderEventType × Option OrderStatus) :=
  [(none, .orderCreated, some .draft), (some .draft, .inventoryLocked, some .locked),
    (some .locked, .paymentRequested, some .pendingPayment), (some .pendingPayment, .paymentCaptured, some .paid),
    (some .pendingPayment, .paymentFailed, some .locked), (some .locked, .orderCancelled, some .cancelled),
    (some .pendingPayment, .orderCancelled, some .cancelled), (some .locked, .orderExpired, some .expired),
    (some .pendingPayment, .orderExpired, some .expired), (some .paid, .ticketIssued, some .ticketed),
    (some .ticketed, .passengerBoarded, some .boarded), (some .boarded, .tripCompleted, some .completed),
    (some .paid, .orderRefunded, some .refunded), (some .ticketed, .orderRefunded, some .refunded)]

section Steps

variable {s t : Option OrderStatus} {e : OrderEventType}

lemma advance_mem (h : advance s e = .ok t) : (s, e, t) ∈ moves := by
  cases s with
  | none =>
    cases e
    all_goals cases h
    decide
  | some status =>
    cases hstep : Lulan.apply (some status) e with
    | error err =>
      rw [advance, hstep] at h
      cases h
    | ok next =>
      rw [advance, hstep] at h
      cases h
      rcases apply_cases hstep with h | h | h | h | h | h | h | h | h | h <;> obtain ⟨hc, rfl, rfl⟩ := h
      all_goals first
        | (subst hc; decide)
        | (rcases hc with rfl | rfl <;> decide)

/-- Whether the order is, or has been, in one of the statuses. -/
def among (statuses : List OrderStatus) (s : Option OrderStatus) : Nat := if s.any (statuses.contains ·) then 1 else 0

lemma among_le (statuses : List OrderStatus) (s : Option OrderStatus) : among statuses s ≤ 1 := by
  unfold among
  split <;> omega

/-- The statuses an event leads to, from which no second one is reached. -/
def statusesAfter : OrderEventType → List OrderStatus
  | .paymentCaptured => [.paid, .ticketed, .boarded, .completed, .refunded]
  | .ticketIssued => [.ticketed, .boarded, .completed, .refunded]
  | .passengerBoarded => [.boarded, .completed]
  | .tripCompleted => [.completed]
  | .orderCancelled => [.cancelled]
  | .orderExpired => [.expired]
  | .orderRefunded => [.refunded]
  | _ => []

/-- The events that occur at most once. -/
def atMostOnce : List OrderEventType :=
  [.paymentCaptured, .ticketIssued, .passengerBoarded, .tripCompleted, .orderCancelled, .orderExpired, .orderRefunded]

end Steps

section Fold

variable {events : List OrderEventType} {s : Option OrderStatus} {x : OrderEventType}

/-- An event has occurred no more often than the state has room for. -/
lemma count_le_among (hx : x ∈ atMostOnce) (h : fold events = .ok s) : events.count x ≤ among (statusesAfter x) s := by
  have hall : ∀ x ∈ atMostOnce, ∀ m ∈ moves, among (statusesAfter x) m.1 + (if m.2.1 = x then 1 else 0) ≤ among (statusesAfter x) m.2.2 := by
    decide
  have hle := Automaton.count_le (f := among (statusesAfter x)) (fun u e v hv => hall x hx _ (advance_mem hv)) h
  have hstart : among (statusesAfter x) none = 0 := rfl
  omega

/-- A paid order has been captured, and a ticketed one has its ticket. -/
lemma captured_of_paid (h : fold events = .ok s) (hs : among (statusesAfter .paymentCaptured) s = 1) :
    .paymentCaptured ∈ events := by
  have hall : ∀ m ∈ moves, among (statusesAfter .paymentCaptured) m.2.2 ≤
      among (statusesAfter .paymentCaptured) m.1 + if m.2.1 = .paymentCaptured then 1 else 0 := by decide
  have hle := Automaton.le_count (f := among (statusesAfter .paymentCaptured)) (fun u e v hv => hall _ (advance_mem hv)) h
  have hstart : among (statusesAfter .paymentCaptured) none = 0 := rfl
  apply List.count_pos_iff.mp
  omega

lemma issued_of_ticketed (h : fold events = .ok (some .ticketed)) : .ticketIssued ∈ events := by
  have hall : ∀ m ∈ moves, among [.ticketed, .boarded, .completed] m.2.2 ≤
      among [.ticketed, .boarded, .completed] m.1 + if m.2.1 = .ticketIssued then 1 else 0 := by decide
  have hle := Automaton.le_count (f := among [.ticketed, .boarded, .completed])
    (fun u e v hv => hall _ (advance_mem hv)) h
  have hstart : among [.ticketed, .boarded, .completed] none = 0 := rfl
  have hend : among [.ticketed, .boarded, .completed] (some .ticketed) = 1 := rfl
  apply List.count_pos_iff.mp
  omega

/-- A request counts one and a failure takes one off. -/
def attempt : OrderEventType → Int
  | .paymentRequested => 1
  | .paymentFailed => -1
  | _ => 0

lemma sum_attempt (events : List OrderEventType) :
    (events.map attempt).sum = events.count .paymentRequested - events.count .paymentFailed := by
  induction events with
  | nil => rfl
  | cons e rest ih =>
    rw [List.map_cons, List.sum_cons, ih, List.count_cons, List.count_cons]
    cases e <;> simp [attempt] <;> omega

/-- The statuses with a request that has not failed. -/
def requested : List OrderStatus := [.pendingPayment, .paid, .ticketed, .boarded, .completed, .refunded]

/-- The statuses that may have one. -/
def maybeRequested : List OrderStatus := requested ++ [.cancelled, .expired]

/-- There is at most one request that has not failed. -/
lemma attempts_balance (h : fold events = .ok s) : events.count .paymentFailed ≤ events.count .paymentRequested ∧
    events.count .paymentRequested ≤ events.count .paymentFailed + 1 := by
  have hlow : ∀ m ∈ moves, (among requested m.2.2 : Int) ≤ among requested m.1 + attempt m.2.1 := by decide
  have hhigh : ∀ m ∈ moves, (among maybeRequested m.1 : Int) + attempt m.2.1 ≤ among maybeRequested m.2.2 := by decide
  have hge := Automaton.le_weight (f := fun u => (among requested u : Int)) (fun u e v hv => hlow _ (advance_mem hv)) h
  have hle := Automaton.weight_le (f := fun u => (among maybeRequested u : Int))
    (fun u e v hv => hhigh _ (advance_mem hv)) h
  have hzero : among requested none = 0 := rfl
  have hzero' : among maybeRequested none = 0 := rfl
  have hone := among_le maybeRequested s
  rw [sum_attempt] at hge hle
  omega

/-- The statuses no event leads out of. -/
def finalStatuses : List OrderStatus := [.cancelled, .expired, .refunded, .completed]

lemma stuck_of_final {status : OrderStatus} (hs : status ∈ finalStatuses) (e : OrderEventType) :
    ∃ err, advance (some status) e = .error err := by
  cases hstep : advance (some status) e with
  | error err => exact ⟨err, rfl⟩
  | ok t =>
    have hall : ∀ m ∈ moves, ∀ status ∈ finalStatuses, m.1 ≠ some status := by decide
    exact absurd rfl (hall _ (advance_mem hstep) status hs)

end Fold

/-- What the events of an order exclude. -/
structure Exclusions (events : List OrderEventType) : Prop where
  once : ∀ e ∈ [OrderEventType.paymentCaptured, .ticketIssued, .orderCancelled, .orderExpired, .orderRefunded,
    .tripCompleted], events.count e ≤ 1
  captured : ∀ pre post, events = pre ++ .paymentCaptured :: post → .orderCancelled ∉ post ∧ .orderExpired ∉ post
  refunded : ∀ pre post, events = pre ++ .orderRefunded :: post → .paymentCaptured ∈ pre ∧ .passengerBoarded ∉ pre
  boarded : ∀ pre post, events = pre ++ .passengerBoarded :: post → .ticketIssued ∈ pre
  final : ∀ pre post status, events = pre ++ post → fold pre = .ok (some status) → status ∈ finalStatuses → post = []
  attempts : ∀ pre post, events = pre ++ post → .paymentCaptured ∉ pre →
    pre.count .paymentFailed ≤ pre.count .paymentRequested ∧
      pre.count .paymentRequested ≤ pre.count .paymentFailed + 1

section Exclusions

variable {events pre post : List OrderEventType} {s : Option OrderStatus}

/-- Nothing that ends an unpaid order comes after its payment. -/
lemma unpaid_ended {e : OrderEventType} (he : e = .orderCancelled ∨ e = .orderExpired) (h : fold (pre ++ .paymentCaptured :: post) = .ok s) :
    e ∉ post := by
  intro hmem
  obtain ⟨p, q, rfl⟩ := List.append_of_mem hmem
  rw [← List.cons_append, ← List.append_assoc] at h
  obtain ⟨u, v, hu, hv, -⟩ := Automaton.read_at h
  have hcount := count_le_among (x := .paymentCaptured) (by decide) hu
  have hall : ∀ m ∈ moves, (m.2.1 = .orderCancelled ∨ m.2.1 = .orderExpired) → among (statusesAfter .paymentCaptured) m.1 = 0 := by
    decide
  have hzero : among (statusesAfter .paymentCaptured) u = 0 := hall _ (advance_mem hv) he
  have hpos : 0 < (pre ++ .paymentCaptured :: p).count OrderEventType.paymentCaptured :=
    List.count_pos_iff.mpr (List.mem_append_right _ List.mem_cons_self)
  omega

lemma refunded_between (h : fold (pre ++ .orderRefunded :: post) = .ok s) :
    .paymentCaptured ∈ pre ∧ .passengerBoarded ∉ pre := by
  obtain ⟨u, v, hu, hv, -⟩ := Automaton.read_at h
  have hall : ∀ m ∈ moves, m.2.1 = .orderRefunded →
      among (statusesAfter .paymentCaptured) m.1 = 1 ∧ among (statusesAfter .passengerBoarded) m.1 = 0 := by decide
  obtain ⟨hpaid, hashore⟩ : among (statusesAfter .paymentCaptured) u = 1 ∧ among (statusesAfter .passengerBoarded) u = 0 :=
    hall _ (advance_mem hv) rfl
  refine ⟨captured_of_paid hu hpaid, fun hmem => ?_⟩
  have hcount := count_le_among (x := .passengerBoarded) (by decide) hu
  have hpos := List.count_pos_iff.mpr hmem
  omega

lemma boarded_with_ticket (h : fold (pre ++ .passengerBoarded :: post) = .ok s) : .ticketIssued ∈ pre := by
  obtain ⟨u, v, hu, hv, -⟩ := Automaton.read_at h
  have hall : ∀ m ∈ moves, m.2.1 = .passengerBoarded → m.1 = some .ticketed := by decide
  have hticketed : u = some .ticketed := hall _ (advance_mem hv) rfl
  rw [hticketed] at hu
  exact issued_of_ticketed hu

lemma final_ends {status : OrderStatus} (hp : fold pre = .ok (some status)) (hf : status ∈ finalStatuses)
    (h : fold (pre ++ post) = .ok s) : post = [] := by
  obtain ⟨u, hu, hpost⟩ := Automaton.read_append_eq_ok.mp h
  cases hu.symm.trans hp
  exact Automaton.eq_nil_of_stuck (stuck_of_final hf) hpost

/-- The histories an order can have. -/
theorem fold_exclusions (h : fold events = .ok s) : Exclusions events where
  once e he := by
    have honce : ∀ e ∈ [OrderEventType.paymentCaptured, .ticketIssued, .orderCancelled, .orderExpired,
      .orderRefunded, .tripCompleted], e ∈ atMostOnce := by decide
    exact Nat.le_trans (count_le_among (honce e he) h) (among_le _ _)
  captured pre post he := by
    rw [he] at h
    exact ⟨unpaid_ended (.inl rfl) h, unpaid_ended (.inr rfl) h⟩
  refunded pre post he := by
    rw [he] at h
    exact refunded_between h
  boarded pre post he := by
    rw [he] at h
    exact boarded_with_ticket h
  final pre post status he hp hf := by
    rw [he] at h
    exact final_ends hp hf h
  attempts pre post he _ := by
    rw [he] at h
    obtain ⟨u, hu, -⟩ := Automaton.read_append_eq_ok.mp h
    exact attempts_balance hu

/-- A payment that failed once, a ticket, and a refund. -/
theorem fold_exclusions_retried : Exclusions [.orderCreated, .inventoryLocked, .paymentRequested, .paymentFailed,
    .paymentRequested, .paymentCaptured, .ticketIssued, .orderRefunded] :=
  fold_exclusions (s := some .refunded) rfl

end Exclusions

end Lulan.Proofs
