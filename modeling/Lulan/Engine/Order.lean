import Mathlib.Tactic.Common

/-!
# Order lifecycle state machine

`apply` is the only way state advances, both for live transitions and for event replay.
-/

namespace Lulan

inductive OrderStatus where
  | draft
  | locked
  | pendingPayment
  | paid
  | ticketed
  | boarded
  | completed
  | cancelled
  | expired
  | refunded
deriving DecidableEq, Repr

namespace OrderStatus

def asStr : OrderStatus → String
  | draft => "draft"
  | locked => "locked"
  | pendingPayment => "pending_payment"
  | paid => "paid"
  | ticketed => "ticketed"
  | boarded => "boarded"
  | completed => "completed"
  | cancelled => "cancelled"
  | expired => "expired"
  | refunded => "refunded"

/-- The states whose orders own their claims. -/
def holdsInventory : OrderStatus → Bool
  | locked | pendingPayment | paid | ticketed | boarded | completed => true
  | draft | cancelled | expired | refunded => false

/-- The states a captured payment can be in: the money is settled or given back. -/
def settled : OrderStatus → Bool
  | paid | ticketed | boarded | completed | refunded => true
  | draft | locked | pendingPayment | cancelled | expired => false

end OrderStatus

inductive OrderEventType where
  | orderCreated
  | inventoryLocked
  | paymentRequested
  | paymentCaptured
  | paymentFailed
  | orderCancelled
  | orderExpired
  | ticketIssued
  | passengerBoarded
  | tripCompleted
  | orderRefunded
deriving DecidableEq, Repr

namespace OrderEventType

def asStr : OrderEventType → String
  | orderCreated => "order_created"
  | inventoryLocked => "inventory_locked"
  | paymentRequested => "payment_requested"
  | paymentCaptured => "payment_captured"
  | paymentFailed => "payment_failed"
  | orderCancelled => "order_cancelled"
  | orderExpired => "order_expired"
  | ticketIssued => "ticket_issued"
  | passengerBoarded => "passenger_boarded"
  | tripCompleted => "trip_completed"
  | orderRefunded => "order_refunded"

def parse (s : String) : Option OrderEventType :=
  if s = "order_created" then some orderCreated
  else if s = "inventory_locked" then some inventoryLocked
  else if s = "payment_requested" then some paymentRequested
  else if s = "payment_captured" then some paymentCaptured
  else if s = "payment_failed" then some paymentFailed
  else if s = "order_cancelled" then some orderCancelled
  else if s = "order_expired" then some orderExpired
  else if s = "ticket_issued" then some ticketIssued
  else if s = "passenger_boarded" then some passengerBoarded
  else if s = "trip_completed" then some tripCompleted
  else if s = "order_refunded" then some orderRefunded
  else none

@[simp] lemma parse_asStr (e : OrderEventType) : parse e.asStr = some e := by
  cases e <;> decide

end OrderEventType

inductive TransitionError where
  | illegal (state : OrderStatus) (event : OrderEventType)
  | notInitial (event : OrderEventType)
  | alreadyCreated (state : OrderStatus)
deriving DecidableEq, Repr

/-- Apply one event to the current state; `none` is the start of a stream. -/
def apply (state : Option OrderStatus) (event : OrderEventType) : Except TransitionError OrderStatus :=
  match state with
  | none =>
    match event with
    | .orderCreated => .ok .draft
    | other => .error (.notInitial other)
  | some state =>
    match state, event with
    | s, .orderCreated => .error (.alreadyCreated s)
    | .draft, .inventoryLocked => .ok .locked
    | .locked, .paymentRequested => .ok .pendingPayment
    | .pendingPayment, .paymentCaptured => .ok .paid
    | .pendingPayment, .paymentFailed => .ok .locked
    | .locked, .orderCancelled => .ok .cancelled
    | .pendingPayment, .orderCancelled => .ok .cancelled
    | .locked, .orderExpired => .ok .expired
    | .pendingPayment, .orderExpired => .ok .expired
    | .paid, .ticketIssued => .ok .ticketed
    | .ticketed, .passengerBoarded => .ok .boarded
    | .boarded, .tripCompleted => .ok .completed
    | .paid, .orderRefunded => .ok .refunded
    | .ticketed, .orderRefunded => .ok .refunded
    | state, event => .error (.illegal state event)

/-- Every legal step from an existing order. -/
lemma apply_cases {current next : OrderStatus} {event : OrderEventType}
    (h : apply (some current) event = .ok next) :
    (current = .draft ∧ event = .inventoryLocked ∧ next = .locked) ∨
    (current = .locked ∧ event = .paymentRequested ∧ next = .pendingPayment) ∨
    (current = .pendingPayment ∧ event = .paymentCaptured ∧ next = .paid) ∨
    (current = .pendingPayment ∧ event = .paymentFailed ∧ next = .locked) ∨
    ((current = .locked ∨ current = .pendingPayment) ∧ event = .orderCancelled ∧ next = .cancelled) ∨
    ((current = .locked ∨ current = .pendingPayment) ∧ event = .orderExpired ∧ next = .expired) ∨
    (current = .paid ∧ event = .ticketIssued ∧ next = .ticketed) ∨
    (current = .ticketed ∧ event = .passengerBoarded ∧ next = .boarded) ∨
    (current = .boarded ∧ event = .tripCompleted ∧ next = .completed) ∨
    ((current = .paid ∨ current = .ticketed) ∧ event = .orderRefunded ∧ next = .refunded) := by
  cases current <;> cases event <;> simp_all [apply]

/-- The events after which an order's claims are released. -/
def OrderEventType.releases : OrderEventType → Bool
  | orderCancelled | orderExpired | orderRefunded => true
  | _ => false

/-- An order gives up its claims exactly on the events that release them. -/
theorem apply_holdsInventory {current next : OrderStatus} {event : OrderEventType}
    (h : apply (some current) event = .ok next) (hd : current ≠ .draft) :
    current.holdsInventory = true ∧ next.holdsInventory = !event.releases := by
  rcases apply_cases h with h | h | h | h | h | h | h | h | h | h <;>
    obtain ⟨hc, rfl, rfl⟩ := h
  all_goals first
    | exact absurd hc hd
    | (subst hc; exact ⟨rfl, rfl⟩)
    | (rcases hc with rfl | rfl <;> exact ⟨rfl, rfl⟩)

/-- No event leads back into an order without its claims. -/
lemma apply_ne_draft {current next : OrderStatus} {event : OrderEventType}
    (h : apply (some current) event = .ok next) : next ≠ .draft := by
  rcases apply_cases h with h | h | h | h | h | h | h | h | h | h <;> simp [h.2.2]

/-- Once the money is settled it stays settled. -/
theorem apply_settled {current next : OrderStatus} {event : OrderEventType}
    (h : apply (some current) event = .ok next) (hs : current.settled = true) : next.settled = true := by
  rcases apply_cases h with h | h | h | h | h | h | h | h | h | h <;> obtain ⟨hc, rfl, rfl⟩ := h
  all_goals first
    | rfl
    | (subst hc; exact hs)
    | (rcases hc with rfl | rfl <;> exact hs)

/-- Fold a stream of stored event types; `none` where replay fails. -/
def replay (state : Option OrderStatus) : List String → Option (Option OrderStatus)
  | [] => some state
  | e :: rest =>
    match OrderEventType.parse e with
    | none => none
    | some event =>
      match apply state event with
      | .error _ => none
      | .ok next => replay (some next) rest

lemma replay_append (state : Option OrderStatus) (es fs : List String) :
    replay state (es ++ fs) = (replay state es).bind (fun s => replay s fs) := by
  induction es generalizing state with
  | nil => rfl
  | cons e es ih =>
    simp only [List.cons_append, replay]
    cases hp : OrderEventType.parse e with
    | none => rfl
    | some event =>
      cases ha : apply state event with
      | error _ => simp only [ha, Option.bind_none]
      | ok next => simp only [ha, ih]

inductive PassengerType where
  | adult
  | child
  | senior
  | pwd
  | infant
deriving DecidableEq, Repr

namespace PassengerType

def asStr : PassengerType → String
  | adult => "adult"
  | child => "child"
  | senior => "senior"
  | pwd => "pwd"
  | infant => "infant"

def parse (s : String) : Option PassengerType :=
  if s = "adult" then some adult
  else if s = "child" then some child
  else if s = "senior" then some senior
  else if s = "pwd" then some pwd
  else if s = "infant" then some infant
  else none

end PassengerType

end Lulan
