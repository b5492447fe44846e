import Lulan.Api.Platform

/-!
# Idempotency keys

A key is reserved before the order is created and completed or given back afterwards;
retries of a completed booking replay its response.
-/

namespace Lulan

/-- A key a request owns and must resolve. -/
structure Reservation where
  scope : String
  key : String
deriving DecidableEq

/-- What a reservation attempt resolved to. -/
inductive Reserved where
  | disabled
  | held (reservation : Reservation)
  | replay (statusCode : Nat) (response : CreateOrderResponse)

namespace Idempotency

/-- Who a key belongs to. -/
def scope (app : AppState) (customerId : Option Uuid) (guestContact : Option String) : String :=
  match customerId, guestContact with
  | some id, _ => s!"customer:{id}"
  | none, some contact => "guest:" ++ app.digestContact contact
  | none, none => "anonymous"

/-- The header value, if the caller sent one. -/
def keyFromHeader (header : Option String) : Option String :=
  match header with
  | none => none
  | some value => if (trim value).isEmpty then none else some (trim value)

def reuseConflict : ApiError :=
  .conflict (.text ("Idempotency-Key was already used for a different request — use a fresh key for a " ++
    "new booking"))

def storedResponse (row : IdempotencyRow) : Except ApiError (Nat × CreateOrderResponse) :=
  match row.statusCode, row.response with
  | some code, some body => .ok (if 100 ≤ code ∧ code < 1000 then code else 200, body)
  | _, _ => .error (.internal (.text "completed idempotency record is missing its response"))

/-- A completed response for this exact key and request. -/
def replayIfCompleted (key : Option String) (scope requestHash : String) :
    Handler (Option (Nat × CreateOrderResponse)) := do
  match key with
  | none => return none
  | some key =>
    let row ← Handler.query (fun w =>
      (w.db.idempotencyKeys.find? (scope, key)).filter (fun r => r.status == .completed))
    match row with
    | none => return none
    | some row =>
      if row.requestHash ≠ requestHash then throw reuseConflict
      else
        match storedResponse row with
        | .error e => throw e
        | .ok response => return some response

/-- Claim the key: an insert and, where it loses, a read. -/
def reserve (key : Option String) (scope requestHash : String) : Handler Reserved := do
  match key with
  | none => return .disabled
  | some key =>
    let claimed ← Handler.transact (.insertKey scope key requestHash) TxResult.rows?
    if claimed = 1 then return .held ⟨scope, key⟩
    match ← Handler.transact (.selectKey scope key) TxResult.keyRow? with
    | none => return .held ⟨scope, key⟩
    | some row =>
      if row.requestHash ≠ requestHash then throw reuseConflict
      else if row.status = .completed then
        match storedResponse row with
        | .error e => throw e
        | .ok (code, body) => return .replay code body
      else
        throw (.conflict (.text ("a booking with this Idempotency-Key is already in flight — retry shortly to " ++
          "receive its result")))

/-- Store the response so retries replay it verbatim. -/
def complete (reservation : Reservation) (orderId : Uuid) (statusCode : Nat) (body : CreateOrderResponse) :
    Handler Nat :=
  Handler.transact (.completeKey reservation.scope reservation.key orderId statusCode body) TxResult.rows?

/-- Give the key back; a failure is left to the sweeper. -/
def release (reservation : Reservation) : Handler Unit := do
  let _ ← Io.attempt (Handler.transact (.deletePendingKey reservation.scope reservation.key) TxResult.rows?)
  return ()

end Idempotency

end Lulan
