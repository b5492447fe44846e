import Lulan.Lib.Concurrent
import Lulan.Engine.Transactions

/-!
# Programs of the engine

A store method is a program over the database: single statements outside a transaction are
reads or transactions of their own, and the payment provider and the hold service are
called in between.
-/

namespace Lulan

inductive PaymentError where
  | rejected (message : String)
  | unavailable (message : String)
  | badSignature
  | malformed (message : String)
deriving DecidableEq, Repr

structure PaymentIntent where
  id : String
  clientSecret : Option String
deriving DecidableEq

/-- A verified callback, normalised to what the order state machine can act on. -/
inductive PaymentEvent where
  | captured (paymentIntentId : String)
  | failed (paymentIntentId : String)
  | ignored
deriving DecidableEq, Repr

/-- One unit an itinerary hold covers. -/
structure HoldMember where
  tripId : Uuid
  unitId : Uuid
deriving DecidableEq

/-- What is asked of other services. A refund names the order whose row the caller read,
which the provider does not see. -/
inductive Call where
  | createIntent (orderId : Uuid) (amountMinor : Int) (currency : String)
  | refund (orderId : Uuid) (paymentIntentId : String) (amountMinor : Int)
  | itineraryMembers (holdId : Uuid)
  | releaseItinerary (holdId : Uuid)
deriving DecidableEq

inductive Reply where
  | intent (result : Except PaymentError PaymentIntent)
  | refunded (result : Except PaymentError Unit)
  | members (result : Option (Option (List HoldMember)))
  | released
deriving DecidableEq

/-- The replies a call can have. -/
def Call.fits : Call → Reply → Bool
  | .createIntent .., .intent _ => true
  | .refund .., .refunded _ => true
  | .itineraryMembers _, .members _ => true
  | .releaseItinerary _, .released => true
  | _, _ => false

inductive TicketError where
  | notPaid (status : OrderStatus)
  | orderNotFound
  | noSigningKey
  | sealing
  | store (e : StoreError)
  | db (e : DbError)
deriving DecidableEq, Repr

abbrev Program (α : Type) : Type := Lib.Prog World Tx TxResult Call Reply α

/-- A program that can stop with an error. -/
abbrev Io (ε α : Type) : Type := ExceptT ε (Lib.Prog World Tx TxResult Call Reply) α

namespace Io

variable {ε α : Type}

/-- A query, or the error it fails with when the database is out of reach. -/
def query (fail : DbError → ε) (f : World → Except ε α) : Io ε α :=
  Lib.Prog.read (fun s =>
    match s with
    | none => Lib.Prog.ret (.error (fail .connection))
    | some s => Lib.Prog.ret (f s))

/-- `Utc::now()`. -/
def now : Io ε Timestamp := Lib.Prog.peek (fun s => Lib.Prog.ret (.ok s.now))

/-- A transaction, or the error it fails with. `f` reads its result. -/
def transact (fail : DbError → ε) (t : Tx) (f : TxResult → Option α) : Io ε α :=
  Lib.Prog.tx t (fun r =>
    match r with
    | .failed e => Lib.Prog.ret (.error (fail e))
    | r =>
      match f r with
      | some a => Lib.Prog.ret (.ok a)
      | none => Lib.Prog.ret (.error (fail .connection)))

/-- A transaction whose failure is looked at rather than returned. -/
def attempt {ε' : Type} (x : Io ε α) : Io ε' (Except ε α) := Lib.Prog.bind x (fun r => Lib.Prog.ret (.ok r))

def call (q : Call) : Io ε Reply := Lib.Prog.call q (fun b => Lib.Prog.ret (.ok b))

end Io

/-- The outcome of a lifecycle transition, and what the other transactions return. -/
def TxResult.outcome? : TxResult → Option TransitionOutcome
  | .transition o _ => some o
  | _ => none

def TxResult.created? : TxResult → Option CreateOutcome
  | .created record => some (.created record)
  | .bookingConflict unitCode => some (.conflict unitCode)
  | _ => none

def TxResult.issued? : TxResult → Option IssueOutcome
  | .issued outcome => some outcome
  | _ => none

def TxResult.scanned? : TxResult → Option ScanOutcome
  | .scanned outcome => some outcome
  | _ => none

def TxResult.customer? : TxResult → Option Uuid
  | .customer id => some id
  | _ => none

def TxResult.keyRow? : TxResult → Option (Option IdempotencyRow)
  | .keyRow row => some row
  | _ => none

def TxResult.rows? : TxResult → Option Nat
  | .rows n => some n
  | _ => none

end Lulan
