import Lulan.Engine.SigningKeys

/-!
# Reading the wrapping key

The key of the environment is read piece by piece, each a slice of the text handed to the
integer parser; what the slice panics on and what the parser takes are both part of the reading.
-/

namespace Lulan.Wire

/-- How a call ends that returns no value. -/
inductive Abort where
  | panic
  | error (e : SealError)
deriving DecidableEq, Repr

/-- `str::is_char_boundary` over the bytes of a text: its ends, and wherever no character goes on. -/
def isCharBoundary (text : Bytes) (i : Nat) : Bool :=
  if i = 0 then true
  else
    match text[i]? with
    | none => decide (i = text.length)
    | some b => decide (b.toNat < 128 ∨ 192 ≤ b.toNat)

/-- `&text[i..j]`, or its panic. -/
def slice (text : Bytes) (i j : Nat) : Option Bytes :=
  if i ≤ j ∧ isCharBoundary text i ∧ isCharBoundary text j then some ((text.drop i).take (j - i)) else none

/-- One more digit of a `u8`, unless it is none or does not fit. -/
def addDigit (acc : Nat) (b : UInt8) : Option Nat := do
  let digit ← hexDigit b
  if 16 * acc + digit < 256 then some (16 * acc + digit) else none

/-- `u8::from_str_radix(_, 16)`: a plus sign may stand before the digits. -/
def fromStrRadix : Bytes → Option UInt8
  | [] => none
  | [b] => if b = 43 ∨ b = 45 then none else (addDigit 0 b).map UInt8.ofNat
  | b :: digits => ((if b = 43 then digits else b :: digits).foldlM addDigit 0).map UInt8.ofNat

namespace WrappingKey

/-- One turn of the loop over the bytes of the key. -/
def readByte (hex : String) (key : Bytes) (i : Nat) : Except Abort Bytes :=
  match slice (Http.asBytes hex) (i * 2) (i * 2 + 2) with
  | none => .error .panic
  | some pair =>
    match fromStrRadix pair with
    | none => .error (.error .malformedKey)
    | some byte => .ok (key.set i byte)

def fromHex (hex : String) : Except Abort Bytes :=
  if (Http.asBytes hex).length ≠ keyLen * 2 then .error (.error .malformedKey)
  else (List.range keyLen).foldlM (readByte hex) (List.replicate keyLen 0)

/-- The key in the environment; `none` when there is none configured. -/
def fromEnv : Option String → Except Abort (Option Bytes)
  | none => .ok none
  | some value => if (trim value).isEmpty then .ok none else (fromHex (trim value)).map some

end WrappingKey

end Lulan.Wire
