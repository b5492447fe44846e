import Mathlib.Algebra.Group.Int.Defs
import Lulan.Lib.Text

/-!
# Signed tickets on the wire

`token = "LT1." base64url(cbor(claims)) "." base64url(ed25519_sig)`: the claims as the engine
declares and writes them, and the token it signs. The encodings and the signature scheme
are the crates'.
-/

namespace Lulan.Wire

abbrev Bytes : Type := List UInt8

/-- A 16-byte identifier. -/
structure Uuid where
  bytes : Bytes
  size : bytes.length = 16
deriving DecidableEq

def Uuid.fromSlice (b : Bytes) : Option Uuid := if h : b.length = 16 then some ⟨b, h⟩ else none

@[simp]
lemma Uuid.fromSlice_bytes (id : Uuid) : Uuid.fromSlice id.bytes = some id := dif_pos id.size

/-- What serde hands to the visitor of one field. -/
inductive Value where
  | int (n : Int)
  | bytes (b : Bytes)
  | text (s : String)
  | null
  | other
deriving DecidableEq

/-- A struct on the wire: a map from its field names, in the order they were written. -/
abbrev Fields : Type := List (String × Value)

/-- The crates behind a token: `URL_SAFE_NO_PAD`, `ciborium` and `ed25519_dalek`. -/
structure Libraries where
  SigningKey : Type
  VerifyingKey : Type
  Signature : Type
  encode : Bytes → String
  decode : String → Option Bytes
  intoWriter : Fields → Bytes
  fromReader : Bytes → Option Fields
  verifyingKey : SigningKey → VerifyingKey
  asBytes : VerifyingKey → Bytes
  fromBytes : Bytes → Option VerifyingKey
  sign : SigningKey → Bytes → Signature
  toBytes : Signature → Bytes
  fromSlice : Bytes → Option Signature
  verify : VerifyingKey → Bytes → Signature → Bool

/-- What CBOR can write: integers of major types 0 and 1, byte and text strings, null. -/
def Value.Writable : Value → Prop
  | .int n => -2 ^ 64 ≤ n ∧ n < 2 ^ 64
  | .other => False
  | _ => True

/-- The documented behaviour of the crates: what one half writes the other reads, base64
has no dots, and a signature verifies under the public half of the key that made it. -/
structure Libraries.Lawful (lib : Libraries) : Prop where
  decode_encode : ∀ b, lib.decode (lib.encode b) = some b
  encode_no_dot : ∀ b, '.' ∉ (lib.encode b).toList
  from_into : ∀ fields : Fields, (∀ f ∈ fields, f.2.Writable) →
    lib.fromReader (lib.intoWriter fields) = some fields
  asBytes_length : ∀ vk, (lib.asBytes vk).length = 32
  from_as : ∀ vk, lib.fromBytes (lib.asBytes vk) = some vk
  from_to : ∀ s, lib.fromSlice (lib.toBytes s) = some s
  verify_sign : ∀ sk payload, lib.verify (lib.verifyingKey sk) payload (lib.sign sk payload) = true

/-- The signed claims, as the engine declares them. -/
structure TicketClaims where
  v : UInt8
  tid : Uuid
  trp : Uuid
  unt : String
  f : UInt8
  t : UInt8
  pax : String
  fc : Option String
  exp : Int64
  kid : String
deriving DecidableEq

def ofU8 (n : UInt8) : Value := .int n.toNat

def ofUuid (id : Uuid) : Value := .bytes id.bytes

def ofOption : Option String → Value
  | some s => .text s
  | none => .null

def ofI64 (n : Int64) : Value := .int n.toInt

/-- `derive(Serialize)`: every field under its own name, in the order of declaration. -/
def TicketClaims.serialize (c : TicketClaims) : Fields :=
  [("v", ofU8 c.v), ("tid", ofUuid c.tid), ("trp", ofUuid c.trp), ("unt", .text c.unt), ("f", ofU8 c.f),
    ("t", ofU8 c.t), ("pax", .text c.pax), ("fc", ofOption c.fc), ("exp", ofI64 c.exp), ("kid", .text c.kid)]

structure TicketSigner (lib : Libraries) where
  kid : String
  key : lib.SigningKey

namespace TicketSigner

variable {lib : Libraries} (signer : TicketSigner lib)

def publicKeyB64 : String := lib.encode (lib.asBytes (lib.verifyingKey signer.key))

def signToken (claims : TicketClaims) : String :=
  let payload := lib.intoWriter claims.serialize
  let signature := lib.sign signer.key payload
  "LT1." ++ lib.encode payload ++ "." ++ lib.encode (lib.toBytes signature)

end TicketSigner

end Lulan.Wire
