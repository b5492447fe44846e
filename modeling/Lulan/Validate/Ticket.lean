import Lulan.Validate.Wire

/-!
# Offline ticket verification

The validator that crew devices embed. Its claims are a second declaration of the
engine's, read back field by field; the clock, the keys and the revocation list are
arguments.
-/

namespace Lulan.Validate

open Wire (Bytes Value Fields Libraries)

structure KeyEntry where
  kid : String
  publicKey : String
deriving DecidableEq

/-- The signed claims, as the validator declares them. -/
structure TicketClaims where
  v : UInt8
  tid : Wire.Uuid
  trp : Wire.Uuid
  unt : String
  f : UInt8
  t : UInt8
  pax : String
  fc : Option String
  exp : Int64
  kid : String
deriving DecidableEq

structure VerifiedTicket where
  ticketId : Wire.Uuid
  tripId : Wire.Uuid
  unitCode : String
  fromIndex : UInt8
  toIndex : UInt8
  passengerName : String
  fareClass : Option String
  expiresAtUnix : Int64
  kid : String
deriving DecidableEq

inductive ValidationError where
  | malformed
  | unsupportedVersion (v : UInt8)
  | unknownKey (kid : String)
  | badSignature
  | expired (expiredAtUnix : Int64)
  | wrongTrip
  | revoked
deriving DecidableEq

def toU8 : Value → Option UInt8
  | .int n => if 0 ≤ n ∧ n < 256 then some (UInt8.ofNat n.toNat) else none
  | _ => none

def toI64 : Value → Option Int64
  | .int n => if -2 ^ 63 ≤ n ∧ n < 2 ^ 63 then some (Int64.ofInt n) else none
  | _ => none

def toText : Value → Option String
  | .text s => some s
  | _ => none

def toUuid : Value → Option Wire.Uuid
  | .bytes b => Wire.Uuid.fromSlice b
  | _ => none

def toOption : Value → Option (Option String)
  | .null => some none
  | x => (toText x).map some

/-- The fields of the claims met so far while a map is read. -/
structure Visitor where
  v : Option UInt8 := none
  tid : Option Wire.Uuid := none
  trp : Option Wire.Uuid := none
  unt : Option String := none
  f : Option UInt8 := none
  t : Option UInt8 := none
  pax : Option String := none
  fc : Option (Option String) := none
  exp : Option Int64 := none
  kid : Option String := none

namespace Visitor

/-- A field may be met only once. -/
def fill {α : Type} (read : Value → Option α) (x : Value) : Option α → Option (Option α)
  | some _ => none
  | none => (read x).map some

/-- `derive(Deserialize)`: one entry of the map; unknown names are skipped. -/
def visit (seen : Visitor) (entry : String × Value) : Option Visitor :=
  let (name, x) := entry
  if name = "v" then (fill toU8 x seen.v).map (fun v => { seen with v })
  else if name = "tid" then (fill toUuid x seen.tid).map (fun tid => { seen with tid })
  else if name = "trp" then (fill toUuid x seen.trp).map (fun trp => { seen with trp })
  else if name = "unt" then (fill toText x seen.unt).map (fun unt => { seen with unt })
  else if name = "f" then (fill toU8 x seen.f).map (fun f => { seen with f })
  else if name = "t" then (fill toU8 x seen.t).map (fun t => { seen with t })
  else if name = "pax" then (fill toText x seen.pax).map (fun pax => { seen with pax })
  else if name = "fc" then (fill toOption x seen.fc).map (fun fc => { seen with fc })
  else if name = "exp" then (fill toI64 x seen.exp).map (fun exp => { seen with exp })
  else if name = "kid" then (fill toText x seen.kid).map (fun kid => { seen with kid })
  else some seen

/-- Every field but the optional one has to be there. -/
def finish (seen : Visitor) : Option TicketClaims := do
  return { v := ← seen.v, tid := ← seen.tid, trp := ← seen.trp, unt := ← seen.unt, f := ← seen.f,
           t := ← seen.t, pax := ← seen.pax, fc := seen.fc.getD none, exp := ← seen.exp,
           kid := ← seen.kid }

end Visitor

def TicketClaims.deserialize (fields : Fields) : Option TicketClaims :=
  (fields.foldlM Visitor.visit {}).bind Visitor.finish

/-- The claims as they are shown to ground staff. -/
def TicketClaims.verified (c : TicketClaims) : VerifiedTicket where
  ticketId := c.tid
  tripId := c.trp
  unitCode := c.unt
  fromIndex := c.f
  toIndex := c.t
  passengerName := c.pax
  fareClass := c.fc
  expiresAtUnix := c.exp
  kid := c.kid

def stripPrefix (start token : String) : Option String :=
  (start.toList.isPrefixOf? token.toList).map String.ofList

def splitOnce (c : Char) (s : String) : Option (String × String) :=
  (Lib.Text.splitOnce c s.toList).map (fun p => (String.ofList p.1, String.ofList p.2))

variable (lib : Libraries)

/-- The public key of an entry: base64url of 32 bytes that are a point. -/
def KeyEntry.verifyingKey (entry : KeyEntry) : Option lib.VerifyingKey := do
  let keyBytes ← lib.decode entry.publicKey
  if keyBytes.length = 32 then lib.fromBytes keyBytes else none

/-- The payload, the signature and the claims of a token; every step that fails here is
`Malformed`. -/
def readToken (token : String) : Option (Bytes × lib.Signature × TicketClaims) := do
  let rest ← stripPrefix "LT1." token
  let (payloadB64, sigB64) ← splitOnce '.' rest
  let payload ← lib.decode payloadB64
  let sigBytes ← lib.decode sigB64
  let signature ← lib.fromSlice sigBytes
  let fields ← lib.fromReader payload
  let claims ← TicketClaims.deserialize fields
  some (payload, signature, claims)

/-- Verify, and additionally refuse anything the operator has revoked since it was signed.
The claims are trusted only after the signature checks out. -/
def verifyTicketWithRevocations (token : String) (keys : List KeyEntry) (nowUnix : Int64)
    (expectedTrip : Option Wire.Uuid) (revoked : List Wire.Uuid) : Except ValidationError VerifiedTicket :=
  match readToken lib token with
  | none => .error .malformed
  | some (payload, signature, claims) =>
    if claims.v ≠ 1 then .error (.unsupportedVersion claims.v)
    else
      match keys.find? (fun k => k.kid == claims.kid) with
      | none => .error (.unknownKey claims.kid)
      | some keyEntry =>
        match keyEntry.verifyingKey lib with
        | none => .error .malformed
        | some verifyingKey =>
          if lib.verify verifyingKey payload signature = false then .error .badSignature
          else if claims.exp < nowUnix then .error (.expired claims.exp)
          else if expectedTrip.any (fun expected => claims.trp ≠ expected) then .error .wrongTrip
          else if claims.tid ∈ revoked then .error .revoked
          else .ok claims.verified

/-- Signature-only verification. -/
def verifyTicket (token : String) (keys : List KeyEntry) (nowUnix : Int64) (expectedTrip : Option Wire.Uuid) :
    Except ValidationError VerifiedTicket :=
  verifyTicketWithRevocations lib token keys nowUnix expectedTrip []

end Lulan.Validate
