import Lulan.Lib.ReadCommitted
import Lulan.Payments.Http
import Lulan.Validate.Wire

/-!
# Ticket signing keys and their sealing

The `ticket_keys` table, statement by statement as replicas use it: a key is minted on first
boot or by a rotation, sealed at rest once a wrapping key is configured, read again for every
issue, and its public half is published for good.
-/

namespace Lulan.Wire

open Lib.ReadCommitted

/-- What sealing takes from the crates: `XChaCha20Poly1305` (key, nonce, associated data and
message) and the signing key of a seed. -/
structure KeyLibraries extends Libraries where
  fromSeed : Bytes → SigningKey
  encrypt : Bytes → Bytes → Bytes → Bytes → Option Bytes
  decrypt : Bytes → Bytes → Bytes → Bytes → Option Bytes

/-- What is encrypted can be decrypted with the same key, nonce and associated data. -/
structure KeyLibraries.Lawful (lib : KeyLibraries) : Prop where
  tokens : lib.toLibraries.Lawful
  decrypt_encrypt : ∀ key nonce aad msg ct,
    lib.encrypt key nonce aad msg = some ct → lib.decrypt key nonce aad ct = some msg

inductive SealError where
  | malformedKey
  | unknownScheme (scheme : String)
  | keyUnavailable
  | undecryptable
  | badSeedLength (n : Nat)
deriving DecidableEq, Repr

/-- Recorded in `ticket_keys.encryption`. -/
def scheme : String := "xchacha20poly1305"

def keyLen : Nat := 32

def nonceLen : Nat := 24

structure Sealed where
  ciphertext : Bytes
  nonce : Bytes
  scheme : String
deriving DecidableEq

def hexDigit (b : UInt8) : Option Nat :=
  if 48 ≤ b.toNat ∧ b.toNat ≤ 57 then some (b.toNat - 48)
  else if 97 ≤ b.toNat ∧ b.toNat ≤ 102 then some (b.toNat - 87)
  else if 65 ≤ b.toNat ∧ b.toNat ≤ 70 then some (b.toNat - 55)
  else none

/-- `u8::from_str_radix(_, 16)` of two bytes; a plus sign may stand first. -/
def hexPair (a b : UInt8) : Option UInt8 :=
  if a = 43 then (hexDigit b).map UInt8.ofNat
  else do
    let high ← hexDigit a
    let low ← hexDigit b
    some (UInt8.ofNat (16 * high + low))

def hexPairs : Bytes → Option Bytes
  | a :: b :: rest => do
    let x ← hexPair a b
    let xs ← hexPairs rest
    some (x :: xs)
  | _ => some []

namespace KeyWrapper

def fromHex (hex : String) : Except SealError Bytes :=
  if (Http.asBytes hex).length ≠ keyLen * 2 then .error .malformedKey
  else
    match hexPairs (Http.asBytes hex) with
    | none => .error .malformedKey
    | some key => .ok key

/-- The wrapping key in the environment; `none` when there is none configured. -/
def fromEnv : Option String → Except SealError (Option Bytes)
  | none => .ok none
  | some value =>
    if (trim value).isEmpty then .ok none
    else (fromHex (trim value)).map some

end KeyWrapper

def seedFrom (bytes : Bytes) : Except SealError Bytes :=
  if bytes.length = keyLen then .ok bytes else .error (.badSeedLength bytes.length)

section Sealing

variable (lib : KeyLibraries)

/-- Seal a seed for the key identified by `kid`, which is the associated data. -/
def KeyWrapper.seal (key : Bytes) (kid : String) (seed nonce : Bytes) : Except SealError Sealed :=
  match lib.encrypt key nonce (Http.asBytes kid) seed with
  | none => .error .undecryptable
  | some ciphertext => .ok ⟨ciphertext, nonce, scheme⟩

def KeyWrapper.open (key : Bytes) (kid scheme' : String) (nonce ciphertext : Bytes) : Except SealError Bytes :=
  if scheme' ≠ scheme then .error (.unknownScheme scheme')
  else if nonce.length ≠ nonceLen then .error .undecryptable
  else
    match lib.decrypt key nonce (Http.asBytes kid) ciphertext with
    | none => .error .undecryptable
    | some plain => seedFrom plain

/-- Interpret the stored columns of a key, sealed or not. -/
def unsealRow (env : Option String) (kid : String) (encryption : Option String) (nonce : Option Bytes)
    (secret : Bytes) : Except SealError Bytes :=
  match encryption, nonce with
  | none, _ => seedFrom secret
  | some s, some n =>
    match KeyWrapper.fromEnv env with
    | .error e => .error e
    | .ok none => .error .keyUnavailable
    | .ok (some key) => KeyWrapper.open lib key kid s n secret
  | some _, none => .error .undecryptable

end Sealing

structure TicketKeyRow where
  kid : String
  secret : Bytes
  pub : Bytes
  active : Bool
  createdAt : Int
  encryption : Option String
  nonce : Option Bytes
deriving DecidableEq

structure TicketRow where
  id : Uuid
  token : String
  kid : String
deriving DecidableEq

/-- A row of `ticket_keys` or of `tickets`. -/
inductive KeysRow where
  | key (r : TicketKeyRow)
  | ticket (r : TicketRow)
deriving DecidableEq

def KeysRow.id : KeysRow → String ⊕ Uuid
  | key r => .inl r.kid
  | ticket r => .inr r.id

/-- What minting a key draws. -/
structure Drawn where
  seed : Bytes
  uuid : Uuid
  nonce : Bytes
  createdAt : Int
  seed_length : seed.length = keyLen
  nonce_length : nonce.length = nonceLen

def Drawn.kid (drawn : Drawn) : String :=
  "lulan-" ++ String.ofList ((drawn.uuid.bytes.take 4).flatMap Http.hexByte)

/-- A ticket to be issued: what the order, its item and its trip say. -/
structure IssueLine where
  ticketId : Uuid
  tripId : Uuid
  unitCode : String
  fromIndex : UInt8
  toIndex : UInt8
  pax : String
  fareClass : Option String
  exp : Int64

structure PublicKeyEntry where
  kid : String
  alg : String
  publicKey : String
deriving DecidableEq

inductive KeysRequest where
  | loadOrCreate (env : Option String) (drawn : Drawn)
  | rotate (env : Option String) (drawn : Drawn)
  | sealStoredKeys (env : Option String) (nonces : Nat → { b : Bytes // b.length = nonceLen })
  | issueForOrder (env : Option String) (lines : List IssueLine)
  | publicKeys

/-- The environment of the replica a request runs on. -/
def KeysRequest.env : KeysRequest → Option String
  | loadOrCreate env _ | rotate env _ | sealStoredKeys env _ | issueForOrder env _ => env
  | publicKeys => none

inductive KeysError where
  | noSigningKey
  | sealing (e : SealError)
  | db (f : Failure)
deriving DecidableEq

inductive KeysResponse (lib : Libraries) where
  | signer (s : TicketSigner lib)
  | sealed (count : Nat)
  | issued (tokens : List String)
  | keys (entries : List PublicKeyEntry)

abbrev KeysScript (α : Type) : Type := ExceptT KeysError (Script KeysRow.id) α

def KeysScript.sql {α : Type} (x : ExceptT Failure (Script KeysRow.id) α) : KeysScript α :=
  ExceptT.adapt KeysError.db x

def KeysScript.unsealed {α : Type} : Except SealError α → KeysScript α
  | .ok a => return a
  | .error e => throw (.sealing e)

section Keys

variable (lib : KeyLibraries)

open KeysScript

def keyRows (rows : List KeysRow) : List TicketKeyRow :=
  rows.filterMap (fun r => match r with
    | .key r => some r
    | .ticket _ => none)

/-- `SELECT … WHERE active ORDER BY created_at DESC LIMIT 1`. -/
def activeRow (rows : List KeysRow) : Option TicketKeyRow :=
  (((keyRows rows).filter TicketKeyRow.active).insertionSort (fun a b => a.createdAt ≥ b.createdAt)).head?

def fromRow (env : Option String) (row : TicketKeyRow) : Except SealError (TicketSigner lib.toLibraries) :=
  (unsealRow lib env row.kid row.encryption row.nonce row.secret).map (fun seed => ⟨row.kid, lib.fromSeed seed⟩)

/-- The key tickets are currently signed with. -/
def active (env : Option String) : KeysScript (Option (TicketSigner lib.toLibraries)) := do
  let rows ← sql (.read .side)
  match activeRow rows with
  | none => return none
  | some row => some <$> unsealed (fromRow lib env row)

/-- `UPDATE ticket_keys SET active = false WHERE active`. -/
def deactivateKeys : Change KeysRow.id where
  cond _ r := match r with
    | .key r => r.active
    | .ticket _ => false
  set := ⟨fun r => match r with
    | .key r => .key { r with active := false }
    | .ticket r => .ticket r, fun r => by cases r <;> rfl⟩

/-- The row of a minted key: sealed when a wrapping key is configured, in the clear otherwise. -/
def mintedRow (env : Option String) (drawn : Drawn) : Except SealError TicketKeyRow :=
  let pub := lib.asBytes (lib.verifyingKey (lib.fromSeed drawn.seed))
  match KeyWrapper.fromEnv env with
  | .error e => .error e
  | .ok none => .ok ⟨drawn.kid, drawn.seed, pub, true, drawn.createdAt, none, none⟩
  | .ok (some key) =>
    match KeyWrapper.seal lib key drawn.kid drawn.seed drawn.nonce with
    | .error e => .error e
    | .ok s => .ok ⟨drawn.kid, s.ciphertext, pub, true, drawn.createdAt, some s.scheme, some s.nonce⟩

/-- Mint a new signing key and make it the active one; the previous keys stay. -/
def rotate (env : Option String) (drawn : Drawn) : KeysScript (TicketSigner lib.toLibraries) := do
  let row ← unsealed (mintedRow lib env drawn)
  let _ ← sql (.change .main deactivateKeys)
  let _ ← sql (.add .main ⟨fun _ => [.key row], true⟩)
  sql (.publish .main)
  return ⟨drawn.kid, lib.fromSeed drawn.seed⟩

/-- Load the active key, minting one on first boot. -/
def loadOrCreate (env : Option String) (drawn : Drawn) : KeysScript (TicketSigner lib.toLibraries) := do
  match ← active lib env with
  | some signer => return signer
  | none => rotate lib env drawn

/-- `UPDATE ticket_keys SET secret, encryption, nonce WHERE kid = $1 AND encryption IS NULL`. -/
def sealRow (kid : String) (s : Sealed) : Change KeysRow.id where
  cond _ r := match r with
    | .key r => decide (r.kid = kid) && r.encryption.isNone
    | .ticket _ => false
  set := ⟨fun r => match r with
    | .key r => .key { r with secret := s.ciphertext, encryption := some s.scheme, nonce := some s.nonce }
    | .ticket r => .ticket r, fun r => by cases r <;> rfl⟩

/-- The loop of `seal_stored_keys` over the rows it has read; `i` counts the draws. -/
def sealRows (key : Bytes) (nonces : Nat → { b : Bytes // b.length = nonceLen }) :
    List TicketKeyRow → Nat → Nat → KeysScript Nat
  | [], _, count => return count
  | row :: rest, i, count =>
    -- a stored key of another length is left alone
    if row.secret.length ≠ keyLen then sealRows key nonces rest i count
    else do
      let s ← unsealed (KeyWrapper.seal lib key row.kid row.secret (nonces i).1)
      let updated ← sql (.change .side (sealRow row.kid s))
      sql (.publish .side)
      sealRows key nonces rest (i + 1) (if updated.length = 1 then count + 1 else count)

/-- Seal any signing keys still stored in the clear. -/
def sealStoredKeys (env : Option String) (nonces : Nat → { b : Bytes // b.length = nonceLen }) : KeysScript Nat := do
  match ← unsealed (KeyWrapper.fromEnv env) with
  | none => return 0
  | some key =>
    let rows ← sql (.read .side)
    sealRows lib key nonces ((keyRows rows).filter (fun r => r.encryption.isNone)) 0 0

def IssueLine.claims (kid : String) (line : IssueLine) : TicketClaims where
  v := 1
  tid := line.ticketId
  trp := line.tripId
  unt := line.unitCode
  f := line.fromIndex
  t := line.toIndex
  pax := line.pax
  fc := line.fareClass
  exp := line.exp
  kid

/-- The tickets of an order, signed and inserted one by one. -/
def insertTickets (signer : TicketSigner lib.toLibraries) : List IssueLine → KeysScript (List String)
  | [] => return []
  | line :: rest => do
    let token := signer.signToken (line.claims signer.kid)
    let _ ← sql (.add .main ⟨fun _ => [.ticket ⟨line.ticketId, token, signer.kid⟩], true⟩)
    let tokens ← insertTickets signer rest
    return token :: tokens

/-- `issue_for_order` on a paid order whose items and admissions are `lines`. -/
def issueForOrder (env : Option String) (lines : List IssueLine) : KeysScript (List String) := do
  match ← active lib env with
  | none => throw .noSigningKey
  | some signer =>
    let tokens ← insertTickets lib signer lines
    sql (.publish .main)
    return tokens

/-- Every public half, whatever became of the key. -/
def publicKeys (rows : List KeysRow) : List PublicKeyEntry :=
  ((keyRows rows).insertionSort (fun a b => a.createdAt ≤ b.createdAt)).map
    (fun r => ⟨r.kid, "Ed25519", lib.encode r.pub⟩)

def signingKeys : KeysRequest → Script KeysRow.id (Except KeysError (KeysResponse lib.toLibraries))
  | .loadOrCreate env drawn => ExceptT.run (KeysResponse.signer <$> loadOrCreate lib env drawn)
  | .rotate env drawn => ExceptT.run (KeysResponse.signer <$> rotate lib env drawn)
  | .sealStoredKeys env nonces => ExceptT.run (KeysResponse.sealed <$> sealStoredKeys lib env nonces)
  | .issueForOrder env lines => ExceptT.run (KeysResponse.issued <$> issueForOrder lib env lines)
  | .publicKeys => ExceptT.run (do
    let rows ← sql (.read .side)
    return KeysResponse.keys (publicKeys lib rows))

end Keys

end Lulan.Wire
