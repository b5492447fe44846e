import Lulan.Lib.Text
import Lulan.Api.Platform

/-!
# A payment provider described by configuration

The webhook half of the HTTP provider: which header carries the signature, how the signature
is found in it, what it is computed over, and what the body of an authentic callback says.
-/

namespace Lulan.Http

abbrev Bytes : Type := List UInt8

inductive Digest where
  | sha256
  | sha512
deriving DecidableEq

inductive SignatureEncoding where
  | hex
  | base64
deriving DecidableEq

/-- How to find the signature inside its header. -/
inductive HeaderFormat where
  | raw
  | keyValue (timestampKey : Option String) (signatureKey : String)
deriving DecidableEq

structure Webhook where
  signatureHeader : Option String
  headerFormat : HeaderFormat := .raw
  signedPayload : String := "\x7bbody\x7d"
  digest : Digest := .sha256
  encoding : SignatureEncoding := .hex
  toleranceSeconds : Int64 := 300
  eventTypePointer : Option String := none
  intentIdPointer : String
  capturedEvents : List String := []
  failedEvents : List String := []
deriving DecidableEq

/-- The webhook description of the built-in preset for Stripe. -/
def stripe : Webhook where
  signatureHeader := some "stripe-signature"
  headerFormat := .keyValue (some "t") "v1"
  signedPayload := "\x7btimestamp\x7d.\x7bbody\x7d"
  digest := .sha256
  encoding := .hex
  toleranceSeconds := 300
  eventTypePointer := some "/type"
  intentIdPointer := "/data/object/id"
  capturedEvents := ["payment_intent.succeeded"]
  failedEvents := ["payment_intent.payment_failed", "payment_intent.canceled"]

/-- A provider with its secret resolved from the environment. -/
structure HttpProvider where
  webhook : Webhook
  webhookSecret : Option String
deriving DecidableEq

/-- The crates a callback passes through: `serde_json`, `hmac` with SHA-2, and base64. -/
structure Libraries where
  Json : Type
  fromSlice : Bytes → Except String Json
  pointer : Json → String → Option Json
  asStr : Json → Option String
  hmac : Digest → Bytes → Bytes → Option Bytes
  base64 : Bytes → String

/-- `str::as_bytes`. -/
def asBytes (s : String) : Bytes := s.toList.flatMap String.utf8EncodeChar

/-- `str::parse::<i64>`. -/
def parseI64 (s : String) : Option Int64 :=
  (Lib.Text.parseSigned s.toList).bind (fun n => if -2 ^ 63 ≤ n ∧ n < 2 ^ 63 then some (Int64.ofInt n) else none)

/-- One comma-separated part of a key-value header, added to what the parts before it gave. -/
def readPart (timestampKey : Option String) (signatureKey : String)
    (found : Option Int64 × List String) (part : List Char) : Option Int64 × List String :=
  match Lib.Text.splitOnce '=' part with
  | none => found
  | some (key, value) =>
    let key := trim (String.ofList key)
    let value := trim (String.ofList value)
    if some key = timestampKey then (parseI64 value, found.2)
    else if key = signatureKey then (found.1, found.2 ++ [value])
    else found

/-- The timestamp and the candidate digests of a header. -/
def readHeader (format : HeaderFormat) (header : String) : Option Int64 × List String :=
  match format with
  | .raw => (none, [trim header])
  | .keyValue timestampKey signatureKey =>
    (header.toList.splitOn ',').foldl (readPart timestampKey signatureKey) (none, [])

/-- `{timestamp}`. -/
def timestampMarker : List Char := ['\x7b', 't', 'i', 'm', 'e', 's', 't', 'a', 'm', 'p', '\x7d']

/-- `{body}`. -/
def bodyMarker : List Char := ['\x7b', 'b', 'o', 'd', 'y', '\x7d']

/-- The signed payload as bytes: the timestamp is substituted in the text of the template, and
the raw body is spliced in for every occurrence of its marker in the bytes of the result. -/
def signedPayloadBytes (template : String) (timestamp : Int64) (body : Bytes) : Bytes :=
  let templated := Lib.Text.replace timestampMarker (toString timestamp.toInt).toList template.toList
  Lib.Text.replace (asBytes (String.ofList bodyMarker)) body (asBytes (String.ofList templated))

/-- Two lowercase hexadecimal digits. -/
def hexByte (b : UInt8) : List Char := [Nat.digitChar (b.toNat / 16), Nat.digitChar (b.toNat % 16)]

def constantTimeEq (a b : String) : Bool :=
  (asBytes a).length == (asBytes b).length &&
    ((asBytes a).zip (asBytes b)).foldl (fun acc p => acc ||| (p.1 ^^^ p.2)) 0 == 0

variable (lib : Libraries)

def encodeDigest (encoding : SignatureEncoding) (mac : Bytes) : String :=
  match encoding with
  | .hex => String.ofList (mac.flatMap hexByte)
  | .base64 => lib.base64 mac

/-- A signature that is valid forever is a replay waiting to happen. -/
def stale (webhook : Webhook) (now : Int64) (timestamp : Option Int64) : Bool :=
  decide (webhook.toleranceSeconds > 0) &&
    timestamp.any (fun timestamp => decide ((now - timestamp).abs > webhook.toleranceSeconds))

def verifySignature (webhook : Webhook) (secret header : String) (body : Bytes) (now : Int64) :
    Except PaymentError Unit :=
  let (timestamp, candidates) := readHeader webhook.headerFormat header
  if candidates.isEmpty then .error .badSignature
  else if stale webhook now timestamp then .error .badSignature
  else
    let signed := signedPayloadBytes webhook.signedPayload (timestamp.getD 0) body
    match lib.hmac webhook.digest (asBytes secret) signed with
    | none => .error .badSignature
    | some mac =>
      let expected := encodeDigest lib webhook.encoding mac
      if candidates.any (fun candidate => constantTimeEq (trim candidate) expected) then .ok ()
      else .error .badSignature

/-- What an authentic body says. -/
def readEvent (webhook : Webhook) (body : Bytes) : Except PaymentError PaymentEvent :=
  match lib.fromSlice body with
  | .error e => .error (.malformed e)
  | .ok payload =>
    let eventType := ((webhook.eventTypePointer.bind (lib.pointer payload)).bind lib.asStr).getD ""
    let captured := webhook.capturedEvents.contains eventType
    let failed := webhook.failedEvents.contains eventType
    if !captured && !failed then .ok .ignored
    else
      match (lib.pointer payload webhook.intentIdPointer).bind lib.asStr with
      | none => .error (.malformed s!"callback has no intent id at {webhook.intentIdPointer}")
      | some paymentIntentId => .ok (if captured then .captured paymentIntentId else .failed paymentIntentId)

namespace HttpProvider

variable (provider : HttpProvider)

def authenticatesCallbacks : Bool := provider.webhook.signatureHeader.isSome && provider.webhookSecret.isSome

def verifyCallback (now : Int64) (signature : Option String) (body : Bytes) : Except PaymentError PaymentEvent :=
  if provider.webhook.signatureHeader.isSome then
    match provider.webhookSecret, signature with
    | some secret, some header =>
      match verifySignature lib provider.webhook secret header body now with
      | .error e => .error e
      | .ok () => readEvent lib provider.webhook body
    | _, _ => .error .badSignature
  else readEvent lib provider.webhook body

end HttpProvider

/-- The headers of a request in the order the map iterates over them; names are lowercase. -/
abbrev HeaderMap : Type := List (String × Bytes)

/-- `HeaderValue::to_str`: visible ASCII only. -/
def toStr (value : Bytes) : Option String :=
  if value.all (fun b => (decide (32 ≤ b) && decide (b < 127)) || b == 9) then
    some (String.ofList (value.map (fun b => Char.ofNat b.toNat)))
  else none

/-- The usual suspects. -/
def suspect (name : String) : Bool :=
  "-signature".toList.isSuffixOf name.toList || "-sign".toList.isSuffixOf name.toList || name == "signature"

def signatureHeader (headers : HeaderMap) : Option String :=
  (headers.find? (fun h => suspect h.1)).bind (fun h => toStr h.2)

/-- The signature the webhook handler hands to the adapter. -/
def offered (provider : HttpProvider) (headers : HeaderMap) : Option String :=
  if provider.authenticatesCallbacks then signatureHeader headers else none

/-- What the webhook handler is told about a callback. -/
def callbackEvent (provider : HttpProvider) (now : Int64) (headers : HeaderMap) (body : Bytes) :
    Except PaymentError PaymentEvent :=
  provider.verifyCallback lib now (offered provider headers) body

/-- The deployment whose callbacks come from this provider. -/
def HttpProvider.deploy (provider : HttpProvider) (now : Int64) (app : AppState) : AppState :=
  { app with
    authenticatesCallbacks := provider.authenticatesCallbacks
    verifyCallback := fun signature body => provider.verifyCallback lib now signature (asBytes body) }

end Lulan.Http
