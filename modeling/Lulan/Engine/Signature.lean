import Lulan.Payments.Http

/-!
# Signed webhook deliveries

The header `X-Lulan-Signature` of a delivery, and the check its receiver makes.
-/

namespace Lulan.Webhooks

open Http (Bytes asBytes constantTimeEq hexByte parseI64)

def hex (bytes : Bytes) : String := String.ofList (bytes.flatMap hexByte)

variable (hmac : Bytes → Bytes → Bytes)

/-- Compute the `X-Lulan-Signature` header value for a payload; `hmac` is HMAC-SHA256. -/
def signature (secret : String) (timestamp : Int64) (body : String) : String :=
  let mac := hmac (asBytes secret) (asBytes (toString timestamp.toInt ++ "." ++ body))
  "t=" ++ toString timestamp.toInt ++ ",v1=" ++ hex mac

/-- One part of a received header, on top of what the parts before it gave. -/
def readPart (found : Option Int64 × Option (List Char)) (part : List Char) : Option Int64 × Option (List Char) :=
  match Lib.Text.splitOnce '=' part with
  | some (['t'], v) => (parseI64 (String.ofList v), found.2)
  | some (['v', '1'], v) => (found.1, some v)
  | _ => found

/-- Verify a received `X-Lulan-Signature` header, with the comparison over the full header. -/
def verifySignature (secret header body : String) : Bool :=
  match (header.toList.splitOn ',').foldl readPart (none, none) with
  | (some timestamp, some sig) =>
    constantTimeEq (signature hmac secret timestamp body)
      ("t=" ++ toString timestamp.toInt ++ ",v1=" ++ String.ofList sig)
  | _ => false

end Lulan.Webhooks
