import Lulan.Lib.Splice
import Lulan.Payments.Http

/-!
# The payload a callback is signed over

The loop that splices the raw body into the template; the verification uses the same function
as two substitutions.
-/

namespace Lulan.Http.Payload

open Lib.Text (Splicing)
open Lib.While (run)

/-- `b"{body}"`. -/
def marker : Bytes := asBytes (String.ofList bodyMarker)

/-- The template with the timestamp in its places, about to be scanned. -/
def start (template : String) (timestamp : Int64) : Splicing UInt8 where
  out := []
  rest := asBytes (String.ofList (Lib.Text.replace timestampMarker (toString timestamp.toInt).toList template.toList))

/-- The signed payload as bytes, where the loop gets `fuel` turns. -/
def signedPayloadBytes (fuel : Nat) (template : String) (timestamp : Int64) (body : Bytes) : Option Bytes :=
  run (Splicing.turn marker body) fuel (start template timestamp)

end Lulan.Http.Payload
