import Lulan.Payments.Http
import Lulan.Validate.Wire

/-!
# The calls an HTTP payment provider is sent

How a configured provider is asked for an intent and for its refund: templates filled with
the amount, the currency and the identifiers, as form fields or as a nested JSON body.
-/

namespace Lulan.Http

/-- How request bodies are encoded. -/
inductive Encoding where
  | json
  | form
deriving DecidableEq

/-- One call: `fields` in the order of their keys. -/
structure Call where
  path : String
  fields : List (String × String) := []
  idempotencyHeader : Option String := none
deriving DecidableEq

/-- A provider's description, with its credentials resolved from the environment. -/
structure ProviderConfig where
  baseUrl : String
  authHeader : Option (String × String)
  encoding : Encoding := .json
  createIntent : Call
  refund : Call
deriving DecidableEq

/-- The case mappings of Unicode. -/
structure CaseMapping where
  upper : Char → List Char
  lower : String → String

structure Vars where
  orderId : Wire.Uuid
  amountMinor : Int
  currency : String
  paymentIntentId : String
  idempotencyKey : String

/-- `Uuid`'s hyphenated form. -/
def hyphenated (id : Wire.Uuid) : String :=
  let hex := fun (i j : Nat) => String.ofList (((id.bytes.drop i).take (j - i)).flatMap hexByte)
  hex 0 4 ++ "-" ++ hex 4 6 ++ "-" ++ hex 6 8 ++ "-" ++ hex 8 10 ++ "-" ++ hex 10 16

/-- `Uuid::nil`. -/
def nil : Wire.Uuid := ⟨List.replicate 16 0, rfl⟩

def zeroDecimal : List String :=
  ["BIF", "CLP", "DJF", "GNF", "ISK", "JPY", "KMF", "KRW", "PYG", "RWF", "UGX", "VND", "VUV", "XAF", "XOF", "XPF"]

def threeDecimal : List String := ["BHD", "IQD", "JOD", "KWD", "LYD", "OMR", "TND"]

section Render

variable (cases : CaseMapping)

def upper (s : String) : String := String.ofList (s.toList.flatMap cases.upper)

/-- ISO 4217 fractional digits for a currency. -/
def isoExponent (currency : String) : Nat :=
  if upper cases currency ∈ zeroDecimal then 0
  else if upper cases currency ∈ threeDecimal then 3
  else 2

/-- `{n:0width$}`. -/
def padded (width n : Nat) : String := String.ofList ((Nat.toDigits 10 n).leftpad width '0')

/-- The amount as a major-unit decimal string for the currency. -/
def amountDecimal (amountMinor : Int) (currency : String) : String :=
  let exp := isoExponent cases currency
  if exp = 0 then toString amountMinor
  else
    let sign := if amountMinor < 0 then "-" else ""
    let n := amountMinor.natAbs
    sign ++ toString (n / 10 ^ exp) ++ "." ++ padded exp (n % 10 ^ exp)

/-- The integer major unit, truncating. -/
def amountMajor (amountMinor : Int) (currency : String) : Int :=
  amountMinor.tdiv (10 ^ isoExponent cases currency)

/-- `{name}`. -/
def placeholder (name : String) : List Char := '\x7b' :: name.toList ++ ['\x7d']

/-- Substitute the placeholders in a field template, one after the other. -/
def render (template : String) (vars : Vars) : String :=
  String.ofList (Lib.Text.fill
    [(placeholder "order_id", (hyphenated vars.orderId).toList),
      (placeholder "amount_minor", (toString vars.amountMinor).toList),
      (placeholder "amount_decimal", (amountDecimal cases vars.amountMinor vars.currency).toList),
      (placeholder "amount_major", (toString (amountMajor cases vars.amountMinor vars.currency)).toList),
      (placeholder "currency", vars.currency.toList),
      (placeholder "currency_lower", (cases.lower vars.currency).toList),
      (placeholder "currency_upper", (upper cases vars.currency).toList),
      (placeholder "payment_intent_id", vars.paymentIntentId.toList)]
    template.toList)

/-- What a body is made of. -/
inductive Value where
  | number (n : Int)
  | text (s : String)
  | object (fields : List (String × Value))

/-- The value of a JSON field: a number where the template is exactly one of two amounts. -/
def jsonValue (template : String) (vars : Vars) : Value :=
  if (trim template).toList = placeholder "amount_minor" then .number vars.amountMinor
  else if (trim template).toList = placeholder "amount_major" then
    .number (amountMajor cases vars.amountMinor vars.currency)
  else .text (render cases template vars)

def Value.fields : Value → List (String × Value)
  | .object fields => fields
  | _ => []

/-- `Map::insert`. -/
def insertField (key : String) (value : Value) : List (String × Value) → List (String × Value)
  | [] => [(key, value)]
  | (k, v) :: rest => if k = key then (k, value) :: rest else (k, v) :: insertField key value rest

/-- A dotted key nests; what is in the way and no object gives way to one. -/
def insertPath : List String → Value → List (String × Value) → List (String × Value)
  | [], _, fields => fields
  | [key], value, fields => insertField key value fields
  | key :: rest, value, fields =>
    insertField key (.object (insertPath rest value ((fields.lookup key).map Value.fields |>.getD []))) fields

def splitDots (key : String) : List String := (key.toList.splitOn '.').map String.ofList

def jsonBody (fields : List (String × String)) (vars : Vars) : Value :=
  .object (fields.foldl (fun root f => insertPath (splitDots f.1) (jsonValue cases f.2 vars) root) [])

def formBody (fields : List (String × String)) (vars : Vars) : List (String × String) :=
  fields.map (fun f => (f.1, render cases f.2 vars))

inductive Body where
  | form (fields : List (String × String))
  | json (value : Value)

structure Request where
  url : String
  headers : List (String × String)
  body : Body

end Render

def trimEndSlashes (s : String) : String := String.ofList (s.toList.reverse.dropWhile (· = '/')).reverse

namespace ProviderConfig

variable (cases : CaseMapping) (config : ProviderConfig)

/-- The request of `post`. -/
def post (call : Call) (vars : Vars) : Request where
  url := trimEndSlashes config.baseUrl ++ call.path
  headers := config.authHeader.toList ++ (call.idempotencyHeader.map (fun h => (h, vars.idempotencyKey))).toList
  body :=
    match config.encoding with
    | .form => .form (formBody cases call.fields vars)
    | .json => .json (jsonBody cases call.fields vars)

def createVars (orderId : Wire.Uuid) (amountMinor : Int) (currency : String) : Vars where
  orderId
  amountMinor
  currency
  paymentIntentId := ""
  idempotencyKey := hyphenated orderId

/-- A refund knows neither the order nor its currency. -/
def refundVars (paymentIntentId : String) (amountMinor : Int) : Vars where
  orderId := nil
  amountMinor
  currency := ""
  paymentIntentId
  idempotencyKey := s!"refund-{paymentIntentId}-{amountMinor}"

def create (orderId : Wire.Uuid) (amountMinor : Int) (currency : String) : Request :=
  config.post cases config.createIntent (createVars orderId amountMinor currency)

def refunds (paymentIntentId : String) (amountMinor : Int) : Request :=
  config.post cases config.refund (refundVars paymentIntentId amountMinor)

end ProviderConfig

end Lulan.Http
