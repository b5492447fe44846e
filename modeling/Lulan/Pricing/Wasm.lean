import Lulan.Pricing.Wire

/-!
# Pricing engines

The native engine, the host of operator-supplied modules, and the reference module: requests
and responses pass through the linear memory of the module, and the module answers with the
pointer and the length of its response packed into one signed word.
-/

namespace Lulan.Rules

open Lib (Json)

abbrev Bytes : Type := List UInt8

inductive PricingError where
  | eval (e : EvalError)
  | moduleFailed (message : String)
deriving DecidableEq

/-- The text of an evaluation error. -/
def EvalError.text : EvalError → String
  | .unknownFareKey key => s!"no base fare configured for fare key {key.quote}"
  | .noSegments => "segments must be at least 1"
  | .nonPositiveQuantity quantity => s!"quantity must be positive, got {quantity.toInt}"

/-- A runtime that prices line items. -/
abbrev PricingEngine : Type := FareRuleSet → RuleInput → Except PricingError Quote

def NativeEngine.price : PricingEngine := fun rules input =>
  match evaluate rules input with
  | .ok quote => .ok quote
  | .error e => .error (.eval e)

/-! ### Linear memory -/

abbrev Memory : Type := List UInt8

namespace Memory

/-- The bytes of a range, if it lies inside. -/
def get (m : Memory) (start length : Nat) : Option Bytes :=
  if start + length ≤ m.length then some ((m.drop start).take length) else none

/-- The memory with a range overwritten, if it lies inside. -/
def write (m : Memory) (start : Nat) (bytes : Bytes) : Option Memory :=
  if start + bytes.length ≤ m.length then some (m.take start ++ bytes ++ m.drop (start + bytes.length)) else none

end Memory

/-! ### The host -/

namespace WasmEngine

def fuelPerCall : Nat := 100000000

def maxMemoryBytes : Nat := 16 * 1024 * 1024

/-- What a store is set up with. -/
structure Limits where
  fuel : Nat
  memorySize : Nat
deriving DecidableEq

def limits : Limits := ⟨fuelPerCall, maxMemoryBytes⟩

/-- A compiled module. Its calls run on the memory and the rest of its state; a trap, fuel that
runs out and a missing export are errors of the runtime. -/
structure Module where
  State : Type
  instantiate : Limits → Except String (State × Memory)
  exportsMemory : Bool
  alloc : Except String (State × Memory → Int32 → Except String (Int32 × (State × Memory)))
  price : Except String (State × Memory → Int32 → Int32 → Except String (Int64 × (State × Memory)))

def moduleErr {α : Type} (what : String) : Except String α → Except PricingError α
  | .ok a => .ok a
  | .error e => .error (.moduleFailed s!"{what}: {e}")

/-- A pointer of the module as an index on the host: the cast extends the sign. -/
def index (ptr : Int32) : Nat := ptr.toInt64.toUInt64.toNat

def length (bytes : Bytes) : Int32 := Int32.ofNat bytes.length

/-- The two halves of a packed word. -/
def unpack (packed : Int64) : Nat × Nat :=
  ((packed.toUInt64 >>> 32).toNat, (packed.toUInt64 &&& 0xFFFFFFFF).toNat)

/-- Runs one request through a module; `describe` is the message for a response that cannot be decoded. -/
def call (guest : Module) (describe : Bytes → String) (request : PriceRequest) :
    Except PricingError PriceResponse := do
  let (state, memory) ← moduleErr "instantiate (module must not import anything)" (guest.instantiate limits)
  if !guest.exportsMemory then throw (.moduleFailed "module must export `memory`")
  else
    let alloc ← moduleErr "export `alloc`" guest.alloc
    let price ← moduleErr "export `price`" guest.price
    let requestBytes := (requestJson request).toVec
    let (ptr, state, memory) ← moduleErr "alloc call" (alloc (state, memory) (length requestBytes))
    match memory.write (index ptr) requestBytes with
    | none => throw (.moduleFailed "write request: out of bounds memory access")
    | some memory =>
      let (packed, _, memory) ← moduleErr "price call (trap/out of fuel)"
        (price (state, memory) ptr (length requestBytes))
      match memory.get (unpack packed).1 (unpack packed).2 with
      | none => throw (.moduleFailed "response out of bounds")
      | some responseBytes =>
        match (Json.fromSlice responseBytes).bind readResponse with
        | none => throw (.moduleFailed s!"decode response: {describe responseBytes}")
        | some response => return response

def price (guest : Module) (describe : Bytes → String) : PricingEngine := fun rules input => do
  let response ← call guest describe ⟨rules, input⟩
  match response.ok, response.err with
  | some quote, _ => return quote
  | none, some err => throw (.moduleFailed err)
  | none, none => throw (.moduleFailed "empty response")

end WasmEngine

/-! ### The reference module -/

namespace Guest

/-- The allocator a module is linked with, as the fuel and the memory of its store let it run.
`capacity` is a buffer of that many bytes, `keep` a buffer that holds the given bytes; both
are leaked. -/
structure Allocator where
  State : Type
  start : WasmEngine.Limits → Except String (State × Memory)
  capacity : State × Memory → Nat → Except String (Nat × (State × Memory))
  keep : State × Memory → Bytes → Except String (Nat × (State × Memory))

variable (allocator : Allocator)

/-- The answer to a request; `describe` is the message for a request that cannot be decoded. -/
def respond (describe : Bytes → String) (requestBytes : Bytes) : PriceResponse :=
  match (Json.fromSlice requestBytes).bind readRequest with
  | none => ⟨none, some s!"malformed request: {describe requestBytes}"⟩
  | some request =>
    match evaluate request.rules request.input with
    | .ok quote => ⟨some quote, none⟩
    | .error e => ⟨none, some e.text⟩

/-- A buffer for the host to write a request into. -/
def alloc (s : allocator.State × Memory) (len : Int32) :
    Except String (Int32 × (allocator.State × Memory)) := do
  let (ptr, s) ← allocator.capacity s (max len 0).toInt.toNat
  return (Int32.ofNat ptr, s)

/-- `(out_ptr << 32) | out_len`. -/
def pack (ptr len : UInt64) : Int64 := ((ptr <<< 32) ||| len).toInt64

/-- Evaluates the request that the host wrote. -/
def price (describe : Bytes → String) (s : allocator.State × Memory) (ptr len : Int32) :
    Except String (Int64 × (allocator.State × Memory)) :=
  match s.2.get ptr.toUInt32.toNat (max len 0).toInt.toNat with
  | none => .error "wasm trap: out of bounds memory access"
  | some requestBytes => do
    let out := (responseJson (respond describe requestBytes)).toVec
    let (ptr, s) ← allocator.keep s out
    return (pack (UInt64.ofNat ptr) (UInt64.ofNat out.length), s)

def wasm (describe : Bytes → String) : WasmEngine.Module where
  State := allocator.State
  instantiate := allocator.start
  exportsMemory := true
  alloc := .ok (alloc allocator)
  price := .ok (price allocator describe)

end Guest

end Lulan.Rules
