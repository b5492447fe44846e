import Lulan.Lib.Text
import Lulan.Engine.Database

/-!
# The hold keys in Redis

The keys of the soft holds, each with the time it expires at, and the commands the hold store
sends. The acquire script is one command. Times are milliseconds.
-/

namespace Lulan.Holds

/-- A key with an expiry. -/
structure Key (α : Type) where
  value : α
  expiresAt : Nat
deriving DecidableEq

/-- The value of a key, until its expiry has passed. -/
def Key.get {α : Type} (now : Nat) (key : Option (Key α)) : Option α :=
  key.bind (fun k => if now ≤ k.expiresAt then some k.value else none)

/-- `PEXPIRE`, which deletes the key where no time is left. -/
def pexpire {α : Type} (value : α) (now ttl : Nat) : Option (Key α) := if ttl = 0 then none else some ⟨value, now + ttl⟩

/-- hold id → `expires_ms:mask_hi:mask_lo`. -/
abbrev Hash : Type := List (Uuid × String)

/-- `registry` and `itineraries` hold the texts `trip:unit` and `hold:trip:unit;…` as what they
are parsed back into. -/
structure Redis where
  now : Nat
  units : Uuid → Uuid → Option (Key Hash)
  index : Uuid → Option (Key (List Uuid))
  registry : Uuid → Option (Key (Uuid × Uuid))
  itineraries : Uuid → Option (Key (List (Uuid × Uuid × Uuid)))

namespace Redis

def empty (now : Nat) : Redis := ⟨now, fun _ _ => none, fun _ => none, fun _ => none, fun _ => none⟩

def setUnit (s : Redis) (trip unit : Uuid) (key : Option (Key Hash)) : Redis :=
  { s with units := Function.update s.units trip (Function.update (s.units trip) unit key) }

def setIndex (s : Redis) (trip : Uuid) (key : Option (Key (List Uuid))) : Redis :=
  { s with index := Function.update s.index trip key }

/-- The fields last written to a unit's hash, whether its key has expired or not. -/
def stored (s : Redis) (trip unit : Uuid) : Hash := ((s.units trip unit).map Key.value).getD []

/-- The fields of a unit's hash. -/
def hash (s : Redis) (trip unit : Uuid) : Hash := (Key.get s.now (s.units trip unit)).getD []

/-- The members of a trip's index. -/
def members (s : Redis) (trip : Uuid) : List Uuid := (Key.get s.now (s.index trip)).getD []

end Redis

/-! ### The acquire script -/

/-- The fourteen significant digits of a number, rounded half to even, and its exponent. -/
def significant (n : Nat) : Nat × Nat :=
  let exponent := (Nat.toDigits 10 n).length - 1
  let unit := 10 ^ (exponent - 13)
  let q := n / unit
  let r := n % unit
  let m := if 2 * r > unit ∨ 2 * r = unit ∧ q % 2 = 1 then q + 1 else q
  if m = 10 ^ 14 then (m / 10, exponent + 1) else (m, exponent)

/-- `%.14g` from `10 ^ 14` on. -/
def scientific (n : Nat) : List Char :=
  let (m, exponent) := significant n
  let mantissa := ((Nat.toDigits 10 m).reverse.dropWhile (fun c => c = '0')).reverse
  let tens := if exponent < 10 then ['0'] else []
  match mantissa with
  | first :: second :: rest => first :: '.' :: second :: rest ++ ('e' :: '+' :: tens ++ Nat.toDigits 10 exponent)
  | single => single ++ ('e' :: '+' :: tens ++ Nat.toDigits 10 exponent)

/-- Lua's `tostring` of a whole number. -/
def luaToString (n : Nat) : List Char := if n < 10 ^ 14 then Nat.toDigits 10 n else scientific n

/-- What the script stores for a hold. -/
def holdText (exp hi lo : Nat) : String :=
  String.ofList (luaToString exp ++ ':' :: (Nat.toDigits 10 hi ++ ':' :: Nat.toDigits 10 lo))

/-- `string.match(value, '^(%d+):(%d+):(%d+)$')`, as numbers. -/
def readLua (value : String) : Option (Nat × Nat × Nat) :=
  match value.toList.splitOn ':' with
  | [exp, hi, lo] => do return (← Lib.Text.digits exp, ← Lib.Text.digits hi, ← Lib.Text.digits lo)
  | _ => none

/-- Redis Lua's `bit` library: arguments modulo `2 ^ 32`, results signed. -/
def bor (a b : Int) : Int := (BitVec.ofInt 32 a ||| BitVec.ofInt 32 b).toInt

def band (a b : Int) : Int := (BitVec.ofInt 32 a &&& BitVec.ofInt 32 b).toInt

/-- The variables of the script's loop; `kept` is what the `HDEL`s leave. -/
structure Scan where
  kept : Hash
  unionHi : Int
  unionLo : Int
  maxExp : Nat

def Scan.field (now : Nat) (acc : Scan) (field : Uuid × String) : Scan :=
  match readLua field.2 with
  | none => acc
  | some (exp, hi, lo) =>
    if exp ≤ now then acc
    else {
      kept := acc.kept ++ [field]
      unionHi := bor acc.unionHi hi
      unionLo := bor acc.unionLo lo
      maxExp := if exp > acc.maxExp then exp else acc.maxExp }

def scan (now ttl : Nat) (fields : Hash) : Scan := fields.foldl (Scan.field now) ⟨[], 0, 0, now + ttl⟩

/-- Whether the script admits the span. -/
def admits (scanned : Scan) (hi lo : Nat) : Bool := band scanned.unionHi hi == 0 && band scanned.unionLo lo == 0

/-- `HDEL`: a hash without fields is no key. -/
def withFields (key : Option (Key Hash)) (fields : Hash) : Option (Key Hash) :=
  if fields.isEmpty then none else key.map (fun k => { k with value := fields })

/-- `HSET`. -/
def hset (fields : Hash) (holdId : Uuid) (text : String) : Hash :=
  if fields.any (fun f => f.1 == holdId) then fields.map (fun f => if f.1 = holdId then (holdId, text) else f)
  else fields ++ [(holdId, text)]

/-- `SADD`. -/
def sadd (members : List Uuid) (unit : Uuid) : List Uuid := if unit ∈ members then members else members ++ [unit]

/-- `ACQUIRE_SCRIPT`, with what it answers. -/
def acquireScript (s : Redis) (trip unit : Uuid) (now ttl : Nat) (holdId : Uuid) (hi lo indexTtl : Nat) :
    Nat × Redis :=
  let scanned := scan now ttl (s.hash trip unit)
  if admits scanned hi lo then
    let fields := hset scanned.kept holdId (holdText (now + ttl) hi lo)
    let s' := s.setUnit trip unit (pexpire fields s.now (scanned.maxExp - now))
    (1, s'.setIndex trip (pexpire (sadd (s.members trip) unit) s.now indexTtl))
  else (0, s.setUnit trip unit (withFields (s.units trip unit) scanned.kept))

/-! ### Commands -/

/-- A command, and `Utc::now()`, which reads the same clock. -/
inductive Command where
  | clock
  | acquire (trip unit : Uuid) (now ttl : Nat) (holdId : Uuid) (hi lo indexTtl : Nat)
  | setRegistry (holdId trip unit : Uuid) (ttl : Nat)
  | getRegistry (holdId : Uuid)
  | delRegistry (holdId : Uuid)
  | hdel (trip unit holdId : Uuid)
  | hlen (trip unit : Uuid)
  | hgetall (trip unit : Uuid)
  | srem (trip : Uuid) (units : List Uuid)
  | smembers (trip : Uuid)
  | scard (trip : Uuid)
  | setItinerary (holdId : Uuid) (members : List (Uuid × Uuid × Uuid)) (ttl : Nat)
  | getItinerary (holdId : Uuid)
  | delItinerary (holdId : Uuid)
deriving DecidableEq

inductive Reply where
  | int (n : Nat)
  | nil
  | ok
  | seat (trip unit : Uuid)
  | itinerary (members : List (Uuid × Uuid × Uuid))
  | members (units : List Uuid)
  | fields (fields : Hash)
  | error
deriving DecidableEq

/-- What a command answers and does. -/
def Command.exec (s : Redis) : Command → Reply × Redis
  | .clock => (.int s.now, s)
  | .acquire trip unit now ttl holdId hi lo indexTtl =>
    let (admitted, s') := acquireScript s trip unit now ttl holdId hi lo indexTtl
    (.int admitted, s')
  | .setRegistry holdId trip unit ttl =>
    if ttl = 0 then (.error, s)
    else (.ok, { s with registry := Function.update s.registry holdId (some ⟨(trip, unit), s.now + ttl⟩) })
  | .getRegistry holdId =>
    match Key.get s.now (s.registry holdId) with
    | some (trip, unit) => (.seat trip unit, s)
    | none => (.nil, s)
  | .delRegistry holdId => (.ok, { s with registry := Function.update s.registry holdId none })
  | .hdel trip unit holdId =>
    let fields := (s.hash trip unit).filter (fun f => f.1 != holdId)
    (.ok, s.setUnit trip unit (withFields (s.units trip unit) fields))
  | .hlen trip unit => (.int (s.hash trip unit).length, s)
  | .hgetall trip unit => (.fields (s.hash trip unit), s)
  | .srem trip units =>
    let left := (s.members trip).filter (fun u => !units.contains u)
    (.ok, s.setIndex trip (if left.isEmpty then none else (s.index trip).map (fun k => { k with value := left })))
  | .smembers trip => (.members (s.members trip), s)
  | .scard trip => (.int (s.members trip).length, s)
  | .setItinerary holdId members ttl =>
    if ttl = 0 then (.error, s)
    else (.ok, { s with itineraries := Function.update s.itineraries holdId (some ⟨members, s.now + ttl⟩) })
  | .getItinerary holdId =>
    match Key.get s.now (s.itineraries holdId) with
    | some members => (.itinerary members, s)
    | none => (.nil, s)
  | .delItinerary holdId => (.ok, { s with itineraries := Function.update s.itineraries holdId none })

/-- A command reaches Redis or fails on the way; reading the clock does not fail. -/
def Command.run (command : Command) (reaches : Bool) (s : Redis) : Reply × Redis :=
  if reaches || command == .clock then command.exec s else (.error, s)

end Lulan.Holds
