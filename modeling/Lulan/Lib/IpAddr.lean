import Mathlib.Data.List.Basic

/-!
# Internet addresses

The textual form of IPv4 and IPv6 addresses, as the standard library of Rust parses it.
-/

namespace Lib

inductive IpAddr where
  | v4 (one two three four : Nat)
  | v6 (segments : List Nat)
deriving DecidableEq

namespace IpAddr

def toDigit (radix : Nat) (c : Char) : Option Nat :=
  let value :=
    if '0' ≤ c ∧ c ≤ '9' then some (c.toNat - '0'.toNat)
    else if 'a' ≤ c ∧ c ≤ 'f' then some (c.toNat - 'a'.toNat + 10)
    else if 'A' ≤ c ∧ c ≤ 'F' then some (c.toNat - 'A'.toNat + 10)
    else none
  value.filter (fun d => d < radix)

/-- The digits at the front, and what follows them. -/
def readDigits (radix : Nat) : List Char → List Nat × List Char
  | [] => ([], [])
  | c :: rest =>
    match toDigit radix c with
    | some d => (d :: (readDigits radix rest).1, (readDigits radix rest).2)
    | none => ([], c :: rest)

/-- A number of at most `maxDigits` digits that fits below `bound`. -/
def readNumber (radix maxDigits bound : Nat) (allowZeroPrefix : Bool) (s : List Char) : Option (Nat × List Char) :=
  let (ds, rest) := readDigits radix s
  let value := ds.foldl (fun acc d => acc * radix + d) 0
  if ds.length = 0 ∨ maxDigits < ds.length then none
  else if !allowZeroPrefix ∧ ds.head? = some 0 ∧ 1 < ds.length then none
  else if value < bound then some (value, rest)
  else none

def readGivenChar (c : Char) : List Char → Option (List Char)
  | [] => none
  | x :: rest => if x = c then some rest else none

/-- The separator, except before the first part, and the part. -/
def readSeparator {α : Type} (separator : Char) (index : Nat) (inner : List Char → Option (α × List Char))
    (s : List Char) : Option (α × List Char) :=
  if 0 < index then (readGivenChar separator s).bind inner else inner s

def readOctet (index : Nat) : List Char → Option (Nat × List Char) :=
  readSeparator '.' index (readNumber 10 3 256 false)

def readIpv4 (s : List Char) : Option ((Nat × Nat × Nat × Nat) × List Char) := do
  let (one, s) ← readOctet 0 s
  let (two, s) ← readOctet 1 s
  let (three, s) ← readOctet 2 s
  let (four, s) ← readOctet 3 s
  return ((one, two, three, four), s)

/-- Up to `remaining` groups from position `i` on, the last two of which an embedded IPv4
address may stand for; whether one does. -/
def readGroups : (remaining i : Nat) → List Char → List Nat × Bool × List Char
  | 0, _, s => ([], false, s)
  | remaining + 1, i, s =>
    match if 0 < remaining then readSeparator ':' i readIpv4 s else none with
    | some ((one, two, three, four), rest) => ([256 * one + two, 256 * three + four], true, rest)
    | none =>
      match readSeparator ':' i (readNumber 16 4 (2 ^ 16) true) s with
      | none => ([], false, s)
      | some (group, rest) =>
        let (groups, ipv4, rest) := readGroups remaining (i + 1) rest
        (group :: groups, ipv4, rest)

def readIpv6 (s : List Char) : Option (List Nat × List Char) :=
  let (head, headIpv4, rest) := readGroups 8 0 s
  if head.length = 8 then some (head, rest)
  else if headIpv4 then none
  else do
    let rest ← readGivenChar ':' rest
    let rest ← readGivenChar ':' rest
    let (tail, _, rest) := readGroups (7 - head.length) 0 rest
    return (head ++ List.replicate (8 - head.length - tail.length) 0 ++ tail, rest)

/-- `str::parse::<IpAddr>`. -/
def parse (s : List Char) : Option IpAddr :=
  match readIpv4 s with
  | some ((one, two, three, four), rest) => if rest.isEmpty then some (v4 one two three four) else none
  | none =>
    match readIpv6 s with
    | some (segments, rest) => if rest.isEmpty then some (v6 segments) else none
    | none => none

example : parse "203.0.113.7".toList = some (v4 203 0 113 7) := by decide

example : parse "2001:db8::ffff:1.2.3.4".toList = some (v6 [8193, 3512, 0, 0, 0, 65535, 258, 772]) := by decide

end IpAddr

end Lib
