import Mathlib.Data.List.Basic

/-!
# JSON values and derived readers

JSON documents as values, with the fields of an object in the order they are written, and the
way a derived deserializer reads a record from one: by name, each at most once, or by position.
-/

namespace Lib

/-- A JSON value; `real` is a number that is not an integer of 64 bits. -/
inductive Json where
  | null
  | bool (b : Bool)
  | int (n : Int)
  | real (literal : String)
  | str (s : String)
  | arr (items : List Json)
  | obj (fields : List (String × Json))

namespace Json

/-- What the fields of a record are read from. -/
inductive Source where
  | map (fields : List (String × Json))
  | seq (items : List Json)

/-- A record of `arity` fields is written as an object or as an array. -/
def source (arity : Nat) : Json → Option Source
  | obj fields => some (.map fields)
  | arr items => if items.length ≤ arity then some (.seq items) else none
  | _ => none

/-- The field of that name, or at that position; `missing` where it is left out. -/
def Source.get {α : Type} (source : Source) (name : String) (index : Nat) (missing : Option α)
    (read : Json → Option α) : Option α :=
  match source with
  | .map fields =>
    match (fields.filter (fun f => f.1 == name)).map Prod.snd with
    | [] => missing
    | [value] => read value
    | _ => none
  | .seq items =>
    match items[index]? with
    | none => missing
    | some value => read value

def readStr : Json → Option String
  | str s => some s
  | _ => none

/-- An integer from `low` up to but not including `high`. -/
def readInt (low high : Int) : Json → Option Int
  | int n => if low ≤ n ∧ n < high then some n else none
  | _ => none

def readOption {α : Type} (read : Json → Option α) : Json → Option (Option α)
  | null => some none
  | value => (read value).map some

def readList {α : Type} (read : Json → Option α) : Json → Option (List α)
  | arr items => items.mapM read
  | _ => none

/-! ### Reading what was written -/

section Fields

variable {α : Type} {fields : List (String × Json)} {name other : String} {value : Json} {index : Nat}
  {missing : Option α} {read : Json → Option α}

@[simp] lemma get_nil : (Source.map []).get name index missing read = missing := rfl

/-- A field that occurs nowhere else is read wherever it stands. -/
lemma get_cons_self (h : ∀ f ∈ fields, f.1 ≠ name) :
    (Source.map ((name, value) :: fields)).get name index missing read = read value := by
  have hnone : fields.filter (fun f => f.1 == name) = [] := by
    apply List.filter_eq_nil_iff.mpr
    intro f hf heq
    exact h f hf (beq_iff_eq.mp heq)
  have hone : ((name, value) :: fields).filter (fun f => f.1 == name) = [(name, value)] := by
    rw [List.filter_cons_of_pos (by exact beq_self_eq_true name), hnone]
  simp only [Source.get, hone, List.map_cons, List.map_nil]

/-- Another field in front changes nothing. -/
lemma get_cons_other (h : other ≠ name) :
    (Source.map ((other, value) :: fields)).get name index missing read =
      (Source.map fields).get name index missing read := by
  have hskip : ((other, value) :: fields).filter (fun f => f.1 == name) = fields.filter (fun f => f.1 == name) :=
    List.filter_cons_of_neg (by simpa using h)
  simp only [Source.get, hskip]

end Fields

lemma readInt_int {low high n : Int} (h : low ≤ n ∧ n < high) : readInt low high (int n) = some n := if_pos h

/-- What is not null is read as itself. -/
lemma readOption_of_ne_null {α : Type} {read : Json → Option α} {value : Json} (h : value ≠ null) :
    readOption read value = (read value).map some := by
  cases value with
  | null => exact absurd rfl h
  | bool | int | real | str | arr | obj => rfl

lemma readList_map {α : Type} {read : Json → Option α} {write : α → Json} {items : List α}
    (h : ∀ a ∈ items, read (write a) = some a) : readList read (arr (items.map write)) = some items := by
  rw [readList, List.mapM_map]
  induction items with
  | nil => rfl
  | cons a items ih =>
    rw [List.mapM_cons, Function.comp_apply, h a List.mem_cons_self,
      ih (fun b hb => h b (List.mem_cons_of_mem a hb))]
    rfl

end Json

end Lib
