import Lulan.Payments.Calls

/-!
# The cursor of a JSON body

The body of a call as it is built in place: a mutable reference walks down from the root for
each key, repairs what is in its way, and inserts. The calls use the same function as an
insertion along a path.
-/

namespace Lulan.Http

/-- A mutable reference into a value: the value it points at, and the objects around that, from
the inside out, each with the key it was entered by. -/
structure Cursor where
  around : List (String × List (String × Value))
  value : Value

namespace Cursor

/-- The value the reference was taken from. -/
def root (cursor : Cursor) : Value :=
  cursor.around.foldl (fun value p => .object (insertField p.1 value p.2)) cursor.value

/-- `as_object_mut().expect("cursor is always an object")`; `none` is the panic. -/
def asObjectMut : Value → Option (List (String × Value))
  | .object fields => some fields
  | _ => none

def isObject : Value → Bool
  | .object _ => true
  | _ => false

/-- `entry(part).or_insert_with(|| json!({}))`, and an object in the place of what is none. -/
def enter (cursor : Cursor) (part : String) : Option Cursor := do
  let fields ← asObjectMut cursor.value
  let entry := (fields.lookup part).getD (.object [])
  return ⟨(part, fields) :: cursor.around, if isObject entry then entry else .object []⟩

/-- `insert(part, value)` in the object pointed at. -/
def insert (cursor : Cursor) (part : String) (value : Value) : Option Cursor := do
  let fields ← asObjectMut cursor.value
  return { cursor with value := .object (insertField part value fields) }

/-- One turn of the loop over the fields. -/
def setField (cases : CaseMapping) (vars : Vars) (root : Value) (field : String × String) : Option Value := do
  let parts := splitDots field.1
  let last ← parts.getLast?
  let cursor ← parts.dropLast.foldlM enter ⟨[], root⟩
  let cursor ← cursor.insert last (jsonValue cases field.2 vars)
  return cursor.root

def jsonBody (cases : CaseMapping) (fields : List (String × String)) (vars : Vars) : Option Value :=
  fields.foldlM (setField cases vars) (.object [])

end Cursor

end Lulan.Http
