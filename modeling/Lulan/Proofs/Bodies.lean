import Mathlib.Data.List.Induction
import Lulan.Payments.Bodies
import Lulan.Proofs.Calls

/-!
# What a JSON body holds

The cursor is always at an object. Where no key is the beginning of another one, the body holds
the value of each field at its path and nothing else.
-/

namespace Lulan.Proofs

open Http (CaseMapping Cursor Value Vars insertField insertPath jsonValue placeholder splitDots)
open Http.ProviderConfig (createVars)

section Paths

/-- The value at a path. -/
def valueAt : List String → Value → Option Value
  | [], value => some value
  | part :: rest, .object fields => (fields.lookup part).bind (valueAt rest)
  | _ :: _, _ => none

lemma valueAt_cons (part : String) (rest : List String) (value : Value) :
    valueAt (part :: rest) value = (value.fields.lookup part).bind (valueAt rest) := by
  cases value with
  | object fields => rfl
  | number n => rfl
  | text s => rfl

lemma lookup_field (k part : String) (v : Value) (fields : List (String × Value)) :
    ((k, v) :: fields).lookup part = if part = k then some v else fields.lookup part := by
  rw [List.lookup_cons]
  by_cases h : part = k
  · rw [if_pos h, beq_iff_eq.mpr h]
  · rw [if_neg h, beq_eq_false_iff_ne.mpr h]

lemma lookup_insertField (key part : String) (value : Value) (fields : List (String × Value)) :
    (insertField key value fields).lookup part = if part = key then some value else fields.lookup part := by
  induction fields with
  | nil => rw [insertField, lookup_field]
  | cons f fields ih =>
    obtain ⟨k, v⟩ := f
    rw [insertField]
    by_cases hk : k = key
    · rw [if_pos hk, lookup_field, lookup_field, hk]
      by_cases h : part = key
      · rw [if_pos h, if_pos h]
      · rw [if_neg h, if_neg h, if_neg h]
    · rw [if_neg hk, lookup_field, lookup_field, ih]
      by_cases h : part = k
      · have hne : part ≠ key := h ▸ hk
        rw [if_pos h, if_neg hne, if_pos h]
      · rw [if_neg h, if_neg h]

lemma insertPath_cons (key : String) {rest : List String} (hrest : rest ≠ []) (value : Value)
    (fields : List (String × Value)) : insertPath (key :: rest) value fields =
      insertField key (.object (insertPath rest value ((fields.lookup key).map Value.fields |>.getD []))) fields := by
  cases rest with
  | nil => exact absurd rfl hrest
  | cons part rest => rfl

/-- What is inserted at a path is found there. -/
theorem valueAt_insertPath {path : List String} (hpath : path ≠ []) (value : Value)
    (fields : List (String × Value)) : valueAt path (.object (insertPath path value fields)) = some value := by
  induction path generalizing fields with
  | nil => exact absurd rfl hpath
  | cons key rest ih =>
    rw [valueAt_cons]
    by_cases hrest : rest = []
    · subst hrest
      rw [insertPath, Value.fields, lookup_insertField, if_pos rfl]
      rfl
    · rw [insertPath_cons key hrest, Value.fields, lookup_insertField, if_pos rfl, Option.bind_some]
      exact ih hrest _

/-- What is inserted at a path changes nothing at one that parts from it. -/
theorem valueAt_insertPath_of_apart {path other : List String} {value : Value} {fields : List (String × Value)}
    (h : ¬path <+: other) (h' : ¬other <+: path) :
    valueAt other (.object (insertPath path value fields)) = valueAt other (.object fields) := by
  induction path generalizing fields other with
  | nil => exact absurd List.nil_prefix h
  | cons key rest ih =>
    cases other with
    | nil => exact absurd List.nil_prefix h'
    | cons part other =>
      rw [valueAt_cons, valueAt_cons]
      by_cases hrest : rest = []
      · subst hrest
        have hne : part ≠ key := by
          rintro rfl
          exact h (List.cons_prefix_cons.mpr ⟨rfl, List.nil_prefix⟩)
        rw [insertPath, Value.fields, lookup_insertField, if_neg hne]
        rfl
      · rw [insertPath_cons key hrest, Value.fields, lookup_insertField]
        by_cases hpart : part = key
        · subst hpart
          rw [List.cons_prefix_cons, and_iff_right rfl] at h h'
          rw [if_pos rfl, Option.bind_some, ih h h', Value.fields]
          cases other with
          | nil => exact absurd List.nil_prefix h'
          | cons next other =>
            -- an entry that was no object had nothing below it, like the empty one it gave way to
            cases hentry : fields.lookup part with
            | none => rfl
            | some entry =>
              rw [Option.map_some, Option.getD_some, Option.bind_some, valueAt_cons, valueAt_cons]
              rfl
        · rw [if_neg hpart]
          rfl

lemma valueAt_append (path rest : List String) (value : Value) :
    valueAt (path ++ rest) value = (valueAt path value).bind (valueAt rest) := by
  induction path generalizing value with
  | nil => rfl
  | cons part path ih =>
    rw [List.cons_append, valueAt_cons, valueAt_cons, Option.bind_assoc]
    congr 1
    funext entry
    exact ih entry

/-- An inserted leaf brings no other path than those on the way to it. -/
theorem present_insertPath {path other : List String} {value : Value} {fields : List (String × Value)}
    (hpath : path ≠ []) (hleaf : value.fields = [])
    (h : (valueAt other (.object (insertPath path value fields))).isSome = true) :
    other <+: path ∨ (valueAt other (.object fields)).isSome = true := by
  by_cases hway : other <+: path
  · exact .inl hway
  · by_cases hbelow : path <+: other
    · obtain ⟨rest, rfl⟩ := hbelow
      rw [valueAt_append, valueAt_insertPath hpath, Option.bind_some] at h
      cases rest with
      | nil =>
        rw [List.append_nil] at hway
        exact absurd List.prefix_rfl hway
      | cons part rest =>
        rw [valueAt_cons, hleaf] at h
        cases h
    · rw [valueAt_insertPath_of_apart hbelow hway] at h
      exact .inr h

/-- No object of a value has a key twice. -/
inductive Proper : Value → Prop
  | number (n : Int) : Proper (.number n)
  | text (s : String) : Proper (.text s)
  | object {fields : List (String × Value)} : (fields.map Prod.fst).Nodup → (∀ f ∈ fields, Proper f.2) →
      Proper (.object fields)

lemma mem_insertField {key : String} {value : Value} {fields : List (String × Value)} {f : String × Value}
    (h : f ∈ insertField key value fields) : f = (key, value) ∨ f ∈ fields := by
  induction fields with
  | nil => exact .inl (List.mem_singleton.mp h)
  | cons g fields ih =>
    obtain ⟨k, v⟩ := g
    rw [insertField] at h
    by_cases hk : k = key
    · rw [if_pos hk] at h
      rcases List.mem_cons.mp h with h | h
      · exact .inl (hk ▸ h)
      · exact .inr (List.mem_cons_of_mem _ h)
    · rw [if_neg hk] at h
      rcases List.mem_cons.mp h with h | h
      · exact .inr (h ▸ List.mem_cons_self)
      · exact (ih h).imp_right (List.mem_cons_of_mem _)

lemma nodup_insertField {key : String} {value : Value} {fields : List (String × Value)}
    (h : (fields.map Prod.fst).Nodup) : ((insertField key value fields).map Prod.fst).Nodup := by
  induction fields with
  | nil => exact List.nodup_singleton key
  | cons g fields ih =>
    obtain ⟨k, v⟩ := g
    obtain ⟨hk, hrest⟩ := List.nodup_cons.mp h
    rw [insertField]
    by_cases heq : k = key
    · rw [if_pos heq]
      exact h
    · rw [if_neg heq]
      apply List.nodup_cons.mpr
      refine ⟨fun hmem => ?_, ih hrest⟩
      obtain ⟨f, hf, hkey⟩ := List.mem_map.mp hmem
      rcases mem_insertField hf with rfl | hf
      · exact heq hkey.symm
      · exact hk (List.mem_map.mpr ⟨f, hf, hkey⟩)

lemma proper_insertField {key : String} {value : Value} {fields : List (String × Value)} (hvalue : Proper value)
    (h : Proper (.object fields)) : Proper (.object (insertField key value fields)) := by
  cases h with
  | object hnodup hall =>
    refine .object (nodup_insertField hnodup) (fun f hf => ?_)
    rcases mem_insertField hf with rfl | hf
    · exact hvalue
    · exact hall f hf

lemma proper_lookup {key : String} {value : Value} {fields : List (String × Value)} (h : Proper (.object fields))
    (hl : fields.lookup key = some value) : Proper value := by
  cases h with
  | object hnodup hall =>
    obtain ⟨before, after, rfl, -⟩ := List.lookup_eq_some_iff.mp hl
    exact hall (key, value) (List.mem_append_right _ List.mem_cons_self)

lemma proper_insertPath {path : List String} {value : Value} {fields : List (String × Value)} (hvalue : Proper value)
    (h : Proper (.object fields)) : Proper (.object (insertPath path value fields)) := by
  induction path generalizing fields with
  | nil => exact h
  | cons key rest ih =>
    by_cases hrest : rest = []
    · subst hrest
      exact proper_insertField hvalue h
    · rw [insertPath_cons key hrest]
      have hempty : Proper (.object []) := .object List.nodup_nil (fun f hf => absurd hf List.not_mem_nil)
      refine proper_insertField (ih ?_) h
      cases hl : fields.lookup key with
      | none => exact hempty
      | some entry =>
        cases entry with
        | object below => exact proper_lookup h hl
        | number n => exact hempty
        | text s => exact hempty

end Paths

section Keys

lemma splitDots_ne_nil (key : String) : splitDots key ≠ [] := by
  rw [splitDots, Ne, List.map_eq_nil_iff]
  exact List.splitOn_ne_nil _ _

end Keys

section Walk

variable {cases : CaseMapping} {vars : Vars}

/-- From an object the cursor goes on to an object. -/
lemma enter_object (around : List (String × List (String × Value))) (fields : List (String × Value)) (part : String) :
    Cursor.enter ⟨around, .object fields⟩ part =
      some ⟨(part, fields) :: around, .object ((fields.lookup part).map Value.fields |>.getD [])⟩ := by
  have hstep : Cursor.enter ⟨around, .object fields⟩ part = some ⟨(part, fields) :: around,
      if Cursor.isObject ((fields.lookup part).getD (.object [])) then (fields.lookup part).getD (.object [])
      else .object []⟩ := rfl
  rw [hstep]
  cases fields.lookup part with
  | none => rfl
  | some entry => cases entry <;> rfl

/-- A walk down a path ends at an object, and what is inserted there is inserted at the path. -/
lemma root_insert {path : List String} (hpath : path ≠ []) (value : Value)
    (around : List (String × List (String × Value))) (fields : List (String × Value)) :
    ∃ last cursor, path.getLast? = some last ∧
      path.dropLast.foldlM Cursor.enter ⟨around, .object fields⟩ = some cursor ∧
      (cursor.insert last value).map Cursor.root =
        some (Cursor.root ⟨around, .object (insertPath path value fields)⟩) := by
  induction path generalizing around fields with
  | nil => exact absurd rfl hpath
  | cons key rest ih =>
    by_cases hrest : rest = []
    · subst hrest
      exact ⟨key, ⟨around, .object fields⟩, rfl, rfl, rfl⟩
    · obtain ⟨last, cursor, hlast, hwalk, hroot⟩ :=
        ih hrest ((key, fields) :: around) ((fields.lookup key).map Value.fields |>.getD [])
      refine ⟨last, cursor, ?_, ?_, ?_⟩
      · rw [List.getLast?_cons, hlast]
        rfl
      · rw [List.dropLast_cons_of_ne_nil hrest, List.foldlM_cons, enter_object]
        exact hwalk
      · rw [hroot, insertPath_cons key hrest]
        rfl

/-- A turn never panics: the cursor is at an object wherever it comes. -/
lemma setField_object (field : String × String) (fields : List (String × Value)) :
    Cursor.setField cases vars (.object fields) field =
      some (.object (insertPath (splitDots field.1) (jsonValue cases field.2 vars) fields)) := by
  obtain ⟨last, cursor, hlast, hwalk, hroot⟩ :=
    root_insert (splitDots_ne_nil field.1) (jsonValue cases field.2 vars) [] fields
  obtain ⟨cursor', hinsert, hvalue⟩ := Option.map_eq_some_iff.mp hroot
  simp only [Cursor.setField, hlast, hwalk, hinsert, Option.bind_eq_bind, Option.bind_some]
  exact congrArg some hvalue

/-- The cursor builds the body the calls are sent with. -/
theorem cursor_jsonBody (fields : List (String × String)) :
    Cursor.jsonBody cases fields vars = some (Http.jsonBody cases fields vars) := by
  rw [Cursor.jsonBody, Http.jsonBody]
  generalize ([] : List (String × Value)) = root
  induction fields generalizing root with
  | nil => rfl
  | cons field fields ih =>
    rw [List.foldlM_cons, setField_object, List.foldl_cons]
    exact ih _

end Walk

/-- The value of a field: a number exactly where the template is one of two amounts. -/
inductive Rendered (cases : CaseMapping) (vars : Vars) (template : String) : Value → Prop
  | minor : (trim template).toList = placeholder "amount_minor" →
      Rendered cases vars template (.number vars.amountMinor)
  | major : (trim template).toList = placeholder "amount_major" →
      Rendered cases vars template (.number (Http.amountMajor cases vars.amountMinor vars.currency))
  | text : (trim template).toList ≠ placeholder "amount_minor" → (trim template).toList ≠ placeholder "amount_major" →
      Rendered cases vars template (.text (Http.render cases template vars))

/-- Where no key is the beginning of another one. -/
def PathsApart (fields : List (String × String)) : Prop :=
  ∀ f ∈ fields, ∀ g ∈ fields, splitDots f.1 <+: splitDots g.1 → f.1 = g.1

/-- An object with the value of every field at its path, and nothing off these paths. -/
structure BodyHolds (cases : CaseMapping) (vars : Vars) (fields : List (String × String)) (body : Value) : Prop where
  object : ∃ entries, body = .object entries
  placed : ∀ f ∈ fields, ∃ value, valueAt (splitDots f.1) body = some value ∧ Rendered cases vars f.2 value
  only : ∀ path, (valueAt path body).isSome = true → path ≠ [] → ∃ f ∈ fields, path <+: splitDots f.1
  proper : Proper body

section Placement

variable {cases : CaseMapping} {vars : Vars}

lemma rendered_jsonValue (template : String) : Rendered cases vars template (jsonValue cases template vars) := by
  unfold jsonValue
  by_cases hminor : (trim template).toList = placeholder "amount_minor"
  · rw [if_pos hminor]
    exact .minor hminor
  · rw [if_neg hminor]
    by_cases hmajor : (trim template).toList = placeholder "amount_major"
    · rw [if_pos hmajor]
      exact .major hmajor
    · rw [if_neg hmajor]
      exact .text hminor hmajor

lemma Rendered.leaf {template : String} {value : Value} (h : Rendered cases vars template value) :
    value.fields = [] ∧ Proper value := by
  cases h with
  | minor => exact ⟨rfl, .number _⟩
  | major => exact ⟨rfl, .number _⟩
  | text => exact ⟨rfl, .text _⟩

lemma jsonBody_append (fields : List (String × String)) (field : String × String) {entries : List (String × Value)}
    (h : Http.jsonBody cases fields vars = .object entries) : Http.jsonBody cases (fields ++ [field]) vars =
      .object (insertPath (splitDots field.1) (jsonValue cases field.2 vars) entries) := by
  have hentries := Value.object.inj h
  rw [Http.jsonBody, List.foldl_append, hentries]
  rfl

/-- One more field, whose path parts from those before. -/
lemma BodyHolds.insert {fields : List (String × String)} {field : String × String} {entries : List (String × Value)}
    (h : BodyHolds cases vars fields (.object entries))
    (hapart : ∀ f ∈ fields, ¬splitDots field.1 <+: splitDots f.1 ∧ ¬splitDots f.1 <+: splitDots field.1) :
    BodyHolds cases vars (fields ++ [field])
      (.object (insertPath (splitDots field.1) (jsonValue cases field.2 vars) entries)) := by
  have hvalue : Rendered cases vars field.2 (jsonValue cases field.2 vars) := rendered_jsonValue field.2
  have hpath := splitDots_ne_nil field.1
  refine ⟨⟨_, rfl⟩, fun f hf => ?_, fun path hpresent hne => ?_, proper_insertPath hvalue.leaf.2 h.proper⟩
  · rcases List.mem_append.mp hf with hf | hf
    · obtain ⟨value, hat, hrendered⟩ := h.placed f hf
      rw [← valueAt_insertPath_of_apart (hapart f hf).1 (hapart f hf).2] at hat
      exact ⟨value, hat, hrendered⟩
    · rw [List.mem_singleton.mp hf]
      exact ⟨_, valueAt_insertPath hpath _ _, hvalue⟩
  · rcases present_insertPath hpath hvalue.leaf.1 hpresent with hway | hbefore
    · exact ⟨field, List.mem_append_right _ (List.mem_singleton_self field), hway⟩
    · obtain ⟨f, hf, hway⟩ := h.only path hbefore hne
      exact ⟨f, List.mem_append_left _ hf, hway⟩

lemma placed_jsonBody (fields : List (String × String)) (hkeys : (fields.map Prod.fst).Nodup)
    (hapart : PathsApart fields) : BodyHolds cases vars fields (Http.jsonBody cases fields vars) := by
  induction fields using List.reverseRecOn with
  | nil =>
    refine ⟨⟨[], rfl⟩, fun f hf => absurd hf List.not_mem_nil, fun path hpresent hne => ?_,
      .object List.nodup_nil (fun f hf => absurd hf List.not_mem_nil)⟩
    obtain ⟨part, rest, rfl⟩ := List.exists_cons_of_ne_nil hne
    cases hpresent
  | append_singleton fields field ih =>
    rw [List.map_append, List.nodup_append] at hkeys
    obtain ⟨hbefore, -, hnew⟩ := hkeys
    have hplaced := ih hbefore (fun f hf g hg => hapart f (List.mem_append_left _ hf) g (List.mem_append_left _ hg))
    obtain ⟨entries, hentries⟩ := hplaced.object
    have hne : ∀ f ∈ fields, f.1 ≠ field.1 :=
      fun f hf => hnew f.1 (List.mem_map_of_mem hf) field.1 (List.mem_singleton_self _)
    have hfield : field ∈ fields ++ [field] := List.mem_append_right _ (List.mem_singleton_self field)
    rw [hentries] at hplaced
    rw [jsonBody_append fields field hentries]
    exact hplaced.insert (fun f hf =>
      ⟨fun hp => hne f hf (hapart field hfield f (List.mem_append_left _ hf) hp).symm,
        fun hp => hne f hf (hapart f (List.mem_append_left _ hf) field hfield hp)⟩)

end Placement

/-- The body of any map of fields is built without a panic, and where no key is the beginning
of another one it holds the fields, each at its path. -/
theorem json_body_placed (cases : CaseMapping) (vars : Vars) (fields : List (String × String)) :
    ∃ body, Cursor.jsonBody cases fields vars = some body ∧
      ((fields.map Prod.fst).Nodup → PathsApart fields → BodyHolds cases vars fields body) :=
  ⟨Http.jsonBody cases fields vars, cursor_jsonBody fields, placed_jsonBody fields⟩

/-- The fields of a payment whose amount is an object of its own. -/
def nestedFields : List (String × String) :=
  [("amount.currency", "\x7bcurrency\x7d"), ("amount.value", "\x7bamount_minor\x7d"), ("reference", "\x7border_id\x7d")]

theorem json_body_placed_nested : ∃ body,
    Cursor.jsonBody asciiCases nestedFields (createVars Http.nil 45000 "PHP") = some body ∧
      BodyHolds asciiCases (createVars Http.nil 45000 "PHP") nestedFields body := by
  obtain ⟨body, hbody, hholds⟩ := json_body_placed asciiCases (createVars Http.nil 45000 "PHP") nestedFields
  have hapart : ∀ f ∈ nestedFields, ∀ g ∈ nestedFields, splitDots f.1 <+: splitDots g.1 → f.1 = g.1 := by decide
  exact ⟨body, hbody, hholds (by decide) hapart⟩

end Lulan.Proofs
