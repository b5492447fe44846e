import Mathlib.Algebra.Group.Int.Defs
import Mathlib.Algebra.Group.Nat.Defs
import Lulan.Lib.Json
import Lulan.Lib.Text

/-!
# JSON texts

The compact text of a JSON value and a reader of texts. Nesting is bounded when a text is read.
What was written is read back, for every value without non-integral numbers.
-/

namespace Lib.Json

/-! ### Writing -/

/-- The two-character escapes, by the character they stand for. -/
def shortEscape (c : Char) : Option Char :=
  if c = '"' then some '"'
  else if c = '\\' then some '\\'
  else if c = '\x08' then some 'b'
  else if c = '\t' then some 't'
  else if c = '\n' then some 'n'
  else if c = '\x0c' then some 'f'
  else if c = '\r' then some 'r'
  else none

/-- A character inside a string. -/
def escape (c : Char) : List Char :=
  match shortEscape c with
  | some e => ['\\', e]
  | none =>
    if c.toNat < 32 then ['\\', 'u', '0', '0', Nat.digitChar (c.toNat / 16), Nat.digitChar (c.toNat % 16)]
    else [c]

def writeText (s : String) : List Char := '"' :: s.toList.flatMap escape ++ ['"']

def writeInt (n : Int) : List Char :=
  if n < 0 then '-' :: Nat.toDigits 10 n.natAbs else Nat.toDigits 10 n.natAbs

/-- Texts with commas between them. -/
def commas : List (List Char) → List Char
  | [] => []
  | [text] => text
  | text :: texts => text ++ ',' :: commas texts

mutual

/-- The text of a value, without any space. -/
def write : Json → List Char
  | .null => ['n', 'u', 'l', 'l']
  | .bool true => ['t', 'r', 'u', 'e']
  | .bool false => ['f', 'a', 'l', 's', 'e']
  | .int n => writeInt n
  | .real literal => literal.toList
  | .str s => writeText s
  | .arr items => '[' :: commas (writeItems items) ++ [']']
  | .obj fields => '\x7b' :: commas (writeFields fields) ++ ['\x7d']

def writeItems : List Json → List (List Char)
  | [] => []
  | item :: items => write item :: writeItems items

def writeFields : List (String × Json) → List (List Char)
  | [] => []
  | (name, value) :: fields => (writeText name ++ ':' :: write value) :: writeFields fields

end

/-! ### Reading -/

def isSpace (c : Char) : Bool := c == ' ' || c == '\t' || c == '\n' || c == '\r'

def skipSpaces (s : List Char) : List Char := s.dropWhile isSpace

def hexValue (c : Char) : Option Nat :=
  if '0' ≤ c ∧ c ≤ '9' then some (c.toNat - 48)
  else if 'a' ≤ c ∧ c ≤ 'f' then some (c.toNat - 97 + 10)
  else if 'A' ≤ c ∧ c ≤ 'F' then some (c.toNat - 65 + 10)
  else none

def readHex : List Char → Option (Nat × List Char)
  | a :: b :: c :: d :: rest => do
    let a ← hexValue a
    let b ← hexValue b
    let c ← hexValue c
    let d ← hexValue d
    return (((a * 16 + b) * 16 + c) * 16 + d, rest)
  | _ => none

/-- What follows `\u`: a code unit, or a pair of them for a character beyond the first plane. -/
def readUnicode (s : List Char) : Option (Char × List Char) := do
  let (unit, rest) ← readHex s
  if 0xDC00 ≤ unit ∧ unit < 0xE000 then none
  else if 0xD800 ≤ unit ∧ unit < 0xDC00 then
    match rest with
    | '\\' :: 'u' :: rest =>
      let (low, rest) ← readHex rest
      if 0xDC00 ≤ low ∧ low < 0xE000 then
        return (Char.ofNat ((unit - 0xD800) * 0x400 + (low - 0xDC00) + 0x10000), rest)
      else none
    | _ => none
  else return (Char.ofNat unit, rest)

def readEscape : List Char → Option (Char × List Char)
  | '"' :: rest => some ('"', rest)
  | '\\' :: rest => some ('\\', rest)
  | '/' :: rest => some ('/', rest)
  | 'b' :: rest => some ('\x08', rest)
  | 'f' :: rest => some ('\x0c', rest)
  | 'n' :: rest => some ('\n', rest)
  | 'r' :: rest => some ('\r', rest)
  | 't' :: rest => some ('\t', rest)
  | 'u' :: rest => readUnicode rest
  | _ => none

/-- A character of a string, escaped or not; control characters have to be escaped. -/
def readChar : List Char → Option (Char × List Char)
  | [] => none
  | c :: rest => if c = '\\' then readEscape rest else if c.toNat < 32 then none else some (c, rest)

/-- The characters up to the closing quote. -/
def readChars : Nat → List Char → Option (List Char × List Char)
  | 0, _ => none
  | fuel + 1, s =>
    match s with
    | '"' :: rest => some ([], rest)
    | s => do
      let (c, rest) ← readChar s
      let (cs, rest) ← readChars fuel rest
      return (c :: cs, rest)

/-- A string after its opening quote. -/
def readText (s : List Char) : Option (String × List Char) :=
  (readChars (s.length + 1) s).map (fun p => (String.ofList p.1, p.2))

/-- A run of digits that is not empty. -/
def readDigits (s : List Char) : Option (List Char × List Char) :=
  if s.takeWhile Char.isDigit = [] then none else some (s.takeWhile Char.isDigit, s.dropWhile Char.isDigit)

/-- The part of a number after its whole digits: their text and whether there is any. -/
def readTail (s : List Char) : Option (List Char × List Char) := do
  let (fraction, rest) ← match s with
    | '.' :: rest => do
      let (digits, rest) ← readDigits rest
      pure ('.' :: digits, rest)
    | s => pure ([], s)
  let (exponent, rest) ← match rest with
    | e :: sign :: rest =>
      if e = 'e' ∨ e = 'E' then
        if sign = '+' ∨ sign = '-' then do
          let (digits, rest) ← readDigits rest
          pure (e :: sign :: digits, rest)
        else do
          let (digits, rest) ← readDigits (sign :: rest)
          pure (e :: digits, rest)
      else pure ([], e :: sign :: rest)
    | rest => pure ([], rest)
  return (fraction ++ exponent, rest)

/-- An integer of 64 bits, signed or unsigned; any other number is kept as its text. -/
def ofNumber (negative : Bool) (whole tail : List Char) : Json :=
  let n := Nat.ofDigitChars 10 whole 0
  if tail = [] ∧ (if negative then 0 < n ∧ n ≤ 2 ^ 63 else n < 2 ^ 64) then
    .int (if negative then -(n : Int) else n)
  else .real (String.ofList ((if negative then ['-'] else []) ++ whole ++ tail))

/-- A number after its sign, without leading zeros. -/
def readUnsigned (negative : Bool) (s : List Char) : Option (Json × List Char) := do
  let (whole, rest) ← readDigits s
  if whole.head? = some '0' ∧ whole.length ≠ 1 then none
  else
    let (tail, rest) ← readTail rest
    return (ofNumber negative whole tail, rest)

def readNumber : List Char → Option (Json × List Char)
  | '-' :: s => readUnsigned true s
  | s => readUnsigned false s

section Containers

variable {α : Type} (close : Char) (item : List Char → Option (α × List Char))

/-- One item or more, up to the closing bracket. -/
def readItems : Nat → List Char → Option (List α × List Char)
  | 0, _ => none
  | fuel + 1, s => do
    let (a, rest) ← item (skipSpaces s)
    match skipSpaces rest with
    | [] => none
    | c :: rest =>
      if c = ',' then
        let (as, rest) ← readItems fuel rest
        return (a :: as, rest)
      else if c = close then return ([a], rest)
      else none

/-- The items of a container after its opening bracket. -/
def readContainer (s : List Char) : Option (List α × List Char) :=
  match skipSpaces s with
  | [] => none
  | c :: rest => if c = close then some ([], rest) else readItems close item (s.length + 1) (c :: rest)

end Containers

/-- A field of an object. -/
def readField (value : List Char → Option (Json × List Char)) :
    List Char → Option ((String × Json) × List Char)
  | '"' :: s => do
    let (name, rest) ← readText s
    match skipSpaces rest with
    | ':' :: rest =>
      let (j, rest) ← value (skipSpaces rest)
      return ((name, j), rest)
    | _ => none
  | _ => none

/-- A value, with containers up to that depth. -/
def readValue (depth : Nat) (s : List Char) : Option (Json × List Char) :=
  match s with
  | 'n' :: 'u' :: 'l' :: 'l' :: rest => some (.null, rest)
  | 't' :: 'r' :: 'u' :: 'e' :: rest => some (.bool true, rest)
  | 'f' :: 'a' :: 'l' :: 's' :: 'e' :: rest => some (.bool false, rest)
  | '"' :: rest => (readText rest).map (fun p => (.str p.1, p.2))
  | '[' :: rest =>
    match depth with
    | 0 => none
    | depth + 1 => (readContainer ']' (readValue depth) rest).map (fun p => (.arr p.1, p.2))
  | '\x7b' :: rest =>
    match depth with
    | 0 => none
    | depth + 1 => (readContainer '\x7d' (readField (readValue depth)) rest).map (fun p => (.obj p.1, p.2))
  | s => readNumber s

/-- A whole text, nested at most 127 deep. -/
def read (s : List Char) : Option Json := do
  let (j, rest) ← readValue 127 (skipSpaces s)
  if skipSpaces rest = [] then some j else none

/-! ### Reading what was written -/

/-- Values that are written without loss, with containers up to that depth. -/
def Fits : Nat → Json → Prop
  | _, .null => True
  | _, .bool _ => True
  | _, .int n => -2 ^ 63 ≤ n ∧ n < 2 ^ 64
  | _, .real _ => False
  | _, .str _ => True
  | 0, .arr _ => False
  | 0, .obj _ => False
  | depth + 1, .arr items => ∀ j ∈ items, Fits depth j
  | depth + 1, .obj fields => ∀ f ∈ fields, Fits depth f.2

lemma hexValue_digitChar : ∀ n < 16, hexValue (Nat.digitChar n) = some n := by decide

lemma shortEscape_read {c e : Char} (h : shortEscape c = some e) (rest : List Char) :
    readEscape (e :: rest) = some (c, rest) := by
  unfold shortEscape at h
  split_ifs at h with h₁ h₂ h₃ h₄ h₅ h₆ h₇ <;> cases h <;> subst c <;> rfl

lemma readUnicode_control {c : Char} (h : c.toNat < 32) (rest : List Char) :
    readUnicode ('0' :: '0' :: Nat.digitChar (c.toNat / 16) :: Nat.digitChar (c.toNat % 16) :: rest) =
      some (c, rest) := by
  have hzero : hexValue '0' = some 0 := rfl
  have hval : ((0 * 16 + 0) * 16 + c.toNat / 16) * 16 + c.toNat % 16 = c.toNat := by omega
  have hread : readHex ('0' :: '0' :: Nat.digitChar (c.toNat / 16) :: Nat.digitChar (c.toNat % 16) :: rest) =
      some (c.toNat, rest) := by
    simp only [readHex, hzero, hexValue_digitChar _ (show c.toNat / 16 < 16 by omega),
      hexValue_digitChar _ (show c.toNat % 16 < 16 by omega), Option.bind_eq_bind, Option.bind_some, hval]
    rfl
  simp only [readUnicode, hread, Option.bind_eq_bind, Option.bind_some]
  rw [if_neg (by omega), if_neg (by omega), Char.ofNat_toNat]
  rfl

/-- A character is read back from its escape. -/
lemma readChar_escape (c : Char) (rest : List Char) : readChar (escape c ++ rest) = some (c, rest) := by
  unfold escape
  cases hshort : shortEscape c with
  | some e =>
    simp only [List.cons_append, List.nil_append, readChar]
    rw [if_pos trivial]
    exact shortEscape_read hshort rest
  | none =>
    by_cases hc : c.toNat < 32
    · simp only [hc, if_true, List.cons_append, List.nil_append, readChar]
      exact readUnicode_control hc rest
    · have hne : c ≠ '\\' := by
        rintro rfl
        cases hshort
      simp only [hc, if_false, List.cons_append, List.nil_append, readChar, hne]

lemma escape_head (c : Char) : ∃ d rest, escape c = d :: rest ∧ d ≠ '"' := by
  unfold escape
  cases hshort : shortEscape c with
  | some e => exact ⟨_, _, rfl, by decide⟩
  | none =>
    by_cases hc : c.toNat < 32
    · exact ⟨_, _, if_pos hc, by decide⟩
    · refine ⟨_, _, if_neg hc, ?_⟩
      rintro rfl
      cases hshort

lemma readChars_escapes {cs rest : List Char} {fuel : Nat} (h : cs.length < fuel) :
    readChars fuel (cs.flatMap escape ++ '"' :: rest) = some (cs, rest) := by
  induction cs generalizing fuel with
  | nil =>
    cases fuel with
    | zero => exact absurd h (Nat.not_lt_zero _)
    | succ fuel => rfl
  | cons c cs ih =>
    cases fuel with
    | zero => exact absurd h (Nat.not_lt_zero _)
    | succ fuel =>
      obtain ⟨d, tail, hd, hne⟩ := escape_head c
      have hread := readChar_escape c (cs.flatMap escape ++ '"' :: rest)
      rw [List.flatMap_cons, List.append_assoc]
      rw [hd, List.cons_append] at hread ⊢
      rw [readChars]
      · simp only [hread, Option.bind_eq_bind, Option.bind_some, ih (Nat.lt_of_succ_lt_succ h)]
        rfl
      · intro rest' heq
        cases heq
        exact hne rfl

lemma length_le_escapes (cs : List Char) : cs.length ≤ (cs.flatMap escape).length := by
  induction cs with
  | nil => exact Nat.le_refl 0
  | cons c cs ih =>
    obtain ⟨d, tail, hd, -⟩ := escape_head c
    rw [List.flatMap_cons, hd, List.length_append, List.length_cons, List.length_cons]
    omega

/-- A string is read back, without its opening quote. -/
lemma readText_escapes (s : String) (rest : List Char) :
    readText (s.toList.flatMap escape ++ '"' :: rest) = some (s, rest) := by
  have hlen := length_le_escapes s.toList
  rw [readText, readChars_escapes (by rw [List.length_append]; omega), Option.map_some, String.ofList_toList]

/-! ### Numbers -/

/-- What may follow a value inside a container or at the end. -/
def Ends : List Char → Prop
  | [] => True
  | c :: _ => c = ',' ∨ c = ']' ∨ c = '\x7d'

lemma readDigits_append {ds rest : List Char} (hne : ds ≠ []) (hds : ∀ c ∈ ds, c.isDigit = true)
    (hrest : Ends rest) : readDigits (ds ++ rest) = some (ds, rest) := by
  have hstop : rest.takeWhile Char.isDigit = [] ∧ rest.dropWhile Char.isDigit = rest := by
    cases rest with
    | nil => exact ⟨rfl, rfl⟩
    | cons c rest => obtain rfl | rfl | rfl := hrest <;> exact ⟨rfl, rfl⟩
  rw [readDigits, List.takeWhile_append_of_pos hds, List.dropWhile_append_of_pos hds, hstop.1, hstop.2,
    List.append_nil, if_neg hne]

lemma readTail_ends {rest : List Char} (h : Ends rest) : readTail rest = some ([], rest) := by
  cases rest with
  | nil => rfl
  | cons c rest =>
    obtain rfl | rfl | rfl := h <;> cases rest <;> rfl

/-- Only zero is written with a leading zero. -/
lemma toDigits_zero_head (n : Nat) : (Nat.toDigits 10 n).head? = some '0' → n = 0 := by
  induction n using Nat.strongRecOn with
  | ind n ih =>
    intro h
    rw [Nat.toDigits_eq_if (by decide)] at h
    by_cases hn : n < 10
    · have hchars : ∀ m < 10, Nat.digitChar m = '0' → m = 0 := by decide
      rw [if_pos hn] at h
      exact hchars n hn (Option.some.inj h)
    · rw [if_neg hn, List.head?_append_of_ne_nil _ Nat.toDigits_ne_nil] at h
      have hdiv := ih (n / 10) (by omega) h
      omega

lemma readUnsigned_toDigits {n : Nat} {rest : List Char} (negative : Bool) (h : Ends rest) :
    readUnsigned negative (Nat.toDigits 10 n ++ rest) = some (ofNumber negative (Nat.toDigits 10 n) [], rest) := by
  have hdigits : ∀ c ∈ Nat.toDigits 10 n, c.isDigit = true :=
    fun c hc => Nat.isDigit_of_mem_toDigits (by decide) (by decide) hc
  have hlead : ¬((Nat.toDigits 10 n).head? = some '0' ∧ (Nat.toDigits 10 n).length ≠ 1) := by
    rintro ⟨hhead, hlen⟩
    rw [toDigits_zero_head n hhead] at hlen
    exact hlen rfl
  simp only [readUnsigned, readDigits_append Nat.toDigits_ne_nil hdigits h, hlead, if_false, readTail_ends h,
    Option.bind_eq_bind, Option.bind_some]
  rfl

/-- An integer of 64 bits is read back. -/
lemma readNumber_writeInt {n : Int} {rest : List Char} (hn : -2 ^ 63 ≤ n ∧ n < 2 ^ 64) (h : Ends rest) :
    readNumber (writeInt n ++ rest) = some (.int n, rest) := by
  unfold writeInt
  by_cases hneg : n < 0
  · rw [if_pos hneg, List.cons_append, readNumber, readUnsigned_toDigits true h, ofNumber,
      Nat.ofDigitChars_ten_toDigits]
    simp only [if_true, true_and]
    rw [if_pos (by omega)]
    have hval : -((n.natAbs : Nat) : Int) = n := by omega
    rw [hval]
  · obtain ⟨c, tail, heq, hc⟩ := Text.toDigits_head n.natAbs
    rw [if_neg hneg, readNumber.eq_def]
    have hnum := readUnsigned_toDigits (n := n.natAbs) false h
    rw [ofNumber, Nat.ofDigitChars_ten_toDigits] at hnum
    simp only [Bool.false_eq_true, if_false, true_and] at hnum
    rw [if_pos (by omega)] at hnum
    have hval : ((n.natAbs : Nat) : Int) = n := by omega
    rw [hval] at hnum
    rw [heq, List.cons_append] at hnum ⊢
    split
    · rename_i s heq'
      cases heq'
      cases hc
    · exact hnum

/-! ### Containers -/

/-- A text that starts with something else than a space. -/
def Starts (s : List Char) : Prop := ∃ c rest, s = c :: rest ∧ isSpace c = false ∧ c ≠ ']' ∧ c ≠ '\x7d'

lemma skipSpaces_starts {s : List Char} (h : Starts s) (rest : List Char) :
    skipSpaces (s ++ rest) = s ++ rest := by
  obtain ⟨c, t, rfl, hc, -⟩ := h
  exact List.dropWhile_cons_of_neg (by rw [hc]; exact Bool.false_ne_true)

lemma commas_cons {text : List Char} {texts : List (List Char)} (h : texts ≠ []) :
    commas (text :: texts) = text ++ ',' :: commas texts := by
  cases texts with
  | nil => exact absurd rfl h
  | cons => rfl

lemma commas_eq_append (text : List Char) (texts : List (List Char)) :
    ∃ tail, commas (text :: texts) = text ++ tail := by
  cases texts with
  | nil => exact ⟨[], (List.append_nil text).symm⟩
  | cons => exact ⟨_, rfl⟩

lemma length_le_commas {texts : List (List Char)} (h : ∀ text ∈ texts, text ≠ []) :
    texts.length ≤ (commas texts).length := by
  induction texts with
  | nil => exact Nat.le_refl 0
  | cons text texts ih =>
    have hpos : 0 < text.length := List.length_pos_iff.mpr (h text List.mem_cons_self)
    have hrest := ih (fun t ht => h t (List.mem_cons_of_mem text ht))
    by_cases hnil : texts = []
    · rw [hnil]
      exact hpos
    · rw [commas_cons hnil, List.length_append, List.length_cons, List.length_cons]
      omega

section Containers

variable {α : Type} {close : Char} {item : List Char → Option (α × List Char)}

lemma readItems_commas (text : α → List Char) (rest : List Char) (hclose : close = ']' ∨ close = '\x7d')
    {items : List α} (hne : items ≠ []) (hstart : ∀ a ∈ items, Starts (text a))
    (hread : ∀ a ∈ items, ∀ rest, Ends rest → item (text a ++ rest) = some (a, rest)) {fuel : Nat}
    (hfuel : items.length ≤ fuel) :
    readItems close item fuel (commas (items.map text) ++ close :: rest) = some (items, rest) := by
  induction items generalizing fuel with
  | nil => exact absurd rfl hne
  | cons a items ih =>
    cases fuel with
    | zero => exact absurd hfuel (Nat.not_succ_le_zero _)
    | succ fuel =>
      have hstart' := hstart a List.mem_cons_self
      have hread' := hread a List.mem_cons_self
      by_cases hlast : items = []
      · have hend : Ends (close :: rest) := Or.inr hclose
        have hclose' : skipSpaces (close :: rest) = close :: rest := by
          obtain rfl | rfl := hclose <;> rfl
        have hcomma : close ≠ ',' := by
          obtain rfl | rfl := hclose <;> decide
        rw [hlast, List.map_cons, List.map_nil, commas, readItems, skipSpaces_starts hstart', hread' _ hend]
        simp only [Option.bind_eq_bind, Option.bind_some, hclose', if_neg hcomma, if_true]
        rfl
      · have hmap : items.map text ≠ [] := by rwa [ne_eq, List.map_eq_nil_iff]
        have hcomma : Ends (',' :: (commas (items.map text) ++ close :: rest)) := Or.inl rfl
        have hspace : ∀ s, skipSpaces (',' :: s) = ',' :: s := fun s => rfl
        have hrest := ih hlast (fun b hb => hstart b (List.mem_cons_of_mem a hb))
          (fun b hb => hread b (List.mem_cons_of_mem a hb)) (Nat.le_of_succ_le_succ hfuel)
        rw [List.map_cons, commas_cons hmap, List.append_assoc, List.cons_append, readItems,
          skipSpaces_starts hstart', hread' _ hcomma]
        simp only [Option.bind_eq_bind, Option.bind_some, hspace, if_true, hrest]
        rfl

/-- The items of a container are read back. -/
lemma readContainer_commas (text : α → List Char) (rest : List Char) (hclose : close = ']' ∨ close = '\x7d')
    {items : List α} (hstart : ∀ a ∈ items, Starts (text a))
    (hread : ∀ a ∈ items, ∀ rest, Ends rest → item (text a ++ rest) = some (a, rest)) :
    readContainer close item (commas (items.map text) ++ close :: rest) = some (items, rest) := by
  cases items with
  | nil =>
    have hclose' : skipSpaces (close :: rest) = close :: rest := by
      obtain rfl | rfl := hclose <;> rfl
    rw [List.map_nil, commas, List.nil_append, readContainer, hclose']
    exact if_pos rfl
  | cons a items =>
    obtain ⟨tail, htail⟩ := commas_eq_append (text a) (items.map text)
    have hlen : (a :: items).length ≤ (commas ((a :: items).map text)).length := by
      rw [← List.length_map text]
      apply length_le_commas
      intro t ht
      obtain ⟨b, hb, rfl⟩ := List.mem_map.mp ht
      obtain ⟨c, t, heq, -⟩ := hstart b hb
      rw [heq]
      exact List.cons_ne_nil c t
    have hitems := readItems_commas text rest hclose (List.cons_ne_nil a items) hstart hread
      (Nat.le_succ_of_le (Nat.le_trans hlen (Nat.le_add_right _ (close :: rest).length)))
    obtain ⟨c, t, heq, hspace, hbracket, hbrace⟩ := hstart a List.mem_cons_self
    have hskip : skipSpaces (commas ((a :: items).map text) ++ close :: rest) =
        commas ((a :: items).map text) ++ close :: rest := by
      rw [List.map_cons, htail, List.append_assoc]
      exact skipSpaces_starts (hstart a List.mem_cons_self) _
    have hopen : c ≠ close := by
      obtain rfl | rfl := hclose
      · exact hbracket
      · exact hbrace
    rw [← List.length_append] at hitems
    rw [readContainer, hskip]
    rw [List.map_cons, htail, heq, List.append_assoc, List.cons_append] at hitems ⊢
    simp only [if_neg hopen]
    exact hitems

end Containers

/-! ### Values -/

lemma writeItems_eq (items : List Json) : writeItems items = items.map write := by
  induction items with
  | nil => rfl
  | cons item items ih => rw [writeItems, ih, List.map_cons]

def fieldText (f : String × Json) : List Char := writeText f.1 ++ ':' :: write f.2

lemma writeFields_eq (fields : List (String × Json)) : writeFields fields = fields.map fieldText := by
  induction fields with
  | nil => rfl
  | cons f fields ih => rw [writeFields, ih, List.map_cons, fieldText]

lemma starts_digit {c : Char} {rest : List Char} (h : c.isDigit = true) : Starts (c :: rest) := by
  refine ⟨c, rest, rfl, ?_, ?_, ?_⟩
  · rw [Bool.eq_false_iff]
    intro hspace
    simp only [isSpace, Bool.or_eq_true, beq_iff_eq] at hspace
    obtain ((rfl | rfl) | rfl) | rfl := hspace <;> cases h
  · rintro rfl
    cases h
  · rintro rfl
    cases h

lemma starts_writeInt (n : Int) : Starts (writeInt n) := by
  obtain ⟨c, tail, heq, hc⟩ := Text.toDigits_head n.natAbs
  unfold writeInt
  by_cases hneg : n < 0
  · rw [if_pos hneg]
    exact ⟨'-', _, rfl, rfl, by decide, by decide⟩
  · rw [if_neg hneg, heq]
    exact starts_digit hc

lemma starts_write {depth : Nat} {j : Json} (h : Fits depth j) : Starts (write j) := by
  cases j with
  | null => exact ⟨_, _, rfl, rfl, by decide, by decide⟩
  | bool b => cases b <;> exact ⟨_, _, rfl, rfl, by decide, by decide⟩
  | int n => exact starts_writeInt n
  | real literal => cases depth <;> exact h.elim
  | str s => exact ⟨_, _, rfl, rfl, by decide, by decide⟩
  | arr items => exact ⟨_, _, rfl, rfl, by decide, by decide⟩
  | obj fields => exact ⟨_, _, rfl, rfl, by decide, by decide⟩

lemma readField_fieldText {value : List Char → Option (Json × List Char)} {f : String × Json}
    {rest : List Char} (hstart : Starts (write f.2)) (hread : value (write f.2 ++ rest) = some (f.2, rest)) :
    readField value (fieldText f ++ rest) = some (f, rest) := by
  have hname : fieldText f ++ rest =
      '"' :: (f.1.toList.flatMap escape ++ '"' :: (':' :: (write f.2 ++ rest))) := by
    simp only [fieldText, writeText, List.cons_append, List.append_assoc, List.nil_append]
  have hcolon : ∀ s, skipSpaces (':' :: s) = ':' :: s := fun s => rfl
  rw [hname, readField]
  simp only [readText_escapes, Option.bind_eq_bind, Option.bind_some, hcolon, skipSpaces_starts hstart, hread]
  rfl

lemma readValue_number {depth : Nat} {c : Char} {rest : List Char} (h : c.isDigit = true ∨ c = '-') :
    readValue depth (c :: rest) = readNumber (c :: rest) := by
  rw [readValue.eq_def]
  split
  case h_7 => rfl
  all_goals
    rename_i heq
    cases heq
    obtain h | h := h <;> cases h

lemma readValue_writeInt {depth : Nat} {n : Int} {rest : List Char} (hn : -2 ^ 63 ≤ n ∧ n < 2 ^ 64)
    (hrest : Ends rest) : readValue depth (writeInt n ++ rest) = some (.int n, rest) := by
  have hnumber := readNumber_writeInt hn hrest
  have hhead : ∃ c t, writeInt n = c :: t ∧ (c.isDigit = true ∨ c = '-') := by
    obtain ⟨c, tail, heq, hc⟩ := Text.toDigits_head n.natAbs
    unfold writeInt
    by_cases hneg : n < 0
    · exact ⟨'-', _, if_pos hneg, Or.inr rfl⟩
    · exact ⟨c, tail, by rw [if_neg hneg, heq], Or.inl hc⟩
  obtain ⟨c, t, heq, hc⟩ := hhead
  rw [heq, List.cons_append] at hnumber ⊢
  rw [readValue_number hc, hnumber]

/-- A value inside a text is read back, and the rest of the text is left. -/
theorem readValue_write {depth : Nat} {j : Json} {rest : List Char} (h : Fits depth j) (hrest : Ends rest) :
    readValue depth (write j ++ rest) = some (j, rest) := by
  induction depth using Nat.strongRecOn generalizing j rest with
  | ind depth ih =>
    cases j with
    | null =>
      rw [readValue.eq_def]
      rfl
    | bool b =>
      rw [readValue.eq_def]
      cases b <;> rfl
    | int n => exact readValue_writeInt (by cases depth <;> exact h) hrest
    | real literal => cases depth <;> exact h.elim
    | str s =>
      rw [write, writeText, List.cons_append, List.cons_append, List.append_assoc, readValue.eq_def]
      exact congrArg (Option.map _) (readText_escapes s rest)
    | arr items =>
      cases depth with
      | zero => exact h.elim
      | succ depth =>
        have hitems := readContainer_commas write rest (Or.inl rfl) (fun j hj => starts_write (h j hj))
          (fun j hj rest hrest => ih depth (Nat.lt_succ_self depth) (h j hj) hrest)
        rw [write, writeItems_eq, List.cons_append, List.cons_append, List.append_assoc]
        exact congrArg (Option.map _) hitems
    | obj fields =>
      cases depth with
      | zero => exact h.elim
      | succ depth =>
        have hfields := readContainer_commas fieldText rest (Or.inr rfl)
          (fun f _ => ⟨'"', _, rfl, rfl, by decide, by decide⟩)
          (fun f hf rest hrest =>
            readField_fieldText (starts_write (h f hf)) (ih depth (Nat.lt_succ_self depth) (h f hf) hrest))
        rw [write, writeFields_eq, List.cons_append, List.cons_append, List.append_assoc]
        exact congrArg (Option.map _) hfields

/-- What was written is read back. -/
theorem read_write {j : Json} (h : Fits 127 j) : read (write j) = some j := by
  have hvalue : readValue 127 (write j ++ []) = some (j, []) := readValue_write h trivial
  have hskip := skipSpaces_starts (starts_write h) []
  rw [List.append_nil] at hvalue hskip
  simp only [read, hskip, hvalue, Option.bind_eq_bind, Option.bind_some]
  rfl

/-! ### Bytes -/

/-- The UTF-8 bytes of a text. -/
def toVec (j : Json) : List UInt8 := (write j).flatMap String.utf8EncodeChar

def fromSlice (bytes : List UInt8) : Option Json := bytes.toByteArray.utf8Decode?.bind (fun s => read s.toList)

theorem fromSlice_toVec {j : Json} (h : Fits 127 j) : fromSlice (toVec j) = some j := by
  have hbytes : (toVec j).toByteArray = (write j).utf8Encode := rfl
  rw [fromSlice, hbytes, List.utf8Decode?_utf8Encode, Option.bind_some]
  exact read_write h

theorem toVec_inj {j k : Json} (hj : Fits 127 j) (hk : Fits 127 k) (h : toVec j = toVec k) : j = k := by
  apply Option.some.inj
  rw [← fromSlice_toVec hj, h, fromSlice_toVec hk]

example : read ['[', '\\', ']'] = none := by decide

end Lib.Json
