import Lulan.Engine.WrappingKeys
import Lulan.Proofs.Callbacks

/-!
# The texts of a wrapping key

A wrapping key is 64 hexadecimal digits. The reading keeps to that on every text but two kinds:
those with a plus sign for a first digit, and those with a character where the parser's first
refusal would have come a byte later.
-/

namespace Lulan.Proofs

open Http (Bytes asBytes)
open Wire (addDigit fromStrRadix hexDigit hexPair hexPairs isCharBoundary keyLen slice)
open Wire.WrappingKey (fromEnv fromHex readByte)

section Characters

lemma encode_ascii {c : Char} {b : UInt8} (hb : b.toNat < 128) (h : b ∈ String.utf8EncodeChar c) :
    String.utf8EncodeChar c = [b] := by
  have hbyte : b = UInt8.ofNat b.toNat := UInt8.ofNat_toNat.symm
  rw [hbyte] at h
  have hc := toNat_of_mem_ascii hb h
  rw [String.utf8EncodeChar, if_pos (by omega), hc, ← hbyte]

lemma toNat_byte {n : Nat} (hn : n < 256) : (UInt8.ofNat n).toNat = n := UInt8.toNat_ofNat_of_lt' hn

lemma encode_head (c : Char) : ∃ b rest, String.utf8EncodeChar c = b :: rest ∧ (b.toNat < 128 ∨ 192 ≤ b.toNat) := by
  unfold String.utf8EncodeChar
  by_cases h1 : c.val.toNat ≤ 0x7f
  · rw [if_pos h1]
    refine ⟨_, _, rfl, .inl ?_⟩
    rw [toNat_byte (by omega)]
    omega
  · rw [if_neg h1]
    by_cases h2 : c.val.toNat ≤ 0x7ff
    · rw [if_pos h2]
      refine ⟨_, _, rfl, .inr ?_⟩
      rw [toNat_byte (by omega)]
      omega
    · rw [if_neg h2]
      by_cases h3 : c.val.toNat ≤ 0xffff
      · rw [if_pos h3]
        refine ⟨_, _, rfl, .inr ?_⟩
        rw [toNat_byte (by omega)]
        omega
      · rw [if_neg h3]
        refine ⟨_, _, rfl, .inr ?_⟩
        rw [toNat_byte (by omega)]
        omega

lemma boundary_shift {w text : Bytes} {i : Nat} (hi : i ≠ 0) :
    isCharBoundary (w ++ text) (w.length + i) = isCharBoundary text i := by
  have hget : (w ++ text)[w.length + i]? = text[i]? := by
    rw [List.getElem?_append_right (Nat.le_add_right _ _), Nat.add_sub_cancel_left]
  rw [isCharBoundary, isCharBoundary, if_neg (by omega), if_neg hi, hget, List.length_append]
  simp only [Nat.add_right_inj]

/-- Behind an ASCII character another one begins. -/
lemma boundary_after_ascii {s : List Char} {k : Nat} {b : UInt8} (hb : b.toNat < 128) (h : (utf8 s)[k]? = some b) :
    isCharBoundary (utf8 s) (k + 1) = true := by
  induction s generalizing k with
  | nil => cases h
  | cons c s ih =>
    have hcons : utf8 (c :: s) = String.utf8EncodeChar c ++ utf8 s := List.flatMap_cons
    rw [hcons] at h ⊢
    by_cases hk : k < (String.utf8EncodeChar c).length
    · rw [List.getElem?_append_left hk] at h
      have hone := encode_ascii hb (List.mem_of_getElem? h)
      rw [hone, List.length_singleton] at hk
      have hzero : k = 0 := Nat.lt_one_iff.mp hk
      rw [hone, hzero]
      cases s with
      | nil => rfl
      | cons d s =>
        obtain ⟨b', rest, henc, hfirst⟩ := encode_head d
        have hnext : ([b] ++ utf8 (d :: s))[1]? = some b' := by
          rw [utf8, List.flatMap_cons, henc]
          rfl
        rw [isCharBoundary, if_neg (by decide), hnext]
        exact decide_eq_true hfirst
    · obtain ⟨j, rfl⟩ := Nat.exists_eq_add_of_le (Nat.le_of_not_lt hk)
      rw [List.getElem?_append_right (Nat.le_add_right _ _), Nat.add_sub_cancel_left] at h
      rw [Nat.add_assoc, boundary_shift (Nat.succ_ne_zero j)]
      exact ih h

end Characters

section Pieces

/-- The value of a hexadecimal digit. -/
def hexValue (c : Char) : Option Nat :=
  if '0' ≤ c ∧ c ≤ '9' then some (c.toNat - '0'.toNat)
  else if 'a' ≤ c ∧ c ≤ 'f' then some (c.toNat - 'a'.toNat + 10)
  else if 'A' ≤ c ∧ c ≤ 'F' then some (c.toNat - 'A'.toNat + 10)
  else none

/-- 64 hexadecimal digits and the bytes they denote. -/
structure Denotes (hex : String) (key : Bytes) : Prop where
  digits : hex.length = 64
  bytes : key.length = 32
  each : ∀ i < 32, ∃ high low, hex.toList[i * 2]?.bind hexValue = some high ∧
    hex.toList[i * 2 + 1]?.bind hexValue = some low ∧ key[i]? = some (UInt8.ofNat (16 * high + low))

/-- The piece of two bytes the `i`-th byte of the key is read from. -/
def piece (hex : String) (i : Nat) : Bytes := ((asBytes hex).drop (i * 2)).take 2

/-- The integer parser takes it. -/
def Taken (hex : String) (i : Nat) : Prop := (fromStrRadix (piece hex i)).isSome = true

/-- It is two hexadecimal digits. -/
def Digits (hex : String) (i : Nat) : Prop := ∀ b ∈ piece hex i, (hexDigit b).isSome = true

lemma hexDigit_bounds {b : UInt8} {d : Nat} (h : hexDigit b = some d) :
    d < 16 ∧ b.toNat < 128 ∧ b.toNat ≠ 43 := by
  unfold hexDigit at h
  split at h
  · cases h
    omega
  · split at h
    · cases h
      omega
    · split at h
      · cases h
        omega
      · cases h

lemma addDigit_of {acc d : Nat} {b : UInt8} (h : hexDigit b = some d) (hacc : acc < 16) :
    addDigit acc b = some (16 * acc + d) := by
  have hd := (hexDigit_bounds h).1
  rw [addDigit, h, Option.bind_eq_bind, Option.bind_some, if_pos (by omega)]

lemma addDigit_none {acc : Nat} {b : UInt8} (h : hexDigit b = none) : addDigit acc b = none := by
  rw [addDigit, h]
  rfl

/-- Of two bytes the parser takes a sign and a digit, or two digits. -/
lemma fromStrRadix_pair (a b : UInt8) : fromStrRadix [a, b] = hexPair a b := by
  have hpair : fromStrRadix [a, b] = ((if a = 43 then [b] else [a, b]).foldlM addDigit 0).map UInt8.ofNat := rfl
  rw [hpair, hexPair]
  by_cases ha : a = 43
  · rw [if_pos ha, if_pos ha, List.foldlM_cons]
    cases hb : hexDigit b with
    | none =>
      rw [addDigit_none hb]
      rfl
    | some d =>
      rw [addDigit_of hb (by decide), Nat.mul_zero, Nat.zero_add]
      rfl
  · rw [if_neg ha, if_neg ha, List.foldlM_cons]
    cases hh : hexDigit a with
    | none =>
      rw [addDigit_none hh]
      rfl
    | some high =>
      rw [addDigit_of hh (by decide), Nat.mul_zero, Nat.zero_add, Option.bind_eq_bind, Option.bind_some,
        List.foldlM_cons]
      cases hl : hexDigit b with
      | none =>
        rw [addDigit_none hl]
        rfl
      | some low =>
        rw [addDigit_of hl (hexDigit_bounds hh).1]
        rfl

variable {hex : String} {i : Nat}

lemma piece_eq (hlen : (asBytes hex).length = 64) (hi : i < 32) : ∃ a b, piece hex i = [a, b] ∧
    (asBytes hex)[i * 2]? = some a ∧ (asBytes hex)[i * 2 + 1]? = some b := by
  have ha : i * 2 < (asBytes hex).length := by omega
  have hb : i * 2 + 1 < (asBytes hex).length := by omega
  refine ⟨(asBytes hex)[i * 2], (asBytes hex)[i * 2 + 1], ?_, List.getElem?_eq_getElem ha, List.getElem?_eq_getElem hb⟩
  rw [piece, List.drop_eq_getElem_cons ha, List.drop_eq_getElem_cons hb]
  rfl

/-- What the parser takes is ASCII; both bytes are digits or the first is a sign. -/
lemma taken_iff {a b : UInt8} (h : piece hex i = [a, b]) :
    Taken hex i ↔ (a = 43 ∨ (hexDigit a).isSome = true) ∧ (hexDigit b).isSome = true := by
  rw [Taken, h, fromStrRadix_pair, hexPair]
  by_cases ha : a = 43
  · rw [if_pos ha, Option.isSome_map]
    exact ⟨fun hb => ⟨.inl ha, hb⟩, fun hb => hb.2⟩
  · rw [if_neg ha]
    cases hh : hexDigit a with
    | none => simp [ha]
    | some high =>
      cases hl : hexDigit b with
      | none => simp
      | some low => simp

lemma digits_iff {a b : UInt8} (h : piece hex i = [a, b]) :
    Digits hex i ↔ (hexDigit a).isSome = true ∧ (hexDigit b).isSome = true := by
  rw [Digits, h]
  simp only [List.forall_mem_cons, List.not_mem_nil, false_implies, implies_true, and_true]

lemma taken_of_digits (hlen : (asBytes hex).length = 64) (hi : i < 32) (h : Digits hex i) : Taken hex i := by
  obtain ⟨a, b, hpiece, -, -⟩ := piece_eq hlen hi
  obtain ⟨ha, hb⟩ := (digits_iff hpiece).mp h
  exact (taken_iff hpiece).mpr ⟨.inr ha, hb⟩

/-- Behind the pieces that are taken a character begins. -/
lemma boundary_of_taken (hlen : (asBytes hex).length = 64) (hi : i ≤ 32) (h : ∀ j < i, Taken hex j) :
    isCharBoundary (asBytes hex) (i * 2) = true := by
  cases i with
  | zero => rfl
  | succ j =>
    obtain ⟨a, b, hpiece, -, hb⟩ := piece_eq hlen (Nat.lt_of_succ_le hi)
    obtain ⟨-, hdigit⟩ := (taken_iff hpiece).mp (h j (Nat.lt_succ_self j))
    obtain ⟨d, hd⟩ := Option.isSome_iff_exists.mp hdigit
    have hnext := boundary_after_ascii (s := hex.toList) (hexDigit_bounds hd).2.1 hb
    rw [Nat.succ_mul]
    exact hnext

end Pieces

section Reading

variable {hex : String} {i : Nat}

/-- The number of a piece. -/
def number (hex : String) (i : Nat) : UInt8 := (fromStrRadix (piece hex i)).getD 0

lemma slice_piece {j : Nat} (hj : j = i * 2 + 2) (hfirst : isCharBoundary (asBytes hex) (i * 2) = true)
    (hlast : isCharBoundary (asBytes hex) j = true) : slice (asBytes hex) (i * 2) j = some (piece hex i) := by
  rw [slice, if_pos ⟨by omega, hfirst, hlast⟩, hj, Nat.add_sub_cancel_left, piece]

lemma readByte_taken (key : Bytes) (hlen : (asBytes hex).length = 64) (hi : i < 32) (h : ∀ j < i + 1, Taken hex j) :
    readByte hex key i = .ok (key.set i (number hex i)) := by
  have hfirst := boundary_of_taken hlen hi.le (fun j hj => h j (Nat.lt_succ_of_lt hj))
  have hlast := boundary_of_taken hlen hi h
  obtain ⟨n, hn⟩ := Option.isSome_iff_exists.mp (h i (Nat.lt_succ_self i))
  rw [readByte, slice_piece rfl hfirst (Nat.succ_mul i 2 ▸ hlast)]
  simp only [hn, number, Option.getD_some]

/-- The first piece that is not taken: the parser refuses it, or the slice panics. -/
lemma readByte_stops {key : Bytes} (hlen : (asBytes hex).length = 64) (hi : i < 32) (h : ∀ j < i, Taken hex j)
    (hnot : ¬Taken hex i) : readByte hex key i =
      .error (if isCharBoundary (asBytes hex) (i * 2 + 2) then .error .malformedKey else .panic) := by
  have hfirst := boundary_of_taken hlen hi.le h
  have hnone : fromStrRadix (piece hex i) = none := Option.not_isSome_iff_eq_none.mp hnot
  rw [readByte]
  by_cases hlast : isCharBoundary (asBytes hex) (i * 2 + 2) = true
  · rw [slice_piece rfl hfirst hlast, if_pos hlast]
    simp only [hnone]
  · rw [slice, if_neg (fun hs => hlast hs.2.2), if_neg hlast]

/-- The first pieces, where all are taken, fill the first bytes of the key. -/
lemma foldlM_readByte (hlen : (asBytes hex).length = 64) (n : Nat) (hn : n ≤ 32) (h : ∀ j < n, Taken hex j) :
    (List.range n).foldlM (readByte hex) (List.replicate keyLen 0) =
      .ok ((List.range n).map (number hex) ++ List.replicate (32 - n) 0) := by
  induction n with
  | zero => rfl
  | succ n ih =>
    have hread := readByte_taken ((List.range n).map (number hex) ++ List.replicate (32 - n) 0) hlen hn h
    have hzeros : List.replicate (32 - n) (0 : UInt8) = 0 :: List.replicate (32 - (n + 1)) 0 := by
      rw [← List.replicate_succ]
      congr 1
      omega
    rw [List.range_succ, List.foldlM_append, ih (by omega) (fun j hj => h j (Nat.lt_succ_of_lt hj)), hzeros,
      List.map_append, List.append_assoc]
    rw [hzeros] at hread
    have hset : ((List.range n).map (number hex) ++ 0 :: List.replicate (32 - (n + 1)) 0).set n (number hex n) =
        (List.range n).map (number hex) ++ ([n].map (number hex) ++ List.replicate (32 - (n + 1)) 0) := by
      rw [List.set_append_right _ _ (by rw [List.length_map, List.length_range]), List.length_map, List.length_range,
        Nat.sub_self]
      rfl
    rw [hset] at hread
    simp only [bind, Except.bind, List.foldlM_cons, List.foldlM_nil, hread]
    rfl

lemma fromHex_taken (hlen : (asBytes hex).length = 64) (h : ∀ i < 32, Taken hex i) :
    fromHex hex = .ok ((List.range 32).map (number hex)) := by
  have hloop := foldlM_readByte hlen 32 (Nat.le_refl 32) h
  rw [Nat.sub_self, List.replicate_zero, List.append_nil] at hloop
  rw [fromHex, if_neg (fun hne => hne hlen)]
  exact hloop

lemma fromHex_stops (hlen : (asBytes hex).length = 64) (hi : i < 32) (h : ∀ j < i, Taken hex j)
    (hnot : ¬Taken hex i) : fromHex hex =
      .error (if isCharBoundary (asBytes hex) (i * 2 + 2) then .error .malformedKey else .panic) := by
  have hrange : List.range keyLen = List.range i ++ i :: (List.range keyLen).drop (i + 1) := by
    have hlt : i < (List.range keyLen).length := by
      rw [List.length_range]
      exact hi
    have htake := List.take_append_drop i (List.range keyLen)
    have hmin : min i keyLen = i := Nat.min_eq_left hi.le
    rw [List.take_range, hmin, List.drop_eq_getElem_cons hlt, List.getElem_range] at htake
    exact htake.symm
  rw [fromHex, if_neg (fun hne => hne hlen), hrange, List.foldlM_append, foldlM_readByte hlen i hi.le h]
  simp only [bind, Except.bind, List.foldlM_cons, readByte_stops hlen hi h hnot]

/-- The first piece the parser refuses. -/
lemma first_refused (h : ¬∀ i < 32, Taken hex i) : ∃ i < 32, (∀ j < i, Taken hex j) ∧ ¬Taken hex i := by
  have hexists : ∃ i, i < 32 ∧ ¬Taken hex i := by
    simpa only [not_forall, exists_prop] using h
  classical
  obtain ⟨hi, hnot⟩ := Nat.find_spec hexists
  refine ⟨Nat.find hexists, hi, fun j hj => ?_, hnot⟩
  by_contra hj'
  exact Nat.find_min hexists hj ⟨by omega, hj'⟩

/-- The pieces from a place on: all are taken, or there is no key. -/
lemma hexPairs_drop (hlen : (asBytes hex).length = 64) (k : Nat) (hk : k ≤ 32) :
    ((∀ i, 32 - k ≤ i → i < 32 → Taken hex i) →
      hexPairs ((asBytes hex).drop ((32 - k) * 2)) = some ((List.range' (32 - k) k).map (number hex))) ∧
    (∀ i, 32 - k ≤ i → i < 32 → ¬Taken hex i → hexPairs ((asBytes hex).drop ((32 - k) * 2)) = none) := by
  induction k with
  | zero =>
    rw [List.drop_eq_nil_of_le (by omega)]
    exact ⟨fun _ => rfl, fun i hle hlt => absurd hlt (by omega)⟩
  | succ k ih =>
    obtain ⟨ihall, ihnone⟩ := ih (by omega)
    obtain ⟨a, b, hpiece, ha, hb⟩ := piece_eq hlen (show 32 - (k + 1) < 32 by omega)
    have hnext : (32 - (k + 1)) * 2 + 1 + 1 = (32 - k) * 2 := by omega
    have hdrop : (asBytes hex).drop ((32 - (k + 1)) * 2) = a :: b :: (asBytes hex).drop ((32 - k) * 2) := by
      obtain ⟨hi, hgeta⟩ := List.getElem?_eq_some_iff.mp ha
      obtain ⟨hj, hgetb⟩ := List.getElem?_eq_some_iff.mp hb
      rw [List.drop_eq_getElem_cons hi, hgeta, List.drop_eq_getElem_cons hj, hgetb, hnext]
    have hfirst : fromStrRadix (piece hex (32 - (k + 1))) = hexPair a b := by
      rw [hpiece, fromStrRadix_pair]
    rw [hdrop, hexPairs, ← hfirst]
    constructor
    · intro hall
      obtain ⟨n, hn⟩ := Option.isSome_iff_exists.mp (hall (32 - (k + 1)) (Nat.le_refl _) (by omega))
      have hnumber : number hex (32 - (k + 1)) = n := by
        rw [number, hn, Option.getD_some]
      have hstart : 32 - (k + 1) + 1 = 32 - k := by omega
      rw [hn, ihall (fun i hle hlt => hall i (by omega) hlt), List.range'_succ, List.map_cons, hnumber, hstart]
      rfl
    · intro i hle hlt hnot
      cases hn : fromStrRadix (piece hex (32 - (k + 1))) with
      | none => rfl
      | some n =>
        have hne : i ≠ 32 - (k + 1) := by
          rintro rfl
          exact hnot (Option.isSome_iff_exists.mpr ⟨n, hn⟩)
        rw [ihnone i (by omega) hlt hnot]
        rfl

/-- The signing keys are sealed under the key read here; there a panic is one of the refusals. -/
lemma keyWrapper_fromHex (hex : String) :
    Wire.KeyWrapper.fromHex hex = (fromHex hex).mapError (fun _ => .malformedKey) := by
  by_cases hlen : (asBytes hex).length = 64
  · obtain ⟨hall, hnone⟩ := hexPairs_drop hlen 32 (Nat.le_refl 32)
    have hsize : ¬(asBytes hex).length ≠ keyLen * 2 := fun hne => hne hlen
    rw [Wire.KeyWrapper.fromHex, if_neg hsize]
    by_cases htaken : ∀ i < 32, Taken hex i
    · have hpairs : hexPairs (asBytes hex) = some ((List.range 32).map (number hex)) := by
        rw [List.range_eq_range']
        exact hall (fun i _ hi => htaken i hi)
      rw [hpairs, fromHex_taken hlen htaken]
      rfl
    · obtain ⟨i, hi, hbefore, hnot⟩ := first_refused htaken
      have hpairs : hexPairs (asBytes hex) = none := hnone i (Nat.zero_le i) hi hnot
      rw [hpairs, fromHex_stops hlen hi hbefore hnot]
      rfl
  · have hsize : (asBytes hex).length ≠ keyLen * 2 := hlen
    rw [Wire.KeyWrapper.fromHex, if_pos hsize, fromHex, if_pos hsize]
    rfl

end Reading

section Denoted

variable {hex : String}

/-- A hexadecimal digit is an ASCII character, with the value of its byte. -/
lemma hexValue_eq_some {c : Char} {d : Nat} :
    hexValue c = some d ↔ c.toNat < 128 ∧ hexDigit (UInt8.ofNat c.toNat) = some d := by
  have hle (a b : Char) : a ≤ b ↔ a.toNat ≤ b.toNat := Iff.rfl
  have h0 : '0'.toNat = 48 := rfl
  have h9 : '9'.toNat = 57 := rfl
  have ha : 'a'.toNat = 97 := rfl
  have hf : 'f'.toNat = 102 := rfl
  have hA : 'A'.toNat = 65 := rfl
  have hF : 'F'.toNat = 70 := rfl
  unfold hexValue
  simp only [hle, h0, h9, ha, hf, hA, hF]
  by_cases hc : c.toNat < 128
  · have hbyte : (UInt8.ofNat c.toNat).toNat = c.toNat := toNat_byte (by omega)
    rw [hexDigit, hbyte, and_iff_right hc]
    split
    · rfl
    · split
      · rw [Option.some.injEq, Option.some.injEq]
        omega
      · split
        · rw [Option.some.injEq, Option.some.injEq]
          omega
        · rfl
  · rw [if_neg (by omega), if_neg (by omega), if_neg (by omega)]
    simp [hc]

lemma utf8_ascii {s : List Char} (h : ∀ c ∈ s, c.toNat < 128) : utf8 s = s.map (fun c => UInt8.ofNat c.toNat) := by
  induction s with
  | nil => rfl
  | cons c s ih =>
    have hc := h c List.mem_cons_self
    have henc : String.utf8EncodeChar c = [UInt8.ofNat c.toNat] := by
      rw [String.utf8EncodeChar, if_pos (show c.val.toNat ≤ 0x7f from Nat.le_of_lt_succ hc)]
      rfl
    rw [utf8, List.flatMap_cons, henc, List.map_cons, ← ih (fun d hd => h d (List.mem_cons_of_mem c hd))]
    rfl

/-- Every place of 64 is the first or the second of a piece. -/
lemma place_cases {P : Nat → Prop} (h : ∀ i < 32, P (i * 2) ∧ P (i * 2 + 1)) {k : Nat} (hk : k < 64) : P k := by
  obtain ⟨hfirst, hsecond⟩ := h (k / 2) (by omega)
  rcases Nat.mod_two_eq_zero_or_one k with hmod | hmod
  · have heq : k / 2 * 2 = k := by omega
    exact heq ▸ hfirst
  · have heq : k / 2 * 2 + 1 = k := by omega
    exact heq ▸ hsecond

lemma ascii_of_denotes {key : Bytes} (h : Denotes hex key) {c : Char} (hc : c ∈ hex.toList) : c.toNat < 128 := by
  obtain ⟨k, hk, rfl⟩ := List.mem_iff_getElem.mp hc
  have hlen : hex.toList.length = 64 := by
    rw [String.length_toList]
    exact h.digits
  have hplace : ∃ d, hex.toList[k]?.bind hexValue = some d := by
    apply place_cases (P := fun k => ∃ d, hex.toList[k]?.bind hexValue = some d) _ (hlen ▸ hk)
    intro i hi
    obtain ⟨high, low, hhigh, hlow, -⟩ := h.each i hi
    exact ⟨⟨high, hhigh⟩, ⟨low, hlow⟩⟩
  obtain ⟨d, hd⟩ := hplace
  rw [List.getElem?_eq_getElem hk, Option.bind_some] at hd
  exact (hexValue_eq_some.mp hd).1

lemma ascii_of_digits (hlen : (asBytes hex).length = 64) (h : ∀ i < 32, Digits hex i) {c : Char}
    (hc : c ∈ hex.toList) : c.toNat < 128 := by
  obtain ⟨b, rest, henc, -⟩ := encode_head c
  have hmem : b ∈ String.utf8EncodeChar c := henc ▸ List.mem_cons_self
  have hbyte : b ∈ asBytes hex := List.mem_flatMap.mpr ⟨c, hc, hmem⟩
  obtain ⟨k, hk, hb⟩ := List.mem_iff_getElem.mp hbyte
  have hplace : ∃ d, (asBytes hex)[k]?.bind hexDigit = some d := by
    apply place_cases (P := fun k => ∃ d, (asBytes hex)[k]?.bind hexDigit = some d) _ (hlen ▸ hk)
    intro i hi
    obtain ⟨a, a', hpiece, hfirst, hsecond⟩ := piece_eq hlen hi
    obtain ⟨ha, ha'⟩ := (digits_iff hpiece).mp (h i hi)
    rw [hfirst, hsecond]
    exact ⟨Option.isSome_iff_exists.mp ha, Option.isSome_iff_exists.mp ha'⟩
  obtain ⟨d, hd⟩ := hplace
  rw [List.getElem?_eq_getElem hk, hb, Option.bind_some] at hd
  have hascii := (hexDigit_bounds hd).2.1
  have hval := toNat_of_mem_ascii (c := c) hascii (UInt8.ofNat_toNat.symm ▸ hmem)
  exact Nat.lt_of_le_of_lt (Nat.le_of_eq hval) hascii

lemma number_of_digits {i high low : Nat} {a b : UInt8} (hpiece : piece hex i = [a, b]) (ha : hexDigit a = some high)
    (hb : hexDigit b = some low) : number hex i = UInt8.ofNat (16 * high + low) := by
  have hplus : a ≠ 43 := fun he => (hexDigit_bounds ha).2.2 (he ▸ rfl)
  rw [number, hpiece, fromStrRadix_pair, hexPair, if_neg hplus, ha, hb]
  rfl

/-- What a text denotes, byte by byte. -/
lemma denotes_iff {key : Bytes} : Denotes hex key ↔
    (asBytes hex).length = 64 ∧ (∀ i < 32, Digits hex i) ∧ key = (List.range 32).map (number hex) := by
  have hbytes (hascii : ∀ c ∈ hex.toList, c.toNat < 128) (k : Nat) :
      (asBytes hex)[k]?.bind hexDigit = hex.toList[k]?.bind hexValue := by
    have hmap : asBytes hex = hex.toList.map (fun c => UInt8.ofNat c.toNat) := utf8_ascii hascii
    rw [hmap, List.getElem?_map]
    cases hk : hex.toList[k]? with
    | none => rfl
    | some c =>
      rw [Option.map_some, Option.bind_some, Option.bind_some]
      ext d
      rw [hexValue_eq_some, and_iff_right (hascii c (List.mem_of_getElem? hk))]
  have hlength (hascii : ∀ c ∈ hex.toList, c.toNat < 128) : (asBytes hex).length = hex.length := by
    have hmap : asBytes hex = hex.toList.map (fun c => UInt8.ofNat c.toNat) := utf8_ascii hascii
    rw [hmap, List.length_map, String.length_toList]
  constructor
  · intro h
    have hascii : ∀ c ∈ hex.toList, c.toNat < 128 := fun c hc => ascii_of_denotes h hc
    have hlen : (asBytes hex).length = 64 := (hlength hascii).trans h.digits
    have hpieces : ∀ i < 32, Digits hex i ∧ key[i]? = some (number hex i) := by
      intro i hi
      obtain ⟨high, low, hhigh, hlow, hkey⟩ := h.each i hi
      obtain ⟨a, b, hpiece, ha, hb⟩ := piece_eq hlen hi
      rw [← hbytes hascii, ha, Option.bind_some] at hhigh
      rw [← hbytes hascii, hb, Option.bind_some] at hlow
      rw [hkey, number_of_digits hpiece hhigh hlow, digits_iff hpiece, hhigh, hlow]
      exact ⟨⟨rfl, rfl⟩, rfl⟩
    refine ⟨hlen, fun i hi => (hpieces i hi).1, ?_⟩
    apply List.ext_getElem?
    intro i
    by_cases hi : i < 32
    · rw [(hpieces i hi).2, List.getElem?_map, List.getElem?_range hi, Option.map_some]
    · rw [List.getElem?_eq_none (by rw [h.bytes]; omega),
        List.getElem?_eq_none (by rw [List.length_map, List.length_range]; omega)]
  · rintro ⟨hlen, hdigits, rfl⟩
    have hascii : ∀ c ∈ hex.toList, c.toNat < 128 := fun c hc => ascii_of_digits hlen hdigits hc
    refine ⟨(hlength hascii).symm.trans hlen, by rw [List.length_map, List.length_range], fun i hi => ?_⟩
    obtain ⟨a, b, hpiece, ha, hb⟩ := piece_eq hlen hi
    obtain ⟨hdigit, hdigit'⟩ := (digits_iff hpiece).mp (hdigits i hi)
    obtain ⟨high, hhigh⟩ := Option.isSome_iff_exists.mp hdigit
    obtain ⟨low, hlow⟩ := Option.isSome_iff_exists.mp hdigit'
    refine ⟨high, low, ?_, ?_, ?_⟩
    · rw [← hbytes hascii, ha, Option.bind_some, hhigh]
    · rw [← hbytes hascii, hb, Option.bind_some, hlow]
    · rw [List.getElem?_map, List.getElem?_range hi, Option.map_some, number_of_digits hpiece hhigh hlow]

end Denoted

/-- The reading of a key: exactly 64 hexadecimal digits are accepted, as the bytes they denote,
and every other text is refused. -/
structure KeyReads (hex : String) : Prop where
  accepts : ∀ key, fromHex hex = .ok key ↔ Denotes hex key
  refuses : (∀ key, ¬Denotes hex key) → fromHex hex = .error (.error .malformedKey)

/-- The reading of the environment, where something is configured. -/
structure KeyReadsEnv (value : String) : Prop where
  accepts : ∀ key, fromEnv (some value) = .ok (some key) ↔ Denotes (trim value) key
  refuses : (trim value).isEmpty = false → (∀ key, ¬Denotes (trim value) key) →
    fromEnv (some value) = .error (.error .malformedKey)

/-- No piece starts with a plus sign, or the parser refuses one at the end of a character before
it meets any other. -/
def PlainKey (hex : String) : Prop := (asBytes hex).length = 64 →
  (∀ i < 32, Digits hex i) ∨
    ∃ i < 32, (∀ j < i, Taken hex j) ∧ ¬Taken hex i ∧ isCharBoundary (asBytes hex) (i * 2 + 2) = true

section Main

variable {hex : String}

lemma reads_of_length (hlen : (asBytes hex).length ≠ 64) : KeyReads hex := by
  have hmalformed : fromHex hex = .error (.error .malformedKey) := by
    rw [fromHex]
    exact if_pos hlen
  refine ⟨fun key => ⟨fun h => ?_, fun h => absurd (denotes_iff.mp h).1 hlen⟩, fun _ => hmalformed⟩
  rw [hmalformed] at h
  cases h

/-- Where the parser takes every piece, the reading is right for digits alone. -/
lemma reads_taken (hlen : (asBytes hex).length = 64) (h : ∀ i < 32, Taken hex i) :
    KeyReads hex ↔ ∀ i < 32, Digits hex i := by
  have hok := fromHex_taken hlen h
  constructor
  · intro hreads
    exact (denotes_iff.mp ((hreads.accepts _).mp hok)).2.1
  · intro hdigits
    have hdenotes : Denotes hex ((List.range 32).map (number hex)) := denotes_iff.mpr ⟨hlen, hdigits, rfl⟩
    refine ⟨fun key => ?_, fun hnone => absurd hdenotes (hnone _)⟩
    rw [hok, Except.ok.injEq, denotes_iff]
    exact ⟨fun he => ⟨hlen, hdigits, he.symm⟩, fun he => he.2.2.symm⟩

/-- Where the parser refuses a piece first, the reading is right if that piece ends a character. -/
lemma reads_stops {i : Nat} (hlen : (asBytes hex).length = 64) (hi : i < 32) (h : ∀ j < i, Taken hex j)
    (hnot : ¬Taken hex i) : KeyReads hex ↔ isCharBoundary (asBytes hex) (i * 2 + 2) = true := by
  have hstops := fromHex_stops hlen hi h hnot
  have hnone : ∀ key, ¬Denotes hex key :=
    fun key hkey => hnot (taken_of_digits hlen hi ((denotes_iff.mp hkey).2.1 i hi))
  constructor
  · intro hreads
    by_contra hcut
    rw [if_neg hcut] at hstops
    have hrefused := hreads.refuses hnone
    rw [hstops] at hrefused
    cases hrefused
  · intro hlast
    rw [if_pos hlast] at hstops
    refine ⟨fun key => ⟨fun hok => ?_, fun hkey => absurd hkey (hnone key)⟩, fun _ => hstops⟩
    rw [hstops] at hok
    cases hok

lemma reads_iff (hex : String) : KeyReads hex ↔ PlainKey hex := by
  by_cases hlen : (asBytes hex).length = 64
  · by_cases hall : ∀ i < 32, Taken hex i
    · rw [reads_taken hlen hall, PlainKey, forall_prop_of_true hlen]
      refine ⟨.inl, fun h => h.elim id ?_⟩
      rintro ⟨i, hi, -, hnot, -⟩
      exact absurd (hall i hi) hnot
    · obtain ⟨i, hi, htaken, hnot⟩ := first_refused hall
      rw [reads_stops hlen hi htaken hnot, PlainKey, forall_prop_of_true hlen]
      constructor
      · intro hlast
        exact .inr ⟨i, hi, htaken, hnot, hlast⟩
      · rintro (hdigits | ⟨j, hj, htaken', hnot', hlast⟩)
        · exact absurd (taken_of_digits hlen hi (hdigits i hi)) hnot
        · rcases Nat.lt_trichotomy i j with hij | rfl | hij
          · exact absurd (htaken' i hij) hnot
          · exact hlast
          · exact absurd (htaken j hij) hnot'
  · exact ⟨fun _ h => absurd h hlen, fun _ => reads_of_length hlen⟩

lemma readsEnv_iff (value : String) : KeyReadsEnv value ↔ KeyReads (trim value) := by
  by_cases hempty : (trim value).isEmpty = true
  · have hlen : (asBytes (trim value)).length ≠ 64 := by
      rw [String.isEmpty_iff.mp hempty]
      decide
    have hnone : fromEnv (some value) = .ok none := by
      rw [fromEnv, if_pos hempty]
    refine ⟨fun _ => reads_of_length hlen, fun _ => ⟨fun key => ⟨fun h => ?_, fun h => ?_⟩, fun hfull => ?_⟩⟩
    · rw [hnone] at h
      cases h
    · exact absurd (denotes_iff.mp h).1 hlen
    · rw [hempty] at hfull
      cases hfull
  · have henv : fromEnv (some value) = (fromHex (trim value)).map some := by
      rw [fromEnv, if_neg hempty]
    have hok (key : Bytes) : fromEnv (some value) = .ok (some key) ↔ fromHex (trim value) = .ok key := by
      rw [henv]
      cases fromHex (trim value) <;> simp [Except.map]
    have herror (e : Wire.Abort) : fromEnv (some value) = .error e ↔ fromHex (trim value) = .error e := by
      rw [henv]
      cases fromHex (trim value) <;> simp [Except.map]
    constructor
    · intro h
      exact ⟨fun key => (hok key).symm.trans (h.accepts key),
        fun hnone => (herror _).mp (h.refuses (Bool.eq_false_of_not_eq_true hempty) hnone)⟩
    · intro h
      exact ⟨fun key => (hok key).trans (h.accepts key), fun _ hnone => (herror _).mpr (h.refuses hnone)⟩

lemma keyWrapper_fromEnv (value : String) :
    Wire.KeyWrapper.fromEnv (some value) = (fromEnv (some value)).mapError (fun _ => .malformedKey) := by
  rw [Wire.KeyWrapper.fromEnv, fromEnv]
  by_cases hempty : (trim value).isEmpty = true
  · rw [if_pos hempty, if_pos hempty]
    rfl
  · rw [if_neg hempty, if_neg hempty, keyWrapper_fromHex]
    cases fromHex (trim value) <;> rfl

end Main

/-- A wrapping key is read right exactly from the plain texts, and the signing keys are sealed
under what is read here. -/
theorem wrapping_key_read_iff (text : String) :
    (KeyReads text ↔ PlainKey text) ∧ (KeyReadsEnv text ↔ PlainKey (trim text)) ∧
      Wire.KeyWrapper.fromEnv (some text) = (fromEnv (some text)).mapError (fun _ => .malformedKey) :=
  ⟨reads_iff text, (readsEnv_iff text).trans (reads_iff (trim text)), keyWrapper_fromEnv text⟩

lemma not_reads_of_panic {hex : String} (h : fromHex hex = .error .panic) : ¬KeyReads hex := by
  intro hreads
  have hnone : ∀ key, ¬Denotes hex key := by
    intro key hkey
    have hok := (hreads.accepts key).mpr hkey
    rw [h] at hok
    cases hok
  have hrefused := hreads.refuses hnone
  rw [h] at hrefused
  cases hrefused

/-- A plus sign for the first digit of each byte is accepted, and a character across two pieces
stops the process. -/
theorem signed_key_accepted : ¬KeyReads (String.ofList (List.replicate 32 ['+', 'a']).flatten) ∧
    ¬KeyReads (String.ofList ('a' :: List.replicate 21 '€')) := by
  constructor
  · intro h
    have hok : fromHex (String.ofList (List.replicate 32 ['+', 'a']).flatten) = .ok (List.replicate 32 10) := by
      decide
    obtain ⟨high, low, hhigh, -⟩ := ((h.accepts _).mp hok).each 0 (by decide)
    have hplus : (String.ofList (List.replicate 32 ['+', 'a']).flatten).toList[0]?.bind hexValue = none := by
      decide
    rw [Nat.zero_mul, hplus] at hhigh
    cases hhigh
  · exact not_reads_of_panic (by decide)

end Lulan.Proofs
