import Mathlib.Data.List.Basic

/-!
# Base64 for URLs, without padding

Three bytes are four digits; a last group of one or two bytes is two or three digits whose unused
bits are zero. Reading is strict about the alphabet, the length and those bits.
-/

namespace Lib.Base64

def digit (n : Nat) : Char :=
  if n < 26 then Char.ofNat (n + 65)
  else if n < 52 then Char.ofNat (n - 26 + 97)
  else if n < 62 then Char.ofNat (n - 52 + 48)
  else if n = 62 then '-'
  else '_'

def value (c : Char) : Option Nat :=
  if 'A' ≤ c ∧ c ≤ 'Z' then some (c.toNat - 65)
  else if 'a' ≤ c ∧ c ≤ 'z' then some (c.toNat - 97 + 26)
  else if '0' ≤ c ∧ c ≤ '9' then some (c.toNat - 48 + 52)
  else if c = '-' then some 62
  else if c = '_' then some 63
  else none

def encode : List UInt8 → List Char
  | [] => []
  | [b₁] => [digit (b₁.toNat / 4), digit (b₁.toNat % 4 * 16)]
  | [b₁, b₂] => [digit (b₁.toNat / 4), digit (b₁.toNat % 4 * 16 + b₂.toNat / 16), digit (b₂.toNat % 16 * 4)]
  | b₁ :: b₂ :: b₃ :: rest =>
    digit (b₁.toNat / 4) :: digit (b₁.toNat % 4 * 16 + b₂.toNat / 16) ::
      digit (b₂.toNat % 16 * 4 + b₃.toNat / 64) :: digit (b₃.toNat % 64) :: encode rest

def decode : List Char → Option (List UInt8)
  | [] => some []
  | [_] => none
  | [c₁, c₂] => do
    let v₁ ← value c₁
    let v₂ ← value c₂
    if v₂ % 16 = 0 then some [UInt8.ofNat (v₁ * 4 + v₂ / 16)] else none
  | [c₁, c₂, c₃] => do
    let v₁ ← value c₁
    let v₂ ← value c₂
    let v₃ ← value c₃
    if v₃ % 4 = 0 then some [UInt8.ofNat (v₁ * 4 + v₂ / 16), UInt8.ofNat (v₂ % 16 * 16 + v₃ / 4)] else none
  | c₁ :: c₂ :: c₃ :: c₄ :: rest => do
    let v₁ ← value c₁
    let v₂ ← value c₂
    let v₃ ← value c₃
    let v₄ ← value c₄
    let bytes ← decode rest
    some (UInt8.ofNat (v₁ * 4 + v₂ / 16) :: UInt8.ofNat (v₂ % 16 * 16 + v₃ / 4) ::
      UInt8.ofNat (v₃ % 4 * 64 + v₄) :: bytes)

lemma value_digit : ∀ n < 64, value (digit n) = some n := by decide

lemma ofNat_toNat {b : UInt8} {n : Nat} (h : n = b.toNat) : UInt8.ofNat n = b := by
  rw [h, UInt8.ofNat_toNat]

theorem decode_encode (bytes : List UInt8) : decode (encode bytes) = some bytes := by
  fun_induction encode bytes with
  | case1 => rfl
  | case2 b₁ =>
    have h₁ := b₁.toNat_lt
    simp only [decode, value_digit _ (show b₁.toNat / 4 < 64 by omega),
      value_digit _ (show b₁.toNat % 4 * 16 < 64 by omega), Option.bind_eq_bind, Option.bind_some]
    rw [if_pos (by omega), ofNat_toNat (b := b₁) (by omega)]
  | case3 b₁ b₂ =>
    have h₁ := b₁.toNat_lt
    have h₂ := b₂.toNat_lt
    simp only [decode, value_digit _ (show b₁.toNat / 4 < 64 by omega),
      value_digit _ (show b₁.toNat % 4 * 16 + b₂.toNat / 16 < 64 by omega),
      value_digit _ (show b₂.toNat % 16 * 4 < 64 by omega), Option.bind_eq_bind, Option.bind_some]
    rw [if_pos (by omega), ofNat_toNat (b := b₁) (by omega), ofNat_toNat (b := b₂) (by omega)]
  | case4 b₁ b₂ b₃ rest ih =>
    have h₁ := b₁.toNat_lt
    have h₂ := b₂.toNat_lt
    have h₃ := b₃.toNat_lt
    simp only [decode, value_digit _ (show b₁.toNat / 4 < 64 by omega),
      value_digit _ (show b₁.toNat % 4 * 16 + b₂.toNat / 16 < 64 by omega),
      value_digit _ (show b₂.toNat % 16 * 4 + b₃.toNat / 64 < 64 by omega),
      value_digit _ (show b₃.toNat % 64 < 64 by omega), ih, Option.bind_eq_bind, Option.bind_some]
    rw [ofNat_toNat (b := b₁) (by omega), ofNat_toNat (b := b₂) (by omega), ofNat_toNat (b := b₃) (by omega)]

/-- A text that can be read consists of digits. -/
theorem isSome_of_decode {s : List Char} {bytes : List UInt8} (h : decode s = some bytes) :
    ∀ c ∈ s, (value c).isSome := by
  fun_induction decode s generalizing bytes with
  | case1 => exact fun c hc => absurd hc List.not_mem_nil
  | case2 => cases h
  | case3 c₁ c₂ =>
    simp only [Option.bind_eq_bind, Option.bind_eq_some_iff] at h
    obtain ⟨v₁, h₁, v₂, h₂, -⟩ := h
    simp only [List.forall_mem_cons, h₁, h₂, Option.isSome_some, List.not_mem_nil, false_imp_iff, implies_true,
      and_self]
  | case4 c₁ c₂ c₃ =>
    simp only [Option.bind_eq_bind, Option.bind_eq_some_iff] at h
    obtain ⟨v₁, h₁, v₂, h₂, v₃, h₃, -⟩ := h
    simp only [List.forall_mem_cons, h₁, h₂, h₃, Option.isSome_some, List.not_mem_nil, false_imp_iff, implies_true,
      and_self]
  | case5 c₁ c₂ c₃ c₄ rest ih =>
    simp only [Option.bind_eq_bind, Option.bind_eq_some_iff] at h
    obtain ⟨v₁, h₁, v₂, h₂, v₃, h₃, v₄, h₄, others, hrest, -⟩ := h
    simp only [List.forall_mem_cons, h₁, h₂, h₃, h₄, Option.isSome_some, true_and]
    exact ih hrest

/-- Digits are ASCII characters. -/
lemma toNat_of_isSome {c : Char} (h : (value c).isSome) : c.toNat < 128 := by
  have hle : ∀ d : Char, c ≤ d → c.toNat ≤ d.toNat := fun d hd => UInt32.le_iff_toNat_le.mp hd
  rw [value] at h
  split_ifs at h with hupper hlower hnumeral hhyphen hunderscore
  · exact Nat.lt_of_le_of_lt (hle 'Z' hupper.2) (by decide)
  · exact Nat.lt_of_le_of_lt (hle 'z' hlower.2) (by decide)
  · exact Nat.lt_of_le_of_lt (hle '9' hnumeral.2) (by decide)
  · rw [hhyphen]
    decide
  · rw [hunderscore]
    decide
  · cases h

example : decode (encode [0, 255, 16]) = some [0, 255, 16] := by decide

end Lib.Base64
