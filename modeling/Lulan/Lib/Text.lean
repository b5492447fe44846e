import Mathlib.Data.List.Basic

/-!
# Text

Splitting and substitution over sequences, as parsers of small grammars use them.
-/

namespace Lib.Text

variable {α : Type} [DecidableEq α]

/-- The parts before and after the first `c`. -/
def splitOnce (c : α) : List α → Option (List α × List α)
  | [] => none
  | x :: rest => if x = c then some ([], rest) else (splitOnce c rest).map (fun p => (x :: p.1, p.2))

lemma splitOnce_append {c : α} {a b : List α} (ha : c ∉ a) : splitOnce c (a ++ c :: b) = some (a, b) := by
  induction a with
  | nil => simp [splitOnce]
  | cons x a ih =>
    obtain ⟨hx, ha⟩ := not_or.mp (fun h => ha (List.mem_cons.mpr h))
    rw [List.cons_append, splitOnce, if_neg (Ne.symm hx), ih ha]
    rfl

theorem splitOnce_eq_some {c : α} {s a b : List α} :
    splitOnce c s = some (a, b) ↔ s = a ++ c :: b ∧ c ∉ a := by
  constructor
  · intro h
    induction s generalizing a with
    | nil => cases h
    | cons x s ih =>
      rw [splitOnce] at h
      by_cases hx : x = c
      · rw [if_pos hx] at h
        cases h
        exact ⟨by rw [hx]; rfl, List.not_mem_nil⟩
      · rw [if_neg hx] at h
        obtain ⟨⟨a', b'⟩, h', heq⟩ := Option.map_eq_some_iff.mp h
        cases heq
        obtain ⟨hs, ha⟩ := ih h'
        exact ⟨by rw [hs]; rfl, by simp [ha, Ne.symm hx]⟩
  · rintro ⟨rfl, ha⟩
    exact splitOnce_append ha

/-- The number a non-empty run of decimal digits stands for. -/
def digits (s : List Char) : Option Nat :=
  if s.isEmpty || s.any (fun c => !c.isDigit) then none else some (Nat.ofDigitChars 10 s 0)

/-- `str::parse` for unsigned integers, the range aside: an optional plus sign and digits. -/
def parseUnsigned : List Char → Option Nat
  | '+' :: s => digits s
  | s => digits s

/-- `str::parse` for signed integers, the range aside. -/
def parseSigned : List Char → Option Int
  | '-' :: s => (digits s).map (fun n => -(n : Int))
  | s => (parseUnsigned s).map (fun n => (n : Int))

lemma digits_toDigits (n : Nat) : digits (Nat.toDigits 10 n) = some n := by
  have hall : (Nat.toDigits 10 n).any (fun c => !c.isDigit) = false := by
    rw [List.any_eq_false]
    intro c hc
    simp [Nat.isDigit_of_mem_toDigits (by decide) (by decide) hc]
  have hne : (Nat.toDigits 10 n).isEmpty = false := by
    rw [List.isEmpty_eq_false_iff]
    exact Nat.toDigits_ne_nil
  rw [digits, hne, hall, Nat.ofDigitChars_ten_toDigits]
  rfl

lemma digits_eq_none {s : List Char} {c : Char} (hc : c ∈ s) (hd : c.isDigit = false) : digits s = none := by
  have hany : s.any (fun c => !c.isDigit) = true := List.any_eq_true.mpr ⟨c, hc, by rw [hd]; rfl⟩
  rw [digits, hany, Bool.or_true]
  rfl

lemma toDigits_head (n : Nat) : ∃ c rest, Nat.toDigits 10 n = c :: rest ∧ c.isDigit = true := by
  cases h : Nat.toDigits 10 n with
  | nil => exact absurd h Nat.toDigits_ne_nil
  | cons c rest =>
    have hc : c ∈ Nat.toDigits 10 n := by rw [h]; exact List.mem_cons_self
    exact ⟨c, rest, rfl, Nat.isDigit_of_mem_toDigits (by decide) (by decide) hc⟩

lemma parseUnsigned_toDigits (n : Nat) : parseUnsigned (Nat.toDigits 10 n) = some n := by
  obtain ⟨c, rest, heq, hc⟩ := toDigits_head n
  rw [heq, parseUnsigned, ← heq, digits_toDigits]
  rintro s ⟨rfl, -⟩
  cases hc

lemma parseSigned_toDigits (n : Nat) : parseSigned (Nat.toDigits 10 n) = some (n : Int) := by
  obtain ⟨c, rest, heq, hc⟩ := toDigits_head n
  rw [heq, parseSigned, ← heq, parseUnsigned_toDigits]
  · rfl
  · rintro s ⟨rfl, -⟩
    cases hc

/-- Every occurrence of `pat`, found from the left without overlap, becomes `new`; `skip`
counts the elements of the occurrence being passed over. -/
def splice (pat new : List α) : Nat → List α → List α
  | _, [] => []
  | skip + 1, _ :: rest => splice pat new skip rest
  | 0, x :: rest =>
    if pat <+: x :: rest then new ++ splice pat new (pat.length - 1) rest
    else x :: splice pat new 0 rest

/-- `str::replace`. -/
def replace (pat new s : List α) : List α := splice pat new 0 s

section Replace

variable {pat new rest w : List α} {x : α}

lemma splice_append (l : List α) : splice pat new l.length (l ++ rest) = replace pat new rest := by
  induction l with
  | nil => rfl
  | cons y l ih => exact ih

lemma replace_append (hpat : pat ≠ []) : replace pat new (pat ++ rest) = new ++ replace pat new rest := by
  cases pat with
  | nil => exact absurd rfl hpat
  | cons y pat =>
    have hp : y :: pat <+: y :: (pat ++ rest) := List.prefix_append (y :: pat) rest
    rw [replace, List.cons_append, splice, if_pos hp, List.length_cons, Nat.add_sub_cancel, splice_append]

lemma replace_cons (h : ¬pat <+: x :: rest) : replace pat new (x :: rest) = x :: replace pat new rest := by
  rw [replace, splice, if_neg h]
  rfl

/-- A text without the first element of the pattern is passed over as it is. -/
lemma replace_skip {y : α} (hpat : pat.head? = some y) (hw : y ∉ w) :
    replace pat new (w ++ rest) = w ++ replace pat new rest := by
  induction w with
  | nil => rfl
  | cons x w ih =>
    obtain ⟨hy, hw⟩ := not_or.mp (fun hm => hw (List.mem_cons.mpr hm))
    have hp : ¬pat <+: x :: (w ++ rest) := by
      rintro ⟨t, ht⟩
      have hhead := congrArg List.head? ht
      rw [List.head?_append_of_ne_nil _ (by rintro rfl; cases hpat), hpat] at hhead
      exact hy (Option.some.inj hhead)
    rw [List.cons_append, replace_cons hp, ih hw, List.cons_append]

/-- A text that does not meet the replacement is found in the result only where it was before. -/
lemma occurs_of_replace (hpat : pat ≠ []) {y : α} (hnew : new.head? = some y) (hw : y ∉ w)
    {s : List α} (h : w <+: replace pat new s) : w <+: s := by
  induction w generalizing s with
  | nil => exact List.nil_prefix
  | cons c w ih =>
    obtain ⟨hy, hw⟩ := not_or.mp (fun hm => hw (List.mem_cons.mpr hm))
    cases s with
    | nil => exact h
    | cons x s =>
      by_cases hp : pat <+: x :: s
      · obtain ⟨t, ht⟩ := hp
        rw [← ht, replace_append hpat] at h
        obtain ⟨z, zs, rfl⟩ : ∃ z zs, new = z :: zs := by
          cases new with
          | nil => cases hnew
          | cons z zs => exact ⟨z, zs, rfl⟩
        cases hnew
        exact absurd (List.cons_prefix_cons.mp h).1.symm hy
      · rw [replace_cons hp] at h
        obtain ⟨rfl, htail⟩ := List.cons_prefix_cons.mp h
        exact List.cons_prefix_cons.mpr ⟨rfl, ih hw htail⟩

omit [DecidableEq α] in
/-- A text is not found where its first element is missing. -/
lemma infix_of_append {y : α} (hy : y ∉ w) (h : y :: rest <:+: w ++ new) : y :: rest <:+: new := by
  induction w with
  | nil => exact h
  | cons x w ih =>
    obtain ⟨hne, hw⟩ := not_or.mp (fun hm => hy (List.mem_cons.mpr hm))
    rcases List.infix_cons_iff.mp h with hp | hi
    · exact absurd (List.cons_prefix_cons.mp hp).1 hne
    · exact ih hw hi

/-- What is nowhere to be found is not replaced. -/
lemma replace_of_not_infix {s : List α} (h : ¬pat <:+: s) : replace pat new s = s := by
  induction s with
  | nil => rfl
  | cons x s ih =>
    rw [replace_cons (fun hp => h hp.isInfix), ih (fun hi => h (hi.trans (List.suffix_cons x s).isInfix))]

/-- A text that does not meet the replacement is found in the result only where it was before. -/
lemma infix_of_replace (hpat : pat ≠ []) {y z : α} (hnew : new.head? = some z) (hz : z ∉ y :: w) (hy : y ∉ new)
    {s : List α} (h : y :: w <:+: replace pat new s) : y :: w <:+: s := by
  induction hn : s.length using Nat.strongRecOn generalizing s with
  | _ n ih =>
    cases s with
    | nil => exact h
    | cons x s =>
      by_cases hp : pat <+: x :: s
      · obtain ⟨t, ht⟩ := hp
        rw [← ht, replace_append hpat] at h
        have hless : t.length < n := by
          have hlen := congrArg List.length ht
          have hpos := List.length_pos_of_ne_nil hpat
          rw [List.length_append] at hlen
          omega
        rw [← ht]
        exact (ih _ hless (infix_of_append hy h) rfl).trans (List.suffix_append pat t).isInfix
      · rcases List.infix_cons_iff.mp (replace_cons hp ▸ h) with hpre | hi
        · rw [← replace_cons hp] at hpre
          exact (occurs_of_replace hpat hnew hz hpre).isInfix
        · have hless : s.length < n := by
            rw [← hn]
            exact Nat.lt_succ_self _
          exact (ih _ hless hi rfl).trans (List.suffix_cons x s).isInfix

end Replace

/-- Placeholders replaced one after the other. -/
def fill (steps : List (List α × List α)) (s : List α) : List α :=
  steps.foldl (fun s p => replace p.1 p.2 s) s

/-- Placeholders that all start with `b`, have it nowhere else and are not prefixes of each
other, and texts for them that neither contain `b` nor start like the rest of one. -/
structure Marks (b : α) (steps : List (List α × List α)) : Prop where
  mark : ∀ p ∈ steps, ∃ w, p.1 = b :: w ∧ b ∉ w
  text : ∀ p ∈ steps, b ∉ p.2 ∧ ∃ y, p.2.head? = some y ∧ ∀ q ∈ steps, y ∉ q.1
  apart : steps.Pairwise (fun p q => ¬p.1 <+: q.1 ∧ ¬q.1 <+: p.1)

section Fill

variable {b : α} {steps : List (List α × List α)}

omit [DecidableEq α] in
lemma Marks.tail {p : List α × List α} (h : Marks b (p :: steps)) : Marks b steps where
  mark q hq := h.mark q (by simp [hq])
  text q hq := by
    obtain ⟨hb, y, hy, hall⟩ := h.text q (by simp [hq])
    exact ⟨hb, y, hy, fun r hr => hall r (by simp [hr])⟩
  apart := (List.pairwise_cons.mp h.apart).2

lemma fill_nil (steps : List (List α × List α)) : fill steps [] = [] := by
  induction steps with
  | nil => rfl
  | cons p steps ih => exact ih

lemma fill_append (steps₁ steps₂ : List (List α × List α)) (s : List α) :
    fill (steps₁ ++ steps₂) s = fill steps₂ (fill steps₁ s) := List.foldl_append

/-- Placeholders that are nowhere to be found are not replaced. -/
lemma fill_of_not_infix {s : List α} (h : ∀ p ∈ steps, ¬p.1 <:+: s) : fill steps s = s := by
  induction steps with
  | nil => rfl
  | cons p steps ih =>
    have hfirst : replace p.1 p.2 s = s := replace_of_not_infix (h p (by simp))
    rw [fill, List.foldl_cons, hfirst]
    exact ih (fun q hq => h q (by simp [hq]))

lemma fill_skip (h : Marks b steps) {w : List α} (hw : b ∉ w) (s : List α) :
    fill steps (w ++ s) = w ++ fill steps s := by
  induction steps generalizing s with
  | nil => rfl
  | cons p steps ih =>
    obtain ⟨v, hv, -⟩ := h.mark p (by simp)
    have hskip : replace p.1 p.2 (w ++ s) = w ++ replace p.1 p.2 s := replace_skip (by rw [hv]; rfl) hw
    simp only [fill, List.foldl_cons] at ih ⊢
    rw [hskip, ih h.tail]

/-- Where no placeholder starts, nothing happens. -/
lemma fill_cons (h : Marks b steps) {x : α} {s : List α} (hnone : ∀ p ∈ steps, ¬p.1 <+: x :: s) :
    fill steps (x :: s) = x :: fill steps s := by
  induction steps generalizing s with
  | nil => rfl
  | cons p steps ih =>
    have hcons : replace p.1 p.2 (x :: s) = x :: replace p.1 p.2 s := replace_cons (hnone p (by simp))
    obtain ⟨v, hv, -⟩ := h.mark p (by simp)
    obtain ⟨-, y, hy, hall⟩ := h.text p (by simp)
    have hrest : ∀ q ∈ steps, ¬q.1 <+: x :: replace p.1 p.2 s := by
      intro q hq hpre
      rw [← hcons] at hpre
      have hne : p.1 ≠ [] := by rw [hv]; exact List.cons_ne_nil b v
      exact hnone q (by simp [hq]) (occurs_of_replace hne hy (hall q (by simp [hq])) hpre)
    simp only [fill, List.foldl_cons] at ih ⊢
    rw [hcons, ih h.tail hrest]

/-- A placeholder becomes its text. -/
lemma fill_mark (h : Marks b steps) {p : List α × List α} (hp : p ∈ steps) (s : List α) :
    fill steps (p.1 ++ s) = p.2 ++ fill steps s := by
  induction steps generalizing s with
  | nil => cases hp
  | cons q steps ih =>
    obtain ⟨v, hv, hbv⟩ := h.mark p hp
    obtain ⟨u, hu, -⟩ := h.mark q (by simp)
    rcases List.mem_cons.mp hp with rfl | hp
    · have hfirst : replace p.1 p.2 (p.1 ++ s) = p.2 ++ replace p.1 p.2 s :=
        replace_append (by rw [hv]; exact List.cons_ne_nil b v)
      have hskip := fill_skip h.tail (h.text p (by simp)).1 (replace p.1 p.2 s)
      simp only [fill, List.foldl_cons] at hskip ⊢
      rw [hfirst, hskip]
    · have hapart := (List.pairwise_cons.mp h.apart).1 p hp
      have hnot : ¬q.1 <+: p.1 ++ s := fun hpre =>
        (List.prefix_or_prefix_of_prefix hpre (List.prefix_append p.1 s)).elim hapart.1 hapart.2
      have hpass : replace q.1 q.2 (p.1 ++ s) = p.1 ++ replace q.1 q.2 s := by
        rw [hv, List.cons_append] at hnot ⊢
        rw [replace_cons hnot, replace_skip (by rw [hu]; rfl) hbv]
        rfl
      simp only [fill, List.foldl_cons] at ih ⊢
      rw [hpass, ih h.tail hp]

/-- A placeholder that is not replaced is found only where it was before. -/
lemma infix_of_fill (h : Marks b steps) {w s : List α}
    (hw : ∀ p ∈ steps, ∃ y, p.2.head? = some y ∧ y ∉ b :: w) (hi : b :: w <:+: fill steps s) : b :: w <:+: s := by
  induction steps generalizing s with
  | nil => exact hi
  | cons p steps ih =>
    obtain ⟨v, hv, -⟩ := h.mark p (by simp)
    obtain ⟨y, hy, hyw⟩ := hw p (by simp)
    have hne : p.1 ≠ [] := by rw [hv]; exact List.cons_ne_nil b v
    exact infix_of_replace hne hy hyw (h.text p (by simp)).1 (ih h.tail (fun q hq => hw q (by simp [hq])) hi)

/-- The placeholders of a text and what stands between them. -/
theorem exists_pieces (b : α) (marks : List (List α)) (hmarks : ∀ m ∈ marks, ∃ w, m = b :: w ∧ b ∉ w)
    (hapart : ∀ m ∈ marks, ∀ m' ∈ marks, m' <+: m → m' = m) (s : List α) :
    ∃ ps : List (α ⊕ List α),
      (∀ v : List α → List α, Marks b (marks.map (fun m => (m, v m))) →
        fill (marks.map (fun m => (m, v m))) s = ps.flatMap (Sum.elim (fun c => [c]) v)) ∧
      (∀ m, .inr m ∈ ps → m ∈ marks) ∧ ∀ m ∈ marks, .inr m ∈ ps ↔ m <:+: s := by
  induction hn : s.length using Nat.strongRecOn generalizing s with
  | _ n ih =>
    by_cases hstart : ∃ m ∈ marks, m <+: s
    · obtain ⟨m, hm, t, rfl⟩ := hstart
      obtain ⟨w, hw, hbw⟩ := hmarks m hm
      have hless : t.length < n := by
        rw [← hn, List.length_append, hw, List.length_cons]
        omega
      obtain ⟨ps, hps, hall, hiff⟩ := ih _ hless t rfl
      refine ⟨.inr m :: ps, fun v hv => ?_, fun m' hm' => ?_, fun m' hm' => ?_⟩
      · rw [fill_mark hv (List.mem_map_of_mem hm) t, hps v hv]
        rfl
      · rcases List.mem_cons.mp hm' with he | hm'
        · cases he
          exact hm
        · exact hall m' hm'
      · obtain ⟨w', hw', -⟩ := hmarks m' hm'
        rw [List.mem_cons, hiff m' hm']
        constructor
        · rintro (he | hi)
          · cases he
            exact (List.prefix_append m t).isInfix
          · exact hi.trans (List.suffix_append m t).isInfix
        · intro hi
          rw [hw, List.cons_append] at hi
          rcases List.infix_cons_iff.mp hi with hp | hi
          · rw [← List.cons_append, ← hw] at hp
            rcases List.prefix_or_prefix_of_prefix hp (List.prefix_append m t) with hp | hp
            · exact .inl (congrArg Sum.inr (hapart m hm m' hm' hp))
            · exact .inl (congrArg Sum.inr (hapart m' hm' m hm hp).symm)
          · rw [hw'] at hi ⊢
            exact .inr (infix_of_append hbw hi)
    · cases s with
      | nil =>
        refine ⟨[], fun v _ => ?_, fun m hm => absurd hm List.not_mem_nil, fun m hm => ?_⟩
        · exact fill_nil _
        · obtain ⟨w, hw, -⟩ := hmarks m hm
          simp [hw]
      | cons x t =>
        have hless : t.length < n := by
          rw [← hn]
          exact Nat.lt_succ_self _
        obtain ⟨ps, hps, hall, hiff⟩ := ih _ hless t rfl
        refine ⟨.inl x :: ps, fun v hv => ?_, fun m' hm' => ?_, fun m' hm' => ?_⟩
        · have hnone : ∀ p ∈ marks.map (fun m => (m, v m)), ¬p.1 <+: x :: t := by
            intro p hp hpre
            obtain ⟨m, hm, rfl⟩ := List.mem_map.mp hp
            exact hstart ⟨m, hm, hpre⟩
          rw [fill_cons hv hnone, hps v hv]
          rfl
        · rcases List.mem_cons.mp hm' with he | hm'
          · cases he
          · exact hall m' hm'
        · rw [List.mem_cons, hiff m' hm', List.infix_cons_iff]
          constructor
          · rintro (he | hi)
            · cases he
            · exact .inr hi
          · rintro (hp | hi)
            · exact absurd ⟨m', hm', hp⟩ hstart
            · exact .inr hi

end Fill

end Lib.Text
