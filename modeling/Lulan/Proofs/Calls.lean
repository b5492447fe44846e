import Lulan.Payments.Calls
import Lulan.Proofs.Callbacks

/-!
# The amount of a refund

A refund is rendered without the currency of its order, so with two decimals. When its
amount still reads as the intent's did is decided by the currency and the template alone.
-/

namespace Lulan.Proofs

open Http (CaseMapping Encoding Vars Value placeholder)
open Http.ProviderConfig (createVars refundVars)

section Templates

/-- What a call sends for a field with this template. -/
def sent (cases : CaseMapping) (encoding : Encoding) (template : String) (vars : Vars) : Value :=
  match encoding with
  | .form => .text (Http.render cases template vars)
  | .json => Http.jsonValue cases template vars

/-- The placeholder stands in the template. -/
def Mentions (template name : String) : Prop := placeholder name <:+: template.toList

/-- A template with no placeholder but amounts. -/
def AmountTemplate (template : String) : Prop :=
  ∀ name ∈ ["order_id", "currency", "currency_lower", "currency_upper", "payment_intent_id"],
    ¬Mentions template name

def placeholderNames : List String :=
  ["order_id", "amount_minor", "amount_decimal", "amount_major", "currency", "currency_lower", "currency_upper",
    "payment_intent_id"]

/-- The three placeholders for an amount. -/
def amountMarks : List (List Char) :=
  [placeholder "amount_minor", placeholder "amount_decimal", placeholder "amount_major"]

/-- The texts for an amount, by placeholder. -/
def amountText (minor decimal major mark : List Char) : List Char :=
  if mark = placeholder "amount_minor" then minor
  else if mark = placeholder "amount_decimal" then decimal
  else major

/-- A text of digits, signs and points. -/
def NumberText (s : List Char) : Prop := s ≠ [] ∧ ∀ c ∈ s, c.isDigit = true ∨ c = '-' ∨ c = '.'

lemma numberText_toString (n : Int) : NumberText (toString n).toList := by
  obtain ⟨c, hc, -⟩ := toString_int_head n
  refine ⟨fun hnil => ?_, fun c hc => ?_⟩
  · rw [hnil] at hc
    cases hc
  · rcases mem_toString_int hc with rfl | hd
    · exact .inr (.inl rfl)
    · exact .inl hd

lemma mem_leftpad {n : Nat} {a x : Char} {s : List Char} (h : x ∈ s.leftpad n a) : x = a ∨ x ∈ s := by
  rw [List.leftpad, List.mem_append] at h
  rcases h with h | h
  · exact .inl (List.eq_of_mem_replicate h)
  · exact .inr h

lemma isDigit_of_mem_padded {width n : Nat} {c : Char} (h : c ∈ (Http.padded width n).toList) : c.isDigit = true := by
  rw [Http.padded, String.toList_ofList] at h
  rcases mem_leftpad h with rfl | h
  · rfl
  · exact Nat.isDigit_of_mem_toDigits (by decide) (by decide) h

lemma toList_toString_nat (n : Nat) : (toString n).toList = Nat.toDigits 10 n := Nat.toList_repr

lemma numberText_amountDecimal (cases : CaseMapping) (amount : Int) (currency : String) :
    NumberText (Http.amountDecimal cases amount currency).toList := by
  unfold Http.amountDecimal
  dsimp only
  split
  · exact numberText_toString amount
  · simp only [String.toList_append, toList_toString_nat]
    refine ⟨by simp, fun c hc => ?_⟩
    simp only [List.mem_append] at hc
    rcases hc with ((hc | hc) | hc) | hc
    · split at hc
      · exact .inr (.inl (List.mem_singleton.mp hc))
      · cases hc
    · exact .inl (Nat.isDigit_of_mem_toDigits (by decide) (by decide) hc)
    · exact .inr (.inr (List.mem_singleton.mp hc))
    · exact .inl (isDigit_of_mem_padded hc)

/-- No placeholder has a character of a number. -/
lemma NumberText.not_mem {s : List Char} (hs : NumberText s) :
    '\x7b' ∉ s ∧ ∃ y, s.head? = some y ∧ ∀ name ∈ placeholderNames, y ∉ placeholder name := by
  have hnot : ∀ c, (c.isDigit = true ∨ c = '-' ∨ c = '.') → ∀ name ∈ placeholderNames, c ∉ placeholder name := by
    intro c hc name hname hm
    have hall : placeholderNames.all (fun name => (placeholder name).all
        (fun c => !c.isDigit && c != '-' && c != '.')) = true := by decide
    have hfree := List.all_eq_true.mp (List.all_eq_true.mp hall name hname) c hm
    rcases hc with hc | rfl | rfl
    · rw [hc] at hfree
      cases hfree
    · cases hfree
    · cases hfree
  refine ⟨fun hb => hnot _ (hs.2 _ hb) "order_id" (by simp [placeholderNames]) (by decide), ?_⟩
  obtain ⟨y, rest, rfl⟩ := List.exists_cons_of_ne_nil hs.1
  exact ⟨y, rfl, hnot y (hs.2 y (by simp))⟩

lemma amount_marks {minor decimal major : List Char} (h₁ : NumberText minor) (h₂ : NumberText decimal)
    (h₃ : NumberText major) :
    Lib.Text.Marks '\x7b' (amountMarks.map (fun m => (m, amountText minor decimal major m))) := by
  have hmap : amountMarks.map (fun m => (m, amountText minor decimal major m)) =
      [(placeholder "amount_minor", minor), (placeholder "amount_decimal", decimal),
        (placeholder "amount_major", major)] := rfl
  have hapart : amountMarks.Pairwise (fun m m' => ¬m <+: m' ∧ ¬m' <+: m) := by decide
  have hpairs := List.pairwise_map (f := fun m => (m, amountText minor decimal major m))
    (R := fun p q : List Char × List Char => ¬p.1 <+: q.1 ∧ ¬q.1 <+: p.1)|>.mpr hapart
  rw [hmap] at hpairs ⊢
  refine ⟨fun p hp => ?_, fun p hp => ?_, hpairs⟩
  · simp only [List.mem_cons, List.not_mem_nil, or_false] at hp
    rcases hp with rfl | rfl | rfl
    · exact ⟨_, rfl, by decide⟩
    · exact ⟨_, rfl, by decide⟩
    · exact ⟨_, rfl, by decide⟩
  · have hp' : NumberText p.2 := by
      simp only [List.mem_cons, List.not_mem_nil, or_false] at hp
      rcases hp with rfl | rfl | rfl
      · exact h₁
      · exact h₂
      · exact h₃
    obtain ⟨hb, y, hy, hall⟩ := hp'.not_mem
    refine ⟨hb, y, hy, fun q hq => ?_⟩
    simp only [List.mem_cons, List.not_mem_nil, or_false] at hq
    rcases hq with rfl | rfl | rfl
    · exact hall "amount_minor" (by simp [placeholderNames])
    · exact hall "amount_decimal" (by simp [placeholderNames])
    · exact hall "amount_major" (by simp [placeholderNames])

/-- The three texts for an amount. -/
def amountSteps (cases : CaseMapping) (vars : Vars) : List (List Char × List Char) :=
  amountMarks.map (fun m => (m, amountText (toString vars.amountMinor).toList
    (Http.amountDecimal cases vars.amountMinor vars.currency).toList
    (toString (Http.amountMajor cases vars.amountMinor vars.currency)).toList m))

lemma amountSteps_marks (cases : CaseMapping) (vars : Vars) : Lib.Text.Marks '\x7b' (amountSteps cases vars) :=
  amount_marks (numberText_toString _) (numberText_amountDecimal _ _ _) (numberText_toString _)

lemma amountSteps_text {cases : CaseMapping} {vars : Vars} {p : List Char × List Char}
    (hp : p ∈ amountSteps cases vars) : NumberText p.2 := by
  obtain ⟨m, -, rfl⟩ := List.mem_map.mp hp
  dsimp only [amountText]
  split
  · exact numberText_toString _
  · split
    · exact numberText_amountDecimal _ _ _
    · exact numberText_toString _

/-- A template of amounts is filled with the three texts for them. -/
lemma render_amounts (cases : CaseMapping) {template : String} (ht : AmountTemplate template) (vars : Vars) :
    Http.render cases template vars = String.ofList (Lib.Text.fill (amountSteps cases vars) template.toList) := by
  have hsteps : Http.render cases template vars = String.ofList (Lib.Text.fill
      (([(placeholder "order_id", (Http.hyphenated vars.orderId).toList)] ++ amountSteps cases vars) ++
        [(placeholder "currency", vars.currency.toList),
          (placeholder "currency_lower", (cases.lower vars.currency).toList),
          (placeholder "currency_upper", (Http.upper cases vars.currency).toList),
          (placeholder "payment_intent_id", vars.paymentIntentId.toList)]) template.toList) := rfl
  have hbefore : Lib.Text.fill [(placeholder "order_id", (Http.hyphenated vars.orderId).toList)] template.toList =
      template.toList := by
    refine Lib.Text.fill_of_not_infix (fun p hp => ?_)
    rw [List.mem_singleton.mp hp]
    exact ht "order_id" (by simp)
  have hafter : ∀ name ∈ ["currency", "currency_lower", "currency_upper", "payment_intent_id"],
      ¬placeholder name <:+: Lib.Text.fill (amountSteps cases vars) template.toList := by
    intro name hname hi
    refine ht name (List.mem_cons_of_mem _ hname)
      (Lib.Text.infix_of_fill (amountSteps_marks cases vars) (fun p hp => ?_) hi)
    obtain ⟨-, y, hy, hall⟩ := (amountSteps_text hp).not_mem
    have hname : name ∈ placeholderNames.drop 4 := hname
    exact ⟨y, hy, hall name (List.mem_of_mem_drop hname)⟩
  rw [hsteps, Lib.Text.fill_append, Lib.Text.fill_append, hbefore, Lib.Text.fill_of_not_infix]
  intro p hp
  simp only [List.mem_cons, List.not_mem_nil, or_false] at hp
  rcases hp with rfl | rfl | rfl | rfl
  · exact hafter "currency" (by simp)
  · exact hafter "currency_lower" (by simp)
  · exact hafter "currency_upper" (by simp)
  · exact hafter "payment_intent_id" (by simp)

/-- A template of amounts as placeholders and what stands between them: every amount renders it
piece by piece. -/
lemma exists_amount_pieces {template : String} (ht : AmountTemplate template) :
    ∃ ps : List (Char ⊕ List Char),
      (∀ cases vars, Http.render cases template vars = String.ofList (ps.flatMap (Sum.elim (fun c => [c])
        (amountText (toString vars.amountMinor).toList
          (Http.amountDecimal cases vars.amountMinor vars.currency).toList
          (toString (Http.amountMajor cases vars.amountMinor vars.currency)).toList)))) ∧
      (∀ m, .inr m ∈ ps → m ∈ amountMarks) ∧
      (.inr (placeholder "amount_decimal") ∈ ps ↔ Mentions template "amount_decimal") ∧
      (.inr (placeholder "amount_major") ∈ ps ↔ Mentions template "amount_major") := by
  have hmark : ∀ m ∈ amountMarks, ∃ w, m = '\x7b' :: w ∧ '\x7b' ∉ w := by
    intro m hm
    simp only [amountMarks, List.mem_cons, List.not_mem_nil, or_false] at hm
    rcases hm with rfl | rfl | rfl
    · exact ⟨_, rfl, by decide⟩
    · exact ⟨_, rfl, by decide⟩
    · exact ⟨_, rfl, by decide⟩
  obtain ⟨ps, hps, hall, hiff⟩ := Lib.Text.exists_pieces '\x7b' amountMarks hmark (by decide) template.toList
  refine ⟨ps, fun cases vars => ?_, hall, hiff _ (by simp [amountMarks]), hiff _ (by simp [amountMarks])⟩
  rw [render_amounts cases ht vars]
  exact congrArg String.ofList (hps _ (amountSteps_marks cases vars))

end Templates

section Pieces

variable {f g : Char ⊕ List Char → List Char} {ps : List (Char ⊕ List Char)} {d j : Char ⊕ List Char}

/-- Two renderings that differ in two pieces only, weighed. -/
lemma sum_map_differ (u v : Char ⊕ List Char → Nat) (hne : d ≠ j) (hsame : ∀ p ∈ ps, p ≠ d → p ≠ j → u p = v p) :
    (ps.map u).sum + ps.countP (fun p => decide (p = d)) * v d + ps.countP (fun p => decide (p = j)) * v j =
      (ps.map v).sum + ps.countP (fun p => decide (p = d)) * u d + ps.countP (fun p => decide (p = j)) * u j := by
  induction ps with
  | nil => simp
  | cons p ps ih =>
    have hps := ih (fun q hq => hsame q (by simp [hq]))
    rw [List.map_cons, List.map_cons, List.sum_cons, List.sum_cons, List.countP_cons, List.countP_cons]
    by_cases hd : p = d
    · subst hd
      simp only [decide_true, if_true, decide_eq_true_eq, hne, if_false]
      linarith
    · by_cases hj : p = j
      · subst hj
        simp only [decide_true, if_true, decide_eq_true_eq, hd, if_false]
        linarith
      · simp only [decide_eq_true_eq, hd, hj, if_false]
        rw [hsame p (by simp) hd hj]
        linarith

/-- Renderings that agree piece by piece in length agree piece by piece. -/
lemma pieces_eq_of_lengths (hlen : ∀ p ∈ ps, (f p).length = (g p).length) (h : ps.flatMap f = ps.flatMap g) :
    ∀ p ∈ ps, f p = g p := by
  induction ps with
  | nil => exact fun p hp => absurd hp List.not_mem_nil
  | cons p ps ih =>
    rw [List.flatMap_cons, List.flatMap_cons] at h
    obtain ⟨hp, hps⟩ := List.append_inj h (hlen p (by simp))
    intro q hq
    rcases List.mem_cons.mp hq with rfl | hq
    · exact hp
    · exact ih (fun r hr => hlen r (by simp [hr])) hps q hq

end Pieces

section Numbers

lemma toString_neg (n : Nat) : (toString (-((n + 1 : Nat) : Int))).toList = '-' :: Nat.toDigits 10 (n + 1) := by
  have h : toString (-((n + 1 : Nat) : Int)) = "-" ++ (n + 1).repr := rfl
  rw [h, String.toList_append, Nat.toList_repr]
  rfl

lemma parseSigned_toString (n : Int) : Lib.Text.parseSigned (toString n).toList = some n := by
  cases n with
  | ofNat m =>
    have h : toString (Int.ofNat m) = m.repr := rfl
    rw [h, Nat.toList_repr, Lib.Text.parseSigned_toDigits]
    rfl
  | negSucc m =>
    have h : (toString (Int.negSucc m)).toList = '-' :: Nat.toDigits 10 (m + 1) := toString_neg m
    rw [h, Lib.Text.parseSigned, Lib.Text.digits_toDigits]
    rfl

lemma toString_int_inj {m n : Int} (h : (toString m).toList = (toString n).toList) : m = n := by
  have hm := parseSigned_toString m
  rw [h, parseSigned_toString n] at hm
  exact (Option.some.inj hm).symm

/-- A quotient in digits. -/
lemma toString_tdiv (a : Int) (k : Nat) : (toString (a.tdiv k)).toList =
    (if a < 0 ∧ a.natAbs / k ≠ 0 then ['-'] else []) ++ Nat.toDigits 10 (a.natAbs / k) := by
  obtain ⟨n, rfl | rfl⟩ := a.eq_nat_or_neg
  · have hval : (n : Int).tdiv k = ((n / k : Nat) : Int) := by
      rw [Int.natCast_tdiv_eq_ediv]
      exact (Int.natCast_ediv n k).symm
    have hrepr : toString ((n / k : Nat) : Int) = (n / k).repr := rfl
    rw [hval, hrepr, Nat.toList_repr, if_neg (fun h => absurd h.1 (by omega)), Int.natAbs_natCast]
    rfl
  · have hval : (-(n : Int)).tdiv k = -((n / k : Nat) : Int) := by
      rw [Int.neg_tdiv, Int.natCast_tdiv_eq_ediv]
      exact congrArg Neg.neg (Int.natCast_ediv n k).symm
    rw [hval, Int.natAbs_neg, Int.natAbs_natCast]
    cases hq : n / k with
    | zero =>
      rw [if_neg (fun h => h.2 rfl)]
      rfl
    | succ q =>
      have hn : n ≠ 0 := by
        rintro rfl
        rw [Nat.zero_div] at hq
        cases hq
      rw [toString_neg, if_pos ⟨by omega, Nat.succ_ne_zero q⟩]
      rfl

/-- What a decimal amount is made of. -/
lemma amountDecimal_toList {cases : CaseMapping} {amount : Int} {currency : String} {exp : Nat}
    (he : Http.isoExponent cases currency = exp) (hne : exp ≠ 0) :
    (Http.amountDecimal cases amount currency).toList = (if amount < 0 then ['-'] else []) ++
      Nat.toDigits 10 (amount.natAbs / 10 ^ exp) ++ '.' :: (Http.padded exp (amount.natAbs % 10 ^ exp)).toList := by
  unfold Http.amountDecimal
  dsimp only
  rw [he, if_neg hne, String.toList_append, String.toList_append, String.toList_append, toList_toString_nat]
  split
  · simp
  · simp

lemma length_padded {width n : Nat} (hw : width ≠ 0) (hn : n < 10 ^ width) :
    (Http.padded width n).toList.length = width := by
  rw [Http.padded, String.toList_ofList, List.length_leftpad]
  have hle := (Nat.length_toDigits_le_iff (by decide) (Nat.pos_of_ne_zero hw)).mpr hn
  omega

lemma count_digits {n : Nat} {c : Char} (hc : c.isDigit = false) : (Nat.toDigits 10 n).count c = 0 := by
  rw [List.count_eq_zero]
  intro hm
  rw [Nat.isDigit_of_mem_toDigits (by decide) (by decide) hm] at hc
  cases hc

lemma count_padded {width n : Nat} {c : Char} (hc : c.isDigit = false) : (Http.padded width n).toList.count c = 0 := by
  rw [List.count_eq_zero]
  intro hm
  rw [isDigit_of_mem_padded hm] at hc
  cases hc

lemma count_point_toString (n : Int) : (toString n).toList.count '.' = 0 := by
  rw [List.count_eq_zero]
  intro hm
  rcases mem_toString_int hm with h | h
  · cases h
  · cases h

end Numbers

section Refunds

variable {cases : CaseMapping} {currency : String} {amount : Int} {ps : List (Char ⊕ List Char)}

lemma isoExponent_empty (cases : CaseMapping) : Http.isoExponent cases "" = 2 := by
  have hupper : Http.upper cases "" = "" := rfl
  rw [Http.isoExponent, hupper, if_neg (by decide), if_neg (by decide)]

lemma isoExponent_cases (cases : CaseMapping) (currency : String) :
    Http.isoExponent cases currency = 0 ∨ Http.isoExponent cases currency = 3 ∨ Http.isoExponent cases currency = 2 := by
  unfold Http.isoExponent
  split
  · exact .inl rfl
  · split
    · exact .inr (.inl rfl)
    · exact .inr (.inr rfl)

/-- How a piece reads in a currency. -/
def pieceText (cases : CaseMapping) (amount : Int) (currency : String) : Char ⊕ List Char → List Char :=
  Sum.elim (fun c => [c]) (amountText (toString amount).toList (Http.amountDecimal cases amount currency).toList
    (toString (Http.amountMajor cases amount currency)).toList)

/-- The whole major units are the same with two decimals. -/
def SameMajor (exp : Nat) (amount : Int) : Prop := amount.natAbs < if exp = 0 then 1 else 100

lemma pieceText_minor (cases : CaseMapping) (amount : Int) (currency : String) :
    pieceText cases amount currency (.inr (placeholder "amount_minor")) = (toString amount).toList := by
  rw [pieceText, Sum.elim_inr, amountText, if_pos rfl]

lemma pieceText_decimal : pieceText cases amount currency (.inr (placeholder "amount_decimal")) =
    (Http.amountDecimal cases amount currency).toList := rfl

lemma pieceText_major : pieceText cases amount currency (.inr (placeholder "amount_major")) =
    (toString (Http.amountMajor cases amount currency)).toList := rfl

lemma pieceText_other {p : Char ⊕ List Char} (hmark : ∀ m, p = .inr m → m ∈ amountMarks)
    (hd : p ≠ .inr (placeholder "amount_decimal")) (hj : p ≠ .inr (placeholder "amount_major")) (currency' : String) :
    pieceText cases amount currency p = pieceText cases amount currency' p := by
  cases p with
  | inl c =>
    change [c] = [c]
    rfl
  | inr m =>
    have hm := hmark m rfl
    simp only [amountMarks, List.mem_cons, List.not_mem_nil, or_false] at hm
    rcases hm with rfl | rfl | rfl
    · rw [pieceText_minor, pieceText_minor]
    · exact absurd rfl hd
    · exact absurd rfl hj

lemma sameMajor_iff {exp : Nat} (hexp : exp = 0 ∨ exp = 3) :
    amount.tdiv (10 ^ exp) = amount.tdiv (10 ^ 2) ↔ SameMajor exp amount := by
  unfold SameMajor
  obtain ⟨n, rfl | rfl⟩ := amount.eq_nat_or_neg
  · rw [Int.natAbs_natCast, Int.natCast_tdiv_eq_ediv, Int.natCast_tdiv_eq_ediv]
    rcases hexp with rfl | rfl
    · simp only [if_true, pow_zero]
      omega
    · norm_num
      omega
  · rw [Int.natAbs_neg, Int.natAbs_natCast, Int.neg_tdiv, Int.neg_tdiv, Int.natCast_tdiv_eq_ediv,
      Int.natCast_tdiv_eq_ediv]
    rcases hexp with rfl | rfl
    · simp only [if_true, pow_zero]
      omega
    · norm_num
      omega

/-- Two renderings weighed by length, and by any character. -/
lemma weigh (hmarks : ∀ m, .inr m ∈ ps → m ∈ amountMarks) {w : List Char → Nat}
    (hw : (ps.map (fun p => w (pieceText cases amount currency p))).sum =
      (ps.map (fun p => w (pieceText cases amount "" p))).sum) :
    ps.countP (fun p => decide (p = .inr (placeholder "amount_decimal"))) *
        w (Http.amountDecimal cases amount "").toList +
      ps.countP (fun p => decide (p = .inr (placeholder "amount_major"))) *
        w (toString (Http.amountMajor cases amount "")).toList =
    ps.countP (fun p => decide (p = .inr (placeholder "amount_decimal"))) *
        w (Http.amountDecimal cases amount currency).toList +
      ps.countP (fun p => decide (p = .inr (placeholder "amount_major"))) *
        w (toString (Http.amountMajor cases amount currency)).toList := by
  have hdiffer := sum_map_differ (d := .inr (placeholder "amount_decimal")) (j := .inr (placeholder "amount_major"))
    (fun p => w (pieceText cases amount currency p))
    (fun p => w (pieceText cases amount "" p)) (by decide) (fun p (hp : p ∈ ps) hd hj => ?_)
  · simp only [pieceText_decimal, pieceText_major] at hdiffer
    rw [hw] at hdiffer
    omega
  · exact congrArg w (pieceText_other (fun m hm => hmarks m (hm ▸ hp)) hd hj "")

lemma not_mem_of_countP_eq_zero {p : Char ⊕ List Char} (h : ps.countP (fun q => decide (q = p)) = 0) : p ∉ ps :=
  fun hp => List.countP_eq_zero.mp h p hp (decide_eq_true rfl)

lemma countP_pos_of_mem {p : Char ⊕ List Char} (hp : p ∈ ps) : 0 < ps.countP (fun q => decide (q = p)) :=
  List.countP_pos_iff.mpr ⟨p, hp, decide_eq_true rfl⟩

lemma length_weights (h : ps.flatMap (pieceText cases amount currency) = ps.flatMap (pieceText cases amount "")) :
    (ps.map (fun p => (pieceText cases amount currency p).length)).sum =
      (ps.map (fun p => (pieceText cases amount "" p).length)).sum := by
  rw [← List.length_flatMap, ← List.length_flatMap, h]

lemma count_weights (c : Char)
    (h : ps.flatMap (pieceText cases amount currency) = ps.flatMap (pieceText cases amount "")) :
    (ps.map (fun p => (pieceText cases amount currency p).count c)).sum =
      (ps.map (fun p => (pieceText cases amount "" p).count c)).sum := by
  have hcount := congrArg (List.count c) h
  rw [List.count_flatMap, List.count_flatMap] at hcount
  exact hcount

/-- Without a decimal, the integer major units have to agree. -/
lemma major_agrees (hmarks : ∀ m, .inr m ∈ ps → m ∈ amountMarks)
    (hd : .inr (placeholder "amount_decimal") ∉ ps) (hj : .inr (placeholder "amount_major") ∈ ps)
    (h : ps.flatMap (pieceText cases amount currency) = ps.flatMap (pieceText cases amount "")) :
    Http.amountMajor cases amount currency = Http.amountMajor cases amount "" := by
  have hlen := weigh hmarks (length_weights h)
  have hzero : ps.countP (fun p => decide (p = .inr (placeholder "amount_decimal"))) = 0 :=
    List.countP_eq_zero.mpr (fun p hp he => hd (of_decide_eq_true he ▸ hp))
  rw [hzero, Nat.zero_mul, Nat.zero_mul, Nat.zero_add, Nat.zero_add] at hlen
  have hsame := Nat.eq_of_mul_eq_mul_left (countP_pos_of_mem hj) hlen
  refine toString_int_inj (pieces_eq_of_lengths (fun p hp => ?_) h _ hj)
  by_cases hp' : p = .inr (placeholder "amount_major")
  · rw [hp', pieceText_major, pieceText_major, hsame]
  · rw [pieceText_other (fun m hm => hmarks m (hm ▸ hp)) (fun he => hd (he ▸ hp)) hp' ""]

/-- With no decimals a decimal amount has no point, with two it has one. -/
lemma no_decimal_of_zero (hmarks : ∀ m, .inr m ∈ ps → m ∈ amountMarks) (he : Http.isoExponent cases currency = 0)
    (h : ps.flatMap (pieceText cases amount currency) = ps.flatMap (pieceText cases amount "")) :
    .inr (placeholder "amount_decimal") ∉ ps := by
  have hpoints := weigh hmarks (count_weights '.' h)
  have hsource : Http.amountDecimal cases amount currency = toString amount := by
    unfold Http.amountDecimal
    dsimp only
    rw [if_pos he]
  have hrefund : (Http.amountDecimal cases amount "").toList.count '.' = 1 := by
    rw [amountDecimal_toList (isoExponent_empty cases) (by decide), List.count_append, List.count_append,
      List.count_cons_self, count_digits (by decide), count_padded (by decide)]
    split
    · rfl
    · rfl
  rw [hsource, hrefund, count_point_toString, count_point_toString, count_point_toString] at hpoints
  exact not_mem_of_countP_eq_zero (by omega)

/-- One for a minus sign. -/
def signs (negative : Bool) : Nat := if negative then 1 else 0

lemma weigh_decimal (amount : Int) {exp : Nat} (he : Http.isoExponent cases currency = exp) (hne : exp ≠ 0) :
    (Http.amountDecimal cases amount currency).toList.length =
      signs (decide (amount < 0)) + (Nat.toDigits 10 (amount.natAbs / 10 ^ exp)).length + 1 + exp ∧
    (Http.amountDecimal cases amount currency).toList.count '-' = signs (decide (amount < 0)) := by
  rw [amountDecimal_toList he hne]
  have hpad : (Http.padded exp (amount.natAbs % 10 ^ exp)).toList.length = exp :=
    length_padded hne (Nat.mod_lt _ (Nat.pow_pos (by decide)))
  simp only [List.length_append, List.length_cons, List.count_append, hpad,
    List.count_cons_of_ne (show ('.' : Char) ≠ '-' by decide),
    count_digits (show ('-' : Char).isDigit = false by decide),
    count_padded (show ('-' : Char).isDigit = false by decide), signs]
  by_cases hneg : amount < 0
  · simp only [hneg, if_true, decide_true, List.length_singleton, List.count_singleton_self]
    exact ⟨by omega, trivial⟩
  · simp only [hneg, if_false, decide_false, List.length_nil, List.count_nil, Bool.false_eq_true]
    exact ⟨by omega, trivial⟩

lemma weigh_major (amount : Int) {exp : Nat} (he : Http.isoExponent cases currency = exp) :
    (toString (Http.amountMajor cases amount currency)).toList.length =
      signs (decide (amount < 0 ∧ amount.natAbs / 10 ^ exp ≠ 0)) +
        (Nat.toDigits 10 (amount.natAbs / 10 ^ exp)).length ∧
    (toString (Http.amountMajor cases amount currency)).toList.count '-' =
      signs (decide (amount < 0 ∧ amount.natAbs / 10 ^ exp ≠ 0)) := by
  have hmajor : Http.amountMajor cases amount currency = amount.tdiv ((10 ^ exp : Nat) : Int) := by
    rw [Http.amountMajor, he, Nat.cast_pow]
    rfl
  rw [hmajor, toString_tdiv, List.length_append, List.count_append,
    count_digits (show ('-' : Char).isDigit = false by decide), signs]
  by_cases hneg : amount < 0 ∧ amount.natAbs / 10 ^ exp ≠ 0
  · rw [if_pos hneg, decide_eq_true hneg]
    exact ⟨rfl, rfl⟩
  · rw [if_neg hneg, decide_eq_false hneg]
    exact ⟨rfl, rfl⟩

/-- With three decimals a decimal amount is not what it is with two. -/
lemma no_decimal_of_three (hmarks : ∀ m, .inr m ∈ ps → m ∈ amountMarks) (he : Http.isoExponent cases currency = 3)
    (h : ps.flatMap (pieceText cases amount currency) = ps.flatMap (pieceText cases amount "")) :
    .inr (placeholder "amount_decimal") ∉ ps := by
  intro hd
  have hpos := countP_pos_of_mem hd
  have hlen := weigh hmarks (length_weights h)
  have hsigns := weigh hmarks (count_weights '-' h)
  have htwo := isoExponent_empty cases
  obtain ⟨hd₃, hd₃'⟩ := weigh_decimal amount he (by decide)
  obtain ⟨hd₂, hd₂'⟩ := weigh_decimal amount htwo (by decide)
  obtain ⟨hj₃, hj₃'⟩ := weigh_major amount he
  obtain ⟨hj₂, hj₂'⟩ := weigh_major amount htwo
  rw [hd₃', hd₂', hj₃', hj₂'] at hsigns
  have hquot : amount.natAbs / 10 ^ 2 / 10 = amount.natAbs / 10 ^ 3 := by
    rw [Nat.div_div_eq_div_mul]
    norm_num
  by_cases hbig : 10 ≤ amount.natAbs / 10 ^ 2
  · have hdigits := Nat.toDigits_of_base_le (by decide) hbig
    rw [hquot] at hdigits
    have hone : (Nat.toDigits 10 (amount.natAbs / 10 ^ 2)).length =
        (Nat.toDigits 10 (amount.natAbs / 10 ^ 3)).length + 1 := by
      rw [hdigits, List.length_append, List.length_singleton]
    rw [hd₃, hd₂, hj₃, hj₂, hone] at hlen
    simp only [Nat.mul_add] at hlen hsigns
    have hnone : .inr (placeholder "amount_major") ∉ ps := not_mem_of_countP_eq_zero (by omega)
    have hsame := pieces_eq_of_lengths (fun p hp => ?_) h _ hd
    · rw [pieceText_decimal, pieceText_decimal, amountDecimal_toList he (by decide),
        amountDecimal_toList htwo (by decide), hdigits, List.append_assoc, List.append_assoc, List.append_assoc] at hsame
      have htail := List.append_cancel_left (List.append_cancel_left hsame)
      have hpoint := (List.cons.inj htail).1
      have hdigit : (Nat.digitChar (amount.natAbs / 10 ^ 2 % 10)).isDigit = true := by
        rw [Nat.isDigit_digitChar]
        exact decide_eq_true (Nat.mod_lt _ (by decide))
      rw [← hpoint] at hdigit
      cases hdigit
    · by_cases hp' : p = .inr (placeholder "amount_decimal")
      · rw [hp', pieceText_decimal, pieceText_decimal, hd₃, hd₂, hone]
        omega
      · rw [pieceText_other (fun m hm => hmarks m (hm ▸ hp)) hp' (fun he => hnone (he ▸ hp)) ""]
  · have hsmall : amount.natAbs / 10 ^ 3 < 10 := by omega
    rw [hd₃, hd₂, hj₃, hj₂, Nat.toDigits_of_lt_base hsmall, Nat.toDigits_of_lt_base (by omega)] at hlen
    simp only [Nat.mul_add, List.length_singleton] at hlen hsigns
    omega

/-- The condition under which a refund's amount reads as the intent's. -/
def AmountAgrees (cases : CaseMapping) (template currency : String) (amount : Int) : Prop :=
  Http.isoExponent cases currency = 2 ∨ ¬Mentions template "amount_decimal" ∧
    (¬Mentions template "amount_major" ∨ SameMajor (Http.isoExponent cases currency) amount)

lemma amountMajor_agrees_iff : Http.amountMajor cases amount currency = Http.amountMajor cases amount "" ↔
    Http.isoExponent cases currency = 2 ∨ SameMajor (Http.isoExponent cases currency) amount := by
  unfold Http.amountMajor
  rw [isoExponent_empty]
  rcases isoExponent_cases cases currency with he | he | he
  · rw [he, sameMajor_iff (.inl rfl)]
    simp
  · rw [he, sameMajor_iff (.inr rfl)]
    simp
  · simp [he]

lemma amountDecimal_agrees (he : Http.isoExponent cases currency = 2) :
    Http.amountDecimal cases amount currency = Http.amountDecimal cases amount "" := by
  unfold Http.amountDecimal
  rw [he, isoExponent_empty]

/-- The two renderings of one template. -/
lemma render_agrees_iff (cases : CaseMapping) (currency : String) (amount : Int) {template : String}
    (ht : AmountTemplate template) (orderId : Wire.Uuid) (intent : String) :
    Http.render cases template (createVars orderId amount currency) =
      Http.render cases template (refundVars intent amount) ↔ AmountAgrees cases template currency amount := by
  obtain ⟨ps, hps, hmarks, hdecimal, hmajor⟩ := exists_amount_pieces ht
  have hiff : Http.render cases template (createVars orderId amount currency) =
      Http.render cases template (refundVars intent amount) ↔
      ps.flatMap (pieceText cases amount currency) = ps.flatMap (pieceText cases amount "") := by
    rw [hps, hps]
    exact String.ofList_inj
  rw [hiff, AmountAgrees, ← hdecimal, ← hmajor]
  constructor
  · intro h
    by_cases hj : .inr (placeholder "amount_major") ∈ ps
    · rcases isoExponent_cases cases currency with he | he | he
      · have hd := no_decimal_of_zero hmarks he h
        have hagree := amountMajor_agrees_iff.mp (major_agrees hmarks hd hj h)
        exact hagree.imp_right (fun hsame => ⟨hd, .inr hsame⟩)
      · have hd := no_decimal_of_three hmarks he h
        have hagree := amountMajor_agrees_iff.mp (major_agrees hmarks hd hj h)
        exact hagree.imp_right (fun hsame => ⟨hd, .inr hsame⟩)
      · exact .inl he
    · rcases isoExponent_cases cases currency with he | he | he
      · exact .inr ⟨no_decimal_of_zero hmarks he h, .inl hj⟩
      · exact .inr ⟨no_decimal_of_three hmarks he h, .inl hj⟩
      · exact .inl he
  · intro h
    refine List.flatMap_congr (fun p hp => ?_)
    by_cases hd : p = .inr (placeholder "amount_decimal")
    · rcases h with he | ⟨hnot, -⟩
      · rw [hd, pieceText_decimal, pieceText_decimal, amountDecimal_agrees he]
      · exact absurd (hd ▸ hp) hnot
    · by_cases hj : p = .inr (placeholder "amount_major")
      · have hagree : Http.amountMajor cases amount currency = Http.amountMajor cases amount "" := by
          rw [amountMajor_agrees_iff]
          rcases h with he | ⟨-, hnot | hsame⟩
          · exact .inl he
          · exact absurd (hj ▸ hp) hnot
          · exact .inr hsame
        rw [hj, pieceText_major, pieceText_major, hagree]
      · exact pieceText_other (fun m hm => hmarks m (hm ▸ hp)) hd hj ""

lemma exists_trim (s : String) : ∃ w₁ w₂ : List Char, s.toList = w₁ ++ (trim s).toList ++ w₂ ∧
    (∀ c ∈ w₁, isWhite c = true) ∧ ∀ c ∈ w₂, isWhite c = true := by
  have hleft := List.takeWhile_append_dropWhile (p := isWhite) (l := s.toList)
  have hright := List.takeWhile_append_dropWhile (p := isWhite) (l := (s.toList.dropWhile isWhite).reverse)
  refine ⟨s.toList.takeWhile isWhite, ((s.toList.dropWhile isWhite).reverse.takeWhile isWhite).reverse, ?_,
    fun c hc => List.mem_takeWhile_imp hc, fun c hc => List.mem_takeWhile_imp (List.mem_reverse.mp hc)⟩
  have hback := congrArg List.reverse hright
  rw [List.reverse_append, List.reverse_reverse] at hback
  rw [trim, String.toList_ofList, List.append_assoc, hback]
  exact hleft.symm

/-- A template that is one placeholder alone mentions no other. -/
lemma mentions_of_trim {template : String} {m n : String} (h : (trim template).toList = placeholder n)
    (hbrace : '\x7b' ∉ n.toList ++ ['\x7d']) (hm : Mentions template m)
    (hapart : placeholder n <+: placeholder m → placeholder m = placeholder n)
    (hapart' : placeholder m <+: placeholder n → placeholder m = placeholder n) : placeholder m = placeholder n := by
  obtain ⟨w₁, w₂, heq, hw₁, hw₂⟩ := exists_trim template
  have hfree : ∀ w : List Char, (∀ c ∈ w, isWhite c = true) → '\x7b' ∉ w :=
    fun w hw hb => absurd (hw _ hb) (by decide)
  rw [Mentions, heq, h, List.append_assoc] at hm
  have hrest := Lib.Text.infix_of_append (hfree w₁ hw₁) hm
  rcases List.infix_cons_iff.mp hrest with hp | hi
  · rcases List.prefix_or_prefix_of_prefix hp (List.prefix_append (placeholder n) w₂) with hp | hp
    · exact hapart' hp
    · exact hapart hp
  · have hnone : '\x7b' ∉ n.toList ++ ['\x7d'] ++ w₂ := by
      rw [List.mem_append]
      exact fun hb => hb.elim hbrace (hfree w₂ hw₂)
    exact absurd (hi.subset List.mem_cons_self) hnone

lemma mentions_self_of_trim {template n : String} (h : (trim template).toList = placeholder n) :
    Mentions template n := by
  obtain ⟨w₁, w₂, heq, -, -⟩ := exists_trim template
  rw [Mentions, heq, h]
  exact ⟨w₁, w₂, rfl⟩

/-- A full refund is sent the amount its intent was created with exactly when the currency has
two decimals, or the template has no decimal amount and no whole units that two decimals would
change. -/
theorem refund_amount_agrees_iff (cases : CaseMapping) (config : Http.ProviderConfig)
    (template currency intent : String) (orderId : Wire.Uuid) (amount : Int) (ht : AmountTemplate template) :
    sent cases config.encoding template (createVars orderId amount currency) =
      sent cases config.encoding template (refundVars intent amount) ↔
    Http.isoExponent cases currency = 2 ∨ ¬Mentions template "amount_decimal" ∧ (¬Mentions template "amount_major" ∨
      amount.natAbs < if Http.isoExponent cases currency = 0 then 1 else 100) := by
  have hrender := render_agrees_iff cases currency amount ht orderId intent
  cases config.encoding with
  | form =>
    simp only [sent, Value.text.injEq]
    exact hrender
  | json =>
    simp only [sent, Http.jsonValue]
    by_cases hminor : (trim template).toList = placeholder "amount_minor"
    · rw [if_pos hminor, if_pos hminor]
      refine iff_of_true rfl (.inr ⟨fun hm => ?_, .inl (fun hm => ?_)⟩)
      · exact absurd (mentions_of_trim hminor (by decide) hm (by decide) (by decide)) (by decide)
      · exact absurd (mentions_of_trim hminor (by decide) hm (by decide) (by decide)) (by decide)
    · rw [if_neg hminor, if_neg hminor]
      by_cases hmajor : (trim template).toList = placeholder "amount_major"
      · rw [if_pos hmajor, if_pos hmajor, Value.number.injEq]
        have hm := mentions_self_of_trim hmajor
        have hd : ¬Mentions template "amount_decimal" := fun hd =>
          absurd (mentions_of_trim hmajor (by decide) hd (by decide) (by decide)) (by decide)
        refine amountMajor_agrees_iff.trans (or_congr_right ?_)
        simp only [hd, hm, not_true_eq_false, not_false_eq_true, true_and, false_or]
        rfl
      · rw [if_neg hmajor, if_neg hmajor, Value.text.injEq]
        exact hrender

end Refunds

section Harbour

def asciiCases : CaseMapping := ⟨fun c => [c.toUpper], fun s => String.ofList (s.toList.map Char.toLower)⟩

/-- A provider that wants amounts in major units. -/
def harbourGateway : Http.ProviderConfig where
  baseUrl := "https://api.acme.test"
  authHeader := none
  createIntent := ⟨"/payments", [("amount.value", "\x7bamount_decimal\x7d")], none⟩
  refund := ⟨"/refunds", [("amount.value", "\x7bamount_decimal\x7d")], none⟩

lemma harbour_template : AmountTemplate "\x7bamount_decimal\x7d" := by
  unfold AmountTemplate Mentions
  decide +kernel

theorem refund_amount_agrees_iff_harbour :
    sent asciiCases harbourGateway.encoding "\x7bamount_decimal\x7d" (createVars Http.nil 45000 "PHP") =
      sent asciiCases harbourGateway.encoding "\x7bamount_decimal\x7d" (refundVars "pi_1" 45000) :=
  (refund_amount_agrees_iff asciiCases harbourGateway "\x7bamount_decimal\x7d" "PHP" "pi_1" Http.nil 45000
    harbour_template).mpr (.inl (by decide +kernel))

/-- An intent for 5000 yen is refunded as 50.00. -/
theorem refund_amount_differs : ¬ ∀ (cases : CaseMapping) (config : Http.ProviderConfig)
    (template currency intent : String) (orderId : Wire.Uuid) (amount : Int), AmountTemplate template →
    sent cases config.encoding template (createVars orderId amount currency) =
      sent cases config.encoding template (refundVars intent amount) := by
  intro hclaim
  have heq := hclaim asciiCases harbourGateway "\x7bamount_decimal\x7d" "JPY" "pi_1" Http.nil 5000 harbour_template
  have hcreated : Http.render asciiCases "\x7bamount_decimal\x7d" (createVars Http.nil 5000 "JPY") = "5000" := by
    decide +kernel
  have hrefunded : Http.render asciiCases "\x7bamount_decimal\x7d" (refundVars "pi_1" 5000) = "50.00" := by
    decide +kernel
  have hsent : ∀ vars, sent asciiCases harbourGateway.encoding "\x7bamount_decimal\x7d" vars =
      .text (Http.render asciiCases "\x7bamount_decimal\x7d" vars) := by
    intro vars
    have hminor : (trim "\x7bamount_decimal\x7d").toList ≠ placeholder "amount_minor" := by decide +kernel
    have hmajor : (trim "\x7bamount_decimal\x7d").toList ≠ placeholder "amount_major" := by decide +kernel
    change Http.jsonValue asciiCases "\x7bamount_decimal\x7d" vars = _
    rw [Http.jsonValue, if_neg hminor, if_neg hmajor]
  rw [hsent, hsent, hcreated, hrefunded] at heq
  exact absurd (Value.text.inj heq) (by decide)

end Harbour

end Lulan.Proofs
