import Lulan.Holds.Store

/-!
# Holds on a seat

The holds of a unit never overlap and live as long as their key, and the acquire script and
the reader of the seat map agree on what they block.
-/

namespace Lulan.Proofs

open Lulan Lulan.Holds Lib

/-! ### Stored texts -/

section Texts

variable {exp hi lo : Nat}

lemma colon_not_mem_toDigits (n : Nat) : ':' ∉ Nat.toDigits 10 n := by
  intro h
  have hd := Nat.isDigit_of_mem_toDigits (by decide) (by decide) h
  exact absurd hd (by decide)

lemma scientific_chars (n : Nat) :
    'e' ∈ scientific n ∧ (scientific n).head? ≠ some '-' ∧ ':' ∉ scientific n := by
  have hdigit : ∀ c ∈ ((Nat.toDigits 10 (significant n).1).reverse.dropWhile (fun c => c = '0')).reverse,
      c.isDigit = true := by
    intro c hc
    have hc' := (List.dropWhile_sublist _).subset (List.mem_reverse.mp hc)
    exact Nat.isDigit_of_mem_toDigits (by decide) (by decide) (List.mem_reverse.mp hc')
  have hexp := colon_not_mem_toDigits (significant n).2
  have htens : ':' ∉ (if (significant n).2 < 10 then ['0'] else []) := by
    split <;> decide
  unfold scientific
  simp only
  split
  · rename_i first second rest heq
    rw [heq] at hdigit
    have hcolon : ':' ∉ first :: second :: rest := fun h => absurd (hdigit _ h) (by decide)
    have hminus : first ≠ '-' := fun h => absurd (hdigit first List.mem_cons_self) (by rw [h]; decide)
    simp only [List.mem_cons, not_or] at hcolon
    simp [hminus, hexp, hcolon, htens]
  · have hcolon : ':' ∉ ((Nat.toDigits 10 (significant n).1).reverse.dropWhile (fun c => c = '0')).reverse :=
      fun h => absurd (hdigit _ h) (by decide)
    refine ⟨by simp, ?_, by simp [hexp, hcolon, htens]⟩
    cases hm : ((Nat.toDigits 10 (significant n).1).reverse.dropWhile (fun c => c = '0')).reverse with
    | nil => simp
    | cons c rest =>
      rw [hm] at hdigit
      have hminus : c ≠ '-' := fun h => absurd (hdigit c List.mem_cons_self) (by rw [h]; decide)
      simpa using hminus

lemma splitOn_holdText : (holdText exp hi lo).toList.splitOn ':' =
    [luaToString exp, Nat.toDigits 10 hi, Nat.toDigits 10 lo] := by
  have hexp : ':' ∉ luaToString exp := by
    unfold luaToString
    split
    · exact colon_not_mem_toDigits exp
    · exact (scientific_chars exp).2.2
  rw [holdText, String.toList_ofList, List.splitOn_append_cons_self_of_not_mem hexp,
    List.splitOn_append_cons_self_of_not_mem (colon_not_mem_toDigits hi),
    List.splitOn_eq_singleton (colon_not_mem_toDigits lo)]

/-- The script reads back what it stored, as long as the expiry was written out. -/
lemma readLua_holdText : readLua (holdText exp hi lo) = if exp < 10 ^ 14 then some (exp, hi, lo) else none := by
  rw [readLua, splitOn_holdText]
  simp only [Text.digits_toDigits]
  unfold luaToString
  by_cases h : exp < 10 ^ 14
  · rw [if_pos h, if_pos h, Text.digits_toDigits]
    rfl
  · rw [if_neg h, if_neg h, Text.digits_eq_none (scientific_chars exp).1 (by decide)]
    rfl

lemma parseSigned_scientific (n : Nat) : Text.parseSigned (scientific n) = none := by
  obtain ⟨he, hminus, -⟩ := scientific_chars n
  cases hs : scientific n with
  | nil => rfl
  | cons c rest =>
    rw [hs] at he hminus
    unfold Text.parseSigned
    split
    · rename_i heq
      cases heq
      exact absurd rfl hminus
    · unfold Text.parseUnsigned
      split
      · rename_i heq
        cases heq
        have he' : 'e' ∈ rest := by simpa using he
        rw [Text.digits_eq_none he' (by decide)]
        rfl
      · rw [Text.digits_eq_none he (by decide)]
        rfl

/-- So does the reader of the seat map. -/
lemma readRust_holdText (hhi : hi < 2 ^ 32) (hlo : lo < 2 ^ 32) (h : exp < 10 ^ 14) :
    HoldStore.readRust (holdText exp hi lo) = some ((exp : Int), hi, lo) := by
  have hrange : -2 ^ 63 ≤ (exp : Int) ∧ (exp : Int) < 2 ^ 63 ∧ hi < 2 ^ 64 ∧ lo < 2 ^ 64 := by
    refine ⟨?_, ?_, ?_, ?_⟩ <;> omega
  rw [HoldStore.readRust, splitOn_holdText]
  simp only [Text.parseUnsigned_toDigits, Option.bind_eq_bind, Option.bind_some]
  rw [luaToString, if_pos h, Text.parseSigned_toDigits, Option.bind_some, if_pos hrange]

lemma readRust_scientific (h : ¬ exp < 10 ^ 14) : HoldStore.readRust (holdText exp hi lo) = none := by
  rw [HoldStore.readRust, splitOn_holdText]
  simp only [Text.parseUnsigned_toDigits, Option.bind_eq_bind, Option.bind_some]
  rw [luaToString, if_neg h, parseSigned_scientific, Option.bind_none]

end Texts

/-! ### Masks -/

/-- The 64 bits of a stored pair of halves. -/
def halves (hi lo : Nat) : BitVec 64 := BitVec.ofNat 64 hi <<< 32 ||| BitVec.ofNat 64 lo

lemma halves_eq {hi lo : Nat} (hlo : lo < 2 ^ 32) :
    halves hi lo = BitVec.ofNat 32 hi ++ BitVec.ofNat 32 lo := by
  apply BitVec.eq_of_getLsbD_eq
  intro i hi'
  simp only [BitVec.getLsbD_append, halves, BitVec.getLsbD_or, BitVec.getLsbD_shiftLeft, BitVec.getLsbD_ofNat]
  by_cases h : i < 32
  · simp only [h, hi', decide_true, Bool.not_true, Bool.and_false, Bool.false_and, Bool.false_or, Bool.true_and,
      if_true]
  · have hbit : lo.testBit i = false :=
      Nat.testBit_lt_two_pow (lt_of_lt_of_le hlo (Nat.pow_le_pow_right (by decide) (by omega)))
    have h₆ : i - 32 < 64 := by omega
    have h₃ : i - 32 < 32 := by omega
    simp only [h, hi', hbit, h₆, h₃, decide_true, decide_false, Bool.not_false, Bool.and_true, Bool.true_and,
      Bool.or_false, Bool.and_false, if_false]

lemma maskHi_lt (span : SegmentSpan) : maskHi span < 2 ^ 32 := by
  rw [maskHi, BitVec.toNat_ushiftRight, Nat.shiftRight_eq_div_pow]
  have := span.mask.isLt
  omega

lemma maskLo_lt (span : SegmentSpan) : maskLo span < 2 ^ 32 := by
  rw [maskLo, BitVec.toNat_and]
  exact lt_of_le_of_lt Nat.and_le_right (by decide)

lemma halves_mask (span : SegmentSpan) : halves (maskHi span) (maskLo span) = span.mask := by
  apply BitVec.eq_of_getLsbD_eq
  intro i hi
  rw [halves_eq (maskLo_lt span), BitVec.getLsbD_append, maskHi, maskLo, BitVec.getLsbD_ofNat, BitVec.getLsbD_ofNat]
  by_cases h : i < 32
  · have hlow : (0xFFFFFFFF#64).getLsbD i = true := by
      have hall : 0xFFFFFFFF#64 = (BitVec.allOnes 32).setWidth 64 := by decide
      rw [hall, BitVec.getLsbD_setWidth, BitVec.getLsbD_allOnes]
      simp [h, hi]
    simp only [h, if_true, decide_true, Bool.true_and, ← BitVec.getLsbD.eq_1, BitVec.getLsbD_and, hlow, Bool.and_true]
  · have h₃ : i - 32 < 32 := by omega
    have h₂ : 32 + (i - 32) = i := by omega
    simp only [h, if_false, h₃, decide_true, Bool.true_and, ← BitVec.getLsbD.eq_1, BitVec.getLsbD_ushiftRight, h₂]

lemma append_eq_zero {a b : BitVec 32} : (a ++ b : BitVec 64) = 0#64 ↔ a = 0#32 ∧ b = 0#32 := by
  constructor
  · intro h
    have hbit : ∀ i, (a ++ b : BitVec 64).getLsbD i = false := fun i => by rw [h, BitVec.getLsbD_zero]
    simp only [BitVec.getLsbD_append] at hbit
    constructor
    · apply BitVec.eq_of_getLsbD_eq
      intro i hi
      have := hbit (32 + i)
      rwa [if_neg (by omega), Nat.add_sub_cancel_left, ← BitVec.getLsbD_zero] at this
    · apply BitVec.eq_of_getLsbD_eq
      intro i hi
      have := hbit i
      rwa [if_pos hi, ← BitVec.getLsbD_zero] at this
  · rintro ⟨rfl, rfl⟩
    rfl

lemma bor_toInt (a : BitVec 32) (n : Nat) : bor a.toInt n = (a ||| BitVec.ofNat 32 n).toInt := by
  rw [bor, BitVec.ofInt_toInt, BitVec.ofInt_natCast]

lemma band_toInt (a : BitVec 32) (n : Nat) : band a.toInt n = 0 ↔ a &&& BitVec.ofNat 32 n = 0#32 := by
  rw [band, BitVec.ofInt_toInt, BitVec.ofInt_natCast, ← BitVec.toInt_inj, BitVec.toInt_zero]

lemma mask_ne_zero (span : SegmentSpan) : span.mask ≠ 0#64 := by
  intro h
  have hbit := span.getLsbD_mask span.fromIndex
  rw [h, span.covers_fromIndex] at hbit
  simp at hbit

/-! ### The script's loop -/

/-- A stored text and the hold it was written for. -/
def Written (text : String) (exp : Nat) (span : SegmentSpan) : Prop :=
  text = holdText exp (maskHi span) (maskLo span)

section Loop

variable {now exp : Nat} {text : String} {span : SegmentSpan}

lemma Written.readLua (h : Written text exp span) :
    readLua text = if exp < 10 ^ 14 then some (exp, maskHi span, maskLo span) else none := by
  rw [h, readLua_holdText]

lemma Written.liveMask (h : Written text exp span) :
    HoldStore.liveMask now text = if exp < 10 ^ 14 ∧ now < exp then span.mask else 0#64 := by
  unfold HoldStore.liveMask
  by_cases he : exp < 10 ^ 14
  · rw [h, readRust_holdText (maskHi_lt span) (maskLo_lt span) he]
    simp only [he, true_and, gt_iff_lt, Int.ofNat_lt]
    rw [← halves, halves_mask]
  · rw [h, readRust_scientific he, if_neg (fun hn => he hn.1)]

/-- A text determines the mask it was written for, and the expiry where it can be read. -/
lemma Written.mask_eq {exp' : Nat} {span' : SegmentSpan} (h : Written text exp span) (h' : Written text exp' span') :
    span'.mask = span.mask := by
  have hsplit : (holdText exp (maskHi span) (maskLo span)).toList.splitOn ':' = _ := splitOn_holdText
  rw [← h, h', splitOn_holdText] at hsplit
  obtain ⟨-, hhi, hlo⟩ : _ ∧ Nat.toDigits 10 (maskHi span') = Nat.toDigits 10 (maskHi span) ∧
      Nat.toDigits 10 (maskLo span') = Nat.toDigits 10 (maskLo span) := by
    simpa only [List.cons.injEq, and_true] using hsplit
  have hhi' := congrArg Text.digits hhi
  have hlo' := congrArg Text.digits hlo
  rw [Text.digits_toDigits, Text.digits_toDigits] at hhi' hlo'
  rw [← halves_mask, ← halves_mask, Option.some.inj hhi', Option.some.inj hlo']

lemma Written.exp_eq {exp' : Nat} {span' : SegmentSpan} (h : Written text exp span) (h' : Written text exp' span')
    (he : exp < 10 ^ 14) : exp' = exp := by
  have hr := h'.readLua
  rw [h.readLua, if_pos he] at hr
  split at hr
  · simp only [Option.some.injEq, Prod.mk.injEq] at hr
    exact hr.1.symm
  · cases hr

/-- Whether the script keeps a field. -/
def alive (now : Nat) (text : String) : Bool :=
  match Holds.readLua text with
  | some (exp, _, _) => decide (now < exp)
  | none => false

lemma Written.alive (h : Written text exp span) : alive now text = true ↔ exp < 10 ^ 14 ∧ now < exp := by
  unfold Proofs.alive
  rw [h.readLua]
  by_cases he : exp < 10 ^ 14
  · rw [if_pos he]
    simpa using fun _ => he
  · rw [if_neg he]
    constructor
    · intro h
      cases h
    · intro h
      exact absurd h.1 he

lemma liveUnion_foldl (fields : Hash) (u : BitVec 64) :
    fields.foldl (fun union f => union ||| HoldStore.liveMask now f.2) u = u ||| HoldStore.liveUnion now fields := by
  unfold HoldStore.liveUnion
  induction fields generalizing u with
  | nil => simp
  | cons f rest ih =>
    rw [List.foldl_cons, List.foldl_cons, ih, ih (0#64 ||| _), BitVec.zero_or, BitVec.or_assoc]

lemma liveUnion_cons (f : Uuid × String) (rest : Hash) :
    HoldStore.liveUnion now (f :: rest) = HoldStore.liveMask now f.2 ||| HoldStore.liveUnion now rest := by
  rw [HoldStore.liveUnion, List.foldl_cons, liveUnion_foldl, BitVec.zero_or]

/-- The union misses a mask exactly where every live hold does. -/
lemma liveUnion_and {fields : Hash} {m : BitVec 64} :
    HoldStore.liveUnion now fields &&& m = 0#64 ↔ ∀ f ∈ fields, HoldStore.liveMask now f.2 &&& m = 0#64 := by
  induction fields with
  | nil => simp [HoldStore.liveUnion]
  | cons f rest ih =>
    rw [liveUnion_cons, BitVec.and_or_distrib_right, BitVec.or_eq_zero_iff, ih, List.forall_mem_cons]

/-- The script's variables after the fields seen so far, next to what the reader makes of them. -/
structure Scanned (now ttl : Nat) (fields : Hash) (acc : Scan) : Prop where
  kept : acc.kept = fields.filter (fun f => alive now f.2)
  union : ∃ hi lo : BitVec 32, acc.unionHi = hi.toInt ∧ acc.unionLo = lo.toInt ∧
    HoldStore.liveUnion now fields = hi ++ lo
  maxExp : now + ttl ≤ acc.maxExp
  expiries : ∀ f ∈ acc.kept, ∀ exp span, Written f.2 exp span → exp ≤ acc.maxExp

lemma Scanned.field {ttl : Nat} {fields : Hash} {acc : Scan} {f : Uuid × String} (h : Scanned now ttl fields acc)
    (hf : Written f.2 exp span) : Scanned now ttl (fields ++ [f]) (Scan.field now acc f) := by
  have hunion : HoldStore.liveUnion now (fields ++ [f]) =
      HoldStore.liveUnion now fields ||| HoldStore.liveMask now f.2 := by
    rw [HoldStore.liveUnion, List.foldl_append]
    rfl
  by_cases hl : exp < 10 ^ 14 ∧ now < exp
  · have hstep : Scan.field now acc f =
        ⟨acc.kept ++ [f], bor acc.unionHi (maskHi span), bor acc.unionLo (maskLo span),
          if exp > acc.maxExp then exp else acc.maxExp⟩ := by
      unfold Scan.field
      rw [hf.readLua, if_pos hl.1]
      exact if_neg (by omega)
    have hmax : acc.maxExp ≤ (if exp > acc.maxExp then exp else acc.maxExp) ∧
        exp ≤ if exp > acc.maxExp then exp else acc.maxExp := by
      split <;> omega
    rw [hstep]
    refine ⟨?_, ?_, le_trans h.maxExp hmax.1, ?_⟩
    · simp [h.kept, hf.alive.mpr hl]
    · obtain ⟨hi, lo, hhi, hlo, hu⟩ := h.union
      refine ⟨hi ||| BitVec.ofNat 32 (maskHi span), lo ||| BitVec.ofNat 32 (maskLo span), ?_, ?_, ?_⟩
      · rw [hhi, bor_toInt]
      · rw [hlo, bor_toInt]
      · rw [hunion, hu, hf.liveMask, if_pos hl, ← halves_mask, halves_eq (maskLo_lt span), BitVec.or_append]
    · intro g hg exp' span' hw
      rcases List.mem_append.mp hg with hg | hg
      · exact le_trans (h.expiries g hg exp' span' hw) hmax.1
      · cases List.mem_singleton.mp hg
        rw [hf.exp_eq hw hl.1]
        exact hmax.2
  · have hstep : Scan.field now acc f = acc := by
      unfold Scan.field
      rw [hf.readLua]
      by_cases he : exp < 10 ^ 14
      · rw [if_pos he]
        exact if_pos (by omega)
      · rw [if_neg he]
    have hdead : alive now f.2 = false := by
      rw [← Bool.not_eq_true, hf.alive]
      exact hl
    rw [hstep]
    refine ⟨by simp [h.kept, hdead], ?_, h.maxExp, h.expiries⟩
    rw [hunion, hf.liveMask, if_neg hl, BitVec.or_zero]
    exact h.union

lemma scanned {ttl : Nat} {fields : Hash} (hf : ∀ f ∈ fields, ∃ exp span, Written f.2 exp span) :
    Scanned now ttl fields (scan now ttl fields) := by
  have hrun : ∀ (rest done : Hash) (acc : Scan), (∀ f ∈ rest, ∃ exp span, Written f.2 exp span) →
      Scanned now ttl done acc → Scanned now ttl (done ++ rest) (rest.foldl (Scan.field now) acc) := by
    intro rest
    induction rest with
    | nil => exact fun done acc _ h => by rw [List.append_nil]; exact h
    | cons f rest ih =>
      intro done acc hf h
      obtain ⟨exp, span, hw⟩ := hf f List.mem_cons_self
      have := ih (done ++ [f]) _ (fun g hg => hf g (List.mem_cons_of_mem f hg)) (h.field hw)
      rwa [List.append_assoc] at this
  refine hrun fields [] _ hf ⟨rfl, ⟨0#32, 0#32, rfl, rfl, rfl⟩, le_refl _, ?_⟩
  intro f hf
  cases hf

/-- The script admits a span exactly where the reader sees nothing in its way. -/
lemma Scanned.admits_iff {ttl : Nat} {fields : Hash} {acc : Scan} (h : Scanned now ttl fields acc) :
    admits acc (maskHi span) (maskLo span) = true ↔ HoldStore.liveUnion now fields &&& span.mask = 0#64 := by
  obtain ⟨hi, lo, hhi, hlo, hu⟩ := h.union
  rw [admits, Bool.and_eq_true, beq_iff_eq, beq_iff_eq, hhi, hlo, band_toInt, band_toInt, hu, ← halves_mask,
    halves_eq (maskLo_lt span), BitVec.and_append, append_eq_zero]

end Loop

/-! ### What a command does to the hashes -/

section Commands

variable {s : Redis} {trip unit : Uuid}

@[simp] lemma setUnit_units (s : Redis) (trip unit : Uuid) (key : Option (Key Hash)) (t u : Uuid) :
    (s.setUnit trip unit key).units t u = if t = trip ∧ u = unit then key else s.units t u := by
  unfold Redis.setUnit
  simp only
  by_cases ht : t = trip
  · subst ht
    rw [Function.update_self]
    by_cases hu : u = unit
    · rw [hu, Function.update_self, if_pos ⟨rfl, rfl⟩]
    · rw [Function.update_of_ne hu, if_neg (fun h => hu h.2)]
  · rw [Function.update_of_ne ht, if_neg (fun h => ht h.1)]

@[simp] lemma setIndex_units (s : Redis) (trip : Uuid) (key : Option (Key (List Uuid))) :
    (s.setIndex trip key).units = s.units := rfl

lemma get_eq_some {α : Type} {now : Nat} {key : Option (Key α)} {a : α} :
    Key.get now key = some a ↔ ∃ k, key = some k ∧ now ≤ k.expiresAt ∧ k.value = a := by
  cases key with
  | none => simp [Key.get]
  | some k => simp [Key.get]

lemma mem_hash {f : Uuid × String} :
    f ∈ s.hash trip unit ↔ ∃ k, s.units trip unit = some k ∧ s.now ≤ k.expiresAt ∧ f ∈ k.value := by
  unfold Redis.hash
  cases hg : Key.get s.now (s.units trip unit) with
  | none =>
    constructor
    · intro h
      cases h
    · rintro ⟨k, hk, hn, -⟩
      rw [get_eq_some.mpr ⟨k, hk, hn, rfl⟩] at hg
      cases hg
  | some fields =>
    obtain ⟨k, hk, hn, rfl⟩ := get_eq_some.mp hg
    constructor
    · exact fun h => ⟨k, hk, hn, h⟩
    · rintro ⟨k', hk', -, hf⟩
      rw [hk] at hk'
      cases hk'
      exact hf

lemma mem_hset {fields : Hash} {holdId : Uuid} {text : String} {f : Uuid × String}
    (h : f ∈ hset fields holdId text) : f = (holdId, text) ∨ f ∈ fields ∧ f.1 ≠ holdId := by
  unfold hset at h
  split at h
  · obtain ⟨g, hg, rfl⟩ := List.mem_map.mp h
    by_cases he : g.1 = holdId
    · rw [if_pos he]
      exact .inl rfl
    · rw [if_neg he]
      exact .inr ⟨hg, he⟩
  · rename_i hany
    rcases List.mem_append.mp h with h | h
    · by_cases he : f.1 = holdId
      · exact absurd (List.any_eq_true.mpr ⟨f, h, by simpa using he⟩) hany
      · exact .inr ⟨h, he⟩
    · exact .inl (List.mem_singleton.mp h)

lemma withFields_eq_some {key : Option (Key Hash)} {fields : Hash} {k' : Key Hash} (h : withFields key fields = some k') :
    ∃ k, key = some k ∧ k'.expiresAt = k.expiresAt ∧ k'.value = fields := by
  unfold withFields at h
  split at h
  · cases h
  · obtain ⟨k, hk, rfl⟩ := Option.map_eq_some_iff.mp h
    exact ⟨k, hk, rfl, rfl⟩

lemma pexpire_eq_some {α : Type} {value : α} {now ttl : Nat} {k : Key α} (h : pexpire value now ttl = some k) :
    k = ⟨value, now + ttl⟩ := by
  unfold pexpire at h
  split at h
  · cases h
  · exact (Option.some.inj h).symm

lemma scan_kept {now ttl : Nat} {fields : Hash} {f : Uuid × String} (h : f ∈ (scan now ttl fields).kept) :
    f ∈ fields := by
  have hfield : ∀ (acc : Scan) (g : Uuid × String), f ∈ (Scan.field now acc g).kept → f ∈ acc.kept ∨ f = g := by
    intro acc g hf
    unfold Scan.field at hf
    split at hf
    · exact .inl hf
    · split at hf
      · exact .inl hf
      · simpa using hf
  have hrun : ∀ (rest : Hash) (acc : Scan), f ∈ (rest.foldl (Scan.field now) acc).kept → f ∈ acc.kept ∨ f ∈ rest := by
    intro rest
    induction rest with
    | nil => exact fun acc hf => .inl hf
    | cons g rest ih =>
      intro acc hf
      rcases ih _ hf with hf | hf
      · rcases hfield acc g hf with hf | rfl
        · exact .inl hf
        · exact .inr List.mem_cons_self
      · exact .inr (List.mem_cons_of_mem g hf)
  rcases hrun fields _ h with hf | hf
  · cases hf
  · exact hf

lemma exec_now (command : Command) (s : Redis) : (command.exec s).2.now = s.now := by
  cases command <;> simp only [Command.exec, acquireScript] <;> (try split) <;> rfl

/-- What a unit's key can be after a command: what is left of the key before, or the key the
acquire script writes. -/
lemma exec_units {command : Command} {k' : Key Hash} (h : (command.exec s).2.units trip unit = some k') :
    (∃ k, s.units trip unit = some k ∧ k'.expiresAt = k.expiresAt ∧ k'.value ⊆ k.value) ∨
    ∃ now ttl holdId hi lo indexTtl, command = .acquire trip unit now ttl holdId hi lo indexTtl ∧
      admits (scan now ttl (s.hash trip unit)) hi lo = true ∧
      k' = ⟨hset (scan now ttl (s.hash trip unit)).kept holdId (holdText (now + ttl) hi lo),
        s.now + ((scan now ttl (s.hash trip unit)).maxExp - now)⟩ := by
  have hsame : s.units trip unit = some k' →
      ∃ k, s.units trip unit = some k ∧ k'.expiresAt = k.expiresAt ∧ k'.value ⊆ k.value :=
    fun hk => ⟨k', hk, rfl, List.Subset.refl _⟩
  have hleft : ∀ fields : Hash, fields ⊆ s.hash trip unit → withFields (s.units trip unit) fields = some k' →
      ∃ k, s.units trip unit = some k ∧ k'.expiresAt = k.expiresAt ∧ k'.value ⊆ k.value := by
    intro fields hsub hk
    obtain ⟨k, hk, hexp, hv⟩ := withFields_eq_some hk
    refine ⟨k, hk, hexp, fun f hf => ?_⟩
    rw [hv] at hf
    obtain ⟨k₁, hk₁, -, hf⟩ := mem_hash.mp (hsub hf)
    rw [hk] at hk₁
    cases hk₁
    exact hf
  cases command with
  | acquire t u now ttl holdId hi lo indexTtl =>
    simp only [Command.exec, acquireScript] at h
    by_cases hadm : admits (scan now ttl (s.hash t u)) hi lo = true
    · simp only [if_pos hadm, setIndex_units, setUnit_units] at h
      split at h
      · rename_i he
        obtain ⟨rfl, rfl⟩ := he
        exact .inr ⟨now, ttl, holdId, hi, lo, indexTtl, rfl, hadm, pexpire_eq_some h⟩
      · exact .inl (hsame h)
    · simp only [if_neg hadm, setUnit_units] at h
      split at h
      · rename_i he
        obtain ⟨rfl, rfl⟩ := he
        exact .inl (hleft _ (fun f hf => scan_kept hf) h)
      · exact .inl (hsame h)
  | hdel t u holdId =>
    simp only [Command.exec, setUnit_units] at h
    split at h
    · rename_i he
      obtain ⟨rfl, rfl⟩ := he
      exact .inl (hleft _ (fun f hf => List.mem_of_mem_filter hf) h)
    · exact .inl (hsame h)
  | getRegistry holdId =>
    simp only [Command.exec] at h
    split at h <;> exact .inl (hsame h)
  | getItinerary holdId =>
    simp only [Command.exec] at h
    split at h <;> exact .inl (hsame h)
  | setRegistry holdId t u ttl =>
    simp only [Command.exec] at h
    split at h <;> exact .inl (hsame h)
  | setItinerary holdId members ttl =>
    simp only [Command.exec] at h
    split at h <;> exact .inl (hsame h)
  | _ => exact .inl (hsame h)

end Commands

end Lulan.Proofs
