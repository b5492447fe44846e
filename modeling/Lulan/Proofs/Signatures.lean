import Lulan.Engine.Signature
import Lulan.Proofs.Callbacks

/-!
# Signature headers with a timestamp

What a header that `verify_signature` of the payment providers accepts says about its age, and
how that check and the one of the webhook deliveries agree on the headers `signature` makes.
-/

namespace Lulan.Proofs

open Http (Bytes HeaderFormat Libraries Webhook asBytes constantTimeEq encodeDigest parseI64 readHeader stale
  stripe)

section Age

variable {now timestamp tolerance : Int64}

/-- The age as the engine computes it, in words of 64 bits. -/
lemma abs_toInt (x : Int64) : x.abs.toInt = if x.toInt = -2 ^ 63 then -2 ^ 63 else |x.toInt| := by
  have hbits : x.abs.toInt = x.toBitVec.abs.toInt := rfl
  rw [hbits, BitVec.toInt_abs_eq_natAbs]
  by_cases h : x.toBitVec = BitVec.intMin 64
  · have hmin : x.toInt = -2 ^ 63 := congrArg BitVec.toInt h
    rw [if_pos h, if_pos hmin]
    rfl
  · have hmin : x.toInt ≠ -2 ^ 63 := fun heq => h (BitVec.eq_of_toInt_eq heq)
    rw [if_neg h, if_neg hmin, Int.abs_eq_natAbs]
    rfl

/-- The difference of the two times neither wraps around into the tolerance nor has no absolute
value. -/
def AgeFits (now timestamp tolerance : Int64) : Prop :=
  |now.toInt - timestamp.toInt| < 2 ^ 63 ∨
    2 ^ 63 < |now.toInt - timestamp.toInt| ∧ |now.toInt - timestamp.toInt| < 2 ^ 64 - tolerance.toInt

/-- What the comparison with the tolerance decides, over true integers. -/
lemma age_iff (hpos : 0 < tolerance.toInt) :
    ¬(now - timestamp).abs > tolerance ↔
      |now.toInt - timestamp.toInt| ≤ tolerance.toInt ∨ ¬AgeFits now timestamp tolerance := by
  have hn := now.le_toInt
  have hn' := now.toInt_lt
  have ht := timestamp.le_toInt
  have ht' := timestamp.toInt_lt
  have htol := tolerance.toInt_lt
  have hage : (now - timestamp).toInt = (now.toInt - timestamp.toInt).bmod (2 ^ 64) :=
    Int64.toInt_sub now timestamp
  have hlow : -2 ^ 64 < now.toInt - timestamp.toInt := by omega
  have hhigh : now.toInt - timestamp.toInt < 2 ^ 64 := by omega
  rw [gt_iff_lt, Int64.lt_iff_toInt_lt, abs_toInt, hage, AgeFits]
  generalize now.toInt - timestamp.toInt = d at hlow hhigh ⊢
  have hwrapped : d.bmod (2 ^ 64) = d ∨ d.bmod (2 ^ 64) = d - 2 ^ 64 ∨ d.bmod (2 ^ 64) = d + 2 ^ 64 := by
    rw [Int.bmod_def]
    omega
  have hrange : -2 ^ 63 ≤ d.bmod (2 ^ 64) ∧ d.bmod (2 ^ 64) < 2 ^ 63 := by
    rw [Int.bmod_def]
    omega
  generalize d.bmod (2 ^ 64) = w at hwrapped hrange ⊢
  rw [abs_eq_max_neg, abs_eq_max_neg]
  by_cases hw : w = -2 ^ 63
  · rw [if_pos hw]
    omega
  · rw [if_neg hw]
    omega

end Age

section Text

/-- A text that trimming leaves as it is and that no comma splits. -/
def Plain (s : List Char) : Prop := ∀ c ∈ s, c ≠ ',' ∧ isWhite c = false

lemma trim_plain {s : List Char} (h : Plain s) : trim (String.ofList s) = String.ofList s := by
  have hdrop : ∀ l : List Char, Plain l → l.dropWhile isWhite = l := by
    intro l hl
    cases l with
    | nil => rfl
    | cons c l => rw [List.dropWhile_cons_of_neg (by simp [(hl c List.mem_cons_self).2])]
  rw [trim, String.toList_ofList, hdrop s h, hdrop _ (fun c hc => h c (List.mem_reverse.mp hc)),
    List.reverse_reverse]

lemma plain_digitChar : ∀ n < 16, Nat.digitChar n ≠ ',' ∧ isWhite (Nat.digitChar n) = false := by decide

lemma plain_hex (bytes : Bytes) : Plain (bytes.flatMap Http.hexByte) := by
  intro c hc
  obtain ⟨b, -, hc⟩ := List.mem_flatMap.mp hc
  have hb := b.toNat_lt
  rcases List.mem_cons.mp hc with rfl | hc
  · exact plain_digitChar _ (by omega)
  · rw [List.mem_singleton.mp hc]
    exact plain_digitChar _ (by omega)

lemma plain_digit {c : Char} (h : c.isDigit = true) : c ≠ ',' ∧ isWhite c = false := by
  obtain ⟨hlow, hhigh⟩ := Char.isDigit_iff_toNat.mp h
  have hlow : 48 ≤ c.toNat := hlow
  have hhigh : c.toNat ≤ 57 := hhigh
  constructor
  · rintro rfl
    revert hlow
    decide
  · simp only [isWhite, Bool.or_eq_false_iff, Bool.and_eq_false_iff, decide_eq_false_iff_not, beq_eq_false_iff_ne]
    omega

lemma plain_toString (n : Int) : Plain (toString n).toList := by
  intro c hc
  rcases mem_toString_int hc with rfl | hd
  · decide
  · exact plain_digit hd

lemma parseI64_toString (ts : Int64) : parseI64 (toString ts.toInt) = some ts := by
  have hparse : Lib.Text.parseSigned (toString ts.toInt).toList = some ts.toInt := by
    generalize ts.toInt = n
    cases n with
    | ofNat m =>
      have hrepr : (toString (Int.ofNat m)).toList = Nat.toDigits 10 m := Nat.toList_repr
      rw [hrepr, Lib.Text.parseSigned_toDigits]
      rfl
    | negSucc m =>
      have hrepr : (toString (Int.negSucc m)).toList = '-' :: Nat.toDigits 10 (m + 1) := by
        have happend : (toString (Int.negSucc m)).toList = ("-" ++ (m + 1).repr).toList := rfl
        rw [happend, String.toList_append, Nat.toList_repr]
        rfl
      rw [hrepr, Lib.Text.parseSigned, Lib.Text.digits_toDigits]
      rfl
  rw [parseI64, hparse, Option.bind_some, if_pos ⟨ts.le_toInt, ts.toInt_lt⟩, Int64.ofInt_toInt]

end Text

section Accepted

variable {lib : Libraries} {webhook : Webhook} {secret header : String} {body : Bytes} {now : Int64}

/-- Accepted are exactly the signed headers that are not stale. -/
lemma verifySignature_iff : Http.verifySignature lib webhook secret header body now = .ok () ↔
    Signed lib webhook secret header body ∧
      stale webhook now (headerTimestamp webhook.headerFormat header) = false := by
  constructor
  · intro h
    refine ⟨verifySignature_sound h, ?_⟩
    rw [Http.verifySignature] at h
    simp only [readHeader_timestamp] at h
    by_contra hs
    rw [Bool.not_eq_false] at hs
    rw [hs] at h
    split at h
    · cases h
    · cases h
  · rintro ⟨⟨candidate, mac, hc, hmac, rfl⟩, hs⟩
    have hmem := readHeader_candidates.mpr hc
    have hany : (readHeader webhook.headerFormat header).2.any
        (fun candidate => constantTimeEq (trim candidate) (encodeDigest lib webhook.encoding mac)) = true := by
      apply List.any_eq_true.mpr
      refine ⟨_, hmem, ?_⟩
      rw [constantTimeEq_iff, hc.trimmed]
    have hempty : (readHeader webhook.headerFormat header).2.isEmpty = false := by
      rw [List.isEmpty_eq_false_iff]
      exact List.ne_nil_of_mem hmem
    rw [Http.verifySignature]
    simp only [hempty, readHeader_timestamp, hs, signedPayloadBytes_eq, hmac, hany,
      Bool.false_eq_true, if_false, if_true]

lemma stale_eq_false (hpos : 0 < webhook.toleranceSeconds.toInt) {timestamp : Option Int64} :
    stale webhook now timestamp = false ↔
      ∀ ts ∈ timestamp, |now.toInt - ts.toInt| ≤ webhook.toleranceSeconds.toInt ∨
        ¬AgeFits now ts webhook.toleranceSeconds := by
  have hgt : decide (webhook.toleranceSeconds > 0) = true := by
    apply decide_eq_true
    rw [gt_iff_lt, Int64.lt_iff_toInt_lt]
    exact hpos
  rw [stale, hgt, Bool.true_and, Option.any_eq_false]
  constructor
  · intro h ts hts
    exact (age_iff hpos).mp (by simpa using h ts hts)
  · intro h ts hts
    simpa using (age_iff hpos).mpr (h ts hts)

/-- An accepted header offers the signature of the payload filled with its timestamp, 0 where it
has none that is a number; and the timestamp it has is fresh, unless its age leaves the words of
64 bits. -/
theorem accepted_fresh (lib : Libraries) (webhook : Webhook) (secret header : String) (body : Bytes) (now : Int64)
    (hpos : 0 < webhook.toleranceSeconds.toInt)
    (haccepted : Http.verifySignature lib webhook secret header body now = .ok ()) :
    Signed lib webhook secret header body ∧
      ∀ ts, headerTimestamp webhook.headerFormat header = some ts → |now.toInt - ts.toInt| < 2 ^ 63 →
        |now.toInt - ts.toInt| ≤ webhook.toleranceSeconds.toInt := by
  obtain ⟨hsigned, hs⟩ := verifySignature_iff.mp haccepted
  refine ⟨hsigned, ?_⟩
  intro ts hts hlt
  rcases (stale_eq_false hpos).mp hs ts hts with hfresh | hwrap
  · exact hfresh
  · exact absurd (Or.inl hlt) hwrap

end Accepted

section Agreement

variable {hmac : Bytes → Bytes → Bytes} {secret header body : String} {ts now : Int64}

/-- What `signature` writes behind `v1=`. -/
def macTag (hmac : Bytes → Bytes → Bytes) (secret : String) (ts : Int64) (body : String) : List Char :=
  (hmac (asBytes secret) (asBytes (toString ts.toInt ++ "." ++ body))).flatMap Http.hexByte

lemma signature_toList (hmac : Bytes → Bytes → Bytes) (secret : String) (ts : Int64) (body : String) :
    (Webhooks.signature hmac secret ts body).toList =
      ('t' :: '=' :: (toString ts.toInt).toList) ++ ',' :: 'v' :: '1' :: '=' :: macTag hmac secret ts body := by
  simp only [Webhooks.signature, Webhooks.hex, String.toList_append, String.toList_ofList, List.append_assoc]
  rfl

lemma splitOn_signature (hmac : Bytes → Bytes → Bytes) (secret : String) (ts : Int64) (body : String) :
    (Webhooks.signature hmac secret ts body).toList.splitOn ',' =
      ['t' :: '=' :: (toString ts.toInt).toList, 'v' :: '1' :: '=' :: macTag hmac secret ts body] := by
  have hfirst : ',' ∉ 't' :: '=' :: (toString ts.toInt).toList := by
    intro hc
    simp only [List.mem_cons, Char.reduceEq, false_or] at hc
    exact (plain_toString _ _ hc).1 rfl
  have hsecond : ',' ∉ 'v' :: '1' :: '=' :: macTag hmac secret ts body := by
    intro hc
    simp only [List.mem_cons, Char.reduceEq, false_or] at hc
    exact (plain_hex _ _ hc).1 rfl
  rw [signature_toList, List.splitOn_append_cons_self_of_not_mem hfirst, List.splitOn_eq_singleton hsecond]

lemma splitOnce_t (v : List Char) : Lib.Text.splitOnce '=' ('t' :: '=' :: v) = some (['t'], v) :=
  Lib.Text.splitOnce_append (a := ['t']) (by decide)

lemma splitOnce_v1 (v : List Char) : Lib.Text.splitOnce '=' ('v' :: '1' :: '=' :: v) = some (['v', '1'], v) :=
  Lib.Text.splitOnce_append (a := ['v', '1']) (by decide)

/-! ### The receiver of a delivery -/

/-- The values a header gives under a key. -/
def valuesOf (key : List Char) (header : String) : List (List Char) :=
  (header.toList.splitOn ',').filterMap (fun part =>
    (Lib.Text.splitOnce '=' part).bind (fun p => if p.1 = key then some p.2 else none))

lemma foldl_readPart (parts : List (List Char)) :
    parts.foldl Webhooks.readPart (none, none) =
      (((parts.filterMap (fun part =>
          (Lib.Text.splitOnce '=' part).bind (fun p => if p.1 = ['t'] then some p.2 else none))).getLast?).bind
        (fun v => parseI64 (String.ofList v)),
      (parts.filterMap (fun part =>
        (Lib.Text.splitOnce '=' part).bind (fun p => if p.1 = ['v', '1'] then some p.2 else none))).getLast?) := by
  induction parts using List.reverseRecOn with
  | nil => rfl
  | append_singleton parts part ih =>
    rw [List.foldl_append, List.foldl_cons, List.foldl_nil, ih, List.filterMap_append, List.filterMap_append]
    cases h : Lib.Text.splitOnce '=' part with
    | none => simp [Webhooks.readPart, h]
    | some p =>
      obtain ⟨key, v⟩ := p
      by_cases ht : key = ['t']
      · subst ht
        simp [Webhooks.readPart, h]
      · by_cases hv : key = ['v', '1']
        · subst hv
          simp [Webhooks.readPart, h]
        · simp [Webhooks.readPart, h, ht, hv]

lemma signature_eq_iff (sig : List Char) :
    Webhooks.signature hmac secret ts body = "t=" ++ toString ts.toInt ++ ",v1=" ++ String.ofList sig ↔
      sig = macTag hmac secret ts body := by
  have hsig : "t=" ++ toString ts.toInt ++ ",v1=" ++ String.ofList (macTag hmac secret ts body) =
      Webhooks.signature hmac secret ts body := rfl
  rw [← hsig]
  constructor
  · intro h
    have hlist := String.ofList_injective (String.append_right_inj _ |>.mp h)
    exact hlist.symm
  · rintro rfl
    rfl

/-- The receiver accepts exactly the headers whose last `v1` is the tag of their last `t` and the
body. -/
lemma verifySignature_values : Webhooks.verifySignature hmac secret header body = true ↔
    ∃ v ts, (valuesOf ['t'] header).getLast? = some v ∧ parseI64 (String.ofList v) = some ts ∧
      (valuesOf ['v', '1'] header).getLast? = some (macTag hmac secret ts body) := by
  have hread : (header.toList.splitOn ',').foldl Webhooks.readPart (none, none) =
      ((valuesOf ['t'] header).getLast?.bind (fun v => parseI64 (String.ofList v)),
        (valuesOf ['v', '1'] header).getLast?) := foldl_readPart _
  rw [Webhooks.verifySignature, hread]
  cases ht : (valuesOf ['t'] header).getLast? with
  | none => simp
  | some v =>
    cases hts : parseI64 (String.ofList v) with
    | none => simp [hts]
    | some ts =>
      cases hv : (valuesOf ['v', '1'] header).getLast? with
      | none => simp
      | some sig =>
        simp only [Option.bind_some, hts, constantTimeEq_iff, signature_eq_iff, Option.some.injEq]
        constructor
        · intro hsig
          exact ⟨v, ts, rfl, hts, hsig⟩
        · rintro ⟨v', ts', rfl, hts', hsig⟩
          cases hts.symm.trans hts'
          exact hsig

/-! ### The check of the payment providers -/

lemma keyValues_signature (hmac : Bytes → Bytes → Bytes) (secret : String) (ts : Int64) (body : String) :
    keyValues (Webhooks.signature hmac secret ts body) =
      [("t", toString ts.toInt), ("v1", String.ofList (macTag hmac secret ts body))] := by
  have ht : trim (String.ofList ['t']) = "t" := by decide
  have hv : trim (String.ofList ['v', '1']) = "v1" := by decide
  have hts : trim (String.ofList (toString ts.toInt).toList) = toString ts.toInt := by
    rw [trim_plain (plain_toString _), String.ofList_toList]
  rw [keyValues, splitOn_signature, List.filterMap_cons, splitOnce_t, List.filterMap_cons, splitOnce_v1]
  simp only [Option.map_some, List.filterMap_nil, ht, hv, hts, macTag, trim_plain (plain_hex _)]

lemma headerTimestamp_stripe (header : String) : headerTimestamp stripe.headerFormat header =
    ((keyValues header).filter (fun pair => some pair.1 = some "t")).getLast?.bind
      (fun pair => parseI64 pair.2) := rfl

lemma headerTimestamp_signature (hmac : Bytes → Bytes → Bytes) (secret : String) (ts : Int64) (body : String) :
    headerTimestamp stripe.headerFormat (Webhooks.signature hmac secret ts body) = some ts := by
  have hfilter : ([("t", toString ts.toInt), ("v1", String.ofList (macTag hmac secret ts body))].filter
      (fun pair => some pair.1 = some "t")) = [("t", toString ts.toInt)] := by
    simp
  rw [headerTimestamp_stripe, keyValues_signature, hfilter, List.getLast?_singleton,
    Option.bind_some, parseI64_toString]

lemma instantiate_stripe (ts : Int64) (body : String) :
    instantiate stripe.signedPayload ts (asBytes body) = asBytes (toString ts.toInt ++ "." ++ body) := by
  have hpieces : pieces 0 stripe.signedPayload.toList = [.timestamp, .lit '.', .body] := by decide
  rw [instantiate, hpieces]
  simp only [List.flatMap_cons, List.flatMap_nil, Piece.bytes, asBytes, String.toList_append, List.flatMap_append,
    List.append_nil, List.append_assoc]
  rfl

lemma v1_ne_t : ¬"v1" = "t" := by decide

lemma signed_signature {lib : Libraries}
    (hlib : ∀ key message, lib.hmac .sha256 key message = some (hmac key message)) :
    Signed lib stripe secret (Webhooks.signature hmac secret ts body) (asBytes body) := by
  refine ⟨String.ofList (macTag hmac secret ts body), _, ?_, hlib _ _, ?_⟩
  · refine ⟨("v1", String.ofList (macTag hmac secret ts body)), ?_, rfl,
      fun heq => v1_ne_t (Option.some.inj heq), rfl⟩
    rw [keyValues_signature]
    exact List.mem_cons_of_mem _ List.mem_cons_self
  · rw [headerTimestamp_signature, Option.getD_some, instantiate_stripe]
    rfl

/-- When the payment adapter accepts the header of a delivery. -/
lemma preset_iff {lib : Libraries}
    (hlib : ∀ key message, lib.hmac .sha256 key message = some (hmac key message)) :
    Http.verifySignature lib stripe secret (Webhooks.signature hmac secret ts body) (asBytes body) now = .ok () ↔
      |now.toInt - ts.toInt| ≤ 300 ∨ ¬AgeFits now ts 300 := by
  have hstale : stale stripe now (some ts) = false ↔
      ∀ stamp ∈ some ts, |now.toInt - stamp.toInt| ≤ stripe.toleranceSeconds.toInt ∨
        ¬AgeFits now stamp stripe.toleranceSeconds := stale_eq_false (by decide)
  rw [verifySignature_iff, and_iff_right (signed_signature hlib), headerTimestamp_signature, hstale]
  simp only [Option.mem_def, Option.some.injEq, forall_eq']
  rfl

/-- The three statements of the scheme about one delivery: its receiver accepts the header, the
payment adapter does so exactly for five minutes, and a header the receiver accepts carries the
macTag of its own timestamp. -/
structure Agrees (hmac : Bytes → Bytes → Bytes) (lib : Libraries) (secret : String) (ts : Int64) (body : String)
    (now : Int64) : Prop where
  own : Webhooks.verifySignature hmac secret (Webhooks.signature hmac secret ts body) body = true
  preset : Http.verifySignature lib stripe secret (Webhooks.signature hmac secret ts body) (asBytes body) now =
    .ok () ↔ |now.toInt - ts.toInt| ≤ 300
  carried : ∀ header, Webhooks.verifySignature hmac secret header body = true →
    ∃ v last, (valuesOf ['t'] header).getLast? = some v ∧ parseI64 (String.ofList v) = some last ∧
      macTag hmac secret last body ∈ valuesOf ['v', '1'] header

lemma verifySignature_signature :
    Webhooks.verifySignature hmac secret (Webhooks.signature hmac secret ts body) body = true := by
  have hvalues : ∀ key, valuesOf key (Webhooks.signature hmac secret ts body) =
      [(['t'], (toString ts.toInt).toList), (['v', '1'], macTag hmac secret ts body)].filterMap
        (fun p => if p.1 = key then some p.2 else none) := by
    intro key
    rw [valuesOf, splitOn_signature]
    rw [List.filterMap_cons, splitOnce_t, List.filterMap_cons, splitOnce_v1]
    rfl
  apply verifySignature_values.mpr
  refine ⟨(toString ts.toInt).toList, ts, ?_, ?_, ?_⟩
  · rw [hvalues]
    rfl
  · rw [String.ofList_toList, parseI64_toString]
  · rw [hvalues]
    rfl

/-- The two checks agree on the age exactly where the difference of the times does not leave the
words of 64 bits. -/
theorem agrees_iff (hmac : Bytes → Bytes → Bytes) (lib : Libraries)
    (hlib : ∀ key message, lib.hmac .sha256 key message = some (hmac key message)) (secret : String) (ts : Int64)
    (body : String) (now : Int64) : Agrees hmac lib secret ts body now ↔ AgeFits now ts 300 := by
  constructor
  · intro h
    by_contra hwrap
    have hfresh := h.preset.mp ((preset_iff hlib).mpr (Or.inr hwrap))
    exact hwrap (Or.inl (by omega))
  · intro hwrap
    refine ⟨verifySignature_signature, ?_, ?_⟩
    · rw [preset_iff hlib]
      exact or_iff_left (not_not_intro hwrap)
    · intro header h
      obtain ⟨v, last, hv, hlast, htag⟩ := verifySignature_values.mp h
      exact ⟨v, last, hv, hlast, List.mem_of_getLast? htag⟩

/-- HMAC-SHA256 of an empty object under `whsec`, dated 0. -/
def untimedMac : Bytes :=
  [214, 51, 228, 28, 107, 202, 34, 239, 250, 71, 153, 106, 209, 237, 87, 172, 255, 138, 95, 193, 21, 253, 216, 189,
    132, 189, 71, 119, 178, 34, 130, 116]

/-- The same, dated 1767225540. -/
def timedMac : Bytes :=
  [58, 122, 53, 2, 187, 11, 149, 244, 98, 96, 159, 30, 4, 151, 14, 62, 255, 19, 77, 84, 6, 149, 253, 14, 144, 113,
    211, 178, 157, 101, 150, 52]

/-- A function that is HMAC-SHA256 on the two. -/
def knownHmac (secret signed : Bytes) : Bytes :=
  if secret = asBytes "whsec" ∧ signed = asBytes "0.\x7b\x7d" then untimedMac
  else if secret = asBytes "whsec" ∧ signed = asBytes "1767225540.\x7b\x7d" then timedMac
  else []

/-- Crates whose HMAC is that function. -/
def knownCrates : Libraries where
  Json := Unit
  fromSlice _ := .ok ()
  pointer _ _ := none
  asStr _ := none
  hmac _ key message := some (knownHmac key message)
  base64 _ := ""

theorem agrees_iff_minute : Agrees knownHmac knownCrates "whsec" 1767225540 "\x7b\x7d" 1767225600 :=
  (agrees_iff knownHmac knownCrates (fun _ _ => rfl) "whsec" 1767225540 "\x7b\x7d" 1767225600).mpr
    (by unfold AgeFits; decide)

/-- A delivery dated `2 ^ 63` seconds ago is fresh: its age is the one word without an absolute
value. -/
theorem ancient_accepted : ¬∀ (hmac : Bytes → Bytes → Bytes) (lib : Libraries),
    (∀ key message, lib.hmac .sha256 key message = some (hmac key message)) →
    ∀ secret ts body now, Agrees hmac lib secret ts body now := by
  intro h
  have hlib : ∀ key message, knownCrates.hmac .sha256 key message = some (knownHmac key message) := fun _ _ => rfl
  have hagrees := h knownHmac knownCrates hlib "whsec" (-9223372035087550208) "\x7b\x7d" 1767225600
  have hold := hagrees.preset.mp ((preset_iff hlib).mpr (Or.inr (by unfold AgeFits; decide)))
  exact absurd hold (by decide)

end Agreement

section Untimed

/-- A header with that signature and nothing else. -/
def untimedHeader : String := "v1=" ++ Webhooks.hex untimedMac

lemma keyValues_untimed : keyValues untimedHeader = [("v1", Webhooks.hex untimedMac)] := by
  have hlist : untimedHeader.toList = 'v' :: '1' :: '=' :: untimedMac.flatMap Http.hexByte := by
    rw [untimedHeader, String.toList_append, Webhooks.hex, String.toList_ofList]
    rfl
  have hcomma : ',' ∉ 'v' :: '1' :: '=' :: untimedMac.flatMap Http.hexByte := by
    intro hc
    simp only [List.mem_cons, Char.reduceEq, false_or] at hc
    exact (plain_hex _ _ hc).1 rfl
  have hv : trim (String.ofList ['v', '1']) = "v1" := by decide
  rw [keyValues, hlist, List.splitOn_eq_singleton hcomma, List.filterMap_cons, splitOnce_v1]
  simp only [Option.map_some, List.filterMap_nil, hv, Webhooks.hex, trim_plain (plain_hex _)]

lemma headerTimestamp_untimed : headerTimestamp stripe.headerFormat untimedHeader = none := by
  rw [headerTimestamp_stripe, keyValues_untimed, List.filter_cons_of_neg (by decide)]
  rfl

lemma untimed_ok :
    Http.verifySignature knownCrates stripe "whsec" untimedHeader (asBytes "\x7b\x7d") 1767225600 =
      .ok () := by
  apply verifySignature_iff.mpr
  refine ⟨⟨Webhooks.hex untimedMac, untimedMac, ?_, ?_, rfl⟩, ?_⟩
  · refine ⟨("v1", Webhooks.hex untimedMac), ?_, rfl, fun heq => v1_ne_t (Option.some.inj heq), rfl⟩
    rw [keyValues_untimed]
    exact List.mem_cons_self
  · rw [headerTimestamp_untimed, Option.getD_none, instantiate_stripe]
    decide
  · rw [headerTimestamp_untimed]
    rfl

/-- The header of a delivery a minute ago. -/
def timedHeader : String := Webhooks.signature knownHmac "whsec" 1767225540 "\x7b\x7d"

lemma timed_ok :
    Http.verifySignature knownCrates stripe "whsec" timedHeader (asBytes "\x7b\x7d") 1767225600 = .ok () :=
  (preset_iff (fun _ _ => rfl)).mpr (.inl (by decide))

/-- Either header is signed, and the one that is dated is fresh. -/
theorem accepted_fresh_untimed : Signed knownCrates stripe "whsec" untimedHeader (asBytes "\x7b\x7d") ∧
    Signed knownCrates stripe "whsec" timedHeader (asBytes "\x7b\x7d") ∧
    headerTimestamp stripe.headerFormat timedHeader = some 1767225540 ∧
    |(1767225600 : Int64).toInt - (1767225540 : Int64).toInt| ≤ stripe.toleranceSeconds.toInt := by
  obtain ⟨hsigned, -⟩ := accepted_fresh knownCrates stripe "whsec" untimedHeader (asBytes "\x7b\x7d") 1767225600
    (by decide) untimed_ok
  obtain ⟨hsigned', hfresh⟩ := accepted_fresh knownCrates stripe "whsec" timedHeader (asBytes "\x7b\x7d")
    1767225600 (by decide) timed_ok
  have hdated : headerTimestamp stripe.headerFormat timedHeader = some 1767225540 := headerTimestamp_signature ..
  exact ⟨hsigned, hsigned', hdated, hfresh _ hdated (by decide)⟩

/-- A header without a timestamp is accepted where it signs the payload filled with 0. -/
theorem untimed_accepted : ¬∀ (lib : Libraries) (webhook : Webhook) (secret header : String) (body : Bytes)
    (now : Int64),
    (∃ timestampKey signatureKey, webhook.headerFormat = .keyValue (some timestampKey) signatureKey) →
    Http.timestampMarker <:+: webhook.signedPayload.toList → 0 < webhook.toleranceSeconds.toInt →
    Http.verifySignature lib webhook secret header body now = .ok () →
    ∃ ts, headerTimestamp webhook.headerFormat header = some ts ∧
      |now.toInt - ts.toInt| ≤ webhook.toleranceSeconds.toInt ∧ Signed lib webhook secret header body := by
  intro h
  obtain ⟨ts, hts, -⟩ := h knownCrates stripe "whsec" untimedHeader (asBytes "\x7b\x7d") 1767225600
    ⟨"t", "v1", rfl⟩ (by decide) (by decide) untimed_ok
  rw [headerTimestamp_untimed] at hts
  cases hts

end Untimed

end Lulan.Proofs
