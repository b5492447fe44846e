import Mathlib.Data.List.DropRight
import Lulan.Payments.Http
import Lulan.Proofs.Payments

/-!
# Provider callbacks

An event is reported only for a body whose signature was computed under the secret, over the
payload template filled with exactly that body; and when the webhook endpoint hands the
configured header to the adapter.
-/

namespace Lulan.Proofs

open Http (Bytes HeaderFormat HeaderMap HttpProvider Libraries Webhook asBytes bodyMarker callbackEvent constantTimeEq
  encodeDigest offered parseI64 readHeader readPart signatureHeader signedPayloadBytes suspect timestampMarker toStr)

section Template

/-- A part of a signed-payload template. -/
inductive Piece where
  | lit (c : Char)
  | timestamp
  | body
deriving DecidableEq

/-- The template as a sequence of parts; `skip` counts the characters of a marker being passed over. -/
def pieces : Nat → List Char → List Piece
  | _, [] => []
  | skip + 1, _ :: rest => pieces skip rest
  | 0, c :: rest =>
    if timestampMarker <+: c :: rest then .timestamp :: pieces (timestampMarker.length - 1) rest
    else if bodyMarker <+: c :: rest then .body :: pieces (bodyMarker.length - 1) rest
    else .lit c :: pieces 0 rest

def Piece.bytes (timestamp : Int64) (body : Bytes) : Piece → Bytes
  | .lit c => String.utf8EncodeChar c
  | .timestamp => asBytes (toString timestamp.toInt)
  | .body => body

/-- The template with the timestamp and the raw body in their places. -/
def instantiate (template : String) (timestamp : Int64) (body : Bytes) : Bytes :=
  (pieces 0 template.toList).flatMap (Piece.bytes timestamp body)

/-- The bytes of a text. -/
def utf8 (s : List Char) : Bytes := s.flatMap String.utf8EncodeChar

lemma utf8_toByteArray (s : List Char) : (utf8 s).toByteArray = s.utf8Encode := rfl

lemma utf8_append (s t : List Char) : utf8 (s ++ t) = utf8 s ++ utf8 t := List.flatMap_append

lemma utf8_isPrefix {s t : List Char} : utf8 s <+: utf8 t ↔ s <+: t := by
  constructor
  · rintro ⟨b, hb⟩
    refine List.isPrefix_of_utf8Encode_append_eq_utf8Encode b.toByteArray ?_
    rw [← utf8_toByteArray, ← utf8_toByteArray, ← hb]
    simp
  · rintro ⟨r, rfl⟩
    rw [utf8_append]
    exact List.prefix_append _ _

lemma utf8_injective {s t : List Char} (h : utf8 s = utf8 t) : s = t :=
  (utf8_isPrefix.mp (h ▸ List.prefix_rfl)).eq_of_length_le
    (utf8_isPrefix.mp (h ▸ List.prefix_rfl : utf8 t <+: utf8 s)).length_le

lemma asBytes_injective {a b : String} (h : asBytes a = asBytes b) : a = b :=
  String.toList_inj.mp (utf8_injective h)

/-- Only the ASCII character itself is encoded with its byte. -/
lemma toNat_of_mem_ascii {c : Char} {b : Nat} (hb : b < 0x80) (h : UInt8.ofNat b ∈ String.utf8EncodeChar c) :
    c.val.toNat = b := by
  have hbyte {n : Nat} (hn : n < 256) (he : UInt8.ofNat b = UInt8.ofNat n) : n = b := by
    have heq := congrArg UInt8.toNat he
    rw [UInt8.toNat_ofNat_of_lt' hn, UInt8.toNat_ofNat_of_lt' (Nat.lt_trans hb (by decide))] at heq
    exact heq.symm
  unfold String.utf8EncodeChar at h
  by_cases h1 : c.val.toNat ≤ 0x7f
  · rw [if_pos h1] at h
    exact hbyte (by omega) (List.mem_singleton.mp h)
  · rw [if_neg h1] at h
    by_cases h2 : c.val.toNat ≤ 0x7ff
    · rw [if_pos h2] at h
      simp only [List.mem_cons, List.not_mem_nil, or_false] at h
      rcases h with h | h <;> exact absurd (hbyte (by omega) h) (by omega)
    · rw [if_neg h2] at h
      by_cases h3 : c.val.toNat ≤ 0xffff
      · rw [if_pos h3] at h
        simp only [List.mem_cons, List.not_mem_nil, or_false] at h
        rcases h with h | h | h <;> exact absurd (hbyte (by omega) h) (by omega)
      · rw [if_neg h3] at h
        simp only [List.mem_cons, List.not_mem_nil, or_false] at h
        rcases h with h | h | h | h <;> exact absurd (hbyte (by omega) h) (by omega)

lemma eq_brace_of_mem {c : Char} (h : 0x7b ∈ String.utf8EncodeChar c) : c = '\x7b' :=
  Char.toNat_inj.mp (toNat_of_mem_ascii (b := 0x7b) (by decide) h)

lemma mem_toString_int {n : Int} {c : Char} (h : c ∈ (toString n).toList) : c = '-' ∨ c.isDigit = true := by
  have hnat (m : Nat) (hm : c ∈ m.repr.toList) : c.isDigit = true := by
    rw [Nat.toList_repr] at hm
    exact Nat.isDigit_of_mem_toDigits (by decide) (by decide) hm
  cases n with
  | ofNat m => exact .inr (hnat m h)
  | negSucc m =>
    have h : c ∈ ("-" ++ (m + 1).repr).toList := h
    rw [String.toList_append] at h
    rcases List.mem_append.mp h with h | h
    · exact .inl (List.mem_singleton.mp h)
    · exact .inr (hnat _ h)

lemma toString_int_head (n : Int) : ∃ c, (toString n).toList.head? = some c ∧ c ∉ bodyMarker ∧ c ≠ '\x7b' := by
  cases h : (toString n).toList.head? with
  | none =>
    have hnil := List.head?_eq_none_iff.mp h
    cases n with
    | ofNat m =>
      have hnil : m.repr.toList = [] := hnil
      rw [Nat.toList_repr] at hnil
      exact absurd hnil Nat.toDigits_ne_nil
    | negSucc m =>
      have hnil : ("-" ++ (m + 1).repr).toList = [] := hnil
      rw [String.toList_append] at hnil
      cases hnil
  | some c =>
    refine ⟨c, rfl, ?_⟩
    rcases mem_toString_int (List.mem_of_head? h) with rfl | hd
    · decide
    · constructor
      · intro hm
        have hall : bodyMarker.all (fun c => !c.isDigit) = true := by decide
        have hnot := List.all_eq_true.mp hall c hm
        rw [hd] at hnot
        cases hnot
      · rintro rfl
        cases hd

lemma splice_body_marker (body : Bytes) (s : List Char) :
    Lib.Text.replace (utf8 bodyMarker) body (utf8 (bodyMarker ++ s)) =
      body ++ Lib.Text.replace (utf8 bodyMarker) body (utf8 s) := by
  rw [utf8_append, Lib.Text.replace_append (by decide)]

lemma splice_body_char (body : Bytes) {c : Char} {s : List Char} (h : ¬bodyMarker <+: c :: s) :
    Lib.Text.replace (utf8 bodyMarker) body (utf8 (c :: s)) =
      String.utf8EncodeChar c ++ Lib.Text.replace (utf8 bodyMarker) body (utf8 s) := by
  have hcons : utf8 (c :: s) = String.utf8EncodeChar c ++ utf8 s := List.flatMap_cons
  by_cases hc : c = '\x7b'
  · -- a brace is one byte, and it starts the marker's bytes only where the marker is
    subst hc
    have hbytes : ¬utf8 bodyMarker <+: 0x7b :: utf8 s := fun hp => h (utf8_isPrefix.mp hp)
    rw [hcons]
    exact Lib.Text.replace_cons hbytes
  · rw [hcons]
    refine Lib.Text.replace_skip (y := 0x7b) rfl (fun hm => hc (eq_brace_of_mem hm))

lemma pieces_append (l rest : List Char) : pieces l.length (l ++ rest) = pieces 0 rest := by
  induction l with
  | nil => rfl
  | cons c l ih => exact ih

lemma pieces_timestamp (rest : List Char) : pieces 0 (timestampMarker ++ rest) = .timestamp :: pieces 0 rest := by
  have hp : timestampMarker <+: timestampMarker ++ rest := List.prefix_append _ _
  show (if timestampMarker <+: timestampMarker ++ rest then _ else _) = _
  rw [if_pos hp, ← pieces_append timestampMarker.tail rest]
  rfl

lemma pieces_body (rest : List Char) : pieces 0 (bodyMarker ++ rest) = .body :: pieces 0 rest := by
  have hp : bodyMarker <+: bodyMarker ++ rest := List.prefix_append _ _
  have ht : ¬timestampMarker <+: bodyMarker ++ rest := fun h => by simp [timestampMarker, bodyMarker] at h
  show (if timestampMarker <+: bodyMarker ++ rest then _ else if bodyMarker <+: bodyMarker ++ rest then _ else _) = _
  rw [if_neg ht, if_pos hp, ← pieces_append bodyMarker.tail rest]
  rfl

/-- The substitution in text followed by the one in bytes fills every part of the template. -/
lemma splice_template (timestamp : Int64) (body : Bytes) (s : List Char) :
    Lib.Text.replace (utf8 bodyMarker) body
        (utf8 (Lib.Text.replace timestampMarker (toString timestamp.toInt).toList s)) =
      (pieces 0 s).flatMap (Piece.bytes timestamp body) := by
  obtain ⟨y, hy, hybody, hybrace⟩ := toString_int_head timestamp.toInt
  have hbrace : ('\x7b' : Char) ∉ (toString timestamp.toInt).toList := by
    intro hm
    rcases mem_toString_int hm with h | h <;> cases h
  -- by strong induction: after a marker the rest of the template is a shorter one
  induction hn : s.length using Nat.strong_induction_on generalizing s with
  | _ n ih =>
  cases s with
  | nil => rfl
  | cons c rest =>
    by_cases ht : timestampMarker <+: c :: rest
    · obtain ⟨t, heq⟩ := ht
      have hlen : t.length < n := by
        have := congrArg List.length heq
        rw [List.length_append, hn] at this
        have : timestampMarker.length = 11 := rfl
        omega
      have hbytes : (0x7b : UInt8) ∉ utf8 (toString timestamp.toInt).toList := by
        intro hm
        obtain ⟨c, hc, hm⟩ := List.mem_flatMap.mp hm
        exact hbrace (eq_brace_of_mem hm ▸ hc)
      rw [← heq, Lib.Text.replace_append (by decide), utf8_append, Lib.Text.replace_skip (y := 0x7b) rfl hbytes,
        ih _ hlen t rfl, pieces_timestamp]
      rfl
    · by_cases hb : bodyMarker <+: c :: rest
      · obtain ⟨t, heq⟩ := hb
        have hlen : t.length < n := by
          have := congrArg List.length heq
          rw [List.length_append, hn] at this
          have : bodyMarker.length = 6 := rfl
          omega
        have hkeep : Lib.Text.replace timestampMarker (toString timestamp.toInt).toList (bodyMarker ++ t) =
            bodyMarker ++ Lib.Text.replace timestampMarker (toString timestamp.toInt).toList t := by
          have htail : bodyMarker ++ t = '\x7b' :: (bodyMarker.tail ++ t) := rfl
          rw [htail, Lib.Text.replace_cons (by rw [← htail, heq]; exact ht),
            Lib.Text.replace_skip (y := '\x7b') rfl (by decide)]
          rfl
        rw [← heq, hkeep, splice_body_marker, ih _ hlen t rfl, pieces_body]
        rfl
      · have hfresh : ¬bodyMarker <+:
            c :: Lib.Text.replace timestampMarker (toString timestamp.toInt).toList rest := by
          intro hp
          obtain ⟨rfl, htail⟩ := List.cons_prefix_cons.mp hp
          have htail := Lib.Text.occurs_of_replace (by decide) hy
            (fun hm => hybody (List.mem_cons_of_mem _ hm)) htail
          exact hb (List.cons_prefix_cons.mpr ⟨rfl, htail⟩)
        have hpieces : pieces 0 (c :: rest) = .lit c :: pieces 0 rest := by
          rw [pieces, if_neg ht, if_neg hb]
        rw [Lib.Text.replace_cons ht, splice_body_char body hfresh, ih rest.length (by simp at hn; omega) rest rfl,
          hpieces]
        rfl

lemma signedPayloadBytes_eq (template : String) (timestamp : Int64) (body : Bytes) :
    signedPayloadBytes template timestamp body = instantiate template timestamp body := by
  rw [signedPayloadBytes, instantiate, ← splice_template]
  simp only [asBytes, String.toList_ofList, utf8]

end Template

section Compare

lemma foldl_xor_eq_zero (l : List (UInt8 × UInt8)) (acc : UInt8) :
    l.foldl (fun acc p => acc ||| (p.1 ^^^ p.2)) acc = 0 ↔ acc = 0 ∧ ∀ p ∈ l, p.1 = p.2 := by
  induction l generalizing acc with
  | nil => simp
  | cons p l ih =>
    rw [List.foldl_cons, ih, UInt8.or_eq_zero_iff, UInt8.xor_eq_zero_iff, List.forall_mem_cons, and_assoc]

lemma eq_of_zip {a b : Bytes} (hlen : a.length = b.length) (h : ∀ p ∈ a.zip b, p.1 = p.2) : a = b := by
  induction a generalizing b with
  | nil => exact (List.length_eq_zero_iff.mp hlen.symm).symm
  | cons x a ih =>
    cases b with
    | nil => cases hlen
    | cons y b =>
      obtain ⟨hxy, hrest⟩ := List.forall_mem_cons.mp h
      rw [ih (Nat.succ.inj hlen) hrest, show x = y from hxy]

lemma constantTimeEq_iff (a b : String) : constantTimeEq a b = true ↔ a = b := by
  rw [constantTimeEq, Bool.and_eq_true, beq_iff_eq, beq_iff_eq, foldl_xor_eq_zero]
  constructor
  · rintro ⟨hlen, -, h⟩
    exact asBytes_injective (eq_of_zip hlen h)
  · rintro rfl
    refine ⟨rfl, rfl, fun p hp => ?_⟩
    obtain ⟨i, hi, rfl⟩ := List.mem_iff_getElem.mp hp
    rw [List.getElem_zip]

end Compare

section Header

/-- A key-value header as its pairs; a part without an equals sign is none. -/
def keyValues (header : String) : List (String × String) :=
  (header.toList.splitOn ',').filterMap (fun part =>
    (Lib.Text.splitOnce '=' part).map (fun p => (trim (String.ofList p.1), trim (String.ofList p.2))))

/-- The header offers `candidate` as a signature. -/
def Candidate (format : HeaderFormat) (header candidate : String) : Prop :=
  match format with
  | .raw => candidate = trim header
  | .keyValue timestampKey signatureKey =>
    ∃ pair ∈ keyValues header, pair.1 = signatureKey ∧ some pair.1 ≠ timestampKey ∧ candidate = pair.2

/-- The timestamp of a header: the last one given, where it is a number. -/
def headerTimestamp (format : HeaderFormat) (header : String) : Option Int64 :=
  match format with
  | .raw => none
  | .keyValue timestampKey _ =>
    ((keyValues header).filter (fun pair => some pair.1 = timestampKey)).getLast?.bind (fun pair => parseI64 pair.2)

/-- What one pair of a header adds. -/
def addPair (timestampKey : Option String) (signatureKey : String) (found : Option Int64 × List String)
    (pair : String × String) : Option Int64 × List String :=
  if some pair.1 = timestampKey then (parseI64 pair.2, found.2)
  else if pair.1 = signatureKey then (found.1, found.2 ++ [pair.2])
  else found

lemma readHeader_keyValue (timestampKey : Option String) (signatureKey header : String) :
    readHeader (.keyValue timestampKey signatureKey) header =
      (keyValues header).foldl (addPair timestampKey signatureKey) (none, []) := by
  rw [readHeader, keyValues, List.foldl_filterMap]
  congr
  funext found part
  rw [readPart]
  cases Lib.Text.splitOnce '=' part with
  | none => rfl
  | some p => rfl

lemma mem_foldl_addPair {timestampKey : Option String} {signatureKey candidate : String}
    (pairs : List (String × String)) (found : Option Int64 × List String) :
    candidate ∈ (pairs.foldl (addPair timestampKey signatureKey) found).2 ↔ candidate ∈ found.2 ∨
      ∃ pair ∈ pairs, pair.1 = signatureKey ∧ some pair.1 ≠ timestampKey ∧ candidate = pair.2 := by
  induction pairs generalizing found with
  | nil => simp
  | cons pair pairs ih =>
    have hstep : candidate ∈ (addPair timestampKey signatureKey found pair).2 ↔ candidate ∈ found.2 ∨
        pair.1 = signatureKey ∧ some pair.1 ≠ timestampKey ∧ candidate = pair.2 := by
      rw [addPair]
      by_cases ht : some pair.1 = timestampKey
      · simp [ht]
      · by_cases hs : pair.1 = signatureKey
        · rw [if_neg ht, if_pos hs, List.mem_append, List.mem_singleton]
          simp [hs, hs ▸ ht]
        · simp [ht, hs]
    rw [List.foldl_cons, ih, hstep, or_assoc]
    simp only [List.mem_cons, exists_eq_or_imp]

lemma fst_foldl_addPair {timestampKey : Option String} {signatureKey : String}
    (pairs : List (String × String)) (found : Option Int64 × List String) :
    (pairs.foldl (addPair timestampKey signatureKey) found).1 =
      match (pairs.filter (fun pair => some pair.1 = timestampKey)).getLast? with
      | some pair => parseI64 pair.2
      | none => found.1 := by
  induction pairs using List.reverseRecOn with
  | nil => rfl
  | append_singleton pairs pair ih =>
    rw [List.foldl_append, List.foldl_cons, List.foldl_nil, addPair, List.filter_append]
    by_cases ht : some pair.1 = timestampKey
    · rw [if_pos ht, List.filter_cons_of_pos (by simpa using ht), List.filter_nil, List.getLast?_concat]
    · rw [if_neg ht, List.filter_cons_of_neg (by simpa using ht), List.filter_nil, List.append_nil, ← ih]
      by_cases hs : pair.1 = signatureKey
      · rw [if_pos hs]
      · rw [if_neg hs]

lemma readHeader_candidates {format : HeaderFormat} {header candidate : String} :
    candidate ∈ (readHeader format header).2 ↔ Candidate format header candidate := by
  cases format with
  | raw => exact List.mem_singleton
  | keyValue timestampKey signatureKey =>
    rw [readHeader_keyValue, mem_foldl_addPair, or_iff_right List.not_mem_nil]
    rfl

lemma readHeader_timestamp (format : HeaderFormat) (header : String) :
    (readHeader format header).1 = headerTimestamp format header := by
  cases format with
  | raw => rfl
  | keyValue timestampKey signatureKey =>
    rw [readHeader_keyValue, fst_foldl_addPair, headerTimestamp]
    cases ((keyValues header).filter (fun pair => some pair.1 = timestampKey)).getLast? with
    | none => rfl
    | some pair => rfl

lemma dropWhile_rdropWhile {α : Type} (p : α → Bool) (l : List α) :
    (List.rdropWhile p (l.dropWhile p)).dropWhile p = List.rdropWhile p (l.dropWhile p) := by
  rw [List.dropWhile_eq_self_iff]
  intro hl
  obtain ⟨t, ht⟩ := List.rdropWhile_prefix p (l := l.dropWhile p)
  have hd : 0 < (l.dropWhile p).length := by
    rw [← ht, List.length_append]
    omega
  have hhead : (List.rdropWhile p (l.dropWhile p))[0] = (l.dropWhile p)[0] := by
    have happend : 0 < (List.rdropWhile p (l.dropWhile p) ++ t).length := by rw [ht]; exact hd
    rw [← List.getElem_of_eq ht happend, List.getElem_append_left]
  rw [hhead]
  exact List.dropWhile_eq_self_iff.mp (List.dropWhile_idempotent p l) hd

lemma trim_trim (s : String) : trim (trim s) = trim s := by
  have htrim (s : String) : trim s = String.ofList (List.rdropWhile isWhite (s.toList.dropWhile isWhite)) := rfl
  rw [htrim (trim s), htrim s, String.toList_ofList, dropWhile_rdropWhile, List.rdropWhile_idempotent]

lemma Candidate.trimmed {format : HeaderFormat} {header candidate : String} (h : Candidate format header candidate) :
    trim candidate = candidate := by
  cases format with
  | raw =>
    rw [show candidate = trim header from h, trim_trim]
  | keyValue timestampKey signatureKey =>
    obtain ⟨pair, hp, -, -, rfl⟩ := h
    obtain ⟨part, -, hpart⟩ := List.mem_filterMap.mp hp
    obtain ⟨p, -, rfl⟩ := Option.map_eq_some_iff.mp hpart
    exact trim_trim _

end Header

section Authentic

variable {lib : Libraries} {webhook : Webhook} {provider : HttpProvider} {now : Int64} {body : Bytes}

/-- The header carries the digest of the signed payload under the secret: some candidate is the
configured encoding of the HMAC over the template filled with the header's timestamp and the
raw body. -/
def Signed (lib : Libraries) (webhook : Webhook) (secret header : String) (body : Bytes) : Prop :=
  ∃ candidate mac, Candidate webhook.headerFormat header candidate ∧
    lib.hmac webhook.digest (asBytes secret) (instantiate webhook.signedPayload
      ((headerTimestamp webhook.headerFormat header).getD 0) body) = some mac ∧
    candidate = encodeDigest lib webhook.encoding mac

/-- The body names the intent, and its event is one of those that mean `event`. -/
def Says (lib : Libraries) (webhook : Webhook) (body : Bytes) (event : PaymentEvent) : Prop :=
  ∃ payload intent, lib.fromSlice body = .ok payload ∧
    (lib.pointer payload webhook.intentIdPointer).bind lib.asStr = some intent ∧
    let eventType := ((webhook.eventTypePointer.bind (lib.pointer payload)).bind lib.asStr).getD ""
    event = .captured intent ∧ eventType ∈ webhook.capturedEvents ∨
      event = .failed intent ∧ eventType ∈ webhook.failedEvents ∧ eventType ∉ webhook.capturedEvents

lemma verifySignature_sound {secret header : String}
    (h : Http.verifySignature lib webhook secret header body now = .ok ()) : Signed lib webhook secret header body := by
  rw [Http.verifySignature] at h
  simp only at h
  split at h
  · cases h
  split at h
  · cases h
  cases hmac : lib.hmac webhook.digest (asBytes secret) (signedPayloadBytes webhook.signedPayload
      ((readHeader webhook.headerFormat header).1.getD 0) body) with
  | none =>
    rw [hmac] at h
    cases h
  | some mac =>
    rw [hmac] at h
    simp only at h
    split at h
    · rename_i hany
      obtain ⟨candidate, hc, heq⟩ := List.any_eq_true.mp hany
      have hc := readHeader_candidates.mp hc
      rw [constantTimeEq_iff, hc.trimmed] at heq
      rw [signedPayloadBytes_eq, readHeader_timestamp] at hmac
      exact ⟨candidate, mac, hc, hmac, heq⟩
    · cases h

lemma readEvent_says {event : PaymentEvent} (h : Http.readEvent lib webhook body = .ok event)
    (hne : event ≠ .ignored) : Says lib webhook body event := by
  rw [Http.readEvent] at h
  cases hp : lib.fromSlice body with
  | error e =>
    rw [hp] at h
    cases h
  | ok payload =>
    rw [hp] at h
    simp only at h
    split at h
    · cases h
      exact absurd rfl hne
    · rename_i hnone
      cases hi : (lib.pointer payload webhook.intentIdPointer).bind lib.asStr with
      | none =>
        rw [hi] at h
        cases h
      | some intent =>
        rw [hi] at h
        refine ⟨payload, intent, hp, hi, ?_⟩
        simp only [Except.ok.injEq, Bool.and_eq_true, Bool.not_eq_true', not_and, List.contains_eq_mem,
          decide_eq_false_iff_not, decide_eq_true_eq, not_not] at h hnone
        by_cases hc : ((webhook.eventTypePointer.bind (lib.pointer payload)).bind lib.asStr).getD "" ∈
            webhook.capturedEvents
        · rw [if_pos hc] at h
          exact .inl ⟨h.symm, hc⟩
        · rw [if_neg hc] at h
          exact .inr ⟨h.symm, hnone hc, hc⟩

lemma verifyCallback_verified (hsigned : provider.webhook.signatureHeader.isSome) {signature : Option String}
    {event : PaymentEvent} (h : provider.verifyCallback lib now signature body = .ok event) :
    ∃ header secret, signature = some header ∧ provider.webhookSecret = some secret ∧
      Http.verifySignature lib provider.webhook secret header body now = .ok () ∧
      Http.readEvent lib provider.webhook body = .ok event := by
  unfold HttpProvider.verifyCallback at h
  rw [if_pos hsigned] at h
  cases hsecret : provider.webhookSecret with
  | none =>
    rw [hsecret] at h
    cases h
  | some secret =>
    cases signature with
    | none =>
      rw [hsecret] at h
      cases h
    | some header =>
      simp only [hsecret] at h
      cases hv : Http.verifySignature lib provider.webhook secret header body now with
      | error e =>
        rw [hv] at h
        cases h
      | ok u =>
        rw [hv] at h
        exact ⟨header, secret, rfl, rfl, hv, h⟩

/-- The webhook endpoint of a deployment with this provider acts on what the adapter made of the
offered header. -/
lemma delivered_deploy (lib : Libraries) (provider : HttpProvider) (now : Int64) (app : AppState)
    (headers : HeaderMap) (body : String) :
    delivered (provider.deploy lib now app) (signatureHeader headers) body =
      callbackEvent lib provider now headers (asBytes body) := rfl

/-- Without a header the adapter has nothing to check. -/
lemma header_of_offered {headers : HeaderMap} {header : String} (h : offered provider headers = some header) :
    signatureHeader headers = some header := by
  rw [offered] at h
  split at h
  · exact h
  · cases h

/-- An event is reported only where the header holds a signature, made with the secret, of the
payload template filled with exactly this body, and it is what this body says; without the
header nothing is reported. What a deployment with this provider makes of a request is no other. -/
theorem callback_authentic (lib : Libraries) (provider : HttpProvider)
    (hsigned : provider.webhook.signatureHeader.isSome) (now : Int64) (signature : Option String) (body : Bytes) :
    (∀ event, provider.verifyCallback lib now signature body = .ok event → event ≠ .ignored →
      (∃ header secret, signature = some header ∧ provider.webhookSecret = some secret ∧
        Signed lib provider.webhook secret header body) ∧ Says lib provider.webhook body event) ∧
    (∀ event, provider.verifyCallback lib now none body ≠ .ok event) ∧
    ∀ app headers payload event,
      delivered (provider.deploy lib now app) (signatureHeader headers) payload = .ok event → event ≠ .ignored →
        (∃ header secret, signatureHeader headers = some header ∧ provider.webhookSecret = some secret ∧
          Signed lib provider.webhook secret header (asBytes payload)) ∧
        Says lib provider.webhook (asBytes payload) event := by
  have hreported (signature : Option String) (body : Bytes) (event : PaymentEvent)
      (h : provider.verifyCallback lib now signature body = .ok event) (hne : event ≠ .ignored) :
      (∃ header secret, signature = some header ∧ provider.webhookSecret = some secret ∧
        Signed lib provider.webhook secret header body) ∧ Says lib provider.webhook body event := by
    obtain ⟨header, secret, hheader, hsecret, hv, hr⟩ := verifyCallback_verified hsigned h
    exact ⟨⟨header, secret, hheader, hsecret, verifySignature_sound hv⟩, readEvent_says hr hne⟩
  refine ⟨hreported signature body, fun event h => ?_, fun app headers payload event h hne => ?_⟩
  · obtain ⟨header, secret, hheader, -⟩ := verifyCallback_verified hsigned h
    cases hheader
  · rw [delivered_deploy] at h
    obtain ⟨⟨header, secret, hheader, hmade⟩, hsays⟩ := hreported _ _ event h hne
    exact ⟨⟨header, secret, header_of_offered hheader, hmade⟩, hsays⟩

end Authentic

section Harbour

/-- A callback the harbour's provider sends. -/
def paidBody : Bytes :=
  asBytes "\x7b\"event\":\"payment.paid\",\"payment\":\x7b\"id\":\"pi_1\"\x7d\x7d"

/-- Its HMAC-SHA256 under `whsec`. -/
def paidMac : Bytes :=
  [113, 103, 128, 117, 140, 8, 173, 17, 94, 180, 1, 59, 248, 235, 155, 235, 36, 239, 7, 123, 87, 231, 170, 213, 148,
    5, 43, 179, 131, 68, 238, 91]

def paidSignature : String := "716780758c08ad115eb4013bf8eb9beb24ef077b57e7aad594052bb38344ee5b"

/-- Crates that behave on that callback as the real ones do. -/
def paidCrates : Libraries where
  Json := List (String × String)
  fromSlice b :=
    if b = paidBody then .ok [("/event", "payment.paid"), ("/payment/id", "pi_1")] else .error "expected value"
  pointer payload p := (payload.lookup p).map (fun s => [("", s)])
  asStr payload := payload.lookup ""
  hmac digest secret signed :=
    if digest = .sha256 ∧ secret = asBytes "whsec" ∧ signed = paidBody then some paidMac else none
  base64 _ := ""

/-- A provider that signs in a header of its own naming. -/
def tokenProvider : HttpProvider where
  webhook := {
    signatureHeader := some "X-Webhook-Token"
    eventTypePointer := some "/event"
    intentIdPointer := "/payment/id"
    capturedEvents := ["payment.paid"]
    failedEvents := ["payment.failed"] }
  webhookSecret := some "whsec"

lemma paid_accepted : tokenProvider.verifyCallback paidCrates 0 (some paidSignature) paidBody = .ok (.captured "pi_1") := by
  decide

theorem callback_authentic_harbour :
    ∃ header secret, some paidSignature = some header ∧ tokenProvider.webhookSecret = some secret ∧
      Signed paidCrates tokenProvider.webhook secret header paidBody :=
  ((callback_authentic paidCrates tokenProvider rfl 0 (some paidSignature) paidBody).1 _ paid_accepted
    (by decide)).1

end Harbour

section Offered

/-- The request carries `value` under the header name `name`. -/
def Carries (headers : HeaderMap) (name value : String) : Prop :=
  ∃ raw, (name.toLower, raw) ∈ headers ∧ toStr raw = some value

/-- The first header that is named like a signature carries `value`. -/
def FirstSuspect (headers : HeaderMap) (value : String) : Prop :=
  ∃ before name raw after, headers = before ++ (name, raw) :: after ∧ suspect name = true ∧
    toStr raw = some value ∧ ∀ h ∈ before, suspect h.1 = false

/-- An acceptable signature in the configured header reaches the adapter, and the callback is accepted. -/
def Delivers (lib : Libraries) (provider : HttpProvider) (now : Int64) (headers : HeaderMap) (body : Bytes) : Prop :=
  ∀ name value event, provider.webhook.signatureHeader = some name → Carries headers name value →
    provider.verifyCallback lib now (some value) body = .ok event →
    offered provider headers = some value ∧ callbackEvent lib provider now headers body = .ok event

lemma signatureHeader_iff {headers : HeaderMap} {value : String} :
    signatureHeader headers = some value ↔ FirstSuspect headers value := by
  rw [signatureHeader, Option.bind_eq_some_iff]
  constructor
  · rintro ⟨⟨name, raw⟩, hfind, hraw⟩
    obtain ⟨hs, before, after, rfl, hbefore⟩ := List.find?_eq_some_iff_append.mp hfind
    exact ⟨before, name, raw, after, rfl, hs, hraw, fun h hm => by simpa using hbefore h hm⟩
  · rintro ⟨before, name, raw, after, rfl, hs, hraw, hbefore⟩
    refine ⟨(name, raw), List.find?_eq_some_iff_append.mpr ⟨hs, before, after, rfl, ?_⟩, hraw⟩
    intro h hm
    rw [hbefore h hm]
    rfl

/-- The configured header is honoured exactly when the first header named like a signature
carries the same value. -/
theorem webhook_delivers_iff (lib : Libraries) (provider : HttpProvider) (now : Int64) (headers : HeaderMap)
    (body : Bytes) :
    Delivers lib provider now headers body ↔
      ∀ name value event, provider.webhook.signatureHeader = some name → Carries headers name value →
        provider.verifyCallback lib now (some value) body = .ok event → FirstSuspect headers value := by
  have hone : ∀ name value event, provider.webhook.signatureHeader = some name →
      provider.verifyCallback lib now (some value) body = .ok event →
      ((offered provider headers = some value ∧ callbackEvent lib provider now headers body = .ok event) ↔
        FirstSuspect headers value) := by
    intro name value event hname haccept
    have hsome : provider.webhook.signatureHeader.isSome := by rw [hname]; rfl
    obtain ⟨-, secret, -, hsecret, -⟩ := verifyCallback_verified hsome haccept
    have hauth : provider.authenticatesCallbacks = true := by
      rw [HttpProvider.authenticatesCallbacks, hname, hsecret]
      rfl
    rw [callbackEvent, offered, if_pos hauth, signatureHeader_iff]
    refine ⟨And.left, fun hf => ⟨hf, ?_⟩⟩
    rw [signatureHeader_iff.mpr hf, haccept]
  constructor
  · intro h name value event hname hc ha
    exact (hone name value event hname ha).mp (h name value event hname hc ha)
  · intro h name value event hname hc ha
    exact (hone name value event hname ha).mpr (h name value event hname hc ha)

theorem webhook_token_not_offered :
    ¬Delivers paidCrates tokenProvider 0 [("x-webhook-token", asBytes paidSignature)] paidBody := by
  intro h
  have hc : Carries [("x-webhook-token", asBytes paidSignature)] "X-Webhook-Token" paidSignature :=
    ⟨asBytes paidSignature, by decide +kernel, by decide +kernel⟩
  have hoffered := (h "X-Webhook-Token" paidSignature (.captured "pi_1") rfl hc paid_accepted).1
  revert hoffered
  decide

end Offered

end Lulan.Proofs
