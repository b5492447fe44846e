import Lulan.Api.Tokens
import Lulan.Lib.JsonText
import Lulan.Proofs.Callbacks
import Lulan.Proofs.Quotes

/-!
# Quote tokens and retrieval tokens

A quote survives being signed and read back, what is accepted was signed as it stands, and the
two kinds of token under one secret cannot stand in for each other.
-/

namespace Lulan.Proofs

open Http (Bytes asBytes constantTimeEq)
open Lib (Json)
open Tokens

section Payload

variable {crates : Crates}

/-- The numbers of a quote fit the types they have in the code. -/
structure TokenFits (token : QuoteToken) : Prop where
  total : -2 ^ 63 ≤ token.totalMinor ∧ token.totalMinor < 2 ^ 63
  exp : -2 ^ 63 ≤ token.exp ∧ token.exp < 2 ^ 63
  items : ∀ i ∈ token.items, i.tripId < 2 ^ 128 ∧ (-2 ^ 31 ≤ i.quantity ∧ i.quantity < 2 ^ 31) ∧
    (-2 ^ 63 ≤ i.priceMinor ∧ i.priceMinor < 2 ^ 63)
  ancillaries : ∀ a ∈ token.ancillaries, (∀ id ∈ a.line.tripId, id < 2 ^ 128) ∧
    (∀ n ∈ a.line.passenger, n < 2 ^ 64) ∧ (-2 ^ 31 ≤ a.line.quantity ∧ a.line.quantity < 2 ^ 31) ∧
    (-2 ^ 63 ≤ a.totalMinor ∧ a.totalMinor < 2 ^ 63)

/-- Identifiers are read back from their text. -/
def ReadsUuids (crates : Crates) : Prop := ∀ id < 2 ^ 128, crates.parseUuid (crates.uuidText id) = some id

lemma readUuid_uuidJson (h : ReadsUuids crates) {id : Uuid} (hid : id < 2 ^ 128) :
    readUuid crates (uuidJson crates id) = some id := h id hid

lemma readOption_nullable {α : Type} {read : Json → Option α} {write : α → Json} {x : Option α}
    (hread : ∀ a ∈ x, read (write a) = some a) (hnull : ∀ a, write a ≠ .null) :
    Json.readOption read (nullable write x) = some x := by
  cases x with
  | none => rfl
  | some a => rw [nullable, Json.readOption_of_ne_null (hnull a), hread a rfl, Option.map_some]

lemma readItem_itemJson (h : ReadsUuids crates) {i : QuoteTokenItem} (htrip : i.tripId < 2 ^ 128)
    (hquantity : -2 ^ 31 ≤ i.quantity ∧ i.quantity < 2 ^ 31)
    (hprice : -2 ^ 63 ≤ i.priceMinor ∧ i.priceMinor < 2 ^ 63) :
    readItem crates (itemJson crates i) = some i := by
  have htype : Json.readOption Json.readStr (nullable Json.str i.passengerType) = some i.passengerType :=
    readOption_nullable (fun _ _ => rfl) (fun _ h => by cases h)
  have hq : readI32 (.int i.quantity) = some i.quantity := Json.readInt_int hquantity
  have hp : readI64 (.int i.priceMinor) = some i.priceMinor := Json.readInt_int hprice
  simp [readItem, itemJson, Json.source, Json.get_cons_self, Json.get_cons_other, readUuid_uuidJson h htrip,
    Json.readStr, hq, hp, htype]

lemma readUsize_int {n : Nat} (h : n < 2 ^ 64) : readUsize (.int (n : Int)) = some n := by
  rw [readUsize, Json.readInt_int ⟨Int.natCast_nonneg n, by exact_mod_cast h⟩, Option.map_some, Int.toNat_natCast]

lemma readAncillary_ancillaryJson (h : ReadsUuids crates) {a : QuoteTokenAncillary}
    (htrip : ∀ id ∈ a.line.tripId, id < 2 ^ 128) (hpassenger : ∀ n ∈ a.line.passenger, n < 2 ^ 64)
    (hquantity : -2 ^ 31 ≤ a.line.quantity ∧ a.line.quantity < 2 ^ 31)
    (htotal : -2 ^ 63 ≤ a.totalMinor ∧ a.totalMinor < 2 ^ 63) :
    readAncillary crates (ancillaryJson crates a) = some a := by
  obtain ⟨⟨code, tripId, passenger, quantity⟩, total⟩ := a
  have hq : readI32 (.int quantity) = some quantity := Json.readInt_int hquantity
  have ht : readI64 (.int total) = some total := Json.readInt_int htotal
  have htripId : ∀ id ∈ tripId, Json.readOption (readUuid crates) (uuidJson crates id) = some (some id) := by
    intro id hid
    rw [Json.readOption_of_ne_null (by rintro ⟨⟩), readUuid_uuidJson h (htrip id hid), Option.map_some]
  have hpass : ∀ n ∈ passenger, Json.readOption readUsize (.int (n : Int)) = some (some n) := by
    intro n hn
    rw [Json.readOption_of_ne_null (by rintro ⟨⟩), readUsize_int (hpassenger n hn), Option.map_some]
  cases tripId with
  | none =>
    cases passenger with
    | none =>
      simp [readAncillary, ancillaryJson, lineFields, skipped, readLine, Json.get_cons_self, Json.get_cons_other,
        Json.readStr, hq, ht]
    | some n =>
      simp [readAncillary, ancillaryJson, lineFields, skipped, readLine, Json.get_cons_self, Json.get_cons_other,
        Json.readStr, hq, ht, hpass n rfl]
  | some id =>
    cases passenger with
    | none =>
      simp [readAncillary, ancillaryJson, lineFields, skipped, readLine, Json.get_cons_self, Json.get_cons_other,
        Json.readStr, hq, ht, htripId id rfl]
    | some n =>
      simp [readAncillary, ancillaryJson, lineFields, skipped, readLine, Json.get_cons_self, Json.get_cons_other,
        Json.readStr, hq, ht, htripId id rfl, hpass n rfl]

/-- A quote is read back from the document it is written as. -/
lemma readToken_tokenJson (h : ReadsUuids crates) {token : QuoteToken} (hfits : TokenFits token) :
    readToken crates (tokenJson crates token) = some token := by
  have htotal : readI64 (.int token.totalMinor) = some token.totalMinor := Json.readInt_int hfits.total
  have hexp : readI64 (.int token.exp) = some token.exp := Json.readInt_int hfits.exp
  have hitems : Json.readList (readItem crates) (.arr (token.items.map (itemJson crates))) = some token.items := by
    apply Json.readList_map
    intro i hi
    obtain ⟨htrip, hquantity, hprice⟩ := hfits.items i hi
    exact readItem_itemJson h htrip hquantity hprice
  have hlines : Json.readList (readAncillary crates) (.arr (token.ancillaries.map (ancillaryJson crates))) =
      some token.ancillaries := by
    apply Json.readList_map
    intro a ha
    obtain ⟨htrip, hpassenger, hquantity, htotal⟩ := hfits.ancillaries a ha
    exact readAncillary_ancillaryJson h htrip hpassenger hquantity htotal
  simp [readToken, tokenJson, Json.source, Json.get_cons_self, Json.get_cons_other, Json.readStr, htotal, hexp,
    hitems, hlines]

end Payload

section Text

variable {s payload : String} {bytes : Bytes} {c : Char}

lemma unbase64_base64 (bytes : Bytes) : unbase64 (base64 bytes) = some bytes := by
  rw [unbase64, base64, String.toList_ofList, Lib.Base64.decode_encode]

lemma not_mem_of_unbase64 (h : unbase64 s = some bytes) (hc : Lib.Base64.value c = none) : c ∉ s.toList := by
  intro hmem
  have hsome := Lib.Base64.isSome_of_decode h c hmem
  rw [hc] at hsome
  cases hsome

lemma dot_not_mem_base64 (bytes : Bytes) : '.' ∉ (base64 bytes).toList :=
  not_mem_of_unbase64 (unbase64_base64 bytes) rfl

/-- Text that can be decoded holds no colon, nor do its bytes. -/
lemma colon_not_mem (h : unbase64 payload = some bytes) : 58 ∉ asBytes payload := by
  intro hmem
  obtain ⟨c, hc, hbyte⟩ := List.mem_flatMap.mp hmem
  have hascii : c.toNat < 128 := Lib.Base64.toNat_of_isSome (Lib.Base64.isSome_of_decode h c hc)
  have hone : String.utf8EncodeChar c = [UInt8.ofNat c.toNat] := by
    unfold String.utf8EncodeChar
    exact if_pos (by change c.toNat ≤ 0x7f; omega)
  rw [hone, List.mem_singleton] at hbyte
  have hcolon : c.toNat = 58 := by
    have hnat := congrArg UInt8.toNat hbyte
    rw [UInt8.toNat_ofNat_of_lt' (Nat.lt_trans hascii (by decide))] at hnat
    exact hnat.symm
  have heq : c = ':' := Char.toNat_inj.mp hcolon
  exact not_mem_of_unbase64 (c := ':') h rfl (heq ▸ hc)

/-- A text is split in one way at its last separator. -/
lemma split_last {α : Type} {c : α} {a b l r : List α} (hb : c ∉ b) (hr : c ∉ r) (h : a ++ c :: b = l ++ c :: r) :
    a = l ∧ b = r := by
  rcases List.append_eq_append_iff.mp h with ⟨m, rfl, hm⟩ | ⟨m, rfl, hm⟩
  · cases m with
    | nil => exact ⟨(List.append_nil _).symm, (List.cons.inj hm).2⟩
    | cons x m =>
      have hin : c ∈ m ++ c :: r := List.mem_append_right _ List.mem_cons_self
      exact absurd ((List.cons.inj hm).2 ▸ hin) hb
  · cases m with
    | nil => exact ⟨List.append_nil _, (List.cons.inj hm).2.symm⟩
    | cons x m =>
      have hin : c ∈ m ++ c :: b := List.mem_append_right _ List.mem_cons_self
      exact absurd ((List.cons.inj hm).2 ▸ hin) hr

end Text

section Quote

variable {crates : Crates} {secret : Bytes} {token quote : QuoteToken} {s : String} {now : Timestamp}

/-- `s` is a payload with the HMAC of exactly this payload behind its dot, and the payload is an
unexpired quote. -/
structure Vouched (crates : Crates) (secret : Bytes) (now : Timestamp) (s payload tag : String)
    (quote : QuoteToken) : Prop where
  split : s = payload ++ "." ++ tag
  separated : '.' ∉ payload.toList
  tag : unbase64 tag = some (crates.hmac secret (asBytes payload))
  decodes : decode crates payload = some quote
  fresh : now < quote.exp

lemma tagMatches_iff {payload tag : String} : tagMatches crates secret payload tag = true ↔
    unbase64 tag = some (crates.hmac secret (asBytes payload)) := by
  rw [tagMatches]
  cases unbase64 tag with
  | none => simp
  | some bytes => simp

lemma verify_iff : Tokens.verify crates secret now s = some quote ↔
    ∃ payload tag, Vouched crates secret now s payload tag quote := by
  rw [Tokens.verify]
  simp only [Option.bind_eq_bind, Option.bind_eq_some_iff, Prod.exists]
  constructor
  · rintro ⟨p, t, hsplit, h⟩
    obtain ⟨hs, hp⟩ := Lib.Text.splitOnce_eq_some.mp hsplit
    split_ifs at h with hmatch
    obtain ⟨decoded, hdecoded, h⟩ := Option.bind_eq_some_iff.mp h
    split_ifs at h with hfresh
    cases h
    refine ⟨String.ofList p, String.ofList t, ?_, ?_, tagMatches_iff.mp hmatch, hdecoded, hfresh⟩
    · rw [← String.toList_inj, hs]
      simp only [String.toList_append, String.toList_ofList, List.append_assoc]
      rfl
    · rw [String.toList_ofList]
      exact hp
  · rintro ⟨payload, tag, rfl, hp, htag, hdecodes, hfresh⟩
    refine ⟨payload.toList, tag.toList, ?_, ?_⟩
    · rw [String.toList_append, String.toList_append, List.append_assoc]
      exact Lib.Text.splitOnce_append hp
    · rw [String.ofList_toList, String.ofList_toList, if_pos (tagMatches_iff.mpr htag), hdecodes, Option.bind_some,
        if_pos hfresh]

/-- A signed quote verifies as it was until it expires. -/
lemma verify_signed (huuids : ReadsUuids crates)
    (htext : crates.fromSlice (crates.toVec (tokenJson crates token)) = some (tokenJson crates token))
    (hfits : TokenFits token) (hfresh : now < token.exp) :
    Tokens.verify crates secret now (Tokens.sign crates secret token) = some token := by
  apply verify_iff.mpr
  refine ⟨encode crates token, tag crates secret (encode crates token), rfl, dot_not_mem_base64 _,
    unbase64_base64 _, ?_, hfresh⟩
  rw [decode, encode, unbase64_base64, Option.bind_some, htext, Option.bind_some, readToken_tokenJson huuids hfits]

/-- The message a retrieval token authenticates. -/
def retrievalMessage (orderId : Uuid) : Bytes := asBytes "order-retrieval:" ++ uuidBytes orderId

/-- No payload that can be decoded has the HMAC of a retrieval token. -/
lemma hmac_ne (hinj : Function.Injective (crates.hmac secret)) {payload : String} {bytes : Bytes} {orderId : Uuid}
    (h : unbase64 payload = some bytes) :
    crates.hmac secret (asBytes payload) ≠ crates.hmac secret (retrievalMessage orderId) := by
  intro heq
  have hcolon : 58 ∈ retrievalMessage orderId := List.mem_append_left _ (by decide)
  rw [← hinj heq] at hcolon
  exact colon_not_mem h hcolon

/-- The retrieval token of an order and the tags of quotes keep apart. -/
structure KeptApart (crates : Crates) (secret : Bytes) (orderId : Uuid) : Prop where
  whole : ∀ now, Tokens.verify crates secret now (retrievalToken crates secret orderId) = none
  asTag : ∀ now payload,
    Tokens.verify crates secret now (payload ++ "." ++ retrievalToken crates secret orderId) = none
  asPayload : ∀ now tag quote,
    Tokens.verify crates secret now (retrievalToken crates secret orderId ++ "." ++ tag) = some quote →
    (crates.fromSlice (crates.hmac secret (retrievalMessage orderId))).bind (readToken crates) = some quote
  signed : ∀ token, verifyRetrievalToken crates secret orderId (tag crates secret (encode crates token)) = false
  accepted : ∀ now payload tag quote, Vouched crates secret now (payload ++ "." ++ tag) payload tag quote →
    verifyRetrievalToken crates secret orderId tag = false

lemma apart (hinj : Function.Injective (crates.hmac secret)) (orderId : Uuid) : KeptApart crates secret orderId := by
  have hdot : '.' ∉ (retrievalToken crates secret orderId).toList := dot_not_mem_base64 _
  have hback : unbase64 (retrievalToken crates secret orderId) =
      some (crates.hmac secret (retrievalMessage orderId)) := unbase64_base64 _
  have hclash : ∀ {payload tag : String} {bytes : Bytes}, unbase64 payload = some bytes →
      unbase64 tag = some (crates.hmac secret (asBytes payload)) → tag ≠ retrievalToken crates secret orderId := by
    rintro payload tag bytes hpayload htag rfl
    exact hmac_ne hinj hpayload (Option.some.inj (htag.symm.trans hback))
  have hpayload : ∀ {now payload tag s quote}, Vouched crates secret now s payload tag quote →
      ∃ bytes, unbase64 payload = some bytes := by
    intro now payload tag s quote h
    obtain ⟨v, hv, -⟩ := Option.bind_eq_some_iff.mp h.decodes
    obtain ⟨bytes, hbytes, -⟩ := Option.bind_eq_some_iff.mp hv
    exact ⟨bytes, hbytes⟩
  constructor
  · intro now
    by_contra hne
    obtain ⟨quote, hquote⟩ := Option.ne_none_iff_exists'.mp hne
    obtain ⟨payload, tag, h⟩ := verify_iff.mp hquote
    apply hdot
    rw [h.split, String.toList_append, String.toList_append]
    exact List.mem_append_left _ (List.mem_append_right _ List.mem_cons_self)
  · intro now payload
    by_contra hne
    obtain ⟨quote, hquote⟩ := Option.ne_none_iff_exists'.mp hne
    obtain ⟨payload', tag, h⟩ := verify_iff.mp hquote
    obtain ⟨bytes, hbytes⟩ := hpayload h
    have hlists := congrArg String.toList h.split
    simp only [String.toList_append, List.append_assoc] at hlists
    have hlast := (split_last hdot (not_mem_of_unbase64 h.tag rfl) hlists).2
    exact hclash hbytes h.tag (String.toList_inj.mp hlast.symm)
  · intro now tag quote hquote
    obtain ⟨payload, tag', h⟩ := verify_iff.mp hquote
    have hlists := congrArg String.toList h.split
    simp only [String.toList_append, List.append_assoc] at hlists
    have hfirst : retrievalToken crates secret orderId = payload := by
      apply String.toList_inj.mp
      have hsome := Lib.Text.splitOnce_append (b := tag.toList) hdot
      have hsome' := Lib.Text.splitOnce_append (b := tag'.toList) h.separated
      exact congrArg Prod.fst (Option.some.inj (hsome.symm.trans ((congrArg _ hlists).trans hsome')))
    have hdecodes := h.decodes
    rw [← hfirst, decode, hback, Option.bind_some] at hdecodes
    exact hdecodes
  · intro token
    apply Bool.eq_false_iff.mpr
    intro h
    have heq := (constantTimeEq_iff _ _).mp h
    exact hclash (unbase64_base64 _) (unbase64_base64 _) heq.symm
  · intro now payload tag quote hauthentic
    obtain ⟨bytes, hbytes⟩ := hpayload hauthentic
    apply Bool.eq_false_iff.mpr
    intro h
    exact hclash hbytes hauthentic.tag ((constantTimeEq_iff _ _).mp h).symm

end Quote

/-! ### The deployment -/

section Deployment

variable {crates : Crates} {secret : Bytes} {app : AppState}

lemma sign_deploy (token : QuoteToken) :
    Quotes.sign (deploy crates secret app) token = Tokens.sign crates secret token := rfl

/-- The endpoints of the deployment check quotes down to their bytes. -/
theorem verify_deploy (now : Timestamp) (s : String) :
    Quotes.verify (deploy crates secret app) now s = Tokens.verify crates secret now s := by
  rw [Quotes.verify, Tokens.verify, List.span_eq_takeWhile_dropWhile]
  by_cases hdot : '.' ∈ s.toList
  · obtain ⟨p, t, hs, hp⟩ := List.eq_append_cons_of_mem hdot
    have hall : ∀ c ∈ p, decide (c ≠ '.') = true := fun c hc => decide_eq_true (fun he => hp (he ▸ hc))
    rw [hs, Lib.Text.splitOnce_append hp, List.takeWhile_append_of_pos hall, List.dropWhile_append_of_pos hall,
      List.takeWhile_cons_of_neg (by simp), List.dropWhile_cons_of_neg (by simp), List.append_nil]
    simp only [Option.bind_eq_bind, Option.bind_some]
    cases hd : decode crates (String.ofList p) with
    | none =>
      simp [deploy, hd]
    | some quote =>
      simp [deploy, hd]
  · have hnone : Lib.Text.splitOnce '.' s.toList = none := by
      by_contra hne
      obtain ⟨⟨p, t⟩, hsome⟩ := Option.ne_none_iff_exists'.mp hne
      have hs := (Lib.Text.splitOnce_eq_some.mp hsome).1
      exact hdot (hs ▸ List.mem_append_right _ List.mem_cons_self)
    have hall : ∀ c ∈ s.toList, decide (c ≠ '.') = true := fun c hc => decide_eq_true (fun he => hdot (he ▸ hc))
    rw [hnone, List.takeWhile_eq_self_iff.mpr hall, List.dropWhile_eq_nil_iff.mpr hall]
    rfl

/-- Its quotes can be read back. -/
lemma decodes_deploy {token : QuoteToken} (huuids : ReadsUuids crates)
    (htext : crates.fromSlice (crates.toVec (tokenJson crates token)) = some (tokenJson crates token))
    (hfits : TokenFits token) : Decodes (deploy crates secret app) token := by
  refine ⟨?_, dot_not_mem_base64 _⟩
  change decode crates (encode crates token) = some token
  rw [decode, encode, unbase64_base64, Option.bind_some, htext, Option.bind_some, readToken_tokenJson huuids hfits]

/-- What the endpoints of the deployment sign and accept is what is signed and accepted here, and
their quotes can be read back. -/
structure Deployed (crates : Crates) (secret : Bytes) (app : AppState) : Prop where
  sign : ∀ token, Quotes.sign (deploy crates secret app) token = Tokens.sign crates secret token
  verify : ∀ now s, Quotes.verify (deploy crates secret app) now s = Tokens.verify crates secret now s
  decodes : ∀ token, crates.fromSlice (crates.toVec (tokenJson crates token)) = some (tokenJson crates token) →
    TokenFits token → Decodes (deploy crates secret app) token

lemma deployed (huuids : ReadsUuids crates) : Deployed crates secret app :=
  ⟨sign_deploy, verify_deploy, fun _ htext hfits => decodes_deploy huuids htext hfits⟩

end Deployment

/-! ### Both kinds of token -/

/-- Quotes survive their token, tokens are accepted as they were signed only, the tokens of guest
orders keep apart from them, and all of this is about the tokens of the endpoints. -/
theorem quote_tokens (crates : Crates) (huuids : ReadsUuids crates) (secret : Bytes) :
    (∀ token now, TokenFits token →
      crates.fromSlice (crates.toVec (tokenJson crates token)) = some (tokenJson crates token) → now < token.exp →
      Tokens.verify crates secret now (Tokens.sign crates secret token) = some token) ∧
    (∀ now s quote, Tokens.verify crates secret now s = some quote →
      ∃ payload tag, Vouched crates secret now s payload tag quote) ∧
    (Function.Injective (crates.hmac secret) → ∀ orderId, KeptApart crates secret orderId) ∧
    ∀ app, Deployed crates secret app :=
  ⟨fun _ _ hfits htext hfresh => verify_signed huuids htext hfits hfresh, fun _ _ _ h => verify_iff.mp h,
    fun hinj orderId => apart hinj orderId, fun _ => deployed huuids⟩

section Bag

/-- Crates that write and read JSON, and the identifier of Ana's trip, as the real ones do. -/
def tripCrates : Crates where
  toVec := Lib.Json.toVec
  fromSlice := Lib.Json.fromSlice
  hmac secret message := secret ++ message
  uuidText id :=
    if id = 1 then "00000000-0000-0000-0000-000000000001" else String.ofList (Nat.toDigits 10 id)
  parseUuid text :=
    if text = "00000000-0000-0000-0000-000000000001" then some 1 else Lib.Text.digits text.toList

lemma tripCrates_uuids : ReadsUuids tripCrates := by
  intro id _
  simp only [tripCrates]
  by_cases hid : id = 1
  · rw [if_pos hid, if_pos rfl, hid]
  · have hdash : String.ofList (Nat.toDigits 10 id) ≠ "00000000-0000-0000-0000-000000000001" := by
      intro he
      have hmem : '-' ∈ Nat.toDigits 10 id := by
        rw [← String.toList_ofList (l := Nat.toDigits 10 id), he]
        decide
      exact absurd (Nat.isDigit_of_mem_toDigits (by decide) (by decide) hmem) (by decide)
    rw [if_neg hid, if_neg hdash, String.toList_ofList, Lib.Text.digits_toDigits]

lemma tripCrates_injective (secret : Bytes) : Function.Injective (tripCrates.hmac secret) :=
  List.append_right_injective secret

lemma tripCrates_text {j : Json} (h : Json.Fits 127 j) : tripCrates.fromSlice (tripCrates.toVec j) = some j :=
  Lib.Json.fromSlice_toVec h

/-- A quote for a seat and a bag. -/
def bagQuote : QuoteToken :=
  ⟨"PHP", 2500, 1767225900, [⟨1, "1A", "CEB", "ORM", 1, some "adult", 1500⟩], [⟨⟨"BAG", none, some 0, 1⟩, 1000⟩]⟩

lemma bagQuote_text :
    tripCrates.fromSlice (tripCrates.toVec (tokenJson tripCrates bagQuote)) =
      some (tokenJson tripCrates bagQuote) := by
  apply tripCrates_text
  simp [Json.Fits, bagQuote, tokenJson, itemJson, ancillaryJson, lineFields, skipped, nullable, uuidJson]

lemma bagQuote_fits : TokenFits bagQuote := by
  constructor
  · decide
  · decide
  · intro i hi
    rw [List.mem_singleton.mp hi]
    decide
  · intro a ha
    rw [List.mem_singleton.mp ha]
    refine ⟨fun id h => (by cases h), fun n h => ?_, by decide, by decide⟩
    cases h
    decide

/-- The quote is honoured, and the token of a guest order neither passes for its tag nor is
served by it. -/
theorem quote_tokens_bag :
    Tokens.verify tripCrates [1] 1767225600 (Tokens.sign tripCrates [1] bagQuote) = some bagQuote ∧
    Tokens.verify tripCrates [1] 1767225600
      (encode tripCrates bagQuote ++ "." ++ retrievalToken tripCrates [1] 100) = none ∧
    verifyRetrievalToken tripCrates [1] 100 (tag tripCrates [1] (encode tripCrates bagQuote)) = false := by
  obtain ⟨hback, -, hapart, -⟩ := quote_tokens tripCrates tripCrates_uuids [1]
  have hkept := hapart (tripCrates_injective [1]) 100
  exact ⟨hback bagQuote 1767225600 bagQuote_fits bagQuote_text (by decide), hkept.asTag _ _, hkept.signed _⟩

/-- A quote of no seats at all, written as an array. -/
def bareQuote : Json := .arr [.str "", .int 0, .int 1800000000, .arr []]

/-- A message authentication code that spells that quote for one order. -/
def spellingHmac (orderId : Uuid) (_ message : Bytes) : Bytes :=
  if message = retrievalMessage orderId then Lib.Json.toVec bareQuote else 0 :: message

lemma spellingHmac_injective (orderId : Uuid) (secret : Bytes) :
    Function.Injective (spellingHmac orderId secret) := by
  have hspelled : ∀ message : Bytes, Lib.Json.toVec bareQuote ≠ 0 :: message := by
    intro message he
    have hhead : (Lib.Json.toVec bareQuote).head? = some 91 := by decide
    rw [he] at hhead
    cases hhead
  intro a b hab
  unfold spellingHmac at hab
  split_ifs at hab with ha hb hb
  · rw [ha, hb]
  · exact absurd hab (hspelled b)
  · exact absurd hab.symm (hspelled a)
  · exact (List.cons.inj hab).2

/-- The retrieval token of an order is accepted as the payload of a quote token where its bytes
happen to spell a quote. -/
theorem retrieval_token_as_payload : ¬ ∀ (crates : Crates) (secret : Bytes), ReadsUuids crates →
    Function.Injective (crates.hmac secret) → ∀ orderId now tag,
    Tokens.verify crates secret now (retrievalToken crates secret orderId ++ "." ++ tag) = none := by
  intro hall
  let crates : Crates := { tripCrates with hmac := spellingHmac 100 }
  have hnone := hall crates [1] tripCrates_uuids (spellingHmac_injective 100 [1]) 100 1767225600
    (tag crates [1] (retrievalToken crates [1] 100))
  have hmac : crates.hmac [1] (retrievalMessage 100) = Lib.Json.toVec bareQuote := by
    change spellingHmac 100 [1] (retrievalMessage 100) = _
    rw [spellingHmac, if_pos rfl]
  have hfits : Json.Fits 127 bareQuote := by simp [Json.Fits, bareQuote]
  have hspelled : crates.fromSlice (Lib.Json.toVec bareQuote) = some bareQuote := Lib.Json.fromSlice_toVec hfits
  have haccepted : Tokens.verify crates [1] 1767225600 (retrievalToken crates [1] 100 ++ "." ++
      tag crates [1] (retrievalToken crates [1] 100)) = some ⟨"", 0, 1800000000, [], []⟩ := by
    refine verify_iff.mpr ⟨_, _, rfl, dot_not_mem_base64 _, unbase64_base64 _, ?_, by decide⟩
    have hback : unbase64 (retrievalToken crates [1] 100) = some (crates.hmac [1] (retrievalMessage 100)) :=
      unbase64_base64 _
    rw [decode, hback, hmac, Option.bind_some, hspelled]
    rfl
  rw [haccepted] at hnone
  cases hnone

end Bag

end Lulan.Proofs
