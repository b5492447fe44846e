import Mathlib.Data.Countable.Basic
import Mathlib.Logic.Encodable.Basic
import Mathlib.Logic.Equiv.List
import Mathlib.Tactic.DeriveCountable
import Lulan.Validate.Ticket

/-!
# Offline verification of tickets

The verdict of the validator as a relation, one rule for each condition in the order they
are checked, and the round trip from the engine's signer to the validator.
-/

namespace Lulan.Proofs

open Wire (Bytes Value Fields Libraries)
open Validate (KeyEntry VerifiedTicket ValidationError Visitor toU8 toI64 toUuid toOption toText readToken
  stripPrefix splitOnce verifyTicket verifyTicketWithRevocations)

section Reading

/-- The validator's copy of the engine's claims. -/
def received (c : Wire.TicketClaims) : Validate.TicketClaims :=
  ⟨c.v, c.tid, c.trp, c.unt, c.f, c.t, c.pax, c.fc, c.exp, c.kid⟩

lemma toU8_ofU8 (n : UInt8) : toU8 (Wire.ofU8 n) = some n := by
  have hn : n.toNat < 256 := n.toNat_lt
  have hrange : (0 : Int) ≤ n.toNat ∧ (n.toNat : Int) < 256 := by omega
  rw [Wire.ofU8, toU8, if_pos hrange, Int.toNat_natCast, UInt8.ofNat_toNat]

lemma toI64_ofI64 (n : Int64) : toI64 (Wire.ofI64 n) = some n := by
  have hrange : -2 ^ 63 ≤ n.toInt ∧ n.toInt < 2 ^ 63 := ⟨n.le_toInt, n.toInt_lt⟩
  rw [Wire.ofI64, toI64, if_pos hrange, Int64.ofInt_toInt]

lemma toUuid_ofUuid (id : Wire.Uuid) : toUuid (Wire.ofUuid id) = some id := Wire.Uuid.fromSlice_bytes id

lemma toOption_ofOption (s : Option String) : toOption (Wire.ofOption s) = some s := by
  cases s with
  | none => rfl
  | some s => rfl

/-- The two declarations of the claims agree: what the engine writes, the validator reads. -/
lemma deserialize_serialize (c : Wire.TicketClaims) :
    Validate.TicketClaims.deserialize c.serialize = some (received c) := by
  simp [Validate.TicketClaims.deserialize, Wire.TicketClaims.serialize, Visitor.visit, Visitor.fill,
    Visitor.finish, toU8_ofU8, toI64_ofI64, toUuid_ofUuid, toOption_ofOption, toText, received]

lemma serialize_writable (c : Wire.TicketClaims) : ∀ f ∈ c.serialize, f.2.Writable := by
  have hu8 (n : UInt8) : (Wire.ofU8 n).Writable := by
    have hn : n.toNat < 256 := n.toNat_lt
    constructor <;> omega
  have hi64 : (Wire.ofI64 c.exp).Writable := by
    have := c.exp.le_toInt
    have := c.exp.toInt_lt
    constructor <;> omega
  have hopt : (Wire.ofOption c.fc).Writable := by
    cases c.fc <;> trivial
  simp only [Wire.TicketClaims.serialize, List.forall_mem_cons]
  exact ⟨hu8 _, trivial, trivial, trivial, hu8 _, hu8 _, trivial, hopt, hi64, trivial, List.forall_mem_nil _⟩

end Reading

variable {lib : Libraries}

/-- The token is `LT1.<payload>.<signature>` and both parts decode. -/
def Parts (lib : Libraries) (token : String) (payload : Bytes) (signature : lib.Signature) : Prop :=
  ∃ p s sigBytes, token.toList = "LT1.".toList ++ (p ++ '.' :: s) ∧ '.' ∉ p ∧
    lib.decode (String.ofList p) = some payload ∧ lib.decode (String.ofList s) = some sigBytes ∧
    lib.fromSlice sigBytes = some signature

/-- The payload is the CBOR of `claims`. -/
def SignedClaims (lib : Libraries) (payload : Bytes) (claims : Validate.TicketClaims) : Prop :=
  ∃ fields, lib.fromReader payload = some fields ∧ Validate.TicketClaims.deserialize fields = some claims

/-- The first entry of the key list under this id. -/
def FirstKey (keys : List KeyEntry) (kid : String) (entry : KeyEntry) : Prop :=
  ∃ before after, keys = before ++ entry :: after ∧ entry.kid = kid ∧ ∀ k ∈ before, k.kid ≠ kid

lemma firstKey_of_nodup {keys : List KeyEntry} {entry : KeyEntry} (hmem : entry ∈ keys)
    (hnodup : (keys.map KeyEntry.kid).Nodup) : FirstKey keys entry.kid entry := by
  obtain ⟨before, after, rfl⟩ := List.append_of_mem hmem
  refine ⟨before, after, rfl, rfl, fun k hk he => ?_⟩
  rw [List.map_append, List.map_cons, List.nodup_append] at hnodup
  exact hnodup.2.2 k.kid (List.mem_map_of_mem hk) entry.kid List.mem_cons_self he

/-- The entry holds base64url of the 32 bytes of a point. -/
def HoldsKey (lib : Libraries) (entry : KeyEntry) (key : lib.VerifyingKey) : Prop :=
  ∃ keyBytes, lib.decode entry.publicKey = some keyBytes ∧ keyBytes.length = 32 ∧
    lib.fromBytes keyBytes = some key

/-- The token is authentic: it has the form of a ticket, its claims are of version 1, and its
signature verifies over exactly the payload under the first key with the claims' id. -/
def Authentic (lib : Libraries) (token : String) (keys : List KeyEntry) (claims : Validate.TicketClaims) : Prop :=
  ∃ payload signature entry key, Parts lib token payload signature ∧ SignedClaims lib payload claims ∧
    claims.v = 1 ∧ FirstKey keys claims.kid entry ∧ HoldsKey lib entry key ∧
    lib.verify key payload signature = true

/-- The answer for a token: the error of the first condition that fails, or the ticket. -/
inductive Verdict (lib : Libraries) (token : String) (keys : List KeyEntry) (now : Int64) (trip : Option Wire.Uuid)
    (revoked : List Wire.Uuid) : Except ValidationError VerifiedTicket → Prop where
  | notAToken (h : ¬∃ payload signature claims, Parts lib token payload signature ∧
      SignedClaims lib payload claims) :
    Verdict lib token keys now trip revoked (.error .malformed)
  | version {payload signature claims} (hp : Parts lib token payload signature)
    (hc : SignedClaims lib payload claims) (hv : claims.v ≠ 1) :
    Verdict lib token keys now trip revoked (.error (.unsupportedVersion claims.v))
  | noKey {payload signature claims} (hp : Parts lib token payload signature)
    (hc : SignedClaims lib payload claims) (hv : claims.v = 1) (hk : ∀ k ∈ keys, k.kid ≠ claims.kid) :
    Verdict lib token keys now trip revoked (.error (.unknownKey claims.kid))
  | badKey {payload signature claims entry} (hp : Parts lib token payload signature)
    (hc : SignedClaims lib payload claims) (hv : claims.v = 1) (hk : FirstKey keys claims.kid entry)
    (hb : ¬∃ key, HoldsKey lib entry key) :
    Verdict lib token keys now trip revoked (.error .malformed)
  | forged {payload signature claims entry key} (hp : Parts lib token payload signature)
    (hc : SignedClaims lib payload claims) (hv : claims.v = 1) (hk : FirstKey keys claims.kid entry)
    (hb : HoldsKey lib entry key) (hs : lib.verify key payload signature = false) :
    Verdict lib token keys now trip revoked (.error .badSignature)
  | expired {claims} (ha : Authentic lib token keys claims) (he : claims.exp < now) :
    Verdict lib token keys now trip revoked (.error (.expired claims.exp))
  | wrongTrip {claims expected} (ha : Authentic lib token keys claims) (he : now ≤ claims.exp)
    (ht : trip = some expected) (hne : claims.trp ≠ expected) :
    Verdict lib token keys now trip revoked (.error .wrongTrip)
  | revoked {claims} (ha : Authentic lib token keys claims) (he : now ≤ claims.exp)
    (ht : ∀ expected, trip = some expected → claims.trp = expected) (hr : claims.tid ∈ revoked) :
    Verdict lib token keys now trip revoked (.error .revoked)
  | accepted {claims} (ha : Authentic lib token keys claims) (he : now ≤ claims.exp)
    (ht : ∀ expected, trip = some expected → claims.trp = expected) (hr : claims.tid ∉ revoked) :
    Verdict lib token keys now trip revoked (.ok claims.verified)

section Functions

variable {token : String} {keys : List KeyEntry} {payload : Bytes} {signature : lib.Signature}
  {claims : Validate.TicketClaims}

lemma firstKey_iff {kid : String} {entry : KeyEntry} :
    keys.find? (fun k => k.kid == kid) = some entry ↔ FirstKey keys kid entry := by
  rw [List.find?_eq_some_iff_append]
  constructor
  · rintro ⟨hk, before, after, heq, hbefore⟩
    exact ⟨before, after, heq, eq_of_beq hk, fun k hm => by simpa using hbefore k hm⟩
  · rintro ⟨before, after, heq, hk, hbefore⟩
    exact ⟨beq_iff_eq.mpr hk, before, after, heq, fun k hm => by simpa using hbefore k hm⟩

lemma holdsKey_iff {entry : KeyEntry} {key : lib.VerifyingKey} :
    entry.verifyingKey lib = some key ↔ HoldsKey lib entry key := by
  rw [KeyEntry.verifyingKey, Option.bind_eq_bind, Option.bind_eq_some_iff]
  refine exists_congr fun keyBytes => and_congr_right fun _ => ?_
  by_cases hl : keyBytes.length = 32
  · rw [if_pos hl]
    exact ⟨fun h => ⟨hl, h⟩, And.right⟩
  · rw [if_neg hl]
    exact ⟨nofun, fun h => (hl h.1).elim⟩

lemma readToken_iff :
    readToken lib token = some (payload, signature, claims) ↔
      Parts lib token payload signature ∧ SignedClaims lib payload claims := by
  constructor
  · intro h
    simp only [readToken, Option.bind_eq_bind, Option.bind_eq_some_iff, Prod.exists, Option.some.injEq,
      Prod.mk.injEq] at h
    obtain ⟨rest, hr, p, s, hsplit, payload', hd, sigBytes, hs, signature', hf, fields, hm, claims', hc, rfl,
      rfl, rfl⟩ := h
    obtain ⟨r, hstrip, rfl⟩ := Option.map_eq_some_iff.mp hr
    obtain ⟨⟨p', s'⟩, honce, heq⟩ := Option.map_eq_some_iff.mp hsplit
    cases heq
    obtain ⟨hr', hp⟩ := Lib.Text.splitOnce_eq_some.mp honce
    rw [String.toList_ofList] at hr'
    subst hr'
    have htoken := (List.isPrefixOf?_eq_some_iff_append_eq.mp hstrip).symm
    exact ⟨⟨p', s', sigBytes, htoken, hp, hd, hs, hf⟩, fields, hm, hc⟩
  · rintro ⟨⟨p, s, sigBytes, ht, hp, hd, hs, hf⟩, fields, hm, hc⟩
    have hr : stripPrefix "LT1." token = some (String.ofList (p ++ '.' :: s)) := by
      rw [stripPrefix, List.isPrefixOf?_eq_some_iff_append_eq.mpr ht.symm]
      rfl
    have hsplit : splitOnce '.' (String.ofList (p ++ '.' :: s)) = some (String.ofList p, String.ofList s) := by
      rw [splitOnce, String.toList_ofList, Lib.Text.splitOnce_append hp]
      rfl
    simp only [readToken, Option.bind_eq_bind, hr, hsplit, hd, hs, hf, hm, hc, Option.bind_some]

end Functions

section Exact

variable {token : String} {keys : List KeyEntry} {now : Int64} {trip : Option Wire.Uuid} {revoked : List Wire.Uuid}
  {payload : Bytes} {signature : lib.Signature} {claims : Validate.TicketClaims}

lemma trip_any {trp : Wire.Uuid} : trip.any (fun expected => trp ≠ expected) = true ↔
    ∃ expected, trip = some expected ∧ trp ≠ expected := by
  cases trip with
  | none => simp
  | some expected => simp

lemma not_trip_any {trp : Wire.Uuid} (h : ∀ expected, trip = some expected → trp = expected) :
    ¬trip.any (fun expected => trp ≠ expected) = true :=
  fun hany => (trip_any.mp hany).elim (fun expected hne => hne.2 (h expected hne.1))

lemma authentic_verify (ha : Authentic lib token keys claims) :
    verifyTicketWithRevocations lib token keys now trip revoked =
      if claims.exp < now then .error (.expired claims.exp)
      else if trip.any (fun expected => claims.trp ≠ expected) then .error .wrongTrip
      else if claims.tid ∈ revoked then .error .revoked
      else .ok claims.verified := by
  obtain ⟨payload, signature, entry, key, hp, hc, hv, hk, hb, hs⟩ := ha
  have hv' : ¬claims.v ≠ 1 := not_not.mpr hv
  simp only [verifyTicketWithRevocations, readToken_iff.mpr ⟨hp, hc⟩, if_neg hv', firstKey_iff.mpr hk,
    holdsKey_iff.mpr hb, hs, Bool.true_eq_false, if_false]

lemma Verdict.sound {r : Except ValidationError VerifiedTicket} (h : Verdict lib token keys now trip revoked r) :
    verifyTicketWithRevocations lib token keys now trip revoked = r := by
  cases h with
  | notAToken h =>
    have hr : readToken lib token = none := by
      by_contra hne
      obtain ⟨⟨payload, signature, claims⟩, hr⟩ := Option.ne_none_iff_exists'.mp hne
      exact h ⟨payload, signature, claims, readToken_iff.mp hr⟩
    rw [verifyTicketWithRevocations, hr]
  | version hp hc hv =>
    simp only [verifyTicketWithRevocations, readToken_iff.mpr ⟨hp, hc⟩, if_pos hv]
  | noKey hp hc hv hk =>
    have hfind : keys.find? (fun k => k.kid == _) = none :=
      List.find?_eq_none.mpr (fun k hm => by simpa using hk k hm)
    simp only [verifyTicketWithRevocations, readToken_iff.mpr ⟨hp, hc⟩, if_neg (not_not.mpr hv), hfind]
  | @badKey _ _ _ entry hp hc hv hk hb =>
    have hnone : entry.verifyingKey lib = none := by
      by_contra hne
      obtain ⟨key, hkey⟩ := Option.ne_none_iff_exists'.mp hne
      exact hb ⟨key, holdsKey_iff.mp hkey⟩
    simp only [verifyTicketWithRevocations, readToken_iff.mpr ⟨hp, hc⟩, if_neg (not_not.mpr hv),
      firstKey_iff.mpr hk, hnone]
  | forged hp hc hv hk hb hs =>
    simp only [verifyTicketWithRevocations, readToken_iff.mpr ⟨hp, hc⟩, if_neg (not_not.mpr hv),
      firstKey_iff.mpr hk, holdsKey_iff.mpr hb, hs, if_true]
  | expired ha he => rw [authentic_verify ha, if_pos he]
  | wrongTrip ha he ht hne =>
    rw [authentic_verify ha, if_neg (Int64.not_lt.mpr he), if_pos (trip_any.mpr ⟨_, ht, hne⟩)]
  | revoked ha he ht hr =>
    rw [authentic_verify ha, if_neg (Int64.not_lt.mpr he), if_neg (not_trip_any ht), if_pos hr]
  | accepted ha he ht hr =>
    rw [authentic_verify ha, if_neg (Int64.not_lt.mpr he), if_neg (not_trip_any ht), if_neg hr]

lemma Verdict.total (lib : Libraries) (token : String) (keys : List KeyEntry) (now : Int64)
    (trip : Option Wire.Uuid) (revoked : List Wire.Uuid) : ∃ r, Verdict lib token keys now trip revoked r := by
  by_cases hform : ∃ payload signature claims, Parts lib token payload signature ∧
      SignedClaims lib payload claims
  swap
  · exact ⟨_, .notAToken hform⟩
  obtain ⟨payload, signature, claims, hp, hc⟩ := hform
  by_cases hv : claims.v = 1
  swap
  · exact ⟨_, .version hp hc hv⟩
  cases hk : keys.find? (fun k => k.kid == claims.kid) with
  | none => exact ⟨_, .noKey hp hc hv (fun k hm => by simpa using List.find?_eq_none.mp hk k hm)⟩
  | some entry =>
    have hk := firstKey_iff.mp hk
    by_cases hb : ∃ key, HoldsKey lib entry key
    swap
    · exact ⟨_, .badKey hp hc hv hk hb⟩
    obtain ⟨key, hb⟩ := hb
    cases hs : lib.verify key payload signature with
    | false => exact ⟨_, .forged hp hc hv hk hb hs⟩
    | true =>
      have ha : Authentic lib token keys claims := ⟨payload, signature, entry, key, hp, hc, hv, hk, hb, hs⟩
      by_cases he : claims.exp < now
      · exact ⟨_, .expired ha he⟩
      have he := Int64.not_lt.mp he
      by_cases ht : ∃ expected, trip = some expected ∧ claims.trp ≠ expected
      · obtain ⟨expected, ht, hne⟩ := ht
        exact ⟨_, .wrongTrip ha he ht hne⟩
      have ht : ∀ expected, trip = some expected → claims.trp = expected :=
        fun expected h => by_contra (fun hne => ht ⟨expected, h, hne⟩)
      by_cases hr : claims.tid ∈ revoked
      · exact ⟨_, .revoked ha he ht hr⟩
      · exact ⟨_, .accepted ha he ht hr⟩

end Exact

/-- The validator answers exactly the error of the first condition that fails; it returns a
ticket exactly for an authentic token that is current, for the expected trip and not
revoked, and a longer revocation list only turns such answers into `Revoked`. -/
theorem verify_ticket_exact (lib : Libraries) (token : String) (keys : List KeyEntry) (now : Int64)
    (trip : Option Wire.Uuid) (revoked : List Wire.Uuid) :
    (∀ r, verifyTicketWithRevocations lib token keys now trip revoked = r ↔
      Verdict lib token keys now trip revoked r) ∧
    (∀ t, verifyTicketWithRevocations lib token keys now trip revoked = .ok t ↔
      ∃ claims, Authentic lib token keys claims ∧ now ≤ claims.exp ∧
        (∀ expected, trip = some expected → claims.trp = expected) ∧ claims.tid ∉ revoked ∧
        t = claims.verified) ∧
    (∀ more, revoked ⊆ more →
      verifyTicketWithRevocations lib token keys now trip more =
        verifyTicketWithRevocations lib token keys now trip revoked ∨
      (∃ t, verifyTicketWithRevocations lib token keys now trip revoked = .ok t ∧ t.ticketId ∈ more) ∧
        verifyTicketWithRevocations lib token keys now trip more = .error .revoked) := by
  obtain ⟨r₀, h₀⟩ := Verdict.total lib token keys now trip revoked
  have hexact : ∀ r, verifyTicketWithRevocations lib token keys now trip revoked = r ↔
      Verdict lib token keys now trip revoked r := by
    intro r
    refine ⟨fun h => ?_, Verdict.sound⟩
    rw [← h, h₀.sound]
    exact h₀
  refine ⟨hexact, fun t => ?_, fun more hmore => ?_⟩
  · rw [hexact]
    constructor
    · intro h
      cases h with
      | accepted ha he ht hr => exact ⟨_, ha, he, ht, hr, rfl⟩
    · rintro ⟨claims, ha, he, ht, hr, rfl⟩
      exact .accepted ha he ht hr
  · rw [h₀.sound]
    cases h₀ with
    | notAToken h => exact .inl (Verdict.sound (.notAToken h))
    | version hp hc hv => exact .inl (Verdict.sound (.version hp hc hv))
    | noKey hp hc hv hk => exact .inl (Verdict.sound (.noKey hp hc hv hk))
    | badKey hp hc hv hk hb => exact .inl (Verdict.sound (.badKey hp hc hv hk hb))
    | forged hp hc hv hk hb hs => exact .inl (Verdict.sound (.forged hp hc hv hk hb hs))
    | expired ha he => exact .inl (Verdict.sound (.expired ha he))
    | wrongTrip ha he ht hne => exact .inl (Verdict.sound (.wrongTrip ha he ht hne))
    | revoked ha he ht hr => exact .inl (Verdict.sound (.revoked ha he ht (hmore hr)))
    | @accepted claims ha he ht hr =>
      by_cases hm : claims.tid ∈ more
      · exact .inr ⟨⟨_, rfl, hm⟩, Verdict.sound (.revoked ha he ht hm)⟩
      · exact .inl (Verdict.sound (.accepted ha he ht hm))

section Gate

variable {signer : Wire.TicketSigner lib} {claims : Wire.TicketClaims}

lemma parts_signToken (h : lib.Lawful) : Parts lib (signer.signToken claims) (lib.intoWriter claims.serialize)
    (lib.sign signer.key (lib.intoWriter claims.serialize)) := by
  let payload := lib.intoWriter claims.serialize
  let sigBytes := lib.toBytes (lib.sign signer.key payload)
  refine ⟨(lib.encode payload).toList, (lib.encode sigBytes).toList, sigBytes, ?_, h.encode_no_dot _, ?_, ?_,
    h.from_to _⟩
  · simp only [Wire.TicketSigner.signToken, String.toList_append, List.append_assoc]
    rfl
  · rw [String.ofList_toList, h.decode_encode]
  · rw [String.ofList_toList, h.decode_encode]

lemma claims_intoWriter (h : lib.Lawful) : SignedClaims lib (lib.intoWriter claims.serialize) (received claims) :=
  ⟨_, h.from_into _ (serialize_writable claims), deserialize_serialize claims⟩

lemma holdsKey_publicKey (h : lib.Lawful) {entry : KeyEntry} (hentry : entry.publicKey = signer.publicKeyB64) :
    HoldsKey lib entry (lib.verifyingKey signer.key) :=
  ⟨_, by rw [hentry, Wire.TicketSigner.publicKeyB64, h.decode_encode], h.asBytes_length _, h.from_as _⟩

lemma authentic_signToken (h : lib.Lawful) {keys : List KeyEntry} {entry : KeyEntry} (hv : claims.v = 1)
    (hkey : FirstKey keys claims.kid entry) (hentry : entry.publicKey = signer.publicKeyB64) :
    Authentic lib (signer.signToken claims) keys (received claims) :=
  ⟨_, _, entry, _, parts_signToken h, claims_intoWriter h, hv, hkey, holdsKey_publicKey h hentry,
    h.verify_sign _ _⟩

lemma accepted_signToken (h : lib.Lawful) {keys : List KeyEntry} {entry : KeyEntry} {now : Int64}
    {trip : Option Wire.Uuid} (hv : claims.v = 1) (hkey : FirstKey keys claims.kid entry)
    (hentry : entry.publicKey = signer.publicKeyB64) (hnow : now ≤ claims.exp)
    (htrip : ∀ expected, trip = some expected → expected = claims.trp) :
    verifyTicket lib (signer.signToken claims) keys now trip = .ok (received claims).verified := by
  have ha := authentic_signToken h hv hkey hentry
  have htrip' : ∀ expected, trip = some expected → (received claims).trp = expected :=
    fun expected he => (htrip expected he).symm
  exact Verdict.sound (.accepted ha hnow htrip' List.not_mem_nil)

/-- A ticket the engine signs passes the offline gate, with exactly the fields it was signed with. -/
theorem signed_ticket_verifies (h : lib.Lawful) (signer : Wire.TicketSigner lib) (claims : Wire.TicketClaims)
    (keys : List KeyEntry) (entry : KeyEntry) (now : Int64) (trip : Option Wire.Uuid) (hv : claims.v = 1)
    (hkid : signer.kid = claims.kid) (hkey : FirstKey keys signer.kid entry)
    (hentry : entry.publicKey = signer.publicKeyB64) (hnow : now ≤ claims.exp)
    (htrip : ∀ expected, trip = some expected → expected = claims.trp) :
    verifyTicket lib (signer.signToken claims) keys now trip = .ok {
      ticketId := claims.tid, tripId := claims.trp, unitCode := claims.unt, fromIndex := claims.f,
      toIndex := claims.t, passengerName := claims.pax, fareClass := claims.fc, expiresAtUnix := claims.exp,
      kid := claims.kid } :=
  accepted_signToken h hv (hkid ▸ hkey) hentry hnow htrip

end Gate

section Harbour

instance instCountableUInt8 : Countable UInt8 := ⟨UInt8.toNat, fun _ _ => UInt8.toNat_inj.mp⟩

instance instCountableChar : Countable Char := ⟨Char.toNat, fun _ _ h => Char.toNat_inj.mp h⟩

instance instCountableString : Countable String := Function.Injective.countable (fun _ _ => String.toList_inj.mp)

deriving instance Countable for Value

/-- A ticket of the harbour, with the texts the crates make of its payload, its key and its
signature. -/
def harbourClaims : Wire.TicketClaims where
  v := 1
  tid := ⟨(List.range' 1 16).map UInt8.ofNat, rfl⟩
  trp := ⟨(List.range' 17 16).map UInt8.ofNat, rfl⟩
  unt := "1A"
  f := 0
  t := 2
  pax := "Ana"
  fc := none
  exp := 4000000000
  kid := "k1"

def harbourPayload : Bytes :=
  [170, 97, 118, 1, 99, 116, 105, 100, 80, 1, 2, 3, 4, 5, 6, 7, 8, 9, 10, 11, 12, 13, 14, 15, 16, 99, 116, 114,
    112, 80, 17, 18, 19, 20, 21, 22, 23, 24, 25, 26, 27, 28, 29, 30, 31, 32, 99, 117, 110, 116, 98, 49, 65, 97, 102,
    0, 97, 116, 2, 99, 112, 97, 120, 99, 65, 110, 97, 98, 102, 99, 246, 99, 101, 120, 112, 26, 238, 107, 40, 0, 99,
    107, 105, 100, 98, 107, 49]

def harbourKey : Bytes :=
  [25, 127, 107, 35, 225, 108, 133, 50, 198, 171, 200, 56, 250, 205, 94, 167, 137, 190, 12, 118, 178, 146, 3, 52,
    3, 155, 250, 139, 61, 54, 141, 97]

def harbourSignature : Bytes :=
  [134, 50, 14, 177, 64, 117, 7, 185, 209, 22, 197, 193, 209, 227, 185, 27, 22, 167, 113, 8, 99, 242, 38, 100, 115,
    217, 55, 64, 25, 232, 114, 146, 35, 111, 138, 208, 145, 34, 64, 239, 171, 51, 30, 217, 94, 105, 241, 147, 228,
    0, 47, 252, 239, 84, 243, 123, 23, 156, 128, 212, 210, 119, 223, 8]

/-- What `URL_SAFE_NO_PAD` makes of the three. -/
def harbourTexts : List (Bytes × String) :=
  [(harbourPayload, "qmF2AWN0aWRQAQIDBAUGBwgJCgsMDQ4PEGN0cnBQERITFBUWFxgZGhscHR4fIGN1bnRiMUFhZgBhdAJjcGF4Y0Fu" ++
      "YWJmY_ZjZXhwGu5rKABja2lkYmsx"),
    (harbourKey, "GX9rI-FshTLGq8g4-s1ep4m-DHaykgM0A5v6iz02jWE"),
    (harbourSignature, "hjIOsUB1B7nRFsXB0eO5GxancQhj8iZkc9k3QBnocpIjb4rQkSJA76szHtleafGT5AAv_O9U83sXnIDU0nffCA")]

/-- Any other value stands for its number in some enumeration. -/
noncomputable def numbered {α : Type} [Countable α] : α → Nat := (exists_injective_nat α).choose

noncomputable def named {α : Type} [Countable α] : Nat → Option α := Function.partialInv numbered

lemma named_numbered {α : Type} [Countable α] (a : α) : named (numbered a) = some a :=
  Function.partialInv_left (exists_injective_nat α).choose_spec a

/-- Crates that behave on the harbour's ticket as the real ones do. -/
noncomputable def harbourCrates : Libraries where
  SigningKey := Bytes
  VerifyingKey := { b : Bytes // b.length = 32 }
  Signature := { b : Bytes // b.length = 64 }
  encode b := (harbourTexts.lookup b).getD (String.ofList ('~' :: List.replicate (numbered b) 'A'))
  decode s := ((harbourTexts.find? (fun e => e.2 == s)).map Prod.fst).or (named (s.toList.length - 1))
  intoWriter fields :=
    if fields = harbourClaims.serialize then harbourPayload else List.replicate (numbered fields) 0
  fromReader b := if b = harbourPayload then some harbourClaims.serialize else named b.length
  verifyingKey _ := ⟨harbourKey, rfl⟩
  asBytes key := key.1
  fromBytes b := if h : b.length = 32 then some ⟨b, h⟩ else none
  sign _ _ := ⟨harbourSignature, rfl⟩
  toBytes s := s.1
  fromSlice b := if h : b.length = 64 then some ⟨b, h⟩ else none
  verify key _ s := decide (key.1 = harbourKey ∧ s.1 = harbourSignature)

lemma harbourTexts_lookup {b : Bytes} {s : String} (h : harbourTexts.lookup b = some s) :
    (harbourTexts.find? (fun e => e.2 == s)).map Prod.fst = some b ∧ '.' ∉ s.toList := by
  have hmem : (b, s) ∈ harbourTexts := by
    obtain ⟨l₁, l₂, heq, -⟩ := List.lookup_eq_some_iff.mp h
    rw [heq]
    exact List.mem_append_right _ List.mem_cons_self
  simp only [harbourTexts, List.mem_cons, List.not_mem_nil, or_false] at hmem
  rcases hmem with hmem | hmem | hmem
  · cases hmem
    decide +kernel
  · cases hmem
    decide
  · cases hmem
    decide

lemma harbourTexts_tilde (n : Nat) :
    harbourTexts.find? (fun e => e.2 == String.ofList ('~' :: List.replicate n 'A')) = none := by
  refine List.find?_eq_none.mpr (fun e he heq => ?_)
  have hstart : ∀ e ∈ harbourTexts, e.2.toList.head? ≠ some '~' := by decide +kernel
  exact hstart e he (by rw [eq_of_beq heq, String.toList_ofList]; rfl)

lemma harbourCrates_lawful : harbourCrates.Lawful where
  decode_encode b := by
    show ((harbourTexts.find? (fun e => e.2 == (harbourTexts.lookup b).getD _)).map Prod.fst).or _ = _
    cases h : harbourTexts.lookup b with
    | some s =>
      rw [Option.getD_some, (harbourTexts_lookup h).1]
      rfl
    | none =>
      rw [Option.getD_none, harbourTexts_tilde]
      show named (((harbourTexts.lookup b).getD _).toList.length - 1) = _
      rw [h, Option.getD_none, String.toList_ofList, List.length_cons, List.length_replicate, Nat.add_sub_cancel,
        named_numbered]
  encode_no_dot b := by
    show '.' ∉ ((harbourTexts.lookup b).getD _).toList
    cases h : harbourTexts.lookup b with
    | some s => exact (harbourTexts_lookup h).2
    | none => simp
  from_into fields _ := by
    by_cases h : fields = harbourClaims.serialize
    · have hw : harbourCrates.intoWriter fields = harbourPayload := if_pos h
      have hr : harbourCrates.fromReader harbourPayload = some harbourClaims.serialize := rfl
      rw [hw, hr, h]
    · have hw : harbourCrates.intoWriter fields = List.replicate (numbered fields) 0 := if_neg h
      have hne : List.replicate (numbered fields) 0 ≠ harbourPayload :=
        fun heq => absurd (heq ▸ List.mem_cons_self : 170 ∈ List.replicate (numbered fields) (0 : UInt8))
          (fun hm => absurd (List.eq_of_mem_replicate hm) (by decide))
      have hr : harbourCrates.fromReader (List.replicate (numbered fields) 0) =
          named (List.replicate (numbered fields) (0 : UInt8)).length := if_neg hne
      rw [hw, hr, List.length_replicate, named_numbered]
  asBytes_length key := key.2
  from_as key := dif_pos key.2
  from_to s := dif_pos s.2
  verify_sign _ _ := rfl

def harbourSigner : Wire.TicketSigner harbourCrates := ⟨"k1", List.replicate 32 42⟩

def harbourKeys : List KeyEntry := [⟨"k0", "AAAA"⟩, ⟨"k1", "GX9rI-FshTLGq8g4-s1ep4m-DHaykgM0A5v6iz02jWE"⟩]

lemma harbour_first_key : FirstKey harbourKeys "k1" ⟨"k1", "GX9rI-FshTLGq8g4-s1ep4m-DHaykgM0A5v6iz02jWE"⟩ :=
  firstKey_iff.mp rfl

theorem signed_ticket_verifies_harbour :
    verifyTicket harbourCrates (harbourSigner.signToken harbourClaims) harbourKeys 1000000
        (some harbourClaims.trp) =
      .ok ⟨harbourClaims.tid, harbourClaims.trp, "1A", 0, 2, "Ana", none, 4000000000, "k1"⟩ :=
  signed_ticket_verifies harbourCrates_lawful harbourSigner harbourClaims harbourKeys _ 1000000 _ rfl rfl
    harbour_first_key (by decide) (by decide) (fun _ h => (Option.some.inj h).symm)

/-- The ticket is accepted, and no longer once it has been revoked. -/
theorem verify_ticket_exact_harbour :
    verifyTicketWithRevocations harbourCrates (harbourSigner.signToken harbourClaims) harbourKeys 1000000
        (some harbourClaims.trp) [] = .ok (received harbourClaims).verified ∧
    verifyTicketWithRevocations harbourCrates (harbourSigner.signToken harbourClaims) harbourKeys 1000000
        (some harbourClaims.trp) [harbourClaims.tid] = .error .revoked := by
  have hsigned : Authentic harbourCrates (harbourSigner.signToken harbourClaims) harbourKeys
      (received harbourClaims) :=
    authentic_signToken harbourCrates_lawful rfl harbour_first_key rfl
  obtain ⟨-, haccepts, hmore⟩ := verify_ticket_exact harbourCrates (harbourSigner.signToken harbourClaims)
    harbourKeys 1000000 (some harbourClaims.trp) []
  have haccepted := (haccepts (received harbourClaims).verified).mpr ⟨_, hsigned, by decide,
    fun _ h => Option.some.inj h, List.not_mem_nil, rfl⟩
  refine ⟨haccepted, ?_⟩
  rcases hmore [harbourClaims.tid] (List.nil_subset _) with hsame | ⟨-, hrevoked⟩
  · obtain ⟨-, haccepts', -⟩ := verify_ticket_exact harbourCrates (harbourSigner.signToken harbourClaims)
      harbourKeys 1000000 (some harbourClaims.trp) [harbourClaims.tid]
    obtain ⟨claims, -, -, -, hkept, hclaims⟩ := (haccepts' _).mp (hsame.trans haccepted)
    have htid : harbourClaims.tid = claims.tid := congrArg VerifiedTicket.ticketId hclaims
    exact absurd (htid ▸ List.mem_singleton_self _) hkept
  · exact hrevoked

end Harbour

end Lulan.Proofs
