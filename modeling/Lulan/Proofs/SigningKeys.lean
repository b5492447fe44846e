import Lulan.Engine.SigningKeys
import Lulan.Proofs.Validation

/-!
# Signing keys under rotation and sealing

Whatever replicas do to the `ticket_keys` table at the same time, every stored key opens to
the seed whose public half it publishes, no key goes away, and so every token ever issued
keeps verifying against the published keys.
-/

namespace Lulan.Proofs

open Lib Lib.ReadCommitted
open Wire (Bytes KeyLibraries KeysRow KeysRequest KeysError KeysResponse SealError)
open Validate (KeyEntry verifyTicket)

section Rows

variable (lib : KeyLibraries) (wrap : Bytes)

/-- The public half of the key of a seed, as its row publishes it. -/
def publicHalf (seed : Bytes) : Bytes := lib.asBytes (lib.verifyingKey (lib.fromSeed seed))

/-- The stored columns open to `seed`: in the clear on every replica, sealed on those that
have the wrapping key. -/
def Opens (r : Wire.TicketKeyRow) (seed : Bytes) : Prop :=
  ∀ env, r.encryption = none ∨ Wire.KeyWrapper.fromEnv env = .ok (some wrap) →
    Wire.unsealRow lib env r.kid r.encryption r.nonce r.secret = .ok seed

/-- A row opens to the seed whose public half it publishes. -/
def SoundKey (r : Wire.TicketKeyRow) : Prop := ∃ seed, Opens lib wrap r seed ∧ r.pub = publicHalf lib seed

/-- What can become of a row: nothing but its being active changes, unless it was stored in
the clear and is now sealed. -/
structure Evolves (r r' : Wire.TicketKeyRow) : Prop where
  kid : r'.kid = r.kid
  pub : r'.pub = r.pub
  stored : (r'.encryption = r.encryption ∧ r'.nonce = r.nonce ∧ r'.secret = r.secret) ∨
    ∃ nonce s, r.encryption = none ∧ r.secret.length = Wire.keyLen ∧ nonce.length = Wire.nonceLen ∧
      Wire.KeyWrapper.seal lib wrap r.kid r.secret nonce = .ok s ∧
      r'.encryption = some s.scheme ∧ r'.nonce = some s.nonce ∧ r'.secret = s.ciphertext

variable {lib wrap}

lemma seal_eq_ok {key : Bytes} {kid : String} {seed nonce : Bytes} {s : Wire.Sealed}
    (h : Wire.KeyWrapper.seal lib key kid seed nonce = .ok s) :
    lib.encrypt key nonce (Http.asBytes kid) seed = some s.ciphertext ∧ s.nonce = nonce ∧ s.scheme = Wire.scheme := by
  unfold Wire.KeyWrapper.seal at h
  split at h
  · cases h
  · rename_i ciphertext he
    cases h
    exact ⟨he, rfl, rfl⟩

/-- What a wrapping key has sealed it opens again. -/
lemma open_seal (hl : lib.Lawful) {key : Bytes} {kid : String} {seed nonce : Bytes} {s : Wire.Sealed}
    (hseed : seed.length = Wire.keyLen) (hnonce : nonce.length = Wire.nonceLen)
    (h : Wire.KeyWrapper.seal lib key kid seed nonce = .ok s) :
    Wire.KeyWrapper.open lib key kid s.scheme s.nonce s.ciphertext = .ok seed := by
  obtain ⟨he, hn, hs⟩ := seal_eq_ok h
  simp [Wire.KeyWrapper.open, hn, hs, hnonce, hl.decrypt_encrypt _ _ _ _ _ he, Wire.seedFrom, hseed]

lemma unsealRow_eq_ok {env : Option String} {kid : String} {encryption : Option String} {nonce : Option Bytes}
    {secret seed : Bytes} (h : Wire.unsealRow lib env kid encryption nonce secret = .ok seed) :
    encryption = none ∨ ∃ key, Wire.KeyWrapper.fromEnv env = .ok (some key) := by
  unfold Wire.unsealRow at h
  split at h
  · exact .inl rfl
  · split at h
    · cases h
    · cases h
    · rename_i key hkey
      exact .inr ⟨key, hkey⟩
  · cases h

lemma unsealRow_sealed {env : Option String} {kid scheme : String} {nonce secret : Bytes}
    (h : Wire.KeyWrapper.fromEnv env = .ok (some wrap)) :
    Wire.unsealRow lib env kid (some scheme) (some nonce) secret = Wire.KeyWrapper.open lib wrap kid scheme nonce secret := by
  simp only [Wire.unsealRow, h]

lemma Evolves.refl (r : Wire.TicketKeyRow) : Evolves lib wrap r r := ⟨rfl, rfl, .inl ⟨rfl, rfl, rfl⟩⟩

/-- Whether a key is active has no bearing on how it is stored. -/
lemma Evolves.active {r r' : Wire.TicketKeyRow} (h : Evolves lib wrap r r') (active : Bool) :
    Evolves lib wrap r { r' with active } := ⟨h.kid, h.pub, h.stored⟩

lemma Evolves.trans {r₁ r₂ r₃ : Wire.TicketKeyRow} (h : Evolves lib wrap r₁ r₂) (h' : Evolves lib wrap r₂ r₃) :
    Evolves lib wrap r₁ r₃ := by
  refine ⟨h'.kid.trans h.kid, h'.pub.trans h.pub, ?_⟩
  rcases h.stored with ⟨he, hn, hs⟩ | ⟨nonce, s, he, hlen, hnonce, hseal, he', hn', hs'⟩
  · rcases h'.stored with ⟨he', hn', hs'⟩ | ⟨nonce, s, he', hlen, hnonce, hseal, hrest⟩
    · exact .inl ⟨he'.trans he, hn'.trans hn, hs'.trans hs⟩
    · exact .inr ⟨nonce, s, he ▸ he', hs ▸ hlen, hnonce, by rwa [h.kid, hs] at hseal, hrest⟩
  · rcases h'.stored with ⟨he₂, hn₂, hs₂⟩ | ⟨_, _, he₂, -⟩
    · exact .inr ⟨nonce, s, he, hlen, hnonce, hseal, he₂.trans he', hn₂.trans hn', hs₂.trans hs'⟩
    · rw [he'] at he₂
      cases he₂

/-- A row still in the clear holds the secret it has always held. -/
lemma Evolves.clear {r r' : Wire.TicketKeyRow} (h : Evolves lib wrap r r') (hclear : r'.encryption = none) :
    r.encryption = none ∧ r'.secret = r.secret := by
  rcases h.stored with ⟨he, -, hs⟩ | ⟨_, _, -, -, -, -, he', -⟩
  · exact ⟨he.symm.trans hclear, hs⟩
  · rw [hclear] at he'
    cases he'

lemma seedFrom_eq_ok {b seed : Bytes} (h : Wire.seedFrom b = .ok seed) : b = seed ∧ b.length = Wire.keyLen := by
  unfold Wire.seedFrom at h
  split at h
  · rename_i hlen
    cases h
    exact ⟨rfl, hlen⟩
  · cases h

/-- Sealing in place does not change the seed. -/
lemma Opens.evolves (hl : lib.Lawful) {r r' : Wire.TicketKeyRow} {seed : Bytes} (h : Opens lib wrap r seed)
    (he : Evolves lib wrap r r') : Opens lib wrap r' seed := by
  intro env henv
  rcases he.stored with ⟨he₁, hn, hs⟩ | ⟨nonce, s, hclear, hlen, hnonce, hseal, he', hn', hs'⟩
  · rw [he.kid, he₁, hn, hs]
    exact h env (he₁ ▸ henv)
  · have hold := h env (.inl hclear)
    rw [hclear, Wire.unsealRow] at hold
    obtain ⟨rfl, -⟩ := seedFrom_eq_ok hold
    rcases henv with hnone | hwrap
    · rw [he'] at hnone
      cases hnone
    · rw [he.kid, he', hn', hs', unsealRow_sealed hwrap]
      exact open_seal hl hlen hnonce hseal

lemma SoundKey.evolves (hl : lib.Lawful) {r r' : Wire.TicketKeyRow} (h : SoundKey lib wrap r)
    (he : Evolves lib wrap r r') : SoundKey lib wrap r' := by
  obtain ⟨seed, hopens, hpub⟩ := h
  exact ⟨seed, hopens.evolves hl he, he.pub.trans hpub⟩

/-- A key as it is minted. -/
lemma mintedRow_sound (hl : lib.Lawful) {env : Option String} {drawn : Wire.Drawn} {row : Wire.TicketKeyRow}
    (hwrap : ∀ key, Wire.KeyWrapper.fromEnv env = .ok (some key) → key = wrap)
    (h : Wire.mintedRow lib env drawn = .ok row) : SoundKey lib wrap row := by
  unfold Wire.mintedRow at h
  split at h
  · cases h
  · cases h
    refine ⟨drawn.seed, fun env' _ => ?_, rfl⟩
    simp [Wire.unsealRow, Wire.seedFrom, drawn.seed_length]
  · rename_i key hkey
    have he := hwrap key hkey
    subst he
    split at h
    · cases h
    · rename_i s hs
      cases h
      refine ⟨drawn.seed, fun env' henv => ?_, rfl⟩
      rcases henv with hnone | hwrap'
      · cases hnone
      · rw [unsealRow_sealed hwrap']
        exact open_seal hl drawn.seed_length drawn.nonce_length hs

end Rows

section Store

abbrev KeysEvent (lib : KeyLibraries) : Type :=
  ReadCommitted.Ev KeysRequest KeysRow.id (Except KeysError (KeysResponse lib.toLibraries))

abbrev KeysConf (lib : KeyLibraries) : Type :=
  ReadCommitted.Conf KeysRequest KeysRow.id (Except KeysError (KeysResponse lib.toLibraries))

variable (lib : KeyLibraries) (wrap : Bytes)

/-- From one committed table to a later one: keys evolve, tickets stay. -/
structure KeysGrown (s s' : Table KeysRow.id) : Prop where
  keys : ∀ kid r, s.find? (.inl kid) = some (.key r) →
    ∃ r', s'.find? (.inl kid) = some (.key r') ∧ Evolves lib wrap r r'
  tickets : ∀ id t, s.find? (.inr id) = some (.ticket t) → s'.find? (.inr id) = some (.ticket t)

/-- The token was signed by a key whose public half is in the table. -/
def IssuedUnder (s : Table KeysRow.id) (t : Wire.TicketRow) : Prop :=
  ∃ (claims : Wire.TicketClaims) (signer : Wire.TicketSigner lib.toLibraries) (r : Wire.TicketKeyRow),
    t.token = signer.signToken claims ∧ claims.v = 1 ∧ claims.kid = signer.kid ∧
      s.find? (.inl signer.kid) = some (.key r) ∧ r.pub = lib.asBytes (lib.verifyingKey signer.key)

structure KeysOk (s : Table KeysRow.id) : Prop where
  sound : ∀ kid r, s.find? (.inl kid) = some (.key r) → SoundKey lib wrap r
  issued : ∀ id t, s.find? (.inr id) = some (.ticket t) → IssuedUnder lib s t

/-- What a transaction holds: versions of committed rows, and rows that are not there yet. -/
def PendingRow (s : Table KeysRow.id) (k : String ⊕ Wire.Uuid) : KeysRow → Prop
  | .key r' => (∃ r, s.find? k = some (.key r) ∧ Evolves lib wrap r r') ∨ s.find? k = none ∧ SoundKey lib wrap r'
  | .ticket t => s.find? k = none ∧ IssuedUnder lib s t

def OwnRows (s t : Table KeysRow.id) : Prop := ∀ k row, t.find? k = some row → PendingRow lib wrap s k row

variable {lib wrap}

lemma KeysGrown.refl (s : Table KeysRow.id) : KeysGrown lib wrap s s :=
  ⟨fun _ r hr => ⟨r, hr, .refl r⟩, fun _ _ ht => ht⟩

lemma KeysGrown.trans {s₁ s₂ s₃ : Table KeysRow.id} (h : KeysGrown lib wrap s₁ s₂) (h' : KeysGrown lib wrap s₂ s₃) :
    KeysGrown lib wrap s₁ s₃ := by
  refine ⟨fun kid r hr => ?_, fun id t ht => h'.tickets id t (h.tickets id t ht)⟩
  obtain ⟨r₂, hr₂, he⟩ := h.keys kid r hr
  obtain ⟨r₃, hr₃, he'⟩ := h'.keys kid r₂ hr₂
  exact ⟨r₃, hr₃, he.trans he'⟩

lemma IssuedUnder.grown {s s' : Table KeysRow.id} {t : Wire.TicketRow} (h : IssuedUnder lib s t)
    (hg : KeysGrown lib wrap s s') : IssuedUnder lib s' t := by
  obtain ⟨claims, signer, r, htoken, hv, hkid, hr, hpub⟩ := h
  obtain ⟨r', hr', he⟩ := hg.keys _ r hr
  exact ⟨claims, signer, r', htoken, hv, hkid, hr', he.pub.trans hpub⟩

/-- A ticket's key is a ticket's, a signing key's a signing key's. -/
lemma find?_inl {s : Table KeysRow.id} {kid : String} {row : KeysRow} (h : s.find? (.inl kid) = some row) :
    ∃ r, row = .key r ∧ r.kid = kid := by
  have hk := Table.find?_key h
  cases row with
  | key r => exact ⟨r, rfl, Sum.inl.inj hk⟩
  | ticket t => cases hk

lemma find?_inr {s : Table KeysRow.id} {id : Wire.Uuid} {row : KeysRow} (h : s.find? (.inr id) = some row) :
    ∃ t, row = .ticket t ∧ t.id = id := by
  have hk := Table.find?_key h
  cases row with
  | key r => cases hk
  | ticket t => exact ⟨t, rfl, Sum.inr.inj hk⟩

lemma OwnRows.empty (s : Table KeysRow.id) : OwnRows lib wrap s .empty := fun _ _ h => by cases h

lemma OwnRows.put {s t : Table KeysRow.id} {row : KeysRow} (h : OwnRows lib wrap s t)
    (hrow : PendingRow lib wrap s row.id row) : OwnRows lib wrap s (t.put row) := by
  intro k row' hk
  rw [Table.find?_put] at hk
  split at hk
  · rename_i he
    cases hk
    exact he ▸ hrow
  · exact h k row' hk

/-- Held rows stay what they are while others commit. -/
lemma OwnRows.grown {s s' t : Table KeysRow.id} (h : OwnRows lib wrap s t) (hg : KeysGrown lib wrap s s')
    (hframe : ∀ k, t.find? k ≠ none → s'.find? k = s.find? k) : OwnRows lib wrap s' t := by
  intro k row hk
  have hsame : s'.find? k = s.find? k := hframe k (by simp [hk])
  have hp := h k row hk
  cases row with
  | key r' => simpa only [PendingRow, hsame] using hp
  | ticket t => exact ⟨hsame.trans hp.1, hp.2.grown hg⟩

/-- What a transaction holds may be committed. -/
lemma OwnRows.commit (hl : lib.Lawful) {s t : Table KeysRow.id} (hs : KeysOk lib wrap s) (h : OwnRows lib wrap s t) :
    KeysGrown lib wrap s (s.merge t) ∧ KeysOk lib wrap (s.merge t) := by
  have hg : KeysGrown lib wrap s (s.merge t) := by
    refine ⟨fun kid r hr => ?_, fun id t' ht' => ?_⟩
    · rw [Table.find?_merge]
      cases hrow : t.find? (.inl kid) with
      | none => exact ⟨r, hr, .refl r⟩
      | some row =>
        obtain ⟨r', rfl, -⟩ := find?_inl hrow
        rcases h _ _ hrow with ⟨r₀, hr₀, he⟩ | ⟨hnone, -⟩
        · rw [hr] at hr₀
          cases hr₀
          exact ⟨r', rfl, he⟩
        · rw [hr] at hnone
          cases hnone
    · rw [Table.find?_merge]
      cases hrow : t.find? (.inr id) with
      | none => exact ht'
      | some row =>
        obtain ⟨t₁, rfl, -⟩ := find?_inr hrow
        have hnone := (h _ _ hrow).1
        rw [ht'] at hnone
        cases hnone
  refine ⟨hg, fun kid r hr => ?_, fun id t' ht' => ?_⟩
  · rw [Table.find?_merge] at hr
    cases hrow : t.find? (.inl kid) with
    | none =>
      rw [hrow, Option.none_or] at hr
      exact hs.sound kid r hr
    | some row =>
      rw [hrow, Option.some_or] at hr
      cases hr
      rcases h _ _ hrow with ⟨r₀, hr₀, he⟩ | ⟨-, hsound⟩
      · exact (hs.sound kid r₀ hr₀).evolves hl he
      · exact hsound
  · rw [Table.find?_merge] at ht'
    cases hrow : t.find? (.inr id) with
    | none =>
      rw [hrow, Option.none_or] at ht'
      exact (hs.issued id t' ht').grown hg
    | some row =>
      rw [hrow, Option.some_or] at ht'
      cases ht'
      exact (h _ _ hrow).2.grown hg

/-- A key as a transaction sees it is a version of the committed one, or its own. -/
lemma OwnRows.current {s t : Table KeysRow.id} {k : String ⊕ Wire.Uuid} {r : Wire.TicketKeyRow}
    (h : OwnRows lib wrap s t) (hr : (s.merge t).find? k = some (.key r)) : PendingRow lib wrap s k (.key r) := by
  rw [Table.find?_merge] at hr
  cases hrow : t.find? k with
  | none =>
    rw [hrow, Option.none_or] at hr
    exact .inl ⟨r, hr, .refl r⟩
  | some row =>
    rw [hrow, Option.some_or] at hr
    cases hr
    exact h k _ hrow

end Store

section Protocol

variable (lib : KeyLibraries) (wrap : Bytes)

/-- A replica on which a wrapping key is configured has this one. -/
def SameWrapping (i : KeysRequest) : Prop := ∀ key, Wire.KeyWrapper.fromEnv i.env = .ok (some key) → key = wrap

/-- The request is one for the published keys. -/
def readsKeys : KeysRequest → Bool
  | .publicKeys => true
  | _ => false

/-- A token is in the tickets table. -/
def Stored (s : Table KeysRow.id) (token : String) : Prop :=
  ∃ id t, s.find? (.inr id) = some (.ticket t) ∧ t.token = token

structure KeysInv (s : Table KeysRow.id) (h : List (KeysEvent lib)) : Prop where
  ok : KeysOk lib wrap s
  wrapping : ∀ pid i, .arrive pid i ∈ h → SameWrapping wrap i
  tokens : ∀ pid i tokens, .did pid i (.answer (.ok (.issued tokens))) ∈ h → ∀ token ∈ tokens, Stored s token

/-- All replicas that have a wrapping key have the same one. -/
def OneWrapping (_ : Table KeysRow.id) (_ : List (KeysEvent lib)) : KeysEvent lib → Prop
  | .arrive _ i => SameWrapping wrap i
  | _ => True

/-- What each event of a replica keeps to. -/
def KeysStep (s : Table KeysRow.id) (h : List (KeysEvent lib)) : KeysEvent lib → Prop
  | .arrive _ i => SameWrapping wrap i
  | .did _ i (.snap _ _ seen) => readsKeys i = true → seen = s.rows
  | .did _ _ (.commit _ rows) => KeysGrown lib wrap s (s.merge rows) ∧ KeysOk lib wrap (s.merge rows)
  | .did _ _ (.answer (.ok (.issued tokens))) => ∀ token ∈ tokens, Stored s token
  | .did pid i (.answer (.ok (.keys entries))) => readsKeys i = true ∧
    ∃ g seen, g ++ [.did pid i (.snap .side .select seen)] <+: h ∧ entries = Wire.publicKeys lib seen
  | _ => True

variable {lib wrap}

lemma KeysStep.grown {s : Table KeysRow.id} {h : List (KeysEvent lib)} {ev : KeysEvent lib}
    (hE : KeysStep lib wrap s h ev) : KeysGrown lib wrap s (ev.store s) := by
  cases ev with
  | arrive pid i => exact .refl s
  | did pid i n =>
    cases n with
    | commit d rows => exact hE.1
    | _ => exact .refl s

lemma Stored.grown {s s' : Table KeysRow.id} {token : String} (h : Stored s token) (hg : KeysGrown lib wrap s s') :
    Stored s' token := by
  obtain ⟨id, t, ht, htoken⟩ := h
  exact ⟨id, t, hg.tickets id t ht, htoken⟩

lemma KeysStep.step {s : Table KeysRow.id} {h : List (KeysEvent lib)} {ev : KeysEvent lib}
    (hI : KeysInv lib wrap s h) (hE : KeysStep lib wrap s h ev) : KeysInv lib wrap (ev.store s) (h ++ [ev]) := by
  refine ⟨?_, fun pid i hm => ?_, fun pid i tokens hm token ht => ?_⟩
  · cases ev with
    | arrive pid i => exact hI.ok
    | did pid i n =>
      cases n with
      | commit d rows => exact hE.2
      | _ => exact hI.ok
  · rcases List.mem_append.mp hm with hm | hm
    · exact hI.wrapping pid i hm
    · cases List.mem_singleton.mp hm
      exact hE
  · rcases List.mem_append.mp hm with hm | hm
    · exact (hI.tokens pid i tokens hm token ht).grown hE.grown
    · cases List.mem_singleton.mp hm
      exact hE token ht

/-- What stays true as the table grows. -/
def Growing (lib : KeyLibraries) (wrap : Bytes) (A : Table KeysRow.id → Prop) : Prop :=
  ∀ s s', KeysGrown lib wrap s s' → A s → A s'

lemma Growing.stable {A : Table KeysRow.id → Prop} (hA : Growing lib wrap A) {pid : Nat}
    {own : Conn → Table KeysRow.id} :
    Stable (KeysInv lib wrap) (KeysStep lib wrap) pid own (fun s _ => A s) :=
  fun s _ _ _ _ hE _ h => hA s _ hE.grown h

lemma Growing.stable_own {A : Table KeysRow.id → Prop} (hA : Growing lib wrap A) {pid : Nat}
    {own : Conn → Table KeysRow.id} :
    Stable (KeysInv lib wrap) (KeysStep lib wrap) pid own
      (fun s _ => (∀ d, OwnRows lib wrap s (own d)) ∧ A s) :=
  fun s _ _ _ _ hE hframe h =>
    ⟨fun d => (h.1 d).grown hE.grown (fun k hk => hframe d k hk), hA s _ hE.grown h.2⟩

section Statements

variable {pid : Nat} {i : KeysRequest} {own : Conn → Table KeysRow.id} {s : Table KeysRow.id}
  {h : List (KeysEvent lib)} {A : Table KeysRow.id → Prop}

abbrev KeysWp (lib : KeyLibraries) (wrap : Bytes) (pid : Nat) (i : KeysRequest) {ε α : Type}
    (x : ExceptT ε (Script KeysRow.id) α) (Q : α → (Conn → Table KeysRow.id) → Table KeysRow.id → Prop)
    (own : Conn → Table KeysRow.id) (s : Table KeysRow.id) (h : List (KeysEvent lib)) : Prop :=
  Wp (KeysInv lib wrap) (OneWrapping lib wrap) (KeysStep lib wrap) pid i x (fun a own s _ => Q a own s) own s h

/-- An `UPDATE` of rows that keeps each of them a version of the committed one. -/
lemma keys_wp_change {d : Conn} {u : Change KeysRow.id} (hA : Growing lib wrap A) (hi : readsKeys i = false)
    (hown : ∀ d, OwnRows lib wrap s (own d)) (h₁ : A s)
    (hset : ∀ s t seen j row, OwnRows lib wrap s t → A s → (s.merge t).find? j = some row →
      u.cond seen row = true → PendingRow lib wrap s j (u.set.set row)) :
    KeysWp lib wrap pid i (Script.change d u) (fun _ own' s => (∀ d, OwnRows lib wrap s (own' d)) ∧ A s ∧
      ∀ d', d' ≠ d → own' d' = own d') own s h := by
  have hread : ∀ s h seen, KeysStep lib wrap s h (.did pid i (.snap d .update seen)) :=
    fun s h seen hr => absurd hr (by simp [hi])
  refine wp_change (fun _ _ _ t s _ => (∀ d', OwnRows lib wrap s (Function.update own d t d')) ∧ A s) ⟨hown, h₁⟩
    hA.stable_own (fun _ _ _ t => hA.stable_own) (fun s h hs hI _ => ?_)
    (fun seen pending done t s h j r hl hI hj hr hc _ => ?_) (fun _ _ _ _ _ _ _ hl _ _ _ => hl)
    (fun _ _ _ t s _ hl _ _ => ⟨hl.1, hl.2, fun d' hd => Function.update_of_ne hd _ _⟩)
  · exact ⟨hread s h _, by rw [Function.update_eq_self]; exact hs.1, hs.2⟩
  · have ht : OwnRows lib wrap s t := by simpa using hl.1 d
    refine ⟨trivial, fun d' => ?_, hl.2⟩
    by_cases hd : d' = d
    · subst hd
      rw [Function.update_self]
      refine ht.put ?_
      rw [u.set.key_set r, Table.find?_key hr]
      exact hset s t seen j r ht hl.2 hr hc
    · rw [Function.update_of_ne hd]
      have hd' := hl.1 d'
      rwa [Function.update_of_ne hd] at hd'

/-- An `INSERT` of a row that is not there yet. -/
lemma keys_wp_add {d : Conn} {row : KeysRow} (hA : Growing lib wrap A) (hi : readsKeys i = false)
    (hown : ∀ d, OwnRows lib wrap s (own d)) (h₁ : A s)
    (hrow : ∀ s, A s → s.find? row.id = none → PendingRow lib wrap s row.id row) :
    KeysWp lib wrap pid i (Script.add d ⟨fun _ => [row], true⟩) (fun _ own' s => (∀ d, OwnRows lib wrap s (own' d)) ∧
      A s ∧ (∀ d', d' ≠ d → own' d' = own d') ∧ (own' d).find? row.id = some row ∧
      ∀ k r, (own d).find? k = some r → (own' d).find? k = some r) own s h := by
  have hread : ∀ s h seen, KeysStep lib wrap s h (.did pid i (.snap d .insert seen)) :=
    fun s h seen hr => absurd hr (by simp [hi])
  refine wp_add (fun _ pending _ t s _ => ((∀ d', OwnRows lib wrap s (Function.update own d t d')) ∧ A s) ∧
    (pending = [row] ∧ t = own d ∨ pending = [] ∧ t.find? row.id = some row ∧
      ∀ k r, (own d).find? k = some r → t.find? k = some r)) ⟨hown, h₁⟩ hA.stable_own
    (fun _ _ _ t s h ev hne hI hE hf hs => ⟨hA.stable_own s h ev hne hI hE hf hs.1, hs.2⟩) (fun s h hs hI _ => ?_)
    (fun seen r pending done t s h hl hI hr _ => ?_) (fun _ _ _ _ _ _ _ hstrict => nomatch hstrict)
    (fun _ _ t s _ hl _ => ?_)
  · exact ⟨hread s h _, by rw [Function.update_eq_self]; exact hs, .inl ⟨rfl, rfl⟩⟩
  · obtain ⟨⟨ho, hAs⟩, ⟨hp, rfl⟩ | ⟨hp, -⟩⟩ := hl
    · obtain ⟨rfl, rfl⟩ := List.cons.inj hp
      rw [Table.find?_merge, Option.or_eq_none_iff] at hr
      refine ⟨trivial, ⟨fun d' => ?_, hAs⟩, .inr ⟨rfl, by rw [Table.find?_put, if_pos rfl], fun k r' hk => ?_⟩⟩
      · by_cases hd : d' = d
        · subst hd
          rw [Function.update_self]
          have ht : OwnRows lib wrap s (own d') := by simpa using ho d'
          exact ht.put (hrow s hAs hr.2)
        · rw [Function.update_of_ne hd]
          have hd' := ho d'
          rwa [Function.update_of_ne hd] at hd'
      · rw [Table.find?_put, if_neg (fun he => ?_)]
        · exact hk
        · rw [← he, hr.1] at hk
          cases hk
    · cases hp
  · obtain ⟨⟨ho, hAs⟩, ⟨hp, -⟩ | ⟨-, hrow', hkeep⟩⟩ := hl
    · cases hp
    · exact ⟨ho, hAs, fun d' hd => Function.update_of_ne hd _ _, by rwa [Function.update_self],
        by simpa only [Function.update_self] using hkeep⟩

/-- A commit; what it has published is there to stay. -/
lemma keys_wp_publish (hl : lib.Lawful) {d : Conn} (hA : Growing lib wrap A) (hown : OwnRows lib wrap s (own d))
    (hother : ∀ d', d' ≠ d → own d' = .empty) (h₁ : A s) :
    KeysWp lib wrap pid i (Script.publish d) (fun _ own' s => (∀ d', own' d' = .empty) ∧ A s ∧
      ∀ id t, (own d).find? (.inr id) = some (.ticket t) → s.find? (.inr id) = some (.ticket t)) own s h := by
  have hall : ∀ d', OwnRows lib wrap s (own d') := by
    intro d'
    by_cases hd : d' = d
    · exact hd ▸ hown
    · exact hother d' hd ▸ OwnRows.empty s
  refine wp_publish ⟨hall, h₁⟩ hA.stable_own (fun s h hs hI _ => ?_)
  obtain ⟨hg, hok⟩ := (hs.1 d).commit hl hI.ok
  refine ⟨⟨hg, hok⟩, fun d' => ?_, hA _ _ hg hs.2, fun id t ht => ?_⟩
  · by_cases hd : d' = d
    · subst hd
      exact Function.update_self ..
    · rw [Function.update_of_ne hd]
      exact hother d' hd
  · rw [Table.find?_merge, ht, Option.some_or]

end Statements

section Functions

variable {pid : Nat} {i : KeysRequest} {own : Conn → Table KeysRow.id} {s : Table KeysRow.id}
  {h : List (KeysEvent lib)} {A : Table KeysRow.id → Prop}

/-- The public half of the signer's key is in the table. -/
def Signs (lib : KeyLibraries) (s : Table KeysRow.id) (signer : Wire.TicketSigner lib.toLibraries) : Prop :=
  ∃ r, s.find? (.inl signer.kid) = some (.key r) ∧ r.pub = lib.asBytes (lib.verifyingKey signer.key)

lemma signs_growing (signer : Wire.TicketSigner lib.toLibraries) :
    Growing lib wrap (fun s => Signs lib s signer) := by
  rintro s s' hg ⟨r, hr, hpub⟩
  obtain ⟨r', hr', he⟩ := hg.keys _ r hr
  exact ⟨r', hr', he.pub.trans hpub⟩

lemma mem_keyRows {rows : List KeysRow} {r : Wire.TicketKeyRow} (h : r ∈ Wire.keyRows rows) : .key r ∈ rows := by
  obtain ⟨row, hrow, he⟩ := List.mem_filterMap.mp h
  cases row with
  | key r' =>
    cases he
    exact hrow
  | ticket t => cases he

lemma activeRow_mem {rows : List KeysRow} {r : Wire.TicketKeyRow} (h : Wire.activeRow rows = some r) :
    .key r ∈ rows := by
  have hm := List.mem_of_head? h
  rw [List.mem_insertionSort] at hm
  exact mem_keyRows (List.mem_filter.mp hm).1

/-- A row that opens yields the key whose public half it publishes. -/
lemma fromRow_signs {env : Option String} {r : Wire.TicketKeyRow} {signer : Wire.TicketSigner lib.toLibraries}
    (hwrap : ∀ key, Wire.KeyWrapper.fromEnv env = .ok (some key) → key = wrap) (hr : SoundKey lib wrap r)
    (hs : s.find? (.inl r.kid) = some (.key r)) (h : Wire.fromRow lib env r = .ok signer) : Signs lib s signer := by
  obtain ⟨seed, hopens, hpub⟩ := hr
  unfold Wire.fromRow at h
  cases hu : Wire.unsealRow lib env r.kid r.encryption r.nonce r.secret with
  | error e =>
    rw [hu] at h
    cases h
  | ok seed' =>
    have henv : r.encryption = none ∨ Wire.KeyWrapper.fromEnv env = .ok (some wrap) := by
      rcases unsealRow_eq_ok hu with hnone | ⟨key, hkey⟩
      · exact .inl hnone
      · exact .inr (hwrap key hkey ▸ hkey)
    rw [hopens env henv] at h
    cases h
    exact ⟨r, hs, hpub⟩

lemma keys_wp_unsealed {α : Type} {x : Except SealError α}
    {Q : α → (Conn → Table KeysRow.id) → Table KeysRow.id → List (KeysEvent lib) → Prop}
    (h₁ : ∀ a, x = .ok a → Q a own s h) :
    Wp (KeysInv lib wrap) (OneWrapping lib wrap) (KeysStep lib wrap) pid i (Wire.KeysScript.unsealed x) Q own s h := by
  cases x with
  | error e => exact wp_throw
  | ok a => exact wp_pure (h₁ a rfl)

lemma keys_wp_active {env : Option String}
    (hwrap : ∀ key, Wire.KeyWrapper.fromEnv env = .ok (some key) → key = wrap) (hside : own .side = .empty)
    (hi : readsKeys i = false) (hA : Growing lib wrap A) (h₁ : A s) :
    KeysWp lib wrap pid i (Wire.active lib env) (fun o own' s => own' = own ∧ A s ∧
      ∀ signer, o = some signer → Signs lib s signer) own s h := by
  refine wp_bind (wp_adapt (wp_read h₁ hA.stable (fun s h hs hI _ => ⟨fun hr => absurd hr (by simp [hi]), ?_⟩)))
  rw [hside, Table.merge_empty]
  cases ha : Wire.activeRow s.rows with
  | none =>
    refine wp_pure ⟨rfl, hs, fun signer he => ?_⟩
    cases he
  | some r =>
    have hr : s.find? (.inl r.kid) = some (.key r) := Table.find?_of_mem (activeRow_mem ha)
    refine wp_map (keys_wp_unsealed (fun signer hf => ⟨rfl, hs, fun signer' he => ?_⟩))
    cases he
    exact fromRow_signs hwrap (hI.ok.sound _ r hr) hr hf

lemma growing_true : Growing lib wrap (fun _ => True) := fun _ _ _ _ => trivial

lemma ownRows_of_empty (hempty : ∀ d, own d = .empty) : ∀ d, OwnRows lib wrap s (own d) :=
  fun d => hempty d ▸ OwnRows.empty s

lemma keys_wp_rotate (hl : lib.Lawful) {env : Option String} {drawn : Wire.Drawn}
    (hwrap : ∀ key, Wire.KeyWrapper.fromEnv env = .ok (some key) → key = wrap) (hempty : ∀ d, own d = .empty)
    (hi : readsKeys i = false) : KeysWp lib wrap pid i (Wire.rotate lib env drawn) (fun _ _ _ => True) own s h := by
  refine wp_bind (keys_wp_unsealed (fun row hrow => ?_))
  refine wp_bind (wp_adapt (wp_mono (keys_wp_change growing_true hi (ownRows_of_empty hempty) trivial
    (fun s t seen j r ho _ hr hc => ?_)) (fun _ own₁ s h ⟨ho, _, hsame⟩ => ?_)))
  · cases r with
    | key r =>
      rcases ho.current hr with ⟨r₀, hr₀, he⟩ | ⟨hnone, hsound⟩
      · exact .inl ⟨r₀, hr₀, he.active false⟩
      · exact .inr ⟨hnone, hsound⟩
    | ticket t => cases hc
  · refine wp_bind (wp_adapt (wp_mono (keys_wp_add growing_true hi ho trivial (fun s _ hnone => ?_))
      (fun _ own₂ s h ⟨ho₂, _, hsame₂, _⟩ => ?_)))
    · exact .inr ⟨hnone, mintedRow_sound hl hwrap hrow⟩
    · refine wp_bind (wp_adapt (wp_mono (keys_wp_publish hl growing_true (ho₂ .main) (fun d hd => ?_) trivial)
        (fun _ _ _ _ _ => wp_pure trivial)))
      rw [hsame₂ d hd, hsame d hd, hempty]

lemma keys_wp_loadOrCreate (hl : lib.Lawful) {env : Option String} {drawn : Wire.Drawn}
    (hwrap : ∀ key, Wire.KeyWrapper.fromEnv env = .ok (some key) → key = wrap) (hempty : ∀ d, own d = .empty)
    (hi : readsKeys i = false) :
    KeysWp lib wrap pid i (Wire.loadOrCreate lib env drawn) (fun _ _ _ => True) own s h := by
  refine wp_bind (wp_mono (keys_wp_active hwrap (hempty .side) hi growing_true trivial) (fun o own₁ s h ho => ?_))
  obtain ⟨rfl, -⟩ := ho
  cases o with
  | none => exact keys_wp_rotate hl hwrap hempty hi
  | some signer => exact wp_pure trivial

/-- A row that was read is still there, as it was or sealed since. -/
def Persists (lib : KeyLibraries) (wrap : Bytes) (rows : List Wire.TicketKeyRow) (s : Table KeysRow.id) : Prop :=
  ∀ r ∈ rows, ∃ r', s.find? (.inl r.kid) = some (.key r') ∧ Evolves lib wrap r r'

lemma persists_growing (rows : List Wire.TicketKeyRow) : Growing lib wrap (Persists lib wrap rows) := by
  intro s s' hg hp r hr
  obtain ⟨r', hr', he⟩ := hp r hr
  obtain ⟨r₂, hr₂, he₂⟩ := hg.keys _ r' hr'
  exact ⟨r₂, hr₂, he.trans he₂⟩

lemma keys_wp_sealRows (hl : lib.Lawful) {nonces : Nat → { b : Bytes // b.length = Wire.nonceLen }}
    {rows : List Wire.TicketKeyRow} {n count : Nat} (hempty : ∀ d, own d = .empty) (hi : readsKeys i = false)
    (hrows : Persists lib wrap rows s) :
    KeysWp lib wrap pid i (Wire.sealRows lib wrap nonces rows n count) (fun _ _ _ => True) own s h := by
  induction rows generalizing n count own s h with
  | nil => exact wp_pure trivial
  | cons row rest ih =>
    unfold Wire.sealRows
    split
    · exact ih hempty (fun r hr => hrows r (by simp [hr]))
    · rename_i hlen
      refine wp_bind (keys_wp_unsealed (fun sealed hseal => ?_))
      refine wp_bind (wp_adapt (wp_mono (keys_wp_change (persists_growing (row :: rest)) hi (ownRows_of_empty hempty)
        hrows (fun s t seen j r ho hp hr hc => ?_)) (fun updated own₁ s h ⟨ho, hp, hsame⟩ => ?_)))
      · cases r with
        | key r =>
          obtain ⟨hkid, hclear⟩ := Bool.and_eq_true_iff.mp hc
          have hkid' : r.kid = row.kid := of_decide_eq_true hkid
          have hj : j = .inl row.kid := by
            rw [← hkid', ← Table.find?_key hr]
            rfl
          subst hj
          obtain ⟨r', hr', he'⟩ := hp row (by simp)
          rcases ho.current hr with ⟨r₀, hr₀, he⟩ | ⟨hnone, -⟩
          · rw [hr'] at hr₀
            cases hr₀
            obtain ⟨hclear₀, hsecret⟩ := he.clear (Option.isNone_iff_eq_none.mp hclear)
            obtain ⟨-, hsecret₀⟩ := he'.clear hclear₀
            refine .inl ⟨r', hr', he.kid, he.pub, .inr ⟨(nonces n).1, sealed, hclear₀, ?_, (nonces n).2, ?_,
              rfl, rfl, rfl⟩⟩
            · rw [hsecret₀]
              exact not_not.mp hlen
            · rw [he'.kid, hsecret₀]
              exact hseal
          · rw [hr'] at hnone
            cases hnone
        | ticket t => cases hc
      · refine wp_bind (wp_adapt (wp_mono (keys_wp_publish hl (persists_growing (row :: rest)) (ho .side)
          (fun d hd => ?_) hp) (fun _ own₂ s h ⟨hempty₂, hp₂, _⟩ => ?_)))
        · rw [hsame d hd, hempty]
        · exact ih hempty₂ (fun r hr => hp₂ r (by simp [hr]))

lemma keys_wp_sealStoredKeys (hl : lib.Lawful) {env : Option String}
    {nonces : Nat → { b : Bytes // b.length = Wire.nonceLen }}
    (hwrap : ∀ key, Wire.KeyWrapper.fromEnv env = .ok (some key) → key = wrap) (hempty : ∀ d, own d = .empty)
    (hi : readsKeys i = false) :
    KeysWp lib wrap pid i (Wire.sealStoredKeys lib env nonces) (fun _ _ _ => True) own s h := by
  refine wp_bind (keys_wp_unsealed (fun o ho => ?_))
  cases o with
  | none => exact wp_pure trivial
  | some key =>
    have he := hwrap key ho
    subst he
    refine wp_bind (wp_adapt (wp_read (A := fun _ _ => True) trivial (fun _ _ _ _ _ _ _ _ => trivial)
      (fun s h _ _ _ => ⟨fun hr => absurd hr (by simp [hi]), ?_⟩)))
    rw [hempty, Table.merge_empty]
    refine keys_wp_sealRows hl hempty hi (fun r hr => ⟨r, ?_, .refl r⟩)
    exact Table.find?_of_mem (mem_keyRows (List.mem_filter.mp hr).1)

lemma Signs.issued {signer : Wire.TicketSigner lib.toLibraries} (hs : Signs lib s signer) (line : Wire.IssueLine) :
    IssuedUnder lib s ⟨line.ticketId, signer.signToken (line.claims signer.kid), signer.kid⟩ := by
  obtain ⟨r, hr, hpub⟩ := hs
  exact ⟨line.claims signer.kid, signer, r, rfl, rfl, rfl, hr, hpub⟩

/-- The tickets of an order, as the transaction holds them before its commit. -/
lemma keys_wp_insertTickets {signer : Wire.TicketSigner lib.toLibraries} {lines : List Wire.IssueLine}
    (hi : readsKeys i = false) (hown : ∀ d, OwnRows lib wrap s (own d)) (hs : Signs lib s signer) :
    KeysWp lib wrap pid i (Wire.insertTickets lib signer lines) (fun tokens own' s =>
      (∀ d, OwnRows lib wrap s (own' d)) ∧ (∀ d, d ≠ .main → own' d = own d) ∧
      (∀ token ∈ tokens, ∃ id t, (own' .main).find? (.inr id) = some (.ticket t) ∧ t.token = token) ∧
      ∀ k r, (own .main).find? k = some r → (own' .main).find? k = some r) own s h := by
  induction lines generalizing own s h with
  | nil => exact wp_pure ⟨hown, fun _ _ => rfl, fun _ ht => absurd ht List.not_mem_nil, fun _ _ hk => hk⟩
  | cons line rest ih =>
    refine wp_bind (wp_adapt (wp_mono (keys_wp_add (signs_growing signer) hi hown hs
      (fun s hs hnone => ⟨hnone, hs.issued line⟩)) (fun _ own₁ s h ⟨ho, hs₁, hsame, hrow, hkeep⟩ => ?_)))
    refine wp_bind (wp_mono (ih ho hs₁) (fun tokens own₂ s h ⟨ho₂, hsame₂, htokens, hkeep₂⟩ => ?_))
    refine wp_pure ⟨ho₂, fun d hd => (hsame₂ d hd).trans (hsame d hd), fun token ht => ?_,
      fun k r hk => hkeep₂ k r (hkeep k r hk)⟩
    rcases List.mem_cons.mp ht with rfl | ht
    · exact ⟨_, _, hkeep₂ _ _ hrow, rfl⟩
    · exact htokens token ht

lemma stored_growing (tokens : List String) :
    Growing lib wrap (fun s => ∀ token ∈ tokens, Stored s token) :=
  fun _ _ hg h token ht => (h token ht).grown hg

lemma keys_wp_issueForOrder (hl : lib.Lawful) {env : Option String} {lines : List Wire.IssueLine}
    (hwrap : ∀ key, Wire.KeyWrapper.fromEnv env = .ok (some key) → key = wrap) (hempty : ∀ d, own d = .empty)
    (hi : readsKeys i = false) :
    KeysWp lib wrap pid i (Wire.issueForOrder lib env lines)
      (fun tokens _ s => ∀ token ∈ tokens, Stored s token) own s h := by
  refine wp_bind (wp_mono (keys_wp_active hwrap (hempty .side) hi growing_true trivial) (fun o own₁ s h ho => ?_))
  obtain ⟨rfl, -, hsigns⟩ := ho
  cases o with
  | none => exact wp_throw
  | some signer =>
    refine wp_bind (wp_mono (keys_wp_insertTickets hi (ownRows_of_empty hempty) (hsigns signer rfl))
      (fun tokens own₂ s h ⟨ho₂, hsame, htokens, _⟩ => ?_))
    refine wp_bind (wp_adapt (wp_mono (keys_wp_publish hl growing_true (ho₂ .main) (fun d hd => ?_) trivial)
      (fun _ own₃ s h ⟨_, _, hstored⟩ => wp_pure (fun token ht => ?_))))
    · rw [hsame d hd, hempty]
    · obtain ⟨id, t, hrow, htoken⟩ := htokens token ht
      exact ⟨id, t, hstored id t hrow, htoken⟩

lemma keys_wp_publicKeys (hempty : ∀ d, own d = .empty) :
    Wp (KeysInv lib wrap) (OneWrapping lib wrap) (KeysStep lib wrap) pid i
      (do
        let rows ← Wire.KeysScript.sql (Script.read .side)
        return (KeysResponse.keys (Wire.publicKeys lib rows) : KeysResponse lib.toLibraries))
      (fun a _ _ h => ∃ g seen, g ++ [.did pid i (.snap .side .select seen)] <+: h ∧
        a = KeysResponse.keys (Wire.publicKeys lib seen)) own s h := by
  refine wp_bind (wp_adapt (wp_read (A := fun _ _ => True) trivial (fun _ _ _ _ _ _ _ _ => trivial)
    (fun s h _ _ _ => ⟨fun _ => ?_, wp_pure ⟨h, _, List.prefix_rfl, rfl⟩⟩)))
  rw [hempty, Table.merge_empty]

/-- A function whose result is wrapped in its response. -/
lemma safe_response {α : Type} {mk : α → KeysResponse lib.toLibraries} {x : Wire.KeysScript α}
    {B : α → Table KeysRow.id → Prop} (hx : KeysWp lib wrap pid i x (fun a _ s => B a s) own s h)
    (hB : ∀ a, Growing lib wrap (B a))
    (hans : ∀ a s h, B a s → KeysStep lib wrap s h (.did pid i (.answer (.ok (mk a))))) :
    Safe (KeysInv lib wrap) (OneWrapping lib wrap) (KeysStep lib wrap) pid i
      ⟨own, .ready (ExceptT.run (mk <$> x))⟩ s h := by
  refine safe_of_wp (Q := fun r _ s _ => ∃ a, r = mk a ∧ B a s)
    (wp_map (wp_mono hx (fun a _ s _ ha => ⟨a, rfl, ha⟩))) (fun r own => ?_) (fun _ _ _ _ _ => trivial) ?_
  · rintro s h ev - - hE - ⟨a, rfl, ha⟩
    exact ⟨a, rfl, hB a _ _ hE.grown ha⟩
  · rintro r own s h ⟨a, rfl, ha⟩ - -
    exact hans a s h ha

end Functions

/-- Every request keeps to its part. -/
theorem signingKeys_protocol (hl : lib.Lawful) :
    ReadCommitted.Protocol (Wire.signingKeys lib) (KeysInv lib wrap) (OneWrapping lib wrap) (KeysStep lib wrap) := by
  refine ⟨fun s h ev hI hE => hE.step hI, fun _ _ _ _ hG => hG, fun s h i hI _ => ?_⟩
  have hwrap : SameWrapping wrap i := hI.wrapping h.length i (by simp)
  cases i with
  | loadOrCreate env drawn =>
    exact safe_response (keys_wp_loadOrCreate hl hwrap (fun _ => rfl) rfl) (fun _ => growing_true)
      (fun _ _ _ _ => trivial)
  | rotate env drawn =>
    exact safe_response (keys_wp_rotate hl hwrap (fun _ => rfl) rfl) (fun _ => growing_true)
      (fun _ _ _ _ => trivial)
  | sealStoredKeys env nonces =>
    exact safe_response (keys_wp_sealStoredKeys hl hwrap (fun _ => rfl) rfl) (fun _ => growing_true)
      (fun _ _ _ _ => trivial)
  | issueForOrder env lines =>
    exact safe_response (keys_wp_issueForOrder hl hwrap (fun _ => rfl) rfl) stored_growing (fun _ _ _ h => h)
  | publicKeys =>
    refine safe_of_wp (keys_wp_publicKeys (fun _ => rfl)) (fun a own => ?_) (fun _ _ _ _ _ => trivial) ?_
    · rintro s h ev - - - - ⟨g, seen, hg, he⟩
      exact ⟨g, seen, hg.trans (List.prefix_append _ _), he⟩
    · rintro a own s h ⟨g, seen, hg, rfl⟩ - -
      exact ⟨rfl, g, seen, hg, rfl⟩

end Protocol

section Published

/-- A token passes the gate until it expires, with the published keys `entries`. -/
def VerifiesUntilExp (lib : KeyLibraries) (token : String) (entries : List Wire.PublicKeyEntry) : Prop :=
  ∃ (claims : Wire.TicketClaims) (signer : Wire.TicketSigner lib.toLibraries), token = signer.signToken claims ∧
    ∀ (now : Int64) (trip : Option Wire.Uuid), now ≤ claims.exp →
      (∀ expected, trip = some expected → expected = claims.trp) →
      verifyTicket lib.toLibraries token (entries.map (fun e => ⟨e.kid, e.publicKey⟩)) now trip =
        .ok (received claims).verified

/-- A token was answered by then. -/
def IssuedBy {lib : KeyLibraries} (h : List (KeysEvent lib)) (token : String) : Prop :=
  ∃ pid i tokens, .did pid i (.answer (.ok (.issued tokens))) ∈ h ∧ token ∈ tokens

variable {lib : KeyLibraries} {wrap : Bytes}

lemma mem_keyRows_iff {rows : List KeysRow} {r : Wire.TicketKeyRow} : r ∈ Wire.keyRows rows ↔ .key r ∈ rows := by
  refine ⟨mem_keyRows, fun h => List.mem_filterMap.mpr ⟨_, h, rfl⟩⟩

/-- No key id is published twice. -/
lemma publicKeys_nodup (s : Table KeysRow.id) :
    (((Wire.publicKeys lib s.rows).map (fun e => (⟨e.kid, e.publicKey⟩ : KeyEntry))).map KeyEntry.kid).Nodup := by
  have hrows : ((Wire.keyRows s.rows).map Wire.TicketKeyRow.kid).Nodup := by
    refine List.pairwise_map.mpr (List.Pairwise.filterMap _ (fun a a' hne b hb b' hb' he => ?_)
      (List.pairwise_map.mp s.nodup))
    cases a with
    | ticket t => cases hb
    | key r =>
      cases a' with
      | ticket t => cases hb'
      | key r' =>
        cases hb
        cases hb'
        exact hne (congrArg Sum.inl he)
  have hperm := ((List.perm_insertionSort (fun a b : Wire.TicketKeyRow => a.createdAt ≤ b.createdAt)
    (Wire.keyRows s.rows)).map Wire.TicketKeyRow.kid).nodup_iff.mpr hrows
  rw [Wire.publicKeys, List.map_map, List.map_map]
  exact hperm

/-- A ticket whose key is in the table verifies against the keys of the table. -/
lemma IssuedUnder.verifies (hl : lib.Lawful) {s : Table KeysRow.id} {t : Wire.TicketRow} (h : IssuedUnder lib s t) :
    VerifiesUntilExp lib t.token (Wire.publicKeys lib s.rows) := by
  obtain ⟨claims, signer, r, htoken, hv, hkid, hr, hpub⟩ := h
  refine ⟨claims, signer, htoken, fun now trip hnow htrip => ?_⟩
  have hmem : (⟨signer.kid, signer.publicKeyB64⟩ : KeyEntry) ∈
      (Wire.publicKeys lib s.rows).map (fun e => (⟨e.kid, e.publicKey⟩ : KeyEntry)) := by
    have hk := Table.find?_key hr
    have hkey : r.kid = signer.kid := Sum.inl.inj hk
    have hin : r ∈ (Wire.keyRows s.rows).insertionSort (fun a b => a.createdAt ≤ b.createdAt) :=
      (List.mem_insertionSort _).mpr (mem_keyRows_iff.mpr (Table.find?_mem hr))
    refine List.mem_map.mpr ⟨_, List.mem_map.mpr ⟨r, hin, rfl⟩, ?_⟩
    rw [hkey, hpub]
    rfl
  have hfirst := firstKey_of_nodup hmem (publicKeys_nodup s)
  rw [htoken]
  exact accepted_signToken hl.tokens hv (hkid ▸ hfirst) rfl hnow htrip

lemma KeysOk.verifies (hl : lib.Lawful) {s : Table KeysRow.id} (h : KeysOk lib wrap s) {token : String}
    (ht : Stored s token) : VerifiesUntilExp lib token (Wire.publicKeys lib s.rows) := by
  obtain ⟨id, t, ht, rfl⟩ := ht
  exact (h.issued id t ht).verifies hl

lemma keysInv_init {s : Table KeysRow.id} (h : KeysOk lib wrap s) : KeysInv lib wrap s [] :=
  ⟨h, fun _ _ hm => absurd hm List.not_mem_nil, fun _ _ _ hm => absurd hm List.not_mem_nil⟩

/-- A key never leaves the table, never changes its seed or its public half, and is sealed at
most once. -/
lemma KeysGrown.kept (hl : lib.Lawful) {s s' : Table KeysRow.id} (hg : KeysGrown lib wrap s s') {kid : String}
    {r : Wire.TicketKeyRow} {seed : Bytes} (hr : s.find? (.inl kid) = some (.key r)) (hopens : Opens lib wrap r seed) :
    ∃ r', s'.find? (.inl kid) = some (.key r') ∧ r'.pub = r.pub ∧ Opens lib wrap r' seed ∧
      (r.encryption ≠ none → r'.encryption = r.encryption ∧ r'.nonce = r.nonce ∧ r'.secret = r.secret) := by
  obtain ⟨r', hr', he⟩ := hg.keys kid r hr
  refine ⟨r', hr', he.pub, hopens.evolves hl he, fun hsealed => ?_⟩
  rcases he.stored with hsame | ⟨_, _, hclear, -⟩
  · exact hsame
  · exact absurd hclear hsealed

/-- Whatever replicas with one wrapping key do to the signing keys at the same time: every
stored key opens to the seed it publishes the public half of and stays, and every token ever
issued verifies until it expires, against the keys of every later table and against every
answer read after it was issued. -/
theorem signing_keys_kept {s₀ : Table KeysRow.id} {c c' : KeysConf lib} (hl : lib.Lawful) (h₀ : KeysOk lib wrap s₀)
    (hc : ReachableWhen (Wire.signingKeys lib) (OneWrapping lib wrap) (ReadCommitted.init s₀) c)
    (hc' : ReachableWhen (Wire.signingKeys lib) (OneWrapping lib wrap) c c') :
    (∀ kid r, c.store.find? (.inl kid) = some (.key r) → ∃ seed, Opens lib wrap r seed ∧ r.pub = publicHalf lib seed ∧
      ∃ r', c'.store.find? (.inl kid) = some (.key r') ∧ r'.pub = r.pub ∧ Opens lib wrap r' seed ∧
        (r.encryption ≠ none → r'.encryption = r.encryption ∧ r'.nonce = r.nonce ∧ r'.secret = r.secret)) ∧
    (∀ token, Stored c.store token ∨ IssuedBy c.trace token →
      VerifiesUntilExp lib token (Wire.publicKeys lib c'.store.rows)) ∧
    ∀ g pid i entries, g ++ [.did pid i (.answer (.ok (.keys entries)))] <+: c.trace →
      ∃ f seen, f ++ [.did pid i (.snap .side .select seen)] <+: g ∧ entries = Wire.publicKeys lib seen ∧
        ∀ token, IssuedBy f token → VerifiesUntilExp lib token entries := by
  have hP : ReadCommitted.Protocol (Wire.signingKeys lib) (KeysInv lib wrap) (OneWrapping lib wrap)
      (KeysStep lib wrap) := signingKeys_protocol hl
  have h₁ := keysInv_init h₀
  have hI := (hP.invariant h₁ hc).1
  have hI' := (hP.invariant h₁ (hc.trans hc')).1
  have hg : KeysGrown lib wrap c.store c'.store :=
    hP.store_related h₁ .refl .trans (fun _ _ _ _ hE => KeysStep.grown hE) hc hc'
  refine ⟨fun kid r hr => ?_, fun token ht => ?_, fun g pid i entries hprefix => ?_⟩
  · obtain ⟨seed, hopens, hpub⟩ := hI.ok.sound kid r hr
    exact ⟨seed, hopens, hpub, hg.kept hl hr hopens⟩
  · have hstored : Stored c.store token := by
      rcases ht with ht | ⟨pid, i, tokens, hm, ht⟩
      · exact ht
      · exact hI.tokens pid i tokens hm token ht
    exact hI'.ok.verifies hl (hstored.grown hg)
  · obtain ⟨-, -, -, hreads, f, seen, hf, rfl⟩ := hP.event h₁ hc hprefix
    refine ⟨f, seen, hf, rfl, fun token ht => ?_⟩
    have hbefore : f ++ [.did pid i (.snap .side .select seen)] <+: c.trace :=
      (hf.trans (List.prefix_append g _)).trans hprefix
    obtain ⟨s, hs, -, hseen⟩ := hP.event h₁ hc hbefore
    obtain ⟨pid', i', tokens, hm, ht⟩ := ht
    rw [hseen hreads]
    exact hs.ok.verifies hl (hs.tokens pid' i' tokens hm token ht)

end Published

section Harbour

/-- The harbour's wrapping key. -/
def harbourWrap : Bytes := (List.range 32).map UInt8.ofNat

def harbourNonce : { b : Bytes // b.length = Wire.nonceLen } := ⟨(List.range' 64 24).map UInt8.ofNat, rfl⟩

def harbourSeed : Bytes := List.replicate 32 42

/-- The harbour's seed, sealed for the key "k1". -/
def harbourCiphertext : Bytes :=
  [254, 19, 47, 90, 250, 202, 83, 60, 165, 222, 173, 148, 133, 182, 79, 184, 184, 144, 135, 238, 57, 115, 121, 176,
    64, 27, 215, 111, 35, 46, 9, 186, 100, 251, 223, 48, 216, 35, 187, 39, 119, 123, 200, 4, 20, 113, 85, 211]

/-- The harbour's crates, sealing its seed as the real cipher does. -/
noncomputable def harbourKeyCrates : KeyLibraries where
  toLibraries := harbourCrates
  fromSeed := id
  encrypt key nonce aad msg :=
    if (key, nonce, aad, msg) = (harbourWrap, harbourNonce.1, Http.asBytes "k1", harbourSeed)
    then some harbourCiphertext else some (msg ++ List.replicate 16 0)
  decrypt key nonce aad ct :=
    if (key, nonce, aad, ct) = (harbourWrap, harbourNonce.1, Http.asBytes "k1", harbourCiphertext)
    then some harbourSeed else some (ct.take (ct.length - 16))

lemma harbourKeyCrates_lawful : harbourKeyCrates.Lawful where
  tokens := harbourCrates_lawful
  decrypt_encrypt key nonce aad msg ct h := by
    change (if (key, nonce, aad, msg) = (harbourWrap, harbourNonce.1, Http.asBytes "k1", harbourSeed)
      then some harbourCiphertext else some (msg ++ List.replicate 16 0)) = some ct at h
    change (if (key, nonce, aad, ct) = (harbourWrap, harbourNonce.1, Http.asBytes "k1", harbourCiphertext)
      then some harbourSeed else some (ct.take (ct.length - 16))) = some msg
    split at h
    · rename_i he
      cases h
      cases he
      rw [if_pos rfl]
    · cases h
      have hne : msg ++ List.replicate 16 0 ≠ harbourCiphertext := by
        intro he
        have hlast := congrArg List.getLast? he
        rw [List.getLast?_append_of_ne_nil _ (by simp)] at hlast
        exact absurd hlast (by decide)
      rw [if_neg (fun he => hne (by simpa using congrArg (fun t => t.2.2.2) he))]
      simp

/-- A key from before sealing, as the harbour has it. -/
def harbourKeyRow : Wire.TicketKeyRow := ⟨"k1", harbourSeed, harbourKey, true, 0, none, none⟩

def harbourKeyStore : Table KeysRow.id := ⟨[.key harbourKeyRow], List.nodup_singleton _⟩

lemma harbourKeyStore_ok : KeysOk harbourKeyCrates harbourWrap harbourKeyStore where
  sound kid r hr := by
    have hm := Table.find?_mem hr
    cases List.mem_singleton.mp hm
    exact ⟨harbourSeed, fun _ _ => rfl, rfl⟩
  issued id t ht := by
    have hm := Table.find?_mem ht
    cases List.mem_singleton.mp hm

def harbourLine : Wire.IssueLine := ⟨harbourClaims.tid, harbourClaims.trp, "1A", 0, 2, "Ana", none, 4000000000⟩

def harbourEnv : Option String := some "000102030405060708090a0b0c0d0e0f101112131415161718191a1b1c1d1e1f"

instance instDecidableSameWrapping (wrap : Bytes) (i : KeysRequest) : Decidable (SameWrapping wrap i) :=
  decidable_of_iff (∀ key ∈ (Wire.KeyWrapper.fromEnv i.env).toOption.getD none, key = wrap) (by
    unfold SameWrapping
    cases Wire.KeyWrapper.fromEnv i.env with
    | error e => simp [Except.toOption]
    | ok o => simp [Except.toOption])

instance instDecidableOneWrapping (lib : KeyLibraries) (wrap : Bytes) (s : Table KeysRow.id)
    (h : List (KeysEvent lib)) (ev : KeysEvent lib) : Decidable (OneWrapping lib wrap s h ev) :=
  match ev with
  | .arrive _ i => inferInstanceAs (Decidable (SameWrapping wrap i))
  | .did _ _ _ => instDecidableTrue

/-- A replica without the wrapping key issues a ticket, and one with it seals the key. -/
def harbourIssues : List (ReadCommitted.Act KeysRequest (String ⊕ Wire.Uuid)) :=
  [.arrive (.issueForOrder none [harbourLine]), .move 0 .step, .move 0 .step, .move 0 (.row (.inr harbourClaims.tid)),
    .move 0 .finish, .move 0 .step, .move 0 .step]

def harbourSeals (pid : Nat) : List (ReadCommitted.Act KeysRequest (String ⊕ Wire.Uuid)) :=
  [.arrive (.sealStoredKeys harbourEnv (fun _ => harbourNonce)), .move pid .step, .move pid .step,
    .move pid (.row (.inl "k1")), .move pid .finish, .move pid .step, .move pid .step]

/-- How many tokens an event answers with. -/
def tokensAnswered {lib : KeyLibraries} : KeysEvent lib → Option Nat
  | .did _ _ (.answer (.ok (.issued tokens))) => some tokens.length
  | _ => none

lemma issuedBy_of_answered {lib : KeyLibraries} {h : List (KeysEvent lib)} (hone : 1 ∈ h.filterMap tokensAnswered) :
    ∃ token, IssuedBy h token := by
  obtain ⟨ev, hev, hlen⟩ := List.mem_filterMap.mp hone
  unfold tokensAnswered at hlen
  split at hlen
  · rename_i pid i tokens
    obtain ⟨token, rfl⟩ := List.length_eq_one_iff.mp (Option.some.inj hlen)
    exact ⟨token, pid, i, _, hev, List.mem_singleton_self token⟩
  · cases hlen

theorem signing_keys_kept_harbour : ∃ (c c' : KeysConf harbourKeyCrates) (token : String),
    ReachableWhen (Wire.signingKeys harbourKeyCrates) (OneWrapping harbourKeyCrates harbourWrap)
      (ReadCommitted.init harbourKeyStore) c ∧
    ReachableWhen (Wire.signingKeys harbourKeyCrates) (OneWrapping harbourKeyCrates harbourWrap) c c' ∧
    IssuedBy c.trace token ∧ (Wire.keyRows c'.store.rows).map Wire.TicketKeyRow.secret = [harbourCiphertext] ∧
    VerifiesUntilExp harbourKeyCrates token (Wire.publicKeys harbourKeyCrates c'.store.rows) := by
  have hrun : ((execWhen (Wire.signingKeys harbourKeyCrates) (OneWrapping harbourKeyCrates harbourWrap)
      (ReadCommitted.init harbourKeyStore) harbourIssues).bind (fun c =>
        (execWhen (Wire.signingKeys harbourKeyCrates) (OneWrapping harbourKeyCrates harbourWrap) c
          (harbourSeals c.trace.length)).map (fun c' => (decide (1 ∈ c.trace.filterMap tokensAnswered),
            (Wire.keyRows c'.store.rows).map Wire.TicketKeyRow.secret)))) = some (true, [harbourCiphertext]) := by
    decide
  obtain ⟨c, hissue, hseal⟩ := Option.bind_eq_some_iff.mp hrun
  obtain ⟨c', hseal, hfacts⟩ := Option.map_eq_some_iff.mp hseal
  obtain ⟨hone, hsecret⟩ := Prod.mk.inj hfacts
  have hc := reachable_of_execWhen hissue
  have hc' := reachable_of_execWhen hseal
  obtain ⟨token, htoken⟩ := issuedBy_of_answered (of_decide_eq_true hone)
  exact ⟨c, c', token, hc, hc', htoken, hsecret,
    (signing_keys_kept harbourKeyCrates_lawful harbourKeyStore_ok hc hc').2.1 token (.inr htoken)⟩

end Harbour

end Lulan.Proofs
