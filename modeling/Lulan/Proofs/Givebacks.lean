import Mathlib.Data.Nat.Digits.Lemmas
import Lulan.Holds.Texts
import Lulan.Proofs.Itineraries

/-!
# Giving an itinerary back

An itinerary that is held reads back as the seats asked for, and its release takes off exactly
the holds that were placed for it.
-/

namespace Lulan.Proofs

open Lulan Lulan.Holds Lib

section Release

variable {s s₁ s' : Redis} {left placed : List PlacedHold} {tr : Trace} {holdId : Uuid} {expiry : Nat}

/-- Releasing the seats one by one, with every command getting through. -/
lemma performs_releaseSeats {r : Except Unit Unit} (hh : Holding s placed s₁) (hreg : ∀ p ∈ placed, InRegistry s₁ p)
    (hunused : ∀ p ∈ placed, UnusedHold s p.field.1) (hids : (placed.map (fun p => p.field.1)).Nodup)
    (h : Performs (HoldStore.releaseSeats (placed.map PlacedHold.key)) s₁ tr r s') (hnone : failures tr = []) :
    r = .ok () ∧ Holding s [] s' ∧ ∀ id, (∀ p ∈ placed, p.field.1 ≠ id) → s'.registry id = s₁.registry id := by
  induction placed generalizing s₁ tr with
  | nil =>
    obtain ⟨rfl, rfl, rfl⟩ := performs_pure h
    exact ⟨rfl, hh, fun _ _ => rfl⟩
  | cons p rest ih =>
    have hids₀ : (([] ++ p :: rest).map (fun q : PlacedHold => q.field.1)).Nodup := hids
    obtain ⟨hown, heq⟩ := ids_head hids₀
    rw [List.map_cons, List.nodup_cons] at hids
    have hne : ∀ q ∈ rest, q.field.1 ≠ p.field.1 := fun q hq he => hids.1 (List.mem_map.mpr ⟨q, hq, he⟩)
    have hpreg := hreg p List.mem_cons_self
    have hpunused := hunused p List.mem_cons_self
    obtain ⟨e, hx, -⟩ | ⟨tr₁, tr₂, found, t, rfl, hx, hk⟩ := Prog.traced_then h
    · obtain ⟨hrel, -⟩ := performs_release hh hpreg hpunused hown heq hx
      obtain ⟨found, hr⟩ := hrel.failures.mp hnone
      cases hr
    · obtain ⟨hrel, hend⟩ := performs_release hh hpreg hpunused hown heq hx
      rw [failures_append, List.append_eq_nil_iff] at hnone
      obtain ⟨⟨command, hc, -⟩, -⟩ | ⟨-, hoff⟩ := hend
      · rw [hnone.1] at hc
        cases hc
      · have hreg' : ∀ q ∈ rest, InRegistry t q :=
          fun q hq => (hreg q (List.mem_cons_of_mem _ hq)).of_registry (hrel.registry _ (hne q hq))
        obtain ⟨hr, hholding, hsame⟩ :=
          ih hoff hreg' (fun q hq => hunused q (List.mem_cons_of_mem _ hq)) hids.2 hk hnone.2
        refine ⟨hr, hholding, fun id hid => ?_⟩
        rw [hsame id (fun q hq => hid q (List.mem_cons_of_mem _ hq)),
          hrel.registry id (Ne.symm (hid p List.mem_cons_self))]

/-- The release of an itinerary whose holds are as they were placed, next to whatever else is in
the store. -/
theorem performs_releaseItinerary {r : Except Unit Bool} (hh : Holding s placed s₁) (hreg : ∀ p ∈ placed, InRegistry s₁ p)
    (hunused : ∀ p ∈ placed, UnusedHold s p.field.1) (hids : (placed.map (fun p => p.field.1)).Nodup)
    (hkey : s₁.itineraries holdId = some ⟨placed.map PlacedHold.key, expiry⟩)
    (hlast : ∀ p ∈ placed, ∀ time, alive time p.field.2 = true → time ≤ expiry)
    (h : Performs (HoldStore.releaseItinerary holdId) s₁ tr r s') (hnone : failures tr = []) :
    (s'.now ≤ expiry → r = .ok true) ∧ Holding s [] s' ∧
      ∀ id, (∀ p ∈ placed, p.field.1 ≠ id) → s'.registry id = s₁.registry id := by
  unfold HoldStore.releaseItinerary at h
  obtain ⟨fate, ⟨hf, rfl, -, -⟩ | ⟨hf, h₁⟩⟩ := performs_send_then rfl h
  · rw [failures_failed hf] at hnone
    cases hnone
  have hh₁ := hh.later fate.elapsed
  have hreg₁ : ∀ p ∈ placed, InRegistry (later s₁ fate.elapsed) p := hreg
  have hsame₁ : (later s₁ fate.elapsed).registry = s₁.registry := rfl
  have hkey₁ : (later s₁ fate.elapsed).itineraries holdId = some ⟨placed.map PlacedHold.key, expiry⟩ := hkey
  generalize later s₁ fate.elapsed = s₂ at *
  by_cases hlive : s₂.now ≤ expiry
  · have hget : (Command.getItinerary holdId).exec s₂ = (.itinerary (placed.map PlacedHold.key), s₂) := by
      simp only [Command.exec, hkey₁, Key.get, Option.bind_some, if_pos hlive]
    rw [hget] at h₁
    obtain ⟨hno, -⟩ | ⟨found, tr₂, hfound, rfl, h₂⟩ := h₁
    · cases hno
    cases hfound
    rw [failures_run hf] at hnone
    obtain ⟨e, hx, -⟩ | ⟨tr₃, tr₄, u, t, rfl, hx, hk⟩ := Prog.traced_then h₂
    · obtain ⟨hr, -⟩ := performs_releaseSeats hh₁ hreg₁ hunused hids hx hnone
      cases hr
    rw [failures_append, List.append_eq_nil_iff] at hnone
    obtain ⟨-, hoff, hsame⟩ := performs_releaseSeats hh₁ hreg₁ hunused hids hx hnone.1
    obtain ⟨fate₂, ⟨hf₂, rfl, -, -⟩ | ⟨hf₂, h₃⟩⟩ := performs_send_then rfl hk
    · rw [failures_failed hf₂] at hnone
      cases hnone.2
    have hdel := (hoff.later fate₂.elapsed).exec (.delItinerary holdId) rfl
    obtain ⟨hno, -⟩ | ⟨_, tr₅, -, rfl, h₄⟩ := h₃
    · cases hno
    · obtain ⟨rfl, rfl, rfl⟩ := performs_pure h₄
      exact ⟨fun _ => rfl, hdel, fun id hid => (hsame id hid).trans (by rw [hsame₁])⟩
  · -- the key has run out, and every hold of the itinerary with it
    have hget : (Command.getItinerary holdId).exec s₂ = (.nil, s₂) := by
      simp only [Command.exec, hkey₁, Key.get, Option.bind_some, if_neg hlive]
    rw [hget] at h₁
    obtain ⟨hno, -⟩ | ⟨found, tr₂, hfound, rfl, h₂⟩ := h₁
    · cases hno
    cases hfound
    obtain ⟨rfl, rfl, rfl⟩ := performs_pure h₂
    refine ⟨fun hle => absurd hle hlive, hh₁.congr (fun time hle p ha => ?_), fun id _ => by rw [← hsame₁]⟩
    refine ⟨fun hp => ?_, fun hp => ?_⟩
    · cases hp
    · have hlt := hlast p hp time ha
      omega

/-- An acquisition gets through that no hold alive at its time overlaps. -/
lemma performs_acquire_free {trip unit : Uuid} {span : SegmentSpan} {ttl : Nat} {r : Except Unit (Option Hold)}
    (hs : Sane s₁) (hfree : ∀ time, s₁.now ≤ time → ∀ f, LiveAt s₁ time trip unit f →
      HoldStore.liveMask time f.2 &&& span.mask = 0#64) (hz : ttl ≠ 0)
    (h : Performs (HoldStore.acquire trip unit span ttl) s₁ tr r s') (hnone : failures tr = []) :
    ∃ held, r = .ok (some held) := by
  unfold HoldStore.acquire at h
  obtain ⟨holdId, tr₁, rfl, h₁⟩ := performs_newV4 h
  obtain ⟨fate₁, tr₂, rfl, h₂⟩ := performs_now h₁
  have hclock₁ : s₁.now ≤ (later s₁ fate₁.elapsed).now := Nat.le_add_right _ _
  have hs₁ : Sane (later s₁ fate₁.elapsed) := hs.pass _
  have hunits₁ : (later s₁ fate₁.elapsed).units = s₁.units := rfl
  generalize later s₁ fate₁.elapsed = s₂ at *
  rw [failures_called, failures_clock] at hnone
  obtain ⟨fate₂, ⟨hf, rfl, -, -⟩ | ⟨hf, h₃⟩⟩ := performs_send_then rfl h₂
  · rw [failures_failed hf] at hnone
    cases hnone
  have hclock₂ : s₂.now ≤ (later s₂ fate₂.elapsed).now := Nat.le_add_right _ _
  have hs₂ : Sane (later s₂ fate₂.elapsed) := hs₁.pass _
  have hunits₂ : (later s₂ fate₂.elapsed).units = s₂.units := rfl
  generalize later s₂ fate₂.elapsed = s₃ at *
  have hadm : admits (scan s₂.now ttl (s₃.hash trip unit)) (maskHi span) (maskLo span) = true := by
    refine (hs₂.scanned trip unit s₂.now ttl).admits_iff.mpr (liveUnion_and.mpr (fun f hf => ?_))
    obtain ⟨k, hk, -, hfk⟩ := mem_hash.mp hf
    obtain ⟨exp, span', hw, -⟩ := hs₂.written trip unit k hk f hfk
    by_cases ha : alive s₂.now f.2 = true
    · refine hfree s₂.now hclock₁ f ?_
      rw [← liveAt_of_units (hunits₂.trans hunits₁)]
      exact ⟨stored_of_mem_hash hf, ha⟩
    · rw [hw.liveMask, if_neg (fun hlive => ha (hw.alive.mpr hlive)), BitVec.zero_and]
  have hexec : ((Command.acquire trip unit s₂.now ttl holdId (maskHi span) (maskLo span)
      (ttl * indexTtlMultiplier)).exec s₃).1 = .int 1 := by
    simp only [Command.exec, acquireScript, if_pos hadm]
  rw [hexec] at h₃
  obtain ⟨hno, -⟩ | ⟨n, tr₃, hn, rfl, h₄⟩ := h₃
  · cases hno
  cases hn
  rw [if_pos rfl] at h₄
  rw [failures_run hf] at hnone
  obtain ⟨fate₃, ⟨hf₃, rfl, -, -⟩ | ⟨hf₃, h₅⟩⟩ := performs_send_then rfl h₄
  · rw [failures_failed hf₃] at hnone
    cases hnone
  simp only [Command.exec, if_neg hz] at h₅
  obtain ⟨hno, -⟩ | ⟨_, tr₄, -, rfl, h₆⟩ := h₅
  · cases hno
  · obtain ⟨rfl, rfl, rfl⟩ := performs_pure h₆
    exact ⟨_, rfl⟩

end Release

/-! ### The itinerary as a whole -/

/-- Whoever asks for the span gets it, from now on. -/
def Obtainable (s : Redis) (trip unit : Uuid) (span : SegmentSpan) : Prop :=
  ∀ ms ttl tr r s', ttl ≠ 0 → Performs (HoldStore.acquire trip unit span ttl) (later s ms) tr r s' → failures tr = [] →
    ∃ held, r = .ok (some held)

/-- The store is as if the itinerary had never been held. -/
structure GivenBack (s : Redis) (seats : List (Uuid × Uuid × SegmentSpan)) (placed : List PlacedHold) (s' : Redis) :
    Prop where
  live : ∀ trip unit f, Live s' trip unit f ↔ Live { s with now := s'.now } trip unit f
  registry : ∀ id, (∀ p ∈ placed, p.field.1 ≠ id) → s'.registry id = s.registry id
  free : ∀ seat ∈ seats, Obtainable s' seat.1 seat.2.1 seat.2.2

section Itinerary

variable {s s₁ : Redis} {tr : Trace} {seats : List (Uuid × Uuid × SegmentSpan)} {ttl : Nat}
  {held : Hold × List (Uuid × Uuid)} {u : UuidText}

lemma placed_seats {placed : List PlacedHold} (h : List.Forall₂ (PlacedFor s s₁ ttl) seats placed) :
    placed.map (fun p => (p.trip, p.unit)) = seats.map (fun seat => (seat.1, seat.2.1)) := by
  induction h with
  | nil => rfl
  | cons hp _ ih => rw [List.map_cons, List.map_cons, hp.trip, hp.unit, ih]

lemma placed_for_seat {placed : List PlacedHold} (h : List.Forall₂ (PlacedFor s s₁ ttl) seats placed)
    {seat : Uuid × Uuid × SegmentSpan} (hseat : seat ∈ seats) : ∃ p ∈ placed, PlacedFor s s₁ ttl seat p := by
  induction h with
  | nil => cases hseat
  | cons hp _ ih =>
    rcases List.mem_cons.mp hseat with rfl | hseat
    · exact ⟨_, List.mem_cons_self, hp⟩
    · obtain ⟨p, hmem, hp⟩ := ih hseat
      exact ⟨p, List.mem_cons_of_mem _ hmem, hp⟩

lemma hold_unused {placed : List PlacedHold} (h : List.Forall₂ (PlacedFor s s₁ ttl) seats placed) :
    ∀ p ∈ placed, UnusedHold s p.field.1 := by
  induction h with
  | nil => exact fun p hp => by cases hp
  | cons hp _ ih =>
    intro q hq
    rcases List.mem_cons.mp hq with rfl | hq
    · exact hp.unused
    · exact ih q hq

/-- Reading an itinerary back. -/
lemma ItineraryHeld.members_read {placed : List PlacedHold} {expiry ms : Nat} {tr₂ : Trace}
    {r₂ : Except Unit (Option (List (Uuid × Uuid)))} {s₂ : Redis} (hu : u.Lawful)
    (hheld : ItineraryHeld s ttl seats tr held s₁ placed expiry)
    (h : Performs (HoldTexts.itineraryMembers u held.1.holdId) (later s₁ ms) tr₂ r₂ s₂) (hnone : failures tr₂ = []) :
    r₂ = .ok (if s₂.now ≤ expiry then some (seats.map (fun seat => (seat.1, seat.2.1))) else none) := by
  rw [HoldTexts.itineraryMembers_eq hu] at h
  obtain ⟨fate, ⟨hf, rfl, -, -⟩ | ⟨hf, h₁⟩⟩ := performs_send_then rfl h
  · rw [failures_failed hf] at hnone
    cases hnone
  have hkey : (later (later s₁ ms) fate.elapsed).itineraries held.1.holdId = some ⟨placed.map PlacedHold.key, expiry⟩ :=
    hheld.key
  generalize later (later s₁ ms) fate.elapsed = s₃ at *
  by_cases hlive : s₃.now ≤ expiry
  · have hget : (Command.getItinerary held.1.holdId).exec s₃ = (.itinerary (placed.map PlacedHold.key), s₃) := by
      simp only [Command.exec, hkey, Key.get, Option.bind_some, if_pos hlive]
    rw [hget] at h₁
    obtain ⟨hno, -⟩ | ⟨found, tr₃, hfound, rfl, h₂⟩ := h₁
    · cases hno
    cases hfound
    obtain ⟨rfl, rfl, rfl⟩ := performs_pure h₂
    rw [if_pos hlive, ← placed_seats hheld.placedFor, Option.map_some, List.map_map]
    rfl
  · have hget : (Command.getItinerary held.1.holdId).exec s₃ = (.nil, s₃) := by
      simp only [Command.exec, hkey, Key.get, Option.bind_some, if_neg hlive]
    rw [hget] at h₁
    obtain ⟨hno, -⟩ | ⟨found, tr₃, hfound, rfl, h₂⟩ := h₁
    · cases hno
    cases hfound
    obtain ⟨rfl, rfl, rfl⟩ := performs_pure h₂
    rw [if_neg hlive]
    rfl

/-- The live holds of a store that holds nothing of its own. -/
lemma Holding.live_iff {s' : Redis} (hs : Sane s) (hh : Holding s [] s') {trip unit : Uuid} {f : Uuid × String} :
    Live s' trip unit f ↔ Live { s with now := s'.now } trip unit f := by
  have hsane : Sane { s with now := s'.now } := sane_of_same hs rfl rfl
  rw [hh.sane.live_iff, hh.live s'.now le_rfl, hsane.live_iff]
  simp only [List.not_mem_nil, false_and, or_false]
  exact (liveAt_of_units rfl).symm

/-- An itinerary that is held places one hold for each of its seats. Until its key runs out, which
is no earlier than its time to live from the call on and no later than it is said to expire, it
reads back as its seats in order. Its release leaves the holds of everybody else as they were and
every one of its spans free. -/
theorem itinerary_given_back (hu : u.Lawful) (hs : Sane s) (hdrawn : (drawnHolds tr).Nodup)
    (hunused : ∀ id ∈ drawnHolds tr, UnusedHold s id)
    (h : Performs (HoldStore.acquireItinerary seats ttl) s tr (.ok (some held)) s₁) :
    ∃ placed expiry, List.Forall₂ (PlacedFor s s₁ ttl) seats placed ∧ Holding s placed s₁ ∧
      s.now + ttl ≤ expiry ∧ expiry ≤ held.1.expiresAt ∧
      (∀ ms tr₂ r₂ s₂, Performs (HoldTexts.itineraryMembers u held.1.holdId) (later s₁ ms) tr₂ r₂ s₂ →
        failures tr₂ = [] →
          r₂ = .ok (if s₂.now ≤ expiry then some (seats.map (fun seat => (seat.1, seat.2.1))) else none)) ∧
      ∀ ms tr₂ r₂ s₂, Performs (HoldTexts.releaseItinerary u held.1.holdId) (later s₁ ms) tr₂ r₂ s₂ →
        failures tr₂ = [] → (s₂.now ≤ expiry → r₂ = .ok true) ∧ GivenBack s seats placed s₂ := by
  obtain ⟨held', placed, expiry, hr, hheld⟩ | ⟨hr, -⟩ := performs_acquireItinerary hs hdrawn hunused h
  · cases hr
    refine ⟨placed, expiry, hheld.placedFor, hheld.holding, hheld.lasts.1, hheld.lasts.2,
      fun ms tr₂ r₂ s₂ h₂ hnone => hheld.members_read hu h₂ hnone, fun ms tr₂ r₂ s₂ h₂ hnone => ?_⟩
    rw [HoldTexts.releaseItinerary_eq hu] at h₂
    obtain ⟨hdone, hoff, hsame⟩ := performs_releaseItinerary (hheld.holding.later ms) hheld.inRegistry
      (hold_unused hheld.placedFor) hheld.ids hheld.key hheld.outlives h₂ hnone
    have hclock : s₁.now ≤ s₂.now := le_trans (Nat.le_add_right _ _) (performs_clock h₂)
    refine ⟨hdone, fun trip unit f => hoff.live_iff hs, fun id hid => (hsame id hid).trans (hheld.registry id hid),
      fun seat hseat ms' ttl' tr₃ r₃ s₃ hz h₃ hnone₃ => ?_⟩
    obtain ⟨p, -, hp⟩ := placed_for_seat hheld.placedFor hseat
    refine performs_acquire_free (hoff.sane.pass ms') (fun time hle f hl => ?_) hz h₃ hnone₃
    have hle₂ : s₂.now ≤ time := le_trans (Nat.le_add_right _ _) hle
    refine hp.free time (by omega) f ?_
    rw [hp.trip, hp.unit]
    rcases (hoff.live time hle₂ _ _ f).mp hl with hl | ⟨hno, -⟩
    · exact hl
    · cases hno
  · exact absurd rfl (hr held)

end Itinerary

section Harbour

/-- The hexadecimal digits of an identifier, the last one first, and at least 32 of them. -/
def nibbles (id : Uuid) : List Nat := Nat.digits 16 id ++ List.replicate (32 - (Nat.digits 16 id).length) 0

def hyphens (l : List Char) : List Char :=
  l.take 12 ++ '-' :: ((l.drop 12).take 4 ++ '-' :: ((l.drop 16).take 4 ++ '-' :: ((l.drop 20).take 4 ++ '-' :: l.drop 24)))

def nibble (c : Char) : Nat := if c.isDigit then c.toNat - '0'.toNat else c.toNat - 'a'.toNat + 10

/-- The hyphenated form. -/
def hyphenated : UuidText where
  write id := (hyphens ((nibbles id).map Nat.digitChar)).reverse
  read text := some (Nat.ofDigits 16 ((text.reverse.filter (fun c => c ≠ '-')).map nibble))

lemma nibble_digitChar : ∀ d < 16, nibble (Nat.digitChar d) = d ∧ Nat.digitChar d ≠ '-' ∧ Nat.digitChar d ≠ ':' ∧
    Nat.digitChar d ≠ ';' := by decide

lemma nibbles_lt {id d : Nat} (h : d ∈ nibbles id) : d < 16 := by
  rcases List.mem_append.mp h with h | h
  · exact Nat.digits_lt_base (by decide) h
  · rw [List.eq_of_mem_replicate h]
    decide

lemma mem_hyphens {l : List Char} {c : Char} (h : c ∈ hyphens l) : c = '-' ∨ c ∈ l := by
  unfold hyphens at h
  simp only [List.mem_append, List.mem_cons] at h
  rcases h with h | h | h | h | h | h | h | h | h
  · exact .inr (List.mem_of_mem_take h)
  · exact .inl h
  · exact .inr (List.mem_of_mem_drop (List.mem_of_mem_take h))
  · exact .inl h
  · exact .inr (List.mem_of_mem_drop (List.mem_of_mem_take h))
  · exact .inl h
  · exact .inr (List.mem_of_mem_drop (List.mem_of_mem_take h))
  · exact .inl h
  · exact .inr (List.mem_of_mem_drop h)

lemma filter_hyphens {l : List Char} (h : ∀ c ∈ l, c ≠ '-') : (hyphens l).filter (fun c => c ≠ '-') = l := by
  have hkeep : ∀ m : List Char, m ⊆ l → m.filter (fun c => c ≠ '-') = m :=
    fun m hm => List.filter_eq_self.mpr (fun c hc => decide_eq_true (h c (hm hc)))
  have hdash : decide (('-' : Char) ≠ '-') = false := by decide
  have htake : ∀ n : Nat, (l.drop n).take 4 ⊆ l := fun n c hc => List.mem_of_mem_drop (List.mem_of_mem_take hc)
  have hjoin : ∀ n : Nat, (l.drop n).take 4 ++ l.drop (n + 4) = l.drop n := by
    intro n
    have hj := List.take_append_drop 4 (l.drop n)
    rwa [List.drop_drop] at hj
  unfold hyphens
  simp only [List.filter_append, List.filter_cons, hdash, Bool.false_eq_true, if_false,
    hkeep _ (List.take_subset 12 l), hkeep _ (htake 12), hkeep _ (htake 16), hkeep _ (htake 20),
    hkeep _ (List.drop_subset 24 l)]
  rw [hjoin 20, hjoin 16, hjoin 12, List.take_append_drop]

lemma not_mem_hyphenated {c : Char} (hdash : c ≠ '-') (hc : ∀ d < 16, Nat.digitChar d ≠ c) (id : Uuid) :
    c ∉ hyphenated.write id := by
  intro h
  rcases mem_hyphens (List.mem_reverse.mp h) with he | hm
  · exact hdash he
  · obtain ⟨d, hd, rfl⟩ := List.mem_map.mp hm
    exact hc d (nibbles_lt hd) rfl

lemma hyphenated_lawful : hyphenated.Lawful where
  read_write id := by
    have hno : ∀ c ∈ (nibbles id).map Nat.digitChar, c ≠ '-' := by
      intro c hc
      obtain ⟨d, hd, rfl⟩ := List.mem_map.mp hc
      exact (nibble_digitChar d (nibbles_lt hd)).2.1
    have hback : ((nibbles id).map Nat.digitChar).map nibble = nibbles id := by
      rw [List.map_map]
      refine (List.map_congr_left (fun d hd => ?_)).trans (List.map_id _)
      exact (nibble_digitChar d (nibbles_lt hd)).1
    simp only [hyphenated, List.reverse_reverse]
    rw [filter_hyphens hno, hback, nibbles, Nat.ofDigits_append_replicate_zero, Nat.ofDigits_digits]
  colon id := not_mem_hyphenated (by decide) (fun d hd => (nibble_digitChar d hd).2.2.1) id
  semicolon id := not_mem_hyphenated (by decide) (fun d hd => (nibble_digitChar d hd).2.2.2) id

def pairScript : Option (Trace × Except Unit (Option (Hold × List (Uuid × Uuid))) × Redis) :=
  Prog.follow Command.meets (HoldStore.acquireItinerary [(1, 7, wholeSpan), (2, 8, wholeSpan)] 600000)
    (Redis.empty 1000) (List.replicate 8 arrives) [100, 101, 102]

/-- A seat on each of two trips, held and given back. -/
theorem itinerary_given_back_pair : ∃ tr held s₁,
    Performs (HoldStore.acquireItinerary [(1, 7, wholeSpan), (2, 8, wholeSpan)] 600000) (Redis.empty 1000) tr
      (.ok (some held)) s₁ ∧
    ∀ ms tr₂ r₂ s₂, Performs (HoldTexts.releaseItinerary hyphenated held.1.holdId) (later s₁ ms) tr₂ r₂ s₂ →
      failures tr₂ = [] → ∃ placed, GivenBack (Redis.empty 1000) [(1, 7, wholeSpan), (2, 8, wholeSpan)] placed s₂ := by
  have hrun : pairScript.map (fun o => (drawnHolds o.1, o.2.1.toOption.map Option.isSome)) =
      some ([100, 101, 102], some true) := by decide
  obtain ⟨⟨tr, r, s₁⟩, ho, he⟩ := Option.map_eq_some_iff.mp hrun
  simp only [Prod.mk.injEq] at he
  obtain ⟨hdrawn, hr⟩ := he
  have hperforms := Prog.traced_of_follow ho
  rcases r with _ | _ | held
  · cases hr
  · cases hr
  · refine ⟨tr, held, s₁, hperforms, fun ms tr₂ r₂ s₂ h₂ hnone => ?_⟩
    obtain ⟨placed, _, -, -, -, -, -, hrelease⟩ := itinerary_given_back hyphenated_lawful (sane_empty 1000)
      (by rw [hdrawn]; decide) (fun id _ => unused_empty 1000 id) hperforms
    exact ⟨placed, (hrelease ms tr₂ r₂ s₂ h₂ hnone).2⟩

end Harbour

end Lulan.Proofs
