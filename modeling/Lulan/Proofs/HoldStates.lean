import Lulan.Lib.Trace
import Lulan.Proofs.HoldIndex

/-!
# The live holds of a store

What each command does to the holds that are stored and have not run out, at the time of the
command and at any later time.
-/

namespace Lulan.Proofs

open Lulan Lulan.Holds Lib

/-- A hold on a seat that blocks other holds: stored, and not yet run out. -/
def Live (s : Redis) (trip unit : Uuid) (f : Uuid × String) : Prop :=
  f ∈ s.hash trip unit ∧ alive s.now f.2 = true

/-- A hold that is stored, and that will not have run out at the time given. -/
def LiveAt (s : Redis) (time : Nat) (trip unit : Uuid) (f : Uuid × String) : Prop :=
  f ∈ s.stored trip unit ∧ alive time f.2 = true

/-- The texts of a store are the script's, in keys that outlive them, and an index is a set. -/
structure Sane (s : Redis) : Prop where
  written : ∀ trip unit k, s.units trip unit = some k → ∀ f ∈ k.value,
    ∃ exp span, Written f.2 exp span ∧ exp ≤ k.expiresAt
  index : ∀ trip k, s.index trip = some k → k.value.Nodup

section States

variable {s : Redis} {trip unit : Uuid} {f : Uuid × String} {time : Nat}

lemma mem_stored : f ∈ s.stored trip unit ↔ ∃ k, s.units trip unit = some k ∧ f ∈ k.value := by
  unfold Redis.stored
  cases s.units trip unit with
  | none => simp
  | some k => simp

lemma alive_mono {text : String} {now : Nat} (h : alive time text = true) (hle : now ≤ time) : alive now text = true := by
  unfold alive at h ⊢
  cases hr : Holds.readLua text with
  | none =>
    rw [hr] at h
    cases h
  | some fields =>
    rw [hr] at h
    have hlt := of_decide_eq_true h
    exact decide_eq_true (by omega)

lemma LiveAt.mono {later : Nat} (h : LiveAt s later trip unit f) (hle : time ≤ later) : LiveAt s time trip unit f :=
  ⟨h.1, alive_mono h.2 hle⟩

/-- A hold that has not run out is found in the hash. -/
lemma Sane.mem_hash (hs : Sane s) (hl : LiveAt s time trip unit f) (hle : s.now ≤ time) : f ∈ s.hash trip unit := by
  obtain ⟨k, hk, hf⟩ := mem_stored.mp hl.1
  obtain ⟨exp, span, hw, hexp⟩ := hs.written trip unit k hk f hf
  have halive := hw.alive.mp hl.2
  exact Proofs.mem_hash.mpr ⟨k, hk, by omega, hf⟩

lemma stored_of_mem_hash (h : f ∈ s.hash trip unit) : f ∈ s.stored trip unit := by
  obtain ⟨k, hk, -, hf⟩ := mem_hash.mp h
  exact mem_stored.mpr ⟨k, hk, hf⟩

lemma Sane.live_iff (hs : Sane s) : Live s trip unit f ↔ LiveAt s s.now trip unit f := by
  constructor
  · exact fun h => ⟨stored_of_mem_hash h.1, h.2⟩
  · exact fun h => ⟨hs.mem_hash h le_rfl, h.2⟩

lemma Sane.pass (hs : Sane s) (ms : Nat) : Sane { s with now := s.now + ms } := ⟨hs.written, hs.index⟩

lemma sane_of_same {s' : Redis} (hs : Sane s) (hu : s'.units = s.units) (hi : s'.index = s.index) : Sane s' where
  written trip unit k hk := hs.written trip unit k (by rw [← hu]; exact hk)
  index trip k hk := hs.index trip k (by rw [← hi]; exact hk)

lemma liveAt_of_units {s' : Redis} (hu : s'.units = s.units) : LiveAt s' time trip unit f ↔ LiveAt s time trip unit f := by
  unfold LiveAt Redis.stored
  rw [hu]

lemma Sane.scanned (hs : Sane s) (trip unit : Uuid) (now ttl : Nat) :
    Scanned now ttl (s.hash trip unit) (scan now ttl (s.hash trip unit)) := by
  refine Proofs.scanned (fun f hf => ?_)
  obtain ⟨k, hk, -, hf⟩ := Proofs.mem_hash.mp hf
  obtain ⟨exp, span, hw, -⟩ := hs.written trip unit k hk f hf
  exact ⟨exp, span, hw⟩

lemma nodup_sadd {members : List Uuid} (h : members.Nodup) (u : Uuid) : (sadd members u).Nodup := by
  unfold sadd
  split
  · exact h
  · rename_i hu
    exact List.nodup_append.mpr ⟨h, List.nodup_singleton u, fun a ha b hb he =>
      hu (by rw [← List.mem_singleton.mp hb, ← he]; exact ha)⟩

lemma Sane.members_nodup (hs : Sane s) (trip : Uuid) : (s.members trip).Nodup := by
  unfold Redis.members
  cases hg : Key.get s.now (s.index trip) with
  | none => exact List.nodup_nil
  | some units =>
    obtain ⟨k, hk, -, rfl⟩ := get_eq_some.mp hg
    exact hs.index trip k hk

end States

/-! ### Commands -/

section Commands

variable {s : Redis} {trip unit t u : Uuid} {f : Uuid × String} {time now ttl : Nat} {holdId : Uuid} {span : SegmentSpan}
  {indexTtl : Nat}

lemma mem_hset_iff {fields : Hash} {text : String} :
    f ∈ hset fields holdId text ↔ f = (holdId, text) ∨ f ∈ fields ∧ f.1 ≠ holdId := by
  refine ⟨mem_hset, fun h => ?_⟩
  unfold hset
  rcases h with rfl | ⟨hf, hne⟩
  · split
    · rename_i hany
      obtain ⟨g, hg, he⟩ := List.any_eq_true.mp hany
      exact List.mem_map.mpr ⟨g, hg, if_pos (beq_iff_eq.mp he)⟩
    · exact List.mem_append_right _ (List.mem_singleton_self _)
  · split
    · exact List.mem_map.mpr ⟨f, hf, if_neg hne⟩
    · exact List.mem_append_left _ hf

lemma stored_setUnit (key : Option (Key Hash)) :
    (s.setUnit trip unit key).stored t u = if t = trip ∧ u = unit then (key.map Key.value).getD [] else s.stored t u := by
  unfold Redis.stored
  rw [setUnit_units]
  split <;> rfl

/-- What is left of the fields of a hash. -/
lemma withFields_value {fields : Hash} (hsub : fields ⊆ s.hash t u) :
    ((withFields (s.units t u) fields).map Key.value).getD [] = fields := by
  unfold withFields
  split
  · rename_i hempty
    rw [List.isEmpty_iff.mp hempty]
    rfl
  · rename_i hempty
    cases hu : s.units t u with
    | none =>
      have hash : s.hash t u = [] := by
        unfold Redis.hash
        rw [hu]
        rfl
      rw [hash] at hsub
      rw [List.subset_nil.mp hsub] at hempty
      exact absurd rfl hempty
    | some k => rfl

/-- The script keeps what has not run out at its time. -/
lemma Sane.kept (hs : Sane s) (ttl : Nat) (hnow : now ≤ s.now) (hle : s.now ≤ time) :
    f ∈ (scan now ttl (s.hash trip unit)).kept ∧ alive time f.2 = true ↔ LiveAt s time trip unit f := by
  rw [(hs.scanned trip unit now ttl).kept, List.mem_filter]
  constructor
  · exact fun h => ⟨stored_of_mem_hash h.1.1, h.2⟩
  · exact fun h => ⟨⟨hs.mem_hash h hle, alive_mono h.2 (by omega)⟩, h.2⟩

/-- A script that refuses changes no live hold. -/
lemma Sane.liveAt_refused (hs : Sane s) (hnow : now ≤ s.now) (hle : s.now ≤ time) :
    LiveAt (s.setUnit trip unit (withFields (s.units trip unit) (scan now ttl (s.hash trip unit)).kept)) time t u f ↔
      LiveAt s time t u f := by
  unfold LiveAt
  rw [stored_setUnit]
  by_cases he : t = trip ∧ u = unit
  · obtain ⟨rfl, rfl⟩ := he
    rw [if_pos ⟨rfl, rfl⟩, ← LiveAt, ← hs.kept ttl hnow hle]
    rw [withFields_value (fun f hf => scan_kept hf)]
  · rw [if_neg he]

/-- What an admitting script leaves. -/
def admittedStore (s : Redis) (trip unit : Uuid) (now ttl : Nat) (holdId : Uuid) (span : SegmentSpan) (indexTtl : Nat) :
    Redis :=
  (s.setUnit trip unit (pexpire (hset (scan now ttl (s.hash trip unit)).kept holdId
      (holdText (now + ttl) (maskHi span) (maskLo span))) s.now ((scan now ttl (s.hash trip unit)).maxExp - now))).setIndex
    trip (pexpire (sadd (s.members trip) unit) s.now indexTtl)

/-- A script that admits adds its hold and changes no other live one. -/
lemma Sane.liveAt_admitted (hs : Sane s) (hnow : now ≤ s.now) (hle : s.now ≤ time) :
    LiveAt (admittedStore s trip unit now ttl holdId span indexTtl) time t u f ↔
      LiveAt s time t u f ∧ ¬(t = trip ∧ u = unit ∧ f.1 = holdId) ∨
        (t = trip ∧ u = unit ∧ f = (holdId, holdText (now + ttl) (maskHi span) (maskLo span))) ∧ alive time f.2 = true := by
  have hstored : (admittedStore s trip unit now ttl holdId span indexTtl).stored t u = (s.setUnit trip unit
      (pexpire (hset (scan now ttl (s.hash trip unit)).kept holdId (holdText (now + ttl) (maskHi span) (maskLo span)))
        s.now ((scan now ttl (s.hash trip unit)).maxExp - now))).stored t u := rfl
  rw [LiveAt, hstored, stored_setUnit]
  by_cases he : t = trip ∧ u = unit
  · obtain ⟨rfl, rfl⟩ := he
    have hscan := hs.scanned t u now ttl
    have hmax := hscan.maxExp
    simp only [and_self, if_true, true_and]
    unfold pexpire
    split
    · rename_i hz
      have hwritten : Written (holdText (now + ttl) (maskHi span) (maskLo span)) (now + ttl) span := rfl
      constructor
      · rintro ⟨hf, -⟩
        cases hf
      · rintro (⟨hl, -⟩ | ⟨rfl, hl⟩)
        · -- a hold that is kept would have made the expiry of the key later
          obtain ⟨hkept, -⟩ := (hs.kept ttl hnow hle).mpr hl
          obtain ⟨k, hk, hf⟩ := mem_stored.mp hl.1
          obtain ⟨exp, span', hw, -⟩ := hs.written t u k hk f hf
          have hexp := hscan.expiries f hkept exp span' hw
          have halive := hw.alive.mp hl.2
          omega
        · have halive := hwritten.alive.mp hl
          omega
    · rw [Option.map_some, Option.getD_some, mem_hset_iff]
      constructor
      · rintro ⟨rfl | ⟨hkept, hne⟩, hl⟩
        · exact .inr ⟨rfl, hl⟩
        · exact .inl ⟨(hs.kept ttl hnow hle).mp ⟨hkept, hl⟩, hne⟩
      · rintro (⟨hl, hne⟩ | ⟨rfl, hl⟩)
        · exact ⟨.inr ⟨((hs.kept ttl hnow hle).mpr hl).1, hne⟩, hl.2⟩
        · exact ⟨.inl rfl, hl⟩
  · have hne : ¬(t = trip ∧ u = unit ∧ f.1 = holdId) := fun h => he ⟨h.1, h.2.1⟩
    rw [if_neg he, ← LiveAt]
    constructor
    · exact fun h => .inl ⟨h, hne⟩
    · rintro (⟨h, -⟩ | ⟨⟨h₁, h₂, -⟩, -⟩)
      · exact h
      · exact absurd ⟨h₁, h₂⟩ he

/-- `HDEL` takes one hold off and changes no other live one. -/
lemma Sane.liveAt_hdel (hs : Sane s) (hle : s.now ≤ time) :
    LiveAt ((Command.hdel trip unit holdId).exec s).2 time t u f ↔
      LiveAt s time t u f ∧ ¬(t = trip ∧ u = unit ∧ f.1 = holdId) := by
  have hstored : ((Command.hdel trip unit holdId).exec s).2.stored t u = (s.setUnit trip unit
      (withFields (s.units trip unit) ((s.hash trip unit).filter (fun g => g.1 != holdId)))).stored t u := rfl
  rw [LiveAt, hstored, stored_setUnit]
  by_cases he : t = trip ∧ u = unit
  · obtain ⟨rfl, rfl⟩ := he
    simp only [and_self, if_true, true_and]
    rw [withFields_value (fun g hg => List.mem_of_mem_filter hg), List.mem_filter, bne_iff_ne]
    constructor
    · exact fun h => ⟨⟨stored_of_mem_hash h.1.1, h.2⟩, h.1.2⟩
    · exact fun h => ⟨⟨hs.mem_hash h.1 hle, h.2⟩, h.1.2⟩
  · rw [if_neg he, ← LiveAt]
    constructor
    · exact fun h => ⟨h, fun hc => he ⟨hc.1, hc.2.1⟩⟩
    · exact fun h => h.1

/-- A script is run no earlier than it was stamped, and for a span. -/
def Stamped (s : Redis) (command : Command) : Prop :=
  ∀ trip unit now ttl holdId hi lo indexTtl, command = .acquire trip unit now ttl holdId hi lo indexTtl →
    now ≤ s.now ∧ ∃ span, hi = maskHi span ∧ lo = maskLo span

lemma Sane.exec (hs : Sane s) {command : Command} (hc : Stamped s command) : Sane (command.exec s).2 where
  written trip unit k' hk' f hf := by
    rcases exec_units hk' with ⟨k, hk, hexp, hsub⟩ | ⟨now, ttl, holdId, hi, lo, indexTtl, hcmd, hadm, rfl⟩
    · obtain ⟨exp, span, hw, he⟩ := hs.written trip unit k hk f (hsub hf)
      exact ⟨exp, span, hw, by rw [hexp]; exact he⟩
    · obtain ⟨hnow, span, rfl, rfl⟩ := hc _ _ _ _ _ _ _ _ hcmd
      have hscan := hs.scanned trip unit now ttl
      have hmax := hscan.maxExp
      rcases mem_hset hf with rfl | ⟨hkept, -⟩
      · exact ⟨now + ttl, span, rfl, by simp only; omega⟩
      · obtain ⟨k, hk, -, hfk⟩ := Proofs.mem_hash.mp (scan_kept hkept)
        obtain ⟨exp, span', hw, -⟩ := hs.written trip unit k hk f hfk
        have hexp := hscan.expiries f hkept exp span' hw
        exact ⟨exp, span', hw, by simp only; omega⟩
  index trip k' hk' := by
    rcases exec_index command s trip with he | ⟨unit, now, ttl, holdId, hi, lo, indexTtl, -, -, he⟩ | ⟨units, -, he⟩
    · exact hs.index trip k' (by rw [← he]; exact hk')
    · rw [he] at hk'
      rw [pexpire_eq_some hk']
      exact nodup_sadd (hs.members_nodup trip) unit
    · rw [he] at hk'
      split at hk'
      · cases hk'
      · obtain ⟨k, -, rfl⟩ := Option.map_eq_some_iff.mp hk'
        exact (hs.members_nodup trip).filter _

lemma sane_empty (start : Nat) : Sane (Redis.empty start) where
  written trip unit k hk := by cases hk
  index trip k hk := by cases hk

end Commands

/-- Every store that the hold operations can reach is sane. -/
theorem sane_of_reachable {start : Nat}
    {c : Conf Holds.Request Redis Command Holds.Reply Unit Uuid (Except Unit Holds.Response)}
    (hc : store.Reachable (Site.init (Redis.empty start)) c) : Sane c.store := by
  have hP : Site.Protocol store (fun _ _ _ => True) (fun s h => HoldsOk s h ∧ Sane s) Reported := by
    refine ⟨fun s h ms hok => ⟨hok.1.pass ms, hok.2.pass ms⟩, fun s h i hok hpids _ => ?_, fun s h pid i a hok _ _ => ?_⟩
    · have hK : Kept (fun _ _ _ => True) (fun s h => HoldsOk s h ∧ Sane s) := by
        refine ⟨fun pid i command reaches s h hf ha hok _ => ⟨hok.1.run reaches ha, ?_⟩,
          fun _ _ _ _ _ _ hok => ⟨hok.1.event (by simp), hok.2⟩⟩
        unfold Command.run
        split
        · refine hok.2.exec (fun trip unit now ttl holdId hi lo indexTtl he => ?_)
          subst he
          obtain ⟨-, hclock, hspan, -⟩ := ha
          exact ⟨hok.1.clocks _ _ _ hclock, hspan⟩
        · exact hok.2
      exact ⟨⟨hok.1.event (by simp), hok.2⟩, operation_keeps hK (clean_arrive i (fun ev he => (hpids ev he).ne))⟩
    · exact ⟨hok.1.event (by simp), hok.2⟩
  exact (hP.invariant ⟨holdsOk_empty start, sane_empty start⟩ hc).1.2

end Lulan.Proofs
