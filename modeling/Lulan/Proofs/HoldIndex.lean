import Lulan.Proofs.HoldRuns

/-!
# The index of held units

When the index of a trip names every unit with an unexpired hold. It does as long as no hold
is placed between a pruner's reading of a unit and its removal, and no acquisition shortens
the life of the index below that of the trip's other holds.
-/

namespace Lulan.Proofs

open Lulan Lulan.Holds Lib

/-- A hold of the unit with expiry `exp` is stored and has not expired. -/
def Unexpired (s : Redis) (trip unit : Uuid) (exp : Nat) : Prop :=
  s.now < exp ∧ ∃ f ∈ s.hash trip unit, ∃ span, Written f.2 exp span

/-- Somebody has found the unit without a live hold and may still take it out of the index. -/
def Pruning (h : List Holds.Event) (trip unit : Uuid) : Prop := ∃ ev ∈ h, (trip, unit) ∈ (watch ev.pid h).stale

structure IndexOk (s : Redis) (h : List Holds.Event) : Prop where
  holds : HoldsOk s h
  readable : ∀ trip unit k, s.units trip unit = some k → ∀ f ∈ k.value, ∀ exp span, Written f.2 exp span → exp < 10 ^ 14
  covered : ∀ trip unit exp, Unexpired s trip unit exp →
    ∃ k, s.index trip = some k ∧ unit ∈ k.value ∧ exp ≤ k.expiresAt
  pruned : ∀ pid trip unit, (trip, unit) ∈ (watch pid h).stale → ∀ exp, ¬ Unexpired s trip unit exp
  clock : ∀ pid, (watch pid h).clock ≤ s.now

section Steps

variable {s : Redis} {h : List Holds.Event} {trip unit : Uuid} {pid : Nat} {i : Holds.Request} {command : Command}
  {exp : Nat}

lemma mem_members {u : Uuid} :
    u ∈ s.members trip ↔ ∃ k, s.index trip = some k ∧ s.now ≤ k.expiresAt ∧ u ∈ k.value := by
  unfold Redis.members
  cases hg : Key.get s.now (s.index trip) with
  | none =>
    constructor
    · intro h
      cases h
    · rintro ⟨k, hk, hn, -⟩
      rw [get_eq_some.mpr ⟨k, hk, hn, rfl⟩] at hg
      cases hg
  | some units =>
    obtain ⟨k, hk, hn, rfl⟩ := get_eq_some.mp hg
    constructor
    · exact fun h => ⟨k, hk, hn, h⟩
    · rintro ⟨k', hk', -, hu⟩
      rw [hk] at hk'
      cases hk'
      exact hu

lemma mem_sadd_self (members : List Uuid) (u : Uuid) : u ∈ sadd members u := by
  unfold sadd
  split
  · assumption
  · exact List.mem_append_right _ (List.mem_singleton_self u)

lemma mem_sadd_of_mem {members : List Uuid} {u v : Uuid} (h : u ∈ members) : u ∈ sadd members v := by
  unfold sadd
  split
  · exact h
  · exact List.mem_append_left _ h

/-- A unit with an unexpired hold is a member of the index. -/
lemma IndexOk.mem_members (hok : IndexOk s h) (hu : Unexpired s trip unit exp) : unit ∈ s.members trip := by
  obtain ⟨k, hk, hmem, hexp⟩ := hok.covered trip unit exp hu
  exact Proofs.mem_members.mpr ⟨k, hk, by have := hu.1; omega, hmem⟩

/-- A live hold shows up in any reading at an earlier clock value. -/
lemma IndexOk.liveUnion_ne_zero (hok : IndexOk s h) (hu : Unexpired s trip unit exp) {now : Nat} (hnow : now < exp) :
    HoldStore.liveUnion now (s.hash trip unit) ≠ 0#64 := by
  obtain ⟨-, f, hf, span, hw⟩ := hu
  obtain ⟨k, hk, -, hfk⟩ := mem_hash.mp hf
  intro h0
  have hmask := liveUnion_and (m := BitVec.allOnes 64) |>.mp (by rw [h0, BitVec.zero_and]) f hf
  rw [hw.liveMask, if_pos ⟨hok.readable trip unit k hk f hfk exp span hw, hnow⟩, BitVec.and_allOnes] at hmask
  exact mask_ne_zero span hmask

/-- Time alone makes holds expire. -/
lemma Unexpired.pass {ms : Nat} (hu : Unexpired { s with now := s.now + ms } trip unit exp) :
    Unexpired s trip unit exp := by
  obtain ⟨hnow, f, hf, span, hw⟩ := hu
  obtain ⟨k, hk, hexp, hfk⟩ := mem_hash.mp hf
  simp only at hnow hk hexp
  exact ⟨by omega, f, mem_hash.mpr ⟨k, hk, by omega, hfk⟩, span, hw⟩

/-- An unexpired hold was there before the command, or the command is the acquisition that
placed it. -/
lemma Unexpired.exec (hu : Unexpired (command.exec s).2 trip unit exp) :
    Unexpired s trip unit exp ∨ ∃ now ttl holdId hi lo indexTtl,
      command = .acquire trip unit now ttl holdId hi lo indexTtl ∧
      admits (scan now ttl (s.hash trip unit)) hi lo = true ∧ ∃ span, Written (holdText (now + ttl) hi lo) exp span := by
  obtain ⟨hnow, f, hf, span, hw⟩ := hu
  obtain ⟨k', hk', hexp, hfk⟩ := mem_hash.mp hf
  rw [exec_now] at hnow hexp
  rcases exec_units hk' with ⟨k, hk, he, hsub⟩ | ⟨now, ttl, holdId, hi, lo, indexTtl, hcmd, hadm, rfl⟩
  · exact .inl ⟨hnow, f, mem_hash.mpr ⟨k, hk, by omega, hsub hfk⟩, span, hw⟩
  · rcases mem_hset hfk with rfl | ⟨hkept, -⟩
    · exact .inr ⟨now, ttl, holdId, hi, lo, indexTtl, hcmd, hadm, span, hw⟩
    · exact .inl ⟨hnow, f, scan_kept hkept, span, hw⟩

@[simp] lemma setIndex_index (s : Redis) (trip : Uuid) (key : Option (Key (List Uuid))) (t : Uuid) :
    (s.setIndex trip key).index t = if t = trip then key else s.index t := by
  unfold Redis.setIndex
  simp only
  by_cases ht : t = trip
  · rw [ht, Function.update_self, if_pos rfl]
  · rw [Function.update_of_ne ht, if_neg ht]

/-- What a command does to the index of a trip. -/
lemma exec_index (command : Command) (s : Redis) (trip : Uuid) :
    (command.exec s).2.index trip = s.index trip ∨
    (∃ unit now ttl holdId hi lo indexTtl, command = .acquire trip unit now ttl holdId hi lo indexTtl ∧
      admits (scan now ttl (s.hash trip unit)) hi lo = true ∧
      (command.exec s).2.index trip = pexpire (sadd (s.members trip) unit) s.now indexTtl) ∨
    ∃ units, command = .srem trip units ∧ (command.exec s).2.index trip =
      if ((s.members trip).filter (fun u => !units.contains u)).isEmpty then none
      else (s.index trip).map (fun k => { k with value := (s.members trip).filter (fun u => !units.contains u) }) := by
  cases command with
  | acquire t u now ttl holdId hi lo indexTtl =>
    by_cases hadm : admits (scan now ttl (s.hash t u)) hi lo = true
    · simp only [Command.exec, acquireScript, if_pos hadm, setIndex_index]
      by_cases ht : trip = t
      · subst ht
        exact .inr (.inl ⟨u, now, ttl, holdId, hi, lo, indexTtl, rfl, hadm, if_pos rfl⟩)
      · exact .inl (if_neg ht)
    · left
      simp only [Command.exec, acquireScript, if_neg hadm]
      rfl
  | srem t units =>
    simp only [Command.exec, setIndex_index]
    by_cases ht : trip = t
    · subst ht
      exact .inr (.inr ⟨units, rfl, if_pos rfl⟩)
    · exact .inl (if_neg ht)
  | _ =>
    left
    simp only [Command.exec]
    try split
    all_goals rfl

lemma stale_event {w : Watch} {reply : Holds.Reply}
    (hs : (trip, unit) ∈ (w.event (.commit pid i command reply)).stale) :
    ((trip, unit) ∈ w.stale ∧ ∀ units, command = .srem trip units → unit ∉ units) ∨
      (command = .hlen trip unit ∧ reply = .int 0) ∨
      ∃ fields, command = .hgetall trip unit ∧ reply = .fields fields ∧ HoldStore.liveUnion w.clock fields = 0#64 := by
  unfold Watch.event at hs
  split at hs
  · rename_i heq
    cases heq
    exact .inl ⟨hs, fun units hc => by cases hc⟩
  · rename_i heq
    cases heq
    rcases List.mem_cons.mp hs with he | hs
    · cases he
      exact .inr (.inl ⟨rfl, rfl⟩)
    · exact .inl ⟨hs, fun units hc => by cases hc⟩
  · rename_i heq
    cases heq
    split at hs
    · rename_i fields h0
      rcases List.mem_cons.mp hs with he | hs
      · cases he
        exact .inr (.inr ⟨fields, rfl, rfl, h0⟩)
      · exact .inl ⟨hs, fun units hc => by cases hc⟩
    · exact .inl ⟨hs, fun units hc => by cases hc⟩
  · rename_i heq
    cases heq
    obtain ⟨hs, hout⟩ := List.mem_filter.mp hs
    refine .inl ⟨hs, fun units hc hu => ?_⟩
    cases hc
    simp [hu] at hout
  · rename_i heq
    cases heq
  · rename_i hsrem _
    refine .inl ⟨hs, fun units hc => ?_⟩
    subst hc
    exact absurd rfl (hsrem pid i trip units reply)

lemma clock_event (w : Watch) (ev : Holds.Event) :
    (w.event ev).clock = w.clock ∨ ∃ q j n, ev = .commit q j .clock (.int n) ∧ (w.event ev).clock = n := by
  unfold Watch.event
  split
  · exact .inr ⟨_, _, _, rfl, rfl⟩
  · exact .inl rfl
  · split <;> exact .inl rfl
  · exact .inl rfl
  · exact .inl rfl
  · exact .inl rfl

lemma watch_concat (pid : Nat) (h : List Holds.Event) (ev : Holds.Event) :
    watch pid (h ++ [ev]) = if ev.pid = pid then (watch pid h).event ev else watch pid h := by
  by_cases he : ev.pid = pid
  · rw [if_pos he, watch_own pid h he]
  · rw [if_neg he, watch_later (.concat h he)]

lemma stale_quiet {w : Watch} {ev : Holds.Event} (hev : ∀ q j t r, ev ≠ .commit q j t r) {u : Uuid × Uuid}
    (hs : u ∈ (w.event ev).stale) : u ∈ w.stale := by
  cases ev with
  | commit q j t r => exact absurd rfl (hev q j t r)
  | answer q j a => cases hs
  | _ => exact hs

lemma IndexOk.clock_concat (hok : IndexOk s h) {ev : Holds.Event}
    (hev : ∀ q j n, ev = .commit q j .clock (.int n) → n ≤ s.now) (q : Nat) : (watch q (h ++ [ev])).clock ≤ s.now := by
  rw [watch_concat]
  split
  · rcases clock_event (watch q h) ev with he | ⟨_, j, n, he, hn⟩
    · rw [he]
      exact hok.clock q
    · rw [hn]
      exact hev _ j n he
  · exact hok.clock q

/-- What is not a command changes nothing. -/
lemma IndexOk.quiet (hok : IndexOk s h) {ev : Holds.Event} (hev : ∀ q j t r, ev ≠ .commit q j t r) :
    IndexOk s (h ++ [ev]) where
  holds := hok.holds.event (fun q j n he => absurd he (hev _ _ _ _))
  readable := hok.readable
  covered := hok.covered
  pruned q trip unit hs := by
    rw [watch_concat] at hs
    split at hs
    · exact hok.pruned q trip unit (stale_quiet hev hs)
    · exact hok.pruned q trip unit hs
  clock q := hok.clock_concat (fun q j n he => absurd he (hev _ _ _ _)) q

lemma IndexOk.pass (hok : IndexOk s h) (ms : Nat) : IndexOk { s with now := s.now + ms } h where
  holds := hok.holds.pass ms
  readable := hok.readable
  covered trip unit exp hu := hok.covered trip unit exp hu.pass
  pruned q trip unit hs exp hu := hok.pruned q trip unit hs exp hu.pass
  clock q := le_trans (hok.clock q) (Nat.le_add_right _ _)

/-- A command that does not reach Redis changes nothing. -/
lemma IndexOk.failed (hok : IndexOk s h) : IndexOk s (h ++ [.commit pid i command .error]) where
  holds := hok.holds.event (fun q j n he => by cases he)
  readable := hok.readable
  covered := hok.covered
  pruned q trip unit hs := by
    rw [watch_concat] at hs
    split at hs
    · rcases stale_event hs with ⟨hs, -⟩ | ⟨-, hr⟩ | ⟨fields, -, hr, -⟩
      · exact hok.pruned q trip unit hs
      · cases hr
      · cases hr
    · exact hok.pruned q trip unit hs
  clock q := hok.clock_concat (fun q j n he => by cases he) q

/-- What an admitted acquisition has to respect: its expiry is written out, nobody is about to
take the unit out of the index, and the index outlives the holds of the trip. -/
structure Respects (s : Redis) (h : List Holds.Event) (trip unit : Uuid) (exp indexTtl : Nat) : Prop where
  readable : exp < 10 ^ 14
  unpruned : ∀ q, (trip, unit) ∉ (watch q h).stale
  covers : ∀ unit' exp', Unexpired s trip unit' exp' → exp' ≤ s.now + indexTtl

lemma IndexOk.exec (hok : IndexOk s h) (ha : Allowed pid i h command)
    (hr : ∀ trip unit now ttl holdId hi lo indexTtl, command = .acquire trip unit now ttl holdId hi lo indexTtl →
      (command.exec s).1 = .int 1 → Respects s h trip unit (now + ttl) indexTtl) :
    IndexOk (command.exec s).2 (h ++ [.commit pid i command (command.exec s).1]) := by
  have hadmitted : ∀ {trip unit : Uuid} {now ttl : Nat} {holdId : Uuid} {hi lo indexTtl : Nat},
      command = .acquire trip unit now ttl holdId hi lo indexTtl →
      admits (scan now ttl (s.hash trip unit)) hi lo = true →
      Respects s h trip unit (now + ttl) indexTtl ∧ now ≤ s.now ∧ indexTtl = ttl * indexTtlMultiplier ∧
        ∃ span, hi = maskHi span ∧ lo = maskLo span := by
    rintro trip unit now ttl holdId hi lo indexTtl rfl hadm
    obtain ⟨-, hclock, hspan, httl, -⟩ := ha
    refine ⟨hr _ _ _ _ _ _ _ _ rfl ?_, hok.holds.clocks pid i now hclock, httl, hspan⟩
    simp only [Command.exec, acquireScript, if_pos hadm]
  have hunpruned : ∀ {q : Nat} {trip unit : Uuid} {exp : Nat}, (trip, unit) ∈ (watch q h).stale →
      ¬ Unexpired (command.exec s).2 trip unit exp := by
    intro q trip unit exp hs hu
    rcases hu.exec with hu | ⟨now, ttl, holdId, hi, lo, indexTtl, hcmd, hadm, -⟩
    · exact hok.pruned q trip unit hs exp hu
    · exact (hadmitted hcmd hadm).1.unpruned q hs
  refine ⟨hok.holds.exec ha, ?_, ?_, ?_, fun q => ?_⟩
  · intro trip unit k' hk' f hf exp span hw
    rcases exec_units hk' with ⟨k, hk, -, hsub⟩ | ⟨now, ttl, holdId, hi, lo, indexTtl, hcmd, hadm, rfl⟩
    · exact hok.readable trip unit k hk f (hsub hf) exp span hw
    · obtain ⟨hresp, -, -, new, rfl, rfl⟩ := hadmitted hcmd hadm
      rcases mem_hset hf with rfl | ⟨hf, -⟩
      · have hnew : Written (holdText (now + ttl) (maskHi new) (maskLo new)) (now + ttl) new := rfl
        rw [hnew.exp_eq hw hresp.readable]
        exact hresp.readable
      · obtain ⟨k, hk, -, hfk⟩ := mem_hash.mp (scan_kept hf)
        exact hok.readable trip unit k hk f hfk exp span hw
  · intro trip unit exp hu
    have hlate : s.now < exp := by
      have := hu.1
      rwa [exec_now] at this
    rcases hu.exec with hold | ⟨now, ttl, holdId, hi, lo, indexTtl, hcmd, hadm, span, hw⟩
    · obtain ⟨k, hk, hmem, hexp⟩ := hok.covered trip unit exp hold
      rcases exec_index command s trip with he | ⟨unit', now, ttl, holdId, hi, lo, indexTtl, hcmd, hadm, he⟩ |
        ⟨units, hcmd, he⟩
      · exact ⟨k, by rw [he]; exact hk, hmem, hexp⟩
      · have hcover := (hadmitted hcmd hadm).1.covers unit exp hold
        refine ⟨⟨sadd (s.members trip) unit', s.now + indexTtl⟩, ?_, ?_, hcover⟩
        · rw [he, pexpire, if_neg (by omega)]
        · exact mem_sadd_of_mem (hok.mem_members hold)
      · have hleft : unit ∈ (s.members trip).filter (fun u => !units.contains u) := by
          refine List.mem_filter.mpr ⟨hok.mem_members hold, ?_⟩
          have hout : unit ∉ units := by
            intro hin
            subst hcmd
            exact hok.pruned pid trip unit (ha unit hin) exp hold
          simp [hout]
        refine ⟨{ k with value := (s.members trip).filter (fun u => !units.contains u) }, ?_, hleft, hexp⟩
        rw [he, if_neg, hk]
        · rfl
        · intro hempty
          rw [List.isEmpty_iff.mp hempty] at hleft
          cases hleft
    · obtain ⟨hresp, hnow, rfl, new, rfl, rfl⟩ := hadmitted hcmd hadm
      have hnew : Written (holdText (now + ttl) (maskHi new) (maskLo new)) (now + ttl) new := rfl
      have hexp := hnew.exp_eq hw hresp.readable
      have hmul : ttl * indexTtlMultiplier = ttl * 4 := rfl
      have he : (command.exec s).2.index trip =
          pexpire (sadd (s.members trip) unit) s.now (ttl * indexTtlMultiplier) := by
        subst hcmd
        simp only [Command.exec, acquireScript, if_pos hadm, setIndex_index, if_true]
      refine ⟨⟨sadd (s.members trip) unit, s.now + ttl * indexTtlMultiplier⟩, ?_, mem_sadd_self _ _, ?_⟩
      · rw [he, pexpire, if_neg (by omega)]
      · simp only
        omega
  · intro q trip unit hs exp hu
    rw [watch_concat] at hs
    split at hs
    · rcases stale_event hs with ⟨hs, -⟩ | ⟨hcmd, hreply⟩ | ⟨fields, hcmd, hreply, h0⟩
      · exact hunpruned hs hu
      · subst hcmd
        obtain ⟨-, f, hf, -⟩ := hu
        have hlen : (s.hash trip unit).length = 0 := by simpa [Command.exec] using hreply
        rw [List.length_eq_zero_iff] at hlen
        have hf' : f ∈ s.hash trip unit := hf
        rw [hlen] at hf'
        cases hf'
      · subst hcmd
        have hfields : s.hash trip unit = fields := by simpa [Command.exec] using hreply
        have hu' : Unexpired s trip unit exp := hu
        have hclock := hok.clock q
        rw [← hfields] at h0
        exact hok.liveUnion_ne_zero hu' (by have := hu'.1; omega) h0
    · exact hunpruned hs hu
  · rw [exec_now]
    refine hok.clock_concat (fun q j n he => ?_) q
    obtain ⟨-, -, hcmd, hreply⟩ := Lib.Ev.commit.inj he
    subst hcmd
    cases hreply
    exact le_refl _

lemma IndexOk.run (hok : IndexOk s h) (reaches : Bool) (ha : Allowed pid i h command)
    (hr : ∀ trip unit now ttl holdId hi lo indexTtl, command = .acquire trip unit now ttl holdId hi lo indexTtl →
      (command.run reaches s).1 = .int 1 → Respects s h trip unit (now + ttl) indexTtl) :
    IndexOk (command.run reaches s).2 (h ++ [.commit pid i command (command.run reaches s).1]) := by
  unfold Command.run at hr ⊢
  split
  · rename_i hreach
    rw [if_pos hreach] at hr
    exact hok.exec ha hr
  · exact hok.failed

lemma indexOk_empty (now : Nat) : IndexOk (Redis.empty now) [] where
  holds := holdsOk_empty now
  readable trip unit k hk := by cases hk
  covered trip unit exp hu := by
    obtain ⟨-, f, hf, -⟩ := hu
    cases hf
  pruned pid trip unit hs := by cases hs
  clock pid := Nat.zero_le _

/-- A command leaves no unexpired hold that was not there before, an acquisition aside. -/
lemma Unexpired.run {reaches : Bool} (hu : Unexpired (command.run reaches s).2 trip unit exp) :
    Unexpired s trip unit exp ∨ ∃ now ttl holdId hi lo indexTtl,
      command = .acquire trip unit now ttl holdId hi lo indexTtl ∧ (command.run reaches s).1 = .int 1 ∧
      ∃ span, Written (holdText (now + ttl) hi lo) exp span := by
  unfold Command.run at hu ⊢
  split at hu
  · rename_i hreach
    rcases hu.exec with hu | ⟨now, ttl, holdId, hi, lo, indexTtl, hcmd, hadm, hw⟩
    · exact .inl hu
    · refine .inr ⟨now, ttl, holdId, hi, lo, indexTtl, hcmd, ?_, hw⟩
      rw [if_pos hreach, hcmd]
      simp only [Command.exec, acquireScript, if_pos hadm]
  · exact .inl hu

lemma run_now (command : Command) (reaches : Bool) (s : Redis) : (command.run reaches s).2.now = s.now := by
  unfold Command.run
  split
  · exact exec_now command s
  · rfl

lemma pruning_of_stale {q : Nat} (hs : (trip, unit) ∈ (watch q h).stale) : Pruning h trip unit := by
  by_cases he : ∃ ev ∈ h, ev.pid = q
  · obtain ⟨ev, hev, rfl⟩ := he
    exact ⟨ev, hev, hs⟩
  · have hnone : h.filter (fun ev => ev.pid == q) = [] :=
      List.filter_eq_nil_iff.mpr (fun ev hev => by simpa using fun hp => he ⟨ev, hev, hp⟩)
    rw [watch, hnone] at hs
    cases hs

end Steps

/-! ### Holds with one TTL -/

section OneTtl

/-- Every acquisition uses the TTL `ttl`. -/
def SameTtl (ttl : Nat) (_ : Redis) (_ : List Holds.Event) : Holds.Event → Prop
  | .commit _ _ (.acquire _ _ _ ttl' _ _ _ _) _ => ttl' = ttl
  | _ => True

/-- Every acquisition uses the TTL `ttl`, and none is admitted for a unit that somebody has found
without a live hold and may still take out of the index. -/
def Undisturbed (ttl : Nat) (_ : Redis) (h : List Holds.Event) : Holds.Event → Prop
  | .commit _ _ (.acquire trip unit now ttl' _ _ _ _) reply =>
    ttl' = ttl ∧ (reply = .int 1 → now + ttl' < 10 ^ 14 ∧ ¬ Pruning h trip unit)
  | _ => True

instance (ttl : Nat) (s : Redis) (h : List Holds.Event) (ev : Holds.Event) : Decidable (SameTtl ttl s h ev) := by
  unfold SameTtl
  split <;> infer_instance

instance (h : List Holds.Event) (trip unit : Uuid) : Decidable (Pruning h trip unit) :=
  inferInstanceAs (Decidable (∃ ev ∈ h, (trip, unit) ∈ (watch ev.pid h).stale))

instance (ttl : Nat) (s : Redis) (h : List Holds.Event) (ev : Holds.Event) : Decidable (Undisturbed ttl s h ev) := by
  unfold Undisturbed
  split <;> infer_instance

lemma oneTtl_protocol (ttl : Nat) : Site.Protocol store (Undisturbed ttl)
    (fun s h => IndexOk s h ∧ ∀ trip unit exp, Unexpired s trip unit exp → exp ≤ s.now + ttl) Reported where
  env s _ ms hI := ⟨hI.1.pass ms, fun trip unit exp hu => by
    have := hI.2 trip unit exp hu.pass
    simp only [store]
    omega⟩
  answer _ _ _ _ _ hI _ _ := ⟨hI.1.quiet (by simp), hI.2⟩
  arrive s h i hI hpids _ := by
    refine ⟨⟨hI.1.quiet (by simp), hI.2⟩, operation_keeps ⟨?_, ?_⟩ (clean_arrive i (fun ev he => (hpids ev he).ne))⟩
    · intro pid i command reaches s h _ ha hI hG
      have hfar : ∀ trip unit exp, Unexpired (command.run reaches s).2 trip unit exp → exp ≤ s.now + ttl := by
        intro trip unit exp hu
        rcases hu.run with hu | ⟨now, ttl', holdId, hi, lo, indexTtl, rfl, hr, span, hw⟩
        · exact hI.2 trip unit exp hu
        · obtain ⟨-, hclock, ⟨new, rfl, rfl⟩, -⟩ := ha
          obtain ⟨rfl, hG⟩ := hG
          have hnew : Written (holdText (now + ttl') (maskHi new) (maskLo new)) (now + ttl') new := rfl
          have hnow := hI.1.holds.clocks pid i now hclock
          have hexp := hnew.exp_eq hw (hG hr).1
          omega
      refine ⟨hI.1.run reaches ha ?_, ?_⟩
      · rintro trip unit now ttl' holdId hi lo indexTtl rfl hr
        obtain ⟨rfl, hG⟩ := hG
        obtain ⟨hexp, hprune⟩ := hG hr
        refine ⟨hexp, fun q hs => hprune (pruning_of_stale hs), fun unit' exp' hu => ?_⟩
        obtain ⟨-, -, -, httl, -⟩ := ha
        have := hI.2 trip unit' exp' hu
        have hmul : ttl' * indexTtlMultiplier = ttl' * 4 := rfl
        omega
      · intro trip unit exp hu
        rw [run_now]
        exact hfar trip unit exp hu
    · exact fun _ _ _ _ _ _ hI => ⟨hI.1.quiet (by simp), hI.2⟩

/-- Along any interleaving of operations with one TTL, none of which has a hold admitted for a
unit between somebody's reading of it and the removal: the index names every unit with an
unexpired hold. -/
theorem index_never_misses {start ttl : Nat}
    {c : Conf Holds.Request Redis Command Holds.Reply Unit Uuid (Except Unit Holds.Response)}
    (hc : store.ReachableWhen (Undisturbed ttl) (Site.init (Redis.empty start)) c) {trip unit : Uuid} {exp : Nat}
    (hu : Unexpired c.store trip unit exp) : unit ∈ c.store.members trip := by
  have hempty : ∀ trip unit exp, Unexpired (Redis.empty start) trip unit exp → exp ≤ start + ttl := by
    intro trip unit exp hu
    obtain ⟨-, f, hf, -⟩ := hu
    cases hf
  obtain ⟨⟨hok, -⟩, -, -⟩ := (oneTtl_protocol ttl).invariant ⟨indexOk_empty start, hempty⟩ hc
  exact hok.mem_members hu

/-- What the runs below end in. -/
def snapshot (trip unit : Uuid) (s : Redis) : Nat × Hash × List Uuid := (s.now, s.hash trip unit, s.members trip)

lemma unexpired_of_snapshot {s : Redis} {trip unit now exp holdId hi lo : Nat} {members : List Uuid}
    (span : SegmentSpan) (hhi : maskHi span = hi) (hlo : maskLo span = lo) (hexp : now < exp)
    (h : snapshot trip unit s = (now, [(holdId, holdText exp hi lo)], members)) :
    Unexpired s trip unit exp ∧ s.members trip = members := by
  simp only [snapshot, Prod.mk.injEq] at h
  obtain ⟨hnow, hhash, hmembers⟩ := h
  refine ⟨⟨by omega, (holdId, holdText exp hi lo), ?_, span, ?_⟩, hmembers⟩
  · rw [hhash]
    exact List.mem_singleton_self _
  · rw [Written, hhi, hlo]

/-- Two seats are held, and the hold on one of them is released again. -/
theorem index_never_misses_harbour : ∃ c : Conf Holds.Request Redis Command Holds.Reply Unit Uuid
      (Except Unit Holds.Response),
    store.ReachableWhen (Undisturbed 600000) (Site.init (Redis.empty 0)) c ∧ Unexpired c.store 1 8 600005 ∧
      8 ∈ c.store.members 1 := by
  have hrun : (store.execWhen (Undisturbed 600000) (Site.init (Redis.empty 0))
      [.arrive (.acquire 1 7 ⟨0, 2, by decide, by decide⟩ 600000), .reply 0 100, .commit 0 true, .commit 0 true,
        .commit 0 true, .answer 0, .env 5, .arrive (.acquire 1 8 ⟨0, 2, by decide, by decide⟩ 600000), .reply 6 200,
        .commit 6 true, .arrive (.release 100), .commit 9 true, .commit 6 true, .commit 9 true, .commit 9 true,
        .commit 6 true, .commit 9 true, .commit 9 true, .answer 9]).map (fun c => snapshot 1 8 c.store) =
      some (5, [(200, holdText 600005 0 3)], [8]) := by decide
  obtain ⟨c, hc, hshot⟩ := Option.map_eq_some_iff.mp hrun
  obtain ⟨hu, -⟩ := unexpired_of_snapshot ⟨0, 2, by decide, by decide⟩ (by decide) (by decide) (by decide) hshot
  have hreach := Site.reachable_of_execWhen hc
  exact ⟨c, hreach, hu, index_never_misses hreach hu⟩

/-- A release finds a unit without holds, a new hold is placed on it, and the release takes it
out of the index. -/
theorem release_prunes_new_hold : ¬ ∀ (c : Conf Holds.Request Redis Command Holds.Reply Unit Uuid
      (Except Unit Holds.Response)) (trip unit : Uuid) (exp : Nat),
    store.ReachableWhen (SameTtl 600000) (Site.init (Redis.empty 0)) c → Unexpired c.store trip unit exp →
      unit ∈ c.store.members trip := by
  intro hall
  have hrun : (store.execWhen (SameTtl 600000) (Site.init (Redis.empty 0))
      [.arrive (.acquire 1 7 ⟨0, 2, by decide, by decide⟩ 600000), .reply 0 100, .commit 0 true, .commit 0 true,
        .commit 0 true, .answer 0, .arrive (.release 100), .commit 6 true, .commit 6 true, .commit 6 true,
        .arrive (.acquire 1 7 ⟨0, 2, by decide, by decide⟩ 600000), .reply 10 200, .commit 10 true, .commit 10 true,
        .commit 10 true, .answer 10, .commit 6 true]).map (fun c => snapshot 1 7 c.store) =
      some (0, [(200, holdText 600000 0 3)], []) := by decide
  obtain ⟨c, hc, hshot⟩ := Option.map_eq_some_iff.mp hrun
  obtain ⟨hu, hmembers⟩ :=
    unexpired_of_snapshot ⟨0, 2, by decide, by decide⟩ (by decide) (by decide) (by decide) hshot
  have hmem := hall c 1 7 600000 (Site.reachable_of_execWhen hc) hu
  rw [hmembers] at hmem
  cases hmem

end OneTtl

/-! ### Operations one after another -/

section InTurn

def isAnswer : Holds.Event → Bool
  | .answer _ _ _ => true
  | _ => false

/-- An operation starts once the ones before it have ended. -/
def OneByOne (h : List Holds.Event) : Holds.Event → Prop
  | .arrive _ _ => ∀ ev ∈ h, ∃ ev' ∈ h, ev'.pid = ev.pid ∧ isAnswer ev' = true
  | _ => True

/-- Operations one after another, where the index TTL of every admitted acquisition reaches as
far as the unexpired holds of its trip. -/
def InTurn (s : Redis) (h : List Holds.Event) (ev : Holds.Event) : Prop :=
  OneByOne h ev ∧ match ev with
    | .commit _ _ (.acquire trip _ now ttl _ _ _ indexTtl) reply => reply = .int 1 →
      now + ttl < 10 ^ 14 ∧ ∀ unit exp, Unexpired s trip unit exp → exp ≤ s.now + indexTtl
    | _ => True

/-- At most one operation is under way, and only it can be about to take a unit out of the index. -/
structure Serial (h : List Holds.Event) : Prop where
  arrivals : ∀ pid i j, .arrive pid i ∈ h → .arrive pid j ∈ h → i = j
  one : ∀ p q i j, InFlight p i h → InFlight q j h → p = q
  busy : ∀ q u, u ∈ (watch q h).stale → ∃ j, InFlight q j h

/-- What a reply has shown, as long as no hold is placed. -/
def Tells (s : Redis) : Command → Holds.Reply → Prop
  | .smembers trip, .members members => ∀ unit exp, Unexpired s trip unit exp → unit ∈ members
  | .scard trip, .int n => ∀ units : List Uuid, units.Nodup → (∀ unit ∈ units, ∃ exp, Unexpired s trip unit exp) →
      units.length ≤ n
  | .hgetall trip unit, .fields fields => ∀ exp, Unexpired s trip unit exp → ∀ now < exp,
      HoldStore.liveUnion now fields ≠ 0#64
  | _, _ => True

structure TurnsOk (s : Redis) (h : List Holds.Event) : Prop where
  index : IndexOk s h
  serial : Serial h
  seen : ∀ pid i command reply, .commit pid i command reply ∈ h → InFlight pid i h → acquires i = false →
    Tells s command reply

variable {s s' : Redis} {h : List Holds.Event} {trip unit : Uuid} {pid : Nat} {i : Holds.Request} {command : Command}
  {reply : Holds.Reply} {exp : Nat}

lemma Tells.shrink (ht : Tells s command reply)
    (hu : ∀ trip unit exp, Unexpired s' trip unit exp → Unexpired s trip unit exp) : Tells s' command reply := by
  unfold Tells at ht ⊢
  split
  · exact fun unit exp h => ht unit exp (hu _ _ _ h)
  · intro units hnd h
    refine ht units hnd (fun unit hm => ?_)
    obtain ⟨exp, he⟩ := h unit hm
    exact ⟨exp, hu _ _ _ he⟩
  · exact fun exp h => ht exp (hu _ _ _ h)
  · trivial

/-- What a command has just shown. -/
lemma IndexOk.tells (hok : IndexOk s h) (reaches : Bool) : Tells s command (command.run reaches s).1 := by
  unfold Command.run
  split
  · cases command with
    | smembers trip => exact fun unit exp hu => hok.mem_members hu
    | scard trip =>
      intro units hnd hunits
      refine hnd.length_le_of_subset (fun unit hm => ?_)
      obtain ⟨exp, hu⟩ := hunits unit hm
      exact hok.mem_members hu
    | hgetall trip unit => exact fun exp hu now hnow => hok.liveUnion_ne_zero hu hnow
    | _ => trivial
  · cases command <;> trivial

lemma Serial.arrive (hs : Serial h) (hpids : ∀ ev ∈ h, ev.pid < h.length) {j : Holds.Request}
    (hG : OneByOne h (.arrive h.length j)) : Serial (h ++ [.arrive h.length j]) := by
  have hidle : ∀ p i, ¬ InFlight p i h := by
    intro p i hf
    obtain ⟨ev, hev, hpid, hans⟩ := hG _ hf.arrived
    cases ev with
    | answer q k a =>
      cases hpid
      exact hf.unanswered k a hev
    | _ => cases hans
  have hnew : ∀ {p : Nat} {i : Holds.Request}, InFlight p i (h ++ [.arrive h.length j]) → p = h.length := by
    intro p i hf
    rcases List.mem_append.mp hf.arrived with harr | harr
    · exact absurd ⟨harr, fun k a ha => hf.unanswered k a (List.mem_append_left _ ha)⟩ (hidle p i)
    · cases List.mem_singleton.mp harr
      rfl
  refine ⟨?_, ?_, ?_⟩
  · intro p i i' hi hi'
    rcases List.mem_append.mp hi with hi | hi
    · rcases List.mem_append.mp hi' with hi' | hi'
      · exact hs.arrivals p i i' hi hi'
      · cases List.mem_singleton.mp hi'
        exact absurd (hpids _ hi) (lt_irrefl _)
    · cases List.mem_singleton.mp hi
      rcases List.mem_append.mp hi' with hi' | hi'
      · exact absurd (hpids _ hi') (lt_irrefl _)
      · cases List.mem_singleton.mp hi'
        rfl
  · intro p q i i' hp hq
    rw [hnew hp, hnew hq]
  · intro q u hu
    rw [watch_concat] at hu
    split at hu
    · rename_i hq
      refine ⟨j, ?_, ?_⟩
      · rw [← hq]
        exact List.mem_append_right _ (List.mem_singleton_self _)
      · intro k a ha
        have hin : .answer q k a ∈ h := by simpa using ha
        exact absurd (hpids _ hin) (by rw [← hq]; exact lt_irrefl _)
    · obtain ⟨i, hf⟩ := hs.busy q u hu
      exact absurd hf (hidle q i)

/-- What an operation does after its arrival and before its answer. -/
lemma Serial.step (hs : Serial h) (hf : InFlight pid i h) {ev : Holds.Event} (hpid : ev.pid = pid)
    (harr : ∀ q j, ev ≠ .arrive q j) (hans : ∀ q j a, ev ≠ .answer q j a) : Serial (h ++ [ev]) := by
  have hback : ∀ {p : Nat} {j : Holds.Request}, InFlight p j (h ++ [ev]) → InFlight p j h := by
    intro p j hp
    refine ⟨?_, fun k a ha => hp.unanswered k a (List.mem_append_left _ ha)⟩
    rcases List.mem_append.mp hp.arrived with ha | ha
    · exact ha
    · exact absurd (List.mem_singleton.mp ha).symm (harr _ _)
  have hforth : ∀ {p : Nat} {j : Holds.Request}, InFlight p j h → InFlight p j (h ++ [ev]) := by
    intro p j hp
    refine ⟨List.mem_append_left _ hp.arrived, fun k a ha => ?_⟩
    rcases List.mem_append.mp ha with ha | ha
    · exact hp.unanswered k a ha
    · exact absurd (List.mem_singleton.mp ha).symm (hans _ _ _)
  refine ⟨?_, fun p q j k hp hq => hs.one p q j k (hback hp) (hback hq), ?_⟩
  · intro p j k hj hk
    rcases List.mem_append.mp hj with hj | hj
    · rcases List.mem_append.mp hk with hk | hk
      · exact hs.arrivals p j k hj hk
      · exact absurd (List.mem_singleton.mp hk).symm (harr _ _)
    · exact absurd (List.mem_singleton.mp hj).symm (harr _ _)
  · intro q u hu
    rw [watch_concat] at hu
    split at hu
    · rename_i hq
      rw [hpid] at hq
      exact ⟨i, hforth (hq ▸ hf)⟩
    · obtain ⟨j, hj⟩ := hs.busy q u hu
      exact ⟨j, hforth hj⟩

lemma Serial.answer (hs : Serial h) (a : Except Unit Holds.Response) : Serial (h ++ [.answer pid i a]) := by
  have hback : ∀ {p : Nat} {j : Holds.Request}, InFlight p j (h ++ [.answer pid i a]) → InFlight p j h := by
    intro p j hp
    exact ⟨by simpa using hp.arrived, fun k a ha => hp.unanswered k a (List.mem_append_left _ ha)⟩
  refine ⟨fun p j k hj hk => hs.arrivals p j k (by simpa using hj) (by simpa using hk),
    fun p q j k hp hq => hs.one p q j k (hback hp) (hback hq), ?_⟩
  intro q u hu
  rw [watch_concat] at hu
  split at hu
  · cases hu
  · rename_i hq
    obtain ⟨j, hj⟩ := hs.busy q u hu
    refine ⟨j, List.mem_append_left _ hj.arrived, fun k b hb => ?_⟩
    rcases List.mem_append.mp hb with hb | hb
    · exact hj.unanswered k b hb
    · cases List.mem_singleton.mp hb
      exact hq rfl

lemma TurnsOk.step (hok : TurnsOk s h) (reaches : Bool) (hf : InFlight pid i h) (ha : Allowed pid i h command)
    (hG : InTurn s h (.commit pid i command (command.run reaches s).1)) :
    TurnsOk (command.run reaches s).2 (h ++ [.commit pid i command (command.run reaches s).1]) := by
  refine ⟨hok.index.run reaches ha ?_, hok.serial.step hf rfl (by simp) (by simp), ?_⟩
  · rintro trip unit now ttl holdId hi lo indexTtl rfl hr
    obtain ⟨hexp, hcover⟩ := hG.2 hr
    refine ⟨hexp, fun q hq => ?_, hcover⟩
    obtain ⟨j, hj⟩ := hok.serial.busy q _ hq
    obtain ⟨-, -, -, -, hstale⟩ := ha
    rw [hok.serial.one q pid j i hj hf, hstale] at hq
    cases hq
  · intro q j command' reply' hm hq hacq
    have hq' : InFlight q j h :=
      ⟨by simpa using hq.arrived, fun k a ha => hq.unanswered k a (List.mem_append_left _ ha)⟩
    have hpid := hok.serial.one q pid j i hq' hf
    subst hpid
    have hi := hok.serial.arrivals q j i hq'.arrived hf.arrived
    subst hi
    have hshrink : ∀ trip unit exp, Unexpired (command.run reaches s).2 trip unit exp → Unexpired s trip unit exp := by
      intro trip unit exp hu
      rcases hu.run with hu | ⟨now, ttl, holdId, hi, lo, indexTtl, rfl, -⟩
      · exact hu
      · rw [ha.1] at hacq
        cases hacq
    rcases List.mem_append.mp hm with hm | hm
    · exact (hok.seen q j command' reply' hm hq' hacq).shrink hshrink
    · cases List.mem_singleton.mp hm
      exact (hok.index.tells reaches).shrink hshrink

lemma turns_protocol : Site.Protocol store InTurn TurnsOk Reported where
  env s h ms hok := by
    refine ⟨hok.index.pass ms, hok.serial, fun q j command reply hm hf ha => ?_⟩
    exact (hok.seen q j command reply hm hf ha).shrink (fun _ _ _ hu => hu.pass)
  answer s h pid i a hok _ _ := by
    refine ⟨hok.index.quiet (by simp), hok.serial.answer a, fun q j command reply hm hf ha => ?_⟩
    exact hok.seen q j command reply (by simpa using hm)
      ⟨by simpa using hf.arrived, fun k b hb => hf.unanswered k b (List.mem_append_left _ hb)⟩ ha
  arrive s h i hok hpids hG := by
    refine ⟨⟨hok.index.quiet (by simp), hok.serial.arrive hpids hG.1, ?_⟩,
      operation_keeps ⟨?_, ?_⟩ (clean_arrive i (fun ev he => (hpids ev he).ne))⟩
    · intro q j command reply hm hf ha
      have hm' : .commit q j command reply ∈ h := by simpa using hm
      refine hok.seen q j command reply hm' ⟨?_, fun k a ha => hf.unanswered k a (List.mem_append_left _ ha)⟩ ha
      rcases List.mem_append.mp hf.arrived with harr | harr
      · exact harr
      · cases List.mem_singleton.mp harr
        exact absurd (hpids _ hm') (lt_irrefl _)
    · exact fun pid i command reaches s h hf ha hok hG => hok.step reaches hf ha hG
    · intro pid i id s h hf hok
      refine ⟨hok.index.quiet (by simp), hok.serial.step hf rfl (by simp) (by simp), fun q j command reply hm hq ha => ?_⟩
      exact hok.seen q j command reply (by simpa using hm)
        ⟨by simpa using hq.arrived, fun k b hb => hq.unanswered k b (List.mem_append_left _ hb)⟩ ha

lemma turnsOk_empty (start : Nat) : TurnsOk (Redis.empty start) [] where
  index := indexOk_empty start
  serial := ⟨fun _ _ _ h => by (cases h), fun _ _ _ _ h => by (cases h.arrived), fun _ _ h => by (cases h)⟩
  seen _ _ _ _ hm := by cases hm

/-- A listing names every unit with an unexpired hold. -/
lemma TurnsOk.listed (hok : TurnsOk s h) (hf : InFlight pid i h) (hi : acquires i = false)
    {live : List (Uuid × BitVec 64)} (hl : Listed pid i trip live h) (hu : Unexpired s trip unit exp) :
    unit ∈ live.map Prod.fst := by
  obtain ⟨members, now, hmembers, hclock, hsorted⟩ := hl
  have hmem := hok.seen pid i _ _ hmembers hf hi unit exp hu
  rcases hsorted unit hmem with hlive | ⟨fields, hfields, h0⟩
  · exact hlive
  · have hnow := hok.index.holds.clocks pid i now hclock
    exact absurd h0 (hok.seen pid i _ _ hfields hf hi exp hu now (by have := hu.1; omega))

/-- Along any run of operations one after another in which no acquisition gives the index less
time than the trip's holds have left: every unit with an unexpired hold is in the index, it is
on the list that an operation is about to answer with, and it is counted. -/
theorem index_in_turn {start : Nat}
    {c : Conf Holds.Request Redis Command Holds.Reply Unit Uuid (Except Unit Holds.Response)}
    (hc : store.ReachableWhen InTurn (Site.init (Redis.empty start)) c) (trip : Uuid) :
    (∀ unit exp, Unexpired c.store trip unit exp → unit ∈ c.store.members trip) ∧
    (∀ pid live, c.procs pid = some (.liveHeldUnits trip, .ret (.ok (.live live))) →
      ∀ unit exp, Unexpired c.store trip unit exp → unit ∈ live.map Prod.fst) ∧
    ∀ pid accurateAbove n, c.procs pid = some (.heldUnitCount trip accurateAbove, .ret (.ok (.count n))) →
      ∀ units : List Uuid, units.Nodup → (∀ unit ∈ units, ∃ exp, Unexpired c.store trip unit exp) →
        units.length ≤ n := by
  obtain ⟨hok, -, hprocs⟩ := turns_protocol.invariant (turnsOk_empty start) hc
  have hreported : ∀ {pid : Nat} {i : Holds.Request} {a : Except Unit Holds.Response},
      c.procs pid = some (i, .ret a) → Reported pid i c.trace a := by
    intro pid i a hp
    exact (hprocs pid i _ hp).2 _ (.refl pid _)
  refine ⟨fun unit exp hu => hok.index.mem_members hu, ?_, ?_⟩
  · intro pid live hp unit exp hu
    have hr := hreported hp
    exact hok.listed hr.inFlight rfl (hr.listed trip live rfl rfl) hu
  · intro pid accurateAbove n hp units hnd hunits
    have hr := hreported hp
    rcases hr.counted trip accurateAbove n rfl rfl with hm | ⟨live, hl, rfl⟩
    · exact hok.seen pid _ _ _ hm hr.inFlight rfl units hnd hunits
    · refine le_trans (hnd.length_le_of_subset (fun unit hm => ?_)) (List.length_map Prod.fst).le
      obtain ⟨exp, hu⟩ := hunits unit hm
      exact hok.listed hr.inFlight rfl hl hu

/-- What an operation is about to answer. -/
def nextAnswer (p : Option (Holds.Request × Prog Redis Command Holds.Reply Unit Uuid (Except Unit Holds.Response))) :
    Option (Holds.Request × Holds.Response) :=
  match p with
  | some (i, .ret (.ok a)) => some (i, a)
  | _ => none

lemma nextAnswer_eq_some
    {p : Option (Holds.Request × Prog Redis Command Holds.Reply Unit Uuid (Except Unit Holds.Response))}
    {i : Holds.Request} {a : Holds.Response} (h : nextAnswer p = some (i, a)) : p = some (i, .ret (.ok a)) := by
  unfold nextAnswer at h
  split at h
  · cases h
    rfl
  · cases h

instance (h : List Holds.Event) (ev : Holds.Event) : Decidable (OneByOne h ev) := by
  unfold OneByOne
  split <;> infer_instance

/-- Whether a hold that was placed on the trip has run out by that time. -/
def endsBy (trip : Uuid) (time : Nat) : Holds.Event → Bool
  | .commit _ _ (.acquire t _ now ttl _ _ _ _) _ => t != trip || decide (now + ttl ≤ time ∧ now + ttl < 10 ^ 14)
  | _ => true

/-- Operations one after another, where the index TTL of an acquisition reaches as far as every hold
ever placed on the trip. -/
def Reaching (s : Redis) (h : List Holds.Event) (ev : Holds.Event) : Prop :=
  OneByOne h ev ∧ match ev with
    | .commit _ _ (.acquire trip _ now ttl _ _ _ indexTtl) _ =>
      now + ttl < 10 ^ 14 ∧ h.all (endsBy trip (s.now + indexTtl)) = true
    | _ => True

instance (s : Redis) (h : List Holds.Event) (ev : Holds.Event) : Decidable (Reaching s h ev) := by
  unfold Reaching
  cases ev with
  | commit q j command reply => cases command <;> infer_instance
  | _ => infer_instance

lemma inTurn_of_reaching {ev : Holds.Event} (hok : HoldsOk s h) (hG : Reaching s h ev) : InTurn s h ev := by
  refine ⟨hG.1, ?_⟩
  cases ev with
  | commit q j command reply =>
    cases command with
    | acquire trip unit now ttl holdId hi lo indexTtl =>
      obtain ⟨hexp, hall⟩ := hG.2
      refine fun _ => ⟨hexp, fun unit' exp hu => ?_⟩
      obtain ⟨-, f, hf, span, hw⟩ := hu
      obtain ⟨k, hk, -, hfk⟩ := mem_hash.mp hf
      obtain ⟨exp', span', ⟨q', i', now', ttl', indexTtl', he, hw', hm⟩, -⟩ := hok.acquired trip unit' k hk f hfk
      have hends := List.all_eq_true.mp hall _ hm
      simp only [endsBy, bne_self_eq_false, Bool.false_or, decide_eq_true_eq] at hends
      rw [hw'.exp_eq hw (by omega)]
      omega
    | _ => trivial
  | _ => trivial

set_option synthInstance.maxSize 400 in
/-- A seat is held for half an hour, another one for ten minutes, and the trip's held seats are
listed a minute later. -/
theorem index_in_turn_harbour : ∃ (c : Conf Holds.Request Redis Command Holds.Reply Unit Uuid
      (Except Unit Holds.Response)) (live : List (Uuid × BitVec 64)),
    store.ReachableWhen InTurn (Site.init (Redis.empty 0)) c ∧
    c.procs 12 = some (.liveHeldUnits 1, .ret (.ok (.live live))) ∧
    (∀ unit ∈ [7, 8], unit ∈ c.store.members 1) ∧ ∀ unit ∈ [7, 8], unit ∈ live.map Prod.fst := by
  have hrun : (store.execWhen Reaching (Site.init (Redis.empty 0))
      [.arrive (.acquire 1 7 ⟨0, 2, by decide, by decide⟩ (holdTtl (some 1800))), .reply 0 100, .commit 0 true,
        .commit 0 true, .commit 0 true, .answer 0,
        .arrive (.acquire 1 8 ⟨0, 2, by decide, by decide⟩ (holdTtl (some 600))), .reply 6 200, .commit 6 true,
        .commit 6 true, .commit 6 true, .answer 6, .env 60000, .arrive (.liveHeldUnits 1), .commit 12 true,
        .commit 12 true, .commit 12 true, .commit 12 true]).map
      (fun c => (snapshot 1 7 c.store, snapshot 1 8 c.store, nextAnswer (c.procs 12))) =
      some ((60000, [(100, holdText 1800000 0 3)], [7, 8]), (60000, [(200, holdText 600000 0 3)], [7, 8]),
        some (.liveHeldUnits 1, .live [(7, 3#64), (8, 3#64)])) := by
    decide
  obtain ⟨c, hc, hshot⟩ := Option.map_eq_some_iff.mp hrun
  obtain ⟨hlong, hrest⟩ := Prod.mk.inj hshot
  obtain ⟨hshort, hanswer⟩ := Prod.mk.inj hrest
  obtain ⟨hu, -⟩ := unexpired_of_snapshot ⟨0, 2, by decide, by decide⟩ (by decide) (by decide) (by decide) hlong
  obtain ⟨hu', -⟩ := unexpired_of_snapshot ⟨0, 2, by decide, by decide⟩ (by decide) (by decide) (by decide) hshort
  have hheld : ∀ unit ∈ [7, 8], ∃ exp, Unexpired c.store 1 unit exp := by
    intro unit hunit
    simp only [List.mem_cons, List.not_mem_nil, or_false] at hunit
    rcases hunit with rfl | rfl
    · exact ⟨_, hu⟩
    · exact ⟨_, hu'⟩
  have hp := nextAnswer_eq_some hanswer
  have hreach := (holdsOk_protocol Reaching).reachableWhen (holdsOk_empty 0) (fun _ _ _ => inTurn_of_reaching)
    (Site.reachable_of_execWhen hc)
  obtain ⟨hmem, hlisted, -⟩ := index_in_turn hreach 1
  refine ⟨c, _, hreach, hp, fun unit hunit => ?_, fun unit hunit => ?_⟩
  · obtain ⟨exp, hexp⟩ := hheld unit hunit
    exact hmem unit exp hexp
  · obtain ⟨exp, hexp⟩ := hheld unit hunit
    exact hlisted 12 _ hp unit exp hexp

/-- The TTLs that `create_hold` gives. -/
def InRange : Holds.Event → Prop
  | .commit _ _ (.acquire _ _ _ ttl _ _ _ _) _ => 1000 * minHoldTtlSecs ≤ ttl ∧ ttl ≤ 1000 * maxHoldTtlSecs
  | _ => True

instance (ev : Holds.Event) : Decidable (InRange ev) := by
  unfold InRange
  split <;> infer_instance

/-- A seat is held for half an hour, another one for half a minute, and two minutes later the
index is gone. -/
theorem short_hold_expires_index : ¬ ∀ (c : Conf Holds.Request Redis Command Holds.Reply Unit Uuid
      (Except Unit Holds.Response)) (trip unit : Uuid) (exp : Nat),
    store.ReachableWhen (fun _ h ev => OneByOne h ev ∧ InRange ev) (Site.init (Redis.empty 0)) c →
      Unexpired c.store trip unit exp → unit ∈ c.store.members trip := by
  intro hall
  have hrun : (store.execWhen (fun _ h ev => OneByOne h ev ∧ InRange ev) (Site.init (Redis.empty 0))
      [.arrive (.acquire 1 7 ⟨0, 2, by decide, by decide⟩ (holdTtl (some 1800))), .reply 0 100, .commit 0 true,
        .commit 0 true, .commit 0 true, .answer 0, .arrive (.acquire 1 8 ⟨0, 2, by decide, by decide⟩ (holdTtl (some 30))),
        .reply 6 200, .commit 6 true, .commit 6 true, .commit 6 true, .answer 6, .env 120001]).map
      (fun c => snapshot 1 7 c.store) = some (120001, [(100, holdText 1800000 0 3)], []) := by decide
  obtain ⟨c, hc, hshot⟩ := Option.map_eq_some_iff.mp hrun
  obtain ⟨hu, hmembers⟩ :=
    unexpired_of_snapshot ⟨0, 2, by decide, by decide⟩ (by decide) (by decide) (by decide) hshot
  have hmem := hall c 1 7 1800000 (Site.reachable_of_execWhen hc) hu
  rw [hmembers] at hmem
  cases hmem

end InTurn

end Lulan.Proofs
