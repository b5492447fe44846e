import Lulan.Proofs.HoldStates

/-!
# Holding an itinerary

What one hold operation does by itself, with time passing before each of its commands and any
of them failing: the holds it leaves behind, next to those that were there before.
-/

namespace Lulan.Proofs

open Lulan Lulan.Holds Lib

/-- What an operation did. -/
abbrev Trace : Type := List (Did Command Fate Holds.Reply Unit Uuid)

/-- A command that does not get through. -/
def failed (command : Command) (fate : Fate) : Bool := !fate.reaches && command != .clock

def failureOf : Did Command Fate Holds.Reply Unit Uuid → Option Command
  | .ran command fate _ => if failed command fate then some command else none
  | .called _ _ => none

/-- The commands that failed. -/
def failures (tr : Trace) : List Command := tr.filterMap failureOf

def drawnBy : Did Command Fate Holds.Reply Unit Uuid → Option Uuid
  | .ran _ _ _ => none
  | .called _ id => some id

/-- The identifiers drawn. -/
def drawnHolds (tr : Trace) : List Uuid := tr.filterMap drawnBy

def admittedBy : Did Command Fate Holds.Reply Unit Uuid → Option Uuid
  | .ran (.acquire _ _ _ _ holdId _ _ _) _ (.int 1) => some holdId
  | _ => none

/-- The holds the script admitted. -/
def admittedIds (tr : Trace) : List Uuid := tr.filterMap admittedBy

/-- A way an operation can run. -/
abbrev Performs {α : Type} (x : Operation α) (s : Redis) (tr : Trace) (r : Except Unit α) (s' : Redis) : Prop :=
  Prog.Traced Command.meets x s tr r s'

/-- The store some time later. -/
def later (s : Redis) (ms : Nat) : Redis := { s with now := s.now + ms }

section Basics

variable {α β : Type} {s s' : Redis} {tr tr₁ tr₂ : Trace} {command : Command} {r : Except Unit α}

@[simp] lemma failures_append : failures (tr₁ ++ tr₂) = failures tr₁ ++ failures tr₂ := List.filterMap_append

@[simp] lemma drawnIds_append : drawnHolds (tr₁ ++ tr₂) = drawnHolds tr₁ ++ drawnHolds tr₂ := List.filterMap_append

@[simp] lemma admittedIds_append : admittedIds (tr₁ ++ tr₂) = admittedIds tr₁ ++ admittedIds tr₂ :=
  List.filterMap_append

@[simp] lemma drawnIds_called (q : Unit) (id : Uuid) : drawnHolds (.called q id :: tr) = id :: drawnHolds tr := rfl

@[simp] lemma failures_called (q : Unit) (id : Uuid) : failures (.called q id :: tr) = failures tr := rfl

lemma failures_failed {fate : Fate} {reply : Holds.Reply} (hf : failed command fate = true) :
    failures (.ran command fate reply :: tr) = command :: failures tr :=
  List.filterMap_cons_some (if_pos hf)

lemma failures_run {fate : Fate} {reply : Holds.Reply} (hf : failed command fate = false) :
    failures (.ran command fate reply :: tr) = failures tr :=
  List.filterMap_cons_none (if_neg (by rw [hf]; decide))

lemma failures_clock (fate : Fate) (reply : Holds.Reply) : failures (.ran .clock fate reply :: tr) = failures tr :=
  failures_run (by simp [failed])

/-- A command fails on its way, or it is run and its reply is read. -/
lemma performs_send {f : Holds.Reply → Option α} (h : Performs (Operation.send command f) s tr r s') :
    ∃ fate reply, tr = [.ran command fate reply] ∧ Operation.returned f reply = Prog.ret r ∧
      (failed command fate = true ∧ reply = .error ∧ s' = later s fate.elapsed ∨
        failed command fate = false ∧ reply = (command.exec (later s fate.elapsed)).1 ∧
          s' = (command.exec (later s fate.elapsed)).2) := by
  obtain ⟨fate, rest, rfl, hk⟩ := Prog.traced_tx h
  have hret : ∃ r', Operation.returned f (command.meets fate s).1 = Prog.ret r' := by
    unfold Operation.returned
    split <;> exact ⟨_, rfl⟩
  obtain ⟨r', hr'⟩ := hret
  rw [hr'] at hk
  obtain ⟨rfl, rfl, rfl⟩ := Prog.traced_ret hk
  refine ⟨fate, _, rfl, hr', ?_⟩
  unfold Command.meets Command.run failed
  cases fate.reaches with
  | true => exact .inr ⟨rfl, rfl, rfl⟩
  | false =>
    by_cases hc : command = .clock
    · subst hc
      exact .inr ⟨rfl, rfl, rfl⟩
    · have hne : (command == .clock) = false := beq_eq_false_iff_ne.mpr hc
      have hne' : (command != .clock) = true := bne_iff_ne.mpr hc
      simp only [hne, hne', Bool.not_false, Bool.and_self, Bool.or_self, Bool.false_eq_true, if_false]
      exact .inl ⟨trivial, trivial, rfl⟩

lemma returned_ok {f : Holds.Reply → Option α} {reply : Holds.Reply} {a : α} (hf : f reply = some a)
    (h : Operation.returned f reply = Prog.ret r) : r = .ok a := by
  unfold Operation.returned at h
  rw [hf] at h
  cases h
  rfl

lemma returned_error {f : Holds.Reply → Option α} {reply : Holds.Reply} (hf : f reply = none)
    (h : Operation.returned f reply = Prog.ret r) : r = .error () := by
  unfold Operation.returned at h
  rw [hf] at h
  cases h
  rfl

lemma performs_newV4 {f : Uuid → Operation α} (h : Performs (Operation.newV4 >>= f) s tr r s') :
    ∃ id rest, tr = .called () id :: rest ∧ Performs (f id) s rest r s' := by
  obtain ⟨id, rest, htr, hk⟩ := Prog.traced_call h
  exact ⟨id, rest, htr, hk⟩

lemma performs_now {f : Nat → Operation α} (h : Performs (HoldStore.now >>= f) s tr r s') :
    ∃ fate rest, tr = .ran .clock fate (.int (later s fate.elapsed).now) :: rest ∧
      Performs (f (later s fate.elapsed).now) (later s fate.elapsed) rest r s' := by
  obtain ⟨fate, rest, htr, hk⟩ := Prog.traced_tx h
  have hmeets : Command.clock.meets fate s = (.int (later s fate.elapsed).now, later s fate.elapsed) := by
    unfold Command.meets Command.run
    rw [if_pos (by simp)]
    rfl
  rw [hmeets] at htr hk
  exact ⟨fate, rest, htr, hk⟩

/-- An operation that begins with a command: the command fails on its way, its reply is not one
the operation can read, or the rest of the operation goes on from it. -/
lemma performs_send_then {g : Holds.Reply → Option β} {f : β → Operation α} (hg : g .error = none)
    (h : Performs (Operation.send command g >>= f) s tr r s') : ∃ fate,
      failed command fate = true ∧ tr = [.ran command fate .error] ∧ r = .error () ∧ s' = later s fate.elapsed ∨
      failed command fate = false ∧
        (g (command.exec (later s fate.elapsed)).1 = none ∧ tr = [.ran command fate (command.exec (later s fate.elapsed)).1] ∧
            r = .error () ∧ s' = (command.exec (later s fate.elapsed)).2 ∨
          ∃ b rest, g (command.exec (later s fate.elapsed)).1 = some b ∧
            tr = .ran command fate (command.exec (later s fate.elapsed)).1 :: rest ∧
            Performs (f b) (command.exec (later s fate.elapsed)).2 rest r s') := by
  obtain ⟨e, hx, he⟩ | ⟨tr₁, tr₂, b, t, htr, hx, hk⟩ := Prog.traced_then h
  · cases e
    obtain ⟨fate, reply, htr, hr, ⟨hf, hreply, hs⟩ | ⟨hf, hreply, hs⟩⟩ := performs_send hx
    · rw [hreply] at htr
      exact ⟨fate, .inl ⟨hf, htr, he, hs⟩⟩
    · cases hgr : g reply with
      | some b => cases returned_ok hgr hr
      | none =>
        rw [hreply] at hgr htr
        exact ⟨fate, .inr ⟨hf, .inl ⟨hgr, htr, he, hs⟩⟩⟩
  · obtain ⟨fate, reply, htr₁, hr, ⟨-, hreply, -⟩ | ⟨hf, hreply, hs⟩⟩ := performs_send hx
    · rw [hreply] at hr
      cases returned_error hg hr
    · cases hgr : g reply with
      | none => cases returned_error hgr hr
      | some b' =>
        cases returned_ok hgr hr
        rw [hreply] at hgr htr₁
        rw [htr₁] at htr
        rw [hs] at hk
        exact ⟨fate, .inr ⟨hf, .inr ⟨b, tr₂, hgr, htr, hk⟩⟩⟩

/-- Time only passes. -/
lemma performs_clock {x : Operation α} (h : Performs x s tr r s') : s.now ≤ s'.now := by
  induction h with
  | ret => exact le_rfl
  | peek _ ih => exact ih
  | read _ ih => exact ih
  | missed _ ih => exact ih
  | @tx command _ s _ _ _ fate _ ih =>
    refine le_trans ?_ ih
    unfold Command.meets
    rw [run_now]
    exact Nat.le_add_right _ _
  | call _ _ ih => exact ih

lemma performs_pure {a : α} (h : Performs (pure a : Operation α) s tr r s') : tr = [] ∧ r = .ok a ∧ s' = s := Prog.traced_ret h

end Basics

/-! ### The holds an operation has placed -/

/-- A hold on a seat. -/
structure PlacedHold where
  trip : Uuid
  unit : Uuid
  field : Uuid × String
deriving DecidableEq

/-- A store some time after `s`: its live holds are those of `s` and those placed since. -/
structure Holding (s : Redis) (placed : List PlacedHold) (s' : Redis) : Prop where
  now : s.now ≤ s'.now
  sane : Sane s'
  live : ∀ time, s'.now ≤ time → ∀ trip unit f,
    LiveAt s' time trip unit f ↔ LiveAt s time trip unit f ∨ ⟨trip, unit, f⟩ ∈ placed ∧ alive time f.2 = true

/-- Whether a command leaves the hashes alone. -/
def quiet : Command → Bool
  | .acquire .. | .hdel .. => false
  | _ => true

lemma exec_quiet {s : Redis} {command : Command} (hq : quiet command = true) :
    (command.exec s).2.units = s.units ∧ Stamped s command := by
  refine ⟨?_, fun trip unit now ttl holdId hi lo indexTtl he => ?_⟩
  · cases command with
    | acquire => cases hq
    | hdel => cases hq
    | _ =>
      simp only [Command.exec]
      try split
      all_goals rfl
  · subst he
    cases hq

section Holding

variable {s s₁ s' : Redis} {placed placed' : List PlacedHold} {command : Command}

lemma holding_self (hs : Sane s) : Holding s [] s where
  now := le_rfl
  sane := hs
  live time _ trip unit f := by simp

lemma Holding.later (hh : Holding s placed s₁) (ms : Nat) : Holding s placed (later s₁ ms) where
  now := le_trans hh.now (Nat.le_add_right _ _)
  sane := hh.sane.pass ms
  live time hle := hh.live time (le_trans (Nat.le_add_right _ _) hle)

lemma Holding.exec (hh : Holding s placed s₁) (command : Command) (hq : quiet command = true) :
    Holding s placed (command.exec s₁).2 where
  now := by rw [exec_now]; exact hh.now
  sane := hh.sane.exec (exec_quiet hq).2
  live time hle trip unit f := by
    rw [exec_now] at hle
    rw [liveAt_of_units (exec_quiet hq).1]
    exact hh.live time hle trip unit f

/-- Only the holds that have not run out matter. -/
lemma Holding.congr (hh : Holding s placed s')
    (heq : ∀ time, s'.now ≤ time → ∀ p : PlacedHold, alive time p.field.2 = true → (p ∈ placed' ↔ p ∈ placed)) :
    Holding s placed' s' where
  now := hh.now
  sane := hh.sane
  live time hle trip unit f := by
    rw [hh.live time hle]
    apply or_congr_right
    constructor
    · rintro ⟨hp, ha⟩
      exact ⟨(heq time hle ⟨trip, unit, f⟩ ha).mpr hp, ha⟩
    · rintro ⟨hp, ha⟩
      exact ⟨(heq time hle ⟨trip, unit, f⟩ ha).mp hp, ha⟩

/-- An identifier no stored hold has. -/
def UnusedHold (s : Redis) (id : Uuid) : Prop := ∀ trip unit, ∀ f ∈ s.stored trip unit, f.1 ≠ id

lemma Holding.admitted (hh : Holding s placed s₁) {trip unit : Uuid} {now ttl : Nat} {holdId : Uuid} {span : SegmentSpan}
    (indexTtl : Nat) (hnow : now ≤ s₁.now) (hid : UnusedHold s holdId) (hnew : ∀ p ∈ placed, p.field.1 ≠ holdId)
    (hadm : admits (scan now ttl (s₁.hash trip unit)) (maskHi span) (maskLo span) = true) :
    (Command.acquire trip unit now ttl holdId (maskHi span) (maskLo span) indexTtl).exec s₁ =
        (.int 1, admittedStore s₁ trip unit now ttl holdId span indexTtl) ∧
      Holding s (placed ++ [⟨trip, unit, (holdId, holdText (now + ttl) (maskHi span) (maskLo span))⟩])
        (admittedStore s₁ trip unit now ttl holdId span indexTtl) := by
  have hexec : (Command.acquire trip unit now ttl holdId (maskHi span) (maskLo span) indexTtl).exec s₁ =
      (.int 1, admittedStore s₁ trip unit now ttl holdId span indexTtl) := by
    simp only [Command.exec, acquireScript, if_pos hadm]
    rfl
  have hstamped : Stamped s₁ (.acquire trip unit now ttl holdId (maskHi span) (maskLo span) indexTtl) := by
    intro _ _ _ _ _ _ _ _ he
    cases he
    exact ⟨hnow, span, rfl, rfl⟩
  have hsane := hh.sane.exec hstamped
  have hclock := exec_now (.acquire trip unit now ttl holdId (maskHi span) (maskLo span) indexTtl) s₁
  rw [hexec] at hsane hclock
  refine ⟨hexec, by rw [hclock]; exact hh.now, hsane, fun time hle t u f => ?_⟩
  rw [hclock] at hle
  rw [hh.sane.liveAt_admitted hnow hle, hh.live time hle, List.mem_append, List.mem_singleton, PlacedHold.mk.injEq]
  constructor
  · rintro (⟨hl | ⟨hp, ha⟩, -⟩ | ⟨hf, ha⟩)
    · exact .inl hl
    · exact .inr ⟨.inl hp, ha⟩
    · exact .inr ⟨.inr hf, ha⟩
  · rintro (hl | ⟨hp | hf, ha⟩)
    · exact .inl ⟨.inl hl, fun hc => hid t u f hl.1 hc.2.2⟩
    · exact .inl ⟨.inr ⟨hp, ha⟩, fun hc => hnew _ hp hc.2.2⟩
    · exact .inr ⟨hf, ha⟩

lemma Holding.refused (hh : Holding s placed s₁) {trip unit : Uuid} {now ttl : Nat} (holdId : Uuid) {span : SegmentSpan}
    (indexTtl : Nat) (hnow : now ≤ s₁.now)
    (hadm : admits (scan now ttl (s₁.hash trip unit)) (maskHi span) (maskLo span) = false) :
    ((Command.acquire trip unit now ttl holdId (maskHi span) (maskLo span) indexTtl).exec s₁).1 = .int 0 ∧
      ((Command.acquire trip unit now ttl holdId (maskHi span) (maskLo span) indexTtl).exec s₁).2.registry =
        s₁.registry ∧
      Holding s placed ((Command.acquire trip unit now ttl holdId (maskHi span) (maskLo span) indexTtl).exec s₁).2 := by
  have hexec : (Command.acquire trip unit now ttl holdId (maskHi span) (maskLo span) indexTtl).exec s₁ =
      (.int 0, s₁.setUnit trip unit (withFields (s₁.units trip unit) (scan now ttl (s₁.hash trip unit)).kept)) := by
    simp only [Command.exec, acquireScript, hadm, Bool.false_eq_true, if_false]
  have hstamped : Stamped s₁ (.acquire trip unit now ttl holdId (maskHi span) (maskLo span) indexTtl) := by
    intro _ _ _ _ _ _ _ _ he
    cases he
    exact ⟨hnow, span, rfl, rfl⟩
  have hsane := hh.sane.exec hstamped
  rw [hexec] at hsane ⊢
  refine ⟨rfl, rfl, hh.now, hsane, fun time hle t u f => ?_⟩
  rw [hh.sane.liveAt_refused hnow hle]
  exact hh.live time hle t u f

/-- Taking a hold off that was placed. -/
lemma Holding.hdel (hh : Holding s placed s₁) {p : PlacedHold} (hid : UnusedHold s p.field.1)
    (heq : ∀ q, q ∈ placed' ↔ q ∈ placed ∧ q.field.1 ≠ p.field.1)
    (hown : ∀ q ∈ placed, q.field.1 = p.field.1 → q = p) :
    Holding s placed' ((Command.hdel p.trip p.unit p.field.1).exec s₁).2 where
  now := by rw [exec_now]; exact hh.now
  sane := by
    refine hh.sane.exec (fun _ _ _ _ _ _ _ _ he => ?_)
    cases he
  live time hle t u f := by
    rw [exec_now] at hle
    rw [hh.sane.liveAt_hdel hle, hh.live time hle, heq]
    constructor
    · rintro ⟨hl | ⟨hp, ha⟩, hne⟩
      · exact .inl hl
      · refine .inr ⟨⟨hp, fun hc => hne ?_⟩, ha⟩
        have he := hown _ hp hc
        subst he
        exact ⟨rfl, rfl, rfl⟩
    · rintro (hl | ⟨⟨hp, hne⟩, ha⟩)
      · exact ⟨.inl hl, fun hc => hid t u f hl.1 hc.2.2⟩
      · exact ⟨.inr ⟨hp, ha⟩, fun hc => hne hc.2.2⟩

end Holding

/-! ### Acquiring a seat -/

/-- A hold placed for a seat: stamped since `s`, where no live hold of `s` overlapped it. -/
structure PlacedFor (s s' : Redis) (ttl : Nat) (seat : Uuid × Uuid × SegmentSpan) (p : PlacedHold) : Prop where
  trip : p.trip = seat.1
  unit : p.unit = seat.2.1
  text : ∃ now, s.now ≤ now ∧ now ≤ s'.now ∧ Written p.field.2 (now + ttl) seat.2.2
  free : ∀ time, s'.now ≤ time → ∀ f, LiveAt s time p.trip p.unit f →
    HoldStore.liveMask time f.2 &&& seat.2.2.mask = 0#64
  unused : UnusedHold s p.field.1

/-- The registry names the seat of a hold for as long as the hold lives. -/
def InRegistry (s : Redis) (p : PlacedHold) : Prop :=
  ∃ k, s.registry p.field.1 = some k ∧ k.value = (p.trip, p.unit) ∧
    ∀ time, alive time p.field.2 = true → time ≤ k.expiresAt

/-- Whether the command follows the removal of a hold. -/
def followsRemoval : Command → Bool
  | .hlen .. | .srem .. | .delRegistry _ => true
  | _ => false

/-- Some command other than those that follow a removal failed. -/
def Breaks (tr : Trace) : Prop := ∃ command ∈ failures tr, followsRemoval command = false

section Acquire

variable {s s₁ s' : Redis} {placed : List PlacedHold} {tr : Trace} {trip unit : Uuid} {span : SegmentSpan} {ttl : Nat}
  {seat : Uuid × Uuid × SegmentSpan} {p : PlacedHold}

lemma PlacedFor.mono {s'' : Redis} (hp : PlacedFor s s' ttl seat p) (hle : s'.now ≤ s''.now) :
    PlacedFor s s'' ttl seat p where
  trip := hp.trip
  unit := hp.unit
  text := by
    obtain ⟨now, h₁, h₂, hw⟩ := hp.text
    exact ⟨now, h₁, by omega, hw⟩
  free time ht := hp.free time (by omega)
  unused := hp.unused

/-- A script that admits a span has met no live hold on it. -/
lemma Holding.free (hh : Holding s placed s₁) {now : Nat} (hnow : now ≤ s₁.now)
    (hadm : admits (scan now ttl (s₁.hash trip unit)) (maskHi span) (maskLo span) = true) {time : Nat} (hle : s₁.now ≤ time)
    {f : Uuid × String} (hl : LiveAt s time trip unit f) : HoldStore.liveMask time f.2 &&& span.mask = 0#64 := by
  have hl₁ : LiveAt s₁ time trip unit f := (hh.live time hle trip unit f).mpr (.inl hl)
  have hmem := hh.sane.mem_hash hl₁ hle
  have hmask := liveUnion_and.mp ((hh.sane.scanned trip unit now ttl).admits_iff.mp hadm) f hmem
  obtain ⟨k, hk, hf⟩ := mem_stored.mp hl₁.1
  obtain ⟨exp, span', hw, -⟩ := hh.sane.written trip unit k hk f hf
  have halive := hw.alive.mp hl.2
  have hnow' : exp < 10 ^ 14 ∧ now < exp := ⟨halive.1, by omega⟩
  rw [hw.liveMask, if_pos hnow'] at hmask
  rw [hw.liveMask, if_pos halive]
  exact hmask

/-- How the acquisition of one seat ends: with its hold placed, whether it is registered or not,
refused, or lost on the way to the script. -/
lemma performs_acquire {r : Except Unit (Option Hold)} (hh : Holding s placed s₁)
    (h : Performs (HoldStore.acquire trip unit span ttl) s₁ tr r s')
    (hfresh : ∀ id ∈ drawnHolds tr, UnusedHold s id ∧ ∀ p ∈ placed, p.field.1 ≠ id) :
    (∃ p, PlacedFor s s' ttl (trip, unit, span) p ∧ p.field.1 ∈ drawnHolds tr ∧ Holding s (placed ++ [p]) s' ∧
      admittedIds tr = [p.field.1] ∧ (∀ id, id ≠ p.field.1 → s'.registry id = s₁.registry id) ∧
      ((∃ expiresAt, r = .ok (some ⟨p.field.1, expiresAt⟩)) ∧ failures tr = [] ∧ InRegistry s' p ∨
        r = .error () ∧ (failures tr = [] ∧ ttl = 0 ∨ Breaks tr))) ∨
    Holding s placed s' ∧ admittedIds tr = [] ∧ s'.registry = s₁.registry ∧
      (r = .ok none ∧ failures tr = [] ∨ r = .error () ∧ Breaks tr) := by
  unfold HoldStore.acquire at h
  obtain ⟨holdId, tr₁, rfl, h₁⟩ := performs_newV4 h
  obtain ⟨hunused, hnew⟩ := hfresh holdId (by simp [drawnHolds, drawnBy])
  obtain ⟨fate₁, tr₂, rfl, h₂⟩ := performs_now h₁
  have hh₁ := hh.later fate₁.elapsed
  have hclock₁ : s₁.now ≤ (Proofs.later s₁ fate₁.elapsed).now := Nat.le_add_right _ _
  have hreg₁ : (Proofs.later s₁ fate₁.elapsed).registry = s₁.registry := rfl
  generalize Proofs.later s₁ fate₁.elapsed = s₂ at *
  obtain ⟨fate₂, ⟨hf, rfl, rfl, rfl⟩ | ⟨hf, h₃⟩⟩ := performs_send_then rfl h₂
  · refine .inr ⟨hh₁.later fate₂.elapsed, rfl, hreg₁, .inr ⟨rfl, ?_⟩⟩
    rw [Breaks, failures_called, failures_clock, failures_failed hf]
    exact ⟨_, List.mem_cons_self, rfl⟩
  have hh₂ := hh₁.later fate₂.elapsed
  have hnow : s₂.now ≤ (Proofs.later s₂ fate₂.elapsed).now := Nat.le_add_right _ _
  have hreg₂ : (Proofs.later s₂ fate₂.elapsed).registry = s₂.registry := rfl
  generalize Proofs.later s₂ fate₂.elapsed = s₃ at *
  cases hadm : admits (scan s₂.now ttl (s₃.hash trip unit)) (maskHi span) (maskLo span) with
  | false =>
    obtain ⟨hreply, hreg, hh₃⟩ := hh₂.refused holdId (ttl * indexTtlMultiplier) hnow hadm
    rw [hreply] at h₃
    obtain ⟨hnone, -⟩ | ⟨n, tr₃, hn, rfl, h₄⟩ := h₃
    · cases hnone
    · cases hn
      obtain ⟨rfl, rfl, rfl⟩ := performs_pure h₄
      refine .inr ⟨hh₃, rfl, by rw [hreg, hreg₂, hreg₁], .inl ⟨rfl, ?_⟩⟩
      rw [failures_called, failures_clock, failures_run hf]
      rfl
  | true =>
    obtain ⟨hexec, hh₃⟩ := hh₂.admitted (ttl * indexTtlMultiplier) hnow hunused hnew hadm
    have hclock₃ : (admittedStore s₃ trip unit s₂.now ttl holdId span (ttl * indexTtlMultiplier)).now = s₃.now := rfl
    have hreg₃ : (admittedStore s₃ trip unit s₂.now ttl holdId span (ttl * indexTtlMultiplier)).registry =
      s₃.registry := rfl
    have hfor : PlacedFor s s₃ ttl (trip, unit, span)
        ⟨trip, unit, (holdId, holdText (s₂.now + ttl) (maskHi span) (maskLo span))⟩ :=
      ⟨rfl, rfl, ⟨s₂.now, le_trans hh.now hclock₁, hnow, rfl⟩, fun time hle f hl => hh₂.free hnow hadm hle hl, hunused⟩
    rw [hexec] at h₃
    simp only at h₃
    generalize admittedStore s₃ trip unit s₂.now ttl holdId span (ttl * indexTtlMultiplier) = s₄ at *
    obtain ⟨hnone, -⟩ | ⟨n, tr₃, hn, rfl, h₄⟩ := h₃
    · cases hnone
    cases hn
    rw [if_pos rfl] at h₄
    obtain ⟨p, hp⟩ : ∃ p : PlacedHold, p = ⟨trip, unit, (holdId, holdText (s₂.now + ttl) (maskHi span) (maskLo span))⟩ :=
      ⟨_, rfl⟩
    have hid : p.field.1 = holdId := by rw [hp]
    have htext : Written p.field.2 (s₂.now + ttl) span := by rw [hp]; rfl
    rw [← hp] at hfor hh₃
    refine .inl ⟨p, ?_⟩
    rw [hid]
    have hdrawn : holdId ∈ drawnHolds (.called () holdId :: .ran .clock fate₁ (.int s₂.now) ::
      .ran (.acquire trip unit s₂.now ttl holdId (maskHi span) (maskLo span) (ttl * indexTtlMultiplier)) fate₂ (.int 1) ::
        tr₃) := List.mem_cons_self
    obtain ⟨fate₃, ⟨hf₃, rfl, rfl, rfl⟩ | ⟨hf₃, h₅⟩⟩ := performs_send_then rfl h₄
    · refine ⟨hfor.mono (by rw [← hclock₃]; exact Nat.le_add_right _ _), hdrawn, hh₃.later fate₃.elapsed, rfl,
        fun id _ => by rw [← hreg₁, ← hreg₂, ← hreg₃]; rfl, .inr ⟨rfl, .inr ?_⟩⟩
      rw [Breaks, failures_called, failures_clock, failures_run hf, failures_failed hf₃]
      exact ⟨_, List.mem_cons_self, rfl⟩
    have hclock₄ : s₃.now ≤ (Proofs.later s₄ fate₃.elapsed).now := by
      rw [← hclock₃]
      exact Nat.le_add_right _ _
    have hset := (hh₃.later fate₃.elapsed).exec (.setRegistry holdId trip unit ttl) rfl
    have hreg₄ : (Proofs.later s₄ fate₃.elapsed).registry = s₄.registry := rfl
    generalize Proofs.later s₄ fate₃.elapsed = s₅ at *
    simp only [Command.exec] at h₅ hset
    by_cases hz : ttl = 0
    · rw [if_pos hz] at h₅ hset
      obtain ⟨-, rfl, rfl, rfl⟩ | ⟨_, _, hok, -⟩ := h₅
      · refine ⟨hfor.mono hclock₄, hdrawn, hset, rfl, fun id _ => by rw [← hreg₁, ← hreg₂, ← hreg₃, ← hreg₄],
          .inr ⟨rfl, .inl ⟨?_, hz⟩⟩⟩
        rw [failures_called, failures_clock, failures_run hf, failures_run hf₃]
        rfl
      · cases hok
    · rw [if_neg hz] at h₅ hset
      obtain ⟨hnone, -⟩ | ⟨_, tr₄, -, rfl, h₆⟩ := h₅
      · cases hnone
      · obtain ⟨rfl, rfl, rfl⟩ := performs_pure h₆
        refine ⟨hfor.mono hclock₄, hdrawn, hset, rfl, fun id hne => ?_, .inl ⟨⟨_, rfl⟩, ?_, ?_⟩⟩
        · rw [← hreg₁, ← hreg₂, ← hreg₃, ← hreg₄]
          exact Function.update_of_ne hne _ _
        · rw [failures_called, failures_clock, failures_run hf, failures_run hf₃]
          rfl
        · refine ⟨⟨(trip, unit), s₅.now + ttl⟩, ?_, ?_, fun time ha => ?_⟩
          · rw [hid]
            exact Function.update_self ..
          · rw [hfor.trip, hfor.unit]
          · have hlt := (htext.alive.mp ha).2
            simp only
            omega

end Acquire

/-! ### Releasing a seat -/

/-- How a release goes on once it has looked for the hold, and where it ends. -/
structure Released (id : Uuid) (s₁ : Redis) (tr : Trace) (r : Except Unit Bool) (s' : Redis) : Prop where
  admitted : admittedIds tr = []
  registry : ∀ id', id' ≠ id → s'.registry id' = s₁.registry id'
  failures : failures tr = [] ↔ ∃ found, r = .ok found

/-- A part of a release that changes no hold. -/
structure Forgets (id : Uuid) (s₁ : Redis) (tr : Trace) (r : Except Unit Bool) (s' : Redis) : Prop
    extends Released id s₁ tr r s' where
  unbroken : ¬Breaks tr
  holding : ∀ s placed, Holding s placed s₁ → Holding s placed s'

section Release

variable {s s₁ s' : Redis} {placed placed' : List PlacedHold} {tr : Trace} {p : PlacedHold} {id : Uuid} {β : Type}

lemma forgets_pure (id : Uuid) {found : Bool} {r : Except Unit Bool} (h : Performs (pure found : Operation Bool) s₁ tr r s') :
    Forgets id s₁ tr r s' := by
  obtain ⟨rfl, rfl, rfl⟩ := performs_pure h
  refine ⟨⟨rfl, fun _ _ => rfl, fun _ => ⟨_, rfl⟩, fun _ => rfl⟩, ?_, fun _ _ hh => hh⟩
  rintro ⟨command, hm, -⟩
  cases hm

lemma breaks_failed {command : Command} {fate : Fate} {reply : Holds.Reply} (hf : failed command fate = true)
    (hc : followsRemoval command = false) : Breaks [.ran command fate reply] := by
  rw [Breaks, failures_failed hf]
  exact ⟨command, List.mem_cons_self, hc⟩

lemma released_failed {command : Command} {fate : Fate} (hf : failed command fate = true)
    (ha : admittedBy (.ran command fate .error) = none) :
    Released id s₁ [.ran command fate .error] (.error ()) (later s₁ fate.elapsed) where
  admitted := List.filterMap_cons_none ha
  registry _ _ := rfl
  failures := by
    rw [failures_failed hf]
    constructor
    · intro he
      cases he
    · rintro ⟨found, he⟩
      cases he

lemma Released.cons (s₁ : Redis) {command : Command} {fate : Fate} {reply : Holds.Reply} {s₂ : Redis} {r : Except Unit Bool}
    (h : Released id s₂ tr r s') (hf : failed command fate = false)
    (ha : admittedBy (.ran command fate reply) = none)
    (hreg : ∀ id', id' ≠ id → s₂.registry id' = s₁.registry id') : Released id s₁ (.ran command fate reply :: tr) r s' where
  admitted := by
    rw [admittedIds, List.filterMap_cons_none ha]
    exact h.admitted
  registry id' hne := by rw [h.registry id' hne, hreg id' hne]
  failures := by rw [failures_run hf, h.failures]

/-- A command that follows the removal of a hold, and what comes after it. -/
lemma forgets_send {command : Command} {g : Holds.Reply → Option β} {f : β → Operation Bool} {r : Except Unit Bool}
    (hc : followsRemoval command = true) (hg : g .error = none) (hread : ∀ s, g (command.exec s).1 ≠ none)
    (hid : ∀ s id', id' ≠ id → (command.exec s).2.registry id' = s.registry id')
    (hf : ∀ b s₁ tr r s', Performs (f b) s₁ tr r s' → Forgets id s₁ tr r s')
    (h : Performs (Operation.send command g >>= f) s₁ tr r s') : Forgets id s₁ tr r s' := by
  have hquiet : quiet command = true := by
    cases command with
    | hlen | srem | delRegistry => rfl
    | _ => cases hc
  have hadmitted : ∀ fate reply, admittedBy (.ran command fate reply) = none := by
    intro fate reply
    cases command with
    | hlen | srem | delRegistry => rfl
    | _ => cases hc
  obtain ⟨fate, ⟨hfail, rfl, rfl, rfl⟩ | ⟨hrun, ⟨hnone, -⟩ | ⟨b, rest, -, rfl, h₁⟩⟩⟩ := performs_send_then hg h
  · refine ⟨released_failed hfail (hadmitted _ _), ?_, fun _ _ hh => hh.later _⟩
    rw [Breaks, failures_failed hfail]
    rintro ⟨command', hm, hc'⟩
    cases List.mem_singleton.mp hm
    rw [hc] at hc'
    cases hc'
  · exact absurd hnone (hread _)
  · have hrest := hf b _ _ _ _ h₁
    refine ⟨hrest.toReleased.cons s₁ hrun (hadmitted _ _) (fun id' hne => hid _ id' hne), ?_,
      fun s placed hh => hrest.holding s placed ((hh.later _).exec command hquiet)⟩
    rw [Breaks, failures_run hrun]
    exact hrest.unbroken

/-- What a release does once its hold is off the seat. -/
lemma forgets_tail {trip unit : Uuid} {r : Except Unit Bool}
    (h : Performs (do
      let remaining ← Operation.send (.hlen trip unit) Reply.int?
      if remaining = 0 then Operation.send (.srem trip [unit]) Reply.ok?
      Operation.send (.delRegistry id) Reply.ok?
      return true) s₁ tr r s') : Forgets id s₁ tr r s' := by
  have hdel : ∀ (s₁ : Redis) (tr : Trace) (r : Except Unit Bool) (s' : Redis),
      Performs (do Operation.send (.delRegistry id) Reply.ok?; return true) s₁ tr r s' → Forgets id s₁ tr r s' := by
    intro s₁ tr r s' h
    refine forgets_send rfl rfl (fun s => by simp [Command.exec, Reply.ok?]) (fun s id' hne => ?_)
      (fun _ _ _ _ _ h => forgets_pure id h) h
    exact Function.update_of_ne hne _ _
  refine forgets_send rfl rfl (fun s => by simp [Command.exec, Reply.int?]) (fun _ _ _ => rfl)
    (fun remaining s₁ tr r s' h => ?_) h
  by_cases hz : remaining = 0
  · simp only [if_pos hz] at h
    exact forgets_send rfl rfl (fun s => by simp [Command.exec, Reply.ok?]) (fun _ _ _ => rfl)
      (fun _ s₁ tr r s' h => hdel s₁ tr r s' h) h
  · simp only [if_neg hz] at h
    exact hdel s₁ tr r s' h

/-- What one release leaves: the hold is off its seat, unless the command that should have found
it or the one that should have removed it failed. -/
lemma performs_release {r : Except Unit Bool} (hh : Holding s placed s₁) (hreg : InRegistry s₁ p) (hunused : UnusedHold s p.field.1)
    (hown : ∀ q ∈ placed, q.field.1 = p.field.1 → q = p)
    (heq : ∀ q, q ∈ placed' ↔ q ∈ placed ∧ q.field.1 ≠ p.field.1) (h : Performs (HoldStore.release p.field.1) s₁ tr r s') :
    Released p.field.1 s₁ tr r s' ∧ (Breaks tr ∧ Holding s placed s' ∨ ¬Breaks tr ∧ Holding s placed' s') := by
  unfold HoldStore.release at h
  obtain ⟨fate₁, ⟨hf, rfl, rfl, rfl⟩ | ⟨hf, h₁⟩⟩ := performs_send_then rfl h
  · exact ⟨released_failed hf rfl, .inl ⟨breaks_failed hf rfl, hh.later fate₁.elapsed⟩⟩
  have hh₁ := hh.later fate₁.elapsed
  have hreg₁ : (Proofs.later s₁ fate₁.elapsed).registry = s₁.registry := rfl
  generalize Proofs.later s₁ fate₁.elapsed = s₂ at *
  obtain ⟨k, hk, hvalue, hexpiry⟩ := hreg
  rw [← hreg₁] at hk
  by_cases hlive : s₂.now ≤ k.expiresAt
  · have hget : (Command.getRegistry p.field.1).exec s₂ = (.seat p.trip p.unit, s₂) := by
      simp only [Command.exec, hk, Key.get, Option.bind_some, if_pos hlive, hvalue]
    rw [hget] at h₁
    obtain ⟨hnone, -⟩ | ⟨found, tr₂, hfound, rfl, h₂⟩ := h₁
    · cases hnone
    cases hfound
    obtain ⟨fate₂, ⟨hf₂, rfl, rfl, rfl⟩ | ⟨hf₂, h₃⟩⟩ := performs_send_then rfl h₂
    · refine ⟨(released_failed hf₂ rfl).cons s₁ hf rfl (fun id _ => by rw [hreg₁]), .inl ⟨?_, hh₁.later fate₂.elapsed⟩⟩
      rw [Breaks, failures_run hf]
      exact breaks_failed hf₂ rfl
    have hh₂ := (hh₁.later fate₂.elapsed).hdel hunused heq hown
    obtain ⟨hnone, -⟩ | ⟨_, tr₃, -, rfl, h₄⟩ := h₃
    · cases hnone
    have htail := forgets_tail h₄
    refine ⟨(htail.toReleased.cons s₂ hf₂ rfl (fun _ _ => rfl)).cons s₁ hf rfl (fun id _ => by rw [hreg₁]),
      .inr ⟨?_, htail.holding s placed' hh₂⟩⟩
    rw [Breaks, failures_run hf, failures_run hf₂]
    exact htail.unbroken
  · -- the registry entry has run out, and the hold with it
    have hget : (Command.getRegistry p.field.1).exec s₂ = (.nil, s₂) := by
      simp only [Command.exec, hk, Key.get, Option.bind_some, if_neg hlive]
    rw [hget] at h₁
    obtain ⟨hnone, -⟩ | ⟨found, tr₂, hfound, rfl, h₂⟩ := h₁
    · cases hnone
    cases hfound
    have hend := forgets_pure p.field.1 h₂
    have hdropped : Holding s placed' s₂ := by
      refine hh₁.congr (fun time hle q ha => ?_)
      rw [heq]
      refine ⟨fun h => h.1, fun hq => ⟨hq, fun he => ?_⟩⟩
      rw [hown q hq he] at ha
      have hexp := hexpiry time ha
      omega
    refine ⟨hend.toReleased.cons s₁ hf rfl (fun id _ => by rw [hreg₁]), .inr ⟨?_, hend.holding s placed' hdropped⟩⟩
    rw [Breaks, failures_run hf]
    exact hend.unbroken

end Release

/-! ### Several seats -/

def PlacedHold.key (p : PlacedHold) : Uuid × Uuid × Uuid := (p.field.1, p.trip, p.unit)

section Seats

variable {s s₁ s' : Redis} {placed left rest : List PlacedHold} {tr tr₁ tr₂ : Trace} {p : PlacedHold} {α β : Type}

lemma performs_ignore {x : Operation α} {f : Unit → Operation β} {r : Except Unit β}
    (h : Performs (Operation.ignore x >>= f) s tr r s') :
    ∃ tr₁ tr₂ r₁ t, tr = tr₁ ++ tr₂ ∧ Performs x s tr₁ r₁ t ∧ Performs (f ()) t tr₂ r s' := by
  obtain ⟨e, hx, -⟩ | ⟨tr₁, tr₂, u, t, htr, hx, hf⟩ := Prog.traced_then h
  · obtain ⟨_, _, _, _, -, -, hret⟩ := Prog.traced_bind hx
    cases (Prog.traced_ret hret).2.1
  · obtain ⟨tr₃, tr₄, r₁, t', rfl, hx, hret⟩ := Prog.traced_bind hx
    obtain ⟨rfl, -, rfl⟩ := Prog.traced_ret hret
    rw [List.append_nil] at htr
    exact ⟨tr₃, tr₂, r₁, t, htr, hx, hf⟩

lemma breaks_append : Breaks (tr₁ ++ tr₂) ↔ Breaks tr₁ ∨ Breaks tr₂ := by
  simp only [Breaks, failures_append, List.mem_append, or_and_right, exists_or]

lemma InRegistry.of_registry (hreg : InRegistry s₁ p) (he : s'.registry p.field.1 = s₁.registry p.field.1) :
    InRegistry s' p := by
  obtain ⟨k, hk, hv, ha⟩ := hreg
  exact ⟨k, by rw [he]; exact hk, hv, ha⟩

/-- The hold at the head of what is still to release, among the others. -/
lemma ids_head (hnodup : ((left ++ p :: rest).map (fun q => q.field.1)).Nodup) :
    (∀ q ∈ left ++ p :: rest, q.field.1 = p.field.1 → q = p) ∧
      ∀ q, q ∈ left ++ rest ↔ q ∈ left ++ p :: rest ∧ q.field.1 ≠ p.field.1 := by
  rw [List.map_append, List.map_cons, List.nodup_middle, List.nodup_cons, ← List.map_append] at hnodup
  have hne : ∀ q ∈ left ++ rest, q.field.1 ≠ p.field.1 :=
    fun q hq he => hnodup.1 (List.mem_map.mpr ⟨q, hq, he⟩)
  have hmem : ∀ q, q ∈ left ++ p :: rest ↔ q = p ∨ q ∈ left ++ rest := by
    intro q
    simp only [List.mem_append, List.mem_cons]
    tauto
  refine ⟨fun q hq he => ?_, fun q => ⟨fun hq => ⟨(hmem q).mpr (.inr hq), hne q hq⟩, fun hq => ?_⟩⟩
  · rcases (hmem q).mp hq with rfl | hq
    · rfl
    · exact absurd he (hne q hq)
  · rcases (hmem q).mp hq.1 with rfl | hm
    · exact absurd rfl hq.2
    · exact hm

lemma ids_concat (hids : (placed.map (fun q => q.field.1)).Nodup) (hnew : ∀ q ∈ placed, q.field.1 ≠ p.field.1) :
    ((placed ++ [p]).map (fun q => q.field.1)).Nodup := by
  rw [List.map_append, List.nodup_append]
  refine ⟨hids, List.nodup_singleton _, fun a ha b hb => ?_⟩
  obtain ⟨q, hq, rfl⟩ := List.mem_map.mp ha
  rw [List.mem_singleton.mp hb]
  exact hnew q hq

/-- A rollback takes off every hold whose release gets past its removal. -/
lemma performs_rollBack {r : Except Unit Unit} (hh : Holding s (left ++ rest) s₁) (hreg : ∀ p ∈ rest, InRegistry s₁ p)
    (hunused : ∀ p ∈ rest, UnusedHold s p.field.1) (hnodup : ((left ++ rest).map (fun q => q.field.1)).Nodup)
    (h : Performs (HoldStore.rollBack (rest.map PlacedHold.key)) s₁ tr r s') :
    r = .ok () ∧ admittedIds tr = [] ∧ (∀ id, (∀ p ∈ rest, p.field.1 ≠ id) → s'.registry id = s₁.registry id) ∧
      ∃ kept, kept ⊆ rest ∧ Holding s (left ++ kept) s' ∧ (Breaks tr ↔ kept ≠ []) := by
  induction rest generalizing left s₁ tr with
  | nil =>
    obtain ⟨rfl, rfl, rfl⟩ := performs_pure h
    refine ⟨rfl, rfl, fun _ _ => rfl, [], List.Subset.refl _, hh, ?_⟩
    simp [Breaks, failures]
  | cons p rest ih =>
    obtain ⟨tr₁, tr₂, r₁, t, rfl, hx, hrest⟩ := performs_ignore h
    obtain ⟨hown, heq⟩ := ids_head hnodup
    obtain ⟨hrel, hend⟩ := performs_release hh (hreg p List.mem_cons_self) (hunused p List.mem_cons_self) hown heq hx
    have hids := hnodup
    rw [List.map_append, List.map_cons, List.nodup_middle, List.nodup_cons, ← List.map_append] at hids
    have hreg' : ∀ q ∈ rest, InRegistry t q := by
      intro q hq
      have hne : q.field.1 ≠ p.field.1 := ((heq q).mp (List.mem_append_right _ hq)).2
      exact (hreg q (List.mem_cons_of_mem _ hq)).of_registry (hrel.registry _ hne)
    have hunused' : ∀ q ∈ rest, UnusedHold s q.field.1 := fun q hq => hunused q (List.mem_cons_of_mem _ hq)
    have hsame : ∀ id, (∀ q ∈ p :: rest, q.field.1 ≠ id) → t.registry id = s₁.registry id :=
      fun id hid => hrel.registry id (Ne.symm (hid p List.mem_cons_self))
    rw [admittedIds_append, hrel.admitted, breaks_append]
    obtain ⟨hbreaks, hkept⟩ | ⟨hbreaks, hoff⟩ := hend
    · have hmove : left ++ p :: rest = (left ++ [p]) ++ rest := by simp
      rw [hmove] at hkept hnodup
      obtain ⟨hr, hadm, hreg₂, kept, hsub, hholding, -⟩ := ih hkept hreg' hunused' hnodup hrest
      refine ⟨hr, hadm, fun id hid => by rw [hreg₂ id (fun q hq => hid q (List.mem_cons_of_mem _ hq)), hsame id hid], p :: kept, List.cons_subset_cons p hsub, ?_, fun _ => List.cons_ne_nil _ _, fun _ => .inl hbreaks⟩
      rw [List.append_assoc] at hholding
      exact hholding
    · obtain ⟨hr, hadm, hreg₂, kept, hsub, hholding, hiff⟩ := ih hoff hreg' hunused' hids.2 hrest
      refine ⟨hr, hadm, fun id hid => by rw [hreg₂ id (fun q hq => hid q (List.mem_cons_of_mem _ hq)), hsame id hid], kept, fun q hq => List.mem_cons_of_mem _ (hsub hq), hholding, ?_⟩
      rw [← hiff]
      exact or_iff_right hbreaks

/-- What is left once the seats were asked for one by one: all the holds, none of them or those
whose removal broke, or the holds placed up to where the operation stopped. -/
structure SeatsEnd (s s₁ : Redis) (ttl : Nat) (seats : List (Uuid × Uuid × SegmentSpan)) (placed : List PlacedHold)
    (tr : Trace) (r : Except Unit (Option (List (Uuid × Uuid × Uuid)))) (s' : Redis) (new left : List PlacedHold) : Prop where
  admitted : admittedIds tr = new.map (fun p => p.field.1)
  ids : ((placed ++ new).map (fun p => p.field.1)).Nodup
  left_sub : left ⊆ placed ++ new
  holding : Holding s left s'
  registry : ∀ id, (∀ p ∈ placed ++ new, p.field.1 ≠ id) → s'.registry id = s₁.registry id
  placedFor : ∀ p ∈ new, ∃ seat ∈ seats, PlacedFor s s' ttl seat p
  ended : (r = .ok (some ((placed ++ new).map PlacedHold.key)) ∧ left = placed ++ new ∧ failures tr = [] ∧
      List.Forall₂ (PlacedFor s s' ttl) seats new ∧ ∀ p ∈ placed ++ new, InRegistry s' p) ∨
    (r = .ok none ∧ (Breaks tr ↔ left ≠ [])) ∨
    (r = .error () ∧ left = placed ++ new ∧ (failures tr = [] ∧ ttl = 0 ∨ Breaks tr))

lemma performs_acquireSeats {ttl : Nat} {seats : List (Uuid × Uuid × SegmentSpan)}
    {r : Except Unit (Option (List (Uuid × Uuid × Uuid)))} (hh : Holding s placed s₁) (hreg : ∀ p ∈ placed, InRegistry s₁ p)
    (hunused : ∀ p ∈ placed, UnusedHold s p.field.1) (hids : (placed.map (fun p => p.field.1)).Nodup)
    (hfresh : ∀ id ∈ drawnHolds tr, UnusedHold s id ∧ ∀ p ∈ placed, p.field.1 ≠ id) (hdrawn : (drawnHolds tr).Nodup)
    (h : Performs (HoldStore.acquireSeats ttl seats (placed.map PlacedHold.key)) s₁ tr r s') :
    ∃ new left, SeatsEnd s s₁ ttl seats placed tr r s' new left := by
  induction seats generalizing placed s₁ tr with
  | nil =>
    obtain ⟨rfl, rfl, rfl⟩ := performs_pure h
    refine ⟨[], placed, rfl, by simpa using hids, by simp, hh, fun _ _ => rfl, by simp, .inl ⟨by simp, by simp, rfl, .nil, by simpa using hreg⟩⟩
  | cons seat rest ih =>
    obtain ⟨trip, unit, span⟩ := seat
    unfold HoldStore.acquireSeats at h
    obtain ⟨e, hx, rfl⟩ | ⟨tr₁, tr₂, hold, t, rfl, hx, hk⟩ := Prog.traced_then h
    · obtain ⟨p, hfor, hpid, hh', hadm, hsame, ⟨⟨_, hr⟩, -⟩ | ⟨-, hstop⟩⟩ | ⟨hh', hadm, hsame, ⟨hr, -⟩ | ⟨-, hstop⟩⟩ :=
        performs_acquire hh hx hfresh
      · cases hr
      · refine ⟨[p], placed ++ [p], hadm, ids_concat hids (hfresh _ hpid).2, List.Subset.refl _, hh',
          fun id hid => hsame id (Ne.symm (hid p (List.mem_append_right _ (List.mem_singleton_self p)))),
          fun q hq => ?_, .inr (.inr ⟨rfl, rfl, hstop⟩)⟩
        rw [List.mem_singleton.mp hq]
        exact ⟨_, List.mem_cons_self, hfor⟩
      · cases hr
      · exact ⟨[], placed, hadm, by simpa using hids, by simp, hh', fun id _ => by rw [hsame], by simp,
          .inr (.inr ⟨rfl, by simp, .inr hstop⟩)⟩
    · rw [drawnIds_append] at hfresh hdrawn
      have hfresh₁ : ∀ id ∈ drawnHolds tr₁, UnusedHold s id ∧ ∀ p ∈ placed, p.field.1 ≠ id :=
        fun id hid => hfresh id (List.mem_append_left _ hid)
      have hle := performs_clock hk
      obtain ⟨p, hfor, hpid, hh', hadm, hsame, ⟨⟨exp, hr⟩, hnone, hpreg⟩ | ⟨hr, -⟩⟩ |
        ⟨hh', hadm, hsame, ⟨hr, hnone⟩ | ⟨hr, -⟩⟩ := performs_acquire hh hx hfresh₁
      · cases hr
        have hkey : placed.map PlacedHold.key ++ [(p.field.1, trip, unit)] = (placed ++ [p]).map PlacedHold.key := by
          simp [PlacedHold.key, hfor.trip, hfor.unit]
        simp only [hkey] at hk
        have hnew : ∀ q ∈ placed, q.field.1 ≠ p.field.1 := (hfresh₁ _ hpid).2
        have hreg' : ∀ q ∈ placed ++ [p], InRegistry t q := by
          intro q hq
          rcases List.mem_append.mp hq with hq | hq
          · exact (hreg q hq).of_registry (hsame _ (hnew q hq))
          · rw [List.mem_singleton.mp hq]
            exact hpreg
        have hunused' : ∀ q ∈ placed ++ [p], UnusedHold s q.field.1 := by
          intro q hq
          rcases List.mem_append.mp hq with hq | hq
          · exact hunused q hq
          · rw [List.mem_singleton.mp hq]
            exact hfor.unused
        have hids' := ids_concat hids hnew
        have hfresh' : ∀ id ∈ drawnHolds tr₂, UnusedHold s id ∧ ∀ q ∈ placed ++ [p], q.field.1 ≠ id := by
          intro id hid
          obtain ⟨hid₁, hid₂⟩ := hfresh id (List.mem_append_right _ hid)
          refine ⟨hid₁, fun q hq => ?_⟩
          rcases List.mem_append.mp hq with hq | hq
          · exact hid₂ q hq
          · rw [List.mem_singleton.mp hq]
            exact (List.nodup_append.mp hdrawn).2.2 _ hpid _ hid
        obtain ⟨new, left, hend⟩ := ih hh' hreg' hunused' hids' hfresh' (List.nodup_append.mp hdrawn).2.1 hk
        have hfor' : PlacedFor s s' ttl (trip, unit, span) p := hfor.mono hle
        have hassoc : placed ++ [p] ++ new = placed ++ p :: new := by simp
        have hended := hend.ended
        have hsub := hend.left_sub
        have hregistry := hend.registry
        have hids₂ := hend.ids
        rw [hassoc] at hended hsub hregistry hids₂
        refine ⟨p :: new, left, ?_, hids₂, hsub, hend.holding, fun id hid => ?_, ?_, ?_⟩
        · rw [admittedIds_append, hadm, hend.admitted]
          rfl
        · rw [hregistry id hid, hsame id (Ne.symm (hid p (by simp)))]
        · intro q hq
          rcases List.mem_cons.mp hq with rfl | hq
          · exact ⟨_, List.mem_cons_self, hfor'⟩
          · obtain ⟨seat, hseat, hq⟩ := hend.placedFor q hq
            exact ⟨seat, List.mem_cons_of_mem _ hseat, hq⟩
        · rw [failures_append, hnone, List.nil_append, breaks_append]
          have hwhole : ¬Breaks tr₁ := by
            rintro ⟨command, hc, -⟩
            rw [hnone] at hc
            cases hc
          rw [or_iff_right hwhole]
          obtain ⟨hr, hleft, hfail, hall, hregs⟩ | hend | hend := hended
          · exact .inl ⟨hr, hleft, hfail, .cons hfor' hall, hregs⟩
          · exact .inr (.inl hend)
          · exact .inr (.inr hend)
      · cases hr
      · cases hr
        have hreg' : ∀ q ∈ placed, InRegistry t q := fun q hq => (hreg q hq).of_registry (by rw [hsame])
        have hall : Holding s ([] ++ placed) t := hh'
        obtain ⟨e, hx, -⟩ | ⟨tr₃, tr₄, u, t', htr, hx, hk⟩ := Prog.traced_then hk
        · obtain ⟨hr, -⟩ := performs_rollBack hall hreg' hunused hids hx
          cases hr
        · obtain ⟨-, hadm₃, hreg₃, kept, hsub, hkept, hiff⟩ := performs_rollBack hall hreg' hunused hids hx
          obtain ⟨rfl, rfl, rfl⟩ := performs_pure hk
          rw [List.append_nil] at htr
          subst htr
          refine ⟨[], kept, ?_, by simpa using hids, by simpa using hsub, hkept, fun id hid => ?_, by simp, .inr (.inl ⟨rfl, ?_⟩)⟩
          · rw [admittedIds_append, hadm, hadm₃]
            rfl
          · rw [hreg₃ id (fun q hq => hid q (List.mem_append_left _ hq)), hsame]
          · rw [← hiff, breaks_append]
            refine or_iff_right ?_
            rintro ⟨command, hc, -⟩
            rw [hnone] at hc
            cases hc
      · cases hr

end Seats

/-! ### All or nothing -/

/-- Where an itinerary is not held, no hold the call placed is left on a seat; where it is refused
with every command getting through, the live holds are those of before. -/
def AllOrNothing (s : Redis) (tr : Trace) (r : Except Unit (Option (Hold × List (Uuid × Uuid)))) (s' : Redis) : Prop :=
  (∀ held, r ≠ .ok (some held)) →
    (∀ id ∈ admittedIds tr, ∀ trip unit f, Live s' trip unit f → f.1 ≠ id) ∧
      (failures tr = [] → r = .ok none →
        ∀ trip unit f, Live s' trip unit f ↔ Live { s with now := s'.now } trip unit f)

/-- No command fails once a hold is placed, other than those that follow the removal of a hold. -/
def Mended (tr : Trace) : Prop := Breaks tr → admittedIds tr = []

section Itinerary

variable {s s' : Redis} {tr : Trace} {seats : List (Uuid × Uuid × SegmentSpan)} {ttl : Nat}
  {r : Except Unit (Option (Hold × List (Uuid × Uuid)))}

/-- How long a hold lives that the operation placed. -/
lemma PlacedFor.alive_iff {seat : Uuid × Uuid × SegmentSpan} {p : PlacedHold} (hp : PlacedFor s s' ttl seat p) :
    ∃ now, s.now ≤ now ∧ now ≤ s'.now ∧ ∀ time, alive time p.field.2 = true ↔ now + ttl < 10 ^ 14 ∧ time < now + ttl := by
  obtain ⟨now, h₁, h₂, hw⟩ := hp.text
  exact ⟨now, h₁, h₂, fun time => hw.alive⟩

/-- What is left where an itinerary was not held. -/
structure Refusal (s : Redis) (ttl : Nat) (seats : List (Uuid × Uuid × SegmentSpan)) (tr : Trace) (s' : Redis)
    (new left : List PlacedHold) : Prop where
  admitted : admittedIds tr = new.map (fun p => p.field.1)
  left_sub : left ⊆ new
  holding : Holding s left s'
  placedFor : ∀ p ∈ new, ∃ seat ∈ seats, PlacedFor s s' ttl seat p
  broken : Breaks tr → new ≠ [] → left ≠ []
  unbroken : ¬Breaks tr → left = [] ∨ ttl = 0

/-- What an itinerary that is held consists of, and when its own key runs out. -/
structure ItineraryHeld (s : Redis) (ttl : Nat) (seats : List (Uuid × Uuid × SegmentSpan)) (tr : Trace)
    (held : Hold × List (Uuid × Uuid)) (s' : Redis) (placed : List PlacedHold) (expiry : Nat) : Prop where
  unbroken : failures tr = []
  members : held.2 = placed.map (fun p => (p.trip, p.unit))
  placedFor : List.Forall₂ (PlacedFor s s' ttl) seats placed
  ids : (placed.map (fun p => p.field.1)).Nodup
  holding : Holding s placed s'
  inRegistry : ∀ p ∈ placed, InRegistry s' p
  registry : ∀ id, (∀ p ∈ placed, p.field.1 ≠ id) → s'.registry id = s.registry id
  key : s'.itineraries held.1.holdId = some ⟨placed.map PlacedHold.key, expiry⟩
  lasts : s.now + ttl ≤ expiry ∧ expiry ≤ held.1.expiresAt
  outlives : ∀ p ∈ placed, ∀ time, alive time p.field.2 = true → time ≤ expiry

lemma performs_acquireItinerary (hs : Sane s) (hdrawn : (drawnHolds tr).Nodup) (hunused : ∀ id ∈ drawnHolds tr, UnusedHold s id)
    (h : Performs (HoldStore.acquireItinerary seats ttl) s tr r s') :
    (∃ held placed expiry, r = .ok (some held) ∧ ItineraryHeld s ttl seats tr held s' placed expiry) ∨
      (∀ held, r ≠ .ok (some held)) ∧ ∃ new left, Refusal s ttl seats tr s' new left ∧
        (failures tr = [] → r = .ok none → left = []) := by
  unfold HoldStore.acquireItinerary at h
  obtain ⟨groupId, tr₁, rfl, h₁⟩ := performs_newV4 h
  rw [drawnIds_called] at hdrawn hunused
  have hseats : ∀ {tr₂ : Trace} {r₂ : Except Unit (Option (List (Uuid × Uuid × Uuid)))} {t : Redis}, drawnHolds tr₂ <+: drawnHolds tr₁ →
      Performs (HoldStore.acquireSeats ttl seats []) s tr₂ r₂ t → ∃ new left, SeatsEnd s s ttl seats [] tr₂ r₂ t new left := by
    intro tr₂ r₂ t hpre hx
    refine performs_acquireSeats (holding_self hs) (by simp) (by simp) List.nodup_nil (fun id hid => ⟨?_, by simp⟩) ?_ hx
    · exact hunused id (List.mem_cons_of_mem _ (hpre.subset hid))
    · exact (List.nodup_cons.mp hdrawn).2.sublist hpre.sublist
  obtain ⟨e, hx, rfl⟩ | ⟨tr₂, tr₃, acquired, t, rfl, hx, hk⟩ := Prog.traced_then h₁
  · obtain ⟨new, left, hend⟩ := hseats (List.prefix_refl _) hx
    obtain ⟨hr, -⟩ | ⟨hr, -⟩ | ⟨-, hleft, hstop⟩ := hend.ended
    · cases hr
    · cases hr
    · rw [List.nil_append] at hleft
      refine .inr ⟨by simp, new, left, ⟨hend.admitted, hend.left_sub, hend.holding, hend.placedFor, fun _ hne => ?_,
        fun hb => ?_⟩, by simp⟩
      · rw [hleft]
        exact hne
      · rcases hstop with hz | hbreaks
        · exact .inr hz.2
        · exact absurd hbreaks hb
  · rw [drawnIds_append] at hseats
    obtain ⟨new, left, hend⟩ := hseats (List.prefix_append _ _) hx
    obtain ⟨hr, hleft, hnone, hall, hregs⟩ | ⟨hr, hiff⟩ | ⟨hr, -⟩ := hend.ended
    · cases hr
      rw [List.nil_append] at hleft
      have hadmitted : ∀ fate reply, admittedIds (.called () groupId :: (tr₂ ++ [.ran (.setItinerary groupId
          (([] ++ new).map PlacedHold.key) ttl) fate reply])) = new.map (fun p => p.field.1) := by
        intro fate reply
        rw [← hend.admitted]
        exact admittedIds_append.trans (List.append_nil (admittedIds tr₂))
      obtain ⟨fate, ⟨hf, rfl, rfl, rfl⟩ | ⟨hf, h₂⟩⟩ := performs_send_then rfl hk
      · refine .inr ⟨by simp, new, left, ⟨hadmitted _ _, hend.left_sub, hend.holding.later _, fun p hp => ?_,
          fun _ hne => by rw [hleft]; exact hne, fun hb => absurd ?_ hb⟩, by simp⟩
        · obtain ⟨seat, hseat, hfor⟩ := hend.placedFor p hp
          exact ⟨seat, hseat, hfor.mono (Nat.le_add_right _ _)⟩
        · rw [Breaks, failures_called, failures_append, failures_failed hf]
          exact ⟨_, List.mem_append_right _ List.mem_cons_self, rfl⟩
      have hholding := (hend.holding.later fate.elapsed).exec
        (.setItinerary groupId (([] ++ new).map PlacedHold.key) ttl) rfl
      by_cases hz : ttl = 0
      · simp only [Command.exec, if_pos hz] at h₂ hholding
        obtain ⟨-, rfl, rfl, rfl⟩ | ⟨_, _, hok, -⟩ := h₂
        · refine .inr ⟨by simp, new, left, ⟨hadmitted _ _, hend.left_sub, hholding, fun p hp => ?_,
            fun _ hne => by rw [hleft]; exact hne, fun _ => .inr hz⟩, by simp⟩
          obtain ⟨seat, hseat, hfor⟩ := hend.placedFor p hp
          exact ⟨seat, hseat, hfor.mono (Nat.le_add_right _ _)⟩
        · cases hok
      · simp only [Command.exec, if_neg hz] at h₂
        obtain ⟨hnone', -⟩ | ⟨_, tr₄, -, rfl, h₃⟩ := h₂
        · cases hnone'
        obtain ⟨fate', tr₅, rfl, h₄⟩ := performs_now h₃
        obtain ⟨rfl, rfl, rfl⟩ := performs_pure h₄
        have hends : s.now ≤ t.now := hend.holding.now
        simp only [Command.exec, if_neg hz] at hholding
        rw [hleft] at hholding
        refine .inl ⟨_, new, t.now + fate.elapsed + ttl, rfl, ?_, ?_, ?_, hend.ids, hholding.later fate'.elapsed, hregs,
          hend.registry, ?_, ⟨?_, ?_⟩, ?_⟩
        · rw [failures_called, failures_append, hnone, failures_run hf, failures_clock]
          rfl
        · simp [PlacedHold.key]
        · exact hall.imp (fun seat p hp => hp.mono (le_trans (Nat.le_add_right _ _) (Nat.le_add_right _ _)))
        · exact Function.update_self ..
        · omega
        · change t.now + fate.elapsed + ttl ≤ t.now + fate.elapsed + fate'.elapsed + ttl
          omega
        · intro p hp time ha
          obtain ⟨seat, -, hfor⟩ := hend.placedFor p hp
          obtain ⟨now, -, hle, halive⟩ := hfor.alive_iff
          have hlt := (halive time).mp ha
          omega
    · cases hr
      obtain ⟨rfl, rfl, rfl⟩ := performs_pure hk
      rw [List.append_nil]
      refine .inr ⟨by simp, new, left, ⟨hend.admitted, hend.left_sub, hend.holding, hend.placedFor,
        fun hb _ => hiff.mp hb, fun hb => .inl ?_⟩, fun hnone _ => ?_⟩
      · by_contra hne
        exact hb (hiff.mpr hne)
      · by_contra hne
        obtain ⟨command, hc, -⟩ := hiff.mpr hne
        rw [failures_called] at hnone
        rw [hnone] at hc
        cases hc
    · cases hr

/-- Where an itinerary is not held, nothing of it stays on any seat as long as no command breaks
the operation once a hold is placed. A command that does leaves a live hold behind, unless the
operation has gone on for as long as its holds live. -/
theorem all_or_nothing_iff (hs : Sane s) (hdrawn : (drawnHolds tr).Nodup) (hunused : ∀ id ∈ drawnHolds tr, UnusedHold s id)
    (h : Performs (HoldStore.acquireItinerary seats ttl) s tr r s') :
    (Mended tr → AllOrNothing s tr r s') ∧
      (s'.now < s.now + ttl → s'.now + ttl < 10 ^ 14 → AllOrNothing s tr r s' → Mended tr) := by
  obtain ⟨held, placed, expiry, hr, hheld⟩ | ⟨hr, new, left, href, hrefused⟩ := performs_acquireItinerary hs hdrawn hunused h
  · refine ⟨fun _ hno => absurd hr (hno held), fun _ _ _ hb => ?_⟩
    obtain ⟨command, hc, -⟩ := hb
    rw [hheld.unbroken] at hc
    cases hc
  have hlive : ∀ trip unit f, Live s' trip unit f ↔
      LiveAt s s'.now trip unit f ∨ ⟨trip, unit, f⟩ ∈ left ∧ alive s'.now f.2 = true :=
    fun trip unit f => href.holding.sane.live_iff.trans (href.holding.live s'.now le_rfl trip unit f)
  constructor
  · refine fun hmended _ => ⟨fun id hid trip unit f hl he => ?_, fun hnone hnothing trip unit f => ?_⟩
    · rw [href.admitted] at hid
      obtain ⟨p, hp, rfl⟩ := List.mem_map.mp hid
      obtain ⟨seat, -, hfor⟩ := href.placedFor p hp
      rcases (hlive trip unit f).mp hl with hbefore | ⟨hleft, ha⟩
      · exact hfor.unused trip unit f hbefore.1 he
      · by_cases hb : Breaks tr
        · have hadmitted := hmended hb
          rw [href.admitted, List.map_eq_nil_iff] at hadmitted
          rw [hadmitted] at hp
          cases hp
        · rcases href.unbroken hb with hempty | hz
          · rw [hempty] at hleft
            cases hleft
          · obtain ⟨seat', -, hfor'⟩ := href.placedFor _ (href.left_sub hleft)
            obtain ⟨now, -, hle, halive⟩ := hfor'.alive_iff
            have hlt := (halive s'.now).mp ha
            omega
    · have hsane : Sane { s with now := s'.now } := sane_of_same hs rfl rfl
      rw [hlive, hrefused hnone hnothing, hsane.live_iff]
      simp only [List.not_mem_nil, false_and, or_false]
      exact (liveAt_of_units rfl).symm
  · intro hprompt hreadable hall hb
    by_contra hadmitted
    rw [href.admitted, List.map_eq_nil_iff] at hadmitted
    obtain ⟨p, hp⟩ := List.exists_mem_of_ne_nil left (href.broken hb hadmitted)
    obtain ⟨seat, -, hfor⟩ := href.placedFor p (href.left_sub hp)
    obtain ⟨now, h₁, h₂, halive⟩ := hfor.alive_iff
    have ha : alive s'.now p.field.2 = true := (halive s'.now).mpr ⟨by omega, by omega⟩
    refine (hall hr).1 p.field.1 ?_ p.trip p.unit p.field ((hlive _ _ _).mpr (.inr ⟨hp, ha⟩)) rfl
    rw [href.admitted]
    exact List.mem_map.mpr ⟨p, href.left_sub hp, rfl⟩

end Itinerary

section Harbour

def wholeSpan : SegmentSpan := ⟨0, 2, Nat.zero_lt_two, two_le_maxSegments⟩

/-- A command that is run at once, and one that is lost. -/
def arrives : Fate := ⟨0, true⟩

def lost : Fate := ⟨0, false⟩

lemma unused_empty (start : Nat) (id : Uuid) : UnusedHold (Redis.empty start) id := by
  intro trip unit f hf
  cases hf

/-- The same seat asked for twice. -/
theorem all_or_nothing_iff_twice : ∃ tr r s',
    Performs (HoldStore.acquireItinerary [(1, 7, wholeSpan), (1, 7, wholeSpan)] 600000) (Redis.empty 1000) tr r s' ∧
      admittedIds tr = [101] ∧ r.toOption.map Option.isSome = some false ∧
      AllOrNothing (Redis.empty 1000) tr r s' := by
  have hrun : (Prog.follow Command.meets (HoldStore.acquireItinerary [(1, 7, wholeSpan), (1, 7, wholeSpan)] 600000)
      (Redis.empty 1000) (List.replicate 10 arrives) [100, 101, 102]).map
        (fun o => (drawnHolds o.1, admittedIds o.1, (failures o.1).length, o.2.1.toOption.map Option.isSome)) =
      some ([100, 101, 102], [101], 0, some false) := by decide
  obtain ⟨⟨tr, r, s'⟩, ho, he⟩ := Option.map_eq_some_iff.mp hrun
  simp only [Prod.mk.injEq, List.length_eq_zero_iff] at he
  obtain ⟨hdrawn, hadmitted, hnone, hr⟩ := he
  have htraced := Prog.traced_of_follow ho
  refine ⟨tr, r, s', htraced, hadmitted, hr, ?_⟩
  refine (all_or_nothing_iff (sane_empty 1000) (by rw [hdrawn]; decide) (fun id _ => unused_empty 1000 id) htraced).1 ?_
  rintro ⟨command, hc, -⟩
  rw [hnone] at hc
  cases hc

def lostScript : Option (Trace × Except Unit (Option (Hold × List (Uuid × Uuid))) × Redis) :=
  Prog.follow Command.meets (HoldStore.acquireItinerary [(1, 7, wholeSpan), (1, 8, wholeSpan)] 600000)
    (Redis.empty 1000) [arrives, arrives, arrives, arrives, lost] [100, 101, 102]

/-- Where the second seat's script is lost, the first seat stays held. -/
theorem first_seat_stays_held : ¬∀ (s : Redis) (seats : List (Uuid × Uuid × SegmentSpan)) (ttl : Nat) (tr : Trace)
    (r : Except Unit (Option (Hold × List (Uuid × Uuid)))) (s' : Redis), Sane s → (drawnHolds tr).Nodup →
    (∀ id ∈ drawnHolds tr, UnusedHold s id) → (failures tr).length ≤ 1 →
    Performs (HoldStore.acquireItinerary seats ttl) s tr r s' → AllOrNothing s tr r s' := by
  intro h
  have hrun : lostScript.map (fun o => (drawnHolds o.1, admittedIds o.1, (failures o.1).length, o.2.1.toOption.isSome)) =
      some ([100, 101, 102], [101], 1, false) := by decide
  have hstore : lostScript.map (fun o => (o.2.2.now, o.2.2.hash 1 7)) = some (1000, [(101, holdText 601000 0 3)]) := by
    decide
  obtain ⟨⟨tr, r, s'⟩, ho, he⟩ := Option.map_eq_some_iff.mp hrun
  rw [ho] at hstore
  simp only [Option.map_some, Option.some.injEq, Prod.mk.injEq] at he hstore
  obtain ⟨hdrawn, hadmitted, hfail, hr⟩ := he
  obtain ⟨hnow, hhash⟩ := hstore
  have hall := h (Redis.empty 1000) _ _ tr r s' (sane_empty 1000) (by rw [hdrawn]; decide)
    (fun id _ => unused_empty 1000 id) (by rw [hfail]) (Prog.traced_of_follow ho)
  have hno : ∀ held, r ≠ .ok (some held) := by
    rintro held rfl
    cases hr
  refine (hall hno).1 101 (by rw [hadmitted]; exact List.mem_cons_self) 1 7 (101, holdText 601000 0 3) ⟨?_, ?_⟩ rfl
  · rw [hhash]
    exact List.mem_cons_self
  · rw [hnow]
    decide

end Harbour

end Lulan.Proofs
