import Lulan.Proofs.Holds

/-!
# Hold operations along a run

Which commands an operation sends, in terms of what it has read. An operation removes a unit
from the index only after it has found the unit without a live hold.
-/

namespace Lulan.Proofs

open Lulan Lulan.Holds Lib

/-- What an operation has seen: its last clock value, and the units it found without a live
hold and has not yet taken out of the index. -/
structure Watch where
  clock : Nat
  stale : List (Uuid × Uuid)

def Watch.event (w : Watch) : Holds.Event → Watch
  | .commit _ _ .clock (.int n) => { w with clock := n }
  | .commit _ _ (.hlen trip unit) (.int 0) => { w with stale := (trip, unit) :: w.stale }
  | .commit _ _ (.hgetall trip unit) (.fields fields) =>
    if HoldStore.liveUnion w.clock fields = 0#64 then { w with stale := (trip, unit) :: w.stale } else w
  | .commit _ _ (.srem trip units) _ =>
    { w with stale := w.stale.filter (fun u => !(u.1 == trip && units.contains u.2)) }
  | .answer _ _ _ => { w with stale := [] }
  | _ => w

def watch (pid : Nat) (h : List Holds.Event) : Watch :=
  (h.filter (fun ev => ev.pid == pid)).foldl Watch.event ⟨0, []⟩

/-- Under way: arrived and not yet answered. -/
structure InFlight (pid : Nat) (i : Holds.Request) (h : List Holds.Event) : Prop where
  arrived : .arrive pid i ∈ h
  unanswered : ∀ j a, .answer pid j a ∉ h

/-- Under way, with nothing left to take out of the index. -/
structure Clean (pid : Nat) (i : Holds.Request) (h : List Holds.Event) : Prop where
  inFlight : InFlight pid i h
  stale : (watch pid h).stale = []

/-- Whether an operation places holds. -/
def acquires : Holds.Request → Bool
  | .acquire _ _ _ _ | .acquireItinerary _ _ => true
  | _ => false

/-- What an operation has seen when it sends a command. -/
def Allowed (pid : Nat) (i : Holds.Request) (h : List Holds.Event) : Command → Prop
  | .acquire _ _ now ttl _ hi lo indexTtl =>
    acquires i = true ∧ .commit pid i .clock (.int now) ∈ h ∧ (∃ span, hi = maskHi span ∧ lo = maskLo span) ∧
      indexTtl = ttl * indexTtlMultiplier ∧ (watch pid h).stale = []
  | .srem trip units => ∀ unit ∈ units, (trip, unit) ∈ (watch pid h).stale
  | _ => True

section Watch

variable {pid : Nat} {i : Holds.Request} {h g : List Holds.Event}

lemma watch_later (hl : Site.Later pid h g) : watch pid g = watch pid h := by
  obtain ⟨l, rfl, hne⟩ := hl
  have hnone : l.filter (fun ev => ev.pid == pid) = [] :=
    List.filter_eq_nil_iff.mpr (fun ev he => by simpa using hne ev he)
  rw [watch, List.filter_append, hnone, List.append_nil]
  rfl

lemma watch_own (q : Nat) (h : List Holds.Event) {ev : Holds.Event} (he : ev.pid = q) :
    watch q (h ++ [ev]) = (watch q h).event ev := by
  have hone : [ev].filter (fun ev => ev.pid == q) = [ev] := by simp [he]
  rw [watch, List.filter_append, hone, List.foldl_append]
  rfl

lemma watch_arrive (h : List Holds.Event) (i : Holds.Request) (hfresh : ∀ ev ∈ h, ev.pid ≠ pid) :
    watch pid (h ++ [.arrive pid i]) = ⟨0, []⟩ := by
  have hnone : h.filter (fun ev => ev.pid == pid) = [] :=
    List.filter_eq_nil_iff.mpr (fun ev he => by simpa using hfresh ev he)
  rw [watch_own pid h rfl, watch, hnone]
  rfl

lemma InFlight.later (hf : InFlight pid i h) (hl : Site.Later pid h g) : InFlight pid i g :=
  ⟨hl.mem hf.arrived, fun j a ha => hf.unanswered j a (hl.own ha rfl)⟩

lemma InFlight.commit {command : Command} {reply : Holds.Reply} (hf : InFlight pid i h) :
    InFlight pid i (h ++ [.commit pid i command reply]) :=
  ⟨List.mem_append_left _ hf.arrived, fun j a ha => hf.unanswered j a (by simpa using ha)⟩

lemma InFlight.call {id : Uuid} (hf : InFlight pid i h) : InFlight pid i (h ++ [.call pid i () id]) :=
  ⟨List.mem_append_left _ hf.arrived, fun j a ha => hf.unanswered j a (by simpa using ha)⟩

lemma Clean.later (hc : Clean pid i h) (hl : Site.Later pid h g) : Clean pid i g :=
  ⟨hc.inFlight.later hl, by rw [watch_later hl]; exact hc.stale⟩

lemma clean_arrive (i : Holds.Request) (hfresh : ∀ ev ∈ h, ev.pid ≠ pid) : Clean pid i (h ++ [.arrive pid i]) where
  inFlight := ⟨by simp, fun j a ha => hfresh _ (by simpa using ha) rfl⟩
  stale := by rw [watch_arrive h i hfresh]

lemma Allowed.later {command : Command} (ha : Allowed pid i h command) (hl : Site.Later pid h g) :
    Allowed pid i g command := by
  cases command with
  | acquire trip unit now ttl holdId hi lo indexTtl =>
    obtain ⟨hi, hclock, hspan, httl, hs⟩ := ha
    exact ⟨hi, hl.mem hclock, hspan, httl, by rw [watch_later hl]; exact hs⟩
  | srem trip units =>
    intro unit hu
    rw [watch_later hl]
    exact ha unit hu
  | _ => trivial

end Watch

/-! ### Rules -/

/-- What an invariant needs for the operations to keep it. -/
structure Kept (G : Redis → List Holds.Event → Holds.Event → Prop) (I : Redis → List Holds.Event → Prop) : Prop where
  command : ∀ pid i command reaches s h, InFlight pid i h → Allowed pid i h command → I s h →
    G s h (.commit pid i command (Command.run command reaches s).1) →
    I (Command.run command reaches s).2 (h ++ [.commit pid i command (Command.run command reaches s).1])
  fresh : ∀ pid i id s h, InFlight pid i h → I s h → I s (h ++ [.call pid i () id])

/-- The history in which an operation has had `reply` to its last command. -/
def Sent (pid : Nat) (i : Holds.Request) (h : List Holds.Event) (command : Command) (reply : Holds.Reply)
    (g : List Holds.Event) : Prop :=
  ∃ g₀, Site.Later pid h g₀ ∧ Site.Later pid (g₀ ++ [.commit pid i command reply]) g

section Rules

variable {G : Redis → List Holds.Event → Holds.Event → Prop} {I : Redis → List Holds.Event → Prop} {pid : Nat}
  {i : Holds.Request} {h g : List Holds.Event} {α β : Type} {command : Command} {reply : Holds.Reply}

lemma Sent.watch (hs : Sent pid i h command reply g) :
    watch pid g = (watch pid h).event (.commit pid i command reply) := by
  obtain ⟨g₀, h₀, h₁⟩ := hs
  rw [watch_later h₁, watch_own pid g₀ rfl, watch_later h₀]

lemma Sent.inFlight (hs : Sent pid i h command reply g) (hf : InFlight pid i h) : InFlight pid i g := by
  obtain ⟨g₀, h₀, h₁⟩ := hs
  exact (hf.later h₀).commit.later h₁

lemma Sent.mem (hs : Sent pid i h command reply g) : .commit pid i command reply ∈ g := by
  obtain ⟨g₀, -, h₁⟩ := hs
  exact h₁.mem (List.mem_append_right _ (List.mem_singleton_self _))

lemma Sent.extends (hs : Sent pid i h command reply g) : h <+: g := by
  obtain ⟨g₀, h₀, h₁⟩ := hs
  exact (h₀.extends.trans (List.prefix_append _ _)).trans h₁.extends

/-- A command that the watch does not depend on. -/
lemma Sent.clean (hs : Sent pid i h command reply g) (hc : Clean pid i h)
    (hw : ∀ w : Watch, w.stale = [] → (w.event (.commit pid i command reply)).stale = []) : Clean pid i g :=
  ⟨hs.inFlight hc.inFlight, by rw [hs.watch]; exact hw _ hc.stale⟩

lemma send_keeps {f : Holds.Reply → Option α} (hK : Kept G I) (hf : InFlight pid i h) (ha : Allowed pid i h command) :
    store.Keeps G I pid i (fun g r => ∃ reply, Sent pid i h command reply g ∧ ∀ a, r = .ok a ↔ f reply = some a)
      (Operation.send command f) h := by
  intro reaches s g hg hI hG
  refine ⟨hK.command pid i command reaches s g (hf.later hg) (ha.later hg) hI hG, ?_⟩
  change store.Keeps G I pid i _ (Operation.returned f (Command.run command reaches s).1) _
  unfold Operation.returned
  cases hr : f (Command.run command reaches s).1 with
  | some a =>
    refine fun g' hg' => ⟨_, ⟨g, hg, hg'⟩, fun a' => ?_⟩
    change _ ↔ f (Command.run command reaches s).1 = some a'
    rw [hr, Option.some.injEq, Except.ok.injEq]
  | none =>
    refine fun g' hg' => ⟨_, ⟨g, hg, hg'⟩, fun a' => ?_⟩
    change _ ↔ f (Command.run command reaches s).1 = some a'
    rw [hr]
    constructor <;> intro ha <;> cases ha

lemma newV4_keeps {R : List Holds.Event → Except Unit Uuid → Prop} (hK : Kept G I) (hf : InFlight pid i h)
    (hR : ∀ id g, Site.Later pid h g → ∀ g', Site.Later pid (g ++ [.call pid i () id]) g' → R g' (.ok id)) :
    store.Keeps G I pid i R Operation.newV4 h :=
  fun id s g _ hg hI _ => ⟨hK.fresh pid i id s g (hf.later hg) hI, hR id g hg⟩

lemma task_pure {R : List Holds.Event → Except Unit α → Prop} {a : α}
    (hR : ∀ g, Site.Later pid h g → R g (.ok a)) : store.Keeps G I pid i R (pure a : Operation α) h := hR

lemma task_map {R : List Holds.Event → Except Unit α → Prop} {R' : List Holds.Event → Except Unit β → Prop}
    {x : Operation α} {f : α → β} (hx : store.Keeps G I pid i R x h)
    (hR : ∀ r g, R g r → ∀ g', Site.Later pid g g' → R' g' (r.map f)) :
    store.Keeps G I pid i R' (f <$> x : Operation β) h := by
  refine Site.keeps_bind hx (fun r g hr => ?_)
  cases r with
  | ok a => exact hR _ g hr
  | error e => exact hR _ g hr

lemma ignore_keeps {R : List Holds.Event → Except Unit α → Prop} {R' : List Holds.Event → Except Unit Unit → Prop}
    {x : Operation α} (hx : store.Keeps G I pid i R x h)
    (hR : ∀ r g, R g r → ∀ g', Site.Later pid g g' → R' g' (.ok ())) :
    store.Keeps G I pid i R' (Operation.ignore x) h :=
  Site.keeps_bind hx (fun r g hr => hR r g hr)

/-- A command that leaves nothing to take out of the index. -/
lemma send_clean {f : Holds.Reply → Option α} (hK : Kept G I) (hc : Clean pid i h) (ha : Allowed pid i h command)
    (hw : ∀ (w : Watch) reply, w.stale = [] → (w.event (.commit pid i command reply)).stale = []) :
    store.Keeps G I pid i (fun g _ => Clean pid i g) (Operation.send command f) h :=
  (send_keeps hK hc.inFlight ha).weaken (fun _ _ ⟨_, hs, _⟩ => hs.clean hc (fun w => hw w _))

end Rules

/-! ### The operations -/

lemma fields?_eq_some {reply : Holds.Reply} {fields : Hash} (h : reply.fields? = some fields) :
    reply = .fields fields := by
  cases reply <;> cases h
  rfl

lemma members?_eq_some {reply : Holds.Reply} {units : List Uuid} (h : reply.members? = some units) :
    reply = .members units := by
  cases reply <;> cases h
  rfl

lemma int?_eq_some {reply : Holds.Reply} {n : Nat} (h : reply.int? = some n) : reply = .int n := by
  cases reply <;> cases h
  rfl

section Operations

variable {G : Redis → List Holds.Event → Holds.Event → Prop} {I : Redis → List Holds.Event → Prop} {pid : Nat}
  {i : Holds.Request} {h : List Holds.Event}

/-- Nothing is left to take out of the index, whatever the operation returned. -/
def Tidy (pid : Nat) (i : Holds.Request) {α : Type} (g : List Holds.Event) (_ : Except Unit α) : Prop := Clean pid i g

lemma acquire_keeps {trip unit : Uuid} {span : SegmentSpan} {ttl : Nat} (hi : acquires i = true) (hK : Kept G I)
    (hc : Clean pid i h) :
    store.Keeps G I pid i (Tidy pid i) (HoldStore.acquire trip unit span ttl) h := by
  unfold HoldStore.acquire
  refine Site.keeps_seq (R := fun g _ => Clean pid i g) (newV4_keeps hK hc.inFlight ?_) (fun holdId h₁ hc => ?_)
    (fun _ _ hc _ hg => hc.later hg)
  · intro id g hg g' hg'
    exact Clean.later ⟨(hc.inFlight.later hg).call, by rw [watch_own pid g rfl, watch_later hg]; exact hc.stale⟩ hg'
  refine Site.keeps_seq (send_keeps hK hc.inFlight trivial) (fun now h₂ hs => ?_)
    (fun _ _ hs _ hg => ?_)
  · obtain ⟨reply, hs, hnow⟩ := hs
    have hreply : reply = .int now := int?_eq_some ((hnow now).mp rfl)
    subst hreply
    have hc₂ := hs.clean hc (fun w hw => hw)
    refine Site.keeps_seq (send_clean hK hc₂ ⟨hi, hs.mem, ⟨span, rfl, rfl⟩, rfl, hc₂.stale⟩ (fun w _ hw => hw))
      (fun admitted h₃ hc₃ => ?_) (fun _ _ hc _ hg => hc.later hg)
    split
    · refine Site.keeps_seq (send_clean hK hc₃ trivial (fun w _ hw => hw)) (fun _ h₄ hc₄ => ?_)
        (fun _ _ hc _ hg => hc.later hg)
      exact task_pure (fun _ hg => hc₄.later hg)
    · exact task_pure (fun _ hg => hc₃.later hg)
  · obtain ⟨reply, hs, -⟩ := hs
    refine (hs.clean hc (fun w hw => ?_)).later hg
    cases reply <;> exact hw

lemma release_keeps {holdId : Uuid} (hK : Kept G I) (hc : Clean pid i h) :
    store.Keeps G I pid i (Tidy pid i) (HoldStore.release holdId) h := by
  unfold HoldStore.release
  refine Site.keeps_seq (send_clean hK hc trivial (fun w _ hw => hw)) (fun seat h₁ hc₁ => ?_)
    (fun _ _ hc _ hg => hc.later hg)
  cases seat with
  | none => exact task_pure (fun _ hg => hc₁.later hg)
  | some seat =>
    obtain ⟨trip, unit⟩ := seat
    refine Site.keeps_seq (send_clean hK hc₁ trivial (fun w _ hw => hw)) (fun _ h₂ hc₂ => ?_)
      (fun _ _ hc _ hg => hc.later hg)
    refine Site.keeps_seq (send_keeps hK hc₂.inFlight trivial) (fun remaining h₃ hs => ?_) (fun _ _ hs _ hg => ?_)
    · obtain ⟨reply, hs, hremaining⟩ := hs
      have hreply : reply = .int remaining := int?_eq_some ((hremaining remaining).mp rfl)
      subst hreply
      have hf₃ := hs.inFlight hc₂.inFlight
      have hw₃ := hs.watch
      have hlast : ∀ g, Clean pid i g → store.Keeps G I pid i (Tidy pid i)
          (do Operation.send (.delRegistry holdId) Reply.ok?; return true : Operation Bool) g := by
        intro g hc
        refine Site.keeps_seq (send_clean hK hc trivial (fun w _ hw => hw)) (fun _ g hc => ?_)
          (fun _ _ hc _ hg => hc.later hg)
        exact task_pure (fun _ hg => hc.later hg)
      by_cases hzero : remaining = 0
      · rw [if_pos hzero]
        subst hzero
        have hstale : (watch pid h₃).stale = [(trip, unit)] := by
          rw [hs.watch, Watch.event, hc₂.stale]
        have hallowed : Allowed pid i h₃ (.srem trip [unit]) := by
          intro u hu
          rw [List.mem_singleton.mp hu, hstale]
          exact List.mem_singleton_self _
        refine Site.keeps_seq (R := fun g _ => Clean pid i g)
          ((send_keeps hK hf₃ hallowed).weaken (fun g _ ⟨reply, hs₄, _⟩ => ⟨hs₄.inFlight hf₃, ?_⟩))
          (fun _ g hc => hlast g hc) (fun _ _ hc _ hg => hc.later hg)
        rw [hs₄.watch, Watch.event, hstale]
        simp
      · rw [if_neg hzero]
        refine hlast h₃ ⟨hf₃, ?_⟩
        rw [hs.watch]
        cases remaining with
        | zero => exact absurd rfl hzero
        | succ n => exact hc₂.stale
    · obtain ⟨reply, hs, hremaining⟩ := hs
      refine (hs.clean hc₂ (fun w hw => ?_)).later hg
      cases reply with
      | int n => exact absurd ((hremaining n).mpr rfl) (by simp)
      | _ => exact hw

lemma rollBack_keeps {acquired : List (Uuid × Uuid × Uuid)} (hK : Kept G I) (hc : Clean pid i h) :
    store.Keeps G I pid i (Tidy pid i) (HoldStore.rollBack acquired) h := by
  induction acquired generalizing h with
  | nil => exact task_pure (fun _ hg => hc.later hg)
  | cons seat rest ih =>
    refine Site.keeps_seq (R := Tidy pid i) (ignore_keeps (release_keeps hK hc) (fun _ _ hc _ hg => Clean.later hc hg))
      (fun _ _ hc => ih hc) (fun _ _ hc _ hg => Clean.later hc hg)

lemma acquireSeats_keeps {ttl : Nat} {seats : List (Uuid × Uuid × SegmentSpan)} {acquired : List (Uuid × Uuid × Uuid)}
    (hi : acquires i = true) (hK : Kept G I) (hc : Clean pid i h) :
    store.Keeps G I pid i (Tidy pid i) (HoldStore.acquireSeats ttl seats acquired) h := by
  induction seats generalizing acquired h with
  | nil => exact task_pure (fun _ hg => hc.later hg)
  | cons seat rest ih =>
    obtain ⟨trip, unit, span⟩ := seat
    refine Site.keeps_seq (acquire_keeps hi hK hc) (fun hold g hc => ?_) (fun _ _ hc _ hg => Clean.later hc hg)
    cases hold with
    | some hold => exact ih hc
    | none =>
      refine Site.keeps_seq (rollBack_keeps hK hc) (fun _ g hc => ?_) (fun _ _ hc _ hg => Clean.later hc hg)
      exact task_pure (fun _ hg => Clean.later hc hg)

lemma acquireItinerary_keeps {seats : List (Uuid × Uuid × SegmentSpan)} {ttl : Nat} (hi : acquires i = true)
    (hK : Kept G I) (hc : Clean pid i h) : store.Keeps G I pid i (Tidy pid i) (HoldStore.acquireItinerary seats ttl) h := by
  unfold HoldStore.acquireItinerary
  refine Site.keeps_seq (R := Tidy pid i) (newV4_keeps hK hc.inFlight (fun id g hg g' hg' => ?_)) (fun groupId h₁ hc => ?_)
    (fun _ _ hc _ hg => Clean.later hc hg)
  · exact Clean.later ⟨(hc.inFlight.later hg).call, by rw [watch_own pid g rfl, watch_later hg]; exact hc.stale⟩ hg'
  refine Site.keeps_seq (acquireSeats_keeps hi hK hc) (fun acquired h₂ hc => ?_) (fun _ _ hc _ hg => Clean.later hc hg)
  cases acquired with
  | none => exact task_pure (fun _ hg => Clean.later hc hg)
  | some acquired =>
    refine Site.keeps_seq (send_clean hK hc trivial (fun w _ hw => hw)) (fun _ h₃ hc => ?_)
      (fun _ _ hc _ hg => hc.later hg)
    refine Site.keeps_seq (send_clean hK hc trivial (fun w reply hw => ?_)) (fun now h₄ hc => ?_)
      (fun _ _ hc _ hg => hc.later hg)
    · cases reply <;> exact hw
    · exact task_pure (fun _ hg => hc.later hg)

lemma releaseSeats_keeps {members : List (Uuid × Uuid × Uuid)} (hK : Kept G I) (hc : Clean pid i h) :
    store.Keeps G I pid i (Tidy pid i) (HoldStore.releaseSeats members) h := by
  induction members generalizing h with
  | nil => exact task_pure (fun _ hg => hc.later hg)
  | cons seat rest ih =>
    exact Site.keeps_seq (release_keeps hK hc) (fun _ _ hc => ih hc) (fun _ _ hc _ hg => Clean.later hc hg)

lemma releaseItinerary_keeps {holdId : Uuid} (hK : Kept G I) (hc : Clean pid i h) :
    store.Keeps G I pid i (Tidy pid i) (HoldStore.releaseItinerary holdId) h := by
  unfold HoldStore.releaseItinerary
  refine Site.keeps_seq (send_clean hK hc trivial (fun w _ hw => hw)) (fun members h₁ hc => ?_)
    (fun _ _ hc _ hg => hc.later hg)
  cases members with
  | none => exact task_pure (fun _ hg => hc.later hg)
  | some members =>
    refine Site.keeps_seq (releaseSeats_keeps hK hc) (fun _ h₂ hc => ?_) (fun _ _ hc _ hg => Clean.later hc hg)
    refine Site.keeps_seq (send_clean hK hc trivial (fun w _ hw => hw)) (fun _ h₃ hc => ?_)
      (fun _ _ hc _ hg => hc.later hg)
    exact task_pure (fun _ hg => hc.later hg)

/-- Where a unit of the trip ended up once its hash was read at `now`. -/
def Sorted (pid : Nat) (i : Holds.Request) (trip : Uuid) (now : Nat) (live : List (Uuid × BitVec 64))
    (g : List Holds.Event) (unit : Uuid) : Prop :=
  unit ∈ live.map Prod.fst ∨
    ∃ fields, .commit pid i (.hgetall trip unit) (.fields fields) ∈ g ∧ HoldStore.liveUnion now fields = 0#64

/-- What reading the units of a trip at `now` has shown. -/
structure ReadOut (pid : Nat) (i : Holds.Request) (trip : Uuid) (now : Nat) (units : List Uuid) (h g : List Holds.Event)
    (r : Except Unit (List (Uuid × BitVec 64) × List Uuid)) : Prop where
  inFlight : InFlight pid i g
  grown : h <+: g
  clock : (watch pid g).clock = now
  kept : ∀ u ∈ (watch pid h).stale, u ∈ (watch pid g).stale
  stale : ∀ live stale, r = .ok (live, stale) → ∀ unit ∈ stale, (trip, unit) ∈ (watch pid g).stale
  sorted : ∀ live stale, r = .ok (live, stale) → ∀ unit ∈ units, Sorted pid i trip now live g unit

lemma ReadOut.later {trip : Uuid} {now : Nat} {units : List Uuid} {g g' : List Holds.Event}
    {r : Except Unit (List (Uuid × BitVec 64) × List Uuid)} (hr : ReadOut pid i trip now units h g r)
    (hl : Site.Later pid g g') : ReadOut pid i trip now units h g' r where
  inFlight := hr.inFlight.later hl
  grown := hr.grown.trans hl.extends
  clock := by rw [watch_later hl]; exact hr.clock
  kept u hu := by rw [watch_later hl]; exact hr.kept u hu
  stale live stale he unit hu := by rw [watch_later hl]; exact hr.stale live stale he unit hu
  sorted live stale he unit hu := by
    rcases hr.sorted live stale he unit hu with h | ⟨fields, hm, h0⟩
    · exact .inl h
    · exact .inr ⟨fields, hl.mem hm, h0⟩

lemma readUnits_keeps {trip : Uuid} {now : Nat} {units : List Uuid} (hK : Kept G I) (hf : InFlight pid i h)
    (hw : (watch pid h).clock = now) :
    store.Keeps G I pid i (ReadOut pid i trip now units h) (HoldStore.readUnits trip now units) h := by
  induction units generalizing h with
  | nil =>
    have hnil : ReadOut pid i trip now [] h h (.ok ([], [])) :=
      ⟨hf, List.prefix_refl h, hw, fun _ hu => hu, fun live stale he => by cases he; simp, by simp⟩
    exact task_pure (fun _ hg => hnil.later hg)
  | cons unit rest ih =>
    unfold HoldStore.readUnits
    refine Site.keeps_seq (send_keeps hK hf trivial) (fun fields h₁ ⟨reply, hs, hfields⟩ => ?_)
      (fun _ g ⟨reply, hs, hfields⟩ _ hg => ?_)
    · have hreply : reply = .fields fields := fields?_eq_some ((hfields fields).mp rfl)
      subst hreply
      have hclock₁ : (watch pid h₁).clock = now := by
        rw [hs.watch, Watch.event]
        split <;> exact hw
      have hkept₁ : ∀ u ∈ (watch pid h).stale, u ∈ (watch pid h₁).stale := by
        intro u hu
        rw [hs.watch, Watch.event]
        split
        · exact List.mem_cons_of_mem _ hu
        · exact hu
      refine Site.keeps_seq (ih (hs.inFlight hf) hclock₁) (fun out h₂ hr => ?_) (fun _ _ hr _ hg => ?_)
      · obtain ⟨live, stale⟩ := out
        have hout : ∀ live' stale', (∀ u ∈ stale', u ∈ stale ∨ u = unit ∧ HoldStore.liveUnion now fields = 0#64) →
            (∀ u ∈ live.map Prod.fst, u ∈ live'.map Prod.fst) →
            (unit ∈ live'.map Prod.fst ∨ HoldStore.liveUnion now fields = 0#64) →
            ReadOut pid i trip now (unit :: rest) h h₂ (.ok (live', stale')) := by
          intro live' stale' hstale hlive hunit
          refine ⟨hr.inFlight, hs.extends.trans hr.grown, hr.clock, fun u hu => hr.kept u (hkept₁ u hu), ?_, ?_⟩
          · intro _ _ he u hu
            cases he
            rcases hstale u hu with hu | ⟨rfl, h0⟩
            · exact hr.stale live stale rfl u hu
            · refine hr.kept _ ?_
              rw [hs.watch, Watch.event, hw, if_pos h0]
              exact List.mem_cons_self
          · intro _ _ he u hu
            cases he
            rcases List.mem_cons.mp hu with rfl | hu
            · rcases hunit with hl | h0
              · exact .inl hl
              · exact .inr ⟨fields, hr.grown.subset hs.mem, h0⟩
            · rcases hr.sorted live stale rfl u hu with hl | hd
              · exact .inl (hlive u hl)
              · exact .inr hd
        by_cases h0 : HoldStore.liveUnion now fields = 0#64
        · simp only [if_pos h0]
          refine task_pure (fun _ hg => (hout live (unit :: stale) (fun u hu => ?_) (fun _ hu => hu) (.inr h0)).later hg)
          rcases List.mem_cons.mp hu with rfl | hu
          · exact .inr ⟨rfl, h0⟩
          · exact .inl hu
        · simp only [if_neg h0]
          refine task_pure (fun _ hg =>
            (hout ((unit, _) :: live) stale (fun u hu => .inl hu) (fun u hu => ?_) (.inl ?_)).later hg)
          · exact List.mem_cons_of_mem _ hu
          · exact List.mem_cons_self
      · exact (ReadOut.mk hr.inFlight (hs.extends.trans hr.grown) hr.clock (fun u hu => hr.kept u (hkept₁ u hu))
          (fun _ _ he => by cases he) (fun _ _ he => by cases he)).later hg
    · have hevent : (watch pid h).event (.commit pid i (.hgetall trip unit) reply) = watch pid h := by
        cases reply with
        | fields fields => exact absurd ((hfields fields).mpr rfl) (by simp)
        | _ => rfl
      refine (ReadOut.mk (hs.inFlight hf) hs.extends (by rw [hs.watch, hevent]; exact hw)
        (fun u hu => by rw [hs.watch, hevent]; exact hu) (fun _ _ he => by cases he)
        (fun _ _ he => by cases he)).later hg

/-- What a list of live units stands for: the index and the hashes, as they were read. -/
def Listed (pid : Nat) (i : Holds.Request) (trip : Uuid) (live : List (Uuid × BitVec 64)) (g : List Holds.Event) : Prop :=
  ∃ members now, .commit pid i (.smembers trip) (.members members) ∈ g ∧ .commit pid i .clock (.int now) ∈ g ∧
    ∀ unit ∈ members, Sorted pid i trip now live g unit

lemma Listed.later {trip : Uuid} {live : List (Uuid × BitVec 64)} {g g' : List Holds.Event}
    (hl : Listed pid i trip live g) (hp : g <+: g') : Listed pid i trip live g' := by
  obtain ⟨members, now, hm, hn, hs⟩ := hl
  refine ⟨members, now, hp.subset hm, hp.subset hn, fun unit hu => ?_⟩
  rcases hs unit hu with hl | ⟨fields, hf, h0⟩
  · exact .inl hl
  · exact .inr ⟨fields, hp.subset hf, h0⟩

/-- What the number of held units stands for. -/
def Counted (pid : Nat) (i : Holds.Request) (trip : Uuid) (n : Nat) (g : List Holds.Event) : Prop :=
  .commit pid i (.scard trip) (.int n) ∈ g ∨ ∃ live, Listed pid i trip live g ∧ n = live.length

lemma liveHeldUnits_keeps {trip : Uuid} (hK : Kept G I) (hf : InFlight pid i h) :
    store.Keeps G I pid i (fun g r => InFlight pid i g ∧ ∀ live, r = .ok live → Listed pid i trip live g)
      (HoldStore.liveHeldUnits trip) h := by
  unfold HoldStore.liveHeldUnits
  refine Site.keeps_seq (send_keeps hK hf trivial) (fun members h₁ ⟨reply, hs, hmembers⟩ => ?_)
    (fun _ _ ⟨_, hs, _⟩ _ hg => ⟨(hs.inFlight hf).later hg, fun _ he => by cases he⟩)
  have hreply : reply = .members members := members?_eq_some ((hmembers members).mp rfl)
  subst hreply
  have hf₁ := hs.inFlight hf
  refine Site.keeps_seq (send_keeps hK hf₁ trivial) (fun now h₂ ⟨reply, hs₂, hnow⟩ => ?_)
    (fun _ _ ⟨_, hs, _⟩ _ hg => ⟨(hs.inFlight hf₁).later hg, fun _ he => by cases he⟩)
  have hreply : reply = .int now := int?_eq_some ((hnow now).mp rfl)
  subst hreply
  have hf₂ := hs₂.inFlight hf₁
  have hclock : (watch pid h₂).clock = now := by
    rw [hs₂.watch, Watch.event]
  refine Site.keeps_seq (readUnits_keeps hK hf₂ hclock) (fun out h₃ hr => ?_)
    (fun _ _ hr _ hg => ⟨hr.inFlight.later hg, fun _ he => by cases he⟩)
  obtain ⟨live, stale⟩ := out
  have hlisted : Listed pid i trip live h₃ :=
    ⟨members, now, (hs₂.extends.trans hr.grown).subset hs.mem, hr.grown.subset hs₂.mem, hr.sorted live stale rfl⟩
  by_cases hstale : (!stale.isEmpty) = true
  · simp only [if_pos hstale]
    have hallowed : Allowed pid i h₃ (.srem trip stale) := hr.stale live stale rfl
    refine Site.keeps_seq (send_keeps hK hr.inFlight hallowed) (fun _ h₄ ⟨_, hs₄, _⟩ => ?_)
      (fun _ _ ⟨_, hs, _⟩ _ hg => ⟨(hs.inFlight hr.inFlight).later hg, fun _ he => by cases he⟩)
    refine task_pure (fun g hg => ⟨(hs₄.inFlight hr.inFlight).later hg, fun live' he => ?_⟩)
    cases he
    exact hlisted.later (hs₄.extends.trans hg.extends)
  · simp only [if_neg hstale]
    refine task_pure (fun g hg => ⟨hr.inFlight.later hg, fun live' he => ?_⟩)
    cases he
    exact hlisted.later hg.extends

lemma heldUnits_keeps {trip : Uuid} {span : SegmentSpan} (hK : Kept G I) (hf : InFlight pid i h) :
    store.Keeps G I pid i (fun g _ => InFlight pid i g) (HoldStore.heldUnits trip span) h := by
  unfold HoldStore.heldUnits
  refine Site.keeps_seq (liveHeldUnits_keeps hK hf) (fun _ g hr => ?_) (fun _ _ hr _ hg => hr.1.later hg)
  exact task_pure (fun _ hg => hr.1.later hg)

lemma heldUnitCount_keeps {trip : Uuid} {accurateAbove : Nat} (hK : Kept G I) (hf : InFlight pid i h) :
    store.Keeps G I pid i (fun g r => InFlight pid i g ∧ ∀ n, r = .ok n → Counted pid i trip n g)
      (HoldStore.heldUnitCount trip accurateAbove) h := by
  unfold HoldStore.heldUnitCount
  refine Site.keeps_seq (send_keeps hK hf trivial) (fun approximate h₁ ⟨reply, hs, hn⟩ => ?_)
    (fun _ _ ⟨_, hs, _⟩ _ hg => ⟨(hs.inFlight hf).later hg, fun _ he => by cases he⟩)
  have hreply : reply = .int approximate := int?_eq_some ((hn approximate).mp rfl)
  subst hreply
  have hf₁ := hs.inFlight hf
  split
  · refine task_pure (fun g hg => ⟨hf₁.later hg, fun n he => ?_⟩)
    cases he
    exact .inl (hg.mem hs.mem)
  · refine Site.keeps_seq (liveHeldUnits_keeps hK hf₁) (fun live h₂ ⟨hf₂, hl⟩ => ?_)
      (fun _ _ hr _ hg => ⟨hr.1.later hg, fun _ he => by cases he⟩)
    refine task_pure (fun g hg => ⟨hf₂.later hg, fun n he => ?_⟩)
    cases he
    exact .inr ⟨live, (hl live rfl).later hg.extends, rfl⟩

/-- What an answer stands for. -/
structure Reported (pid : Nat) (i : Holds.Request) (g : List Holds.Event) (a : Except Unit Holds.Response) : Prop where
  inFlight : InFlight pid i g
  listed : ∀ trip live, i = .liveHeldUnits trip → a = .ok (.live live) → Listed pid i trip live g
  counted : ∀ trip accurateAbove n, i = .heldUnitCount trip accurateAbove → a = .ok (.count n) → Counted pid i trip n g

/-- The rule for the operations: an invariant that every allowed command keeps. -/
theorem operation_keeps (hK : Kept G I) (hc : Clean pid i h) :
    store.Keeps G I pid i (Reported pid i) (store.handler i) h := by
  have htidy : ∀ {α : Type} {x : Operation α} {f : α → Holds.Response},
      (∀ trip, i ≠ .liveHeldUnits trip) → (∀ trip above, i ≠ .heldUnitCount trip above) →
      store.Keeps G I pid i (fun g _ => InFlight pid i g) x h →
      store.Keeps G I pid i (Reported pid i) (f <$> x : Operation Holds.Response) h := by
    intro α x f hlive hcount hx
    exact task_map hx (fun r g hr g' hg => ⟨hr.later hg, fun trip _ he => absurd he (hlive trip),
      fun trip above _ he => absurd he (hcount trip above)⟩)
  cases i with
  | acquire trip unit span ttl =>
    exact htidy (by simp) (by simp) ((acquire_keeps rfl hK hc).weaken (fun _ _ hc => hc.inFlight))
  | release holdId => exact htidy (by simp) (by simp) ((release_keeps hK hc).weaken (fun _ _ hc => hc.inFlight))
  | acquireItinerary seats ttl =>
    exact htidy (by simp) (by simp) ((acquireItinerary_keeps rfl hK hc).weaken (fun _ _ hc => hc.inFlight))
  | releaseItinerary holdId =>
    exact htidy (by simp) (by simp) ((releaseItinerary_keeps hK hc).weaken (fun _ _ hc => hc.inFlight))
  | liveHeldUnits trip =>
    refine task_map (liveHeldUnits_keeps hK hc.inFlight) (fun r g hr g' hg => ⟨hr.1.later hg, ?_, by simp⟩)
    intro trip' live he ha
    cases he
    cases r with
    | error e => cases ha
    | ok live' =>
      cases ha
      exact (hr.2 live rfl).later hg.extends
  | heldUnits trip span => exact htidy (by simp) (by simp) (heldUnits_keeps hK hc.inFlight)
  | heldUnitCount trip accurateAbove =>
    refine task_map (heldUnitCount_keeps hK hc.inFlight) (fun r g hr g' hg => ⟨hr.1.later hg, by simp, ?_⟩)
    intro trip' above n he ha
    cases he
    cases r with
    | error e => cases ha
    | ok n' =>
      cases ha
      rcases hr.2 n rfl with hm | ⟨live, hl, hn⟩
      · exact .inl (hg.mem hm)
      · exact .inr ⟨live, hl.later hg.extends, hn⟩

end Operations

/-! ### Holds on a seat -/

/-- The acquisition a field was stored by. -/
def Acquired (h : List Holds.Event) (trip unit : Uuid) (f : Uuid × String) (exp : Nat) (span : SegmentSpan) : Prop :=
  ∃ pid i now ttl indexTtl, exp = now + ttl ∧ Written f.2 exp span ∧
    .commit pid i (.acquire trip unit now ttl f.1 (maskHi span) (maskLo span) indexTtl) (.int 1) ∈ h

structure HoldsOk (s : Redis) (h : List Holds.Event) : Prop where
  clocks : ∀ pid i n, .commit pid i .clock (.int n) ∈ h → n ≤ s.now
  acquired : ∀ trip unit k, s.units trip unit = some k → ∀ f ∈ k.value,
    ∃ exp span, Acquired h trip unit f exp span ∧ exp ≤ k.expiresAt
  disjoint : ∀ trip unit k, s.units trip unit = some k → ∀ f ∈ k.value, ∀ g ∈ k.value, f.1 ≠ g.1 →
    ∀ exp span exp' span', Written f.2 exp span → Written g.2 exp' span' → span.mask &&& span'.mask = 0#64

section Safety

variable {s : Redis} {h g : List Holds.Event} {trip unit : Uuid}

lemma Acquired.mono {f : Uuid × String} {exp : Nat} {span : SegmentSpan} (ha : Acquired h trip unit f exp span)
    (hp : h <+: g) : Acquired g trip unit f exp span := by
  obtain ⟨pid, i, now, ttl, indexTtl, he, hw, hm⟩ := ha
  exact ⟨pid, i, now, ttl, indexTtl, he, hw, hp.subset hm⟩

lemma HoldsOk.written (hok : HoldsOk s h) {f : Uuid × String} (hf : f ∈ s.hash trip unit) :
    ∃ exp span, Written f.2 exp span := by
  obtain ⟨k, hk, -, hf⟩ := mem_hash.mp hf
  obtain ⟨exp, span, ⟨_, _, _, _, _, _, hw, _⟩, -⟩ := hok.acquired trip unit k hk f hf
  exact ⟨exp, span, hw⟩

lemma HoldsOk.scanned (hok : HoldsOk s h) (trip unit : Uuid) (now ttl : Nat) :
    Scanned now ttl (s.hash trip unit) (scan now ttl (s.hash trip unit)) :=
  Proofs.scanned (fun _ hf => hok.written hf)

lemma HoldsOk.event (hok : HoldsOk s h) {ev : Holds.Event}
    (hc : ∀ pid i n, ev = .commit pid i .clock (.int n) → n ≤ s.now) : HoldsOk s (h ++ [ev]) where
  clocks pid i n hm := by
    rcases List.mem_append.mp hm with hm | hm
    · exact hok.clocks pid i n hm
    · exact hc pid i n (List.mem_singleton.mp hm).symm
  acquired trip unit k hk f hf := by
    obtain ⟨exp, span, ha, he⟩ := hok.acquired trip unit k hk f hf
    exact ⟨exp, span, ha.mono (List.prefix_append _ _), he⟩
  disjoint := hok.disjoint

/-- What the script keeps, next to the hold it admits. -/
lemma HoldsOk.kept_disjoint (hok : HoldsOk s h) {now ttl exp : Nat} {span span' : SegmentSpan} {f : Uuid × String}
    (hadm : admits (scan now ttl (s.hash trip unit)) (maskHi span') (maskLo span') = true)
    (hf : f ∈ (scan now ttl (s.hash trip unit)).kept) (hw : Written f.2 exp span) : span.mask &&& span'.mask = 0#64 := by
  have hscan := hok.scanned trip unit now ttl
  have hunion := liveUnion_and.mp (hscan.admits_iff.mp hadm) f (scan_kept hf)
  rw [hscan.kept] at hf
  have halive := hw.alive.mp (List.mem_filter.mp hf).2
  rwa [hw.liveMask, if_pos halive] at hunion

lemma HoldsOk.exec (hok : HoldsOk s h) {pid : Nat} {i : Holds.Request} {command : Command}
    (ha : Allowed pid i h command) : HoldsOk (command.exec s).2 (h ++ [.commit pid i command (command.exec s).1]) := by
  have hacq : ∀ {trip unit : Uuid} {now ttl : Nat} {holdId : Uuid} {hi lo indexTtl : Nat},
      command = .acquire trip unit now ttl holdId hi lo indexTtl →
      admits (scan now ttl (s.hash trip unit)) hi lo = true →
      now ≤ s.now ∧ (command.exec s).1 = .int 1 ∧ ∃ span, hi = maskHi span ∧ lo = maskLo span := by
    rintro trip unit now ttl holdId hi lo indexTtl rfl hadm
    obtain ⟨-, hclock, hspan, -⟩ := ha
    refine ⟨hok.clocks pid i now hclock, ?_, hspan⟩
    simp only [Command.exec, acquireScript, if_pos hadm]
  constructor
  · intro q j n hm
    rw [exec_now]
    rcases List.mem_append.mp hm with hm | hm
    · exact hok.clocks q j n hm
    · obtain ⟨-, -, hcmd, hr⟩ := Lib.Ev.commit.inj (List.mem_singleton.mp hm)
      subst hcmd
      cases hr
      exact le_refl _
  · intro trip unit k' hk' f hf
    rcases exec_units hk' with ⟨k, hk, hexp, hsub⟩ | ⟨now, ttl, holdId, hi, lo, indexTtl, hcmd, hadm, rfl⟩
    · obtain ⟨exp, span, hacq, he⟩ := hok.acquired trip unit k hk f (hsub hf)
      exact ⟨exp, span, hacq.mono (List.prefix_append _ _), by rw [hexp]; exact he⟩
    · obtain ⟨hnow, hreply, span, rfl, rfl⟩ := hacq hcmd hadm
      have hscan := hok.scanned trip unit now ttl
      rcases mem_hset hf with rfl | ⟨hf, -⟩
      · refine ⟨now + ttl, span, ⟨pid, i, now, ttl, indexTtl, rfl, rfl, ?_⟩, ?_⟩
        · rw [hreply, hcmd]
          exact List.mem_append_right _ (List.mem_singleton_self _)
        · have := hscan.maxExp
          simp only
          omega
      · obtain ⟨k, hk, -, hfk⟩ := mem_hash.mp (scan_kept hf)
        obtain ⟨exp, span', hacq, -⟩ := hok.acquired trip unit k hk f hfk
        refine ⟨exp, span', hacq.mono (List.prefix_append _ _), ?_⟩
        obtain ⟨_, _, _, _, _, _, hw, _⟩ := hacq
        have := hscan.expiries f hf exp span' hw
        simp only
        omega
  · intro trip unit k' hk' f hf g hg hne exp span exp' span' hwf hwg
    rcases exec_units hk' with ⟨k, hk, -, hsub⟩ | ⟨now, ttl, holdId, hi, lo, indexTtl, hcmd, hadm, rfl⟩
    · exact hok.disjoint trip unit k hk f (hsub hf) g (hsub hg) hne exp span exp' span' hwf hwg
    · obtain ⟨-, -, new, rfl, rfl⟩ := hacq hcmd hadm
      have hnew : Written (holdText (now + ttl) (maskHi new) (maskLo new)) (now + ttl) new := rfl
      rcases mem_hset hf with rfl | ⟨hf, -⟩
      · rcases mem_hset hg with rfl | ⟨hg, -⟩
        · exact absurd rfl hne
        · rw [hnew.mask_eq hwf, BitVec.and_comm]
          exact hok.kept_disjoint hadm hg hwg
      · rcases mem_hset hg with rfl | ⟨hg, -⟩
        · rw [hnew.mask_eq hwg]
          exact hok.kept_disjoint hadm hf hwf
        · obtain ⟨k, hk, -, hfk⟩ := mem_hash.mp (scan_kept hf)
          obtain ⟨k₁, hk₁, -, hgk⟩ := mem_hash.mp (scan_kept hg)
          rw [hk] at hk₁
          cases hk₁
          exact hok.disjoint trip unit k hk f hfk g hgk hne exp span exp' span' hwf hwg

lemma HoldsOk.run (hok : HoldsOk s h) {pid : Nat} {i : Holds.Request} {command : Command} (reaches : Bool)
    (ha : Allowed pid i h command) :
    HoldsOk (command.run reaches s).2 (h ++ [.commit pid i command (command.run reaches s).1]) := by
  unfold Command.run
  split
  · exact hok.exec ha
  · refine hok.event (fun q j n he => ?_)
    cases he

lemma HoldsOk.pass (hok : HoldsOk s h) (ms : Nat) : HoldsOk { s with now := s.now + ms } h where
  clocks pid i n hm := le_trans (hok.clocks pid i n hm) (Nat.le_add_right _ _)
  acquired := hok.acquired
  disjoint := hok.disjoint

lemma holdsOk_empty (now : Nat) : HoldsOk (Redis.empty now) [] where
  clocks pid i n hm := by cases hm
  acquired trip unit k hk := by cases hk
  disjoint trip unit k hk := by cases hk

/-- What is left of an acquisition once the script has answered. -/
def afterScript (trip unit : Uuid) (ttl now : Nat) (holdId : Uuid) (reply : Holds.Reply) :
    Prog Redis Command Holds.Reply Unit Uuid (Except Unit Holds.Response) :=
  match reply.int? with
  | none => .ret (.error ())
  | some admitted =>
    if admitted = 1 then
      .tx (.setRegistry holdId trip unit ttl) (fun reply =>
        match reply.ok? with
        | none => .ret (.error ())
        | some _ => .ret (.ok (.hold (some ⟨holdId, now + ttl⟩))))
    else .ret (.ok (.hold none))

lemma acquire_handler (trip unit : Uuid) (span : SegmentSpan) (ttl : Nat) :
    store.handler (.acquire trip unit span ttl) = .call () (fun holdId => .tx .clock (fun reply =>
      match reply.int? with
      | none => .ret (.error ())
      | some now => .tx (.acquire trip unit now ttl holdId (maskHi span) (maskLo span) (ttl * indexTtlMultiplier))
          (afterScript trip unit ttl now holdId))) := by
  change Prog.call () _ = Prog.call () _
  congr 1
  funext holdId
  change Prog.tx Command.clock _ = Prog.tx Command.clock _
  congr 1
  funext reply
  cases reply with
  | int now =>
    change Prog.tx _ _ = Prog.tx _ _
    congr 1
    funext reply
    cases reply with
    | int n =>
      unfold afterScript
      simp only [Reply.int?]
      by_cases hn : n = 1
      · subst hn
        rw [if_pos rfl]
        change Prog.tx _ _ = Prog.tx _ _
        congr 1
        funext reply
        cases reply <;> rfl
      · simp only [Operation.returned, Reply.int?, Prog.bind, ExceptT.bindCont, if_neg hn]
        rfl
    | _ => rfl
  | _ => rfl

/-- An acquisition runs the script for its own span, and then goes on with what it answered. -/
lemma acquire_script {span : SegmentSpan} {ttl now ttl' hi lo indexTtl : Nat} {t u holdId : Uuid}
    {k : Holds.Reply → Prog Redis Command Holds.Reply Unit Uuid (Except Unit Holds.Response)}
    (hr : Prog.Residual (store.handler (.acquire trip unit span ttl))
      (.tx (.acquire t u now ttl' holdId hi lo indexTtl) k)) :
    (t = trip ∧ u = unit ∧ hi = maskHi span ∧ lo = maskLo span) ∧ k = afterScript trip unit ttl now holdId := by
  rw [acquire_handler] at hr
  obtain he | ⟨id, hr⟩ := Prog.residual_call hr
  · cases he
  obtain he | ⟨reply, hr⟩ := Prog.residual_tx hr
  · cases he
  cases reply with
  | int n =>
    obtain he | ⟨reply, hr⟩ := Prog.residual_tx hr
    · cases he
      exact ⟨⟨rfl, rfl, rfl, rfl⟩, rfl⟩
    · unfold afterScript at hr
      split at hr
      · cases Prog.residual_ret hr
      · split at hr
        · obtain he | ⟨reply, hr⟩ := Prog.residual_tx hr
          · cases he
          · split at hr <;> cases Prog.residual_ret hr
        · cases Prog.residual_ret hr
  | _ => cases Prog.residual_ret hr

lemma holdsOk_protocol (G : Redis → List Holds.Event → Holds.Event → Prop) :
    Site.Protocol store G HoldsOk Reported where
  env s _ ms hok := hok.pass ms
  answer _ _ _ _ _ hok _ _ := hok.event (by simp)
  arrive s h i hok hpids _ := by
    have hK : Kept G HoldsOk :=
      ⟨fun _ _ _ reaches _ _ _ ha hok _ => hok.run reaches ha, fun _ _ _ _ _ _ hok => hok.event (by simp)⟩
    exact ⟨hok.event (by simp), operation_keeps hK (clean_arrive i (fun ev he => (hpids ev he).ne))⟩

/-- In every state any interleaving of the operations reaches: the holds stored for a unit do
not overlap, each comes from an acquisition and is there until its own expiry as far as its key
is concerned, and an acquisition that runs its script answers that the span is held exactly
where the reader of the seat map, at the same clock value, sees a live hold on it. -/
theorem holds_disjoint {start : Nat}
    {c : Conf Holds.Request Redis Command Holds.Reply Unit Uuid (Except Unit Holds.Response)}
    (hc : store.Reachable (Site.init (Redis.empty start)) c) (trip unit : Uuid) :
    (∀ f ∈ c.store.stored trip unit, ∀ g ∈ c.store.stored trip unit, f.1 ≠ g.1 →
      ∀ exp span exp' span', Written f.2 exp span → Written g.2 exp' span' → span.mask &&& span'.mask = 0#64) ∧
    (∀ f ∈ c.store.stored trip unit, ∃ exp span, Acquired c.trace trip unit f exp span ∧
      (c.store.now < exp → f ∈ c.store.hash trip unit)) ∧
    (∀ (span : SegmentSpan) (now ttl indexTtl : Nat) (holdId : Uuid),
      (Command.exec c.store (.acquire trip unit now ttl holdId (maskHi span) (maskLo span) indexTtl)).1 = .int 0 ↔
        HoldStore.liveUnion now (c.store.hash trip unit) &&& span.mask ≠ 0#64) ∧
    ∀ pid span ttl t u now ttl' holdId hi lo indexTtl k,
      c.procs pid = some (.acquire trip unit span ttl, .tx (.acquire t u now ttl' holdId hi lo indexTtl) k) →
      (k (Command.exec c.store (.acquire t u now ttl' holdId hi lo indexTtl)).1 = .ret (.ok (.hold none)) ↔
        HoldStore.liveUnion now (c.store.hash trip unit) &&& span.mask ≠ 0#64) := by
  obtain ⟨hok, -, -⟩ := (holdsOk_protocol _).invariant (holdsOk_empty start) hc
  have hkey : ∀ f ∈ c.store.stored trip unit, ∃ key, c.store.units trip unit = some key ∧ f ∈ key.value := by
    intro f hf
    unfold Redis.stored at hf
    cases hu : c.store.units trip unit with
    | none =>
      rw [hu] at hf
      cases hf
    | some key =>
      rw [hu] at hf
      exact ⟨key, rfl, hf⟩
  have hscript : ∀ (span : SegmentSpan) (now ttl indexTtl : Nat) (holdId : Uuid),
      (Command.exec c.store (.acquire trip unit now ttl holdId (maskHi span) (maskLo span) indexTtl)).1 =
        .int (if HoldStore.liveUnion now (c.store.hash trip unit) &&& span.mask = 0#64 then 1 else 0) := by
    intro span now ttl indexTtl holdId
    have hiff : admits (scan now ttl (c.store.hash trip unit)) (maskHi span) (maskLo span) = true ↔ _ :=
      (hok.scanned trip unit now ttl).admits_iff
    simp only [Command.exec, acquireScript]
    by_cases hadm : admits (scan now ttl (c.store.hash trip unit)) (maskHi span) (maskLo span) = true
    · rw [if_pos hadm, if_pos (hiff.mp hadm)]
    · rw [if_neg hadm, if_neg (fun h => hadm (hiff.mpr h))]
  refine ⟨?_, ?_, ?_, ?_⟩
  · intro f hf g hg
    obtain ⟨key, hu, hfk⟩ := hkey f hf
    obtain ⟨key', hu', hgk⟩ := hkey g hg
    rw [hu] at hu'
    cases hu'
    exact hok.disjoint trip unit key hu f hfk g hgk
  · intro f hf
    obtain ⟨key, hu, hfk⟩ := hkey f hf
    obtain ⟨exp, span, hacq, hexp⟩ := hok.acquired trip unit key hu f hfk
    exact ⟨exp, span, hacq, fun hnow => mem_hash.mpr ⟨key, hu, by omega, hfk⟩⟩
  · intro span now ttl indexTtl holdId
    rw [hscript]
    by_cases h : HoldStore.liveUnion now (c.store.hash trip unit) &&& span.mask = 0#64
    · simp [h]
    · simp [h]
  · intro pid span ttl t u now ttl' holdId hi lo indexTtl k hp
    obtain ⟨⟨rfl, rfl, rfl, rfl⟩, rfl⟩ := acquire_script (Site.residual hc hp)
    rw [hscript]
    by_cases h : HoldStore.liveUnion now (c.store.hash t u) &&& span.mask = 0#64
    · rw [if_pos h]
      exact ⟨fun he => (by cases he), fun hne => absurd h hne⟩
    · rw [if_neg h]
      exact ⟨fun _ => h, fun _ => rfl⟩

/-- The command an operation is about to send. -/
def nextCommand (p : Option (Holds.Request × Prog Redis Command Holds.Reply Unit Uuid (Except Unit Holds.Response))) :
    Option (Holds.Request × Command) :=
  match p with
  | some (i, .tx command _) => some (i, command)
  | _ => none

lemma nextCommand_eq_some {p : Option (Holds.Request × Prog Redis Command Holds.Reply Unit Uuid (Except Unit Holds.Response))}
    {i : Holds.Request} {command : Command} (h : nextCommand p = some (i, command)) :
    ∃ k, p = some (i, .tx command k) := by
  unfold nextCommand at h
  split at h
  · cases h
    exact ⟨_, rfl⟩
  · cases h

/-- Two passengers over the segments 31 to 33 and 32 to 64: the second one's script is refused. -/
theorem holds_disjoint_harbour : ∃ (span : SegmentSpan)
    (c : Conf Holds.Request Redis Command Holds.Reply Unit Uuid (Except Unit Holds.Response)) (k : _),
    store.Reachable (Site.init (Redis.empty 5)) c ∧
    c.procs 6 = some (.acquire 1 7 span 30000,
      .tx (.acquire 1 7 5 30000 200 (maskHi span) (maskLo span) 120000) k) ∧
    k (Command.exec c.store (.acquire 1 7 5 30000 200 (maskHi span) (maskLo span) 120000)).1 =
      .ret (.ok (.hold none)) := by
  let span : SegmentSpan := ⟨32, 64, by decide, by decide⟩
  have hrun : (store.exec (Site.init (Redis.empty 5))
      [.arrive (.acquire 1 7 ⟨31, 33, by decide, by decide⟩ 30000), .reply 0 100, .commit 0 true, .commit 0 true,
        .commit 0 true, .answer 0, .arrive (.acquire 1 7 span 30000), .reply 6 200, .commit 6 true]).map
      (fun c => (nextCommand (c.procs 6), HoldStore.liveUnion 5 (c.store.hash 1 7))) =
        some (some (.acquire 1 7 span 30000, .acquire 1 7 5 30000 200 (maskHi span) (maskLo span) 120000),
          0x180000000#64) := by decide
  obtain ⟨c, hc, hnext⟩ := Option.map_eq_some_iff.mp hrun
  obtain ⟨hnext, hunion⟩ := Prod.mk.inj hnext
  obtain ⟨k, hk⟩ := nextCommand_eq_some hnext
  have hreach := Site.reachable_of_exec hc
  refine ⟨span, c, k, hreach, hk, ?_⟩
  obtain ⟨-, -, -, hrefused⟩ := holds_disjoint hreach 1 7
  refine (hrefused 6 span 30000 1 7 5 30000 200 _ _ _ k hk).mpr ?_
  rw [hunion]
  decide

end Safety

end Lulan.Proofs
