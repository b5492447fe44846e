import Mathlib.Data.Set.Card
import Lulan.Api.Holds
import Lulan.Proofs.Itineraries
import Lulan.Proofs.Quotes

/-!
# The ceiling on held seats

Who is refused because too much of a trip is held, against the number of its seats that carry
an unexpired hold. Below the ceiling the size of the index is believed as it is; with the seats
asked for added to it, its stale members can tip the scale.
-/

namespace Lulan.Proofs

open Lulan Lulan.Holds Lulan.Reservations Lib
open scoped ENat

/-- The seats of a trip with an unexpired hold. -/
def heldSeats (s : Redis) (trip : Uuid) : Set Uuid := { unit | ∃ exp, Unexpired s trip unit exp }

/-! ### Counting -/

/-- A store some time later, where only the indexes of trips that have been counted may have
changed. -/
structure Measured (s : Redis) (counted : List Uuid) (s' : Redis) : Prop where
  now : s.now ≤ s'.now
  units : s'.units = s.units
  sane : Sane s'
  index : ∀ trip, trip ∉ counted → s'.index trip = s.index trip

section Counting

variable {s s₁ s' : Redis} {counted : List Uuid} {trip unit : Uuid} {tr : Trace} {now ms : Nat}

lemma measured_self (hs : Sane s) : Measured s [] s := ⟨le_rfl, rfl, hs, fun _ _ => rfl⟩

lemma Measured.later (hm : Measured s counted s₁) (ms : Nat) : Measured s counted (later s₁ ms) :=
  ⟨le_trans hm.now (Nat.le_add_right _ _), hm.units, hm.sane.pass ms, hm.index⟩

lemma Measured.counts (hm : Measured s counted s₁) (trip : Uuid) : Measured s (trip :: counted) s₁ :=
  ⟨hm.now, hm.units, hm.sane, fun t ht => hm.index t (fun h => ht (List.mem_cons_of_mem _ h))⟩

/-- The index of a trip that has not been counted is the one at first, unless it has expired. -/
lemma Measured.members (hm : Measured s counted s₁) (ht : trip ∉ counted) :
    s₁.members trip = s.members trip ∨ s₁.members trip = [] := by
  unfold Redis.members
  rw [hm.index trip ht]
  cases hg : Key.get s₁.now (s.index trip) with
  | none => exact .inr rfl
  | some units =>
    obtain ⟨k, hk, hexp, rfl⟩ := get_eq_some.mp hg
    have hnow := hm.now
    rw [get_eq_some.mpr ⟨k, hk, by omega, rfl⟩]
    exact .inl rfl

lemma liveUnion_ne_zero {fields : Hash} (h : HoldStore.liveUnion now fields ≠ 0#64) :
    ∃ f ∈ fields, HoldStore.liveMask now f.2 ≠ 0#64 := by
  by_contra hall
  apply h
  have hand : HoldStore.liveUnion now fields &&& BitVec.allOnes 64 = 0#64 := liveUnion_and.mpr (fun f hf => by
    rw [BitVec.and_allOnes]
    by_contra hne
    exact hall ⟨f, hf, hne⟩)
  rwa [BitVec.and_allOnes] at hand

/-- A unit that is counted as held carries an unexpired hold. -/
lemma Measured.mem_heldSeats (hm : Measured s counted s₁) (hnow : s.now ≤ now)
    (h : HoldStore.liveUnion now (s₁.hash trip unit) ≠ 0#64) : unit ∈ heldSeats s trip := by
  obtain ⟨f, hf, hlive⟩ := liveUnion_ne_zero h
  obtain ⟨k, hk, hexp, hfk⟩ := mem_hash.mp hf
  obtain ⟨exp, span, hw, -⟩ := hm.sane.written trip unit k hk f hfk
  rw [hw.liveMask] at hlive
  have hlt : now < exp := by
    by_contra hge
    exact hlive (if_neg (fun hc => hge hc.2))
  rw [hm.units] at hk
  have hle := hm.now
  exact ⟨exp, by omega, f, mem_hash.mpr ⟨k, hk, by omega, hfk⟩, span, hw⟩

/-- What the readings of the units leave, and what they find. -/
lemma performs_readUnits {units : List Uuid} {r : Except Unit (List (Uuid × BitVec 64) × List Uuid)}
    (hm : Measured s counted s₁) (hnow : s.now ≤ now)
    (h : Performs (HoldStore.readUnits trip now units) s₁ tr r s') :
    Measured s counted s' ∧ ∀ found, r = .ok found →
      (found.1.map Prod.fst).Sublist units ∧ ∀ u ∈ found.1, u.1 ∈ heldSeats s trip := by
  induction units generalizing s₁ s' tr r with
  | nil =>
    obtain ⟨-, rfl, rfl⟩ := performs_pure h
    refine ⟨hm, ?_⟩
    rintro _ ⟨⟩
    exact ⟨.slnil, fun u hu => by cases hu⟩
  | cons unit rest ih =>
    obtain ⟨fate, ⟨-, -, rfl, rfl⟩ | ⟨-, ⟨hnone, -⟩ | ⟨fields, rest', hfields, -, hk⟩⟩⟩ := performs_send_then rfl h
    · exact ⟨hm.later _, fun found he => by cases he⟩
    · cases hnone
    · cases hfields
      have hm' := hm.later fate.elapsed
      obtain ⟨e, hx, rfl⟩ | ⟨tr₁, tr₂, found, t, -, hx, hy⟩ := Prog.traced_then hk
      · exact ⟨(ih hm' hx).1, fun found he => by cases he⟩
      · obtain ⟨ht, hfound⟩ := ih hm' hx
        obtain ⟨hsub, hheld⟩ := hfound found rfl
        obtain ⟨live, stale⟩ := found
        simp only at hy
        split at hy
        · obtain ⟨-, rfl, rfl⟩ := performs_pure hy
          refine ⟨ht, ?_⟩
          rintro _ ⟨⟩
          exact ⟨hsub.cons _, hheld⟩
        · rename_i hne
          obtain ⟨-, rfl, rfl⟩ := performs_pure hy
          refine ⟨ht, ?_⟩
          rintro _ ⟨⟩
          refine ⟨hsub.cons_cons _, fun u hu => ?_⟩
          rcases List.mem_cons.mp hu with rfl | hu
          · exact hm'.mem_heldSeats hnow hne
          · exact hheld u hu

/-- The units found by a full reading all carry an unexpired hold. -/
lemma performs_liveHeldUnits {r : Except Unit (List (Uuid × BitVec 64))} (hm : Measured s counted s₁)
    (h : Performs (HoldStore.liveHeldUnits trip) s₁ tr r s') :
    Measured s (trip :: counted) s' ∧ ∀ live, r = .ok live → (live.length : ℕ∞) ≤ (heldSeats s trip).encard := by
  obtain ⟨fate, ⟨-, -, rfl, rfl⟩ | ⟨-, ⟨hnone, -⟩ | ⟨members, rest, hmembers, -, hk⟩⟩⟩ := performs_send_then rfl h
  · exact ⟨(hm.later _).counts trip, fun live he => by cases he⟩
  · cases hnone
  cases hmembers
  have hm' := hm.later fate.elapsed
  obtain ⟨clock, rest', -, hk⟩ := performs_now hk
  have hm'' : Measured s counted (later (later s₁ fate.elapsed) clock.elapsed) := hm'.later _
  obtain ⟨e, hx, rfl⟩ | ⟨tr₁, tr₂, found, t, -, hx, hy⟩ := Prog.traced_then hk
  · exact ⟨(performs_readUnits hm'' hm''.now hx).1.counts trip, fun live he => by cases he⟩
  obtain ⟨ht, hfound⟩ := performs_readUnits hm'' hm''.now hx
  obtain ⟨hsub, hheld⟩ := hfound found rfl
  obtain ⟨live, stale⟩ := found
  have hcount : (live.length : ℕ∞) ≤ (heldSeats s trip).encard := by
    have hnodup : (live.map Prod.fst).Nodup := (hm'.sane.members_nodup trip).sublist hsub
    have hset : ((live.map Prod.fst).toFinset : Set Uuid) ⊆ heldSeats s trip := by
      intro u hu
      obtain ⟨v, hv, rfl⟩ := List.mem_map.mp (List.mem_toFinset.mp hu)
      exact hheld v hv
    have hcard := Set.encard_le_encard hset
    rw [Set.encard_coe_eq_coe_finsetCard, List.toFinset_card_of_nodup hnodup, List.length_map] at hcard
    exact hcard
  simp only at hy
  split at hy
  · obtain ⟨fate', ⟨-, -, rfl, rfl⟩ | ⟨-, ⟨hnone, -⟩ | ⟨_, rest'', -, -, hy⟩⟩⟩ := performs_send_then rfl hy
    · exact ⟨(ht.later _).counts trip, fun live he => by cases he⟩
    · cases hnone
    · obtain ⟨-, rfl, rfl⟩ := performs_pure hy
      have hlater := ht.later fate'.elapsed
      refine ⟨⟨hlater.now, hlater.units, hlater.sane.exec (fun _ _ _ _ _ _ _ _ he => by cases he), fun t' ht' => ?_⟩, ?_⟩
      · rw [← hlater.index t' (fun hc => ht' (List.mem_cons_of_mem _ hc))]
        have hne : t' ≠ trip := fun he => ht' (by rw [he]; exact List.mem_cons_self)
        exact Function.update_of_ne hne _ _
      · rintro _ ⟨⟩
        exact hcount
  · obtain ⟨-, rfl, rfl⟩ := performs_pure hy
    refine ⟨ht.counts trip, ?_⟩
    rintro _ ⟨⟩
    exact hcount

/-- Below the threshold the count is the size of the index, else it is no more than the seats
with an unexpired hold. -/
lemma performs_heldUnitCount {accurateAbove : Nat} {r : Except Unit Nat} (hm : Measured s counted s₁)
    (ht : trip ∉ counted) (h : Performs (HoldStore.heldUnitCount trip accurateAbove) s₁ tr r s') :
    Measured s (trip :: counted) s' ∧ ∀ held, r = .ok held →
      held < accurateAbove ∧ (held = (s.members trip).length ∨ held = 0) ∨
        (held : ℕ∞) ≤ (heldSeats s trip).encard := by
  obtain ⟨fate, ⟨-, -, rfl, rfl⟩ | ⟨-, ⟨hnone, -⟩ | ⟨approximate, rest, happrox, -, hk⟩⟩⟩ := performs_send_then rfl h
  · exact ⟨(hm.later _).counts trip, fun held he => by cases he⟩
  · cases hnone
  have hm' := hm.later fate.elapsed
  have hsize : approximate = ((later s₁ fate.elapsed).members trip).length := by
    cases happrox
    rfl
  split at hk
  · rename_i hlt
    obtain ⟨-, rfl, rfl⟩ := performs_pure hk
    refine ⟨hm'.counts trip, ?_⟩
    rintro _ ⟨⟩
    refine .inl ⟨hlt, ?_⟩
    rcases hm'.members ht with he | he
    · exact .inl (by rw [hsize, he])
    · exact .inr (by rw [hsize, he]; rfl)
  · obtain ⟨e, hx, rfl⟩ | ⟨tr₁, tr₂, live, t, -, hx, hy⟩ := Prog.traced_then hk
    · exact ⟨(performs_liveHeldUnits hm' hx).1, fun held he => by cases he⟩
    · obtain ⟨hcounted, hlive⟩ := performs_liveHeldUnits hm' hx
      obtain ⟨-, rfl, rfl⟩ := performs_pure hy
      refine ⟨hcounted, ?_⟩
      rintro _ ⟨⟩
      exact .inr (hlive live rfl)

end Counting

/-! ### The handler -/

/-- A way the handler can run. -/
abbrev Handles {α : Type} (x : HoldHandler α) (s : World × Redis) (tr : Trace) (r : Except ApiError α)
    (s' : World × Redis) : Prop :=
  Prog.Traced (Prog.runBeside World Command.meets) x s tr r s'

section Handler

variable {α : Type} {s s' : World × Redis} {tr : Trace} {r : Except ApiError α}

lemma handles_query {f : World → Except StoreError α} (h : Handles (HoldHandler.query f) s tr r s') :
    tr = [] ∧ s' = s ∧ (r = (f s.1).mapError ApiError.ofStore ∨ r = .error (ApiError.ofStore (.db .connection))) := by
  rcases Prog.traced_read h with h | h
  · obtain ⟨rfl, rfl, rfl⟩ := Prog.traced_ret h
    exact ⟨rfl, rfl, .inl rfl⟩
  · obtain ⟨rfl, rfl, rfl⟩ := Prog.traced_ret h
    exact ⟨rfl, rfl, .inr rfl⟩

lemma handles_attempt {x : Operation α} {r : Except ApiError (Except Unit α)}
    (h : Handles (HoldHandler.attempt x) s tr r s') : ∃ a, r = .ok a ∧ s'.1 = s.1 ∧ Performs x s.2 tr a s'.2 := by
  obtain ⟨tr₁, tr₂, a, t, rfl, hx, hret⟩ := Prog.traced_bind h
  obtain ⟨rfl, rfl, rfl⟩ := Prog.traced_ret hret
  obtain ⟨hd, hp⟩ := Prog.traced_beside.mp hx
  exact ⟨a, rfl, hd, by rw [List.append_nil]; exact hp⟩

/-- An error that is no refusal at a ceiling. -/
def OtherThanCeiling (e : ApiError) : Prop := ∀ trip, e ≠ tooManyHeld trip

lemma other_ofStore (e : StoreError) : OtherThanCeiling (ApiError.ofStore e) := by
  intro trip he
  cases e <;> cases he

lemma tooManyHeld_injective : Function.Injective tooManyHeld := by
  intro a b h
  have hlist := congrArg String.toList (Message.text.inj (ApiError.conflict.inj h))
  have hdigits : Nat.toDigits 10 a = Nat.toDigits 10 b := by simpa [String.toList_append] using hlist
  have hread := congrArg Text.digits hdigits
  rw [Text.digits_toDigits, Text.digits_toDigits] at hread
  exact Option.some.inj hread

lemma head_tooMany {trip : Uuid} {m : String} (h : ApiError.conflict (.text m) = tooManyHeld trip) :
    m.toList.head? = some 't' := by
  have hm : m = "too many seats on trip " ++ (toString trip ++ (" are being held right now — " ++
      "try again shortly, or book without a hold (holds never gate the sale)")) := by
    rw [Message.text.inj (ApiError.conflict.inj h), ← String.append_assoc, ← String.append_assoc]
    rfl
  rw [hm, String.toList_append]
  rfl

lemma other_of_head {m : String} {c : Char} (hm : m.toList.head? = some c) (hc : c ≠ 't') :
    OtherThanCeiling (.conflict (.text m)) := by
  intro trip he
  rw [head_tooMany he] at hm
  exact hc (Option.some.inj hm).symm

lemma other_sold (code : String) (trip : Uuid) :
    OtherThanCeiling (.conflict (.text s!"span already sold for seat {code} on trip {trip}")) := by
  have hm : s!"span already sold for seat {code} on trip {trip}" =
      "span already sold for seat " ++ (code ++ (" on trip " ++ toString trip)) := by
    rw [← String.append_assoc, ← String.append_assoc]
    rfl
  rw [hm]
  refine other_of_head (c := 's') ?_ (by decide)
  rw [String.toList_append]
  rfl

lemma other_elsewhere : OtherThanCeiling (.conflict (.text "a seat in this itinerary is currently held by another session")) :=
  other_of_head (c := 'a') rfl (by decide)

lemma other_notFound (m : String) : OtherThanCeiling (.notFound m) := fun trip he => by cases he

lemma other_badRequest (m : Message) : OtherThanCeiling (.badRequest m) := fun trip he => by cases he

/-- The item is a seat on sale, and its span is not sold. -/
def Free (w : World) (trip : Uuid) (item : HoldItem) : Prop :=
  ∃ target occupied, Db.resolveTarget w trip item.unitCode item.origin item.destination = .ok (some target) ∧
    target.kind = .seat ∧ w.db.seatMask trip target.unitId = some occupied ∧ target.span.isAvailable occupied = true

lemma handles_resolveSeat {trip : Uuid} {item : HoldItem} {r : Except ApiError (Uuid × Uuid × SegmentSpan)}
    (h : Handles (resolveSeat trip item) s tr r s') : tr = [] ∧ s' = s ∧
      ((∃ e, r = .error e ∧ OtherThanCeiling e) ∨ ∃ seat, r = .ok seat ∧ seat.1 = trip ∧ Free s.1 trip item) := by
  obtain ⟨e, hx, rfl⟩ | ⟨tr₁, tr₂, found, t, rfl, hx, hy⟩ := Prog.traced_then h
  · obtain ⟨rfl, rfl, hr | hr⟩ := handles_query hx
    · refine ⟨rfl, rfl, .inl ⟨e, rfl, ?_⟩⟩
      cases hres : Db.resolveTarget s'.1 trip item.unitCode item.origin item.destination with
      | error e' =>
        rw [hres] at hr
        cases hr
        exact other_ofStore e'
      | ok a =>
        rw [hres] at hr
        cases hr
    · cases hr
      exact ⟨rfl, rfl, .inl ⟨_, rfl, other_ofStore _⟩⟩
  obtain ⟨rfl, rfl, hr | hr⟩ := handles_query hx
  · cases found with
    | none =>
      obtain ⟨rfl, rfl, rfl⟩ := Prog.traced_ret hy
      exact ⟨rfl, rfl, .inl ⟨_, rfl, other_notFound _⟩⟩
    | some target =>
      have htarget : Db.resolveTarget t.1 trip item.unitCode item.origin item.destination = .ok (some target) := by
        cases hres : Db.resolveTarget t.1 trip item.unitCode item.origin item.destination with
        | error e' =>
          rw [hres] at hr
          cases hr
        | ok a =>
          rw [hres] at hr
          cases hr
          rfl
      simp only at hy
      split at hy
      · obtain ⟨rfl, rfl, rfl⟩ := Prog.traced_ret hy
        exact ⟨rfl, rfl, .inl ⟨_, rfl, other_badRequest _⟩⟩
      · rename_i hkind
        obtain ⟨e, hx', rfl⟩ | ⟨tr₃, tr₄, mask, t', rfl, hx', hz⟩ := Prog.traced_then hy
        · obtain ⟨rfl, rfl, hr' | hr'⟩ := handles_query hx'
          · cases hr'
          · cases hr'
            exact ⟨rfl, rfl, .inl ⟨_, rfl, other_ofStore _⟩⟩
        obtain ⟨rfl, rfl, hr' | hr'⟩ := handles_query hx'
        · cases hr'
          split at hz
          · obtain ⟨rfl, rfl, rfl⟩ := Prog.traced_ret hz
            exact ⟨rfl, rfl, .inl ⟨_, rfl, other_notFound _⟩⟩
          · rename_i occupied hmask
            split at hz
            · rename_i hfree
              obtain ⟨rfl, rfl, rfl⟩ := Prog.traced_ret hz
              exact ⟨rfl, rfl, .inr ⟨_, rfl, rfl, target, occupied, htarget, not_not.mp hkind, hmask, hfree⟩⟩
            · obtain ⟨rfl, rfl, rfl⟩ := Prog.traced_ret hz
              exact ⟨rfl, rfl, .inl ⟨_, rfl, other_sold _ _⟩⟩
        · cases hr'
  · cases hr

lemma handles_of_free {trip : Uuid} {item : HoldItem} (hfree : Free s.1 trip item) :
    ∃ seat, seat.1 = trip ∧ Handles (resolveSeat trip item) s [] (.ok seat) s := by
  obtain ⟨target, occupied, htarget, hkind, hmask, hspan⟩ := hfree
  refine ⟨(trip, target.unitId, target.span), rfl, ?_⟩
  have hfirst : Handles (HoldHandler.query (fun w =>
      Db.resolveTarget w trip item.unitCode item.origin item.destination)) s [] (.ok (some target)) s := by
    refine .read ?_
    simp only [htarget]
    exact .ret _ _
  refine Prog.Traced.bind_ok hfirst ?_
  simp only [if_neg (not_not.mpr hkind)]
  have hsecond : Handles (HoldHandler.query (fun w => .ok (w.db.seatMask trip target.unitId))) s [] (.ok (some occupied))
      s := by
    refine .read ?_
    simp only [hmask]
    exact .ret _ _
  refine Prog.Traced.bind_ok hsecond ?_
  simp only [hspan, if_true]
  exact .ret _ _

lemma handles_resolveSeats {flat : List (Uuid × HoldItem)}
    {r : Except ApiError (List (Uuid × Uuid × SegmentSpan) × List HeldItemInfo)}
    (h : Handles (resolveSeats flat) s tr r s') : tr = [] ∧ s' = s ∧
      ((∃ e, r = .error e ∧ OtherThanCeiling e) ∨ ∃ seats, r = .ok seats ∧ seats.1.map Prod.fst = flat.map Prod.fst ∧
        ∀ i ∈ flat, Free s.1 i.1 i.2) := by
  induction flat generalizing s s' tr r with
  | nil =>
    obtain ⟨rfl, rfl, rfl⟩ := Prog.traced_ret h
    exact ⟨rfl, rfl, .inr ⟨_, rfl, rfl, fun i hi => by cases hi⟩⟩
  | cons i rest ih =>
    obtain ⟨trip, item⟩ := i
    obtain ⟨e, hx, rfl⟩ | ⟨tr₁, tr₂, seat, t, rfl, hx, hy⟩ := Prog.traced_then h
    · obtain ⟨rfl, rfl, ⟨_, ⟨⟩, he⟩ | ⟨_, ⟨⟩, -⟩⟩ := handles_resolveSeat hx
      exact ⟨rfl, rfl, .inl ⟨_, rfl, he⟩⟩
    obtain ⟨rfl, rfl, ⟨_, ⟨⟩, -⟩ | ⟨_, ⟨⟩, htrip, hfree⟩⟩ := handles_resolveSeat hx
    obtain ⟨e, hx', rfl⟩ | ⟨tr₃, tr₄, seats, t', rfl, hx', hz⟩ := Prog.traced_then hy
    · obtain ⟨rfl, rfl, ⟨_, ⟨⟩, he⟩ | ⟨_, ⟨⟩, -⟩⟩ := ih hx'
      exact ⟨rfl, rfl, .inl ⟨_, rfl, he⟩⟩
    obtain ⟨rfl, rfl, ⟨_, ⟨⟩, -⟩ | ⟨_, ⟨⟩, hseats, hall⟩⟩ := ih hx'
    obtain ⟨seats, infos⟩ := seats
    obtain ⟨rfl, rfl, rfl⟩ := Prog.traced_ret hz
    refine ⟨rfl, rfl, .inr ⟨_, rfl, ?_, ?_⟩⟩
    · rw [List.map_cons, List.map_cons, htrip, hseats]
    · rintro j (_ | ⟨_, hj⟩)
      · exact hfree
      · exact hall j hj

lemma handles_of_all_free {flat : List (Uuid × HoldItem)} (hfree : ∀ i ∈ flat, Free s.1 i.1 i.2) :
    ∃ seats, seats.1.map Prod.fst = flat.map Prod.fst ∧ Handles (resolveSeats flat) s [] (.ok seats) s := by
  induction flat with
  | nil => exact ⟨([], []), rfl, .ret _ _⟩
  | cons i rest ih =>
    obtain ⟨trip, item⟩ := i
    obtain ⟨seat, htrip, hseat⟩ := handles_of_free (hfree _ List.mem_cons_self)
    obtain ⟨seats, hseats, hrest⟩ := ih (fun j hj => hfree j (List.mem_cons_of_mem _ hj))
    refine ⟨(seat :: seats.1, _), ?_, Prog.Traced.bind_ok hseat (Prog.Traced.bind_ok hrest (.ret _ _))⟩
    rw [List.map_cons, List.map_cons, htrip, hseats]

/-- The refusal of a trip, and the count it rests on. -/
def Refused (s : Redis) (w : World) (share : Nat → Nat) (trip : Uuid) (adding : Nat) : Prop :=
  ∃ held, ceiling share (w.db.seatCount trip) < held + adding ∧
    (held < ceiling share (w.db.seatCount trip) ∧ (held = (s.members trip).length ∨ held = 0) ∨
      (held : ℕ∞) ≤ (heldSeats s trip).encard)

lemma handles_checkCeilings {share : Nat → Nat} {trips : List (Uuid × Nat)} {redis redis₁ : Redis} {w : World}
    {counted : List Uuid} {e : ApiError} (hm : Measured redis counted redis₁) (hnodup : (trips.map Prod.fst).Nodup)
    (hnew : ∀ p ∈ trips, p.1 ∉ counted)
    (h : Handles (checkCeilings share trips) (w, redis₁) tr (.error e) s') :
    OtherThanCeiling e ∨ ∃ p ∈ trips, e = tooManyHeld p.1 ∧ Refused redis w share p.1 p.2 := by
  induction trips generalizing redis₁ counted tr with
  | nil =>
    obtain ⟨-, hr, -⟩ := Prog.traced_ret h
    cases hr
  | cons p rest ih =>
    obtain ⟨trip, adding⟩ := p
    rw [List.map_cons, List.nodup_cons] at hnodup
    have hrest : ∀ q ∈ rest, q.1 ∉ trip :: counted := by
      intro q hq
      rw [List.mem_cons, not_or]
      refine ⟨fun he => hnodup.1 ?_, hnew q (List.mem_cons_of_mem _ hq)⟩
      have hmem : q.1 ∈ rest.map Prod.fst := List.mem_map_of_mem hq
      rwa [he] at hmem
    have hlift : (OtherThanCeiling e ∨ ∃ q ∈ rest, e = tooManyHeld q.1 ∧ Refused redis w share q.1 q.2) →
        OtherThanCeiling e ∨ ∃ q ∈ (trip, adding) :: rest, e = tooManyHeld q.1 ∧ Refused redis w share q.1 q.2 := by
      rintro (he | ⟨q, hq, he⟩)
      · exact .inl he
      · exact .inr ⟨q, List.mem_cons_of_mem _ hq, he⟩
    obtain ⟨e', hx, he'⟩ | ⟨tr₁, tr₂, total, t, -, hx, hy⟩ := Prog.traced_then h
    · cases he'
      obtain ⟨-, -, hr | hr⟩ := handles_query hx
      · cases hr
      · cases hr
        exact .inl (other_ofStore _)
    obtain ⟨-, rfl, hr | hr⟩ := handles_query hx
    · cases hr
      split at hy
      · exact hlift (ih (hm.counts trip) hnodup.2 hrest hy)
      obtain ⟨e', hx', he'⟩ | ⟨tr₃, tr₄, answer, t', -, hx', hz⟩ := Prog.traced_then hy
      · obtain ⟨a, ha, -⟩ := handles_attempt hx'
        cases ha
      obtain ⟨a, ha, hworld, hcount⟩ := handles_attempt hx'
      cases ha
      obtain ⟨hm', hheld⟩ := performs_heldUnitCount hm (hnew _ List.mem_cons_self) hcount
      obtain ⟨w', redis₂⟩ := t'
      simp only at hworld
      subst hworld
      split at hz
      · rename_i held
        split at hz
        · rename_i hover
          obtain ⟨-, hr, -⟩ := Prog.traced_ret hz
          cases hr
          exact .inr ⟨_, List.mem_cons_self, rfl, held, hover, hheld held rfl⟩
        · exact hlift (ih hm' hnodup.2 hrest hz)
      · exact hlift (ih hm' hnodup.2 hrest hz)
    · cases hr

/-- The seats asked for on a trip. -/
def asked (req : HoldRequest) (trip : Uuid) : Nat :=
  match flatten req with
  | .ok flat => (flat.map Prod.fst).count trip
  | .error _ => 0

/-- The request is taken up, and all its seats are on sale and free. -/
def Offered (app : AppState) (w : World) (req : HoldRequest) : Prop :=
  ∃ flat, accept app req = .ok flat ∧ ∀ i ∈ flat, Free w i.1 i.2

lemma other_of_flatten {req : HoldRequest} {e : ApiError} (h : flatten req = .error e) : OtherThanCeiling e := by
  have hbad : ∃ m, e = .badRequest m := by
    unfold flatten at h
    split at h
    · split_ifs at h
      all_goals exact ⟨_, (Except.error.inj h).symm⟩
    · split_ifs at h
      exact ⟨_, (Except.error.inj h).symm⟩
    · exact ⟨_, (Except.error.inj h).symm⟩
  obtain ⟨m, rfl⟩ := hbad
  exact other_badRequest m

lemma accept_cases (app : AppState) (req : HoldRequest) :
    (∃ e, accept app req = .error e ∧ OtherThanCeiling e) ∨ ∃ flat, accept app req = .ok flat ∧ flatten req = .ok flat := by
  unfold accept
  cases hf : flatten req with
  | error e => exact .inl ⟨e, rfl, other_of_flatten hf⟩
  | ok flat =>
    by_cases hlen : flat.length > maxSeatsPerHold
    · refine .inl ⟨_, if_pos hlen, other_badRequest _⟩
    · cases hh : app.holds with
      | true =>
        refine .inr ⟨flat, ?_, rfl⟩
        simp [bind, Except.bind, hlen]
        rfl
      | false =>
        refine .inl ⟨.serviceUnavailable "hold service unavailable (no Redis)", ?_, fun trip he => by cases he⟩
        simp [bind, Except.bind, hlen]
        rfl

/-- The tally of trips names each trip once, with the seats asked for on it. -/
lemma mem_wanted {seats : List (Uuid × Uuid × SegmentSpan)} {p : Uuid × Nat} (hp : p ∈ wanted seats) :
    p.2 = (seats.map Prod.fst).count p.1 := by
  obtain ⟨trip, -, rfl⟩ := List.mem_map.mp hp
  rfl

lemma wanted_nodup (seats : List (Uuid × Uuid × SegmentSpan)) : ((wanted seats).map Prod.fst).Nodup := by
  have hid : (wanted seats).map Prod.fst = (seats.map Prod.fst).dedup := by
    unfold wanted
    rw [List.map_map]
    exact List.map_id _
  rw [hid]
  exact List.nodup_dedup _

/-- Whoever is refused at a ceiling has been counted. -/
lemma handles_createHold {app : AppState} {share : Nat → Nat} {order : List (Uuid × Nat) → List (Uuid × Nat)}
    {req : HoldRequest} {trip : Uuid} (hs : Sane s.2) (horder : ∀ trips, (order trips).Perm trips)
    (h : Handles (createHold app (some share) order req) s tr (.error (tooManyHeld trip)) s') :
    Offered app s.1 req ∧ Refused s.2 s.1 share trip (asked req trip) := by
  obtain ⟨e, hx, he⟩ | ⟨tr₁, tr₂, flat, t, -, hx, hy⟩ := Prog.traced_then h
  · obtain ⟨-, hr, -⟩ := Prog.traced_ret hx
    obtain ⟨e', hacc, hother⟩ | ⟨flat, hacc, -⟩ := accept_cases app req
    · cases he
      rw [hacc] at hr
      cases hr
      exact absurd rfl (hother trip)
    · rw [hacc] at hr
      cases hr
  obtain ⟨-, hr, rfl⟩ := Prog.traced_ret hx
  have hflat : flatten req = .ok flat := by
    obtain ⟨e', hacc, -⟩ | ⟨flat', hacc, hflat⟩ := accept_cases app req
    · rw [hacc] at hr
      cases hr
    · rw [hacc] at hr
      cases hr
      exact hflat
  obtain ⟨e, hx', he⟩ | ⟨tr₃, tr₄, seats, t', -, hx', hz⟩ := Prog.traced_then hy
  · obtain ⟨-, -, ⟨_, hr', hother⟩ | ⟨_, hr', -⟩⟩ := handles_resolveSeats hx'
    · cases he
      cases hr'
      exact absurd rfl (hother trip)
    · cases hr'
  obtain ⟨-, rfl, ⟨_, hr', -⟩ | ⟨_, hr', htrips, hfree⟩⟩ := handles_resolveSeats hx'
  · cases hr'
  cases hr'
  refine ⟨⟨flat, hr.symm, hfree⟩, ?_⟩
  obtain ⟨seats, infos⟩ := seats
  obtain ⟨e, hc, he⟩ | ⟨tr₅, tr₆, _, t'', -, hc, hend⟩ := Prog.traced_then hz
  · cases he
    have hperm := horder (wanted seats)
    have hnodup : ((order (wanted seats)).map Prod.fst).Nodup :=
      (hperm.map Prod.fst).nodup_iff.mpr (wanted_nodup seats)
    obtain hother | ⟨p, hp, he, hrefused⟩ :=
      handles_checkCeilings (measured_self hs) hnodup (fun _ _ => List.not_mem_nil) hc
    · exact absurd rfl (hother trip)
    · have htrip : p.1 = trip := (tooManyHeld_injective he).symm
      have hadding : p.2 = asked req trip := by
        rw [mem_wanted (hperm.mem_iff.mp hp), htrip, asked, hflat, htrips]
      rw [htrip, hadding] at hrefused
      exact hrefused
  · obtain ⟨e, ha, he⟩ | ⟨tr₇, tr₈, answer, _, -, ha, hlast⟩ := Prog.traced_then hend
    · obtain ⟨_, ha', -⟩ := handles_attempt ha
      cases he
      cases ha'
    · split at hlast
      · obtain ⟨-, hr'', -⟩ := Prog.traced_ret hlast
        cases hr''
      · obtain ⟨-, hr'', -⟩ := Prog.traced_ret hlast
        exact absurd (Except.error.inj hr'').symm (other_elsewhere trip)
      · obtain ⟨-, hr'', -⟩ := Prog.traced_ret hlast
        cases hr''

/-! ### When a refusal is earned -/

/-- The index is below the ceiling and passes it with the seats asked for, and the seats with an
unexpired hold do not: its stale members make the difference. -/
def StaleTips (s : Redis) (trip : Uuid) (ceiling adding : Nat) : Prop :=
  (s.members trip).length < ceiling ∧ ceiling < (s.members trip).length + adding ∧
    (heldSeats s trip).encard + adding ≤ ceiling

lemma Refused.earned {redis : Redis} {w : World} {share : Nat → Nat} {trip : Uuid} {adding : Nat}
    (h : Refused redis w share trip adding)
    (hn : ¬StaleTips redis trip (ceiling share (w.db.seatCount trip)) adding) :
    (ceiling share (w.db.seatCount trip) : ℕ∞) < (heldSeats redis trip).encard + adding := by
  obtain ⟨held, hover, ⟨hlt, hmembers | hzero⟩ | hheld⟩ := h
  · by_contra hle
    exact hn ⟨by omega, by omega, not_lt.mp hle⟩
  · have hadding : ceiling share (w.db.seatCount trip) < adding := by omega
    calc (ceiling share (w.db.seatCount trip) : ℕ∞) < adding := Nat.cast_lt.mpr hadding
      _ ≤ (heldSeats redis trip).encard + adding := le_add_self
  · calc (ceiling share (w.db.seatCount trip) : ℕ∞) < ((held + adding : ℕ) : ℕ∞) := Nat.cast_lt.mpr hover
      _ = held + adding := Nat.cast_add held adding
      _ ≤ (heldSeats redis trip).encard + adding := by gcongr

/-- The order of the map in which one trip comes first. -/
def first (trip : Uuid) (trips : List (Uuid × Nat)) : List (Uuid × Nat) :=
  match trips.find? (fun p => decide (p.1 = trip)) with
  | some p => p :: trips.erase p
  | none => trips

lemma first_perm (trip : Uuid) (trips : List (Uuid × Nat)) : (first trip trips).Perm trips := by
  unfold first
  split
  · rename_i p hp
    exact (List.perm_cons_erase (List.mem_of_find?_eq_some hp)).symm
  · exact .refl _

lemma first_wanted {seats : List (Uuid × Uuid × SegmentSpan)} {trip : Uuid} (ht : trip ∈ seats.map Prod.fst) :
    ∃ rest, first trip (wanted seats) = (trip, (seats.map Prod.fst).count trip) :: rest := by
  have hmem : (trip, (seats.map Prod.fst).count trip) ∈ wanted seats :=
    List.mem_map.mpr ⟨trip, List.mem_dedup.mpr ht, rfl⟩
  unfold first
  cases hf : (wanted seats).find? (fun p => decide (p.1 = trip)) with
  | none => exact absurd (decide_eq_true rfl) (List.find?_eq_none.mp hf _ hmem)
  | some p =>
    have hdec := List.find?_some hf
    have htrip : p.1 = trip := of_decide_eq_true hdec
    have hp : p = (trip, (seats.map Prod.fst).count trip) :=
      Prod.ext htrip (by rw [mem_wanted (List.mem_of_find?_eq_some hf), htrip])
    rw [← hp]
    exact ⟨_, rfl⟩

/-- A trip on which a seat is on sale has seats. -/
lemma seatCount_pos {w : World} {trip : Uuid} {item : HoldItem} (hfree : Free w trip item) : 0 < w.db.seatCount trip := by
  obtain ⟨target, occupied, htarget, hkind, hmask, -⟩ := hfree
  obtain ⟨row, hrow, -⟩ := Option.map_eq_some_iff.mp hmask
  obtain ⟨t, cu, -, hcu, hunit, hcukind⟩ := resolveTarget_found htarget
  have hkey := Table.find?_key hrow
  obtain ⟨htrip, hid⟩ := Prod.mk.inj hkey
  have hfound : w.db.capacityUnits.find? row.unitId = some cu := by
    rw [hid, hunit]
    exact Table.find?_of_mem (List.mem_of_find?_eq_some hcu)
  refine List.countP_pos_iff.mpr ⟨row, Table.find?_mem hrow, ?_⟩
  rw [hfound, Option.any_some, ← hcukind, hkind, htrip]
  simp

/-- With a stale index the refusal comes, where the trip is looked at first. -/
lemma refused_of_staleTips {app : AppState} {share : Nat → Nat} {req : HoldRequest} {redis : Redis} {w : World}
    {trip : Uuid} (hoffered : Offered app w req)
    (hstale : StaleTips redis trip (ceiling share (w.db.seatCount trip)) (asked req trip)) :
    ∃ tr s', Handles (createHold app (some share) (first trip) req) (w, redis) tr (.error (tooManyHeld trip)) s' := by
  obtain ⟨flat, hacc, hfree⟩ := hoffered
  obtain ⟨hbelow, hover, -⟩ := hstale
  have hflat : flatten req = .ok flat := by
    obtain ⟨e', hacc', -⟩ | ⟨flat', hacc', hflat⟩ := accept_cases app req
    · rw [hacc] at hacc'
      cases hacc'
    · rw [hacc] at hacc'
      cases hacc'
      exact hflat
  have hasked : asked req trip = (flat.map Prod.fst).count trip := by
    unfold asked
    rw [hflat]
  have hmem : trip ∈ flat.map Prod.fst := by
    rw [← List.count_pos_iff, ← hasked]
    omega
  obtain ⟨i, hi, htrip⟩ := List.mem_map.mp hmem
  have htotal : w.db.seatCount trip ≠ 0 := by
    have hpos := seatCount_pos (hfree i hi)
    rw [htrip] at hpos
    omega
  obtain ⟨seats, hseats, hresolve⟩ := handles_of_all_free (s := (w, redis)) hfree
  obtain ⟨seats, infos⟩ := seats
  have hwanted : trip ∈ seats.map Prod.fst := by
    rw [hseats]
    exact hmem
  obtain ⟨rest, hfirst⟩ := first_wanted hwanted
  have hcount : Performs (HoldStore.heldUnitCount trip (ceiling share (w.db.seatCount trip))) redis
      [.ran (.scard trip) ⟨0, true⟩ (.int (redis.members trip).length)] (.ok (redis.members trip).length) redis := by
    refine Prog.Traced.tx (t := Command.scard trip) (⟨0, true⟩ : Fate) ?_
    change Performs (if (redis.members trip).length < ceiling share (w.db.seatCount trip) then
      pure (redis.members trip).length else _) redis [] _ redis
    rw [if_pos hbelow]
    exact .ret _ _
  have hattempt : Handles (HoldHandler.attempt (HoldStore.heldUnitCount trip (ceiling share (w.db.seatCount trip))))
      (w, redis) _ (.ok (.ok (redis.members trip).length)) (w, redis) :=
    Prog.Traced.bind (Prog.traced_beside.mpr ⟨rfl, hcount⟩) (.ret _ _)
  have hquery : Handles (HoldHandler.query (fun w => .ok (w.db.seatCount trip))) (w, redis) []
      (.ok (w.db.seatCount trip)) (w, redis) := .read (.ret _ _)
  have hcheck : ∃ tr, Handles (checkCeilings share (first trip (wanted seats))) (w, redis) tr
      (.error (tooManyHeld trip)) (w, redis) := by
    rw [hfirst]
    apply Exists.intro
    apply Prog.Traced.bind_ok hquery
    rw [if_neg htotal]
    apply Prog.Traced.bind_ok hattempt
    simp only
    rw [if_pos (by rw [hseats, ← hasked]; exact hover)]
    exact .ret _ _
  obtain ⟨tr, hcheck⟩ := hcheck
  have haccept : Handles (ExceptT.mk (Prog.ret (accept app req))) (w, redis) [] (.ok flat) (w, redis) := by
    rw [hacc]
    exact .ret _ _
  exact ⟨_, (w, redis), Prog.Traced.bind_ok haccept (Prog.Traced.bind_ok hresolve (Prog.Traced.bind_error hcheck))⟩

end Handler

/-- Every store the hold operations reach is sane, and over a sane store a hold is refused for
the ceiling of a trip only where its seats with an unexpired hold pass the ceiling with those
asked for, unless the stale members of its index tip the scale. -/
theorem ceiling_refusal_earned_iff (app : AppState) (w : World) (share : Nat → Nat) (req : HoldRequest)
    (trip : Uuid) :
    (∀ start c, store.Reachable (Site.init (Redis.empty start)) c → Sane c.store) ∧
    ∀ redis, Sane redis →
      ((∀ order tr s', (∀ trips : List (Uuid × Nat), (order trips).Perm trips) →
        Handles (createHold app (some share) order req) (w, redis) tr (.error (tooManyHeld trip)) s' →
          (ceiling share (w.db.seatCount trip) : ℕ∞) < (heldSeats redis trip).encard + asked req trip) ↔
        ¬(Offered app w req ∧ StaleTips redis trip (ceiling share (w.db.seatCount trip)) (asked req trip))) := by
  refine ⟨fun start c hc => sane_of_reachable hc, fun redis hs => ⟨?_, ?_⟩⟩
  · rintro hearned ⟨hoffered, hstale⟩
    obtain ⟨tr, s', hrun⟩ := refused_of_staleTips hoffered hstale
    exact absurd hstale.2.2 (not_le.mpr (hearned _ tr s' (first_perm trip) hrun))
  · intro hn order tr s' horder hrun
    obtain ⟨hoffered, hrefused⟩ := handles_createHold hs horder hrun
    exact hrefused.earned (fun hstale => hn ⟨hoffered, hstale⟩)

section Ferry

/-- A ferry with three seats. -/
def ferry : World where
  now := 0
  db := { harbour.db with
    capacityUnits := ⟨[⟨1, 1, .seat, "1A", some "business", none, false⟩,
      ⟨2, 1, .seat, "1B", some "business", none, false⟩, ⟨3, 1, .seat, "1C", some "business", none, false⟩], by decide⟩
    seatOccupancy := ⟨[⟨1, 1, 0⟩, ⟨1, 2, 0⟩, ⟨1, 3, 0⟩], by decide⟩ }

def withHolds : AppState := { sandbox with holds := true }

/-- Somebody holds seat `1C` for half a minute. -/
def taken1C : Redis :=
  ((Command.acquire 1 3 0 30000 9 (maskHi ⟨0, 2, Nat.zero_lt_two, two_le_maxSegments⟩)
    (maskLo ⟨0, 2, Nat.zero_lt_two, two_le_maxSegments⟩) 120000).exec (Redis.empty 0)).2

def lapsed : Redis := later taken1C 60000

lemma lapsed_sane : Sane lapsed := by
  refine ((sane_empty 0).exec (fun trip unit now ttl holdId hi lo indexTtl he => ?_)).pass 60000
  cases he
  exact ⟨le_rfl, _, rfl, rfl⟩

lemma lapsed_members : lapsed.members 1 = [3] := by decide

lemma lapsed_free (trip : Uuid) : heldSeats lapsed trip = ∅ := by
  apply Set.eq_empty_of_forall_notMem
  rintro unit ⟨exp, -, f, hf, -⟩
  obtain ⟨k, hk, hexp, -⟩ := mem_hash.mp hf
  have hplaced : taken1C.units trip unit = some k := hk
  rcases exec_units hplaced with ⟨k', hk', -⟩ | ⟨now, ttl, holdId, hi, lo, indexTtl, hcmd, -, rfl⟩
  · cases hk'
  · cases hcmd
    have hlate : (60000 : Nat) ≤ 30000 := hexp
    omega

def threeQuarters (total : Nat) : Nat := total * 3 / 4

/-- Two of the three seats are held for half an hour. -/
def heldAt (unit holdId : Uuid) : Command :=
  .acquire 1 unit 0 1800000 holdId (maskHi ⟨0, 2, Nat.zero_lt_two, two_le_maxSegments⟩)
    (maskLo ⟨0, 2, Nat.zero_lt_two, two_le_maxSegments⟩) 7200000

def crowded : Redis := ((heldAt 2 10).exec ((heldAt 1 9).exec (Redis.empty 0)).2).2

lemma crowded_sane : Sane crowded := by
  refine Sane.exec (Sane.exec (sane_empty 0) ?_) ?_
  · intro trip unit now ttl holdId hi lo indexTtl he
    cases he
    exact ⟨le_rfl, _, rfl, rfl⟩
  · intro trip unit now ttl holdId hi lo indexTtl he
    cases he
    exact ⟨le_rfl, _, rfl, rfl⟩

/-- A party of one and a party of two. -/
def single : HoldRequest := ⟨some 1, some [⟨"1C", "CEB", "ORM"⟩], none, none⟩

def couple : HoldRequest := ⟨some 1, some [⟨"1A", "CEB", "ORM"⟩, ⟨"1B", "CEB", "ORM"⟩], none, none⟩

/-- What a request is refused with. -/
def refusal {α : Type} : Except ApiError α → Option ApiError
  | .error e => some e
  | .ok _ => none

lemma refusal_eq_some {α : Type} {r : Except ApiError α} {e : ApiError} (h : refusal r = some e) :
    r = .error e := by
  cases r with
  | error e' => rw [Option.some.inj h]
  | ok a => cases h

/-- Two seats are held, no more may be, and a party of one is refused, with good reason. -/
theorem ceiling_refusal_earned_iff_single : ∃ tr s',
    Handles (createHold withHolds (some threeQuarters) (first 1) single) (ferry, crowded) tr
      (.error (tooManyHeld 1)) s' ∧
    (ceiling threeQuarters (ferry.db.seatCount 1) : ℕ∞) < (heldSeats crowded 1).encard + asked single 1 := by
  have hasked : asked single 1 = 1 := by decide
  have hrun : (Prog.follow (Prog.runBeside World Command.meets)
      (createHold withHolds (some threeQuarters) (first 1) single) (ferry, crowded) (List.replicate 5 ⟨0, true⟩)
        []).map (fun o => refusal o.2.1) = some (some (tooManyHeld 1)) := by
    decide
  obtain ⟨o, ho, hrefused⟩ := Option.map_eq_some_iff.mp hrun
  have htraced : Handles (createHold withHolds (some threeQuarters) (first 1) single) (ferry, crowded) o.1
      (.error (tooManyHeld 1)) o.2.2 := by
    rw [← refusal_eq_some hrefused]
    exact Prog.traced_of_follow ho
  refine ⟨o.1, o.2.2, htraced, ?_⟩
  refine ((ceiling_refusal_earned_iff withHolds ferry threeQuarters single 1).2 crowded crowded_sane).mpr ?_
    (first 1) _ _ (first_perm 1) htraced
  rintro ⟨-, hbelow, hover, -⟩
  omega

/-- No seat is held, two of three may be, and a party of two is refused. -/
theorem party_refused_for_stale : ¬∀ (redis : Redis) (app : AppState) (w : World) (share : Nat → Nat)
    (req : HoldRequest) (trip : Uuid) (order : List (Uuid × Nat) → List (Uuid × Nat)) (tr : Trace) (s' : World × Redis),
    Sane redis → (∀ trips, (order trips).Perm trips) →
      Handles (createHold app (some share) order req) (w, redis) tr (.error (tooManyHeld trip)) s' →
        (ceiling share (w.db.seatCount trip) : ℕ∞) < (heldSeats redis trip).encard + asked req trip := by
  intro hall
  have hceiling : ceiling threeQuarters (ferry.db.seatCount 1) = 2 := by decide
  have hasked : asked couple 1 = 2 := by decide
  have hstale : StaleTips lapsed 1 (ceiling threeQuarters (ferry.db.seatCount 1)) (asked couple 1) := by
    rw [hceiling, hasked]
    refine ⟨by rw [lapsed_members]; decide, by rw [lapsed_members]; decide, ?_⟩
    rw [lapsed_free, Set.encard_empty, zero_add]
  have hoffered : Offered withHolds ferry couple := by
    refine ⟨_, rfl, ?_⟩
    rintro i (_ | ⟨_, _ | ⟨_, hi⟩⟩)
    · exact ⟨⟨1, .seat, some "business", ⟨0, 2, by decide, by decide⟩⟩, 0, by rfl, rfl, by rfl, by decide⟩
    · exact ⟨⟨2, .seat, some "business", ⟨0, 2, by decide, by decide⟩⟩, 0, by rfl, rfl, by rfl, by decide⟩
    · cases hi
  obtain ⟨tr, s', hrun⟩ := refused_of_staleTips hoffered hstale
  have hover := hall lapsed withHolds ferry threeQuarters couple 1 (first 1) tr s' lapsed_sane (first_perm 1) hrun
  exact absurd hstale.2.2 (not_le.mpr hover)

end Ferry

end Lulan.Proofs
