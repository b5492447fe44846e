import Lulan.Proofs.Growth
import Lulan.Proofs.Runs

/-!
# Cancelled trips

Sales look at the status of a trip before their write transaction, which does not look
again. A sale that has looked before a cancellation can commit after it; every other one
is refused.
-/

namespace Lulan.Proofs

open Lulan Lulan.Db Lib

/-- A transaction that cancelled the trip. -/
def cancels (tripId : Uuid) : Event → Bool
  | .commit _ _ (.cancelTrip id) (.rows n) => decide (id = tripId) && decide (n ≠ 0)
  | _ => false

/-- A transaction that sold something on the trip. -/
def sells (tripId : Uuid) : Event → Bool
  | .commit _ _ (.createOrder _ wired _) (.created _) => wired.any (fun w => decide (w.item.tripId = tripId))
  | .commit _ _ (.claimSeat id _ _) (.rows n) => decide (id = tripId) && decide (n ≠ 0)
  | .commit _ _ (.claimPool id _ _ _) (.rows n) => decide (id = tripId) && decide (n ≠ 0)
  | _ => false

/-- A claim that its caller has resolved itself. -/
def claims (tripId : Uuid) : Request → Bool
  | .claimSeat id _ _ => decide (id = tripId)
  | .claimPool id _ _ _ => decide (id = tripId)
  | _ => false

def claimed (tripId : Uuid) : Event → Bool
  | .arrive _ i => claims tripId i
  | _ => false

/-- Nothing is sold on the trip once it is cancelled. -/
def SoldOut (tripId : Uuid) (h : List Event) : Prop :=
  ∀ g ev, g ++ [ev] <+: h → sells tripId ev = true → ∀ e ∈ g, cancels tripId e = false

/-- No cancellation of the trip falls between the arrival of a sale and its transaction, and
claims that are resolved elsewhere are made before it. -/
def Abreast (tripId : Uuid) (_ : World) (h : List Event) (ev : Event) : Prop :=
  (sells tripId ev = true → ∀ e ∈ h.drop ev.pid, cancels tripId e = false) ∧
    (claimed tripId ev = true → ∀ e ∈ h, cancels tripId e = false)

instance instDecidableAbreast (tripId : Uuid) (s : World) (h : List Event) (ev : Event) :
    Decidable (Abreast tripId s h ev) := inferInstanceAs (Decidable (_ ∧ _))

section Steps

variable {tripId : Uuid} {s : World} {h : List Event} {t : Tx} {w : Oracle} {pid : Nat} {i : Request} {ev : Event}

lemma SoldOut.concat (hs : SoldOut tripId h) (hev : sells tripId ev = true → ∀ e ∈ h, cancels tripId e = false) :
    SoldOut tripId (h ++ [ev]) := by
  intro g e hg hsell
  rcases List.prefix_concat_iff.mp hg with he | hp
  · obtain ⟨rfl, he'⟩ := List.append_inj' he rfl
    cases List.singleton_inj.mp he'
    exact hev hsell
  · exact hs g e hp hsell

/-- The trip is cancelled for everyone who looks. -/
def Closed (tripId : Uuid) (s : World) : Prop :=
  ∀ t, s.db.trips.find? tripId = some t → t.status = .cancelled

lemma closed_cancelTrip {db : Db} {trip : TripRow} {id : Uuid}
    (h : (db.cancelTrip id).2.trips.find? tripId = some trip)
    (hc : id ≠ tripId → ∀ t, db.trips.find? tripId = some t → t.status = .cancelled) : trip.status = .cancelled := by
  simp only [Db.cancelTrip, Lib.Table.find?_update] at h
  obtain ⟨t, ht, rfl⟩ := Option.map_eq_some_iff.mp h
  split
  · rfl
  · rename_i hguard
    by_cases hid : id = tripId
    · have hkey : t.id = id := (Lib.Table.find?_key ht).trans hid.symm
      cases hst : t.status with
      | cancelled => rfl
      | scheduled => simp [hkey, hst] at hguard
    · exact hc hid t ht

lemma Closed.commit (hc : Closed tripId s) : Closed tripId (t.run w s).2 := by
  intro trip htrip
  rcases (run_effect t w s).1.schedule with hs | ⟨id, -, -, hs⟩
  · rw [hs] at htrip
    exact hc trip htrip
  · rw [hs] at htrip
    exact closed_cancelTrip htrip (fun _ => hc)

lemma cancels_commit {r : TxResult} (hev : cancels tripId (.commit pid i t r) = true) :
    t = .cancelTrip tripId ∧ ∃ n, r = .rows n := by
  unfold cancels at hev
  split at hev
  · rename_i heq
    cases heq
    simp only [Bool.and_eq_true, decide_eq_true_eq] at hev
    exact ⟨by rw [hev.1], _, rfl⟩
  · cases hev

lemma closed_of_cancels (hev : cancels tripId (.commit pid i t (t.run w s).1) = true) :
    Closed tripId (t.run w s).2 := by
  obtain ⟨rfl, n, hn⟩ := cancels_commit hev
  intro trip htrip
  unfold Tx.run at hn htrip
  cases hf : w.fail with
  | some e =>
    rw [hf] at hn
    cases hn
  | none =>
    rw [hf] at htrip
    exact closed_cancelTrip htrip (fun hne => absurd rfl hne)

/-- What a run has sold and cancelled. -/
structure Sailings (tripId : Uuid) (s : World) (h : List Event) : Prop where
  closed : ∀ e ∈ h, cancels tripId e = true → Closed tripId s
  sold : SoldOut tripId h

lemma Sailings.commit (hI : Sailings tripId s h)
    (hev : sells tripId (.commit pid i t (t.run w s).1) = true → ∀ e ∈ h, cancels tripId e = false) :
    Sailings tripId (t.run w s).2 (h ++ [.commit pid i t (t.run w s).1]) := by
  refine ⟨fun e he hc => ?_, hI.sold.concat hev⟩
  rcases List.mem_append.mp he with he | he
  · exact (hI.closed e he hc).commit
  · rw [List.mem_singleton.mp he] at hc
    exact closed_of_cancels hc

lemma Sailings.quiet (hI : Sailings tripId s h) (hs : sells tripId ev = false) (hc : cancels tripId ev = false) :
    Sailings tripId s (h ++ [ev]) := by
  refine ⟨fun e he hce => ?_, hI.sold.concat (fun h => nomatch h.symm.trans hs)⟩
  rcases List.mem_append.mp he with he | he
  · exact hI.closed e he hce
  · rw [List.mem_singleton.mp he, hc] at hce
    cases hce

/-- Whoever resolves a target sees its trip open. -/
lemma resolved_open {v : World} {unitCode origin destination : String} {target : ClaimTarget}
    (hc : Closed tripId v) : Db.resolveTarget v tripId unitCode origin destination ≠ .ok (some target) := by
  intro h
  unfold Db.resolveTarget at h
  split at h
  · cases h
  · rename_i trip htrip
    split at h
    · cases h
    · simp [hc trip htrip] at h

/-- Nobody who has only seen the trip cancelled sells it. -/
lemma closed_sells {app : AppState} {r : TxResult} (ht : Runs (Closed tripId) app i t)
    (hi : claims tripId i = false) : sells tripId (.commit pid i t r) = false := by
  have horder : ∀ order wired, Resolved (Closed tripId) order wired →
      wired.any (fun x => decide (x.item.tripId = tripId)) = false := by
    intro order wired hr
    rw [List.any_eq_false]
    intro x hx htrip
    obtain ⟨⟨v, hv, hres⟩, -⟩ := hr.2 x hx
    rw [of_decide_eq_true htrip] at hres
    exact resolved_open hv hres
  have hclaim : ∀ {id req unitId span}, ClaimFrom (Closed tripId) id req unitId span → id ≠ tripId := by
    rintro id req unitId span ⟨target, ⟨v, hv, hres⟩, -⟩ rfl
    exact resolved_open hv hres
  unfold sells
  split
  · rename_i heq
    cases heq
    cases i <;> simp only [Runs] at ht
    · exact horder _ _ ht.1
    · exact horder _ _ ht.2
  · rename_i heq
    cases heq
    cases i <;> simp only [Runs] at ht
    · rw [claims, decide_eq_false_iff_not] at hi
      rw [ht, decide_eq_false hi]
      rfl
    · rw [ht.1, decide_eq_false (hclaim ht.2)]
      rfl
  · rename_i heq
    cases heq
    cases i <;> simp only [Runs] at ht
    · rw [claims, decide_eq_false_iff_not] at hi
      rw [ht.2, decide_eq_false hi]
      rfl
    · rw [ht.2.1, decide_eq_false (hclaim ht.2.2)]
      rfl
  · rfl

end Steps

section Runs

variable {tripId : Uuid} {app : AppState}

theorem sailings_protocol (app : AppState) (tripId : Uuid) :
    Site.Protocol (site app) (Abreast tripId) (Sailings tripId) (fun _ _ _ _ => True) := by
  refine ⟨fun s h e hI => ⟨fun ev he hc => hI.closed ev he hc, hI.sold⟩, fun s h i hI _ hG => ⟨hI.quiet rfl rfl, ?_⟩,
    fun s h pid i a hI _ _ => hI.quiet rfl rfl⟩
  by_cases hcan : ∀ e ∈ h, cancels tripId e = false
  · -- the trip was open when the request arrived: what it sells is in time
    refine (Site.keeps_carrying (C := fun g => h <+: g) (handler_only (fun _ => True) app i)
      (fun _ _ _ _ => trivial) (fun g g' hl hg => hg.trans hl.extends) ?_ ?_ _ (List.prefix_append h _)).weaken
      (fun _ _ _ => trivial)
    · rintro t w s' g - hI' hg hG'
      refine ⟨hI'.commit (fun hsell e he => ?_), hg.trans (List.prefix_append _ _)⟩
      obtain ⟨rest, rfl⟩ := hg
      rcases List.mem_append.mp he with he | he
      · exact hcan e he
      · refine hG'.1 hsell e ?_
        rw [show Ev.pid _ = h.length from rfl, List.drop_left]
        exact he
    · rintro q b s' g - - hI' hg -
      exact ⟨hI'.quiet rfl rfl, hg.trans (List.prefix_append _ _)⟩
  · -- it was cancelled already: every look at it refuses the sale
    obtain ⟨e₀, he₀⟩ := not_forall.mp hcan
    obtain ⟨hm, hc₀⟩ := Classical.not_imp.mp he₀
    have hc₀ : cancels tripId e₀ = true := by simpa using hc₀
    have hdirect : claims tripId i = false := by
      by_contra hd
      have hno := hG.2 ((Bool.not_eq_false _).mp hd) e₀ hm
      rw [hc₀] at hno
      cases hno
    refine (Site.keeps_carrying (C := fun g => e₀ ∈ g) (handler_only (Closed tripId) app i)
      (fun s' g hI' hg => hI'.closed e₀ hg hc₀) (fun g g' hl hg => hl.mem hg) ?_ ?_ _
      (List.mem_append_left _ hm)).weaken (fun _ _ _ => trivial)
    · rintro t w s' g ht hI' hg -
      exact ⟨hI'.commit (fun hsell => nomatch hsell.symm.trans (closed_sells ht hdirect)), List.mem_append_left _ hg⟩
    · rintro q b s' g - - hI' hg -
      exact ⟨hI'.quiet rfl rfl, List.mem_append_left _ hg⟩

/-- No order and no claim of a trip commits after its cancellation, unless one overtakes
the other between look and sale. -/
theorem sold_before_cancelled {s : World} {c : LockConf Request World Tx TxResult Call Reply Answer Uuid LockRead LockRead}
    (hc : (rowLocks app).ReachableWhen (Abreast tripId) (RowLocks.init s) c) : SoldOut tripId c.trace := by
  have hat := (rowLocks app).reachable_atomicWhen hc
  have h₀ : Sailings tripId s [] := ⟨by simp, fun g ev hg => by simp at hg⟩
  exact ((sailings_protocol app tripId).invariant h₀ hat).1.sold

end Runs

section Harbour

/-- The party resolves its seats, the trip is cancelled, and the party's order commits. -/
def overtakenRun : List (LockAct Request Reply Oracle Nat) :=
  [.arrive (.storeCreate booking), .read 0 true, .read 0 true, .peek 0, .arrive (.cancelTrip 1), .short 1 (drawn 0),
    .short 0 (drawn 100)]

/-- An order on a trip that is cancelled. -/
theorem cancelled_trip_sold : ¬ ∀ (app : AppState) (s : World)
    (c : LockConf Request World Tx TxResult Call Reply Answer Uuid LockRead LockRead) (tripId : Uuid), s.db.Seeded →
    Reaches app s c → SoldOut tripId c.trace := by
  intro hclaim
  have hrun : ((rowLocks sandbox).exec (RowLocks.init harbour) overtakenRun).map (fun c =>
      (c.trace.getLast?.map (sells 1), c.trace.dropLast.any (cancels 1))) = some (some true, true) := by decide
  obtain ⟨c, hc, hend⟩ := Option.map_eq_some_iff.mp hrun
  obtain ⟨hlast, hany⟩ := Prod.mk.inj hend
  obtain ⟨ev, hev, hsell⟩ := Option.map_eq_some_iff.mp hlast
  obtain ⟨e, he, hcan⟩ := List.any_eq_true.mp hany
  have htrace : c.trace.dropLast ++ [ev] = c.trace := List.dropLast_append_getLast? ev hev
  have hno := hclaim sandbox harbour c 1 harbour_seeded (RowLocks.reachable_of_exec hc) c.trace.dropLast ev
    ⟨[], (List.append_nil _).trans htrace⟩ hsell e he
  rw [hcan] at hno
  cases hno

/-- The party books, the trip is cancelled, and the next party is refused. -/
theorem sold_before_cancelled_harbour : ∃ c, (rowLocks sandbox).ReachableWhen (Abreast 1) (RowLocks.init harbour) c ∧
    c.trace.any (sells 1) = true ∧ c.trace.any (cancels 1) = true ∧ SoldOut 1 c.trace := by
  have hrun : ((rowLocks sandbox).execWhen (Abreast 1) (RowLocks.init harbour)
      [.arrive (.storeCreate booking), .read 0 true, .read 0 true, .peek 0, .short 0 (drawn 100), .answer 0,
        .arrive (.cancelTrip 1), .short 3 (drawn 0), .arrive (.storeCreate booking), .read 5 true, .answer 5]).map
      (fun c => (c.trace.any (sells 1), c.trace.any (cancels 1))) = some (true, true) := by decide
  obtain ⟨c, hc, hend⟩ := Option.map_eq_some_iff.mp hrun
  obtain ⟨hsell, hcan⟩ := Prod.mk.inj hend
  have hreach := RowLocks.reachable_of_execWhen hc
  exact ⟨c, hreach, hsell, hcan, sold_before_cancelled hreach⟩

end Harbour

end Lulan.Proofs
