import Lulan.Lib.Loop
import Lulan.Gtfs.Import
import Lulan.Proofs.Statements

/-!
# Imported networks

What each statement of an import does to the network, and what a sequence of imports
leaves: every dated trip on a route with the stops of its feed trip, as long as the route
codes keep different stop patterns apart.
-/

namespace Lulan.Gtfs

namespace Network

/-- The stops of a route in order. -/
def stopsOf (db : Network) (routeId : Uuid) : List RouteStop :=
  (db.routeStops.select (fun s => decide (s.routeId = routeId))).insertionSort
    (fun a b => a.stopIndex ≤ b.stopIndex)

def codeOf (db : Network) (locationId : Uuid) : Option String := (db.locations.find? locationId).map Location.code

/-- The route stops at exactly these places, in this order. -/
def Serves (db : Network) (routeId : Uuid) (stopIds : List String) : Prop :=
  (db.stopsOf routeId).map (fun s => (s.stopIndex, db.codeOf s.locationId)) =
    stopIds.mapIdx (fun i stopId => (i, some stopId))

instance instDecidableServes (db : Network) (routeId : Uuid) (stopIds : List String) :
    Decidable (db.Serves routeId stopIds) := inferInstanceAs (Decidable (_ = _))

end Network

end Lulan.Gtfs

namespace Lulan.Proofs

open Lulan Lulan.Gtfs Lib

/-- The foreign keys of stops and dated trips. -/
structure Referenced (db : Network) : Prop where
  stops : ∀ s ∈ db.routeStops.rows, (db.routes.find? s.routeId).isSome = true
  trips : ∀ t ∈ db.trips.rows, (db.routes.find? t.routeId).isSome = true

lemma gtfsLiftDb_eq_ok {α : Type} {x : Except DbError α} {a : α} : Gtfs.liftDb x = .ok a ↔ x = .ok a := by
  cases x <;> simp [Gtfs.liftDb]

section Statements

variable {db db' : Network}

lemma upsertOperator_eq_ok {id id' : Uuid} {code name : String}
    (h : db.upsertOperator id code name = .ok (id', db')) :
    ∃ operators, db' = { db with operators := operators } := by
  unfold Network.upsertOperator at h
  split at h
  · cases h
    exact ⟨_, rfl⟩
  · obtain ⟨operators, -, h⟩ := bind_eq_ok.mp h
    cases h
    exact ⟨operators, rfl⟩

/-- A stop gets the location of its code, and no location changes its code. -/
lemma upsertLocation_eq_ok {id id' : Uuid} {code name timezone : String}
    (h : db.upsertLocation id code name timezone = .ok (id', db')) :
    (∃ locations, db' = { db with locations := locations }) ∧ db'.codeOf id' = some code ∧
      ∀ l c, db.codeOf l = some c → db'.codeOf l = some c := by
  unfold Network.upsertLocation at h
  split at h
  · rename_i l hl
    cases h
    have hcode : l.code = code := by simpa using List.find?_some hl
    have hmem : db.locations.find? l.id = some l := Lib.Table.find?_of_mem (List.mem_of_find?_eq_some hl)
    have hkeep : ∀ k c, db.codeOf k = some c → Network.codeOf { db with
        locations := db.locations.update (fun r => decide (r.id = l.id))
          ⟨fun r => { r with name := name }, fun _ => rfl⟩ } k = some c := by
      intro k c hc
      obtain ⟨r, hr, rfl⟩ := Option.map_eq_some_iff.mp hc
      simp only [Network.codeOf, Lib.Table.find?_update, hr, Option.map_some]
      split <;> rfl
    exact ⟨⟨_, rfl⟩, hkeep _ _ (by rw [Network.codeOf, hmem, ← hcode]; rfl), hkeep⟩
  · obtain ⟨locations, hi, h⟩ := bind_eq_ok.mp h
    cases h
    have hf := Lib.Table.find?_insert (Db.insertRow_eq_ok.mp hi).2.2
    refine ⟨⟨locations, rfl⟩, ?_, fun k c hc => ?_⟩
    · simp [Network.codeOf, hf]
    · obtain ⟨r, hr, rfl⟩ := Option.map_eq_some_iff.mp hc
      have hne : id ≠ k := by
        rintro rfl
        have hn := (Lib.Table.insert_eq_some.mp (Db.insertRow_eq_ok.mp hi).2.2).1
        rw [hr] at hn
        cases hn
      simp [Network.codeOf, hf, hne, hr]

lemma insertUnit_eq_ok {u : CapacityUnit} (h : db.insertUnit u = .ok db') :
    ∃ capacityUnits, db' = { db with capacityUnits := capacityUnits } := by
  unfold Network.insertUnit at h
  split at h
  · cases h
  · obtain ⟨capacityUnits, -, h⟩ := bind_eq_ok.mp h
    cases h
    exact ⟨capacityUnits, rfl⟩

lemma insertSeat_eq_ok {s : SeatOccupancy} (h : db.insertSeat s = .ok db') :
    ∃ seatOccupancy, db.seatOccupancy.insert s = some seatOccupancy ∧
      db' = { db with seatOccupancy := seatOccupancy } ∧ (db.trips.find? s.tripId).isSome = true := by
  obtain ⟨seatOccupancy, hi, h⟩ := bind_eq_ok.mp h
  cases h
  obtain ⟨-, hrefs, hins⟩ := Db.insertRow_eq_ok.mp hi
  exact ⟨seatOccupancy, hins, rfl, (Bool.and_eq_true_iff.mp hrefs).1⟩

/-- The seats of a trip that has none yet: free ones for exactly these units. -/
lemma insertSeats_eq_ok {tripId : Uuid} {units : List Uuid}
    (h : units.foldlM (fun db unit => Gtfs.liftDb (db.insertSeat ⟨tripId, unit, 0#64⟩)) db = .ok db') :
    ∃ seatOccupancy : Lib.Table SeatOccupancy.key, db' = { db with seatOccupancy := seatOccupancy } ∧
      (∀ k, k.1 ≠ tripId → seatOccupancy.find? k = db.seatOccupancy.find? k) ∧
      ((∀ unit, db.seatOccupancy.find? (tripId, unit) = none) →
        ∀ unit r, seatOccupancy.find? (tripId, unit) = some r ↔ unit ∈ units ∧ r = ⟨tripId, unit, 0#64⟩) := by
  refine foldlM_invariant (I := fun units d => ∃ seats : Lib.Table SeatOccupancy.key,
    d = { db with seatOccupancy := seats } ∧ (∀ k, k.1 ≠ tripId → seats.find? k = db.seatOccupancy.find? k) ∧
      ((∀ unit, db.seatOccupancy.find? (tripId, unit) = none) →
        ∀ unit r, seats.find? (tripId, unit) = some r ↔ unit ∈ units ∧ r = ⟨tripId, unit, 0#64⟩))
    ⟨db.seatOccupancy, rfl, fun _ _ => rfl, fun hn unit r => by simp [hn unit]⟩ ?_ h
  rintro pre x d d' - ⟨seats, rfl, hother, hown⟩ ht
  obtain ⟨seats', hi, rfl, -⟩ := insertSeat_eq_ok (gtfsLiftDb_eq_ok.mp ht)
  have hf : ∀ k, seats'.find? k = if (tripId, x) = k then some ⟨tripId, x, 0#64⟩ else seats.find? k :=
    Lib.Table.find?_insert hi
  refine ⟨seats', rfl, fun k hk => ?_, fun hn unit r => ?_⟩
  · rw [hf, if_neg (fun he => hk (congrArg Prod.fst he).symm)]
    exact hother k hk
  · rw [hf, List.mem_append, List.mem_singleton]
    by_cases hx : x = unit
    · subst hx
      rw [if_pos rfl, Option.some_inj]
      exact ⟨fun he => ⟨.inr rfl, he.symm⟩, fun he => he.2.symm⟩
    · rw [if_neg (fun he => hx (congrArg Prod.snd he)), hown hn unit r]
      exact and_congr_left' ⟨.inl, fun hm => hm.resolve_right (fun he => hx he.symm)⟩

/-- The route under a code was there, or it is new. -/
lemma routeByCode_eq_ok {id routeId : Uuid} {code name : String}
    (h : db.routeByCode id code name = .ok (routeId, db')) :
    (∃ r ∈ db.routes.rows, r.code = code ∧ routeId = r.id ∧ db' = db) ∨
      ((∀ r ∈ db.routes.rows, r.code ≠ code) ∧ routeId = id ∧ ∃ routes,
        db.routes.insert ⟨id, code, name⟩ = some routes ∧ db' = { db with routes := routes }) := by
  unfold Network.routeByCode at h
  split at h
  · rename_i r hr
    cases h
    exact .inl ⟨r, List.mem_of_find?_eq_some hr, by simpa using List.find?_some hr, rfl, rfl⟩
  · rename_i hn
    obtain ⟨routes, hi, h⟩ := bind_eq_ok.mp h
    cases h
    refine .inr ⟨fun r hr => ?_, rfl, routes, (Db.insertRow_eq_ok.mp hi).2.2, rfl⟩
    simpa using List.find?_eq_none.mp hn r hr

/-- A stop is there already, or it is new at its position. -/
lemma insertRouteStop_eq_ok {s : RouteStop} (h : db.insertRouteStop s = .ok db') :
    ((db.routeStops.find? s.key).isSome = true ∧ db' = db) ∨
      (db.routeStops.find? s.key = none ∧ (db.routes.find? s.routeId).isSome = true ∧
        ∃ routeStops, db.routeStops.insert s = some routeStops ∧ db' = { db with routeStops := routeStops }) := by
  unfold Network.insertRouteStop at h
  split at h
  · rename_i r hr
    cases h
    exact .inl ⟨by rw [hr]; rfl, rfl⟩
  · rename_i hn
    split at h
    · cases h
    · obtain ⟨routeStops, hi, h⟩ := bind_eq_ok.mp h
      cases h
      obtain ⟨-, hrefs, hins⟩ := Db.insertRow_eq_ok.mp hi
      exact .inr ⟨hn, (Bool.and_eq_true_iff.mp hrefs).1, routeStops, hins, rfl⟩

/-- A departure is there already, or it is new. -/
lemma insertDatedTrip_eq_ok {t : DatedTrip} {n : Nat} (h : db.insertDatedTrip t = .ok (n, db')) :
    ((∃ r ∈ db.trips.rows, r.routeId = t.routeId ∧ r.resourceId = t.resourceId ∧ r.departsAt = t.departsAt) ∧
        n = 0 ∧ db' = db) ∨
      (n = 1 ∧ (db.routes.find? t.routeId).isSome = true ∧
        ∃ trips, db.trips.insert t = some trips ∧ db' = { db with trips := trips }) := by
  unfold Network.insertDatedTrip at h
  split at h
  · rename_i hany
    cases h
    obtain ⟨r, hr, hk⟩ := List.any_eq_true.mp hany
    simp only [Bool.and_eq_true, decide_eq_true_eq] at hk
    exact .inl ⟨⟨r, hr, hk.1.1, hk.1.2, hk.2⟩, rfl, rfl⟩
  · obtain ⟨trips, hi, h⟩ := bind_eq_ok.mp h
    cases h
    obtain ⟨-, hrefs, hins⟩ := Db.insertRow_eq_ok.mp hi
    simp only [Bool.and_eq_true] at hrefs
    exact .inr ⟨rfl, hrefs.1.1, trips, hins, rfl⟩

end Statements

section Preparing

variable {rt : Runtime} {call : ImportCall} {db db' : Network}

/-- What the steps before the trips leave of the network. -/
structure Prepared (db db' : Network) : Prop where
  routes : db'.routes = db.routes
  routeStops : db'.routeStops = db.routeStops
  trips : db'.trips = db.trips
  codes : ∀ l c, db.codeOf l = some c → db'.codeOf l = some c
  seatOccupancy : db'.seatOccupancy = db.seatOccupancy

lemma Prepared.trans {db₁ db₂ db₃ : Network} (h : Prepared db₁ db₂) (h' : Prepared db₂ db₃) :
    Prepared db₁ db₃ where
  routes := h'.routes.trans h.routes
  routeStops := h'.routeStops.trans h.routeStops
  trips := h'.trips.trans h.trips
  codes l c hc := h'.codes l c (h.codes l c hc)
  seatOccupancy := h'.seatOccupancy.trans h.seatOccupancy

/-- A stop id stands for a location with that code. -/
def Located (db : Network) (locationIds : String → Option Uuid) : Prop :=
  ∀ stopId l, locationIds stopId = some l → db.codeOf l = some stopId

lemma importStops_eq_ok {locationIds : String → Option Uuid} (h : importStops call db = .ok (db', locationIds)) :
    Prepared db db' ∧ Located db' locationIds := by
  refine foldlM_keeps (I := fun s : Network × (String → Option Uuid) => Prepared db s.1 ∧ Located s.1 s.2)
    ⟨⟨rfl, rfl, rfl, fun _ _ h => h, rfl⟩, fun _ _ h => by cases h⟩ ?_ h
  rintro ⟨stop, i⟩ ⟨db₁, ids₁⟩ ⟨db₂, ids₂⟩ - ⟨hp, hl⟩ ht
  obtain ⟨⟨id, db₃⟩, hu, ht⟩ := bind_eq_ok.mp ht
  obtain ⟨rfl, rfl⟩ := Prod.mk.inj (Except.ok.inj ht)
  obtain ⟨⟨locations, rfl⟩, hid, hcodes⟩ := upsertLocation_eq_ok (gtfsLiftDb_eq_ok.mp hu)
  refine ⟨hp.trans ⟨rfl, rfl, rfl, hcodes, rfl⟩, fun stopId l hs => ?_⟩
  simp only [Function.update_apply] at hs
  split at hs
  · rename_i he
    cases hs
    rw [he]
    exact hid
  · exact hcodes _ _ (hl stopId l hs)

lemma importVehicle_eq_ok {agency : Agency} {resourceId : Uuid}
    (h : importVehicle rt call agency db = .ok (resourceId, db')) :
    ∃ resources capacityUnits, db' = { db with resources := resources, capacityUnits := capacityUnits } := by
  unfold importVehicle at h
  split at h
  · split at h
    · cases h
      exact ⟨_, _, rfl⟩
    · cases h
  · simp only at h
    split at h
    · cases h
      exact ⟨_, _, rfl⟩
    · obtain ⟨resources, -, h⟩ := bind_eq_ok.mp h
      obtain ⟨db₁, hf, h⟩ := bind_eq_ok.mp h
      cases h
      refine foldlM_keeps (I := fun db₂ : Network => ∃ resources capacityUnits,
        db₂ = { db with resources := resources, capacityUnits := capacityUnits }) ⟨resources, _, rfl⟩ ?_ hf
      rintro x db₂ db₃ - ⟨resources, units, rfl⟩ ht
      obtain ⟨units', rfl⟩ := insertUnit_eq_ok (gtfsLiftDb_eq_ok.mp ht)
      exact ⟨resources, units', rfl⟩

lemma prepare_eq_ok {setting : Setting} (h : prepare rt call db = .ok (setting, db')) :
    Prepared db db' ∧ Located db' setting.locationIds ∧ setting.seatUnits = seatUnitsOf db' setting.resourceId := by
  unfold prepare at h
  split at h
  · cases h
  · obtain ⟨⟨operatorId, db₁⟩, h₁, h⟩ := bind_eq_ok.mp h
    obtain ⟨⟨db₂, locationIds⟩, h₂, h⟩ := bind_eq_ok.mp h
    obtain ⟨⟨resourceId, db₃⟩, h₃, h⟩ := bind_eq_ok.mp h
    cases h
    obtain ⟨operators, rfl⟩ := upsertOperator_eq_ok (gtfsLiftDb_eq_ok.mp h₁)
    obtain ⟨hp, hl⟩ := importStops_eq_ok h₂
    obtain ⟨resources, units, rfl⟩ := importVehicle_eq_ok h₃
    exact ⟨⟨hp.routes, hp.routeStops, hp.trips, hp.codes, hp.seatOccupancy⟩, hl, rfl⟩

end Preparing

section Patterns

variable {call : ImportCall} {setting : Setting} {db db' : Network} {routeId : Uuid} {first : Int32}
  {stops : List StopTime}

/-- A stop of a route at the place and the times of a stop time, for a trip that leaves at
minute `first`. -/
structure Follows (db : Network) (first : Int32) (s : RouteStop) (st : StopTime) : Prop where
  place : db.codeOf s.locationId = some st.stopId
  arrival : gtfsMinutes st.arrivalTime = .ok (first + s.arriveOffsetMin)
  departure : gtfsMinutes st.departureTime = .ok (first + s.departOffsetMin)

/-- A route that keeps the timetable of these stop times. -/
structure KeepsTimes (db : Network) (routeId : Uuid) (first : Int32) (stops : List StopTime) : Prop where
  positions : (db.stopsOf routeId).map RouteStop.stopIndex = List.range stops.length
  times : List.Forall₂ (Follows db first) (db.stopsOf routeId) stops

lemma importRouteStop_eq_ok {x : StopTime × Nat} (h : importRouteStop setting routeId first db x = .ok db') :
    ∃ s : RouteStop, s.key = (routeId, x.2) ∧ setting.locationIds x.1.stopId = some s.locationId ∧
      gtfsMinutes x.1.arrivalTime = .ok (first + s.arriveOffsetMin) ∧
      gtfsMinutes x.1.departureTime = .ok (first + s.departOffsetMin) ∧ db.insertRouteStop s = .ok db' := by
  unfold importRouteStop at h
  split at h
  · cases h
  · rename_i location hl
    obtain ⟨arrive, ha, h⟩ := bind_eq_ok.mp h
    obtain ⟨depart, hd, h⟩ := bind_eq_ok.mp h
    refine ⟨⟨routeId, x.2, location, arrive - first, depart - first⟩, rfl, hl, ?_, ?_, gtfsLiftDb_eq_ok.mp h⟩
    · rw [ha, Int32.add_comm, Int32.sub_add_cancel]
    · rw [hd, Int32.add_comm, Int32.sub_add_cancel]

/-- Stops whose positions are all taken are passed over. -/
lemma importRouteStops_taken (hpos : ∀ i < stops.length, (db.routeStops.find? (routeId, i)).isSome = true)
    (h : stops.zipIdx.foldlM (importRouteStop setting routeId first) db = .ok db') : db' = db := by
  refine foldlM_keeps (I := fun db₁ => db₁ = db) rfl ?_ h
  rintro ⟨st, i⟩ db₁ db₂ hm rfl ht
  obtain ⟨s, hk, -, -, -, hs⟩ := importRouteStop_eq_ok ht
  rcases insertRouteStop_eq_ok hs with ⟨-, rfl⟩ | ⟨hn, -⟩
  · rfl
  · have hsome := hpos i (List.mem_zipIdx' hm).1
    rw [hk] at hn
    rw [hn] at hsome
    cases hsome

/-- The stops of a route without any are all new, one at each position. -/
lemma importRouteStops_fresh (hloc : Located db setting.locationIds)
    (hfree : ∀ s ∈ db.routeStops.rows, s.routeId ≠ routeId)
    (h : stops.zipIdx.foldlM (importRouteStop setting routeId first) db = .ok db') :
    ∃ routeStops : Lib.Table RouteStop.key, ∃ new, db' = { db with routeStops := routeStops } ∧
      routeStops.rows = db.routeStops.rows ++ new ∧ (∀ s ∈ new, s.routeId = routeId) ∧
      new.map RouteStop.stopIndex = List.range stops.length ∧ List.Forall₂ (Follows db first) new stops := by
  have hinv := foldlM_invariant (l := stops.zipIdx) (I := fun pre d =>
    ∃ routeStops : Lib.Table RouteStop.key, ∃ new, d = { db with routeStops := routeStops } ∧ routeStops.rows = db.routeStops.rows ++ new ∧
      (∀ s ∈ new, s.routeId = routeId) ∧ new.map RouteStop.stopIndex = pre.map Prod.snd ∧
      List.Forall₂ (fun s x => Follows db first s x.1) new pre)
    ⟨db.routeStops, [], rfl, by simp, by simp, rfl, .nil⟩ ?_ h
  · obtain ⟨routeStops, new, hdb, hrows, hid, hpos, htimes⟩ := hinv
    refine ⟨routeStops, new, hdb, hrows, hid, ?_, ?_⟩
    · rw [hpos, List.zipIdx_map_snd, List.range_eq_range']
    · have hmap := List.forall₂_map_right_iff (f := Prod.fst) (R := Follows db first) (l := new)
        (u := stops.zipIdx)
      rw [List.zipIdx_map_fst] at hmap
      exact hmap.mpr htimes
  · rintro pre ⟨st, i⟩ d d' hp ⟨routeStops, new, rfl, hrows, hid, hpos, htimes⟩ ht
    obtain ⟨s, hk, hs, ha, hd, hins⟩ := importRouteStop_eq_ok ht
    obtain ⟨hroute, hindex⟩ := Prod.mk.inj hk
    have hnodup : ((pre ++ [(st, i)]).map Prod.snd).Nodup := by
      have hall : (stops.zipIdx.map Prod.snd).Nodup := by
        rw [List.zipIdx_map_snd]
        exact List.nodup_range'
      exact hall.sublist ((hp.sublist).map Prod.snd)
    rw [List.map_append, List.map_singleton, List.nodup_append] at hnodup
    have habsent : routeStops.find? s.key = none := by
      rw [Lib.Table.find?_eq_none]
      intro r hr hrk
      rw [hrows] at hr
      obtain ⟨hr₁, hr₂⟩ := Prod.mk.inj (hrk.trans hk)
      rcases List.mem_append.mp hr with hr | hr
      · exact hfree r hr hr₁
      · have hm : r.stopIndex ∈ pre.map Prod.snd := hpos ▸ List.mem_map_of_mem hr
        exact hnodup.2.2 _ hm _ (List.mem_singleton_self i) hr₂
    rcases insertRouteStop_eq_ok hins with ⟨hsome, -⟩ | ⟨-, -, routeStops', hi, rfl⟩
    · rw [habsent] at hsome
      cases hsome
    · refine ⟨routeStops', new ++ [s], rfl, ?_, ?_, ?_, ?_⟩
      · rw [(Lib.Table.insert_eq_some.mp hi).2, hrows, List.append_assoc]
      · intro r hr
        rcases List.mem_append.mp hr with hr | hr
        · exact hid r hr
        · rw [List.mem_singleton.mp hr]
          exact hroute
      · rw [List.map_append, List.map_append, hpos]
        simp [hindex]
      · exact List.rel_append htimes (.cons ⟨hloc _ _ hs, ha, hd⟩ .nil)

lemma mem_stopsOf {s : RouteStop} : s ∈ db.stopsOf routeId ↔ s ∈ db.routeStops.rows ∧ s.routeId = routeId := by
  unfold Network.stopsOf
  rw [List.mem_insertionSort, Lib.Table.mem_select, decide_eq_true_eq]

lemma stopsOf_congr (h : db'.routeStops = db.routeStops) : db'.stopsOf routeId = db.stopsOf routeId := by
  rw [Network.stopsOf, Network.stopsOf, h]

lemma codeOf_congr (h : db'.locations = db.locations) (l : Uuid) : db'.codeOf l = db.codeOf l := by
  rw [Network.codeOf, Network.codeOf, h]

lemma Serves.congr {stopIds : List String} (h : db.Serves routeId stopIds)
    (hs : db'.stopsOf routeId = db.stopsOf routeId) (hl : ∀ l c, db.codeOf l = some c → db'.codeOf l = some c) :
    db'.Serves routeId stopIds := by
  unfold Network.Serves at h ⊢
  rw [hs, ← h]
  refine List.map_congr_left (fun s hm => ?_)
  have hin : (s.stopIndex, db.codeOf s.locationId) ∈ stopIds.mapIdx (fun i stopId => (i, some stopId)) :=
    h ▸ List.mem_map_of_mem hm
  obtain ⟨i, hi, he⟩ := List.mem_mapIdx.mp hin
  rw [hl _ _ (Prod.mk.inj he).2.symm, ← (Prod.mk.inj he).2]

/-- A route that serves a list of stops has all their positions. -/
lemma Serves.taken {stopIds : List String} (h : db.Serves routeId stopIds) :
    ∀ i < stopIds.length, (db.routeStops.find? (routeId, i)).isSome = true := by
  intro i hi
  have hin : (i, some stopIds[i]) ∈ (db.stopsOf routeId).map (fun s => (s.stopIndex, db.codeOf s.locationId)) := by
    rw [show (db.stopsOf routeId).map (fun s => (s.stopIndex, db.codeOf s.locationId)) = _ from h]
    exact List.mem_mapIdx.mpr ⟨i, hi, rfl⟩
  obtain ⟨s, hs, he⟩ := List.mem_map.mp hin
  obtain ⟨hm, hr⟩ := mem_stopsOf.mp hs
  have hkey : s.key = (routeId, i) := by rw [RouteStop.key, hr, (Prod.mk.inj he).1]
  rw [← hkey, Lib.Table.find?_of_mem hm]
  rfl

/-- A route that keeps a timetable serves its stops. -/
lemma KeepsTimes.serves (h : KeepsTimes db routeId first stops) :
    db.Serves routeId (stops.map StopTime.stopId) := by
  unfold Network.Serves
  refine List.ext_getElem ?_ (fun i h₁ h₂ => ?_)
  · simp [h.times.length_eq]
  · have hi : i < (db.stopsOf routeId).length := by simpa using h₁
    have hi' : i < stops.length := by simpa using h₂
    have hlt : i < ((db.stopsOf routeId).map RouteStop.stopIndex).length := by simpa using hi
    have hpos : ((db.stopsOf routeId).map RouteStop.stopIndex)[i] = i := by simp [h.positions]
    rw [List.getElem_map] at hpos
    simp only [List.getElem_map, List.getElem_mapIdx, hpos]
    exact congrArg (Prod.mk i) (h.times.get hi hi').place

/-- A route that was made for the stop times of a trip. -/
structure Opened (db db' : Network) (route : Route) (first : Int32) (stops : List StopTime) : Prop where
  fresh : db.routes.find? route.id = none
  routes : db'.routes.rows = db.routes.rows ++ [route]
  locations : db'.locations = db.locations
  trips : db'.trips = db.trips
  others : ∀ id, id ≠ route.id → db'.stopsOf id = db.stopsOf id
  times : KeepsTimes db' route.id first stops
  stops : ∀ s ∈ db'.routeStops.rows, s ∈ db.routeStops.rows ∨ s.routeId = route.id

/-- The first stops of a new route. -/
lemma importRouteStops_opened {id : Uuid} {code name : String} {routes : Lib.Table Route.id} (href : Referenced db)
    (hloc : Located db setting.locationIds) (hi : db.routes.insert ⟨id, code, name⟩ = some routes)
    (h : stops.zipIdx.foldlM (importRouteStop setting id first) { db with routes := routes } = .ok db') :
    Opened db db' ⟨id, code, name⟩ first stops := by
  obtain ⟨hfresh, hroutes⟩ := Lib.Table.insert_eq_some.mp hi
  have hfree : ∀ s ∈ db.routeStops.rows, s.routeId ≠ id := by
    rintro s hs rfl
    have hsome := href.stops s hs
    rw [show db.routes.find? s.routeId = none from hfresh] at hsome
    cases hsome
  have hloc' : Located { db with routes := routes } setting.locationIds := hloc
  obtain ⟨routeStops, new, rfl, hrows, hnew, hpos, htimes⟩ := importRouteStops_fresh hloc' hfree h
  have hself : Network.stopsOf { db with routes := routes, routeStops := routeStops } id = new := by
    have hsel : routeStops.select (fun s => decide (s.routeId = id)) = new := by
      have hold : db.routeStops.rows.filter (fun s => decide (s.routeId = id)) = [] :=
        List.filter_eq_nil_iff.mpr (fun s hs => by simpa using hfree s hs)
      have hall : new.filter (fun s => decide (s.routeId = id)) = new :=
        List.filter_eq_self.mpr (fun s hs => by simpa using hnew s hs)
      rw [Lib.Table.select, hrows, List.filter_append, hold, hall, List.nil_append]
    have hsorted : new.Pairwise (fun a b => a.stopIndex ≤ b.stopIndex) := by
      have hle : (new.map RouteStop.stopIndex).Pairwise (fun a b => a ≤ b) := by
        rw [hpos]
        exact List.pairwise_lt_range.imp (fun h => Nat.le_of_lt h)
      exact List.pairwise_map.mp hle
    unfold Network.stopsOf
    rw [hsel]
    exact List.Pairwise.insertionSort_eq hsorted
  refine ⟨hfresh, hroutes, rfl, rfl, fun k hk => ?_, ⟨?_, ?_⟩, fun s hs => ?_⟩
  · have hnone : new.filter (fun s => decide (s.routeId = k)) = [] :=
      List.filter_eq_nil_iff.mpr (fun s hs => by simpa [hnew s hs] using Ne.symm hk)
    unfold Network.stopsOf Lib.Table.select
    rw [hrows, List.filter_append, hnone, List.append_nil]
  · rw [hself]
    exact hpos
  · rw [hself]
    exact htimes.imp (fun s st hf => ⟨hf.place, hf.arrival, hf.departure⟩)
  · have hm : s ∈ db.routeStops.rows ++ new := hrows ▸ hs
    exact (List.mem_append.mp hm).imp (fun h => h) (hnew s)

/-- A pattern is attached to the route of its code, which is made if it is not there. -/
lemma importPattern_eq_ok {routeUuid : Uuid} {code name : String} {pattern : Pattern} (href : Referenced db)
    (hloc : Located db setting.locationIds)
    (h : importPattern setting routeUuid code name stops db = .ok (pattern, db')) :
    firstDeparture stops = .ok pattern.firstDepartureMin ∧
      ((∃ r ∈ db.routes.rows, r.code = code ∧ pattern.routeId = r.id ∧
          (db.Serves r.id (stops.map StopTime.stopId) → db' = db)) ∨
        ((∀ r ∈ db.routes.rows, r.code ≠ code) ∧ pattern.routeId = routeUuid ∧
          Opened db db' ⟨routeUuid, code, name⟩ pattern.firstDepartureMin stops)) := by
  obtain ⟨first, hf, h⟩ := bind_eq_ok.mp h
  obtain ⟨⟨routeId, db₁⟩, hr, h⟩ := bind_eq_ok.mp h
  obtain ⟨db₂, hs, h⟩ := bind_eq_ok.mp h
  cases h
  refine ⟨hf, ?_⟩
  rcases routeByCode_eq_ok (gtfsLiftDb_eq_ok.mp hr) with ⟨r, hm, hc, rfl, rfl⟩ | ⟨hn, rfl, routes, hi, rfl⟩
  · refine .inl ⟨r, hm, hc, rfl, fun hserves => importRouteStops_taken (fun i hi => ?_) hs⟩
    exact Serves.taken hserves i (by simpa using hi)
  · exact .inr ⟨hn, rfl, importRouteStops_opened href hloc hi hs⟩

end Patterns

section Departures

variable {rt : Runtime} {call : ImportCall} {setting : Setting} {pattern : Pattern} {index n : Nat}
  {trip : Gtfs.TripRow} {p p' : Progress}

/-- What a departure leaves alone. -/
structure SameRoutes (p p' : Progress) : Prop where
  patterns : p'.patterns = p.patterns
  counts : p'.patternCountPerRoute = p.patternCountPerRoute
  locations : p'.db.locations = p.db.locations
  routes : p'.db.routes = p.db.routes
  routeStops : p'.db.routeStops = p.db.routeStops

lemma SameRoutes.refl (p : Progress) : SameRoutes p p := ⟨rfl, rfl, rfl, rfl, rfl⟩

lemma SameRoutes.trans {p₁ p₂ p₃ : Progress} (h : SameRoutes p₁ p₂) (h' : SameRoutes p₂ p₃) :
    SameRoutes p₁ p₃ where
  patterns := h'.patterns.trans h.patterns
  counts := h'.counts.trans h.counts
  locations := h'.locations.trans h.locations
  routes := h'.routes.trans h.routes
  routeStops := h'.routeStops.trans h.routeStops

/-- The row of a departure. -/
def departureRow (call : ImportCall) (setting : Setting) (pattern : Pattern) (index : Nat) (trip : Gtfs.TripRow)
    (segmentCount : Nat) (date : Int) : DatedTrip where
  id := call.ids.trip index date
  routeId := pattern.routeId
  resourceId := setting.resourceId
  operatorId := setting.operatorId
  serviceNumber := trip.tripId
  serviceDate := date
  departsAt := departsAt date pattern.firstDepartureMin
  segmentCount

/-- A departure is there already, or it is added with the seats of the vehicle. -/
lemma importDeparture_cases {date : Int}
    (h : importDeparture call setting pattern index trip n p date = .ok p') :
    ((∃ r ∈ p.db.trips.rows, r.routeId = pattern.routeId ∧ r.resourceId = setting.resourceId ∧
        r.departsAt = departsAt date pattern.firstDepartureMin) ∧ p' = p) ∨
      ((p.db.routes.find? pattern.routeId).isSome = true ∧ ∃ (trips : Lib.Table DatedTrip.id)
        (seatOccupancy : Lib.Table SeatOccupancy.key),
        p' = { p with
          db := { p.db with trips := trips, seatOccupancy := seatOccupancy }
          datedTrips := p.datedTrips + 1 } ∧
        p.db.trips.insert (departureRow call setting pattern index trip n date) = some trips ∧
        (∀ k, k.1 ≠ call.ids.trip index date → seatOccupancy.find? k = p.db.seatOccupancy.find? k) ∧
        ((∀ unit, p.db.seatOccupancy.find? (call.ids.trip index date, unit) = none) →
          ∀ unit r, seatOccupancy.find? (call.ids.trip index date, unit) = some r ↔
            unit ∈ setting.seatUnits ∧ r = ⟨call.ids.trip index date, unit, 0#64⟩)) := by
  obtain ⟨⟨inserted, db₁⟩, hi, h⟩ := bind_eq_ok.mp h
  rcases insertDatedTrip_eq_ok (gtfsLiftDb_eq_ok.mp hi) with ⟨hex, rfl, rfl⟩ | ⟨rfl, hroute, trips, hins, rfl⟩
  · cases h
    exact .inl ⟨hex, rfl⟩
  · simp only [if_true] at h
    obtain ⟨db₂, hs, h⟩ := bind_eq_ok.mp h
    cases h
    obtain ⟨seatOccupancy, rfl, hother, hown⟩ := insertSeats_eq_ok hs
    exact .inr ⟨hroute, trips, seatOccupancy, rfl, hins, hother, hown⟩

/-- A departure is added, unless its route has one of this vehicle at that time. -/
lemma importDeparture_eq_ok {date : Int}
    (h : importDeparture call setting pattern index trip n p date = .ok p') :
    SameRoutes p p' ∧
      (((∃ r ∈ p.db.trips.rows, r.routeId = pattern.routeId ∧ r.resourceId = setting.resourceId ∧
          r.departsAt = departsAt date pattern.firstDepartureMin) ∧ p'.db.trips = p.db.trips) ∨
        ((p.db.routes.find? pattern.routeId).isSome = true ∧
          p'.db.trips.rows = p.db.trips.rows ++ [departureRow call setting pattern index trip n date])) := by
  rcases importDeparture_cases h with ⟨hex, rfl⟩ | ⟨hroute, trips, seatOccupancy, rfl, hins, -, -⟩
  · exact ⟨.refl _, .inl ⟨hex, rfl⟩⟩
  · exact ⟨⟨rfl, rfl, rfl, rfl, rfl⟩, .inr ⟨hroute, (Lib.Table.insert_eq_some.mp hins).2⟩⟩

/-- A trip with too few or too many stops, or without a service, adds no departure. The
others have their pattern, and then their departures. -/
lemma importTrip_eq_ok {x : Gtfs.TripRow × Nat} (h : importTrip rt call setting p x = .ok p') :
    let stops := call.feed.tripStops x.1.tripId
    ((stops.length < 2 ∨ 64 < stops.length) ∧ p' = { p with skippedTrips := p.skippedTrips + 1 }) ∨
      ((2 ≤ stops.length ∧ stops.length ≤ 64) ∧
        ∃ pattern p₁, patternOf call setting p x.2 x.1 = .ok (pattern, p₁) ∧
        ((call.feed.service x.1.serviceId = none ∧ p' = { p₁ with skippedTrips := p₁.skippedTrips + 1 }) ∨
          ∃ service dates, call.feed.service x.1.serviceId = some service ∧
            serviceDates rt call service = .ok dates ∧
            dates.foldlM (importDeparture call setting pattern x.2 x.1 (stops.length - 1)) p₁ = .ok p')) := by
  unfold importTrip at h
  simp only at h ⊢
  split at h
  · rename_i hlen
    cases h
    exact .inl ⟨hlen, rfl⟩
  · rename_i hlen
    obtain ⟨⟨pattern, p₁⟩, hp, h⟩ := bind_eq_ok.mp h
    refine .inr ⟨by omega, pattern, p₁, hp, ?_⟩
    simp only at h
    split at h
    · rename_i hs
      cases h
      exact .inl ⟨hs, rfl⟩
    · rename_i service hs
      obtain ⟨dates, hd, h⟩ := bind_eq_ok.mp h
      exact .inr ⟨service, dates, hs, hd, h⟩

end Departures

section Keys

variable {feed : Feed} {pre l : List Gtfs.TripRow} {t : Gtfs.TripRow}

/-- The importer takes trips of two to sixty-four stops. -/
def taken (feed : Feed) (t : Gtfs.TripRow) : Bool :=
  decide (2 ≤ (feed.tripStops t.tripId).length) && decide ((feed.tripStops t.tripId).length ≤ 64)

def stopIds (feed : Feed) (tripId : String) : List String := (feed.tripStops tripId).map StopTime.stopId

def patternKey (feed : Feed) (t : Gtfs.TripRow) : PatternKey := (t.routeId, stopIds feed t.tripId)

/-- The patterns of a list of trips in the order they are met. -/
def patternKeys (feed : Feed) (trips : List Gtfs.TripRow) : List PatternKey :=
  trips.foldl (fun keys t =>
    if taken feed t = true ∧ patternKey feed t ∉ keys then keys ++ [patternKey feed t] else keys) []

/-- Patterns of the route met so far. -/
def patternCount (keys : List PatternKey) (routeId : String) : Nat :=
  keys.countP (fun k => decide (k.1 = routeId))

/-- Each pattern's code, with its stops. -/
def codedFrom (feed : Feed) (keys : List PatternKey) : List PatternKey → List (String × List String)
  | [] => []
  | key :: rest =>
    (routeCode (feed.baseName key.1) (patternCount keys key.1), key.2) :: codedFrom feed (keys ++ [key]) rest

def codedPatterns (feed : Feed) : List (String × List String) := codedFrom feed [] (patternKeys feed feed.trips)

lemma patternKeys_concat : patternKeys feed (pre ++ [t]) =
    if taken feed t = true ∧ patternKey feed t ∉ patternKeys feed pre then
      patternKeys feed pre ++ [patternKey feed t]
    else patternKeys feed pre := by
  unfold patternKeys
  rw [List.foldl_append]
  rfl

lemma patternKeys_mono (h : pre <+: l) : patternKeys feed pre <+: patternKeys feed l := by
  obtain ⟨rest, rfl⟩ := h
  induction rest generalizing pre with
  | nil => simp
  | cons t rest ih =>
    have hstep : patternKeys feed pre <+: patternKeys feed (pre ++ [t]) := by
      rw [patternKeys_concat]
      split
      · exact List.prefix_append _ _
      · exact List.prefix_refl _
    have hrest : patternKeys feed (pre ++ [t]) <+: patternKeys feed (pre ++ [t] ++ rest) := ih
    rw [List.append_assoc] at hrest
    exact hstep.trans hrest

lemma mem_codedFrom {keys before after : List PatternKey} {key : PatternKey} :
    (routeCode (feed.baseName key.1) (patternCount (keys ++ before) key.1), key.2) ∈
      codedFrom feed keys (before ++ key :: after) := by
  induction before generalizing keys with
  | nil => simp [codedFrom]
  | cons k before ih =>
    rw [List.cons_append, codedFrom]
    refine List.mem_cons_of_mem _ ?_
    have hm : _ ∈ codedFrom feed (keys ++ [k]) (before ++ key :: after) := ih
    rwa [List.append_assoc] at hm

/-- The code a pattern is given when it is met. -/
lemma mem_codedPatterns (h : pre ++ [t] <+: feed.trips) (ht : taken feed t = true)
    (hn : patternKey feed t ∉ patternKeys feed pre) :
    (routeCode (feed.baseName t.routeId) (patternCount (patternKeys feed pre) t.routeId), stopIds feed t.tripId) ∈
      codedPatterns feed := by
  have hp : patternKeys feed (pre ++ [t]) <+: patternKeys feed feed.trips := patternKeys_mono h
  rw [patternKeys_concat, if_pos ⟨ht, hn⟩] at hp
  obtain ⟨after, ha⟩ := hp
  have hall : patternKeys feed feed.trips = patternKeys feed pre ++ patternKey feed t :: after := by
    rw [← ha, List.append_assoc, List.singleton_append]
  have hm : (routeCode (feed.baseName t.routeId) (patternCount ([] ++ patternKeys feed pre) t.routeId),
      stopIds feed t.tripId) ∈ codedFrom feed [] (patternKeys feed pre ++ patternKey feed t :: after) :=
    mem_codedFrom
  rw [codedPatterns, hall]
  exact hm

end Keys

end Lulan.Proofs
