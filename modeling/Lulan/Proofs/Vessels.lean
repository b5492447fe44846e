import Lulan.Api.Trips
import Lulan.Proofs.Occupancy
import Lulan.Proofs.Routing
import Lulan.Proofs.Runs

/-!
# Vessels and the trips scheduled on them

A trip can be sold when every unit of its vessel has its one occupancy row. The endpoint
that schedules trips leaves them so whatever the vessel; an import does where the vessel
has no pools.
-/

namespace Lulan.Gtfs

/-- The database an import leaves. It writes these tables, new trips and units have the
defaults of the schema in their other columns, and the rest is not touched. -/
def Network.onto (net : Network) (db : Db) : Db := { db with
  locations := net.locations.mapRows (fun l => ⟨l.id, l.code⟩) (fun _ => rfl)
  routeStops := net.routeStops.mapRows
    (fun s => ⟨s.routeId, s.stopIndex, s.locationId, s.departOffsetMin.toInt⟩) (fun _ => rfl)
  trips := net.trips.mapRows (fun t => ⟨t.id, t.routeId, t.resourceId, t.departsAt, t.segmentCount,
    ((db.trips.find? t.id).map Lulan.TripRow.status).getD .scheduled⟩) (fun _ => rfl)
  capacityUnits := net.capacityUnits.mapRows (fun u => ⟨u.id, u.resourceId, u.kind, u.code, u.fareClass,
    (db.capacityUnits.find? u.id).bind CapacityUnitRow.poolCapacity,
    ((db.capacityUnits.find? u.id).map CapacityUnitRow.admission).getD false⟩) (fun _ => rfl)
  seatOccupancy := net.seatOccupancy.mapRows (fun r => ⟨r.tripId, r.unitId, r.occupiedMask⟩) (fun _ => rfl) }

lemma Network.seat_onto (net : Network) (db : Db) (k : Uuid × Uuid) : (net.onto db).seatOccupancy.find? k =
    (net.seatOccupancy.find? k).map (fun r => ⟨r.tripId, r.unitId, r.occupiedMask⟩) :=
  Lib.Table.find?_mapRows net.seatOccupancy
    (fun r => (⟨r.tripId, r.unitId, r.occupiedMask⟩ : SeatOccupancyRow)) (fun _ => rfl) k

lemma Network.trip_onto (net : Network) (db : Db) (id : Uuid) :
    (net.onto db).trips.find? id = none ↔ net.trips.find? id = none := by
  simp only [Network.onto, Lib.Table.find?_mapRows, Option.map_eq_none_iff]

end Lulan.Gtfs

namespace Lulan.Proofs

open Lulan Lulan.Gtfs Lib

section Sale

variable {db : Db} {t : Lulan.TripRow} {cu : CapacityUnitRow} {now : Timestamp}

/-- The one occupancy row of a unit on a trip of which nothing has been sold. -/
structure Equipped (db : Db) (t : Lulan.TripRow) (cu : CapacityUnitRow) : Prop where
  seat : cu.kind = .seat → db.seatOccupancy.find? (t.id, cu.id) = some ⟨t.id, cu.id, 0#64⟩ ∧
    db.poolOccupancy.find? (t.id, cu.id) = none
  pool : cu.kind = .pool → db.seatOccupancy.find? (t.id, cu.id) = none ∧ ∃ capacity,
    cu.poolCapacity = some capacity ∧
    db.poolOccupancy.find? (t.id, cu.id) = some ⟨t.id, cu.id, List.replicate t.segmentCount capacity⟩

/-- A claim of what a sale resolved to wins, for a pool in any quantity it holds. -/
def Claimable (db : Db) (tripId : Uuid) (target : ClaimTarget) : Prop :=
  match target.kind with
  | .seat => (db.claimSeatExec tripId target.unitId target.span).1 = 1
  | .pool => ∃ capacity, (db.capacityUnits.find? target.unitId).bind CapacityUnitRow.poolCapacity = some capacity ∧
    ∀ qty ≤ capacity, (db.claimPoolExec tripId target.unitId target.span qty).1 = 1

/-- A trip whose vessel is complete, and sells. -/
structure Fitted (db : Db) (t : Lulan.TripRow) : Prop where
  equipped : ∀ cu ∈ db.capacityUnits.rows, cu.resourceId = t.resourceId → Equipped db t cu
  claimable : ∀ now unitCode origin destination target,
    Db.resolveTarget ⟨now, db⟩ t.id unitCode origin destination = .ok (some target) → Claimable db t.id target

/-- The keys and checks of the schema, and stops numbered from 0 as their writers number them. -/
structure Stocked (db : Db) : Prop where
  seats : ∀ r ∈ db.seatOccupancy.rows, (db.trips.find? r.tripId).isSome = true
  pools : ∀ r ∈ db.poolOccupancy.rows, (db.trips.find? r.tripId).isSome = true
  capacity : ∀ cu ∈ db.capacityUnits.rows, cu.kind = .pool ↔ cu.poolCapacity.isSome = true
  stops : ∀ rs ∈ db.routeStops.rows,
    rs.stopIndex < (db.routeStops.select (fun r => decide (r.routeId = rs.routeId))).length

lemma claimSeat_equipped (he : Equipped db t cu) (hk : cu.kind = .seat) (span : SegmentSpan) :
    (db.claimSeatExec t.id cu.id span).1 = 1 := by
  have hguard : ∀ r, Db.seatFree t.id cu.id span r = true → r.key = (t.id, cu.id) := by
    intro r hr
    simp only [Db.seatFree, Bool.and_eq_true, decide_eq_true_eq] at hr
    exact hr.1
  apply affected_eq_one hguard (he.seat hk).1
  simp [Db.seatFree, SeatOccupancyRow.key]

lemma claimPool_equipped (he : Equipped db t cu) (hk : cu.kind = .pool) {span : SegmentSpan}
    (hspan : span.toIndex ≤ t.segmentCount) {capacity qty : Int} (hc : cu.poolCapacity = some capacity)
    (hqty : qty ≤ capacity) : (db.claimPoolExec t.id cu.id span qty).1 = 1 := by
  obtain ⟨-, capacity', hc', hrow⟩ := he.pool hk
  obtain rfl : capacity' = capacity := Option.some.inj (hc'.symm.trans hc)
  have hguard : ∀ r, Db.poolHas t.id cu.id span qty r = true → r.key = (t.id, cu.id) := by
    intro r hr
    simp only [Db.poolHas, Bool.and_eq_true, decide_eq_true_eq] at hr
    exact hr.1
  apply affected_eq_one hguard hrow
  have hne := span.nonempty
  have hslice : Db.slice (List.replicate t.segmentCount capacity') (span.fromIndex + 1) span.toIndex =
      List.replicate (span.toIndex - span.fromIndex) capacity' := by
    rw [Db.slice, List.take_replicate, List.drop_replicate]
    congr 1
    omega
  have hmin : (List.replicate (span.toIndex - span.fromIndex) capacity').min? = some capacity' := by
    obtain ⟨n, hn⟩ : ∃ n, span.toIndex - span.fromIndex = n + 1 := ⟨span.toIndex - span.fromIndex - 1, by omega⟩
    rw [hn, List.min?_replicate_of_pos (by omega)]
  simp [Db.poolHas, PoolOccupancyRow.key, hslice, hmin, hqty]

lemma resolveSpan_bound {routeId : Uuid} {origin destination : String} {span : SegmentSpan} {offset : Int}
    (h : db.resolveSpan routeId origin destination = .ok (span, offset)) :
    ∃ rs ∈ db.routeStops.rows, rs.routeId = routeId ∧ span.toIndex ≤ rs.stopIndex := by
  simp only [Db.resolveSpan, pickSpan] at h
  split at h
  · cases h
  · split at h
    · cases h
    · split at h
      · cases h
      · rename_i stop hstop
        split at h
        · cases h
        · rename_i span' hspan
          cases h
          have hm := (List.mem_insertionSort _).mp (List.mem_of_find?_eq_some hstop)
          obtain ⟨rs, hrs, hf⟩ := List.mem_filterMap.mp hm
          split at hf
          · rename_i hroute
            split at hf
            · split at hf
              · cases hf
                refine ⟨rs, hrs, hroute, ?_⟩
                unfold SegmentSpan.new at hspan
                split_ifs at hspan
                cases hspan
                exact Nat.mod_le _ _
              · cases hf
            · cases hf
          · cases hf

lemma resolveTarget_trip {unitCode origin destination : String} {target : ClaimTarget} (ht : t ∈ db.trips.rows)
    (h : Db.resolveTarget ⟨now, db⟩ t.id unitCode origin destination = .ok (some target)) :
    ∃ cu ∈ db.capacityUnits.rows, cu.resourceId = t.resourceId ∧ target.unitId = cu.id ∧ target.kind = cu.kind ∧
      ∃ rs ∈ db.routeStops.rows, rs.routeId = t.routeId ∧ target.span.toIndex ≤ rs.stopIndex := by
  have hfind : db.trips.find? t.id = some t := Lib.Table.find?_of_mem ht
  simp only [Db.resolveTarget, hfind] at h
  split at h
  · cases h
  · rename_i cu hcu
    have hp := List.find?_some hcu
    simp only [Bool.and_eq_true, decide_eq_true_eq] at hp
    split_ifs at h
    split at h
    · cases h
    · rename_i span offset hspan
      split_ifs at h
      cases h
      obtain ⟨rs, hrs, hroute, hle⟩ := resolveSpan_bound hspan
      exact ⟨cu, List.mem_of_find?_eq_some hcu, hp.1, rfl, rfl, rs, hrs, hroute, hle⟩

/-- A complete vessel sells, as far as the trip has the segments its pools need. -/
lemma claimable_of_equipped (ht : t ∈ db.trips.rows)
    (he : ∀ cu ∈ db.capacityUnits.rows, cu.resourceId = t.resourceId → Equipped db t cu)
    (hspan : ∀ cu ∈ db.capacityUnits.rows, cu.resourceId = t.resourceId → cu.kind = .pool →
      ∀ rs ∈ db.routeStops.rows, rs.routeId = t.routeId → rs.stopIndex ≤ t.segmentCount) : Fitted db t := by
  refine ⟨he, fun now unitCode origin destination target h => ?_⟩
  obtain ⟨cu, hcu, hres, hid, hkind, rs, hrs, hroute, hle⟩ := resolveTarget_trip ht h
  have hequip := he cu hcu hres
  unfold Claimable
  rw [hid, hkind]
  cases hk : cu.kind with
  | seat => exact claimSeat_equipped hequip hk target.span
  | pool =>
    obtain ⟨-, capacity, hc, -⟩ := hequip.pool hk
    refine ⟨capacity, ?_, fun qty hqty => ?_⟩
    · rw [Lib.Table.find?_of_mem hcu, Option.bind_some, hc]
    · exact claimPool_equipped hequip hk (hle.trans (hspan cu hcu hres hk rs hrs hroute)) hc hqty

end Sale

section Scheduling

variable {cat : Catalog} {db db' : Db} {t : Lulan.TripRow} {units : List (Uuid × Option Int)}

/-- The occupancy rows of a trip are those of these units. -/
structure Occupied (db : Db) (t : Lulan.TripRow) (units : List (Uuid × Option Int)) : Prop where
  seats : ∀ unit r, db.seatOccupancy.find? (t.id, unit) = some r ↔ (unit, none) ∈ units ∧ r = ⟨t.id, unit, 0#64⟩
  pools : ∀ unit r, db.poolOccupancy.find? (t.id, unit) = some r ↔ ∃ capacity, (unit, some capacity) ∈ units ∧
    r = ⟨t.id, unit, List.replicate t.segmentCount capacity⟩

/-- What the occupancy rows of one trip leave alone. -/
structure SameTrips (t : Lulan.TripRow) (db db' : Db) : Prop where
  trips : db'.trips = db.trips
  capacityUnits : db'.capacityUnits = db.capacityUnits
  routeStops : db'.routeStops = db.routeStops
  seats : ∀ k, k.1 ≠ t.id → db'.seatOccupancy.find? k = db.seatOccupancy.find? k
  pools : ∀ k, k.1 ≠ t.id → db'.poolOccupancy.find? k = db.poolOccupancy.find? k

lemma insertTrip_eq_ok {operatorId : Option Uuid} {n : Nat} (h : db.insertTrip cat operatorId t = .ok (n, db')) :
    (n = 0 ∧ db' = db) ∨ (n = 1 ∧ ∃ trips, db.trips.insert t = some trips ∧ db' = { db with trips := trips }) := by
  unfold Db.insertTrip at h
  split at h
  · cases h
    exact .inl ⟨rfl, rfl⟩
  · obtain ⟨trips, hi, h⟩ := bind_eq_ok.mp h
    cases h
    exact .inr ⟨rfl, trips, (Db.insertRow_eq_ok.mp hi).2.2, rfl⟩

lemma insertOccupancy_eq_ok {u : Uuid × Option Int} (ho : Occupied db t units)
    (h : Db.insertOccupancy t db u = .ok db') : SameTrips t db db' ∧ Occupied db' t (units ++ [u]) := by
  obtain ⟨unit, capacity⟩ := u
  cases capacity with
  | none =>
    obtain ⟨seats, hi, h⟩ := bind_eq_ok.mp h
    cases h
    have hf : ∀ k, seats.find? k = if (t.id, unit) = k then some ⟨t.id, unit, 0#64⟩ else db.seatOccupancy.find? k :=
      Lib.Table.find?_insert (Db.insertRow_eq_ok.mp hi).2.2
    refine ⟨⟨rfl, rfl, rfl, fun k hk => ?_, fun _ _ => rfl⟩, ⟨fun unit' r => ?_, fun unit' r => ?_⟩⟩
    · exact (hf k).trans (if_neg (fun he => hk (congrArg Prod.fst he).symm))
    · rw [hf, List.mem_append, List.mem_singleton]
      by_cases he : unit = unit'
      · subst he
        rw [if_pos rfl, Option.some_inj]
        exact ⟨fun hr => ⟨.inr rfl, hr.symm⟩, fun hr => hr.2.symm⟩
      · rw [if_neg (fun hk => he (congrArg Prod.snd hk)), ho.seats]
        exact and_congr_left' ⟨.inl, fun hm => hm.resolve_right (fun hu => he (congrArg Prod.fst hu).symm)⟩
    · rw [ho.pools]
      simp
  | some capacity =>
    obtain ⟨pools, hi, h⟩ := bind_eq_ok.mp h
    cases h
    have hins := (Db.insertRow_eq_ok.mp hi).2.2
    have hf : ∀ k, pools.find? k = if (t.id, unit) = k then some ⟨t.id, unit, List.replicate t.segmentCount capacity⟩
        else db.poolOccupancy.find? k := Lib.Table.find?_insert hins
    refine ⟨⟨rfl, rfl, rfl, fun _ _ => rfl, fun k hk => ?_⟩, ⟨fun unit' r => ?_, fun unit' r => ?_⟩⟩
    · exact (hf k).trans (if_neg (fun he => hk (congrArg Prod.fst he).symm))
    · rw [ho.seats]
      simp
    · rw [hf]
      by_cases he : unit = unit'
      · subst he
        -- the unit had no row before
        have hnone : db.poolOccupancy.find? (t.id, unit) = none := (Lib.Table.insert_eq_some.mp hins).1
        have hno : ∀ c, (unit, some c) ∉ units := fun c hc => by
          have hrow := (ho.pools unit _).mpr ⟨c, hc, rfl⟩
          rw [hnone] at hrow
          cases hrow
        rw [if_pos rfl, Option.some_inj]
        constructor
        · intro hr
          exact ⟨capacity, List.mem_append_right _ (List.mem_singleton_self _), hr.symm⟩
        · rintro ⟨c, hc, rfl⟩
          rcases List.mem_append.mp hc with hc | hc
          · exact absurd hc (hno c)
          · cases List.mem_singleton.mp hc
            rfl
      · rw [if_neg (fun hk => he (congrArg Prod.snd hk)), ho.pools]
        have hmem : ∀ c, (unit', some c) ∈ units ++ [(unit, some capacity)] ↔ (unit', some c) ∈ units := by
          intro c
          rw [List.mem_append, List.mem_singleton]
          exact ⟨fun hm => hm.resolve_right (fun hu => he (congrArg Prod.fst hu).symm), .inl⟩
        simp only [hmem]

lemma insertOccupancies_eq_ok (ho : Occupied db t [])
    (h : units.foldlM (Db.insertOccupancy t) db = .ok db') : SameTrips t db db' ∧ Occupied db' t units := by
  refine foldlM_invariant (I := fun units d => SameTrips t db d ∧ Occupied d t units)
    ⟨⟨rfl, rfl, rfl, fun _ _ => rfl, fun _ _ => rfl⟩, ho⟩ ?_ h
  rintro pre u d d' - ⟨hs, hd⟩ hu
  obtain ⟨hs', hd'⟩ := insertOccupancy_eq_ok hd hu
  exact ⟨⟨hs'.trips.trans hs.trips, hs'.capacityUnits.trans hs.capacityUnits, hs'.routeStops.trans hs.routeStops,
    fun k hk => (hs'.seats k hk).trans (hs.seats k hk), fun k hk => (hs'.pools k hk).trans (hs.pools k hk)⟩, hd'⟩

/-- The loop over the departures: the trips it adds have the rows of the vessel's units. -/
structure Scheduled (route : Uuid × Nat) (resourceId : Uuid) (units : List (Uuid × Option Int)) (db d : Db) : Prop where
  capacityUnits : d.capacityUnits = db.capacityUnits
  routeStops : d.routeStops = db.routeStops
  kept : ∀ id, (db.trips.find? id).isSome = true → (d.trips.find? id).isSome = true
  seats : ∀ k, d.trips.find? k.1 = none → d.seatOccupancy.find? k = none
  pools : ∀ k, d.trips.find? k.1 = none → d.poolOccupancy.find? k = none
  added : ∀ t ∈ d.trips.rows, db.trips.find? t.id = none →
    t.routeId = route.1 ∧ t.segmentCount = route.2 ∧ t.resourceId = resourceId ∧ Occupied d t units

lemma Occupied.other {t' : Lulan.TripRow} (h : Occupied db t units) (hs : SameTrips t' db db') (hne : t.id ≠ t'.id) :
    Occupied db' t units where
  seats unit r := by
    rw [hs.seats _ hne]
    exact h.seats unit r
  pools unit r := by
    rw [hs.pools _ hne]
    exact h.pools unit r

variable {route : Uuid × Nat} {resourceId : Uuid} {operatorId : Option Uuid} {newId : Nat → Uuid}

lemma Scheduled.step {s s' : List Uuid × Db} {x : Timestamp × Nat} (h : Scheduled route resourceId units db s.2)
    (hx : Admin.createTrip cat route resourceId operatorId units newId s x = .ok s') :
    Scheduled route resourceId units db s'.2 := by
  obtain ⟨⟨inserted, db₁⟩, hi, hx⟩ := bind_eq_ok.mp hx
  rcases insertTrip_eq_ok hi with ⟨rfl, rfl⟩ | ⟨rfl, trips, hins, rfl⟩
  · cases hx
    exact h
  · obtain ⟨db₂, hloop, hx⟩ := bind_eq_ok.mp hx
    cases hx
    obtain ⟨hnew, hrows⟩ := Lib.Table.insert_eq_some.mp hins
    have hfind := Lib.Table.find?_insert hins
    have hfresh : Occupied { s.2 with trips := trips } ⟨newId x.2, route.1, resourceId, x.1, route.2, .scheduled⟩ [] :=
      ⟨fun unit r => by simp [h.seats (newId x.2, unit) hnew], fun unit r => by simp [h.pools (newId x.2, unit) hnew]⟩
    obtain ⟨hsame, hocc⟩ := insertOccupancies_eq_ok hfresh hloop
    have hnone : ∀ id, db₂.trips.find? id = none → newId x.2 ≠ id ∧ s.2.trips.find? id = none := by
      intro id hid
      rw [hsame.trips] at hid
      have hcase := (hfind id).symm.trans hid
      split at hcase
      · cases hcase
      · rename_i hne
        exact ⟨hne, hcase⟩
    refine ⟨hsame.capacityUnits.trans h.capacityUnits, hsame.routeStops.trans h.routeStops, fun id hid => ?_,
      fun k hk => ?_, fun k hk => ?_, fun t ht hold => ?_⟩
    · cases hid' : db₂.trips.find? id with
      | some r => rfl
      | none =>
        have hs := h.kept id hid
        rw [(hnone id hid').2] at hs
        cases hs
    · obtain ⟨hne, hs⟩ := hnone k.1 hk
      exact (hsame.seats k (Ne.symm hne)).trans (h.seats k hs)
    · obtain ⟨hne, hs⟩ := hnone k.1 hk
      exact (hsame.pools k (Ne.symm hne)).trans (h.pools k hs)
    · rw [hsame.trips] at ht
      have ht' : t ∈ s.2.trips.rows ++ [⟨newId x.2, route.1, resourceId, x.1, route.2, .scheduled⟩] := hrows ▸ ht
      rcases List.mem_append.mp ht' with hm | hm
      · obtain ⟨hroute, hcount, hres, ho⟩ := h.added t hm hold
        refine ⟨hroute, hcount, hres, ?_⟩
        have hne : t.id ≠ newId x.2 := Lib.Table.find?_eq_none.mp hnew t hm
        have ho' : Occupied { s.2 with trips := trips } t units := ⟨ho.seats, ho.pools⟩
        exact ho'.other hsame hne
      · cases List.mem_singleton.mp hm
        exact ⟨rfl, rfl, rfl, hocc⟩

/-- Every trip that the endpoint adds has its segments from the route and its rows from the vessel. -/
lemma createTrips_eq_ok {req : CreateTripsRequest} {ids : List Uuid} (hs : Stocked db)
    (h : Admin.createTrips cat req newId db = .ok (ids, db')) : ∃ routeId segments resourceId,
    (db.routeStops.select (fun rs => decide (rs.routeId = routeId))).length = segments + 1 ∧
    Scheduled (routeId, segments) resourceId ((db.capacityUnits.select
      (fun cu => decide (cu.resourceId = resourceId))).map (fun cu => (cu.id, cu.poolCapacity))) db db' := by
  unfold Admin.createTrips at h
  split at h
  · cases h
  · split at h
    · cases h
    · rename_i route hroute
      split at h
      · cases h
      · rename_i vessel hvessel
        split at h
        · cases h
        · rename_i operatorId hoperator
          simp only at h
          split at h
          · cases h
          · rename_i created hloop
            cases h
            have hsegments : (db.routeStops.select (fun rs => decide (rs.routeId = route.1))).length = route.2 + 1 := by
              unfold Db.routeByCode at hroute
              split at hroute
              · cases hroute
              · split at hroute
                · cases hroute
                · rename_i n hn
                  cases hroute
                  exact hn
            have hstart : ∀ t ∈ db.trips.rows, db.trips.find? t.id = none → False := fun t ht hn => by
              rw [Lib.Table.find?_of_mem ht] at hn
              cases hn
            refine ⟨route.1, route.2, vessel.id, hsegments, ?_⟩
            refine foldlM_keeps (I := fun s : List Uuid × Db => Scheduled route vessel.id _ db s.2) ?_
              (fun x s s' _ hk hx => hk.step hx) hloop
            refine ⟨rfl, rfl, fun _ hid => hid, fun k hk => ?_, fun k hk => ?_, fun t ht hn => (hstart t ht hn).elim⟩
            · rw [Lib.Table.find?_eq_none]
              intro r hr hkey
              have hsome := hs.seats r hr
              rw [← hkey] at hk
              rw [show r.key.1 = r.tripId from rfl] at hk
              rw [hk] at hsome
              cases hsome
            · rw [Lib.Table.find?_eq_none]
              intro r hr hkey
              have hsome := hs.pools r hr
              rw [← hkey] at hk
              rw [show r.key.1 = r.tripId from rfl] at hk
              rw [hk] at hsome
              cases hsome

lemma mem_units {db : Db} {cu : CapacityUnitRow} (hcu : cu ∈ db.capacityUnits.rows) {capacity : Option Int} :
    (cu.id, capacity) ∈ (db.capacityUnits.select (fun u => decide (u.resourceId = cu.resourceId))).map
      (fun u => (u.id, u.poolCapacity)) ↔ capacity = cu.poolCapacity := by
  rw [List.mem_map]
  constructor
  · rintro ⟨u, hu, he⟩
    obtain ⟨hid, rfl⟩ := Prod.mk.inj he
    rw [List.inj_on_of_nodup_map db.capacityUnits.nodup (Lib.Table.mem_select.mp hu).1 hcu hid]
  · rintro rfl
    exact ⟨cu, Lib.Table.mem_select.mpr ⟨hcu, decide_eq_true rfl⟩, rfl⟩

lemma Scheduled.fitted {segments : Nat} {routeId : Uuid} (hs : Stocked db)
    (hn : (db.routeStops.select (fun rs => decide (rs.routeId = routeId))).length = segments + 1)
    (h : Scheduled (routeId, segments) resourceId ((db.capacityUnits.select
      (fun cu => decide (cu.resourceId = resourceId))).map (fun cu => (cu.id, cu.poolCapacity))) db db')
    (ht : t ∈ db'.trips.rows) (hnew : db.trips.find? t.id = none) : Fitted db' t := by
  obtain ⟨hroute, hcount, rfl, ho⟩ := h.added t ht hnew
  apply claimable_of_equipped ht
  · intro cu hcu hres
    rw [h.capacityUnits] at hcu
    have hcap := hs.capacity cu hcu
    rw [← hres] at ho
    constructor
    · intro hk
      have hnone : cu.poolCapacity = none := by
        cases hc : cu.poolCapacity with
        | none => rfl
        | some c =>
          rw [hc, hk] at hcap
          cases hcap.mpr rfl
      refine ⟨(ho.seats _ _).mpr ⟨(mem_units hcu).mpr hnone.symm, rfl⟩, ?_⟩
      cases hp : db'.poolOccupancy.find? (t.id, cu.id) with
      | none => rfl
      | some r =>
        obtain ⟨c, hc, -⟩ := (ho.pools _ _).mp hp
        rw [mem_units hcu, hnone] at hc
        cases hc
    · intro hk
      obtain ⟨capacity, hc⟩ := Option.isSome_iff_exists.mp (hcap.mp hk)
      refine ⟨?_, capacity, hc, (ho.pools _ _).mpr ⟨capacity, (mem_units hcu).mpr hc.symm, rfl⟩⟩
      cases hseat : db'.seatOccupancy.find? (t.id, cu.id) with
      | none => rfl
      | some r =>
        have hm := ((ho.seats _ _).mp hseat).1
        rw [mem_units hcu, hc] at hm
        cases hm
  · intro cu hcu hres hk rs hrs hr
    rw [h.routeStops] at hrs
    have hlt := hs.stops rs hrs
    rw [hr, hroute, hn] at hlt
    rw [hcount]
    omega

end Scheduling

section Importing

variable {rt : Runtime} {call : ImportCall} {setting : Setting} {net : Network} {p p' : Progress} {pattern : Pattern}
  {index n : Nat} {trip : Gtfs.TripRow}

lemma importPattern_frame {routeUuid : Uuid} {code name : String} {stops : List StopTime} {db' : Network}
    (h : importPattern setting routeUuid code name stops net = .ok (pattern, db')) :
    ∃ routes routeStops, db' = { net with routes := routes, routeStops := routeStops } := by
  obtain ⟨first, -, h⟩ := bind_eq_ok.mp h
  obtain ⟨⟨routeId, db₁⟩, hr, h⟩ := bind_eq_ok.mp h
  obtain ⟨db₂, hs, h⟩ := bind_eq_ok.mp h
  cases h
  refine foldlM_keeps (I := fun d : Network => ∃ routes routeStops,
    d = { net with routes := routes, routeStops := routeStops }) ?_ ?_ hs
  · rcases routeByCode_eq_ok (gtfsLiftDb_eq_ok.mp hr) with ⟨r, -, -, -, rfl⟩ | ⟨-, -, routes, -, rfl⟩
    · exact ⟨_, _, rfl⟩
    · exact ⟨routes, _, rfl⟩
  · rintro x d d' - ⟨routes, routeStops, rfl⟩ ht
    obtain ⟨s, -, -, -, -, hi⟩ := importRouteStop_eq_ok ht
    rcases insertRouteStop_eq_ok hi with ⟨-, rfl⟩ | ⟨-, -, routeStops', -, rfl⟩
    · exact ⟨routes, routeStops, rfl⟩
    · exact ⟨routes, routeStops', rfl⟩

lemma patternOf_frame (h : patternOf call setting p index trip = .ok (pattern, p')) :
    ∃ routes routeStops, p'.db = { p.db with routes := routes, routeStops := routeStops } := by
  unfold patternOf at h
  simp only at h
  split at h
  · cases h
    exact ⟨_, _, rfl⟩
  · obtain ⟨⟨pattern', db'⟩, hp, h⟩ := bind_eq_ok.mp h
    cases h
    exact importPattern_frame hp

/-- The loop over the trips: the dated trips it adds have the seats of the vehicle. -/
structure Seated (net : Network) (setting : Setting) (q : Progress) : Prop where
  units : q.db.capacityUnits = net.capacityUnits
  seats : ∀ k, q.db.trips.find? k.1 = none → q.db.seatOccupancy.find? k = none
  kept : ∀ id, (net.trips.find? id).isSome = true → (q.db.trips.find? id).isSome = true
  added : ∀ row ∈ q.db.trips.rows, net.trips.find? row.id = none → row.resourceId = setting.resourceId ∧
    ∀ unit r, q.db.seatOccupancy.find? (row.id, unit) = some r ↔ unit ∈ setting.seatUnits ∧ r = ⟨row.id, unit, 0#64⟩

lemma Seated.congr (h : Seated net setting p) (hu : p'.db.capacityUnits = p.db.capacityUnits)
    (ht : p'.db.trips = p.db.trips) (hs : p'.db.seatOccupancy = p.db.seatOccupancy) : Seated net setting p' where
  units := hu.trans h.units
  seats := by
    rw [ht, hs]
    exact h.seats
  kept := by
    rw [ht]
    exact h.kept
  added := by
    rw [ht, hs]
    exact h.added

lemma Seated.departure {date : Int} (h : Seated net setting p)
    (hd : importDeparture call setting pattern index trip n p date = .ok p') : Seated net setting p' := by
  rcases importDeparture_cases hd with ⟨-, rfl⟩ | ⟨-, trips, seats, rfl, hins, hother, hown⟩
  · exact h
  · obtain ⟨hnew, hrows⟩ := Lib.Table.insert_eq_some.mp hins
    have hfind := Lib.Table.find?_insert hins
    have hnone : ∀ id, trips.find? id = none → call.ids.trip index date ≠ id ∧ p.db.trips.find? id = none := by
      intro id hid
      have hcase := (hfind id).symm.trans hid
      split at hcase
      · cases hcase
      · rename_i hne
        exact ⟨hne, hcase⟩
    refine ⟨h.units, fun k hk => ?_, fun id hid => ?_, fun row hrow hold => ?_⟩
    · obtain ⟨hne, hs⟩ := hnone k.1 hk
      exact (hother k (Ne.symm hne)).trans (h.seats k hs)
    · cases hid' : trips.find? id with
      | some r => rfl
      | none =>
        have hs := h.kept id hid
        rw [(hnone id hid').2] at hs
        cases hs
    · have hrow' : row ∈ p.db.trips.rows ++ [departureRow call setting pattern index trip n date] := hrows ▸ hrow
      rcases List.mem_append.mp hrow' with hm | hm
      · obtain ⟨hres, hseats⟩ := h.added row hm hold
        refine ⟨hres, fun unit r => ?_⟩
        have hne : row.id ≠ call.ids.trip index date := Lib.Table.find?_eq_none.mp hnew row hm
        rw [hother (row.id, unit) hne]
        exact hseats unit r
      · cases List.mem_singleton.mp hm
        exact ⟨rfl, hown (fun unit => h.seats (call.ids.trip index date, unit) hnew)⟩

lemma Seated.imported {x : Gtfs.TripRow × Nat} (h : Seated net setting p)
    (hx : importTrip rt call setting p x = .ok p') : Seated net setting p' := by
  rcases importTrip_eq_ok hx with ⟨-, rfl⟩ | ⟨-, pattern, p₁, hp, hrest⟩
  · exact h.congr rfl rfl rfl
  · obtain ⟨routes, routeStops, hdb⟩ := patternOf_frame hp
    have h₁ : Seated net setting p₁ := h.congr (by rw [hdb]) (by rw [hdb]) (by rw [hdb])
    rcases hrest with ⟨-, rfl⟩ | ⟨service, dates, -, -, hdates⟩
    · exact h₁.congr rfl rfl rfl
    · exact foldlM_keeps (I := fun q => Seated net setting q) h₁ (fun date q q' _ hq hd => hq.departure hd) hdates

/-- What an import adds to the trips and the seats of the network. -/
lemma importFeed_seated (hfk : ∀ k, net.trips.find? k.1 = none → net.seatOccupancy.find? k = none)
    (h : importFeed rt call net = .ok p) : ∃ resourceId, ∀ row ∈ p.db.trips.rows, net.trips.find? row.id = none →
      row.resourceId = resourceId ∧ ∀ unit r, p.db.seatOccupancy.find? (row.id, unit) = some r ↔
        unit ∈ seatUnitsOf p.db resourceId ∧ r = ⟨row.id, unit, 0#64⟩ := by
  obtain ⟨⟨setting, net₁⟩, hprep, h⟩ := bind_eq_ok.mp h
  obtain ⟨hp, -, hunits⟩ := prepare_eq_ok hprep
  have hstart : Seated net₁ setting ⟨net₁, fun _ => none, fun _ => 0, 0, 0⟩ := by
    refine ⟨rfl, fun k hk => ?_, fun _ hid => hid, fun row hrow hn => ?_⟩
    · rw [hp.trips] at hk
      rw [hp.seatOccupancy]
      exact hfk k hk
    · rw [Lib.Table.find?_of_mem hrow] at hn
      cases hn
  have hend := foldlM_keeps (I := fun q => Seated net₁ setting q) hstart (fun x q q' _ hq hx => hq.imported hx) h
  have hu : setting.seatUnits = seatUnitsOf p.db setting.resourceId := by
    rw [hunits, seatUnitsOf, seatUnitsOf, hend.units]
  refine ⟨setting.resourceId, fun row hrow hn => ?_⟩
  rw [← hu]
  rw [← hp.trips] at hn
  exact hend.added row hrow hn

variable {db : Db} {t : Lulan.TripRow}

/-- A trip that an import adds is complete exactly as long as its vessel has no pools. -/
lemma imported_fitted (hs : Stocked db) (hnet : net.onto db = db) (h : importFeed rt call net = .ok p)
    (ht : t ∈ (p.db.onto db).trips.rows) (hnew : db.trips.find? t.id = none) :
    Fitted (p.db.onto db) t ↔
      ∀ cu ∈ (p.db.onto db).capacityUnits.rows, cu.resourceId = t.resourceId → cu.kind = .seat := by
  have hold : ∀ id, net.trips.find? id = none ↔ db.trips.find? id = none := by
    intro id
    rw [← net.trip_onto db, hnet]
  have hfk : ∀ k, net.trips.find? k.1 = none → net.seatOccupancy.find? k = none := by
    intro k hk
    cases hr : net.seatOccupancy.find? k with
    | none => rfl
    | some r =>
      have hrow : db.seatOccupancy.find? k = some ⟨r.tripId, r.unitId, r.occupiedMask⟩ := by
        rw [← congrArg Db.seatOccupancy hnet, net.seat_onto, hr, Option.map_some]
      obtain ⟨hm, hkey⟩ := Lib.Table.find?_eq_some.mp hrow
      have hsome := hs.seats _ hm
      rw [← congrArg Prod.fst hkey, hold] at hk
      rw [show db.trips.find? r.tripId = none from hk] at hsome
      cases hsome
  have hpools : ∀ unit, (p.db.onto db).poolOccupancy.find? (t.id, unit) = none := by
    intro unit
    rw [Lib.Table.find?_eq_none]
    intro r hr hkey
    have hsome := hs.pools r hr
    rw [show r.tripId = t.id from congrArg Prod.fst hkey, hnew] at hsome
    cases hsome
  constructor
  · intro hf cu hcu hres
    cases hk : cu.kind with
    | seat => rfl
    | pool =>
      obtain ⟨-, capacity, -, hrow⟩ := (hf.equipped cu hcu hres).pool hk
      rw [hpools] at hrow
      cases hrow
  · intro hseats
    obtain ⟨resourceId, hadded⟩ := importFeed_seated hfk h
    have hm : t ∈ p.db.trips.rows.map _ := ht
    obtain ⟨row, hrow, he⟩ := List.mem_map.mp hm
    have hid : row.id = t.id := congrArg Lulan.TripRow.id he
    obtain ⟨hres, hrows⟩ := hadded row hrow ((hold row.id).mpr (hid ▸ hnew))
    have hres' : t.resourceId = resourceId := (congrArg Lulan.TripRow.resourceId he).symm.trans hres
    apply claimable_of_equipped ht
    · intro cu hcu hvessel
      have hkind := hseats cu hcu hvessel
      refine ⟨fun _ => ⟨?_, hpools cu.id⟩, fun hk => nomatch hk.symm.trans hkind⟩
      have hm' : cu ∈ p.db.capacityUnits.rows.map _ := hcu
      obtain ⟨u, hu, hcu'⟩ := List.mem_map.mp hm'
      have huid : u.id = cu.id := congrArg CapacityUnitRow.id hcu'
      have hukind : u.kind = .seat := (congrArg CapacityUnitRow.kind hcu').trans hkind
      have hures : u.resourceId = resourceId := (congrArg CapacityUnitRow.resourceId hcu').trans (hvessel.trans hres')
      have hunit : u.id ∈ seatUnitsOf p.db resourceId := by
        refine List.mem_map.mpr ⟨u, Lib.Table.mem_select.mpr ⟨hu, ?_⟩, rfl⟩
        rw [hukind, hures]
        simp
      have hseat := (hrows u.id _).mpr ⟨hunit, rfl⟩
      rw [hid, huid] at hseat
      rw [p.db.seat_onto, hseat, Option.map_some]
    · intro cu hcu hvessel hk
      exact nomatch hk.symm.trans (hseats cu hcu hvessel)

end Importing

section Creators

/-- The two writers of trips. -/
inductive Creator where
  | admin
  | gtfs
deriving DecidableEq

/-- A call of one of them that succeeded, and the database it left. -/
inductive Creates (rt : Runtime) (db : Db) : Creator → Db → Prop
  | admin {cat : Catalog} {req : CreateTripsRequest} {newId : Nat → Uuid} {ids : List Uuid} {db' : Db}
      (h : Admin.createTrips cat req newId db = .ok (ids, db')) : Creates rt db .admin db'
  | gtfs {call : ImportCall} {net : Network} {p : Progress} (hnet : net.onto db = db)
      (h : importFeed rt call net = .ok p) : Creates rt db .gtfs (p.db.onto db)

variable {rt : Runtime} {db db' : Db} {c : Creator} {t : Lulan.TripRow}

/-- A new trip has every occupancy row of its vessel and sells, unless an import put it on a
vessel with pools. -/
theorem scheduled_trips_fitted (hs : Stocked db) (h : Creates rt db c db') (ht : t ∈ db'.trips.rows)
    (hnew : db.trips.find? t.id = none) : Fitted db' t ↔
      (c = .gtfs → ∀ cu ∈ db'.capacityUnits.rows, cu.resourceId = t.resourceId → cu.kind = .seat) := by
  cases h with
  | admin h =>
    obtain ⟨routeId, segments, resourceId, hn, hsched⟩ := createTrips_eq_ok hs h
    exact ⟨fun _ hc => (nomatch hc), fun _ => hsched.fitted hs hn ht hnew⟩
  | gtfs hnet h =>
    rw [imported_fitted hs hnet h ht hnew]
    exact ⟨fun hf _ => hf, fun hf => hf rfl⟩

lemma harbour_stocked : Stocked harbour.db where
  seats := by decide
  pools := by decide
  capacity := by decide
  stops := by decide

/-- The tables of the harbour as an import sees them. -/
def harbourNetwork : Network where
  operators := ⟨[⟨1, "LUL", "Lulan Lines"⟩], by decide⟩
  locations := ⟨[⟨1, "CEB", "Cebu", "UTC"⟩, ⟨2, "TAG", "Tagbilaran", "UTC"⟩, ⟨3, "ORM", "Ormoc", "UTC"⟩], by decide⟩
  routes := ⟨[⟨1, "CEB-ORM", "Cebu to Ormoc"⟩, ⟨2, "ORM-CEB", "Ormoc to Cebu"⟩], by decide⟩
  routeStops := ⟨[⟨1, 0, 1, 0, 0⟩, ⟨1, 1, 2, 120, 120⟩, ⟨1, 2, 3, 240, 240⟩, ⟨2, 0, 3, 0, 0⟩, ⟨2, 1, 2, 120, 120⟩,
    ⟨2, 2, 1, 240, 240⟩], by decide⟩
  resources := ⟨[⟨1, "MV-LULAN-1", "MV Lulan One", "ferry"⟩], by decide⟩
  capacityUnits := ⟨[⟨1, 1, .seat, "1A", some "business"⟩, ⟨2, 1, .seat, "1B", some "business"⟩,
    ⟨3, 1, .pool, "DECK", none⟩], by decide⟩
  trips := ⟨[⟨1, 1, 1, 1, "LUL 501", 1, 86400, 2⟩, ⟨2, 2, 1, 1, "LUL 502", 2, 172800, 2⟩], by decide⟩
  seatOccupancy := ⟨[⟨1, 1, 0⟩, ⟨1, 2, 0⟩, ⟨2, 1, 0⟩, ⟨2, 2, 0⟩], by decide⟩

lemma harbourNetwork_onto : harbourNetwork.onto harbour.db = harbour.db := rfl

/-- Trips imported onto a ferry have no deck to sell. -/
theorem imported_deck_missing : ¬ ∀ (rt : Runtime) (db db' : Db) (c : Creator) (t : Lulan.TripRow), Stocked db →
    Creates rt db c db' → t ∈ db'.trips.rows → db.trips.find? t.id = none → Fitted db' t := by
  intro hclaim
  let call : ImportCall := ⟨islandExpress, ⟨1, 0, some "MV-LULAN-1"⟩, 20650, drawnIds 20650⟩
  have hrun : ((importFeed calendarRuntime call harbourNetwork).toOption.bind (fun p =>
      ((p.db.onto harbour.db).trips.rows.find? (fun t => (harbour.db.trips.find? t.id).isNone)).map (fun t =>
        (p.db.onto harbour.db).capacityUnits.rows.any (fun cu =>
          decide (cu.resourceId = t.resourceId) && cu.kind == .pool)))) = some true := by
    decide
  obtain ⟨p, hp, hrun⟩ := Option.bind_eq_some_iff.mp hrun
  obtain ⟨t, hfind, hpool⟩ := Option.map_eq_some_iff.mp hrun
  have hi : importFeed calendarRuntime call harbourNetwork = .ok p := eq_ok_of_toOption hp
  have ht := List.mem_of_find?_eq_some hfind
  have hnone := List.find?_some hfind
  have hnew : harbour.db.trips.find? t.id = none := Option.isNone_iff_eq_none.mp hnone
  have hfit := hclaim calendarRuntime harbour.db _ .gtfs t harbour_stocked (.gtfs harbourNetwork_onto hi) ht hnew
  obtain ⟨cu, hcu, hdeck⟩ := List.any_eq_true.mp hpool
  simp only [Bool.and_eq_true, decide_eq_true_eq, beq_iff_eq] at hdeck
  have hseat := (imported_fitted harbour_stocked harbourNetwork_onto hi ht hnew).mp hfit cu hcu hdeck.1
  rw [hdeck.2] at hseat
  cases hseat

/-- One more sailing, scheduled by the endpoint: the whole ferry sells. -/
theorem scheduled_trips_fitted_harbour : ∃ db' t, t ∈ db'.trips.rows ∧ harbour.db.trips.find? t.id = none ∧
    Fitted db' t := by
  let cat : Catalog := ⟨harbourNetwork.routes, harbourNetwork.resources, harbourNetwork.operators⟩
  have hrun : (Admin.createTrips cat ⟨"CEB-ORM", " MV-LULAN-1", some "LUL", [259200]⟩ (fun i => 100 + i)
      harbour.db).toOption.bind (fun s => (s.2.trips.rows.find? (fun t =>
        (harbour.db.trips.find? t.id).isNone)).map TripRow.segmentCount) = some 2 := by
    decide
  obtain ⟨⟨ids, db'⟩, hs, hrun⟩ := Option.bind_eq_some_iff.mp hrun
  obtain ⟨t, hfind, -⟩ := Option.map_eq_some_iff.mp hrun
  have ht := List.mem_of_find?_eq_some hfind
  have hnone := List.find?_some hfind
  have hnew : harbour.db.trips.find? t.id = none := Option.isNone_iff_eq_none.mp hnone
  have hc : Creates calendarRuntime harbour.db .admin db' := .admin (eq_ok_of_toOption hs)
  exact ⟨db', t, ht, hnew, (scheduled_trips_fitted harbour_stocked hc ht hnew).mpr (fun h => nomatch h)⟩

end Creators

end Lulan.Proofs
