import Lulan.Gtfs.Schedule
import Lulan.Proofs.Timetable

/-!
# Importing a feed again

Every statement of an import finds what the last import of the feed has left, and changes
nothing; only a departure on a day that was not in the window then is new.
-/

namespace Lulan.Proofs

open Lulan Lulan.Gtfs Lib

section Keeping

/-- Nothing but new rows in the tables an import looks things up in; occupancy aside. -/
structure Extends (d e : Network) : Prop where
  operators : d.operators.rows <+: e.operators.rows
  locations : d.locations.rows <+: e.locations.rows
  routes : d.routes.rows <+: e.routes.rows
  routeStops : d.routeStops.rows <+: e.routeStops.rows
  resources : d.resources.rows <+: e.resources.rows
  trips : d.trips.rows <+: e.trips.rows

lemma Extends.refl (d : Network) : Extends d d :=
  ⟨List.prefix_rfl, List.prefix_rfl, List.prefix_rfl, List.prefix_rfl, List.prefix_rfl, List.prefix_rfl⟩

lemma Extends.trans {d e f : Network} (h : Extends d e) (h' : Extends e f) : Extends d f :=
  ⟨h.operators.trans h'.operators, h.locations.trans h'.locations, h.routes.trans h'.routes,
    h.routeStops.trans h'.routeStops, h.resources.trans h'.resources, h.trips.trans h'.trips⟩

lemma insert_extends {α κ : Type} {key : α → κ} [DecidableEq κ] {t t' : Lib.Table key} {r : α}
    (h : t.insert r = some t') : t.rows <+: t'.rows := by
  rw [(Lib.Table.insert_eq_some.mp h).2]
  exact List.prefix_append _ _

lemma find?_mono {α κ : Type} {key : α → κ} [DecidableEq κ] {t t' : Lib.Table key} {k : κ}
    (hp : t.rows <+: t'.rows) (h : (t.find? k).isSome = true) : (t'.find? k).isSome = true := by
  obtain ⟨r, hr⟩ := Option.isSome_iff_exists.mp h
  exact Option.isSome_iff_exists.mpr ⟨r, List.IsPrefix.find?_eq_some hp hr⟩

variable {d d' e : Network}

/-- A route that is there under its code is found there. -/
lemma routeByCode_again {id routeId : Uuid} {code name : String} (id' : Uuid)
    (h : d.routeByCode id code name = .ok (routeId, d')) (hk : Extends d' e) :
    Extends d d' ∧ e.routeByCode id' code name = .ok (routeId, e) := by
  have hfound (r : Gtfs.Route) (hr : d'.routes.rows.find? (fun r => decide (r.code = code)) = some r)
      (hid : routeId = r.id) : e.routeByCode id' code name = .ok (routeId, e) := by
    rw [Network.routeByCode, List.IsPrefix.find?_eq_some hk.routes hr, hid]
  unfold Network.routeByCode at h
  cases hr : d.routes.rows.find? (fun r => decide (r.code = code)) with
  | some r =>
    rw [hr] at h
    cases h
    exact ⟨.refl d, hfound r hr rfl⟩
  | none =>
    rw [hr] at h
    obtain ⟨routes, hi, h⟩ := bind_eq_ok.mp h
    cases h
    have hins := (Db.insertRow_eq_ok.mp hi).2.2
    refine ⟨{ Extends.refl d with routes := insert_extends hins }, hfound ⟨id, code, name⟩ ?_ rfl⟩
    rw [(Lib.Table.insert_eq_some.mp hins).2, List.find?_append, hr, List.find?_singleton, if_pos (by simp)]
    rfl

/-- A stop whose position is taken is passed over. -/
lemma insertRouteStop_again {s : RouteStop} (h : d.insertRouteStop s = .ok d') (hk : Extends d' e) :
    Extends d d' ∧ e.insertRouteStop s = .ok e := by
  have hkept : Extends d d' ∧ (d'.routeStops.find? s.key).isSome = true := by
    rcases insertRouteStop_eq_ok h with ⟨hsome, rfl⟩ | ⟨-, -, routeStops, hi, rfl⟩
    · exact ⟨.refl _, hsome⟩
    · refine ⟨{ Extends.refl d with routeStops := insert_extends hi }, ?_⟩
      have hfind := Lib.Table.find?_insert hi s.key
      rw [if_pos rfl] at hfind
      exact Option.isSome_iff_exists.mpr ⟨s, hfind⟩
  obtain ⟨r, hr⟩ := Option.isSome_iff_exists.mp (find?_mono hk.routeStops hkept.2)
  refine ⟨hkept.1, ?_⟩
  rw [Network.insertRouteStop, hr]

end Keeping

section Patterns

variable {d d' e : Network} {call : ImportCall} {setting setting' : Setting} {routeId : Uuid} {first : Int32}
  {stops : List StopTime} {pattern : Pattern} {today : Int} {ids : Ids}

lemma importRouteStop_again {x : StopTime × Nat} (hloc : setting'.locationIds = setting.locationIds)
    (h : importRouteStop setting routeId first d x = .ok d') (hk : Extends d' e) :
    Extends d d' ∧ importRouteStop setting' routeId first e x = .ok e := by
  unfold importRouteStop at h ⊢
  rw [hloc]
  cases hl : setting.locationIds x.1.stopId with
  | none =>
    rw [hl] at h
    cases h
  | some location =>
    rw [hl] at h
    obtain ⟨arrive, ha, h⟩ := bind_eq_ok.mp h
    obtain ⟨depart, hd, h⟩ := bind_eq_ok.mp h
    obtain ⟨hkept, hagain⟩ := insertRouteStop_again (gtfsLiftDb_eq_ok.mp h) hk
    refine ⟨hkept, ?_⟩
    simp only [ha, hd]
    exact gtfsLiftDb_eq_ok.mpr hagain

/-- A pattern is found on its route, with all its stops. -/
lemma importPattern_again {routeUuid : Uuid} {code name : String} (routeUuid' : Uuid)
    (hloc : setting'.locationIds = setting.locationIds)
    (h : importPattern setting routeUuid code name stops d = .ok (pattern, d')) (hk : Extends d' e) :
    Extends d d' ∧ importPattern setting' routeUuid' code name stops e = .ok (pattern, e) := by
  obtain ⟨first, hf, h⟩ := bind_eq_ok.mp h
  obtain ⟨⟨routeId, d₁⟩, hr, h⟩ := bind_eq_ok.mp h
  obtain ⟨d₂, hs, h⟩ := bind_eq_ok.mp h
  cases h
  obtain ⟨hstops, hagain⟩ := foldlM_again (R := Extends)
    (g := importRouteStop setting' routeId first) Extends.refl
    (fun _ _ _ => Extends.trans) (fun _ _ _ _ _ ht hu => importRouteStop_again hloc ht hu) hs hk
  obtain ⟨hroute, hcode⟩ := routeByCode_again routeUuid' (gtfsLiftDb_eq_ok.mp hr) (hstops.trans hk)
  refine ⟨hroute.trans hstops, ?_⟩
  have hlift : Gtfs.liftDb (e.routeByCode routeUuid' code name) = .ok (routeId, e) := gtfsLiftDb_eq_ok.mpr hcode
  exact bind_eq_ok.mpr ⟨first, hf, bind_eq_ok.mpr ⟨(routeId, e), hlift, bind_eq_ok.mpr ⟨e, hagain, rfl⟩⟩⟩

/-- The patterns known and counted are the same. -/
structure SamePatterns (p q : Progress) : Prop where
  patterns : q.patterns = p.patterns
  counts : q.patternCountPerRoute = p.patternCountPerRoute

/-- The patterns of a second run are those of the first. -/
lemma patternOf_again {p p' q : Progress} {index : Nat} {trip : Gtfs.TripRow} (today : Int) (ids : Ids)
    (hloc : setting'.locationIds = setting.locationIds)
    (h : patternOf call setting p index trip = .ok (pattern, p'))
    (hk : Extends p'.db q.db) (hs : SamePatterns p q) :
    Extends p.db p'.db ∧ ∃ q', patternOf (call.again today ids) setting' q index trip = .ok (pattern, q') ∧
      SamePatterns p' q' ∧ q'.db = q.db := by
  unfold patternOf at h ⊢
  simp only [hs.patterns, hs.counts, ImportCall.again] at h ⊢
  cases hp : p.patterns (trip.routeId, (call.feed.tripStops trip.tripId).map StopTime.stopId) with
  | some known =>
    rw [hp] at h
    cases h
    exact ⟨.refl _, q, rfl, hs, rfl⟩
  | none =>
    rw [hp] at h
    obtain ⟨⟨made, d'⟩, hm, h⟩ := bind_eq_ok.mp h
    cases h
    obtain ⟨hkept, hagain⟩ := importPattern_again (ids.route index) hloc hm hk
    exact ⟨hkept, _, bind_eq_ok.mpr ⟨_, hagain, rfl⟩, ⟨rfl, rfl⟩, rfl⟩

end Patterns

section Departing

variable {call : ImportCall} {setting setting' : Setting} {pattern : Pattern} {index n : Nat} {trip : Gtfs.TripRow}
  {p p' q q' : Progress} {today date : Int} {ids : Ids}

/-- There is a departure of the pattern with this vehicle on that day. -/
def Departed (setting : Setting) (pattern : Pattern) (db : Network) (date : Int) : Prop :=
  ∃ r ∈ db.trips.rows, r.routeId = pattern.routeId ∧ r.resourceId = setting.resourceId ∧
    r.departsAt = departsAt date pattern.firstDepartureMin

lemma Departed.extend {d e : Network} (h : Departed setting pattern d date) (hk : Extends d e) :
    Departed setting pattern e date := by
  obtain ⟨r, hr, hkeys⟩ := h
  exact ⟨r, hk.trips.subset hr, hkeys⟩

/-- After its turn a departure is there. -/
lemma importDeparture_departed (h : importDeparture call setting pattern index trip n p date = .ok p') :
    Extends p.db p'.db ∧ SamePatterns p p' ∧ Departed setting pattern p'.db date := by
  rcases importDeparture_cases h with ⟨hex, rfl⟩ | ⟨-, trips, seatOccupancy, rfl, hins, -, -⟩
  · exact ⟨.refl _, ⟨rfl, rfl⟩, hex⟩
  · refine ⟨{ Extends.refl p.db with trips := insert_extends hins }, ⟨rfl, rfl⟩,
      departureRow call setting pattern index trip n date, ?_, rfl, rfl, rfl⟩
    rw [(Lib.Table.insert_eq_some.mp hins).2]
    exact List.mem_append_right _ (List.mem_singleton_self _)

/-- After the loop over its days all departures of a trip are there. -/
lemma importDepartures_departed {dates : List Int}
    (h : dates.foldlM (importDeparture call setting pattern index trip n) p = .ok p') :
    Extends p.db p'.db ∧ SamePatterns p p' ∧ ∀ date ∈ dates, Departed setting pattern p'.db date := by
  refine foldlM_invariant (I := fun pre q => Extends p.db q.db ∧ SamePatterns p q ∧
    ∀ date ∈ pre, Departed setting pattern q.db date)
    ⟨.refl _, ⟨rfl, rfl⟩, fun date hd => absurd hd List.not_mem_nil⟩ ?_ h
  rintro pre date q q' - ⟨hk, hs, hall⟩ ht
  obtain ⟨hk', hs', hdeparted⟩ := importDeparture_departed ht
  refine ⟨hk.trans hk', ⟨hs'.patterns.trans hs.patterns, hs'.counts.trans hs.counts⟩, fun day hday => ?_⟩
  rcases List.mem_append.mp hday with hday | hday
  · exact (hall day hday).extend hk'
  · rw [List.mem_singleton.mp hday]
    exact hdeparted

/-- A departure that is there is passed over. -/
lemma importDeparture_again (hres : setting'.resourceId = setting.resourceId)
    (h : Departed setting pattern q.db date) :
    importDeparture call setting' pattern index trip n q date = .ok q := by
  obtain ⟨r, hr, hroute, hresource, hdeparts⟩ := h
  have hany : q.db.trips.rows.any (fun r => decide (r.routeId = pattern.routeId) &&
      decide (r.resourceId = setting'.resourceId) &&
      decide (r.departsAt = departsAt date pattern.firstDepartureMin)) = true := by
    refine List.any_eq_true.mpr ⟨r, hr, ?_⟩
    simp only [hroute, hresource, hdeparts, hres, decide_true, Bool.and_self]
  unfold importDeparture
  have hinsert : q.db.insertDatedTrip ⟨call.ids.trip index date, pattern.routeId, setting'.resourceId,
      setting'.operatorId, trip.tripId, date, departsAt date pattern.firstDepartureMin, n⟩ = .ok (0, q.db) := by
    rw [Network.insertDatedTrip]
    exact if_pos hany
  simp only [hinsert, Gtfs.liftDb]
  rfl

lemma insertSeats_rows {d d' : Network} {tripId : Uuid} {units : List Uuid}
    (h : units.foldlM (fun db unit => Gtfs.liftDb (db.insertSeat ⟨tripId, unit, 0#64⟩)) d = .ok d') :
    ∃ seatOccupancy : Lib.Table SeatOccupancy.key, d' = { d with seatOccupancy := seatOccupancy } ∧
      seatOccupancy.rows = d.seatOccupancy.rows ++ units.map (fun unit => ⟨tripId, unit, 0#64⟩) := by
  refine foldlM_invariant (I := fun pre e => ∃ seatOccupancy : Lib.Table SeatOccupancy.key,
    e = { d with seatOccupancy := seatOccupancy } ∧
      seatOccupancy.rows = d.seatOccupancy.rows ++ pre.map (fun unit => ⟨tripId, unit, 0#64⟩))
    ⟨d.seatOccupancy, rfl, (List.append_nil _).symm⟩ ?_ h
  rintro pre unit e e' - ⟨seats, rfl, hrows⟩ ht
  obtain ⟨seats', hi, rfl, -⟩ := insertSeat_eq_ok (gtfsLiftDb_eq_ok.mp ht)
  refine ⟨seats', rfl, ?_⟩
  rw [(Lib.Table.insert_eq_some.mp hi).2, hrows, List.map_append, List.append_assoc]
  rfl

/-- What a run adds to a network: dated trips, each with a free seat for every unit. -/
structure Ahead (units : List Uuid) (d : Network) (new : List DatedTrip) (e : Network) : Prop where
  same : e = { d with trips := e.trips, seatOccupancy := e.seatOccupancy }
  trips : e.trips.rows = d.trips.rows ++ new
  seats : e.seatOccupancy.rows = d.seatOccupancy.rows ++
    new.flatMap (fun t => units.map (fun unit => ⟨t.id, unit, 0#64⟩))

lemma Ahead.refl (units : List Uuid) (d : Network) : Ahead units d [] d :=
  ⟨rfl, (List.append_nil _).symm, (List.append_nil _).symm⟩

lemma Ahead.trans {units : List Uuid} {d e f : Network} {new new' : List DatedTrip} (h : Ahead units d new e)
    (h' : Ahead units e new' f) : Ahead units d (new ++ new') f where
  same := by
    rw [h'.same, h.same]
  trips := by
    rw [h'.trips, h.trips, List.append_assoc]
  seats := by
    rw [h'.seats, h.seats, List.flatMap_append, List.append_assoc]

lemma Ahead.extend {units : List Uuid} {d e : Network} {new : List DatedTrip} (h : Ahead units d new e) :
    Extends d e := by
  have htrips : d.trips.rows <+: e.trips.rows := by
    rw [h.trips]
    exact List.prefix_append _ _
  rw [h.same] at htrips ⊢
  exact { Extends.refl d with trips := htrips }

/-- A departure that is not there is added, with its seats. -/
lemma importDeparture_ahead (h : importDeparture call setting pattern index trip n q date = .ok q') :
    SamePatterns q q' ∧ (q' = q ∨
      Ahead setting.seatUnits q.db [departureRow call setting pattern index trip n date] q'.db) := by
  obtain ⟨⟨inserted, d⟩, hi, h⟩ := bind_eq_ok.mp h
  rcases insertDatedTrip_eq_ok (gtfsLiftDb_eq_ok.mp hi) with ⟨-, rfl, rfl⟩ | ⟨rfl, -, trips, hins, rfl⟩
  · cases h
    exact ⟨⟨rfl, rfl⟩, .inl rfl⟩
  · simp only [if_true] at h
    obtain ⟨d', hs, h⟩ := bind_eq_ok.mp h
    cases h
    obtain ⟨seatOccupancy, rfl, hseats⟩ := insertSeats_rows hs
    refine ⟨⟨rfl, rfl⟩, .inr ⟨rfl, (Lib.Table.insert_eq_some.mp hins).2, ?_⟩⟩
    rw [List.flatMap_singleton]
    exact hseats

/-- Days on which the departure is there, and days of which `P` holds: only these are added. -/
lemma importDepartures_ahead {dates : List Int} {P : Int → Prop} (hres : setting'.resourceId = setting.resourceId)
    (hdates : ∀ date ∈ dates, Departed setting pattern q.db date ∨ P date)
    (h : dates.foldlM (importDeparture call setting' pattern index trip n) q = .ok q') :
    SamePatterns q q' ∧ ∃ new, Ahead setting'.seatUnits q.db new q'.db ∧
      ∀ t ∈ new, P t.serviceDate ∧ t.resourceId = setting.resourceId := by
  refine foldlM_invariant (I := fun _ u => SamePatterns q u ∧ ∃ new, Ahead setting'.seatUnits q.db new u.db ∧
    ∀ t ∈ new, P t.serviceDate ∧ t.resourceId = setting.resourceId)
    ⟨⟨rfl, rfl⟩, [], .refl _ _, fun t ht => absurd ht List.not_mem_nil⟩ ?_ h
  rintro pre date u u' hp ⟨hs, new, hahead, hnew⟩ ht
  obtain ⟨hs', hcases⟩ := importDeparture_ahead ht
  have hmem : date ∈ dates := hp.subset (List.mem_append_right _ (List.mem_singleton_self date))
  refine ⟨⟨hs'.patterns.trans hs.patterns, hs'.counts.trans hs.counts⟩, ?_⟩
  rcases hdates date hmem with hdeparted | hP
  · rw [importDeparture_again hres (hdeparted.extend hahead.extend)] at ht
    cases ht
    exact ⟨new, hahead, hnew⟩
  · rcases hcases with rfl | hone
    · exact ⟨new, hahead, hnew⟩
    · refine ⟨new ++ [departureRow call setting' pattern index trip n date], hahead.trans hone, fun t ht => ?_⟩
      rcases List.mem_append.mp ht with ht | ht
      · exact hnew t ht
      · rw [List.mem_singleton.mp ht]
        exact ⟨hP, hres⟩

end Departing

section Windows

variable {rt : Runtime} {call : ImportCall} {c : Calendar} {dates dates' : List Int} {start last today date : Int}
  {ids : Ids}

lemma mem_dates_iff : date ∈ c.dates start last ↔
    start ≤ date ∧ date ≤ last ∧ c.weekdays[numDaysFromMonday date]? = some 1 := by
  constructor
  · intro h
    obtain ⟨hmem, hday⟩ := List.mem_filter.mp h
    obtain ⟨n, hn, rfl⟩ := List.mem_map.mp hmem
    have hlt := List.mem_range.mp hn
    exact ⟨by omega, by omega, beq_iff_eq.mp hday⟩
  · rintro ⟨hs, hl, hday⟩
    exact mem_dates hs hl hday

lemma serviceDates_eq_ok : serviceDates rt call c = .ok dates ↔
    ∃ start last, rt.parseDate c.startDate = some start ∧ rt.parseDate c.endDate = some last ∧
      dates = c.dates (max start call.today) (min last (call.today + call.options.days)) := by
  unfold serviceDates gtfsDate
  cases hstart : rt.parseDate c.startDate with
  | none => simp [bind, Except.bind]
  | some start =>
    cases hlast : rt.parseDate c.endDate with
    | none => simp [bind, Except.bind]
    | some last => simp [bind, Except.bind, eq_comm]

/-- A day of a later window that was not in the earlier one has entered it since. -/
lemma serviceDates_entered (hlater : call.today ≤ today) (h : serviceDates rt call c = .ok dates)
    (h' : serviceDates rt (call.again today ids) c = .ok dates') (hd : date ∈ dates') :
    date ∈ dates ∨ call.today + call.options.days < date ∧ today ≤ date ∧ date ≤ today + call.options.days := by
  obtain ⟨start, last, hstart, hlast, rfl⟩ := serviceDates_eq_ok.mp h
  obtain ⟨start', last', hstart', hlast', rfl⟩ := serviceDates_eq_ok.mp h'
  obtain rfl := Option.some.inj (hstart.symm.trans hstart')
  obtain rfl := Option.some.inj (hlast.symm.trans hlast')
  obtain ⟨hle, hge, hday⟩ := mem_dates_iff.mp hd
  simp only [ImportCall.again, sup_le_iff, le_inf_iff] at hle hge
  by_cases hold : date ≤ call.today + call.options.days
  · refine .inl (mem_dates_iff.mpr ⟨?_, ?_, hday⟩)
    · exact max_le hle.1 (le_trans hlater hle.2)
    · exact le_min hge.1 hold
  · exact .inr ⟨not_le.mp hold, hle.2, hge.2⟩

end Windows

section Trips

variable {rt : Runtime} {call : ImportCall} {setting setting' : Setting} {p p' q q' : Progress} {today : Int}
  {ids : Ids}

/-- A departure on a day that is in the window of today, and was not in the one of `day`. -/
structure Entered (options : GtfsOptions) (day today : Int) (resourceId : Uuid) (t : DatedTrip) : Prop where
  vehicle : t.resourceId = resourceId
  after : day + options.days < t.serviceDate
  window : today ≤ t.serviceDate ∧ t.serviceDate ≤ today + options.days

lemma patternOf_extends {index : Nat} {trip : Gtfs.TripRow} {pattern : Pattern}
    (h : patternOf call setting p index trip = .ok (pattern, p')) : Extends p.db p'.db :=
  (patternOf_again (q := { p with db := p'.db }) call.today call.ids rfl h (.refl _) ⟨rfl, rfl⟩).1

lemma importTrip_extends {x : Gtfs.TripRow × Nat} (h : importTrip rt call setting p x = .ok p') :
    Extends p.db p'.db := by
  rcases importTrip_eq_ok h with ⟨-, rfl⟩ | ⟨-, pattern, p₁, hp, ⟨-, rfl⟩ | ⟨service, dates, -, -, hloop⟩⟩
  · exact .refl _
  · have hkept := patternOf_extends hp
    exact hkept
  · exact (patternOf_extends hp).trans (importDepartures_departed hloop).1

/-- The same pattern, from which the turns of both runs go on. -/
lemma patternOf_follow {index : Nat} {trip : Gtfs.TripRow} {pattern pattern' : Pattern} {p₁ q₁ : Progress}
    (hloc : setting'.locationIds = setting.locationIds)
    (hp : patternOf call setting p index trip = .ok (pattern, p₁))
    (hk : Extends p₁.db q.db) (hs : SamePatterns p q)
    (hq : patternOf (call.again today ids) setting' q index trip = .ok (pattern', q₁)) :
    pattern' = pattern ∧ SamePatterns p₁ q₁ ∧ q₁.db = q.db := by
  obtain ⟨-, u, hu, hsame, hdb⟩ := patternOf_again today ids hloc hp hk hs
  rw [hu] at hq
  cases hq
  exact ⟨rfl, hsame, hdb⟩

/-- A turn of the loop over the trips, taken again: only departures on days that have entered
the window are new. -/
lemma importTrip_ahead {x : Gtfs.TripRow × Nat} (hlater : call.today ≤ today)
    (hloc : setting'.locationIds = setting.locationIds) (hres : setting'.resourceId = setting.resourceId)
    (h : importTrip rt call setting p x = .ok p') (hk : Extends p'.db q.db) (hs : SamePatterns p q)
    (h' : importTrip rt (call.again today ids) setting' q x = .ok q') : SamePatterns p' q' ∧
      ∃ new, Ahead setting'.seatUnits q.db new q'.db ∧
        ∀ t ∈ new, Entered call.options call.today today setting.resourceId t := by
  have hnone (u : Progress) (hdb : u.db = q.db) :
      ∃ new, Ahead setting'.seatUnits q.db new u.db ∧
        ∀ t ∈ new, Entered call.options call.today today setting.resourceId t :=
    ⟨[], hdb ▸ .refl _ _, fun t ht => absurd ht List.not_mem_nil⟩
  rcases importTrip_eq_ok h with ⟨hlen, rfl⟩ | ⟨hlen, pattern, p₁, hp, hrest⟩
  · rcases importTrip_eq_ok h' with ⟨-, rfl⟩ | ⟨hlen', -⟩
    · exact ⟨⟨hs.patterns, hs.counts⟩, hnone _ rfl⟩
    · have hlen₁ : 2 ≤ (call.feed.tripStops x.1.tripId).length ∧ (call.feed.tripStops x.1.tripId).length ≤ 64 :=
          hlen'
      omega
  · rcases importTrip_eq_ok h' with ⟨hlen', -⟩ | ⟨-, pattern', q₁, hq, hrest'⟩
    · have hlen₁ : (call.feed.tripStops x.1.tripId).length < 2 ∨ 64 < (call.feed.tripStops x.1.tripId).length :=
          hlen'
      omega
    rcases hrest with ⟨hservice, rfl⟩ | ⟨service, dates, hservice, hdates, hloop⟩
    · obtain ⟨rfl, hsame, hdb⟩ := patternOf_follow hloc hp hk hs hq
      rcases hrest' with ⟨-, rfl⟩ | ⟨service', -, hservice', -⟩
      · exact ⟨⟨hsame.patterns, hsame.counts⟩, hnone _ hdb⟩
      · cases hservice.symm.trans hservice'
    · obtain ⟨hkept, hpatterns, hdeparted⟩ := importDepartures_departed hloop
      obtain ⟨rfl, hsame, hdb⟩ := patternOf_follow hloc hp (hkept.trans hk) hs hq
      rcases hrest' with ⟨hservice', -⟩ | ⟨service', dates', hservice', hdates', hloop'⟩
      · cases hservice.symm.trans hservice'
      · obtain rfl := Option.some.inj (hservice.symm.trans hservice')
        have hday : ∀ date ∈ dates', Departed setting pattern' q₁.db date ∨
            call.today + call.options.days < date ∧ today ≤ date ∧ date ≤ today + call.options.days := by
          intro date hd
          rw [hdb]
          exact (serviceDates_entered hlater hdates hdates' hd).imp_left
            (fun hold => (hdeparted date hold).extend hk)
        obtain ⟨hsame', new, hahead, hnew⟩ := importDepartures_ahead hres hday hloop'
        refine ⟨⟨?_, ?_⟩, new, hdb ▸ hahead, fun t ht => ?_⟩
        · rw [hsame'.patterns, hsame.patterns, hpatterns.patterns]
        · rw [hsame'.counts, hsame.counts, hpatterns.counts]
        · obtain ⟨⟨hafter, hfrom, hto⟩, hvehicle⟩ := hnew t ht
          exact ⟨hvehicle, hafter, hfrom, hto⟩

lemma importTrip_skipped {x : Gtfs.TripRow × Nat}
    (hlen : (call.feed.tripStops x.1.tripId).length < 2 ∨ 64 < (call.feed.tripStops x.1.tripId).length) :
    importTrip rt call setting p x = .ok { p with skippedTrips := p.skippedTrips + 1 } := if_pos hlen

lemma importTrip_unserved {x : Gtfs.TripRow × Nat} {pattern : Pattern} {p₁ : Progress}
    (hlen : 2 ≤ (call.feed.tripStops x.1.tripId).length ∧ (call.feed.tripStops x.1.tripId).length ≤ 64)
    (hp : patternOf call setting p x.2 x.1 = .ok (pattern, p₁))
    (hservice : call.feed.service x.1.serviceId = none) :
    importTrip rt call setting p x = .ok { p₁ with skippedTrips := p₁.skippedTrips + 1 } := by
  unfold importTrip
  rw [if_neg (by omega)]
  refine bind_eq_ok.mpr ⟨_, hp, ?_⟩
  simp only [hservice]

lemma importTrip_served {x : Gtfs.TripRow × Nat} {pattern : Pattern} {p₁ : Progress} {service : Calendar}
    {dates : List Int}
    (hlen : 2 ≤ (call.feed.tripStops x.1.tripId).length ∧ (call.feed.tripStops x.1.tripId).length ≤ 64)
    (hp : patternOf call setting p x.2 x.1 = .ok (pattern, p₁))
    (hservice : call.feed.service x.1.serviceId = some service) (hdates : serviceDates rt call service = .ok dates)
    (hloop : dates.foldlM (importDeparture call setting pattern x.2 x.1
      ((call.feed.tripStops x.1.tripId).length - 1)) p₁ = .ok p') : importTrip rt call setting p x = .ok p' := by
  unfold importTrip
  rw [if_neg (by omega)]
  refine bind_eq_ok.mpr ⟨_, hp, ?_⟩
  simp only [hservice]
  exact bind_eq_ok.mpr ⟨dates, hdates, hloop⟩

/-- On the same day the turn ends as it did, and adds nothing. -/
lemma importTrip_same {x : Gtfs.TripRow × Nat} (ids : Ids) (hloc : setting'.locationIds = setting.locationIds)
    (hres : setting'.resourceId = setting.resourceId) (h : importTrip rt call setting p x = .ok p')
    (hk : Extends p'.db q.db) (hs : SamePatterns p q) :
    ∃ q', importTrip rt (call.again call.today ids) setting' q x = .ok q' ∧ SamePatterns p' q' ∧ q'.db = q.db := by
  rcases importTrip_eq_ok h with ⟨hlen, rfl⟩ | ⟨hlen, pattern, p₁, hp, hrest⟩
  · exact ⟨_, importTrip_skipped hlen, ⟨hs.patterns, hs.counts⟩, rfl⟩
  · rcases hrest with ⟨hservice, rfl⟩ | ⟨service, dates, hservice, hdates, hloop⟩
    · obtain ⟨-, q₁, hq, hsame, hdb⟩ := patternOf_again call.today ids hloc hp hk hs
      exact ⟨_, importTrip_unserved hlen hq hservice, ⟨hsame.patterns, hsame.counts⟩, hdb⟩
    · obtain ⟨hkept, hpatterns, hdeparted⟩ := importDepartures_departed hloop
      obtain ⟨-, q₁, hq, hsame, hdb⟩ :=
        patternOf_again call.today ids hloc hp (hkept.trans hk) hs
      have hstep : ∀ date t t' u, date ∈ dates →
          importDeparture call setting pattern x.2 x.1
            ((call.feed.tripStops x.1.tripId).length - 1) t date = .ok t' →
          Extends t'.db u.db → Extends t.db t'.db ∧
            importDeparture (call.again call.today ids) setting' pattern x.2 x.1
              ((call.feed.tripStops x.1.tripId).length - 1) u date = .ok u := by
        intro date t t' u _ ht hu
        obtain ⟨hkept', -, hdate⟩ := importDeparture_departed ht
        exact ⟨hkept', importDeparture_again hres (hdate.extend hu)⟩
      obtain ⟨-, hloop'⟩ := foldlM_again
        (R := fun u v : Progress => Extends u.db v.db) (e := q₁) (fun _ => .refl _)
        (fun _ _ _ => Extends.trans) hstep hloop (hdb ▸ hk)
      refine ⟨q₁, importTrip_served hlen hq hservice hdates hloop', ⟨?_, ?_⟩, hdb⟩
      · rw [hsame.patterns, hpatterns.patterns]
      · rw [hsame.counts, hpatterns.counts]

/-- The loop over the trips, run again. -/
lemma importTrips_again {l : List (Gtfs.TripRow × Nat)} (today : Int) (ids : Ids)
    (hloc : setting'.locationIds = setting.locationIds)
    (hres : setting'.resourceId = setting.resourceId) (h : l.foldlM (importTrip rt call setting) p = .ok p')
    (hk : Extends p'.db q.db) (hs : SamePatterns p q) :
    (call.today ≤ today → ∀ q', l.foldlM (importTrip rt (call.again today ids) setting') q = .ok q' →
      ∃ new, Ahead setting'.seatUnits q.db new q'.db ∧
        ∀ t ∈ new, Entered call.options call.today today setting.resourceId t) ∧
    ∃ q', l.foldlM (importTrip rt (call.again call.today ids) setting') q = .ok q' ∧ q'.db = q.db := by
  induction l generalizing p q with
  | nil =>
    refine ⟨fun _ q' h' => ?_, q, rfl, rfl⟩
    cases h'
    exact ⟨[], .refl _ _, fun t ht => absurd ht List.not_mem_nil⟩
  | cons x rest ih =>
    rw [List.foldlM_cons] at h
    obtain ⟨p₁, hx, hrest⟩ := bind_eq_ok.mp h
    have hkept : Extends p₁.db p'.db := by
      refine foldlM_keeps (I := fun u : Progress => Extends p₁.db u.db) (.refl _) ?_ hrest
      intro y u u' _ hu ht
      exact hu.trans (importTrip_extends ht)
    constructor
    · intro hlater q' h'
      rw [List.foldlM_cons] at h'
      obtain ⟨q₁, hx', hrest'⟩ := bind_eq_ok.mp h'
      obtain ⟨hs₁, new, hahead, hnew⟩ := importTrip_ahead hlater hloc hres hx (hkept.trans hk) hs hx'
      obtain ⟨new', hahead', hnew'⟩ := (ih hrest (hk.trans hahead.extend) hs₁).1 hlater q' hrest'
      refine ⟨new ++ new', hahead.trans hahead', fun t ht => ?_⟩
      exact (List.mem_append.mp ht).elim (hnew t) (hnew' t)
    · obtain ⟨q₁, hx', hs₁, hdb⟩ := importTrip_same ids hloc hres hx (hkept.trans hk) hs
      obtain ⟨-, q', hrest', hdb'⟩ := ih hrest (hdb ▸ hk) hs₁
      refine ⟨q', ?_, hdb'.trans hdb⟩
      rw [List.foldlM_cons]
      exact bind_eq_ok.mpr ⟨q₁, hx', hrest'⟩

end Trips

section Names

/-- The names of the locations as a list of stops with their locations sets them: the last one counts. -/
def renamed (found : List (Gtfs.Stop × Uuid)) (l : Gtfs.Location) : Gtfs.Location :=
  found.foldl (fun l x => if l.id = x.2 then { l with name := x.1.stopName } else l) l

/-- The map from stop ids to locations. -/
def located (found : List (Gtfs.Stop × Uuid)) : String → Option Uuid :=
  found.foldl (fun ids x => Function.update ids x.1.stopId (some x.2)) (fun _ => none)

variable {found : List (Gtfs.Stop × Uuid)} {l : Gtfs.Location}

lemma renamed_append (x : Gtfs.Stop × Uuid) : renamed (found ++ [x]) l =
    if (renamed found l).id = x.2 then { renamed found l with name := x.1.stopName } else renamed found l := by
  rw [renamed, List.foldl_append]
  rfl

lemma renamed_eq (found : List (Gtfs.Stop × Uuid)) (l : Gtfs.Location) :
    renamed found l = { l with name := (renamed found l).name } := by
  induction found using List.reverseRecOn with
  | nil => rfl
  | append_singleton found x ih =>
    rw [renamed_append]
    split
    · rw [ih]
    · exact ih

lemma renamed_id (found : List (Gtfs.Stop × Uuid)) (l : Gtfs.Location) : (renamed found l).id = l.id := by
  rw [renamed_eq]

lemma renamed_code (found : List (Gtfs.Stop × Uuid)) (l : Gtfs.Location) : (renamed found l).code = l.code := by
  rw [renamed_eq]

/-- The last stop of a location has given it its name. -/
lemma renamed_last {x : Gtfs.Stop × Uuid} (hid : l.id = x.2) (hname : l.name = x.1.stopName) :
    renamed (found ++ [x]) l = l := by
  rw [renamed_append, if_pos (by rw [renamed_id, hid]), renamed_eq, ← hname]

lemma renamed_other {x : Gtfs.Stop × Uuid} (hid : l.id ≠ x.2) (h : renamed found l = l) :
    renamed (found ++ [x]) l = l := by
  rw [renamed_append, h, if_neg hid]

lemma renamed_of_absent (h : ∀ x ∈ found, l.id ≠ x.2) : renamed found l = l := by
  induction found using List.reverseRecOn with
  | nil => rfl
  | append_singleton found x ih =>
    have hx := h x (List.mem_append_right _ (List.mem_singleton_self x))
    rw [renamed_append, ih (fun y hy => h y (List.mem_append_left _ hy)), if_neg hx]

/-- The stops of a feed have their locations, each with the last name the feed gives it. -/
structure StopsFound (found : List (Gtfs.Stop × Uuid)) (locations : Lib.Table Gtfs.Location.id) : Prop where
  codes : ∀ x ∈ found, ∃ l, locations.rows.find? (fun l => decide (l.code = x.1.stopId)) = some l ∧ l.id = x.2
  names : ∀ l ∈ locations.rows, renamed found l = l

/-- Further locations are none of the feed's. -/
lemma StopsFound.extend {locations locations' : Lib.Table Gtfs.Location.id} (h : StopsFound found locations)
    (hp : locations.rows <+: locations'.rows) : StopsFound found locations' := by
  refine ⟨fun x hx => ?_, fun l hl => ?_⟩
  · obtain ⟨l, hl, hid⟩ := h.codes x hx
    exact ⟨l, List.IsPrefix.find?_eq_some hp hl, hid⟩
  · by_cases hold : l ∈ locations.rows
    · exact h.names l hold
    · apply renamed_of_absent
      rintro x hx hid
      obtain ⟨l', hl', hid'⟩ := h.codes x hx
      have hmem : l' ∈ locations.rows := List.mem_of_find?_eq_some hl'
      have heq := List.inj_on_of_nodup_map locations'.nodup hl (hp.subset hmem) (hid.trans hid'.symm)
      exact hold (heq ▸ hmem)

variable {d d' e : Network} {call : ImportCall} {today : Int} {ids : Ids}

lemma find?_code_update {rows : List Gtfs.Location} {f : Gtfs.Location → Gtfs.Location} {code : String}
    (hf : ∀ l, (f l).code = l.code) : (rows.map f).find? (fun l => decide (l.code = code)) =
      (rows.find? (fun l => decide (l.code = code))).map f := by
  rw [List.find?_map]
  congr 2
  funext l
  simp only [Function.comp_apply, hf]

/-- A stop more: its location is there and has its name, and the others are as they were. -/
lemma upsertLocation_found {id id' : Uuid} {stop : Gtfs.Stop} {timezone : String}
    (hs : StopsFound found d.locations)
    (h : d.upsertLocation id stop.stopId stop.stopName timezone = .ok (id', d')) :
    (∃ locations, d' = { d with locations := locations }) ∧ StopsFound (found ++ [(stop, id')]) d'.locations := by
  unfold Network.upsertLocation at h
  cases hl : d.locations.rows.find? (fun l => decide (l.code = stop.stopId)) with
  | some l =>
    rw [hl] at h
    cases h
    refine ⟨⟨_, rfl⟩, fun x hx => ?_, fun l' hl' => ?_⟩
    · have hfound : ∃ l',
          d.locations.rows.find? (fun l => decide (l.code = x.1.stopId)) = some l' ∧ l'.id = x.2 := by
        rcases List.mem_append.mp hx with hx | hx
        · exact hs.codes x hx
        · rw [List.mem_singleton.mp hx]
          exact ⟨l, hl, rfl⟩
      obtain ⟨l', hl', hid⟩ := hfound
      refine ⟨_, (find?_code_update (fun r => ?_)).trans (congrArg (Option.map _) hl'), ?_⟩
      · split <;> rfl
      · dsimp only
        split <;> exact hid
    · obtain ⟨r, hr, rfl⟩ := List.mem_map.mp hl'
      by_cases hid : r.id = l.id
      · rw [if_pos (decide_eq_true hid)]
        exact renamed_last hid rfl
      · rw [if_neg (by simpa using hid)]
        exact renamed_other hid (hs.names r hr)
  | none =>
    rw [hl] at h
    obtain ⟨locations, hi, h⟩ := bind_eq_ok.mp h
    cases h
    obtain ⟨hfresh, hrows⟩ := Lib.Table.insert_eq_some.mp (Db.insertRow_eq_ok.mp hi).2.2
    have hnew : ∀ r ∈ d.locations.rows, r.id ≠ id := Lib.Table.find?_eq_none.mp hfresh
    refine ⟨⟨_, rfl⟩, fun x hx => ?_, fun l' hl' => ?_⟩
    · rcases List.mem_append.mp hx with hx | hx
      · obtain ⟨l', hl', hid⟩ := hs.codes x hx
        exact ⟨l', List.IsPrefix.find?_eq_some (hrows ▸ List.prefix_append _ _) hl', hid⟩
      · rw [List.mem_singleton.mp hx]
        refine ⟨⟨id, stop.stopId, stop.stopName, timezone⟩, ?_, rfl⟩
        dsimp only
        rw [hrows, List.find?_append, hl, List.find?_singleton, if_pos (by simp)]
        rfl
    · dsimp only at hl'
      rw [hrows] at hl'
      rcases List.mem_append.mp hl' with hl' | hl'
      · exact renamed_other (hnew l' hl') (hs.names l' hl')
      · rw [List.mem_singleton.mp hl']
        exact renamed_last rfl rfl

/-- After the loop over the stops all have their locations. -/
lemma importStops_found {locationIds : String → Option Uuid} (h : importStops call d = .ok (d', locationIds)) :
    ∃ found : List (Gtfs.Stop × Uuid), found.map Prod.fst = call.feed.stops ∧ locationIds = located found ∧
      StopsFound found d'.locations ∧ ∃ locations, d' = { d with locations := locations } := by
  have hinv := foldlM_invariant (I := fun (pre : List (Gtfs.Stop × Nat)) (s : Network × (String → Option Uuid)) =>
    ∃ found : List (Gtfs.Stop × Uuid), found.map Prod.fst = pre.map Prod.fst ∧ s.2 = located found ∧
      StopsFound found s.1.locations ∧ ∃ locations, s.1 = { d with locations := locations })
    ⟨[], rfl, rfl, ⟨fun x hx => absurd hx List.not_mem_nil, fun l _ => rfl⟩, _, rfl⟩ ?_ h
  · rw [List.zipIdx_map_fst] at hinv
    exact hinv
  · rintro pre ⟨stop, i⟩ ⟨d₁, ids₁⟩ ⟨d₂, ids₂⟩ - ⟨found, hstops, hids, hs, locations, rfl⟩ ht
    obtain ⟨⟨id, d₃⟩, hu, ht⟩ := bind_eq_ok.mp ht
    obtain ⟨rfl, rfl⟩ := Prod.mk.inj (Except.ok.inj ht)
    obtain ⟨⟨locations', rfl⟩, hs'⟩ := upsertLocation_found hs (gtfsLiftDb_eq_ok.mp hu)
    refine ⟨found ++ [(stop, id)], ?_, ?_, hs', _, rfl⟩
    · rw [List.map_append, List.map_append, hstops]
      rfl
    · simp only at hids
      rw [hids, located, located, List.foldl_append]
      rfl

/-- The table with the names set. -/
def renameAll (t : Lib.Table Gtfs.Location.id) (found : List (Gtfs.Stop × Uuid)) : Lib.Table Gtfs.Location.id where
  rows := t.rows.map (renamed found)
  nodup := by
    have hid : Gtfs.Location.id ∘ renamed found = Gtfs.Location.id := by
      funext l
      exact renamed_id found l
    rw [List.map_map, hid]
    exact t.nodup

lemma renameAll_found {t : Lib.Table Gtfs.Location.id} (h : StopsFound found t) : renameAll t found = t := by
  apply Lib.Table.ext
  exact (List.map_congr_left (fun l hl => h.names l hl)).trans (List.map_id t.rows)

lemma renameAll_append (t : Lib.Table Gtfs.Location.id) (x : Gtfs.Stop × Uuid) :
    (renameAll t found).update (fun r => decide (r.id = x.2))
      ⟨fun r => { r with name := x.1.stopName }, fun _ => rfl⟩ =
      renameAll t (found ++ [x]) := by
  apply Lib.Table.ext
  rw [Lib.Table.rows_update, renameAll, renameAll, List.map_map]
  apply List.map_congr_left
  intro l _
  simp only [Function.comp_apply, renamed_append, decide_eq_true_eq]

/-- A stop whose location is there gives it its name. -/
lemma importStop_again {x : Gtfs.Stop × Uuid} {n : Nat} {pre : List (Gtfs.Stop × Uuid)}
    (hcode : ∃ l, e.locations.rows.find? (fun l => decide (l.code = x.1.stopId)) = some l ∧ l.id = x.2) :
    importStop call ({ e with locations := renameAll e.locations pre }, located pre) (x.1, n) =
      .ok ({ e with locations := renameAll e.locations (pre ++ [x]) }, located (pre ++ [x])) := by
  obtain ⟨l, hl, hid⟩ := hcode
  have hfind : (renameAll e.locations pre).rows.find? (fun l => decide (l.code = x.1.stopId)) =
      some (renamed pre l) := by
    rw [renameAll, find?_code_update (renamed_code pre), hl, Option.map_some]
  have hlocated : Function.update (located pre) x.1.stopId (some x.2) = located (pre ++ [x]) := by
    rw [located, located, List.foldl_append]
    rfl
  unfold importStop
  simp only [Network.upsertLocation, hfind, Gtfs.liftDb, renamed_id, hid,
    renameAll_append, bind, Except.bind, hlocated]

/-- The loop over the stops, run again, sets every name to what it is. -/
lemma importStops_again (hstops : found.map Prod.fst = call.feed.stops) (hs : StopsFound found e.locations) :
    importStops call e = .ok (e, located found) := by
  have hloop : ∀ (rest pre : List (Gtfs.Stop × Uuid)) (n : Nat), (∀ x ∈ rest, x ∈ found) →
      ((rest.map Prod.fst).zipIdx n).foldlM (importStop call)
        ({ e with locations := renameAll e.locations pre }, located pre) =
        .ok ({ e with locations := renameAll e.locations (pre ++ rest) }, located (pre ++ rest)) := by
    intro rest
    induction rest with
    | nil =>
      intro pre n _
      rw [List.append_nil]
      rfl
    | cons x rest ih =>
      intro pre n hmem
      rw [List.map_cons, List.zipIdx_cons, List.foldlM_cons,
            importStop_again (hs.codes x (hmem x List.mem_cons_self))]
      have hrest := ih (pre ++ [x]) (n + 1) (fun y hy => hmem y (List.mem_cons_of_mem x hy))
      rw [List.append_assoc, List.singleton_append] at hrest
      exact hrest
  have hall := hloop found [] 0 (fun x hx => hx)
  rw [List.nil_append, renameAll_found hs, hstops] at hall
  have hstart : renameAll e.locations [] = e.locations := renameAll_found
    ⟨fun x hx => absurd hx List.not_mem_nil, fun _ _ => rfl⟩
  rw [hstart] at hall
  exact hall

end Names

section Preparing

variable {rt : Runtime} {call : ImportCall} {d d' e : Network} {agency : Agency} {today : Int} {ids : Ids}

lemma upsertOperator_again {id id' : Uuid} {code name : String} (id'' : Uuid)
    (h : d.upsertOperator id code name = .ok (id', d'))
    (hp : d'.operators.rows <+: e.operators.rows) : e.upsertOperator id'' code name = .ok (id', e) := by
  have hfound : ∃ o, d'.operators.rows.find? (fun o => decide (o.code = code)) = some o ∧
      o.id = id' ∧ o.name = name := by
    unfold Network.upsertOperator at h
    cases ho : d.operators.rows.find? (fun o => decide (o.code = code)) with
    | some o =>
      rw [ho] at h
      cases h
      refine ⟨{ o with name := name }, ?_, rfl, rfl⟩
      rw [Lib.Table.rows_update, List.find?_map]
      have hcodes : (fun r : Gtfs.Operator => decide (r.code = code)) ∘
          (fun r => if decide (r.id = o.id) then { r with name := name } else r) =
          fun r => decide (r.code = code) := by
        funext r
        by_cases hid : r.id = o.id <;> simp [hid]
      rw [hcodes, ho, Option.map_some, if_pos (decide_eq_true rfl)]
    | none =>
      rw [ho] at h
      obtain ⟨operators, hi, h⟩ := bind_eq_ok.mp h
      cases h
      refine ⟨⟨id, code, name⟩, ?_, rfl, rfl⟩
      rw [(Lib.Table.insert_eq_some.mp (Db.insertRow_eq_ok.mp hi).2.2).2, List.find?_append, ho,
            List.find?_singleton,
        if_pos (by simp)]
      rfl
  obtain ⟨o, ho, rfl, hname⟩ := hfound
  have hmem := List.IsPrefix.find?_eq_some hp ho
  have hsame : e.operators.update (fun r => decide (r.id = o.id))
      ⟨fun r => { r with name := name }, fun _ => rfl⟩ =
      e.operators := by
    apply Lib.Table.ext
    rw [Lib.Table.rows_update]
    refine (List.map_congr_left (fun r hr => ?_)).trans (List.map_id e.operators.rows)
    by_cases hr' : r.id = o.id
    · rw [if_pos (decide_eq_true hr'), List.inj_on_of_nodup_map e.operators.nodup hr
          (List.mem_of_find?_eq_some hmem) hr',
        ← hname]
      rfl
    · rw [if_neg (by simpa using hr')]
      rfl
  unfold Network.upsertOperator
  simp only [hmem, hsame]

/-- The code of the vehicle the trips attach to. -/
def vehicleCode (rt : Runtime) (call : ImportCall) (agency : Agency) : String :=
  call.options.vessel.getD ("GTFS-" ++ operatorCode rt agency)

lemma importVehicle_found {resourceId : Uuid} (h : importVehicle rt call agency d = .ok (resourceId, d')) :
    ∃ r, d'.resources.rows.find? (fun r => decide (r.code = vehicleCode rt call agency)) = some r ∧
      r.id = resourceId := by
  unfold importVehicle at h
  cases hv : call.options.vessel with
  | some code =>
    rw [hv] at h
    simp only [vehicleCode, hv, Option.getD_some]
    cases hr : d.resourceByCode code with
    | none => simp only [hr, reduceCtorEq] at h
    | some r =>
      simp only [hr] at h
      cases h
      exact ⟨r, hr, rfl⟩
  | none =>
    rw [hv] at h
    simp only [vehicleCode, hv, Option.getD_none]
    cases hr : d.resourceByCode ("GTFS-" ++ operatorCode rt agency) with
    | some r =>
      simp only [hr] at h
      cases h
      exact ⟨r, hr, rfl⟩
    | none =>
      simp only [hr] at h
      obtain ⟨resources, hi, h⟩ := bind_eq_ok.mp h
      obtain ⟨d₁, hunits, h⟩ := bind_eq_ok.mp h
      cases h
      have hres : d'.resources = resources := by
        refine foldlM_keeps (I := fun u : Network => u.resources = resources) rfl ?_ hunits
        rintro x u u' - hu ht
        obtain ⟨units, rfl⟩ := insertUnit_eq_ok (gtfsLiftDb_eq_ok.mp ht)
        exact hu
      have hins := (Db.insertRow_eq_ok.mp (gtfsLiftDb_eq_ok.mp hi)).2.2
      have hnone : d.resources.rows.find? (fun r => decide (r.code = "GTFS-" ++ operatorCode rt agency)) =
          none := hr
      refine ⟨⟨call.ids.resource, "GTFS-" ++ operatorCode rt agency,
          agency.agencyName ++ " vehicle", "bus"⟩, ?_, rfl⟩
      rw [hres, (Lib.Table.insert_eq_some.mp hins).2, List.find?_append, hnone,
          List.find?_singleton, if_pos (by simp)]
      rfl

lemma importVehicle_again {r : Gtfs.Resource}
    (hr : e.resources.rows.find? (fun r => decide (r.code = vehicleCode rt call agency)) = some r) :
    importVehicle rt call agency e = .ok (r.id, e) := by
  unfold importVehicle
  cases hv : call.options.vessel with
  | some code =>
    rw [vehicleCode, hv, Option.getD_some] at hr
    have hcode : e.resourceByCode code = some r := hr
    simp only [hcode]
  | none =>
    rw [vehicleCode, hv, Option.getD_none] at hr
    have hcode : e.resourceByCode ("GTFS-" ++ operatorCode rt agency) = some r := hr
    simp only [hcode]

/-- Everything before the trips is found as it is, with the units the vehicle has by then. -/
lemma prepare_again {setting : Setting} (h : prepare rt call d = .ok (setting, d')) (hk : Extends d' e) :
    prepare rt (call.again today ids) e =
      .ok ({ setting with seatUnits := seatUnitsOf e setting.resourceId }, e) := by
  unfold prepare at h ⊢
  simp only [ImportCall.again] at h ⊢
  cases ha : call.feed.agencies.head? with
  | none =>
    rw [ha] at h
    cases h
  | some agency =>
    rw [ha] at h
    obtain ⟨⟨operatorId, d₁⟩, h₁, h⟩ := bind_eq_ok.mp h
    obtain ⟨⟨d₂, locationIds⟩, h₂, h⟩ := bind_eq_ok.mp h
    obtain ⟨⟨resourceId, d₃⟩, h₃, h⟩ := bind_eq_ok.mp h
    cases h
    obtain ⟨found, hstops, rfl, hsettled, locations, rfl⟩ := importStops_found h₂
    obtain ⟨r, hr, rfl⟩ := importVehicle_found h₃
    obtain ⟨resources, units, rfl⟩ := importVehicle_eq_ok h₃
    have hoperator := upsertOperator_again ids.operator (gtfsLiftDb_eq_ok.mp h₁) hk.operators
    have hlocations : importStops (call.again today ids) e = .ok (e, located found) :=
      importStops_again hstops (hsettled.extend hk.locations)
    have hvehicle : importVehicle rt (call.again today ids) agency e = .ok (r.id, e) :=
      importVehicle_again (List.IsPrefix.find?_eq_some hk.resources hr)
    exact bind_eq_ok.mpr ⟨(operatorId, e), gtfsLiftDb_eq_ok.mpr hoperator,
      bind_eq_ok.mpr ⟨(e, located found), hlocations, bind_eq_ok.mpr ⟨(r.id, e), hvehicle, rfl⟩⟩⟩

variable (today ids) in
/-- A whole import, run again. -/
lemma importFeed_again {p : Progress} (h : importFeed rt call d = .ok p) (hk : Extends p.db e) :
    (call.today ≤ today → ∀ q, importFeed rt (call.again today ids) e = .ok q → ∃ resourceId new,
      Ahead (seatUnitsOf e resourceId) e new q.db ∧
      ∀ t ∈ new, Entered call.options call.today today resourceId t) ∧
    ∃ q, importFeed rt (call.again call.today ids) e = .ok q ∧ q.db = e := by
  obtain ⟨⟨setting, d'⟩, hp, hloop⟩ := bind_eq_ok.mp h
  have hkept : Extends d' p.db := by
    refine foldlM_keeps (I := fun u : Progress => Extends d' u.db) (.refl _) ?_ hloop
    intro x u u' _ hu ht
    exact hu.trans (importTrip_extends ht)
  have hprepare (today : Int) : prepare rt (call.again today ids) e =
      .ok ({ setting with seatUnits := seatUnitsOf e setting.resourceId }, e) := prepare_again hp (hkept.trans hk)
  have hfirst : call.feed.trips.zipIdx.foldlM (importTrip rt call setting) ⟨d', fun _ => none, fun _ => 0, 0, 0⟩ =
      .ok p := hloop
  have hloc : ({ setting with seatUnits := seatUnitsOf e setting.resourceId } : Setting).locationIds =
      setting.locationIds := rfl
  have hres : ({ setting with seatUnits := seatUnitsOf e setting.resourceId } : Setting).resourceId =
      setting.resourceId := rfl
  have hagain := importTrips_again (q := ⟨e, fun _ => none, fun _ => 0, 0, 0⟩)
    today ids hloc hres hfirst hk ⟨rfl, rfl⟩
  constructor
  · intro hlater q hq
    obtain ⟨⟨setting', e'⟩, hp', hloop'⟩ := bind_eq_ok.mp hq
    rw [hprepare] at hp'
    cases hp'
    obtain ⟨new, hahead, hnew⟩ := hagain.1 hlater q hloop'
    exact ⟨setting.resourceId, new, hahead, hnew⟩
  · obtain ⟨q, hloop', hdb⟩ := hagain.2
    exact ⟨q, bind_eq_ok.mpr ⟨_, hprepare call.today, hloop'⟩, hdb⟩

end Preparing

/-- A schedule that the feed was last imported into on `day`, and that was used since: seats were
sold and given back, trips cancelled, and rows added to any table. -/
inductive ImportedOn (rt : Runtime) (call : ImportCall) : Int → Gtfs.Schedule → Prop
  | imported {day : Int} {ids : Ids} {s : Gtfs.Schedule} {p : Progress} :
      importFeed rt (call.again day ids) s.network = .ok p →
    ImportedOn rt call day (s.imported rt (call.again day ids))
  | used {day : Int} {s s' : Gtfs.Schedule} : ImportedOn rt call day s →
    Extends s.network s'.network → ImportedOn rt call day s'

/-- What an import adds: dated trips of one vehicle on days that have entered the window, each
scheduled and with a free seat for every unit. Nothing that was there is touched. -/
structure AddsDepartures (options : GtfsOptions) (day today : Int) (s s' : Gtfs.Schedule) (resourceId : Uuid)
    (new : List DatedTrip) : Prop where
  ahead : Ahead (seatUnitsOf s.network resourceId) s.network new s'.network
  entered : ∀ t ∈ new, Entered options day today resourceId t
  status : ∀ t ∈ s.network.trips.rows, s'.status t.id = s.status t.id
  scheduled : ∀ t ∈ new, s'.status t.id = .scheduled

/-- Importing the feed again: on the same day, any number of times, nothing changes; later only
departures on new days are added; and an import that fails changes nothing. -/
structure ImportsAgain (rt : Runtime) (call : ImportCall) (day : Int) (s : Gtfs.Schedule) : Prop where
  succeeds : ∀ ids, ∃ p, importFeed rt (call.again day ids) s.network = .ok p
  sameDay : ∀ draws : List Ids, draws.foldl (fun s ids => s.imported rt (call.again day ids)) s = s
  later : ∀ today ids, day ≤ today →
    ∃ resourceId new, AddsDepartures call.options day today s (s.imported rt (call.again today ids)) resourceId new
  failing : ∀ today ids e, importFeed rt (call.again today ids) s.network = .error e →
    s.imported rt (call.again today ids) = s

section Main

variable {rt : Runtime} {call : ImportCall} {day today : Int} {ids : Ids} {s : Gtfs.Schedule} {p : Progress}

lemma imported_of_ok (h : importFeed rt call s.network = .ok p) : s.imported rt call = ⟨p.db, fun id =>
    if (s.network.trips.find? id).isNone && (p.db.trips.find? id).isSome then .scheduled else s.status id⟩ := by
  rw [Gtfs.Schedule.imported, h]

lemma imported_of_error {e : ImportError} (h : importFeed rt call s.network = .error e) :
    s.imported rt call = s := by
  rw [Gtfs.Schedule.imported, h]

lemma imported_of_same (h : importFeed rt call s.network = .ok p) (hdb : p.db = s.network) :
    s.imported rt call = s := by
  rw [imported_of_ok h, hdb]
  obtain ⟨network, status⟩ := s
  congr
  funext id
  cases network.trips.find? id <;> rfl

/-- A schedule holds all that its last import has left. -/
lemma ImportedOn.base (h : ImportedOn rt call day s) :
    ∃ d ids p, importFeed rt (call.again day ids) d = .ok p ∧ Extends p.db s.network := by
  induction h with
  | @imported ids s p h =>
    refine ⟨s.network, ids, p, h, ?_⟩
    rw [imported_of_ok h]
    exact .refl _
  | used _ hk ih =>
    obtain ⟨d, ids, p, hp, hbase⟩ := ih
    exact ⟨d, ids, p, hp, hbase.trans hk⟩

lemma addsDepartures_of_ok {resourceId : Uuid} {new : List DatedTrip} (h : importFeed rt call s.network = .ok p)
    (hahead : Ahead (seatUnitsOf s.network resourceId) s.network new p.db)
    (hnew : ∀ t ∈ new, Entered call.options day today resourceId t) :
    AddsDepartures call.options day today s (s.imported rt call) resourceId new := by
  rw [imported_of_ok h]
  refine ⟨hahead, hnew, fun t ht => ?_, fun t ht => ?_⟩
  · have hold : s.network.trips.find? t.id = some t := Lib.Table.find?_of_mem ht
    simp only [hold, Option.isNone_some, Bool.false_and, Bool.false_eq_true, if_false]
  · have hnodup := p.db.trips.nodup
    have hmem : t ∈ p.db.trips.rows := by
      rw [hahead.trips]
      exact List.mem_append_right _ ht
    rw [hahead.trips, List.map_append, List.nodup_append] at hnodup
    have hfresh : s.network.trips.find? t.id = none := by
      rw [Lib.Table.find?_eq_none]
      intro r hr
      exact hnodup.2.2 r.id (List.mem_map_of_mem hr) t.id (List.mem_map_of_mem ht)
    have hthere : p.db.trips.find? t.id = some t := Lib.Table.find?_of_mem hmem
    simp only [hfresh, hthere, Option.isNone_none, Option.isSome_some, Bool.and_self, if_true]

end Main

/-- An import repeats itself without a change, and later extends the schedule by new days. -/
theorem import_repeats {rt : Runtime} {call : ImportCall} {day : Int} {s : Gtfs.Schedule}
    (h : ImportedOn rt call day s) : ImportsAgain rt call day s := by
  obtain ⟨d, ids₀, p, hp, hk⟩ := h.base
  have hsame : ∀ ids, ∃ q, importFeed rt (call.again day ids) s.network = .ok q ∧ q.db = s.network :=
    fun ids => (importFeed_again day ids hp hk).2
  refine ⟨fun ids => (hsame ids).imp (fun _ hq => hq.1), fun draws => ?_, fun today ids hlater => ?_,
    fun today ids e he => imported_of_error he⟩
  · induction draws with
    | nil => rfl
    | cons ids draws ih =>
      obtain ⟨q, hq, hdb⟩ := hsame ids
      rw [List.foldl_cons, imported_of_same hq hdb]
      exact ih
  · cases hq : importFeed rt (call.again today ids) s.network with
    | error e =>
      rw [imported_of_error hq]
      exact ⟨ids.resource, [], .refl _ _, fun t ht => absurd ht List.not_mem_nil, fun _ _ => rfl,
        fun t ht => absurd ht List.not_mem_nil⟩
    | ok q =>
      obtain ⟨resourceId, new, hahead, hnew⟩ := (importFeed_again today ids hp hk).1 hlater q hq
      exact ⟨resourceId, new, addsDepartures_of_ok hq hahead hnew⟩

/-- The island's schedule, with the trip its first import has dated. -/
theorem import_repeats_island : ∃ s, ImportsAgain calendarRuntime (islandImport islandExpress 20650) 20650 s ∧
    s.network.trips.rows ≠ [] := by
  have hrun : ((importFeed calendarRuntime (islandImport islandExpress 20650) .empty).toOption.map (fun p =>
      p.db.trips.rows.isEmpty)) = some false := by
    decide
  obtain ⟨p, hp, hrows⟩ := Option.map_eq_some_iff.mp hrun
  have hi : importFeed calendarRuntime ((islandImport islandExpress 20650).again 20650 (drawnIds 20650)) .empty =
      .ok p := eq_ok_of_toOption hp
  have hempty : Gtfs.Schedule.network ⟨.empty, fun _ => .scheduled⟩ = .empty := rfl
  rw [← hempty] at hi
  refine ⟨_, import_repeats (.imported hi), ?_⟩
  rw [imported_of_ok hi]
  intro hnil
  rw [hnil] at hrows
  cases hrows

end Lulan.Proofs
