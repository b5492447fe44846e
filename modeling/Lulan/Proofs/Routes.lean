import Lulan.Api.Routes
import Lulan.Proofs.Search
import Lulan.Proofs.Stops

/-!
# Routes that can be stored

The resolution of sales knows routes that call at a place twice; the table of stops does not
take them. Every other route is stored as it was asked for.
-/

namespace Lulan.Proofs

open Lulan Lulan.Db Lib Admin

/-- The stops of a request, as a resolution takes them. -/
def requestedStops (req : CreateRouteRequest) : List Stop :=
  req.stops.mapIdx (fun i s => ⟨trim s.locationCode, i, s.departOffsetMin⟩)

/-- The row a stop of a request is stored as. -/
def stopRow (db : Db) (id : Uuid) (x : RouteStopRequest × Nat) : Option RouteStopRow :=
  (db.locations.rows.find? (fun l => decide (l.code = trim x.1.locationCode))).map
    (fun l => ⟨id, x.2, l.id, x.1.departOffsetMin⟩)

section Step

variable {id : Uuid} {s s' : Directory × Db} {x : RouteStopRequest × Nat} {row : RouteStopRow}

lemma stopRow_eq_some {db : Db} : stopRow db id x = some row ↔ ∃ l,
    db.locations.rows.find? (fun l => decide (l.code = trim x.1.locationCode)) = some l ∧
      (⟨id, x.2, l.id, x.1.departOffsetMin⟩ : RouteStopRow) = row := Option.map_eq_some_iff

/-- A stop that was stored is one row at its position, the route's only call at its location. -/
lemma createRouteStop_eq_ok (hi : x.2 < 32768) (h : createRouteStop id s x = .ok s') :
    ∃ row, stopRow s.2 id x = some row ∧
      (∀ r ∈ s.2.routeStops.rows, r.routeId = id → r.locationId ≠ row.locationId) ∧
      s'.1.routes = s.1.routes ∧ ∃ routeStops : Table RouteStopRow.key,
        s'.2 = { s.2 with routeStops := routeStops } ∧ routeStops.rows = s.2.routeStops.rows ++ [row] := by
  have hindex : x.2 % 65536 = x.2 := Nat.mod_eq_of_lt (by omega)
  unfold createRouteStop insertStopAt at h
  cases hl : s.2.locations.rows.find? (fun l => decide (l.code = trim x.1.locationCode)) with
  | none => simp [hl] at h
  | some l =>
    simp only [hl, hindex] at h
    by_cases hany : s.2.routeStops.rows.any
        (fun r => decide (r.routeId = id) && decide (r.locationId = l.id)) = true
    · simp [hany] at h
    · rw [if_neg hany] at h
      cases hins : insertRow s.2.routeStops ⟨id, x.2, l.id, x.1.departOffsetMin⟩ (refersTo s.1.routes (some id))
          (decide (x.2 < 32768)) with
      | error e =>
        rw [hins] at h
        cases h
      | ok routeStops =>
        rw [hins] at h
        obtain ⟨-, -, hnew⟩ := insertRow_eq_ok.mp hins
        cases h
        refine ⟨_, stopRow_eq_some.mpr ⟨l, hl, rfl⟩, fun r hr hroute hloc => hany ?_, rfl, routeStops, rfl,
          (Table.insert_eq_some.mp hnew).2⟩
        rw [List.any_eq_true]
        exact ⟨r, hr, by rw [Bool.and_eq_true]; exact ⟨decide_eq_true hroute, decide_eq_true hloc⟩⟩

lemma createRouteStop_stores (hi : x.2 < 32768) (hroute : (s.1.routes.find? id).isSome = true)
    (hrow : stopRow s.2 id x = some row) (hfree : s.2.routeStops.find? (id, x.2) = none)
    (hcall : ∀ r ∈ s.2.routeStops.rows, r.routeId = id → r.locationId ≠ row.locationId) :
    ∃ s', createRouteStop id s x = .ok s' := by
  have hindex : x.2 % 65536 = x.2 := Nat.mod_eq_of_lt (by omega)
  obtain ⟨l, hl, rfl⟩ := stopRow_eq_some.mp hrow
  have hany : ¬s.2.routeStops.rows.any
      (fun r => decide (r.routeId = id) && decide (r.locationId = l.id)) = true := by
    rw [List.any_eq_true]
    rintro ⟨r, hr, h⟩
    rw [Bool.and_eq_true, decide_eq_true_eq, decide_eq_true_eq] at h
    exact hcall r hr h.1 h.2
  have hins : ∃ routeStops, insertRow s.2.routeStops ⟨id, x.2, l.id, x.1.departOffsetMin⟩
      (refersTo s.1.routes (some id)) (decide (x.2 < 32768)) = .ok routeStops := by
    cases hn : s.2.routeStops.insert ⟨id, x.2, l.id, x.1.departOffsetMin⟩ with
    | none => exact absurd hfree (Table.insert_eq_none.mp hn)
    | some routeStops => exact ⟨routeStops, insertRow_eq_ok.mpr ⟨decide_eq_true hi, hroute, hn⟩⟩
  obtain ⟨routeStops, hins⟩ := hins
  unfold createRouteStop insertStopAt
  simp only [hl, hindex]
  rw [if_neg hany, hins]
  exact ⟨_, rfl⟩

end Step

section Run

variable {db₀ : Db} {dir : Directory} {id : Uuid} {stops : List RouteStopRequest} {s : Directory × Db}

/-- What is stored after some of the stops of a new route. -/
structure RouteStored (db₀ : Db) (dir : Directory) (id : Uuid) (pre : List (RouteStopRequest × Nat))
    (s : Directory × Db) : Prop where
  routes : s.1.routes = dir.routes
  table : ∃ routeStops : Table RouteStopRow.key, s.2 = { db₀ with routeStops := routeStops } ∧
    routeStops.rows = db₀.routeStops.rows ++ pre.filterMap (stopRow db₀ id)
  located : ∀ x ∈ pre, ∃ row, stopRow db₀ id x = some row
  once : (pre.map (fun x => trim x.1.locationCode)).Nodup

lemma stored_nil : RouteStored db₀ dir id [] (dir, db₀) :=
  ⟨rfl, ⟨db₀.routeStops, rfl, (List.append_nil _).symm⟩, fun _ hx => absurd hx List.not_mem_nil, List.nodup_nil⟩

lemma find?_code {code : String} {l : LocationRow}
    (h : db₀.locations.rows.find? (fun l => decide (l.code = code)) = some l) :
    l ∈ db₀.locations.rows ∧ l.code = code :=
  ⟨List.mem_of_find?_eq_some h, by simpa using List.find?_some h⟩

lemma stopRow_location {x y : RouteStopRequest × Nat} {row row' : RouteStopRow} (h : stopRow db₀ id x = some row)
    (h' : stopRow db₀ id y = some row') :
    row.locationId = row'.locationId ↔ trim x.1.locationCode = trim y.1.locationCode := by
  obtain ⟨l, hl, rfl⟩ := stopRow_eq_some.mp h
  obtain ⟨l', hl', rfl⟩ := stopRow_eq_some.mp h'
  constructor
  · intro hid
    have hsame : l = l' := List.inj_on_of_nodup_map db₀.locations.nodup (find?_code hl).1 (find?_code hl').1 hid
    rw [← (find?_code hl).2, ← (find?_code hl').2, hsame]
  · intro hcode
    rw [hcode, hl'] at hl
    cases hl
    rfl

lemma RouteStored.mem_rows {pre : List (RouteStopRequest × Nat)} (h : RouteStored db₀ dir id pre s)
    {r : RouteStopRow} :
    r ∈ s.2.routeStops.rows ↔ r ∈ db₀.routeStops.rows ∨ ∃ y ∈ pre, stopRow db₀ id y = some r := by
  obtain ⟨routeStops, hdb, hrows⟩ := h.table
  rw [hdb, hrows, List.mem_append, List.mem_filterMap]

/-- Every stop that is stored adds its row, and is at a new location. -/
lemma RouteStored.step {pre : List (RouteStopRequest × Nat)} {x : RouteStopRequest × Nat} {s' : Directory × Db}
    (h : RouteStored db₀ dir id pre s) (hi : x.2 < 32768) (ht : createRouteStop id s x = .ok s') :
    RouteStored db₀ dir id (pre ++ [x]) s' := by
  obtain ⟨row, hrow, hcalls, hroutes, routeStops', hdb', hrows'⟩ := createRouteStop_eq_ok hi ht
  obtain ⟨routeStops, hdb, hrows⟩ := h.table
  have hrow₀ : stopRow db₀ id x = some row := by
    rw [hdb] at hrow
    exact hrow
  constructor
  · rw [hroutes, h.routes]
  · refine ⟨routeStops', by rw [hdb', hdb], ?_⟩
    rw [hrows', hdb, hrows, List.filterMap_append, List.append_assoc]
    congr 2
    simp [hrow₀]
  · intro y hy
    rcases List.mem_append.mp hy with hy | hy
    · exact h.located y hy
    · rw [List.mem_singleton.mp hy]
      exact ⟨row, hrow₀⟩
  · rw [List.map_append, List.map_singleton, List.nodup_append]
    refine ⟨h.once, List.nodup_singleton _, ?_⟩
    intro code hcode code' hcode' he
    obtain ⟨y, hy, rfl⟩ := List.mem_map.mp hcode
    rw [List.mem_singleton] at hcode'
    obtain ⟨row', hrow'⟩ := h.located y hy
    have hmem := h.mem_rows.mpr (.inr ⟨y, hy, hrow'⟩)
    have hid : row'.routeId = id := by
      obtain ⟨_, -, rfl⟩ := stopRow_eq_some.mp hrow'
      rfl
    exact hcalls row' hmem hid ((stopRow_location hrow' hrow₀).mpr (he.trans hcode'))

lemma RouteStored.stores {pre : List (RouteStopRequest × Nat)} {x : RouteStopRequest × Nat} {row : RouteStopRow}
    (h : RouteStored db₀ dir id pre s) (hi : x.2 < 32768) (hroute : (dir.routes.find? id).isSome = true)
    (hfree : ∀ r ∈ db₀.routeStops.rows, r.routeId ≠ id) (hrow : stopRow db₀ id x = some row)
    (hindex : x.2 ∉ pre.map Prod.snd)
    (hcode : trim x.1.locationCode ∉ pre.map (fun y => trim y.1.locationCode)) :
    ∃ s', createRouteStop id s x = .ok s' := by
  have hrow' : stopRow s.2 id x = some row := by
    obtain ⟨routeStops, hdb, -⟩ := h.table
    rw [hdb]
    exact hrow
  refine createRouteStop_stores hi (by rw [h.routes]; exact hroute) hrow' ?_ ?_
  · rw [Table.find?_eq_none]
    intro r hr hkey
    rcases h.mem_rows.mp hr with hold | ⟨y, hy, hnew⟩
    · exact hfree r hold (congrArg Prod.fst hkey)
    · obtain ⟨_, -, rfl⟩ := stopRow_eq_some.mp hnew
      simp only [RouteStopRow.key, Prod.mk.injEq] at hkey
      exact hindex (List.mem_map.mpr ⟨y, hy, hkey.2⟩)
  · intro r hr hid hloc
    rcases h.mem_rows.mp hr with hold | ⟨y, hy, hnew⟩
    · exact hfree r hold hid
    · exact hcode (List.mem_map.mpr ⟨y, hy, (stopRow_location hnew hrow).mp hloc⟩)

lemma zipIdx_bound {pre : List (RouteStopRequest × Nat)} {x : RouteStopRequest × Nat}
    (hp : pre ++ [x] <+: stops.zipIdx) : x.2 < stops.length ∧ x.1 ∈ stops := by
  have hmem : x ∈ stops.zipIdx := hp.subset (List.mem_append_right _ (List.mem_singleton_self x))
  obtain ⟨hlt, hget⟩ := List.mem_zipIdx' hmem
  exact ⟨hlt, by rw [hget]; exact List.getElem_mem hlt⟩

/-- The stops of a new route are all stored if and only if no location is named twice. -/
lemma createRouteStops_ok_iff (hlen : stops.length ≤ 65) (hroute : (dir.routes.find? id).isSome = true)
    (hfree : ∀ r ∈ db₀.routeStops.rows, r.routeId ≠ id)
    (hknown : ∀ st ∈ stops, ∃ l ∈ db₀.locations.rows, l.code = trim st.locationCode) :
    (∃ s', stops.zipIdx.foldlM (createRouteStop id) (dir, db₀) = .ok s') ↔
      (stops.map (fun st => trim st.locationCode)).Nodup := by
  have hcodes : stops.zipIdx.map (fun x => trim x.1.locationCode) =
      stops.map (fun st => trim st.locationCode) := by
    have hfst := congrArg (List.map (fun st : RouteStopRequest => trim st.locationCode))
      (List.zipIdx_map_fst 0 stops)
    rw [List.map_map] at hfst
    exact hfst
  constructor
  · rintro ⟨s', hok⟩
    have hend : RouteStored db₀ dir id stops.zipIdx s' := foldlM_invariant stored_nil
      (fun pre x t t' hp hI ht => hI.step (by have hb := (zipIdx_bound hp).1; omega) ht) hok
    rw [← hcodes]
    exact hend.once
  · intro hnodup
    suffices hrun : ∃ s', stops.zipIdx.foldlM (createRouteStop id) (dir, db₀) = .ok s' ∧
        RouteStored db₀ dir id stops.zipIdx s' from hrun.imp (fun _ h => h.1)
    apply foldlM_total stored_nil
    · intro pre x t hp hI
      obtain ⟨hb, hmem⟩ := zipIdx_bound hp
      have hi : x.2 < 32768 := by omega
      obtain ⟨l, hl, hc⟩ := hknown x.1 hmem
      have hrow : ∃ row, stopRow db₀ id x = some row := by
        cases hf : db₀.locations.rows.find? (fun l => decide (l.code = trim x.1.locationCode)) with
        | none => exact absurd (decide_eq_true hc) (List.find?_eq_none.mp hf l hl)
        | some l' => exact ⟨_, stopRow_eq_some.mpr ⟨l', hf, rfl⟩⟩
      obtain ⟨row, hrow⟩ := hrow
      have hindices : ((pre ++ [x]).map Prod.snd).Nodup := by
        have hall : (stops.zipIdx.map Prod.snd).Nodup := by
          rw [List.zipIdx_map_snd]
          exact List.nodup_range'
        exact hall.sublist (hp.sublist.map Prod.snd)
      have hnames : ((pre ++ [x]).map (fun y => trim y.1.locationCode)).Nodup := by
        rw [← hcodes] at hnodup
        exact hnodup.sublist (hp.sublist.map _)
      rw [List.map_append, List.nodup_append] at hindices hnames
      obtain ⟨t', ht⟩ := hI.stores hi hroute hfree hrow
        (fun hm => hindices.2.2 _ hm _ (List.mem_singleton_self _) rfl)
        (fun hm => hnames.2.2 _ hm _ (List.mem_singleton_self _) rfl)
      exact ⟨t', ht, hI.step hi ht⟩

lemma RouteStored.mem_stopsOn {req : CreateRouteRequest} (h : RouteStored db₀ dir id req.stops.zipIdx s)
    (hfree : ∀ r ∈ db₀.routeStops.rows, r.routeId ≠ id) {origin destination : String} {stop : Stop} :
    stop ∈ stopsOn s.2 id origin destination ↔
      stop ∈ requestedStops req ∧ (stop.code = origin ∨ stop.code = destination) := by
  obtain ⟨routeStops, hdb, hrows⟩ := h.table
  have hlocations : s.2.locations = db₀.locations := by rw [hdb]
  have hcalls : ∀ r, r ∈ s.2.callsAt id stop.code ↔
      ∃ x ∈ req.stops.zipIdx, stopRow db₀ id x = some r ∧ trim x.1.locationCode = stop.code := by
    intro r
    rw [mem_callsAt, h.mem_rows, hlocations]
    constructor
    · rintro ⟨hold | ⟨x, hx, hrow⟩, hid, l, hl, hc⟩
      · exact absurd hid (hfree r hold)
      · refine ⟨x, hx, hrow, ?_⟩
        obtain ⟨l', hl', rfl⟩ := stopRow_eq_some.mp hrow
        rw [Table.find?_of_mem (find?_code hl').1] at hl
        cases hl
        rw [← (find?_code hl').2, hc]
    · rintro ⟨x, hx, hrow, hc⟩
      obtain ⟨l, hl, rfl⟩ := stopRow_eq_some.mp hrow
      exact ⟨.inr ⟨x, hx, hrow⟩, rfl, l, Table.find?_of_mem (find?_code hl).1, (find?_code hl).2.trans hc⟩
  rw [Proofs.mem_stopsOn, and_comm]
  refine and_congr_left (fun _ => ?_)
  rw [requestedStops, List.mem_mapIdx]
  constructor
  · rintro ⟨r, hr, hstop⟩
    obtain ⟨x, hx, hrow, hc⟩ := (hcalls r).mp hr
    obtain ⟨hlt, hget⟩ := List.mem_zipIdx' hx
    obtain ⟨l, -, rfl⟩ := stopRow_eq_some.mp hrow
    refine ⟨x.2, hlt, ?_⟩
    rw [← hget, hc]
    exact hstop.symm
  · rintro ⟨i, hi, rfl⟩
    have hx : (req.stops[i], i) ∈ req.stops.zipIdx :=
      List.mem_zipIdx_iff_getElem?.mpr (List.getElem?_eq_getElem hi)
    obtain ⟨r, hrow⟩ := h.located _ hx
    obtain ⟨l, -, hr⟩ := stopRow_eq_some.mp hrow
    exact ⟨r, (hcalls r).mpr ⟨_, hx, hrow, rfl⟩, by rw [← hr]⟩

lemma RouteStored.resolves {req : CreateRouteRequest} (h : RouteStored db₀ dir id req.stops.zipIdx s)
    (hlen : req.stops.length ≤ 65) (hfree : ∀ r ∈ db₀.routeStops.rows, r.routeId ≠ id)
    (origin destination : String) :
    s.2.resolveSpan id origin destination = pickSpan (requestedStops req) origin destination := by
  have hget : ∀ a ∈ requestedStops req, ∃ st, req.stops[a.index]? = some st ∧
      a = ⟨trim st.locationCode, a.index, st.departOffsetMin⟩ := by
    intro a ha
    rw [requestedStops, List.mem_mapIdx] at ha
    obtain ⟨i, hi, rfl⟩ := ha
    exact ⟨_, List.getElem?_eq_getElem hi, rfl⟩
  refine pickSpan_congr (fun a ha => ?_) (fun a ha b hb hab => ?_) (fun stop => h.mem_stopsOn hfree)
  · obtain ⟨st, hst, -⟩ := hget a ha
    have hlt := (List.getElem?_eq_some_iff.mp hst).1
    omega
  · obtain ⟨st, hst, hae⟩ := hget a ha
    obtain ⟨st', hst', hbe⟩ := hget b hb
    rw [hab, hst'] at hst
    cases hst
    rw [hae, hbe, hab]

end Run

section Publish

variable {dir : Directory} {db : Db} {id : Uuid} {req : CreateRouteRequest}

lemma insertRoute_fresh (hcode : ∀ r ∈ dir.routes.rows, r.code ≠ trim req.code)
    (hid : dir.routes.find? id = none) :
    ∃ routes : Table Gtfs.Route.id, (routes.find? id).isSome = true ∧
      insertRoute dir ⟨id, trim req.code, trim req.name⟩ = .ok { dir with routes := routes } := by
  have hany : ¬dir.routes.rows.any (fun x => decide (x.code = trim req.code)) = true := by
    rw [List.any_eq_true]
    rintro ⟨r, hr, h⟩
    exact hcode r hr (of_decide_eq_true h)
  cases hn : dir.routes.insert ⟨id, trim req.code, trim req.name⟩ with
  | none => exact absurd hid (Table.insert_eq_none.mp hn)
  | some routes =>
    refine ⟨routes, ?_, ?_⟩
    · rw [Table.find?_insert hn, if_pos rfl]
      rfl
    · have hins : insertRow dir.routes ⟨id, trim req.code, trim req.name⟩ true true = .ok routes :=
        insertRow_eq_ok.mpr ⟨rfl, rfl, hn⟩
      rw [insertRoute, if_neg hany, hins]
      rfl

/-- A route is published, and sold along every journey that its stops make, if and only if it calls at no
location twice. -/
theorem route_published_iff (hlen : 2 ≤ req.stops.length ∧ req.stops.length ≤ 65)
    (hknown : ∀ st ∈ req.stops, ∃ l ∈ db.locations.rows, l.code = trim st.locationCode)
    (hcode : ∀ r ∈ dir.routes.rows, r.code ≠ trim req.code) (hid : dir.routes.find? id = none)
    (hfree : ∀ r ∈ db.routeStops.rows, r.routeId ≠ id) :
    (∃ s, createRoute req id (dir, db) = .ok s ∧ ∀ origin destination span boards,
      pickSpan (requestedStops req) origin destination = .ok (span, boards) →
      s.2.resolveSpan id origin destination = .ok (span, boards)) ↔
    (req.stops.map (fun st => trim st.locationCode)).Nodup := by
  obtain ⟨routes, hroute, hinsert⟩ := insertRoute_fresh hcode hid
  have hcreate : createRoute req id (dir, db) =
      req.stops.zipIdx.foldlM (createRouteStop id) ({ dir with routes := routes }, db) := by
    rw [createRoute, if_neg (by omega)]
    simp only [hinsert]
  have hstops : (∃ s, req.stops.zipIdx.foldlM (createRouteStop id) ({ dir with routes := routes }, db) = .ok s) ↔
      (req.stops.map (fun st => trim st.locationCode)).Nodup :=
    createRouteStops_ok_iff hlen.2 hroute hfree hknown
  rw [hcreate, ← hstops]
  constructor
  · rintro ⟨s, hok, -⟩
    exact ⟨s, hok⟩
  · rintro ⟨s, hok⟩
    have hstored : RouteStored db { dir with routes := routes } id req.stops.zipIdx s :=
      foldlM_invariant stored_nil (fun pre x t t' hp hI ht =>
        hI.step (by have hb := (zipIdx_bound hp).1; omega) ht) hok
    refine ⟨s, hok, fun origin destination span boards h => ?_⟩
    rw [hstored.resolves hlen.2 hfree, h]

/-- To the islands and back to base. -/
def roundTripRequest : CreateRouteRequest :=
  ⟨"ROUND", "Round of the islands", [⟨"CEB", 0, 0⟩, ⟨" TAG ", 110, 120⟩, ⟨"ORM", 230, 240⟩, ⟨"CEB", 350, 360⟩]⟩

/-- The round trip that the resolution was written for cannot be published. -/
theorem round_trip_refused : ¬∀ (dir : Directory) (db : Db) (id : Uuid) (req : CreateRouteRequest),
    2 ≤ req.stops.length ∧ req.stops.length ≤ 65 →
    (∀ st ∈ req.stops, ∃ l ∈ db.locations.rows, l.code = trim st.locationCode) →
    (∀ r ∈ dir.routes.rows, r.code ≠ trim req.code) → dir.routes.find? id = none →
    (∀ r ∈ db.routeStops.rows, r.routeId ≠ id) →
    ∃ s, createRoute req id (dir, db) = .ok s ∧ ∀ origin destination span boards,
      pickSpan (requestedStops req) origin destination = .ok (span, boards) →
      s.2.resolveSpan id origin destination = .ok (span, boards) := by
  intro h
  obtain ⟨s, hok, -⟩ := h harbourDirectory harbour.db 9 roundTripRequest (by decide) (by decide)
    (by decide) (by decide) (by decide)
  have hnone : (createRoute roundTripRequest 9 (harbourDirectory, harbour.db)).toOption.isSome = false := by
    decide
  rw [hok] at hnone
  cases hnone

/-- The way out alone. -/
def outwardRequest : CreateRouteRequest := { roundTripRequest with stops := roundTripRequest.stops.take 3 }

theorem route_published_iff_harbour : ∃ s, createRoute outwardRequest 9 (harbourDirectory, harbour.db) = .ok s ∧
    ∀ origin destination span boards,
      pickSpan (requestedStops outwardRequest) origin destination = .ok (span, boards) →
      s.2.resolveSpan 9 origin destination = .ok (span, boards) :=
  (route_published_iff (by decide) (by decide) (by decide) (by decide) (by decide)).mpr
    (by decide)

end Publish

end Lulan.Proofs
