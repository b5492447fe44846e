import Mathlib.Logic.Relation
import Lulan.Proofs.Gtfs

/-!
# Dated trips and their routes

The loop over the trips keeps every pattern on a route that serves its stops, provided that
no code stands for two different lists of stops.
-/

namespace Lulan.Proofs

open Lulan Lulan.Gtfs Lib

section Registry

variable {call : ImportCall} {setting : Setting} {feed : Feed} {pre : List Gtfs.TripRow} {t : Gtfs.TripRow}
  {p p' : Progress} {pattern : Pattern} {index : Nat}

/-- The maps of the loop know exactly the patterns met so far. -/
structure Registered (feed : Feed) (pre : List Gtfs.TripRow) (p : Progress) : Prop where
  known : ∀ key, (p.patterns key).isSome = true ↔ key ∈ patternKeys feed pre
  counts : ∀ routeId, p.patternCountPerRoute routeId = patternCount (patternKeys feed pre) routeId

lemma Registered.same (h : Registered feed pre p) (hp : p'.patterns = p.patterns)
    (hc : p'.patternCountPerRoute = p.patternCountPerRoute) : Registered feed pre p' := by
  constructor
  · rw [hp]
    exact h.known
  · rw [hc]
    exact h.counts

lemma Registered.skip (h : Registered feed pre p)
    (ht : taken feed t = false ∨ patternKey feed t ∈ patternKeys feed pre) :
    Registered feed (pre ++ [t]) p := by
  have hkeys : patternKeys feed (pre ++ [t]) = patternKeys feed pre := by
    rw [patternKeys_concat, if_neg]
    rintro ⟨h₁, h₂⟩
    rcases ht with ht | ht
    · rw [ht] at h₁
      cases h₁
    · exact h₂ ht
  constructor
  · rw [hkeys]
    exact h.known
  · rw [hkeys]
    exact h.counts

/-- A trip finds its pattern, or the pattern is made under the next code of its route. -/
lemma patternOf_eq_ok (hr : Registered call.feed pre p) (ht : taken call.feed t = true)
    (h : patternOf call setting p index t = .ok (pattern, p')) :
    Registered call.feed (pre ++ [t]) p' ∧ p'.patterns (patternKey call.feed t) = some pattern ∧
      (p' = p ∨ (patternKey call.feed t ∉ patternKeys call.feed pre ∧
        p'.patterns = Function.update p.patterns (patternKey call.feed t) (some pattern) ∧
        importPattern setting (call.ids.route index)
          (routeCode (call.feed.baseName t.routeId) (patternCount (patternKeys call.feed pre) t.routeId))
          (call.feed.baseName t.routeId) (call.feed.tripStops t.tripId) p.db = .ok (pattern, p'.db))) := by
  unfold patternOf at h
  simp only at h
  have hkey : (t.routeId, (call.feed.tripStops t.tripId).map StopTime.stopId) = patternKey call.feed t := rfl
  rw [hkey] at h
  split at h
  · rename_i pattern' hp
    cases h
    have hm : patternKey call.feed t ∈ patternKeys call.feed pre := (hr.known _).mp (by rw [hp]; rfl)
    exact ⟨hr.skip (.inr hm), hp, .inl rfl⟩
  · rename_i hn
    obtain ⟨⟨pattern', db⟩, hi, h⟩ := bind_eq_ok.mp h
    cases h
    have hm : patternKey call.feed t ∉ patternKeys call.feed pre := by
      rw [← hr.known, hn]
      simp
    have hkeys : patternKeys call.feed (pre ++ [t]) = patternKeys call.feed pre ++ [patternKey call.feed t] := by
      rw [patternKeys_concat, if_pos ⟨ht, hm⟩]
    rw [hr.counts] at hi
    refine ⟨⟨fun key => ?_, fun routeId => ?_⟩, Function.update_self .., .inr ⟨hm, rfl, hi⟩⟩
    · simp only [hkeys, List.mem_append, List.mem_singleton, Function.update_apply, ← hr.known]
      split
      · rename_i he
        simp [he]
      · rename_i he
        simp [he]
    · simp only [hkeys, patternCount, List.countP_append, Function.update_apply]
      split
      · rename_i he
        rw [he, hr.counts]
        simp [patternCount, patternKey]
      · rename_i he
        rw [hr.counts]
        simp [patternCount, patternKey, Ne.symm he]

end Registry

section Placing

variable {rt : Runtime} {call : ImportCall} {setting : Setting} {feed : Feed} {pre : List Gtfs.TripRow}
  {t : Gtfs.TripRow} {p p' : Progress} {db db₀ db' : Network} {pattern : Pattern} {index : Nat}

/-- The route codes keep different stop patterns apart, within the feed and from the routes
that are there. -/
structure Apart (feed : Feed) (db : Network) : Prop where
  patterns : ∀ x ∈ codedPatterns feed, ∀ y ∈ codedPatterns feed, x.1 = y.1 → x.2 = y.2
  routes : ∀ r ∈ db.routes.rows, ∀ x ∈ codedPatterns feed, r.code = x.1 → db.Serves r.id x.2

instance instDecidableApart (feed : Feed) (db : Network) : Decidable (Apart feed db) :=
  decidable_of_iff ((∀ x ∈ codedPatterns feed, ∀ y ∈ codedPatterns feed, x.1 = y.1 → x.2 = y.2) ∧
      ∀ r ∈ db.routes.rows, ∀ x ∈ codedPatterns feed, r.code = x.1 → db.Serves r.id x.2)
    ⟨fun h => ⟨h.1, h.2⟩, fun h => ⟨h.patterns, h.routes⟩⟩

/-- A dated trip of the feed: its route has the stops of its feed trip. -/
structure Placed (feed : Feed) (db : Network) (row : DatedTrip) : Prop where
  stops : db.Serves row.routeId (stopIds feed row.serviceNumber)
  segments : row.segmentCount + 1 = (stopIds feed row.serviceNumber).length

lemma route_isSome {id : Uuid} : (db.routes.find? id).isSome = true ↔ ∃ r ∈ db.routes.rows, r.id = id := by
  constructor
  · intro h
    obtain ⟨r, hr⟩ := Option.isSome_iff_exists.mp h
    exact ⟨r, Lib.Table.find?_mem hr, Lib.Table.find?_key hr⟩
  · rintro ⟨r, hr, rfl⟩
    rw [Lib.Table.find?_of_mem hr]
    rfl

/-- Routes and their stops stay, and so do dated trips. -/
structure Grown (db db' : Network) : Prop where
  routes : ∀ id, (db.routes.find? id).isSome = true → (db'.routes.find? id).isSome = true ∧
    ∀ ids, db.Serves id ids → db'.Serves id ids
  trips : ∀ row ∈ db.trips.rows, row ∈ db'.trips.rows

lemma Grown.refl (db : Network) : Grown db db := ⟨fun _ h => ⟨h, fun _ h => h⟩, fun _ h => h⟩

lemma Grown.trans {db₁ db₂ db₃ : Network} (h : Grown db₁ db₂) (h' : Grown db₂ db₃) : Grown db₁ db₃ where
  routes id hid := by
    obtain ⟨hmid, hserves⟩ := h.routes id hid
    obtain ⟨hend, hserves'⟩ := h'.routes id hmid
    exact ⟨hend, fun ids hs => hserves' ids (hserves ids hs)⟩
  trips row hr := h'.trips row (h.trips row hr)

lemma Opened.grown {route : Route} {first : Int32} {stops : List StopTime} (h : Opened db db' route first stops) :
    Grown db db' := by
  constructor
  · intro id hid
    have hne : id ≠ route.id := by
      rintro rfl
      rw [h.fresh] at hid
      cases hid
    obtain ⟨r, hr, hrid⟩ := route_isSome.mp hid
    refine ⟨route_isSome.mpr ⟨r, by rw [h.routes]; exact List.mem_append_left _ hr, hrid⟩, fun ids hs => ?_⟩
    exact Serves.congr hs (h.others id hne) (fun l c hc => by rw [codeOf_congr h.locations]; exact hc)
  · intro row hr
    rw [h.trips]
    exact hr

lemma Opened.referenced {route : Route} {first : Int32} {stops : List StopTime} (h : Opened db db' route first stops)
    (href : Referenced db) : Referenced db' := by
  constructor
  · intro s hs
    rcases h.stops s hs with hs | hs
    · exact (h.grown.routes _ (href.stops s hs)).1
    · rw [hs, route_isSome]
      exact ⟨route, by simp [h.routes], rfl⟩
  · intro row hr
    rw [h.trips] at hr
    exact (h.grown.routes _ (href.trips row hr)).1

/-- What the loop over the trips keeps; `db` is the network it started from. -/
structure PlacedAll (feed : Feed) (db : Network) (pre : List Gtfs.TripRow) (p : Progress) : Prop where
  registered : Registered feed pre p
  referenced : Referenced p.db
  located : ∀ l, p.db.codeOf l = db.codeOf l
  served : ∀ key pattern, p.patterns key = some pattern →
    p.db.Serves pattern.routeId key.2 ∧ (p.db.routes.find? pattern.routeId).isSome = true
  apart : Apart feed p.db
  grown : Grown db p.db
  placed : ∀ row ∈ p.db.trips.rows, row ∈ db.trips.rows ∨ Placed feed p.db row

/-- A trip on a route that stays is placed as it was. -/
lemma Placed.grown {row : DatedTrip} (h : Placed feed db row) (hr : (db.routes.find? row.routeId).isSome = true)
    (hg : Grown db db') : Placed feed db' row :=
  ⟨(hg.routes _ hr).2 _ h.stops, h.segments⟩

/-- A trip's pattern is on a route that serves its stops. -/
lemma PlacedAll.attach (h : PlacedAll call.feed db pre p) (hloc : Located db setting.locationIds)
    (hpre : pre ++ [t] <+: call.feed.trips) (ht : taken call.feed t = true)
    (hp : patternOf call setting p index t = .ok (pattern, p')) :
    PlacedAll call.feed db (pre ++ [t]) p' ∧ p'.patterns (patternKey call.feed t) = some pattern := by
  obtain ⟨hreg, hkey, rfl | ⟨hnew, hpat, himp⟩⟩ := patternOf_eq_ok h.registered ht hp
  · exact ⟨⟨hreg, h.referenced, h.located, h.served, h.apart, h.grown, h.placed⟩, hkey⟩
  · refine ⟨?_, hkey⟩
    have hcoded := mem_codedPatterns hpre ht hnew
    have hlocp : Located p.db setting.locationIds := fun stopId l hl => (h.located l).trans (hloc stopId l hl)
    have hserved : (p'.db.Serves pattern.routeId (stopIds call.feed t.tripId) ∧
        (p'.db.routes.find? pattern.routeId).isSome = true) → (∀ key pattern, p.patterns key = some pattern →
          p'.db.Serves pattern.routeId key.2 ∧ (p'.db.routes.find? pattern.routeId).isSome = true) →
        ∀ key pattern, p'.patterns key = some pattern →
          p'.db.Serves pattern.routeId key.2 ∧ (p'.db.routes.find? pattern.routeId).isSome = true := by
      intro hown hold key pattern' hk
      rw [hpat, Function.update_apply] at hk
      split at hk
      · rename_i he
        cases hk
        rw [he]
        exact hown
      · exact hold key pattern' hk
    obtain ⟨-, ⟨r, hr, hcode, hid, hkeep⟩ | ⟨hcode, hid, hopen⟩⟩ := importPattern_eq_ok h.referenced hlocp himp
    · have hserves := h.apart.routes r hr _ hcoded hcode
      have hdb := hkeep hserves
      refine ⟨hreg, hdb ▸ h.referenced, hdb ▸ h.located, ?_, hdb ▸ h.apart, hdb ▸ h.grown, hdb ▸ h.placed⟩
      refine hserved ⟨?_, ?_⟩ (hdb ▸ h.served)
      · rw [hid, hdb]
        exact hserves
      · rw [hid, hdb]
        exact route_isSome.mpr ⟨r, hr, rfl⟩
    · have hserves : p'.db.Serves pattern.routeId (stopIds call.feed t.tripId) := by
        rw [hid]
        exact hopen.times.serves
      have hg := hopen.grown
      refine ⟨hreg, hopen.referenced h.referenced, fun l => (codeOf_congr hopen.locations l).trans (h.located l),
        hserved ⟨hserves, ?_⟩ ?_, ⟨h.apart.patterns, ?_⟩, h.grown.trans hg, ?_⟩
      · rw [hid, route_isSome]
        exact ⟨_, by rw [hopen.routes]; exact List.mem_append_right _ (List.mem_singleton_self _), rfl⟩
      · intro key pattern' hk
        obtain ⟨hs, hsome⟩ := h.served key pattern' hk
        exact ⟨(hg.routes _ hsome).2 _ hs, (hg.routes _ hsome).1⟩
      · intro r hr x hx hc
        rw [hopen.routes] at hr
        rcases List.mem_append.mp hr with hr | hr
        · exact (hg.routes _ (route_isSome.mpr ⟨r, hr, rfl⟩)).2 _ (h.apart.routes r hr x hx hc)
        · rw [List.mem_singleton.mp hr] at hc ⊢
          rw [← h.apart.patterns _ hcoded x hx hc]
          exact hid ▸ hserves
      · intro row hrow
        rw [hopen.trips] at hrow
        refine (h.placed row hrow).imp (fun hm => hm) (fun hpl => ?_)
        exact hpl.grown (h.referenced.trips row hrow) hg

/-- A departure is placed where its pattern is. -/
lemma PlacedAll.departure {date : Int} {n : Nat} (h : PlacedAll feed db pre p)
    (hpat : p.patterns (patternKey feed t) = some pattern) (hn : n + 1 = (stopIds feed t.tripId).length)
    (hd : importDeparture call setting pattern index t n p date = .ok p') :
    PlacedAll feed db pre p' ∧ p'.patterns (patternKey feed t) = some pattern := by
  obtain ⟨hsame, htrips⟩ := importDeparture_eq_ok hd
  have hserves : ∀ id ids, p.db.Serves id ids → p'.db.Serves id ids := fun id ids hs =>
    Serves.congr hs (stopsOf_congr hsame.routeStops) (fun l c hc => by rw [codeOf_congr hsame.locations]; exact hc)
  have hrows : ∀ row ∈ p'.db.trips.rows, row ∈ p.db.trips.rows ∨
      ((p.db.routes.find? row.routeId).isSome = true ∧ Placed feed p.db row) := by
    intro row hrow
    rcases htrips with ⟨-, ht⟩ | ⟨hroute, ht⟩
    · exact .inl (ht ▸ hrow)
    · rw [ht] at hrow
      refine (List.mem_append.mp hrow).imp (fun hm => hm) (fun hm => ?_)
      rw [List.mem_singleton.mp hm]
      exact ⟨hroute, (h.served _ _ hpat).1, hn⟩
  have hold : ∀ row ∈ p.db.trips.rows, row ∈ p'.db.trips.rows := by
    intro row hrow
    rcases htrips with ⟨-, ht⟩ | ⟨-, ht⟩
    · rw [ht]
      exact hrow
    · rw [ht]
      exact List.mem_append_left _ hrow
  have hg : Grown p.db p'.db := ⟨fun id hid => ⟨by rw [hsame.routes]; exact hid, hserves id⟩, hold⟩
  refine ⟨⟨h.registered.same hsame.patterns hsame.counts, ⟨?_, ?_⟩,
    fun l => (codeOf_congr hsame.locations l).trans (h.located l), ?_, ⟨h.apart.patterns, ?_⟩, h.grown.trans hg, ?_⟩,
    by rw [hsame.patterns]; exact hpat⟩
  · intro s hs
    rw [hsame.routes]
    exact h.referenced.stops s (hsame.routeStops ▸ hs)
  · intro row hrow
    rw [hsame.routes]
    exact (hrows row hrow).elim (h.referenced.trips row) (fun hr => hr.1)
  · intro key pattern' hk
    rw [hsame.patterns] at hk
    obtain ⟨hs, hsome⟩ := h.served key pattern' hk
    exact ⟨hserves _ _ hs, by rw [hsame.routes]; exact hsome⟩
  · intro r hr x hx hc
    rw [hsame.routes] at hr
    exact hserves _ _ (h.apart.routes r hr x hx hc)
  · intro row hrow
    rcases hrows row hrow with hm | ⟨-, hpl⟩
    · exact (h.placed row hm).imp (fun hm => hm) (fun hpl => ⟨hserves _ _ hpl.stops, hpl.segments⟩)
    · exact .inr ⟨hserves _ _ hpl.stops, hpl.segments⟩

lemma PlacedAll.skipped (h : PlacedAll feed db pre p) :
    PlacedAll feed db pre { p with skippedTrips := p.skippedTrips + 1 } :=
  ⟨h.registered.same rfl rfl, h.referenced, h.located, h.served, h.apart, h.grown, h.placed⟩

/-- One trip of the feed. -/
lemma PlacedAll.trip {x : Gtfs.TripRow × Nat} (h : PlacedAll call.feed db pre p)
    (hloc : Located db setting.locationIds) (hpre : pre ++ [x.1] <+: call.feed.trips)
    (hx : importTrip rt call setting p x = .ok p') : PlacedAll call.feed db (pre ++ [x.1]) p' := by
  rcases importTrip_eq_ok hx with ⟨hlen, rfl⟩ | ⟨⟨hmin, hmax⟩, pattern, p₁, hp, hrest⟩
  · have ht : taken call.feed x.1 = false := by
      unfold taken
      rcases hlen with hlen | hlen
      · rw [decide_eq_false (by omega), Bool.false_and]
      · rw [decide_eq_false (p := _ ≤ 64) (by omega), Bool.and_false]
    have hk := h.skipped
    exact ⟨hk.registered.skip (.inl ht), hk.referenced, hk.located, hk.served, hk.apart, hk.grown, hk.placed⟩
  · have ht : taken call.feed x.1 = true := by
      rw [taken, decide_eq_true hmin, decide_eq_true hmax]
      rfl
    obtain ⟨h₁, hk₁⟩ := h.attach hloc hpre ht hp
    rcases hrest with ⟨-, rfl⟩ | ⟨service, dates, -, -, hdates⟩
    · exact h₁.skipped
    · have hn : (call.feed.tripStops x.1.tripId).length - 1 + 1 = (stopIds call.feed x.1.tripId).length := by
        rw [stopIds, List.length_map]
        omega
      have hend := foldlM_keeps (I := fun q => PlacedAll call.feed db (pre ++ [x.1]) q ∧
        q.patterns (patternKey call.feed x.1) = some pattern) ⟨h₁, hk₁⟩
        (fun date q q' _ hq hd => hq.1.departure hq.2 hn hd) hdates
      exact hend.1

/-- One import: what was there stays, and every new dated trip is placed. -/
theorem importFeed_placed (href : Referenced db) (ha : Apart call.feed db) (h : importFeed rt call db = .ok p) :
    Referenced p.db ∧ Grown db p.db ∧
      ∀ row ∈ p.db.trips.rows, row ∈ db.trips.rows ∨ Placed call.feed p.db row := by
  obtain ⟨⟨setting, db₁⟩, hprep, h⟩ := bind_eq_ok.mp h
  obtain ⟨hp, hloc, -⟩ := prepare_eq_ok hprep
  have hserves : ∀ id ids, db.Serves id ids → db₁.Serves id ids := fun id ids hs =>
    Serves.congr hs (stopsOf_congr hp.routeStops) hp.codes
  have hg : Grown db db₁ :=
    ⟨fun id hid => ⟨by rw [hp.routes]; exact hid, hserves id⟩, fun row hr => by rw [hp.trips]; exact hr⟩
  have hstart : PlacedAll call.feed db₁ [] ⟨db₁, fun _ => none, fun _ => 0, 0, 0⟩ := by
    refine ⟨⟨fun key => by simp [patternKeys], fun routeId => rfl⟩, ⟨?_, ?_⟩, fun _ => rfl, (fun _ _ hk => by cases hk),
      ⟨ha.patterns, ?_⟩, .refl db₁, fun row hr => .inl hr⟩
    · intro s hs
      rw [hp.routes]
      exact href.stops s (hp.routeStops ▸ hs)
    · intro row hr
      rw [hp.routes]
      exact href.trips row (hp.trips ▸ hr)
    · intro r hr x hx hc
      exact hserves _ _ (ha.routes r (hp.routes ▸ hr) x hx hc)
  have hend := foldlM_invariant (l := call.feed.trips.zipIdx)
    (I := fun pre q => PlacedAll call.feed db₁ (pre.map Prod.fst) q) hstart (fun pre x q q' hpre hq hx => ?_) h
  · refine ⟨hend.referenced, hg.trans hend.grown, fun row hr => ?_⟩
    have hrow := hend.placed row hr
    rw [hp.trips] at hrow
    exact hrow
  · have hfst : pre.map Prod.fst ++ [x.1] <+: call.feed.trips := by
      have hmap := hpre.map Prod.fst
      rw [List.zipIdx_map_fst, List.map_append] at hmap
      exact hmap
    rw [List.map_append]
    exact hq.trip hloc hfst hx

/-- One successful import of a feed that meets the condition `G` where it starts. -/
def ImportStep (rt : Runtime) (G : Feed → Network → Prop) (db db' : Network) : Prop :=
  ∃ call p, G call.feed db ∧ importFeed rt call db = .ok p ∧ db' = p.db

def Imports (rt : Runtime) (G : Feed → Network → Prop) : Network → Network → Prop :=
  Relation.ReflTransGen (ImportStep rt G)

/-- A sequence of imports keeps routes, their stops and the dated trips. -/
lemma imports_grown (href : Referenced db) (h : Imports rt Apart db db') : Referenced db' ∧ Grown db db' := by
  induction h with
  | refl => exact ⟨href, .refl db⟩
  | tail _ hstep ih =>
    obtain ⟨call, p, ha, hi, rfl⟩ := hstep
    obtain ⟨hr, hg, -⟩ := importFeed_placed ih.1 ha hi
    exact ⟨hr, ih.2.trans hg⟩

/-- In a sequence of imports whose codes keep the patterns apart, every dated trip stays on a
route with exactly the stops of the feed trip it was inserted for. -/
theorem imported_stops {db₁ : Network} (href : Referenced db) (h₁ : Imports rt Apart db db₁)
    (ha : Apart call.feed db₁) (hi : importFeed rt call db₁ = .ok p) (h₂ : Imports rt Apart p.db db')
    {row : DatedTrip} (hrow : row ∈ p.db.trips.rows) (hnew : row ∉ db₁.trips.rows) :
    row ∈ db'.trips.rows ∧ db'.Serves row.routeId (stopIds call.feed row.serviceNumber) ∧
      row.segmentCount + 1 = (stopIds call.feed row.serviceNumber).length := by
  obtain ⟨href₁, -⟩ := imports_grown href h₁
  obtain ⟨href₂, -, hplaced⟩ := importFeed_placed href₁ ha hi
  obtain ⟨-, hg⟩ := imports_grown href₂ h₂
  have hpl := (hplaced row hrow).resolve_left hnew
  have hend := hpl.grown (href₂.trips row hrow) hg
  exact ⟨hg.trips row hrow, hend.stops, hend.segments⟩

end Placing

section Island

/-- The dates of the feeds below. -/
def calendarRuntime : Runtime where
  parseDate date := if date = "20260706" then some 20640 else if date = "20270706" then some 21005 else none
  isAlphanumeric := Char.isAlphanum
  toUppercase text := String.ofList (text.toList.map Char.toUpper)

/-- A day of service there and back. -/
def islandExpress : Feed where
  agencies := [⟨"ISLE", "Island Express"⟩]
  stops := [⟨"PRT1", "North Port", ""⟩, ⟨"PRT2", "Mid Harbour", ""⟩, ⟨"PRT3", "South Quay", ""⟩]
  routes := [⟨"R1", "NX", "North Express"⟩]
  trips := [⟨"R1", "DAILY", "NX-AM"⟩, ⟨"R1", "DAILY", "NX-BACK"⟩]
  stopTimes := [⟨"NX-AM", "06:00:00", "06:00:00", "PRT1", 1⟩, ⟨"NX-AM", "08:30:00", "08:45:00", "PRT2", 2⟩,
    ⟨"NX-AM", "11:00:00", "11:00:00", "PRT3", 3⟩, ⟨"NX-BACK", "14:00:00", "14:00:00", "PRT3", 1⟩,
    ⟨"NX-BACK", "16:15:00", "16:30:00", "PRT2", 2⟩, ⟨"NX-BACK", "19:00:00", "19:00:00", "PRT1", 3⟩]
  calendars := [⟨"DAILY", 1, 1, 1, 1, 1, 1, 1, "20260706", "20270706"⟩]

/-- The way back as a route of its own, under the same short name. -/
def islandExpressTwice : Feed := { islandExpress with
  routes := [⟨"R1", "NX", "North Express"⟩, ⟨"R2", "NX", "North Express back"⟩]
  trips := [⟨"R1", "DAILY", "NX-AM"⟩, ⟨"R2", "DAILY", "NX-BACK"⟩] }

/-- Identifiers that differ from import to import. -/
def drawnIds (today : Int) : Ids where
  operator := today.toNat
  location i := 100 * today.toNat + i
  resource := 1000000000 + today.toNat
  unit i := 100 * today.toNat + i
  route i := 100 * today.toNat + i
  trip i date := 1000000 * (i + 1) + 1000 * date.toNat + today.toNat

def islandImport (feed : Feed) (today : Int) : ImportCall := ⟨feed, ⟨0, 1, none⟩, today, drawnIds today⟩

/-- No trip of the feed visits a stop twice. -/
def Simple (feed : Feed) : Prop := ∀ t ∈ feed.trips, (stopIds feed t.tripId).Nodup

instance instDecidableSimple (feed : Feed) : Decidable (Simple feed) :=
  inferInstanceAs (Decidable (∀ t ∈ feed.trips, (stopIds feed t.tripId).Nodup))

/-- Two routes with one short name share a code, and the way back is sold on the way there. -/
theorem shared_code_misroutes : ¬ ∀ (rt : Runtime) (db db' : Network) (call : ImportCall) (p : Progress),
    Imports rt (fun feed _ => Simple feed) .empty db → Simple call.feed → importFeed rt call db = .ok p →
    Imports rt (fun feed _ => Simple feed) p.db db' →
    ∀ row ∈ p.db.trips.rows, row ∉ db.trips.rows →
      db'.Serves row.routeId (stopIds call.feed row.serviceNumber) ∧
        row.segmentCount + 1 = (stopIds call.feed row.serviceNumber).length := by
  intro hclaim
  have hrun : ((importFeed calendarRuntime (islandImport islandExpressTwice 20650) .empty).toOption.bind (fun p =>
      (p.db.trips.rows.find? (fun row => row.serviceNumber == "NX-BACK")).map (fun row =>
        decide (p.db.Serves row.routeId (stopIds islandExpressTwice row.serviceNumber))))) = some false := by
    decide
  obtain ⟨p, hp, hrow⟩ := Option.bind_eq_some_iff.mp hrun
  obtain ⟨row, hfind, hno⟩ := Option.map_eq_some_iff.mp hrow
  have hi := eq_ok_of_toOption hp
  have hsimple : Simple islandExpressTwice := by decide
  have hserves := (hclaim calendarRuntime .empty p.db (islandImport islandExpressTwice 20650) p .refl hsimple hi
    .refl row (List.mem_of_find?_eq_some hfind) (by simp [Network.empty])).1
  exact absurd hserves (of_decide_eq_false hno)

/-- The same feed imported on two days: a departure that the second import adds. -/
theorem imported_stops_island : ∃ (db : Network) (p : Progress) (row : DatedTrip),
    row ∈ p.db.trips.rows ∧ row ∉ db.trips.rows ∧
      p.db.Serves row.routeId (stopIds islandExpress row.serviceNumber) := by
  have hrun : ((importFeed calendarRuntime (islandImport islandExpress 20650) .empty).toOption.bind (fun p₁ =>
      (importFeed calendarRuntime (islandImport islandExpress 20651) p₁.db).toOption.bind (fun p₂ =>
        (p₂.db.trips.rows.find? (fun row => row.serviceDate == 20651)).map (fun row =>
          (decide (Apart islandExpress p₁.db), decide (row ∈ p₁.db.trips.rows)))))) = some (true, false) := by
    decide
  obtain ⟨p₁, h₁, hrun⟩ := Option.bind_eq_some_iff.mp hrun
  obtain ⟨p₂, h₂, hrun⟩ := Option.bind_eq_some_iff.mp hrun
  obtain ⟨row, hfind, hend⟩ := Option.map_eq_some_iff.mp hrun
  obtain ⟨hapart, hnew⟩ := Prod.mk.inj hend
  have hrow := List.mem_of_find?_eq_some hfind
  have hempty : Apart islandExpress .empty := by decide
  have href : Referenced Network.empty := ⟨by simp [Network.empty], by simp [Network.empty]⟩
  have himports : Imports calendarRuntime Apart .empty p₁.db :=
    .single ⟨islandImport islandExpress 20650, p₁, hempty, eq_ok_of_toOption h₁, rfl⟩
  have hagain : Apart (islandImport islandExpress 20651).feed p₁.db := of_decide_eq_true hapart
  obtain ⟨-, hserves, -⟩ :=
    imported_stops href himports hagain (eq_ok_of_toOption h₂) .refl hrow (of_decide_eq_false hnew)
  exact ⟨p₁.db, p₂, row, hrow, of_decide_eq_false hnew, hserves⟩

end Island

end Lulan.Proofs
