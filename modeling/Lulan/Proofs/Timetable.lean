import Mathlib.Data.List.Induction
import Lulan.Proofs.Routing

/-!
# Imported timetables

An import times every stop pattern by the first trip that has it. A trip of the same pattern
keeps its own times exactly if they are those of that first trip.
-/

namespace Lulan.Proofs

open Lulan Lulan.Gtfs Lib

section Leaders

variable {rt : Runtime} {call : ImportCall} {feed : Feed} {pre : List Gtfs.TripRow} {t t' : Gtfs.TripRow}
  {key : PatternKey} {service : Calendar} {dates : List Int} {date : Int}

/-- The service of the trip runs on this day of the window. -/
def ActiveOn (rt : Runtime) (call : ImportCall) (t : Gtfs.TripRow) (date : Int) : Prop :=
  ∃ service start last, call.feed.service t.serviceId = some service ∧
    rt.parseDate service.startDate = some start ∧ rt.parseDate service.endDate = some last ∧
    max start call.today ≤ date ∧ date ≤ min last (call.today + call.options.days) ∧
    service.weekdays[numDaysFromMonday date]? = some 1

lemma mem_dates {c : Calendar} {start last : Int} (hs : start ≤ date) (hl : date ≤ last)
    (hday : c.weekdays[numDaysFromMonday date]? = some 1) : date ∈ c.dates start last := by
  unfold Calendar.dates
  rw [List.mem_filter, List.mem_map]
  constructor
  · refine ⟨(date - start).toNat, List.mem_range.mpr ?_, ?_⟩
    · omega
    · omega
  · rw [hday]
    rfl

lemma ActiveOn.mem (h : ActiveOn rt call t date) (hs : call.feed.service t.serviceId = some service)
    (hd : serviceDates rt call service = .ok dates) : date ∈ dates := by
  obtain ⟨service', start, last, hs', hstart, hlast, hle, hge, hday⟩ := h
  obtain rfl := Option.some.inj (hs'.symm.trans hs)
  simp only [serviceDates, gtfsDate, hstart, hlast] at hd
  cases hd
  exact mem_dates hle hge hday

/-- The first trip with a pattern. -/
def leader (feed : Feed) (trips : List Gtfs.TripRow) (key : PatternKey) : Option Gtfs.TripRow :=
  trips.find? (fun t => decide (patternKey feed t = key))

lemma taken_congr (h : patternKey feed t = patternKey feed t') : taken feed t = taken feed t' := by
  have hids : stopIds feed t.tripId = stopIds feed t'.tripId := congrArg Prod.snd h
  have hlen : (feed.tripStops t.tripId).length = (feed.tripStops t'.tripId).length := by
    have hmap := congrArg List.length hids
    simpa [stopIds] using hmap
  rw [taken, taken, hlen]

/-- The patterns met are those of the trips that are taken. -/
lemma mem_patternKeys : key ∈ patternKeys feed pre ↔ ∃ t ∈ pre, taken feed t = true ∧ patternKey feed t = key := by
  induction pre using List.reverseRecOn with
  | nil => simp [patternKeys]
  | append_singleton pre t ih =>
    rw [patternKeys_concat]
    split
    · rename_i hnew
      rw [List.mem_append, ih]
      constructor
      · rintro (⟨u, hu, hk⟩ | hk)
        · exact ⟨u, List.mem_append_left _ hu, hk⟩
        · exact ⟨t, by simp, hnew.1, (List.mem_singleton.mp hk).symm⟩
      · rintro ⟨u, hu, htaken, hk⟩
        rcases List.mem_append.mp hu with hu | hu
        · exact .inl ⟨u, hu, htaken, hk⟩
        · rw [List.mem_singleton.mp hu] at hk
          exact .inr (List.mem_singleton.mpr hk.symm)
    · rename_i hold
      constructor
      · intro hk
        obtain ⟨u, hu, hk⟩ := ih.mp hk
        exact ⟨u, List.mem_append_left _ hu, hk⟩
      · rintro ⟨u, hu, htaken, hk⟩
        rcases List.mem_append.mp hu with hu | hu
        · exact ih.mpr ⟨u, hu, htaken, hk⟩
        · rw [List.mem_singleton.mp hu] at htaken hk
          by_contra hn
          exact hold ⟨htaken, hk ▸ hn⟩

/-- A trip that makes a pattern leads it. -/
lemma leader_new (ht : taken feed t = true) (hn : patternKey feed t ∉ patternKeys feed pre) :
    leader feed (pre ++ [t]) (patternKey feed t) = some t := by
  have hnone : pre.find? (fun u => decide (patternKey feed u = patternKey feed t)) = none := by
    rw [List.find?_eq_none]
    intro u hu hk
    have hkey := of_decide_eq_true hk
    exact hn (mem_patternKeys.mpr ⟨u, hu, (taken_congr hkey).trans ht, hkey⟩)
  rw [leader, List.find?_append, hnone]
  simp

lemma leader_kept (h : leader feed pre key = some t) (u : Gtfs.TripRow) :
    leader feed (pre ++ [u]) key = some t := by
  rw [leader, List.find?_append, show pre.find? _ = some t from h]
  rfl

lemma leader_key (h : leader feed pre key = some t) : patternKey feed t = key := by
  simpa using List.find?_some h

lemma routeCode_injective (base : String) : Function.Injective (routeCode base) := by
  intro m n h
  have hlist := congrArg String.toList h
  simp only [routeCode, String.toList_append, List.append_cancel_left_eq, Nat.toList_repr] at hlist
  have hdigits := congrArg Lib.Text.digits hlist
  rw [Lib.Text.digits_toDigits, Lib.Text.digits_toDigits] at hdigits
  exact Option.some.inj hdigits

end Leaders

section Timing

variable {rt : Runtime} {call : ImportCall} {setting : Setting} {feed : Feed} {route : String}
  {pre : List Gtfs.TripRow} {t : Gtfs.TripRow} {p p₁ p₂ p₃ p' : Progress} {db db' : Network} {pattern : Pattern}
  {routeId : Uuid} {first : Int32} {stops : List StopTime} {key : PatternKey} {index n : Nat} {date : Int}

lemma KeepsTimes.congr (h : KeepsTimes db routeId first stops) (hs : db'.stopsOf routeId = db.stopsOf routeId)
    (hl : db'.locations = db.locations) : KeepsTimes db' routeId first stops := by
  constructor
  · rw [hs]
    exact h.positions
  · rw [hs]
    exact h.times.imp (fun s st hf => ⟨(codeOf_congr hl _).trans hf.place, hf.arrival, hf.departure⟩)

/-- A pattern's route keeps the times of the trip that leads the pattern. -/
structure Led (feed : Feed) (pre : List Gtfs.TripRow) (db : Network) (key : PatternKey) (pattern : Pattern) :
    Prop where
  times : ∃ t, leader feed pre key = some t ∧
    firstDeparture (feed.tripStops t.tripId) = .ok pattern.firstDepartureMin ∧
    KeepsTimes db pattern.routeId pattern.firstDepartureMin (feed.tripStops t.tripId)
  route : (db.routes.find? pattern.routeId).isSome = true

/-- A dated trip is on the route of a pattern, and leaves when the pattern does. -/
structure OnPattern (p : Progress) (row : DatedTrip) (key : PatternKey) (pattern : Pattern) : Prop where
  known : p.patterns key = some pattern
  route : row.routeId = pattern.routeId
  departs : row.departsAt = departsAt row.serviceDate pattern.firstDepartureMin

/-- What the loop over the trips of one route keeps, from a network without routes. -/
structure Timed (feed : Feed) (route : String) (setting : Setting) (pre : List Gtfs.TripRow) (p : Progress) :
    Prop where
  registered : Registered feed pre p
  referenced : Referenced p.db
  located : Located p.db setting.locationIds
  led : ∀ key pattern, p.patterns key = some pattern → Led feed pre p.db key pattern
  apart : ∀ key key' pattern pattern', p.patterns key = some pattern → p.patterns key' = some pattern' →
    pattern.routeId = pattern'.routeId → key = key'
  codes : ∀ r ∈ p.db.routes.rows, ∃ n < patternCount (patternKeys feed pre) route,
    r.code = routeCode (feed.baseName route) n
  rows : ∀ row ∈ p.db.trips.rows, row.resourceId = setting.resourceId ∧ ∃ key pattern, OnPattern p row key pattern

/-- The day's departure of a trip. -/
def Dated (feed : Feed) (p : Progress) (t : Gtfs.TripRow) (date : Int) : Prop :=
  ∃ row ∈ p.db.trips.rows, row.serviceDate = date ∧ ∃ pattern, OnPattern p row (patternKey feed t) pattern

/-- Patterns and dated trips stay. -/
structure Onward (p p' : Progress) : Prop where
  patterns : ∀ key pattern, p.patterns key = some pattern → p'.patterns key = some pattern
  trips : ∀ row ∈ p.db.trips.rows, row ∈ p'.db.trips.rows

lemma Onward.refl (p : Progress) : Onward p p := ⟨fun _ _ h => h, fun _ h => h⟩

lemma Onward.trans (h : Onward p₁ p₂) (h' : Onward p₂ p₃) : Onward p₁ p₃ where
  patterns key pattern hk := h'.patterns key pattern (h.patterns key pattern hk)
  trips row hr := h'.trips row (h.trips row hr)

lemma OnPattern.onward {row : DatedTrip} (h : OnPattern p row key pattern) (ho : Onward p p') :
    OnPattern p' row key pattern :=
  ⟨ho.patterns _ _ h.known, h.route, h.departs⟩

lemma Dated.onward (h : Dated feed p t date) (ho : Onward p p') : Dated feed p' t date := by
  obtain ⟨row, hr, hdate, pattern, hp⟩ := h
  exact ⟨row, ho.trips row hr, hdate, pattern, hp.onward ho⟩

lemma departsAt_injective {date date' : Int} (h : departsAt date first = departsAt date' first) :
    date = date' := by
  have hsum : date * 86400 + first.toInt * 60 = date' * 86400 + first.toInt * 60 := h
  omega

lemma departsAt_first {first first' : Int32} (h : departsAt date first = departsAt date first') :
    first = first' := by
  apply Int32.toInt.inj
  have hsum : date * 86400 + first.toInt * 60 = date * 86400 + first'.toInt * 60 := h
  omega

/-- A trip that is passed over, or whose pattern is known. -/
lemma Timed.skip (h : Timed feed route setting pre p) (hr : Registered feed (pre ++ [t]) p) :
    Timed feed route setting (pre ++ [t]) p := by
  refine ⟨hr, h.referenced, h.located, fun key pattern hk => ?_, h.apart, fun r hm => ?_, h.rows⟩
  · obtain ⟨⟨u, hu, hf, ht⟩, hroute⟩ := h.led key pattern hk
    exact ⟨⟨u, leader_kept hu t, hf, ht⟩, hroute⟩
  · obtain ⟨n, hn, hc⟩ := h.codes r hm
    refine ⟨n, Nat.lt_of_lt_of_le hn ?_, hc⟩
    exact (patternKeys_mono (List.prefix_append pre [t])).sublist.countP_le

/-- A trip's pattern is timed by the first trip that has it. -/
lemma Timed.attach (h : Timed call.feed route setting pre p) (hone : t.routeId = route)
    (ht : taken call.feed t = true) (hp : patternOf call setting p index t = .ok (pattern, p')) :
    Timed call.feed route setting (pre ++ [t]) p' ∧ p'.patterns (patternKey call.feed t) = some pattern ∧
      Onward p p' := by
  obtain ⟨hreg, hkey, rfl | ⟨hnew, hpat, himp⟩⟩ := patternOf_eq_ok h.registered ht hp
  · exact ⟨h.skip hreg, hkey, .refl p'⟩
  · have hgrow : patternKeys call.feed (pre ++ [t]) = patternKeys call.feed pre ++ [patternKey call.feed t] := by
      rw [patternKeys_concat, if_pos ⟨ht, hnew⟩]
    obtain ⟨hfirst, ⟨r, hr, hcode, -⟩ | ⟨-, hid, hopen⟩⟩ := importPattern_eq_ok h.referenced h.located himp
    · -- a code that is there belongs to an earlier pattern
      obtain ⟨n, hn, hc⟩ := h.codes r hr
      rw [hone] at hcode
      have hsame := routeCode_injective _ (hc.symm.trans hcode)
      omega
    · have hon : Onward p p' := by
        refine ⟨fun key pattern' hk => ?_, fun row hrow => by rw [hopen.trips]; exact hrow⟩
        have hne : key ≠ patternKey call.feed t := by
          rintro rfl
          exact hnew ((h.registered.known _).mp (by rw [hk]; rfl))
        rw [hpat, Function.update_of_ne hne]
        exact hk
      have hold : ∀ key pattern', p'.patterns key = some pattern' →
          (key = patternKey call.feed t ∧ pattern' = pattern) ∨ p.patterns key = some pattern' := by
        intro key pattern' hk
        rw [hpat, Function.update_apply] at hk
        split at hk
        · rename_i he
          exact .inl ⟨he, (Option.some.inj hk).symm⟩
        · exact .inr hk
      have hother : ∀ key pattern', p.patterns key = some pattern' → pattern'.routeId ≠ pattern.routeId := by
        intro key pattern' hk he
        have hsome := (h.led key pattern' hk).route
        have hnone : p.db.routes.find? pattern.routeId = none := hid ▸ hopen.fresh
        rw [he, hnone] at hsome
        cases hsome
      refine ⟨⟨hreg, hopen.referenced h.referenced, ?_, ?_, ?_, ?_, ?_⟩, hkey, hon⟩
      · exact fun stopId l hl => (codeOf_congr hopen.locations l).trans (h.located stopId l hl)
      · intro key pattern' hk
        rcases hold key pattern' hk with ⟨rfl, rfl⟩ | hk
        · refine ⟨⟨t, leader_new ht hnew, hfirst, ?_⟩, ?_⟩
          · rw [hid]
            exact hopen.times
          · rw [hid, route_isSome]
            exact ⟨_, by rw [hopen.routes]; exact List.mem_append_right _ (List.mem_singleton_self _), rfl⟩
        · obtain ⟨⟨u, hu, hf, htimes⟩, hroute⟩ := h.led key pattern' hk
          have hne : pattern'.routeId ≠ call.ids.route index := hid ▸ hother key pattern' hk
          exact ⟨⟨u, leader_kept hu t, hf, htimes.congr (hopen.others _ hne) hopen.locations⟩,
            (hopen.grown.routes _ hroute).1⟩
      · intro key key' pattern₁ pattern₂ h₁ h₂ he
        rcases hold _ _ h₁ with ⟨rfl, rfl⟩ | h₁ <;> rcases hold _ _ h₂ with ⟨rfl, rfl⟩ | h₂
        · rfl
        · exact absurd he.symm (hother _ _ h₂)
        · exact absurd he (hother _ _ h₁)
        · exact h.apart _ _ _ _ h₁ h₂ he
      · have hcount : patternCount (patternKeys call.feed (pre ++ [t])) route =
            patternCount (patternKeys call.feed pre) route + 1 := by
          simp [hgrow, patternCount, patternKey, hone]
        intro r hr
        rw [hopen.routes] at hr
        rcases List.mem_append.mp hr with hr | hr
        · obtain ⟨n, hn, hc⟩ := h.codes r hr
          exact ⟨n, by omega, hc⟩
        · refine ⟨patternCount (patternKeys call.feed pre) route, by omega, ?_⟩
          rw [List.mem_singleton.mp hr, hone]
      · intro row hrow
        rw [hopen.trips] at hrow
        obtain ⟨hres, key, pattern', hrow⟩ := h.rows row hrow
        exact ⟨hres, key, pattern', hrow.onward hon⟩

/-- One day's departure. -/
lemma Timed.departure (h : Timed feed route setting pre p) (hpat : p.patterns (patternKey feed t) = some pattern)
    (hd : importDeparture call setting pattern index t n p date = .ok p') :
    Timed feed route setting pre p' ∧ Onward p p' ∧ Dated feed p' t date := by
  obtain ⟨hsame, htrips⟩ := importDeparture_eq_ok hd
  have hon : Onward p p' := by
    refine ⟨fun key pattern' hk => by rw [hsame.patterns]; exact hk, fun row hrow => ?_⟩
    rcases htrips with ⟨-, ht⟩ | ⟨-, ht⟩
    · rw [ht]
      exact hrow
    · rw [ht]
      exact List.mem_append_left _ hrow
  have hrows : ∀ row ∈ p'.db.trips.rows, (p.db.routes.find? row.routeId).isSome = true ∧
      row.resourceId = setting.resourceId ∧ ∃ key pattern, OnPattern p' row key pattern := by
    have hold : ∀ row ∈ p.db.trips.rows, (p.db.routes.find? row.routeId).isSome = true ∧
        row.resourceId = setting.resourceId ∧ ∃ key pattern, OnPattern p' row key pattern := by
      intro row hrow
      obtain ⟨hres, key, pattern', hrow'⟩ := h.rows row hrow
      exact ⟨h.referenced.trips row hrow, hres, key, pattern', hrow'.onward hon⟩
    intro row hrow
    rcases htrips with ⟨-, ht⟩ | ⟨hroute, ht⟩
    · exact hold row (ht ▸ hrow)
    · rw [ht] at hrow
      rcases List.mem_append.mp hrow with hrow | hrow
      · exact hold row hrow
      · rw [List.mem_singleton.mp hrow]
        exact ⟨hroute, rfl, patternKey feed t, pattern, hon.patterns _ _ hpat, rfl, rfl⟩
  have hdated : Dated feed p' t date := by
    rcases htrips with ⟨⟨row, hrow, hid, -, hdep⟩, ht⟩ | ⟨-, ht⟩
    · -- the departure that is there is this pattern's, so it is this day's
      obtain ⟨-, key, pattern', hon'⟩ := h.rows row hrow
      obtain rfl := h.apart _ _ _ _ hon'.known hpat (hon'.route.symm.trans hid)
      obtain rfl := Option.some.inj (hon'.known.symm.trans hpat)
      have hday := departsAt_injective (hon'.departs.symm.trans hdep)
      exact ⟨row, hon.trips row hrow, hday, pattern', hon'.onward hon⟩
    · refine ⟨departureRow call setting pattern index t n date, ?_, rfl, pattern, hon.patterns _ _ hpat, rfl, rfl⟩
      rw [ht]
      exact List.mem_append_right _ (List.mem_singleton_self _)
  refine ⟨⟨h.registered.same hsame.patterns hsame.counts, ⟨fun s hs => ?_, fun row hrow => ?_⟩, ?_, ?_, ?_, ?_,
    fun row hrow => (hrows row hrow).2⟩, hon, hdated⟩
  · rw [hsame.routes]
    exact h.referenced.stops s (hsame.routeStops ▸ hs)
  · rw [hsame.routes]
    exact (hrows row hrow).1
  · exact fun stopId l hl => (codeOf_congr hsame.locations l).trans (h.located stopId l hl)
  · intro key pattern' hk
    rw [hsame.patterns] at hk
    obtain ⟨⟨u, hu, hf, htimes⟩, hroute⟩ := h.led key pattern' hk
    refine ⟨⟨u, hu, hf, htimes.congr (stopsOf_congr hsame.routeStops) hsame.locations⟩, ?_⟩
    rw [hsame.routes]
    exact hroute
  · rw [hsame.patterns]
    exact h.apart
  · rw [hsame.routes]
    exact h.codes

lemma Timed.skipped (h : Timed feed route setting pre p) :
    Timed feed route setting pre { p with skippedTrips := p.skippedTrips + 1 } :=
  ⟨h.registered.same rfl rfl, h.referenced, h.located, h.led, h.apart, h.codes,
    fun row hr => ⟨(h.rows row hr).1, by
      obtain ⟨-, key, pattern, hp⟩ := h.rows row hr
      exact ⟨key, pattern, hp.onward ⟨fun _ _ hk => hk, fun _ hr => hr⟩⟩⟩⟩

/-- One trip of the feed, with a departure on every active day. -/
lemma Timed.trip {x : Gtfs.TripRow × Nat} (h : Timed call.feed route setting pre p) (hone : x.1.routeId = route)
    (hx : importTrip rt call setting p x = .ok p') :
    Timed call.feed route setting (pre ++ [x.1]) p' ∧ Onward p p' ∧
      (taken call.feed x.1 = true → ∀ date, ActiveOn rt call x.1 date → Dated call.feed p' x.1 date) := by
  rcases importTrip_eq_ok hx with ⟨hlen, rfl⟩ | ⟨⟨hmin, hmax⟩, pattern, p₁, hp, hrest⟩
  · have ht : taken call.feed x.1 = false := by
      unfold taken
      rcases hlen with hlen | hlen
      · rw [decide_eq_false (by omega), Bool.false_and]
      · rw [decide_eq_false (p := _ ≤ 64) (by omega), Bool.and_false]
    have hk := h.skipped
    refine ⟨hk.skip (hk.registered.skip (.inl ht)), ⟨fun _ _ hk => hk, fun _ hr => hr⟩, fun htaken => ?_⟩
    rw [ht] at htaken
    cases htaken
  · have ht : taken call.feed x.1 = true := by
      rw [taken, decide_eq_true hmin, decide_eq_true hmax]
      rfl
    obtain ⟨h₁, hk₁, hon₁⟩ := h.attach hone ht hp
    rcases hrest with ⟨hnone, rfl⟩ | ⟨service, dates, hs, hdates, hloop⟩
    · refine ⟨h₁.skipped, hon₁.trans ⟨fun _ _ hk => hk, fun _ hr => hr⟩, fun _ date ha => ?_⟩
      obtain ⟨service, _, _, hs, -⟩ := ha
      rw [hnone] at hs
      cases hs
    · have hend := foldlM_invariant (I := fun done q =>
        Timed call.feed route setting (pre ++ [x.1]) q ∧ q.patterns (patternKey call.feed x.1) = some pattern ∧
          Onward p₁ q ∧ ∀ date ∈ done, Dated call.feed q x.1 date)
        ⟨h₁, hk₁, .refl p₁, by simp⟩ (fun done date q q' _ hq hd => ?_) hloop
      · obtain ⟨h₂, -, hon₂, hdated⟩ := hend
        exact ⟨h₂, hon₁.trans hon₂, fun _ date ha => hdated date (ha.mem hs hdates)⟩
      · obtain ⟨hq, hk, hon, hdone⟩ := hq
        obtain ⟨hq', hon', hday⟩ := hq.departure hk hd
        refine ⟨hq', hon'.patterns _ _ hk, hon.trans hon', fun date' hm => ?_⟩
        rcases List.mem_append.mp hm with hm | hm
        · exact (hdone date' hm).onward hon'
        · rw [List.mem_singleton.mp hm]
          exact hday

/-- An import of one route into an empty network. -/
theorem importFeed_timed (hone : ∀ t ∈ call.feed.trips, t.routeId = route)
    (h : importFeed rt call .empty = .ok p) :
    (∃ setting, Timed call.feed route setting call.feed.trips p) ∧
      ∀ t ∈ call.feed.trips, taken call.feed t = true → ∀ date, ActiveOn rt call t date →
        Dated call.feed p t date := by
  obtain ⟨⟨setting, db⟩, hprep, h⟩ := bind_eq_ok.mp h
  obtain ⟨hp, hloc, -⟩ := prepare_eq_ok hprep
  have hroutes : db.routes.rows = [] := by rw [hp.routes]; rfl
  have hstops : db.routeStops.rows = [] := by rw [hp.routeStops]; rfl
  have htrips : db.trips.rows = [] := by rw [hp.trips]; rfl
  have hstart : Timed call.feed route setting [] ⟨db, fun _ => none, fun _ => 0, 0, 0⟩ :=
    ⟨⟨fun key => by simp [patternKeys], fun routeId => rfl⟩, ⟨by simp [hstops], by simp [htrips]⟩, hloc,
      (fun _ _ hk => by cases hk), (fun _ _ _ _ hk => by cases hk), by simp [hroutes], by simp [htrips]⟩
  have hend := foldlM_invariant (l := call.feed.trips.zipIdx) (I := fun pre q =>
    Timed call.feed route setting (pre.map Prod.fst) q ∧ ∀ t ∈ pre.map Prod.fst, taken call.feed t = true →
      ∀ date, ActiveOn rt call t date → Dated call.feed q t date)
    ⟨hstart, by simp⟩ (fun pre x q q' hpre hq hx => ?_) h
  · rw [List.zipIdx_map_fst] at hend
    exact ⟨⟨setting, hend.1⟩, hend.2⟩
  · have hmem : x.1 ∈ call.feed.trips := by
      have hx : x ∈ call.feed.trips.zipIdx := hpre.subset (List.mem_append_right _ (List.mem_singleton_self x))
      rw [← List.zipIdx_map_fst 0 call.feed.trips]
      exact List.mem_map_of_mem hx
    obtain ⟨htimed, hon, hdated⟩ := hq.1.trip (hone x.1 hmem) hx
    rw [List.map_append]
    refine ⟨htimed, fun t ht htaken date ha => ?_⟩
    rcases List.mem_append.mp ht with ht | ht
    · exact (hq.2 t ht htaken date ha).onward hon
    · rw [List.mem_singleton.mp ht] at htaken ha ⊢
      exact hdated htaken date ha

end Timing

section SingleRoute

variable {rt : Runtime} {call : ImportCall} {feed : Feed} {p : Progress} {db : Network} {t t' : Gtfs.TripRow}
  {date : Int} {row : DatedTrip}

lemma forall₂_trans {α β γ : Type} {R : α → β → Prop} {S : β → γ → Prop} {T : α → γ → Prop}
    (hrst : ∀ a b c, R a b → S b c → T a c) {l : List α} {m : List β} {n : List γ} (h : List.Forall₂ R l m)
    (h' : List.Forall₂ S m n) : List.Forall₂ T l n := by
  induction h generalizing n with
  | nil =>
    cases h'
    exact .nil
  | cons hr _ ih =>
    cases h' with
    | cons hs h' => exact .cons (hrst _ _ _ hr hs) (ih h')

/-- Every trip of the feed runs on one route. -/
def SingleRoute (feed : Feed) : Prop := ∀ t ∈ feed.trips, ∀ t' ∈ feed.trips, t.routeId = t'.routeId

/-- The same stop at the same minutes of the service day. -/
structure SameCall (st st' : StopTime) : Prop where
  place : st.stopId = st'.stopId
  arrival : gtfsMinutes st.arrivalTime = gtfsMinutes st'.arrivalTime
  departure : gtfsMinutes st.departureTime = gtfsMinutes st'.departureTime

/-- The importer takes the trip, and the first trip with its stops has its times. -/
structure LeaderTimes (feed : Feed) (t : Gtfs.TripRow) : Prop where
  taken : taken feed t = true
  times : ∀ u, leader feed feed.trips (patternKey feed t) = some u →
    List.Forall₂ SameCall (feed.tripStops u.tripId) (feed.tripStops t.tripId)

/-- A dated trip leaves when the feed trip does on that day, and its route keeps the feed
trip's stops and times. -/
structure Reproduces (feed : Feed) (db : Network) (t : Gtfs.TripRow) (date : Int) (row : DatedTrip) : Prop where
  day : row.serviceDate = date
  times : ∃ first, firstDeparture (feed.tripStops t.tripId) = .ok first ∧ row.departsAt = departsAt date first ∧
    KeepsTimes db row.routeId first (feed.tripStops t.tripId)

lemma firstDeparture_congr {stops stops' : List StopTime} (h : List.Forall₂ SameCall stops stops') :
    firstDeparture stops = firstDeparture stops' := by
  cases h with
  | nil => rfl
  | cons hs _ => exact hs.departure

/-- Two trips one dated trip reproduces leave together. -/
lemma Reproduces.leaves (h : Reproduces feed db t date row) (h' : Reproduces feed db t' date row) :
    firstDeparture (feed.tripStops t'.tripId) = firstDeparture (feed.tripStops t.tripId) := by
  obtain ⟨first, hf, hdep, -⟩ := h.times
  obtain ⟨first', hf', hdep', -⟩ := h'.times
  rw [hf, hf', departsAt_first (hdep'.symm.trans hdep)]

/-- The departure of a trip that keeps its leader's times reproduces it. -/
lemma LeaderTimes.reproduces {setting : Setting} {route : String} (h : LeaderTimes feed t)
    (hp : Timed feed route setting feed.trips p) (hd : Dated feed p t date) :
    ∃ row ∈ p.db.trips.rows, Reproduces feed p.db t date row := by
  obtain ⟨row, hrow, hdate, pattern, hon⟩ := hd
  obtain ⟨u, hu, hf, hkeeps⟩ := (hp.led _ _ hon.known).times
  have hsame := h.times u hu
  refine ⟨row, hrow, hdate, pattern.firstDepartureMin, ?_, ?_, ?_, ?_⟩
  · rw [← firstDeparture_congr hsame]
    exact hf
  · rw [hon.departs, hdate]
  · rw [hon.route, hkeeps.positions, hsame.length_eq]
  · rw [hon.route]
    apply forall₂_trans ?_ hkeeps.times hsame
    intro s st st' hs hst
    exact ⟨hst.place ▸ hs.place, hst.arrival ▸ hs.arrival, hst.departure ▸ hs.departure⟩

/-- A trip that a dated trip reproduces has the times of its leader. -/
lemma Reproduces.leaderTimes {setting : Setting} {route : String} (h : Reproduces feed p.db t date row)
    (hp : Timed feed route setting feed.trips p) (hone : SingleRoute feed) (ht : t ∈ feed.trips)
    (hrow : row ∈ p.db.trips.rows) : LeaderTimes feed t := by
  obtain ⟨first, hf, hdep, hkeeps⟩ := h.times
  obtain ⟨-, key, pattern, hon⟩ := hp.rows row hrow
  obtain ⟨u, hu, hfu, hkeepsu⟩ := (hp.led _ _ hon.known).times
  have hfirst : first = pattern.firstDepartureMin := by
    have hdep' := hon.departs
    rw [h.day] at hdep'
    exact departsAt_first (hdep.symm.trans hdep')
  have hsame : List.Forall₂ SameCall (feed.tripStops u.tripId) (feed.tripStops t.tripId) := by
    have htimes := hkeeps.times
    rw [hon.route, hfirst] at htimes
    have hflip : List.Forall₂ (fun st s => Follows p.db pattern.firstDepartureMin s st)
        (feed.tripStops u.tripId) (p.db.stopsOf pattern.routeId) := List.Forall₂.flip hkeepsu.times
    apply forall₂_trans ?_ hflip htimes
    intro st s st' hs hs'
    exact ⟨Option.some.inj (hs.place.symm.trans hs'.place), hs.arrival.trans hs'.arrival.symm,
      hs.departure.trans hs'.departure.symm⟩
  have hmem : u ∈ feed.trips := List.mem_of_find?_eq_some hu
  have hkey : patternKey feed t = key := by
    rw [← leader_key hu, patternKey, patternKey, hone t ht u hmem]
    have hids : stopIds feed u.tripId = stopIds feed t.tripId := by
      unfold stopIds
      have hplaces := hsame.imp (fun st st' hs => hs.place)
      rw [← List.forall₂_eq_eq_eq]
      exact List.forall₂_map_left_iff.mpr (List.forall₂_map_right_iff.mpr hplaces)
    rw [hids]
  constructor
  · have hknown : key ∈ patternKeys feed feed.trips := (hp.registered.known key).mp (by rw [hon.known]; rfl)
    obtain ⟨v, -, htaken, hv⟩ := mem_patternKeys.mp hknown
    rw [taken_congr (hkey.trans hv.symm)]
    exact htaken
  · intro v hv
    rw [hkey] at hv
    obtain rfl := Option.some.inj (hv.symm.trans hu)
    exact hsame

/-- In a feed with one route, a trip has a dated trip of its own departure and times on every
active day exactly if the first trip with its stops has its times; then no trip with another
departure shares that dated trip. -/
theorem imported_timetable (hone : SingleRoute call.feed) (hi : importFeed rt call .empty = .ok p)
    (ht : t ∈ call.feed.trips) (ha : ActiveOn rt call t date) :
    (∃ row ∈ p.db.trips.rows, Reproduces call.feed p.db t date row ∧ ∀ t' ∈ call.feed.trips,
      firstDeparture (call.feed.tripStops t'.tripId) ≠ firstDeparture (call.feed.tripStops t.tripId) →
        ¬Reproduces call.feed p.db t' date row) ↔
      LeaderTimes call.feed t := by
  obtain ⟨⟨setting, htimed⟩, hdated⟩ := importFeed_timed (fun u hu => hone u hu t ht) hi
  constructor
  · rintro ⟨row, hrow, hreproduces, -⟩
    exact hreproduces.leaderTimes htimed hone ht hrow
  · intro hlead
    obtain ⟨row, hrow, hreproduces⟩ := hlead.reproduces htimed (hdated t ht hlead.taken date ha)
    exact ⟨row, hrow, hreproduces, fun t' _ hne h' => hne (hreproduces.leaves h')⟩

/-- The island's ferry leaves again in the afternoon. -/
def islandExpressDaily : Feed := { islandExpress with
  trips := [⟨"R1", "DAILY", "NX-AM"⟩, ⟨"R1", "DAILY", "NX-PM"⟩]
  stopTimes := [⟨"NX-AM", "06:00:00", "06:00:00", "PRT1", 1⟩, ⟨"NX-AM", "08:30:00", "08:30:00", "PRT2", 2⟩,
    ⟨"NX-PM", "14:00:00", "14:00:00", "PRT1", 1⟩, ⟨"NX-PM", "16:30:00", "16:30:00", "PRT2", 2⟩] }

/-- The afternoon departure is lost in the morning's. -/
theorem afternoon_departure_lost : ¬ ∀ (rt : Runtime) (call : ImportCall) (p : Progress) (t : Gtfs.TripRow)
    (date : Int), SingleRoute call.feed → Simple call.feed → importFeed rt call .empty = .ok p →
    t ∈ call.feed.trips → ActiveOn rt call t date →
    ∃ row ∈ p.db.trips.rows, Reproduces call.feed p.db t date row := by
  intro hclaim
  have hrun : ((importFeed calendarRuntime (islandImport islandExpressDaily 20650) .empty).toOption.map (fun p =>
      p.db.trips.rows.any (fun row => decide (row.departsAt = departsAt 20650 840)))) = some false := by
    decide
  obtain ⟨p, hp, hnone⟩ := Option.map_eq_some_iff.mp hrun
  have hactive : ActiveOn calendarRuntime (islandImport islandExpressDaily 20650) ⟨"R1", "DAILY", "NX-PM"⟩ 20650 :=
    ⟨⟨"DAILY", 1, 1, 1, 1, 1, 1, 1, "20260706", "20270706"⟩, 20640, 21005, rfl, rfl, rfl, by decide,
      by decide, rfl⟩
  obtain ⟨row, hrow, hr⟩ := hclaim calendarRuntime (islandImport islandExpressDaily 20650) p
    ⟨"R1", "DAILY", "NX-PM"⟩ 20650 (by unfold SingleRoute; decide) (by decide) (eq_ok_of_toOption hp)
    (by decide) hactive
  obtain ⟨first, hf, hdep, -⟩ := hr.times
  have hfirst : firstDeparture (islandExpressDaily.tripStops "NX-PM") = .ok 840 :=
    eq_ok_of_toOption (by decide)
  obtain rfl := Except.ok.inj (hf.symm.trans hfirst)
  have hlost := List.any_eq_false.mp hnone row hrow
  exact hlost (decide_eq_true hdep)

/-- The morning trip there keeps its times. -/
theorem imported_timetable_island : ∃ (p : Progress) (row : DatedTrip), row ∈ p.db.trips.rows ∧
    Reproduces islandExpress p.db ⟨"R1", "DAILY", "NX-AM"⟩ 20650 row := by
  have hrun : (importFeed calendarRuntime (islandImport islandExpress 20650) .empty).toOption.isSome = true := by
    decide
  obtain ⟨p, hp⟩ := Option.isSome_iff_exists.mp hrun
  have hactive : ActiveOn calendarRuntime (islandImport islandExpress 20650) ⟨"R1", "DAILY", "NX-AM"⟩ 20650 :=
    ⟨⟨"DAILY", 1, 1, 1, 1, 1, 1, 1, "20260706", "20270706"⟩, 20640, 21005, rfl, rfl, rfl, by decide,
      by decide, rfl⟩
  have hfirst : leader islandExpress islandExpress.trips (patternKey islandExpress ⟨"R1", "DAILY", "NX-AM"⟩) =
      some ⟨"R1", "DAILY", "NX-AM"⟩ := by decide
  have hlead : LeaderTimes islandExpress ⟨"R1", "DAILY", "NX-AM"⟩ := by
    refine ⟨by decide, fun u hu => ?_⟩
    obtain rfl := Option.some.inj (hu.symm.trans hfirst)
    exact List.forall₂_same.mpr (fun st _ => ⟨rfl, rfl, rfl⟩)
  have hone : SingleRoute (islandImport islandExpress 20650).feed := by
    unfold SingleRoute
    decide
  obtain ⟨row, hrow, hr, -⟩ := (imported_timetable hone (eq_ok_of_toOption hp) (by decide) hactive).mpr hlead
  exact ⟨p, row, hrow, hr⟩

end SingleRoute

end Lulan.Proofs
