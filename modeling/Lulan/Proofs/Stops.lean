import Lulan.Engine.Network

/-!
# Journeys along a route

Which span a journey is resolved to on a route that may call at one place more than once:
the earliest call at the origin loses no journey that the route can make.
-/

namespace Lulan.Proofs

open Lulan

section Stops

variable {stops : List Stop} {origin destination : String} {start stop : Stop}

/-- The first stop of a sorted route with some property is the lowest that has it. -/
lemma find?_lowest {p : Stop → Bool} {a : Stop}
    (h : (stops.insertionSort (fun a b => a.index ≤ b.index)).find? p = some a) :
    a ∈ stops ∧ p a = true ∧ ∀ b ∈ stops, p b = true → a.index ≤ b.index := by
  obtain ⟨hp, before, after, hsplit, hnone⟩ := List.find?_eq_some_iff_append.mp h
  have htotal : Std.Total (fun a b : Stop => a.index ≤ b.index) := ⟨fun a b => Nat.le_total _ _⟩
  have htrans : IsTrans Stop (fun a b => a.index ≤ b.index) := ⟨fun a b c => Nat.le_trans⟩
  have hsorted := List.pairwise_insertionSort (fun a b : Stop => a.index ≤ b.index) stops
  rw [hsplit] at hsorted
  have hafter := (List.pairwise_cons.mp (List.pairwise_append.mp hsorted).2.1).1
  refine ⟨(List.mem_insertionSort _).mp (List.mem_of_find?_eq_some h), hp, fun b hb hpb => ?_⟩
  have hmem : b ∈ before ++ a :: after := by
    rw [← hsplit]
    exact (List.mem_insertionSort _).mpr hb
  rcases List.mem_append.mp hmem with hbefore | hrest
  · have hnot := hnone b hbefore
    rw [hpb] at hnot
    cases hnot
  · rcases List.mem_cons.mp hrest with rfl | hlater
    · exact le_rfl
    · exact hafter b hlater

lemma find?_sorted_none {p : Stop → Bool}
    (h : (stops.insertionSort (fun a b => a.index ≤ b.index)).find? p = none) : ∀ b ∈ stops, ¬p b = true :=
  fun b hb => List.find?_eq_none.mp h b ((List.mem_insertionSort _).mpr hb)

/-- The earliest call at the origin, and the earliest call at the destination after it. -/
structure Journey (stops : List Stop) (origin destination : String) (start stop : Stop) : Prop where
  starts : start ∈ stops ∧ start.code = origin
  earliest : ∀ s ∈ stops, s.code = origin → start.index ≤ s.index
  ends : stop ∈ stops ∧ stop.code = destination ∧ start.index < stop.index
  next : ∀ s ∈ stops, s.code = destination → start.index < s.index → stop.index ≤ s.index

/-- Some call at the destination comes after some call at the origin. -/
def Serves (stops : List Stop) (origin destination : String) : Prop :=
  ∃ a ∈ stops, ∃ b ∈ stops, a.code = origin ∧ b.code = destination ∧ a.index < b.index

lemma Journey.serves (h : Journey stops origin destination start stop) : Serves stops origin destination :=
  ⟨start, h.starts.1, stop, h.ends.1, h.starts.2, h.ends.2.1, h.ends.2.2⟩

/-- The stops of a journey are found at the same indices whatever the order of the list. -/
lemma Journey.unique {start' stop' : Stop} (h : Journey stops origin destination start stop)
    (h' : Journey stops origin destination start' stop') :
    start'.index = start.index ∧ stop'.index = stop.index := by
  have hstart : start'.index = start.index :=
    le_antisymm (h'.earliest _ h.starts.1 h.starts.2) (h.earliest _ h'.starts.1 h'.starts.2)
  refine ⟨hstart, le_antisymm ?_ ?_⟩
  · exact h'.next _ h.ends.1 h.ends.2.1 (by rw [hstart]; exact h.ends.2.2)
  · exact h.next _ h'.ends.1 h'.ends.2.1 (by rw [← hstart]; exact h'.ends.2.2)

/-- The outcomes of a resolution, each where it applies. -/
inductive Picked (stops : List Stop) (origin destination : String) :
    Except StoreError (SegmentSpan × Int) → Prop where
  | sold {start stop : Stop} {span : SegmentSpan} (journey : Journey stops origin destination start stop)
      (starts : span.fromIndex = start.index) (ends : span.toIndex = stop.index) :
      Picked stops origin destination (.ok (span, start.departOffset))
  | noOrigin (missing : ∀ s ∈ stops, s.code ≠ origin) :
      Picked stops origin destination (.error (.unknownStop origin))
  | noDestination (calls : ∃ s ∈ stops, s.code = origin) (missing : ∀ s ∈ stops, s.code ≠ destination) :
      Picked stops origin destination (.error (.unknownStop destination))
  | outOfOrder (calls : ∃ s ∈ stops, s.code = origin) (calls' : ∃ s ∈ stops, s.code = destination)
      (never : ¬Serves stops origin destination) :
      Picked stops origin destination (.error (.stopsOutOfOrder origin destination))

lemma span_eq {s t : SegmentSpan} (hfrom : s.fromIndex = t.fromIndex) (hto : s.toIndex = t.toIndex) : s = t := by
  obtain ⟨_, _, _, _⟩ := s
  obtain ⟨_, _, _, _⟩ := t
  cases hfrom
  cases hto
  rfl

lemma new_of_lt {a b : Nat} (hab : a < b) (hb : b ≤ 64) :
    SegmentSpan.new (a % 256) (b % 256) = .ok ⟨a, b, hab, hb⟩ := by
  have ha : a % 256 = a := Nat.mod_eq_of_lt (by omega)
  have hb' : b % 256 = b := Nat.mod_eq_of_lt (by omega)
  have hle : ¬b > maxSegments := not_lt.mpr hb
  rw [ha, hb', SegmentSpan.new, dif_neg (by omega), dif_neg hle]

theorem pickSpan_picked (h : ∀ s ∈ stops, s.index ≤ 64) (origin destination : String) :
    Picked stops origin destination (pickSpan stops origin destination) := by
  simp only [pickSpan]
  split
  · rename_i hnone
    exact .noOrigin (fun s hs hc => find?_sorted_none hnone s hs (decide_eq_true hc))
  · rename_i start hstart
    obtain ⟨hmem, hcode, hleast⟩ := find?_lowest hstart
    have hcode := of_decide_eq_true hcode
    have hearliest : ∀ s ∈ stops, s.code = origin → start.index ≤ s.index :=
      fun s hs hc => hleast s hs (decide_eq_true hc)
    split
    · rename_i hany
      refine .noDestination ⟨start, hmem, hcode⟩ (fun s hs hc => ?_)
      rw [Bool.not_eq_true', List.any_eq_false] at hany
      exact hany s ((List.mem_insertionSort _).mpr hs) (decide_eq_true hc)
    · rename_i hany
      have hcalls : ∃ s ∈ stops, s.code = destination := by
        rw [Bool.not_eq_true, Bool.not_eq_false'] at hany
        obtain ⟨s, hs, hc⟩ := List.any_eq_true.mp hany
        exact ⟨s, (List.mem_insertionSort _).mp hs, of_decide_eq_true hc⟩
      split
      · rename_i hnone
        refine .outOfOrder ⟨start, hmem, hcode⟩ hcalls ?_
        rintro ⟨a, ha, b, hb, hao, hbd, hlt⟩
        have hle := hearliest a ha hao
        apply find?_sorted_none hnone b hb
        rw [Bool.and_eq_true]
        exact ⟨decide_eq_true hbd, decide_eq_true (hle.trans_lt hlt)⟩
      · rename_i stop hstop
        obtain ⟨hmem', hprop, hleast'⟩ := find?_lowest hstop
        rw [Bool.and_eq_true, decide_eq_true_eq, decide_eq_true_eq] at hprop
        have hjourney : Journey stops origin destination start stop := by
          refine ⟨⟨hmem, hcode⟩, hearliest, ⟨hmem', hprop⟩, fun s hs hc hlt => ?_⟩
          apply hleast' s hs
          rw [Bool.and_eq_true]
          exact ⟨decide_eq_true hc, decide_eq_true hlt⟩
        rw [new_of_lt hprop.2 (h stop hmem')]
        exact .sold hjourney rfl rfl

section Outcomes

variable {r : Except StoreError (SegmentSpan × Int)}

lemma Picked.serves_iff (h : Picked stops origin destination r) :
    (∃ span offset, r = .ok (span, offset)) ↔ Serves stops origin destination := by
  cases h with
  | sold journey _ _ => exact iff_of_true ⟨_, _, rfl⟩ journey.serves
  | noOrigin missing =>
    refine iff_of_false (by rintro ⟨_, _, hok⟩; cases hok) ?_
    rintro ⟨a, ha, _, _, hc, _⟩
    exact missing a ha hc
  | noDestination _ missing =>
    refine iff_of_false (by rintro ⟨_, _, hok⟩; cases hok) ?_
    rintro ⟨_, _, b, hb, _, hc, _⟩
    exact missing b hb hc
  | outOfOrder _ _ never => exact iff_of_false (by rintro ⟨_, _, hok⟩; cases hok) never

lemma Picked.journey {span : SegmentSpan} {offset : Int}
    (h : Picked stops origin destination (.ok (span, offset))) :
    ∃ start stop, Journey stops origin destination start stop ∧
      span.fromIndex = start.index ∧ span.toIndex = stop.index ∧ offset = start.departOffset := by
  cases h with
  | sold journey starts ends => exact ⟨_, _, journey, starts, ends, rfl⟩

lemma Picked.unknownOrigin (h : Picked stops origin destination r) (missing : ∀ s ∈ stops, s.code ≠ origin) :
    r = .error (.unknownStop origin) := by
  cases h with
  | sold journey _ _ => exact absurd journey.starts.2 (missing _ journey.starts.1)
  | noOrigin _ => rfl
  | noDestination calls _ => exact absurd calls.choose_spec.2 (missing _ calls.choose_spec.1)
  | outOfOrder calls _ _ => exact absurd calls.choose_spec.2 (missing _ calls.choose_spec.1)

lemma Picked.unknownDestination (h : Picked stops origin destination r) (calls : ∃ s ∈ stops, s.code = origin)
    (missing : ∀ s ∈ stops, s.code ≠ destination) : r = .error (.unknownStop destination) := by
  cases h with
  | sold journey _ _ => exact absurd journey.ends.2.1 (missing _ journey.ends.1)
  | noOrigin missing' => exact absurd calls.choose_spec.2 (missing' _ calls.choose_spec.1)
  | noDestination _ _ => rfl
  | outOfOrder _ calls' _ => exact absurd calls'.choose_spec.2 (missing _ calls'.choose_spec.1)

lemma Picked.outOfOrder_of_never (h : Picked stops origin destination r) (calls : ∃ s ∈ stops, s.code = origin)
    (calls' : ∃ s ∈ stops, s.code = destination) (never : ¬Serves stops origin destination) :
    r = .error (.stopsOutOfOrder origin destination) := by
  cases h with
  | sold journey _ _ => exact absurd journey.serves never
  | noOrigin missing => exact absurd calls.choose_spec.2 (missing _ calls.choose_spec.1)
  | noDestination _ missing => exact absurd calls'.choose_spec.2 (missing _ calls'.choose_spec.1)
  | outOfOrder _ _ _ => rfl

end Outcomes

/-- A journey is sold if and only if the route can make it, from the earliest call at its origin to the next
call at its destination; each error says why the others are not. -/
theorem pickSpan_resolves (h : ∀ s ∈ stops, s.index ≤ 64) (origin destination : String) :
    ((∃ span offset, pickSpan stops origin destination = .ok (span, offset)) ↔
      ∃ a ∈ stops, ∃ b ∈ stops, a.code = origin ∧ b.code = destination ∧ a.index < b.index) ∧
    (∀ span offset, pickSpan stops origin destination = .ok (span, offset) →
      ∃ start stop, Journey stops origin destination start stop ∧
        span.fromIndex = start.index ∧ span.toIndex = stop.index ∧ offset = start.departOffset) ∧
    ((∀ s ∈ stops, s.code ≠ origin) → pickSpan stops origin destination = .error (.unknownStop origin)) ∧
    ((∃ s ∈ stops, s.code = origin) → (∀ s ∈ stops, s.code ≠ destination) →
      pickSpan stops origin destination = .error (.unknownStop destination)) ∧
    ((∃ s ∈ stops, s.code = origin) → (∃ s ∈ stops, s.code = destination) →
      (¬∃ a ∈ stops, ∃ b ∈ stops, a.code = origin ∧ b.code = destination ∧ a.index < b.index) →
      pickSpan stops origin destination = .error (.stopsOutOfOrder origin destination)) := by
  have hpicked := pickSpan_picked h origin destination
  refine ⟨hpicked.serves_iff, fun span offset hok => ?_, hpicked.unknownOrigin, hpicked.unknownDestination,
    hpicked.outOfOrder_of_never⟩
  rw [hok] at hpicked
  exact hpicked.journey

/-- A round of three islands that returns to base. -/
def roundRoute : List Stop := [⟨"CEB", 0, 0⟩, ⟨"TAG", 1, 60⟩, ⟨"ORM", 2, 150⟩, ⟨"CEB", 3, 240⟩]

/-- The leg back to base is the last segment. -/
theorem pickSpan_resolves_round :
    (∃ span offset, pickSpan roundRoute "ORM" "CEB" = .ok (span, offset)) ∧
      pickSpan roundRoute "ORM" "BTG" = .error (.unknownStop "BTG") ∧
      pickSpan roundRoute "TAG" "TAG" = .error (.stopsOutOfOrder "TAG" "TAG") := by
  have hbound : ∀ s ∈ roundRoute, s.index ≤ 64 := by decide
  have hmissing : ∀ s ∈ roundRoute, s.code ≠ "BTG" := by decide
  have hcalls : ∀ code ∈ ["CEB", "TAG", "ORM"], ∃ s ∈ roundRoute, s.code = code := by decide
  refine ⟨(pickSpan_resolves hbound "ORM" "CEB").1.mpr (by decide), ?_, ?_⟩
  · exact (pickSpan_resolves hbound "ORM" "BTG").2.2.2.1 (hcalls _ (by decide)) hmissing
  · exact (pickSpan_resolves hbound "TAG" "TAG").2.2.2.2 (hcalls _ (by decide)) (hcalls _ (by decide)) (by decide)

/-- Stops with other codes do not matter, nor does the order of the list. -/
lemma pickSpan_congr {called : List Stop} (hbound : ∀ s ∈ stops, s.index ≤ 64)
    (hindex : ∀ a ∈ stops, ∀ b ∈ stops, a.index = b.index → a = b)
    (hmem : ∀ s, s ∈ called ↔ s ∈ stops ∧ (s.code = origin ∨ s.code = destination)) :
    pickSpan called origin destination = pickSpan stops origin destination := by
  have hpicked : Picked called origin destination (pickSpan called origin destination) :=
    pickSpan_picked (fun s hs => hbound s ((hmem s).mp hs).1) origin destination
  have hfull := pickSpan_picked hbound origin destination
  generalize pickSpan called origin destination = r at hpicked ⊢
  have hcalls : ∀ code, (∃ s ∈ called, s.code = code) → ∃ s ∈ stops, s.code = code := by
    rintro code ⟨s, hs, hc⟩
    exact ⟨s, ((hmem s).mp hs).1, hc⟩
  cases hpicked with
  | @sold start stop span journey starts ends =>
    have hj : Journey stops origin destination start stop := by
      refine ⟨⟨((hmem _).mp journey.starts.1).1, journey.starts.2⟩, fun s hs hc => ?_,
        ⟨((hmem _).mp journey.ends.1).1, journey.ends.2⟩, fun s hs hc => ?_⟩
      · exact journey.earliest s ((hmem s).mpr ⟨hs, .inl hc⟩) hc
      · exact journey.next s ((hmem s).mpr ⟨hs, .inr hc⟩) hc
    obtain ⟨span', boards, hok⟩ := hfull.serves_iff.mpr hj.serves
    rw [hok] at hfull ⊢
    obtain ⟨start', stop', hj', hfrom, hto, hboards⟩ := hfull.journey
    obtain ⟨hstart, hstop⟩ := hj.unique hj'
    have hspan : span = span' := span_eq (by omega) (by omega)
    rw [hspan, hboards, hindex _ hj'.starts.1 _ hj.starts.1 hstart]
  | noOrigin missing =>
    exact (hfull.unknownOrigin (fun s hs hc => missing s ((hmem s).mpr ⟨hs, .inl hc⟩) hc)).symm
  | noDestination calls missing =>
    exact (hfull.unknownDestination (hcalls _ calls)
      (fun s hs hc => missing s ((hmem s).mpr ⟨hs, .inr hc⟩) hc)).symm
  | outOfOrder calls calls' never =>
    refine (hfull.outOfOrder_of_never (hcalls _ calls) (hcalls _ calls') ?_).symm
    rintro ⟨a, ha, b, hb, hao, hbd, hlt⟩
    exact never ⟨a, (hmem a).mpr ⟨ha, .inl hao⟩, b, (hmem b).mpr ⟨hb, .inr hbd⟩, hao, hbd, hlt⟩

end Stops

section Network

open Network

variable {route : Route} {code : Uuid → String} {offset : Nat → Int} {origin destination : Uuid}

/-- The stops of a route in memory, as a resolution takes them. -/
def stopList (route : Route) (code : Uuid → String) (offset : Nat → Int) : List Stop :=
  route.stops.mapIdx (fun i l => ⟨code l, i, offset i⟩)

lemma mem_stopList {s : Stop} : s ∈ stopList route code offset ↔
    ∃ l, route.stops[s.index]? = some l ∧ s = ⟨code l, s.index, offset s.index⟩ := by
  rw [stopList, List.mem_mapIdx]
  constructor
  · rintro ⟨i, hi, rfl⟩
    exact ⟨_, List.getElem?_eq_getElem hi, rfl⟩
  · rintro ⟨l, hl, hs⟩
    obtain ⟨hi, rfl⟩ := List.getElem?_eq_some_iff.mp hl
    exact ⟨s.index, hi, hs.symm⟩

/-- The first call of a route at a location. -/
def FirstCall (stops : List Uuid) (l : Uuid) (i : Nat) : Prop := stops[i]? = some l ∧ ∀ j < i, stops[j]? ≠ some l

lemma findIdx?_iff {stops : List Uuid} {l : Uuid} {i : Nat} :
    stops.findIdx? (fun s => decide (s = l)) = some i ↔ FirstCall stops l i := by
  rw [List.findIdx?_eq_some_iff_getElem]
  constructor
  · rintro ⟨hi, hl, hfirst⟩
    refine ⟨by rw [List.getElem?_eq_getElem hi, of_decide_eq_true hl], fun j hj he => ?_⟩
    obtain ⟨hlt, hget⟩ := List.getElem?_eq_some_iff.mp he
    exact hfirst j hj (decide_eq_true hget)
  · rintro ⟨hl, hfirst⟩
    obtain ⟨hi, hget⟩ := List.getElem?_eq_some_iff.mp hl
    refine ⟨hi, decide_eq_true hget, fun j hj hd => hfirst j hj ?_⟩
    rw [List.getElem?_eq_getElem (by omega), of_decide_eq_true hd]

lemma FirstCall.unique {stops : List Uuid} {l : Uuid} {i j : Nat} (h : FirstCall stops l i)
    (h' : FirstCall stops l j) : i = j := by
  rcases Nat.lt_trichotomy i j with hlt | heq | hgt
  · exact absurd h.1 (h'.2 i hlt)
  · exact heq
  · exact absurd h'.1 (h.2 j hgt)

/-- The two positions of a span in memory. -/
lemma spanBetween_iff (hlen : route.stops.length ≤ 65) {span : SegmentSpan} :
    route.spanBetween origin destination = some (.ok span) ↔
      FirstCall route.stops origin span.fromIndex ∧ FirstCall route.stops destination span.toIndex := by
  rw [Route.spanBetween]
  constructor
  · intro h
    split at h
    · cases h
    · rename_i start hstart
      split at h
      · cases h
      · rename_i stop hstop
        have hfirst := findIdx?_iff.mp hstop
        have hbound : stop < route.stops.length := (List.getElem?_eq_some_iff.mp hfirst.1).1
        split_ifs at h with hge
        rw [new_of_lt (not_le.mp hge) (by omega)] at h
        cases h
        exact ⟨findIdx?_iff.mp hstart, hfirst⟩
  · rintro ⟨hstart, hstop⟩
    have hlt := span.nonempty
    have hbound := span.bounded
    rw [findIdx?_iff.mpr hstart, findIdx?_iff.mpr hstop]
    simp only
    rw [if_neg (by omega), new_of_lt hlt hbound]

lemma call_mem {l : Uuid} {i : Nat} (h : route.stops[i]? = some l) :
    ⟨code l, i, offset i⟩ ∈ stopList route code offset :=
  mem_stopList.mpr ⟨l, h, rfl⟩

lemma call_of_mem (hcode : Function.Injective code) {l : Uuid} {s : Stop} (hs : s ∈ stopList route code offset)
    (hc : s.code = code l) : route.stops[s.index]? = some l := by
  obtain ⟨l', hl, he⟩ := mem_stopList.mp hs
  rw [he] at hc
  rw [hl, hcode hc]

/-- The two positions of a span that a sale is resolved to. -/
lemma pickSpan_stopList (hlen : route.stops.length ≤ 65) (hcode : Function.Injective code) {span : SegmentSpan} :
    (∃ boards, pickSpan (stopList route code offset) (code origin) (code destination) = .ok (span, boards)) ↔
      FirstCall route.stops origin span.fromIndex ∧ route.stops[span.toIndex]? = some destination ∧
        ∀ j, span.fromIndex < j → j < span.toIndex → route.stops[j]? ≠ some destination := by
  have hbound : ∀ s ∈ stopList route code offset, s.index ≤ 64 := by
    intro s hs
    obtain ⟨l, hl, -⟩ := mem_stopList.mp hs
    have hlt := (List.getElem?_eq_some_iff.mp hl).1
    omega
  have hpicked := pickSpan_picked hbound (code origin) (code destination)
  have hplace : ∀ (span' : SegmentSpan) boards,
      pickSpan (stopList route code offset) (code origin) (code destination) = .ok (span', boards) →
      FirstCall route.stops origin span'.fromIndex ∧ route.stops[span'.toIndex]? = some destination ∧
        ∀ j, span'.fromIndex < j → j < span'.toIndex → route.stops[j]? ≠ some destination := by
    intro span' boards hok
    rw [hok] at hpicked
    obtain ⟨start, stop, hj, hfrom, hto, -⟩ := hpicked.journey
    rw [hfrom, hto]
    refine ⟨⟨call_of_mem hcode hj.starts.1 hj.starts.2, fun j hlt hcall => ?_⟩,
      call_of_mem hcode hj.ends.1 hj.ends.2.1, fun j hlo hhi hcall => ?_⟩
    · have hmem : ⟨code origin, j, offset j⟩ ∈ stopList route code offset := call_mem hcall
      exact absurd (hj.earliest _ hmem rfl) (not_le.mpr hlt)
    · have hmem : ⟨code destination, j, offset j⟩ ∈ stopList route code offset := call_mem hcall
      exact absurd (hj.next _ hmem rfl hlo) (not_le.mpr hhi)
  constructor
  · rintro ⟨boards, hok⟩
    exact hplace span boards hok
  · rintro ⟨hfirst, hcall, hnext⟩
    obtain ⟨span', boards, hok⟩ := hpicked.serves_iff.mpr
      ⟨_, call_mem hfirst.1, _, call_mem hcall, rfl, rfl, span.nonempty⟩
    obtain ⟨hfirst', hcall', hnext'⟩ := hplace span' boards hok
    have hfrom := hfirst.unique hfirst'
    have hto : span.toIndex = span'.toIndex := by
      rcases Nat.lt_trichotomy span.toIndex span'.toIndex with hlt | heq | hgt
      · exact absurd hcall (hnext' _ (hfrom ▸ span.nonempty) hlt)
      · exact heq
      · exact absurd hcall' (hnext _ (hfrom ▸ span'.nonempty) hgt)
    have hspan : span = span' := span_eq hfrom hto
    exact ⟨boards, hspan ▸ hok⟩

/-- The route in memory and the resolution of sales find the same span if and only if no call at the
destination comes before the first call at the origin and another one after it. -/
theorem spanBetween_agrees_iff (hlen : route.stops.length ≤ 65) (hcode : Function.Injective code)
    (offset : Nat → Int) (origin destination : Uuid) :
    (∀ span, route.spanBetween origin destination = some (.ok span) ↔
      ∃ boards, pickSpan (stopList route code offset) (code origin) (code destination) = .ok (span, boards)) ↔
    ¬∃ i j k, FirstCall route.stops origin i ∧ route.stops[j]? = some destination ∧ j ≤ i ∧
      route.stops[k]? = some destination ∧ i < k := by
  simp only [spanBetween_iff hlen, pickSpan_stopList hlen hcode]
  constructor
  · rintro hagree ⟨i, j, k, hfirst, hbefore, hle, hafter, hlt⟩
    -- the resolution goes on to the first call at the destination after the origin
    have hex : ∃ k, i < k ∧ route.stops[k]? = some destination := ⟨k, hlt, hafter⟩
    obtain ⟨hlo, hcall⟩ := Nat.find_spec hex
    have hin := (List.getElem?_eq_some_iff.mp hcall).1
    obtain ⟨-, -, hfirst'⟩ := (hagree ⟨i, Nat.find hex, hlo, show Nat.find hex ≤ 64 by omega⟩).mpr
      ⟨hfirst, hcall, fun m hm hmk hc => Nat.find_min hex hmk ⟨hm, hc⟩⟩
    exact hfirst' j (lt_of_le_of_lt hle hlo) hbefore
  · intro hnot span
    refine and_congr_right (fun hfirst => ?_)
    constructor
    · rintro ⟨hcall, hnone⟩
      exact ⟨hcall, fun j _ hj => hnone j hj⟩
    · rintro ⟨hcall, hnone⟩
      refine ⟨hcall, fun j hj hc => ?_⟩
      by_cases hle : j ≤ span.fromIndex
      · exact hnot ⟨_, j, _, hfirst, hc, hle, hcall, span.nonempty⟩
      · exact hnone j (not_le.mp hle) hj hc

/-- Codes of so many letters. -/
def letters (l : Uuid) : String := String.ofList (List.replicate l 'P')

lemma letters_injective : Function.Injective letters := by
  intro a b h
  have hlists := congrArg List.length (String.ofList_injective h)
  rwa [List.length_replicate, List.length_replicate] at hlists

/-- Out and back: the way back is sold and does not exist in memory. -/
theorem way_back_missing : ¬∀ (route : Route) (code : Uuid → String) (offset : Nat → Int)
    (origin destination : Uuid), route.stops.length ≤ 65 → Function.Injective code →
    ∀ span, route.spanBetween origin destination = some (.ok span) ↔
      ∃ boards, pickSpan (stopList route code offset) (code origin) (code destination) = .ok (span, boards) := by
  intro h
  have hagree := h ⟨[1, 2, 1]⟩ letters (fun _ => 0) 2 1 (by decide) letters_injective ⟨1, 2, by decide, by decide⟩
  have hsold : pickSpan (stopList ⟨[1, 2, 1]⟩ letters (fun _ => 0)) (letters 2) (letters 1) =
      .ok (⟨1, 2, by decide, by decide⟩, 0) := by rfl
  have hnone : (Route.mk [1, 2, 1]).spanBetween 2 1 = none := by decide
  rw [hnone] at hagree
  cases hagree.mpr ⟨0, hsold⟩

def wayOut : SegmentSpan := ⟨0, 1, Nat.zero_lt_one, one_le_maxSegments⟩

/-- The way out is the same. -/
theorem spanBetween_agrees_iff_islands :
    (Route.mk [1, 2, 1]).spanBetween 1 2 = some (.ok wayOut) ↔ ∃ boards,
      pickSpan (stopList ⟨[1, 2, 1]⟩ letters (fun _ => 0)) (letters 1) (letters 2) = .ok (wayOut, boards) := by
  refine (spanBetween_agrees_iff (by decide) letters_injective (fun _ => 0) 1 2).mpr ?_ wayOut
  rintro ⟨i, j, k, hfirst, hbefore, hle, hafter, hlt⟩
  have hi : i = 0 := hfirst.unique ⟨rfl, by decide⟩
  have hj : j = 0 := by omega
  rw [hj] at hbefore
  cases hbefore

end Network

end Lulan.Proofs
