import Mathlib.Order.CompletePartialOrder
import Lulan.Proofs.Search

/-!
# Seat masks and sets of segments

A seat's mask stands for the set of its occupied segments, and a span for a half-open interval.
Offering spans one after the other to a seat is the same game on masks and on sets.
-/

namespace Lulan.Proofs

open Lulan Lulan.Db Lib

/-- The segments of a span. -/
def interval (s : SegmentSpan) : Set Nat := Set.Ico s.fromIndex s.toIndex

/-- The segments a mask marks as occupied. -/
def segmentsOf (m : BitVec 64) : Set Nat := { i | m.getLsbD i = true }

section Masks

variable {m m' : BitVec 64} {s : SegmentSpan}

lemma segmentsOf_zero : segmentsOf 0#64 = ∅ := by
  ext i
  simp [segmentsOf]

lemma segmentsOf_mask (s : SegmentSpan) : segmentsOf s.mask = interval s := by
  ext i
  simp [segmentsOf, interval]

lemma segmentsOf_or (m m' : BitVec 64) : segmentsOf (m ||| m') = segmentsOf m ∪ segmentsOf m' := by
  ext i
  simp [segmentsOf]

lemma segmentsOf_and (m m' : BitVec 64) : segmentsOf (m &&& m') = segmentsOf m ∩ segmentsOf m' := by
  ext i
  simp [segmentsOf]

lemma segmentsOf_andNot (m m' : BitVec 64) : segmentsOf (m &&& ~~~m') = segmentsOf m \ segmentsOf m' := by
  ext i
  simp only [segmentsOf, BitVec.getLsbD_and, BitVec.getLsbD_not, Set.mem_ofPred_eq, Set.mem_sdiff, Bool.and_eq_true,
    decide_eq_true_eq, Bool.not_eq_true', Bool.not_eq_true]
  constructor
  · exact fun h => ⟨h.1, h.2.2⟩
  · exact fun h => ⟨h.1, BitVec.lt_of_getLsbD h.1, h.2⟩

lemma segmentsOf_injective : Function.Injective segmentsOf := by
  intro m m' h
  apply BitVec.eq_of_getLsbD_eq
  intro i _
  apply Bool.eq_iff_iff.mpr
  exact Set.ext_iff.mp h i

lemma and_eq_zero_iff : m &&& m' = 0#64 ↔ Disjoint (segmentsOf m) (segmentsOf m') := by
  rw [Set.disjoint_iff_inter_eq_empty, ← segmentsOf_and, ← segmentsOf_zero]
  exact ⟨fun h => by rw [h], fun h => segmentsOf_injective h⟩

lemma available_iff_disjoint : s.isAvailable m = true ↔ Disjoint (interval s) (segmentsOf m) := by
  rw [SegmentSpan.isAvailable, beq_iff_eq, and_eq_zero_iff, segmentsOf_mask, disjoint_comm]

end Masks

/-- The masks of several spans together. -/
def unionOf (spans : List SegmentSpan) : BitVec 64 := (spans.map SegmentSpan.mask).foldr (· ||| ·) 0#64

lemma mem_segmentsOf_unionOf {spans : List SegmentSpan} {i : Nat} :
    i ∈ segmentsOf (unionOf spans) ↔ ∃ a ∈ spans, i ∈ interval a := by
  induction spans with
  | nil => simp [unionOf, segmentsOf_zero]
  | cons a rest ih =>
    have hcons : unionOf (a :: rest) = a.mask ||| unionOf rest := rfl
    rw [hcons, segmentsOf_or, Set.mem_union, segmentsOf_mask, ih, List.exists_mem_cons_iff]

/-- One span offered to a seat, with the spans it has accepted. -/
def offer (seat : BitVec 64 × List SegmentSpan) (s : SegmentSpan) : BitVec 64 × List SegmentSpan :=
  if s.isAvailable seat.1 then (seat.1 ||| s.mask, seat.2 ++ [s]) else seat

/-- Spans offered in turn to a free seat. -/
def offered (spans : List SegmentSpan) : BitVec 64 × List SegmentSpan := spans.foldl offer (0#64, [])

/-- The mask of a seat is the disjoint union of what it has accepted. -/
structure Packed (seat : BitVec 64 × List SegmentSpan) : Prop where
  union : seat.1 = unionOf seat.2
  disjoint : seat.2.Pairwise (fun a b => Disjoint (interval a) (interval b))

section Packed

variable {seat : BitVec 64 × List SegmentSpan} {s : SegmentSpan}

lemma Packed.available_iff (h : Packed seat) :
    s.isAvailable seat.1 = true ↔ ∀ a ∈ seat.2, Disjoint (interval s) (interval a) := by
  rw [available_iff_disjoint, h.union]
  simp only [Set.disjoint_left, mem_segmentsOf_unionOf]
  constructor
  · exact fun hs a ha i hi hia => hs hi ⟨a, ha, hia⟩
  · rintro hs i hi ⟨a, ha, hia⟩
    exact hs a ha hi hia

lemma unionOf_append (spans : List SegmentSpan) (s : SegmentSpan) :
    unionOf (spans ++ [s]) = unionOf spans ||| s.mask := by
  apply segmentsOf_injective
  ext i
  rw [segmentsOf_or, Set.mem_union, mem_segmentsOf_unionOf, mem_segmentsOf_unionOf, segmentsOf_mask]
  simp [or_and_right, exists_or]

lemma Packed.offer (h : Packed seat) (s : SegmentSpan) : Packed (offer seat s) := by
  unfold Proofs.offer
  split
  · rename_i hs
    refine ⟨by rw [unionOf_append, h.union], List.pairwise_append.mpr ⟨h.disjoint, List.pairwise_singleton _ _, ?_⟩⟩
    intro a ha b hb
    rw [List.mem_singleton.mp hb, disjoint_comm]
    exact h.available_iff.mp hs a ha
  · exact h

lemma packed_offered (spans : List SegmentSpan) : Packed (offered spans) := by
  have hrun : ∀ (spans : List SegmentSpan) (seat : BitVec 64 × List SegmentSpan), Packed seat →
      Packed (spans.foldl Proofs.offer seat) := by
    intro spans
    induction spans with
    | nil => exact fun seat h => h
    | cons s rest ih => exact fun seat h => ih _ (h.offer s)
  exact hrun spans _ ⟨rfl, List.Pairwise.nil⟩

/-- Giving one accepted span back leaves the others. -/
lemma Packed.clear (h : Packed seat) {pre post : List SegmentSpan} {a : SegmentSpan} (ha : seat.2 = pre ++ a :: post) :
    seat.1 &&& ~~~a.mask = unionOf (pre ++ post) := by
  have hd := h.disjoint
  rw [ha, List.pairwise_append, List.pairwise_cons] at hd
  obtain ⟨-, ⟨hpost, -⟩, hpre⟩ := hd
  have hother : ∀ b ∈ pre ++ post, Disjoint (interval b) (interval a) := by
    intro b hb
    rcases List.mem_append.mp hb with hb | hb
    · exact hpre b hb a List.mem_cons_self
    · exact (hpost b hb).symm
  apply segmentsOf_injective
  ext i
  rw [segmentsOf_andNot, Set.mem_sdiff, segmentsOf_mask, h.union, ha, mem_segmentsOf_unionOf, mem_segmentsOf_unionOf]
  constructor
  · rintro ⟨⟨b, hb, hib⟩, hia⟩
    rcases List.mem_append.mp hb with hb | hb
    · exact ⟨b, List.mem_append_left _ hb, hib⟩
    · rcases List.mem_cons.mp hb with rfl | hb
      · exact absurd hib hia
      · exact ⟨b, List.mem_append_right _ hb, hib⟩
  · rintro ⟨b, hb, hib⟩
    refine ⟨⟨b, ?_, hib⟩, Set.disjoint_left.mp (hother b hb) hib⟩
    rcases List.mem_append.mp hb with hb | hb
    · exact List.mem_append_left _ hb
    · exact List.mem_append_right _ (List.mem_cons_of_mem _ hb)

end Packed

/-- Spans offered to a seat behave as intervals, and their masks can be read back. -/
structure OfferedAsIntervals (spans : List SegmentSpan) : Prop where
  decides : ∀ pre s post, spans = pre ++ s :: post →
    (s.isAvailable (offered pre).1 = true ↔ ∀ a ∈ (offered pre).2, Disjoint (interval s) (interval a))
  union : (offered spans).1 = unionOf (offered spans).2
  disjoint : (offered spans).2.Pairwise (fun a b => a.mask &&& b.mask = 0#64)
  cleared : ∀ pre a post, (offered spans).2 = pre ++ a :: post →
    (offered spans).1 &&& ~~~a.mask = unionOf (pre ++ post)
  bounds : ∀ s : SegmentSpan, (s.mask.ctz.toNat + 1, 64 - s.mask.clz.toNat) = (s.fromIndex + 1, s.toIndex)
  pools : ∀ (db : Db) (queries : List (Uuid × SegmentSpan)) (q : Uuid × SegmentSpan), (queries.map Prod.fst).Nodup →
    q ∈ queries → (db.poolAvailabilityBatch (queries.map (fun q => (q.1, q.2.mask))) q.1).Perm
      ((db.poolsOn q.1).map (fun p =>
        ⟨p.2.code, (slice p.1.remaining (q.2.fromIndex + 1) q.2.toIndex).min?.getD 0⟩))

/-- The bit arithmetic of a seat is the arithmetic of intervals, over any sequence of spans. -/
theorem offered_as_intervals (spans : List SegmentSpan) : OfferedAsIntervals spans where
  decides pre s _ _ := (packed_offered pre).available_iff
  union := (packed_offered spans).union
  disjoint := by
    refine (packed_offered spans).disjoint.imp (fun {a b} hd => ?_)
    rw [and_eq_zero_iff, segmentsOf_mask, segmentsOf_mask]
    exact hd
  cleared pre a post ha := (packed_offered spans).clear ha
  bounds s := by rw [ctz_mask, clz_mask]
  pools db queries q hn hq := by
    have hkeys : ((queries.map (fun q => (q.1, q.2.mask))).map Prod.fst).Nodup := by
      rw [List.map_map]
      exact hn
    have hat := poolAvailabilityBatch_at db hkeys (List.mem_map_of_mem (f := fun q => (q.1, q.2.mask)) hq)
    simp only [ctz_mask, clz_mask] at hat
    exact hat

end Lulan.Proofs
