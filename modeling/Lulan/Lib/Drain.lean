import Mathlib.Data.List.Basic
import Mathlib.Logic.Function.Iterate

/-!
# Draining a queue in batches

Each pass tries the first entries of a queue. What fails stays where it is, so entries that
never succeed keep their place at the head.
-/

namespace Lib

variable {α : Type} {limit : Nat} {stuck : α → Bool} {l : List α}

/-- One pass: of the first `limit` entries only the stuck ones are left. -/
def drain (limit : Nat) (stuck : α → Bool) (l : List α) : List α :=
  (l.take limit).filter stuck ++ l.drop limit

lemma drain_sublist : (drain limit stuck l).Sublist l := by
  conv_rhs => rw [← List.take_append_drop limit l]
  exact List.filter_sublist.append (List.Sublist.refl _)

lemma mem_drain {a : α} (h : a ∈ l) : a ∈ drain limit stuck l ∨ a ∈ l.take limit ∧ stuck a = false := by
  rw [← List.take_append_drop limit l, List.mem_append] at h
  rw [drain, List.mem_append, List.mem_filter]
  cases hs : stuck a with
  | false =>
    rcases h with h | h
    · exact .inr ⟨h, rfl⟩
    · exact .inl (.inr h)
  | true =>
    rcases h with h | h
    · exact .inl (.inl ⟨h, rfl⟩)
    · exact .inl (.inr h)

lemma mem_iterate_drain {a : α} (n : Nat) (h : a ∈ (drain limit stuck)^[n] l) : a ∈ l := by
  induction n generalizing l with
  | zero => exact h
  | succ n ih =>
    rw [Function.iterate_succ_apply] at h
    exact drain_sublist.subset (ih h)

/-- Fewer than `limit` stuck entries stand before any other. -/
def Unblocked (limit : Nat) (stuck : α → Bool) (l : List α) : Prop :=
  ∀ pre a post, l = pre ++ a :: post → stuck a = false → pre.countP stuck < limit

/-- The entries before one that a pass does not try keep their number of stuck ones. -/
lemma Unblocked.drain (h : Unblocked limit stuck l) : Unblocked limit stuck (Lib.drain limit stuck l) := by
  intro pre a post hl ha
  have hlen : ((l.take limit).filter stuck).length ≤ pre.length := by
    by_contra hlt
    have hmem : a ∈ (l.take limit).filter stuck := by
      have hget : (Lib.drain limit stuck l)[pre.length]? = some a := by
        rw [hl, List.getElem?_append_right (Nat.le_refl _), Nat.sub_self]
        rfl
      rw [Lib.drain, List.getElem?_append_left (Nat.not_le.mp hlt)] at hget
      exact List.mem_of_getElem? hget
    rw [(List.mem_filter.mp hmem).2] at ha
    cases ha
  obtain ⟨mid, rfl⟩ := List.prefix_of_prefix_length_le (List.prefix_append _ _) ⟨_, hl.symm⟩ hlen
  have hdrop : l.drop limit = mid ++ a :: post := by
    rw [Lib.drain, List.append_assoc] at hl
    exact List.append_cancel_left hl
  have hall := h (l.take limit ++ mid) a post (by
    rw [List.append_assoc, ← hdrop, List.take_append_drop]) ha
  rw [List.countP_append, List.countP_filter]
  rw [List.countP_append] at hall
  simpa using hall

/-- The first entry that can succeed is tried by the next pass. -/
lemma Unblocked.progress (h : Unblocked limit stuck l) :
    (Lib.drain limit stuck l).countP (fun a => !stuck a) ≤ l.countP (fun a => !stuck a) - 1 := by
  have hsplit : l.countP (fun a => !stuck a) =
      (l.take limit).countP (fun a => !stuck a) + (l.drop limit).countP (fun a => !stuck a) := by
    rw [← List.countP_append, List.take_append_drop]
  have hdrain : (Lib.drain limit stuck l).countP (fun a => !stuck a) = (l.drop limit).countP (fun a => !stuck a) := by
    rw [Lib.drain, List.countP_append, List.countP_filter]
    simp
  rw [hdrain]
  cases hz : l.countP (fun a => !stuck a) with
  | zero => omega
  | succ m =>
    have htry : 0 < (l.take limit).countP (fun a => !stuck a) := by
      cases hd : l.find? (fun a => !stuck a) with
      | none =>
        have hnone : l.countP (fun a => !stuck a) = 0 :=
          List.countP_eq_zero.mpr (fun a ha => by simpa using List.find?_eq_none.mp hd a ha)
        omega
      | some a =>
        obtain ⟨hfree, pre, post, rfl, hpre⟩ := List.find?_eq_some_iff_append.mp hd
        have hall : pre.countP stuck = pre.length :=
          List.countP_eq_length.mpr (fun b hb => by simpa using hpre b hb)
        have hlt := h pre a post rfl (by simpa using hfree)
        rw [List.countP_pos_iff]
        refine ⟨a, ?_, hfree⟩
        rw [List.take_append, List.mem_append]
        right
        obtain ⟨k, hk⟩ : ∃ k, limit - pre.length = k + 1 := ⟨limit - pre.length - 1, by omega⟩
        rw [hk]
        simp
    omega

/-- A pass per entry leaves the stuck entries only, if and only if fewer than `limit` of them
stand before any other entry. -/
theorem drained_iff : (drain limit stuck)^[l.length] l = l.filter stuck ↔ Unblocked limit stuck l := by
  constructor
  · -- an entry with `limit` stuck ones before it is out of reach of every pass
    intro h pre a post hl ha
    by_contra hge
    have hstays : ∀ n, ∃ pre post, (drain limit stuck)^[n] l = pre ++ a :: post ∧
        limit ≤ pre.countP stuck := by
      intro n
      induction n with
      | zero => exact ⟨pre, post, hl, Nat.not_lt.mp hge⟩
      | succ n ih =>
        obtain ⟨pre, post, hn, hpre⟩ := ih
        have hlen : limit ≤ pre.length := Nat.le_trans hpre List.countP_le_length
        refine ⟨(pre.take limit).filter stuck ++ pre.drop limit, post, ?_, ?_⟩
        · rw [Function.iterate_succ_apply', hn, drain, List.take_append_of_le_length hlen,
            List.drop_append_of_le_length hlen, List.append_assoc]
        · rw [List.countP_append, List.countP_filter]
          have hsame : (pre.take limit).countP (fun b => stuck b && stuck b) + (pre.drop limit).countP stuck =
              pre.countP stuck := by
            conv_rhs => rw [← List.take_append_drop limit pre, List.countP_append]
            simp
          rw [hsame]
          exact hpre
    obtain ⟨pre, post, hn, -⟩ := hstays l.length
    have hmem : a ∈ l.filter stuck := by
      rw [← h, hn]
      simp
    rw [(List.mem_filter.mp hmem).2] at ha
    cases ha
  · -- each pass tries an entry that can succeed while there is one
    suffices hall : ∀ n l, Unblocked limit stuck l → l.countP (fun a => !stuck a) ≤ n →
        (drain limit stuck)^[n] l = l.filter stuck from
      fun h => hall l.length l h List.countP_le_length
    intro n
    induction n with
    | zero =>
      intro l _ hn
      have hz := List.countP_eq_zero.mp (Nat.le_zero.mp hn)
      exact (List.filter_eq_self.mpr (fun a ha => by simpa using hz a ha)).symm
    | succ n ih =>
      intro l h hn
      have hp := h.progress
      rw [Function.iterate_succ_apply, ih _ h.drain (by omega), drain, List.filter_append, List.filter_filter]
      conv_rhs => rw [← List.take_append_drop limit l, List.filter_append]
      simp

end Lib
