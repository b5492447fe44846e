import Mathlib.Data.List.Basic

/-!
# Sliding windows

Events are admitted only while fewer than a limit of them were admitted in the window that ends
at the new one. Stamps are whole numbers that arrive in order.
-/

namespace Lib.SlidingWindow

/-- The stamps in the window of the given width that ends at `t`. -/
def within (width t : Nat) (stamps : List Nat) : List Nat := stamps.filter (fun a => a ≤ t ∧ t < a + width)

/-- What a log still holds once it has been pruned at `t`. -/
def recent (width t : Nat) (stamps : List Nat) : List Nat := stamps.filter (fun a => t < a + width)

/-- No window holds more than `limit` stamps. -/
def Sparse (width limit : Nat) (stamps : List Nat) : Prop := ∀ t, (within width t stamps).length ≤ limit

variable {width limit t t' : Nat} {stamps : List Nat}

lemma sparse_nil : Sparse width limit [] := fun _ => Nat.zero_le limit

lemma within_append (l₁ l₂ : List Nat) : within width t (l₁ ++ l₂) = within width t l₁ ++ within width t l₂ :=
  List.filter_append ..

lemma within_eq_recent (h : ∀ a ∈ stamps, a ≤ t) : within width t stamps = recent width t stamps := by
  apply List.filter_congr
  intro a ha
  have hle := h a ha
  simp only [hle, true_and]

/-- Pruning earlier does not change what a later pruning leaves. -/
lemma recent_recent (h : t ≤ t') : recent width t' (recent width t stamps) = recent width t' stamps := by
  rw [recent, recent, List.filter_filter]
  apply List.filter_congr
  intro a _
  rw [Bool.and_eq_left_iff_imp]
  intro ha
  have hlt := of_decide_eq_true ha
  apply decide_eq_true
  omega

lemma length_recent_le (h : t ≤ t') : (recent width t' stamps).length ≤ (recent width t stamps).length := by
  rw [← recent_recent h]
  exact List.length_filter_le _ _

lemma Sparse.sublist {l : List Nat} (hs : Sparse width limit stamps) (hl : l.Sublist stamps) :
    Sparse width limit l :=
  fun t => Nat.le_trans (hl.filter _).length_le (hs t)

/-- A stamp admitted while there was room leaves every window within the limit: a later window
that holds it holds no earlier stamp that its own window did not hold. -/
theorem Sparse.append (hs : Sparse width limit stamps) (hle : ∀ a ∈ stamps, a ≤ t)
    (hroom : (recent width t stamps).length < limit) : Sparse width limit (stamps ++ [t]) := by
  intro u
  rw [within_append, List.length_append]
  by_cases hu : t ≤ u ∧ u < t + width
  · have hle' : ∀ a ∈ stamps, a ≤ u := fun a ha => Nat.le_trans (hle a ha) hu.1
    have hone : (within width u [t]).length ≤ 1 := List.length_filter_le _ _
    rw [within_eq_recent hle']
    have hfew := Nat.lt_of_le_of_lt (length_recent_le hu.1) hroom
    omega
  · have hnone : within width u [t] = [] := by
      rw [within, List.filter_cons_of_neg (by simpa using hu), List.filter_nil]
    rw [hnone]
    exact hs u

end Lib.SlidingWindow
