/-!
# Loops that go on

A loop whose body decides turn by turn whether it goes on. It is run with fuel; a measure that
falls in every turn says how much is enough.
-/

namespace Lib.While

variable {σ α : Type}

/-- What a turn of a loop comes to, if it does not panic. -/
inductive Turn (σ α : Type) where
  | again (s : σ)
  | done (a : α)

/-- The loop, for at most `fuel` turns. -/
def run (turn : σ → Option (Turn σ α)) : Nat → σ → Option α
  | 0, _ => none
  | fuel + 1, s =>
    match turn s with
    | none => none
    | some (.done a) => some a
    | some (.again t) => run turn fuel t

variable {turn : σ → Option (Turn σ α)} {s t : σ} {a : α} {fuel : Nat}

theorem run_done (h : turn s = some (.done a)) : run turn (fuel + 1) s = some a := by
  rw [run, h]

theorem run_again (h : turn s = some (.again t)) : run turn (fuel + 1) s = run turn fuel t := by
  rw [run, h]

/-- More fuel does not change where a loop ends. -/
theorem run_mono {n m : Nat} (hle : n ≤ m) (h : run turn n s = some a) : run turn m s = some a := by
  induction n generalizing m s with
  | zero => cases h
  | succ n ih =>
    cases m with
    | zero => cases hle
    | succ m =>
      cases hturn : turn s with
      | none =>
        rw [run, hturn] at h
        cases h
      | some next =>
        cases next with
        | done b =>
          rw [run_done hturn] at h ⊢
          exact h
        | again t =>
          rw [run_again hturn] at h ⊢
          exact ih (Nat.le_of_succ_le_succ hle) h

/-- A turn ends the loop as `P` says, or leaves less to do and what holds after the rest of the
loop holds after all of it. -/
def Progress (turn : σ → Option (Turn σ α)) (measure : σ → Nat) (P : σ → α → Prop) (s : σ) : Prop :=
  (∃ a, turn s = some (.done a) ∧ P s a) ∨
    ∃ t, turn s = some (.again t) ∧ measure t < measure s ∧ ∀ a, P t a → P s a

/-- A loop whose every turn makes progress ends. -/
theorem run_ends {measure : σ → Nat} {P : σ → α → Prop} (h : ∀ s, Progress turn measure P s) :
    ∀ fuel s, measure s < fuel → ∃ a, run turn fuel s = some a ∧ P s a := by
  intro fuel
  induction fuel with
  | zero =>
    intro s hs
    exact absurd hs (Nat.not_lt_zero _)
  | succ fuel ih =>
    intro s hs
    cases h s with
    | inl hdone =>
      obtain ⟨a, hturn, ha⟩ := hdone
      exact ⟨a, run_done hturn, ha⟩
    | inr hagain =>
      obtain ⟨t, hturn, hless, hP⟩ := hagain
      obtain ⟨a, hrun, ha⟩ := ih t (Nat.lt_of_lt_of_le hless (Nat.le_of_lt_succ hs))
      exact ⟨a, (run_again hturn).trans hrun, hP a ha⟩

end Lib.While
