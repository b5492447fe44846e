import Lulan.Lib.Concurrent

/-!
# What a program did

The ways a program can run by itself, each with the list of what it did on the way: its
transactions with what they met and returned, and its calls with their answers.
-/

namespace Lib

/-- One thing a program did. -/
inductive Did (τ ω ρ χ β : Type) where
  | ran (t : τ) (w : ω) (r : ρ)
  | called (q : χ) (b : β)

namespace Prog

variable {σ τ ω ρ χ β α γ δ : Type} {run : τ → ω → σ → ρ × σ}

/-- A way a program can run, from one store to another. -/
inductive Traced (run : τ → ω → σ → ρ × σ) : Prog σ τ ρ χ β α → σ → List (Did τ ω ρ χ β) → α → σ → Prop where
  | ret (a : α) (s : σ) : Traced run (.ret a) s [] a s
  | peek {k : σ → Prog σ τ ρ χ β α} {s s' : σ} {tr : List (Did τ ω ρ χ β)} {a : α}
      (h : Traced run (k s) s tr a s') : Traced run (.peek k) s tr a s'
  | read {k : Option σ → Prog σ τ ρ χ β α} {s s' : σ} {tr : List (Did τ ω ρ χ β)} {a : α}
      (h : Traced run (k (some s)) s tr a s') : Traced run (.read k) s tr a s'
  | missed {k : Option σ → Prog σ τ ρ χ β α} {s s' : σ} {tr : List (Did τ ω ρ χ β)} {a : α}
      (h : Traced run (k none) s tr a s') : Traced run (.read k) s tr a s'
  | tx {t : τ} {k : ρ → Prog σ τ ρ χ β α} {s s' : σ} {tr : List (Did τ ω ρ χ β)} {a : α} (w : ω)
      (h : Traced run (k (run t w s).1) (run t w s).2 tr a s') :
      Traced run (.tx t k) s (.ran t w (run t w s).1 :: tr) a s'
  | call {q : χ} {k : β → Prog σ τ ρ χ β α} {s s' : σ} {tr : List (Did τ ω ρ χ β)} {a : α} (b : β)
      (h : Traced run (k b) s tr a s') : Traced run (.call q k) s (.called q b :: tr) a s'

variable {s s' : σ} {tr : List (Did τ ω ρ χ β)}

lemma traced_ret {a a' : α} (h : Traced run (.ret a : Prog σ τ ρ χ β α) s tr a' s') : tr = [] ∧ a' = a ∧ s' = s := by
  cases h
  exact ⟨rfl, rfl, rfl⟩

lemma traced_tx {t : τ} {k : ρ → Prog σ τ ρ χ β α} {a : α} (h : Traced run (.tx t k) s tr a s') :
    ∃ w rest, tr = .ran t w (run t w s).1 :: rest ∧ Traced run (k (run t w s).1) (run t w s).2 rest a s' := by
  cases h with
  | tx w h => exact ⟨w, _, rfl, h⟩

lemma traced_call {q : χ} {k : β → Prog σ τ ρ χ β α} {a : α} (h : Traced run (.call q k) s tr a s') :
    ∃ b rest, tr = .called q b :: rest ∧ Traced run (k b) s rest a s' := by
  cases h with
  | call b h => exact ⟨b, _, rfl, h⟩

lemma traced_read {k : Option σ → Prog σ τ ρ χ β α} {a : α} (h : Traced run (.read k) s tr a s') :
    Traced run (k (some s)) s tr a s' ∨ Traced run (k none) s tr a s' := by
  cases h with
  | read h => exact .inl h
  | missed h => exact .inr h

/-- A program in two parts does what the first part does, then what the second does. -/
lemma traced_bind {p : Prog σ τ ρ χ β α} {f : α → Prog σ τ ρ χ β γ} {c : γ} (h : Traced run (p.bind f) s tr c s') :
    ∃ tr₁ tr₂ a t, tr = tr₁ ++ tr₂ ∧ Traced run p s tr₁ a t ∧ Traced run (f a) t tr₂ c s' := by
  induction p generalizing s tr with
  | ret a => exact ⟨[], tr, a, s, rfl, .ret a s, h⟩
  | peek k ih =>
    cases h with
    | peek h =>
      obtain ⟨tr₁, tr₂, a, t, rfl, hp, hf⟩ := ih s h
      exact ⟨tr₁, tr₂, a, t, rfl, .peek hp, hf⟩
  | read k ih =>
    cases h with
    | read h =>
      obtain ⟨tr₁, tr₂, a, t, rfl, hp, hf⟩ := ih (some s) h
      exact ⟨tr₁, tr₂, a, t, rfl, .read hp, hf⟩
    | missed h =>
      obtain ⟨tr₁, tr₂, a, t, rfl, hp, hf⟩ := ih none h
      exact ⟨tr₁, tr₂, a, t, rfl, .missed hp, hf⟩
  | tx t k ih =>
    cases h with
    | tx w h =>
      obtain ⟨tr₁, tr₂, a, u, rfl, hp, hf⟩ := ih _ h
      exact ⟨_ :: tr₁, tr₂, a, u, rfl, .tx w hp, hf⟩
  | call q k ih =>
    cases h with
    | call b h =>
      obtain ⟨tr₁, tr₂, a, t, rfl, hp, hf⟩ := ih b h
      exact ⟨_ :: tr₁, tr₂, a, t, rfl, .call b hp, hf⟩

/-- The second part runs only after a first part that ended well. -/
lemma traced_then {x : ExceptT δ (Prog σ τ ρ χ β) α} {f : α → ExceptT δ (Prog σ τ ρ χ β) γ} {c : Except δ γ}
    (h : Traced run (x >>= f : ExceptT δ (Prog σ τ ρ χ β) γ) s tr c s') :
    (∃ e, Traced run x s tr (.error e) s' ∧ c = .error e) ∨
      ∃ tr₁ tr₂ a t, tr = tr₁ ++ tr₂ ∧ Traced run x s tr₁ (.ok a) t ∧ Traced run (f a) t tr₂ c s' := by
  obtain ⟨tr₁, tr₂, r, t, rfl, hx, hf⟩ := traced_bind (p := x) (f := ExceptT.bindCont f) h
  cases r with
  | error e =>
    obtain ⟨rfl, rfl, rfl⟩ := traced_ret hf
    exact .inl ⟨e, by rw [List.append_nil]; exact hx, rfl⟩
  | ok a => exact .inr ⟨tr₁, tr₂, a, t, rfl, hx, hf⟩

/-- One part after the other is a way to run both. -/
lemma Traced.bind {p : Prog σ τ ρ χ β α} {f : α → Prog σ τ ρ χ β γ} {a : α} {c : γ} {t : σ}
    {tr₂ : List (Did τ ω ρ χ β)} (hp : Traced run p s tr a t) (hf : Traced run (f a) t tr₂ c s') :
    Traced run (p.bind f) s (tr ++ tr₂) c s' := by
  induction hp with
  | ret a s => exact hf
  | peek _ ih => exact .peek (ih hf)
  | read _ ih => exact .read (ih hf)
  | missed _ ih => exact .missed (ih hf)
  | tx w _ ih => exact .tx w (ih hf)
  | call b _ ih => exact .call b (ih hf)

lemma Traced.bind_ok {x : ExceptT δ (Prog σ τ ρ χ β) α} {f : α → ExceptT δ (Prog σ τ ρ χ β) γ} {a : α} {t : σ}
    {c : Except δ γ} {tr₂ : List (Did τ ω ρ χ β)} (hx : Traced run x s tr (.ok a) t)
    (hf : Traced run (f a) t tr₂ c s') : Traced run (x >>= f : ExceptT δ (Prog σ τ ρ χ β) γ) s (tr ++ tr₂) c s' :=
  Traced.bind (f := ExceptT.bindCont f) hx hf

lemma Traced.bind_error {x : ExceptT δ (Prog σ τ ρ χ β) α} {f : α → ExceptT δ (Prog σ τ ρ χ β) γ} {e : δ}
    (hx : Traced run x s tr (.error e) s') :
    Traced run (x >>= f : ExceptT δ (Prog σ τ ρ χ β) γ) s (tr ++ []) (.error e) s' :=
  Traced.bind (f := ExceptT.bindCont f) hx (.ret _ _)

/-! ### A program over half of a store -/

/-- The program where its store is the second of two. -/
def beside (κ : Type) : Prog σ τ ρ χ β α → Prog (κ × σ) τ ρ χ β α
  | .ret a => .ret a
  | .peek k => .peek (fun s => beside κ (k s.2))
  | .read k => .read (fun s => beside κ (k (s.map Prod.snd)))
  | .tx t k => .tx t (fun r => beside κ (k r))
  | .call q k => .call q (fun b => beside κ (k b))

/-- Transactions run on the second store. -/
def runBeside (κ : Type) (run : τ → ω → σ → ρ × σ) (t : τ) (w : ω) (s : κ × σ) : ρ × κ × σ :=
  ((run t w s.2).1, s.1, (run t w s.2).2)

/-- The program runs on its own store as it does alone, and leaves the other as it is. -/
lemma traced_beside {κ : Type} {p : Prog σ τ ρ χ β α} {a : α} {d d' : κ} :
    Traced (runBeside κ run) (beside κ p) (d, s) tr a (d', s') ↔ d' = d ∧ Traced run p s tr a s' := by
  constructor
  · intro h
    induction p generalizing s tr with
    | ret b =>
      obtain ⟨rfl, rfl, he⟩ := traced_ret h
      obtain ⟨rfl, rfl⟩ := Prod.mk.inj he
      exact ⟨rfl, .ret _ _⟩
    | peek k ih =>
      cases h with
      | peek h => exact (ih s h).imp_right .peek
    | read k ih =>
      cases h with
      | read h => exact (ih (some s) h).imp_right .read
      | missed h => exact (ih none h).imp_right .missed
    | tx t k ih =>
      cases h with
      | tx w h => exact (ih _ h).imp_right (.tx w)
    | call q k ih =>
      cases h with
      | call b h => exact (ih b h).imp_right (.call b)
  · rintro ⟨hd, h⟩
    subst hd
    induction h with
    | ret b s => exact .ret b _
    | peek _ ih => exact .peek ih
    | read _ ih => exact .read ih
    | missed _ ih => exact .missed ih
    | @tx t k s _ _ _ w _ ih => exact @Traced.tx _ _ _ _ _ _ _ (runBeside κ run) t (fun r => beside κ (k r)) (d', s) _ _ _ w ih
    | call b _ ih => exact .call b ih

/-- Runs a program by itself, with what its transactions meet and what its calls are answered. -/
def follow (run : τ → ω → σ → ρ × σ) : Prog σ τ ρ χ β α → σ → List ω → List β → Option (List (Did τ ω ρ χ β) × α × σ)
  | .ret a, s, _, _ => some ([], a, s)
  | .peek k, s, ws, bs => follow run (k s) s ws bs
  | .read k, s, ws, bs => follow run (k (some s)) s ws bs
  | .tx t k, s, w :: ws, bs =>
    (follow run (k (run t w s).1) (run t w s).2 ws bs).map (fun o => (.ran t w (run t w s).1 :: o.1, o.2))
  | .call q k, s, ws, b :: bs => (follow run (k b) s ws bs).map (fun o => (.called q b :: o.1, o.2))
  | .tx _ _, _, [], _ => none
  | .call _ _, _, _, [] => none

lemma traced_of_follow {p : Prog σ τ ρ χ β α} {ws : List ω} {bs : List β} {o : List (Did τ ω ρ χ β) × α × σ}
    (h : follow run p s ws bs = some o) : Traced run p s o.1 o.2.1 o.2.2 := by
  induction p generalizing s ws bs o with
  | ret a =>
    cases h
    exact .ret a s
  | peek k ih => exact .peek (ih s h)
  | read k ih => exact .read (ih (some s) h)
  | tx t k ih =>
    cases ws with
    | nil => cases h
    | cons w ws =>
      obtain ⟨o', ho, rfl⟩ := Option.map_eq_some_iff.mp h
      exact .tx w (ih _ ho)
  | call q k ih =>
    cases bs with
    | nil => cases h
    | cons b bs =>
      obtain ⟨o', ho, rfl⟩ := Option.map_eq_some_iff.mp h
      exact .call b (ih b ho)

end Prog

end Lib
