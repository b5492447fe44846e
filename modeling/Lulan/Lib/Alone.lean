import Lulan.Lib.Concurrent

/-!
# One request after another

What a program answers and leaves behind when nobody else is on the site. It is one of the
runs of the site, so what holds of every run holds of it.
-/

namespace Lib

/-- The end of a program that ran by itself. -/
structure Ended (σ χ α : Type) where
  answer : α
  store : σ
  calls : List χ

namespace Prog

variable {σ τ ρ χ β α γ : Type}

/-- Every read succeeds, a transaction is run at once, and calls are answered by `b`. -/
def alone (run : τ → σ → ρ × σ) (b : χ → β) : Prog σ τ ρ χ β α → σ → Ended σ χ α
  | .ret a, s => ⟨a, s, []⟩
  | .peek k, s => alone run b (k s) s
  | .read k, s => alone run b (k (some s)) s
  | .tx t k, s => alone run b (k (run t s).1) (run t s).2
  | .call q k, s =>
    let r := alone run b (k (b q)) s
    ⟨r.answer, r.store, q :: r.calls⟩

variable {run : τ → σ → ρ × σ} {b : χ → β}

@[simp] lemma alone_ret (a : α) (s : σ) : (ret a : Prog σ τ ρ χ β α).alone run b s = ⟨a, s, []⟩ := rfl

@[simp] lemma alone_peek (k : σ → Prog σ τ ρ χ β α) (s : σ) : (peek k).alone run b s = (k s).alone run b s := rfl

@[simp] lemma alone_read (k : Option σ → Prog σ τ ρ χ β α) (s : σ) :
    (read k).alone run b s = (k (some s)).alone run b s := rfl

@[simp] lemma alone_tx (t : τ) (k : ρ → Prog σ τ ρ χ β α) (s : σ) :
    (tx t k).alone run b s = (k (run t s).1).alone run b (run t s).2 := rfl

/-- One part after the other. -/
lemma alone_bind (p : Prog σ τ ρ χ β α) (f : α → Prog σ τ ρ χ β γ) (s : σ) :
    (p.bind f).alone run b s =
      ⟨((f (p.alone run b s).answer).alone run b (p.alone run b s).store).answer,
        ((f (p.alone run b s).answer).alone run b (p.alone run b s).store).store,
        (p.alone run b s).calls ++ ((f (p.alone run b s).answer).alone run b (p.alone run b s).store).calls⟩ := by
  induction p generalizing s with
  | ret a => rfl
  | peek k ih => exact ih s s
  | read k ih => exact ih (some s) s
  | tx t k ih => exact ih (run t s).1 (run t s).2
  | call q k ih =>
    simp only [bind, alone, ih (b q) s]
    rfl

/-- The rest of a program after a part that ended well. -/
lemma alone_ok {δ : Type} {x : ExceptT δ (Prog σ τ ρ χ β) α} {f : α → ExceptT δ (Prog σ τ ρ χ β) γ} {a : α}
    {s s' : σ} {calls : List χ} (h : alone run b x s = ⟨.ok a, s', calls⟩) :
    alone run b (x >>= f : ExceptT δ (Prog σ τ ρ χ β) γ) s =
      ⟨(alone run b (f a) s').answer, (alone run b (f a) s').store, calls ++ (alone run b (f a) s').calls⟩ := by
  have hb : alone run b (Prog.bind x (ExceptT.bindCont f)) s = _ := alone_bind x (ExceptT.bindCont f) s
  rw [h] at hb
  exact hb

/-- How a program can end when nobody else is on the site: a read may fail, a transaction
meets any of the oracles allowed, and a call is answered in any way. -/
inductive Ends {ω : Type} (run : τ → ω → σ → ρ × σ) (allowed : ω → Prop) :
    Prog σ τ ρ χ β α → σ → α → σ → Prop where
  | ret (a : α) (s : σ) : Ends run allowed (.ret a) s a s
  | peek {k : σ → Prog σ τ ρ χ β α} {s s' : σ} {a : α} (h : Ends run allowed (k s) s a s') :
      Ends run allowed (.peek k) s a s'
  | read {k : Option σ → Prog σ τ ρ χ β α} {s s' : σ} {a : α} (h : Ends run allowed (k (some s)) s a s') :
      Ends run allowed (.read k) s a s'
  | missed {k : Option σ → Prog σ τ ρ χ β α} {s s' : σ} {a : α} (h : Ends run allowed (k none) s a s') :
      Ends run allowed (.read k) s a s'
  | tx {t : τ} {k : ρ → Prog σ τ ρ χ β α} {s s' : σ} {a : α} (w : ω) (hw : allowed w)
      (h : Ends run allowed (k (run t w s).1) (run t w s).2 a s') : Ends run allowed (.tx t k) s a s'
  | call {q : χ} {k : β → Prog σ τ ρ χ β α} {s s' : σ} {a : α} (b : β) (h : Ends run allowed (k b) s a s') :
      Ends run allowed (.call q k) s a s'

section Ends

variable {ω : Type} {run : τ → ω → σ → ρ × σ} {allowed : ω → Prop}

/-- Running without failures is one of the ways to end. -/
lemma alone_ends (run : τ → ω → σ → ρ × σ) (allowed : ω → Prop) {w : ω} (hw : allowed w) (b : χ → β)
    (p : Prog σ τ ρ χ β α) (s : σ) :
    Ends run allowed p s (p.alone (fun t s => run t w s) b s).answer (p.alone (fun t s => run t w s) b s).store := by
  induction p generalizing s with
  | ret a => exact .ret a s
  | peek k ih => exact .peek (ih s s)
  | read k ih => exact .read (ih (some s) s)
  | tx t k ih => exact .tx w hw (ih (run t w s).1 (run t w s).2)
  | call q k ih => exact .call (b q) (ih (b q) s)

lemma ends_ret {a a' : α} {s s' : σ} (h : Ends run allowed (.ret a : Prog σ τ ρ χ β α) s a' s') :
    a' = a ∧ s' = s := by
  cases h
  exact ⟨rfl, rfl⟩

/-- A program in two parts ends where its second part does. -/
lemma ends_bind {p : Prog σ τ ρ χ β α} {f : α → Prog σ τ ρ χ β γ} {s s' : σ} {c : γ}
    (h : Ends run allowed (p.bind f) s c s') :
    ∃ a t, Ends run allowed p s a t ∧ Ends run allowed (f a) t c s' := by
  induction p generalizing s with
  | ret a => exact ⟨a, s, .ret a s, h⟩
  | peek k ih =>
    cases h with
    | peek h =>
      obtain ⟨a, t, hp, hf⟩ := ih s h
      exact ⟨a, t, .peek hp, hf⟩
  | read k ih =>
    cases h with
    | read h =>
      obtain ⟨a, t, hp, hf⟩ := ih (some s) h
      exact ⟨a, t, .read hp, hf⟩
    | missed h =>
      obtain ⟨a, t, hp, hf⟩ := ih none h
      exact ⟨a, t, .missed hp, hf⟩
  | tx t k ih =>
    cases h with
    | tx w hw h =>
      obtain ⟨a, u, hp, hf⟩ := ih _ h
      exact ⟨a, u, .tx w hw hp, hf⟩
  | call q k ih =>
    cases h with
    | call b h =>
      obtain ⟨a, t, hp, hf⟩ := ih b h
      exact ⟨a, t, .call b hp, hf⟩

/-- The second part runs only after a first part that ended well. -/
lemma ends_then {δ : Type} {x : ExceptT δ (Prog σ τ ρ χ β) α} {f : α → ExceptT δ (Prog σ τ ρ χ β) γ}
    {s s' : σ} {c : Except δ γ} (h : Ends run allowed (x >>= f : ExceptT δ (Prog σ τ ρ χ β) γ) s c s') :
    (∃ e, Ends run allowed x s (.error e) s' ∧ c = .error e) ∨
      ∃ a t, Ends run allowed x s (.ok a) t ∧ Ends run allowed (f a) t c s' := by
  obtain ⟨r, t, hx, hf⟩ := ends_bind (p := x) (f := ExceptT.bindCont f) h
  cases r with
  | error e =>
    obtain ⟨rfl, rfl⟩ := ends_ret hf
    exact .inl ⟨e, hx, rfl⟩
  | ok a => exact .inr ⟨a, t, hx, hf⟩

end Ends

end Prog

namespace Site

variable {ι σ τ ρ χ β α ω ε : Type} (S : Site ι σ τ ρ χ β α ω ε)

/-- A request in flight can go on by itself to its answer. -/
theorem reachable_alone (w : ω) {b : χ → β} (hb : ∀ q, S.fits q (b q) = true) {pid : Nat} {i : ι}
    (p : Prog σ τ ρ χ β α) (c : Conf ι σ τ ρ χ β α) (hp : c.procs pid = some (i, p)) :
    ∃ c', S.Reachable c c' ∧ c'.store = (p.alone (fun t s => S.run t w s) b c.store).store := by
  induction p generalizing c with
  | ret a => exact ⟨c, .refl, rfl⟩
  | peek k ih =>
    let d : Conf ι σ τ ρ χ β α := { c with procs := Function.update c.procs pid (some (i, k c.store)) }
    have hn : S.next c (.peek pid) = some d := by simp only [next, hp, d]
    obtain ⟨c', hc', hs⟩ := ih c.store d (Function.update_self ..)
    exact ⟨c', .head ⟨_, hn, fun _ _ => trivial⟩ hc', hs⟩
  | read k ih =>
    let d : Conf ι σ τ ρ χ β α := { c with procs := Function.update c.procs pid (some (i, k (some c.store))) }
    have hn : S.next c (.read pid true) = some d := by simp only [next, hp, if_true, d]
    obtain ⟨c', hc', hs⟩ := ih (some c.store) d (Function.update_self ..)
    exact ⟨c', .head ⟨_, hn, fun _ _ => trivial⟩ hc', hs⟩
  | tx t k ih =>
    let d : Conf ι σ τ ρ χ β α := ⟨(S.run t w c.store).2,
      Function.update c.procs pid (some (i, k (S.run t w c.store).1)),
      c.trace ++ [.commit pid i t (S.run t w c.store).1]⟩
    have hn : S.next c (.commit pid w) = some d := by simp only [next, hp, d]
    obtain ⟨c', hc', hs⟩ := ih (S.run t w c.store).1 d (Function.update_self ..)
    exact ⟨c', .head ⟨_, hn, fun _ _ => trivial⟩ hc', hs⟩
  | call q k ih =>
    let d : Conf ι σ τ ρ χ β α := { c with
      procs := Function.update c.procs pid (some (i, k (b q)))
      trace := c.trace ++ [.call pid i q (b q)] }
    have hn : S.next c (.reply pid (b q)) = some d := by simp only [next, hp, hb q, if_true, d]
    obtain ⟨c', hc', hs⟩ := ih (b q) d (Function.update_self ..)
    exact ⟨c', .head ⟨_, hn, fun _ _ => trivial⟩ hc', hs⟩

/-- A request that arrives and runs by itself. -/
theorem reachable_session (w : ω) {b : χ → β} (hb : ∀ q, S.fits q (b q) = true) (i : ι) (c : Conf ι σ τ ρ χ β α) :
    ∃ c', S.Reachable c c' ∧ c'.store = ((S.handler i).alone (fun t s => S.run t w s) b c.store).store := by
  let d : Conf ι σ τ ρ χ β α := { c with
    procs := Function.update c.procs c.trace.length (some (i, S.handler i))
    trace := c.trace ++ [.arrive c.trace.length i] }
  have hn : S.next c (.arrive i) = some d := rfl
  obtain ⟨c', hc', hs⟩ := S.reachable_alone w hb (S.handler i) d (Function.update_self ..)
  exact ⟨c', .head ⟨_, hn, fun _ _ => trivial⟩ hc', hs⟩

end Site

end Lib
