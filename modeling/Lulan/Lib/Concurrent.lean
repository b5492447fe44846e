import Mathlib.Logic.Relation
import Mathlib.Logic.Function.Basic

/-!
# Concurrent programs over a transactional store

A request handler reads the store, runs transactions on it and calls out to external
services. Handlers of any number of requests interleave at these points: a read sees the
committed store or fails, a transaction takes effect at once, and everything between two
such points is local to the handler. `ω` resolves what a transaction leaves open (fresh
identifiers, a failing connection) and `ε` is what the environment does to the store.
-/

namespace Lib

/-- What is left of a request handler. A `peek` is a read that cannot fail. -/
inductive Prog (σ τ ρ χ β α : Type) : Type where
  | ret (a : α)
  | peek (k : σ → Prog σ τ ρ χ β α)
  | read (k : Option σ → Prog σ τ ρ χ β α)
  | tx (t : τ) (k : ρ → Prog σ τ ρ χ β α)
  | call (c : χ) (k : β → Prog σ τ ρ χ β α)

namespace Prog

variable {σ τ ρ χ β α γ : Type}

def bind : Prog σ τ ρ χ β α → (α → Prog σ τ ρ χ β γ) → Prog σ τ ρ χ β γ
  | .ret a, f => f a
  | .peek k, f => .peek (fun s => (k s).bind f)
  | .read k, f => .read (fun s => (k s).bind f)
  | .tx t k, f => .tx t (fun r => (k r).bind f)
  | .call c k, f => .call c (fun b => (k b).bind f)

instance : Monad (Prog σ τ ρ χ β) where
  pure := ret
  bind := bind

@[simp] lemma pure_eq (a : α) : (pure a : Prog σ τ ρ χ β α) = ret a := rfl

@[simp] lemma ret_bind (a : α) (f : α → Prog σ τ ρ χ β γ) : (ret a >>= f) = f a := rfl

@[simp] lemma peek_bind (k : σ → Prog σ τ ρ χ β α) (f : α → Prog σ τ ρ χ β γ) :
    (peek k >>= f) = peek (fun s => k s >>= f) := rfl

@[simp] lemma read_bind (k : Option σ → Prog σ τ ρ χ β α) (f : α → Prog σ τ ρ χ β γ) :
    (read k >>= f) = read (fun s => k s >>= f) := rfl

@[simp] lemma tx_bind (t : τ) (k : ρ → Prog σ τ ρ χ β α) (f : α → Prog σ τ ρ χ β γ) :
    (tx t k >>= f) = tx t (fun r => k r >>= f) := rfl

@[simp] lemma call_bind (c : χ) (k : β → Prog σ τ ρ χ β α) (f : α → Prog σ τ ρ χ β γ) :
    (call c k >>= f) = call c (fun b => k b >>= f) := rfl

/-- Every transaction the program may still run satisfies `P`, every call `Q` and what it
returns `R`, as long as the stores it sees satisfy `J`. -/
def Only (J : σ → Prop) (P : τ → Prop) (Q : χ → Prop) (R : α → Prop) : Prog σ τ ρ χ β α → Prop
  | .ret a => R a
  | .peek k => ∀ s, J s → (k s).Only J P Q R
  | .read k => (k none).Only J P Q R ∧ ∀ s, J s → (k (some s)).Only J P Q R
  | .tx t k => P t ∧ ∀ r, (k r).Only J P Q R
  | .call c k => Q c ∧ ∀ b, (k b).Only J P Q R

lemma only_ret {J : σ → Prop} {P : τ → Prop} {Q : χ → Prop} {R : α → Prop} {a : α} (h : R a) :
    (ret a : Prog σ τ ρ χ β α).Only J P Q R := h

lemma only_bind {J : σ → Prop} {P : τ → Prop} {Q : χ → Prop} {R : α → Prop} {R' : γ → Prop}
    {p : Prog σ τ ρ χ β α} {f : α → Prog σ τ ρ χ β γ}
    (hp : p.Only J P Q R) (hf : ∀ a, R a → (f a).Only J P Q R') : (p >>= f).Only J P Q R' := by
  induction p with
  | ret a => exact hf a hp
  | peek k ih => exact fun s hs => ih s (hp s hs)
  | read k ih => exact ⟨ih none hp.1, fun s hs => ih (some s) (hp.2 s hs)⟩
  | tx t k ih => exact ⟨hp.1, fun r => ih r (hp.2 r)⟩
  | call c k ih => exact ⟨hp.1, fun b => ih b (hp.2 b)⟩

lemma only_mono {J : σ → Prop} {P P' : τ → Prop} {Q Q' : χ → Prop} {R R' : α → Prop}
    {p : Prog σ τ ρ χ β α} (hp : p.Only J P Q R) (hP : ∀ t, P t → P' t) (hQ : ∀ c, Q c → Q' c)
    (hR : ∀ a, R a → R' a) : p.Only J P' Q' R' := by
  induction p with
  | ret a => exact hR a hp
  | peek k ih => exact fun s hs => ih s (hp s hs)
  | read k ih => exact ⟨ih none hp.1, fun s hs => ih (some s) (hp.2 s hs)⟩
  | tx t k ih => exact ⟨hP t hp.1, fun r => ih r (hp.2 r)⟩
  | call c k ih => exact ⟨hQ c hp.1, fun b => ih b (hp.2 b)⟩

/-- One point passed, whatever it returned. -/
inductive Moves : Prog σ τ ρ χ β α → Prog σ τ ρ χ β α → Prop
  | peek (k : σ → Prog σ τ ρ χ β α) (s : σ) : Moves (peek k) (k s)
  | read (k : Option σ → Prog σ τ ρ χ β α) (s : Option σ) : Moves (read k) (k s)
  | tx (t : τ) (k : ρ → Prog σ τ ρ χ β α) (r : ρ) : Moves (tx t k) (k r)
  | call (c : χ) (k : β → Prog σ τ ρ χ β α) (b : β) : Moves (call c k) (k b)

/-- What can be left of a program. -/
def Residual : Prog σ τ ρ χ β α → Prog σ τ ρ χ β α → Prop := Relation.ReflTransGen Moves

lemma residual_ret {a : α} {q : Prog σ τ ρ χ β α} (h : Residual (.ret a) q) : q = .ret a := by
  rcases Relation.ReflTransGen.cases_head h with rfl | ⟨p, hp, -⟩
  · rfl
  · cases hp

lemma residual_read {k : Option σ → Prog σ τ ρ χ β α} {q : Prog σ τ ρ χ β α} (h : Residual (.read k) q) :
    q = .read k ∨ ∃ s, Residual (k s) q := by
  rcases Relation.ReflTransGen.cases_head h with rfl | ⟨p, hp, hq⟩
  · exact .inl rfl
  · cases hp with
    | read k s => exact .inr ⟨s, hq⟩

lemma residual_tx {t : τ} {k : ρ → Prog σ τ ρ χ β α} {q : Prog σ τ ρ χ β α} (h : Residual (.tx t k) q) :
    q = .tx t k ∨ ∃ r, Residual (k r) q := by
  rcases Relation.ReflTransGen.cases_head h with rfl | ⟨p, hp, hq⟩
  · exact .inl rfl
  · cases hp with
    | tx t k r => exact .inr ⟨r, hq⟩

lemma residual_call {c : χ} {k : β → Prog σ τ ρ χ β α} {q : Prog σ τ ρ χ β α} (h : Residual (.call c k) q) :
    q = .call c k ∨ ∃ b, Residual (k b) q := by
  rcases Relation.ReflTransGen.cases_head h with rfl | ⟨p, hp, hq⟩
  · exact .inl rfl
  · cases hp with
    | call c k b => exact .inr ⟨b, hq⟩

/-- What a program may not do, no part of it may do. -/
lemma only_residual {P : τ → Prop} {Q : χ → Prop} {R : α → Prop} {p q : Prog σ τ ρ χ β α}
    (hp : p.Only (fun _ => True) P Q R) (h : Residual p q) : q.Only (fun _ => True) P Q R := by
  induction h with
  | refl => exact hp
  | tail _ hm ih =>
    cases hm with
    | peek k s => exact ih s trivial
    | read k s =>
      cases s with
      | none => exact ih.1
      | some s => exact ih.2 s trivial
    | tx t k r => exact ih.2 r
    | call c k b => exact ih.2 b

end Prog

/-- Requests, their handlers and the meaning of transactions. `fits` says which replies an
external service can give to a call. -/
structure Site (ι σ τ ρ χ β α ω ε : Type) where
  handler : ι → Prog σ τ ρ χ β α
  run : τ → ω → σ → ρ × σ
  env : ε → σ → σ
  fits : χ → β → Bool

/-- What an observer of the site can record. -/
inductive Ev (ι τ ρ χ β α : Type) : Type where
  | arrive (pid : Nat) (i : ι)
  | commit (pid : Nat) (i : ι) (t : τ) (r : ρ)
  | call (pid : Nat) (i : ι) (c : χ) (b : β)
  | answer (pid : Nat) (i : ι) (a : α)
deriving DecidableEq

/-- The request an event belongs to. -/
def Ev.pid {ι τ ρ χ β α : Type} : Ev ι τ ρ χ β α → Nat
  | .arrive pid _ | .commit pid _ _ _ | .call pid _ _ _ | .answer pid _ _ => pid

/-- The committed store, the requests in flight and the history so far. A request is known
by the position of its arrival in the history. -/
structure Conf (ι σ τ ρ χ β α : Type) where
  store : σ
  procs : Nat → Option (ι × Prog σ τ ρ χ β α)
  trace : List (Ev ι τ ρ χ β α)

inductive Act (ι β ω ε : Type) : Type where
  | env (e : ε)
  | arrive (i : ι)
  | peek (pid : Nat)
  | read (pid : Nat) (ok : Bool)
  | commit (pid : Nat) (w : ω)
  | reply (pid : Nat) (b : β)
  | answer (pid : Nat)

namespace Site

variable {ι σ τ ρ χ β α γ ω ε : Type}

/-- The store before any request has arrived. -/
def init (s : σ) : Conf ι σ τ ρ χ β α := ⟨s, fun _ => none, []⟩

/-- One step of the site; `none` where the action does not apply. -/
def next (S : Site ι σ τ ρ χ β α ω ε) (c : Conf ι σ τ ρ χ β α) :
    Act ι β ω ε → Option (Conf ι σ τ ρ χ β α)
  | .env e => some { c with store := S.env e c.store }
  | .arrive i => some { c with
      procs := Function.update c.procs c.trace.length (some (i, S.handler i)),
      trace := c.trace ++ [.arrive c.trace.length i] }
  | .peek pid =>
    match c.procs pid with
    | some (i, .peek k) => some { c with procs := Function.update c.procs pid (some (i, k c.store)) }
    | _ => none
  | .read pid ok =>
    match c.procs pid with
    | some (i, .read k) =>
      some { c with procs := Function.update c.procs pid (some (i, k (if ok then some c.store else none))) }
    | _ => none
  | .commit pid w =>
    match c.procs pid with
    | some (i, .tx t k) =>
      some ⟨(S.run t w c.store).2,
        Function.update c.procs pid (some (i, k (S.run t w c.store).1)),
        c.trace ++ [.commit pid i t (S.run t w c.store).1]⟩
    | _ => none
  | .reply pid b =>
    match c.procs pid with
    | some (i, .call q k) =>
      if S.fits q b then some { c with
        procs := Function.update c.procs pid (some (i, k b)),
        trace := c.trace ++ [.call pid i q b] }
      else none
    | _ => none
  | .answer pid =>
    match c.procs pid with
    | some (i, .ret a) => some { c with
        procs := Function.update c.procs pid none,
        trace := c.trace ++ [.answer pid i a] }
    | _ => none

/-- The steps of an interleaving whose events meet the condition `G` where they happen. -/
def StepWhen (S : Site ι σ τ ρ χ β α ω ε) (G : σ → List (Ev ι τ ρ χ β α) → Ev ι τ ρ χ β α → Prop)
    (c c' : Conf ι σ τ ρ χ β α) : Prop :=
  ∃ a, S.next c a = some c' ∧ ∀ ev, c'.trace = c.trace ++ [ev] → G c.store c.trace ev

def ReachableWhen (S : Site ι σ τ ρ χ β α ω ε) (G : σ → List (Ev ι τ ρ χ β α) → Ev ι τ ρ χ β α → Prop) :
    Conf ι σ τ ρ χ β α → Conf ι σ τ ρ χ β α → Prop := Relation.ReflTransGen (S.StepWhen G)

/-- Runs of any length under any interleaving. -/
def Reachable (S : Site ι σ τ ρ χ β α ω ε) :
    Conf ι σ τ ρ χ β α → Conf ι σ τ ρ χ β α → Prop := S.ReachableWhen (fun _ _ _ => True)

lemma ReachableWhen.reachable {S : Site ι σ τ ρ χ β α ω ε}
    {G : σ → List (Ev ι τ ρ χ β α) → Ev ι τ ρ χ β α → Prop} {c c' : Conf ι σ τ ρ χ β α}
    (h : S.ReachableWhen G c c') : S.Reachable c c' :=
  Relation.ReflTransGen.mono (fun _ _ ⟨a, ha, _⟩ => ⟨a, ha, fun _ _ => trivial⟩) _ _ h

/-- What each action does to the configuration. -/
lemma next_cases {S : Site ι σ τ ρ χ β α ω ε} {c c' : Conf ι σ τ ρ χ β α} {a : Act ι β ω ε}
    (h : S.next c a = some c') :
    (∃ e, a = .env e ∧ c' = { c with store := S.env e c.store }) ∨
    (∃ i, a = .arrive i ∧ c' = { c with
      procs := Function.update c.procs c.trace.length (some (i, S.handler i)),
      trace := c.trace ++ [.arrive c.trace.length i] }) ∨
    (∃ pid i k, a = .peek pid ∧ c.procs pid = some (i, .peek k) ∧ c' = { c with
      procs := Function.update c.procs pid (some (i, k c.store)) }) ∨
    (∃ pid ok i k, a = .read pid ok ∧ c.procs pid = some (i, .read k) ∧ c' = { c with
      procs := Function.update c.procs pid (some (i, k (if ok then some c.store else none))) }) ∨
    (∃ pid w i t k, a = .commit pid w ∧ c.procs pid = some (i, .tx t k) ∧
      c' = ⟨(S.run t w c.store).2,
        Function.update c.procs pid (some (i, k (S.run t w c.store).1)),
        c.trace ++ [.commit pid i t (S.run t w c.store).1]⟩) ∨
    (∃ pid b i q k, a = .reply pid b ∧ c.procs pid = some (i, .call q k) ∧ S.fits q b = true ∧
      c' = { c with
        procs := Function.update c.procs pid (some (i, k b)),
        trace := c.trace ++ [.call pid i q b] }) ∨
    (∃ pid i x, a = .answer pid ∧ c.procs pid = some (i, .ret x) ∧ c' = { c with
      procs := Function.update c.procs pid none,
      trace := c.trace ++ [.answer pid i x] }) := by
  cases a with
  | env e =>
    left
    exact ⟨e, rfl, (Option.some.inj h).symm⟩
  | arrive i =>
    right; left
    exact ⟨i, rfl, (Option.some.inj h).symm⟩
  | peek pid =>
    right; right; left
    simp only [next] at h
    split at h
    · rename_i i k hp
      exact ⟨pid, i, k, rfl, hp, (Option.some.inj h).symm⟩
    · cases h
  | read pid ok =>
    right; right; right; left
    simp only [next] at h
    split at h
    · rename_i i k hp
      exact ⟨pid, ok, i, k, rfl, hp, (Option.some.inj h).symm⟩
    · cases h
  | commit pid w =>
    right; right; right; right; left
    simp only [next] at h
    split at h
    · rename_i i t k hp
      exact ⟨pid, w, i, t, k, rfl, hp, (Option.some.inj h).symm⟩
    · cases h
  | reply pid b =>
    right; right; right; right; right; left
    simp only [next] at h
    split at h
    · rename_i i q k hp
      split at h
      · rename_i hf
        exact ⟨pid, b, i, q, k, rfl, hp, hf, (Option.some.inj h).symm⟩
      · cases h
    · cases h
  | answer pid =>
    right; right; right; right; right; right
    simp only [next] at h
    split at h
    · rename_i i x hp
      exact ⟨pid, i, x, rfl, hp, (Option.some.inj h).symm⟩
    · cases h

/-- When one request moves, what held of the others still holds. -/
lemma forall_update {procs : Nat → Option (ι × Prog σ τ ρ χ β α)} {I : Nat → ι → Prog σ τ ρ χ β α → Prop}
    {q : Nat} {v : Option (ι × Prog σ τ ρ χ β α)} (h : ∀ pid i p, pid ≠ q → procs pid = some (i, p) → I pid i p)
    (hv : ∀ i p, v = some (i, p) → I q i p) :
    ∀ pid i p, Function.update procs q v pid = some (i, p) → I pid i p := by
  intro pid i p hpid
  by_cases he : pid = q
  · subst he
    rw [Function.update_self] at hpid
    exact hv i p hpid
  · rw [Function.update_of_ne he] at hpid
    exact h pid i p he hpid

/-- Whatever is in flight is what is left of its handler. -/
theorem residual {S : Site ι σ τ ρ χ β α ω ε} {G : σ → List (Ev ι τ ρ χ β α) → Ev ι τ ρ χ β α → Prop} {s : σ}
    {c : Conf ι σ τ ρ χ β α} (hc : S.ReachableWhen G (init s) c) {pid : Nat} {i : ι} {p : Prog σ τ ρ χ β α}
    (hp : c.procs pid = some (i, p)) : Prog.Residual (S.handler i) p := by
  induction hc generalizing pid i p with
  | refl => simp [init] at hp
  | @tail c c' _ hstep ih =>
    obtain ⟨a, hn, -⟩ := hstep
    have hmove : ∀ (q : Nat) (v : Option (ι × Prog σ τ ρ χ β α)),
        (∀ j p, v = some (j, p) → Prog.Residual (S.handler j) p) → ∀ pid i p,
        Function.update c.procs q v pid = some (i, p) → Prog.Residual (S.handler i) p :=
      fun q v hv => forall_update (fun pid i p _ hp => ih hp) hv
    rcases next_cases hn with ⟨e, -, rfl⟩ | ⟨j, -, rfl⟩ | ⟨q, j, k, -, hq, rfl⟩ |
      ⟨q, ok, j, k, -, hq, rfl⟩ | ⟨q, w, j, t, k, -, hq, rfl⟩ | ⟨q, b, j, x, k, -, hq, hf, rfl⟩ |
      ⟨q, j, x, -, hq, rfl⟩
    · exact ih hp
    · exact hmove _ _ (fun _ _ he => by cases he; exact .refl) pid i p hp
    · exact hmove _ _ (fun _ _ he => by cases he; exact (ih hq).tail (.peek k _)) pid i p hp
    · exact hmove _ _ (fun _ _ he => by cases he; exact (ih hq).tail (.read k _)) pid i p hp
    · exact hmove _ _ (fun _ _ he => by cases he; exact (ih hq).tail (.tx t k _)) pid i p hp
    · exact hmove _ _ (fun _ _ he => by cases he; exact (ih hq).tail (.call x k b)) pid i p hp
    · exact hmove _ _ (fun _ _ he => by cases he) pid i p hp

/-- From one history to a longer one without a step of request `pid`. -/
def Later (pid : Nat) (h h' : List (Ev ι τ ρ χ β α)) : Prop :=
  ∃ l : List (Ev ι τ ρ χ β α), h' = h ++ l ∧ ∀ ev ∈ l, ev.pid ≠ pid

lemma Later.refl (pid : Nat) (h : List (Ev ι τ ρ χ β α)) : Later pid h h :=
  ⟨[], (List.append_nil h).symm, by simp⟩

lemma Later.trans {pid : Nat} {h₁ h₂ h₃ : List (Ev ι τ ρ χ β α)} (h : Later pid h₁ h₂) (h' : Later pid h₂ h₃) :
    Later pid h₁ h₃ := by
  obtain ⟨l, rfl, hl⟩ := h
  obtain ⟨l', rfl, hl'⟩ := h'
  refine ⟨l ++ l', List.append_assoc _ _ _, fun ev he => ?_⟩
  rcases List.mem_append.mp he with he | he
  · exact hl ev he
  · exact hl' ev he

lemma Later.concat {pid : Nat} (h : List (Ev ι τ ρ χ β α)) {ev : Ev ι τ ρ χ β α} (he : ev.pid ≠ pid) :
    Later pid h (h ++ [ev]) :=
  ⟨[ev], rfl, by simpa using he⟩

lemma Later.mem {pid : Nat} {h h' : List (Ev ι τ ρ χ β α)} (hl : Later pid h h') {ev : Ev ι τ ρ χ β α}
    (he : ev ∈ h) : ev ∈ h' := by
  obtain ⟨l, rfl, -⟩ := hl
  exact List.mem_append_left l he

lemma Later.extends {pid : Nat} {h h' : List (Ev ι τ ρ χ β α)} (hl : Later pid h h') : h <+: h' := by
  obtain ⟨l, rfl, -⟩ := hl
  exact List.prefix_append _ _

/-- The events of a request are its own. -/
lemma Later.own {pid : Nat} {h h' : List (Ev ι τ ρ χ β α)} (hl : Later pid h h') {ev : Ev ι τ ρ χ β α}
    (he : ev ∈ h') (hp : ev.pid = pid) : ev ∈ h := by
  obtain ⟨l, rfl, hne⟩ := hl
  rcases List.mem_append.mp he with he | he
  · exact he
  · exact absurd hp (hne ev he)

/-- The rest of a handler, reached after history `h`, keeps `I` along every step that `G`
admits, whatever the other requests do in between, and returns only what satisfies `R`. -/
def Keeps (S : Site ι σ τ ρ χ β α ω ε) (G : σ → List (Ev ι τ ρ χ β α) → Ev ι τ ρ χ β α → Prop)
    (I : σ → List (Ev ι τ ρ χ β α) → Prop) (pid : Nat) (i : ι)
    (R : List (Ev ι τ ρ χ β α) → γ → Prop) : Prog σ τ ρ χ β γ → List (Ev ι τ ρ χ β α) → Prop
  | .ret a, h => ∀ h', Later pid h h' → R h' a
  | .peek k, h => ∀ s h', Later pid h h' → I s h' → S.Keeps G I pid i R (k s) h'
  | .read k, h => ∀ s h', Later pid h h' → I s h' →
      S.Keeps G I pid i R (k none) h' ∧ S.Keeps G I pid i R (k (some s)) h'
  | .tx t k, h => ∀ w s h', Later pid h h' → I s h' → G s h' (.commit pid i t (S.run t w s).1) →
      I (S.run t w s).2 (h' ++ [.commit pid i t (S.run t w s).1]) ∧
      S.Keeps G I pid i R (k (S.run t w s).1) (h' ++ [.commit pid i t (S.run t w s).1])
  | .call q k, h => ∀ b s h', S.fits q b = true → Later pid h h' → I s h' → G s h' (.call pid i q b) →
      I s (h' ++ [.call pid i q b]) ∧ S.Keeps G I pid i R (k b) (h' ++ [.call pid i q b])

section Rules

variable {S : Site ι σ τ ρ χ β α ω ε} {G : σ → List (Ev ι τ ρ χ β α) → Ev ι τ ρ χ β α → Prop}
  {I : σ → List (Ev ι τ ρ χ β α) → Prop}

lemma Keeps.mono {pid : Nat} {i : ι} {R : List (Ev ι τ ρ χ β α) → γ → Prop} {p : Prog σ τ ρ χ β γ}
    {h h' : List (Ev ι τ ρ χ β α)} (hp : S.Keeps G I pid i R p h) (hh : Later pid h h') :
    S.Keeps G I pid i R p h' := by
  cases p with
  | ret a => exact fun g hg => hp g (hh.trans hg)
  | peek k => exact fun s g hg => hp s g (hh.trans hg)
  | read k => exact fun s g hg => hp s g (hh.trans hg)
  | tx t k => exact fun w s g hg => hp w s g (hh.trans hg)
  | call q k => exact fun b s g hf hg => hp b s g hf (hh.trans hg)

/-- Sequencing: what the first part returns is where the second part starts. -/
lemma keeps_bind {δ : Type} {pid : Nat} {i : ι} {R : List (Ev ι τ ρ χ β α) → γ → Prop}
    {R' : List (Ev ι τ ρ χ β α) → δ → Prop} {p : Prog σ τ ρ χ β γ} {f : γ → Prog σ τ ρ χ β δ}
    {h : List (Ev ι τ ρ χ β α)} (hp : S.Keeps G I pid i R p h)
    (hf : ∀ a h', R h' a → S.Keeps G I pid i R' (f a) h') :
    S.Keeps G I pid i R' (p.bind f) h := by
  induction p generalizing h with
  | ret a => exact hf a h (hp h (.refl pid h))
  | peek k ih => exact fun s g hg hI => ih s (hp s g hg hI)
  | read k ih => exact fun s g hg hI => ⟨ih none (hp s g hg hI).1, ih (some s) (hp s g hg hI).2⟩
  | tx t k ih => exact fun w s g hg hI hG => ⟨(hp w s g hg hI hG).1, ih _ (hp w s g hg hI hG).2⟩
  | call q k ih => exact fun b s g hf' hg hI hG => ⟨(hp b s g hf' hg hI hG).1, ih b (hp b s g hf' hg hI hG).2⟩

/-- Sequencing of programs that stop with an error. -/
lemma keeps_seq {δ ξ : Type} {pid : Nat} {i : ι} {R : List (Ev ι τ ρ χ β α) → Except ξ γ → Prop}
    {R' : List (Ev ι τ ρ χ β α) → Except ξ δ → Prop} {x : ExceptT ξ (Prog σ τ ρ χ β) γ}
    {f : γ → ExceptT ξ (Prog σ τ ρ χ β) δ} {h : List (Ev ι τ ρ χ β α)} (hx : S.Keeps G I pid i R x h)
    (hok : ∀ a g, R g (.ok a) → S.Keeps G I pid i R' (f a) g)
    (herr : ∀ e g, R g (.error e) → ∀ g', Later pid g g' → R' g' (.error e)) :
    S.Keeps G I pid i R' (x >>= f : ExceptT ξ (Prog σ τ ρ χ β) δ) h := by
  refine keeps_bind (f := ExceptT.bindCont f) hx (fun r g hr => ?_)
  cases r with
  | ok a => exact hok a g hr
  | error e => exact herr e g hr

lemma Keeps.weaken {pid : Nat} {i : ι} {R R' : List (Ev ι τ ρ χ β α) → γ → Prop} {p : Prog σ τ ρ χ β γ}
    {h : List (Ev ι τ ρ χ β α)} (hp : S.Keeps G I pid i R p h) (hR : ∀ h' a, R h' a → R' h' a) :
    S.Keeps G I pid i R' p h := by
  induction p generalizing h with
  | ret a => exact fun g hg => hR g a (hp g hg)
  | peek k ih => exact fun s g hg hI => ih s (hp s g hg hI)
  | read k ih => exact fun s g hg hI => ⟨ih none (hp s g hg hI).1, ih (some s) (hp s g hg hI).2⟩
  | tx t k ih => exact fun w s g hg hI hG => ⟨(hp w s g hg hI hG).1, ih _ (hp w s g hg hI hG).2⟩
  | call q k ih => exact fun b s g hf' hg hI hG => ⟨(hp b s g hf' hg hI hG).1, ih b (hp b s g hf' hg hI hG).2⟩

/-- A handler only adds to the history. -/
lemma Keeps.extending {pid : Nat} {i : ι} {R : List (Ev ι τ ρ χ β α) → γ → Prop} {p : Prog σ τ ρ χ β γ}
    {h h₀ : List (Ev ι τ ρ χ β α)} (hp : S.Keeps G I pid i R p h) (h₁ : h₀ <+: h) :
    S.Keeps G I pid i (fun g a => h₀ <+: g ∧ R g a) p h := by
  induction p generalizing h with
  | ret a => exact fun g hg => ⟨h₁.trans hg.extends, hp g hg⟩
  | peek k ih => exact fun s g hg hI => ih s (hp s g hg hI) (h₁.trans hg.extends)
  | read k ih =>
    intro s g hg hI
    obtain ⟨hnone, hsome⟩ := hp s g hg hI
    exact ⟨ih none hnone (h₁.trans hg.extends), ih (some s) hsome (h₁.trans hg.extends)⟩
  | tx t k ih =>
    intro w s g hg hI hG
    obtain ⟨hI', hk⟩ := hp w s g hg hI hG
    exact ⟨hI', ih _ hk ((h₁.trans hg.extends).trans (List.prefix_append _ _))⟩
  | call q k ih =>
    intro b s g hf hg hI hG
    obtain ⟨hI', hk⟩ := hp b s g hf hg hI hG
    exact ⟨hI', ih b hk ((h₁.trans hg.extends).trans (List.prefix_append _ _))⟩

/-- What makes `I` an invariant of the store and the history along the runs that meet `G`,
with `R` true of every answer: each handler keeps `I`, and what it returns satisfies `R`. -/
structure Protocol (S : Site ι σ τ ρ χ β α ω ε) (G : σ → List (Ev ι τ ρ χ β α) → Ev ι τ ρ χ β α → Prop)
    (I : σ → List (Ev ι τ ρ χ β α) → Prop) (R : Nat → ι → List (Ev ι τ ρ χ β α) → α → Prop) : Prop where
  env : ∀ s h e, I s h → I (S.env e s) h
  arrive : ∀ s h i, I s h → (∀ ev ∈ h, ev.pid < h.length) → G s h (.arrive h.length i) →
    I s (h ++ [.arrive h.length i]) ∧
      S.Keeps G I h.length i (R h.length i) (S.handler i) (h ++ [.arrive h.length i])
  answer : ∀ s h pid i a, I s h → G s h (.answer pid i a) → R pid i h a → I s (h ++ [.answer pid i a])

/-- The rule for invariants: induction on the run, with what is left of every handler. -/
theorem Protocol.invariant {R : Nat → ι → List (Ev ι τ ρ χ β α) → α → Prop} {s : σ}
    {c : Conf ι σ τ ρ χ β α} (hP : Protocol S G I R) (h₀ : I s []) (hc : S.ReachableWhen G (init s) c) :
    I c.store c.trace ∧ (∀ ev ∈ c.trace, ev.pid < c.trace.length) ∧
      ∀ pid i p, c.procs pid = some (i, p) →
        pid < c.trace.length ∧ S.Keeps G I pid i (R pid i) p c.trace := by
  induction hc with
  | refl => exact ⟨h₀, by simp [init], fun pid i p hp => by simp [init] at hp⟩
  | @tail c c' _ hstep ih =>
    obtain ⟨hI, hpids, hprocs⟩ := ih
    obtain ⟨a, hn, hG⟩ := hstep
    have hmore : ∀ ev : Ev ι τ ρ χ β α, ev.pid ≤ c.trace.length →
        ∀ x ∈ c.trace ++ [ev], x.pid < (c.trace ++ [ev]).length := by
      intro ev hev x hx
      rw [List.length_append, List.length_singleton]
      rcases List.mem_append.mp hx with hx | hx
      · have := hpids x hx
        omega
      · rw [List.mem_singleton.mp hx]
        omega
    have hlater : ∀ ev : Ev ι τ ρ χ β α, ∀ pid i p, pid ≠ ev.pid → c.procs pid = some (i, p) →
        pid < (c.trace ++ [ev]).length ∧ S.Keeps G I pid i (R pid i) p (c.trace ++ [ev]) := by
      intro ev pid i p hne hp
      obtain ⟨hlt, hk⟩ := hprocs pid i p hp
      rw [List.length_append]
      exact ⟨by omega, hk.mono (.concat _ hne.symm)⟩
    rcases next_cases hn with ⟨e, -, rfl⟩ | ⟨i, -, rfl⟩ | ⟨pid, i, k, -, hp, rfl⟩ |
      ⟨pid, ok, i, k, -, hp, rfl⟩ | ⟨pid, w, i, t, k, -, hp, rfl⟩ | ⟨pid, b, i, q, k, -, hp, hf, rfl⟩ |
      ⟨pid, i, x, -, hp, rfl⟩
    · exact ⟨hP.env _ _ e hI, hpids, hprocs⟩
    · obtain ⟨hI', hk⟩ := hP.arrive _ _ i hI hpids (hG _ rfl)
      refine ⟨hI', hmore _ (Nat.le_refl _), forall_update (hlater (.arrive c.trace.length i)) (fun j p he => ?_)⟩
      cases he
      exact ⟨by simp, hk⟩
    · obtain ⟨hlt, hk⟩ := hprocs pid i _ hp
      refine ⟨hI, hpids, forall_update (fun q j p _ => hprocs q j p) (fun j p he => ?_)⟩
      cases he
      exact ⟨hlt, hk _ _ (.refl pid _) hI⟩
    · obtain ⟨hlt, hk⟩ := hprocs pid i _ hp
      refine ⟨hI, hpids, forall_update (fun q j p _ => hprocs q j p) (fun j p he => ?_)⟩
      obtain ⟨h₁, h₂⟩ := hk _ _ (.refl pid _) hI
      cases he
      cases ok with
      | true => exact ⟨hlt, h₂⟩
      | false => exact ⟨hlt, h₁⟩
    · obtain ⟨hlt, hk⟩ := hprocs pid i _ hp
      obtain ⟨hI', hk'⟩ := hk w _ _ (.refl pid _) hI (hG _ rfl)
      refine ⟨hI', hmore _ (Nat.le_of_lt hlt), forall_update (hlater (.commit pid i t _)) (fun j p he => ?_)⟩
      cases he
      exact ⟨by simp; omega, hk'⟩
    · obtain ⟨hlt, hk⟩ := hprocs pid i _ hp
      obtain ⟨hI', hk'⟩ := hk b _ _ hf (.refl pid _) hI (hG _ rfl)
      refine ⟨hI', hmore _ (Nat.le_of_lt hlt), forall_update (hlater (.call pid i q b)) (fun j p he => ?_)⟩
      cases he
      exact ⟨by simp; omega, hk'⟩
    · obtain ⟨hlt, hk⟩ := hprocs pid i _ hp
      refine ⟨hP.answer _ _ pid i x hI (hG _ rfl) (hk _ (.refl pid _)), hmore _ (Nat.le_of_lt hlt), ?_⟩
      refine forall_update (hlater (.answer pid i x)) (fun j p he => ?_)
      cases he

/-- A condition that follows from another one and the invariant. -/
lemma Protocol.reachableWhen {G' : σ → List (Ev ι τ ρ χ β α) → Ev ι τ ρ χ β α → Prop}
    {R : Nat → ι → List (Ev ι τ ρ χ β α) → α → Prop} {s : σ} {c : Conf ι σ τ ρ χ β α} (hP : Protocol S G I R)
    (h₀ : I s []) (hG : ∀ s h ev, I s h → G s h ev → G' s h ev) (hc : S.ReachableWhen G (init s) c) :
    S.ReachableWhen G' (init s) c := by
  induction hc with
  | refl => exact Relation.ReflTransGen.refl
  | @tail c c' hc hstep ih =>
    obtain ⟨a, hn, hg⟩ := hstep
    exact ih.tail ⟨a, hn, fun ev he => hG _ _ ev (hP.invariant h₀ hc).1 (hg ev he)⟩

/-- Every answer satisfied `R` when it was given. -/
theorem Protocol.answered {R : Nat → ι → List (Ev ι τ ρ χ β α) → α → Prop} {s : σ} {c : Conf ι σ τ ρ χ β α}
    (hP : Protocol S G I R) (h₀ : I s []) (hc : S.ReachableWhen G (init s) c) {pid : Nat} {i : ι} {a : α}
    {g : List (Ev ι τ ρ χ β α)} (hg : g ++ [.answer pid i a] <+: c.trace) : R pid i g a := by
  induction hc with
  | refl => simp [init] at hg
  | @tail c c' hc hstep ih =>
    obtain ⟨act, hn, -⟩ := hstep
    have hquiet : ∀ ev : Ev ι τ ρ χ β α, ev ≠ .answer pid i a → g ++ [.answer pid i a] <+: c.trace ++ [ev] →
        R pid i g a := by
      intro ev hne hp
      rcases List.prefix_concat_iff.mp hp with he | hp
      · exact absurd (List.append_inj' he rfl).2 (by simpa using Ne.symm hne)
      · exact ih hp
    rcases next_cases hn with ⟨e, -, rfl⟩ | ⟨j, -, rfl⟩ | ⟨q, j, k, -, hp, rfl⟩ |
      ⟨q, ok, j, k, -, hp, rfl⟩ | ⟨q, w, j, t, k, -, hp, rfl⟩ | ⟨q, b, j, x, k, -, hp, hf, rfl⟩ |
      ⟨q, j, x, -, hp, rfl⟩
    · exact ih hg
    · exact hquiet _ (by simp) hg
    · exact ih hg
    · exact ih hg
    · exact hquiet _ (by simp) hg
    · exact hquiet _ (by simp) hg
    · rcases List.prefix_concat_iff.mp hg with he | hp'
      · obtain ⟨hg', hev⟩ := List.append_inj' he rfl
        cases List.singleton_inj.mp hev
        subst hg'
        obtain ⟨-, hk⟩ := (hP.invariant h₀ hc).2.2 pid i _ hp
        exact hk _ (.refl pid _)
      · exact ih hp'

/-- Where every transaction and call a handler may make keeps the invariant, and with it
what `C` says about the request's own part of the history, so does the handler. -/
lemma keeps_carrying {J : σ → Prop} {P : τ → Prop} {Q : χ → Prop} {R : γ → Prop}
    {C : List (Ev ι τ ρ χ β α) → Prop} {pid : Nat} {i : ι} {p : Prog σ τ ρ χ β γ} (hp : p.Only J P Q R)
    (hJ : ∀ s h, I s h → C h → J s) (hC : ∀ h h', Later pid h h' → C h → C h')
    (htx : ∀ t w s h, P t → I s h → C h → G s h (.commit pid i t (S.run t w s).1) →
      I (S.run t w s).2 (h ++ [.commit pid i t (S.run t w s).1]) ∧ C (h ++ [.commit pid i t (S.run t w s).1]))
    (hcall : ∀ q b s h, Q q → S.fits q b = true → I s h → C h → G s h (.call pid i q b) →
      I s (h ++ [.call pid i q b]) ∧ C (h ++ [.call pid i q b])) (h : List (Ev ι τ ρ χ β α)) (h₁ : C h) :
    S.Keeps G I pid i (fun g a => C g ∧ R a) p h := by
  induction p generalizing h with
  | ret a => exact fun g hg => ⟨hC h g hg h₁, hp⟩
  | peek k ih => exact fun s g hg hI => ih s (hp s (hJ s g hI (hC h g hg h₁))) g (hC h g hg h₁)
  | read k ih =>
    intro s g hg hI
    have h₂ := hC h g hg h₁
    exact ⟨ih none hp.1 g h₂, ih (some s) (hp.2 s (hJ s g hI h₂)) g h₂⟩
  | tx t k ih =>
    intro w s g hg hI hG
    obtain ⟨hI', h₂⟩ := htx t w s g hp.1 hI (hC h g hg h₁) hG
    exact ⟨hI', ih _ (hp.2 _) _ h₂⟩
  | call q k ih =>
    intro b s g hf hg hI hG
    obtain ⟨hI', h₂⟩ := hcall q b s g hp.1 hf hI (hC h g hg h₁) hG
    exact ⟨hI', ih b (hp.2 b) _ h₂⟩

lemma keeps_of_only {J : σ → Prop} {P : τ → Prop} {Q : χ → Prop} {R : γ → Prop} {pid : Nat} {i : ι}
    {p : Prog σ τ ρ χ β γ} (hp : p.Only J P Q R) (hJ : ∀ s h, I s h → J s)
    (htx : ∀ t w s h, P t → I s h → G s h (.commit pid i t (S.run t w s).1) →
      I (S.run t w s).2 (h ++ [.commit pid i t (S.run t w s).1]))
    (hcall : ∀ q b s h, Q q → S.fits q b = true → I s h → G s h (.call pid i q b) →
      I s (h ++ [.call pid i q b])) (h : List (Ev ι τ ρ χ β α)) :
    S.Keeps G I pid i (fun _ => R) p h :=
  (keeps_carrying (C := fun _ => True) hp (fun s h hI _ => hJ s h hI) (fun _ _ _ h => h)
    (fun t w s h ht hI _ hG => ⟨htx t w s h ht hI hG, trivial⟩)
    (fun q b s h hq hf hI _ hG => ⟨hcall q b s h hq hf hI hG, trivial⟩) h trivial).weaken (fun _ _ h => h.2)

/-- An invariant of the store and the history that every transaction the handlers may run keeps
in the runs whose events meet `G`. -/
theorem store_invariantWhen {J : σ → Prop} {P : ι → τ → Prop} {s : σ} {c : Conf ι σ τ ρ χ β α}
    (hS : ∀ i, (S.handler i).Only J (P i) (fun _ => True) (fun _ => True)) (h₀ : I s [])
    (hJ : ∀ s h, I s h → J s) (henv : ∀ s h e, I s h → I (S.env e s) h)
    (hquiet : ∀ s h ev, (∀ pid i t r, ev ≠ .commit pid i t r) → I s h → I s (h ++ [ev]))
    (htx : ∀ s h pid i t w, P i t → I s h → G s h (.commit pid i t (S.run t w s).1) →
      I (S.run t w s).2 (h ++ [.commit pid i t (S.run t w s).1]))
    (hc : S.ReachableWhen G (init s) c) : I c.store c.trace := by
  have hP : Protocol S G I (fun _ _ _ _ => True) := by
    refine ⟨henv, fun s h i hI _ _ => ⟨hquiet s h _ (by simp) hI, ?_⟩, fun s h pid i a hI _ _ => ?_⟩
    · exact keeps_of_only (hS i) hJ (fun t w s h hP hI hG => htx s h _ i t w hP hI hG)
        (fun q b s h _ _ hI _ => hquiet s h _ (by simp) hI) _
    · exact hquiet s h _ (by simp) hI
  exact (hP.invariant h₀ hc).1

/-- An invariant that every transaction the handlers may run keeps in every run. -/
theorem store_invariant {J : σ → Prop} {P : ι → τ → Prop} {s : σ} {c : Conf ι σ τ ρ χ β α}
    (hS : ∀ i, (S.handler i).Only J (P i) (fun _ => True) (fun _ => True)) (h₀ : I s [])
    (hJ : ∀ s h, I s h → J s) (henv : ∀ s h e, I s h → I (S.env e s) h)
    (hquiet : ∀ s h ev, (∀ pid i t r, ev ≠ .commit pid i t r) → I s h → I s (h ++ [ev]))
    (htx : ∀ s h pid i t w, P i t → I s h → I (S.run t w s).2 (h ++ [.commit pid i t (S.run t w s).1]))
    (hc : S.Reachable (init s) c) : I c.store c.trace :=
  store_invariantWhen hS h₀ hJ henv hquiet (fun s h pid i t w hP hI _ => htx s h pid i t w hP hI) hc

/-- What every transaction does to the store, from one configuration to a later one. -/
theorem ReachableWhen.store_related {R : σ → σ → Prop} {c c' : Conf ι σ τ ρ χ β α} (hc : S.ReachableWhen G c c')
    (hrefl : ∀ s, R s s) (htrans : ∀ s₁ s₂ s₃, R s₁ s₂ → R s₂ s₃ → R s₁ s₃) (henv : ∀ s e, R s (S.env e s))
    (htx : ∀ s h pid i t w, G s h (.commit pid i t (S.run t w s).1) → R s (S.run t w s).2) :
    R c.store c'.store := by
  induction hc with
  | refl => exact hrefl _
  | @tail c₁ c₂ _ hstep ih =>
    obtain ⟨a, hn, hG⟩ := hstep
    refine htrans _ _ _ ih ?_
    rcases next_cases hn with ⟨e, -, rfl⟩ | ⟨j, -, rfl⟩ | ⟨q, j, k, -, hp, rfl⟩ |
      ⟨q, ok, j, k, -, hp, rfl⟩ | ⟨q, w, j, t, k, -, hp, rfl⟩ | ⟨q, b, j, x, k, -, hp, hf, rfl⟩ |
      ⟨q, j, x, -, hp, rfl⟩
    · exact henv _ e
    · exact hrefl _
    · exact hrefl _
    · exact hrefl _
    · exact htx _ _ q j t w (hG _ rfl)
    · exact hrefl _
    · exact hrefl _

/-- What a handler may do, as facts about the history. -/
theorem events_of_only {J : σ → Prop} {P : ι → τ → Prop} {Q : ι → χ → Prop} {R : ι → α → Prop} {s : σ}
    {c : Conf ι σ τ ρ χ β α} (hS : ∀ i, (S.handler i).Only J (P i) (Q i) (R i)) (h₀ : J s)
    (henv : ∀ s e, J s → J (S.env e s)) (htx : ∀ s i t w, P i t → J s → J (S.run t w s).2)
    (hc : S.Reachable (init s) c) :
    J c.store ∧ (∀ pid i t r, .commit pid i t r ∈ c.trace → P i t) ∧
      (∀ pid i q b, .call pid i q b ∈ c.trace → Q i q) ∧ ∀ pid i a, .answer pid i a ∈ c.trace → R i a := by
  have hP : Protocol S (fun _ _ _ => True) (fun s h => J s ∧ (∀ pid i t r, .commit pid i t r ∈ h → P i t) ∧
      (∀ pid i q b, .call pid i q b ∈ h → Q i q) ∧ ∀ pid i a, .answer pid i a ∈ h → R i a)
      (fun _ i _ a => R i a) := by
    refine ⟨fun s h e hI => ⟨henv s e hI.1, hI.2⟩, fun s h i hI _ _ => ⟨?_, ?_⟩, fun s h pid i a hI _ hR => ?_⟩
    · simpa using hI
    · refine keeps_of_only (hS i) (fun _ _ hI => hI.1) (fun t w s h hp hI _ => ⟨htx s i t w hp hI.1, ?_⟩)
        (fun q b s h hq _ hI _ => ⟨hI.1, ?_⟩) _
      · refine ⟨fun pid j t' r hm => ?_, by simpa using hI.2.2.1, by simpa using hI.2.2.2⟩
        rcases List.mem_append.mp hm with hm | hm
        · exact hI.2.1 pid j t' r hm
        · cases List.mem_singleton.mp hm
          exact hp
      · refine ⟨by simpa using hI.2.1, fun pid j q' b' hm => ?_, by simpa using hI.2.2.2⟩
        rcases List.mem_append.mp hm with hm | hm
        · exact hI.2.2.1 pid j q' b' hm
        · cases List.mem_singleton.mp hm
          exact hq
    · refine ⟨hI.1, by simpa using hI.2.1, by simpa using hI.2.2.1, fun q j b hm => ?_⟩
      rcases List.mem_append.mp hm with hm | hm
      · exact hI.2.2.2 q j b hm
      · cases List.mem_singleton.mp hm
        exact hR
  exact (hP.invariant ⟨h₀, by simp, by simp, by simp⟩ hc).1

/-- A request that has arrived is in flight, or it has been answered and does nothing more. -/
theorem answered_of_none {s : σ} {c : Conf ι σ τ ρ χ β α} (hc : S.ReachableWhen G (init s) c) {pid : Nat} {i : ι}
    (ha : .arrive pid i ∈ c.trace) (hn : c.procs pid = none) :
    ∃ g i a, Later pid (g ++ [.answer pid i a]) c.trace := by
  induction hc with
  | refl => cases ha
  | @tail c c' _ hstep ih =>
    obtain ⟨a, hs, -⟩ := hstep
    have hkeep : ∀ (q : Nat) (v : Option (ι × Prog σ τ ρ χ β α)) (new : List (Ev ι τ ρ χ β α)),
        pid ≠ q → (∀ ev ∈ new, ev.pid = q) → Function.update c.procs q v pid = none →
        .arrive pid i ∈ c.trace ++ new → ∃ g i a, Later pid (g ++ [.answer pid i a]) (c.trace ++ new) := by
      intro q v new hne hnew hu hm
      rw [Function.update_of_ne hne] at hu
      have hm' : .arrive pid i ∈ c.trace := by
        rcases List.mem_append.mp hm with hm | hm
        · exact hm
        · exact absurd (hnew _ hm) hne
      obtain ⟨g, j, x, hl⟩ := ih hm' hu
      exact ⟨g, j, x, hl.trans ⟨new, rfl, fun ev he h => hne (h.symm.trans (hnew ev he))⟩⟩
    have hbusy : ∀ (q : Nat) (v : ι × Prog σ τ ρ χ β α), Function.update c.procs q (some v) pid = none → pid ≠ q := by
      intro q v hu he
      rw [he, Function.update_self] at hu
      cases hu
    rcases next_cases hs with ⟨e, -, rfl⟩ | ⟨j, -, rfl⟩ | ⟨q, j, k, -, hp, rfl⟩ |
      ⟨q, ok, j, k, -, hp, rfl⟩ | ⟨q, w, j, t, k, -, hp, rfl⟩ | ⟨q, b, j, x, k, -, hp, hf, rfl⟩ |
      ⟨q, j, x, -, hp, rfl⟩
    · exact ih ha hn
    · exact hkeep _ _ _ (hbusy _ _ hn) (by simp [Ev.pid]) hn ha
    · have hk := hkeep q _ [] (hbusy _ _ hn) (by simp) hn (by simpa using ha)
      rwa [List.append_nil] at hk
    · have hk := hkeep q _ [] (hbusy _ _ hn) (by simp) hn (by simpa using ha)
      rwa [List.append_nil] at hk
    · exact hkeep q _ _ (hbusy _ _ hn) (by simp [Ev.pid]) hn ha
    · exact hkeep q _ _ (hbusy _ _ hn) (by simp [Ev.pid]) hn ha
    · by_cases he : pid = q
      · subst he
        exact ⟨c.trace, j, x, .refl pid _⟩
      · exact hkeep q _ _ he (by simp [Ev.pid]) hn ha

/-- Whoever acts has arrived. -/
theorem arrived {s : σ} {c : Conf ι σ τ ρ χ β α} (hc : S.ReachableWhen G (init s) c) :
    (∀ pid i p, c.procs pid = some (i, p) → .arrive pid i ∈ c.trace) ∧
      ∀ ev ∈ c.trace, ∃ i, .arrive ev.pid i ∈ c.trace := by
  induction hc with
  | refl => exact ⟨fun pid i p hp => by simp [init] at hp, by simp [init]⟩
  | @tail c c' _ hstep ih =>
    obtain ⟨hprocs, hevs⟩ := ih
    obtain ⟨a, hs, -⟩ := hstep
    have hmove : ∀ (q : Nat) (j : ι) (v : Option (ι × Prog σ τ ρ χ β α)) (new : List (Ev ι τ ρ χ β α)),
        .arrive q j ∈ c.trace ++ new → (∀ ev ∈ new, ev.pid = q) → (∀ i p, v = some (i, p) → i = j) →
        (∀ pid i p, Function.update c.procs q v pid = some (i, p) → .arrive pid i ∈ c.trace ++ new) ∧
          ∀ ev ∈ c.trace ++ new, ∃ i, .arrive ev.pid i ∈ c.trace ++ new := by
      intro q j v new hq hnew hv
      refine ⟨forall_update (fun pid i p _ hp => List.mem_append_left _ (hprocs pid i p hp))
        (fun i p he => by rw [hv i p he]; exact hq), fun ev he => ?_⟩
      rcases List.mem_append.mp he with he | he
      · obtain ⟨i, hi⟩ := hevs ev he
        exact ⟨i, List.mem_append_left _ hi⟩
      · exact ⟨j, by rw [hnew ev he]; exact hq⟩
    rcases next_cases hs with ⟨e, -, rfl⟩ | ⟨j, -, rfl⟩ | ⟨q, j, k, -, hp, rfl⟩ |
      ⟨q, ok, j, k, -, hp, rfl⟩ | ⟨q, w, j, t, k, -, hp, rfl⟩ | ⟨q, b, j, x, k, -, hp, hf, rfl⟩ |
      ⟨q, j, x, -, hp, rfl⟩
    · exact ⟨hprocs, hevs⟩
    · exact hmove _ j _ _ (by simp) (by simp [Ev.pid]) (fun i p he => by cases he; rfl)
    · have hm := hmove q j (some (j, k c.store)) [] (by simpa using hprocs q j _ hp) (by simp)
        (fun i p he => by cases he; rfl)
      simpa using hm
    · have hm := hmove q j (some (j, k (if ok then some c.store else none))) []
        (by simpa using hprocs q j _ hp) (by simp) (fun i p he => by cases he; rfl)
      simpa using hm
    · exact hmove q j _ _ (List.mem_append_left _ (hprocs q j _ hp)) (by simp [Ev.pid])
        (fun i p he => by cases he; rfl)
    · exact hmove q j _ _ (List.mem_append_left _ (hprocs q j _ hp)) (by simp [Ev.pid])
        (fun i p he => by cases he; rfl)
    · exact hmove q j _ _ (List.mem_append_left _ (hprocs q j _ hp)) (by simp [Ev.pid])
        (fun i p he => by cases he)

end Rules

/-- Executes a schedule; `none` as soon as an action does not apply. -/
def exec (S : Site ι σ τ ρ χ β α ω ε) :
    Conf ι σ τ ρ χ β α → List (Act ι β ω ε) → Option (Conf ι σ τ ρ χ β α)
  | c, [] => some c
  | c, a :: rest => (S.next c a).bind (fun c' => S.exec c' rest)

lemma reachable_of_exec {S : Site ι σ τ ρ χ β α ω ε} {as : List (Act ι β ω ε)}
    {c c' : Conf ι σ τ ρ χ β α} (h : S.exec c as = some c') : S.Reachable c c' := by
  induction as generalizing c with
  | nil =>
    cases Option.some.inj h
    exact Relation.ReflTransGen.refl
  | cons a rest ih =>
    obtain ⟨c₁, h₁, h₂⟩ := Option.bind_eq_some_iff.mp h
    exact Relation.ReflTransGen.head ⟨a, h₁, fun _ _ => trivial⟩ (ih h₂)

/-- Executes a schedule whose events all meet the condition. -/
def execWhen (S : Site ι σ τ ρ χ β α ω ε) (G : σ → List (Ev ι τ ρ χ β α) → Ev ι τ ρ χ β α → Prop)
    [∀ s h ev, Decidable (G s h ev)] :
    Conf ι σ τ ρ χ β α → List (Act ι β ω ε) → Option (Conf ι σ τ ρ χ β α)
  | c, [] => some c
  | c, a :: rest =>
    (S.next c a).bind (fun c' =>
      if ∀ ev ∈ c'.trace.drop c.trace.length, G c.store c.trace ev then S.execWhen G c' rest else none)

lemma reachable_of_execWhen {S : Site ι σ τ ρ χ β α ω ε}
    {G : σ → List (Ev ι τ ρ χ β α) → Ev ι τ ρ χ β α → Prop} [∀ s h ev, Decidable (G s h ev)]
    {as : List (Act ι β ω ε)} {c c' : Conf ι σ τ ρ χ β α} (h : S.execWhen G c as = some c') :
    S.ReachableWhen G c c' := by
  induction as generalizing c with
  | nil =>
    cases Option.some.inj h
    exact Relation.ReflTransGen.refl
  | cons a rest ih =>
    obtain ⟨c₁, h₁, h₂⟩ := Option.bind_eq_some_iff.mp h
    split at h₂
    · rename_i hG
      exact Relation.ReflTransGen.head ⟨a, h₁, fun ev he => hG ev (by simp [he])⟩ (ih h₂)
    · cases h₂

end Site

end Lib
