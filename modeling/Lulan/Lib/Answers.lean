import Lulan.Lib.Concurrent

/-!
# What handlers answer

Once a protocol keeps an invariant, further facts about the answers are proved on top of it: the
invariant holds of every store a handler meets, and need not be shown to be kept again.
-/

namespace Lib

/-- What the request of an event asks for. -/
def Ev.request {ι τ ρ χ β α : Type} : Ev ι τ ρ χ β α → ι
  | .arrive _ i | .commit _ i _ _ | .call _ i _ _ | .answer _ i _ => i

namespace Site

variable {ι σ τ ρ χ β α γ δ ω ε : Type} {S : Site ι σ τ ρ χ β α ω ε}
  {G : σ → List (Ev ι τ ρ χ β α) → Ev ι τ ρ χ β α → Prop} {I : σ → List (Ev ι τ ρ χ β α) → Prop}

/-- The rest of a handler, reached after history `h`, returns only what satisfies `R`, as long as
`I` holds of every store it meets and `G` of every event it causes. -/
def Shows (S : Site ι σ τ ρ χ β α ω ε) (G : σ → List (Ev ι τ ρ χ β α) → Ev ι τ ρ χ β α → Prop)
    (I : σ → List (Ev ι τ ρ χ β α) → Prop) (pid : Nat) (i : ι)
    (R : List (Ev ι τ ρ χ β α) → γ → Prop) : Prog σ τ ρ χ β γ → List (Ev ι τ ρ χ β α) → Prop
  | .ret a, h => ∀ h', Later pid h h' → R h' a
  | .peek k, h => ∀ s h', Later pid h h' → I s h' → S.Shows G I pid i R (k s) h'
  | .read k, h => ∀ s h', Later pid h h' → I s h' →
      S.Shows G I pid i R (k none) h' ∧ S.Shows G I pid i R (k (some s)) h'
  | .tx t k, h => ∀ w s h', Later pid h h' → I s h' → G s h' (.commit pid i t (S.run t w s).1) →
      S.Shows G I pid i R (k (S.run t w s).1) (h' ++ [.commit pid i t (S.run t w s).1])
  | .call q k, h => ∀ b h', Later pid h h' → S.Shows G I pid i R (k b) (h' ++ [.call pid i q b])

section Rules

variable {pid : Nat} {i : ι} {h h' : List (Ev ι τ ρ χ β α)}

lemma Shows.mono {R : List (Ev ι τ ρ χ β α) → γ → Prop} {p : Prog σ τ ρ χ β γ} (hp : S.Shows G I pid i R p h)
    (hh : Later pid h h') : S.Shows G I pid i R p h' := by
  cases p with
  | ret a => exact fun g hg => hp g (hh.trans hg)
  | peek k => exact fun s g hg => hp s g (hh.trans hg)
  | read k => exact fun s g hg => hp s g (hh.trans hg)
  | tx t k => exact fun w s g hg => hp w s g (hh.trans hg)
  | call q k => exact fun b g hg => hp b g (hh.trans hg)

/-- Sequencing: what the first part returns is where the second part starts. -/
lemma shows_bind {R : List (Ev ι τ ρ χ β α) → γ → Prop} {R' : List (Ev ι τ ρ χ β α) → δ → Prop}
    {p : Prog σ τ ρ χ β γ} {f : γ → Prog σ τ ρ χ β δ} (hp : S.Shows G I pid i R p h)
    (hf : ∀ a g, R g a → S.Shows G I pid i R' (f a) g) : S.Shows G I pid i R' (p.bind f) h := by
  induction p generalizing h with
  | ret a => exact hf a h (hp h (.refl pid h))
  | peek k ih => exact fun s g hg hI => ih s (hp s g hg hI)
  | read k ih => exact fun s g hg hI => ⟨ih none (hp s g hg hI).1, ih (some s) (hp s g hg hI).2⟩
  | tx t k ih => exact fun w s g hg hI hG => ih _ (hp w s g hg hI hG)
  | call q k ih => exact fun b g hg => ih b (hp b g hg)

/-- Sequencing of programs that stop with an error. -/
lemma shows_seq {ξ : Type} {R : List (Ev ι τ ρ χ β α) → Except ξ γ → Prop}
    {R' : List (Ev ι τ ρ χ β α) → Except ξ δ → Prop} {x : ExceptT ξ (Prog σ τ ρ χ β) γ}
    {f : γ → ExceptT ξ (Prog σ τ ρ χ β) δ} (hx : S.Shows G I pid i R x h)
    (hok : ∀ a g, R g (.ok a) → S.Shows G I pid i R' (f a) g)
    (herr : ∀ e g, R g (.error e) → ∀ g', Later pid g g' → R' g' (.error e)) :
    S.Shows G I pid i R' (x >>= f : ExceptT ξ (Prog σ τ ρ χ β) δ) h := by
  refine shows_bind (f := ExceptT.bindCont f) hx (fun r g hr => ?_)
  cases r with
  | ok a => exact hok a g hr
  | error e => exact herr e g hr

lemma Shows.weaken {R R' : List (Ev ι τ ρ χ β α) → γ → Prop} {p : Prog σ τ ρ χ β γ}
    (hp : S.Shows G I pid i R p h) (hR : ∀ g a, R g a → R' g a) : S.Shows G I pid i R' p h := by
  induction p generalizing h with
  | ret a => exact fun g hg => hR g a (hp g hg)
  | peek k ih => exact fun s g hg hI => ih s (hp s g hg hI)
  | read k ih => exact fun s g hg hI => ⟨ih none (hp s g hg hI).1, ih (some s) (hp s g hg hI).2⟩
  | tx t k ih => exact fun w s g hg hI hG => ih _ (hp w s g hg hI hG)
  | call q k ih => exact fun b g hg => ih b (hp b g hg)

/-- A program only adds to the history. -/
lemma shows_extending {p : Prog σ τ ρ χ β γ} {h₀ : List (Ev ι τ ρ χ β α)} (h₁ : h₀ <+: h) :
    S.Shows G I pid i (fun g _ => h₀ <+: g) p h := by
  induction p generalizing h with
  | ret a => exact fun g hg => h₁.trans hg.extends
  | peek k ih => exact fun s g hg _ => ih s (h₁.trans hg.extends)
  | read k ih => exact fun s g hg _ => ⟨ih none (h₁.trans hg.extends), ih (some s) (h₁.trans hg.extends)⟩
  | tx t k ih => exact fun w s g hg _ _ => ih _ ((h₁.trans hg.extends).trans (List.prefix_append _ _))
  | call q k ih => exact fun b g hg => ih b ((h₁.trans hg.extends).trans (List.prefix_append _ _))

lemma Shows.and {R R' : List (Ev ι τ ρ χ β α) → γ → Prop} {p : Prog σ τ ρ χ β γ}
    (hp : S.Shows G I pid i R p h) (hp' : S.Shows G I pid i R' p h) :
    S.Shows G I pid i (fun g a => R g a ∧ R' g a) p h := by
  induction p generalizing h with
  | ret a => exact fun g hg => ⟨hp g hg, hp' g hg⟩
  | peek k ih => exact fun s g hg hI => ih s (hp s g hg hI) (hp' s g hg hI)
  | read k ih =>
    intro s g hg hI
    obtain ⟨hnone, hsome⟩ := hp s g hg hI
    obtain ⟨hnone', hsome'⟩ := hp' s g hg hI
    exact ⟨ih none hnone hnone', ih (some s) hsome hsome'⟩
  | tx t k ih => exact fun w s g hg hI hG => ih _ (hp w s g hg hI hG) (hp' w s g hg hI hG)
  | call q k ih => exact fun b g hg => ih b (hp b g hg) (hp' b g hg)

lemma Keeps.shows {R R' : List (Ev ι τ ρ χ β α) → γ → Prop} {p : Prog σ τ ρ χ β γ}
    (hp : S.Keeps G I pid i R p h) (hs : S.Shows G I pid i R' p h) :
    S.Keeps G I pid i (fun g a => R g a ∧ R' g a) p h := by
  induction p generalizing h with
  | ret a => exact fun g hg => ⟨hp g hg, hs g hg⟩
  | peek k ih => exact fun s g hg hI => ih s (hp s g hg hI) (hs s g hg hI)
  | read k ih =>
    intro s g hg hI
    obtain ⟨hnone, hsome⟩ := hp s g hg hI
    exact ⟨ih none hnone (hs s g hg hI).1, ih (some s) hsome (hs s g hg hI).2⟩
  | tx t k ih =>
    intro w s g hg hI hG
    obtain ⟨hI', hk⟩ := hp w s g hg hI hG
    exact ⟨hI', ih _ hk (hs w s g hg hI hG)⟩
  | call q k ih =>
    intro b s g hf hg hI hG
    obtain ⟨hI', hk⟩ := hp b s g hf hg hI hG
    exact ⟨hI', ih b hk (hs b g hg)⟩

end Rules

/-- What the handlers show, on top of a protocol, is true of every answer. -/
theorem Protocol.shows {R R' : Nat → ι → List (Ev ι τ ρ χ β α) → α → Prop} (hP : Protocol S G I R)
    (hs : ∀ s h i, I s h → (∀ ev ∈ h, ev.pid < h.length) →
      S.Shows G I h.length i (R' h.length i) (S.handler i) (h ++ [.arrive h.length i])) :
    Protocol S G I (fun pid i h a => R pid i h a ∧ R' pid i h a) where
  env := hP.env
  arrive s h i hI hpids hG := by
    obtain ⟨hI', hk⟩ := hP.arrive s h i hI hpids hG
    exact ⟨hI', hk.shows (hs s h i hI hpids)⟩
  answer s h pid i a hI hG hR := hP.answer s h pid i a hI hG hR.1

/-- A request is what stands at the place of its arrival: its events all belong to it. -/
theorem arrival_at {s : σ} {c : Conf ι σ τ ρ χ β α} (hc : S.ReachableWhen G (init s) c) :
    (∀ pid i p, c.procs pid = some (i, p) → c.trace[pid]? = some (.arrive pid i)) ∧
      ∀ ev ∈ c.trace, c.trace[ev.pid]? = some (.arrive ev.pid ev.request) := by
  induction hc with
  | refl => exact ⟨fun pid i p hp => by simp [init] at hp, by simp [init]⟩
  | @tail c c' _ hstep ih =>
    obtain ⟨hprocs, hevs⟩ := ih
    obtain ⟨a, hs, -⟩ := hstep
    have hstays {n : Nat} {x : Ev ι τ ρ χ β α} (new : List (Ev ι τ ρ χ β α)) (hx : c.trace[n]? = some x) :
        (c.trace ++ new)[n]? = some x := by
      rw [List.getElem?_append_left (List.getElem?_eq_some_iff.mp hx).1, hx]
    have hmove : ∀ (q : Nat) (j : ι) (v : Option (ι × Prog σ τ ρ χ β α)) (new : List (Ev ι τ ρ χ β α)),
        (c.trace ++ new)[q]? = some (.arrive q j) → (∀ ev ∈ new, ev.pid = q ∧ ev.request = j) →
        (∀ i p, v = some (i, p) → i = j) →
        (∀ pid i p, Function.update c.procs q v pid = some (i, p) → (c.trace ++ new)[pid]? = some
          (.arrive pid i)) ∧
          ∀ ev ∈ c.trace ++ new, (c.trace ++ new)[ev.pid]? = some (.arrive ev.pid ev.request) := by
      intro q j v new hq hnew hv
      refine ⟨forall_update (fun pid i p _ hp => hstays new (hprocs pid i p hp))
        (fun i p he => by rw [hv i p he]; exact hq), fun ev he => ?_⟩
      rcases List.mem_append.mp he with he | he
      · exact hstays new (hevs ev he)
      · rw [(hnew ev he).1, (hnew ev he).2, hq]
    rcases next_cases hs with ⟨e, -, rfl⟩ | ⟨j, -, rfl⟩ | ⟨q, j, k, -, hp, rfl⟩ |
      ⟨q, ok, j, k, -, hp, rfl⟩ | ⟨q, w, j, t, k, -, hp, rfl⟩ | ⟨q, b, j, x, k, -, hp, hf, rfl⟩ |
      ⟨q, j, x, -, hp, rfl⟩
    · exact ⟨hprocs, hevs⟩
    · exact hmove _ j _ _ List.getElem?_concat_length (by simp [Ev.pid, Ev.request])
        (fun i p he => by cases he; rfl)
    · have hm := hmove q j (some (j, k c.store)) [] (hstays [] (hprocs q j _ hp)) (by simp)
        (fun i p he => by cases he; rfl)
      simpa using hm
    · have hm := hmove q j (some (j, k (if ok then some c.store else none))) [] (hstays [] (hprocs q j _ hp))
        (by simp)
        (fun i p he => by cases he; rfl)
      simpa using hm
    · exact hmove q j _ _ (hstays _ (hprocs q j _ hp)) (by simp [Ev.pid, Ev.request])
        (fun i p he => by cases he; rfl)
    · exact hmove q j _ _ (hstays _ (hprocs q j _ hp)) (by simp [Ev.pid, Ev.request])
        (fun i p he => by cases he; rfl)
    · exact hmove q j _ _ (hstays _ (hprocs q j _ hp)) (by simp [Ev.pid, Ev.request])
        (fun i p he => by cases he)

lemma one_request {s : σ} {c : Conf ι σ τ ρ χ β α} (hc : S.ReachableWhen G (init s) c) {ev ev' : Ev ι τ ρ χ β α}
    (he : ev ∈ c.trace) (he' : ev' ∈ c.trace) (hpid : ev.pid = ev'.pid) : ev.request = ev'.request := by
  have h := (arrival_at hc).2 ev he
  rw [hpid, (arrival_at hc).2 ev' he'] at h
  injection Option.some.inj h with _ hi
  exact hi.symm

end Site

end Lib
