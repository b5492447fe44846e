import Lulan.Lib.Concurrent

/-!
# Row locks

In `Lib.Site` a transaction takes effect in one step. Here a transaction that starts with
`SELECT … FOR UPDATE` takes the row's lock and reads the row, later evaluates its
remaining statements against what is committed by then, and only at its commit publishes
them and lets the row go; the transactions of other requests run in between. Whatever
this reaches, the atomic site reaches too: while the lock is held, nothing the
transaction has read can change.
-/

namespace Lib

/-- How the transactions of a site use row locks. `view` is what the lock on a row
protects; `plan` is computed from the row as it was locked and as it is read later, and
`finish` publishes a plan. -/
structure RowLocks {ι σ τ ρ χ β α ω ε : Type} (S : Site ι σ τ ρ χ β α ω ε) (κ ν π : Type) where
  key : τ → Option κ
  touches : τ → ω → σ → Option κ
  present : κ → σ → Bool
  view : κ → σ → ν
  plan : τ → ν → ν → π
  finish : τ → π → ω → σ → ρ × σ
  run_eq : ∀ t k w s, key t = some k → present k s = true →
    S.run t w s = finish t (plan t (view k s) (view k s)) w s
  touches_key : ∀ t k w s, key t = some k → touches t w s = some k
  frame : ∀ t k w s, present k s = true → touches t w s ≠ some k →
    present k (S.run t w s).2 = true ∧ view k (S.run t w s).2 = view k s
  env_frame : ∀ e k s, present k s = true → present k (S.env e s) = true ∧ view k (S.env e s) = view k s

/-- A handler between two of its own steps, or inside a transaction. -/
inductive Held (σ τ ρ χ β α κ ν π : Type) : Type where
  | idle (p : Prog σ τ ρ χ β α)
  | locked (t : τ) (row : κ) (v : ν) (k : ρ → Prog σ τ ρ χ β α)
  | planned (t : τ) (row : κ) (p : π) (k : ρ → Prog σ τ ρ χ β α)

/-- What is left of the handler once its transaction is seen as not yet begun. -/
def Held.prog {σ τ ρ χ β α κ ν π : Type} : Held σ τ ρ χ β α κ ν π → Prog σ τ ρ χ β α
  | .idle p => p
  | .locked t _ _ k => .tx t k
  | .planned t _ _ k => .tx t k

structure LockConf (ι σ τ ρ χ β α κ ν π : Type) where
  store : σ
  locks : κ → Option Nat
  procs : Nat → Option (ι × Held σ τ ρ χ β α κ ν π)
  trace : List (Ev ι τ ρ χ β α)

inductive LockAct (ι β ω ε : Type) : Type where
  | env (e : ε)
  | arrive (i : ι)
  | peek (pid : Nat)
  | read (pid : Nat) (ok : Bool)
  | short (pid : Nat) (w : ω)
  | lock (pid : Nat)
  | plan (pid : Nat)
  | commit (pid : Nat) (w : ω)
  | reply (pid : Nat) (b : β)
  | answer (pid : Nat)

namespace RowLocks

variable {ι σ τ ρ χ β α ω ε κ ν π : Type} {S : Site ι σ τ ρ χ β α ω ε}

def init (s : σ) : LockConf ι σ τ ρ χ β α κ ν π := ⟨s, fun _ => none, fun _ => none, []⟩

/-- One statement of the site under row locks. A `short` transaction runs from its first
statement to its commit without being interrupted; a row lock another transaction holds
makes it wait. -/
def next [DecidableEq κ] (L : RowLocks S κ ν π) (c : LockConf ι σ τ ρ χ β α κ ν π) :
    LockAct ι β ω ε → Option (LockConf ι σ τ ρ χ β α κ ν π)
  | .env e => some { c with store := S.env e c.store }
  | .arrive i => some { c with
      procs := Function.update c.procs c.trace.length (some (i, .idle (S.handler i))),
      trace := c.trace ++ [.arrive c.trace.length i] }
  | .peek pid =>
    match c.procs pid with
    | some (i, .idle (.peek k)) =>
      some { c with procs := Function.update c.procs pid (some (i, .idle (k c.store))) }
    | _ => none
  | .read pid ok =>
    match c.procs pid with
    | some (i, .idle (.read k)) =>
      some { c with
        procs := Function.update c.procs pid (some (i, .idle (k (if ok then some c.store else none)))) }
    | _ => none
  | .short pid w =>
    match c.procs pid with
    | some (i, .idle (.tx t k)) =>
      if ((L.touches t w c.store).bind c.locks).isNone then
        some { c with
          store := (S.run t w c.store).2,
          procs := Function.update c.procs pid (some (i, .idle (k (S.run t w c.store).1))),
          trace := c.trace ++ [.commit pid i t (S.run t w c.store).1] }
      else none
    | _ => none
  | .lock pid =>
    match c.procs pid with
    | some (i, .idle (.tx t k)) =>
      match L.key t with
      | some row =>
        if L.present row c.store && (c.locks row).isNone then
          some { c with
            locks := Function.update c.locks row (some pid),
            procs := Function.update c.procs pid (some (i, .locked t row (L.view row c.store) k)) }
        else none
      | none => none
    | _ => none
  | .plan pid =>
    match c.procs pid with
    | some (i, .locked t row v k) =>
      some { c with
        procs := Function.update c.procs pid
          (some (i, .planned t row (L.plan t v (L.view row c.store)) k)) }
    | _ => none
  | .commit pid w =>
    match c.procs pid with
    | some (i, .planned t row p k) =>
      some ⟨(L.finish t p w c.store).2,
        Function.update c.locks row none,
        Function.update c.procs pid (some (i, .idle (k (L.finish t p w c.store).1))),
        c.trace ++ [.commit pid i t (L.finish t p w c.store).1]⟩
    | _ => none
  | .reply pid b =>
    match c.procs pid with
    | some (i, .idle (.call q k)) =>
      if S.fits q b then some { c with
        procs := Function.update c.procs pid (some (i, .idle (k b))),
        trace := c.trace ++ [.call pid i q b] }
      else none
    | _ => none
  | .answer pid =>
    match c.procs pid with
    | some (i, .idle (.ret a)) => some { c with
        procs := Function.update c.procs pid none,
        trace := c.trace ++ [.answer pid i a] }
    | _ => none

def Step [DecidableEq κ] (L : RowLocks S κ ν π) (c c' : LockConf ι σ τ ρ χ β α κ ν π) : Prop :=
  ∃ a, L.next c a = some c'

def Reachable [DecidableEq κ] (L : RowLocks S κ ν π) :
    LockConf ι σ τ ρ χ β α κ ν π → LockConf ι σ τ ρ χ β α κ ν π → Prop :=
  Relation.ReflTransGen L.Step

/-- The steps of an interleaving whose events meet the condition `G` where they happen. -/
def StepWhen [DecidableEq κ] (L : RowLocks S κ ν π) (G : σ → List (Ev ι τ ρ χ β α) → Ev ι τ ρ χ β α → Prop)
    (c c' : LockConf ι σ τ ρ χ β α κ ν π) : Prop :=
  ∃ a, L.next c a = some c' ∧ ∀ ev, c'.trace = c.trace ++ [ev] → G c.store c.trace ev

def ReachableWhen [DecidableEq κ] (L : RowLocks S κ ν π)
    (G : σ → List (Ev ι τ ρ χ β α) → Ev ι τ ρ χ β α → Prop) :
    LockConf ι σ τ ρ χ β α κ ν π → LockConf ι σ τ ρ χ β α κ ν π → Prop :=
  Relation.ReflTransGen (L.StepWhen G)

/-- The configuration of the atomic site: transactions that have not committed have not begun. -/
def atomic (c : LockConf ι σ τ ρ χ β α κ ν π) : Conf ι σ τ ρ χ β α :=
  ⟨c.store, fun pid => (c.procs pid).map (fun q => (q.1, q.2.prog)), c.trace⟩

/-- What a transaction in progress has read is what is still committed. -/
def HeldOk (L : RowLocks S κ ν π) (c : LockConf ι σ τ ρ χ β α κ ν π) (pid : Nat) :
    Held σ τ ρ χ β α κ ν π → Prop
  | .idle _ => True
  | .locked t row v _ => L.key t = some row ∧ c.locks row = some pid ∧
      L.present row c.store = true ∧ v = L.view row c.store
  | .planned t row p _ => L.key t = some row ∧ c.locks row = some pid ∧
      L.present row c.store = true ∧ p = L.plan t (L.view row c.store) (L.view row c.store)

def LocksOk (L : RowLocks S κ ν π) (c : LockConf ι σ τ ρ χ β α κ ν π) : Prop :=
  ∀ pid i h, c.procs pid = some (i, h) → L.HeldOk c pid h

lemma atomic_mk (c : LockConf ι σ τ ρ χ β α κ ν π) (s : σ) (locks : κ → Option Nat) (pid : Nat)
    (v : Option (ι × Held σ τ ρ χ β α κ ν π)) (tr : List (Ev ι τ ρ χ β α)) :
    atomic ⟨s, locks, Function.update c.procs pid v, tr⟩ =
      ⟨s, Function.update (atomic c).procs pid (v.map (fun q => (q.1, q.2.prog))), tr⟩ := by
  unfold atomic
  congr 1
  funext q
  by_cases h : q = pid
  · subst h
    simp
  · simp [Function.update_of_ne h]

/-- A statement inside a transaction leaves the atomic configuration alone. -/
lemma atomic_same {c : LockConf ι σ τ ρ χ β α κ ν π} {pid : Nat} {i : ι}
    {h h' : Held σ τ ρ χ β α κ ν π} (locks : κ → Option Nat) (hp : c.procs pid = some (i, h))
    (he : h'.prog = h.prog) :
    atomic ⟨c.store, locks, Function.update c.procs pid (some (i, h')), c.trace⟩ = atomic c := by
  have hsome : (atomic c).procs pid = some (i, h'.prog) := by simp [atomic, hp, he]
  rw [atomic_mk, Option.map_some, ← hsome, Function.update_eq_self]
  rfl

/-- A held row is untouched as long as its lock is kept and its view does not change. -/
lemma heldOk_mono {L : RowLocks S κ ν π} {c c' : LockConf ι σ τ ρ χ β α κ ν π} {pid : Nat}
    {h : Held σ τ ρ χ β α κ ν π} (hh : L.HeldOk c pid h)
    (hkeep : ∀ row, c.locks row = some pid → L.present row c.store = true →
      c'.locks row = some pid ∧ L.present row c'.store = true ∧ L.view row c'.store = L.view row c.store) :
    L.HeldOk c' pid h := by
  cases h with
  | idle p => trivial
  | locked t row v k =>
    obtain ⟨hk, hl, hp, hv⟩ := hh
    obtain ⟨hl', hp', hv'⟩ := hkeep row hl hp
    exact ⟨hk, hl', hp', by rw [hv, hv']⟩
  | planned t row p k =>
    obtain ⟨hk, hl, hp, hv⟩ := hh
    obtain ⟨hl', hp', hv'⟩ := hkeep row hl hp
    exact ⟨hk, hl', hp', by rw [hv, hv']⟩

/-- When one process moves to `h'`, it suffices to look at the rows the others hold. -/
lemma locksOk_update {L : RowLocks S κ ν π} {c c' : LockConf ι σ τ ρ χ β α κ ν π} {pid : Nat}
    {v : Option (ι × Held σ τ ρ χ β α κ ν π)} (hc : L.LocksOk c)
    (hprocs : c'.procs = Function.update c.procs pid v)
    (hpid : ∀ i h, v = some (i, h) → L.HeldOk c' pid h)
    (hkeep : ∀ q row, q ≠ pid → c.locks row = some q → L.present row c.store = true →
      c'.locks row = some q ∧ L.present row c'.store = true ∧ L.view row c'.store = L.view row c.store) :
    L.LocksOk c' := by
  intro q i h hq
  rw [hprocs] at hq
  by_cases he : q = pid
  · subst he
    rw [Function.update_self] at hq
    exact hpid i h hq
  · rw [Function.update_of_ne he] at hq
    exact heldOk_mono (hc q i h hq) (fun row hl hp => hkeep q row he hl hp)

/-- Each statement either is invisible to the atomic site or is one of its steps. -/
theorem step_refines [DecidableEq κ] (L : RowLocks S κ ν π) {c c' : LockConf ι σ τ ρ χ β α κ ν π}
    {a : LockAct ι β ω ε} (hc : L.LocksOk c) (h : L.next c a = some c') :
    L.LocksOk c' ∧ (atomic c' = atomic c ∨ ∃ b, S.next (atomic c) b = some (atomic c')) := by
  cases a with
  | env e =>
    cases Option.some.inj h
    refine ⟨fun pid i hd hp => heldOk_mono (hc pid i hd hp) (fun row hl hpr => ?_), .inr ⟨.env e, rfl⟩⟩
    exact ⟨hl, L.env_frame e row c.store hpr⟩
  | arrive i =>
    cases Option.some.inj h
    refine ⟨locksOk_update hc rfl ?_ (fun _ _ _ hl hpr => ⟨hl, hpr, rfl⟩), .inr ⟨.arrive i, ?_⟩⟩
    · intro i' h' he
      cases he
      trivial
    · simp only [Site.next]
      rw [atomic_mk]
      rfl
  | peek pid =>
    simp only [next] at h
    split at h
    · rename_i i k hp
      cases Option.some.inj h
      refine ⟨locksOk_update hc rfl ?_ (fun _ _ _ hl hpr => ⟨hl, hpr, rfl⟩), .inr ⟨.peek pid, ?_⟩⟩
      · intro i' h' he
        cases he
        trivial
      · have hsome : (atomic c).procs pid = some (i, .peek k) := by simp [atomic, hp, Held.prog]
        simp only [Site.next, hsome]
        rw [atomic_mk]
        rfl
    · cases h
  | read pid ok =>
    simp only [next] at h
    split at h
    · rename_i i k hp
      cases Option.some.inj h
      refine ⟨locksOk_update hc rfl ?_ (fun _ _ _ hl hpr => ⟨hl, hpr, rfl⟩), .inr ⟨.read pid ok, ?_⟩⟩
      · intro i' h' he
        cases he
        trivial
      · have hsome : (atomic c).procs pid = some (i, .read k) := by simp [atomic, hp, Held.prog]
        simp only [Site.next, hsome]
        rw [atomic_mk]
        rfl
    · cases h
  | short pid w =>
    simp only [next] at h
    split at h
    · rename_i i t k hp
      split at h
      · rename_i hfree
        cases Option.some.inj h
        refine ⟨locksOk_update hc rfl ?_ ?_, .inr ⟨.commit pid w, ?_⟩⟩
        · intro i' h' he
          cases he
          trivial
        · intro q row _ hl hpr
          refine ⟨hl, L.frame t row w c.store hpr (fun ht => ?_)⟩
          simp [ht, hl] at hfree
        · have hsome : (atomic c).procs pid = some (i, .tx t k) := by simp [atomic, hp, Held.prog]
          simp only [Site.next, hsome]
          rw [atomic_mk]
          rfl
      · cases h
    · cases h
  | lock pid =>
    simp only [next] at h
    split at h
    · rename_i i t k hp
      split at h
      · rename_i row hkey
        split at h
        · rename_i hfree
          obtain ⟨hpr, hnone⟩ := Bool.and_eq_true_iff.mp hfree
          cases Option.some.inj h
          refine ⟨locksOk_update hc rfl ?_ ?_, .inl ?_⟩
          · intro i' h' he
            cases he
            exact ⟨hkey, Function.update_self .., hpr, rfl⟩
          · intro q row' _ hl hpr'
            have hne : row' ≠ row := by
              rintro rfl
              simp [hl] at hnone
            exact ⟨by simp only [Function.update_of_ne hne, hl], hpr', rfl⟩
          · exact atomic_same _ hp rfl
        · cases h
      · cases h
    · cases h
  | plan pid =>
    simp only [next] at h
    split at h
    · rename_i i t row v k hp
      cases Option.some.inj h
      obtain ⟨hk, hl, hpr, hv⟩ := hc pid i _ hp
      refine ⟨locksOk_update hc rfl ?_ (fun _ _ _ hl hpr => ⟨hl, hpr, rfl⟩), .inl ?_⟩
      · intro i' h' he
        cases he
        exact ⟨hk, hl, hpr, by rw [hv]⟩
      · exact atomic_same _ hp rfl
    · cases h
  | commit pid w =>
    simp only [next] at h
    split at h
    · rename_i i t row p k hp
      cases Option.some.inj h
      obtain ⟨hk, hl, hpr, hv⟩ := hc pid i _ hp
      have hrun : S.run t w c.store = L.finish t p w c.store := by
        rw [hv]
        exact L.run_eq t row w c.store hk hpr
      refine ⟨locksOk_update hc rfl ?_ ?_, .inr ⟨.commit pid w, ?_⟩⟩
      · intro i' h' he
        cases he
        trivial
      · intro q row' hq hl' hpr'
        have hne : row' ≠ row := by
          rintro rfl
          exact hq (Option.some.inj (hl'.symm.trans hl))
        refine ⟨by simp only [Function.update_of_ne hne, hl'], ?_⟩
        rw [← hrun]
        exact L.frame t row' w c.store hpr' (by rw [L.touches_key t row w c.store hk]; simpa using hne.symm)
      · have hsome : (atomic c).procs pid = some (i, .tx t k) := by simp [atomic, hp, Held.prog]
        have hrun' : S.run t w (atomic c).store = L.finish t p w c.store := hrun
        simp only [Site.next, hsome, hrun']
        rw [atomic_mk]
        rfl
    · cases h
  | reply pid b =>
    simp only [next] at h
    split at h
    · rename_i i q k hp
      split at h
      · rename_i hf
        cases Option.some.inj h
        refine ⟨locksOk_update hc rfl ?_ (fun _ _ _ hl hpr => ⟨hl, hpr, rfl⟩), .inr ⟨.reply pid b, ?_⟩⟩
        · intro i' h' he
          cases he
          trivial
        · have hsome : (atomic c).procs pid = some (i, .call q k) := by simp [atomic, hp, Held.prog]
          simp only [Site.next, hsome, hf, if_true]
          rw [atomic_mk]
          rfl
      · cases h
    · cases h
  | answer pid =>
    simp only [next] at h
    split at h
    · rename_i i x hp
      cases Option.some.inj h
      refine ⟨locksOk_update hc rfl ?_ (fun _ _ _ hl hpr => ⟨hl, hpr, rfl⟩), .inr ⟨.answer pid, ?_⟩⟩
      · intro i' h' he
        cases he
      · have hsome : (atomic c).procs pid = some (i, .ret x) := by simp [atomic, hp, Held.prog]
        simp only [Site.next, hsome]
        rw [atomic_mk]
        rfl
    · cases h

/-- From any configuration whose transactions in progress read what is still committed. -/
lemma locksOk_reachableWhen [DecidableEq κ] (L : RowLocks S κ ν π)
    {G : σ → List (Ev ι τ ρ χ β α) → Ev ι τ ρ χ β α → Prop} {c c' : LockConf ι σ τ ρ χ β α κ ν π}
    (hc : L.LocksOk c) (h : L.ReachableWhen G c c') :
    L.LocksOk c' ∧ S.ReachableWhen G (atomic c) (atomic c') := by
  induction h with
  | refl => exact ⟨hc, Relation.ReflTransGen.refl⟩
  | tail _ hstep ih =>
    obtain ⟨a, ha, hG⟩ := hstep
    obtain ⟨hok, he | ⟨b, hb⟩⟩ := L.step_refines ih.1 ha
    · exact ⟨hok, he ▸ ih.2⟩
    · exact ⟨hok, Relation.ReflTransGen.tail ih.2 ⟨b, hb, hG⟩⟩

lemma locksOk_init (L : RowLocks S κ ν π) (s : σ) : L.LocksOk (init s) :=
  fun _ _ _ hp => by simp [init] at hp

/-- Row locks make transactions atomic: every interleaving of statements reaches a store
and a history that the atomic site reaches, with events that meet the same condition. -/
theorem reachable_atomicWhen [DecidableEq κ] (L : RowLocks S κ ν π)
    {G : σ → List (Ev ι τ ρ χ β α) → Ev ι τ ρ χ β α → Prop} {s : σ} {c : LockConf ι σ τ ρ χ β α κ ν π}
    (h : L.ReachableWhen G (init s) c) : S.ReachableWhen G (Site.init s) (atomic c) :=
  (L.locksOk_reachableWhen (L.locksOk_init s) h).2

/-- The rest of a run refines the rest of an atomic run. -/
theorem reachable_atomicWhen_rest [DecidableEq κ] (L : RowLocks S κ ν π)
    {G : σ → List (Ev ι τ ρ χ β α) → Ev ι τ ρ χ β α → Prop} {s : σ} {c c' : LockConf ι σ τ ρ χ β α κ ν π}
    (h : L.ReachableWhen G (init s) c) (h' : L.ReachableWhen G c c') :
    S.ReachableWhen G (atomic c) (atomic c') :=
  (L.locksOk_reachableWhen (L.locksOk_reachableWhen (L.locksOk_init s) h).1 h').2

lemma Reachable.reachableWhen [DecidableEq κ] {L : RowLocks S κ ν π} {c c' : LockConf ι σ τ ρ χ β α κ ν π}
    (h : L.Reachable c c') : L.ReachableWhen (fun _ _ _ => True) c c' :=
  Relation.ReflTransGen.mono (fun _ _ ⟨a, ha⟩ => ⟨a, ha, fun _ _ => trivial⟩) _ _ h

theorem reachable_atomic [DecidableEq κ] (L : RowLocks S κ ν π) {s : σ} {c : LockConf ι σ τ ρ χ β α κ ν π}
    (h : L.Reachable (init s) c) : S.Reachable (Site.init s) (atomic c) :=
  L.reachable_atomicWhen h.reachableWhen

lemma ReachableWhen.reachable [DecidableEq κ] {L : RowLocks S κ ν π}
    {G : σ → List (Ev ι τ ρ χ β α) → Ev ι τ ρ χ β α → Prop} {c c' : LockConf ι σ τ ρ χ β α κ ν π}
    (h : L.ReachableWhen G c c') : L.Reachable c c' :=
  Relation.ReflTransGen.mono (fun _ _ ⟨a, ha, _⟩ => ⟨a, ha⟩) _ _ h

/-- Executes a schedule of statements; `none` as soon as one does not apply. -/
def exec [DecidableEq κ] (L : RowLocks S κ ν π) :
    LockConf ι σ τ ρ χ β α κ ν π → List (LockAct ι β ω ε) → Option (LockConf ι σ τ ρ χ β α κ ν π)
  | c, [] => some c
  | c, a :: rest => (L.next c a).bind (fun c' => L.exec c' rest)

lemma reachable_of_exec [DecidableEq κ] {L : RowLocks S κ ν π} {as : List (LockAct ι β ω ε)}
    {c c' : LockConf ι σ τ ρ χ β α κ ν π} (h : L.exec c as = some c') : L.Reachable c c' := by
  induction as generalizing c with
  | nil =>
    cases Option.some.inj h
    exact Relation.ReflTransGen.refl
  | cons a rest ih =>
    obtain ⟨c₁, h₁, h₂⟩ := Option.bind_eq_some_iff.mp h
    exact Relation.ReflTransGen.head ⟨a, h₁⟩ (ih h₂)

/-- Executes a schedule whose events all meet the condition. -/
def execWhen [DecidableEq κ] (L : RowLocks S κ ν π) (G : σ → List (Ev ι τ ρ χ β α) → Ev ι τ ρ χ β α → Prop)
    [∀ s h ev, Decidable (G s h ev)] :
    LockConf ι σ τ ρ χ β α κ ν π → List (LockAct ι β ω ε) → Option (LockConf ι σ τ ρ χ β α κ ν π)
  | c, [] => some c
  | c, a :: rest =>
    (L.next c a).bind (fun c' =>
      if ∀ ev ∈ c'.trace.drop c.trace.length, G c.store c.trace ev then L.execWhen G c' rest else none)

lemma reachable_of_execWhen [DecidableEq κ] {L : RowLocks S κ ν π}
    {G : σ → List (Ev ι τ ρ χ β α) → Ev ι τ ρ χ β α → Prop} [∀ s h ev, Decidable (G s h ev)]
    {as : List (LockAct ι β ω ε)} {c c' : LockConf ι σ τ ρ χ β α κ ν π} (h : L.execWhen G c as = some c') :
    L.ReachableWhen G c c' := by
  induction as generalizing c with
  | nil =>
    cases Option.some.inj h
    exact Relation.ReflTransGen.refl
  | cons a rest ih =>
    obtain ⟨c₁, h₁, h₂⟩ := Option.bind_eq_some_iff.mp h
    split at h₂
    · rename_i hG
      exact Relation.ReflTransGen.head ⟨a, h₁, fun ev he => hG ev (by simp [he])⟩ (ih h₂)
    · cases h₂

end RowLocks

end Lib
