import Lulan.Lib.Table
import Mathlib.Logic.Function.Basic
import Mathlib.Logic.Relation

/-!
# Transactions under READ COMMITTED

Requests run statements on a keyed table. A statement sees what was committed when it
began and what its own transaction has written; an `UPDATE` or `SELECT … FOR UPDATE` then
goes through the rows it has seen, waits for the transaction that holds a row or skips it,
and looks again at the row as it is by then before it takes it. Other requests run between
any two rows. A request may work on two connections at once, and it may be lost at any
point with everything it has not committed.
-/

namespace Lib

namespace ReadCommitted

/-- The connections of a request: its transaction, and one from the pool beside it. -/
inductive Conn : Type where
  | main
  | side
deriving DecidableEq, Repr

/-- `UPDATE … SET set WHERE cond`; with the identity for `set` it is `SELECT … FOR UPDATE`.
`cond` may refer to the other rows the statement saw. -/
structure Change {α κ : Type} (key : α → κ) where
  cond : List α → α → Bool
  set : Assign key
  order : Option (List α → List α) := none
  skipLocked : Bool := false
  limit : Option Nat := none

/-- `INSERT … SELECT`; where a row is there already, `strict` fails and otherwise it is left. -/
structure Addition (α : Type) where
  rows : List α → List α
  strict : Bool

/-- Why a statement has failed. -/
inductive Failure : Type where
  | connection
  | duplicate
deriving DecidableEq, Repr

/-- What is left of a request, statement by statement. Where a statement fails, so does its
transaction. An update goes on with the rows it saw at first and with those it took. -/
inductive Script {α κ : Type} (key : α → κ) (β : Type) : Type where
  | ret (b : β)
  | select (d : Conn) (k : Except Failure (List α) → Script key β)
  | update (d : Conn) (u : Change key) (k : List α → Except Failure (List α) → Script key β)
  | insert (d : Conn) (n : Addition α) (k : Except Failure (List α) → Script key β)
  | commit (d : Conn) (k : Bool → Script key β)

variable {ι α κ β γ : Type} {key : α → κ}

namespace Script

def bind : Script key β → (β → Script key γ) → Script key γ
  | .ret b, f => f b
  | .select d k, f => .select d (fun o => (k o).bind f)
  | .update d u k, f => .update d u (fun seen o => (k seen o).bind f)
  | .insert d n k, f => .insert d n (fun o => (k o).bind f)
  | .commit d k, f => .commit d (fun o => (k o).bind f)

instance : Monad (Script key) where
  pure := ret
  bind := bind

/-- The statements by themselves. -/
def read (d : Conn) : ExceptT Failure (Script key) (List α) := .select d .ret

def change (d : Conn) (u : Change key) : ExceptT Failure (Script key) (List α) := .update d u (fun _ => .ret)

/-- `SELECT … FOR UPDATE` over a join: the rows seen at first, and those taken. -/
def lock (d : Conn) (u : Change key) : ExceptT Failure (Script key) (List α × List α) :=
  .update d u (fun seen o => .ret (o.map (fun done => (seen, done))))

def add (d : Conn) (n : Addition α) : ExceptT Failure (Script key) (List α) := .insert d n .ret

def publish (d : Conn) : ExceptT Failure (Script key) Unit :=
  .commit d (fun ok => .ret (if ok then .ok () else .error .connection))

/-- A program whose failure is its result. -/
def attempt {ε ε' : Type} (x : ExceptT ε (Script key) γ) : ExceptT ε' (Script key) (Except ε γ) :=
  Script.bind x (fun o => .ret (.ok o))

/-- An `INSERT` in a transaction of its own. -/
def execute (d : Conn) (n : Addition α) : ExceptT Failure (Script key) Unit := do
  let _ ← add d n
  publish d

@[simp] lemma pure_eq (b : β) : (pure b : Script key β) = ret b := rfl

@[simp] lemma ret_bind (b : β) (f : β → Script key γ) : (ret b >>= f) = f b := rfl

@[simp] lemma select_bind (d : Conn) (k : Except Failure (List α) → Script key β) (f : β → Script key γ) :
    (select d k >>= f) = select d (fun o => k o >>= f) := rfl

@[simp] lemma update_bind (d : Conn) (u : Change key) (k : List α → Except Failure (List α) → Script key β)
    (f : β → Script key γ) :
    (update d u k >>= f) = update d u (fun seen o => k seen o >>= f) := rfl

@[simp] lemma insert_bind (d : Conn) (n : Addition α) (k : Except Failure (List α) → Script key β)
    (f : β → Script key γ) :
    (insert d n k >>= f) = insert d n (fun o => k o >>= f) := rfl

@[simp] lemma commit_bind (d : Conn) (k : Bool → Script key β) (f : β → Script key γ) :
    (commit d k >>= f) = commit d (fun o => k o >>= f) := rfl

lemma bind_assoc {δ : Type} (p : Script key β) (f : β → Script key γ) (g : γ → Script key δ) :
    (p.bind f).bind g = p.bind (fun a => (f a).bind g) := by
  induction p with
  | ret a => rfl
  | select d k ih => exact congrArg (select d) (funext ih)
  | update d u k ih => exact congrArg (update d u) (funext (fun seen => funext (ih seen)))
  | insert d n k ih => exact congrArg (insert d n) (funext ih)
  | commit d k ih => exact congrArg (commit d) (funext ih)

lemma bind_ret (p : Script key β) : p.bind ret = p := by
  induction p with
  | ret a => rfl
  | select d k ih => exact congrArg (select d) (funext ih)
  | update d u k ih => exact congrArg (update d u) (funext (fun seen => funext (ih seen)))
  | insert d n k ih => exact congrArg (insert d n) (funext ih)
  | commit d k ih => exact congrArg (commit d) (funext ih)

end Script

/-- A request between two statements, or inside one. -/
inductive Work {α κ : Type} (key : α → κ) (β : Type) : Type where
  | ready (p : Script key β)
  | updating (d : Conn) (u : Change key) (cond : α → Bool) (pending : List κ) (done : List α)
      (k : Except Failure (List α) → Script key β)
  | inserting (d : Conn) (strict : Bool) (pending done : List α) (k : Except Failure (List α) → Script key β)

/-- The row versions each connection has written or locked, and what is left to do. -/
structure Session {α κ : Type} (key : α → κ) (β : Type) where
  own : Conn → Table key
  work : Work key β

inductive Kind : Type where
  | select
  | update
  | insert
deriving DecidableEq, Repr

/-- What can be seen of a step. -/
inductive Note {α κ : Type} (key : α → κ) (β : Type) : Type where
  | snap (d : Conn) (kind : Kind) (seen : List α)
  | took (d : Conn) (r : α)
  | commit (d : Conn) (rows : Table key)
  | answer (b : β)

inductive Move (κ : Type) : Type where
  | step
  | row (k : κ)
  | finish
  | fail
deriving DecidableEq

section Moves

variable [DecidableEq κ]

/-- The rows a change goes through, from those its statement saw. -/
def Change.visit (u : Change key) (seen : List α) : List κ :=
  ((u.order.getD id) (seen.filter (u.cond seen))).map key

/-- Whether the row `k` may be the next one: any of them, unless the statement orders them. -/
def Change.turn (u : Change key) (pending : List κ) (k : κ) : Bool :=
  if u.order.isSome then decide (pending.head? = some k) else decide (k ∈ pending)

def Change.over (u : Change key) (pending : List κ) (done : List α) : Bool :=
  pending.isEmpty || decide (u.limit = some done.length)

/-- One step of a request on the committed table `s`; `free d k` tells that no other
connection holds the row `k`. What it shows comes first; nothing is left after an answer. -/
def Session.move (s : Table key) (free : Conn → κ → Bool) :
    Session key β → Move κ → Option (Option (Note key β) × Option (Session key β))
  | ⟨_, .ready (.ret b)⟩, .step => some (some (.answer b), none)
  | ⟨own, .ready (.select d k)⟩, .step =>
    some (some (.snap d .select (s.merge (own d)).rows), some ⟨own, .ready (k (.ok (s.merge (own d)).rows))⟩)
  | ⟨own, .ready (.update d u k)⟩, .step =>
    some (some (.snap d .update (s.merge (own d)).rows),
      some ⟨own, .updating d u (u.cond (s.merge (own d)).rows) (u.visit (s.merge (own d)).rows) []
        (k (s.merge (own d)).rows)⟩)
  | ⟨own, .ready (.insert d n k)⟩, .step =>
    some (some (.snap d .insert (s.merge (own d)).rows),
      some ⟨own, .inserting d n.strict (n.rows (s.merge (own d)).rows) [] k⟩)
  | ⟨own, .ready (.commit d k)⟩, .step =>
    some (some (.commit d (own d)), some ⟨Function.update own d .empty, .ready (k true)⟩)
  | ⟨own, .updating d u cond pending done k⟩, .row j =>
    if u.turn pending j && !u.over pending done then
      if free d j then
        match ((s.merge (own d)).find? j).filter cond with
        | some r => some (some (.took d (u.set.set r)),
          some ⟨Function.update own d ((own d).put (u.set.set r)),
            .updating d u cond (pending.erase j) (done ++ [u.set.set r]) k⟩)
        | none => some (none, some ⟨own, .updating d u cond (pending.erase j) done k⟩)
      else if u.skipLocked then some (none, some ⟨own, .updating d u cond (pending.erase j) done k⟩)
      else none
    else none
  | ⟨own, .updating _ u _ pending done k⟩, .finish =>
    if u.over pending done then some (none, some ⟨own, .ready (k (.ok done))⟩) else none
  | ⟨own, .inserting d strict (r :: pending) done k⟩, .row j =>
    if j = key r then
      if (s.find? j).isNone && !free d j then none
      else if ((s.merge (own d)).find? j).isNone then
        some (some (.took d r),
          some ⟨Function.update own d ((own d).put r), .inserting d strict pending (done ++ [r]) k⟩)
      else if strict then some (none, some ⟨Function.update own d .empty, .ready (k (.error .duplicate))⟩)
      else some (none, some ⟨own, .inserting d strict pending done k⟩)
    else none
  | ⟨own, .inserting _ _ [] done k⟩, .finish => some (none, some ⟨own, .ready (k (.ok done))⟩)
  | ⟨own, .ready (.update d _ k)⟩, .fail =>
    some (none, some ⟨Function.update own d .empty, .ready (k [] (.error .connection))⟩)
  | ⟨own, .ready (.select d k)⟩, .fail
  | ⟨own, .ready (.insert d _ k)⟩, .fail
  | ⟨own, .updating d _ _ _ _ k⟩, .fail
  | ⟨own, .inserting d _ _ _ k⟩, .fail =>
    some (none, some ⟨Function.update own d .empty, .ready (k (.error .connection))⟩)
  | ⟨own, .ready (.commit d k)⟩, .fail => some (none, some ⟨Function.update own d .empty, .ready (k false)⟩)
  | _, _ => none

end Moves

/-- What an observer can record. -/
inductive Ev (ι : Type) {α κ : Type} (key : α → κ) (β : Type) : Type where
  | arrive (pid : Nat) (i : ι)
  | did (pid : Nat) (i : ι) (n : Note key β)

/-- Statements about the committed table and the history, and about an event that follows. -/
abbrev Inv (ι : Type) {α κ : Type} (key : α → κ) (β : Type) : Type := Table key → List (Ev ι key β) → Prop

abbrev Guard (ι : Type) {α κ : Type} (key : α → κ) (β : Type) : Type :=
  Table key → List (Ev ι key β) → Ev ι key β → Prop

/-- The request an event belongs to. -/
def Ev.pid : Ev ι key β → Nat
  | .arrive pid _ | .did pid _ _ => pid

/-- The committed table, the requests in flight and the history so far. A request is known
by the position of its arrival in the history. -/
structure Conf (ι : Type) {α κ : Type} (key : α → κ) (β : Type) where
  store : Table key
  procs : Nat → Option (ι × Session key β)
  trace : List (Ev ι key β)

inductive Act (ι κ : Type) : Type where
  | arrive (i : ι)
  | move (pid : Nat) (m : Move κ)
  | crash (pid : Nat)

def Session.init (p : Script key β) : Session key β := ⟨fun _ => .empty, .ready p⟩

def init (s : Table key) : Conf ι key β := ⟨s, fun _ => none, []⟩

section Steps

variable [DecidableEq κ]

/-- Only a commit changes the committed table. -/
def Note.store (s : Table key) : Note key β → Table key
  | .commit _ rows => s.merge rows
  | _ => s

def Ev.store (s : Table key) : Ev ι key β → Table key
  | .arrive _ _ => s
  | .did _ _ n => n.store s

@[simp] lemma Ev.store_commit (s : Table key) (pid : Nat) (i : ι) (d : Conn) (rows : Table key) :
    (Ev.did pid i (.commit d rows : Note key β)).store s = s.merge rows := rfl

/-- No row ever goes away. -/
lemma Ev.find?_store_ne_none {s : Table key} {k : κ} (ev : Ev ι key β) (hk : s.find? k ≠ none) :
    (ev.store s).find? k ≠ none := by
  cases ev with
  | arrive pid i => exact hk
  | did pid i n =>
    cases n with
    | commit d rows =>
      rw [store_commit, Table.find?_merge]
      cases rows.find? k with
      | none => exact hk
      | some r => simp
    | _ => exact hk

/-- Whether a connection of a request has written or locked the row `k`. -/
def Conf.holds (c : Conf ι key β) (pid : Nat) (d : Conn) (k : κ) : Bool :=
  match c.procs pid with
  | some (_, sess) => ((sess.own d).find? k).isSome
  | none => false

def Conf.free (c : Conf ι key β) (pid : Nat) (d : Conn) (k : κ) : Bool :=
  (List.range c.trace.length).all (fun q =>
    [Conn.main, .side].all (fun d' => decide (q = pid ∧ d' = d) || !c.holds q d' k))

/-- One step of the requests; `none` where the action does not apply, as for a row that
must be waited for. -/
def next (script : ι → Script key β) (c : Conf ι key β) : Act ι κ → Option (Conf ι key β)
  | .arrive i => some { c with
      procs := Function.update c.procs c.trace.length (some (i, .init (script i))),
      trace := c.trace ++ [.arrive c.trace.length i] }
  | .move pid m =>
    match c.procs pid with
    | some (i, sess) =>
      (sess.move c.store (c.free pid) m).map (fun o =>
        ⟨o.1.elim c.store (Note.store c.store),
          Function.update c.procs pid (o.2.map (fun sess' => (i, sess'))),
          c.trace ++ (o.1.map (Ev.did pid i)).toList⟩)
    | none => none
  | .crash pid => some { c with procs := Function.update c.procs pid none }

/-- The steps of an interleaving whose events meet the condition `G` where they happen. -/
def StepWhen (script : ι → Script key β) (G : Guard ι key β)
    (c c' : Conf ι key β) : Prop :=
  ∃ a, next script c a = some c' ∧ ∀ ev, c'.trace = c.trace ++ [ev] → G c.store c.trace ev

def ReachableWhen (script : ι → Script key β) (G : Guard ι key β) :
    Conf ι key β → Conf ι key β → Prop := Relation.ReflTransGen (StepWhen script G)

/-- Runs of any length under any interleaving. -/
def Reachable (script : ι → Script key β) : Conf ι key β → Conf ι key β → Prop :=
  ReachableWhen script (fun _ _ _ => True)

lemma next_cases {script : ι → Script key β} {c c' : Conf ι key β} {a : Act ι κ} (h : next script c a = some c') :
    (∃ i, a = .arrive i ∧ c' = { c with
      procs := Function.update c.procs c.trace.length (some (i, .init (script i))),
      trace := c.trace ++ [.arrive c.trace.length i] }) ∨
    (∃ pid m i sess note left, a = .move pid m ∧ c.procs pid = some (i, sess) ∧
      sess.move c.store (c.free pid) m = some (note, left) ∧
      c' = ⟨note.elim c.store (Note.store c.store),
        Function.update c.procs pid (left.map (fun sess' => (i, sess'))),
        c.trace ++ (note.map (Ev.did pid i)).toList⟩) ∨
    (∃ pid, a = .crash pid ∧ c' = { c with procs := Function.update c.procs pid none }) := by
  cases a with
  | arrive i =>
    left
    exact ⟨i, rfl, (Option.some.inj h).symm⟩
  | move pid m =>
    right; left
    simp only [next] at h
    split at h
    · rename_i i sess hp
      obtain ⟨⟨note, left⟩, hm, rfl⟩ := Option.map_eq_some_iff.mp h
      exact ⟨pid, m, i, sess, note, left, rfl, hp, hm, rfl⟩
    · cases h
  | crash pid =>
    right; right
    exact ⟨pid, rfl, (Option.some.inj h).symm⟩

/-- Requests are known by positions in the history. -/
lemma pids {script : ι → Script key β} {G : Guard ι key β} {s : Table key}
    {c : Conf ι key β} (hc : ReachableWhen script G (init s) c) :
    (∀ pid p, c.procs pid = some p → pid < c.trace.length) ∧ ∀ ev ∈ c.trace, ev.pid < c.trace.length := by
  induction hc with
  | refl => exact ⟨fun pid p hp => by simp [init] at hp, fun ev he => by simp [init] at he⟩
  | @tail c c' _ hstep ih =>
    obtain ⟨hprocs, hevs⟩ := ih
    obtain ⟨a, hn, -⟩ := hstep
    have hmove : ∀ (pid : Nat) (v : Option (ι × Session key β)) (new : List (Ev ι key β)),
        pid < (c.trace ++ new).length → (∀ ev ∈ new, ev.pid = pid) →
        (∀ q p, Function.update c.procs pid v q = some p → q < (c.trace ++ new).length) ∧
          ∀ ev ∈ c.trace ++ new, ev.pid < (c.trace ++ new).length := by
      intro pid v new hlt hnew
      refine ⟨fun q p hq => ?_, fun ev he => ?_⟩
      · by_cases hne : q = pid
        · exact hne ▸ hlt
        · rw [Function.update_of_ne hne] at hq
          have := hprocs q p hq
          rw [List.length_append]
          omega
      · rcases List.mem_append.mp he with he | he
        · have := hevs ev he
          rw [List.length_append]
          omega
        · rw [hnew ev he]
          exact hlt
    rcases next_cases hn with ⟨i, -, rfl⟩ | ⟨pid, m, i, sess, note, left, -, hp, hm, rfl⟩ | ⟨pid, -, rfl⟩
    · exact hmove _ _ _ (by simp) (by simp [Ev.pid])
    · refine hmove pid _ _ ?_ ?_
      · have := hprocs pid _ hp
        rw [List.length_append]
        omega
      · cases note <;> simp [Ev.pid]
    · refine ⟨fun q p hq => ?_, hevs⟩
      by_cases hne : q = pid
      · subst hne
        simp only [Function.update_self, reduceCtorEq] at hq
      · simp only [Function.update_of_ne hne] at hq
        exact hprocs q p hq

/-- A commit publishes what its connection has written. -/
lemma Session.move_commit {s : Table key} {free : Conn → κ → Bool} {sess : Session key β} {m : Move κ} {d : Conn}
    {rows : Table key} {left : Option (Session key β)}
    (h : sess.move s free m = some (some (.commit d rows), left)) : rows = sess.own d := by
  unfold Session.move at h
  repeat' split at h
  all_goals simp at h
  obtain ⟨⟨rfl, rfl⟩, -⟩ := h
  rfl

/-- What a step does to the rows its request holds. -/
lemma Session.move_own {s : Table key} {free : Conn → κ → Bool} {sess sess' : Session key β} {m : Move κ}
    {note : Option (Note key β)} (h : sess.move s free m = some (note, some sess')) :
    sess'.own = sess.own ∨ (∃ d, sess'.own = Function.update sess.own d .empty) ∨
      ∃ d r, free d (key r) = true ∧ sess'.own = Function.update sess.own d ((sess.own d).put r) := by
  unfold Session.move at h
  repeat' split at h
  all_goals simp only [reduceCtorEq, Option.some.injEq, Prod.mk.injEq, and_false] at h
  all_goals obtain ⟨-, rfl⟩ := h
  all_goals try exact .inl rfl
  all_goals try exact .inr (.inl ⟨_, rfl⟩)
  · rename_i d u cond pending done k j hturn hfree _ r hr
    obtain ⟨hmem, -⟩ := Option.filter_eq_some_iff.mp hr
    have hk : key (u.set.set r) = j := (u.set.key_set r).trans (Table.find?_key hmem)
    exact .inr (.inr ⟨d, u.set.set r, hk ▸ hfree, rfl⟩)
  · rename_i own d strict r pending done k j hj hwait hnone
    subst hj
    rw [Option.isNone_iff_eq_none, Table.find?_merge, Option.or_eq_none_iff] at hnone
    exact .inr (.inr ⟨d, r, by simpa [hnone.2] using hwait, rfl⟩)

/-- A connection comes to hold only rows that no other one holds. -/
lemma Session.move_holds {s : Table key} {free : Conn → κ → Bool} {sess sess' : Session key β} {m : Move κ}
    {note : Option (Note key β)} (h : sess.move s free m = some (note, some sess')) (d : Conn) (k : κ)
    (hk : (sess'.own d).find? k ≠ none) :
    (sess.own d).find? k ≠ none ∨ free d k = true ∧ ∀ d', d' ≠ d → sess'.own d' = sess.own d' := by
  rcases Session.move_own h with he | ⟨d', he⟩ | ⟨d', r, hfree, he⟩
  · left
    rwa [he] at hk
  · left
    rw [he] at hk
    by_cases hd : d = d'
    · subst hd
      simp at hk
    · rwa [Function.update_of_ne hd] at hk
  · rw [he] at hk
    by_cases hd : d = d'
    · subst hd
      rw [Function.update_self, Table.find?_put] at hk
      by_cases hr : key r = k
      · exact .inr ⟨hr ▸ hfree, fun d' hd' => by rw [he, Function.update_of_ne hd']⟩
      · rw [if_neg hr] at hk
        exact .inl hk
    · rw [Function.update_of_ne hd] at hk
      exact .inl hk

end Steps

section Rules

variable [DecidableEq κ] {script : ι → Script key β} {I : Inv ι key β}
  {G E : Guard ι key β}

/-- What another request may do while this one holds the rows in `own`: one step that keeps
to `E` and leaves the committed versions of those rows alone. -/
def Other (I : Inv ι key β) (E : Guard ι key β)
    (pid : Nat) (own : Conn → Table key) (x y : Table key × List (Ev ι key β)) : Prop :=
  ∃ ev : Ev ι key β, ev.pid ≠ pid ∧ I x.1 x.2 ∧ E x.1 x.2 ev ∧
    (∀ d k, (own d).find? k ≠ none → (ev.store x.1).find? k = x.1.find? k) ∧ y = (ev.store x.1, x.2 ++ [ev])

def Rely (I : Inv ι key β) (E : Guard ι key β)
    (pid : Nat) (own : Conn → Table key) (s : Table key) (h : List (Ev ι key β)) (s' : Table key)
    (h' : List (Ev ι key β)) : Prop := Relation.ReflTransGen (Other I E pid own) (s, h) (s', h')

/-- Whatever the other requests do, every event of this one keeps to `E`. -/
inductive Safe (I : Inv ι key β) (G E : Guard ι key β)
    (pid : Nat) (i : ι) : Session key β → Table key → List (Ev ι key β) → Prop
  | intro {sess s h}
    (shows : ∀ s' h' free m n left, Rely I E pid sess.own s h s' h' → I s' h' →
      sess.move s' free m = some (some n, left) → G s' h' (.did pid i n) → E s' h' (.did pid i n))
    (quiet : ∀ s' h' free m sess', Rely I E pid sess.own s h s' h' → I s' h' →
      sess.move s' free m = some (none, some sess') → Safe I G E pid i sess' s' h')
    (next : ∀ s' h' free m n sess', Rely I E pid sess.own s h s' h' → I s' h' →
      sess.move s' free m = some (some n, some sess') → G s' h' (.did pid i n) →
      Safe I G E pid i sess' (n.store s') (h' ++ [.did pid i n])) :
    Safe I G E pid i sess s h

lemma Safe.rely {pid : Nat} {i : ι} {sess : Session key β} {s s' : Table key} {h h' : List (Ev ι key β)}
    (hs : Safe I G E pid i sess s h) (hr : Rely I E pid sess.own s h s' h') : Safe I G E pid i sess s' h' := by
  cases hs with
  | intro shows quiet next =>
    exact .intro (fun _ _ free m n left h₁ => shows _ _ free m n left (hr.trans h₁))
      (fun _ _ free m sess' h₁ => quiet _ _ free m sess' (hr.trans h₁))
      (fun _ _ free m n sess' h₁ => next _ _ free m n sess' (hr.trans h₁))

/-- The requests keep to `E`, and `E` keeps `I`. -/
structure Protocol (script : ι → Script key β) (I : Inv ι key β)
    (G E : Guard ι key β) : Prop where
  step : ∀ s h ev, I s h → E s h ev → I (ev.store s) (h ++ [ev])
  arrive : ∀ s h i, I s h → G s h (.arrive h.length i) → E s h (.arrive h.length i)
  safe : ∀ s h i, I s (h ++ [.arrive h.length i]) → (∀ ev ∈ h, ev.pid ≠ h.length) →
    Safe I G E h.length i (.init (script i)) s (h ++ [.arrive h.length i])

/-- No two connections hold the same row. -/
def Exclusive (procs : Nat → Option (ι × Session key β)) : Prop :=
  ∀ q i sess d q' i' sess' d' k, procs q = some (i, sess) → procs q' = some (i', sess') →
    (sess.own d).find? k ≠ none → (sess'.own d').find? k ≠ none → q = q' ∧ d = d'

lemma holds_eq_true {c : Conf ι key β} {q : Nat} {d : Conn} {k : κ} :
    c.holds q d k = true ↔ ∃ i sess, c.procs q = some (i, sess) ∧ (sess.own d).find? k ≠ none := by
  unfold Conf.holds
  cases hp : c.procs q with
  | none => simp
  | some p =>
    obtain ⟨i, sess⟩ := p
    simp [Option.isSome_iff_ne_none]

lemma free_eq_true {c : Conf ι key β} {pid : Nat} {d : Conn} {k : κ} (h : c.free pid d k = true) {q : Nat} {i : ι}
    {sess : Session key β} {d' : Conn} (hq : q < c.trace.length) (hp : c.procs q = some (i, sess))
    (hk : (sess.own d').find? k ≠ none) : q = pid ∧ d' = d := by
  have hall := List.all_eq_true.mp (List.all_eq_true.mp h q (List.mem_range.mpr hq)) d' (by cases d' <;> simp)
  have hh : c.holds q d' k = true := holds_eq_true.mpr ⟨i, sess, hp, hk⟩
  simpa [hh] using hall

lemma exclusive_move {c : Conf ι key β} {pid : Nat} {i : ι} {sess : Session key β} {m : Move κ}
    {note : Option (Note key β)} {left : Option (Session key β)} (hx : Exclusive c.procs)
    (hlt : ∀ q i sess, c.procs q = some (i, sess) → q < c.trace.length) (hp : c.procs pid = some (i, sess))
    (hm : sess.move c.store (c.free pid) m = some (note, left)) :
    Exclusive (Function.update c.procs pid (left.map (fun sess' => (i, sess')))) := by
  have hown : ∀ j sess₁ d k, left.map (fun sess' => (i, sess')) = some (j, sess₁) → (sess₁.own d).find? k ≠ none →
      (sess.own d).find? k ≠ none ∨ c.free pid d k = true ∧ ∀ d', d' ≠ d → sess₁.own d' = sess.own d' := by
    intro j sess₁ d k he hk
    obtain ⟨sess', hl, hs⟩ := Option.map_eq_some_iff.mp he
    cases hs
    exact Session.move_holds (hl ▸ hm) d k hk
  -- what `pid` holds after the step, against what `q` held before it
  have hcross : ∀ j sess₁ d q i' sess' d' k, left.map (fun sess' => (i, sess')) = some (j, sess₁) →
      c.procs q = some (i', sess') → (sess₁.own d).find? k ≠ none → (sess'.own d').find? k ≠ none →
      pid = q ∧ d = d' := by
    intro j sess₁ d q i' sess' d' k he hq hk hk'
    rcases hown j sess₁ d k he hk with hold | ⟨hfree, -⟩
    · exact hx pid i sess d q i' sess' d' k hp hq hold hk'
    · obtain ⟨h₁, h₂⟩ := free_eq_true hfree (hlt q i' sess' hq) hq hk'
      exact ⟨h₁.symm, h₂.symm⟩
  intro q i₁ sess₁ d q' i₂ sess₂ d' k h₁ h₂ hk hk'
  by_cases hq : q = pid
  · by_cases hq' : q' = pid
    · subst hq hq'
      rw [Function.update_self] at h₁ h₂
      obtain ⟨-, rfl⟩ := Prod.mk.inj (Option.some.inj (h₁.symm.trans h₂))
      refine ⟨rfl, ?_⟩
      rcases hown _ _ d' k h₂ hk' with hold | ⟨-, hsame⟩
      · exact (hcross _ _ d q' i sess d' k h₁ hp hk hold).2
      · by_contra hne
        rw [hsame d hne] at hk
        exact hne (hcross _ _ d' q' i sess d k h₁ hp hk' hk).2.symm
    · subst hq
      rw [Function.update_self] at h₁
      rw [Function.update_of_ne hq'] at h₂
      exact hcross _ _ d q' _ _ d' k h₁ h₂ hk hk'
  · rw [Function.update_of_ne hq] at h₁
    by_cases hq' : q' = pid
    · subst hq'
      rw [Function.update_self] at h₂
      obtain ⟨he, hd⟩ := hcross _ _ d' q _ _ d k h₂ h₁ hk' hk
      exact ⟨he.symm, hd.symm⟩
    · rw [Function.update_of_ne hq'] at h₂
      exact hx q _ _ d q' _ _ d' k h₁ h₂ hk hk'

/-- What a request shows leaves the rows that the others hold alone. -/
lemma move_frame {c : Conf ι key β} {pid : Nat} {i : ι} {sess : Session key β} {m : Move κ} {n : Note key β}
    {left : Option (Session key β)} (hx : Exclusive c.procs) (hp : c.procs pid = some (i, sess))
    (hm : sess.move c.store (c.free pid) m = some (some n, left)) {q : Nat} {i' : ι} {sess' : Session key β}
    (hq : c.procs q = some (i', sess')) (hne : q ≠ pid) (d : Conn) (k : κ) (hk : (sess'.own d).find? k ≠ none) :
    (n.store c.store).find? k = c.store.find? k := by
  cases n with
  | commit d' rows =>
    rw [Session.move_commit hm, Note.store, Table.find?_merge]
    cases hf : (sess.own d').find? k with
    | none => rfl
    | some r =>
      have hsome : (sess.own d').find? k ≠ none := by simp [hf]
      exact absurd (hx q i' sess' d pid i sess d' k hq hp hk hsome).1 hne
  | _ => rfl

lemma Exclusive.update {procs : Nat → Option (ι × Session key β)} (hx : Exclusive procs) (pid : Nat)
    {v : Option (ι × Session key β)} (hv : ∀ i sess, v = some (i, sess) → ∀ d k, (sess.own d).find? k = none) :
    Exclusive (Function.update procs pid v) := by
  intro q i sess d q' i' sess' d' k h₁ h₂ hk hk'
  by_cases hq : q = pid
  · subst hq
    rw [Function.update_self] at h₁
    exact absurd (hv i sess h₁ d k) hk
  by_cases hq' : q' = pid
  · subst hq'
    rw [Function.update_self] at h₂
    exact absurd (hv i' sess' h₂ d' k) hk'
  rw [Function.update_of_ne hq] at h₁
  rw [Function.update_of_ne hq'] at h₂
  exact hx q i sess d q' i' sess' d' k h₁ h₂ hk hk'

/-- The invariant of every run whose events meet the condition. -/
theorem Protocol.invariant {s : Table key} {c : Conf ι key β} (hP : Protocol script I G E) (h₀ : I s [])
    (hc : ReachableWhen script G (init s) c) :
    I c.store c.trace ∧ Exclusive c.procs ∧
      ∀ pid i sess, c.procs pid = some (i, sess) → Safe I G E pid i sess c.store c.trace := by
  induction hc with
  | refl =>
    refine ⟨h₀, fun q i sess d q' i' sess' d' k hp => ?_, fun pid i sess hp => ?_⟩
    · simp [init] at hp
    · simp [init] at hp
  | @tail c c' hc hstep ih =>
    obtain ⟨hI, hx, hprocs⟩ := ih
    obtain ⟨a, hn, hG⟩ := hstep
    have hlt : ∀ q i sess, c.procs q = some (i, sess) → q < c.trace.length := fun q i sess hq => (pids hc).1 q _ hq
    rcases next_cases hn with ⟨i, -, rfl⟩ | ⟨pid, m, i, sess, note, left, -, hp, hm, rfl⟩ | ⟨pid, -, rfl⟩
    · have hE := hP.arrive _ _ i hI (hG _ rfl)
      have hI' := hP.step _ _ _ hI hE
      refine ⟨hI', hx.update _ (fun j sess he d k => by cases he; rfl), fun q j sess hq => ?_⟩
      by_cases hne : q = c.trace.length
      · subst hne
        simp only [Function.update_self, Option.some.injEq, Prod.mk.injEq] at hq
        obtain ⟨rfl, rfl⟩ := hq
        exact hP.safe _ _ i hI' (fun ev he => Nat.ne_of_lt ((pids hc).2 ev he))
      · simp only [Function.update_of_ne hne] at hq
        exact (hprocs q j sess hq).rely (.single ⟨.arrive _ i, Ne.symm hne, hI, hE, fun _ _ _ => rfl, rfl⟩)
    · refine ⟨?_, exclusive_move hx hlt hp hm, fun q j sess' hq => ?_⟩
      · cases note with
        | none => simpa using hI
        | some n =>
          obtain ⟨shows, -, -⟩ := hprocs pid i sess hp
          exact hP.step _ _ _ hI (shows _ _ _ m n left .refl hI hm (hG _ rfl))
      · by_cases hne : q = pid
        · subst hne
          simp only [Function.update_self] at hq
          obtain ⟨sess₁, rfl, he⟩ := Option.map_eq_some_iff.mp hq
          cases he
          cases note with
          | none =>
            obtain ⟨-, quiet, -⟩ := hprocs q i sess hp
            simpa using quiet _ _ _ m _ .refl hI hm
          | some n =>
            obtain ⟨-, -, next⟩ := hprocs q i sess hp
            exact next _ _ _ m n _ .refl hI hm (hG _ rfl)
        · simp only [Function.update_of_ne hne] at hq
          have hs := hprocs q j sess' hq
          cases note with
          | none => simpa using hs
          | some n =>
            obtain ⟨shows, -, -⟩ := hprocs pid i sess hp
            exact hs.rely (.single ⟨.did pid i n, Ne.symm hne, hI, shows _ _ _ m n left .refl hI hm (hG _ rfl),
              fun d k hk => move_frame hx hp hm hq hne d k hk, rfl⟩)
    · refine ⟨hI, hx.update _ (fun i sess he => nomatch he), fun q i sess hq => ?_⟩
      by_cases hne : q = pid
      · subst hne
        simp only [Function.update_self, reduceCtorEq] at hq
      · simp only [Function.update_of_ne hne] at hq
        exact hprocs q i sess hq

/-- Every event of a run met the condition and kept to `E` when it happened. -/
theorem Protocol.event {s : Table key} {c : Conf ι key β} (hP : Protocol script I G E) (h₀ : I s [])
    (hc : ReachableWhen script G (init s) c) {g : List (Ev ι key β)} {ev : Ev ι key β}
    (hg : g ++ [ev] <+: c.trace) : ∃ s', I s' g ∧ G s' g ev ∧ E s' g ev := by
  induction hc with
  | refl => simp [init] at hg
  | @tail c c' hc hstep ih =>
    obtain ⟨a, hn, hG⟩ := hstep
    have hlast : ∀ ev', c'.trace = c.trace ++ [ev'] → E c.store c.trace ev' →
        ∃ s', I s' g ∧ G s' g ev ∧ E s' g ev := by
      intro ev' he hE
      rw [he] at hg
      rcases List.prefix_concat_iff.mp hg with heq | hp
      · obtain ⟨rfl, hev⟩ := List.append_inj' heq rfl
        cases List.singleton_inj.mp hev
        exact ⟨c.store, (hP.invariant h₀ hc).1, hG _ he, hE⟩
      · exact ih hp
    rcases next_cases hn with ⟨i, -, rfl⟩ | ⟨pid, m, i, sess, note, left, -, hp, hm, rfl⟩ | ⟨pid, -, rfl⟩
    · exact hlast _ rfl (hP.arrive _ _ i (hP.invariant h₀ hc).1 (hG _ rfl))
    · cases note with
      | none => exact ih (by simpa using hg)
      | some n =>
        obtain ⟨shows, -, -⟩ := (hP.invariant h₀ hc).2.2 pid i sess hp
        exact hlast _ rfl (shows _ _ _ m n left .refl (hP.invariant h₀ hc).1 hm (hG _ rfl))
    · exact ih hg

/-- What every event keeps of the committed table holds from one moment of a run to a later one. -/
theorem Protocol.store_related {s : Table key} {c c' : Conf ι key β} {R : Table key → Table key → Prop}
    (hP : Protocol script I G E) (h₀ : I s []) (hrefl : ∀ t, R t t) (htrans : ∀ {t u v}, R t u → R u v → R t v)
    (hR : ∀ t h ev, I t h → E t h ev → R t (ev.store t)) (hc : ReachableWhen script G (init s) c)
    (hc' : ReachableWhen script G c c') : R c.store c'.store := by
  induction hc' with
  | refl => exact hrefl _
  | @tail c₁ c₂ hc₁ hstep ih =>
    obtain ⟨hI, -, hprocs⟩ := hP.invariant h₀ (hc.trans hc₁)
    obtain ⟨a, hn, hG⟩ := hstep
    rcases next_cases hn with ⟨i, -, rfl⟩ | ⟨pid, m, i, sess, note, left, -, hp, hm, rfl⟩ | ⟨pid, -, rfl⟩
    · exact ih
    · cases note with
      | none => exact ih
      | some n =>
        obtain ⟨shows, -, -⟩ := hprocs pid i sess hp
        exact htrans ih (hR _ _ _ hI (shows _ _ _ m n left .refl hI hm (hG _ rfl)))
    · exact ih

/-- What stays true while other requests run and this one holds the rows in `own`. -/
def Stable (I : Inv ι key β) (E : Guard ι key β)
    (pid : Nat) (own : Conn → Table key) (A : Inv ι key β) : Prop :=
  ∀ s h ev, ev.pid ≠ pid → I s h → E s h ev →
    (∀ d k, (own d).find? k ≠ none → (ev.store s).find? k = s.find? k) → A s h → A (ev.store s) (h ++ [ev])

lemma Stable.rely {pid : Nat} {own : Conn → Table key} {A : Inv ι key β}
    (hA : Stable I E pid own A) {s s' : Table key} {h h' : List (Ev ι key β)} (hr : Rely I E pid own s h s' h')
    (h₁ : A s h) : A s' h' := by
  have hall : ∀ y, Relation.ReflTransGen (Other I E pid own) (s, h) y → A y.1 y.2 := by
    intro y hy
    induction hy with
    | refl => exact h₁
    | tail _ ho ih =>
      obtain ⟨ev, hne, hI, hE, hown, rfl⟩ := ho
      exact hA _ _ ev hne hI hE hown ih
  exact hall _ hr

section Statements

variable {pid : Nat} {i : ι} {own : Conn → Table key} {A : Inv ι key β} {s : Table key}
  {h : List (Ev ι key β)}

lemma safe_ret {b : β} (h₁ : A s h) (hA : Stable I E pid own A)
    (hans : ∀ s h, A s h → I s h → G s h (.did pid i (.answer b)) → E s h (.did pid i (.answer b))) :
    Safe I G E pid i ⟨own, .ready (.ret b)⟩ s h := by
  refine .intro (fun s' h' free m n left hr hI hm hG => ?_) (fun s' h' free m sess' _ _ hm => ?_)
    (fun s' h' free m n sess' _ _ hm _ => ?_)
  · cases m <;> simp only [Session.move, reduceCtorEq, Option.some.injEq, Prod.mk.injEq] at hm
    obtain ⟨rfl, -⟩ := hm
    exact hans s' h' (hA.rely hr h₁) hI hG
  · cases m <;> simp [Session.move] at hm
  · cases m <;> simp [Session.move] at hm

lemma safe_select {d : Conn} {k : Except Failure (List α) → Script key β} (h₁ : A s h) (hA : Stable I E pid own A)
    (hsnap : ∀ s h, A s h → I s h → G s h (.did pid i (.snap d .select (s.merge (own d)).rows)) →
      E s h (.did pid i (.snap d .select (s.merge (own d)).rows)) ∧
      Safe I G E pid i ⟨own, .ready (k (.ok (s.merge (own d)).rows))⟩ s
        (h ++ [.did pid i (.snap d .select (s.merge (own d)).rows)]))
    (hfail : ∀ f s h, A s h → I s h →
      Safe I G E pid i ⟨Function.update own d .empty, .ready (k (.error f))⟩ s h) :
    Safe I G E pid i ⟨own, .ready (.select d k)⟩ s h := by
  refine .intro (fun s' h' free m n left hr hI hm hG => ?_) (fun s' h' free m sess' hr hI hm => ?_)
    (fun s' h' free m n sess' hr hI hm hG => ?_)
  · cases m <;> simp only [Session.move, reduceCtorEq, Option.some.injEq, Prod.mk.injEq, false_and] at hm
    obtain ⟨rfl, -⟩ := hm
    exact (hsnap s' h' (hA.rely hr h₁) hI hG).1
  · cases m <;> simp only [Session.move, reduceCtorEq, Option.some.injEq, Prod.mk.injEq, false_and, true_and] at hm
    subst hm
    exact hfail _ s' h' (hA.rely hr h₁) hI
  · cases m <;> simp only [Session.move, reduceCtorEq, Option.some.injEq, Prod.mk.injEq, false_and] at hm
    obtain ⟨rfl, rfl⟩ := hm
    exact (hsnap s' h' (hA.rely hr h₁) hI hG).2

lemma safe_commit {d : Conn} {k : Bool → Script key β} (h₁ : A s h) (hA : Stable I E pid own A)
    (hcommit : ∀ s h, A s h → I s h → G s h (.did pid i (.commit d (own d))) →
      E s h (.did pid i (.commit d (own d))) ∧
      Safe I G E pid i ⟨Function.update own d .empty, .ready (k true)⟩ (s.merge (own d))
        (h ++ [.did pid i (.commit d (own d))]))
    (hfail : ∀ s h, A s h → I s h → Safe I G E pid i ⟨Function.update own d .empty, .ready (k false)⟩ s h) :
    Safe I G E pid i ⟨own, .ready (.commit d k)⟩ s h := by
  refine .intro (fun s' h' free m n left hr hI hm hG => ?_) (fun s' h' free m sess' hr hI hm => ?_)
    (fun s' h' free m n sess' hr hI hm hG => ?_)
  · cases m <;> simp only [Session.move, reduceCtorEq, Option.some.injEq, Prod.mk.injEq, false_and] at hm
    obtain ⟨rfl, -⟩ := hm
    exact (hcommit s' h' (hA.rely hr h₁) hI hG).1
  · cases m <;> simp only [Session.move, reduceCtorEq, Option.some.injEq, Prod.mk.injEq, false_and, true_and] at hm
    subst hm
    exact hfail s' h' (hA.rely hr h₁) hI
  · cases m <;> simp only [Session.move, reduceCtorEq, Option.some.injEq, Prod.mk.injEq, false_and] at hm
    obtain ⟨rfl, rfl⟩ := hm
    exact (hcommit s' h' (hA.rely hr h₁) hI hG).2

lemma Change.mem_of_turn {u : Change key} {pending : List κ} {j : κ} (h : u.turn pending j = true) :
    j ∈ pending := by
  unfold Change.turn at h
  split at h
  · exact List.mem_of_head? (of_decide_eq_true h)
  · exact of_decide_eq_true h

/-- What can become of a change whose rows are being gone through. -/
lemma move_updating {free : Conn → κ → Bool} {d : Conn} {u : Change key} {cond : α → Bool} {pending : List κ}
    {done : List α} {k : Except Failure (List α) → Script key β} {m : Move κ} {note : Option (Note key β)}
    {left : Option (Session key β)}
    (hm : Session.move s free ⟨own, .updating d u cond pending done k⟩ m = some (note, left)) :
    (∃ j r, j ∈ pending ∧ (s.merge (own d)).find? j = some r ∧ cond r = true ∧
      note = some (.took d (u.set.set r)) ∧ left = some ⟨Function.update own d ((own d).put (u.set.set r)),
        .updating d u cond (pending.erase j) (done ++ [u.set.set r]) k⟩) ∨
    (∃ j, j ∈ pending ∧ (u.skipLocked = true ∨ ∀ r, (s.merge (own d)).find? j = some r → cond r = false) ∧
      note = none ∧ left = some ⟨own, .updating d u cond (pending.erase j) done k⟩) ∨
    (u.over pending done = true ∧ note = none ∧ left = some ⟨own, .ready (k (.ok done))⟩) ∨
    (∃ f, note = none ∧ left = some ⟨Function.update own d .empty, .ready (k (.error f))⟩) := by
  cases m with
  | step => cases hm
  | row j =>
    simp only [Session.move] at hm
    split at hm
    · rename_i hturn
      have hj := Change.mem_of_turn (Bool.and_eq_true_iff.mp hturn).1
      split at hm
      · split at hm
        · rename_i r hr
          obtain ⟨hf, hc⟩ := Option.filter_eq_some_iff.mp hr
          cases hm
          exact .inl ⟨j, r, hj, hf, hc, rfl, rfl⟩
        · rename_i hr
          cases hm
          exact .inr (.inl ⟨j, hj, .inr (fun r hf => by simpa [hf] using hr), rfl, rfl⟩)
      · split at hm
        · rename_i hskip
          cases hm
          exact .inr (.inl ⟨j, hj, .inl hskip, rfl, rfl⟩)
        · cases hm
    · cases hm
  | finish =>
    simp only [Session.move] at hm
    split at hm
    · rename_i hover
      cases hm
      exact .inr (.inr (.inl ⟨hover, rfl, rfl⟩))
    · cases hm
  | fail =>
    cases hm
    exact .inr (.inr (.inr ⟨_, rfl, rfl⟩))

/-- The rows of a change, one by one: `L` tells what is pending, what was taken and what the
connection holds by then. -/
lemma safe_updating {d : Conn} {u : Change key} {cond : α → Bool} {k : Except Failure (List α) → Script key β}
    (L : List κ → List α → Table key → Inv ι key β)
    (hL : ∀ pending done t, Stable I E pid (Function.update own d t) (L pending done t))
    (htook : ∀ pending done t s h j r, L pending done t s h → I s h → j ∈ pending →
      (s.merge t).find? j = some r → cond r = true → G s h (.did pid i (.took d (u.set.set r))) →
      E s h (.did pid i (.took d (u.set.set r))) ∧ L (pending.erase j) (done ++ [u.set.set r])
        (t.put (u.set.set r)) s (h ++ [.did pid i (.took d (u.set.set r))]))
    (hpass : ∀ pending done t s h j, L pending done t s h → I s h → j ∈ pending →
      (u.skipLocked = true ∨ ∀ r, (s.merge t).find? j = some r → cond r = false) → L (pending.erase j) done t s h)
    (hdone : ∀ pending done t s h, L pending done t s h → I s h → u.over pending done = true →
      Safe I G E pid i ⟨Function.update own d t, .ready (k (.ok done))⟩ s h)
    (hfail : ∀ f pending done t s h, L pending done t s h → I s h →
      Safe I G E pid i ⟨Function.update own d .empty, .ready (k (.error f))⟩ s h)
    {pending : List κ} {done : List α} {t : Table key} (h₁ : L pending done t s h) :
    Safe I G E pid i ⟨Function.update own d t, .updating d u cond pending done k⟩ s h := by
  induction hn : pending.length using Nat.strongRecOn generalizing pending done t s h with
  | _ n ih =>
    have hless : ∀ j ∈ pending, (pending.erase j).length < n := by
      intro j hj
      have hpos := List.length_pos_of_mem hj
      rw [List.length_erase_of_mem hj]
      omega
    refine .intro (fun s' h' free m n left hr hI hm hG => ?_) (fun s' h' free m sess' hr hI hm => ?_)
      (fun s' h' free m n sess' hr hI hm hG => ?_)
    all_goals
      have h₂ := (hL pending done t).rely hr h₁
      have hmove := move_updating hm
      simp only [Function.update_self, Function.update_idem] at hmove
    · rcases hmove with ⟨j, r, hj, hf, hc, hn', hl⟩ | ⟨j, hj, -, hn', -⟩ | ⟨-, hn', -⟩ | ⟨-, hn', -⟩
      · cases hn'
        exact (htook _ _ _ _ _ j r h₂ hI hj hf hc hG).1
      all_goals cases hn'
    · rcases hmove with ⟨j, r, hj, hf, hc, hn', hl⟩ | ⟨j, hj, hskip, -, hl⟩ | ⟨hover, -, hl⟩ | ⟨f, -, hl⟩
      · cases hn'
      · cases hl
        exact ih _ (hless j hj) (hpass _ _ _ _ _ j h₂ hI hj hskip) rfl
      · cases hl
        exact hdone _ _ _ _ _ h₂ hI hover
      · cases hl
        exact hfail _ _ _ _ _ _ h₂ hI
    · rcases hmove with ⟨j, r, hj, hf, hc, hn', hl⟩ | ⟨j, hj, -, hn', -⟩ | ⟨-, hn', -⟩ | ⟨-, hn', -⟩
      · cases hn'
        cases hl
        exact ih _ (hless j hj) (htook _ _ _ _ _ j r h₂ hI hj hf hc hG).2 rfl
      all_goals cases hn'

/-- An `UPDATE` or `SELECT … FOR UPDATE` from its snapshot on. -/
lemma safe_update {d : Conn} {u : Change key} {k : List α → Except Failure (List α) → Script key β}
    (L : List α → List κ → List α → Table key → Inv ι key β) (h₁ : A s h)
    (hA : Stable I E pid own A)
    (hL : ∀ seen pending done t, Stable I E pid (Function.update own d t) (L seen pending done t))
    (hsnap : ∀ s h, A s h → I s h → G s h (.did pid i (.snap d .update (s.merge (own d)).rows)) →
      E s h (.did pid i (.snap d .update (s.merge (own d)).rows)) ∧
      L (s.merge (own d)).rows (u.visit (s.merge (own d)).rows) [] (own d) s
        (h ++ [.did pid i (.snap d .update (s.merge (own d)).rows)]))
    (htook : ∀ seen pending done t s h j r, L seen pending done t s h → I s h → j ∈ pending →
      (s.merge t).find? j = some r → u.cond seen r = true → G s h (.did pid i (.took d (u.set.set r))) →
      E s h (.did pid i (.took d (u.set.set r))) ∧ L seen (pending.erase j) (done ++ [u.set.set r])
        (t.put (u.set.set r)) s (h ++ [.did pid i (.took d (u.set.set r))]))
    (hpass : ∀ seen pending done t s h j, L seen pending done t s h → I s h → j ∈ pending →
      (u.skipLocked = true ∨ ∀ r, (s.merge t).find? j = some r → u.cond seen r = false) →
      L seen (pending.erase j) done t s h)
    (hdone : ∀ seen pending done t s h, L seen pending done t s h → I s h → u.over pending done = true →
      Safe I G E pid i ⟨Function.update own d t, .ready (k seen (.ok done))⟩ s h)
    (hfail : ∀ seen f s h, I s h → (A s h ∨ ∃ pending done t, L seen pending done t s h) →
      Safe I G E pid i ⟨Function.update own d .empty, .ready (k seen (.error f))⟩ s h) :
    Safe I G E pid i ⟨own, .ready (.update d u k)⟩ s h := by
  have hnext : ∀ s h, A s h → I s h → G s h (.did pid i (.snap d .update (s.merge (own d)).rows)) →
      Safe I G E pid i ⟨own, .updating d u (u.cond (s.merge (own d)).rows) (u.visit (s.merge (own d)).rows) []
        (k (s.merge (own d)).rows)⟩ s (h ++ [.did pid i (.snap d .update (s.merge (own d)).rows)]) := by
    intro s h h₂ hI hG
    have hloop := safe_updating (L (s.merge (own d)).rows) (hL _) (htook _) (hpass _) (hdone _)
      (fun f pending done t s h hl hI => hfail _ f s h hI (.inr ⟨pending, done, t, hl⟩)) (hsnap s h h₂ hI hG).2
    rwa [Function.update_eq_self] at hloop
  refine .intro (fun s' h' free m n left hr hI hm hG => ?_) (fun s' h' free m sess' hr hI hm => ?_)
    (fun s' h' free m n sess' hr hI hm hG => ?_)
  · cases m <;> simp only [Session.move, reduceCtorEq, Option.some.injEq, Prod.mk.injEq, false_and] at hm
    obtain ⟨rfl, -⟩ := hm
    exact (hsnap s' h' (hA.rely hr h₁) hI hG).1
  · cases m <;> simp only [Session.move, reduceCtorEq, Option.some.injEq, Prod.mk.injEq, false_and, true_and] at hm
    subst hm
    exact hfail _ _ s' h' hI (.inl (hA.rely hr h₁))
  · cases m <;> simp only [Session.move, reduceCtorEq, Option.some.injEq, Prod.mk.injEq, false_and] at hm
    obtain ⟨rfl, rfl⟩ := hm
    exact hnext s' h' (hA.rely hr h₁) hI hG

/-- What can become of an insert whose rows are being gone through. -/
lemma move_inserting {free : Conn → κ → Bool} {d : Conn} {strict : Bool} {pending done : List α}
    {k : Except Failure (List α) → Script key β} {m : Move κ} {note : Option (Note key β)}
    {left : Option (Session key β)}
    (hm : Session.move s free ⟨own, .inserting d strict pending done k⟩ m = some (note, left)) :
    (∃ r rest, pending = r :: rest ∧ (s.merge (own d)).find? (key r) = none ∧ note = some (.took d r) ∧
      left = some ⟨Function.update own d ((own d).put r), .inserting d strict rest (done ++ [r]) k⟩) ∨
    (∃ r rest, pending = r :: rest ∧ strict = false ∧ (s.merge (own d)).find? (key r) ≠ none ∧ note = none ∧
      left = some ⟨own, .inserting d strict rest done k⟩) ∨
    (pending = [] ∧ note = none ∧ left = some ⟨own, .ready (k (.ok done))⟩) ∨
    (∃ f, note = none ∧ left = some ⟨Function.update own d .empty, .ready (k (.error f))⟩) := by
  cases m with
  | step => cases pending <;> cases hm
  | row j =>
    cases pending with
    | nil => cases hm
    | cons r rest =>
      simp only [Session.move] at hm
      split at hm
      · rename_i hj
        subst hj
        split at hm
        · cases hm
        · split at hm
          · rename_i hnone
            cases hm
            exact .inl ⟨r, rest, rfl, Option.isNone_iff_eq_none.mp hnone, rfl, rfl⟩
          · split at hm
            · cases hm
              exact .inr (.inr (.inr ⟨_, rfl, rfl⟩))
            · rename_i hsome hstrict
              cases hm
              have hthere := fun he => hsome (Option.isNone_iff_eq_none.mpr he)
              exact .inr (.inl ⟨r, rest, rfl, by simpa using hstrict, hthere, rfl, rfl⟩)
      · cases hm
  | finish =>
    cases pending with
    | nil =>
      cases hm
      exact .inr (.inr (.inl ⟨rfl, rfl, rfl⟩))
    | cons r rest => cases hm
  | fail =>
    right; right; right
    cases pending <;> cases hm <;> exact ⟨_, rfl, rfl⟩

/-- The rows of an insert, one by one. -/
lemma safe_inserting {d : Conn} {strict : Bool} {k : Except Failure (List α) → Script key β}
    (L : List α → List α → Table key → Inv ι key β)
    (hL : ∀ pending done t, Stable I E pid (Function.update own d t) (L pending done t))
    (htook : ∀ r pending done t s h, L (r :: pending) done t s h → I s h → (s.merge t).find? (key r) = none →
      G s h (.did pid i (.took d r)) →
      E s h (.did pid i (.took d r)) ∧ L pending (done ++ [r]) (t.put r) s (h ++ [.did pid i (.took d r)]))
    (hpass : ∀ r pending done t s h, strict = false → L (r :: pending) done t s h → I s h →
      (s.merge t).find? (key r) ≠ none → L pending done t s h)
    (hdone : ∀ done t s h, L [] done t s h → I s h →
      Safe I G E pid i ⟨Function.update own d t, .ready (k (.ok done))⟩ s h)
    (hfail : ∀ f pending done t s h, L pending done t s h → I s h →
      Safe I G E pid i ⟨Function.update own d .empty, .ready (k (.error f))⟩ s h)
    {pending done : List α} {t : Table key} (h₁ : L pending done t s h) :
    Safe I G E pid i ⟨Function.update own d t, .inserting d strict pending done k⟩ s h := by
  induction pending generalizing done t s h with
  | nil =>
    refine .intro (fun s' h' free m n left hr hI hm hG => ?_) (fun s' h' free m sess' hr hI hm => ?_)
      (fun s' h' free m n sess' hr hI hm hG => ?_)
    all_goals
      have h₂ := (hL [] done t).rely hr h₁
      have hmove := move_inserting hm
      simp only [Function.update_self, Function.update_idem] at hmove
    · rcases hmove with ⟨r, rest, he, -⟩ | ⟨r, rest, he, -⟩ | ⟨-, hn, -⟩ | ⟨-, hn, -⟩
      · cases he
      · cases he
      · cases hn
      · cases hn
    · rcases hmove with ⟨r, rest, he, -⟩ | ⟨r, rest, he, -⟩ | ⟨-, -, hl⟩ | ⟨f, -, hl⟩
      · cases he
      · cases he
      · cases hl
        exact hdone _ _ _ _ h₂ hI
      · cases hl
        exact hfail _ _ _ _ _ _ h₂ hI
    · rcases hmove with ⟨r, rest, he, -⟩ | ⟨r, rest, he, -⟩ | ⟨-, hn, -⟩ | ⟨-, hn, -⟩
      · cases he
      · cases he
      · cases hn
      · cases hn
  | cons r rest ih =>
    refine .intro (fun s' h' free m n left hr hI hm hG => ?_) (fun s' h' free m sess' hr hI hm => ?_)
      (fun s' h' free m n sess' hr hI hm hG => ?_)
    all_goals
      have h₂ := (hL (r :: rest) done t).rely hr h₁
      have hmove := move_inserting hm
      simp only [Function.update_self, Function.update_idem] at hmove
    · rcases hmove with ⟨r', rest', he, hnone, hn, -⟩ | ⟨r', rest', he, -, -, hn, -⟩ | ⟨he, -, -⟩ | ⟨-, hn, -⟩
      · cases he
        cases hn
        exact (htook _ _ _ _ _ _ h₂ hI hnone hG).1
      · cases hn
      · cases he
      · cases hn
    · rcases hmove with ⟨r', rest', he, -, hn, -⟩ | ⟨r', rest', he, hstrict, hsome, -, hl⟩ | ⟨he, -, -⟩ |
        ⟨f, -, hl⟩
      · cases hn
      · cases he
        cases hl
        exact ih (hpass _ _ _ _ _ _ hstrict h₂ hI hsome)
      · cases he
      · cases hl
        exact hfail _ _ _ _ _ _ h₂ hI
    · rcases hmove with ⟨r', rest', he, hnone, hn, hl⟩ | ⟨r', rest', he, -, -, hn, -⟩ | ⟨he, -, -⟩ | ⟨-, hn, -⟩
      · cases he
        cases hn
        cases hl
        exact ih (htook _ _ _ _ _ _ h₂ hI hnone hG).2
      · cases hn
      · cases he
      · cases hn

/-- An `INSERT` from its snapshot on. -/
lemma safe_insert {d : Conn} {n : Addition α} {k : Except Failure (List α) → Script key β}
    (L : List α → List α → List α → Table key → Inv ι key β) (h₁ : A s h)
    (hA : Stable I E pid own A)
    (hL : ∀ seen pending done t, Stable I E pid (Function.update own d t) (L seen pending done t))
    (hsnap : ∀ s h, A s h → I s h → G s h (.did pid i (.snap d .insert (s.merge (own d)).rows)) →
      E s h (.did pid i (.snap d .insert (s.merge (own d)).rows)) ∧
      L (s.merge (own d)).rows (n.rows (s.merge (own d)).rows) [] (own d) s
        (h ++ [.did pid i (.snap d .insert (s.merge (own d)).rows)]))
    (htook : ∀ seen r pending done t s h, L seen (r :: pending) done t s h → I s h →
      (s.merge t).find? (key r) = none → G s h (.did pid i (.took d r)) →
      E s h (.did pid i (.took d r)) ∧ L seen pending (done ++ [r]) (t.put r) s (h ++ [.did pid i (.took d r)]))
    (hpass : ∀ seen r pending done t s h, n.strict = false → L seen (r :: pending) done t s h → I s h →
      (s.merge t).find? (key r) ≠ none → L seen pending done t s h)
    (hdone : ∀ seen done t s h, L seen [] done t s h → I s h →
      Safe I G E pid i ⟨Function.update own d t, .ready (k (.ok done))⟩ s h)
    (hfail : ∀ f s h, I s h → (A s h ∨ ∃ seen pending done t, L seen pending done t s h) →
      Safe I G E pid i ⟨Function.update own d .empty, .ready (k (.error f))⟩ s h) :
    Safe I G E pid i ⟨own, .ready (.insert d n k)⟩ s h := by
  have hnext : ∀ s h, A s h → I s h → G s h (.did pid i (.snap d .insert (s.merge (own d)).rows)) →
      Safe I G E pid i ⟨own, .inserting d n.strict (n.rows (s.merge (own d)).rows) [] k⟩ s
        (h ++ [.did pid i (.snap d .insert (s.merge (own d)).rows)]) := by
    intro s h h₂ hI hG
    have hloop : Safe I G E pid i ⟨Function.update own d (own d),
        .inserting d n.strict (n.rows (s.merge (own d)).rows) [] k⟩ s _ :=
      safe_inserting (L (s.merge (own d)).rows) (hL _) (htook _) (hpass _) (hdone _)
        (fun f pending done t s h hl hI => hfail f s h hI (.inr ⟨_, pending, done, t, hl⟩)) (hsnap s h h₂ hI hG).2
    rwa [Function.update_eq_self] at hloop
  refine .intro (fun s' h' free m n left hr hI hm hG => ?_) (fun s' h' free m sess' hr hI hm => ?_)
    (fun s' h' free m n sess' hr hI hm hG => ?_)
  · cases m <;> simp only [Session.move, reduceCtorEq, Option.some.injEq, Prod.mk.injEq, false_and] at hm
    obtain ⟨rfl, -⟩ := hm
    exact (hsnap s' h' (hA.rely hr h₁) hI hG).1
  · cases m <;> simp only [Session.move, reduceCtorEq, Option.some.injEq, Prod.mk.injEq, false_and, true_and] at hm
    subst hm
    exact hfail _ s' h' hI (.inl (hA.rely hr h₁))
  · cases m <;> simp only [Session.move, reduceCtorEq, Option.some.injEq, Prod.mk.injEq, false_and] at hm
    obtain ⟨rfl, rfl⟩ := hm
    exact hnext s' h' (hA.rely hr h₁) hI hG

end Statements

/-- The weakest precondition of a program that may fail: whatever the request does after it
is safe from `Q` on, provided it is safe after every error. -/
def Wp (I : Inv ι key β) (G E : Guard ι key β) (pid : Nat) (i : ι) {ε : Type} (x : ExceptT ε (Script key) γ)
    (Q : γ → (Conn → Table key) → Inv ι key β) (own : Conn → Table key) : Inv ι key β := fun s h =>
  ∀ f : Except ε γ → Script key β,
    (∀ e own s h, Safe I G E pid i ⟨own, .ready (f (.error e))⟩ s h) →
    (∀ a own s h, Q a own s h → Safe I G E pid i ⟨own, .ready (f (.ok a))⟩ s h) →
    Safe I G E pid i ⟨own, .ready (Script.bind x f)⟩ s h

section Wp

variable {pid : Nat} {i : ι} {own : Conn → Table key} {s : Table key} {h : List (Ev ι key β)} {δ ε ε' : Type}

lemma wp_pure {a : γ} {Q : γ → (Conn → Table key) → Inv ι key β} (h₁ : Q a own s h) :
    Wp I G E pid i (pure a : ExceptT ε (Script key) γ) Q own s h :=
  fun _ _ hok => hok a own s h h₁

lemma wp_throw {e : ε} {Q : γ → (Conn → Table key) → Inv ι key β} :
    Wp I G E pid i (throw e : ExceptT ε (Script key) γ) Q own s h :=
  fun _ herr _ => herr e own s h

lemma wp_bind {x : ExceptT ε (Script key) δ} {g : δ → ExceptT ε (Script key) γ}
    {Q : γ → (Conn → Table key) → Inv ι key β} (hx : Wp I G E pid i x (fun a => Wp I G E pid i (g a) Q) own s h) :
    Wp I G E pid i (x >>= g) Q own s h := by
  intro f herr hok
  have hassoc : Script.bind (x >>= g : ExceptT ε (Script key) γ) f =
      Script.bind x (fun o => Script.bind (ExceptT.bindCont g o) f) := Script.bind_assoc _ _ _
  rw [hassoc]
  exact hx _ (fun e own s h => herr e own s h) (fun a own s h ha => ha f herr hok)

lemma wp_mono {x : ExceptT ε (Script key) γ} {Q Q' : γ → (Conn → Table key) → Inv ι key β}
    (hx : Wp I G E pid i x Q own s h) (hQ : ∀ a own s h, Q a own s h → Q' a own s h) :
    Wp I G E pid i x Q' own s h :=
  fun f herr hok => hx f herr (fun a own s h ha => hok a own s h (hQ a own s h ha))

lemma wp_adapt {x : ExceptT ε (Script key) γ} {e : ε → ε'} {Q : γ → (Conn → Table key) → Inv ι key β}
    (hx : Wp I G E pid i x Q own s h) : Wp I G E pid i (ExceptT.adapt e x) Q own s h := by
  intro f herr hok
  have hassoc : Script.bind (ExceptT.adapt e x) f = Script.bind x (fun o => f (o.mapError e)) :=
    Script.bind_assoc _ _ _
  rw [hassoc]
  exact hx _ (fun x own s h => herr (e x) own s h) (fun a own s h ha => hok a own s h ha)

lemma wp_map {x : ExceptT ε (Script key) δ} {g : δ → γ} {Q : γ → (Conn → Table key) → Inv ι key β}
    (hx : Wp I G E pid i x (fun a => Q (g a)) own s h) : Wp I G E pid i (g <$> x) Q own s h := by
  intro f herr hok
  change Safe I G E pid i ⟨own, .ready (Script.bind (Script.bind x _) f)⟩ s h
  rw [Script.bind_assoc]
  exact hx _ (fun e own s h => herr e own s h) (fun a own s h ha => hok (g a) own s h ha)

lemma wp_read {d : Conn} {A : Inv ι key β} {Q : List α → (Conn → Table key) → Inv ι key β} (h₁ : A s h)
    (hA : Stable I E pid own A)
    (hQ : ∀ s h, A s h → I s h → G s h (.did pid i (.snap d .select (s.merge (own d)).rows)) →
      E s h (.did pid i (.snap d .select (s.merge (own d)).rows)) ∧
      Q (s.merge (own d)).rows own s (h ++ [.did pid i (.snap d .select (s.merge (own d)).rows)])) :
    Wp I G E pid i (Script.read d) Q own s h := by
  intro f herr hok
  refine safe_select h₁ hA (fun s h hs hI hG => ?_) (fun x s h _ _ => herr x _ s h)
  obtain ⟨hE, hq⟩ := hQ s h hs hI hG
  exact ⟨hE, hok _ own s _ hq⟩

lemma wp_change {d : Conn} {u : Change key} {A : Inv ι key β} {Q : List α → (Conn → Table key) → Inv ι key β}
    (L : List α → List κ → List α → Table key → Inv ι key β) (h₁ : A s h) (hA : Stable I E pid own A)
    (hL : ∀ seen pending done t, Stable I E pid (Function.update own d t) (L seen pending done t))
    (hsnap : ∀ s h, A s h → I s h → G s h (.did pid i (.snap d .update (s.merge (own d)).rows)) →
      E s h (.did pid i (.snap d .update (s.merge (own d)).rows)) ∧
      L (s.merge (own d)).rows (u.visit (s.merge (own d)).rows) [] (own d) s
        (h ++ [.did pid i (.snap d .update (s.merge (own d)).rows)]))
    (htook : ∀ seen pending done t s h j r, L seen pending done t s h → I s h → j ∈ pending →
      (s.merge t).find? j = some r → u.cond seen r = true → G s h (.did pid i (.took d (u.set.set r))) →
      E s h (.did pid i (.took d (u.set.set r))) ∧ L seen (pending.erase j) (done ++ [u.set.set r])
        (t.put (u.set.set r)) s (h ++ [.did pid i (.took d (u.set.set r))]))
    (hpass : ∀ seen pending done t s h j, L seen pending done t s h → I s h → j ∈ pending →
      (u.skipLocked = true ∨ ∀ r, (s.merge t).find? j = some r → u.cond seen r = false) →
      L seen (pending.erase j) done t s h)
    (hdone : ∀ seen pending done t s h, L seen pending done t s h → I s h → u.over pending done = true →
      Q done (Function.update own d t) s h) :
    Wp I G E pid i (Script.change d u) Q own s h :=
  fun _ herr hok => safe_update L h₁ hA hL hsnap htook hpass
    (fun seen pending done t s h hl hI ho => hok done _ s h (hdone seen pending done t s h hl hI ho))
    (fun _ x s h _ _ => herr x _ s h)

/-- A change to the row under one key. -/
lemma wp_change_key {d : Conn} {u : Change key} {k₀ : κ} {A : Inv ι key β} {B : α → Inv ι key β}
    {Q : List α → (Conn → Table key) → Inv ι key β} (hu : ∀ seen r, u.cond seen r = decide (key r = k₀))
    (horder : u.order = none) (hskip : u.skipLocked = false) (hlimit : u.limit = none) (h₁ : A s h)
    (hA : Stable I E pid own A) (hB : ∀ r, key r = k₀ →
      Stable I E pid (Function.update own d ((own d).put (u.set.set r))) (B r))
    (hsnap : ∀ s h, A s h → I s h → G s h (.did pid i (.snap d .update (s.merge (own d)).rows)) →
      E s h (.did pid i (.snap d .update (s.merge (own d)).rows)) ∧
      A s (h ++ [.did pid i (.snap d .update (s.merge (own d)).rows)]))
    (htook : ∀ s h r, A s h → I s h → (s.merge (own d)).find? k₀ = some r →
      G s h (.did pid i (.took d (u.set.set r))) →
      E s h (.did pid i (.took d (u.set.set r))) ∧ B r s (h ++ [.did pid i (.took d (u.set.set r))]))
    (hdone : ∀ s h r, B r s h → I s h →
      Q [u.set.set r] (Function.update own d ((own d).put (u.set.set r))) s h)
    (hnone : ∀ s h, A s h → I s h → (own d).find? k₀ = none → Q [] own s h) :
    Wp I G E pid i (Script.change d u) Q own s h := by
  have hgone {s : Table key} (h : (s.merge (own d)).find? k₀ = none) : (own d).find? k₀ = none := by
    rw [Table.find?_merge] at h
    exact (Option.or_eq_none_iff.mp h).1
  refine wp_change (fun _ pending done t s h => (done = [] ∧ t = own d ∧ A s h ∧
      (pending = [k₀] ∨ pending = [] ∧ (own d).find? k₀ = none)) ∨
    ∃ r, key r = k₀ ∧ pending = [] ∧ done = [u.set.set r] ∧ t = (own d).put (u.set.set r) ∧ B r s h) h₁ hA
    (fun seen pending done t s h ev hne hI hE hf hl => ?_) (fun s h hs hI hG => ?_)
    (fun seen pending done t s h j r hl hI hj hr hc hG => ?_) (fun seen pending done t s h j hl hI hj hp => ?_)
    (fun seen pending done t s h hl hI ho => ?_)
  · rcases hl with ⟨hd, rfl, ha, hp⟩ | ⟨r, hk, hp, hd, rfl, hb⟩
    · rw [Function.update_eq_self] at hf
      exact .inl ⟨hd, rfl, hA s h ev hne hI hE hf ha, hp⟩
    · exact .inr ⟨r, hk, hp, hd, rfl, hB r hk s h ev hne hI hE hf hb⟩
  · obtain ⟨hE, ha⟩ := hsnap s h hs hI hG
    refine ⟨hE, .inl ⟨rfl, rfl, ha, ?_⟩⟩
    have hvisit : u.visit (s.merge (own d)).rows =
        ((s.merge (own d)).rows.filter (fun r => decide (key r = k₀))).map key := by
      simp only [Change.visit, horder, Option.getD_none, id_eq]
      congr 2
      exact funext (hu _)
    rw [hvisit]
    cases hfind : (s.merge (own d)).find? k₀ with
    | none =>
      refine .inr ⟨?_, hgone hfind⟩
      rw [List.filter_eq_nil_iff.mpr (fun r hr => by simpa using Table.find?_eq_none.mp hfind r hr), List.map_nil]
    | some r =>
      refine .inl ?_
      rw [Table.filter_key hfind, List.map_singleton, Table.find?_key hfind]
  · rcases hl with ⟨rfl, rfl, ha, hp⟩ | ⟨r', hk, rfl, -⟩
    · rcases hp with rfl | ⟨rfl, -⟩
      · cases List.mem_singleton.mp hj
        obtain ⟨hE, hb⟩ := htook s h r ha hI hr hG
        exact ⟨hE, .inr ⟨r, Table.find?_key hr, List.erase_cons_head _ _, rfl, rfl, hb⟩⟩
      · cases hj
    · cases hj
  · rcases hl with ⟨rfl, rfl, ha, hp⟩ | ⟨r', hk, rfl, -⟩
    · rcases hp with rfl | ⟨rfl, -⟩
      · cases List.mem_singleton.mp hj
        have hnot : (s.merge (own d)).find? k₀ = none := by
          rcases hp with hs | hs
          · rw [hskip] at hs
            cases hs
          by_contra hne
          obtain ⟨r, hr⟩ := Option.ne_none_iff_exists'.mp hne
          exact absurd (Table.find?_key hr) (of_decide_eq_false ((hu seen r).symm.trans (hs r hr)))
        exact .inl ⟨rfl, rfl, ha, .inr ⟨List.erase_cons_head _ _, hgone hnot⟩⟩
      · cases hj
    · cases hj
  · rcases hl with ⟨rfl, rfl, ha, hp⟩ | ⟨r, hk, rfl, rfl, rfl, hb⟩
    · rcases hp with rfl | ⟨-, hfree⟩
      · simp [Change.over, hlimit] at ho
      · rw [Function.update_eq_self]
        exact hnone s h ha hI hfree
    · exact hdone s h r hb hI

/-- `SELECT … FOR UPDATE` over a join. -/
lemma wp_lock {d : Conn} {u : Change key} {A : Inv ι key β} {Q : List α × List α → (Conn → Table key) → Inv ι key β}
    (L : List α → List κ → List α → Table key → Inv ι key β) (h₁ : A s h) (hA : Stable I E pid own A)
    (hL : ∀ seen pending done t, Stable I E pid (Function.update own d t) (L seen pending done t))
    (hsnap : ∀ s h, A s h → I s h → G s h (.did pid i (.snap d .update (s.merge (own d)).rows)) →
      E s h (.did pid i (.snap d .update (s.merge (own d)).rows)) ∧
      L (s.merge (own d)).rows (u.visit (s.merge (own d)).rows) [] (own d) s
        (h ++ [.did pid i (.snap d .update (s.merge (own d)).rows)]))
    (htook : ∀ seen pending done t s h j r, L seen pending done t s h → I s h → j ∈ pending →
      (s.merge t).find? j = some r → u.cond seen r = true → G s h (.did pid i (.took d (u.set.set r))) →
      E s h (.did pid i (.took d (u.set.set r))) ∧ L seen (pending.erase j) (done ++ [u.set.set r])
        (t.put (u.set.set r)) s (h ++ [.did pid i (.took d (u.set.set r))]))
    (hpass : ∀ seen pending done t s h j, L seen pending done t s h → I s h → j ∈ pending →
      (u.skipLocked = true ∨ ∀ r, (s.merge t).find? j = some r → u.cond seen r = false) →
      L seen (pending.erase j) done t s h)
    (hdone : ∀ seen pending done t s h, L seen pending done t s h → I s h → u.over pending done = true →
      Q (seen, done) (Function.update own d t) s h) :
    Wp I G E pid i (Script.lock d u) Q own s h :=
  fun _ herr hok => safe_update L h₁ hA hL hsnap htook hpass
    (fun seen pending done t s h hl hI ho => hok (seen, done) _ s h (hdone seen pending done t s h hl hI ho))
    (fun _ x s h _ _ => herr x _ s h)

lemma wp_add {d : Conn} {n : Addition α} {A : Inv ι key β} {Q : List α → (Conn → Table key) → Inv ι key β}
    (L : List α → List α → List α → Table key → Inv ι key β) (h₁ : A s h) (hA : Stable I E pid own A)
    (hL : ∀ seen pending done t, Stable I E pid (Function.update own d t) (L seen pending done t))
    (hsnap : ∀ s h, A s h → I s h → G s h (.did pid i (.snap d .insert (s.merge (own d)).rows)) →
      E s h (.did pid i (.snap d .insert (s.merge (own d)).rows)) ∧
      L (s.merge (own d)).rows (n.rows (s.merge (own d)).rows) [] (own d) s
        (h ++ [.did pid i (.snap d .insert (s.merge (own d)).rows)]))
    (htook : ∀ seen r pending done t s h, L seen (r :: pending) done t s h → I s h →
      (s.merge t).find? (key r) = none → G s h (.did pid i (.took d r)) →
      E s h (.did pid i (.took d r)) ∧ L seen pending (done ++ [r]) (t.put r) s (h ++ [.did pid i (.took d r)]))
    (hpass : ∀ seen r pending done t s h, n.strict = false → L seen (r :: pending) done t s h → I s h →
      (s.merge t).find? (key r) ≠ none → L seen pending done t s h)
    (hdone : ∀ seen done t s h, L seen [] done t s h → I s h → Q done (Function.update own d t) s h) :
    Wp I G E pid i (Script.add d n) Q own s h :=
  fun _ herr hok => safe_insert L h₁ hA hL hsnap htook hpass
    (fun seen done t s h hl hI => hok done _ s h (hdone seen done t s h hl hI)) (fun x s h _ _ => herr x _ s h)

/-- Rows that leave a property of what the connection has written alone. -/
lemma wp_add_keeps {d : Conn} {n : Addition α} {A : Inv ι key β} {T : Table key → Prop}
    {Q : List α → (Conn → Table key) → Inv ι key β} (hT : T (own d))
    (hput : ∀ seen t r, r ∈ n.rows seen → T t → T (t.put r)) (h₁ : A s h)
    (hA : ∀ t, T t → Stable I E pid (Function.update own d t) A)
    (hsnap : ∀ s h, A s h → I s h → G s h (.did pid i (.snap d .insert (s.merge (own d)).rows)) →
      E s h (.did pid i (.snap d .insert (s.merge (own d)).rows)) ∧
      A s (h ++ [.did pid i (.snap d .insert (s.merge (own d)).rows)]))
    (htook : ∀ s h r, A s h → I s h → G s h (.did pid i (.took d r)) →
      E s h (.did pid i (.took d r)) ∧ A s (h ++ [.did pid i (.took d r)]))
    (hdone : ∀ done t s h, T t → A s h → I s h → Q done (Function.update own d t) s h) :
    Wp I G E pid i (Script.add d n) Q own s h := by
  have hown : Stable I E pid own A := by
    have h := hA (own d) hT
    rwa [Function.update_eq_self] at h
  refine wp_add (fun _ pending _ t s h => (∃ seen, ∀ r ∈ pending, r ∈ n.rows seen) ∧ T t ∧ A s h) h₁ hown
    (fun seen pending done t s h ev hne hI hE hf hl => ?_) (fun s h hs hI hG => ?_)
    (fun seen r pending done t s h hl hI _ hG => ?_) (fun seen r pending done t s h _ hl _ _ => ?_)
    (fun seen done t s h hl hI => ?_)
  · exact ⟨hl.1, hl.2.1, hA t hl.2.1 s h ev hne hI hE hf hl.2.2⟩
  · obtain ⟨hE, ha⟩ := hsnap s h hs hI hG
    exact ⟨hE, ⟨_, fun r hr => hr⟩, hT, ha⟩
  · obtain ⟨⟨seen', hall⟩, ht, ha⟩ := hl
    obtain ⟨hE, ha'⟩ := htook s h r ha hI hG
    exact ⟨hE, ⟨seen', fun x hx => hall x (List.mem_cons_of_mem r hx)⟩, hput seen' t r (hall r List.mem_cons_self) ht,
      ha'⟩
  · obtain ⟨⟨seen', hall⟩, ht, ha⟩ := hl
    exact ⟨⟨seen', fun x hx => hall x (List.mem_cons_of_mem r hx)⟩, ht, ha⟩
  · exact hdone done t s h hl.2.1 hl.2.2 hI

lemma wp_publish {d : Conn} {A : Inv ι key β} {Q : Unit → (Conn → Table key) → Inv ι key β} (h₁ : A s h)
    (hA : Stable I E pid own A)
    (hcommit : ∀ s h, A s h → I s h → G s h (.did pid i (.commit d (own d))) →
      E s h (.did pid i (.commit d (own d))) ∧
      Q () (Function.update own d .empty) (s.merge (own d)) (h ++ [.did pid i (.commit d (own d))])) :
    Wp I G E pid i (Script.publish d) Q own s h := by
  intro f herr hok
  refine safe_commit h₁ hA (fun s h hs hI hG => ?_) (fun s h _ _ => herr .connection _ s h)
  obtain ⟨hE, hq⟩ := hcommit s h hs hI hG
  exact ⟨hE, hok () _ _ _ hq⟩

/-- An `INSERT` in a transaction of its own; where it fails nothing of it is left. -/
lemma wp_attempt_execute {d : Conn} {n : Addition α} {A : Inv ι key β} {B : Table key → Inv ι key β}
    {Q : Except Failure Unit → (Conn → Table key) → Inv ι key β}
    (L : List α → List α → List α → Table key → Inv ι key β) (h₁ : A s h) (hA : Stable I E pid own A)
    (hL : ∀ seen pending done t, Stable I E pid (Function.update own d t) (L seen pending done t))
    (hB : ∀ t, Stable I E pid (Function.update own d t) (B t))
    (hsnap : ∀ s h, A s h → I s h → G s h (.did pid i (.snap d .insert (s.merge (own d)).rows)) →
      E s h (.did pid i (.snap d .insert (s.merge (own d)).rows)) ∧
      L (s.merge (own d)).rows (n.rows (s.merge (own d)).rows) [] (own d) s
        (h ++ [.did pid i (.snap d .insert (s.merge (own d)).rows)]))
    (htook : ∀ seen r pending done t s h, L seen (r :: pending) done t s h → I s h →
      (s.merge t).find? (key r) = none → G s h (.did pid i (.took d r)) →
      E s h (.did pid i (.took d r)) ∧ L seen pending (done ++ [r]) (t.put r) s (h ++ [.did pid i (.took d r)]))
    (hpass : ∀ seen r pending done t s h, n.strict = false → L seen (r :: pending) done t s h → I s h →
      (s.merge t).find? (key r) ≠ none → L seen pending done t s h)
    (hdone : ∀ seen done t s h, L seen [] done t s h → I s h → B t s h)
    (hcommit : ∀ t s h, B t s h → I s h → G s h (.did pid i (.commit d t)) →
      E s h (.did pid i (.commit d t)) ∧
      Q (.ok ()) (Function.update own d .empty) (s.merge t) (h ++ [.did pid i (.commit d t)]))
    (hfail : ∀ f s h, I s h → ((A s h ∨ ∃ seen pending done t, L seen pending done t s h) ∨ ∃ t, B t s h) →
      Q (.error f) (Function.update own d .empty) s h) {ε : Type} :
    Wp I G E pid i (Script.attempt (Script.execute d n) : ExceptT ε (Script key) (Except Failure Unit)) Q own s h := by
  intro f herr hok
  refine safe_insert L h₁ hA hL hsnap htook hpass (fun seen done t s h hl hI => ?_)
    (fun x s h hI hs => hok (.error x) _ s h (hfail x s h hI (.inl hs)))
  refine safe_commit (hdone seen done t s h hl hI) (hB t) (fun s h hb hI hG => ?_) (fun s h hb hI => ?_)
  · rw [Function.update_self] at hG ⊢
    obtain ⟨hE, hq⟩ := hcommit t s h hb hI hG
    rw [Function.update_idem]
    exact ⟨hE, hok (.ok ()) _ _ _ hq⟩
  · rw [Function.update_idem]
    exact hok (.error .connection) _ s h (hfail _ s h hI (.inr ⟨t, hb⟩))

end Wp

/-- A request whose program ends in a state from which its answer keeps to `E`, as every
error does. -/
lemma safe_of_wp {ε : Type} {I : Inv ι key (Except ε γ)} {G E : Guard ι key (Except ε γ)} {pid : Nat} {i : ι}
    {own : Conn → Table key} {s : Table key} {h : List (Ev ι key (Except ε γ))} {x : ExceptT ε (Script key) γ}
    {Q : γ → (Conn → Table key) → Inv ι key (Except ε γ)} (hx : Wp I G E pid i x Q own s h)
    (hQ : ∀ a own, Stable I E pid own (Q a own))
    (herr : ∀ e s h, I s h → G s h (.did pid i (.answer (.error e))) → E s h (.did pid i (.answer (.error e))))
    (hok : ∀ a own s h, Q a own s h → I s h → G s h (.did pid i (.answer (.ok a))) →
      E s h (.did pid i (.answer (.ok a)))) :
    Safe I G E pid i ⟨own, .ready x⟩ s h := by
  rw [← Script.bind_ret x]
  refine hx _ (fun e own s h => ?_) (fun a own s h ha => ?_)
  · exact safe_ret (A := fun _ _ => True) trivial (fun _ _ _ _ _ _ _ _ => trivial)
      (fun s h _ hI hG => herr e s h hI hG)
  · exact safe_ret ha (hQ a own) (fun s h ha hI hG => hok a own s h ha hI hG)

end Rules

section Runs

variable [DecidableEq κ]

/-- Nothing is in flight. -/
def Conf.Quiet (c : Conf ι key β) : Prop := ∀ pid, c.procs pid = none

lemma quiet_of_range {script : ι → Script key β} {G : Guard ι key β}
    {s : Table key} {c : Conf ι key β} (hc : ReachableWhen script G (init s) c)
    (h : ∀ pid < c.trace.length, (c.procs pid).isNone = true) : c.Quiet := by
  intro pid
  cases hp : c.procs pid with
  | none => rfl
  | some p =>
    have hnone := h pid ((pids hc).1 pid p hp)
    simp [hp] at hnone

/-- Executes a schedule; `none` as soon as an action does not apply. -/
def exec (script : ι → Script key β) : Conf ι key β → List (Act ι κ) → Option (Conf ι key β)
  | c, [] => some c
  | c, a :: rest => (next script c a).bind (fun c' => exec script c' rest)

lemma reachable_of_exec {script : ι → Script key β} {as : List (Act ι κ)} {c c' : Conf ι key β}
    (h : exec script c as = some c') : Reachable script c c' := by
  induction as generalizing c with
  | nil =>
    cases Option.some.inj h
    exact Relation.ReflTransGen.refl
  | cons a rest ih =>
    obtain ⟨c₁, h₁, h₂⟩ := Option.bind_eq_some_iff.mp h
    exact Relation.ReflTransGen.head ⟨a, h₁, fun _ _ => trivial⟩ (ih h₂)

/-- Executes a schedule whose events all meet the condition. -/
def execWhen (script : ι → Script key β) (G : Guard ι key β)
    [∀ s h ev, Decidable (G s h ev)] : Conf ι key β → List (Act ι κ) → Option (Conf ι key β)
  | c, [] => some c
  | c, a :: rest =>
    (next script c a).bind (fun c' =>
      if ∀ ev ∈ c'.trace.drop c.trace.length, G c.store c.trace ev then execWhen script G c' rest else none)

lemma reachable_of_execWhen {script : ι → Script key β} {G : Guard ι key β}
    [∀ s h ev, Decidable (G s h ev)] {as : List (Act ι κ)} {c c' : Conf ι key β}
    (h : execWhen script G c as = some c') : ReachableWhen script G c c' := by
  induction as generalizing c with
  | nil =>
    cases Option.some.inj h
    exact Relation.ReflTransGen.refl
  | cons a rest ih =>
    obtain ⟨c₁, h₁, h₂⟩ := Option.bind_eq_some_iff.mp h
    split at h₂
    · rename_i hG
      exact Relation.ReflTransGen.head ⟨a, h₁, fun ev he => hG ev (by simp [he])⟩ (ih h₂)
    · cases h₂

end Runs

end ReadCommitted

end Lib
