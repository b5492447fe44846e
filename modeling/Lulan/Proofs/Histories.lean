import Lulan.Proofs.Runs

/-!
# What handlers do to the history

The rules for programs that can stop with an error: what such a program returns, in
terms of the store and the history it meets along the way.
-/

namespace Lulan.Proofs

open Lulan Lulan.Db Lib

/-- A guarantee about results that are not errors. -/
def OnOk {ε α : Type} (R : List Event → α → Prop) (h : List Event) (r : Except ε α) : Prop :=
  ∀ a, r = .ok a → R h a

@[simp] lemma onOk_ok {ε α : Type} {R : List Event → α → Prop} {h : List Event} {a : α} :
    OnOk R h (.ok a : Except ε α) ↔ R h a := by
  simp [OnOk]

@[simp] lemma onOk_error {ε α : Type} {R : List Event → α → Prop} {h : List Event} {e : ε} :
    OnOk R h (.error e : Except ε α) := by
  simp [OnOk]

/-- What the caller of a transaction makes of its result. -/
def txResult {ε α : Type} (fail : DbError → ε) (f : TxResult → Option α) : TxResult → Except ε α
  | .failed e => .error (fail e)
  | r =>
    match f r with
    | some a => .ok a
    | none => .error (fail .connection)

lemma txResult_eq_ok {ε α : Type} {fail : DbError → ε} {f : TxResult → Option α} {r : TxResult} {a : α}
    (h : txResult fail f r = .ok a) : f r = some a := by
  unfold txResult at h
  split at h
  · cases h
  · split at h
    · cases h
      assumption
    · cases h

section Rules

variable {app : AppState} {G : World → List Event → Event → Prop} {I : World → List Event → Prop}
  {pid : Nat} {i : Request} {h : List Event} {ε ε' α β : Type}

lemma keeps_pure {R : List Event → Except ε α → Prop} {a : α}
    (hR : ∀ g, Site.Later pid h g → R g (.ok a)) : (site app).Keeps G I pid i R (pure a : Io ε α) h := hR

lemma keeps_throw {R : List Event → Except ε α → Prop} {e : ε}
    (hR : ∀ g, Site.Later pid h g → R g (.error e)) : (site app).Keeps G I pid i R (throw e : Io ε α) h := hR

lemma keeps_seq {R : List Event → Except ε α → Prop} {T : List Event → Except ε β → Prop} {x : Io ε α}
    {f : α → Io ε β} (hx : (site app).Keeps G I pid i R x h)
    (hok : ∀ a g, R g (.ok a) → (site app).Keeps G I pid i T (f a) g)
    (herr : ∀ e g, R g (.error e) → ∀ g', Site.Later pid g g' → T g' (.error e)) :
    (site app).Keeps G I pid i T (x >>= f : Io ε β) h :=
  Site.keeps_seq hx hok herr

lemma keeps_query {R : List Event → Except ε α → Prop} {fail : DbError → ε} {f : World → Except ε α}
    (hfail : ∀ g, Site.Later pid h g → R g (.error (fail .connection)))
    (hf : ∀ w g, Site.Later pid h g → I w g → ∀ g', Site.Later pid g g' → R g' (f w)) :
    (site app).Keeps G I pid i R (Io.query fail f) h :=
  fun w g hg hI => ⟨fun g' hg' => hfail g' (hg.trans hg'), hf w g hg hI⟩

lemma keeps_now {R : List Event → Except ε Timestamp → Prop}
    (hR : ∀ t g, Site.Later pid h g → R g (.ok t)) : (site app).Keeps G I pid i R (Io.now : Io ε Timestamp) h :=
  fun w _ hg _ g' hg' => hR w.now g' (hg.trans hg')

lemma keeps_transact {R : List Event → Except ε α → Prop} {fail : DbError → ε} {t : Tx}
    {f : TxResult → Option α}
    (ht : ∀ w s g, Site.Later pid h g → I s g → G s g (.commit pid i t (t.run w s).1) →
      I (t.run w s).2 (g ++ [.commit pid i t (t.run w s).1]) ∧
      ∀ g', Site.Later pid (g ++ [.commit pid i t (t.run w s).1]) g' → R g' (txResult fail f (t.run w s).1)) :
    (site app).Keeps G I pid i R (Io.transact fail t f) h := by
  intro w s g hg hI hG
  obtain ⟨hI', hR⟩ := ht w s g hg hI hG
  refine ⟨hI', ?_⟩
  change (site app).Keeps G I pid i R _ (g ++ [.commit pid i t (t.run w s).1])
  have hcont : ∀ r : TxResult, (∀ g', Site.Later pid (g ++ [.commit pid i t (t.run w s).1]) g' →
      R g' (txResult fail f r)) → (site app).Keeps G I pid i R
      (match r with
        | .failed e => Prog.ret (.error (fail e))
        | r => match f r with
          | some a => Prog.ret (.ok a)
          | none => Prog.ret (.error (fail .connection)))
      (g ++ [.commit pid i t (t.run w s).1]) := by
    intro r hr
    cases r
    case failed e => exact hr
    all_goals
      simp only [txResult] at hr ⊢
      split at hr <;> exact hr
  exact hcont _ hR

lemma keeps_attempt {R : List Event → Except ε α → Prop} {T : List Event → Except ε' (Except ε α) → Prop}
    {x : Io ε α} (hx : (site app).Keeps G I pid i R x h)
    (hR : ∀ r g, R g r → ∀ g', Site.Later pid g g' → T g' (.ok r)) :
    (site app).Keeps G I pid i T (Io.attempt x : Io ε' (Except ε α)) h :=
  Site.keeps_bind hx (fun r g hr => hR r g hr)

lemma keeps_call {R : List Event → Except ε Reply → Prop} {q : Call}
    (hq : ∀ b s g, Call.fits q b = true → Site.Later pid h g → I s g → G s g (.call pid i q b) →
      I s (g ++ [.call pid i q b]) ∧ ∀ g', Site.Later pid (g ++ [.call pid i q b]) g' → R g' (.ok b)) :
    (site app).Keeps G I pid i R (Io.call q : Io ε Reply) h :=
  fun b s g hf hg hI hG => hq b s g hf hg hI hG

lemma keeps_mapErr {R : List Event → Except ε α → Prop} {T : List Event → Except ApiError α → Prop}
    {f : ε → ApiError} {x : Io ε α} (hx : (site app).Keeps G I pid i R x h)
    (hok : ∀ a g, R g (.ok a) → ∀ g', Site.Later pid g g' → T g' (.ok a))
    (herr : ∀ e g, R g (.error e) → ∀ g', Site.Later pid g g' → T g' (.error (f e))) :
    (site app).Keeps G I pid i T (Handler.mapErr f x) h := by
  refine Site.keeps_bind hx (fun r g hr => ?_)
  cases r with
  | ok a => exact hok a g hr
  | error e => exact herr e g hr

lemma keeps_answer {R : List Event → Except ApiError α → Prop} {T : List Event → Answer → Prop}
    {f : α → Response} {x : Handler α} (hx : (site app).Keeps G I pid i R x h)
    (hR : ∀ r g, R g r → ∀ g', Site.Later pid g g' → T g' (r.map f)) :
    (site app).Keeps G I pid i T (x.answer f) h :=
  Site.keeps_bind hx (fun r g hr => hR r g hr)

end Rules

end Lulan.Proofs
