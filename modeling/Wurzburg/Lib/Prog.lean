import Mathlib.Logic.Basic

/-!
# Wurzburg.Lib.Prog

**Resumption programs.** A `Prog E R α` is a sequential program that computes
an `α` and, on the way, issues effects `e : E` and continues with a reply of
type `R e`. Nothing here says what an effect *does*: a program is pure data, so
the same program can be run to completion against one state (`Prog.run`,
`Prog.tryRun`) or be interleaved with others, one effect at a time
(`Wurzburg.Lib.Pool`).

The two uses in this development are the bodies of SQL transactions, whose
effects are statements, and asynchronous request handlers, whose effects are
their await points.
-/

namespace Wurzburg.Lib

/-- A program over effects `E` with replies `R` and result `α`. -/
inductive Prog (E : Type) (R : E → Type) (α : Type) : Type where
  /-- Finished with a result. -/
  | ret (a : α)
  /-- Issue `e`, then continue with its reply. -/
  | call (e : E) (k : R e → Prog E R α)

namespace Prog

variable {E : Type} {R : E → Type} {α β γ σ : Type}

/-- Sequencing: run the first program, hand its result to the second. -/
def bind : Prog E R α → (α → Prog E R β) → Prog E R β
  | .ret a, f => f a
  | .call e k, f => .call e (fun r => (k r).bind f)

/-- Apply a function to the result. -/
def map (f : α → β) (p : Prog E R α) : Prog E R β := p.bind (fun a => .ret (f a))

instance : Monad (Prog E R) where
  pure := .ret
  bind := .bind

/-- The program that issues one effect and returns its reply. -/
def perform (e : E) : Prog E R (R e) := .call e .ret

@[simp] theorem pure_eq_ret (a : α) : (pure a : Prog E R α) = .ret a := rfl

@[simp] theorem bind_eq_bind (p : Prog E R α) (f : α → Prog E R β) :
    (p >>= f) = p.bind f := rfl

@[simp] theorem ret_bind (a : α) (f : α → Prog E R β) :
    (Prog.ret a : Prog E R α).bind f = f a := rfl

@[simp] theorem call_bind (e : E) (k : R e → Prog E R α) (f : α → Prog E R β) :
    (Prog.call e k).bind f = .call e (fun r => (k r).bind f) := rfl

@[simp] theorem perform_bind (e : E) (f : R e → Prog E R β) :
    (perform e : Prog E R (R e)).bind f = .call e f := rfl

theorem bind_assoc (p : Prog E R α) (f : α → Prog E R β) (g : β → Prog E R γ) :
    (p.bind f).bind g = p.bind (fun a => (f a).bind g) := by
  induction p with
  | ret a => rfl
  | call e k ih =>
      simp only [call_bind]
      congr 1
      funext r
      exact ih r

/-! ### Running to completion -/

/-- Run a program against a state, when every effect can be served. -/
def run (serve : (e : E) → σ → R e × σ) : Prog E R α → σ → α × σ
  | .ret a, s => (a, s)
  | .call e k, s => run serve (k (serve e s).1) (serve e s).2

/-- Run a program against a state in which an effect may be unable to proceed. -/
def tryRun (serve : (e : E) → σ → Option (R e × σ)) : Prog E R α → σ → Option (α × σ)
  | .ret a, s => some (a, s)
  | .call e k, s =>
      match serve e s with
      | some (r, s') => tryRun serve (k r) s'
      | none => none

@[simp] theorem run_ret (serve : (e : E) → σ → R e × σ) (a : α) (s : σ) :
    run serve (.ret a) s = (a, s) := rfl

@[simp] theorem run_call (serve : (e : E) → σ → R e × σ) (e : E)
    (k : R e → Prog E R α) (s : σ) :
    run serve (.call e k) s = run serve (k (serve e s).1) (serve e s).2 := rfl

/-- Running a sequence runs the first part and then the second from where it
stopped. -/
theorem run_bind (serve : (e : E) → σ → R e × σ) (p : Prog E R α)
    (f : α → Prog E R β) (s : σ) :
    run serve (p.bind f) s = run serve (f (run serve p s).1) (run serve p s).2 := by
  induction p generalizing s with
  | ret a => rfl
  | call e k ih => exact ih _ _

/-- A property of the state that every effect keeps is kept by a whole run. -/
theorem run_induction {motive : σ → Prop} {serve : (e : E) → σ → R e × σ}
    (step : ∀ e s, motive s → motive (serve e s).2) (p : Prog E R α) {s : σ}
    (hs : motive s) : motive (run serve p s).2 := by
  induction p generalizing s with
  | ret a => exact hs
  | call e k ih => exact ih _ (step e s hs)

theorem tryRun_call (serve : (e : E) → σ → Option (R e × σ)) {e : E}
    {k : R e → Prog E R α} {s s' : σ} {r : R e} (h : serve e s = some (r, s')) :
    tryRun serve (.call e k) s = tryRun serve (k r) s' := by
  simp only [tryRun, h]

/-- Inversion of one step of a partial run. -/
theorem tryRun_call_some {serve : (e : E) → σ → Option (R e × σ)} {e : E}
    {k : R e → Prog E R α} {s : σ} {out : α × σ}
    (h : tryRun serve (.call e k) s = some out) :
    ∃ r s', serve e s = some (r, s') ∧ tryRun serve (k r) s' = some out := by
  simp only [tryRun] at h
  split at h
  · next r s' hs => exact ⟨r, s', hs, h⟩
  · simp at h

/-- Running a sequence runs the first part, and the second from where it stopped. -/
theorem tryRun_bind {serve : (e : E) → σ → Option (R e × σ)} {p : Prog E R α}
    {f : α → Prog E R β} {s s' : σ} {a : α} (h : tryRun serve p s = some (a, s')) :
    tryRun serve (p.bind f) s = tryRun serve (f a) s' := by
  induction p generalizing s with
  | ret b =>
      obtain ⟨rfl, rfl⟩ := Prod.mk.inj (Option.some.inj h)
      rfl
  | call e k ih =>
      obtain ⟨r, t, he, hk⟩ := tryRun_call_some h
      rw [call_bind, tryRun_call serve he]
      exact ih r hk

/-! ### Which effects a program can issue -/

/-- Every effect the program can issue, on any replies, is allowed. -/
def Uses (allowed : E → Prop) : Prog E R α → Prop
  | .ret _ => True
  | .call e k => allowed e ∧ ∀ r, (k r).Uses allowed

theorem Uses.bind {allowed : E → Prop} {p : Prog E R α} {f : α → Prog E R β}
    (hp : p.Uses allowed) (hf : ∀ a, (f a).Uses allowed) :
    (p.bind f).Uses allowed := by
  induction p with
  | ret a => exact hf a
  | call e k ih => exact ⟨hp.1, fun r => ih r (hp.2 r)⟩

theorem Uses.mono {allowed allowed' : E → Prop} {p : Prog E R α} (h : p.Uses allowed)
    (himp : ∀ e, allowed e → allowed' e) : p.Uses allowed' := by
  induction p with
  | ret a => trivial
  | call e k ih => exact ⟨himp e h.1, fun r => ih r (h.2 r)⟩

/-- A property of the state that every allowed effect keeps is kept by a run of
a program that issues no others. -/
theorem Uses.run_induction {allowed : E → Prop} {motive : σ → Prop}
    {serve : (e : E) → σ → R e × σ}
    (step : ∀ e s, allowed e → motive s → motive (serve e s).2) {p : Prog E R α}
    (hp : p.Uses allowed) {s : σ} (hs : motive s) : motive (run serve p s).2 := by
  induction p generalizing s with
  | ret a => exact hs
  | call e k ih => exact ih _ (hp.2 _) (step e s hp.1 hs)

/-! ### What follows an effect -/

/-- At every effect the program can come to, `law` holds of the effect and of
what follows it. -/
def Obeys (law : (e : E) → (R e → Prog E R α) → Prop) : Prog E R α → Prop
  | .ret _ => True
  | .call e k => law e k ∧ ∀ r, (k r).Obeys law

/-- A first part whose effects are lawful whatever follows them. -/
theorem Uses.obeys_bind {allowed : E → Prop} {law : (e : E) → (R e → Prog E R β) → Prop}
    {p : Prog E R α} {f : α → Prog E R β} (hp : p.Uses allowed)
    (hlaw : ∀ e k, allowed e → law e k) (hf : ∀ a, (f a).Obeys law) : (p.bind f).Obeys law := by
  induction p with
  | ret a => exact hf a
  | call e k ih => exact ⟨hlaw e _ hp.1, fun r => ih r (hp.2 r)⟩

/-! ### Programs that can fail -/

section Except

variable {ε : Type}

/-- A sequence whose first part succeeds continues with its result. -/
theorem tryRun_bind_ok {serve : (e : E) → σ → Option (R e × σ)} {x : ExceptT ε (Prog E R) α}
    {f : α → ExceptT ε (Prog E R) β} {s s' : σ} {a : α}
    (h : tryRun serve x.run s = some (.ok a, s')) :
    tryRun serve (x >>= f).run s = tryRun serve (f a).run s' :=
  tryRun_bind (f := ExceptT.bindCont f) h

/-- A sequence whose first part fails stops there. -/
theorem tryRun_bind_error {serve : (e : E) → σ → Option (R e × σ)} {x : ExceptT ε (Prog E R) α}
    {f : α → ExceptT ε (Prog E R) β} {s s' : σ} {e : ε}
    (h : tryRun serve x.run s = some (.error e, s')) :
    tryRun serve (x >>= f).run s = some (.error e, s') :=
  tryRun_bind (f := ExceptT.bindCont f) h

/-- `Uses` for a program that can stop with an error. -/
def UsesE (allowed : E → Prop) (x : ExceptT ε (Prog E R) α) : Prop := x.run.Uses allowed

theorem UsesE.pure {allowed : E → Prop} (a : α) :
    UsesE allowed (Pure.pure a : ExceptT ε (Prog E R) α) := trivial

theorem UsesE.throw {allowed : E → Prop} (e : ε) :
    UsesE allowed (MonadExcept.throw e : ExceptT ε (Prog E R) α) := trivial

theorem UsesE.bind {allowed : E → Prop} {x : ExceptT ε (Prog E R) α}
    {f : α → ExceptT ε (Prog E R) β} (hx : UsesE allowed x) (hf : ∀ a, UsesE allowed (f a)) :
    UsesE allowed (x >>= f) := by
  refine Uses.bind (f := ExceptT.bindCont f) hx (fun r => ?_)
  cases r with
  | ok a => exact hf a
  | error e => trivial

theorem UsesE.mono {allowed allowed' : E → Prop} {x : ExceptT ε (Prog E R) α}
    (h : UsesE allowed x) (himp : ∀ e, allowed e → allowed' e) : UsesE allowed' x :=
  Uses.mono h himp

/-- `Obeys` for a program that can stop with an error, its result wrapped by `g`. -/
def ObeysE (law : (e : E) → (R e → Prog E R γ) → Prop) (g : Except ε α → γ)
    (x : ExceptT ε (Prog E R) α) : Prop := (x.run.map g).Obeys law

theorem UsesE.obeys_bind {allowed : E → Prop} {law : (e : E) → (R e → Prog E R γ) → Prop}
    {g : Except ε β → γ} {x : ExceptT ε (Prog E R) α} {f : α → ExceptT ε (Prog E R) β}
    (hx : UsesE allowed x) (hlaw : ∀ e k, allowed e → law e k) (hf : ∀ a, ObeysE law g (f a)) :
    ObeysE law g (x >>= f) := by
  have hrun : (x >>= f).run.map g =
      x.run.bind (fun r => (ExceptT.bindCont f r : Prog E R (Except ε β)).map g) :=
    bind_assoc _ _ _
  unfold ObeysE
  rw [hrun]
  refine Uses.obeys_bind hx hlaw (fun r => ?_)
  cases r with
  | ok a => exact hf a
  | error e => trivial

/-- A program whose effects are all lawful whatever follows them. -/
theorem UsesE.obeys {allowed : E → Prop} {law : (e : E) → (R e → Prog E R γ) → Prop}
    {g : Except ε α → γ} {x : ExceptT ε (Prog E R) α} (hx : UsesE allowed x)
    (hlaw : ∀ e k, allowed e → law e k) : ObeysE law g x :=
  Uses.obeys_bind hx hlaw (fun _ => trivial)

end Except

end Prog

end Wurzburg.Lib
