import Wurzburg.Lib.Prog

/-!
# Wurzburg.Lib.Hoare

**Pre- and postconditions of programs.** `Prog.Triple serve P p Q` says that a
run of `p` from a state with `P` ends with a result and a state with `Q`; a
program that can stop with an error has a second postcondition for that
(`Prog.TripleE`). The rules follow the program: one for each way to build it, one
to weaken, and one for a part whose effects all keep the same property.

A run can be watched: when a server does on a part of its state what another one
does on the whole of its own, their runs go the same way (`Prog.run_project`).
-/

namespace Wurzburg.Lib.Prog

variable {E : Type} {R : E → Type} {α β σ σ' ε : Type} {serve : (e : E) → σ → R e × σ}

/-- From a state with `P` the program ends with `Q`. -/
def Triple (serve : (e : E) → σ → R e × σ) (P : σ → Prop) (p : Prog E R α)
    (Q : α → σ → Prop) : Prop :=
  ∀ s, P s → Q (run serve p s).1 (run serve p s).2

/-- From a state with `P` the program returns with `Q` or stops with `Z`. -/
def TripleE (serve : (e : E) → σ → R e × σ) (P : σ → Prop) (x : ExceptT ε (Prog E R) α)
    (Q : α → σ → Prop) (Z : ε → σ → Prop) : Prop :=
  Triple serve P x.run (fun r s =>
    match r with
    | .ok a => Q a s
    | .error e => Z e s)

section

variable {P P' : σ → Prop} {Q Q' : α → σ → Prop} {Z Z' : ε → σ → Prop}

/-! ### Programs that can fail -/

theorem TripleE.pure {a : α} (h : ∀ s, P s → Q a s) :
    TripleE serve P (Pure.pure a : ExceptT ε (Prog E R) α) Q Z := h

/-- The second part starts where the first ends; an error ends the whole. -/
theorem TripleE.bind {S : β → σ → Prop} {x : ExceptT ε (Prog E R) α}
    {f : α → ExceptT ε (Prog E R) β} (hx : TripleE serve P x Q Z)
    (hf : ∀ a, TripleE serve (Q a) (f a) S Z) : TripleE serve P (x >>= f) S Z := by
  intro s hs
  have hrun : (x >>= f).run = Prog.bind x.run (ExceptT.bindCont f) := rfl
  have hfirst := hx s hs
  rw [hrun, run_bind]
  cases hr : run serve x.run s with
  | mk r s' =>
      rw [hr] at hfirst
      cases r with
      | ok a => exact hf a s' hfirst
      | error e => exact hfirst

theorem TripleE.weaken {x : ExceptT ε (Prog E R) α} (h : TripleE serve P x Q Z)
    (hP : ∀ s, P' s → P s) (hQ : ∀ a s, Q a s → Q' a s) (hZ : ∀ e s, Z e s → Z' e s) :
    TripleE serve P' x Q' Z' := by
  intro s hs
  have hrun := h s (hP s hs)
  cases hr : run serve x.run s with
  | mk r s' =>
      rw [hr] at hrun
      cases r with
      | ok a => exact hQ a s' hrun
      | error e => exact hZ e s' hrun

/-- What was known of the start from elsewhere. -/
theorem TripleE.of_forall {x : ExceptT ε (Prog E R) α}
    (h : ∀ s, P s → TripleE serve (· = s) x Q Z) : TripleE serve P x Q Z :=
  fun s hs => h s hs s rfl

/-- What a run ends with. -/
theorem TripleE.run {x : ExceptT ε (Prog E R) α} (h : TripleE serve P x Q Z) {s s' : σ}
    {r : Except ε α} (hs : P s) (hr : Prog.run serve x.run s = (r, s')) :
    (∃ a, r = .ok a ∧ Q a s') ∨ ∃ e, r = .error e ∧ Z e s' := by
  have hrun := h s hs
  rw [hr] at hrun
  cases r with
  | ok a => exact Or.inl ⟨a, rfl, hrun⟩
  | error e => exact Or.inr ⟨e, rfl, hrun⟩

end

/-! ### Watching a run -/

/-- Two servers that agree on a part of the state give the same run. -/
theorem run_project {serve' : (e : E) → σ' → R e × σ'} {part : σ' → σ}
    (step : ∀ e s, serve e (part s) = ((serve' e s).1, part (serve' e s).2)) (p : Prog E R α)
    (s : σ') : run serve p (part s) = ((run serve' p s).1, part (run serve' p s).2) := by
  induction p generalizing s with
  | ret a => rfl
  | call e k ih =>
      rw [run_call, run_call, step]
      exact ih _ _

end Wurzburg.Lib.Prog
