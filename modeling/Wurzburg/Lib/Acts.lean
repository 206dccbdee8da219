import Mathlib.Logic.Basic

/-!
# Wurzburg.Lib.Acts

Runs of a partial step function over acts: an act that cannot be taken is left out
(`run`), and `Along ok` says that every act of the run meets a condition in the state in
which its turn comes.
-/

namespace Wurzburg.Lib.Acts

variable {σ A : Type} (step : σ → A → Option σ)

/-- Take these acts in turn. -/
def run (s : σ) (acts : List A) : σ := acts.foldl (fun s a => (step s a).getD s) s

/-- Every act meets the condition in the state in which its turn comes. -/
def Along (ok : σ → A → Prop) : σ → List A → Prop
  | _, [] => True
  | s, a :: acts => ok s a ∧ Along ok ((step s a).getD s) acts

instance decidableAlong (ok : σ → A → Prop) [∀ s a, Decidable (ok s a)] :
    (s : σ) → (acts : List A) → Decidable (Along step ok s acts)
  | _, [] => inferInstanceAs (Decidable True)
  | s, a :: acts =>
      have := decidableAlong ok ((step s a).getD s) acts
      inferInstanceAs (Decidable (_ ∧ _))

variable {step} {ok : σ → A → Prop} {acts : List A}

theorem Along.trivially (s : σ) : Along step (fun _ _ => True) s acts := by
  induction acts generalizing s with
  | nil => trivial
  | cons a acts ih => exact ⟨trivial, ih _⟩

/-- What one act keeps under the condition, such a run keeps. -/
theorem Along.run_induction {motive : σ → Prop}
    (hstep : ∀ s s' a, motive s → ok s a → step s a = some s' → motive s') {s : σ} (hs : motive s)
    (h : Along step ok s acts) : motive (run step s acts) := by
  induction acts generalizing s with
  | nil => exact hs
  | cons a acts ih =>
      obtain ⟨hok, hacts⟩ := h
      have hnext : motive ((step s a).getD s) := by
        cases hact : step s a with
        | none => exact hs
        | some s' => exact hstep s s' a hs hok hact
      exact ih hnext hacts

end Wurzburg.Lib.Acts
