import Mathlib.Data.List.Basic

/-!
# Wurzburg.Lib.Retry

**Procedures that are begun again.** A procedure carries out a list of steps in order;
it may be cut off after any of them and begun again, by several parties at once. When
each step is idempotent and no two get in each other's way (`Repeatable`), the state is
at every time as if the first so many steps had been carried out once (`staged`): a step
that comes again changes nothing (`Repeatable.again`), and the next one leads to the next
stage (`staged_succ`). What others do besides commutes with that (`Repeatable.besides`).
-/

namespace Wurzburg.Lib

variable {σ A : Type} {apply : σ → A → σ} {steps : List A}

/-- The state after the first `k` steps. -/
def staged (apply : σ → A → σ) (steps : List A) (k : Nat) (s : σ) : σ :=
  (steps.take k).foldl apply s

/-- Steps that can come again, and in any order. -/
structure Repeatable (apply : σ → A → σ) (steps : List A) : Prop where
  idem : ∀ a ∈ steps, ∀ s, apply (apply s a) a = apply s a
  comm : ∀ a ∈ steps, ∀ b ∈ steps, ∀ s, apply (apply s a) b = apply (apply s b) a

@[simp] theorem staged_zero (s : σ) : staged apply steps 0 s = s := rfl

theorem staged_succ {k : Nat} (hk : k < steps.length) (s : σ) :
    apply (staged apply steps k s) steps[k] = staged apply steps (k + 1) s := by
  unfold staged
  rw [List.take_succ_eq_append_getElem hk, List.foldl_append]
  rfl

/-- A step that commutes with others can be made before them. -/
theorem foldl_comm {a : A} {xs : List A}
    (h : ∀ b ∈ xs, ∀ s, apply (apply s b) a = apply (apply s a) b) (s : σ) :
    apply (xs.foldl apply s) a = xs.foldl apply (apply s a) := by
  induction xs generalizing s with
  | nil => rfl
  | cons b xs ih =>
      simp only [List.foldl_cons]
      rw [ih (fun c hc => h c (List.mem_cons_of_mem _ hc)), h b (List.mem_cons_self ..)]

namespace Repeatable

/-- A step that was carried out before changes nothing. -/
theorem again (h : Repeatable apply steps) {j k : Nat} (hj : j < steps.length) (hjk : j < k)
    (s : σ) : apply (staged apply steps k s) steps[j] = staged apply steps k s := by
  -- the steps before `j`, the step itself, and those after it
  have hsplit : steps.take k = steps.take j ++ steps[j] :: (steps.take k).drop (j + 1) := by
    have hlt : j < (steps.take k).length := by simp; omega
    have hdrop := List.drop_eq_getElem_cons hlt
    have htake : (steps.take k).take j = steps.take j := by
      rw [List.take_take, Nat.min_eq_left (Nat.le_of_lt hjk)]
    rw [List.getElem_take] at hdrop
    rw [← hdrop, ← htake, List.take_append_drop]
  have hmem : steps[j] ∈ steps := List.getElem_mem hj
  have hafter : ∀ b ∈ (steps.take k).drop (j + 1), ∀ s,
      apply (apply s b) steps[j] = apply (apply s steps[j]) b :=
    fun b hb s => h.comm b (List.mem_of_mem_take (List.mem_of_mem_drop hb)) _ hmem s
  unfold staged
  rw [hsplit, List.foldl_append, List.foldl_cons, foldl_comm hafter, h.idem _ hmem]

/-- What others do besides, they might as well have done before. -/
theorem besides {a : A} (hcomm : ∀ b ∈ steps, ∀ s, apply (apply s b) a = apply (apply s a) b)
    (k : Nat) (s : σ) :
    apply (staged apply steps k s) a = staged apply steps k (apply s a) :=
  foldl_comm (fun b hb => hcomm b (List.mem_of_mem_take hb)) s

end Repeatable

end Wurzburg.Lib
