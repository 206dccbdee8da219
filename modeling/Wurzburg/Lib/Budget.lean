import Wurzburg.Lib.Alone
import Wurzburg.Lib.History
import Mathlib.Algebra.Ring.Nat
import Mathlib.Data.List.Forall2

/-!
# Wurzburg.Lib.Budget

**Budgets.** Every effect has a cost, and a program stays within a budget when the effects
on each way through it cost no more together (`Prog.Within`). A budget bounds what a run of
the program changes (`Within.run_le`) and what a task of a pool has issued at any time
(`Machine.Reach.spent_le`).

A world that can serve any effect it has the means for can bring all tasks to their ends,
whatever their programs still do (`Setting.finish_all`).
-/

namespace Wurzburg.Lib

variable {E α β γ σ ε : Type} {R : E → Type}

namespace Prog

/-- On every way through the program, its effects cost at most so much together. -/
def Within (cost : E → Nat) : Nat → Prog E R α → Prop
  | _, .ret _ => True
  | n, .call e k => cost e ≤ n ∧ ∀ r, Within cost (n - cost e) (k r)

section

variable {cost : E → Nat} {m n : Nat} {p : Prog E R α}

theorem Within.mono (h : p.Within cost m) (hle : m ≤ n) : p.Within cost n := by
  induction p generalizing m n with
  | ret a => trivial
  | call e k ih =>
      exact ⟨Nat.le_trans h.1 hle, fun r => ih r (h.2 r) (Nat.sub_le_sub_right hle _)⟩

/-- The budgets of the parts add up. -/
theorem Within.bind {f : α → Prog E R β} (h : p.Within cost m) (hf : ∀ a, (f a).Within cost n) :
    (p.bind f).Within cost (m + n) := by
  induction p generalizing m with
  | ret a => exact (hf a).mono (Nat.le_add_left n m)
  | call e k ih =>
      obtain ⟨hcost, hk⟩ := h
      refine ⟨Nat.le_trans hcost (Nat.le_add_right m n), fun r => ?_⟩
      rw [Nat.sub_add_comm hcost]
      exact ih r (hk r)

theorem Within.bind_ends {mid : List (Event E R) → α → Prop} {hist : List (Event E R)}
    {f : α → Prog E R β} (h : p.Within cost m) (hends : p.Ends mid hist)
    (hf : ∀ hist a, mid hist a → (f a).Within cost n) : (p.bind f).Within cost (m + n) := by
  induction p generalizing m hist with
  | ret a => exact (hf hist a hends).mono (Nat.le_add_left n m)
  | call e k ih =>
      obtain ⟨hcost, hk⟩ := h
      refine ⟨Nat.le_trans hcost (Nat.le_add_right m n), fun r => ?_⟩
      rw [Nat.sub_add_comm hcost]
      exact ih r (hk r) (hends r)

/-- One effect, and what follows it. -/
theorem Within.call {e : E} {k : R e → Prog E R α} (hk : ∀ r, (k r).Within cost n) :
    (Prog.call e k).Within cost (cost e + n) := by
  refine ⟨Nat.le_add_right _ _, fun r => ?_⟩
  rw [Nat.add_sub_cancel_left]
  exact hk r

theorem Within.of_uses (h : p.Uses (fun e => cost e = 0)) : p.Within cost 0 := by
  induction p with
  | ret a => trivial
  | call e k ih =>
      obtain ⟨hfree, hk⟩ := h
      refine ⟨Nat.le_of_eq hfree, fun r => ?_⟩
      rw [Nat.zero_sub]
      exact ih r (hk r)

/-- What each effect raises by its cost at most, the program raises by its budget at most. -/
theorem Within.run_le {serve : (e : E) → σ → R e × σ} {level : σ → Nat}
    (hserve : ∀ e s, level (serve e s).2 ≤ level s + cost e) (h : p.Within cost n) (s : σ) :
    level (Prog.run serve p s).2 ≤ level s + n := by
  induction p generalizing n s with
  | ret a => exact Nat.le_add_right _ _
  | call e k ih =>
      obtain ⟨hcost, hk⟩ := h
      calc level (Prog.run serve (.call e k) s).2
          ≤ level (serve e s).2 + (n - cost e) := ih _ (hk _) _
        _ ≤ level s + cost e + (n - cost e) := Nat.add_le_add_right (hserve e s) _
        _ = level s + n := by omega

/-- `Within` for a program that can stop with an error. -/
def WithinE (cost : E → Nat) (n : Nat) (x : ExceptT ε (Prog E R) α) : Prop := x.run.Within cost n

variable {x : ExceptT ε (Prog E R) α}

theorem WithinE.pure (a : α) : WithinE cost n (Pure.pure a : ExceptT ε (Prog E R) α) := trivial

theorem WithinE.throw (e : ε) :
    WithinE cost n (MonadExcept.throw e : ExceptT ε (Prog E R) α) := trivial

theorem WithinE.mono (h : WithinE cost m x) (hle : m ≤ n) : WithinE cost n x := Within.mono h hle

theorem WithinE.bind {f : α → ExceptT ε (Prog E R) β} (h : WithinE cost m x)
    (hf : ∀ a, WithinE cost n (f a)) : WithinE cost (m + n) (x >>= f) := by
  refine Within.bind (f := ExceptT.bindCont f) h (fun r => ?_)
  cases r with
  | ok a => exact hf a
  | error e => trivial

/-- The first part takes its share, the second one has what is left. -/
theorem WithinE.andThen {f : α → ExceptT ε (Prog E R) β} (h : WithinE cost m x)
    (hle : m.ble n = true) (hf : ∀ a, WithinE cost (n - m) (f a)) : WithinE cost n (x >>= f) :=
  (h.bind hf).mono (Nat.le_of_eq (Nat.add_sub_cancel' (Nat.ble_eq.mp hle)))

/-- The budget of the second part may rest on what the first one returns. -/
theorem WithinE.bind_ends {mid : List (Event E R) → α → Prop} {hist : List (Event E R)}
    {f : α → ExceptT ε (Prog E R) β} (h : WithinE cost m x)
    (hends : EndsE mid (fun _ (_ : Except ε Unit) => True) hist x)
    (hf : ∀ hist a, mid hist a → WithinE cost n (f a)) : WithinE cost (m + n) (x >>= f) := by
  refine Within.bind_ends (f := ExceptT.bindCont f) h hends (fun hist r hr => ?_)
  cases r with
  | ok a => exact hf hist a hr
  | error e => trivial

theorem WithinE.of_uses (h : UsesE (fun e => cost e = 0) x) : WithinE cost 0 x := Within.of_uses h

end

end Prog

/-! ### What tasks have spent -/

variable {ρ C V : Type} {m : Machine σ ρ E R α C V}
  {ok : Config σ ρ E R α → Label ρ C V → Prop} {c₀ c c' : Config σ ρ E R α}

/-- What the effects of a history have cost. -/
def spent (cost : E → Nat) (hist : List (Event E R)) : Nat := (hist.map (fun ev => cost ev.eff)).sum

theorem spent_concat (cost : E → Nat) (hist : List (Event E R)) (ev : Event E R) :
    spent cost (hist ++ [ev]) = spent cost hist + cost ev.eff := by
  simp [spent]

/-- The task has kept to its budget, and what is left of it will. -/
def Task.Affords (cost : E → Nat) (budget : ρ → Nat) (t : Task ρ E R α) : Prop :=
  spent cost t.hist ≤ budget t.req ∧
    ∀ p, t.rest = some p → p.Within cost (budget t.req - spent cost t.hist)

/-- A task never issues more than its request has a budget for. -/
theorem Machine.Reach.affords {cost : E → Nat} {budget : ρ → Nat}
    (hstart : ∀ q, (m.start q).Within cost (budget q)) (h₀ : c₀.tasks = [])
    (h : m.Reach ok c₀ c) : ∀ t ∈ c.tasks, t.Affords cost budget := by
  refine h.invariant (P := fun c => ∀ t ∈ c.tasks, t.Affords cost budget) (by simp [h₀]) ?_
  intro c l c' hc _ hs
  rcases m.step_cases hs with ⟨q, rfl, rfl⟩ | ⟨i, ch, q, hist, e, k, r, w, rfl, ht, -, rfl⟩ |
    ⟨i, q, hist, e, k, rfl, ht, rfl⟩ | ⟨v, w, rfl, -, rfl⟩
  · intro t htm
    rcases List.mem_append.mp htm with htm | htm
    · exact hc t htm
    · rw [List.mem_singleton.mp htm]
      refine ⟨Nat.zero_le _, fun p hp => ?_⟩
      obtain rfl := Option.some.inj hp
      exact hstart q
  · intro t htm
    rcases List.mem_or_eq_of_mem_set htm with htm | rfl
    · exact hc t htm
    · obtain ⟨hspent, hrest⟩ := hc _ (List.mem_of_getElem? ht)
      obtain ⟨hcost, hk⟩ := hrest _ rfl
      have hmore : spent cost (hist ++ [⟨e, r⟩]) = spent cost hist + cost e := spent_concat ..
      simp only at hspent hcost
      refine ⟨?_, fun p hp => ?_⟩
      · show spent cost (hist ++ [⟨e, r⟩]) ≤ budget q
        omega
      · obtain rfl := Option.some.inj hp
        show (k r).Within cost (budget q - spent cost (hist ++ [⟨e, r⟩]))
        rw [hmore, Nat.sub_add_eq]
        exact hk r
  · intro t htm
    rcases List.mem_or_eq_of_mem_set htm with htm | rfl
    · exact hc t htm
    · exact ⟨(hc _ (List.mem_of_getElem? ht)).1, fun p hp => (by cases hp)⟩
  · exact hc

/-! ### Bringing all tasks to their ends -/

namespace Setting

variable (S : Setting m)

/-- Tasks and the world go on, with choices and moves of the setting; nothing arrives and
nothing is cut off. -/
def GoesOn : Label ρ C V → Prop
  | .step _ ch => S.choice ch
  | .env v => S.move v
  | _ => False

/-- The task has come to its end, unless it was cut off before. -/
def Finishes (t t' : Task ρ E R α) : Prop :=
  t'.req = t.req ∧ (t.rest = none → t' = t) ∧ (t.rest ≠ none → ∃ a, t'.answer? = some a)

/-- With the means for an effect, the world comes to serve it, and keeps the other means. -/
def Serves (cost : E → Nat) (means : Nat → σ → Prop) : Prop :=
  ∀ e n w, means (cost e + n) w →
    ∃ w₁ ch r w₂, S.Moves w w₁ ∧ S.choice ch ∧ m.exec ch e w₁ = some (r, w₂) ∧ means n w₂

variable {S} {cost : E → Nat} {means : Nat → σ → Prop}

theorem Moves.goesOn {w : σ} (h : S.Moves c.world w) :
    m.Reach (fun _ l => S.GoesOn l) c { c with world := w } := by
  induction h with
  | refl => exact .refl
  | tail _ hstep ih =>
      obtain ⟨v, hv, hw⟩ := hstep
      exact .tail (l := .env v) ih hv (m.step_env hw)

/-- The task after a first part comes to its end. -/
theorem finish_one (hserves : S.Serves cost means)
    (hless : ∀ n n' w, n' ≤ n → means n w → means n' w) {n k : Nat} {q : ρ}
    {pre post : List (Task ρ E R α)} {hist : List (Event E R)} {p : Prog E R α}
    (htasks : c.tasks = pre ++ ⟨q, hist, some p⟩ :: post) (hp : p.Within cost n)
    (hmeans : means (n + k) c.world) :
    ∃ c' hist' a, m.Reach (fun _ l => S.GoesOn l) c c' ∧
      c'.tasks = pre ++ ⟨q, hist', some (.ret a)⟩ :: post ∧ means k c'.world := by
  induction p generalizing c hist n with
  | ret a => exact ⟨c, hist, a, .refl, htasks, hless _ _ _ (Nat.le_add_left k n) hmeans⟩
  | call e next ih =>
      obtain ⟨hcost, hnext⟩ := hp
      have hsplit : n + k = cost e + (n - cost e + k) := by omega
      rw [hsplit] at hmeans
      obtain ⟨w₁, ch, r, w₂, hmoves, hch, hx, hmeans⟩ := hserves e _ c.world hmeans
      have htask : ({ c with world := w₁ } : Config σ ρ E R α).tasks[pre.length]? =
          some ⟨q, hist, some (.call e next)⟩ := by
        rw [htasks]
        exact List.getElem?_append_right (Nat.le_refl _) |>.trans (by rw [Nat.sub_self]; rfl)
      have hs := m.step_step htask hx
      have hstep : m.Reach (fun _ l => S.GoesOn l) c _ :=
        .tail (l := .step pre.length ch) hmoves.goesOn hch hs
      have hset : c.tasks.set pre.length ⟨q, hist ++ [⟨e, r⟩], some (next r)⟩ =
          pre ++ ⟨q, hist ++ [⟨e, r⟩], some (next r)⟩ :: post := by
        rw [htasks, List.set_append_right _ _ (Nat.le_refl _), Nat.sub_self, List.set_cons_zero]
      obtain ⟨c', hist', a, hrun, hend⟩ := ih r (c := ⟨w₂, _⟩) hset (hnext r) hmeans
      exact ⟨c', hist', a, hstep.trans hrun, hend⟩

/-- So does it when it was cut off, without another step. -/
theorem finish_next (hserves : S.Serves cost means)
    (hless : ∀ n n' w, n' ≤ n → means n w → means n' w) {n k : Nat} {t : Task ρ E R α}
    {done todo : List (Task ρ E R α)} (htasks : c.tasks = done ++ t :: todo)
    (ht : ∀ p, t.rest = some p → p.Within cost n) (hmeans : means (n + k) c.world) :
    ∃ c' t', m.Reach (fun _ l => S.GoesOn l) c c' ∧ c'.tasks = done ++ t' :: todo ∧
      Finishes t t' ∧ means k c'.world := by
  obtain ⟨q, hist, rest⟩ := t
  cases rest with
  | none =>
      exact ⟨c, _, .refl, htasks, ⟨rfl, fun _ => rfl, fun h => absurd rfl h⟩,
        hless _ _ _ (Nat.le_add_left k n) hmeans⟩
  | some p =>
      obtain ⟨c', hist', a, hrun, htasks', hmeans'⟩ :=
        finish_one hserves hless htasks (ht p rfl) hmeans
      exact ⟨c', _, hrun, htasks', ⟨rfl, fun h => (by cases h), fun _ => ⟨a, rfl⟩⟩, hmeans'⟩

theorem finish_rest (hserves : S.Serves cost means)
    (hless : ∀ n n' w, n' ≤ n → means n w → means n' w) {need : Task ρ E R α → Nat}
    {done todo : List (Task ρ E R α)} (htasks : c.tasks = done ++ todo)
    (hneed : ∀ t ∈ todo, ∀ p, t.rest = some p → p.Within cost (need t))
    (hmeans : means (todo.map need).sum c.world) :
    ∃ c' todo', m.Reach (fun _ l => S.GoesOn l) c c' ∧ c'.tasks = done ++ todo' ∧
      List.Forall₂ Finishes todo todo' := by
  induction todo generalizing c done with
  | nil => exact ⟨c, [], .refl, htasks, .nil⟩
  | cons t todo ih =>
      rw [List.map_cons, List.sum_cons] at hmeans
      obtain ⟨c₁, t₁, hrun₁, htasks₁, hend₁, hmeans₁⟩ :=
        finish_next hserves hless htasks (hneed t (List.mem_cons_self ..)) hmeans
      rw [List.append_cons] at htasks₁
      obtain ⟨c', todo', hrun, htasks', hends⟩ :=
        ih htasks₁ (fun t' ht' => hneed t' (List.mem_cons_of_mem t ht')) hmeans₁
      rw [← List.append_cons] at htasks'
      exact ⟨c', t₁ :: todo', hrun₁.trans hrun, htasks', .cons hend₁ hends⟩

/-- **All tasks come to their ends**, where the world has the means for what they still do. -/
theorem finish_all (hserves : S.Serves cost means)
    (hless : ∀ n n' w, n' ≤ n → means n w → means n' w) {need : Task ρ E R α → Nat}
    (hneed : ∀ t ∈ c.tasks, ∀ p, t.rest = some p → p.Within cost (need t))
    (hmeans : means (c.tasks.map need).sum c.world) :
    ∃ c', m.Reach (fun _ l => S.GoesOn l) c c' ∧ List.Forall₂ Finishes c.tasks c'.tasks := by
  obtain ⟨c', todo', hrun, htasks, hends⟩ :=
    finish_rest hserves hless (List.nil_append c.tasks).symm hneed hmeans
  rw [List.nil_append] at htasks
  exact ⟨c', hrun, htasks ▸ hends⟩

end Setting

end Wurzburg.Lib
