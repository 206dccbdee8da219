import Wurzburg.Lib.Prog

/-!
# Wurzburg.Lib.Pool

**Pools of concurrent tasks.** A `Machine` serves requests: each request starts
a resumption program (`Wurzburg.Lib.Prog`), and the programs of all live tasks
are interleaved, one effect at a time, over one shared world. A task can be cut
off between any two of its effects, and the world can also move by itself.

Two ways of reasoning about a machine are set up here.

* **Runs.** `Machine.step` is a partial function of a label, so a concrete
  schedule is a list of labels that can be computed (`Machine.runAll`), and
  `Machine.Reach ok` is reachability by steps that meet `ok`.
* **Rely/guarantee.** A `Contract` fixes a world invariant, a relation that
  bounds what any step may change, and for every request what its task must
  establish before an effect and at its end. `Contract.Safe` is the obligation
  on one program, checked effect by effect under arbitrary interference;
  `Contract.reach` turns it into a fact about every reachable configuration.
-/

namespace Wurzburg.Lib

/-- One effect a task has issued, with the reply it got. -/
structure Event (E : Type) (R : E → Type) where
  eff : E
  reply : R eff

/-- A task: the request that started it, the effects it has issued so far, and
the rest of its program, `none` once it has been cut off. -/
structure Task (ρ E : Type) (R : E → Type) (α : Type) where
  req : ρ
  hist : List (Event E R)
  rest : Option (Prog E R α)

/-- The result of a task that has run to its end. -/
def Task.answer? {ρ E : Type} {R : E → Type} {α : Type} (t : Task ρ E R α) : Option α :=
  match t.rest with
  | some (.ret a) => some a
  | _ => none

/-- A task with an answer is at its end. -/
theorem Task.rest_of_answer {ρ E : Type} {R : E → Type} {α : Type} {t : Task ρ E R α} {a : α}
    (h : t.answer? = some a) : t.rest = some (.ret a) := by
  unfold Task.answer? at h
  split at h
  · next b hrest => rw [hrest, Option.some.inj h]
  · cases h

/-- A task that has run to its end or was cut off. -/
def Task.Stopped {ρ E : Type} {R : E → Type} {α : Type} (t : Task ρ E R α) : Prop :=
  t.rest = none ∨ ∃ a, t.rest = some (.ret a)

/-- The shared world and the tasks, in order of arrival. -/
structure Config (σ ρ E : Type) (R : E → Type) (α : Type) where
  world : σ
  tasks : List (Task ρ E R α)

/-- What can happen next: a request arrives, a task issues its next effect
(`c` fixes what the environment is free to choose), a task is cut off, or the
world moves by itself. -/
inductive Label (ρ C V : Type) where
  | arrive (q : ρ)
  | step (i : Nat) (c : C)
  | drop (i : Nat)
  | env (v : V)

/-- A server of requests `ρ` over a world `σ`. -/
structure Machine (σ ρ E : Type) (R : E → Type) (α C V : Type) where
  /-- The program that serves a request. -/
  start : ρ → Prog E R α
  /-- One effect; `none` when it cannot proceed now, or not with this choice. -/
  exec : C → (e : E) → σ → Option (R e × σ)
  /-- One move of the world by itself. -/
  env : V → σ → Option σ

namespace Machine

variable {σ ρ E α C V : Type} {R : E → Type} (m : Machine σ ρ E R α C V)

/-- A task that has just arrived. -/
def newTask (q : ρ) : Task ρ E R α := ⟨q, [], some (m.start q)⟩

/-- One step of the pool. -/
def step (c : Config σ ρ E R α) : Label ρ C V → Option (Config σ ρ E R α)
  | .arrive q => some { c with tasks := c.tasks ++ [m.newTask q] }
  | .step i ch =>
      match c.tasks[i]? with
      | some ⟨q, hist, some (.call e k)⟩ =>
          match m.exec ch e c.world with
          | some (r, w) =>
              some { world := w,
                     tasks := c.tasks.set i ⟨q, hist ++ [⟨e, r⟩], some (k r)⟩ }
          | none => none
      | _ => none
  | .drop i =>
      match c.tasks[i]? with
      | some ⟨q, hist, some (.call _ _)⟩ =>
          some { c with tasks := c.tasks.set i ⟨q, hist, none⟩ }
      | _ => none
  | .env v => (m.env v c.world).map (fun w => { c with world := w })

/-- Everything a step can do: the four labels, with their guards. -/
theorem step_cases {c c' : Config σ ρ E R α} {l : Label ρ C V} (h : m.step c l = some c') :
    (∃ q, l = .arrive q ∧ c' = { c with tasks := c.tasks ++ [m.newTask q] }) ∨
    (∃ i ch q hist e k r w, l = .step i ch ∧
      c.tasks[i]? = some ⟨q, hist, some (.call e k)⟩ ∧
      m.exec ch e c.world = some (r, w) ∧
      c' = { world := w, tasks := c.tasks.set i ⟨q, hist ++ [⟨e, r⟩], some (k r)⟩ }) ∨
    (∃ i q hist e k, l = .drop i ∧
      c.tasks[i]? = some ⟨q, hist, some (.call e k)⟩ ∧
      c' = { c with tasks := c.tasks.set i ⟨q, hist, none⟩ }) ∨
    (∃ v w, l = .env v ∧ m.env v c.world = some w ∧ c' = { c with world := w }) := by
  cases l with
  | arrive q => exact Or.inl ⟨q, rfl, (Option.some.inj h).symm⟩
  | step i ch =>
      refine Or.inr (Or.inl ?_)
      simp only [step] at h
      split at h
      · next q hist e k ht =>
          split at h
          · next r w hx => exact ⟨i, ch, q, hist, e, k, r, w, rfl, ht, hx, (Option.some.inj h).symm⟩
          · simp at h
      · simp at h
  | drop i =>
      refine Or.inr (Or.inr (Or.inl ?_))
      simp only [step] at h
      split at h
      · next q hist e k ht => exact ⟨i, q, hist, e, k, rfl, ht, (Option.some.inj h).symm⟩
      · simp at h
  | env v =>
      refine Or.inr (Or.inr (Or.inr ?_))
      obtain ⟨w, hw, rfl⟩ := Option.map_eq_some_iff.mp h
      exact ⟨v, w, rfl, hw, rfl⟩

theorem step_arrive (c : Config σ ρ E R α) (q : ρ) :
    m.step c (.arrive q) = some { c with tasks := c.tasks ++ [m.newTask q] } := rfl

theorem step_env {c : Config σ ρ E R α} {v : V} {w : σ} (h : m.env v c.world = some w) :
    m.step c (.env v) = some { c with world := w } := by
  simp only [step, h, Option.map_some]

theorem step_step {c : Config σ ρ E R α} {i : Nat} {ch : C} {q : ρ}
    {hist : List (Event E R)} {e : E} {k : R e → Prog E R α} {r : R e} {w : σ}
    (ht : c.tasks[i]? = some ⟨q, hist, some (.call e k)⟩)
    (hx : m.exec ch e c.world = some (r, w)) :
    m.step c (.step i ch) =
      some { world := w, tasks := c.tasks.set i ⟨q, hist ++ [⟨e, r⟩], some (k r)⟩ } := by
  simp only [step, ht, hx]

/-! ### Runs -/

/-- Follow a schedule. -/
def runAll : List (Label ρ C V) → Config σ ρ E R α → Option (Config σ ρ E R α)
  | [], c => some c
  | l :: ls, c => (m.step c l).bind (runAll ls)

theorem runAll_append (ls ls' : List (Label ρ C V)) (c : Config σ ρ E R α) :
    m.runAll (ls ++ ls') c = (m.runAll ls c).bind (m.runAll ls') := by
  induction ls generalizing c with
  | nil => rfl
  | cons l ls ih =>
      rw [List.cons_append, runAll, runAll]
      cases m.step c l with
      | none => rfl
      | some c' => exact ih c'

/-- Configurations reachable from `c₀` by steps that all meet `ok`. -/
inductive Reach (ok : Config σ ρ E R α → Label ρ C V → Prop) (c₀ : Config σ ρ E R α) :
    Config σ ρ E R α → Prop
  | refl : Reach ok c₀ c₀
  | tail {c c' : Config σ ρ E R α} {l : Label ρ C V} :
      Reach ok c₀ c → ok c l → m.step c l = some c' → Reach ok c₀ c'

variable {m} {ok ok' : Config σ ρ E R α → Label ρ C V → Prop}
  {c₀ c₁ c c' : Config σ ρ E R α}

theorem Reach.trans (h₁ : m.Reach ok c₀ c₁) (h₂ : m.Reach ok c₁ c) : m.Reach ok c₀ c := by
  induction h₂ with
  | refl => exact h₁
  | tail _ hok hs ih => exact ih.tail hok hs

/-- A run that meets a stronger condition meets a weaker one. -/
theorem Reach.mono (hsub : ∀ c l, ok c l → ok' c l) (h : m.Reach ok c₀ c) :
    m.Reach ok' c₀ c := by
  induction h with
  | refl => exact .refl
  | tail _ hok hs ih => exact ih.tail (hsub _ _ hok) hs

variable (m) in
/-- The configurations a schedule passes through, each with the label taken there. -/
def trace : List (Label ρ C V) → Config σ ρ E R α → List (Config σ ρ E R α × Label ρ C V)
  | [], _ => []
  | l :: ls, c =>
      (c, l) :: match m.step c l with
        | some c' => trace ls c'
        | none => []

/-- A schedule that can be followed is a run, under what holds along it. -/
theorem reach_of_runAll {ls : List (Label ρ C V)} (h : m.runAll ls c₀ = some c)
    (hok : ∀ v ∈ m.trace ls c₀, ok v.1 v.2) : m.Reach ok c₀ c := by
  induction ls generalizing c₀ with
  | nil =>
      obtain rfl : c₀ = c := by simpa [runAll] using h
      exact .refl
  | cons l ls ih =>
      obtain ⟨c₁, hs, hrest⟩ := Option.bind_eq_some_iff.mp h
      have hhead : m.Reach ok c₀ c₁ := .tail .refl (hok (c₀, l) (List.mem_cons_self ..)) hs
      refine hhead.trans (ih hrest (fun v hv => hok v (List.mem_cons_of_mem _ ?_)))
      rw [hs]
      exact hv

theorem mem_of_mem_trace {ls : List (Label ρ C V)} {v : Config σ ρ E R α × Label ρ C V}
    (h : v ∈ m.trace ls c₀) : v.2 ∈ ls := by
  induction ls generalizing c₀ with
  | nil => simp [trace] at h
  | cons l ls ih =>
      rcases List.mem_cons.mp h with rfl | h
      · exact List.mem_cons_self ..
      · split at h
        · exact List.mem_cons_of_mem _ (ih h)
        · simp at h

/-- The invariant rule: what holds at the start and is kept by every permitted
step holds of every reachable configuration. -/
theorem Reach.invariant {P : Config σ ρ E R α → Prop} (h₀ : P c₀)
    (hstep : ∀ c l c', P c → ok c l → m.step c l = some c' → P c')
    (h : m.Reach ok c₀ c) : P c := by
  induction h with
  | refl => exact h₀
  | tail _ hok hs ih => exact hstep _ _ _ ih hok hs

end Machine

/-! ### Tasks from a position on -/

section From

variable {β : Type} {n : Nat} {P Q : Nat → β → Prop} {xs : List β}

/-- Every entry from position `n` on. -/
def From (n : Nat) (P : Nat → β → Prop) (xs : List β) : Prop :=
  ∀ i x, n ≤ i → xs[i]? = some x → P i x

theorem From.mono (h : From n P xs) (himp : ∀ i x, P i x → Q i x) : From n Q xs :=
  fun i x hi hx => himp i x (h i x hi hx)

theorem From.of_length_le (h : xs.length ≤ n) : From n P xs := by
  intro i x hi hx
  rw [List.getElem?_eq_none (Nat.le_trans h hi)] at hx
  cases hx

/-- A task arrives. -/
theorem From.append {x : β} (h : From n P xs) (hx : P xs.length x) : From n P (xs ++ [x]) := by
  intro i y hi hy
  by_cases hlt : i < xs.length
  · rw [List.getElem?_append_left hlt] at hy
    exact h i y hi hy
  · obtain ⟨hle, hget⟩ := List.getElem?_eq_some_iff.mp hy
    rw [List.length_append, List.length_singleton] at hle
    obtain rfl : i = xs.length := by omega
    rw [List.getElem_append_right (Nat.le_refl _)] at hget
    simp only [Nat.sub_self, List.getElem_cons_zero] at hget
    rw [← hget]
    exact hx

/-- A task takes a step. -/
theorem From.set {i : Nat} {x : β} (h : From n P xs) (hx : Q i x)
    (hrest : ∀ m y, m ≠ i → P m y → Q m y) : From n Q (xs.set i x) := by
  intro m y hm hy
  by_cases hi : m = i
  · subst hi
    obtain ⟨hlt, hget⟩ := List.getElem?_eq_some_iff.mp hy
    rw [List.getElem_set_self] at hget
    rw [← hget]
    exact hx
  · rw [List.getElem?_set_ne (Ne.symm hi)] at hy
    exact hrest m y hi (h m y hm hy)

theorem From.of_mem_drop {x : β} (h : From n P xs) (hx : x ∈ xs.drop n) :
    ∃ i, n ≤ i ∧ xs[i]? = some x ∧ P i x := by
  obtain ⟨i, hi⟩ := List.getElem?_of_mem hx
  rw [List.getElem?_drop] at hi
  exact ⟨n + i, Nat.le_add_right n i, hi, h _ x (Nat.le_add_right n i) hi⟩

end From

/-! ### Rely/guarantee -/

section Contract

variable {σ ρ E α C V : Type} {R : E → Type}

/-- What is asked of the tasks of a machine. -/
structure Contract (m : Machine σ ρ E R α C V) where
  /-- The world invariant. -/
  valid : σ → Prop
  /-- What any step may change: the rely of every task and its guarantee. -/
  grows : σ → σ → Prop
  /-- The environment choices under consideration, for a task of this request
  that has issued these effects and is about to issue the next one. -/
  allow : ρ → List (Event E R) → C → E → σ → Prop
  /-- What a task establishes before it issues an effect. -/
  pre : ρ → List (Event E R) → E → σ → Prop
  refl : ∀ s, grows s s
  trans : ∀ {s₁ s₂ s₃}, grows s₁ s₂ → grows s₂ s₃ → grows s₁ s₃

namespace Contract

variable {m : Machine σ ρ E R α C V} (K : Contract m) {β : Type}

/-- A program keeps the contract from state `s` with history `hist`, whatever
the other tasks and the world do in between, and ends in `post`. -/
def Safe (q : ρ) (post : List (Event E R) → β → σ → Prop) :
    List (Event E R) → Prog E R β → σ → Prop
  | hist, .ret a, s => ∀ s', K.valid s' → K.grows s s' → post hist a s'
  | hist, .call e k, s => ∀ s', K.valid s' → K.grows s s' →
      K.pre q hist e s' ∧
      ∀ ch r s'', K.allow q hist ch e s' → m.exec ch e s' = some (r, s'') →
        K.valid s'' ∧ K.grows s' s'' ∧ Safe q post (hist ++ [⟨e, r⟩]) (k r) s''

variable {K} {q : ρ} {post post' : List (Event E R) → β → σ → Prop}
  {hist : List (Event E R)}

/-- Interference does not break a program's safety. -/
theorem Safe.mono {p : Prog E R β} {s s' : σ} (h : K.Safe q post hist p s)
    (hg : K.grows s s') : K.Safe q post hist p s' := by
  cases p with
  | ret a => exact fun t hv ht => h t hv (K.trans hg ht)
  | call e k => exact fun t hv ht => h t hv (K.trans hg ht)

theorem Safe.weaken {p : Prog E R β} {s : σ} (h : K.Safe q post hist p s)
    (himp : ∀ hist a s, K.valid s → post hist a s → post' hist a s) :
    K.Safe q post' hist p s := by
  induction p generalizing hist s with
  | ret a => exact fun t hv ht => himp _ _ _ hv (h t hv ht)
  | call e k ih =>
      intro t hv ht
      obtain ⟨hpre, hstep⟩ := h t hv ht
      refine ⟨hpre, fun ch r t' hal hx => ?_⟩
      obtain ⟨hv', hg', hk⟩ := hstep ch r t' hal hx
      exact ⟨hv', hg', ih r hk⟩

/-- A sequence is safe when its first part is, and its second part is from
every end of the first. -/
theorem Safe.bind {γ : Type} {p : Prog E R β} {f : β → Prog E R γ} {s : σ}
    {post' : List (Event E R) → γ → σ → Prop}
    (h : K.Safe q post hist p s) (hs : K.valid s)
    (hf : ∀ hist' a s', K.valid s' → K.grows s s' → K.Safe q post hist' (.ret a) s' →
      K.Safe q post' hist' (f a) s') :
    K.Safe q post' hist (p.bind f) s := by
  induction p generalizing hist s with
  | ret a => exact hf _ _ _ hs (K.refl s) h
  | call e k ih =>
      intro t hv ht
      obtain ⟨hpre, hstep⟩ := h t hv ht
      refine ⟨hpre, fun ch r t' hal hx => ?_⟩
      obtain ⟨hv', hg', hk⟩ := hstep ch r t' hal hx
      exact ⟨hv', hg', ih r hk hv' (fun hist' a s' hvs hgs hp =>
        hf hist' a s' hvs (K.trans ht (K.trans hg' hgs)) hp)⟩

/-- A computation that can fail: `M` holds of what it returns, and a failure
meets the postcondition of the whole. -/
def SafeE (K : Contract m) (q : ρ) {ε γ : Type} (M : List (Event E R) → β → σ → Prop)
    (post : List (Event E R) → Except ε γ → σ → Prop) (hist : List (Event E R))
    (x : ExceptT ε (Prog E R) β) (s : σ) : Prop :=
  K.Safe q (fun hist r s =>
    match r with
    | .ok b => M hist b s
    | .error e => post hist (.error e) s) hist x.run s

theorem SafeE.mono {ε γ : Type} {M : List (Event E R) → β → σ → Prop}
    {post : List (Event E R) → Except ε γ → σ → Prop} {x : ExceptT ε (Prog E R) β} {s s' : σ}
    (h : K.SafeE q M post hist x s) (hg : K.grows s s') : K.SafeE q M post hist x s' :=
  Safe.mono h hg

/-- Sequencing of computations that can fail. -/
theorem SafeE.bind {ε γ δ : Type} {M : List (Event E R) → β → σ → Prop}
    {N : List (Event E R) → γ → σ → Prop} {post : List (Event E R) → Except ε δ → σ → Prop}
    {x : ExceptT ε (Prog E R) β} {f : β → ExceptT ε (Prog E R) γ} {s : σ}
    (h : K.SafeE q M post hist x s) (hs : K.valid s)
    (hf : ∀ hist' b s', K.valid s' → K.grows s s' → M hist' b s' →
      K.SafeE q N post hist' (f b) s') :
    K.SafeE q N post hist (x >>= f) s := by
  refine Safe.bind (f := ExceptT.bindCont f) h hs ?_
  intro hist' r s' hv hg hr
  cases r with
  | ok b => exact hf hist' b s' hv hg (hr s' hv (K.refl s'))
  | error e => exact hr

theorem SafeE.pure {ε γ : Type} {M : List (Event E R) → β → σ → Prop}
    {post : List (Event E R) → Except ε γ → σ → Prop} {b : β} {s : σ}
    (h : ∀ s', K.valid s' → K.grows s s' → M hist b s') :
    K.SafeE q M post hist (pure b) s :=
  h

theorem SafeE.throw {ε γ : Type} {M : List (Event E R) → β → σ → Prop}
    {post : List (Event E R) → Except ε γ → σ → Prop} {e : ε} {s : σ}
    (h : ∀ s', K.valid s' → K.grows s s' → post hist (.error e) s') :
    K.SafeE q M post hist (throw e) s :=
  h

theorem SafeE.weaken {ε γ : Type} {M N : List (Event E R) → β → σ → Prop}
    {post : List (Event E R) → Except ε γ → σ → Prop} {x : ExceptT ε (Prog E R) β} {s : σ}
    (h : K.SafeE q M post hist x s)
    (himp : ∀ hist b s, K.valid s → M hist b s → N hist b s) :
    K.SafeE q N post hist x s := by
  refine Safe.weaken h ?_
  intro hist r s hv hr
  cases r with
  | ok b => exact himp hist b s hv hr
  | error e => exact hr

/-- Programs that issue only effects which keep the contract by themselves are
safe. -/
theorem Safe.of_uses {allowed : E → Prop} {p : Prog E R β} {s : σ} (hp : p.Uses allowed)
    (hpre : ∀ hist e s, K.valid s → allowed e → K.pre q hist e s)
    (hexec : ∀ hist ch e s r s', K.valid s → allowed e → K.allow q hist ch e s →
      m.exec ch e s = some (r, s') → K.valid s' ∧ K.grows s s') :
    K.Safe q (fun _ _ _ => True) hist p s := by
  induction p generalizing hist s with
  | ret a => exact fun _ _ _ => trivial
  | call e k ih =>
      intro t hv _
      refine ⟨hpre _ _ _ hv hp.1, fun ch r t' hal hx => ?_⟩
      obtain ⟨hv', hg'⟩ := hexec _ _ _ _ _ _ hv hp.1 hal hx
      exact ⟨hv', hg', ih r (hp.2 r)⟩

variable (K) (Q : ρ → List (Event E R) → α → σ → Prop)

/-- The contract holds in a configuration: the world is valid and every live
task is safe for the rest of its program. -/
structure Holds (c : Config σ ρ E R α) : Prop where
  world : K.valid c.world
  tasks : ∀ t ∈ c.tasks, ∀ p, t.rest = some p → K.Safe t.req (Q t.req) t.hist p c.world

variable {K Q} {ok : Config σ ρ E R α → Label ρ C V → Prop} {c c₀ c' : Config σ ρ E R α}

/-- Replacing one task, under growth of the world, keeps every task safe. -/
theorem Holds.set {w : σ} {i : Nat} {t : Task ρ E R α} (h : K.Holds Q c)
    (hw : K.valid w) (hg : K.grows c.world w)
    (ht : ∀ p, t.rest = some p → K.Safe t.req (Q t.req) t.hist p w) :
    K.Holds Q { world := w, tasks := c.tasks.set i t } where
  world := hw
  tasks := by
    intro u hu p hp
    rcases List.mem_or_eq_of_mem_set hu with hu | rfl
    · exact (h.tasks u hu p hp).mono hg
    · exact ht p hp

/-- The side conditions under which a contract is kept by every permitted
step: choices are the allowed ones, the world's own moves keep the invariant,
and every arriving request starts a safe program. -/
structure Sound (K : Contract m) (Q : ρ → List (Event E R) → α → σ → Prop)
    (ok : Config σ ρ E R α → Label ρ C V → Prop) : Prop where
  allow : ∀ (c : Config σ ρ E R α) i ch q hist e k, K.Holds Q c → ok c (.step i ch) →
    c.tasks[i]? = some ⟨q, hist, some (.call e k)⟩ → K.allow q hist ch e c.world
  env : ∀ c v w, K.valid c.world → ok c (.env v) → m.env v c.world = some w →
    K.valid w ∧ K.grows c.world w
  start : ∀ c q, K.valid c.world → ok c (.arrive q) →
    K.Safe q (Q q) [] (m.start q) c.world

/-- One permitted step keeps the contract and only grows the world. -/
theorem Sound.step {l : Label ρ C V} (hS : Sound K Q ok) (h : K.Holds Q c) (hok : ok c l)
    (hs : m.step c l = some c') : K.Holds Q c' ∧ K.grows c.world c'.world := by
  rcases m.step_cases hs with ⟨q, rfl, rfl⟩ | ⟨i, ch, q, hist, e, k, r, w, rfl, ht, hx, rfl⟩ |
    ⟨i, q, hist, e, k, rfl, ht, rfl⟩ | ⟨v, w, rfl, hw, rfl⟩
  · refine ⟨⟨h.world, ?_⟩, K.refl _⟩
    intro t ht p hp
    rcases List.mem_append.mp ht with ht | ht
    · exact h.tasks t ht p hp
    · obtain rfl := List.mem_singleton.mp ht
      obtain rfl := Option.some.inj hp
      exact hS.start c q h.world hok
  · have hsafe := h.tasks _ (List.mem_of_getElem? ht) _ rfl
    have hal := hS.allow c i ch q hist e k h hok ht
    obtain ⟨-, hstep⟩ := hsafe c.world h.world (K.refl _)
    obtain ⟨hv, hg, hk⟩ := hstep ch r w hal hx
    refine ⟨h.set hv hg ?_, hg⟩
    intro p hp
    obtain rfl := Option.some.inj hp
    exact hk
  · refine ⟨h.set h.world (K.refl _) ?_, K.refl _⟩
    intro p hp
    simp at hp
  · obtain ⟨hv, hg⟩ := hS.env c v w h.world hok hw
    exact ⟨⟨hv, fun t ht p hp => (h.tasks t ht p hp).mono hg⟩, hg⟩

/-- **The rely/guarantee rule.** A sound contract holds in every reachable
configuration, whose world has grown from the first. -/
theorem reach (hS : Sound K Q ok) (h₀ : K.Holds Q c₀) (h : m.Reach ok c₀ c) :
    K.Holds Q c ∧ K.grows c₀.world c.world := by
  induction h with
  | refl => exact ⟨h₀, K.refl _⟩
  | tail _ hok hs ih =>
      obtain ⟨hc, hg⟩ := hS.step ih.1 hok hs
      exact ⟨hc, K.trans ih.2 hg⟩

/-- A task that has finished has met its postcondition. -/
theorem Holds.answered {t : Task ρ E R α} {a : α} (h : K.Holds Q c) (ht : t ∈ c.tasks)
    (ha : t.answer? = some a) : Q t.req t.hist a c.world := by
  have hrest : t.rest = some (.ret a) := by
    unfold Task.answer? at ha
    split at ha
    · next a' hr => rw [hr, Option.some.inj ha]
    · simp at ha
  exact h.tasks t ht _ hrest c.world h.world (K.refl _)

/-- A task about to issue an effect has met that effect's precondition. -/
theorem Holds.pending {t : Task ρ E R α} {e : E} {k : R e → Prog E R α} (h : K.Holds Q c)
    (ht : t ∈ c.tasks) (hrest : t.rest = some (.call e k)) : K.pre t.req t.hist e c.world :=
  (h.tasks t ht _ hrest c.world h.world (K.refl _)).1

end Contract

end Contract

end Wurzburg.Lib
