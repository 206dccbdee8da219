import Wurzburg.Lib.Pool
import Mathlib.Logic.Relation

/-!
# Wurzburg.Lib.Alone

**Total correctness of a task that runs alone.** Only one task of a pool takes
steps, while the world keeps moving by itself. A `Setting` fixes which choices
and which moves of the world are considered and what must hold all along;
`Setting.Total` is the obligation on one program, with the world free to move
before each of its effects.

A program that meets it ends in its postcondition (`Total.answer`), keeps
meeting it along every run (`Total.run`) and, when the setting is live, can
always still be brought to its end (`Total.finishes`).
-/

namespace Wurzburg.Lib

variable {σ ρ E α C V : Type} {R : E → Type}

/-- Only task `i` and the world move, with choices and moves of a given kind. -/
def Label.Alone (choice : C → Prop) (move : V → Prop) (i : Nat) : Label ρ C V → Prop
  | .step j ch => j = i ∧ choice ch
  | .env v => move v
  | _ => False

/-- The circumstances in which a task runs alone. -/
structure Setting (m : Machine σ ρ E R α C V) where
  /-- The choices of the environment under consideration. -/
  choice : C → Prop
  /-- The moves of the world under consideration. -/
  move : V → Prop
  /-- What holds all along. -/
  during : σ → Prop
  /-- The task is never stuck for good. -/
  live : Prop

namespace Setting

variable {m : Machine σ ρ E R α C V} (S : Setting m) {β γ : Type}

/-- Any number of moves of the world. -/
def Moves : σ → σ → Prop :=
  Relation.ReflTransGen (fun s s' => ∃ v, S.move v ∧ m.env v s = some s')

/-- From state `s` the program ends in `Q`, whatever the choices are and however
the world moves in between. -/
def Total (Q : β → σ → Prop) : Prog E R β → σ → Prop
  | .ret a, s => ∀ s', S.Moves s s' → S.during s' ∧ Q a s'
  | .call e k, s => ∀ s', S.Moves s s' →
      S.during s' ∧
      (S.live → ∃ s'' ch out, S.Moves s' s'' ∧ S.choice ch ∧ m.exec ch e s'' = some out) ∧
      ∀ ch r s'', S.choice ch → m.exec ch e s' = some (r, s'') → Total Q (k r) s''

variable {S} {Q Q' : β → σ → Prop} {p : Prog E R β} {s s' : σ}

theorem Total.during (h : S.Total Q p s) : S.during s := by
  cases p with
  | ret a => exact (h s .refl).1
  | call e k => exact (h s .refl).1

/-- The world may move first. -/
theorem Total.moves (h : S.Total Q p s) (hm : S.Moves s s') : S.Total Q p s' := by
  cases p with
  | ret a => exact fun t ht => h t (hm.trans ht)
  | call e k => exact fun t ht => h t (hm.trans ht)

theorem Total.weaken (h : S.Total Q p s) (himp : ∀ a s, Q a s → Q' a s) : S.Total Q' p s := by
  induction p generalizing s with
  | ret a => exact fun t ht => ⟨(h t ht).1, himp a t (h t ht).2⟩
  | call e k ih =>
      intro t ht
      obtain ⟨hd, hl, hk⟩ := h t ht
      exact ⟨hd, hl, fun ch r t' hc hx => ih r (hk ch r t' hc hx)⟩

/-- A sequence is totally correct when its second part is from every end of the
first. -/
theorem Total.bind {f : β → Prog E R γ} {N : γ → σ → Prop} (h : S.Total Q p s)
    (hf : ∀ a s', S.Total Q (.ret a) s' → S.Total N (f a) s') : S.Total N (p.bind f) s := by
  induction p generalizing s with
  | ret a => exact hf a s h
  | call e k ih =>
      intro t ht
      obtain ⟨hd, hl, hk⟩ := h t ht
      exact ⟨hd, hl, fun ch r t' hc hx => ih r (hk ch r t' hc hx)⟩

/-- **The frame rule.** What neither the world nor the effects a program can issue change
holds of its end as well. -/
theorem Total.frame {K : σ → Prop} {allowed : E → Prop} (hp : p.Uses allowed)
    (hmove : ∀ v s s', S.move v → m.env v s = some s' → K s → K s')
    (hexec : ∀ ch e r s s', allowed e → S.choice ch → m.exec ch e s = some (r, s') → K s → K s')
    (h : S.Total Q p s) (hs : K s) : S.Total (fun a s => Q a s ∧ K s) p s := by
  have hmoves : ∀ s s', S.Moves s s' → K s → K s' := by
    intro s s' hm hs
    induction hm with
    | refl => exact hs
    | tail _ hstep ih =>
        obtain ⟨v, hv, hw⟩ := hstep
        exact hmove v _ _ hv hw ih
  induction p generalizing s with
  | ret a => exact fun t ht => ⟨(h t ht).1, (h t ht).2, hmoves s t ht hs⟩
  | call e k ih =>
      intro t ht
      obtain ⟨hd, hl, hk⟩ := h t ht
      exact ⟨hd, hl, fun ch r t' hc hx => ih r (hp.2 r) (hk ch r t' hc hx)
        (hexec ch e r t t' hp.1 hc hx (hmoves s t ht hs))⟩

/-- A finished program has met its postcondition. -/
theorem Total.answer {a : β} (h : S.Total Q (.ret a) s) : Q a s :=
  (h s .refl).2

/-! ### Programs that can fail -/

/-- A computation that can fail: `M` holds of what it returns, and a failure
meets the postcondition of the whole. -/
def TotalE (S : Setting m) {ε δ : Type} (M : β → σ → Prop) (post : Except ε δ → σ → Prop)
    (x : ExceptT ε (Prog E R) β) (s : σ) : Prop :=
  S.Total (fun r s =>
    match r with
    | .ok b => M b s
    | .error e => post (.error e) s) x.run s

variable {ε δ : Type} {M M' : β → σ → Prop} {N : γ → σ → Prop} {post : Except ε δ → σ → Prop}
  {x : ExceptT ε (Prog E R) β}

theorem TotalE.moves (h : S.TotalE M post x s) (hm : S.Moves s s') : S.TotalE M post x s' :=
  Total.moves h hm

theorem TotalE.bind {f : β → ExceptT ε (Prog E R) γ} (h : S.TotalE M post x s)
    (hf : ∀ b s', (∀ t, S.Moves s' t → S.during t ∧ M b t) → S.TotalE N post (f b) s') :
    S.TotalE N post (x >>= f) s := by
  refine Total.bind (f := ExceptT.bindCont f) h (fun r s' hr => ?_)
  cases r with
  | ok b => exact hf b s' hr
  | error e => exact hr

theorem TotalE.pure {b : β} (h : ∀ t, S.Moves s t → S.during t ∧ M b t) :
    S.TotalE M post (Pure.pure b) s :=
  h

theorem TotalE.throw {e : ε} (h : ∀ t, S.Moves s t → S.during t ∧ post (.error e) t) :
    S.TotalE M post (MonadExcept.throw e) s :=
  h

/-- One postcondition for the result and the failure. -/
theorem TotalE.total {post : Except ε β → σ → Prop}
    (h : S.TotalE (fun b => post (.ok b)) post x s) : S.Total post x.run s := by
  refine Total.weaken h (fun r s hr => ?_)
  cases r with
  | ok b => exact hr
  | error e => exact hr

theorem TotalE.weaken (h : S.TotalE M post x s) (himp : ∀ b s, M b s → M' b s) :
    S.TotalE M' post x s := by
  refine Total.weaken h (fun r s hr => ?_)
  cases r with
  | ok b => exact himp b s hr
  | error e => exact hr

theorem TotalE.frame {K : σ → Prop} {allowed : E → Prop} (hx : Prog.UsesE allowed x)
    (hmove : ∀ v s s', S.move v → m.env v s = some s' → K s → K s')
    (hexec : ∀ ch e r s s', allowed e → S.choice ch → m.exec ch e s = some (r, s') → K s → K s')
    (h : S.TotalE M post x s) (hs : K s) :
    S.TotalE (fun b s => M b s ∧ K s) (fun r s => post r s ∧ K s) x s := by
  refine Total.weaken (Total.frame hx hmove hexec h hs) (fun r s hr => ?_)
  cases r with
  | ok b => exact hr
  | error e => exact hr

/-! ### Runs -/

variable {ρ : Type} {m : Machine σ ρ E R α C V} {S : Setting m} {Q : α → σ → Prop}
  {c c' : Config σ ρ E R α} {i : Nat} {q : ρ}

/-- Moves of the world are a run of the pool. -/
theorem Moves.reach {w : σ} (h : S.Moves c.world w) :
    m.Reach (fun _ l => l.Alone S.choice S.move i) c { c with world := w } := by
  induction h with
  | refl => exact .refl
  | tail _ hstep ih =>
      obtain ⟨v, hv, hw⟩ := hstep
      refine ih.tail ?_ (m.step_env hw)
      exact hv

/-- **The run lemma.** What is left of a task that runs alone is totally correct
in every state it comes to. -/
theorem Total.run {hist : List (Event E R)} {p : Prog E R α}
    (ht : c.tasks[i]? = some ⟨q, hist, some p⟩) (h : S.Total Q p c.world)
    (hrun : m.Reach (fun _ l => l.Alone S.choice S.move i) c c') :
    ∃ hist' p', c'.tasks[i]? = some ⟨q, hist', some p'⟩ ∧ S.Total Q p' c'.world := by
  induction hrun with
  | refl => exact ⟨hist, p, ht, h⟩
  | tail _ hok hs ih =>
      obtain ⟨hist₁, p₁, ht₁, h₁⟩ := ih
      rcases m.step_cases hs with ⟨q', rfl, -⟩ | ⟨j, ch, q', hist', e, k, r, w, rfl, hj, hx, rfl⟩ |
        ⟨j, q', hist', e, k, rfl, -, -⟩ | ⟨v, w, rfl, hw, rfl⟩
      · exact hok.elim
      · obtain ⟨rfl, hch⟩ := hok
        rw [ht₁] at hj
        obtain ⟨rfl, rfl, hp⟩ := Task.mk.inj (Option.some.inj hj)
        obtain rfl := Option.some.inj hp
        obtain ⟨-, -, hk⟩ := h₁ _ .refl
        refine ⟨_, _, List.getElem?_set_self ?_, hk ch r w hch hx⟩
        exact (List.getElem?_eq_some_iff.mp ht₁).1
      · exact hok.elim
      · exact ⟨hist₁, p₁, ht₁, h₁.moves (.single ⟨v, hok, hw⟩)⟩

/-- A program run to its end, each effect after some moves of the world, is a run of
the task alone. -/
theorem reach_of_tryRun {serve : (e : E) → σ → Option (R e × σ)}
    (hserve : ∀ e w r w', serve e w = some (r, w') →
      ∃ w₁ ch, S.Moves w w₁ ∧ S.choice ch ∧ m.exec ch e w₁ = some (r, w'))
    {hist : List (Event E R)} {p : Prog E R α} {a : α} {w' : σ}
    (ht : c.tasks[i]? = some ⟨q, hist, some p⟩) (h : p.tryRun serve c.world = some (a, w')) :
    ∃ c' t, m.Reach (fun _ l => l.Alone S.choice S.move i) c c' ∧ c'.world = w' ∧
      c'.tasks[i]? = some t ∧ t.req = q ∧ t.answer? = some a := by
  induction p generalizing c hist with
  | ret b =>
      obtain ⟨rfl, rfl⟩ := Prod.mk.inj (Option.some.inj h)
      exact ⟨c, _, .refl, rfl, ht, rfl, rfl⟩
  | call e k ih =>
      obtain ⟨r, w₂, he, hk⟩ := Prog.tryRun_call_some h
      obtain ⟨w₁, ch, hmoves, hch, hx⟩ := hserve e c.world r w₂ he
      have hs := m.step_step (c := { c with world := w₁ }) ht hx
      have hnext : (c.tasks.set i ⟨q, hist ++ [⟨e, r⟩], some (k r)⟩)[i]? =
          some ⟨q, hist ++ [⟨e, r⟩], some (k r)⟩ :=
        List.getElem?_set_self (List.getElem?_eq_some_iff.mp ht).1
      obtain ⟨c', t, hrun, hend⟩ := ih r (c := ⟨w₂, _⟩) hnext hk
      refine ⟨c', t, (hmoves.reach.tail ?_ hs).trans hrun, hend⟩
      exact ⟨rfl, hch⟩

/-- What a finished task has established. -/
theorem Total.answered {hist : List (Event E R)} {p : Prog E R α} {t : Task ρ E R α} {a : α}
    (ht : c.tasks[i]? = some ⟨q, hist, some p⟩) (h : S.Total Q p c.world)
    (hrun : m.Reach (fun _ l => l.Alone S.choice S.move i) c c')
    (ht' : c'.tasks[i]? = some t) (ha : t.answer? = some a) : Q a c'.world := by
  obtain ⟨hist', p', htask, htotal⟩ := h.run ht hrun
  rw [htask] at ht'
  obtain rfl := Option.some.inj ht'
  cases p' with
  | ret a' =>
      obtain rfl : a' = a := Option.some.inj ha
      exact htotal.answer
  | call e k => simp [Task.answer?] at ha

/-- In a live setting a task that runs alone can be brought to its end. -/
theorem Total.finishes {hist : List (Event E R)} {p : Prog E R α} (hlive : S.live)
    (ht : c.tasks[i]? = some ⟨q, hist, some p⟩) (h : S.Total Q p c.world) :
    ∃ c' t a, m.Reach (fun _ l => l.Alone S.choice S.move i) c c' ∧
      c'.tasks[i]? = some t ∧ t.answer? = some a := by
  induction p generalizing c hist with
  | ret a => exact ⟨c, _, a, .refl, ht, rfl⟩
  | call e k ih =>
      obtain ⟨-, hl, -⟩ := h c.world .refl
      obtain ⟨w, ch, ⟨r, w'⟩, hmoves, hch, hx⟩ := hl hlive
      obtain ⟨-, -, hk⟩ := h w hmoves
      have hs := m.step_step (c := { c with world := w }) ht hx
      have hnext : (c.tasks.set i ⟨q, hist ++ [⟨e, r⟩], some (k r)⟩)[i]? =
          some ⟨q, hist ++ [⟨e, r⟩], some (k r)⟩ :=
        List.getElem?_set_self (List.getElem?_eq_some_iff.mp ht).1
      obtain ⟨c', t, a, hrun, hend⟩ := ih r (c := ⟨w', _⟩) hnext (hk ch r w' hch hx)
      refine ⟨c', t, a, (hmoves.reach.tail ?_ hs).trans hrun, hend⟩
      exact ⟨rfl, hch⟩

end Setting

end Wurzburg.Lib
