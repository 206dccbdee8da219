import Wurzburg.Lib.Pool
import Mathlib.Data.List.Forall2

/-!
# Wurzburg.Lib.Expand

**Effects carried out in smaller steps.** An effect of one machine can be a whole
program of effects of another. `Prog.expand` puts these programs in place of the
effects; between their steps other tasks move, and a task can be cut off there.

An `Expansion` relates the worlds of the two machines. Each effect commits at one step
of its program (`Expansion.Commits`): before it and after it the smaller steps are
invisible above, and at it the effect is issued above. What the earlier steps brought
about, the later ones may rely on when nothing below undoes it (`Machine.Stable`).

`Expansion.simulates` is the proof rule: whatever the machine below reaches, the machine
above reaches with related worlds, and with the same answers (`Simulated.answered`).
-/

namespace Wurzburg.Lib

variable {E E' : Type} {R : E → Type} {R' : E' → Type} {α β : Type}

/-- The program with each effect carried out by smaller ones. -/
def Prog.expand (impl : (e : E) → Prog E' R' (R e)) : Prog E R α → Prog E' R' α
  | .ret a => .ret a
  | .call e k => (impl e).bind (fun r => (k r).expand impl)

@[simp] theorem Prog.expand_ret (impl : (e : E) → Prog E' R' (R e)) (a : α) :
    (Prog.ret a : Prog E R α).expand impl = .ret a := rfl

@[simp] theorem Prog.expand_call (impl : (e : E) → Prog E' R' (R e)) (e : E)
    (k : R e → Prog E R α) :
    (Prog.call e k).expand impl = (impl e).bind (fun r => (k r).expand impl) := rfl

/-- What neither an effect nor the world by itself undoes. -/
structure Machine.Stable {σ ρ C V : Type} (m : Machine σ ρ E R α C V) (note : σ → Prop) : Prop where
  exec : ∀ ch e s r t, note s → m.exec ch e s = some (r, t) → note t
  env : ∀ v s t, note s → m.env v s = some t → note t

theorem Machine.Stable.trivially {σ ρ C V : Type} (m : Machine σ ρ E R α C V) :
    m.Stable (fun _ => True) :=
  ⟨fun _ _ _ _ _ _ _ => trivial, fun _ _ _ _ _ => trivial⟩

/-- How the effects of the machine `m` are carried out on the machine `low`. -/
structure Expansion {σ σ' ρ C C' V V' : Type} (m : Machine σ ρ E R α C V)
    (low : Machine σ' ρ E' R' α C' V') where
  /-- The program of each effect. -/
  impl : (e : E) → Prog E' R' (R e)
  /-- Which worlds belong together. -/
  rel : σ' → σ → Prop
  /-- What holds of the world above when a task is about to issue the effect. -/
  ready : E → σ → Prop
  /-- What a step above may change. -/
  grows : σ → σ → Prop

namespace Expansion

variable {σ σ' ρ C C' V V' : Type} {m : Machine σ ρ E R α C V}
  {low : Machine σ' ρ E' R' α C' V'} (X : Expansion m low)

/-! ### Commitment -/

/-- What is left of the program is invisible above, and it returns `b`. -/
def Settles (b : β) : Prog E' R' β → Prop
  | .ret b' => b' = b
  | .call e' k' => ∀ ch' s' s r' t', X.rel s' s → low.exec ch' e' s' = some (r', t') →
      X.rel t' s ∧ Settles b (k' r')

/-- From a world of which `note` holds, the program is invisible above up to one step, at
which the effect is issued above with the reply that the program goes on to return. -/
def Commits (e : E) : (note : σ' → Prop) → Prog E' R' (R e) → Prop
  | _, .ret _ => False
  | note, .call e' k' => ∀ ch' s' s r' t', note s' → X.rel s' s → X.ready e s →
      low.exec ch' e' s' = some (r', t') →
      (X.rel t' s ∧ ∃ note', low.Stable note' ∧ note' t' ∧ Commits e note' (k' r')) ∨
      ∃ ch r t, m.exec ch e s = some (r, t) ∧ (X.grows s t → X.rel t' t) ∧ X.Settles r (k' r')

/-- Every effect is carried out by a program that commits. -/
def Sound : Prop := ∀ e, X.Commits e (fun _ => True) (X.impl e)

/-- What is left of a task below, by what is left of it above: it is at the same effect and
has not committed yet, or it has and what follows above is not begun. -/
inductive Follows (s' : σ') : Prog E' R' α → Prog E R α → Prop
  | ret (a : α) : Follows s' (.ret a) (.ret a)
  | pending {e : E} {e' : E'} {k : R e → Prog E R α} {k' : R' e' → Prog E' R' (R e)}
      {note : σ' → Prop} :
      low.Stable note → note s' → X.Commits e note (.call e' k') →
      Follows s' (.call e' (fun r' => (k' r').bind (fun r => (k r).expand X.impl))) (.call e k)
  | settling {β : Type} {b : β} {e' : E'} {k : β → Prog E R α} {k' : R' e' → Prog E' R' β} :
      X.Settles b (.call e' k') →
      Follows s' (.call e' (fun r' => (k' r').bind (fun b => (k b).expand X.impl))) (k b)

variable {X} {s' t' : σ'}

theorem Follows.of_commits {e : E} {k : R e → Prog E R α} {p : Prog E' R' (R e)}
    {note : σ' → Prop} (hstable : low.Stable note) (hnote : note s') (h : X.Commits e note p) :
    X.Follows s' (p.bind (fun r => (k r).expand X.impl)) (.call e k) := by
  cases p with
  | ret r => exact h.elim
  | call e' k' => exact .pending hstable hnote h

theorem Sound.follows_expand (hX : X.Sound) (p : Prog E R α) :
    X.Follows s' (p.expand X.impl) p := by
  cases p with
  | ret a => exact .ret a
  | call e k => exact .of_commits (.trivially low) trivial (hX e)

theorem Follows.of_settles (hX : X.Sound) {b : β} {k : β → Prog E R α} {p : Prog E' R' β}
    (h : X.Settles b p) : X.Follows s' (p.bind (fun b => (k b).expand X.impl)) (k b) := by
  cases p with
  | ret b' =>
      obtain rfl : b' = b := h
      exact hX.follows_expand (k b')
  | call e' k' => exact .settling h

/-- What the others do does not matter. -/
theorem Follows.mono {p' : Prog E' R' α} {p : Prog E R α} (h : X.Follows s' p' p)
    (hstable : ∀ note, low.Stable note → note s' → note t') : X.Follows t' p' p := by
  cases h with
  | ret a => exact .ret a
  | pending hnote hs hcommits => exact .pending hnote (hstable _ hnote hs) hcommits
  | settling hsettles => exact .settling hsettles

/-- A task that has its result below has it above. -/
theorem Follows.of_ret {a : α} {p : Prog E R α} (h : X.Follows s' (.ret a) p) : p = .ret a := by
  cases h
  rfl

/-- One step below: invisible above, or the effect that the task is at above. -/
theorem Follows.step (hX : X.Sound) {e' : E'} {k' : R' e' → Prog E' R' α} {p : Prog E R α}
    (h : X.Follows s' (.call e' k') p) {ch' : C'} {s : σ} {r' : R' e'} (hrel : X.rel s' s)
    (hready : ∀ e k, p = .call e k → X.ready e s) (hx : low.exec ch' e' s' = some (r', t')) :
    (X.rel t' s ∧ X.Follows t' (k' r') p) ∨
    ∃ e k ch r t, p = .call e k ∧ m.exec ch e s = some (r, t) ∧ (X.grows s t → X.rel t' t) ∧
      X.Follows t' (k' r') (k r) := by
  cases h with
  | @pending e _ k _ note hstable hnote hcommits =>
      rcases hcommits ch' s' s r' t' hnote hrel (hready e k rfl) hx with
        ⟨hrel', note', hstable', hnote', hcommits'⟩ | ⟨ch, r, t, hxm, hrel', hsettles⟩
      · exact Or.inl ⟨hrel', .of_commits hstable' hnote' hcommits'⟩
      · exact Or.inr ⟨e, k, ch, r, t, rfl, hxm, hrel', .of_settles hX hsettles⟩
  | settling hsettles =>
      obtain ⟨hrel', hsettles'⟩ := hsettles ch' s' s r' t' hrel hx
      exact Or.inl ⟨hrel', .of_settles hX hsettles'⟩

/-! ### Tasks -/

theorem forall₂_getElem? {γ δ : Type} {S : γ → δ → Prop} {xs : List γ} {ys : List δ}
    (h : List.Forall₂ S xs ys) {i : Nat} {x : γ} (hx : xs[i]? = some x) :
    ∃ y, ys[i]? = some y ∧ S x y := by
  induction h generalizing i with
  | nil => simp at hx
  | @cons a b xs ys hab _ ih =>
      cases i with
      | zero =>
          obtain rfl : a = x := by simpa using hx
          exact ⟨b, by simp, hab⟩
      | succ i =>
          obtain ⟨y, hy, hxy⟩ := ih (by simpa using hx)
          exact ⟨y, by simpa using hy, hxy⟩

theorem forall₂_set {γ δ : Type} {S : γ → δ → Prop} {xs : List γ} {ys : List δ}
    (h : List.Forall₂ S xs ys) (i : Nat) {x : γ} {y : δ} (hxy : S x y) :
    List.Forall₂ S (xs.set i x) (ys.set i y) := by
  induction h generalizing i with
  | nil => exact .nil
  | cons hab hrest ih =>
      cases i with
      | zero => exact .cons hxy hrest
      | succ i => exact .cons hab (ih i)

theorem forall₂_set_left {γ δ : Type} {S : γ → δ → Prop} {xs : List γ} {ys : List δ}
    (h : List.Forall₂ S xs ys) {i : Nat} {x : γ} {y : δ} (hy : ys[i]? = some y) (hxy : S x y) :
    List.Forall₂ S (xs.set i x) ys := by
  have hset := forall₂_set h i hxy
  obtain ⟨hlt, rfl⟩ := List.getElem?_eq_some_iff.mp hy
  rwa [List.set_getElem_self hlt] at hset

/-- The request is the same; a task that was cut off below stopped above. -/
structure TaskFollows (X : Expansion m low) (s' : σ') (t' : Task ρ E' R' α)
    (t : Task ρ E R α) : Prop where
  req : t'.req = t.req
  rest : match t'.rest with
    | none => t.Stopped
    | some p' => ∃ p, t.rest = some p ∧ X.Follows s' p' p

theorem TaskFollows.mono {u' : Task ρ E' R' α} {u : Task ρ E R α} (h : X.TaskFollows s' u' u)
    (hstable : ∀ note, low.Stable note → note s' → note t') : X.TaskFollows t' u' u := by
  obtain ⟨q, hist, rest⟩ := u'
  cases rest with
  | none => exact ⟨h.req, h.rest⟩
  | some p' =>
      obtain ⟨p, hp, hfollows⟩ := h.rest
      exact ⟨h.req, p, hp, hfollows.mono hstable⟩

/-- The worlds belong together, and task by task what is left to do. -/
structure Simulated (X : Expansion m low) (c' : Config σ' ρ E' R' α)
    (c : Config σ ρ E R α) : Prop where
  world : X.rel c'.world c.world
  tasks : List.Forall₂ (X.TaskFollows c'.world) c'.tasks c.tasks

/-- An answer below is the answer above. -/
theorem Simulated.answered {c' : Config σ' ρ E' R' α} {c : Config σ ρ E R α}
    (h : X.Simulated c' c) {i : Nat} {u' : Task ρ E' R' α} (hu' : c'.tasks[i]? = some u') :
    ∃ u, c.tasks[i]? = some u ∧ u.req = u'.req ∧ ∀ a, u'.answer? = some a → u.answer? = some a := by
  obtain ⟨u, hu, hreq, hrest⟩ := forall₂_getElem? h.tasks hu'
  refine ⟨u, hu, hreq.symm, fun a ha => ?_⟩
  rw [Task.rest_of_answer ha] at hrest
  obtain ⟨p, hp, hfollows⟩ := hrest
  rw [Task.answer?, hp, hfollows.of_ret]

/-- The two machines move together: what arrives below arrives above, and what the world does
by itself below it does above, or it is invisible there. -/
structure Matches (X : Expansion m low) : Prop where
  start : ∀ q, low.start q = (m.start q).expand X.impl
  env : ∀ v' s' s t', X.rel s' s → low.env v' s' = some t' →
    X.rel t' s ∨ ∃ v t, m.env v s = some t ∧ (X.grows s t → X.rel t' t)

/-- One step below: none above, or one. -/
theorem Simulated.step (hX : X.Sound) (hM : X.Matches) {c' d' : Config σ' ρ E' R' α}
    {c : Config σ ρ E R α} {l' : Label ρ C' V'} (h : X.Simulated c' c)
    (hready : ∀ (u : Task ρ E R α) e k, u ∈ c.tasks → u.rest = some (.call e k) →
      X.ready e c.world)
    (hgrows : ∀ l d, m.step c l = some d → X.grows c.world d.world)
    (hs : low.step c' l' = some d') :
    ∃ d, (d = c ∨ ∃ l, m.step c l = some d) ∧ X.Simulated d' d := by
  rcases low.step_cases hs with ⟨q, rfl, rfl⟩ |
    ⟨i, ch', q, hist', e', k', r', t', rfl, hu', hx, rfl⟩ | ⟨i, q, hist', e', k', rfl, hu', rfl⟩ |
    ⟨v', t', rfl, hx, rfl⟩
  · -- a request arrives at both
    refine ⟨_, Or.inr ⟨.arrive q, rfl⟩, h.world, ?_⟩
    refine List.rel_append h.tasks (.cons ⟨rfl, m.start q, rfl, ?_⟩ .nil)
    rw [hM.start]
    exact hX.follows_expand _
  · -- a task takes a step
    obtain ⟨⟨q', hist, rest⟩, hu, hreq, p, rfl, hfollows⟩ := forall₂_getElem? h.tasks hu'
    obtain rfl : q = q' := hreq
    have humem := List.mem_of_getElem? hu
    have htasks : List.Forall₂ (X.TaskFollows t') c'.tasks c.tasks :=
      h.tasks.imp (fun _ _ hu => hu.mono (fun _ hnote hs => hnote.exec _ _ _ _ _ hs hx))
    rcases hfollows.step hX h.world (fun e k hp => hready _ e k humem (hp ▸ rfl)) hx with
      ⟨hrel, hfollows'⟩ | ⟨e, k, ch, r, t, rfl, hxm, hrel, hfollows'⟩
    · exact ⟨c, Or.inl rfl, hrel, forall₂_set_left htasks hu ⟨rfl, p, rfl, hfollows'⟩⟩
    · have hstep := m.step_step hu hxm
      refine ⟨_, Or.inr ⟨.step i ch, hstep⟩, hrel (hgrows _ _ hstep), ?_⟩
      exact forall₂_set htasks i ⟨rfl, k r, rfl, hfollows'⟩
  · -- a task is cut off: above too, unless it is at its end there
    obtain ⟨⟨q', hist, rest⟩, hu, hreq, p, rfl, -⟩ := forall₂_getElem? h.tasks hu'
    obtain rfl : q = q' := hreq
    cases p with
    | ret a =>
        exact ⟨c, Or.inl rfl, h.world, forall₂_set_left h.tasks hu ⟨rfl, Or.inr ⟨a, rfl⟩⟩⟩
    | call e k =>
        refine ⟨{ c with tasks := c.tasks.set i ⟨q, hist, none⟩ }, Or.inr ⟨.drop i, ?_⟩, h.world, ?_⟩
        · simp only [Machine.step, hu]
        · exact forall₂_set h.tasks i ⟨rfl, Or.inl rfl⟩
  · -- the world moves
    have htasks : List.Forall₂ (X.TaskFollows t') c'.tasks c.tasks :=
      h.tasks.imp (fun _ _ hu => hu.mono (fun _ hnote hs => hnote.env _ _ _ hs hx))
    rcases hM.env v' _ _ t' h.world hx with hrel | ⟨v, t, hxm, hrel⟩
    · exact ⟨c, Or.inl rfl, hrel, htasks⟩
    · have hstep := m.step_env hxm
      exact ⟨_, Or.inr ⟨.env v, hstep⟩, hrel (hgrows _ _ hstep), htasks⟩

/-- Whatever is reached below is reached above. -/
theorem simulates {P : Config σ ρ E R α → Prop} {ok : Config σ' ρ E' R' α → Label ρ C' V' → Prop}
    (hX : X.Sound) (hM : X.Matches)
    (hP : ∀ c l d, P c → m.step c l = some d → P d ∧ X.grows c.world d.world)
    (hready : ∀ c (u : Task ρ E R α) e k, P c → u ∈ c.tasks → u.rest = some (.call e k) →
      X.ready e c.world)
    {c₀' c' : Config σ' ρ E' R' α} {c₀ : Config σ ρ E R α} (h₀ : P c₀)
    (hsim : X.Simulated c₀' c₀) (h : low.Reach ok c₀' c') : ∃ c, P c ∧ X.Simulated c' c := by
  refine h.invariant (P := fun c' => ∃ c, P c ∧ X.Simulated c' c) ⟨c₀, h₀, hsim⟩ ?_
  intro c' l' d' ⟨c, hc, hsim⟩ _ hs
  obtain ⟨d, hd, hsim'⟩ := hsim.step hX hM (fun u e k => hready c u e k hc)
    (fun l d hm => (hP c l d hc hm).2) hs
  rcases hd with rfl | ⟨l, hm⟩
  · exact ⟨d, hc, hsim'⟩
  · exact ⟨d, (hP c l d hc hm).1, hsim'⟩

end Expansion

end Wurzburg.Lib
