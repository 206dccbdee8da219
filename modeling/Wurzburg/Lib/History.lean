import Wurzburg.Lib.Pool

/-!
# Wurzburg.Lib.History

What the history of a task says. A program determines how its result depends on
the replies it got (`Prog.Ends`), and after which events it issues an effect
(`Prog.Issues`), whatever the world; and what a reply said of the world when it
was given may still hold of it (`Machine.Reach.facts`).
-/

namespace Wurzburg.Lib

section

variable {E α β γ ε : Type} {R : E → Type}

/-- Whatever the replies, the program ends with a result that `post` allows
after these events. -/
def Prog.Ends (post : List (Event E R) → α → Prop) : List (Event E R) → Prog E R α → Prop
  | hist, .ret a => post hist a
  | hist, .call e k => ∀ r, Ends post (hist ++ [⟨e, r⟩]) (k r)

namespace Prog

variable {hist : List (Event E R)} {mid : List (Event E R) → α → Prop}
  {post : List (Event E R) → β → Prop}

theorem Ends.weaken {mid' : List (Event E R) → α → Prop} {p : Prog E R α} (h : p.Ends mid hist)
    (himp : ∀ hist a, mid hist a → mid' hist a) : p.Ends mid' hist := by
  induction p generalizing hist with
  | ret a => exact himp _ _ h
  | call e k ih => exact fun r => ih r (h r)

theorem Ends.of_forall (h : ∀ hist a, mid hist a) (p : Prog E R α) : p.Ends mid hist := by
  induction p generalizing hist with
  | ret a => exact h hist a
  | call e k ih => exact fun r => ih r

/-- What every effect of a program keeps true of the history. -/
theorem Ends.of_uses {allowed : E → Prop} {P : List (Event E R) → Prop}
    (hP : ∀ hist e r, allowed e → P hist → P (hist ++ [⟨e, r⟩])) {p : Prog E R α}
    (hp : p.Uses allowed) (h : P hist) : p.Ends (fun hist _ => P hist) hist := by
  induction p generalizing hist with
  | ret a => exact h
  | call e k ih => exact fun r => ih r (hp.2 r) (hP hist e r hp.1 h)

theorem Ends.bind {p : Prog E R α} {f : α → Prog E R β} (h : p.Ends mid hist)
    (hf : ∀ hist a, mid hist a → (f a).Ends post hist) : (p.bind f).Ends post hist := by
  induction p generalizing hist with
  | ret a => exact hf _ _ h
  | call e k ih => exact fun r => ih r (h r)

/-- `Ends` for a program that can stop with an error: a result goes on to `mid`,
an error ends the whole. -/
def EndsE (mid : List (Event E R) → α → Prop) (post : List (Event E R) → Except ε γ → Prop)
    (hist : List (Event E R)) (x : ExceptT ε (Prog E R) α) : Prop :=
  x.run.Ends (fun hist r => match r with
    | .ok a => mid hist a
    | .error e => post hist (.error e)) hist

theorem EndsE.of_uses {allowed : E → Prop} {P : List (Event E R) → Prop}
    {post : List (Event E R) → Except ε γ → Prop}
    (hP : ∀ hist e r, allowed e → P hist → P (hist ++ [⟨e, r⟩]))
    (hpost : ∀ hist e, P hist → post hist (.error e)) {x : ExceptT ε (Prog E R) α}
    (hx : UsesE allowed x) (h : P hist) : EndsE (fun hist _ => P hist) post hist x := by
  refine (Ends.of_uses hP hx h).weaken (fun hist r hr => ?_)
  cases r with
  | ok a => exact hr
  | error e => exact hpost hist e hr

theorem EndsE.bind {mid' : List (Event E R) → β → Prop}
    {post : List (Event E R) → Except ε γ → Prop} {x : ExceptT ε (Prog E R) α}
    {f : α → ExceptT ε (Prog E R) β} (h : EndsE mid post hist x)
    (hf : ∀ hist a, mid hist a → EndsE mid' post hist (f a)) :
    EndsE mid' post hist (x >>= f) := by
  refine Ends.bind (f := ExceptT.bindCont f) h (fun hist r hr => ?_)
  cases r with
  | ok a => exact hf hist a hr
  | error e => exact hr

/-- At every point that the program can come to, `P` holds of the events so far and of what
is left of it. -/
def Visits (P : List (Event E R) → Prog E R α → Prop) : List (Event E R) → Prog E R α → Prop
  | hist, .ret a => P hist (.ret a)
  | hist, .call e k => P hist (.call e k) ∧ ∀ r, Visits P (hist ++ [⟨e, r⟩]) (k r)

theorem Visits.here {P : List (Event E R) → Prog E R α → Prop} {p : Prog E R α}
    (h : p.Visits P hist) : P hist p := by
  cases p with
  | ret a => exact h
  | call e k => exact h.1

theorem Visits.mono {P P' : List (Event E R) → Prog E R α → Prop} {p : Prog E R α}
    (h : p.Visits P hist) (himp : ∀ hist p, P hist p → P' hist p) : p.Visits P' hist := by
  induction p generalizing hist with
  | ret a => exact himp _ _ h
  | call e k ih => exact ⟨himp _ _ h.1, fun r => ih r (h.2 r)⟩

theorem Visits.of_forall {P : List (Event E R) → Prog E R α → Prop} (h : ∀ hist p, P hist p)
    (p : Prog E R α) : p.Visits P hist := by
  induction p generalizing hist with
  | ret a => exact h hist _
  | call e k ih => exact ⟨h hist _, fun r => ih r⟩

/-! ### Which effects come after which events -/

/-- Whatever the replies, every effect is issued where `law` allows it. -/
def Issues (law : List (Event E R) → E → Prop) : List (Event E R) → Prog E R α → Prop
  | _, .ret _ => True
  | hist, .call e k => law hist e ∧ ∀ r, Issues law (hist ++ [⟨e, r⟩]) (k r)

variable {law : List (Event E R) → E → Prop}

theorem Issues.of_forall (h : ∀ hist e, law hist e) (p : Prog E R α) : p.Issues law hist := by
  induction p generalizing hist with
  | ret a => trivial
  | call e k ih => exact ⟨h hist e, fun r => ih r⟩

theorem Issues.of_uses {allowed : E → Prop} (h : ∀ hist e, allowed e → law hist e)
    {p : Prog E R α} (hp : p.Uses allowed) : p.Issues law hist := by
  induction p generalizing hist with
  | ret a => trivial
  | call e k ih => exact ⟨h hist e hp.1, fun r => ih r (hp.2 r)⟩

theorem Issues.bind {p : Prog E R α} {f : α → Prog E R β} (h : p.Issues law hist)
    (hends : p.Ends mid hist) (hf : ∀ hist a, mid hist a → (f a).Issues law hist) :
    (p.bind f).Issues law hist := by
  induction p generalizing hist with
  | ret a => exact hf _ _ hends
  | call e k ih => exact ⟨h.1, fun r => ih r (h.2 r) (hends r)⟩

/-- `Issues` for a program that can stop with an error. -/
def IssuesE (law : List (Event E R) → E → Prop) (hist : List (Event E R))
    (x : ExceptT ε (Prog E R) α) : Prop := x.run.Issues law hist

theorem IssuesE.bind {x : ExceptT ε (Prog E R) α} {f : α → ExceptT ε (Prog E R) β}
    (h : IssuesE law hist x) (hends : EndsE mid (fun _ (_ : Except ε Unit) => True) hist x)
    (hf : ∀ hist a, mid hist a → IssuesE law hist (f a)) : IssuesE law hist (x >>= f) := by
  refine Issues.bind (f := ExceptT.bindCont f) h hends (fun hist r hr => ?_)
  cases r with
  | ok a => exact hf hist a hr
  | error e => trivial

end Prog

end

namespace Machine

variable {σ ρ E α C V : Type} {R : E → Type} {m : Machine σ ρ E R α C V}
  {ok : Config σ ρ E R α → Label ρ C V → Prop} {c₀ c c' : Config σ ρ E R α}

/-- What a program keeps to from one effect to the next, the tasks keep to. -/
theorem pending_step {good : ρ → List (Event E R) → Prog E R α → Prop} {l : Label ρ C V}
    (hstart : ∀ q, good q [] (m.start q))
    (hnext : ∀ q hist e k, good q hist (.call e k) → ∀ r, good q (hist ++ [⟨e, r⟩]) (k r))
    (h : ∀ t ∈ c.tasks, ∀ p, t.rest = some p → good t.req t.hist p)
    (hs : m.step c l = some c') :
    ∀ t ∈ c'.tasks, ∀ p, t.rest = some p → good t.req t.hist p := by
  rcases m.step_cases hs with ⟨q, rfl, rfl⟩ | ⟨i, ch, q, hist, e, k, r, w, rfl, ht, -, rfl⟩ |
    ⟨i, q, hist, e, k, rfl, -, rfl⟩ | ⟨v, w, rfl, -, rfl⟩
  · intro t ht p hp
    rcases List.mem_append.mp ht with ht | ht
    · exact h t ht p hp
    · rw [List.mem_singleton.mp ht] at hp ⊢
      obtain rfl := Option.some.inj hp
      exact hstart q
  · intro t htm p hp
    rcases List.mem_or_eq_of_mem_set htm with htm | rfl
    · exact h t htm p hp
    · obtain rfl := Option.some.inj hp
      exact hnext q hist e k (h _ (List.mem_of_getElem? ht) _ rfl) r
  · intro t htm p hp
    rcases List.mem_or_eq_of_mem_set htm with htm | rfl
    · exact h t htm p hp
    · cases hp
  · exact h

theorem Reach.pending (good : ρ → List (Event E R) → Prog E R α → Prop)
    (hstart : ∀ q, good q [] (m.start q))
    (hnext : ∀ q hist e k, good q hist (.call e k) → ∀ r, good q (hist ++ [⟨e, r⟩]) (k r))
    (h₀ : c₀.tasks = []) (h : m.Reach ok c₀ c) :
    ∀ t ∈ c.tasks, ∀ p, t.rest = some p → good t.req t.hist p :=
  h.invariant (P := fun c => ∀ t ∈ c.tasks, ∀ p, t.rest = some p → good t.req t.hist p)
    (by simp [h₀]) (fun _ _ _ hP _ hs => pending_step hstart hnext hP hs)

/-- An answer is one that its history explains. -/
theorem Reach.answer_ends {post : ρ → List (Event E R) → α → Prop}
    (hstart : ∀ q, (m.start q).Ends (post q) []) (h₀ : c₀.tasks = [])
    (h : m.Reach ok c₀ c) {t : Task ρ E R α} (ht : t ∈ c.tasks) {a : α}
    (ha : t.answer? = some a) : post t.req t.hist a := by
  have hends : ∀ t ∈ c.tasks, ∀ p, t.rest = some p → p.Ends (post t.req) t.hist :=
    h.pending (fun q hist p => p.Ends (post q) hist) hstart (fun _ _ _ _ hp r => hp r) h₀
  obtain ⟨q, hist, rest⟩ := t
  cases rest with
  | none => cases ha
  | some p =>
      cases p with
      | ret b =>
          obtain rfl := Option.some.inj ha
          exact hends _ ht _ rfl
      | call e k => cases ha

/-- An effect is issued only where the law of the program allows it. -/
theorem Reach.issues {law : ρ → List (Event E R) → E → Prop}
    (hstart : ∀ q, (m.start q).Issues (law q) []) (h₀ : c₀.tasks = []) (h : m.Reach ok c₀ c)
    {i : Nat} {q : ρ} {hist : List (Event E R)} {e : E} {k : R e → Prog E R α}
    (ht : c.tasks[i]? = some ⟨q, hist, some (.call e k)⟩) : law q hist e := by
  have hissues : ∀ t ∈ c.tasks, ∀ p, t.rest = some p → p.Issues (law t.req) t.hist :=
    h.pending (fun q hist p => p.Issues (law q) hist) hstart (fun _ _ _ _ hp r => hp.2 r) h₀
  exact (hissues _ (List.mem_of_getElem? ht) _ rfl).1

/-- What holds at every point of the programs holds of the tasks. -/
theorem Reach.visits {P : ρ → List (Event E R) → Prog E R α → Prop}
    (hstart : ∀ q, (m.start q).Visits (P q) []) (h₀ : c₀.tasks = []) (h : m.Reach ok c₀ c)
    {t : Task ρ E R α} (ht : t ∈ c.tasks) {p : Prog E R α} (hp : t.rest = some p) :
    P t.req t.hist p := by
  have hvisits : ∀ t ∈ c.tasks, ∀ p, t.rest = some p → p.Visits (P t.req) t.hist :=
    h.pending (fun q hist p => p.Visits (P q) hist) hstart (fun _ _ _ _ hp r => hp.2 r) h₀
  exact (hvisits t ht p hp).here

/-- A task keeps its place and its request, and its history only grows. -/
theorem Reach.hist_prefix (h : m.Reach ok c₀ c) {i : Nat} {t : Task ρ E R α}
    (ht : c₀.tasks[i]? = some t) :
    ∃ t', c.tasks[i]? = some t' ∧ t'.req = t.req ∧ t.hist <+: t'.hist := by
  induction h with
  | refl => exact ⟨t, ht, rfl, List.prefix_refl _⟩
  | @tail c c' l _ _ hs ih =>
      obtain ⟨t₁, ht₁, hreq, hprefix⟩ := ih
      have hset : ∀ {j : Nat} {u u' : Task ρ E R α}, c.tasks[j]? = some u → u'.req = u.req →
          u.hist <+: u'.hist →
          ∃ t', (c.tasks.set j u')[i]? = some t' ∧ t'.req = t.req ∧ t.hist <+: t'.hist := by
        intro j u u' hu hreq' hprefix'
        by_cases hij : j = i
        · subst hij
          obtain rfl := Option.some.inj (hu.symm.trans ht₁)
          refine ⟨u', List.getElem?_set_self (List.getElem?_eq_some_iff.mp ht₁).1, ?_, ?_⟩
          · exact hreq'.trans hreq
          · exact hprefix.trans hprefix'
        · exact ⟨t₁, by rw [List.getElem?_set_ne hij, ht₁], hreq, hprefix⟩
      rcases m.step_cases hs with ⟨q, rfl, rfl⟩ | ⟨j, ch, q, hist, e, k, r, w, rfl, hj, -, rfl⟩ |
        ⟨j, q, hist, e, k, rfl, hj, rfl⟩ | ⟨v, w, rfl, -, rfl⟩
      · refine ⟨t₁, ?_, hreq, hprefix⟩
        rw [List.getElem?_append_left (List.getElem?_eq_some_iff.mp ht₁).1, ht₁]
      · exact hset hj rfl (List.prefix_append _ _)
      · exact hset hj rfl (List.prefix_refl _)
      · exact ⟨t₁, ht₁, hreq, hprefix⟩

/-- When a task got a reply: the event was recorded after `c₀`, so the step that recorded it is
part of the run from there. -/
theorem Reach.moment (h : m.Reach ok c₀ c) {i : Nat} {t : Task ρ E R α} {past rest : List (Event E R)}
    {ev : Event E R} (ht : c.tasks[i]? = some t) (hhist : t.hist = past ++ ev :: rest)
    (hnew : ∀ t₀, c₀.tasks[i]? = some t₀ → t₀.hist.length ≤ past.length) :
    ∃ c₁ c₂ ch k, m.Reach ok c₀ c₁ ∧ m.Reach ok c₁ c₂ ∧ m.Reach ok c₂ c ∧
      c₁.tasks[i]? = some ⟨t.req, past, some (.call ev.eff k)⟩ ∧
      m.exec ch ev.eff c₁.world = some (ev.reply, c₂.world) ∧
      c₂.tasks[i]? = some ⟨t.req, past ++ [ev], some (k ev.reply)⟩ := by
  induction h generalizing t rest with
  | refl =>
      have hle := hnew t ht
      rw [hhist, List.length_append, List.length_cons] at hle
      omega
  | @tail c c' l hrun hok hs ih =>
      -- a step that adds nothing to the history of the task
      have hearlier : ∀ {t₁ : Task ρ E R α} {rest₁ : List (Event E R)}, c.tasks[i]? = some t₁ →
          t₁.req = t.req → t₁.hist = past ++ ev :: rest₁ →
          ∃ c₁ c₂ ch k, m.Reach ok c₀ c₁ ∧ m.Reach ok c₁ c₂ ∧ m.Reach ok c₂ c' ∧
            c₁.tasks[i]? = some ⟨t.req, past, some (.call ev.eff k)⟩ ∧
            m.exec ch ev.eff c₁.world = some (ev.reply, c₂.world) ∧
            c₂.tasks[i]? = some ⟨t.req, past ++ [ev], some (k ev.reply)⟩ := by
        intro t₁ rest₁ ht₁ hreq hhist₁
        obtain ⟨c₁, c₂, ch, k, h₀₁, h₁₂, h₂, htask₁, hx, htask₂⟩ := ih ht₁ hhist₁
        rw [hreq] at htask₁ htask₂
        exact ⟨c₁, c₂, ch, k, h₀₁, h₁₂, h₂.tail hok hs, htask₁, hx, htask₂⟩
      rcases m.step_cases hs with ⟨q, rfl, rfl⟩ | ⟨j, ch, q, hist, e, k, r, w, rfl, hj, hx, rfl⟩ |
        ⟨j, q, hist, e, k, rfl, hj, rfl⟩ | ⟨v, w, rfl, -, rfl⟩
      · by_cases hlt : i < c.tasks.length
        · rw [List.getElem?_append_left hlt] at ht
          exact hearlier ht rfl hhist
        · rw [List.getElem?_append_right (Nat.le_of_not_lt hlt)] at ht
          obtain rfl := List.mem_singleton.mp (List.mem_of_getElem? ht)
          exact absurd hhist.symm (by simp [newTask])
      · by_cases hij : j = i
        · subst hij
          have hlt := (List.getElem?_eq_some_iff.mp hj).1
          obtain rfl := Option.some.inj ((List.getElem?_set_self hlt).symm.trans ht)
          rcases List.eq_nil_or_concat rest with rfl | ⟨rest, last, rfl⟩
          · obtain ⟨rfl, hlast⟩ := List.append_inj' hhist rfl
            obtain rfl := List.singleton_inj.mp hlast
            exact ⟨c, _, ch, k, hrun, .tail .refl hok hs, .refl, hj, hx,
              List.getElem?_set_self hlt⟩
          · rw [List.concat_eq_append, ← List.cons_append, ← List.append_assoc] at hhist
            exact hearlier hj rfl (List.append_inj' hhist rfl).1
        · rw [List.getElem?_set_ne hij] at ht
          exact hearlier ht rfl hhist
      · by_cases hij : j = i
        · subst hij
          have hlt := (List.getElem?_eq_some_iff.mp hj).1
          obtain rfl := Option.some.inj ((List.getElem?_set_self hlt).symm.trans ht)
          exact hearlier hj rfl hhist
        · rw [List.getElem?_set_ne hij] at ht
          exact hearlier ht rfl hhist
      · exact hearlier ht rfl hhist

/-- A fact about every event of a history, given the events before it. -/
def Remembers (fact : List (Event E R) → Event E R → σ → Prop) (hist : List (Event E R))
    (s : σ) : Prop :=
  ∀ past ev rest, hist = past ++ ev :: rest → fact past ev s

theorem Remembers.concat {fact : List (Event E R) → Event E R → σ → Prop}
    {hist : List (Event E R)} {ev : Event E R} {s : σ} (h : Remembers fact hist s)
    (hev : fact hist ev s) : Remembers fact (hist ++ [ev]) s := by
  intro past ev' rest heq
  rcases List.eq_nil_or_concat rest with rfl | ⟨rest', last, rfl⟩
  · obtain ⟨rfl, hlast⟩ := List.append_inj' heq rfl
    rw [← (List.cons.inj hlast).1]
    exact hev
  · rw [List.concat_eq_append, ← List.cons_append, ← List.append_assoc] at heq
    obtain ⟨hhist, -⟩ := List.append_inj' heq rfl
    exact h past ev' rest' hhist

/-- What replies said of the world, in a run whose worlds only grow. -/
theorem Reach.facts {P : Config σ ρ E R α → Prop} {grows : σ → σ → Prop}
    {fact : ρ → List (Event E R) → Event E R → σ → Prop}
    (hP : ∀ c l c', P c → ok c l → m.step c l = some c' → P c' ∧ grows c.world c'.world)
    (hmono : ∀ q past ev s s', grows s s' → fact q past ev s → fact q past ev s')
    (hnew : ∀ c c' i ch q hist e k r, P c → P c' → ok c (.step i ch) →
      c.tasks[i]? = some ⟨q, hist, some (.call e k)⟩ →
      m.exec ch e c.world = some (r, c'.world) → fact q hist ⟨e, r⟩ c'.world)
    (h₀ : P c₀) (htasks : c₀.tasks = []) (h : m.Reach ok c₀ c) :
    ∀ t ∈ c.tasks, Remembers (fact t.req) t.hist c.world := by
  have hboth : P c ∧ ∀ t ∈ c.tasks, Remembers (fact t.req) t.hist c.world := by
    refine h.invariant
      (P := fun c => P c ∧ ∀ t ∈ c.tasks, Remembers (fact t.req) t.hist c.world)
      ⟨h₀, by simp [htasks]⟩ ?_
    intro c l c' ⟨hc, hfacts⟩ hok hs
    obtain ⟨hc', hgrow⟩ := hP c l c' hc hok hs
    refine ⟨hc', ?_⟩
    have hold : ∀ t ∈ c.tasks, Remembers (fact t.req) t.hist c'.world :=
      fun t ht past ev rest heq => hmono _ _ _ _ _ hgrow (hfacts t ht past ev rest heq)
    rcases m.step_cases hs with ⟨q, rfl, rfl⟩ | ⟨i, ch, q, hist, e, k, r, w, rfl, ht, hx, rfl⟩ |
      ⟨i, q, hist, e, k, rfl, ht, rfl⟩ | ⟨v, w, rfl, -, rfl⟩
    · intro t ht
      rcases List.mem_append.mp ht with ht | ht
      · exact hold t ht
      · rw [List.mem_singleton.mp ht]
        intro past ev rest heq
        exact absurd heq (by simp [newTask])
    · intro t htm
      rcases List.mem_or_eq_of_mem_set htm with htm | rfl
      · exact hold t htm
      · exact (hold _ (List.mem_of_getElem? ht)).concat (hnew _ _ i ch q hist e k r hc hc' hok ht hx)
    · intro t htm
      rcases List.mem_or_eq_of_mem_set htm with htm | rfl
      · exact hold t htm
      · exact hold ⟨q, hist, some (.call e k)⟩ (List.mem_of_getElem? ht)
    · exact hold
  exact hboth.2

end Machine

end Wurzburg.Lib
