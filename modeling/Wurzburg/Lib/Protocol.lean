import Wurzburg.Lib.Pool

/-!
# Wurzburg.Lib.Protocol

**Programs that keep to a protocol.** A `Protocol` is an automaton over the
effects of a program and their replies: in each phase it says which effects are
allowed, and which phase follows a reply. `Prog.Follows` says that a program
keeps to it whatever the replies are, and where it stops; the phase a task is in
is then a function of its history (`Protocol.phase`).
-/

namespace Wurzburg.Lib

/-- An automaton over effects and replies. -/
structure Protocol (E : Type) (R : E → Type) where
  Phase : Type
  allowed : Phase → E → Prop
  next : Phase → (e : E) → R e → Phase

namespace Protocol

variable {E : Type} {R : E → Type} (P : Protocol E R)

/-- The phase after these events. -/
def phase (s : P.Phase) (hist : List (Event E R)) : P.Phase :=
  hist.foldl (fun s ev => P.next s ev.eff ev.reply) s

@[simp] theorem phase_nil (s : P.Phase) : P.phase s [] = s := rfl

theorem phase_concat (s : P.Phase) (hist : List (Event E R)) (e : E) (r : R e) :
    P.phase s (hist ++ [⟨e, r⟩]) = P.next (P.phase s hist) e r := by
  rw [phase, List.foldl_append]
  rfl

end Protocol

namespace Prog

variable {E α β γ ε : Type} {R : E → Type} (P : Protocol E R)

/-- Whatever the replies, the program issues what the protocol allows, and it ends
in a phase that `post` allows with the result. -/
def Follows (post : P.Phase → α → Prop) : P.Phase → Prog E R α → Prop
  | s, .ret a => post s a
  | s, .call e k => P.allowed s e ∧ ∀ r, Follows post (P.next s e r) (k r)

variable {P} {s : P.Phase} {mid : P.Phase → α → Prop} {post : P.Phase → β → Prop}

theorem Follows.bind {p : Prog E R α} {f : α → Prog E R β} (h : p.Follows P mid s)
    (hf : ∀ s a, mid s a → (f a).Follows P post s) : (p.bind f).Follows P post s := by
  induction p generalizing s with
  | ret a => exact hf s a h
  | call e k ih => exact ⟨h.1, fun r => ih r (h.2 r)⟩

theorem Follows.weaken {mid' : P.Phase → α → Prop} {p : Prog E R α} (h : p.Follows P mid s)
    (himp : ∀ s a, mid s a → mid' s a) : p.Follows P mid' s := by
  induction p generalizing s with
  | ret a => exact himp s a h
  | call e k ih => exact ⟨h.1, fun r => ih r (h.2 r)⟩

/-- Effects that some phases allow and stay in. -/
theorem Uses.follows {allowed : E → Prop} {I : P.Phase → Prop}
    (hP : ∀ s e, I s → allowed e → P.allowed s e)
    (hstay : ∀ s e r, I s → allowed e → I (P.next s e r)) {p : Prog E R α} (h : p.Uses allowed)
    (hs : I s) : p.Follows P (fun s _ => I s) s := by
  induction p generalizing s with
  | ret a => exact hs
  | call e k ih => exact ⟨hP s e hs h.1, fun r => ih r (h.2 r) (hstay s e r hs h.1)⟩

/-- `Follows` for a program that can stop with an error: a result goes on to `mid`,
an error ends the whole. -/
def FollowsE (P : Protocol E R) (mid : P.Phase → α → Prop)
    (post : P.Phase → Except ε γ → Prop) (s : P.Phase) (x : ExceptT ε (Prog E R) α) : Prop :=
  x.run.Follows P (fun s r => match r with
    | .ok a => mid s a
    | .error e => post s (.error e)) s

theorem FollowsE.bind {mid' : P.Phase → β → Prop} {post : P.Phase → Except ε γ → Prop}
    {x : ExceptT ε (Prog E R) α} {f : α → ExceptT ε (Prog E R) β}
    (h : FollowsE P mid post s x) (hf : ∀ s a, mid s a → FollowsE P mid' post s (f a)) :
    FollowsE P mid' post s (x >>= f) := by
  refine Follows.bind (f := ExceptT.bindCont f) h (fun s r hr => ?_)
  cases r with
  | ok a => exact hf s a hr
  | error e => exact hr

theorem UsesE.follows {allowed : E → Prop} {I : P.Phase → Prop}
    {post : P.Phase → Except ε γ → Prop} (hP : ∀ s e, I s → allowed e → P.allowed s e)
    (hstay : ∀ s e r, I s → allowed e → I (P.next s e r)) (hpost : ∀ s e, I s → post s (.error e))
    {x : ExceptT ε (Prog E R) α} (h : UsesE allowed x) (hs : I s) :
    FollowsE P (fun s _ => I s) post s x := by
  refine (Uses.follows hP hstay h hs).weaken (fun s r hs => ?_)
  cases r with
  | ok a => exact hs
  | error e => exact hpost s e hs

end Prog

end Wurzburg.Lib
