import Wurzburg.Db.Sessions
import Wurzburg.Lib.Acts
import Wurzburg.System.Service

/-!
# Wurzburg.System.Workload

Requests served at once, with their repository calls interleaved statement by
statement.

A `Handling` is a request between two effects of its handler or within one of its
repository calls, a `Session` of `Wurzburg.Db.Sessions`. Only PostgreSQL is modelled:
what the other effects return is not restricted.
-/

namespace Wurzburg.System

open Wurzburg.Lib Wurzburg.Db Wurzburg.Api

/-! ### Requests at work -/

/-- How far a handler is. -/
inductive Point where
  /-- Between two effects. -/
  | between (p : Prog Eff Eff.Resp Answer)
  /-- Within a repository call, after which it goes on with `k`. -/
  | within (call : DbCall) (k : Except RepoError call.Row → Prog Eff Eff.Resp Answer)
      (s : Session DbCall call.Row)
  /-- Cut off. -/
  | gone

/-- The row versions its transaction has written. -/
def Point.own : Point → Pg
  | .within _ _ s => s.own
  | _ => .empty

/-- A request, the effects it has issued, and how far it is. -/
structure Handling where
  req : Request
  hist : List (Event Eff Eff.Resp)
  point : Point

/-- The answer, once there is one. -/
def Handling.answer? (h : Handling) : Option Answer :=
  match h.point with
  | .between (.ret a) => some a
  | _ => none

/-- What is committed, and the requests in order of arrival. -/
structure Workload where
  pg : Pg
  handlings : List Handling

/-- A repository call. -/
def Eff.isDb : Eff → Bool
  | .db _ => true
  | _ => false

/-- A failure that is said to come from a unique index. -/
def isViolation : Session.Move → Bool
  | .fail (.uniqueViolation _) => true
  | _ => false

namespace Workload

/-- What can happen next. -/
inductive Act where
  | arrive (q : Request)
  /-- An effect other than a repository call returns. -/
  | reply (i : Nat) (answer : (e : Eff) → e.Resp)
  /-- A repository call begins its transaction. -/
  | connect (i : Nat) (now : Timestamp) (uuid : Nat → Uuid)
  /-- A repository call gets no connection. -/
  | refuse (i : Nat) (message : String)
  | move (i : Nat) (m : Session.Move)
  /-- A repository call returns. -/
  | close (i : Nat)
  /-- The request is cut off, and its transaction rolled back. -/
  | drop (i : Nat)

def start (pg : Pg) : Workload := ⟨pg, []⟩

def put (st : Workload) (i : Nat) (h : Handling) : Workload :=
  { st with handlings := st.handlings.set i h }

/-- One act. A move that conflicts with another transaction has to wait. -/
def step (env : Env) (st : Workload) : Act → Option Workload
  | .arrive q => some { st with handlings := st.handlings ++ [⟨q, [], .between (serve env q)⟩] }
  | .reply i answer =>
      match st.handlings[i]? with
      | some ⟨q, hist, .between (.call e k)⟩ =>
          if e.isDb then none
          else some (st.put i ⟨q, hist ++ [⟨e, answer e⟩], .between (k (answer e))⟩)
      | _ => none
  | .connect i now uuid =>
      match st.handlings[i]? with
      | some ⟨q, hist, .between (.call (.db call) k)⟩ =>
          some (st.put i ⟨q, hist, .within call k (.begin call call.body now uuid)⟩)
      | _ => none
  | .refuse i message =>
      match st.handlings[i]? with
      | some ⟨q, hist, .between (.call (.db call) k)⟩ =>
          let r : Except RepoError call.Row :=
            .error ⟨call.connectionContexts, .connection message⟩
          some (st.put i ⟨q, hist ++ [⟨.db call, r⟩], .between (k r)⟩)
      | _ => none
  | .move i m =>
      match st.handlings[i]? with
      | some ⟨q, hist, .within call k s⟩ =>
          if isViolation m then none
          else
            match s.step st.pg m with
            | some (s', pg') =>
                if ∀ o ∈ st.handlings.eraseIdx i, s'.own.Apart o.point.own then
                  some ⟨pg', st.handlings.set i ⟨q, hist, .within call k s'⟩⟩
                else none
            | none => none
      | _ => none
  | .close i =>
      match st.handlings[i]? with
      | some ⟨q, hist, .within call k s⟩ =>
          match s.rest with
          | .ret r => some (st.put i ⟨q, hist ++ [⟨.db call, r⟩], .between (k r)⟩)
          | .call .. => none
      | _ => none
  | .drop i =>
      match st.handlings[i]? with
      | some h => if h.answer?.isSome then none else some (st.put i ⟨h.req, h.hist, .gone⟩)
      | none => none

/-- What an act does to the request that it is about. -/
inductive Goes (pg : Pg) (i : Nat) : Act → Handling → Handling → Prop
  | replied {answer : (e : Eff) → e.Resp} {q : Request} {hist : List (Event Eff Eff.Resp)}
      {e : Eff} {k : e.Resp → Prog Eff Eff.Resp Answer} : e.isDb = false →
      Goes pg i (.reply i answer) ⟨q, hist, .between (.call e k)⟩
        ⟨q, hist ++ [⟨e, answer e⟩], .between (k (answer e))⟩
  | connected {now : Timestamp} {uuid : Nat → Uuid} {q : Request}
      {hist : List (Event Eff Eff.Resp)} {call : DbCall}
      {k : Except RepoError call.Row → Prog Eff Eff.Resp Answer} :
      Goes pg i (.connect i now uuid) ⟨q, hist, .between (.call (.db call) k)⟩
        ⟨q, hist, .within call k (.begin call call.body now uuid)⟩
  | refused {message : String} {q : Request} {hist : List (Event Eff Eff.Resp)}
      {call : DbCall} {k : Except RepoError call.Row → Prog Eff Eff.Resp Answer}
      {r : Except RepoError call.Row} :
      r = .error ⟨call.connectionContexts, .connection message⟩ →
      Goes pg i (.refuse i message) ⟨q, hist, .between (.call (.db call) k)⟩
        ⟨q, hist ++ [⟨.db call, r⟩], .between (k r)⟩
  | moved {m : Session.Move} {q : Request} {hist : List (Event Eff Eff.Resp)}
      {call : DbCall} {k : Except RepoError call.Row → Prog Eff Eff.Resp Answer}
      {s s' : Session DbCall call.Row} {pg' : Pg} : isViolation m = false → s.Moves pg m s' pg' →
      Goes pg i (.move i m) ⟨q, hist, .within call k s⟩ ⟨q, hist, .within call k s'⟩
  | closed {q : Request} {hist : List (Event Eff Eff.Resp)} {call : DbCall}
      {k : Except RepoError call.Row → Prog Eff Eff.Resp Answer} {s : Session DbCall call.Row}
      {r : Except RepoError call.Row} : s.rest = .ret r →
      Goes pg i (.close i) ⟨q, hist, .within call k s⟩ ⟨q, hist ++ [⟨.db call, r⟩], .between (k r)⟩
  | dropped {q : Request} {hist : List (Event Eff Eff.Resp)} {p : Point} :
      Goes pg i (.drop i) ⟨q, hist, p⟩ ⟨q, hist, .gone⟩

theorem Goes.req {pg : Pg} {i : Nat} {act : Act} {h h' : Handling} (hgoes : Goes pg i act h h') :
    h'.req = h.req := by
  cases hgoes <;> rfl

variable {env : Env} {st st' : Workload} {act : Act}

/-- A request arrives, or one goes on. -/
theorem step_cases (h : st.step env act = some st') :
    (∃ q, act = .arrive q ∧
      st' = { st with handlings := st.handlings ++ [⟨q, [], .between (serve env q)⟩] }) ∨
    ∃ i h h', st.handlings[i]? = some h ∧ Goes st.pg i act h h' ∧
      st'.handlings = st.handlings.set i h' := by
  have hput : ∀ {i : Nat} {d d' : Handling}, st.handlings[i]? = some d → Goes st.pg i act d d' →
      some (st.put i d') = some st' → ∃ i d d', st.handlings[i]? = some d ∧ Goes st.pg i act d d' ∧
        st'.handlings = st.handlings.set i d' := by
    intro i d d' hi hgoes heq
    obtain rfl := Option.some.inj heq
    exact ⟨i, d, d', hi, hgoes, rfl⟩
  -- each guard of `step` is the premise of one constructor of `Goes`
  cases act with
  | arrive q => exact Or.inl ⟨q, rfl, (Option.some.inj h).symm⟩
  | reply i answer =>
      simp only [step] at h
      split at h
      · next q hist e k hi =>
          split at h
          · cases h
          · next he => exact Or.inr (hput hi (.replied (Bool.eq_false_iff.mpr he)) h)
      · cases h
  | connect i now uuid =>
      simp only [step] at h
      split at h
      · next q hist call k hi => exact Or.inr (hput hi .connected h)
      · cases h
  | refuse i message =>
      simp only [step] at h
      split at h
      · next q hist call k hi => exact Or.inr (hput hi (.refused rfl) h)
      · cases h
  | move i m =>
      simp only [step] at h
      split at h
      · next q hist call k s hi =>
          split at h
          · cases h
          · next hm =>
              split at h
              · next s' pg' hmove =>
                  split at h
                  · obtain rfl := Option.some.inj h
                    exact Or.inr ⟨i, _, _, hi,
                      .moved (Bool.eq_false_iff.mpr hm) (Session.moves_of_step hmove), rfl⟩
                  · cases h
              · cases h
      · cases h
  | close i =>
      simp only [step] at h
      split at h
      · next q hist call k s hi =>
          split at h
          · next r hr => exact Or.inr (hput hi (.closed hr) h)
          · cases h
      · cases h
  | drop i =>
      simp only [step] at h
      split at h
      · next hd hi =>
          split at h
          · cases h
          · exact Or.inr (hput hi .dropped h)
      · cases h

/-- Take these acts, leaving out those that cannot be taken. -/
def run (env : Env) : Workload → List Act → Workload := Acts.run (step env)

/-- Every act meets the condition when its turn comes. -/
def Along (env : Env) (ok : Workload → Act → Prop) : Workload → List Act → Prop :=
  Acts.Along (step env) ok

instance decidableAlong (ok : Workload → Act → Prop) [∀ st act, Decidable (ok st act)]
    (acts : List Act) : Decidable (Along env ok st acts) :=
  Acts.decidableAlong (step env) ok st acts

/-- What arriving requests meet and what goes on keeps, all requests meet. -/
theorem Along.handlings {ok : Workload → Act → Prop} {I : Handling → Prop} {acts : List Act} {pg : Pg}
    (harrive : ∀ q, I ⟨q, [], .between (serve env q)⟩)
    (hgoes : ∀ {st : Workload} {act : Act} {i : Nat} {h h' : Handling}, ok st act →
      st.handlings[i]? = some h → Goes st.pg i act h h' → I h → I h') (hacts : Along env ok (start pg) acts) :
    ∀ h ∈ (run env (start pg) acts).handlings, I h := by
  refine Acts.Along.run_induction (motive := fun st => ∀ h ∈ st.handlings, I h) ?_
    (fun h hh => absurd hh List.not_mem_nil) hacts
  intro st st' act hst hok hstep
  rcases step_cases hstep with ⟨q, rfl, rfl⟩ | ⟨i, h, h', hi, hgo, hset⟩
  · intro h hh
    rcases List.mem_append.mp hh with hh | hh
    · exact hst h hh
    · rw [List.mem_singleton.mp hh]
      exact harrive q
  · rw [hset]
    intro o ho
    rcases List.mem_or_eq_of_mem_set ho with ho | rfl
    · exact hst o ho
    · exact hgoes hok hi hgo (hst h (List.mem_of_getElem? hi))

end Workload

end Wurzburg.System
