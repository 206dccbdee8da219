import Wurzburg.Lib.History
import Wurzburg.System.Schedule

/-!
# Wurzburg.System.Histories

The history of a request: what each kind of effect adds to it, and what answers
and histories of all requests have in common in a reachable state. These are the
rules of `Wurzburg.Lib.History` at the effects of the handlers.
-/

namespace Wurzburg.System

open Wurzburg.Lib Wurzburg.Db Wurzburg.Tb Wurzburg.Api

/-! ### One effect -/

section

variable {γ δ : Type} {hist : History} {post : History → Except HttpError γ → Prop}

theorem now_ends : Prog.EndsE (fun h t => h = hist ++ [⟨.now, t⟩]) post hist now :=
  fun _ => rfl

theorem newV4_ends {use : IdUse} :
    Prog.EndsE (fun h u => h = hist ++ [⟨.newV4 use, u⟩]) post hist (newV4 use) :=
  fun _ => rfl

theorem tryDb_ends {call : DbCall} :
    Prog.EndsE (fun h r => h = hist ++ [⟨.db call, r⟩]) post hist (tryDb call) :=
  fun _ => rfl

theorem perform_ends {call : DbCall} {f : RepoError → HttpError}
    (hpost : ∀ h e, post h (.error e)) :
    Prog.EndsE (fun h (row : call.Row) => h = hist ++ [⟨.db call, .ok row⟩]) post hist
      (orFail (Prog.perform (Eff.db call)) f) := by
  intro r
  cases r with
  | ok row => exact rfl
  | error e => exact hpost _ _

theorem db_ends {call : DbCall} (hpost : ∀ h e, post h (.error e)) :
    Prog.EndsE (fun h (row : call.Row) => h = hist ++ [⟨.db call, .ok row⟩]) post hist (db call) :=
  perform_ends hpost

theorem ttlNow_ends (expiresAt : Option Timestamp) :
    Prog.EndsE (fun h (_ : Timestamp) => hist ⊆ h) post hist (ttlNow expiresAt) := by
  cases expiresAt with
  | none => exact List.Subset.refl _
  | some t => exact fun _ => List.subset_append_left _ _

theorem redis_ends {cmd : RedisCmd} (hpost : ∀ h e, post h (.error e)) :
    Prog.EndsE (fun h _ => h = hist ++ [⟨.redis cmd, .ok ()⟩]) post hist (redis cmd) := by
  intro r
  cases r with
  | ok _ => exact rfl
  | error e => exact hpost _ _

theorem orElse_ends {e : HttpError} {o : Option δ} (hpost : ∀ h e, post h (.error e)) :
    Prog.EndsE (fun h a => h = hist ∧ o = some a) post hist (orElse e o) := by
  cases o with
  | some a => exact ⟨rfl, rfl⟩
  | none => exact hpost _ _

/-- A command to the worker that was answered. -/
theorem submit_ends {request : TbRequest} {sendError recvError : String}
    {extract : TbReply → Option (Except String δ)} :
    (submit request sendError recvError extract).Ends
      (fun h r => ∀ x, r = .ok x → ∃ i reply,
        h = hist ++ [⟨.tbSend request, some i⟩, ⟨.tbRecv i, some reply⟩] ∧
        extract reply = some (.ok x)) hist := by
  intro sent
  cases sent with
  | none => exact fun x hx => by cases hx
  | some i =>
      intro reply
      cases reply with
      | none => exact fun x hx => by cases hx
      | some reply =>
          intro x hx
          refine ⟨i, reply, by simp, ?_⟩
          cases hr : extract reply with
          | none => simp [hr] at hx
          | some r => simpa [hr] using hx

theorem orFail_ends {ε : Type} {p : Io (Except ε δ)} {f : ε → HttpError}
    {mid : History → δ → Prop} (hpost : ∀ h e, post h (.error e))
    (h : p.Ends (fun h r => ∀ x, r = .ok x → mid h x) hist) :
    Prog.EndsE mid post hist (orFail p f) := by
  refine h.bind (fun h r hr => ?_)
  cases r with
  | ok x => exact hr x rfl
  | error e => exact hpost _ _

/-- A handler with its body wrapped. -/
theorem answerWith_ends {α : Type} {wrap : α → Body} {h : Handler (StatusCode × α)}
    {mid : History → StatusCode × α → Prop} {post' : History → Answer → Prop}
    {post : History → Except HttpError (StatusCode × α) → Prop}
    (hh : Prog.EndsE mid post hist h)
    (hok : ∀ hist a, mid hist a → post' hist (.ok (a.1, wrap a.2)))
    (herr : ∀ hist e, post hist (.error e) → post' hist (.error e)) :
    (answerWith wrap h).Ends post' hist := by
  refine Prog.Ends.bind hh (fun hist r hr => ?_)
  cases r with
  | ok a => exact hok _ _ hr
  | error e => exact herr _ _ hr

end

/-! ### All requests -/

/-- What replies said of the world, in a reachable state. -/
theorem Reachable.facts {env : Env} {ok : State → Act → Prop} {now : Timestamp} {c : State}
    {fact : Request → History → Event Eff Eff.Resp → World → Prop}
    (hmono : ∀ q past ev w w', Grows w w' → fact q past ev w → fact q past ev w')
    (hnew : ∀ c c' i ch q hist e k r, Reachable env c → Reachable env c' → ok c (.step i ch) →
      c.tasks[i]? = some ⟨q, hist, some (.call e k)⟩ →
      c.world.exec env.settings.tigerbeetle.channelCapacity ch e = some (r, c'.world) →
      fact q hist ⟨e, r⟩ c'.world)
    (h : (machine env).Reach ok (boot env now) c) :
    ∀ t ∈ c.tasks, Machine.Remembers (fact t.req) t.hist c.world :=
  Machine.Reach.facts (P := Reachable env) (fun _ _ _ hc _ hs => hc.step hs) hmono hnew
    (boot_reachable env now) rfl h

end Wurzburg.System
