import Wurzburg.Lib.Protocol
import Wurzburg.System.PriorityReplay

/-!
# Wurzburg.System.RedisFailures

The Redis key of a user's active priority when Redis commands fail, for requests
that are served one after another. Each request passes through the phases of
`cacheProtocol`; what a phase says of the key and of the configuration in force
is `CachePhase.Holds`.

A failing command that leaves the two in agreement is harmless: the acquisition
or the `DEL` with which a creation begins, when it is not carried out, and the
`SET` and the `DEL` of a cancellation, when they are carried out and reported as
failed. The others are not repaired by a retry, since a second
cancellation finds nothing to cancel and a second creation finds its own key.
In runs in which every failure is harmless the key agrees after every request
(`cache_agrees_in_turn`).
-/

namespace Wurzburg.System

open Wurzburg.Lib Wurzburg.Db Wurzburg.Tb Wurzburg.Api

/-! ### The phases of a request -/

/-- How far a request has come. -/
inductive CachePhase where
  /-- The key agrees. -/
  | steady
  /-- The key agrees, and nothing is in force. -/
  | vacant
  /-- The configuration in force was cancelled, and the key is about to be deleted. -/
  | revoked
  /-- A creation has deleted the key. -/
  | emptied
  /-- And nothing is in force any more. -/
  | cleared
  /-- This configuration is in force and about to be published. -/
  | replaced (d : UserPriorityDetails)

namespace CachePhase

/-- The key agrees. -/
def AtEase : CachePhase → Prop
  | steady | vacant => True
  | _ => False

/-- The phase after an effect and its reply. -/
def next : CachePhase → (e : Eff) → e.Resp → CachePhase
  | _, .redis _, .error _ => steady
  | steady, .redis (.del _), .ok _ => emptied
  | steady, .db (.cancelActivePriorityConfig ..), .ok (some _) => revoked
  | steady, .db (.cancelActivePriorityConfig ..), .ok none => vacant
  | revoked, .redis (.del _), .ok _ => steady
  | emptied, .db (.getActivePriorityConfig _), .ok none => cleared
  | emptied, .db (.cancelActivePriorityConfig ..), .ok _ => cleared
  | emptied, .db _, .error _ => steady
  | cleared, .db (.createPriorityConfig ..), .ok d => replaced d
  | cleared, .db (.createPriorityConfig ..), .error _ => steady
  | replaced _, .redis (.set ..), .ok _ => steady
  | φ, _, _ => φ

/-- What a request of the user does in each phase. -/
def allowed (env : Env) (u : Uuid) : CachePhase → Eff → Prop
  | steady, .redis (.del key) => key = priorityKey u
  | steady, .db (.cancelActivePriorityConfig userId _) => userId = u
  | steady, e => e.sparesPriorities
  | vacant, .redis (.del key) => key = priorityKey u
  | vacant, e => e.sparesPriorities
  | revoked, .redis .acquire => True
  | revoked, .redis (.del key) => key = priorityKey u
  | emptied, .db (.getActivePriorityConfig userId) => userId = u
  | emptied, .db (.cancelActivePriorityConfig userId _) => userId = u
  | cleared, .db (.createPriorityConfig _ userId _ _ _) => userId = u
  | replaced _, .now => True
  | replaced d, .redis (.set key value _) => key = priorityKey u ∧ value = env.priorityToJson d
  | _, _ => False

/-- What holds of the key and of the configuration in force. -/
def Holds (env : Env) (u : Uuid) : CachePhase → World → Prop
  | steady, w => CacheAgrees env u w
  | vacant, w => CacheAgrees env u w ∧ w.pg.activeDetails? u = none
  | revoked, w => w.pg.activeDetails? u = none
  | emptied, w => w.redisGet (priorityKey u) = none
  | cleared, w => w.redisGet (priorityKey u) = none ∧ w.pg.activeDetails? u = none
  | replaced d, w => w.pg.activeDetails? u = some d

end CachePhase

/-- The protocol of the requests that change a user's priorities. -/
def cacheProtocol (env : Env) (u : Uuid) : Protocol Eff Eff.Resp where
  Phase := CachePhase
  allowed := CachePhase.allowed env u
  next := CachePhase.next

/-! ### The requests keep to it -/

section

variable {env : Env} {u : Uuid} {α γ : Type} {φ : CachePhase}

theorem Eff.sparesPriorities.allowed {e : Eff} (h : e.sparesPriorities) (hφ : φ.AtEase) :
    φ.allowed env u e := by
  cases φ with
  | steady | vacant =>
      cases e with
      | db call => cases call <;> first | exact h.elim | exact h
      | redis cmd => cases cmd <;> first | exact h.elim | exact h
      | _ => exact h
  | _ => exact hφ.elim

theorem Eff.sparesPriorities.atEase {e : Eff} (h : e.sparesPriorities) (r : e.Resp)
    (hφ : φ.AtEase) : (φ.next e r).AtEase := by
  cases φ with
  | steady | vacant =>
      cases e with
      | db call => cases call <;> first | exact h.elim | (cases r <;> trivial)
      | redis cmd =>
          cases cmd with
          | acquire => cases r <;> trivial
          | del key => exact h.elim
          | set key value ex => exact h.elim
      | _ => trivial
  | _ => exact hφ.elim

theorem Eff.sparesPriorities.steady {e : Eff} (h : e.sparesPriorities) (r : e.Resp) :
    CachePhase.next .steady e r = .steady := by
  cases e with
  | db call => cases call <;> first | exact h.elim | (cases r <;> rfl)
  | redis cmd =>
      cases cmd with
      | acquire => cases r <;> rfl
      | del key => exact h.elim
      | set key value ex => exact h.elim
  | _ => rfl

/-- The request ends with the key in agreement. -/
abbrev EndsAtEase {β : Type} (φ : CachePhase) (_ : β) : Prop := φ.AtEase

/-- A handler that starts and ends with the key in agreement. -/
abbrev KeepsCache (env : Env) (u : Uuid) (φ : CachePhase) (x : Handler α) : Prop :=
  Prog.FollowsE (cacheProtocol env u) EndsAtEase (EndsAtEase (β := Except HttpError γ)) φ x

theorem spares_keeps {x : Handler α} (h : Prog.UsesE Eff.sparesPriorities x) (hφ : φ.AtEase) :
    KeepsCache (γ := γ) env u φ x :=
  h.follows (fun _ _ hφ he => he.allowed hφ) (fun _ _ r hφ he => he.atEase r hφ)
    (fun _ _ hφ => hφ) hφ

theorem publishPriority_keeps (key : String) (resolved : List ResolvedItem)
    (expiresAt : Option Timestamp) :
    KeepsCache (γ := γ) env u .cleared (publishPriority env u key resolved expiresAt) := by
  refine ⟨rfl, fun r => ?_⟩
  cases r with
  | error e => trivial
  | ok d =>
      cases expiresAt with
      | none =>
          refine ⟨⟨rfl, rfl⟩, fun r => ?_⟩
          cases r <;> trivial
      | some t =>
          refine ⟨trivial, fun at_ => ⟨⟨rfl, rfl⟩, fun r => ?_⟩⟩
          cases r <;> trivial

theorem replacePriority_keeps (key : String) (resolved : List ResolvedItem)
    (expiresAt : Option Timestamp) :
    KeepsCache (γ := γ) env u .steady (replacePriority env u key resolved expiresAt) := by
  refine ⟨trivial, fun r => ?_⟩
  cases r with
  | error e => trivial
  | ok _ =>
      refine ⟨rfl, fun r => ?_⟩
      cases r with
      | error e => trivial
      | ok _ =>
          refine ⟨rfl, fun found => ?_⟩
          cases found with
          | error e => trivial
          | ok found =>
              cases found with
              | none => exact publishPriority_keeps key resolved expiresAt
              | some d =>
                  refine ⟨rfl, fun r => ?_⟩
                  cases r with
                  | error e => trivial
                  | ok _ => exact publishPriority_keeps key resolved expiresAt

/-- Reads, before anything is cancelled. -/
theorem reads_steady {x : Handler α} (h : Prog.UsesE Eff.isRead x) :
    Prog.FollowsE (cacheProtocol env u) (fun φ _ => φ = CachePhase.steady)
      (EndsAtEase (β := Except HttpError γ)) CachePhase.steady x := by
  refine h.follows (fun φ e hφ he => ?_) (fun φ e r hφ he => ?_) (fun φ e hφ => ?_) rfl
  · subst hφ
    exact he.sparesPriorities.allowed (φ := .steady) trivial
  · subst hφ
    exact he.sparesPriorities.steady r
  · subst hφ
    trivial

theorem createUserPriority_keeps (header : Option String) (payload : CreatePriorityRequest) :
    KeepsCache (γ := γ) env u .steady (createUserPriority env u header payload) := by
  unfold createUserPriority
  split
  · trivial
  · refine (reads_steady orElse_uses).bind (fun φ key hφ => ?_)
    subst hφ
    have hknown : Prog.UsesE Eff.isRead (tryDb (.getPriorityConfigByIdempotencyKey key)) :=
      tryDb_uses trivial
    refine (reads_steady hknown).bind (fun φ known hφ => ?_)
    subst hφ
    split
    · trivial
    · refine (reads_steady (checkItems_uses ..)).bind (fun φ resolved hφ => ?_)
      subst hφ
      exact replacePriority_keeps key resolved payload.expiresAt

theorem cancelActiveUserPriority_keeps :
    KeepsCache (γ := γ) env u .steady (cancelActiveUserPriority u) := by
  refine ⟨rfl, fun found => ?_⟩
  cases found with
  | error e => trivial
  | ok found =>
      cases found with
      | none => trivial
      | some d =>
          refine ⟨trivial, fun r => ?_⟩
          cases r with
          | error e => trivial
          | ok _ =>
              refine ⟨rfl, fun r => ?_⟩
              cases r <;> trivial

/-- The step of a debit that swallows what Redis answers. -/
theorem cancelPriorityNaming_keeps (p : Uuid) :
    KeepsCache (γ := γ) env u .steady (cancelPriorityNaming p u) := by
  refine ⟨trivial, fun found => ?_⟩
  cases found with
  | error e => trivial
  | ok found =>
      cases found with
      | none => trivial
      | some active =>
          by_cases hnames : active.items.any (fun item => item.providerId = p) = true
          · show Prog.FollowsE _ _ _ _ (if _ then _ else _)
            rw [if_pos hnames]
            refine ⟨rfl, fun r => ?_⟩
            cases r with
            | error e => trivial
            | ok cancelled =>
                cases cancelled with
                | none =>
                    refine ⟨trivial, fun r => ?_⟩
                    cases r with
                    | error e => trivial
                    | ok _ =>
                        refine ⟨rfl, fun r => ?_⟩
                        cases r <;> trivial
                | some d =>
                    refine ⟨trivial, fun r => ?_⟩
                    cases r with
                    | error e => trivial
                    | ok _ =>
                        refine ⟨rfl, fun r => ?_⟩
                        cases r <;> trivial
          · show Prog.FollowsE _ _ _ _ (if _ then _ else _)
            rw [if_neg hnames]
            trivial

theorem debitUser_keeps (p : Uuid) (payload : TransferRequest) :
    KeepsCache (γ := γ) env u .steady (debitUser env p u payload) := by
  refine (reads_steady (admission_uses p u payload)).bind (fun φ a hφ => ?_)
  subst hφ
  cases a with
  | answered response => trivial
  | admitted ud pd =>
      exact (cancelPriorityNaming_keeps p).bind (fun φ _ hφ => spares_keeps (settle_uses ..) hφ)

end

/-- **The requests of a user keep to the protocol.** -/
theorem serve_follows {env : Env} {u : Uuid} {q : Request} (hq : q.changesPriority u) :
    (serve env q).Follows (cacheProtocol env u) EndsAtEase CachePhase.steady := by
  have wrapped : ∀ {β : Type} {x : Handler (StatusCode × β)} (wrap : β → Body),
      KeepsCache (γ := StatusCode × β) env u .steady x →
      (answerWith wrap x).Follows (cacheProtocol env u) EndsAtEase CachePhase.steady := by
    intro β x wrap hx
    refine Prog.Follows.bind hx (fun φ r hφ => ?_)
    cases r with
    | ok a => exact hφ
    | error e => exact hφ
  cases q with
  | createUserPriority userId header payload =>
      obtain rfl : userId = u := hq
      exact wrapped .priority (createUserPriority_keeps header payload)
  | cancelActiveUserPriority userId =>
      obtain rfl : userId = u := hq
      exact wrapped .priority cancelActiveUserPriority_keeps
  | debitUser p userId payload =>
      obtain rfl : userId = u := hq
      exact wrapped .transaction (debitUser_keeps p payload)
  | _ => exact hq.elim

/-! ### What the effects do -/

/-- A Redis command that is not carried out finds the key in agreement, and a `DEL`
that is carried out and reported as failed finds nothing in force. -/
def FailsHarmlessly (env : Env) (u : Uuid) (w : World) (ch : Choice) : Eff → Prop
  | .redis cmd =>
      match ch.fault, cmd with
      | .none, _ => True
      | .fail true _, .del _ => w.pg.activeDetails? u = none
      | .fail true _, .set .. => True
      | _, _ => CacheAgrees env u w
  | _ => True

section

variable {env : Env} {u : Uuid} {φ : CachePhase} {w w' : World} {ch : Choice} {capacity : Nat}

theorem CacheAgrees.same (h : CacheAgrees env u w) (hpg : Pg.SamePriorities w.pg w'.pg)
    (hredis : w'.redis = w.redis) : CacheAgrees env u w' := by
  unfold CacheAgrees at h ⊢
  rw [redisGet_congr hredis, hpg.activeDetails? u]
  exact h

theorem CacheAgrees.of_none (hempty : w.redisGet (priorityKey u) = none)
    (hnone : w.pg.activeDetails? u = none) : CacheAgrees env u w := by
  unfold CacheAgrees
  rw [hempty, hnone]
  rfl

theorem CachePhase.Holds.same (h : φ.Holds env u w) (hpg : Pg.SamePriorities w.pg w'.pg)
    (hredis : w'.redis = w.redis) : φ.Holds env u w' := by
  have hkey := redisGet_congr hredis (priorityKey u)
  have hactive := hpg.activeDetails? u
  cases φ with
  | steady => exact CacheAgrees.same h hpg hredis
  | vacant => exact ⟨h.1.same hpg hredis, hactive.trans h.2⟩
  | revoked => exact hactive.trans h
  | emptied => exact hkey.trans h
  | cleared => exact ⟨hkey.trans h.1, hactive.trans h.2⟩
  | replaced d => exact hactive.trans h

theorem Eff.sparesPriorities.vacant {e : Eff} (h : e.sparesPriorities) (r : e.Resp) :
    CachePhase.next .vacant e r = .vacant ∨ CachePhase.next .vacant e r = .steady := by
  cases e with
  | redis cmd =>
      cases r with
      | ok _ => cases cmd <;> exact Or.inl rfl
      | error e => exact Or.inr rfl
  | db call => cases call <;> exact Or.inl rfl
  | _ => exact Or.inl rfl

/-- An effect that spares the priorities, while the key agrees. -/
theorem CachePhase.Holds.spares {e : Eff} {r : e.Resp} (h : φ.Holds env u w) (hφ : φ.AtEase)
    (he : e.sparesPriorities) (hdb : ∀ call, e = .db call → ch.fault = .none)
    (hx : w.exec capacity ch e = some (r, w')) : (φ.next e r).Holds env u w' := by
  obtain ⟨hsame, hredis⟩ := he.exec hdb hx
  have hnow : φ.Holds env u w' := h.same hsame hredis
  cases φ with
  | steady =>
      rw [he.steady r]
      exact hnow
  | vacant =>
      rcases he.vacant r with heq | heq
      · rw [heq]
        exact hnow
      · rw [heq]
        exact hnow.1
  | _ => exact hφ.elim

/-- A Redis command that is carried out. -/
theorem CachePhase.Holds.redisApply {cmd : RedisCmd} (h : φ.Holds env u w)
    (hallowed : φ.allowed env u (.redis cmd)) :
    (φ.next (.redis cmd) (.ok ())).Holds env u (w.redisApply cmd) := by
  cases cmd with
  | acquire =>
      cases φ <;> exact h
  | del key =>
      have hempty : (w.redisDel key).redisGet key = none := World.redisGet_redisDel w key
      cases φ with
      | steady =>
          obtain rfl : key = priorityKey u := hallowed
          exact hempty
      | vacant =>
          obtain rfl : key = priorityKey u := hallowed
          exact ⟨.of_none hempty h.2, h.2⟩
      | revoked =>
          obtain rfl : key = priorityKey u := hallowed
          exact .of_none hempty h
      | _ => exact hallowed.elim
  | set key value ex =>
      cases φ with
      | replaced d =>
          obtain ⟨rfl, rfl⟩ : key = priorityKey u ∧ value = env.priorityToJson d := hallowed
          have hactive : w.pg.activeDetails? u = some d := h
          show ((w.redisSet _ _).redisGet _).map _ = (w.pg.activeDetails? u).map _
          rw [World.redisGet_redisSet, hactive]
          rfl
      | _ => exact hallowed.elim

/-- A Redis command that fails harmlessly leaves the key in agreement. -/
theorem FailsHarmlessly.agrees {cmd : RedisCmd} {applied : Bool} {message : String}
    (hsafe : FailsHarmlessly env u w ch (.redis cmd)) (hfault : ch.fault = .fail applied message)
    (h : φ.Holds env u w) (hallowed : φ.allowed env u (.redis cmd)) :
    CacheAgrees env u (w.faulty ch.fault (·.redisApply cmd)).2 := by
  unfold FailsHarmlessly at hsafe
  rw [hfault] at hsafe ⊢
  cases applied with
  | false => exact hsafe
  | true =>
      cases cmd with
      | acquire => exact hsafe
      | del key =>
          have hkey : key = priorityKey u := by
            cases φ <;> first | exact hallowed | exact hallowed.elim
          subst hkey
          exact .of_none (World.redisGet_redisDel ..) hsafe
      | set key value ex =>
          cases φ with
          | replaced d => exact h.redisApply hallowed
          | _ => exact hallowed.elim

/-- A Redis command of a request. -/
theorem CachePhase.Holds.redis {cmd : RedisCmd} {r : Except String Unit}
    (h : φ.Holds env u w) (hallowed : φ.allowed env u (.redis cmd))
    (hsafe : FailsHarmlessly env u w ch (.redis cmd))
    (hx : w.faulty ch.fault (·.redisApply cmd) = (r, w')) :
    (φ.next (.redis cmd) r).Holds env u w' := by
  cases hfault : ch.fault with
  | fail applied message =>
      have hagrees := hsafe.agrees hfault h hallowed
      rw [hx] at hagrees
      rw [hfault] at hx
      obtain ⟨rfl, -⟩ := Prod.mk.inj hx
      cases φ <;> exact hagrees
  | none =>
      rw [hfault] at hx
      obtain ⟨rfl, rfl⟩ := Prod.mk.inj hx
      exact h.redisApply hallowed

/-- A repository call of a request. -/
theorem CachePhase.Holds.db {call : DbCall} {r : Except RepoError call.Row}
    (h : φ.Holds env u w) (hallowed : φ.allowed env u (.db call)) (hch : ch.fault = .none)
    (hx : w.exec capacity ch (.db call) = some (r, w')) :
    (φ.next (.db call) r).Holds env u w' := by
  obtain ⟨m, htx, hw⟩ := dbExec_ok hch hx
  have hredis : w'.redis = w.redis := by rw [hw]
  have hkey := redisGet_congr hredis (priorityKey u)
  cases φ with
  -- a cancellation leaves nothing in force, so the key has to go next
  | steady =>
      have hagrees : CacheAgrees env u w := h
      have hcases : (∃ userId actor, call = .cancelActivePriorityConfig userId actor) ∨
          (Eff.db call).sparesPriorities := by
        cases call <;> first | exact Or.inr hallowed | exact Or.inl ⟨_, _, rfl⟩
      rcases hcases with ⟨userId, actor, rfl⟩ | hspares
      · obtain rfl : userId = u := hallowed
        obtain ⟨rfl, hpg⟩ := Prod.mk.inj
          ((cancelActivePriorityConfig_transact userId actor _ _ _).symm.trans htx)
        have hnone : w'.pg.activeDetails? userId = none := by
          rw [← (Prod.mk.inj hpg).1]
          exact Pg.activeDetails?_cancelActive ..
        cases hcurrent : w.pg.configs.filter (Pg.isCurrent userId) with
        | nil =>
            refine ⟨?_, hnone⟩
            unfold CacheAgrees at hagrees ⊢
            rw [hkey, hnone, hagrees, Pg.activeDetails?_eq_none.mpr hcurrent]
        | cons config configs => exact hnone
      · exact h.spares trivial hspares (fun _ _ => hch) hx
  | vacant =>
      have hspares : (Eff.db call).sparesPriorities := by
        cases call <;> exact hallowed
      exact h.spares trivial hspares (fun _ _ => hch) hx
  | emptied =>
      have hempty : w'.redisGet (priorityKey u) = none := hkey.trans h
      cases call with
      | getActivePriorityConfig userId =>
          obtain rfl : userId = u := hallowed
          obtain ⟨rfl, hpg⟩ := Prod.mk.inj ((getActivePriorityConfig_transact userId _ _ _).symm.trans htx)
          have hpg := (Prod.mk.inj hpg).1
          cases hactive : w.pg.activeDetails? userId with
          | none => exact ⟨hempty, hpg ▸ hactive⟩
          | some d => exact hempty
      | cancelActivePriorityConfig userId actor =>
          obtain rfl : userId = u := hallowed
          obtain ⟨rfl, hpg⟩ := Prod.mk.inj
            ((cancelActivePriorityConfig_transact userId actor _ _ _).symm.trans htx)
          have hpg := (Prod.mk.inj hpg).1
          refine ⟨hempty, ?_⟩
          rw [← hpg]
          exact Pg.activeDetails?_cancelActive ..
      | _ => exact hallowed.elim
  -- nothing is in force and the key is empty: a creation may set it, or fail without harm
  | cleared =>
      cases call with
      | createPriorityConfig key userId items expiresAt actor =>
          obtain rfl : userId = u := hallowed
          rcases createPriorityConfig_spec htx with ⟨e, rfl, hpg⟩ | ⟨d, rfl, hd⟩
          · exact .of_none (hkey.trans h.1) (hpg ▸ h.2)
          · exact hd
      | _ => exact hallowed.elim
  | _ => exact hallowed.elim

/-- **One effect of a request** takes what holds in its phase to what holds in the
next. -/
theorem CachePhase.Holds.effect {e : Eff} {r : e.Resp} (h : φ.Holds env u w)
    (hallowed : φ.allowed env u e) (hdb : ∀ call, e = .db call → ch.fault = .none)
    (hsafe : FailsHarmlessly env u w ch e) (hx : w.exec capacity ch e = some (r, w')) :
    (φ.next e r).Holds env u w' := by
  cases e with
  | redis cmd => exact h.redis hallowed hsafe (Option.some.inj hx)
  | db call => exact h.db hallowed (hdb call rfl) hx
  | now =>
      cases φ with
      | steady | vacant => exact h.spares trivial (e := .now) trivial hdb hx
      | replaced d =>
          obtain ⟨-, rfl⟩ := Prod.mk.inj (Option.some.inj hx)
          exact h
      | _ => exact hallowed.elim
  | _ =>
      cases φ with
      | steady | vacant => exact h.spares trivial (by exact trivial) hdb hx
      | _ => exact hallowed.elim

end

/-! ### One request after another -/

/-- From position `n` on, requests that change the priorities of the user are served
one after another. PostgreSQL does not fail and no key expires; Redis may fail. -/
def InTurn (n : Nat) (u : Uuid) (c : State) : Act → Prop
  | .arrive q => q.changesPriority u ∧ ∀ t ∈ c.tasks.drop n, t.answer? ≠ none
  | .step i ch => n ≤ i ∧ ∀ q hist call k,
      c.tasks[i]? = some ⟨q, hist, some (.call (.db call) k)⟩ → ch.fault = .none
  | .drop _ => False
  | .env v => ∀ key, v ≠ .expire key

/-- Every Redis command that fails is harmless. -/
def HarmlessFailures (env : Env) (u : Uuid) (c : State) : Act → Prop
  | .step i ch => ∀ q hist e k, c.tasks[i]? = some ⟨q, hist, some (.call e k)⟩ →
      FailsHarmlessly env u c.world ch e
  | _ => True

/-- The key agrees, or the last request is on its way. -/
inductive Serial (env : Env) (u : Uuid) (n : Nat) (c : State) : Prop
  | idle : n ≤ c.tasks.length → (∀ t ∈ c.tasks.drop n, t.answer? ≠ none) →
      CacheAgrees env u c.world → Serial env u n c
  | busy (front : List Serving) (q : Request) (hist : History) (p : Io Answer) :
      c.tasks = front ++ [⟨q, hist, some p⟩] → n ≤ front.length →
      (∀ t ∈ front.drop n, t.answer? ≠ none) →
      p.Follows (cacheProtocol env u) EndsAtEase ((cacheProtocol env u).phase .steady hist) →
      CachePhase.Holds env u ((cacheProtocol env u).phase .steady hist) c.world →
      Serial env u n c

section

variable {env : Env} {u : Uuid} {n : Nat} {c c' : State} {l : Act}

theorem CachePhase.Holds.agrees {φ : CachePhase} {w : World} (h : φ.Holds env u w)
    (hφ : φ.AtEase) : CacheAgrees env u w := by
  cases φ with
  | steady => exact h
  | vacant => exact h.1
  | _ => exact hφ.elim

/-- When all requests have been answered, the key agrees. -/
theorem Serial.agrees (h : Serial env u n c) (hdone : ∀ t ∈ c.tasks.drop n, t.answer? ≠ none) :
    CacheAgrees env u c.world := by
  cases h with
  | idle _ _ hagrees => exact hagrees
  | busy front q hist p htasks hn hfront hfollows hholds =>
      have hmem : (⟨q, hist, some p⟩ : Serving) ∈ c.tasks.drop n := by
        rw [htasks, List.drop_append_of_le_length hn]
        exact List.mem_append_right _ (List.mem_singleton_self _)
      cases p with
      | ret a => exact hholds.agrees hfollows
      | call e k => exact absurd rfl (hdone _ hmem)

theorem Serial.length_le (h : Serial env u n c) : n ≤ c.tasks.length := by
  cases h with
  | idle hn _ _ => exact hn
  | busy front q hist p htasks hn _ _ _ =>
      rw [htasks, List.length_append]
      exact Nat.le_add_right_of_le hn

/-- A request that has stopped takes no step. -/
theorem not_answered {ts : List Serving} {i : Nat} {q : Request} {hist : History} {e : Eff}
    {k : e.Resp → Io Answer} (hdone : ∀ t ∈ ts.drop n, t.answer? ≠ none) (hi : n ≤ i)
    (ht : ts[i]? = some ⟨q, hist, some (.call e k)⟩) : False := by
  refine hdone ⟨q, hist, some (.call e k)⟩ (List.mem_of_getElem? (i := i - n) ?_) rfl
  rw [List.getElem?_drop, Nat.add_sub_cancel' hi]
  exact ht

theorem Serial.step (h : Serial env u n c) (hok : InTurn n u c l)
    (hsafe : HarmlessFailures env u c l) (hs : (machine env).step c l = some c') :
    Serial env u n c' := by
  rcases (machine env).step_cases hs with ⟨q, rfl, rfl⟩ |
    ⟨i, ch, q, hist, e, k, r, w, rfl, ht, hx, rfl⟩ | ⟨i, q, hist, e, k, rfl, -, -⟩ |
    ⟨v, w, rfl, hw, rfl⟩
  · exact .busy c.tasks q [] (serve env q) rfl h.length_le hok.2 (serve_follows hok.1)
      (h.agrees hok.2)
  · obtain ⟨hi, hdb⟩ := hok
    cases h with
    | idle _ hdone _ => exact (not_answered hdone hi ht).elim
    | busy front q' hist' p htasks hlen hfront hfollows hholds =>
        have htask : c.tasks[i]? = some ⟨q, hist, some (.call e k)⟩ := ht
        rw [htasks] at htask
        by_cases hlt : i < front.length
        · rw [List.getElem?_append_left hlt] at htask
          exact (not_answered hfront hi htask).elim
        · obtain rfl : i = front.length := by
            have := (List.getElem?_eq_some_iff.mp htask).1
            rw [List.length_append, List.length_singleton] at this
            omega
          rw [List.getElem?_concat_length] at htask
          obtain ⟨rfl, rfl, hp⟩ := Task.mk.inj (Option.some.inj htask)
          obtain rfl := Option.some.inj hp
          have hphase : (cacheProtocol env u).phase CachePhase.steady (hist' ++ [⟨e, r⟩]) =
              CachePhase.next ((cacheProtocol env u).phase CachePhase.steady hist') e r :=
            Protocol.phase_concat ..
          have hnext : CachePhase.Holds env u
              ((cacheProtocol env u).phase CachePhase.steady (hist' ++ [⟨e, r⟩])) w := by
            rw [hphase]
            refine hholds.effect hfollows.1 (fun call heq => ?_) (hsafe _ _ _ _ ht) hx
            subst heq
            exact hdb _ _ _ _ ht
          refine .busy front q' _ (k r) ?_ hlen hfront ?_ hnext
          · show c.tasks.set _ _ = _
            rw [htasks, List.set_append_right _ _ (Nat.le_refl _), Nat.sub_self]
            rfl
          · rw [hphase]
            exact hfollows.2 r
  · exact hok.elim
  · obtain ⟨hpg, hredis⟩ := World.move_sparesPriorities hw (fun key heq => hok key heq)
    have hsame : Pg.SamePriorities c.world.pg w.pg := hpg ▸ .refl _
    cases h with
    | idle hlen hdone hagrees => exact .idle hlen hdone (hagrees.same hsame hredis)
    | busy front q hist p htasks hlen hfront hfollows hholds =>
        exact .busy front q hist p htasks hlen hfront hfollows (hholds.same hsame hredis)

end

/-- **The key agrees after every request** of a sequence in which every Redis
command that fails is harmless. -/
theorem cache_agrees_in_turn {env : Env} {u : Uuid} {c₀ c : State}
    (h₀ : CacheAgrees env u c₀.world)
    (hrun : (machine env).Reach
      (fun c l => InTurn c₀.tasks.length u c l ∧ HarmlessFailures env u c l) c₀ c)
    (hdone : ∀ t ∈ c.tasks.drop c₀.tasks.length, t.answer? ≠ none) :
    CacheAgrees env u c.world := by
  have hserial : Serial env u c₀.tasks.length c :=
    hrun.invariant (P := Serial env u c₀.tasks.length) (.idle (Nat.le_refl _) (by simp) h₀)
      (fun _ _ _ h hok hs => h.step hok.1 hok.2 hs)
  exact hserial.agrees hdone

/-! ### Failures on the way -/

/-- The choice by which a command fails. -/
def failing (applied : Bool) : Choice := ⟨.fail applied "connection reset", fun _ => ⟨0⟩⟩

/-- The next command of task `i` fails. -/
def failNext (env : Env) (i : Nat) (applied : Bool) (c : State) : State :=
  ((machine env).step c (.step i (failing applied))).getD c

section

variable {env : Env} {u : Uuid} {n i : Nat}

/-- Both requirements on an act. -/
def InTurnHarmless (env : Env) (n : Nat) (u : Uuid) (c : State) (l : Act) : Prop :=
  InTurn n u c l ∧ HarmlessFailures env u c l

theorem nextAct_inTurn (hi : n ≤ i) (c : State) : InTurnHarmless env n u c (nextAct env i c) := by
  unfold nextAct
  split
  · exact ⟨⟨hi, fun _ _ _ _ _ => rfl⟩, fun _ _ e _ _ => by cases e <;> trivial⟩
  · split
    · exact ⟨fun _ h => (by cases h), trivial⟩
    · exact ⟨fun _ h => (by cases h), trivial⟩

theorem serveAlone_inTurn (hi : n ≤ i) (fuel : Nat) (c : State) :
    (machine env).Reach (InTurnHarmless env n u) c (serveAlone env i fuel c) := by
  refine (serveAlone_scheduled env i fuel c).mono (fun c' l hl => ?_)
  rw [hl]
  exact nextAct_inTurn hi c'

theorem arrived_inTurn {c : State} {q : Request} (hq : q.changesPriority u)
    (hdone : ∀ t ∈ c.tasks.drop n, t.answer? ≠ none) :
    (machine env).Reach (InTurnHarmless env n u) c (arrived env c q) :=
  .tail (l := .arrive q) .refl ⟨⟨hq, hdone⟩, trivial⟩ ((machine env).step_arrive c q)

/-- The command of Redis that comes next. -/
def nextRedis (c : State) (i : Nat) : Option RedisCmd :=
  match c.tasks[i]? with
  | some ⟨_, _, some (.call (.redis cmd) _)⟩ => some cmd
  | _ => none

theorem failNext_reach {ok : State → Act → Prop} {applied : Bool} {c : State}
    (hok : ok c (.step i (failing applied))) :
    (machine env).Reach ok c (failNext env i applied c) := by
  unfold failNext
  cases hs : (machine env).step c (.step i (failing applied)) with
  | none => exact .refl
  | some c' => exact .tail .refl hok hs

theorem failing_inTurn {applied : Bool} {c : State} {cmd : RedisCmd} (hi : n ≤ i)
    (hnext : nextRedis c i = some cmd) : InTurn n u c (.step i (failing applied)) := by
  refine ⟨hi, fun q hist call k ht => ?_⟩
  rw [nextRedis, ht] at hnext
  cases hnext

theorem step_harmless {applied : Bool} {c : State} {cmd : RedisCmd}
    (hnext : nextRedis c i = some cmd)
    (hsafe : FailsHarmlessly env u c.world (failing applied) (.redis cmd)) :
    HarmlessFailures env u c (.step i (failing applied)) := by
  intro q hist e k ht
  rw [nextRedis, ht] at hnext
  cases e with
  | redis cmd' =>
      obtain rfl := Option.some.inj hnext
      exact hsafe
  | _ => trivial

end

/-- The `SET` with which a priority is published is carried out and reported as
failed. -/
def publishedSilently : State := failNext defaultEnv 3 true unpublished

/-- The request is answered with an error, and the key agrees. -/
theorem cache_agrees_in_turn_publishedSilently :
    CacheAgrees defaultEnv ⟨1008⟩ publishedSilently.world := by
  have hstart : oneCredit.tasks.length = 3 ∧ CacheAgrees defaultEnv ⟨1008⟩ oneCredit.world ∧
      (∀ t ∈ oneCredit.tasks.drop 3, t.answer? ≠ none) ∧
      (∀ t ∈ publishedSilently.tasks.drop 3, t.answer? ≠ none) := by
    unfold CacheAgrees
    decide +kernel
  obtain ⟨hlen, hagrees, hidle, hdone⟩ := hstart
  have hcreator : createPriority.changesPriority ⟨1008⟩ := rfl
  have hbegun : (machine defaultEnv).Reach (InTurnHarmless defaultEnv 3 ⟨1008⟩) oneCredit
      unpublished :=
    (arrived_inTurn hcreator hidle).trans (serveAlone_inTurn (Nat.le_refl 3) 9 _)
  have hset : nextRedis unpublished 3 =
        (unpublished.world.pg.activeDetails? ⟨1008⟩).map (fun d =>
          .set (priorityKey ⟨1008⟩) (defaultEnv.priorityToJson d) none) ∧
      (unpublished.world.pg.activeDetails? ⟨1008⟩).isSome = true := by decide +kernel
  obtain ⟨hset, hactive⟩ := hset
  obtain ⟨d, hd⟩ := Option.isSome_iff_exists.mp hactive
  rw [hd] at hset
  have hfailed : (machine defaultEnv).Reach (InTurnHarmless defaultEnv 3 ⟨1008⟩) unpublished
      publishedSilently :=
    failNext_reach ⟨failing_inTurn (Nat.le_refl 3) hset, step_harmless hset trivial⟩
  rw [← hlen] at hbegun hfailed hdone
  exact cache_agrees_in_turn hagrees (hbegun.trans hfailed) hdone

/-- A debit has cancelled the priority and is about to delete the key. -/
def debitCancelled : State :=
  serveAlone defaultEnv 4 6
    (arrived defaultEnv onePriority (.debitUser ⟨1002⟩ ⟨1008⟩ ⟨⟨8⟩, 50, none⟩))

/-- Its `DEL` fails. -/
def debitKeepsKey : State :=
  serveAlone defaultEnv 4 60 (failNext defaultEnv 4 false debitCancelled)

/-- The debit succeeds and the key holds the configuration that it cancelled. -/
theorem debitKeepsKey_disagrees :
    ¬ ∀ (env : Env) (u : Uuid) (c₀ c : State), Reachable env c₀ → CacheAgrees env u c₀.world →
      (machine env).Reach (InTurn c₀.tasks.length u) c₀ c →
      (∀ t ∈ c.tasks.drop c₀.tasks.length,
        ∃ a, t.answer? = some a ∧ a.status ≠ .internalServerError) →
      CacheAgrees env u c.world := by
  intro hall
  have hstart : onePriority.tasks.length = 4 ∧
      CacheAgrees defaultEnv ⟨1008⟩ onePriority.world ∧
      (∀ t ∈ onePriority.tasks.drop 4, t.answer? ≠ none) ∧
      nextRedis debitCancelled 4 = some (.del (priorityKey ⟨1008⟩)) := by
    unfold CacheAgrees
    decide +kernel
  obtain ⟨hlen, hagrees, hidle, hdel⟩ := hstart
  have hend : (debitKeepsKey.tasks.drop 4).map (fun t => t.answer?.map Answer.status) =
        [some .ok] ∧
      ¬ CacheAgrees defaultEnv ⟨1008⟩ debitKeepsKey.world := by
    unfold CacheAgrees
    decide +kernel
  have hrun : (machine defaultEnv).Reach (InTurn 4 ⟨1008⟩) onePriority debitKeepsKey := by
    have hdebit : (Request.debitUser ⟨1002⟩ ⟨1008⟩ ⟨⟨8⟩, 50, none⟩).changesPriority ⟨1008⟩ := rfl
    have hbegun : (machine defaultEnv).Reach (InTurnHarmless defaultEnv 4 ⟨1008⟩) onePriority
        debitCancelled :=
      (arrived_inTurn hdebit hidle).trans (serveAlone_inTurn (Nat.le_refl 4) 6 _)
    have hfailed : (machine defaultEnv).Reach (InTurn 4 ⟨1008⟩) debitCancelled
        (failNext defaultEnv 4 false debitCancelled) :=
      failNext_reach (failing_inTurn (Nat.le_refl 4) hdel)
    have hserved : (machine defaultEnv).Reach (InTurnHarmless defaultEnv 4 ⟨1008⟩)
        (failNext defaultEnv 4 false debitCancelled) debitKeepsKey :=
      serveAlone_inTurn (Nat.le_refl 4) 60 _
    exact (hbegun.mono (fun _ _ h => h.1)).trans
      (hfailed.trans (hserved.mono (fun _ _ h => h.1)))
  refine hend.2 (hall defaultEnv ⟨1008⟩ onePriority debitKeepsKey onePriority_reachable
    hagrees ?_ ?_)
  · rw [hlen]
    exact hrun
  · rw [hlen]
    intro t ht
    have hstatus : t.answer?.map Answer.status ∈ [some StatusCode.ok] := by
      rw [← hend.1]
      exact List.mem_map_of_mem ht
    obtain ⟨a, ha, hok⟩ := Option.map_eq_some_iff.mp (List.mem_singleton.mp hstatus)
    refine ⟨a, ha, ?_⟩
    rw [hok]
    decide

end Wurzburg.System
