import Wurzburg.System.PriorityRequests

/-!
# Wurzburg.System.Footprint

What each request may do besides reading (`Request.Allows`): which call of which store, on
whose rows and keys, and in whose name. Every handler keeps to it, whatever the replies
(`serve_allows`), so what one request can touch is read off the request alone.
-/

namespace Wurzburg.System

open Wurzburg.Lib Wurzburg.Db Wurzburg.Tb Wurzburg.Api

/-- A request asks for accounts in the ledger. -/
def Request.opensAccounts : Request → Prop
  | .seedSystemAccounts | .createProvider _ | .createOrLink _ => True
  | _ => False

/-- What a request may do besides reading. -/
def Request.Allows (q : Request) : Eff → Prop
  | .redis (.del key) => ∃ u, q.changesPriority u ∧ key = priorityKey u
  | .redis (.set key _ _) =>
      ∃ u header payload, q = .createUserPriority u header payload ∧ key = priorityKey u
  | .kafka _ => ∃ payload, q = .createProvider payload
  | .tbSend (.createTransfer _) => ∃ d p u payload, q = transferRequest d p u payload
  | .tbSend (.createAccount _) => q.opensAccounts
  | .db (.createProvider ..) => ∃ payload, q = .createProvider payload
  | .db (.createOrLinkUser nid p ..) =>
      ∃ payload, q = .createOrLink payload ∧ nid = payload.nid ∧ p = payload.providerId
  | .db (.executeCreditTransfer key _ p u _ _ actor _) =>
      ∃ payload, q = .creditUser p u payload ∧ key = payload.idempotencyKey.toString ∧ actor = p
  | .db (.executeDebitTransfer key _ p u _ _ actor _) =>
      ∃ payload, q = .debitUser p u payload ∧ key = payload.idempotencyKey.toString ∧ actor = p
  | .db (.createPriorityConfig key u _ _ actor) =>
      ∃ header payload, q = .createUserPriority u header payload ∧ usableKey header = some key ∧
        actor = u
  | .db (.cancelActivePriorityConfig u actor) => q.changesPriority u ∧ actor = u
  | .db (.recordSystemAccount ..) => q = .seedSystemAccounts
  | _ => True

theorem Eff.isRead.allowed {q : Request} {e : Eff} (h : e.isRead) : q.Allows e := by
  cases e with
  | db call => cases call <;> first | exact h.elim | trivial
  | redis cmd => cases cmd <;> first | exact h.elim | trivial
  | tbSend request => cases request <;> first | exact h.elim | trivial
  | kafka cmd => exact h.elim
  | _ => trivial

section

variable {env : Env} {q : Request}

theorem allows_of_reads {α : Type} {x : Handler α} (hx : Prog.UsesE Eff.isRead x) :
    Prog.UsesE q.Allows x :=
  hx.mono (fun _ he => he.allowed)

theorem newV4_allows {use : IdUse} : Prog.UsesE q.Allows (newV4 use) :=
  ⟨trivial, fun _ => trivial⟩

theorem createAccount_allows {a : AppAccount} {f : String → HttpError} (hq : q.opensAccounts) :
    Prog.UsesE q.Allows (orFail (createAccount a) f) :=
  orFail_uses (submit_uses hq (fun _ => trivial))

theorem createProvider_allows (payload : CreateProviderRequest) :
    Prog.UsesE (Request.createProvider payload).Allows (Api.createProvider env payload) := by
  refine .bind (now_uses trivial) (fun at_ => ?_)
  simp only
  split
  · refine .bind newV4_allows (fun providerId => .bind newV4_allows (fun lid => ?_))
    refine .bind newV4_allows (fun actorId => .bind (createAccount_allows trivial) (fun _ => ?_))
    refine .bind newV4_allows (fun passwordId => .bind (db_uses ⟨payload, rfl⟩) (fun _ => ?_))
    exact .bind (setUpKafka_uses (fun _ => ⟨payload, rfl⟩) _) (fun _ => .pure _)
  · exact .throw _

theorem createOrLink_allows (payload : CreateUserRequest) :
    Prog.UsesE (Request.createOrLink payload).Allows (createOrLink env payload) := by
  refine .bind (now_uses trivial) (fun requestTime => .bind newV4_allows (fun lid => ?_))
  refine .bind newV4_allows (fun actorId => ?_)
  refine .bind (db_uses ⟨payload, rfl, rfl, rfl⟩) (fun ⟨user, account⟩ => ?_)
  simp only
  split
  · exact .bind (createAccount_allows trivial) (fun _ => .pure _)
  · exact .pure _

theorem seedAll_allows (seeds : List SystemAccountSeed) :
    Prog.UsesE Request.seedSystemAccounts.Allows (seedAll env seeds) := by
  induction seeds with
  | nil => exact .pure _
  | cons seed seeds ih =>
      refine .bind ?_ (fun _ => ih)
      unfold seedSystemAccount
      split
      · exact .throw _
      · refine .bind (Prog.Uses.bind (submit_uses trivial (fun _ => trivial)) (fun _ => trivial))
          (fun _ => .bind ⟨rfl, fun _ => trivial⟩ (fun _ => .pure _))

theorem settle_allows (d : Direction) (p u : Uuid) (payload : TransferRequest)
    (ud : UserProviderDetails) (pd : Provider) :
    Prog.UsesE (transferRequest d p u payload).Allows (settle env d p u payload ud pd) := by
  refine .bind (orFail_uses (submit_uses ⟨d, p, u, payload, rfl⟩ (fun _ => trivial))) (fun rs => ?_)
  split
  · have hrecord : Prog.UsesE (transferRequest d p u payload).Allows
        (recordTransfer d p u payload pd.ledgerAccountId ud.userLedgerAccountId) := by
      cases d <;> exact db_uses ⟨payload, rfl, rfl, rfl⟩
    exact .bind hrecord (fun row => .bind (orFail_uses (submit_uses trivial (fun _ => trivial)))
      (fun _ => .pure _))
  · exact .throw _

theorem cancelPriorityNaming_allows {p u : Uuid} (hq : q.changesPriority u) :
    Prog.UsesE q.Allows (cancelPriorityNaming p u) := by
  refine .bind (db_uses trivial) (fun found => ?_)
  cases found with
  | none => exact .pure _
  | some active =>
      by_cases hnames : active.items.any (fun item => item.providerId = p) = true
      · show Prog.UsesE _ (if _ then _ else _)
        rw [if_pos hnames]
        refine .bind (db_uses ⟨hq, rfl⟩) (fun _ => .bind (tryRedis_uses trivial) (fun r => ?_))
        cases r with
        | error e => exact .pure _
        | ok _ => exact .bind (tryRedis_uses ⟨u, hq, rfl⟩) (fun _ => .pure _)
      · show Prog.UsesE _ (if _ then _ else _)
        rw [if_neg hnames]
        exact .pure _

theorem transferHandler_allows (d : Direction) (p u : Uuid) (payload : TransferRequest) :
    Prog.UsesE (transferRequest d p u payload).Allows (transferHandler env d p u payload) := by
  refine .bind (allows_of_reads (admission_uses p u payload)) (fun a => ?_)
  cases a with
  | answered response => exact .pure _
  | admitted ud pd =>
      cases d with
      | credit => exact settle_allows .credit p u payload ud pd
      | debit =>
          exact .bind (cancelPriorityNaming_allows rfl)
            (fun _ => settle_allows .debit p u payload ud pd)

theorem publishPriority_allows {u : Uuid} {header : Option String} {payload : CreatePriorityRequest}
    {key : String} (hkey : usableKey header = some key) (resolved : List ResolvedItem)
    (expiresAt : Option Timestamp) :
    Prog.UsesE (Request.createUserPriority u header payload).Allows
      (publishPriority env u key resolved expiresAt) := by
  refine .bind (orFail_uses (perform_uses ⟨header, payload, rfl, hkey, rfl⟩)) (fun _ => ?_)
  refine .bind (allows_of_reads (ttlNow_uses expiresAt)) (fun _ => ?_)
  exact .bind (redis_uses ⟨u, header, payload, rfl, rfl⟩) (fun _ => .pure _)

theorem replacePriority_allows {u : Uuid} {header : Option String} {payload : CreatePriorityRequest}
    {key : String} (hkey : usableKey header = some key) (resolved : List ResolvedItem)
    (expiresAt : Option Timestamp) :
    Prog.UsesE (Request.createUserPriority u header payload).Allows
      (replacePriority env u key resolved expiresAt) := by
  refine .bind (redis_uses trivial) (fun _ => .bind (redis_uses ⟨u, rfl, rfl⟩) (fun _ => ?_))
  refine .bind (db_uses trivial) (fun active => ?_)
  cases active with
  | none => exact publishPriority_allows hkey resolved expiresAt
  | some d =>
      exact .bind (db_uses ⟨rfl, rfl⟩) (fun _ => publishPriority_allows hkey resolved expiresAt)

theorem createUserPriority_allows (u : Uuid) (header : Option String)
    (payload : CreatePriorityRequest) :
    Prog.UsesE (Request.createUserPriority u header payload).Allows
      (createUserPriority env u header payload) := by
  unfold createUserPriority
  split
  · exact .throw _
  · cases hkey : usableKey header with
    | none => exact .throw _
    | some key =>
        rw [orElse_some_bind]
        refine .bind (tryDb_uses trivial) (fun known => ?_)
        split
        · exact .pure _
        · exact .bind (allows_of_reads (checkItems_uses ..))
            (fun resolved => replacePriority_allows hkey resolved payload.expiresAt)

theorem cancelActiveUserPriority_allows (u : Uuid) :
    Prog.UsesE (Request.cancelActiveUserPriority u).Allows (cancelActiveUserPriority u) := by
  refine .bind (db_uses ⟨rfl, rfl⟩) (fun found => ?_)
  cases found with
  | none => exact .throw _
  | some details =>
      exact .bind (redis_uses trivial)
        (fun _ => .bind (redis_uses ⟨u, rfl, rfl⟩) (fun _ => .pure _))

/-- **Every request keeps to what it may do**, whatever the replies. -/
theorem serve_allows (env : Env) (q : Request) : (serve env q).Uses q.Allows := by
  have reads : ∀ {p : Io Answer}, p.Uses Eff.isRead → p.Uses q.Allows :=
    fun hp => hp.mono (fun _ he => he.allowed)
  cases q with
  | seedSystemAccounts => exact Prog.Uses.bind (seedAll_allows _) (fun _ => trivial)
  | createProvider payload => exact Prog.Uses.bind (createProvider_allows payload) (fun _ => trivial)
  | createOrLink payload => exact Prog.Uses.bind (createOrLink_allows payload) (fun _ => trivial)
  | creditUser p u payload =>
      exact Prog.Uses.bind (transferHandler_allows .credit p u payload) (fun _ => trivial)
  | debitUser p u payload =>
      exact Prog.Uses.bind (transferHandler_allows .debit p u payload) (fun _ => trivial)
  | createUserPriority u header payload =>
      exact Prog.Uses.bind (createUserPriority_allows u header payload) (fun _ => trivial)
  | cancelActiveUserPriority u =>
      exact Prog.Uses.bind (cancelActiveUserPriority_allows u) (fun _ => trivial)
  | getProvider id => exact reads (Prog.Uses.bind (getProvider_uses id) (fun _ => trivial))
  | getUser u p => exact reads (Prog.Uses.bind (getUser_uses u p) (fun _ => trivial))
  | getUserBalance u =>
      exact reads (Prog.Uses.bind (Prog.UsesE.bind (getUserBalance_uses u) (fun _ => .pure _))
        (fun _ => trivial))
  | getActiveUserPriority u =>
      exact reads (Prog.Uses.bind (getActiveUserPriority_uses u) (fun _ => trivial))
  | getAllUserPriorities u =>
      exact reads (Prog.Uses.bind (getAllUserPriorities_uses u) (fun _ => trivial))

/-- An effect of a task is one that its request may have. -/
theorem Reachable.allows {c : State} (h : Reachable env c) {i : Nat} {hist : History} {e : Eff}
    {k : e.Resp → Io Answer} (ht : c.tasks[i]? = some ⟨q, hist, some (.call e k)⟩) :
    q.Allows e := by
  obtain ⟨now, hreach⟩ := h
  have hissues : ∀ q, Prog.Issues (fun _ e => q.Allows e) [] (serve env q) :=
    fun q => Prog.Issues.of_uses (fun _ _ he => he) (serve_allows env q)
  exact hreach.issues hissues rfl ht

end

/-! ### What an effect does to the world -/

/-- What is left of the world after an effect, reply and fault aside. -/
inductive Did (ch : Choice) (w : World) : Eff → World → Prop
  | nothing {e : Eff} : Did ch w e w
  | drew (use : IdUse) (ids : List (Uuid × IdUse)) :
      Did ch w (.newV4 use) { w with issued := w.issued ++ ids }
  | db {call : DbCall} {r : Except RepoError call.Row} {w' : World} :
      w.dbApply ch call = some (r, w') → Did ch w (.db call) w'
  | redis (cmd : RedisCmd) : Did ch w (.redis cmd) (w.redisApply cmd)
  | kafka (cmd : KafkaCmd) : Did ch w (.kafka cmd) (w.kafkaApply cmd)
  | sent (request : TbRequest) : Did ch w (.tbSend request)
      { w with queue := w.queue ++ [⟨request, w.sent.length⟩]
               sent := w.sent ++ [⟨request, w.sent.length⟩] }

theorem faulty_did {ch : Choice} {w w' : World} {f : Fault} {e : Eff} {apply : World → World}
    {r : Except String Unit} (happly : Did ch w e (apply w)) (h : w.faulty f apply = (r, w')) :
    Did ch w e w' := by
  unfold World.faulty at h
  split at h
  · obtain ⟨-, rfl⟩ := Prod.mk.inj h
    exact happly
  · next applied _ =>
      obtain ⟨-, rfl⟩ := Prod.mk.inj h
      cases applied
      · exact .nothing
      · exact happly

theorem exec_did {capacity : Nat} {ch : Choice} {w w' : World} {e : Eff} {r : e.Resp}
    (hx : w.exec capacity ch e = some (r, w')) : Did ch w e w' := by
  cases e with
  | now =>
      obtain ⟨-, rfl⟩ := Prod.mk.inj (Option.some.inj hx)
      exact .nothing
  | newV4 use =>
      simp only [World.exec] at hx
      split at hx
      · obtain ⟨-, rfl⟩ := Prod.mk.inj (Option.some.inj hx)
        exact .drew use _
      · cases hx
  | db call =>
      rcases World.dbExec_cases hx with ⟨_, -, rfl⟩ | ⟨r', happly, -⟩
      · exact .nothing
      · exact .db happly
  | redis cmd => exact faulty_did (.redis cmd) (Option.some.inj hx)
  | kafka cmd => exact faulty_did (.kafka cmd) (Option.some.inj hx)
  | tbSend request =>
      rcases World.tbSend_cases hx with ⟨-, rfl⟩ | ⟨-, rfl⟩
      · exact .nothing
      · exact .sent request
  | tbRecv i =>
      obtain ⟨rfl, -⟩ := World.tbRecv_cases hx
      exact .nothing

end Wurzburg.System
