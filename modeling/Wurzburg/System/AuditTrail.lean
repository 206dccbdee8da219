import Wurzburg.Db.Trail
import Wurzburg.System.Footprint
import Wurzburg.System.PriorityReplay

/-!
# Wurzburg.System.AuditTrail

The audit log of the running service. In every reachable state the insertions it holds
are the rows of the tables, the updates it holds of configurations are their cancellations,
by their users, and every entry was made by a request that has arrived, in the name that
this request acts in; and the log only grows (`audit_trail`). The repository's part is that
each method is audited (`DbCall.audits`), the requests' part is what they do in whose name
(`serve_allows`, `serve_drawsActor`).
-/

namespace Wurzburg.System

open Wurzburg.Lib Wurzburg.Db Wurzburg.Tb Wurzburg.Api

/-! ### What a call writes -/

/-- In whose name a call writes. -/
def DbCall.actor : DbCall → Uuid
  | .createProvider _ actor => actor
  | .createOrLinkUser _ _ _ _ _ actor => actor
  | .executeCreditTransfer _ _ _ _ _ _ actor _ => actor
  | .executeDebitTransfer _ _ _ _ _ _ actor _ => actor
  | .createPriorityConfig _ _ _ _ actor => actor
  | .cancelActivePriorityConfig _ actor => actor
  | _ => nilUuid

/-- The rows that a call may write. -/
def DbCall.Writes : DbCall → RowWrite → Prop
  | .createProvider .., w => w.table = .providers ∧ w.action = .insert
  | .createOrLinkUser .., w =>
      w.table = .userProviders ∨ (w.table = .users ∨ w.table = .userAccounts) ∧ w.action = .insert
  | .executeCreditTransfer .., w | .executeDebitTransfer .., w =>
      w.table = .transactions ∧ w.action = .insert
  | .createPriorityConfig .., w =>
      w.table = .userPriorityConfigs ∨ w.table = .userPriorityItems ∧ w.action = .insert
  | .cancelActivePriorityConfig .., w => w.table = .userPriorityConfigs ∧ w.action = .update
  | .recordSystemAccount .., w => w.table = .systemAccounts ∧ w.action = .insert
  | _, _ => False

/-- Statements that write such rows only. -/
def WritesOnly (P : RowWrite → Prop) (e : Sql) : Prop :=
  ∀ t, ∀ w ∈ e.rowsWritten t, P w

section

variable {pg pg' : Pg} {now : Timestamp} {uuid : Nat → Uuid}

theorem rowsWritten_of_uses {α : Type} {P : RowWrite → Prop} {body : Repo α}
    (h : body.Uses (WritesOnly P)) : ∀ w ∈ body.rowsWritten pg now uuid, P w := by
  have hrun : ∀ (p : Prog Sql Sql.Resp (Except RepoError α)), p.Uses (WritesOnly P) →
      ∀ s : Watched, (∀ w ∈ s.writes, P w) → ∀ w ∈ (Prog.run Sql.note p s).2.writes, P w := by
    intro p hp
    induction p with
    | ret a => exact fun s hs => hs
    | call e k ih =>
        obtain ⟨he, hk⟩ := hp
        refine fun s hs => ih _ (hk _) _ (fun w hw => ?_)
        unfold Sql.note at hw
        split at hw
        · dsimp only at hw
          split at hw
          · cases hw
          · rcases List.mem_append.mp hw with hw | hw
            · exact hs w hw
            · exact he s.tx w hw
        · exact hs w hw
  exact hrun body.run h _ (fun w hw => by cases hw)

theorem writesOnly_silent {P : RowWrite → Prop} {e : Sql} (h : ∀ t, e.rowsWritten t = []) :
    WritesOnly P e := by
  intro t w hw
  rw [h t] at hw
  cases hw

theorem writesOnly_one {P : RowWrite → Prop} {e : Sql} {v : Tx → RowWrite}
    (h : ∀ t, e.rowsWritten t = [v t]) (hv : ∀ t, P (v t)) : WritesOnly P e := by
  intro t w hw
  rw [h t] at hw
  exact List.mem_singleton.mp hw ▸ hv t

theorem reads_writesOnly {α : Type} {P : RowWrite → Prop} {x : Repo α} (h : x.Uses Sql.isRead) :
    x.Uses (WritesOnly P) :=
  h.mono (fun e he => writesOnly_silent (fun t => by cases e <;> first | exact he.elim | rfl))

theorem createOrLinkUser_writesOnly {P : RowWrite → Prop} (nid : String) (p : Uuid)
    (im em : Json) (lid actor : Uuid) (husers : ∀ id, P ⟨.users, id, .insert⟩)
    (hlinks : ∀ id action, P ⟨.userProviders, id, action⟩)
    (haccounts : ∀ id, P ⟨.userAccounts, id, .insert⟩) :
    (createOrLinkUser nid p im em lid actor).Uses (WritesOnly P) := by
  have silent : ∀ {e : Sql}, (∀ t, e.rowsWritten t = []) → WritesOnly P e := writesOnly_silent
  refine Repo.uses_bind (Repo.uses_query (silent (fun _ => rfl))) (fun _ => ?_)
  refine Repo.uses_bind (Repo.uses_bind (Repo.uses_query (silent (fun _ => rfl)))
    (fun found => ?_)) (fun user => ?_)
  · cases found with
    | some user => exact Repo.uses_pure _
    | none =>
        exact Repo.uses_bind (Repo.uses_query (silent (fun _ => rfl)))
          (fun _ => Repo.uses_query (writesOnly_one (fun _ => rfl) (fun _ => husers _)))
  refine Repo.uses_bind (Repo.uses_query (fun t w hw => ?_)) (fun _ => ?_)
  · simp only [Sql.rowsWritten] at hw
    split at hw <;> exact List.mem_singleton.mp hw ▸ hlinks _ _
  refine Repo.uses_bind (Repo.uses_bind (Repo.uses_query (silent (fun _ => rfl)))
    (fun found => ?_)) (fun account => ?_)
  · cases found with
    | some account => exact Repo.uses_pure _
    | none =>
        exact Repo.uses_bind (Repo.uses_query (silent (fun _ => rfl)))
          (fun _ => Repo.uses_query (writesOnly_one (fun _ => rfl) (fun _ => haccounts _)))
  exact Repo.uses_bind (Repo.uses_query (silent (fun _ => rfl))) (fun _ => Repo.uses_pure _)

theorem executeTransfer_writesOnly {P : RowWrite → Prop} (ty : TransactionType) (key : String)
    (amount : Int) (p u dr cr actor : Uuid) (description : Option String)
    (h : ∀ id, P ⟨.transactions, id, .insert⟩) :
    (executeTransfer ty key amount p u dr cr actor description).Uses (WritesOnly P) := by
  refine Repo.uses_bind (Repo.uses_query (writesOnly_silent (fun _ => rfl))) (fun _ => ?_)
  refine Repo.uses_bind (Repo.uses_query (writesOnly_silent (fun _ => rfl))) (fun id => ?_)
  refine Repo.uses_bind (Repo.uses_query (writesOnly_one (fun _ => rfl) (fun _ => h _)))
    (fun row => ?_)
  exact Repo.uses_bind (Repo.uses_query (writesOnly_silent (fun _ => rfl)))
    (fun _ => Repo.uses_pure _)

/-- The cancellation of the configurations in force. -/
theorem cancelActiveConfig_writesOnly {P : RowWrite → Prop} (u : Uuid)
    (h : ∀ id, P ⟨.userPriorityConfigs, id, .update⟩) : WritesOnly P (.cancelActiveConfig u) := by
  intro t w hw
  obtain ⟨c, -, rfl⟩ := List.mem_map.mp hw
  exact h c.id

theorem createPriorityConfig_writesOnly {P : RowWrite → Prop} (key : String) (u : Uuid)
    (items : List PriorityItemData) (expiresAt : Option Timestamp) (actor : Uuid)
    (hconfigs : ∀ id action, P ⟨.userPriorityConfigs, id, action⟩)
    (hitems : ∀ id, P ⟨.userPriorityItems, id, .insert⟩) :
    (createPriorityConfig key u items expiresAt actor).Uses (WritesOnly P) := by
  refine Repo.uses_bind (Repo.uses_query (writesOnly_silent (fun _ => rfl))) (fun _ => ?_)
  refine Repo.uses_bind (Repo.uses_query (cancelActiveConfig_writesOnly u
    (fun id => hconfigs id .update))) (fun _ => ?_)
  refine Repo.uses_bind (Repo.uses_query (writesOnly_one (fun _ => rfl)
    (fun _ => hconfigs _ .insert))) (fun config => ?_)
  refine Repo.uses_bind (insertItems_uses (fun new => writesOnly_one (fun _ => rfl)
    (fun _ => hitems _)) config.id 0 items) (fun _ => ?_)
  refine Repo.uses_bind (Repo.uses_query (writesOnly_silent (fun _ => rfl))) (fun created => ?_)
  exact Repo.uses_bind (Repo.uses_query (writesOnly_silent (fun _ => rfl)))
    (fun _ => Repo.uses_pure _)

theorem cancelActivePriorityConfig_writesOnly {P : RowWrite → Prop} (u actor : Uuid)
    (h : ∀ id, P ⟨.userPriorityConfigs, id, .update⟩) :
    (cancelActivePriorityConfig u actor).Uses (WritesOnly P) := by
  refine Repo.uses_bind (Repo.uses_query (writesOnly_silent (fun _ => rfl))) (fun _ => ?_)
  refine Repo.uses_bind (Repo.uses_query (cancelActiveConfig_writesOnly u h)) (fun found => ?_)
  cases found with
  | none =>
      exact Repo.uses_bind (Repo.uses_query (writesOnly_silent (fun _ => rfl)))
        (fun _ => Repo.uses_pure _)
  | some config =>
      refine Repo.uses_bind (Repo.uses_query (writesOnly_silent (fun _ => rfl))) (fun items => ?_)
      exact Repo.uses_bind (Repo.uses_query (writesOnly_silent (fun _ => rfl)))
        (fun _ => Repo.uses_pure _)

/-- A call writes only what it may write. -/
theorem DbCall.body_writesOnly (call : DbCall) : call.body.Uses (WritesOnly call.Writes) := by
  cases call with
  | createProvider p actor =>
      refine Repo.uses_bind (Repo.uses_query (writesOnly_silent (fun _ => rfl))) (fun _ => ?_)
      refine Repo.uses_bind (Repo.uses_query (writesOnly_one (fun _ => rfl)
        (fun _ => ⟨rfl, rfl⟩))) (fun row => ?_)
      exact Repo.uses_bind (Repo.uses_query (writesOnly_silent (fun _ => rfl)))
        (fun _ => Repo.uses_pure _)
  | createOrLinkUser nid p im em lid actor =>
      exact createOrLinkUser_writesOnly nid p im em lid actor (fun _ => Or.inr ⟨Or.inl rfl, rfl⟩)
        (fun _ _ => Or.inl rfl) (fun _ => Or.inr ⟨Or.inr rfl, rfl⟩)
  | executeCreditTransfer key amount p u pl ul actor description =>
      exact executeTransfer_writesOnly _ key amount p u pl ul actor description
        (fun _ => ⟨rfl, rfl⟩)
  | executeDebitTransfer key amount p u pl ul actor description =>
      exact executeTransfer_writesOnly _ key amount p u ul pl actor description
        (fun _ => ⟨rfl, rfl⟩)
  | createPriorityConfig key u items expiresAt actor =>
      exact createPriorityConfig_writesOnly key u items expiresAt actor (fun _ _ => Or.inl rfl)
        (fun _ => Or.inr ⟨rfl, rfl⟩)
  | cancelActivePriorityConfig u actor =>
      exact cancelActivePriorityConfig_writesOnly u actor (fun _ => ⟨rfl, rfl⟩)
  | recordSystemAccount code name category lid =>
      refine Repo.uses_bind (Repo.uses_query (writesOnly_silent (fun _ => rfl))) (fun _ => ?_)
      refine Repo.uses_bind (Repo.uses_query (fun t w hw => ?_)) (fun n => ?_)
      · simp only [Sql.rowsWritten] at hw
        split at hw
        · cases hw
        · exact List.mem_singleton.mp hw ▸ ⟨rfl, rfl⟩
      exact Repo.uses_bind (Repo.uses_query (writesOnly_silent (fun _ => rfl)))
        (fun _ => Repo.uses_pure _)
  | getProviderById _ | getUserAccountsProviderInfo _ | getTransactionByIdempotencyKey _ =>
      exact Repo.uses_query (writesOnly_silent (fun _ => rfl))
  | getUserProviderDetails _ _ => exact Repo.uses_query (writesOnly_silent (fun _ => rfl))
  | getPriorityConfigByIdempotencyKey key =>
      exact reads_writesOnly (getPriorityConfigByIdempotencyKey_reads key)
  | getActivePriorityConfig u => exact reads_writesOnly (getActivePriorityConfig_reads u)
  | getAllPriorityConfigs u => exact reads_writesOnly (getAllPriorityConfigs_reads u)

/-- What a method commits is audited; what fails leaves nothing. -/
theorem audits_of_audited {α : Type} {P : RowWrite → Prop} {body : Repo α} {actor : Option Uuid}
    {r : Except RepoError α} {n : Nat}
    (h : Repo.Audited pg (· = ⟨Tx.begin pg now uuid, []⟩) body (fun _ => Watched.Ended pg actor))
    (hwrites : body.Uses (WritesOnly P)) (htx : body.transact pg now uuid = (r, pg', n)) :
    ∃ ws, pg.Audits pg' actor ws ∧ ∀ w ∈ ws, P w := by
  have hwatched := body.exec_watched ⟨Tx.begin pg now uuid, []⟩
  have hbase : pg' = (Prog.run Sql.note body.run ⟨Tx.begin pg now uuid, []⟩).2.tx.base := by
    obtain ⟨t, hexec, rfl, -⟩ := Repo.transact_cases htx
    rw [hexec] at hwatched
    exact congrArg (fun out => out.2.base) hwatched
  have hrun := h ⟨Tx.begin pg now uuid, []⟩ rfl
  rw [hbase]
  cases hr : (Prog.run Sql.note body.run ⟨Tx.begin pg now uuid, []⟩).1 with
  | ok a =>
      rw [hr] at hrun
      exact ⟨_, hrun, rowsWritten_of_uses hwrites⟩
  | error e =>
      rw [hr] at hrun
      have hundone : Watched.Undone pg (Prog.run Sql.note body.run _).2 := hrun
      rw [hundone]
      exact ⟨[], .refl pg actor, fun w hw => by cases hw⟩

/-- A method whose result is not looked at. -/
theorem audits_of_discarded {α : Type} {P : RowWrite → Prop} {body : Repo α}
    {actor : Option Uuid} {r : Except RepoError α} {n : Nat}
    (h : Repo.Audited pg (· = ⟨Tx.begin pg now uuid, []⟩) (body >>= fun _ => pure ())
      (fun _ => Watched.Ended pg actor))
    (hwrites : body.Uses (WritesOnly P)) (htx : body.transact pg now uuid = (r, pg', n)) :
    ∃ ws, pg.Audits pg' actor ws ∧ ∀ w ∈ ws, P w := by
  have hdiscard : (body >>= fun _ => pure () : Repo Unit).transact pg now uuid =
      (r.map (fun _ => ()), pg', n) := by
    obtain ⟨t, hexec, rfl, rfl⟩ := Repo.transact_cases htx
    unfold Repo.transact
    rw [Repo.exec_bind, hexec]
    cases r <;> rfl
  exact audits_of_audited h (Repo.uses_bind hwrites (fun _ => Repo.uses_pure _)) hdiscard

theorem recordSystemAccount_audited (hv : pg.Valid) (code name : String)
    (category : SystemAccountCategory) (lid : Uuid) :
    Repo.Audited pg (· = ⟨Tx.begin pg now uuid, []⟩) (recordSystemAccount code name category lid)
      (fun _ => Watched.Ended pg (some nilUuid)) := by
  refine .bind (setActor_audited hv nilUuid _) (fun _ => ?_)
  refine .bind (query_audited hv [.systemAccounts] trivial (fun t w hw => ?_) (by simp))
    (fun n => ?_)
  · simp only [Sql.rowsWritten] at hw
    split at hw
    · cases hw
    · rw [List.mem_singleton.mp hw]
      exact ⟨List.mem_singleton_self _, fun h => by cases h⟩
  exact .bind commit_audited (fun _ => .pure (fun s hs => hs))

/-- **Every call is audited**, in the name of its actor. -/
theorem DbCall.audits (hv : pg.Valid) {call : DbCall} {r : Except RepoError call.Row} {n : Nat}
    (htx : call.body.transact pg now uuid = (r, pg', n)) :
    ∃ ws, pg.Audits pg' (some call.actor) ws ∧ ∀ w ∈ ws, call.Writes w := by
  have reads : ∀ {α : Type} {x : Repo α} {r : Except RepoError α}, x.Uses Sql.isRead →
      x.transact pg now uuid = (r, pg', n) →
      ∃ ws, pg.Audits pg' (some call.actor) ws ∧ ∀ w ∈ ws, call.Writes w := by
    intro α x r hx h
    rw [Repo.transact_reads hx] at h
    obtain ⟨-, h⟩ := Prod.mk.inj h
    obtain ⟨rfl, -⟩ := Prod.mk.inj h
    exact ⟨[], .refl pg _, fun w hw => by cases hw⟩
  have hwrites := call.body_writesOnly
  cases call with
  | createProvider p actor =>
      exact audits_of_discarded (Mutator.body_audited hv (.createProvider p actor)) hwrites htx
  | createOrLinkUser nid p im em lid actor =>
      exact audits_of_discarded (Mutator.body_audited hv (.createOrLinkUser nid p im em lid actor))
        hwrites htx
  | executeCreditTransfer key amount p u pl ul actor description =>
      exact audits_of_discarded (Mutator.body_audited hv
        (.executeCreditTransfer key amount p u pl ul actor description)) hwrites htx
  | executeDebitTransfer key amount p u pl ul actor description =>
      exact audits_of_discarded (Mutator.body_audited hv
        (.executeDebitTransfer key amount p u pl ul actor description)) hwrites htx
  | createPriorityConfig key u items expiresAt actor =>
      exact audits_of_discarded (Mutator.body_audited hv
        (.createPriorityConfig key u items expiresAt actor)) hwrites htx
  | cancelActivePriorityConfig u actor =>
      exact audits_of_discarded (Mutator.body_audited hv (.cancelActivePriorityConfig u actor))
        hwrites htx
  | recordSystemAccount code name category lid =>
      exact audits_of_audited (recordSystemAccount_audited hv code name category lid) hwrites htx
  | getProviderById id => exact reads (x := Db.getProviderById id) (Repo.uses_query trivial) htx
  | getUserProviderDetails u p =>
      exact reads (x := Db.getUserProviderDetails u p) (Repo.uses_query trivial) htx
  | getUserAccountsProviderInfo u =>
      exact reads (x := Db.getUserAccountsProviderInfo u) (Repo.uses_query trivial) htx
  | getTransactionByIdempotencyKey key =>
      exact reads (x := Db.getTransactionByIdempotencyKey key) (Repo.uses_query trivial) htx
  | getPriorityConfigByIdempotencyKey key =>
      exact reads (getPriorityConfigByIdempotencyKey_reads key) htx
  | getActivePriorityConfig u => exact reads (getActivePriorityConfig_reads u) htx
  | getAllPriorityConfigs u => exact reads (getAllPriorityConfigs_reads u) htx

end

/-! ### In whose name -/

/-- A UUID that a request has drawn. -/
def Drawn (hist : History) (id : Uuid) : Prop :=
  ∃ use, (⟨.newV4 use, id⟩ : Event Eff Eff.Resp) ∈ hist

/-- The entries that a request may make. Providers and users are created under a UUID that
was drawn for the request, everything else in the name of whom the request is about. -/
def Request.Signs : Request → History → AuditLog → Prop
  | .seedSystemAccounts, _, l => l.entityType = "system_accounts" ∧ l.actorId = nilUuid
  | .createProvider _, hist, l => l.entityType = "providers" ∧ Drawn hist l.actorId
  | .createOrLink _, hist, l =>
      l.entityType ∈ ["users", "user_providers", "user_accounts"] ∧ Drawn hist l.actorId
  | .creditUser p _ _, _, l => l.entityType = "transactions" ∧ l.actorId = p
  | .debitUser p u _, _, l => l.entityType = "transactions" ∧ l.actorId = p ∨
      l.entityType = "user_priority_configs" ∧ l.actionType = .update ∧ l.actorId = u
  | .createUserPriority u _ _, _, l =>
      l.entityType ∈ ["user_priority_configs", "user_priority_items"] ∧ l.actorId = u
  | .cancelActiveUserPriority u, _, l =>
      l.entityType = "user_priority_configs" ∧ l.actionType = .update ∧ l.actorId = u
  | _, _, _ => False

theorem Request.Signs.mono {q : Request} {hist hist' : History} {l : AuditLog}
    (h : q.Signs hist l) (hsub : hist ⊆ hist') : q.Signs hist' l := by
  have hdrawn : ∀ {id}, Drawn hist id → Drawn hist' id := fun ⟨use, hmem⟩ => ⟨use, hsub hmem⟩
  cases q with
  | createProvider payload => exact ⟨h.1, hdrawn h.2⟩
  | createOrLink payload => exact ⟨h.1, hdrawn h.2⟩
  | _ => exact h

/-- The actor of a creation was drawn before. -/
def DrawsActor (hist : History) : Eff → Prop
  | .db (.createProvider _ actor) => Drawn hist actor
  | .db (.createOrLinkUser _ _ _ _ _ actor) => Drawn hist actor
  | _ => True

/-- Effects that create nothing under a drawn UUID. -/
def Eff.namesNobody : Eff → Prop
  | .db (.createProvider ..) | .db (.createOrLinkUser ..) => False
  | _ => True

theorem Eff.namesNobody.drawsActor {hist : History} {e : Eff} (h : e.namesNobody) :
    DrawsActor hist e := by
  cases e with
  | db call => cases call <;> first | exact h.elim | trivial
  | _ => trivial

section

variable {env : Env} {hist : History}

theorem nobody_drawsActor {α : Type} {x : Handler α} (hx : Prog.UsesE Eff.namesNobody x) :
    Prog.IssuesE DrawsActor hist x :=
  Prog.Issues.of_uses (fun _ _ he => he.drawsActor) hx

/-- What was drawn stays drawn. -/
theorem drawn_ends {γ α : Type} {id : Uuid} {allowed : Eff → Prop} {x : Handler α}
    (hx : Prog.UsesE allowed x) (h : Drawn hist id) :
    Prog.EndsE (fun hist _ => Drawn hist id) (fun _ (_ : Except HttpError γ) => True) hist x :=
  Prog.EndsE.of_uses (fun _ _ _ _ ⟨use, hmem⟩ => ⟨use, List.mem_append_left _ hmem⟩)
    (fun _ _ _ => trivial) hx h

theorem newV4_drawn {γ : Type} {use : IdUse} :
    Prog.EndsE (fun hist id => Drawn hist id) (fun _ (_ : Except HttpError γ) => True) hist
      (newV4 use) :=
  fun _ => ⟨use, List.mem_append_right _ (List.mem_singleton_self _)⟩

theorem createProvider_drawsActor (payload : CreateProviderRequest) :
    Prog.IssuesE DrawsActor hist (Api.createProvider env payload) := by
  have hdraw : ∀ {use : IdUse}, Prog.UsesE Eff.namesNobody (newV4 use) :=
    ⟨trivial, fun _ => trivial⟩
  have hsubmit : ∀ a, Prog.UsesE Eff.namesNobody (orFail (createAccount a)
      (fun _ => ((.internalServerError, "Failed to provision ledger account") : HttpError))) :=
    fun a => orFail_uses (submit_uses trivial (fun _ => trivial))
  refine (nobody_drawsActor (now_uses trivial)).bind now_ends (fun _ at_ _ => ?_)
  simp only
  split
  · refine (nobody_drawsActor hdraw).bind newV4_drawn (fun _ providerId _ => ?_)
    refine (nobody_drawsActor hdraw).bind newV4_drawn (fun _ lid _ => ?_)
    refine (nobody_drawsActor hdraw).bind newV4_drawn (fun _ actorId hactor => ?_)
    refine (nobody_drawsActor (hsubmit _)).bind (drawn_ends (hsubmit _) hactor) (fun _ _ hactor => ?_)
    refine (nobody_drawsActor hdraw).bind (drawn_ends hdraw hactor) (fun _ passwordId hactor => ?_)
    refine Prog.IssuesE.bind ⟨hactor, fun r => ?_⟩ (Prog.Ends.of_forall (fun _ r => ?_) _)
      (fun _ row (_ : True) => nobody_drawsActor (.bind (setUpKafka_uses (fun _ => trivial) _)
        (fun _ => .pure _)))
    · cases r <;> trivial
    · cases r <;> trivial
  · trivial

theorem createOrLink_drawsActor (payload : CreateUserRequest) :
    Prog.IssuesE DrawsActor hist (createOrLink env payload) := by
  have hdraw : ∀ {use : IdUse}, Prog.UsesE Eff.namesNobody (newV4 use) :=
    ⟨trivial, fun _ => trivial⟩
  refine (nobody_drawsActor (now_uses trivial)).bind now_ends (fun _ requestTime _ => ?_)
  refine (nobody_drawsActor hdraw).bind newV4_drawn (fun _ lid _ => ?_)
  refine (nobody_drawsActor hdraw).bind newV4_drawn (fun _ actorId hactor => ?_)
  refine Prog.IssuesE.bind ⟨hactor, fun r => ?_⟩ (Prog.Ends.of_forall (fun _ r => ?_) _)
    (fun _ linked (_ : True) => nobody_drawsActor ?_)
  · cases r <;> trivial
  · cases r <;> trivial
  · obtain ⟨user, account⟩ := linked
    simp only
    split
    · exact .bind (orFail_uses (submit_uses trivial (fun _ => trivial))) (fun _ => .pure _)
    · exact .pure _

end

/-- Every creation is in the name of a UUID that was drawn for it. -/
theorem serve_drawsActor (env : Env) (q : Request) : (serve env q).Issues DrawsActor [] := by
  cases q with
  | createProvider payload =>
      exact Prog.Issues.bind (createProvider_drawsActor payload) (Prog.Ends.of_forall
        (fun _ _ => trivial) _) (fun _ _ (_ : True) => trivial)
  | createOrLink payload =>
      exact Prog.Issues.bind (createOrLink_drawsActor payload) (Prog.Ends.of_forall
        (fun _ _ => trivial) _) (fun _ _ (_ : True) => trivial)
  | _ =>
      refine Prog.Issues.of_uses (fun _ e he => ?_) (serve_allows env _)
      cases e with
      | db call =>
          cases call with
          | createProvider p actor =>
              obtain ⟨payload, heq⟩ := he
              cases heq
          | createOrLinkUser nid p im em lid actor =>
              obtain ⟨payload, heq, -⟩ := he
              cases heq
          | _ => trivial
      | _ => trivial

/-- What a request writes, it signs. -/
theorem Request.Allows.signs {q : Request} {hist : History} {call : DbCall} {w : RowWrite}
    (hallows : q.Allows (.db call)) (hdraws : DrawsActor hist (.db call)) (hw : call.Writes w) :
    q.Signs hist (w.log call.actor) := by
  obtain ⟨T, id, action⟩ := w
  cases call with
  | createProvider p actor =>
      obtain ⟨payload, rfl⟩ := hallows
      obtain ⟨rfl, -⟩ := hw
      exact ⟨rfl, hdraws⟩
  | createOrLinkUser nid p im em lid actor =>
      obtain ⟨payload, rfl, -⟩ := hallows
      refine ⟨?_, hdraws⟩
      rcases hw with rfl | ⟨rfl | rfl, -⟩ <;> simp [RowWrite.log, AuditedTable.name]
  | executeCreditTransfer key amount p u pl ul actor description =>
      obtain ⟨payload, rfl, -, rfl⟩ := hallows
      obtain ⟨rfl, -⟩ := hw
      exact ⟨rfl, rfl⟩
  | executeDebitTransfer key amount p u pl ul actor description =>
      obtain ⟨payload, rfl, -, rfl⟩ := hallows
      obtain ⟨rfl, -⟩ := hw
      exact Or.inl ⟨rfl, rfl⟩
  | createPriorityConfig key u items expiresAt actor =>
      obtain ⟨header, payload, rfl, -, rfl⟩ := hallows
      refine ⟨?_, rfl⟩
      rcases hw with rfl | ⟨rfl, -⟩ <;> simp [RowWrite.log, AuditedTable.name]
  | cancelActivePriorityConfig u actor =>
      obtain ⟨hchanges, rfl⟩ := hallows
      obtain ⟨rfl, rfl⟩ := hw
      cases q with
      | createUserPriority userId header payload =>
          obtain rfl := hchanges
          exact ⟨by simp [RowWrite.log, AuditedTable.name], rfl⟩
      | cancelActiveUserPriority userId =>
          obtain rfl := hchanges
          exact ⟨rfl, rfl, rfl⟩
      | debitUser p userId payload =>
          obtain rfl := hchanges
          exact Or.inr ⟨rfl, rfl, rfl⟩
      | _ => exact hchanges.elim
  | recordSystemAccount code name category lid =>
      obtain rfl := hallows
      obtain ⟨rfl, -⟩ := hw
      exact ⟨rfl, rfl⟩
  | _ => exact hw.elim

/-! ### Over whole runs -/

/-- The database and its log agree. -/
structure Trailed (pg : Pg) : Prop where
  valid : pg.Valid
  logged : pg.Logged
  cancels : pg.CancelsLogged

theorem Trailed.empty : Trailed .empty where
  valid := .empty
  logged := ⟨fun T => (by cases T <;> rfl), fun T l h => (by cases h), fun l h => (by cases h)⟩
  cancels := fun c h => by cases h

/-- Only links and configurations are updated. -/
theorem DbCall.Writes.updates {call : DbCall} {w : RowWrite} (h : call.Writes w)
    (hupdate : w.action = .update) : w.table = .userProviders ∨ w.table = .userPriorityConfigs := by
  have hnot : ∀ {P : Prop}, w.action = .insert → P := fun hinsert => by
    rw [hinsert] at hupdate
    cases hupdate
  cases call with
  | createProvider _ _ => exact hnot h.2
  | createOrLinkUser _ _ _ _ _ _ => exact h.elim Or.inl (fun hrest => hnot hrest.2)
  | executeCreditTransfer _ _ _ _ _ _ _ _ => exact hnot h.2
  | executeDebitTransfer _ _ _ _ _ _ _ _ => exact hnot h.2
  | createPriorityConfig _ _ _ _ _ => exact h.elim Or.inr (fun hrest => hnot hrest.2)
  | cancelActivePriorityConfig _ _ => exact Or.inr h.1
  | recordSystemAccount _ _ _ _ => exact hnot h.2
  | _ => exact h.elim

/-- Configurations are written by two calls only. -/
theorem DbCall.Writes.configs {call : DbCall} {w : RowWrite} (h : call.Writes w)
    (htable : w.table = .userPriorityConfigs) :
    (∃ u actor, call = .cancelActivePriorityConfig u actor) ∨
      ∃ key u items expiresAt actor, call = .createPriorityConfig key u items expiresAt actor := by
  have hnot : ∀ {P : Prop} {T : AuditedTable}, w.table = T → T ≠ .userPriorityConfigs → P :=
    fun heq hne => absurd (heq.symm.trans htable) hne
  cases call with
  | createProvider _ _ => exact hnot h.1 (by decide)
  | createOrLinkUser _ _ _ _ _ _ =>
      rcases h with hlink | ⟨huser | haccount, -⟩
      · exact hnot hlink (by decide)
      · exact hnot huser (by decide)
      · exact hnot haccount (by decide)
  | executeCreditTransfer _ _ _ _ _ _ _ _ => exact hnot h.1 (by decide)
  | executeDebitTransfer _ _ _ _ _ _ _ _ => exact hnot h.1 (by decide)
  | createPriorityConfig key u items expiresAt actor =>
      exact Or.inr ⟨key, u, items, expiresAt, actor, rfl⟩
  | cancelActivePriorityConfig u actor => exact Or.inl ⟨u, actor, rfl⟩
  | recordSystemAccount _ _ _ _ => exact hnot h.1 (by decide)
  | _ => exact h.elim

section

variable {pg pg' : Pg} {now : Timestamp} {uuid : Nat → Uuid} {q : Request} {hist : History}
  {call : DbCall} {r : Except RepoError call.Row} {n : Nat}

/-- What a request's call does to the configurations is logged. -/
theorem Trailed.transact_cancels (h : Trailed pg) (hallows : q.Allows (.db call))
    (htx : call.body.transact pg now uuid = (r, pg', n)) : pg'.CancelsLogged := by
  have hids : (pg.configs.map (·.id)).Nodup := h.valid.ids_nodup .userPriorityConfigs
  by_cases hcancel : ∃ u actor, call = .cancelActivePriorityConfig u actor
  · obtain ⟨u, actor, rfl⟩ := hcancel
    obtain ⟨-, rfl⟩ := hallows
    obtain ⟨-, hpg⟩ := Prod.mk.inj
      ((cancelActivePriorityConfig_transact actor actor pg now uuid).symm.trans htx)
    rw [← (Prod.mk.inj hpg).1]
    exact h.cancels.cancelActive hids actor now
  by_cases hcreate : ∃ key u items expiresAt actor,
      call = .createPriorityConfig key u items expiresAt actor
  · obtain ⟨key, u, items, expiresAt, actor, rfl⟩ := hcreate
    obtain ⟨header, payload, -, -, rfl⟩ := hallows
    rcases createPriorityConfig_cases with ⟨hadm, hcreate⟩ | ⟨e, m, -, hcreate⟩
    · obtain ⟨-, hpg⟩ := Prod.mk.inj (hcreate.symm.trans htx)
      rw [← (Prod.mk.inj hpg).1]
      exact h.cancels.addPriority h.logged hids hadm
    · obtain ⟨-, hpg⟩ := Prod.mk.inj (hcreate.symm.trans htx)
      rw [← (Prod.mk.inj hpg).1]
      exact h.cancels
  obtain ⟨ws, haudits, hwrites⟩ := DbCall.audits h.valid htx
  refine h.cancels.audits haudits ?_ (fun w hw htable => ?_)
  · rcases priorities_cases htx with hkeep | ⟨u, actor, heq, -⟩ |
      ⟨key, u, items, expiresAt, actor, heq, -⟩
    · exact hkeep.configs
    · exact absurd ⟨u, actor, heq⟩ hcancel
    · exact absurd ⟨key, u, items, expiresAt, actor, heq⟩ hcreate
  · exact ((hwrites w hw).configs htable).elim hcancel hcreate

/-- A call of a request keeps database and log in agreement, and adds entries that the
request signs. -/
theorem Trailed.transact (h : Trailed pg) (hallows : q.Allows (.db call))
    (hdraws : DrawsActor hist (.db call))
    (htx : call.body.transact pg now uuid = (r, pg', n)) :
    Trailed pg' ∧ ∃ new, pg'.auditLogs = pg.auditLogs ++ new ∧ ∀ l ∈ new, q.Signs hist l := by
  obtain ⟨ws, haudits, hwrites⟩ := DbCall.audits h.valid htx
  refine ⟨⟨?_, ?_, h.transact_cancels hallows htx⟩, ws.map (RowWrite.log call.actor),
    haudits.logs, fun l hl => ?_⟩
  · have hvalid := Repo.transact_valid h.valid call.body now uuid
    rw [htx] at hvalid
    exact hvalid
  · exact h.logged.audits haudits (fun w hw hupdate => (hwrites w hw).updates hupdate)
  · obtain ⟨w, hw, rfl⟩ := List.mem_map.mp hl
    exact hallows.signs hdraws (hwrites w hw)

end

section

variable {env : Env} {c c' : State}

/-- A request that has arrived signs the entry. -/
def SignedIn (c : State) (l : AuditLog) : Prop :=
  ∃ t ∈ c.tasks, t.req.Signs t.hist l

theorem SignedIn.step {l : Act} {entry : AuditLog} (h : SignedIn c entry)
    (hs : (machine env).step c l = some c') : SignedIn c' entry := by
  obtain ⟨t, ht, hsigns⟩ := h
  obtain ⟨i, hi⟩ := List.getElem?_of_mem ht
  have hrun : (machine env).Reach (fun _ _ => True) c c' := .tail .refl trivial hs
  obtain ⟨t', ht', hreq, hprefix⟩ := hrun.hist_prefix hi
  exact ⟨t', List.mem_of_getElem? ht', hreq ▸ hsigns.mono (List.IsPrefix.subset hprefix)⟩

/-- One step of the service. -/
theorem Reachable.step_trailed {l : Act} (hc : Reachable env c) (h : Trailed c.world.pg)
    (hs : (machine env).step c l = some c') :
    Trailed c'.world.pg ∧ ∃ new, c'.world.pg.auditLogs = c.world.pg.auditLogs ++ new ∧
      ∀ entry ∈ new, SignedIn c entry := by
  have hsame : ∀ {pg : Pg}, pg = c.world.pg → Trailed pg ∧ ∃ new,
      pg.auditLogs = c.world.pg.auditLogs ++ new ∧ ∀ entry ∈ new, SignedIn c entry := by
    rintro _ rfl
    exact ⟨h, [], (List.append_nil _).symm, fun _ hmem => by cases hmem⟩
  rcases (machine env).step_cases hs with ⟨q, rfl, rfl⟩ |
    ⟨i, ch, q, hist, e, k, r, w, rfl, ht, hx, rfl⟩ | ⟨i, q, hist, e, k, rfl, -, rfl⟩ |
    ⟨v, w, rfl, hx, rfl⟩
  · exact hsame rfl
  · rcases exec_pg hx with heq | ⟨call, rfl, r', happly⟩
    · exact hsame heq
    · obtain ⟨pg, n, htx, -, rfl⟩ := World.dbApply_cases happly
      have ⟨now, hrun⟩ := hc
      have hdraws : DrawsActor hist (.db call) := hrun.issues (serve_drawsActor env) rfl ht
      obtain ⟨htrailed, new, hnew, hsigns⟩ := h.transact (hc.allows ht) hdraws htx
      exact ⟨htrailed, new, hnew, fun entry hentry =>
        ⟨_, List.mem_of_getElem? ht, hsigns entry hentry⟩⟩
  · exact hsame rfl
  · exact hsame (move_pg hx)

theorem Reachable.trailed (hc : Reachable env c) :
    Trailed c.world.pg ∧ ∀ entry ∈ c.world.pg.auditLogs, SignedIn c entry := by
  obtain ⟨now, hreach⟩ := hc
  refine (hreach.invariant (P := fun c => Reachable env c ∧ Trailed c.world.pg ∧
    ∀ entry ∈ c.world.pg.auditLogs, SignedIn c entry)
    ⟨boot_reachable env now, .empty, fun _ h => by cases h⟩ ?_).2
  intro c l c' ⟨hc, htrailed, hall⟩ _ hs
  obtain ⟨htrailed', new, hnew, hsigned⟩ := hc.step_trailed htrailed hs
  refine ⟨(hc.step hs).1, htrailed', fun entry hentry => ?_⟩
  rw [hnew] at hentry
  rcases List.mem_append.mp hentry with hold | hentry
  · exact (hall entry hold).step hs
  · exact (hsigned entry hentry).step hs

/-- The log only grows. -/
theorem Reachable.auditLogs_prefix (hc : Reachable env c)
    (h : (machine env).Reach (fun _ _ => True) c c') :
    c.world.pg.auditLogs <+: c'.world.pg.auditLogs := by
  refine (h.invariant (P := fun c₁ => Reachable env c₁ ∧
    c.world.pg.auditLogs <+: c₁.world.pg.auditLogs) ⟨hc, List.prefix_refl _⟩ ?_).2
  intro c₁ l c₂ ⟨hc₁, hprefix⟩ _ hs
  obtain ⟨-, new, hnew, -⟩ := hc₁.step_trailed hc₁.trailed.1 hs
  exact ⟨(hc₁.step hs).1, hprefix.trans ⟨new, hnew.symm⟩⟩

end

/-- **The audit log tells the whole story.** In every reachable state, its insertions are the
rows of the tables in their order, nothing else is in it but updates of links and
configurations that are there, a configuration is cancelled exactly if its user is logged to
have cancelled it, then once, and every entry was made by a request that has arrived, in the
name it acts in; and no entry is ever changed or removed. -/
theorem audit_trail {env : Env} {c : State} (hc : Reachable env c) :
    (∀ T, (c.world.pg.logged T .insert).map (·.entityId) = c.world.pg.ids T) ∧
    (∀ l ∈ c.world.pg.auditLogs, ∃ T, l.entityId ∈ c.world.pg.ids T ∧
      (l ∈ c.world.pg.logged T .insert ∨
        l ∈ c.world.pg.logged T .update ∧ (T = .userProviders ∨ T = .userPriorityConfigs))) ∧
    (∀ config ∈ c.world.pg.configs, c.world.pg.cancelledBy config.id =
      if config.status = .cancelled then [config.userId] else []) ∧
    (∀ l ∈ c.world.pg.auditLogs, ∃ t ∈ c.tasks, t.req.Signs t.hist l) ∧
    ∀ c', (machine env).Reach (fun _ _ => True) c c' →
      c.world.pg.auditLogs <+: c'.world.pg.auditLogs := by
  obtain ⟨htrailed, hsigned⟩ := hc.trailed
  refine ⟨htrailed.logged.inserted, fun l hl => ?_, htrailed.cancels, hsigned,
    fun c' => hc.auditLogs_prefix⟩
  obtain ⟨T, hinsert | hupdate⟩ := htrailed.logged.only l hl
  · refine ⟨T, ?_, Or.inl hinsert⟩
    rw [← htrailed.logged.inserted T]
    exact List.mem_map_of_mem hinsert
  · obtain ⟨hmem, htable⟩ := htrailed.logged.updated T l hupdate
    exact ⟨T, hmem, Or.inr ⟨hupdate, htable⟩⟩

/-- The priority of the example is cancelled. -/
def cancelledAgain : State := request defaultEnv onePriority (.cancelActiveUserPriority ⟨1008⟩)

theorem audit_trail_cancelledAgain :
    cancelledAgain.world.pg.auditLogs.map (fun l => (l.entityType, l.actionType)) =
      [("providers", .insert), ("users", .insert), ("user_providers", .insert),
        ("user_accounts", .insert), ("transactions", .insert), ("user_priority_configs", .insert),
        ("user_priority_items", .insert), ("user_priority_configs", .update)] ∧
    ∀ config ∈ cancelledAgain.world.pg.configs,
      cancelledAgain.world.pg.cancelledBy config.id =
        if config.status = .cancelled then [config.userId] else [] :=
  ⟨by decide +kernel, (audit_trail (request_reachable onePriority_reachable _)).2.2.1⟩

end Wurzburg.System
