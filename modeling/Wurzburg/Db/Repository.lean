import Wurzburg.Lib.Prog
import Wurzburg.Db.Sql

/-!
# Wurzburg.Db.Repository

The repository methods (`db/postgres/*.rs` and the SQL part of `bootstrap.rs`),
as programs over SQL statements.

A method stops at its first error, and its transaction is rolled back unless it
reached `commit`; `Repo.transact` runs a method as one step of the system and
keeps what was committed.
-/

namespace Wurzburg.Db

open Wurzburg.Lib

/-- An `anyhow::Error`: the driver's error and the contexts put around it,
outermost first. -/
structure RepoError where
  contexts : List String
  source : SqlError
  deriving DecidableEq, Repr

/-- `to_string()` shows the outermost context only. -/
def RepoError.toString (e : RepoError) : String := e.contexts.headD e.source.display

/-- The body of a repository method. -/
abbrev Repo (α : Type) := ExceptT RepoError (Prog Sql Sql.Resp) α

/-- Issue a statement, with `?`, under the given contexts. -/
def query (s : Sql) (contexts : List String) : Repo s.Row :=
  ExceptT.mk ((Prog.perform s).bind (fun r => .ret (r.mapError (RepoError.mk contexts))))

namespace Repo

variable {α β : Type}

/-- Run a method to its end within a transaction. -/
def exec (body : Repo α) (t : Tx) : Except RepoError α × Tx := Prog.run Sql.exec body.run t

/-- Run a method as one step: its result, the database afterwards, and how many
UUIDs it generated. -/
def transact (body : Repo α) (pg : Pg) (now : Timestamp) (uuid : Nat → Uuid) :
    Except RepoError α × Pg × Nat :=
  let out := body.exec (Tx.begin pg now uuid)
  (out.1, out.2.base, out.2.drawn)

theorem transact_cases {body : Repo α} {pg pg' : Pg} {now : Timestamp} {uuid : Nat → Uuid}
    {r : Except RepoError α} {n : Nat} (h : body.transact pg now uuid = (r, pg', n)) :
    ∃ t, body.exec (Tx.begin pg now uuid) = (r, t) ∧ pg' = t.base ∧ n = t.drawn := by
  obtain ⟨hr, h⟩ := Prod.mk.inj h
  obtain ⟨hpg, hn⟩ := Prod.mk.inj h
  exact ⟨_, Prod.ext hr rfl, hpg.symm, hn.symm⟩

@[simp] theorem exec_pure (a : α) (t : Tx) : exec (pure a : Repo α) t = (.ok a, t) := rfl

theorem exec_bind (x : Repo α) (f : α → Repo β) (t : Tx) :
    exec (x >>= f) t =
      match exec x t with
      | (.ok a, t') => exec (f a) t'
      | (.error e, t') => (.error e, t') := by
  have hrun : (x >>= f).run = Prog.bind x.run (ExceptT.bindCont f) := rfl
  unfold exec
  rw [hrun, Prog.run_bind]
  cases hx : Prog.run Sql.exec x.run t with
  | mk r t' => cases r <;> rfl

@[simp] theorem exec_query (s : Sql) (contexts : List String) (t : Tx) :
    exec (α := no_index s.Row) (query s contexts) t =
      ((Sql.exec s t).1.mapError (RepoError.mk contexts), (Sql.exec s t).2) := rfl

/-- A statement that succeeds, whatever it is reported under. -/
theorem exec_query_ok {s : Sql} {contexts : List String} {t t' : Tx} {a : s.Row}
    (h : Sql.exec s t = (.ok a, t')) : exec (query s contexts) t = (.ok a, t') := by
  rw [exec_query, h]
  rfl

theorem exec_bind_ok {x : Repo α} {f : α → Repo β} {t t' : Tx} {a : α}
    (h : exec x t = (.ok a, t')) : exec (x >>= f) t = exec (f a) t' := by
  rw [exec_bind, h]

theorem exec_bind_error {x : Repo α} {f : α → Repo β} {t t' : Tx} {e : RepoError}
    (h : exec x t = (.error e, t')) : exec (x >>= f) t = (.error e, t') := by
  rw [exec_bind, h]

/-- A sequence fails in its first part, or goes on from where that ended. -/
theorem exec_bind_cases {x : Repo α} {f : α → Repo β} {t t'' : Tx} {r : Except RepoError β}
    (h : exec (x >>= f) t = (r, t'')) :
    (∃ e, exec x t = (.error e, t'') ∧ r = .error e) ∨
    (∃ a t', exec x t = (.ok a, t') ∧ exec (f a) t' = (r, t'')) := by
  rw [exec_bind] at h
  split at h
  · next a t' hx => exact Or.inr ⟨a, t', hx, h⟩
  · next e t' hx =>
      obtain ⟨rfl, rfl⟩ := Prod.mk.inj h
      exact Or.inl ⟨e, hx, rfl⟩

/-- A statement fails or returns its row. -/
theorem exec_query_cases {s : Sql} {contexts : List String} {t t' : Tx}
    {r : Except RepoError s.Row} (h : exec (query s contexts) t = (r, t')) :
    (∃ e, Sql.exec s t = (.error e, t') ∧ r = .error ⟨contexts, e⟩) ∨
    (∃ a, Sql.exec s t = (.ok a, t') ∧ r = .ok a) := by
  rw [exec_query] at h
  cases hx : Sql.exec s t with
  | mk r₁ t₁ =>
      rw [hx] at h
      obtain ⟨rfl, rfl⟩ := Prod.mk.inj h
      cases r₁ with
      | ok a => exact Or.inr ⟨a, rfl, rfl⟩
      | error e => exact Or.inl ⟨e, rfl, rfl⟩

/-- Only the result of a method is thrown away. -/
theorem transact_discard (x : Repo α) (pg : Pg) (now : Timestamp) (uuid : Nat → Uuid) :
    ((do let _ ← x; return () : Repo Unit).transact pg now uuid).2 = (x.transact pg now uuid).2 := by
  unfold transact
  rw [exec_bind]
  cases exec x (Tx.begin pg now uuid) with
  | mk r t => cases r <;> rfl

/-- And so it succeeds when the method does. -/
theorem transact_discard_ok {x : Repo α} {pg : Pg} {now : Timestamp} {uuid : Nat → Uuid} {a : α}
    {out : Pg × Nat} (h : x.transact pg now uuid = (.ok a, out)) :
    (do let _ ← x; return () : Repo Unit).transact pg now uuid = (.ok (), out) := by
  refine Prod.ext ?_ ((transact_discard x pg now uuid).trans (congrArg Prod.snd h))
  have hok := congrArg Prod.fst h
  unfold transact at hok ⊢
  rw [exec_bind]
  cases hx : exec x (Tx.begin pg now uuid) with
  | mk r t =>
      rw [hx] at hok
      obtain rfl : r = .ok a := hok
      rfl

end Repo

/-! ### Providers -/

/-- `get_provider_by_id` -/
def getProviderById (id : Uuid) : Repo (Option Provider) := query (.selectProviderById id) []

/-- `create_provider` -/
def createProvider (provider : Provider) (actorId : Uuid) : Repo Provider := do
  query (.setActor actorId) []
  let insertedProvider ← query (.insertProvider provider) []
  query .commit []
  return insertedProvider

/-! ### Users -/

/-- Find the user by NID, or create one. -/
def findOrCreateUser (nid : String) (internalMetadata : Json) : Repo User := do
  match ← query (.selectUserByNid nid) [] with
  | some existingUser => return existingUser
  | none =>
      let newUserId ← query .newV4 []
      query (.insertUser newUserId nid internalMetadata) []

/-- Find the account of the user at the provider, or create one. -/
def findOrCreateAccount (userId providerId ledgerAccountId : Uuid) : Repo UserAccount := do
  match ← query (.selectUserAccount userId providerId) [] with
  | some existingAccount => return existingAccount
  | none =>
      let newAccountId ← query .newV4 []
      query (.insertUserAccount newAccountId userId providerId ledgerAccountId) []

/-- `create_or_link_user` -/
def createOrLinkUser (nid : String) (providerId : Uuid) (internalMetadata externalMetadata : Json)
    (ledgerAccountId actorId : Uuid) : Repo (User × UserAccount) := do
  query (.setActor actorId) []
  let user ← findOrCreateUser nid internalMetadata
  query (.upsertUserProvider user.id providerId externalMetadata) []
  let account ← findOrCreateAccount user.id providerId ledgerAccountId
  query .commit []
  return (user, account)

/-- `get_user_provider_details` -/
def getUserProviderDetails (userId providerId : Uuid) : Repo (Option UserProviderDetails) :=
  query (.selectUserProviderDetails userId providerId) []

/-- `get_user_providers` -/
def getUserProviders (userId : Uuid) : Repo (List Provider) := query (.selectUserProviders userId) []

/-- `get_user_accounts_provider_info` -/
def getUserAccountsProviderInfo (userId : Uuid) : Repo (List UserAccountProviderInfo) :=
  query (.selectUserAccountsProviderInfo userId) []

/-! ### Transactions -/

/-- `get_transaction_by_idempotency_key` -/
def getTransactionByIdempotencyKey (key : String) : Repo (Option Transaction) :=
  query (.selectTransactionByKey key) []

/-- The common body of the two transfer methods. -/
def executeTransfer (transactionType : TransactionType) (idempotencyKey : String) (amount : Int)
    (providerId userId drAccountId crAccountId actorId : Uuid) (description : Option String) :
    Repo Transaction := do
  query (.setActor actorId) []
  let transactionId ← query .newV4 []
  let transaction ← query
    (.insertTransaction
      { id := transactionId
        idempotencyKey := idempotencyKey
        transactionType := transactionType
        amount := amount
        drAccountId := drAccountId
        crAccountId := crAccountId
        providerId := providerId
        userId := userId
        description := description }) []
  query .commit []
  return transaction

/-- `execute_credit_transfer`: the provider is debited. -/
def executeCreditTransfer (idempotencyKey : String) (amount : Int)
    (providerId userId providerLedgerId userLedgerId actorId : Uuid)
    (description : Option String) : Repo Transaction :=
  executeTransfer .credit idempotencyKey amount providerId userId providerLedgerId userLedgerId
    actorId description

/-- `execute_debit_transfer`: the user is debited. -/
def executeDebitTransfer (idempotencyKey : String) (amount : Int)
    (providerId userId providerLedgerId userLedgerId actorId : Uuid)
    (description : Option String) : Repo Transaction :=
  executeTransfer .debit idempotencyKey amount providerId userId userLedgerId providerLedgerId
    actorId description

/-! ### Priorities -/

/-- A configuration with its items, when there is one. -/
def withItems (config : Option UserPriorityConfig) : Repo (Option UserPriorityDetails) := do
  match config with
  | some config =>
      let items ← query (.selectItems config.id) []
      return some ⟨config, items⟩
  | none => return none

/-- `get_priority_config_by_idempotency_key` -/
def getPriorityConfigByIdempotencyKey (key : String) : Repo (Option UserPriorityDetails) := do
  let config ← query (.selectConfigByKey key) []
  withItems config

/-- `get_active_priority_config` -/
def getActivePriorityConfig (userId : Uuid) : Repo (Option UserPriorityDetails) := do
  let config ← query (.selectActiveConfig userId) []
  withItems config

/-- The items loop of `create_priority_config`, from index `index` on. -/
def insertItems (configId : Uuid) : Nat → List PriorityItemData → Repo Unit
  | _, [] => return ()
  | index, item :: items => do
      query
        (.insertItem
          { configId := configId
            providerId := item.providerId
            ledgerAccountId := item.userLedgerAccountId
            priorityOrder := asI32 (index + 1)
            usageType := item.usageType
            maxAmount := item.maxAmount })
        ["Failed to create priority item for provider " ++ item.providerId.toString]
      insertItems configId (index + 1) items

/-- `create_priority_config` -/
def createPriorityConfig (idempotencyKey : String) (userId : Uuid) (items : List PriorityItemData)
    (expiresAt : Option Timestamp) (actorId : Uuid) : Repo UserPriorityDetails := do
  query (.setActor actorId) ["Failed to set actor_id for audit log"]
  let _ ← query (.cancelActiveConfig userId) ["Failed to cancel existing active priority config"]
  let newConfig ← query (.insertConfig userId idempotencyKey expiresAt)
    ["Failed to create new priority config"]
  insertItems newConfig.id 0 items
  let createdItems ← query (.selectItems newConfig.id)
    ["Failed to fetch created priority items with ledger IDs"]
  query .commit ["Failed to commit transaction"]
  return ⟨newConfig, createdItems⟩

/-- `cancel_active_priority_config` -/
def cancelActivePriorityConfig (userId actorId : Uuid) : Repo (Option UserPriorityDetails) := do
  query (.setActor actorId) []
  match ← query (.cancelActiveConfig userId) [] with
  | some config =>
      let items ← query (.selectItems config.id) []
      query .commit []
      return some ⟨config, items⟩
  | none =>
      query .rollback []
      return none

/-- `soft_delete_priority_config` -/
def softDeletePriorityConfig (configId : Uuid) : Repo Unit := do
  query (.softDeleteItems configId) []
  query (.softDeleteConfig configId) []
  query .commit []

/-- The items of each configuration in turn. -/
def detailsOf : List UserPriorityConfig → Repo (List UserPriorityDetails)
  | [] => return []
  | config :: configs => do
      let items ← query (.selectItems config.id) []
      let rest ← detailsOf configs
      return ⟨config, items⟩ :: rest

/-- `get_all_priority_configs` -/
def getAllPriorityConfigs (userId : Uuid) : Repo (List UserPriorityDetails) := do
  let configs ← query (.selectConfigs userId) []
  detailsOf configs

/-! ### Bootstrapping -/

/-- The all-zero UUID. -/
def nilUuid : Uuid := ⟨0⟩

/-- The SQL transaction that records one system account. -/
def recordSystemAccount (code name : String) (category : SystemAccountCategory)
    (ledgerAccountId : Uuid) : Repo Nat := do
  query (.setActor nilUuid) ["Failed to set system user id for audit trigger"]
  let rowsAffected ← query (.insertSystemAccount code name category ledgerAccountId)
    ["Failed to insert system account " ++ code ++ " into Postgres"]
  query .commit ["Failed to commit transaction"]
  return rowsAffected

end Wurzburg.Db
