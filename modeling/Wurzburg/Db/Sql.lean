import Wurzburg.Db.Models
import Mathlib.Data.List.Sort

/-!
# Wurzburg.Db.Sql

The SQL statements of the repository and what they do to the database.

A transaction works on `Tx`: the committed database, its own view, the actor
set for the audit trigger, and the transaction's clock and supply of generated
UUIDs. `Sql.exec` runs one statement. A statement that writes makes the checks
of the migration in order (lengths and texts, `CHECK`, unique indexes, foreign
keys) and then fires the audit trigger, which refuses a write without an actor.
-/

namespace Wurzburg.Db

/-! ### Errors -/

/-- What a statement can be refused for. -/
inductive SqlError where
  | uniqueViolation (constraint : String)
  | foreignKeyViolation (constraint : String)
  | checkViolation (constraint : String)
  | valueTooLong
  | invalidText
  | timestampOutOfRange
  | raised (message : String)
  | connection (message : String)
  deriving DecidableEq, Repr

/-- `Display` of the error as the driver renders it. -/
def SqlError.display : SqlError → String
  | .uniqueViolation c =>
      "error returned from database: duplicate key value violates unique constraint \"" ++ c ++ "\""
  | .foreignKeyViolation c =>
      "error returned from database: insert or update violates foreign key constraint \"" ++ c ++ "\""
  | .checkViolation c =>
      "error returned from database: new row violates check constraint \"" ++ c ++ "\""
  | .valueTooLong => "error returned from database: value too long for type character varying"
  | .invalidText => "error returned from database: invalid byte sequence for encoding \"UTF8\": 0x00"
  | .timestampOutOfRange => "error returned from database: timestamp out of range"
  | .raised m => "error returned from database: " ++ m
  | .connection m => m

/-- The exception of `fn_audit_trigger`. -/
def auditMessage : String :=
  "Audit Log Error: app.current_user_id must be set in the current transaction."

/-! ### Tables -/

/-- The database. -/
structure Pg where
  providers : List Provider
  users : List User
  userProviders : List UserProvider
  userAccounts : List UserAccount
  configs : List UserPriorityConfig
  items : List PriorityItemRow
  transactions : List Transaction
  systemAccounts : List SystemAccount
  auditLogs : List AuditLog
  deriving DecidableEq

namespace Pg

/-- The database right after the migration. -/
def empty : Pg := ⟨[], [], [], [], [], [], [], [], []⟩

/-- The rows `fn_audit_trigger` adds. -/
def log (pg : Pg) (rows : List AuditLog) : Pg := { pg with auditLogs := pg.auditLogs ++ rows }

@[simp] theorem log_providers (pg : Pg) (rows) : (pg.log rows).providers = pg.providers := rfl

@[simp] theorem log_users (pg : Pg) (rows) : (pg.log rows).users = pg.users := rfl

@[simp] theorem log_userProviders (pg : Pg) (rows) :
    (pg.log rows).userProviders = pg.userProviders := rfl

@[simp] theorem log_userAccounts (pg : Pg) (rows) :
    (pg.log rows).userAccounts = pg.userAccounts := rfl

@[simp] theorem log_configs (pg : Pg) (rows) : (pg.log rows).configs = pg.configs := rfl

@[simp] theorem log_items (pg : Pg) (rows) : (pg.log rows).items = pg.items := rfl

@[simp] theorem log_transactions (pg : Pg) (rows) :
    (pg.log rows).transactions = pg.transactions := rfl

@[simp] theorem log_systemAccounts (pg : Pg) (rows) :
    (pg.log rows).systemAccounts = pg.systemAccounts := rfl

end Pg

/-! ### Transactions -/

/-- The state of a transaction. -/
structure Tx where
  /-- What is committed. -/
  base : Pg
  /-- What the transaction sees. -/
  pg : Pg
  /-- `app.current_user_id` -/
  actor : Option Uuid
  /-- `NOW()`: the start of the transaction. -/
  now : Timestamp
  /-- The UUIDs generated during the transaction, and how many were taken. -/
  uuid : Nat → Uuid
  drawn : Nat

namespace Tx

/-- A transaction that has just begun. -/
def begin (pg : Pg) (now : Timestamp) (uuid : Nat → Uuid) : Tx := ⟨pg, pg, none, now, uuid, 0⟩

/-- The next generated UUID. -/
def fresh (t : Tx) : Uuid := t.uuid t.drawn

def draw (t : Tx) : Tx := { t with drawn := t.drawn + 1 }

/-- `set_config('app.current_user_id', …, true)` -/
def asActor (t : Tx) (actor : Uuid) : Tx := { t with actor := some actor }

def commit (t : Tx) : Tx := { t with base := t.pg }

def rollback (t : Tx) : Tx := { t with pg := t.base }

/-- A statement that only reads. -/
def read {α : Type} (t : Tx) (f : Pg → α) : Except SqlError α × Tx := (.ok (f t.pg), t)

/-- A statement that writes audited rows: the checks, the write, the trigger. -/
def write {α : Type} (t : Tx) (checks : List (Bool × SqlError)) (row : α) (upd : Pg → Pg)
    (logs : Uuid → List AuditLog) : Except SqlError α × Tx :=
  match firstFailure checks with
  | some e => (.error e, t)
  | none =>
      match t.actor with
      | none => (.error (.raised auditMessage), t)
      | some actor => (.ok row, { t with pg := (upd t.pg).log (logs actor) })

/-- An `UPDATE` of the rows with the given ids; the trigger fires per row. -/
def update {α : Type} (t : Tx) (table : String) (touched : List Uuid) (row : α) (upd : Pg → Pg) :
    Except SqlError α × Tx :=
  if touched.isEmpty then (.ok row, t)
  else t.write [] row upd (fun actor => touched.map (fun id => ⟨table, id, actor, .update⟩))

/-- What a write can do: fail and change nothing, or pass every check. -/
theorem write_cases {α : Type} {t t' : Tx} {checks : List (Bool × SqlError)} {row : α}
    {upd : Pg → Pg} {logs : Uuid → List AuditLog} {r : Except SqlError α}
    (h : t.write checks row upd logs = (r, t')) :
    (∃ e, r = .error e ∧ t' = t) ∨
    (∃ actor, r = .ok row ∧ t.actor = some actor ∧ (∀ c ∈ checks, c.1 = false) ∧
      t' = { t with pg := (upd t.pg).log (logs actor) }) := by
  unfold write at h
  split at h
  · next e _ =>
      obtain ⟨rfl, rfl⟩ := Prod.mk.inj h
      exact Or.inl ⟨e, rfl, rfl⟩
  · next hnone =>
      split at h
      · obtain ⟨rfl, rfl⟩ := Prod.mk.inj h
        exact Or.inl ⟨_, rfl, rfl⟩
      · next actor ha =>
          obtain ⟨rfl, rfl⟩ := Prod.mk.inj h
          exact Or.inr ⟨actor, rfl, ha, firstFailure_eq_none.mp hnone, rfl⟩

/-- A write whose checks pass, under an actor. -/
theorem write_ok {α : Type} {t : Tx} {checks : List (Bool × SqlError)} {row : α}
    {upd : Pg → Pg} {logs : Uuid → List AuditLog} {actor : Uuid} (ha : t.actor = some actor)
    (hc : ∀ c ∈ checks, c.1 = false) :
    t.write checks row upd logs = (.ok row, { t with pg := (upd t.pg).log (logs actor) }) := by
  simp only [write, firstFailure_eq_none.mpr hc, ha]

/-- A write one of whose checks fails. -/
theorem write_error {α : Type} {t : Tx} {checks : List (Bool × SqlError)} {row : α}
    {upd : Pg → Pg} {logs : Uuid → List AuditLog} {c : Bool × SqlError} (hc : c ∈ checks)
    (hf : c.1 = true) : ∃ e, t.write checks row upd logs = (.error e, t) := by
  cases h : firstFailure checks with
  | some e => exact ⟨e, by simp only [write, h]⟩
  | none =>
      have := firstFailure_eq_none.mp h c hc
      simp [hf] at this

end Tx

/-! ### Statements -/

/-- The values of an `INSERT INTO transactions`. -/
structure NewTransaction where
  id : Uuid
  idempotencyKey : String
  transactionType : TransactionType
  amount : Int
  drAccountId : Uuid
  crAccountId : Uuid
  providerId : Uuid
  userId : Uuid
  description : Option String
  deriving DecidableEq, Repr

/-- The values of an `INSERT INTO user_priority_items`. -/
structure NewPriorityItem where
  configId : Uuid
  providerId : Uuid
  ledgerAccountId : Uuid
  priorityOrder : Int
  usageType : PriorityUsageType
  maxAmount : Int
  deriving DecidableEq, Repr

/-- What a repository method does with its connection, step by step. -/
inductive Sql where
  /-- `Uuid::new_v4()` inside a repository method. -/
  | newV4
  /-- `SELECT set_config('app.current_user_id', $1, true)` -/
  | setActor (actor : Uuid)
  | commit
  | rollback
  | selectProviderById (id : Uuid)
  | insertProvider (provider : Provider)
  | selectUserByNid (nid : String)
  | insertUser (id : Uuid) (nid : String) (internalMetadata : Json)
  | upsertUserProvider (userId providerId : Uuid) (externalMetadata : Json)
  | selectUserAccount (userId providerId : Uuid)
  | insertUserAccount (id userId providerId ledgerAccountId : Uuid)
  | selectUserProviderDetails (userId providerId : Uuid)
  | selectUserProviders (userId : Uuid)
  | selectUserAccountsProviderInfo (userId : Uuid)
  | selectTransactionByKey (key : String)
  | insertTransaction (new : NewTransaction)
  | selectConfigByKey (key : String)
  | selectActiveConfig (userId : Uuid)
  | selectConfigs (userId : Uuid)
  | cancelActiveConfig (userId : Uuid)
  | insertConfig (userId : Uuid) (key : String) (expiresAt : Option Timestamp)
  | insertItem (new : NewPriorityItem)
  | selectItems (configId : Uuid)
  | softDeleteItems (configId : Uuid)
  | softDeleteConfig (configId : Uuid)
  | insertSystemAccount (code name : String) (category : SystemAccountCategory)
      (ledgerAccountId : Uuid)
  deriving DecidableEq, Repr

/-- What each step returns when it succeeds. -/
@[reducible] def Sql.Row : Sql → Type
  | .newV4 => Uuid
  | .setActor _ => Unit
  | .commit => Unit
  | .rollback => Unit
  | .selectProviderById _ => Option Provider
  | .insertProvider _ => Provider
  | .selectUserByNid _ => Option User
  | .insertUser .. => User
  | .upsertUserProvider .. => Unit
  | .selectUserAccount .. => Option UserAccount
  | .insertUserAccount .. => UserAccount
  | .selectUserProviderDetails .. => Option UserProviderDetails
  | .selectUserProviders _ => List Provider
  | .selectUserAccountsProviderInfo _ => List UserAccountProviderInfo
  | .selectTransactionByKey _ => Option Transaction
  | .insertTransaction _ => Transaction
  | .selectConfigByKey _ => Option UserPriorityConfig
  | .selectActiveConfig _ => Option UserPriorityConfig
  | .selectConfigs _ => List UserPriorityConfig
  | .cancelActiveConfig _ => Option UserPriorityConfig
  | .insertConfig .. => UserPriorityConfig
  | .insertItem _ => Unit
  | .selectItems _ => List UserPriorityItem
  | .softDeleteItems _ => Unit
  | .softDeleteConfig _ => Unit
  | .insertSystemAccount .. => Nat

/-- What each step returns. -/
abbrev Sql.Resp (s : Sql) : Type := Except SqlError s.Row

/-! ### Reads -/

namespace Pg

def provider? (pg : Pg) (id : Uuid) : Option Provider := pg.providers.find? (fun p => p.id = id)

def userByNid? (pg : Pg) (nid : String) : Option User := pg.users.find? (fun u => u.nid = nid)

def userAccount? (pg : Pg) (userId providerId : Uuid) : Option UserAccount :=
  pg.userAccounts.find? (fun a => a.userId = userId ∧ a.providerId = providerId)

def transactionByKey? (pg : Pg) (key : String) : Option Transaction :=
  pg.transactions.find? (fun t => t.idempotencyKey = key)

/-- The join of `get_user_provider_details`. -/
def userProviderDetails (pg : Pg) (userId providerId : Uuid) : List UserProviderDetails :=
  (pg.users.filter (fun u => u.id = userId)).flatMap fun u =>
    (pg.userProviders.filter (fun up => u.id = up.userId ∧ up.providerId = providerId)).flatMap
      fun up =>
        (pg.userAccounts.filter (fun ua => u.id = ua.userId ∧ ua.providerId = providerId)).flatMap
          fun ua =>
            (pg.providers.filter (fun p => p.id = up.providerId)).map fun p =>
              { userId := u.id
                nid := u.nid
                internalMetadata := u.internalMetadata
                externalMetadata := up.externalMetadata
                userLedgerAccountId := ua.ledgerAccountId
                providerLedgerAccountId := p.ledgerAccountId
                status := ua.status
                createdAt := u.createdAt
                updatedAt := u.updatedAt }

/-- The join of `get_user_providers`. -/
def userProvidersOf (pg : Pg) (userId : Uuid) : List Provider :=
  pg.providers.flatMap fun p =>
    (pg.userProviders.filter (fun up => p.id = up.providerId ∧ up.userId = userId)).map fun _ => p

/-- The join of `get_user_accounts_provider_info`. -/
def userAccountsProviderInfo (pg : Pg) (userId : Uuid) : List UserAccountProviderInfo :=
  (pg.userAccounts.filter (fun ua => ua.userId = userId)).flatMap fun ua =>
    (pg.providers.filter (fun p => ua.providerId = p.id)).map fun p =>
      { providerId := p.id, providerName := p.tradeName, ledgerAccountId := ua.ledgerAccountId }

def configByKey? (pg : Pg) (key : String) : Option UserPriorityConfig :=
  pg.configs.find? (fun c => c.idempotencyKey = key ∧ c.isDeleted = false)

/-- The configuration is the one in force. -/
def isCurrent (userId : Uuid) (c : UserPriorityConfig) : Bool :=
  c.userId = userId ∧ c.status = .active ∧ c.isDeleted = false

def activeConfig? (pg : Pg) (userId : Uuid) : Option UserPriorityConfig :=
  pg.configs.find? (isCurrent userId)

/-- `SELECT * FROM user_priority_configs … ORDER BY created_at DESC` -/
def configsOf (pg : Pg) (userId : Uuid) : List UserPriorityConfig :=
  (pg.configs.filter (fun c => c.userId = userId ∧ c.isDeleted = false)).insertionSort
    (fun a b => b.createdAt ≤ a.createdAt)

/-- `ITEMS_JOIN_QUERY` -/
def itemsOf (pg : Pg) (configId : Uuid) : List UserPriorityItem :=
  ((pg.items.filter (fun i => i.configId = configId ∧ i.isDeleted = false)).flatMap fun i =>
    (pg.providers.filter (fun p => i.providerId = p.id)).map fun p =>
      { id := i.id
        configId := i.configId
        providerId := i.providerId
        userLedgerAccountId := i.ledgerAccountId
        providerLedgerAccountId := p.ledgerAccountId
        priorityOrder := i.priorityOrder
        usageType := i.usageType
        maxAmount := i.maxAmount
        feeRateBps := p.feeRateBps
        fixedFeeAmount := p.fixedFeeAmount
        createdAt := i.createdAt
        updatedAt := i.updatedAt : UserPriorityItem }).insertionSort
    (fun a b => a.priorityOrder ≤ b.priorityOrder)

end Pg

/-! ### Writes -/

/-- The row as its columns store it. -/
def Provider.stored (p : Provider) : Provider :=
  { p with
    legalName := varchar 255 p.legalName
    tradeName := varchar 255 p.tradeName
    taxId := varchar 50 p.taxId
    emailAddress := varchar 255 p.emailAddress
    officePhone := varchar 50 p.officePhone
    websiteUrl := p.websiteUrl.map (varchar 255)
    bannerImageId := p.bannerImageId.map (varchar 100)
    profileImageId := p.profileImageId.map (varchar 100) }

namespace Tx

variable (t : Tx)

/-- The length and text checks on the columns of a provider. -/
def providerTextChecks (p : Provider) : List (Bool × SqlError) :=
  [(!varcharOk 255 p.legalName, .valueTooLong), (!varcharOk 255 p.tradeName, .valueTooLong),
   (!varcharOk 50 p.taxId, .valueTooLong), (!varcharOk 255 p.emailAddress, .valueTooLong),
   (!varcharOk 50 p.officePhone, .valueTooLong), (!p.websiteUrl.all (varcharOk 255), .valueTooLong),
   (!textOk p.mailingAddress, .invalidText), (!p.alertPhoneNumbers.all textOk, .invalidText),
   (!p.bannerImageId.all (varcharOk 100), .valueTooLong),
   (!p.profileImageId.all (varcharOk 100), .valueTooLong),
   (!jsonbOk p.kafkaConfig.toList, .invalidText)]

def insertProvider (p : Provider) : Except SqlError Provider × Tx :=
  t.write
    (providerTextChecks p.stored ++
    [(t.pg.providers.any (fun q => q.id = p.id), .uniqueViolation "providers_pkey"),
     (t.pg.providers.any (fun q => q.ledgerAccountId = p.ledgerAccountId),
      .uniqueViolation "providers_ledger_account_id_key"),
     (p.isCore && t.pg.providers.any (fun q => q.isCore),
      .uniqueViolation "idx_only_one_core_provider")])
    p.stored (fun pg => { pg with providers := pg.providers ++ [p.stored] })
    (fun actor => [⟨"providers", p.id, actor, .insert⟩])

def insertUser (id : Uuid) (nid : String) (internalMetadata : Json) : Except SqlError User × Tx :=
  let u : User := ⟨id, varchar 10 nid, internalMetadata, t.now, t.now⟩
  t.write
    [(!varcharOk 10 u.nid, .valueTooLong), (!jsonbOk internalMetadata.toList, .invalidText),
     (t.pg.users.any (fun v => v.id = id), .uniqueViolation "users_pkey"),
     (t.pg.users.any (fun v => v.nid = u.nid), .uniqueViolation "users_nid_key")]
    u (fun pg => { pg with users := pg.users ++ [u] })
    (fun actor => [⟨"users", id, actor, .insert⟩])

/-- `INSERT … ON CONFLICT (user_id, provider_id) DO UPDATE` -/
def upsertUserProvider (userId providerId : Uuid) (externalMetadata : Json) :
    Except SqlError Unit × Tx :=
  let link (up : UserProvider) : Bool := up.userId = userId ∧ up.providerId = providerId
  match t.pg.userProviders.find? link with
  | some row =>
      t.write [(!jsonbOk externalMetadata.toList, .invalidText)] ()
        (fun pg => { pg with
          userProviders := pg.userProviders.map (fun up =>
            if link up then { up with externalMetadata := externalMetadata, updatedAt := t.now }
            else up) })
        (fun actor => [⟨"user_providers", row.id, actor, .update⟩])
  | none =>
      let row : UserProvider := ⟨t.fresh, userId, providerId, externalMetadata, t.now, t.now⟩
      t.draw.write
        [(!jsonbOk externalMetadata.toList, .invalidText),
         (t.pg.userProviders.any (fun up => up.id = row.id), .uniqueViolation "user_providers_pkey"),
         (!t.pg.users.any (fun u => u.id = userId),
          .foreignKeyViolation "user_providers_user_id_fkey"),
         (!t.pg.providers.any (fun p => p.id = providerId),
          .foreignKeyViolation "user_providers_provider_id_fkey")]
        () (fun pg => { pg with userProviders := pg.userProviders ++ [row] })
        (fun actor => [⟨"user_providers", row.id, actor, .insert⟩])

def insertUserAccount (id userId providerId ledgerAccountId : Uuid) :
    Except SqlError UserAccount × Tx :=
  let a : UserAccount := ⟨id, userId, providerId, ledgerAccountId, .active, t.now, t.now⟩
  t.write
    [(t.pg.userAccounts.any (fun b => b.id = id), .uniqueViolation "user_accounts_pkey"),
     (t.pg.userAccounts.any (fun b => b.ledgerAccountId = ledgerAccountId),
      .uniqueViolation "user_accounts_ledger_account_id_key"),
     (t.pg.userAccounts.any (fun b => b.userId = userId ∧ b.providerId = providerId),
      .uniqueViolation "user_accounts_user_id_provider_id_key"),
     (!t.pg.users.any (fun u => u.id = userId), .foreignKeyViolation "user_accounts_user_id_fkey"),
     (!t.pg.providers.any (fun p => p.id = providerId),
      .foreignKeyViolation "user_accounts_provider_id_fkey")]
    a (fun pg => { pg with userAccounts := pg.userAccounts ++ [a] })
    (fun actor => [⟨"user_accounts", id, actor, .insert⟩])

/-- The row an `INSERT INTO transactions` adds, with the column defaults. -/
def transactionRow (now : Timestamp) (new : NewTransaction) : Transaction where
  id := new.id
  idempotencyKey := new.idempotencyKey
  transactionType := new.transactionType
  amount := new.amount
  currency := some .irr
  drAccountId := new.drAccountId
  crAccountId := new.crAccountId
  userId := some new.userId
  providerId := some new.providerId
  status := .success
  parentTransactionId := none
  externalReferenceId := none
  description := new.description
  metadata := "{}"
  createdAt := now
  processedAt := some now

/-- The checks on a new transaction. -/
def transactionChecks (pg : Pg) (new : NewTransaction) : List (Bool × SqlError) :=
  [(!varcharOk 100 new.idempotencyKey, .valueTooLong),
   (!new.description.all textOk, .invalidText),
   (decide (new.amount ≤ 0), .checkViolation "transactions_amount_check"),
   (pg.transactions.any (fun r => r.id = new.id), .uniqueViolation "transactions_pkey"),
   (pg.transactions.any (fun r => r.idempotencyKey = new.idempotencyKey),
    .uniqueViolation "transactions_idempotency_key_key"),
   (!pg.users.any (fun u => u.id = new.userId),
    .foreignKeyViolation "transactions_user_id_fkey"),
   (!pg.providers.any (fun p => p.id = new.providerId),
    .foreignKeyViolation "transactions_provider_id_fkey")]

def insertTransaction (new : NewTransaction) : Except SqlError Transaction × Tx :=
  t.write (transactionChecks t.pg new) (transactionRow t.now new)
    (fun pg => { pg with transactions := pg.transactions ++ [transactionRow t.now new] })
    (fun actor => [⟨"transactions", new.id, actor, .insert⟩])

/-- `UPDATE user_priority_configs SET status = 'CANCELLED' …`, with the first
updated row. -/
def cancelActiveConfig (userId : Uuid) : Except SqlError (Option UserPriorityConfig) × Tx :=
  let cancel (c : UserPriorityConfig) : UserPriorityConfig :=
    { c with status := .cancelled, updatedAt := t.now }
  let current := t.pg.configs.filter (Pg.isCurrent userId)
  t.update "user_priority_configs" (current.map (·.id)) ((current.map cancel).head?)
    (fun pg => { pg with
      configs := pg.configs.map (fun c => if Pg.isCurrent userId c then cancel c else c) })

def insertConfig (userId : Uuid) (key : String) (expiresAt : Option Timestamp) :
    Except SqlError UserPriorityConfig × Tx :=
  let c : UserPriorityConfig :=
    ⟨t.fresh, userId, key, .active, expiresAt, false, none, t.now, t.now⟩
  t.draw.write
    [(!expiresAt.all timestampOk, .timestampOutOfRange), (!varcharOk 255 key, .valueTooLong),
     (t.pg.configs.any (fun d => d.id = c.id), .uniqueViolation "user_priority_configs_pkey"),
     (t.pg.configs.any (fun d => d.idempotencyKey = key),
      .uniqueViolation "user_priority_configs_idempotency_key_key"),
     (t.pg.configs.any (fun d => d.userId = userId ∧ d.status = .active),
      .uniqueViolation "idx_user_active_priority_config"),
     (!t.pg.users.any (fun u => u.id = userId),
      .foreignKeyViolation "user_priority_configs_user_id_fkey")]
    c (fun pg => { pg with configs := pg.configs ++ [c] })
    (fun actor => [⟨"user_priority_configs", c.id, actor, .insert⟩])

def insertItem (new : NewPriorityItem) : Except SqlError Unit × Tx :=
  let i : PriorityItemRow :=
    ⟨t.fresh, new.configId, new.providerId, new.ledgerAccountId, new.priorityOrder, new.usageType,
     new.maxAmount, false, none, t.now, t.now⟩
  t.draw.write
    [(decide (new.priorityOrder ≤ 0), .checkViolation "user_priority_items_priority_order_check"),
     (decide (new.maxAmount < 0), .checkViolation "user_priority_items_max_amount_check"),
     (t.pg.items.any (fun j => j.id = i.id), .uniqueViolation "user_priority_items_pkey"),
     (t.pg.items.any (fun j => j.configId = new.configId ∧ j.providerId = new.providerId),
      .uniqueViolation "user_priority_items_config_id_provider_id_key"),
     (t.pg.items.any (fun j => j.configId = new.configId ∧ j.priorityOrder = new.priorityOrder),
      .uniqueViolation "user_priority_items_config_id_priority_order_key"),
     (!t.pg.configs.any (fun c => c.id = new.configId),
      .foreignKeyViolation "user_priority_items_config_id_fkey"),
     (!t.pg.providers.any (fun p => p.id = new.providerId),
      .foreignKeyViolation "user_priority_items_provider_id_fkey")]
    () (fun pg => { pg with items := pg.items ++ [i] })
    (fun actor => [⟨"user_priority_items", i.id, actor, .insert⟩])

/-- `UPDATE user_priority_items SET is_deleted = TRUE … WHERE config_id = $1` -/
def softDeleteItems (configId : Uuid) : Except SqlError Unit × Tx :=
  t.update "user_priority_items"
    ((t.pg.items.filter (fun i => i.configId = configId)).map (·.id)) ()
    (fun pg => { pg with
      items := pg.items.map (fun i =>
        if i.configId = configId then { i with isDeleted := true, deletedAt := some t.now }
        else i) })

/-- `UPDATE user_priority_configs SET is_deleted = TRUE … WHERE id = $1` -/
def softDeleteConfig (configId : Uuid) : Except SqlError Unit × Tx :=
  t.update "user_priority_configs"
    ((t.pg.configs.filter (fun c => c.id = configId)).map (·.id)) ()
    (fun pg => { pg with
      configs := pg.configs.map (fun c =>
        if c.id = configId then { c with isDeleted := true, deletedAt := some t.now } else c) })

/-- `INSERT INTO system_accounts … ON CONFLICT (code) DO NOTHING`, with the
number of rows affected. -/
def insertSystemAccount (code name : String) (category : SystemAccountCategory)
    (ledgerAccountId : Uuid) : Except SqlError Nat × Tx :=
  if t.pg.systemAccounts.any (fun a => a.code = code) then (.ok 0, t)
  else
    let a : SystemAccount := ⟨t.fresh, code, name, category, ledgerAccountId, .irr, t.now, t.now⟩
    t.draw.write
      [(!varcharOk 50 code, .valueTooLong), (!varcharOk 100 name, .valueTooLong),
       (t.pg.systemAccounts.any (fun b => b.id = a.id), .uniqueViolation "system_accounts_pkey"),
       (t.pg.systemAccounts.any (fun b => b.ledgerAccountId = ledgerAccountId),
        .uniqueViolation "system_accounts_ledger_account_id_key")]
      1 (fun pg => { pg with systemAccounts := pg.systemAccounts ++ [a] })
      (fun actor => [⟨"system_accounts", a.id, actor, .insert⟩])

end Tx

/-- One step of a repository method. -/
def Sql.exec : (s : Sql) → Tx → s.Resp × Tx
  | .newV4, t => (.ok t.fresh, t.draw)
  | .setActor actor, t => (.ok (), t.asActor actor)
  | .commit, t => (.ok (), t.commit)
  | .rollback, t => (.ok (), t.rollback)
  | .selectProviderById id, t => t.read (·.provider? id)
  | .insertProvider p, t => t.insertProvider p
  | .selectUserByNid nid, t => t.read (·.userByNid? nid)
  | .insertUser id nid metadata, t => t.insertUser id nid metadata
  | .upsertUserProvider u p metadata, t => t.upsertUserProvider u p metadata
  | .selectUserAccount u p, t => t.read (·.userAccount? u p)
  | .insertUserAccount id u p l, t => t.insertUserAccount id u p l
  | .selectUserProviderDetails u p, t => t.read (fun pg => (pg.userProviderDetails u p).head?)
  | .selectUserProviders u, t => t.read (·.userProvidersOf u)
  | .selectUserAccountsProviderInfo u, t => t.read (·.userAccountsProviderInfo u)
  | .selectTransactionByKey key, t => t.read (·.transactionByKey? key)
  | .insertTransaction new, t => t.insertTransaction new
  | .selectConfigByKey key, t => t.read (·.configByKey? key)
  | .selectActiveConfig u, t => t.read (·.activeConfig? u)
  | .selectConfigs u, t => t.read (·.configsOf u)
  | .cancelActiveConfig u, t => t.cancelActiveConfig u
  | .insertConfig u key expiresAt, t => t.insertConfig u key expiresAt
  | .insertItem new, t => t.insertItem new
  | .selectItems configId, t => t.read (·.itemsOf configId)
  | .softDeleteItems configId, t => t.softDeleteItems configId
  | .softDeleteConfig configId, t => t.softDeleteConfig configId
  | .insertSystemAccount code name category l, t => t.insertSystemAccount code name category l

end Wurzburg.Db
