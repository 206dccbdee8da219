import Wurzburg.Db.Repository

/-!
# Wurzburg.Db.RepositorySpec

What each repository method can do to the database, said once per method: it
fails and changes nothing, or it returns what its specification lists.

Methods that only read, and methods that leave the accounts and the journal
alone, are recognised by the statements they use (`Sql.isRead`,
`Sql.sparesCore`).
-/

namespace Wurzburg.Db

open Wurzburg.Lib

/-! ### Which statements a method uses -/

namespace Repo

variable {α β : Type} {allowed : Sql → Prop}

/-- Every statement of the method is allowed. -/
def Uses (allowed : Sql → Prop) (x : Repo α) : Prop := Prog.UsesE allowed x

theorem uses_pure (a : α) : Uses allowed (pure a : Repo α) := .pure a

theorem uses_query {s : Sql} {contexts : List String} (hs : allowed s) :
    Uses allowed (query s contexts) :=
  ⟨hs, fun _ => trivial⟩

theorem uses_bind {x : Repo α} {f : α → Repo β} (hx : Uses allowed x)
    (hf : ∀ a, Uses allowed (f a)) : Uses allowed (x >>= f) :=
  Prog.UsesE.bind hx hf

/-- A property of the transaction that every allowed statement keeps. -/
theorem Uses.exec_induction {motive : Tx → Prop}
    (step : ∀ s t, allowed s → motive t → motive (Sql.exec s t).2) {x : Repo α}
    (hx : Uses allowed x) {t : Tx} (ht : motive t) : motive (exec x t).2 :=
  Prog.Uses.run_induction step hx ht

end Repo

/-- Statements that only read. -/
def Sql.isRead : Sql → Prop
  | .selectProviderById _ | .selectUserByNid _ | .selectUserAccount .. => True
  | .selectUserProviderDetails .. | .selectUserProviders _ => True
  | .selectUserAccountsProviderInfo _ | .selectTransactionByKey _ => True
  | .selectConfigByKey _ | .selectActiveConfig _ | .selectConfigs _ | .selectItems _ => True
  | _ => False

theorem Sql.exec_isRead {s : Sql} {t : Tx} (hs : s.isRead) : (Sql.exec s t).2 = t := by
  cases s <;> first | rfl | simp [Sql.isRead] at hs

/-- A method that only reads changes nothing and generates nothing. -/
theorem Repo.transact_reads {α : Type} {x : Repo α} (hx : x.Uses Sql.isRead) (pg : Pg)
    (now : Timestamp) (uuid : Nat → Uuid) :
    x.transact pg now uuid = ((exec x (Tx.begin pg now uuid)).1, pg, 0) := by
  have ht : (exec x (Tx.begin pg now uuid)).2 = Tx.begin pg now uuid :=
    hx.exec_induction (motive := (· = Tx.begin pg now uuid))
      (fun s t hs h => by rw [Sql.exec_isRead hs, h]) rfl
  simp only [transact, ht]
  rfl

/-- The pair a link is about. -/
def UserProvider.pair (up : UserProvider) : Uuid × Uuid := (up.userId, up.providerId)

/-- The pair an account is about. -/
def UserAccount.pair (ua : UserAccount) : Uuid × Uuid := (ua.userId, ua.providerId)

/-- The tables the ledger and the journal depend on are the same. -/
structure Pg.SameCore (pg pg' : Pg) : Prop where
  providers : pg'.providers = pg.providers
  users : pg'.users = pg.users
  userProviders : pg'.userProviders = pg.userProviders
  userAccounts : pg'.userAccounts = pg.userAccounts
  transactions : pg'.transactions = pg.transactions

theorem Pg.SameCore.refl (pg : Pg) : Pg.SameCore pg pg := ⟨rfl, rfl, rfl, rfl, rfl⟩

theorem Pg.SameCore.trans {pg₁ pg₂ pg₃ : Pg} (h : Pg.SameCore pg₁ pg₂) (h' : Pg.SameCore pg₂ pg₃) :
    Pg.SameCore pg₁ pg₃ :=
  ⟨h'.1.trans h.1, h'.2.trans h.2, h'.3.trans h.3, h'.4.trans h.4, h'.5.trans h.5⟩

/-- Statements that leave those tables alone. -/
def Sql.sparesCore : Sql → Prop
  | .insertProvider _ | .insertUser .. | .upsertUserProvider .. => False
  | .insertUserAccount .. | .insertTransaction _ => False
  | _ => True

namespace Tx

variable {α : Type}

theorem write_sameCore {t : Tx} {checks : List (Bool × SqlError)} {row : α} {upd : Pg → Pg}
    {logs : Uuid → List AuditLog} (hupd : Pg.SameCore t.pg (upd t.pg)) :
    Pg.SameCore t.pg (t.write checks row upd logs).2.pg := by
  cases h : t.write checks row upd logs with
  | mk r t' =>
      rcases write_cases h with ⟨e, -, rfl⟩ | ⟨actor, -, -, -, rfl⟩
      · exact .refl _
      · exact ⟨hupd.1, hupd.2, hupd.3, hupd.4, hupd.5⟩

theorem write_base (t : Tx) (checks : List (Bool × SqlError)) (row : α) (upd : Pg → Pg)
    (logs : Uuid → List AuditLog) : (t.write checks row upd logs).2.base = t.base := by
  cases h : t.write checks row upd logs with
  | mk r t' =>
      rcases write_cases h with ⟨e, -, rfl⟩ | ⟨actor, -, -, -, rfl⟩
      · rfl
      · rfl

theorem update_base (t : Tx) (table : String) (touched : List Uuid) (row : α) (upd : Pg → Pg) :
    (t.update table touched row upd).2.base = t.base := by
  unfold update
  split
  · rfl
  · exact write_base ..

theorem update_sameCore {t : Tx} {table : String} {touched : List Uuid} {row : α} {upd : Pg → Pg}
    (hupd : Pg.SameCore t.pg (upd t.pg)) :
    Pg.SameCore t.pg (t.update table touched row upd).2.pg := by
  unfold update
  split
  · exact .refl _
  · exact write_sameCore hupd

end Tx

/-- A statement other than `commit` leaves what is committed as it is. -/
theorem Sql.exec_base {s : Sql} {t : Tx} (hs : s ≠ .commit) : (Sql.exec s t).2.base = t.base := by
  cases s <;> first
    | rfl
    | exact Tx.write_base ..
    | exact Tx.update_base ..
    | exact absurd rfl hs
    | skip
  case upsertUserProvider u p m =>
    simp only [Sql.exec, Tx.upsertUserProvider]
    split
    · exact Tx.write_base ..
    · exact Tx.write_base ..
  case insertSystemAccount code name category l =>
    simp only [Sql.exec, Tx.insertSystemAccount]
    split
    · rfl
    · exact Tx.write_base ..

/-- Before its `commit`, a method has changed nothing for good. -/
theorem Repo.exec_base {α : Type} {x : Repo α} (hx : x.Uses (· ≠ .commit)) (t : Tx) :
    (exec x t).2.base = t.base :=
  hx.exec_induction (motive := fun t' => t'.base = t.base)
    (fun _ _ hs h => (Sql.exec_base hs).trans h) rfl

theorem Sql.exec_sparesCore {s : Sql} {t : Tx} (hs : s.sparesCore) (hb : Pg.SameCore t.base t.pg) :
    Pg.SameCore t.base (Sql.exec s t).2.pg ∧ Pg.SameCore t.base (Sql.exec s t).2.base := by
  have hwrite : ∀ {pg' : Pg}, Pg.SameCore t.pg pg' → Pg.SameCore t.base pg' := hb.trans
  cases s <;> first
    | exact (show False from hs).elim
    | exact ⟨hb, .refl _⟩
    | exact ⟨hb, hb⟩
    | exact ⟨.refl _, .refl _⟩
    | skip
  case cancelActiveConfig u =>
    refine ⟨hwrite (Tx.update_sameCore ⟨rfl, rfl, rfl, rfl, rfl⟩), ?_⟩
    rw [Sql.exec_base (by simp)]
    exact .refl _
  case insertConfig u k e =>
    refine ⟨hwrite (Tx.write_sameCore (t := t.draw) ⟨rfl, rfl, rfl, rfl, rfl⟩), ?_⟩
    rw [Sql.exec_base (by simp)]
    exact .refl _
  case insertItem new =>
    refine ⟨hwrite (Tx.write_sameCore (t := t.draw) ⟨rfl, rfl, rfl, rfl, rfl⟩), ?_⟩
    rw [Sql.exec_base (by simp)]
    exact .refl _
  case softDeleteItems c =>
    refine ⟨hwrite (Tx.update_sameCore ⟨rfl, rfl, rfl, rfl, rfl⟩), ?_⟩
    rw [Sql.exec_base (by simp)]
    exact .refl _
  case softDeleteConfig c =>
    refine ⟨hwrite (Tx.update_sameCore ⟨rfl, rfl, rfl, rfl, rfl⟩), ?_⟩
    rw [Sql.exec_base (by simp)]
    exact .refl _
  case insertSystemAccount code name category l =>
    refine ⟨hwrite ?_, ?_⟩
    · simp only [Sql.exec, Tx.insertSystemAccount]
      split
      · exact .refl _
      · exact Tx.write_sameCore (t := t.draw) ⟨rfl, rfl, rfl, rfl, rfl⟩
    · rw [Sql.exec_base (by simp)]
      exact .refl _

/-- A method that leaves the accounts and the journal alone. -/
theorem Repo.transact_sparesCore {α : Type} {x : Repo α} (hx : x.Uses Sql.sparesCore) {pg pg' : Pg}
    {now : Timestamp} {uuid : Nat → Uuid} {r : Except RepoError α} {n : Nat}
    (h : x.transact pg now uuid = (r, pg', n)) : Pg.SameCore pg pg' := by
  obtain ⟨t, hexec, rfl, rfl⟩ := Repo.transact_cases h
  have hkeep : Pg.SameCore pg (exec x (Tx.begin pg now uuid)).2.base ∧
      Pg.SameCore (exec x (Tx.begin pg now uuid)).2.base (exec x (Tx.begin pg now uuid)).2.pg := by
    refine hx.exec_induction
      (motive := fun t => Pg.SameCore pg t.base ∧ Pg.SameCore t.base t.pg) ?_ ⟨.refl _, .refl _⟩
    intro s t hs ⟨hbase, hpg⟩
    obtain ⟨h₁, h₂⟩ := Sql.exec_sparesCore hs hpg
    refine ⟨hbase.trans h₂, ?_⟩
    exact ⟨h₁.1.trans h₂.1.symm, h₁.2.trans h₂.2.symm, h₁.3.trans h₂.3.symm, h₁.4.trans h₂.4.symm,
      h₁.5.trans h₂.5.symm⟩
  rw [hexec] at hkeep
  exact hkeep.1

/-! ### The reading and the sparing methods -/

theorem getProviderById_transact (id : Uuid) (pg : Pg) (now : Timestamp) (uuid : Nat → Uuid) :
    (getProviderById id).transact pg now uuid = (.ok (pg.provider? id), pg, 0) := rfl

theorem getUserProviderDetails_transact (u p : Uuid) (pg : Pg) (now : Timestamp)
    (uuid : Nat → Uuid) : (getUserProviderDetails u p).transact pg now uuid =
      (.ok (pg.userProviderDetails u p).head?, pg, 0) := rfl

theorem getTransactionByIdempotencyKey_transact (key : String) (pg : Pg) (now : Timestamp)
    (uuid : Nat → Uuid) : (getTransactionByIdempotencyKey key).transact pg now uuid =
      (.ok (pg.transactionByKey? key), pg, 0) := rfl

/-- A joined row names an account of the user at the provider, and their rows. -/
theorem Pg.mem_userProviderDetails {pg : Pg} {userId providerId : Uuid} {d : UserProviderDetails}
    (h : d ∈ pg.userProviderDetails userId providerId) :
    (∃ u ∈ pg.users, u.id = userId) ∧ (∃ p ∈ pg.providers, p.id = providerId) ∧
      ∃ ua ∈ pg.userAccounts, ua.pair = (userId, providerId) ∧
        ua.ledgerAccountId = d.userLedgerAccountId := by
  simp only [userProviderDetails, List.mem_flatMap, List.mem_map, List.mem_filter,
    decide_eq_true_eq] at h
  obtain ⟨u, ⟨hu, hid⟩, up, ⟨-, -, hup⟩, ua, ⟨hua, hu', hp'⟩, p, ⟨hp, hpid⟩, rfl⟩ := h
  exact ⟨⟨u, hu, hid⟩, ⟨p, hp, hpid.trans hup⟩, ua, hua, Prod.ext (hu'.symm.trans hid) hp', rfl⟩

theorem withItems_reads (config : Option UserPriorityConfig) :
    (withItems config).Uses Sql.isRead := by
  cases config with
  | none => exact Repo.uses_pure _
  | some c => exact Repo.uses_bind (Repo.uses_query trivial) (fun _ => Repo.uses_pure _)

theorem getPriorityConfigByIdempotencyKey_reads (key : String) :
    (getPriorityConfigByIdempotencyKey key).Uses Sql.isRead :=
  Repo.uses_bind (Repo.uses_query trivial) withItems_reads

theorem getActivePriorityConfig_reads (userId : Uuid) :
    (getActivePriorityConfig userId).Uses Sql.isRead :=
  Repo.uses_bind (Repo.uses_query trivial) withItems_reads

theorem detailsOf_reads (configs : List UserPriorityConfig) :
    (detailsOf configs).Uses Sql.isRead := by
  induction configs with
  | nil => exact Repo.uses_pure _
  | cons c cs ih =>
      exact Repo.uses_bind (Repo.uses_query trivial) (fun _ => Repo.uses_bind ih
        (fun _ => Repo.uses_pure _))

theorem getAllPriorityConfigs_reads (userId : Uuid) :
    (getAllPriorityConfigs userId).Uses Sql.isRead :=
  Repo.uses_bind (Repo.uses_query trivial) detailsOf_reads

theorem insertItems_uses {allowed : Sql → Prop} (hitem : ∀ new, allowed (.insertItem new))
    (configId : Uuid) (index : Nat) (items : List PriorityItemData) :
    (insertItems configId index items).Uses allowed := by
  induction items generalizing index with
  | nil => exact Repo.uses_pure _
  | cons item items ih =>
      exact Repo.uses_bind (Repo.uses_query (hitem _)) (fun _ => ih (index + 1))

theorem createPriorityConfig_spares (key : String) (userId : Uuid) (items : List PriorityItemData)
    (expiresAt : Option Timestamp) (actorId : Uuid) :
    (createPriorityConfig key userId items expiresAt actorId).Uses Sql.sparesCore := by
  refine Repo.uses_bind (Repo.uses_query trivial) (fun _ => ?_)
  refine Repo.uses_bind (Repo.uses_query trivial) (fun _ => ?_)
  refine Repo.uses_bind (Repo.uses_query trivial) (fun config => ?_)
  refine Repo.uses_bind (insertItems_uses (fun _ => trivial) _ _ _) (fun _ => ?_)
  refine Repo.uses_bind (Repo.uses_query trivial) (fun _ => ?_)
  exact Repo.uses_bind (Repo.uses_query trivial) (fun _ => Repo.uses_pure _)

theorem cancelActivePriorityConfig_spares (userId actorId : Uuid) :
    (cancelActivePriorityConfig userId actorId).Uses Sql.sparesCore := by
  refine Repo.uses_bind (Repo.uses_query trivial) (fun _ => ?_)
  refine Repo.uses_bind (Repo.uses_query trivial) (fun config => ?_)
  cases config with
  | none => exact Repo.uses_bind (Repo.uses_query trivial) (fun _ => Repo.uses_pure _)
  | some c =>
      refine Repo.uses_bind (Repo.uses_query trivial) (fun _ => ?_)
      exact Repo.uses_bind (Repo.uses_query trivial) (fun _ => Repo.uses_pure _)

theorem recordSystemAccount_spares (code name : String) (category : SystemAccountCategory)
    (ledgerAccountId : Uuid) :
    (recordSystemAccount code name category ledgerAccountId).Uses Sql.sparesCore := by
  refine Repo.uses_bind (Repo.uses_query trivial) (fun _ => ?_)
  refine Repo.uses_bind (Repo.uses_query trivial) (fun _ => ?_)
  exact Repo.uses_bind (Repo.uses_query trivial) (fun _ => Repo.uses_pure _)

/-! ### Creating a provider -/

/-- The constraints an inserted provider must meet. -/
structure Pg.AdmitsProvider (pg : Pg) (p : Provider) : Prop where
  texts : ∀ c ∈ Tx.providerTextChecks p.stored, c.1 = false
  newId : ∀ q ∈ pg.providers, q.id ≠ p.id
  newLedgerId : ∀ q ∈ pg.providers, q.ledgerAccountId ≠ p.ledgerAccountId
  oneCore : p.isCore = true → ∀ q ∈ pg.providers, q.isCore = false

/-- The database after a provider was inserted. -/
def Pg.addProvider (pg : Pg) (actor : Uuid) (p : Provider) : Pg :=
  ({ pg with providers := pg.providers ++ [p.stored] } : Pg).log
    [⟨"providers", p.id, actor, .insert⟩]

section

variable {p : Provider} {actor : Uuid} {pg : Pg} {now : Timestamp} {uuid : Nat → Uuid}

/-- `create_provider` inserts the given row where the constraints allow it, and
changes nothing where they do not. -/
theorem createProvider_cases :
    (pg.AdmitsProvider p ∧
      (createProvider p actor).transact pg now uuid = (.ok p.stored, pg.addProvider actor p, 0)) ∨
    (¬ pg.AdmitsProvider p ∧
      ∃ e, (createProvider p actor).transact pg now uuid = (.error e, pg, 0)) := by
  simp only [Repo.transact, createProvider, Repo.exec_bind, Repo.exec_query, Sql.exec,
    Except.mapError]
  cases hins : ((Tx.begin pg now uuid).asActor actor).insertProvider p with
  | mk r t =>
      rcases Tx.write_cases hins with ⟨e, rfl, rfl⟩ | ⟨a, rfl, ha, hc, rfl⟩
      · refine Or.inr ⟨fun hadm => ?_, _, rfl⟩
        have hchecks : ∀ c ∈ Tx.providerTextChecks p.stored ++
            [(pg.providers.any (fun q => q.id = p.id), SqlError.uniqueViolation "providers_pkey"),
             (pg.providers.any (fun q => q.ledgerAccountId = p.ledgerAccountId),
              .uniqueViolation "providers_ledger_account_id_key"),
             (p.isCore && pg.providers.any (fun q => q.isCore),
              .uniqueViolation "idx_only_one_core_provider")], c.1 = false := by
          intro c hc
          rcases List.mem_append.mp hc with hc | hc
          · exact hadm.texts c hc
          · simp only [List.mem_cons, List.not_mem_nil, or_false] at hc
            rcases hc with rfl | rfl | rfl
            · simpa using hadm.newId
            · simpa using hadm.newLedgerId
            · simpa using hadm.oneCore
        have hok : ((Tx.begin pg now uuid).asActor actor).insertProvider p = _ :=
          Tx.write_ok rfl hchecks
        cases hins.symm.trans hok
      · obtain rfl : actor = a := Option.some.inj ha
        have hpg : ((Tx.begin pg now uuid).asActor actor).pg = pg := rfl
        rw [hpg] at hc
        refine Or.inl ⟨⟨fun c h => hc c (List.mem_append_left _ h), ?_, ?_, ?_⟩, rfl⟩
        · simpa using hc _ (List.mem_append_right _ (List.mem_cons_self ..))
        · simpa using hc _ (List.mem_append_right _ (List.mem_cons_of_mem _ (List.mem_cons_self ..)))
        · simpa using hc _ (List.mem_append_right _
            (List.mem_cons_of_mem _ (List.mem_cons_of_mem _ (List.mem_cons_self ..))))

/-- What was inserted had free ids. -/
theorem createProvider_spec {pg' : Pg} {r : Except RepoError Provider} {n : Nat}
    (h : (createProvider p actor).transact pg now uuid = (r, pg', n)) :
    (∃ e, r = .error e ∧ pg' = pg) ∨
    (r = .ok p.stored ∧ (∀ q ∈ pg.providers, q.id ≠ p.id ∧ q.ledgerAccountId ≠ p.ledgerAccountId) ∧
      pg' = pg.addProvider actor p) := by
  rcases @createProvider_cases p actor pg now uuid with ⟨hadm, hok⟩ | ⟨-, e, herror⟩
  · rw [hok] at h
    obtain ⟨rfl, hrest⟩ := Prod.mk.inj h
    obtain ⟨rfl, -⟩ := Prod.mk.inj hrest
    exact Or.inr ⟨rfl, fun q hq => ⟨hadm.newId q hq, hadm.newLedgerId q hq⟩, rfl⟩
  · rw [herror] at h
    obtain ⟨rfl, hrest⟩ := Prod.mk.inj h
    obtain ⟨rfl, -⟩ := Prod.mk.inj hrest
    exact Or.inl ⟨e, rfl, rfl⟩

end

/-! ### Recording a transfer -/

/-- The constraints an inserted transaction must meet. -/
structure Pg.Admits (pg : Pg) (new : NewTransaction) : Prop where
  key : varcharOk 100 new.idempotencyKey = true
  description : new.description.all textOk = true
  amount : 0 < new.amount
  newId : ∀ x ∈ pg.transactions, x.id ≠ new.id
  newKey : ∀ x ∈ pg.transactions, x.idempotencyKey ≠ new.idempotencyKey
  user : ∃ u ∈ pg.users, u.id = new.userId
  provider : ∃ p ∈ pg.providers, p.id = new.providerId

/-- The checks of the insertion are these constraints. -/
theorem Tx.transactionChecks_iff {pg : Pg} {new : NewTransaction} :
    (∀ c ∈ Tx.transactionChecks pg new, c.1 = false) ↔ pg.Admits new := by
  constructor
  · intro h
    have h₁ := h (!varcharOk 100 new.idempotencyKey, .valueTooLong) (by simp [transactionChecks])
    have h₂ := h (!new.description.all textOk, .invalidText) (by simp [transactionChecks])
    have h₃ := h (decide (new.amount ≤ 0), .checkViolation "transactions_amount_check")
      (by simp [transactionChecks])
    have h₄ := h (pg.transactions.any (fun r => r.id = new.id), .uniqueViolation "transactions_pkey")
      (by simp [transactionChecks])
    have h₅ := h (pg.transactions.any (fun r => r.idempotencyKey = new.idempotencyKey),
      .uniqueViolation "transactions_idempotency_key_key") (by simp [transactionChecks])
    have h₆ := h (!pg.users.any (fun u => u.id = new.userId),
      .foreignKeyViolation "transactions_user_id_fkey") (by simp [transactionChecks])
    have h₇ := h (!pg.providers.any (fun p => p.id = new.providerId),
      .foreignKeyViolation "transactions_provider_id_fkey") (by simp [transactionChecks])
    exact ⟨by simpa using h₁, by simpa using h₂, by simpa using h₃, by simpa using h₄,
      by simpa using h₅, by simpa using h₆, by simpa using h₇⟩
  · rintro ⟨h₁, h₂, h₃, h₄, h₅, ⟨u, hu, hu'⟩, ⟨p, hp, hp'⟩⟩ c hc
    simp only [transactionChecks, List.mem_cons, List.not_mem_nil, or_false] at hc
    rcases hc with rfl | rfl | rfl | rfl | rfl | rfl | rfl
    · simpa using h₁
    · simpa using h₂
    · simpa using h₃
    · simpa using h₄
    · simpa using h₅
    · simpa using ⟨u, hu, hu'⟩
    · simpa using ⟨p, hp, hp'⟩

/-- What a transfer method inserts. -/
def newTransaction (id : Uuid) (key : String) (ty : TransactionType) (amount : Int)
    (providerId userId dr cr : Uuid) (description : Option String) : NewTransaction :=
  ⟨id, key, ty, amount, dr, cr, providerId, userId, description⟩

/-- The database after a journal row was inserted. -/
def Pg.record (pg : Pg) (actor : Uuid) (row : Transaction) : Pg :=
  ({ pg with transactions := pg.transactions ++ [row] } : Pg).log
    [⟨"transactions", row.id, actor, .insert⟩]

section

variable {ty : TransactionType} {key : String} {amount : Int}
  {providerId userId dr cr actor : Uuid} {description : Option String} {pg : Pg}
  {now : Timestamp} {uuid : Nat → Uuid}

/-- A transfer method fails and changes nothing, or inserts one journal row that
the constraints allow. -/
theorem executeTransfer_spec {pg' : Pg} {r : Except RepoError Transaction} {n : Nat}
    (h : (executeTransfer ty key amount providerId userId dr cr actor description).transact pg now
      uuid = (r, pg', n)) :
    n = 1 ∧
      ((∃ e, r = .error e ∧ pg' = pg) ∨
      ∃ new, new = newTransaction (uuid 0) key ty amount providerId userId dr cr description ∧
        pg.Admits new ∧ r = .ok (Tx.transactionRow now new) ∧
        pg' = pg.record actor (Tx.transactionRow now new)) := by
  obtain ⟨t, hx, rfl, rfl⟩ := Repo.transact_cases h
  simp only [executeTransfer, Repo.exec_bind, Repo.exec_query, Sql.exec, Except.mapError] at hx
  cases hins : ((Tx.begin pg now uuid).asActor actor).draw.insertTransaction
      (newTransaction (uuid 0) key ty amount providerId userId dr cr description) with
  | mk r₁ t₁ =>
      have hfresh : ((Tx.begin pg now uuid).asActor actor).fresh = uuid 0 := rfl
      rw [hfresh, show (⟨uuid 0, key, ty, amount, dr, cr, providerId, userId, description⟩ :
        NewTransaction) = newTransaction (uuid 0) key ty amount providerId userId dr cr description
        from rfl, hins] at hx
      rcases Tx.write_cases hins with ⟨e, rfl, rfl⟩ | ⟨a, rfl, ha, hc, rfl⟩
      · obtain ⟨rfl, rfl⟩ := Prod.mk.inj hx
        exact ⟨rfl, Or.inl ⟨_, rfl, rfl⟩⟩
      · obtain ⟨rfl, rfl⟩ := Prod.mk.inj hx
        obtain rfl : actor = a := Option.some.inj ha
        exact ⟨rfl, Or.inr ⟨_, rfl, Tx.transactionChecks_iff.mp hc, rfl, rfl⟩⟩

/-- A transfer method succeeds where the constraints allow its row. -/
theorem executeTransfer_ok
    (h : pg.Admits (newTransaction (uuid 0) key ty amount providerId userId dr cr description)) :
    (executeTransfer ty key amount providerId userId dr cr actor description).transact pg now uuid =
      (.ok (Tx.transactionRow now
        (newTransaction (uuid 0) key ty amount providerId userId dr cr description)),
       pg.record actor (Tx.transactionRow now
        (newTransaction (uuid 0) key ty amount providerId userId dr cr description)), 1) := by
  have hins : ((Tx.begin pg now uuid).asActor actor).draw.insertTransaction
      (newTransaction (uuid 0) key ty amount providerId userId dr cr description) = _ :=
    Tx.write_ok rfl (Tx.transactionChecks_iff.mpr h)
  simp only [Repo.transact, executeTransfer, Repo.exec_bind, Repo.exec_query, Sql.exec,
    Except.mapError]
  simp only [newTransaction] at hins
  simp only [Tx.fresh, Tx.begin, Tx.asActor] at hins ⊢
  rw [hins]
  rfl

end

/-! ### Linking a user -/

/-- What stays the same within a transaction. -/
structure Tx.Frame (t t' : Tx) : Prop where
  base : t'.base = t.base
  now : t'.now = t.now
  actor : t'.actor = t.actor

theorem Tx.Frame.refl (t : Tx) : Tx.Frame t t := ⟨rfl, rfl, rfl⟩

theorem Tx.Frame.trans {t t₁ t₂ : Tx} (h : Tx.Frame t t₁) (h' : Tx.Frame t₁ t₂) : Tx.Frame t t₂ :=
  ⟨h'.1.trans h.1, h'.2.trans h.2, h'.3.trans h.3⟩

/-- The user found, or the one inserted. -/
inductive FoundUser (pg pg' : Pg) (nid : String) (now : Timestamp) (user : User) : Prop
  | old : user ∈ pg.users → user.nid = nid → pg' = pg → FoundUser pg pg' nid now user
  | new (logs : List AuditLog) :
      (∀ u ∈ pg.users, u.id ≠ user.id ∧ u.nid ≠ nid ∧ u.nid ≠ user.nid) →
      user.nid = varchar 10 nid → user.nid.length ≤ 10 → user.createdAt = now →
      pg' = ({ pg with users := pg.users ++ [user] } : Pg).log logs → FoundUser pg pg' nid now user

theorem findOrCreateUser_spec {nid : String} {metadata : Json} {t t' : Tx}
    {r : Except RepoError User} (h : (findOrCreateUser nid metadata).exec t = (r, t')) :
    Tx.Frame t t' ∧ ∀ user, r = .ok user → FoundUser t.pg t'.pg nid t.now user := by
  simp only [findOrCreateUser, Repo.exec_bind, Repo.exec_query, Sql.exec, Tx.read,
    Except.mapError] at h
  cases hfound : t.pg.userByNid? nid with
  | some u =>
      simp only [hfound, Repo.exec_pure] at h
      obtain ⟨rfl, rfl⟩ := Prod.mk.inj h
      refine ⟨.refl _, fun user hu => ?_⟩
      obtain rfl := Except.ok.inj hu
      have hnid : u.nid = nid := by simpa using List.find?_some hfound
      exact .old (List.mem_of_find?_eq_some hfound) hnid rfl
  | none =>
      simp only [hfound, Repo.exec_bind, Repo.exec_query, Sql.exec, Except.mapError] at h
      cases hins : t.draw.insertUser t.fresh nid metadata with
      | mk r₁ t₁ =>
          rw [hins] at h
          simp only [Tx.insertUser] at hins
          rcases Tx.write_cases hins with ⟨e, rfl, rfl⟩ | ⟨actor, rfl, -, hc, rfl⟩
          · obtain ⟨rfl, rfl⟩ := Prod.mk.inj h
            exact ⟨⟨rfl, rfl, rfl⟩, fun _ hu => by simp at hu⟩
          · obtain ⟨rfl, rfl⟩ := Prod.mk.inj h
            refine ⟨⟨rfl, rfl, rfl⟩, fun user hu => ?_⟩
            obtain rfl := Except.ok.inj hu
            simp only [List.forall_mem_cons, List.any_eq_false, decide_eq_true_eq, varcharOk,
              Bool.not_eq_false', Bool.and_eq_true] at hc
            obtain ⟨⟨-, hlength⟩, -, hid, hnid, -⟩ := hc
            have hnone : ∀ u ∈ t.pg.users, u.nid ≠ nid := fun u hu heq =>
              List.find?_eq_none.mp hfound u hu (decide_eq_true heq)
            exact .new _ (fun u hu => ⟨hid u hu, hnone u hu, hnid u hu⟩) rfl hlength rfl rfl

/-- The link updated, or the one inserted. -/
inductive UpsertedLink (pg pg' : Pg) (userId providerId : Uuid) : Prop
  | old (links : List UserProvider) (logs : List AuditLog) :
      (userId, providerId) ∈ pg.userProviders.map UserProvider.pair →
      links.map UserProvider.pair = pg.userProviders.map UserProvider.pair →
      pg' = ({ pg with userProviders := links } : Pg).log logs →
      UpsertedLink pg pg' userId providerId
  | new (row : UserProvider) (logs : List AuditLog) :
      (userId, providerId) ∉ pg.userProviders.map UserProvider.pair →
      row.pair = (userId, providerId) →
      (∃ u ∈ pg.users, u.id = userId) → (∃ p ∈ pg.providers, p.id = providerId) →
      pg' = ({ pg with userProviders := pg.userProviders ++ [row] } : Pg).log logs →
      UpsertedLink pg pg' userId providerId

theorem upsertUserProvider_spec {userId providerId : Uuid} {metadata : Json} {t t' : Tx}
    {r : Except SqlError Unit} (h : t.upsertUserProvider userId providerId metadata = (r, t')) :
    Tx.Frame t t' ∧ (r = .ok () → UpsertedLink t.pg t'.pg userId providerId) := by
  simp only [Tx.upsertUserProvider] at h
  split at h
  · next row hrow =>
      have hmem := List.mem_of_find?_eq_some hrow
      have hpair : row.userId = userId ∧ row.providerId = providerId := by
        simpa using List.find?_some hrow
      rcases Tx.write_cases h with ⟨e, rfl, rfl⟩ | ⟨actor, rfl, -, -, rfl⟩
      · exact ⟨.refl _, fun hr => by simp at hr⟩
      · refine ⟨⟨rfl, rfl, rfl⟩, fun _ => .old _ _ ?_ ?_ rfl⟩
        · exact List.mem_map.mpr ⟨row, hmem, Prod.ext hpair.1 hpair.2⟩
        · rw [List.map_map]
          refine List.map_congr_left fun up _ => ?_
          simp only [Function.comp_apply]
          split <;> rfl
  · next hnone =>
      rcases Tx.write_cases h with ⟨e, rfl, rfl⟩ | ⟨actor, rfl, -, hc, rfl⟩
      · exact ⟨⟨rfl, rfl, rfl⟩, fun hr => by simp at hr⟩
      · simp only [List.forall_mem_cons, Bool.not_eq_false', List.any_eq_true,
          decide_eq_true_eq] at hc
        obtain ⟨-, -, huser, hprovider, -⟩ := hc
        refine ⟨⟨rfl, rfl, rfl⟩, fun _ => .new _ _ ?_ rfl huser hprovider rfl⟩
        intro hmem
        obtain ⟨up, hup, hpair⟩ := List.mem_map.mp hmem
        obtain ⟨hu, hp⟩ := Prod.mk.inj hpair
        have := List.find?_eq_none.mp hnone up hup
        simp [hu, hp] at this

/-- The account found, or the one inserted. -/
inductive FoundAccount (pg pg' : Pg) (userId providerId ledgerAccountId : Uuid) (now : Timestamp)
    (account : UserAccount) : Prop
  | old : account ∈ pg.userAccounts → account.pair = (userId, providerId) → pg' = pg →
      FoundAccount pg pg' userId providerId ledgerAccountId now account
  | new (logs : List AuditLog) :
      (∀ b ∈ pg.userAccounts, b.ledgerAccountId ≠ ledgerAccountId ∧ b.pair ≠ (userId, providerId)) →
      (∃ u ∈ pg.users, u.id = userId) → (∃ p ∈ pg.providers, p.id = providerId) →
      account.pair = (userId, providerId) → account.ledgerAccountId = ledgerAccountId →
      account.createdAt = now →
      pg' = ({ pg with userAccounts := pg.userAccounts ++ [account] } : Pg).log logs →
      FoundAccount pg pg' userId providerId ledgerAccountId now account

theorem findOrCreateAccount_spec {userId providerId ledgerAccountId : Uuid} {t t' : Tx}
    {r : Except RepoError UserAccount}
    (h : (findOrCreateAccount userId providerId ledgerAccountId).exec t = (r, t')) :
    Tx.Frame t t' ∧ ∀ account, r = .ok account →
      FoundAccount t.pg t'.pg userId providerId ledgerAccountId t.now account := by
  simp only [findOrCreateAccount, Repo.exec_bind, Repo.exec_query, Sql.exec, Tx.read,
    Except.mapError] at h
  cases hfound : t.pg.userAccount? userId providerId with
  | some a =>
      simp only [hfound, Repo.exec_pure] at h
      obtain ⟨rfl, rfl⟩ := Prod.mk.inj h
      refine ⟨.refl _, fun account ha => ?_⟩
      obtain rfl := Except.ok.inj ha
      have hpair : a.userId = userId ∧ a.providerId = providerId := by
        simpa using List.find?_some hfound
      exact .old (List.mem_of_find?_eq_some hfound) (Prod.ext hpair.1 hpair.2) rfl
  | none =>
      simp only [hfound, Repo.exec_bind, Repo.exec_query, Sql.exec, Except.mapError] at h
      cases hins : t.draw.insertUserAccount t.fresh userId providerId ledgerAccountId with
      | mk r₁ t₁ =>
          rw [hins] at h
          simp only [Tx.insertUserAccount] at hins
          rcases Tx.write_cases hins with ⟨e, rfl, rfl⟩ | ⟨actor, rfl, -, hc, rfl⟩
          · obtain ⟨rfl, rfl⟩ := Prod.mk.inj h
            exact ⟨⟨rfl, rfl, rfl⟩, fun _ ha => by simp at ha⟩
          · obtain ⟨rfl, rfl⟩ := Prod.mk.inj h
            refine ⟨⟨rfl, rfl, rfl⟩, fun account ha => ?_⟩
            obtain rfl := Except.ok.inj ha
            simp only [List.forall_mem_cons, List.any_eq_false, Bool.not_eq_false', List.any_eq_true,
              decide_eq_true_eq] at hc
            obtain ⟨-, hledger, hpair, huser, hprovider, -⟩ := hc
            refine .new _ (fun b hb => ⟨hledger b hb, ?_⟩) huser hprovider rfl rfl rfl rfl
            intro h
            exact hpair b hb ⟨(Prod.mk.inj h).1, (Prod.mk.inj h).2⟩

/-- What `create_or_link_user` leaves behind: the three steps in turn. -/
structure Linked (pg pg' : Pg) (nid : String) (providerId ledgerAccountId : Uuid)
    (now : Timestamp) (user : User) (account : UserAccount) : Prop where
  steps : ∃ pg₁ pg₂, FoundUser pg pg₁ nid now user ∧ UpsertedLink pg₁ pg₂ user.id providerId ∧
    FoundAccount pg₂ pg' user.id providerId ledgerAccountId now account

/-- `create_or_link_user` fails and changes nothing, or finds or creates the
user, the link and the account. -/
theorem createOrLinkUser_spec {nid : String} {providerId lid actor : Uuid}
    {internalMetadata externalMetadata : Json} {pg pg' : Pg} {now : Timestamp} {uuid : Nat → Uuid}
    {r : Except RepoError (User × UserAccount)} {n : Nat}
    (h : (createOrLinkUser nid providerId internalMetadata externalMetadata lid actor).transact pg
      now uuid = (r, pg', n)) :
    (∃ e, r = .error e ∧ pg' = pg) ∨
    ∃ user account, r = .ok (user, account) ∧
      Linked pg pg' nid providerId lid now user account := by
  obtain ⟨t, hx, rfl, rfl⟩ := Repo.transact_cases h
  rcases Repo.exec_bind_cases hx with ⟨e, hset, rfl⟩ | ⟨⟨⟩, t₀, hset, hx⟩
  · simp [Sql.exec, Except.mapError] at hset
  rw [Repo.exec_query] at hset
  obtain ⟨-, rfl⟩ := Prod.mk.inj hset
  rcases Repo.exec_bind_cases hx with ⟨e, huser, rfl⟩ | ⟨user, t₁, huser, hx⟩
  · exact Or.inl ⟨e, rfl, (findOrCreateUser_spec huser).1.base⟩
  obtain ⟨hframe₁, hfound⟩ := findOrCreateUser_spec huser
  rcases Repo.exec_bind_cases hx with ⟨e, hlink, rfl⟩ | ⟨⟨⟩, t₂, hlink, hx⟩
  · rcases Repo.exec_query_cases hlink with ⟨e', hlink', -⟩ | ⟨_, -, hok⟩
    · exact Or.inl ⟨e, rfl, (hframe₁.trans (upsertUserProvider_spec hlink').1).base⟩
    · simp at hok
  rcases Repo.exec_query_cases hlink with ⟨_, -, herr⟩ | ⟨⟨⟩, hlink', -⟩
  · simp at herr
  obtain ⟨hframe₂, hupsert⟩ := upsertUserProvider_spec hlink'
  have hframe := hframe₁.trans hframe₂
  rcases Repo.exec_bind_cases hx with ⟨e, hacc, rfl⟩ | ⟨account, t₃, hacc, hx⟩
  · exact Or.inl ⟨e, rfl, (hframe.trans (findOrCreateAccount_spec hacc).1).base⟩
  obtain ⟨-, haccount⟩ := findOrCreateAccount_spec hacc
  obtain ⟨rfl, rfl⟩ := Prod.mk.inj hx
  refine Or.inr ⟨user, account, rfl, ⟨t₁.pg, t₂.pg, hfound _ rfl, hupsert rfl, ?_⟩⟩
  have := haccount _ rfl
  rw [hframe.now] at this
  exact this

end Wurzburg.Db
