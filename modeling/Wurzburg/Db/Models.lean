import Wurzburg.Base

/-!
# Wurzburg.Db.Models

The rows of the tables and the records the repository returns (`db/models.rs`
and the migration). Columns that no statement writes and no record returns are
left out, as are the tables no statement touches.
-/

namespace Wurzburg.Db

/-! ### Enumerations -/

inductive AccountStatus where
  | active
  | inactive
  | suspended
  | blocked
  deriving DecidableEq, Repr

inductive Currency where
  | irr
  | usd
  | eur
  deriving DecidableEq, Repr

inductive TransactionType where
  | credit
  | debit
  | transfer
  | fee
  | settlement
  | refund
  deriving DecidableEq, Repr

inductive TransactionStatus where
  | pending
  | success
  | failed
  | reversed
  deriving DecidableEq, Repr

inductive PriorityStatus where
  | active
  | consumed
  | expired
  | cancelled
  deriving DecidableEq, Repr

inductive PriorityUsageType where
  | singleUse
  | multiUse
  deriving DecidableEq, Repr

inductive AuditAction where
  | insert
  | update
  | delete
  deriving DecidableEq, Repr

inductive SystemAccountCategory where
  | revenue
  | liability
  | asset
  | expense
  | suspense
  deriving DecidableEq, Repr

/-! ### Rows -/

/-- A row of `providers`. -/
structure Provider where
  id : Uuid
  isCore : Bool
  legalName : String
  tradeName : String
  taxId : String
  emailAddress : String
  officePhone : String
  websiteUrl : Option String
  mailingAddress : String
  alertPhoneNumbers : List String
  bannerImageId : Option String
  profileImageId : Option String
  isActive : Bool
  feeRateBps : Int
  fixedFeeAmount : Int
  kafkaConfig : Json
  ledgerAccountId : Uuid
  createdAt : Timestamp
  updatedAt : Timestamp
  deriving DecidableEq, Repr

/-- A row of `users`. -/
structure User where
  id : Uuid
  nid : String
  internalMetadata : Json
  createdAt : Timestamp
  updatedAt : Timestamp
  deriving DecidableEq, Repr

/-- A row of `user_providers`. -/
structure UserProvider where
  id : Uuid
  userId : Uuid
  providerId : Uuid
  externalMetadata : Json
  createdAt : Timestamp
  updatedAt : Timestamp
  deriving DecidableEq, Repr

/-- A row of `user_accounts`. -/
structure UserAccount where
  id : Uuid
  userId : Uuid
  providerId : Uuid
  ledgerAccountId : Uuid
  status : AccountStatus
  createdAt : Timestamp
  updatedAt : Timestamp
  deriving DecidableEq, Repr

/-- A row of `transactions`. -/
structure Transaction where
  id : Uuid
  idempotencyKey : String
  transactionType : TransactionType
  amount : Int
  currency : Option Currency
  drAccountId : Uuid
  crAccountId : Uuid
  userId : Option Uuid
  providerId : Option Uuid
  status : TransactionStatus
  parentTransactionId : Option Uuid
  externalReferenceId : Option String
  description : Option String
  metadata : Json
  createdAt : Timestamp
  processedAt : Option Timestamp
  deriving DecidableEq, Repr

/-- A row of `user_priority_configs`. -/
structure UserPriorityConfig where
  id : Uuid
  userId : Uuid
  idempotencyKey : String
  status : PriorityStatus
  expiresAt : Option Timestamp
  isDeleted : Bool
  deletedAt : Option Timestamp
  createdAt : Timestamp
  updatedAt : Timestamp
  deriving DecidableEq, Repr

/-- A row of `user_priority_items`. -/
structure PriorityItemRow where
  id : Uuid
  configId : Uuid
  providerId : Uuid
  ledgerAccountId : Uuid
  priorityOrder : Int
  usageType : PriorityUsageType
  maxAmount : Int
  isDeleted : Bool
  deletedAt : Option Timestamp
  createdAt : Timestamp
  updatedAt : Timestamp
  deriving DecidableEq, Repr

/-- A row of `system_accounts`. -/
structure SystemAccount where
  id : Uuid
  code : String
  name : String
  category : SystemAccountCategory
  ledgerAccountId : Uuid
  currency : Currency
  createdAt : Timestamp
  updatedAt : Timestamp
  deriving DecidableEq, Repr

/-- A row of `audit_logs`: which row of which table was touched, how, by whom. -/
structure AuditLog where
  entityType : String
  entityId : Uuid
  actorId : Uuid
  actionType : AuditAction
  deriving DecidableEq, Repr

/-! ### What the repository returns -/

structure UserProviderDetails where
  userId : Uuid
  nid : String
  internalMetadata : Json
  externalMetadata : Json
  userLedgerAccountId : Uuid
  providerLedgerAccountId : Uuid
  status : AccountStatus
  createdAt : Timestamp
  updatedAt : Timestamp
  deriving DecidableEq, Repr

structure UserAccountProviderInfo where
  providerId : Uuid
  providerName : String
  ledgerAccountId : Uuid
  deriving DecidableEq, Repr

/-- An item of a priority configuration, joined with its provider. -/
structure UserPriorityItem where
  id : Uuid
  configId : Uuid
  providerId : Uuid
  userLedgerAccountId : Uuid
  providerLedgerAccountId : Uuid
  priorityOrder : Int
  usageType : PriorityUsageType
  maxAmount : Int
  feeRateBps : Int
  fixedFeeAmount : Int
  createdAt : Timestamp
  updatedAt : Timestamp
  deriving DecidableEq, Repr

/-- A configuration with its items. -/
structure UserPriorityDetails where
  config : UserPriorityConfig
  items : List UserPriorityItem
  deriving DecidableEq, Repr

/-- The data for creating a priority item. -/
structure PriorityItemData where
  providerId : Uuid
  usageType : PriorityUsageType
  maxAmount : Int
  userLedgerAccountId : Uuid
  providerLedgerAccountId : Uuid
  deriving DecidableEq, Repr

end Wurzburg.Db
