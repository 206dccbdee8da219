import Wurzburg.Api.Handler
import Wurzburg.Api.Figures

/-!
# Wurzburg.Api.User

The handlers of `api/handlers/user.rs`: registering or linking a user, and
reading a user's figures.
-/

namespace Wurzburg.Api

open Wurzburg.Lib Wurzburg.Db Wurzburg.Tb Wurzburg.System

/-- `CreateUserRequest` -/
structure CreateUserRequest where
  nid : String
  providerId : Uuid
  internalMetadata : Option Json
  externalMetadata : Option Json
  deriving DecidableEq, Repr

/-- `CreateUserResponse` -/
structure CreateUserResponse where
  userId : Uuid
  nid : String
  providerId : Uuid
  ledgerAccountId : Uuid
  isExistingUser : Bool
  createdAt : Timestamp
  updatedAt : Timestamp
  deriving DecidableEq, Repr

/-- `GetUserResponse` -/
structure GetUserResponse where
  userId : Uuid
  nid : String
  internalMetadata : Json
  externalMetadata : Json
  ledgerAccountId : Uuid
  credit : Nat
  debit : Nat
  status : AccountStatus
  createdAt : Timestamp
  updatedAt : Timestamp
  deriving DecidableEq, Repr

structure ProviderBalanceItem where
  providerId : Uuid
  providerName : String
  balance : Int
  deriving DecidableEq, Repr

/-- `UserBalanceResponse` -/
structure UserBalanceResponse where
  totalBalance : Int
  providerBalances : List ProviderBalanceItem
  deriving DecidableEq, Repr

/-- The ledger account of a user at a provider: the one kind of account that
must not be overdrawn. -/
def userLedgerAccount (env : Env) (ledgerAccountId userId : Uuid) : AppAccount where
  id := ledgerAccountId.asU128
  debitsPending := 0
  debitsPosted := 0
  creditsPending := 0
  creditsPosted := 0
  userData128 := userId.asU128
  userData64 := 0
  userData32 := 0
  reserved := 0
  ledger := env.settings.tigerbeetle.ledgerId
  code := env.settings.tigerbeetle.userAccountCode
  flags := debitsMustNotExceedCredits
  timestamp := 0

/-- `create_or_link` -/
def createOrLink (env : Env) (payload : CreateUserRequest) :
    Handler (StatusCode × CreateUserResponse) := do
  let requestTime ← now
  let ledgerAccountId ← newV4 .userLedger
  let actorId ← newV4 .other
  -- 1. Find or create the user and the account
  let (user, account) ← db (.createOrLinkUser payload.nid payload.providerId
    (payload.internalMetadata.getD "{}") (payload.externalMetadata.getD "{}") ledgerAccountId actorId)
  let isExistingUser := decide (user.createdAt < requestTime - seconds 1)
  -- 2. Create the ledger account, if the account looks new
  let isNewAccount := decide (account.createdAt ≥ requestTime - seconds 1)
  if isNewAccount then
    -- the list of rejections is not looked at
    let _ ← orFail (createAccount (userLedgerAccount env account.ledgerAccountId user.id))
      (fun _ => (.internalServerError, "Failed to provision ledger account"))
  return (.created,
    { userId := user.id
      nid := user.nid
      providerId := payload.providerId
      ledgerAccountId := account.ledgerAccountId
      isExistingUser := isExistingUser
      createdAt := user.createdAt
      updatedAt := user.updatedAt })

/-- `user::get` -/
def getUser (userId providerId : Uuid) : Handler (StatusCode × GetUserResponse) := do
  match ← db (.getUserProviderDetails userId providerId) with
  | some details =>
      let tbAccounts ← orFail (lookupAccount details.userLedgerAccountId.asU128)
        (fun e => (.internalServerError, "Ledger lookup failed: " ++ e))
      let figures := userFigures tbAccounts
      return (.ok,
        { userId := details.userId
          nid := details.nid
          internalMetadata := details.internalMetadata
          externalMetadata := details.externalMetadata
          ledgerAccountId := details.userLedgerAccountId
          credit := figures.1
          debit := figures.2
          status := details.status
          createdAt := details.createdAt
          updatedAt := details.updatedAt })
  | none => throw (.notFound, "User not found or not linked to the specified provider")

/-- The balance of one account of a user. -/
def providerBalance (tbAccounts : List Account) (info : UserAccountProviderInfo) :
    ProviderBalanceItem where
  providerId := info.providerId
  providerName := info.providerName
  balance :=
    match tbAccounts.find? (fun acc => acc.id = info.ledgerAccountId.asU128) with
    | some acc => subI64 (asI64 acc.creditsPosted) (asI64 acc.debitsPosted)
    | none => 0

/-- `get_user_balance` -/
def getUserBalance (userId : Uuid) : Handler UserBalanceResponse := do
  let accountsInfo ← db (.getUserAccountsProviderInfo userId)
  if accountsInfo.isEmpty then
    return { totalBalance := 0, providerBalances := [] }
  else
    let tbAccounts ← orFail (lookupAccounts (accountsInfo.map (·.ledgerAccountId.asU128)))
      (fun _ => internalError)
    let items := accountsInfo.map (providerBalance tbAccounts)
    return { totalBalance := items.foldl (fun total item => addI64 total item.balance) 0
             providerBalances := items }

end Wurzburg.Api
