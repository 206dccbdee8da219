import Wurzburg.Api.Handler
import Wurzburg.Api.Figures

/-!
# Wurzburg.Api.Transaction

`credit_user` and `debit_user` (`api/handlers/transaction.rs`).

Both look the account up, answer a known idempotency key at once, and then move
the amount in the ledger before they record it in PostgreSQL. They share the
steps before (`admission`) and after (`settle`); a debit also cancels an active
priority that names the provider.
-/

namespace Wurzburg.Api

open Wurzburg.Lib Wurzburg.Db Wurzburg.Tb Wurzburg.System

/-- `CreditAccountRequest` and `DebitAccountRequest`, the same three fields. -/
structure TransferRequest where
  idempotencyKey : Uuid
  amount : UInt64
  description : Option String
  deriving DecidableEq, Repr

/-- `TransactionResponse` -/
structure TransactionResponse where
  transactionId : Uuid
  status : String
  currentBalance : Option Int
  deriving DecidableEq, Repr

/-- Which way a request moves money. -/
inductive Direction where
  /-- Provider to user. -/
  | credit
  /-- User to provider. -/
  | debit
  deriving DecidableEq, Repr

namespace Direction

/-- The `transaction_type` of the journal row. -/
def transactionType : Direction → TransactionType
  | credit => .credit
  | debit => .debit

/-- The account debited and the account credited. -/
def accounts {α : Type} (d : Direction) (provider user : α) : α × α :=
  match d with
  | credit => (provider, user)
  | debit => (user, provider)

/-- The text of a rejection. -/
def rejection : Direction → String
  | credit => "Ledger rejected the credit allocation: "
  | debit => "Ledger rejected the debit: "

end Direction

/-- `{:?}` of one result. -/
def debugResult (r : AppCreateTransfersResult) : String :=
  "AppCreateTransfersResult \x7b index: " ++ toString r.index ++ ", result: " ++
    toString r.result ++ " \x7d"

/-- `{:?}` of a result list. -/
def debugResults (rs : List AppCreateTransfersResult) : String :=
  "[" ++ String.intercalate ", " (rs.map debugResult) ++ "]"

/-- The transfer handed to the ledger. -/
def ledgerTransfer (env : Env) (d : Direction) (payload : TransferRequest)
    (providerLedgerId userLedgerId : Uuid) : AppTransfer where
  id := payload.idempotencyKey.asU128
  debitAccountId := (d.accounts providerLedgerId userLedgerId).1.asU128
  creditAccountId := (d.accounts providerLedgerId userLedgerId).2.asU128
  amount := payload.amount.toNat
  pendingId := 0
  userData128 := 0
  userData64 := 0
  userData32 := 0
  timeout := 0
  ledger := env.settings.tigerbeetle.ledgerId
  code := env.settings.tigerbeetle.transferCode
  flags := 0
  timestamp := 0

/-- How a request passes the checks before the ledger call. -/
inductive Admission where
  | answered (response : TransactionResponse)
  | admitted (userAccount : UserProviderDetails) (providerDetails : Provider)

/-- Steps 1 to 3: the account, the idempotency check, the provider. -/
def admission (providerId userId : Uuid) (payload : TransferRequest) : Handler Admission := do
  -- 1. Fetch user account
  let userAccount ← orElse (.notFound, "User account not found")
    (← db (.getUserProviderDetails userId providerId))
  -- 2. Check idempotency; an error of the check counts as "not processed"
  match ← tryDb (.getTransactionByIdempotencyKey payload.idempotencyKey.toString) with
  | .ok (some existingTx) =>
      return .answered
        { transactionId := existingTx.id, status := "ALREADY_PROCESSED", currentBalance := none }
  | _ =>
      -- 3. Fetch provider details
      let providerDetails ← orElse (.notFound, "Provider not found")
        (← db (.getProviderById providerId))
      return .admitted userAccount providerDetails

/-- Persist in PostgreSQL, with the provider as the actor. -/
def recordTransfer (d : Direction) (providerId userId : Uuid) (payload : TransferRequest)
    (providerLedgerId userLedgerId : Uuid) : Handler Transaction :=
  match d with
  | .credit => db (.executeCreditTransfer payload.idempotencyKey.toString
      (asI64 payload.amount.toNat) providerId userId providerLedgerId userLedgerId providerId
      payload.description)
  | .debit => db (.executeDebitTransfer payload.idempotencyKey.toString
      (asI64 payload.amount.toNat) providerId userId providerLedgerId userLedgerId providerId
      payload.description)

/-- The last steps: the ledger, the journal, the balance. -/
def settle (env : Env) (d : Direction) (providerId userId : Uuid) (payload : TransferRequest)
    (userAccount : UserProviderDetails) (providerDetails : Provider) :
    Handler (StatusCode × TransactionResponse) := do
  let userLedgerId := userAccount.userLedgerAccountId
  let providerLedgerId := providerDetails.ledgerAccountId
  let tbResult ← orFail (createTransfer (ledgerTransfer env d payload providerLedgerId userLedgerId))
    (fun _ => (.internalServerError, "Failed to execute ledger transfer"))
  if tbResult.isEmpty then
    let pgTx ← recordTransfer d providerId userId payload providerLedgerId userLedgerId
    let tbAccounts ← orFail (lookupAccount userLedgerId.asU128)
      (fun e => (.internalServerError, "Ledger error: " ++ e))
    return (.ok,
      { transactionId := pgTx.id
        status := "SUCCESS"
        currentBalance := some (currentBalance tbAccounts) })
  else
    throw (.badRequest, d.rejection ++ debugResults tbResult)

/-- `credit_user` -/
def creditUser (env : Env) (providerId userId : Uuid) (payload : TransferRequest) :
    Handler (StatusCode × TransactionResponse) := do
  match ← admission providerId userId payload with
  | .answered response => return (.ok, response)
  | .admitted userAccount providerDetails =>
      settle env .credit providerId userId payload userAccount providerDetails

/-- Step 4 of a debit: an active priority that includes the provider is
cancelled, and its cache entry deleted as far as Redis answers. -/
def cancelPriorityNaming (providerId userId : Uuid) : Handler Unit := do
  match ← db (.getActivePriorityConfig userId) with
  | none => return ()
  | some activePriority =>
      if activePriority.items.any (fun item => item.providerId = providerId) then
        let _ ← db (.cancelActivePriorityConfig userId userId)
        match ← tryRedis .acquire with
        | .ok () =>
            let _ ← tryRedis (.del (priorityKey userId))
            return ()
        | .error _ => return ()
      else
        return ()

/-- `debit_user` -/
def debitUser (env : Env) (providerId userId : Uuid) (payload : TransferRequest) :
    Handler (StatusCode × TransactionResponse) := do
  match ← admission providerId userId payload with
  | .answered response => return (.ok, response)
  | .admitted userAccount providerDetails =>
      cancelPriorityNaming providerId userId
      settle env .debit providerId userId payload userAccount providerDetails

end Wurzburg.Api
