import Wurzburg.Api.Handler

/-!
# Wurzburg.Api.Priority

The handlers of `api/handlers/priority.rs`. PostgreSQL is the source of truth
for a user's active priority; the Redis key `priority:active:{user:…}` caches
it, and the handlers that change the one also write the other.
-/

namespace Wurzburg.Api

open Wurzburg.Lib Wurzburg.Db Wurzburg.Tb Wurzburg.System

/-- `PriorityItemRequest` -/
structure PriorityItemRequest where
  providerId : Uuid
  maxAmount : Int
  usageType : PriorityUsageType
  deriving DecidableEq, Repr

/-- `CreatePriorityRequest` -/
structure CreatePriorityRequest where
  priorities : List PriorityItemRequest
  expiresAt : Option Timestamp
  deriving DecidableEq, Repr

inductive ActionStatus where
  | created
  | idempotent
  | normal
  deriving DecidableEq, Repr

/-- `PriorityConfigResponse` -/
structure PriorityConfigResponse where
  data : UserPriorityDetails
  status : ActionStatus
  deriving DecidableEq, Repr

/-- A requested item with the ledger accounts it was resolved to. -/
structure ResolvedItem where
  item : PriorityItemRequest
  userLedgerId : Uuid
  providerLedgerId : Uuid
  deriving DecidableEq, Repr

/-- Step 2: look up each requested provider; the resolved items and the errors. -/
def resolveAccounts (userId : Uuid) :
    List PriorityItemRequest → Handler (List ResolvedItem × List String)
  | [] => return ([], [])
  | item :: items => do
      let found ← tryDb (.getUserProviderDetails userId item.providerId)
      let (resolved, errors) ← resolveAccounts userId items
      match found with
      | .ok (some details) =>
          return (⟨item, details.userLedgerAccountId, details.providerLedgerAccountId⟩ :: resolved,
            errors)
      | _ =>
          return (resolved,
            ("Provider " ++ item.providerId.toString ++ " not found or linked") :: errors)

/-- Step 4 for one item: the error, if the ledger account cannot cover it. -/
def fundsError (tbAccounts : List Account) (r : ResolvedItem) : Option String :=
  -- a later account of the same id replaces an earlier one in the map
  match tbAccounts.reverse.find? (fun acc => acc.id = r.userLedgerId.asU128) with
  | some acc =>
      let availableBalance := asI64 (acc.creditsPosted - acc.debitsPosted)
      if availableBalance < r.item.maxAmount then
        some ("Insufficient balance for provider " ++ r.item.providerId.toString ++
          ". Requested: " ++ toString r.item.maxAmount ++ ", Available: " ++
          toString availableBalance)
      else none
  | none => some ("Ledger account missing for provider " ++ r.item.providerId.toString)

/-- Steps 2 to 4: the requested items with their accounts, if all are linked and
funded. -/
def checkItems (userId : Uuid) (priorities : List PriorityItemRequest) :
    Handler (List ResolvedItem) := do
  let (resolved, errors) ← resolveAccounts userId priorities
  if errors.isEmpty then
    let tbAccounts ← orFail (lookupAccounts (resolved.map (·.userLedgerId.asU128)))
      (fun _ => internalError)
    let errors := resolved.filterMap (fundsError tbAccounts)
    if errors.isEmpty then return resolved
    else throw (.unprocessableEntity, String.intercalate " | " errors)
  else throw (.unprocessableEntity, String.intercalate ", " errors)

/-- The data of an item for the repository. -/
def ResolvedItem.data (r : ResolvedItem) : PriorityItemData where
  providerId := r.item.providerId
  usageType := r.item.usageType
  maxAmount := r.item.maxAmount
  userLedgerAccountId := r.userLedgerId
  providerLedgerAccountId := r.providerLedgerId

/-- How a failure of `create_priority_config` is answered. -/
def createError (e : RepoError) : HttpError :=
  if containsText e.toString "duplicate key value" then
    (.conflict, "Concurrent request detected")
  else internalError

/-- The `EX` argument for an expiry: whole seconds left, if any are. -/
def ttlSeconds (expiresAt : Option Timestamp) (at_ : Timestamp) : Option Nat :=
  match expiresAt with
  | some expiresAtTs =>
      let ttl := (expiresAtTs - at_).tdiv 1000000
      if ttl > 0 then some ttl.toNat else none
  | none => none

/-- The time the `EX` argument is computed from; read only with an expiry. -/
def ttlNow (expiresAt : Option Timestamp) : Handler Timestamp :=
  match expiresAt with
  | some _ => now
  | none => return 0

/-- Steps 7 to 9: create, publish, answer. -/
def publishPriority (env : Env) (userId : Uuid) (idempotencyKey : String)
    (resolved : List ResolvedItem) (expiresAt : Option Timestamp) :
    Handler (StatusCode × PriorityConfigResponse) := do
  -- 7. Persist the new priority
  let newPriority ← orFail
    (Prog.perform (Eff.db
      (.createPriorityConfig idempotencyKey userId (resolved.map ResolvedItem.data) expiresAt userId)))
    createError
  -- 8. Publish it to Redis
  let at_ ← ttlNow expiresAt
  redis (.set (priorityKey userId) (env.priorityToJson newPriority) (ttlSeconds expiresAt at_))
  -- 9. Answer
  return (.created, { data := newPriority, status := .created })

/-- Steps 5 to 9: invalidate, cancel, create, publish. -/
def replacePriority (env : Env) (userId : Uuid) (idempotencyKey : String)
    (resolved : List ResolvedItem) (expiresAt : Option Timestamp) :
    Handler (StatusCode × PriorityConfigResponse) := do
  redis .acquire
  -- 5. Invalidate existing Redis state before the database changes
  redis (.del (priorityKey userId))
  -- 6. Cancel existing active priority
  let active ← db (.getActivePriorityConfig userId)
  if active.isSome then
    let _ ← db (.cancelActivePriorityConfig userId userId)
  publishPriority env userId idempotencyKey resolved expiresAt

/-- The `Idempotency-Key` header, if it is not blank. -/
def usableKey (header : Option String) : Option String :=
  header.filter (fun key => !(trim key).isEmpty)

/-- `create_user_priority` -/
def createUserPriority (env : Env) (userId : Uuid) (idempotencyKey : Option String)
    (payload : CreatePriorityRequest) : Handler (StatusCode × PriorityConfigResponse) := do
  -- 0. Structural validations
  if payload.priorities.isEmpty then
    throw (.badRequest, "Priority list cannot be empty")
  else
    let key ← orElse (.badRequest, "Missing or invalid Idempotency-Key header")
      (usableKey idempotencyKey)
    -- 1. Check idempotency; an error of the check counts as "not processed"
    match ← tryDb (.getPriorityConfigByIdempotencyKey key) with
    | .ok (some existingDetails) =>
        return (.ok, { data := existingDetails, status := .idempotent })
    | _ =>
        let resolved ← checkItems userId payload.priorities
        replacePriority env userId key resolved payload.expiresAt

/-- `get_active_user_priority` -/
def getActiveUserPriority (userId : Uuid) : Handler (StatusCode × PriorityConfigResponse) := do
  match ← db (.getActivePriorityConfig userId) with
  | some details => return (.ok, { data := details, status := .normal })
  | none => throw (.notFound, "No active priority configuration found")

/-- `cancel_active_user_priority` -/
def cancelActiveUserPriority (userId : Uuid) : Handler (StatusCode × PriorityConfigResponse) := do
  -- 1. Cancel in the database
  match ← db (.cancelActivePriorityConfig userId userId) with
  | some details =>
      -- 2. Invalidate the cache
      redis .acquire
      redis (.del (priorityKey userId))
      return (.ok, { data := details, status := .normal })
  | none => throw (.notFound, "No active priority configuration found to cancel")

/-- `get_all_user_priorities` -/
def getAllUserPriorities (userId : Uuid) : Handler (StatusCode × List UserPriorityDetails) := do
  let result ← db (.getAllPriorityConfigs userId)
  return (.ok, result)

end Wurzburg.Api
