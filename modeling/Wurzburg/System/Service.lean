import Wurzburg.Lib.Pool
import Wurzburg.Api.Transaction
import Wurzburg.Api.User
import Wurzburg.Api.Provider
import Wurzburg.Api.Priority
import Wurzburg.Bootstrap

/-!
# Wurzburg.System.Service

The service as a machine: the requests it serves, the handler of each, and the
interleaving of any number of them with the worker and the stores.

`Service.machine` instantiates `Wurzburg.Lib.Machine`. A task is a request being
served; each of its await points is one step, between any two of which other
tasks and the world can move, and at any of which it can be cut off.
-/

namespace Wurzburg.System

open Wurzburg.Lib Wurzburg.Db Wurzburg.Tb Wurzburg.Api

/-- What the service can be asked for, seeding at start-up included. -/
inductive Request where
  | seedSystemAccounts
  | createProvider (payload : CreateProviderRequest)
  | getProvider (id : Uuid)
  | createOrLink (payload : CreateUserRequest)
  | getUser (userId providerId : Uuid)
  | getUserBalance (userId : Uuid)
  | creditUser (providerId userId : Uuid) (payload : TransferRequest)
  | debitUser (providerId userId : Uuid) (payload : TransferRequest)
  | createUserPriority (userId : Uuid) (idempotencyKey : Option String)
      (payload : CreatePriorityRequest)
  | getActiveUserPriority (userId : Uuid)
  | cancelActiveUserPriority (userId : Uuid)
  | getAllUserPriorities (userId : Uuid)
  deriving DecidableEq, Repr

/-- The body of an answer. -/
inductive Body where
  | seeded
  | createProvider (r : CreateProviderResponse)
  | getProvider (r : GetProviderResponse)
  | createUser (r : CreateUserResponse)
  | getUser (r : GetUserResponse)
  | userBalance (r : UserBalanceResponse)
  | transaction (r : TransactionResponse)
  | priority (r : PriorityConfigResponse)
  | priorities (r : List UserPriorityDetails)
  deriving DecidableEq, Repr

/-- The answer to a request. -/
abbrev Answer := Except HttpError (StatusCode × Body)

/-- The status code of an answer. -/
def Answer.status : Answer → StatusCode
  | .ok (status, _) => status
  | .error (status, _) => status

/-- A handler with its body wrapped. -/
def answerWith {α : Type} (wrap : α → Body) (h : Handler (StatusCode × α)) :
    Prog Eff Eff.Resp Answer :=
  h.run.map (fun r => r.map (fun a => (a.1, wrap a.2)))

/-- The program that serves a request. -/
def serve (env : Env) : Request → Prog Eff Eff.Resp Answer
  | .seedSystemAccounts => (seedSystemAccounts env).run.map fun r =>
      match r with
      | .ok () => .ok (.ok, .seeded)
      | .error e => .error (.internalServerError, e)
  | .createProvider payload => answerWith .createProvider (createProvider env payload)
  | .getProvider id => answerWith .getProvider (getProvider env id)
  | .createOrLink payload => answerWith .createUser (createOrLink env payload)
  | .getUser userId providerId => answerWith .getUser (getUser userId providerId)
  | .getUserBalance userId =>
      answerWith .userBalance ((fun r => (StatusCode.ok, r)) <$> getUserBalance userId)
  | .creditUser providerId userId payload =>
      answerWith .transaction (creditUser env providerId userId payload)
  | .debitUser providerId userId payload =>
      answerWith .transaction (debitUser env providerId userId payload)
  | .createUserPriority userId key payload =>
      answerWith .priority (createUserPriority env userId key payload)
  | .getActiveUserPriority userId => answerWith .priority (getActiveUserPriority userId)
  | .cancelActiveUserPriority userId => answerWith .priority (cancelActiveUserPriority userId)
  | .getAllUserPriorities userId => answerWith .priorities (getAllUserPriorities userId)

/-- A request being served. -/
abbrev Serving := Task Request Eff Eff.Resp Answer

/-- The state of the whole service. -/
abbrev State := Config World Request Eff Eff.Resp Answer

/-- What can happen next. -/
abbrev Act := Label Request Choice Move

/-- The service. -/
def machine (env : Env) : Machine World Request Eff Eff.Resp Answer Choice Move where
  start := serve env
  exec ch e w := w.exec env.settings.tigerbeetle.channelCapacity ch e
  env v w := w.move env.tb env.settings.tigerbeetle.batchMaxSize v

/-- The configured system account ids. -/
def systemIds (env : Env) : List Uuid :=
  [env.settings.tigerbeetle.platformFeeAccountId,
   env.settings.tigerbeetle.cmsSettlementAccountId].filterMap env.parseUuid

/-- The service at its first start. -/
def boot (env : Env) (now : Timestamp) : State := ⟨World.boot (systemIds env) now, []⟩

/-- The states the service can reach: any requests, interleaved and cut off in
any way, with any faults, restarts and batching. -/
def Reachable (env : Env) (c : State) : Prop :=
  ∃ now, (machine env).Reach (fun _ _ => True) (boot env now) c

end Wurzburg.System
