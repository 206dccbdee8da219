import Wurzburg.System.Client

/-!
# Wurzburg.Api.Handler

What the request handlers share: the settings they read, the third-party
functions they call, and the shape of a handler (a computation that answers
with a result or with a status code and a text).
-/

namespace Wurzburg.Api

open Wurzburg.Lib Wurzburg.Db Wurzburg.Tb Wurzburg.System

/-! ### Settings -/

/-- `[tigerbeetle]` -/
structure TigerBeetleConfig where
  batchMaxSize : Nat
  channelCapacity : Nat
  ledgerId : Nat
  providerAccountCode : Nat
  userAccountCode : Nat
  systemAccountCode : Nat
  transferCode : Nat
  platformFeeAccountId : String
  cmsSettlementAccountId : String
  deriving DecidableEq, Repr

/-- `[validation.provider]` -/
structure ProviderRules where
  legalNameMin : Nat
  legalNameMsg : String
  tradeNameMin : Nat
  tradeNameMsg : String
  taxIdMin : Nat
  taxIdMsg : String
  emailRegex : String
  emailMsg : String
  deriving DecidableEq, Repr

/-- The settings the handlers read. -/
structure Settings where
  tigerbeetle : TigerBeetleConfig
  provider : ProviderRules
  /-- `kafka.consumer_defaults` -/
  bootstrapServers : String
  securityProtocol : String
  deriving DecidableEq, Repr

/-- The Kafka settings handed to a new provider. -/
structure ProviderKafkaSettings where
  topic : String
  brokers : List String
  securityProtocol : String
  saslMechanism : String
  username : String
  password : String
  securityCert : String
  deriving DecidableEq, Repr

/-- The service's surroundings: its settings, the ledger server, and the
libraries and files whose results the handlers use. -/
structure Env where
  settings : Settings
  tb : TigerBeetle
  /-- `Uuid::parse_str` -/
  parseUuid : String → Option Uuid
  /-- `Regex::new` and `is_match` -/
  regex : String → Option (String → Bool)
  /-- The certificate file, when it can be read. -/
  certificate : Option String
  /-- `serde_json` on the two records that are stored as JSON. -/
  kafkaToJson : ProviderKafkaSettings → Json
  kafkaFromJson : Json → Option ProviderKafkaSettings
  priorityToJson : UserPriorityDetails → String

/-! ### Handlers -/

/-- A handler: it answers, or stops with a status code and a text. -/
abbrev Handler (α : Type) := ExceptT HttpError (Prog Eff Eff.Resp) α

/-- `.await.map_err(f)?` -/
def orFail {ε α : Type} (p : Io (Except ε α)) (f : ε → HttpError) : Handler α :=
  ExceptT.mk (p.bind (fun r => .ret (r.mapError f)))

/-- `.await`, with the error kept as a value. -/
def attempt {ε α : Type} (p : Io (Except ε α)) : Handler (Except ε α) :=
  ExceptT.mk (p.bind (fun r => .ret (.ok r)))

/-- `Utc::now()` -/
def now : Handler Timestamp := ExceptT.mk ((Prog.perform Eff.now).bind (fun t => .ret (.ok t)))

/-- `Uuid::new_v4()` -/
def newV4 (use : IdUse) : Handler Uuid :=
  ExceptT.mk ((Prog.perform (Eff.newV4 use)).bind (fun u => .ret (.ok u)))

/-- A repository call whose error is kept as a value. -/
def tryDb (call : DbCall) : Handler (Except RepoError call.Row) :=
  attempt (Prog.perform (Eff.db call))

/-- A repository call with `.map_err(internal_error)?`. -/
def db (call : DbCall) : Handler call.Row :=
  orFail (Prog.perform (Eff.db call)) (fun _ => internalError)

/-- A Redis command whose error is kept as a value. -/
def tryRedis (cmd : RedisCmd) : Handler (Except String Unit) :=
  attempt (Prog.perform (Eff.redis cmd))

/-- A Redis command with `.map_err(internal_error)?`. -/
def redis (cmd : RedisCmd) : Handler Unit :=
  orFail (Prog.perform (Eff.redis cmd)) (fun _ => internalError)

/-- `.ok_or_else(…)?` -/
def orElse {α : Type} (e : HttpError) : Option α → Handler α
  | some a => return a
  | none => throw e

@[simp] theorem orElse_some_bind {α β : Type} (e : HttpError) (a : α) (f : α → Handler β) :
    (orElse e (some a) >>= f) = f a := rfl

@[simp] theorem orElse_none_bind {α β : Type} (e : HttpError) (f : α → Handler β) :
    (orElse e none >>= f) = throw e := rfl

/-- `format!("priority:active:\x7b\x7buser:\x7b\x7d\x7d\x7d", user_id)` -/
def priorityKey (userId : Uuid) : String := "priority:active:\x7buser:" ++ userId.toString ++ "\x7d"

end Wurzburg.Api
