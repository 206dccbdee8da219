import Wurzburg.Api.Handler

/-!
# Wurzburg.Bootstrap

`seed_system_accounts`: at every start of the service, each configured system
account is created in the ledger and recorded in PostgreSQL.
-/

namespace Wurzburg.Api

open Wurzburg.Lib Wurzburg.Db Wurzburg.Tb Wurzburg.System

/-- `SystemAccountSeed` -/
structure SystemAccountSeed where
  code : String
  name : String
  category : SystemAccountCategory
  ledgerAccountId : String
  deriving DecidableEq, Repr

/-- The accounts to seed. -/
def systemAccounts (config : TigerBeetleConfig) : List SystemAccountSeed :=
  [⟨"PLATFORM_FEE_IRR", "Platform Fee Account", .revenue, config.platformFeeAccountId⟩,
   ⟨"CMS_SETTLEMENT_IRR", "CMS Settlement Account", .liability, config.cmsSettlementAccountId⟩]

/-- The ledger account of a system account. -/
def systemLedgerAccount (env : Env) (pgUuid : Uuid) : AppAccount where
  id := pgUuid.asU128
  debitsPending := 0
  debitsPosted := 0
  creditsPending := 0
  creditsPosted := 0
  userData128 := 0
  userData64 := 0
  userData32 := 0
  reserved := 0
  ledger := env.settings.tigerbeetle.ledgerId
  code := env.settings.tigerbeetle.systemAccountCode
  flags := 0
  timestamp := 0

/-- A computation that stops with an `anyhow` error, here its text. -/
abbrev Boot (α : Type) := ExceptT String (Prog Eff Eff.Resp) α

/-- One seed. -/
def seedSystemAccount (env : Env) (seed : SystemAccountSeed) : Boot Unit :=
  match env.parseUuid seed.ledgerAccountId with
  | none => throw "Invalid UUID string"
  | some pgUuid => do
      -- 1. Create the account in the ledger; a rejection is taken to mean that it exists
      let _ ← ExceptT.mk ((createAccount (systemLedgerAccount env pgUuid)).bind
        (fun r => .ret (r.mapError (fun e => "TB communication error: " ++ e))))
      -- 2. Record it in PostgreSQL
      let _ ← ExceptT.mk ((Prog.perform (Eff.db
        (.recordSystemAccount seed.code seed.name seed.category pgUuid))).bind
        (fun r => .ret (r.mapError RepoError.toString)))
      return ()

/-- The seeds in turn. -/
def seedAll (env : Env) : List SystemAccountSeed → Boot Unit
  | [] => return ()
  | seed :: seeds => do
      seedSystemAccount env seed
      seedAll env seeds

/-- `seed_system_accounts` -/
def seedSystemAccounts (env : Env) : Boot Unit :=
  seedAll env (systemAccounts env.settings.tigerbeetle)

end Wurzburg.Api
