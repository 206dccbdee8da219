import Wurzburg.Api.Handler
import Wurzburg.Api.Figures

/-!
# Wurzburg.Api.Provider

The handlers of `api/handlers/provider.rs`: creating a provider, with its
ledger account and its Kafka credentials, and reading one.
-/

namespace Wurzburg.Api

open Wurzburg.Lib Wurzburg.Db Wurzburg.Tb Wurzburg.System

/-- `CreateProviderRequest` -/
structure CreateProviderRequest where
  isCore : Option Bool
  legalName : String
  tradeName : String
  taxId : String
  emailAddress : String
  officePhone : String
  websiteUrl : Option String
  mailingAddress : String
  alertPhoneNumbers : Option (List String)
  feeRateBps : Option Int
  fixedFeeAmount : Option Int
  deriving DecidableEq, Repr

/-- `CreateProviderResponse` -/
structure CreateProviderResponse where
  providerId : Uuid
  ledgerAccountId : Uuid
  kafka : ProviderKafkaSettings
  deriving DecidableEq, Repr

/-- `GetProviderResponse` -/
structure GetProviderResponse where
  id : Uuid
  isCore : Bool
  legalName : String
  tradeName : String
  taxId : String
  emailAddress : String
  officePhone : String
  websiteUrl : Option String
  mailingAddress : String
  alertPhoneNumbers : List String
  isActive : Bool
  feeRateBps : Int
  fixedFeeAmount : Int
  ledgerAccountId : Uuid
  credit : Int
  debit : Int
  createdAt : Timestamp
  updatedAt : Timestamp
  kafka : ProviderKafkaSettings
  deriving DecidableEq, Repr

/-! ### Validation -/

/-- A text field with a minimal trimmed length. -/
def minLengthError (field value : String) (min : Nat) (msg : String) : List (String × String) :=
  if (trim value).length < min then
    [(field, msg.replace "\x7bmin\x7d" (toString min))]
  else []

/-- The check of the address against the configured pattern. -/
def emailError (env : Env) (address : String) : List (String × String) :=
  match env.regex env.settings.provider.emailRegex with
  | some isMatch =>
      if isMatch address then [] else [("email_address", env.settings.provider.emailMsg)]
  | none => [("email_address", "Invalid regex pattern in config")]

/-- `validate_with_config`: the fields that fail, with their messages. -/
def validateWithConfig (env : Env) (payload : CreateProviderRequest) : List (String × String) :=
  let rules := env.settings.provider
  minLengthError "legal_name" payload.legalName rules.legalNameMin rules.legalNameMsg ++
  minLengthError "trade_name" payload.tradeName rules.tradeNameMin rules.tradeNameMsg ++
  minLengthError "tax_id" payload.taxId rules.taxIdMin rules.taxIdMsg ++
  emailError env payload.emailAddress

/-- The text of a validation failure. -/
def validationText (errors : List (String × String)) : String :=
  String.intercalate " | " (errors.map (fun e => e.1 ++ ": " ++ e.2))

/-! ### Handlers -/

/-- The ledger account of a provider. -/
def providerLedgerAccount (env : Env) (ledgerAccountId providerId : Uuid) : AppAccount where
  id := ledgerAccountId.asU128
  debitsPending := 0
  debitsPosted := 0
  creditsPending := 0
  creditsPosted := 0
  userData128 := providerId.asU128
  userData64 := 0
  userData32 := 0
  reserved := 0
  ledger := env.settings.tigerbeetle.ledgerId
  code := env.settings.tigerbeetle.providerAccountCode
  flags := 0
  timestamp := 0

/-- The Kafka settings of a new provider. -/
def newKafkaSettings (env : Env) (providerId passwordId : Uuid) : ProviderKafkaSettings where
  topic := "provider.events." ++ providerId.simple
  brokers := env.settings.bootstrapServers.splitOn ","
  securityProtocol := env.settings.securityProtocol
  saslMechanism := "SCRAM-SHA-512"
  username := "provider_user_" ++ providerId.simple
  password := passwordId.simple
  securityCert := env.certificate.getD ""

/-- The row of a new provider. -/
def newProvider (env : Env) (payload : CreateProviderRequest) (providerId ledgerAccountId : Uuid)
    (kafkaSettings : ProviderKafkaSettings) (at_ : Timestamp) : Provider where
  id := providerId
  isCore := payload.isCore.getD false
  legalName := payload.legalName
  tradeName := payload.tradeName
  taxId := payload.taxId
  emailAddress := payload.emailAddress
  officePhone := payload.officePhone
  websiteUrl := payload.websiteUrl
  mailingAddress := payload.mailingAddress
  alertPhoneNumbers := payload.alertPhoneNumbers.getD []
  bannerImageId := none
  profileImageId := none
  isActive := true
  feeRateBps := payload.feeRateBps.getD 0
  fixedFeeAmount := payload.fixedFeeAmount.getD 0
  kafkaConfig := env.kafkaToJson kafkaSettings
  ledgerAccountId := ledgerAccountId
  createdAt := at_
  updatedAt := at_

/-- The Kafka administration steps, each only after the one before succeeded;
the outcome is only logged. -/
def setUpKafka (settings : ProviderKafkaSettings) : Handler Unit := do
  let topic ← attempt (Prog.perform (Eff.kafka (.createProviderTopic settings.topic)))
  if topic.isOk then
    let user ← attempt
      (Prog.perform (Eff.kafka (.createScramUser settings.username settings.password)))
    if user.isOk then
      let _ ← attempt
        (Prog.perform (Eff.kafka (.grantConsumerAcls settings.topic settings.username)))
      return ()
    else return ()
  else return ()

/-- `provider::create` -/
def createProvider (env : Env) (payload : CreateProviderRequest) :
    Handler (StatusCode × CreateProviderResponse) := do
  let at_ ← now
  -- 1. Validation
  let errors := validateWithConfig env payload
  if errors.isEmpty then
    let providerId ← newV4 .other
    let ledgerAccountId ← newV4 .providerLedger
    let actorId ← newV4 .other
    -- 2. Create the ledger account; the list of rejections is not looked at
    let _ ← orFail (createAccount (providerLedgerAccount env ledgerAccountId providerId))
      (fun _ => (.internalServerError, "Failed to provision ledger account"))
    -- 3. Generate Kafka credentials
    let passwordId ← newV4 .other
    let kafkaSettings := newKafkaSettings env providerId passwordId
    -- 5. Delegate to the repository
    let _ ← db (.createProvider (newProvider env payload providerId ledgerAccountId kafkaSettings at_)
      actorId)
    -- 6. Kafka administration
    setUpKafka kafkaSettings
    return (.created,
      { providerId := providerId, ledgerAccountId := ledgerAccountId, kafka := kafkaSettings })
  else
    throw (.badRequest, validationText errors)

/-- What `provider::get` reports when the stored settings do not parse. -/
def unknownKafkaSettings : ProviderKafkaSettings := ⟨"unknown", [], "", "", "", "", ""⟩

/-- `provider::get` -/
def getProvider (env : Env) (id : Uuid) : Handler (StatusCode × GetProviderResponse) := do
  match ← db (.getProviderById id) with
  | some p =>
      let tbAccounts ← orFail (lookupAccount p.ledgerAccountId.asU128)
        (fun e => (.internalServerError, "Ledger error: " ++ e))
      let figures := providerFigures tbAccounts
      return (.ok,
        { id := p.id
          isCore := p.isCore
          legalName := p.legalName
          tradeName := p.tradeName
          taxId := p.taxId
          emailAddress := p.emailAddress
          officePhone := p.officePhone
          websiteUrl := p.websiteUrl
          mailingAddress := p.mailingAddress
          alertPhoneNumbers := p.alertPhoneNumbers
          isActive := p.isActive
          feeRateBps := p.feeRateBps
          fixedFeeAmount := p.fixedFeeAmount
          ledgerAccountId := p.ledgerAccountId
          credit := figures.1
          debit := figures.2
          createdAt := p.createdAt
          updatedAt := p.updatedAt
          kafka := (env.kafkaFromJson p.kafkaConfig).getD unknownKafkaSettings })
  | none => throw (.notFound, "Provider not found")

end Wurzburg.Api
