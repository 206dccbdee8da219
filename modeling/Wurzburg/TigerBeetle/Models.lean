import Wurzburg.Base

/-!
# Wurzburg.TigerBeetle.Models

The two families of ledger records: the service's own (`AppAccount`,
`AppTransfer`, …) and the client library's (`Account`, `Transfer`, …), with the
mapper between them. The mapper copies field by field; the only changes are
that `reserved` is dropped, and that result indices and codes are cast to
`u32`.
-/

namespace Wurzburg.Tb

/-! ### The service's records -/

/-- Independent domain model for an account. -/
structure AppAccount where
  id : Nat
  debitsPending : Nat
  debitsPosted : Nat
  creditsPending : Nat
  creditsPosted : Nat
  userData128 : Nat
  userData64 : Nat
  userData32 : Nat
  reserved : Nat
  ledger : Nat
  code : Nat
  flags : Nat
  timestamp : Nat
  deriving DecidableEq, Repr

/-- Independent domain model for a transfer. -/
structure AppTransfer where
  id : Nat
  debitAccountId : Nat
  creditAccountId : Nat
  amount : Nat
  pendingId : Nat
  userData128 : Nat
  userData64 : Nat
  userData32 : Nat
  timeout : Nat
  ledger : Nat
  code : Nat
  flags : Nat
  timestamp : Nat
  deriving DecidableEq, Repr

/-- One rejected item of a creation batch: its position and the reason. -/
structure AppCreateResult where
  index : Nat
  result : Nat
  deriving DecidableEq, Repr

/-- A result of `create_accounts`. -/
abbrev AppCreateAccountsResult := AppCreateResult

/-- A result of `create_transfers`. -/
abbrev AppCreateTransfersResult := AppCreateResult

/-- The balances of one account. -/
structure AppAccountBalance where
  accountId : Nat
  postedBalance : Int
  pendingBalance : Int
  deriving DecidableEq, Repr

/-! ### The client library's records -/

/-- An account as the ledger stores it. -/
structure Account where
  id : Nat
  debitsPending : Nat
  debitsPosted : Nat
  creditsPending : Nat
  creditsPosted : Nat
  userData128 : Nat
  userData64 : Nat
  userData32 : Nat
  ledger : Nat
  code : Nat
  flags : Nat
  timestamp : Nat
  deriving DecidableEq, Repr

/-- A transfer as the ledger stores it. -/
structure Transfer where
  id : Nat
  debitAccountId : Nat
  creditAccountId : Nat
  amount : Nat
  pendingId : Nat
  userData128 : Nat
  userData64 : Nat
  userData32 : Nat
  timeout : Nat
  ledger : Nat
  code : Nat
  flags : Nat
  timestamp : Nat
  deriving DecidableEq, Repr

/-- One entry of the list a creation call returns. -/
structure CreateResult where
  index : Nat
  result : Nat
  deriving DecidableEq, Repr

/-- `AccountFlags::DebitsMustNotExceedCredits.bits()`. -/
def debitsMustNotExceedCredits : Nat := 1 <<< 1

/-- The account carries the flag that forbids overdrawing it. -/
def Account.creditLimited (a : Account) : Bool := a.flags.testBit 1

/-! ### The mapper -/

/-- `to_tb_account` -/
def toTbAccount (app : AppAccount) : Account where
  id := app.id
  debitsPending := app.debitsPending
  debitsPosted := app.debitsPosted
  creditsPending := app.creditsPending
  creditsPosted := app.creditsPosted
  userData128 := app.userData128
  userData64 := app.userData64
  userData32 := app.userData32
  ledger := app.ledger
  code := app.code
  flags := app.flags
  timestamp := app.timestamp

/-- `to_tb_transfer` -/
def toTbTransfer (app : AppTransfer) : Transfer where
  id := app.id
  debitAccountId := app.debitAccountId
  creditAccountId := app.creditAccountId
  amount := app.amount
  pendingId := app.pendingId
  userData128 := app.userData128
  userData64 := app.userData64
  userData32 := app.userData32
  timeout := app.timeout
  ledger := app.ledger
  code := app.code
  flags := app.flags
  timestamp := app.timestamp

/-- `from_tb_account` -/
def fromTbAccount (tb : Account) : AppAccount where
  id := tb.id
  debitsPending := tb.debitsPending
  debitsPosted := tb.debitsPosted
  creditsPending := tb.creditsPending
  creditsPosted := tb.creditsPosted
  userData128 := tb.userData128
  userData64 := tb.userData64
  userData32 := tb.userData32
  reserved := 0
  ledger := tb.ledger
  code := tb.code
  flags := tb.flags
  timestamp := tb.timestamp

/-- `from_tb_transfer` -/
def fromTbTransfer (tb : Transfer) : AppTransfer where
  id := tb.id
  debitAccountId := tb.debitAccountId
  creditAccountId := tb.creditAccountId
  amount := tb.amount
  pendingId := tb.pendingId
  userData128 := tb.userData128
  userData64 := tb.userData64
  userData32 := tb.userData32
  timeout := tb.timeout
  ledger := tb.ledger
  code := tb.code
  flags := tb.flags
  timestamp := tb.timestamp

/-- `from_tb_account_result` and `from_tb_transfer_result`, the same cast on two
result types. -/
def fromTbResult (tb : CreateResult) : AppCreateResult where
  index := asU32 tb.index
  result := asU32 tb.result

/-- `from_tb_account_result` -/
abbrev fromTbAccountResult : CreateResult → AppCreateAccountsResult := fromTbResult

/-- `from_tb_transfer_result` -/
abbrev fromTbTransferResult : CreateResult → AppCreateTransfersResult := fromTbResult

@[simp] theorem fromTbAccount_id (a : Account) : (fromTbAccount a).id = a.id := rfl

@[simp] theorem fromTbTransfer_id (t : Transfer) : (fromTbTransfer t).id = t.id := rfl

/-- Mapping a transfer to the client library and back loses nothing. -/
theorem fromTbTransfer_toTbTransfer (t : AppTransfer) : fromTbTransfer (toTbTransfer t) = t := rfl

/-- Mapping an account out and back loses only the reserved field. -/
theorem fromTbAccount_toTbAccount (a : AppAccount) :
    fromTbAccount (toTbAccount a) = { a with reserved := 0 } := rfl

end Wurzburg.Tb
