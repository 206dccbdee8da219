import Wurzburg.System.World

/-!
# Wurzburg.System.Client

`AppTbClient`: each method sends one command to the worker, with a new response
channel, and awaits the answer.
-/

namespace Wurzburg.System

open Wurzburg.Lib Wurzburg.Tb

/-- A computation of a request handler. -/
abbrev Io (α : Type) := Prog Eff Eff.Resp α

/-- What the methods share: the two error texts, and how the answer of the right
kind is taken out of the message. -/
def submit {γ : Type} (request : TbRequest) (sendError recvError : String)
    (extract : TbReply → Option (Except String γ)) : Io (Except String γ) := do
  match ← Prog.perform (Eff.tbSend request) with
  | none => return .error sendError
  | some responder =>
      match ← Prog.perform (Eff.tbRecv responder) with
      | none => return .error recvError
      | some reply => return (extract reply).getD (.error recvError)

def createTransfersReply : TbReply → Option (Except String (List AppCreateTransfersResult))
  | .createTransfers r => some r
  | _ => none

def createAccountsReply : TbReply → Option (Except String (List AppCreateAccountsResult))
  | .createAccounts r => some r
  | _ => none

def accountsReply : TbReply → Option (Except String (List AppAccount))
  | .accounts r => some r
  | _ => none

def tbAccountsReply : TbReply → Option (Except String (List Account))
  | .tbAccounts r => some r
  | _ => none

def transfersReply : TbReply → Option (Except String (List AppTransfer))
  | .transfers r => some r
  | _ => none

def balancesReply : TbReply → Option (Except String (List AppAccountBalance))
  | .balances r => some r
  | _ => none

/-- `create_transfer` -/
def createTransfer (transfer : AppTransfer) : Io (Except String (List AppCreateTransfersResult)) :=
  submit (.createTransfer transfer) "Failed to send transfer to worker"
    "Worker dropped response channel" createTransfersReply

/-- `create_account` -/
def createAccount (account : AppAccount) : Io (Except String (List AppCreateAccountsResult)) :=
  submit (.createAccount account) "Failed to send account to worker"
    "Worker dropped response channel" createAccountsReply

/-- `lookup_account` -/
def lookupAccount (id : Nat) : Io (Except String (List AppAccount)) :=
  submit (.lookupAccount id) "Failed to send lookup account request to worker"
    "Worker dropped response channel" accountsReply

/-- `lookup_accounts` -/
def lookupAccounts (ids : List Nat) : Io (Except String (List Account)) :=
  submit (.lookupAccounts ids) "Failed to send LookupAccounts command to TB worker"
    "Worker dropped the oneshot channel" tbAccountsReply

/-- `lookup_transfer` -/
def lookupTransfer (id : Nat) : Io (Except String (List AppTransfer)) :=
  submit (.lookupTransfer id) "Failed to send lookup transfer request to worker"
    "Worker dropped response channel" transfersReply

/-- `get_account_balances` -/
def getAccountBalances (ids : List Nat) : Io (Except String (List AppAccountBalance)) :=
  submit (.getAccountBalances ids) "Failed to send GetAccountBalances command to TB worker"
    "Worker dropped the oneshot channel" balancesReply

end Wurzburg.System
