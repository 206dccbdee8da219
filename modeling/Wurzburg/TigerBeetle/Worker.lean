import Wurzburg.TigerBeetle.Server

/-!
# Wurzburg.TigerBeetle.Worker

The background worker that batches commands for the ledger: the commands
(`commands.rs`), the batch operations (`operations.rs`) and the loop body
(`worker.rs`).

Each command carries the sending half of a one-shot channel; here that is a
`ResponderId`, and `Worker.replies` lists every message sent through one. The
loop keeps four pairs of parallel vectors, a batch and its responders, and hands
a pair over when it reaches the size limit or when the timer ticks.

`received` and the four logs are history variables: no operation of the worker
reads them.
-/

namespace Wurzburg.Tb

/-- One end of a one-shot response channel. -/
abbrev ResponderId := Nat

/-- What a command asks for. -/
inductive TbRequest where
  | createAccount (account : AppAccount)
  | createTransfer (transfer : AppTransfer)
  | lookupAccount (id : Nat)
  | lookupAccounts (ids : List Nat)
  | lookupTransfer (id : Nat)
  | getAccountBalances (ids : List Nat)
  deriving DecidableEq, Repr

/-- A command routed to the worker, with its responder. -/
structure TbCommand where
  request : TbRequest
  responder : ResponderId
  deriving DecidableEq, Repr

/-- A message on a response channel. -/
inductive TbReply where
  | createAccounts (r : Except String (List AppCreateAccountsResult))
  | createTransfers (r : Except String (List AppCreateTransfersResult))
  | accounts (r : Except String (List AppAccount))
  | tbAccounts (r : Except String (List Account))
  | transfers (r : Except String (List AppTransfer))
  | balances (r : Except String (List AppAccountBalance))
  deriving DecidableEq

/-- An error of the client library, in its two renderings. -/
structure TbError where
  debug : String
  display : String
  deriving DecidableEq, Repr

/-- How one call of the client ends. A failed call may still have reached the
server. -/
inductive CallOutcome where
  | ok
  | err (applied : Bool) (e : TbError)
  deriving DecidableEq, Repr

/-- A batch under construction: the items and, position by position, who asked
for them. -/
structure Buffer (α : Type) where
  batch : List α
  responders : List ResponderId
  deriving DecidableEq, Repr

namespace Buffer

variable {α : Type}

def empty : Buffer α := ⟨[], []⟩

def push (b : Buffer α) (x : α) (r : ResponderId) : Buffer α :=
  ⟨b.batch ++ [x], b.responders ++ [r]⟩

/-- The items with their responders. -/
def pairs (b : Buffer α) : List (α × ResponderId) := b.batch.zip b.responders

end Buffer

/-! ### Batch operations -/

/-- One batch handed to the client: the items, who waits for them, the ledger
before the call and how the call ended. -/
structure Submitted (α : Type) where
  items : List α
  responders : List ResponderId
  before : Ledger
  outcome : CallOutcome

namespace Submitted

variable {α γ : Type}

def pairs (s : Submitted α) : List (α × ResponderId) := s.items.zip s.responders

/-- The one result list that every responder of the batch is sent: what the
server returned, or the operation's error text. -/
def results (serve : Ledger → List α → List γ × Ledger) (errText : String) (s : Submitted α) :
    Except String (List γ) :=
  match s.outcome with
  | .ok => .ok (serve s.before s.items).1
  | .err _ e => .error (errText ++ e.debug)

/-- The ledger after the call. -/
def after (serve : Ledger → List α → List γ × Ledger) (s : Submitted α) : Ledger :=
  match s.outcome with
  | .err false _ => s.before
  | _ => (serve s.before s.items).2

/-- The list a successful batch is answered with. -/
theorem results_eq_ok {serve : Ledger → List α → List γ × Ledger} {errText : String}
    {s : Submitted α} {rs : List γ} :
    s.results serve errText = .ok rs ↔ s.outcome = .ok ∧ rs = (serve s.before s.items).1 := by
  unfold results
  cases s.outcome with
  | ok => simp [eq_comm]
  | err applied e => simp

end Submitted

/-- What `create_transfers` does with a batch of the service's transfers. -/
def serveTransfers (tb : TigerBeetle) (l : Ledger) (batch : List AppTransfer) :
    List AppCreateTransfersResult × Ledger :=
  let out := applyBatch tb.createTransfer l 0 (batch.map toTbTransfer)
  (out.1.map fromTbTransferResult, out.2)

/-- What `create_accounts` does with a batch of the service's accounts. -/
def serveAccounts (tb : TigerBeetle) (l : Ledger) (batch : List AppAccount) :
    List AppCreateAccountsResult × Ledger :=
  let out := applyBatch tb.createAccount l 0 (batch.map toTbAccount)
  (out.1.map fromTbAccountResult, out.2)

/-- What `lookup_accounts` does with a batch of ids. -/
def serveLookupAccounts (l : Ledger) (batch : List Nat) : List AppAccount × Ledger :=
  ((l.lookupAccounts batch).map fromTbAccount, l)

/-- What `lookup_transfers` does with a batch of ids. -/
def serveLookupTransfers (l : Ledger) (batch : List Nat) : List AppTransfer × Ledger :=
  ((l.lookupTransfers batch).map fromTbTransfer, l)

/-- The state of the worker, with the ledger it talks to. -/
structure Worker where
  transferBuf : Buffer AppTransfer
  accountBuf : Buffer AppAccount
  lookupAccBuf : Buffer Nat
  lookupTxBuf : Buffer Nat
  ledger : Ledger
  /-- Every message sent so far, oldest first. -/
  replies : List (ResponderId × TbReply)
  received : List TbCommand
  transferLog : List (Submitted AppTransfer)
  accountLog : List (Submitted AppAccount)
  lookupAccLog : List (Submitted Nat)
  lookupTxLog : List (Submitted Nat)

namespace Worker

/-- A worker that has just started on a given ledger. -/
def start (l : Ledger) : Worker :=
  ⟨.empty, .empty, .empty, .empty, l, [], [], [], [], [], []⟩

/-- The result list sent for a batch of transfers. -/
def transferResults (tb : TigerBeetle) (s : Submitted AppTransfer) :
    Except String (List AppCreateTransfersResult) :=
  s.results (serveTransfers tb) "TigerBeetle create_transfers error: "

/-- The result list sent for a batch of accounts. -/
def accountResults (tb : TigerBeetle) (s : Submitted AppAccount) :
    Except String (List AppCreateAccountsResult) :=
  s.results (serveAccounts tb) "TigerBeetle create_accounts error: "

/-- The result list sent for a batch of account lookups. -/
def lookupAccResults (s : Submitted Nat) : Except String (List AppAccount) :=
  s.results serveLookupAccounts "TigerBeetle lookup_accounts error: "

/-- The result list sent for a batch of transfer lookups. -/
def lookupTxResults (s : Submitted Nat) : Except String (List AppTransfer) :=
  s.results serveLookupTransfers "TigerBeetle lookup_transfers error: "

/-- Send one and the same message to all responders of a batch. -/
def answerAll (w : Worker) (responders : List ResponderId) (reply : TbReply) : Worker :=
  { w with replies := w.replies ++ responders.map (fun r => (r, reply)) }

/-- `process_transfers` -/
def processTransfers (tb : TigerBeetle) (o : CallOutcome) (w : Worker) : Worker :=
  let s : Submitted AppTransfer := ⟨w.transferBuf.batch, w.transferBuf.responders, w.ledger, o⟩
  { w.answerAll s.responders (.createTransfers (transferResults tb s)) with
    ledger := s.after (serveTransfers tb)
    transferBuf := .empty
    transferLog := w.transferLog ++ [s] }

/-- `process_accounts` -/
def processAccounts (tb : TigerBeetle) (o : CallOutcome) (w : Worker) : Worker :=
  let s : Submitted AppAccount := ⟨w.accountBuf.batch, w.accountBuf.responders, w.ledger, o⟩
  { w.answerAll s.responders (.createAccounts (accountResults tb s)) with
    ledger := s.after (serveAccounts tb)
    accountBuf := .empty
    accountLog := w.accountLog ++ [s] }

/-- `process_lookup_accounts` -/
def processLookupAccounts (o : CallOutcome) (w : Worker) : Worker :=
  let s : Submitted Nat := ⟨w.lookupAccBuf.batch, w.lookupAccBuf.responders, w.ledger, o⟩
  { w.answerAll s.responders (.accounts (lookupAccResults s)) with
    lookupAccBuf := .empty
    lookupAccLog := w.lookupAccLog ++ [s] }

/-- `process_lookup_transfers` -/
def processLookupTransfers (o : CallOutcome) (w : Worker) : Worker :=
  let s : Submitted Nat := ⟨w.lookupTxBuf.batch, w.lookupTxBuf.responders, w.ledger, o⟩
  { w.answerAll s.responders (.transfers (lookupTxResults s)) with
    lookupTxBuf := .empty
    lookupTxLog := w.lookupTxLog ++ [s] }

/-! ### The loop -/

/-- The balances `GetAccountBalances` computes from an account. -/
def balanceOf (acc : Account) : AppAccountBalance where
  accountId := acc.id
  postedBalance := subI128 (asI128 acc.creditsPosted) (asI128 acc.debitsPosted)
  pendingBalance := subI128 (asI128 acc.creditsPending) (asI128 acc.debitsPending)

/-- `client.lookup_accounts(&ids)` outside the batches. -/
def lookupDirect (l : Ledger) (ids : List Nat) (o : CallOutcome) : Except String (List Account) :=
  match o with
  | .ok => .ok (l.lookupAccounts ids)
  | .err _ e => .error e.display

/-- Buffer a transfer. -/
def pushTransfer (w : Worker) (t : AppTransfer) (r : ResponderId) : Worker :=
  { w with transferBuf := w.transferBuf.push t r }

/-- Buffer an account. -/
def pushAccount (w : Worker) (a : AppAccount) (r : ResponderId) : Worker :=
  { w with accountBuf := w.accountBuf.push a r }

/-- Buffer an account lookup. -/
def pushLookupAcc (w : Worker) (id : Nat) (r : ResponderId) : Worker :=
  { w with lookupAccBuf := w.lookupAccBuf.push id r }

/-- Buffer a transfer lookup. -/
def pushLookupTx (w : Worker) (id : Nat) (r : ResponderId) : Worker :=
  { w with lookupTxBuf := w.lookupTxBuf.push id r }

/-- The `receiver.recv()` arm: one command; `o` is how the call it may trigger
ends. -/
def handle (tb : TigerBeetle) (batchMaxSize : Nat) (cmd : TbCommand) (o : CallOutcome)
    (w : Worker) : Worker :=
  let w := { w with received := w.received ++ [cmd] }
  match cmd.request with
  | .createTransfer transfer =>
      let w := w.pushTransfer transfer cmd.responder
      if w.transferBuf.batch.length ≥ batchMaxSize then w.processTransfers tb o else w
  | .createAccount account =>
      let w := w.pushAccount account cmd.responder
      if w.accountBuf.batch.length ≥ batchMaxSize then w.processAccounts tb o else w
  | .lookupAccount id =>
      let w := w.pushLookupAcc id cmd.responder
      if w.lookupAccBuf.batch.length ≥ batchMaxSize then w.processLookupAccounts o else w
  | .lookupAccounts ids =>
      w.answerAll [cmd.responder] (.tbAccounts (lookupDirect w.ledger ids o))
  | .lookupTransfer id =>
      let w := w.pushLookupTx id cmd.responder
      if w.lookupTxBuf.batch.length ≥ batchMaxSize then w.processLookupTransfers o else w
  | .getAccountBalances ids =>
      w.answerAll [cmd.responder]
        (.balances ((lookupDirect w.ledger ids o).map (List.map balanceOf)))

/-- How the calls of one timer tick end, in flush order. -/
structure TickOutcomes where
  transfers : CallOutcome
  accounts : CallOutcome
  lookupAccounts : CallOutcome
  lookupTransfers : CallOutcome
  deriving DecidableEq, Repr

/-- All calls of a tick succeed. -/
def TickOutcomes.allOk : TickOutcomes := ⟨.ok, .ok, .ok, .ok⟩

/-- The `timer.tick()` arm: flush what is pending, regardless of size. -/
def tick (tb : TigerBeetle) (o : TickOutcomes) (w : Worker) : Worker :=
  let w := if w.transferBuf.batch.isEmpty then w else w.processTransfers tb o.transfers
  let w := if w.accountBuf.batch.isEmpty then w else w.processAccounts tb o.accounts
  let w := if w.lookupAccBuf.batch.isEmpty then w else w.processLookupAccounts o.lookupAccounts
  if w.lookupTxBuf.batch.isEmpty then w else w.processLookupTransfers o.lookupTransfers

end Worker

/-- What the loop selects on while the channel is open. -/
inductive WorkerEvent where
  | command (cmd : TbCommand) (o : CallOutcome)
  | tick (o : Worker.TickOutcomes)
  deriving DecidableEq, Repr

/-- The command received in an event. -/
def WorkerEvent.command? : WorkerEvent → Option TbCommand
  | .command cmd _ => some cmd
  | .tick _ => none

namespace Worker

/-- One turn of the loop. -/
def turn (tb : TigerBeetle) (batchMaxSize : Nat) (w : Worker) : WorkerEvent → Worker
  | .command cmd o => w.handle tb batchMaxSize cmd o
  | .tick o => w.tick tb o

/-- `start_tb_worker`: the loop over a sequence of events. -/
def run (tb : TigerBeetle) (batchMaxSize : Nat) (w : Worker) (events : List WorkerEvent) : Worker :=
  events.foldl (turn tb batchMaxSize) w

@[simp] theorem run_nil (tb : TigerBeetle) (n : Nat) (w : Worker) : w.run tb n [] = w := rfl

@[simp] theorem run_cons (tb : TigerBeetle) (n : Nat) (w : Worker) (e : WorkerEvent)
    (es : List WorkerEvent) : w.run tb n (e :: es) = (w.turn tb n e).run tb n es := rfl

theorem run_append (tb : TigerBeetle) (n : Nat) (w : Worker) (es fs : List WorkerEvent) :
    w.run tb n (es ++ fs) = (w.run tb n es).run tb n fs := by
  simp [run]

end Worker

end Wurzburg.Tb
