import Wurzburg.Lib.Reorder
import Wurzburg.TigerBeetle.WorkerInv
import Mathlib.Data.Finset.Insert
import Mathlib.Data.Finset.Dedup
import Mathlib.Data.Finset.Lattice.Lemmas

/-!
# Wurzburg.TigerBeetle.Overtaking

Batching against submitting each command alone.

The worker buffers the two kinds of creations apart, so a transfer and an
account can reach the ledger in another order than they reached the worker;
within a kind the order is kept. What the ledger records is that of the order in
which the commands are handed over (`books_run`). It is that of the order of
arrival when no transfer and no creation of an account it names change places,
since all other pairs commute (`Books.submit_comm`).
-/

namespace Wurzburg.Tb

open Wurzburg.Lib

/-! ### What the ledger records -/

/-- The ledger, and the server's verdict on each item under the responder of its
command: `none` for an accepted one. -/
structure Books where
  ledger : Ledger
  verdicts : Finset (ResponderId × Option Nat)
  deriving DecidableEq

namespace Books

section Enter

variable {β : Type} (create : Ledger → β → Except Nat Ledger)

/-- Submit one item. -/
def enter (b : Books) (x : β) (r : ResponderId) : Books :=
  match create b.ledger x with
  | .ok l => ⟨l, insert (r, none) b.verdicts⟩
  | .error code => ⟨b.ledger, insert (r, some code) b.verdicts⟩

/-- Submitting items one by one is submitting them as a batch. -/
theorem foldl_enter (b : Books) (i : Nat) {xs : List β} {rs : List ResponderId}
    (hlen : xs.length = rs.length) :
    (xs.zip rs).foldl (fun b p => b.enter create p.1 p.2) b =
      ⟨(applyBatch create b.ledger i xs).2,
        b.verdicts ∪ (rs.zip (Tb.verdicts create b.ledger xs)).toFinset⟩ := by
  induction xs generalizing b i rs with
  | nil => simp [applyBatch, Tb.verdicts]
  | cons x xs ih =>
      cases rs with
      | nil => simp at hlen
      | cons r rs =>
          have hrest : xs.length = rs.length := by simpa using hlen
          rw [List.zip_cons_cons, List.foldl_cons, ih _ (i + 1) hrest, applyBatch, Tb.verdicts]
          unfold enter
          cases create b.ledger x with
          | ok l => simp [Finset.insert_union]
          | error code => simp [Finset.insert_union]

end Enter

/-- Submit the item of one command alone; commands without an item change
nothing. -/
def submit (tb : TigerBeetle) (b : Books) (cmd : TbCommand) : Books :=
  match cmd.request with
  | .createTransfer t => b.enter tb.createTransfer (toTbTransfer t) cmd.responder
  | .createAccount a => b.enter tb.createAccount (toTbAccount a) cmd.responder
  | _ => b

/-- Submit each command alone, in order. -/
def submitEach (tb : TigerBeetle) (l : Ledger) (cmds : List TbCommand) : Books :=
  cmds.foldl (submit tb) ⟨l, ∅⟩

end Books

/-- A call that reaches the server, whatever the client is told. -/
def CallOutcome.reaches : CallOutcome → Bool
  | .ok => true
  | .err applied _ => applied

/-- The creations of a turn reach the server. -/
def WorkerEvent.reaches : WorkerEvent → Bool
  | .command _ o => o.reaches
  | .tick o => o.transfers.reaches && o.accounts.reaches

/-- The command asks for a transfer, or for an account. -/
def TbCommand.isCreation (c : TbCommand) : Bool := c.transfer?.isSome || c.account?.isSome

/-- A command creates a transfer, or an account, or neither. -/
theorem TbCommand.kind_cases (cmd : TbCommand) :
    (∃ t r, cmd = ⟨.createTransfer t, r⟩) ∨ (∃ a r, cmd = ⟨.createAccount a, r⟩) ∨
      cmd.transfer? = none ∧ cmd.account? = none := by
  obtain ⟨request, r⟩ := cmd
  cases request with
  | createTransfer t => exact Or.inl ⟨t, r, rfl⟩
  | createAccount a => exact Or.inr (Or.inl ⟨a, r, rfl⟩)
  | _ => exact Or.inr (Or.inr ⟨rfl, rfl⟩)

/-- The commands a buffer of transfers was filled by. -/
def transferCommands (buf : Buffer AppTransfer) : List TbCommand :=
  buf.pairs.map (fun p => ⟨.createTransfer p.1, p.2⟩)

/-- The commands a buffer of accounts was filled by. -/
def accountCommands (buf : Buffer AppAccount) : List TbCommand :=
  buf.pairs.map (fun p => ⟨.createAccount p.1, p.2⟩)

namespace Worker

variable {tb : TigerBeetle} {n : Nat} {w : Worker}

/-- What the ledger behind the worker records. -/
def books (tb : TigerBeetle) (w : Worker) : Books where
  ledger := w.ledger
  verdicts :=
    (w.transferLog.flatMap (fun s =>
      s.responders.zip (verdicts tb.createTransfer s.before (s.items.map toTbTransfer)))).toFinset ∪
    (w.accountLog.flatMap (fun s =>
      s.responders.zip (verdicts tb.createAccount s.before (s.items.map toTbAccount)))).toFinset

/-- The creations a turn hands over, in order: a command at most fills its own
buffer, a tick flushes the transfers and then the accounts. -/
def handsOver (n : Nat) (w : Worker) : WorkerEvent → List TbCommand
  | .command ⟨.createTransfer t, r⟩ _ =>
      if (w.transferBuf.push t r).batch.length ≥ n then transferCommands (w.transferBuf.push t r)
      else []
  | .command ⟨.createAccount a, r⟩ _ =>
      if (w.accountBuf.push a r).batch.length ≥ n then accountCommands (w.accountBuf.push a r)
      else []
  | .command _ _ => []
  | .tick _ => transferCommands w.transferBuf ++ accountCommands w.accountBuf

/-- The creations a run hands over, in order. -/
def handed (tb : TigerBeetle) (n : Nat) (w : Worker) : List WorkerEvent → List TbCommand
  | [] => []
  | e :: es => w.handsOver n e ++ (w.turn tb n e).handed tb n es

/-! ### One turn -/

theorem processTransfers_books {o : CallOutcome} (ho : o.reaches = true)
    (hlen : w.transferBuf.batch.length = w.transferBuf.responders.length) :
    (w.processTransfers tb o).books tb =
      (transferCommands w.transferBuf).foldl (Books.submit tb) (w.books tb) := by
  have hfold : (transferCommands w.transferBuf).foldl (Books.submit tb) (w.books tb) =
      ((w.transferBuf.batch.map toTbTransfer).zip w.transferBuf.responders).foldl
        (fun b p => b.enter tb.createTransfer p.1 p.2) (w.books tb) := by
    rw [transferCommands, Buffer.pairs, List.foldl_map, List.zip_map_left, List.foldl_map]
    rfl
  have hafter : (w.processTransfers tb o).ledger =
      (serveTransfers tb w.ledger w.transferBuf.batch).2 := by
    cases o with
    | ok => rfl
    | err applied e =>
        obtain rfl : applied = true := ho
        rfl
  rw [hfold, Books.foldl_enter tb.createTransfer _ 0 (by simpa using hlen), books, hafter]
  simp only [books, processTransfers, answerAll, serveTransfers, List.flatMap_append,
    List.flatMap_cons, List.flatMap_nil, List.append_nil, List.toFinset_append]
  rw [Finset.union_right_comm]

theorem processAccounts_books {o : CallOutcome} (ho : o.reaches = true)
    (hlen : w.accountBuf.batch.length = w.accountBuf.responders.length) :
    (w.processAccounts tb o).books tb =
      (accountCommands w.accountBuf).foldl (Books.submit tb) (w.books tb) := by
  have hfold : (accountCommands w.accountBuf).foldl (Books.submit tb) (w.books tb) =
      ((w.accountBuf.batch.map toTbAccount).zip w.accountBuf.responders).foldl
        (fun b p => b.enter tb.createAccount p.1 p.2) (w.books tb) := by
    rw [accountCommands, Buffer.pairs, List.foldl_map, List.zip_map_left, List.foldl_map]
    rfl
  have hafter : (w.processAccounts tb o).ledger =
      (serveAccounts tb w.ledger w.accountBuf.batch).2 := by
    cases o with
    | ok => rfl
    | err applied e =>
        obtain rfl : applied = true := ho
        rfl
  rw [hfold, Books.foldl_enter tb.createAccount _ 0 (by simpa using hlen), books, hafter]
  simp only [books, processAccounts, answerAll, serveAccounts, List.flatMap_append,
    List.flatMap_cons, List.flatMap_nil, List.append_nil, List.toFinset_append]
  rw [Finset.union_assoc]

/-- A transfer fills its buffer, which is handed over, or waits. -/
theorem turn_createTransfer (w : Worker) (t : AppTransfer) (r : ResponderId) (o : CallOutcome) :
    (w.turn tb n (.command ⟨.createTransfer t, r⟩ o) =
        (w.arrive ⟨.createTransfer t, r⟩ o).processTransfers tb o ∧
      w.handsOver n (.command ⟨.createTransfer t, r⟩ o) =
        transferCommands (w.transferBuf.push t r)) ∨
    (w.turn tb n (.command ⟨.createTransfer t, r⟩ o) = w.arrive ⟨.createTransfer t, r⟩ o ∧
      w.handsOver n (.command ⟨.createTransfer t, r⟩ o) = []) := by
  by_cases hfull : (w.transferBuf.push t r).batch.length ≥ n
  · exact Or.inl ⟨if_pos hfull, if_pos hfull⟩
  · exact Or.inr ⟨if_neg hfull, if_neg hfull⟩

/-- The same for an account. -/
theorem turn_createAccount (w : Worker) (a : AppAccount) (r : ResponderId) (o : CallOutcome) :
    (w.turn tb n (.command ⟨.createAccount a, r⟩ o) =
        (w.arrive ⟨.createAccount a, r⟩ o).processAccounts tb o ∧
      w.handsOver n (.command ⟨.createAccount a, r⟩ o) = accountCommands (w.accountBuf.push a r)) ∨
    (w.turn tb n (.command ⟨.createAccount a, r⟩ o) = w.arrive ⟨.createAccount a, r⟩ o ∧
      w.handsOver n (.command ⟨.createAccount a, r⟩ o) = []) := by
  by_cases hfull : (w.accountBuf.push a r).batch.length ≥ n
  · exact Or.inl ⟨if_pos hfull, if_pos hfull⟩
  · exact Or.inr ⟨if_neg hfull, if_neg hfull⟩

/-- A lookup concerns neither the books nor the buffers of creations. -/
theorem turn_lookup (w : Worker) {cmd : TbCommand} (o : CallOutcome) (ht : cmd.transfer? = none)
    (ha : cmd.account? = none) :
    (w.turn tb n (.command cmd o)).books tb = w.books tb ∧
      (w.turn tb n (.command cmd o)).transferBuf = w.transferBuf ∧
      (w.turn tb n (.command cmd o)).accountBuf = w.accountBuf ∧
      w.handsOver n (.command cmd o) = [] := by
  obtain ⟨request, r⟩ := cmd
  cases request with
  | createTransfer t => simp [TbCommand.transfer?] at ht
  | createAccount a => simp [TbCommand.account?] at ha
  | lookupAccount id =>
      simp only [turn, handle]
      split <;> exact ⟨rfl, rfl, rfl, rfl⟩
  | lookupTransfer id =>
      simp only [turn, handle]
      split <;> exact ⟨rfl, rfl, rfl, rfl⟩
  | lookupAccounts ids => exact ⟨rfl, rfl, rfl, rfl⟩
  | getAccountBalances ids => exact ⟨rfl, rfl, rfl, rfl⟩

/-- A tick flushes the transfers, then the accounts, then the lookups. -/
theorem turn_tick (hh : History w) {o : TickOutcomes} (ho : (WorkerEvent.tick o).reaches = true) :
    (w.turn tb n (.tick o)).books tb =
        (w.handsOver n (.tick o)).foldl (Books.submit tb) (w.books tb) ∧
      (w.turn tb n (.tick o)).transferBuf.pairs = [] ∧
      (w.turn tb n (.tick o)).accountBuf.pairs = [] := by
  obtain ⟨hot, hoa⟩ := Bool.and_eq_true_iff.mp ho
  generalize hw₁ : (if w.transferBuf.batch.isEmpty then w
    else w.processTransfers tb o.transfers) = w₁
  generalize hw₂ : (if w₁.accountBuf.batch.isEmpty then w₁
    else w₁.processAccounts tb o.accounts) = w₂
  have h₁ : w₁.books tb = (transferCommands w.transferBuf).foldl (Books.submit tb) (w.books tb) ∧
      w₁.transferBuf.pairs = [] ∧ w₁.accountBuf = w.accountBuf := by
    rw [← hw₁]
    by_cases hempty : w.transferBuf.batch.isEmpty
    · have hnil : w.transferBuf.batch = [] := by simpa using hempty
      rw [if_pos hempty]
      exact ⟨by simp [transferCommands, Buffer.pairs, hnil], by simp [Buffer.pairs, hnil], rfl⟩
    · rw [if_neg hempty]
      exact ⟨processTransfers_books hot hh.transfers.buffered, rfl, rfl⟩
  have h₂ : w₂.books tb = (accountCommands w.accountBuf).foldl (Books.submit tb) (w₁.books tb) ∧
      w₂.transferBuf.pairs = [] ∧ w₂.accountBuf.pairs = [] := by
    rw [← hw₂, ← h₁.2.2]
    by_cases hempty : w₁.accountBuf.batch.isEmpty
    · have hnil : w₁.accountBuf.batch = [] := by simpa using hempty
      rw [if_pos hempty]
      exact ⟨by simp [accountCommands, Buffer.pairs, hnil], h₁.2.1, by simp [Buffer.pairs, hnil]⟩
    · rw [if_neg hempty]
      refine ⟨processAccounts_books hoa ?_, h₁.2.1, rfl⟩
      rw [h₁.2.2]
      exact hh.accounts.buffered
  have h₃ : (w.turn tb n (.tick o)).books tb = w₂.books tb ∧
      (w.turn tb n (.tick o)).transferBuf = w₂.transferBuf ∧
      (w.turn tb n (.tick o)).accountBuf = w₂.accountBuf := by
    simp only [turn, tick, hw₁, hw₂]
    split <;> split <;> exact ⟨rfl, rfl, rfl⟩
  rw [h₃.1, h₃.2.1, h₃.2.2, h₂.1, h₁.1, handsOver, List.foldl_append]
  exact ⟨rfl, h₂.2⟩

/-- What a turn records is what the commands it hands over record alone. -/
theorem turn_books (hh : History w) {e : WorkerEvent} (he : e.reaches = true) :
    (w.turn tb n e).books tb = (w.handsOver n e).foldl (Books.submit tb) (w.books tb) := by
  cases e with
  | tick o => exact (turn_tick hh he).1
  | command cmd o =>
      rcases cmd.kind_cases with ⟨t, r, rfl⟩ | ⟨a, r, rfl⟩ | ⟨ht, ha⟩
      · rcases @turn_createTransfer tb n w t r o with ⟨hturn, hover⟩ | ⟨hturn, hover⟩
        · rw [hturn, hover]
          exact processTransfers_books he (hh.arrive _ _).transfers.buffered
        · rw [hturn, hover]
          rfl
      · rcases @turn_createAccount tb n w a r o with ⟨hturn, hover⟩ | ⟨hturn, hover⟩
        · rw [hturn, hover]
          exact processAccounts_books he (hh.arrive _ _).accounts.buffered
        · rw [hturn, hover]
          rfl
      · obtain ⟨hbooks, -, -, hover⟩ := @turn_lookup tb n w cmd o ht ha
        rw [hbooks, hover]
        rfl

/-- The transfers and the accounts among the commands of a buffer of transfers. -/
theorem filterMap_transferCommands (buf : Buffer AppTransfer) :
    (transferCommands buf).filterMap TbCommand.transfer? = buf.pairs ∧
      (transferCommands buf).filterMap TbCommand.account? = [] := by
  constructor
  · rw [transferCommands, List.filterMap_map]
    exact List.filterMap_some
  · rw [transferCommands, List.filterMap_map, List.filterMap_eq_nil_iff]
    exact fun p _ => rfl

/-- The same for a buffer of accounts. -/
theorem filterMap_accountCommands (buf : Buffer AppAccount) :
    (accountCommands buf).filterMap TbCommand.transfer? = [] ∧
      (accountCommands buf).filterMap TbCommand.account? = buf.pairs := by
  constructor
  · rw [accountCommands, List.filterMap_map, List.filterMap_eq_nil_iff]
    exact fun p _ => rfl
  · rw [accountCommands, List.filterMap_map]
    exact List.filterMap_some

/-- A turn hands over from the front of each buffer, and keeps the rest. -/
theorem turn_kinds (hh : History w) {e : WorkerEvent} (he : e.reaches = true) :
    (w.handsOver n e).filterMap TbCommand.transfer? ++ (w.turn tb n e).transferBuf.pairs =
      w.transferBuf.pairs ++ e.command?.toList.filterMap TbCommand.transfer? ∧
    (w.handsOver n e).filterMap TbCommand.account? ++ (w.turn tb n e).accountBuf.pairs =
      w.accountBuf.pairs ++ e.command?.toList.filterMap TbCommand.account? := by
  cases e with
  | tick o =>
      obtain ⟨-, ht, ha⟩ := @turn_tick tb n w hh o he
      obtain ⟨h₁, h₂⟩ := filterMap_transferCommands w.transferBuf
      obtain ⟨h₃, h₄⟩ := filterMap_accountCommands w.accountBuf
      simp only [handsOver, List.filterMap_append, h₁, h₂, h₃, h₄, ht, ha, WorkerEvent.command?,
        Option.toList_none, List.filterMap_nil, List.append_nil, List.nil_append, and_self]
  | command cmd o =>
      rcases cmd.kind_cases with ⟨t, r, rfl⟩ | ⟨a, r, rfl⟩ | ⟨ht, ha⟩
      · have hpush : (w.transferBuf.push t r).pairs = w.transferBuf.pairs ++ [(t, r)] := by
          simp [Buffer.push, Buffer.pairs, List.zip_append hh.transfers.buffered]
        rcases @turn_createTransfer tb n w t r o with ⟨hturn, hover⟩ | ⟨hturn, hover⟩
        · obtain ⟨h₁, h₂⟩ := filterMap_transferCommands (w.transferBuf.push t r)
          rw [hturn, hover, h₁, h₂, hpush]
          exact ⟨List.append_nil _, (List.append_nil _).symm⟩
        · rw [hturn, hover]
          exact ⟨hpush, (List.append_nil _).symm⟩
      · have hpush : (w.accountBuf.push a r).pairs = w.accountBuf.pairs ++ [(a, r)] := by
          simp [Buffer.push, Buffer.pairs, List.zip_append hh.accounts.buffered]
        rcases @turn_createAccount tb n w a r o with ⟨hturn, hover⟩ | ⟨hturn, hover⟩
        · obtain ⟨h₁, h₂⟩ := filterMap_accountCommands (w.accountBuf.push a r)
          rw [hturn, hover, h₁, h₂, hpush]
          exact ⟨(List.append_nil _).symm, List.append_nil _⟩
        · rw [hturn, hover]
          exact ⟨(List.append_nil _).symm, hpush⟩
      · obtain ⟨-, hbt, hba, hover⟩ := @turn_lookup tb n w cmd o ht ha
        rw [hbt, hba, hover]
        simp [WorkerEvent.command?, ht, ha]

/-! ### A run -/

/-- What a run records is what the commands it hands over record, each
submitted alone. -/
theorem books_run (hh : History w) {es : List WorkerEvent} (he : ∀ e ∈ es, e.reaches = true) :
    (w.run tb n es).books tb = (w.handed tb n es).foldl (Books.submit tb) (w.books tb) := by
  induction es generalizing w with
  | nil => rfl
  | cons e es ih =>
      have hh' : History (w.turn tb n e) := hh.run [e]
      rw [run_cons, ih hh' (fun e' he' => he e' (List.mem_cons_of_mem e he')),
        turn_books hh (he e (List.mem_cons_self ..)), handed, List.foldl_append]

/-- Within a kind, the order of handing over is that of arrival. -/
theorem kinds_run (hh : History w) {es : List WorkerEvent} (he : ∀ e ∈ es, e.reaches = true) :
    (w.handed tb n es).filterMap TbCommand.transfer? ++ (w.run tb n es).transferBuf.pairs =
      w.transferBuf.pairs ++ (es.filterMap WorkerEvent.command?).filterMap TbCommand.transfer? ∧
    (w.handed tb n es).filterMap TbCommand.account? ++ (w.run tb n es).accountBuf.pairs =
      w.accountBuf.pairs ++ (es.filterMap WorkerEvent.command?).filterMap TbCommand.account? := by
  induction es generalizing w with
  | nil => simp [handed]
  | cons e es ih =>
      have hh' : History (w.turn tb n e) := hh.run [e]
      obtain ⟨ht, ha⟩ := @turn_kinds tb n w hh e (he e (List.mem_cons_self ..))
      obtain ⟨ht', ha'⟩ := ih hh' (fun e' he' => he e' (List.mem_cons_of_mem e he'))
      have hsplit : (e :: es).filterMap WorkerEvent.command? =
          e.command?.toList ++ es.filterMap WorkerEvent.command? := by
        cases e <;> rfl
      rw [hsplit, handed, run_cons, List.filterMap_append, List.filterMap_append,
        List.filterMap_append, List.filterMap_append]
      refine ⟨?_, ?_⟩
      · rw [List.append_assoc, ht', ← List.append_assoc, ht, List.append_assoc]
      · rw [List.append_assoc, ha', ← List.append_assoc, ha, List.append_assoc]

/-- Nothing but creations is handed over. -/
theorem mem_handed {w : Worker} {es : List WorkerEvent} {c : TbCommand}
    (hc : c ∈ w.handed tb n es) : c.isCreation = true := by
  have htransfers : ∀ buf, c ∈ transferCommands buf → c.isCreation = true := by
    intro buf hc
    obtain ⟨p, -, rfl⟩ := List.mem_map.mp hc
    rfl
  have haccounts : ∀ buf, c ∈ accountCommands buf → c.isCreation = true := by
    intro buf hc
    obtain ⟨p, -, rfl⟩ := List.mem_map.mp hc
    rfl
  induction es generalizing w with
  | nil => simp [handed] at hc
  | cons e es ih =>
      rcases List.mem_append.mp hc with hc | hc
      · unfold handsOver at hc
        split at hc
        · split at hc
          · exact htransfers _ hc
          · simp at hc
        · split at hc
          · exact haccounts _ hc
          · simp at hc
        · simp at hc
        · rcases List.mem_append.mp hc with hc | hc
          · exact htransfers _ hc
          · exact haccounts _ hc
      · exact ih hc

end Worker

/-! ### Creations in two orders -/

/-- The creations a run receives, in order of arrival. -/
def created (es : List WorkerEvent) : List TbCommand :=
  (es.filterMap WorkerEvent.command?).filter TbCommand.isCreation

/-- The transfers among some commands determine the commands that ask for them. -/
theorem filter_transfer (u : List TbCommand) :
    (u.filterMap TbCommand.transfer?).map (fun p => ⟨.createTransfer p.1, p.2⟩) =
      u.filter (fun c => c.transfer?.isSome) := by
  induction u with
  | nil => rfl
  | cons c u ih =>
      cases hc : c.transfer? with
      | none => simp [hc, ih]
      | some p =>
          obtain rfl := TbCommand.transfer?_eq_some.mp hc
          simp [hc, ih]

/-- The same for the accounts. -/
theorem filter_account (u : List TbCommand) :
    (u.filterMap TbCommand.account?).map (fun p => ⟨.createAccount p.1, p.2⟩) =
      u.filter (fun c => c.account?.isSome) := by
  induction u with
  | nil => rfl
  | cons c u ih =>
      cases hc : c.account? with
      | none => simp [hc, ih]
      | some p =>
          obtain rfl := TbCommand.account?_eq_some.mp hc
          simp [hc, ih]

/-- Two lists of creations with the same transfers and the same accounts, each
in the same order. -/
structure SameKinds (u v : List TbCommand) : Prop where
  left : ∀ c ∈ u, c.isCreation = true
  right : ∀ c ∈ v, c.isCreation = true
  transfers : u.filter (fun c => c.transfer?.isSome) = v.filter (fun c => c.transfer?.isSome)
  accounts : u.filter (fun c => c.account?.isSome) = v.filter (fun c => c.account?.isSome)

namespace SameKinds

variable {u v : List TbCommand}

theorem perm (h : SameKinds u v) : u.Perm v := by
  have hrest : ∀ w : List TbCommand, (∀ c ∈ w, c.isCreation = true) →
      w.filter (fun c => !c.transfer?.isSome) = w.filter (fun c => c.account?.isSome) := by
    intro w hw
    refine List.filter_congr (fun c hc => ?_)
    have hcre := hw c hc
    rcases c.kind_cases with ⟨t, r, rfl⟩ | ⟨a, r, rfl⟩ | ⟨ht, ha⟩
    · rfl
    · rfl
    · simp [TbCommand.isCreation, ht, ha] at hcre
  have hu := List.filter_append_perm (fun c : TbCommand => c.transfer?.isSome) u
  have hv := List.filter_append_perm (fun c : TbCommand => c.transfer?.isSome) v
  rw [hrest u h.left, h.transfers, h.accounts] at hu
  rw [hrest v h.right] at hv
  exact hu.symm.trans hv

/-- Two commands of one kind come in the same order. -/
theorem before (h : SameKinds u v) {x y : TbCommand} (hxy : Before u x y)
    (hkind : x.transfer?.isSome ∧ y.transfer?.isSome ∨ x.account?.isSome ∧ y.account?.isSome) :
    Before v x y := by
  have hfilter : ∀ p : TbCommand → Bool, u.filter p = v.filter p → p x → p y → Before v x y := by
    intro p hp hx hy
    have hsub := List.Sublist.filter p hxy
    rw [List.filter_cons_of_pos hx, List.filter_cons_of_pos hy, List.filter_nil, hp] at hsub
    exact hsub.trans List.filter_sublist
  rcases hkind with ⟨hx, hy⟩ | ⟨hx, hy⟩
  · exact hfilter _ h.transfers hx hy
  · exact hfilter _ h.accounts hx hy

end SameKinds

/-! ### Creations that commute -/

/-- The transfer does not name the account, and neither carries the flag of
imported items, whose timestamps must come in order. -/
def Account.apart (a : Account) (t : Transfer) : Bool :=
  a.id ≠ t.debitAccountId && a.id ≠ t.creditAccountId && !a.flags.testBit 4 && !t.flags.testBit 8

/-- The documented behaviour of the server on an account and a transfer that
does not name it: the verdict on either does not depend on the other. -/
structure TigerBeetle.Local (tb : TigerBeetle) : Prop where
  transfer : ∀ {l a t}, l.account? a.id = none → a.apart t = true →
    tb.createTransfer (l.addAccount a) t = (tb.createTransfer l t).map (fun l' => l'.addAccount a)
  account : ∀ {l l' a t}, a.apart t = true → tb.createTransfer l t = .ok l' →
    tb.createAccount l' a = (tb.createAccount l a).map (fun _ => l'.addAccount a)

/-- The order of two commands can matter: one creates an account, the other a
transfer that names it. -/
def TbCommand.interferes (c d : TbCommand) : Bool :=
  match c.request, d.request with
  | .createAccount a, .createTransfer t => !(toTbAccount a).apart (toTbTransfer t)
  | .createTransfer t, .createAccount a => !(toTbAccount a).apart (toTbTransfer t)
  | _, _ => false

namespace Books

variable {tb : TigerBeetle}

/-- An account and a transfer that does not name it can be submitted in either
order. -/
theorem submit_comm (htb : tb.Local) {a : AppAccount} {t : AppTransfer} {r r' : ResponderId}
    (hapart : (toTbAccount a).apart (toTbTransfer t) = true) (b : Books) :
    (b.submit tb ⟨.createAccount a, r⟩).submit tb ⟨.createTransfer t, r'⟩ =
      (b.submit tb ⟨.createTransfer t, r'⟩).submit tb ⟨.createAccount a, r⟩ := by
  simp only [submit, enter]
  cases ha : tb.createAccount b.ledger (toTbAccount a) with
  | ok la =>
      obtain ⟨rfl, hfree⟩ := tb.createAccount_ok ha
      have htransfer := htb.transfer hfree hapart
      cases ht : tb.createTransfer b.ledger (toTbTransfer t) with
      | ok lt =>
          have haccount := htb.account hapart ht
          rw [ht] at htransfer
          rw [ha] at haccount
          simp only [htransfer, haccount, Except.map, Finset.insert_comm]
      | error code =>
          rw [ht] at htransfer
          simp only [htransfer, ha, Except.map, Finset.insert_comm]
  | error code =>
      cases ht : tb.createTransfer b.ledger (toTbTransfer t) with
      | ok lt =>
          have haccount := htb.account hapart ht
          rw [ha] at haccount
          simp only [haccount, Except.map, Finset.insert_comm]
      | error code' => simp only [ha, Finset.insert_comm]

end Books

/-- Two creations of different kinds that do not interfere. -/
theorem TbCommand.apart_or (c d : TbCommand) (hc : c.isCreation = true) (hd : d.isCreation = true)
    (hi : c.interferes d = false) :
    (c.transfer?.isSome ∧ d.transfer?.isSome ∨ c.account?.isSome ∧ d.account?.isSome) ∨
    (∃ a t r r', (toTbAccount a).apart (toTbTransfer t) = true ∧
      (c = ⟨.createAccount a, r⟩ ∧ d = ⟨.createTransfer t, r'⟩ ∨
        c = ⟨.createTransfer t, r'⟩ ∧ d = ⟨.createAccount a, r⟩)) := by
  rcases c.kind_cases with ⟨t, r, rfl⟩ | ⟨a, r, rfl⟩ | ⟨ht, ha⟩
  · rcases d.kind_cases with ⟨u, r', rfl⟩ | ⟨a, r', rfl⟩ | ⟨ht, ha⟩
    · exact Or.inl (Or.inl ⟨rfl, rfl⟩)
    · exact Or.inr ⟨a, t, r', r, by simpa [interferes] using hi, Or.inr ⟨rfl, rfl⟩⟩
    · simp [isCreation, ht, ha] at hd
  · rcases d.kind_cases with ⟨u, r', rfl⟩ | ⟨b, r', rfl⟩ | ⟨ht, ha⟩
    · exact Or.inr ⟨a, u, r, r', by simpa [interferes] using hi, Or.inl ⟨rfl, rfl⟩⟩
    · exact Or.inl (Or.inr ⟨rfl, rfl⟩)
    · simp [isCreation, ht, ha] at hd
  · simp [isCreation, ht, ha] at hc

/-- What a run received and what it handed over, once the buffers are empty. -/
theorem sameKinds_run {tb : TigerBeetle} {n : Nat} {l : Ledger} {es : List WorkerEvent}
    (he : ∀ e ∈ es, e.reaches = true)
    (hflushed : ((Worker.start l).run tb n es).transferBuf.batch = [] ∧
      ((Worker.start l).run tb n es).accountBuf.batch = []) :
    SameKinds (created es) ((Worker.start l).handed tb n es) := by
  obtain ⟨ht, ha⟩ := @Worker.kinds_run tb n (Worker.start l) (.start l) es he
  rw [Buffer.pairs, hflushed.1, List.zip_nil_left, List.append_nil] at ht
  rw [Buffer.pairs, hflushed.2, List.zip_nil_left, List.append_nil] at ha
  have hcreated : ∀ p : TbCommand → Bool, (∀ c, p c = true → c.isCreation = true) →
      (created es).filter p = (es.filterMap WorkerEvent.command?).filter p := by
    intro p hp
    rw [created, List.filter_filter]
    refine List.filter_congr (fun c _ => ?_)
    cases hpc : p c with
    | true => simp [hp c hpc]
    | false => rfl
  refine ⟨fun c hc => (List.mem_filter.mp hc).2, ?_, ?_, ?_⟩
  · exact fun c hc => Worker.mem_handed hc
  · rw [hcreated _ (fun c hc => by simp [TbCommand.isCreation, hc]), ← filter_transfer,
      ← filter_transfer, ht]
    rfl
  · rw [hcreated _ (fun c hc => by simp [TbCommand.isCreation, hc]), ← filter_account,
      ← filter_account, ha]
    rfl

/-- **Batching.** Over every sequence of commands, each with its own response
channel, and ticks, for every size limit, when the creations reach the server
and the buffers are empty at the end: the worker hands over what it received,
each kind in the order of arrival; the ledger records what it would if each
command had been submitted alone in the order of handing over; and that is what
it would record in the order of arrival, if no account changed places with a
transfer that names it. -/
theorem batching_books {tb : TigerBeetle} (htb : tb.Local) (n : Nat) (l : Ledger)
    (es : List WorkerEvent)
    (hd : ((es.filterMap WorkerEvent.command?).map TbCommand.responder).Nodup)
    (he : ∀ e ∈ es, e.reaches = true)
    (hflushed : ((Worker.start l).run tb n es).transferBuf.batch = [] ∧
      ((Worker.start l).run tb n es).accountBuf.batch = []) :
    SameKinds (created es) ((Worker.start l).handed tb n es) ∧
    ((Worker.start l).run tb n es).books tb =
      Books.submitEach tb l ((Worker.start l).handed tb n es) ∧
    ((∀ c d, c.interferes d = true → Before (created es) c d →
        Before ((Worker.start l).handed tb n es) c d) →
      ((Worker.start l).run tb n es).books tb = Books.submitEach tb l (created es)) := by
  have hkinds : SameKinds (created es) ((Worker.start l).handed tb n es) := sameKinds_run he hflushed
  have hbooks : ((Worker.start l).run tb n es).books tb =
      Books.submitEach tb l ((Worker.start l).handed tb n es) :=
    Worker.books_run (.start l) he
  refine ⟨hkinds, hbooks, fun horder => ?_⟩
  rw [hbooks, Books.submitEach, Books.submitEach]
  have hnd : (created es).Nodup := List.Nodup.filter _ (List.Nodup.of_map _ hd)
  refine (foldl_reorder hkinds.perm hnd (fun c d hcd => ?_) _).symm
  cases hi : c.interferes d with
  | true => exact Or.inl (horder c d hi hcd)
  | false =>
      rcases c.apart_or d (hkinds.left c hcd.mem_left) (hkinds.left d hcd.mem_right) hi with
        hkind | ⟨a, t, r, r', hapart, ⟨rfl, rfl⟩ | ⟨rfl, rfl⟩⟩
      · exact Or.inl (hkinds.before hcd hkind)
      · exact Or.inr (fun b => (Books.submit_comm htb hapart b).symm)
      · exact Or.inr (fun b => Books.submit_comm htb hapart b)

/-! ### The concrete server -/

/-- The concrete server looks at the accounts a transfer names, and at no
transfer when it creates an account. -/
theorem TigerBeetle.reference_local : TigerBeetle.reference.Local where
  transfer := by
    intro l a t hfree hapart
    simp only [Account.apart, Bool.and_eq_true, decide_eq_true_eq] at hapart
    obtain ⟨⟨⟨hd, hc⟩, -⟩, -⟩ := hapart
    have hfind : ∀ id, a.id ≠ id → (l.addAccount a).account? id = l.account? id := by
      intro id hid
      simp [Ledger.account?, hid]
    have hchecks : transferChecks (l.addAccount a) t = transferChecks l t := by
      simp only [transferChecks, exceedsCredits, hfind _ hd, hfind _ hc]
      rfl
    have hpost : (l.addAccount a).post t = (l.post t).addAccount a := by
      simp [Ledger.post, Ledger.addAccount, Account.post, hd, hc]
    simp only [TigerBeetle.reference, hchecks, hpost]
    split <;> rfl
  account := by
    intro l l' a t _ hx
    have hl' : l' = l.post t := by
      simp only [TigerBeetle.reference] at hx
      split at hx
      · simp at hx
      · exact (Except.ok.inj hx).symm
    have hchecks : accountChecks (l.post t) a = accountChecks l a := by
      simp [accountChecks, Ledger.post_account?]
    simp only [TigerBeetle.reference, hl', hchecks]
    split <;> rfl

/-- A ledger with a provider account 1 and a user account 2. -/
def openLedger : Ledger :=
  ⟨[⟨1, 0, 0, 0, 0, 0, 0, 0, 1, 100, 0, 0⟩, ⟨2, 0, 0, 0, 0, 0, 0, 0, 1, 200, 2, 0⟩], []⟩

/-- Account 3 is created, then `cr` is credited, and both wait for the tick. -/
def createThenCredit (cr : Nat) : List WorkerEvent :=
  [.command ⟨.createAccount ⟨3, 0, 0, 0, 0, 0, 0, 0, 0, 1, 200, 2, 0⟩, 0⟩ .ok,
   .command ⟨.createTransfer ⟨10, 1, cr, 50, 0, 0, 0, 0, 0, 1, 1, 0, 0⟩, 1⟩ .ok, .tick .allOk]

/-- The credit of account 2 overtakes the creation of account 3, to no effect. -/
theorem batching_books_createThenCredit :
    ((Worker.start openLedger).run .reference 8 (createThenCredit 2)).books .reference =
      Books.submitEach .reference openLedger (created (createThenCredit 2)) := by
  have hcalm : ∀ c ∈ created (createThenCredit 2), ∀ d ∈ created (createThenCredit 2),
      c.interferes d = false := by
    decide
  refine (batching_books TigerBeetle.reference_local 8 openLedger (createThenCredit 2) (by decide)
    (by decide) (by decide)).2.2 (fun c d hi hcd => ?_)
  rw [hcalm c hcd.mem_left d hcd.mem_right] at hi
  exact absurd hi (by simp)

/-- The credit of account 3 overtakes the creation of account 3, and is
rejected; submitted alone, in the order received, both are accepted. -/
theorem createThenCredit_overtakes :
    ¬ ∀ (n : Nat) (es : List WorkerEvent), 1 ≤ n → (∀ e ∈ es, e.reaches = true) →
      ((es.filterMap WorkerEvent.command?).map TbCommand.responder).Nodup →
      ((Worker.start openLedger).run .reference n es).transferBuf.batch = [] →
      ((Worker.start openLedger).run .reference n es).accountBuf.batch = [] →
      ((Worker.start openLedger).run .reference n es).books .reference =
        Books.submitEach .reference openLedger (created es) := by
  intro h
  have hbooks := h 8 (createThenCredit 3) (by decide) (by decide) (by decide) (by decide) (by decide)
  have hledger := congrArg (fun b => b.ledger.transfers.length) hbooks
  have hne : ¬ ((Worker.start openLedger).run .reference 8 (createThenCredit 3)).ledger.transfers.length =
      (Books.submitEach .reference openLedger (created (createThenCredit 3))).ledger.transfers.length := by
    decide
  exact hne hledger

end Wurzburg.Tb
