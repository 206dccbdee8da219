import Wurzburg.TigerBeetle.ExactlyOnce

/-!
# Wurzburg.TigerBeetle.Shutdown

What is left in the worker when its channel is closed.

The loop leaves by the `None` arm with its buffers as they are; only the timer
and the size limit flush. Nothing is lost exactly if every buffer happens to be
empty then, and how full a buffer is depends on the commands since the last tick
alone (`Worker.drained_iff`).
-/

namespace Wurzburg.Tb

/-- The kinds of commands that are buffered. -/
inductive BatchKind where
  | transfers
  | accounts
  | lookupAccounts
  | lookupTransfers
  deriving DecidableEq, Repr

/-- The buffer that a request goes to. -/
def TbRequest.batchKind? : TbRequest → Option BatchKind
  | .createTransfer _ => some .transfers
  | .createAccount _ => some .accounts
  | .lookupAccount _ => some .lookupAccounts
  | .lookupTransfer _ => some .lookupTransfers
  | .lookupAccounts _ | .getAccountBalances _ => none

/-- One more event, with this many commands of the kind since the last tick before it. -/
def BatchKind.count (k : BatchKind) (m : Nat) : WorkerEvent → Nat
  | .command cmd _ => if cmd.request.batchKind? = some k then m + 1 else m
  | .tick _ => 0

/-- How many commands of the kind have arrived since the last tick. -/
def BatchKind.sinceTick (k : BatchKind) (es : List WorkerEvent) : Nat := es.foldl k.count 0

/-- A buffer with no items has no responders either. -/
theorem KindHistory.eq_empty {α : Type} {received : List (α × ResponderId)} {buf : Buffer α}
    {log : List (Submitted α)} (h : KindHistory received buf log) (hlen : buf.batch.length = 0) :
    buf = .empty := by
  have hresp : buf.responders.length = 0 := h.buffered.symm.trans hlen
  obtain ⟨batch, responders⟩ := buf
  have hbatch : batch = [] := List.length_eq_zero_iff.mp hlen
  have hresponders : responders = [] := List.length_eq_zero_iff.mp hresp
  rw [hbatch, hresponders, Buffer.empty]

/-- With the buffer empty, what was received was submitted. -/
theorem KindHistory.submitted_of_empty {α : Type} {received : List (α × ResponderId)}
    {log : List (Submitted α)} (h : KindHistory received .empty log) {x : α × ResponderId}
    (hx : x ∈ received) : ∃ s ∈ log, x ∈ s.pairs := by
  have hall : log.flatMap Submitted.pairs = received := by
    rw [← h.complete]
    exact (List.append_nil _).symm
  rw [← hall] at hx
  exact List.mem_flatMap.mp hx

namespace Worker

variable {tb : TigerBeetle} {n : Nat} {w : Worker}

/-- How many items of the kind are buffered. -/
def buffered (w : Worker) : BatchKind → Nat
  | .transfers => w.transferBuf.batch.length
  | .accounts => w.accountBuf.batch.length
  | .lookupAccounts => w.lookupAccBuf.batch.length
  | .lookupTransfers => w.lookupTxBuf.batch.length

/-- The `None` arm: the loop ends, and the buffers and the responders in them are
dropped as they are. -/
def closed (w : Worker) : Worker := w

/-- When the loop ends, nothing that was received is lost. -/
structure Drained (w : Worker) : Prop where
  transfersSubmitted : ∀ (t : AppTransfer) (r : ResponderId),
    ⟨.createTransfer t, r⟩ ∈ w.received → ∃ s ∈ w.transferLog, (t, r) ∈ s.pairs
  accountsSubmitted : ∀ (a : AppAccount) (r : ResponderId),
    ⟨.createAccount a, r⟩ ∈ w.received → ∃ s ∈ w.accountLog, (a, r) ∈ s.pairs
  buffers : w.transferBuf = .empty ∧ w.accountBuf = .empty ∧ w.lookupAccBuf = .empty ∧
    w.lookupTxBuf = .empty
  /-- Every responder was sent as many messages as there were commands with it. -/
  answered : ∀ r : ResponderId,
    (w.received.map TbCommand.responder).count r = (w.sent r).length

/-! ### How full the buffers are -/

/-- A buffer is flushed when it reaches the limit; a limit of zero acts as one. -/
theorem flushed_length {m len : Nat} (h : len = m % max 1 n) :
    (if len + 1 ≥ n then 0 else len + 1) = (m + 1) % max 1 n := by
  have hlt : len < max 1 n := h ▸ Nat.mod_lt m (by omega)
  have hnext : (m + 1) % max 1 n = (len + 1) % max 1 n := by
    rw [h, Nat.mod_add_mod]
  rw [hnext]
  by_cases hfull : len + 1 ≥ n
  · have hlimit : len + 1 = max 1 n := by omega
    rw [if_pos hfull, hlimit, Nat.mod_self]
  · rw [if_neg hfull, Nat.mod_eq_of_lt (by omega)]

theorem buffered_handle (cmd : TbCommand) (o : CallOutcome) (k : BatchKind) :
    (w.handle tb n cmd o).buffered k =
      if cmd.request.batchKind? = some k then
        if w.buffered k + 1 ≥ n then 0 else w.buffered k + 1
      else w.buffered k := by
  obtain ⟨request, r⟩ := cmd
  cases request with
  | createTransfer t =>
      simp only [handle, pushTransfer, Buffer.push, List.length_append, List.length_singleton]
      split <;> cases k <;>
        simp_all [buffered, processTransfers, answerAll, Buffer.empty, TbRequest.batchKind?]
  | createAccount a =>
      simp only [handle, pushAccount, Buffer.push, List.length_append, List.length_singleton]
      split <;> cases k <;>
        simp_all [buffered, processAccounts, answerAll, Buffer.empty, TbRequest.batchKind?]
  | lookupAccount id =>
      simp only [handle, pushLookupAcc, Buffer.push, List.length_append, List.length_singleton]
      split <;> cases k <;>
        simp_all [buffered, processLookupAccounts, answerAll, Buffer.empty, TbRequest.batchKind?]
  | lookupTransfer id =>
      simp only [handle, pushLookupTx, Buffer.push, List.length_append, List.length_singleton]
      split <;> cases k <;>
        simp_all [buffered, processLookupTransfers, answerAll, Buffer.empty, TbRequest.batchKind?]
  | lookupAccounts ids => cases k <;> rfl
  | getAccountBalances ids => cases k <;> rfl

theorem buffered_tick (o : TickOutcomes) (k : BatchKind) : (w.tick tb o).buffered k = 0 := by
  simp only [tick]
  cases k <;> split <;> split <;> split <;> split <;>
    simp_all [buffered, processTransfers, processAccounts, processLookupAccounts,
      processLookupTransfers, answerAll, Buffer.empty]

/-- The buffers count the commands since the last tick, up to the limit. -/
theorem buffered_run (es : List WorkerEvent) {w : Worker} {m : BatchKind → Nat}
    (h : ∀ k, w.buffered k = m k % max 1 n) (k : BatchKind) :
    (w.run tb n es).buffered k = es.foldl k.count (m k) % max 1 n := by
  induction es generalizing w m with
  | nil => exact h k
  | cons e es ih =>
      refine ih (w := w.turn tb n e) (m := fun k => k.count (m k) e) (fun k => ?_)
      cases e with
      | command cmd o =>
          show (w.handle tb n cmd o).buffered k = _
          rw [buffered_handle]
          by_cases hkind : cmd.request.batchKind? = some k
          · simp only [BatchKind.count, if_pos hkind]
            exact flushed_length (h k)
          · simp only [BatchKind.count, if_neg hkind]
            exact h k
      | tick o => exact buffered_tick o k

/-! ### What is lost -/

/-- Nothing is lost exactly if nothing is buffered. -/
theorem drained_iff_buffered (hh : History w) (hc : Conserved w) :
    Drained w ↔ ∀ k, w.buffered k = 0 := by
  constructor
  · intro h k
    obtain ⟨ht, ha, hla, hlt⟩ := h.buffers
    cases k with
    | transfers => exact congrArg (fun b => b.batch.length) ht
    | accounts => exact congrArg (fun b => b.batch.length) ha
    | lookupAccounts => exact congrArg (fun b => b.batch.length) hla
    | lookupTransfers => exact congrArg (fun b => b.batch.length) hlt
  · intro h
    have ht := hh.transfers.eq_empty (h .transfers)
    have ha := hh.accounts.eq_empty (h .accounts)
    have hla := hh.lookupAccs.eq_empty (h .lookupAccounts)
    have hlt := hh.lookupTxs.eq_empty (h .lookupTransfers)
    have htransfers := hh.transfers
    have haccounts := hh.accounts
    rw [ht] at htransfers
    rw [ha] at haccounts
    refine ⟨fun t r hmem => ?_, fun a r hmem => ?_, ⟨ht, ha, hla, hlt⟩, fun r => ?_⟩
    · refine htransfers.submitted_of_empty (List.mem_filterMap.mpr ⟨_, hmem, ?_⟩)
      exact TbCommand.transfer?_eq_some.mpr rfl
    · refine haccounts.submitted_of_empty (List.mem_filterMap.mpr ⟨_, hmem, ?_⟩)
      exact TbCommand.account?_eq_some.mpr rfl
    · have hwaiting : w.waitingCount r = 0 := by
        simp [waitingCount, ht, ha, hla, hlt, Buffer.empty]
      rw [hc r, hwaiting, Nat.add_zero]

/-- **At shutdown** nothing is lost exactly if, for each kind, the commands since the last
tick fill whole batches. -/
theorem drained_iff (tb : TigerBeetle) (n : Nat) (l : Ledger) (es : List WorkerEvent) :
    Drained ((start l).run tb n es).closed ↔ ∀ k : BatchKind, k.sinceTick es % max 1 n = 0 := by
  have hh : History ((start l).run tb n es) := History.run (History.start l) es
  have hc : Conserved ((start l).run tb n es) := (Conserved.start l).run es
  have hstart : ∀ k : BatchKind, (start l).buffered k = (fun _ => 0) k % max 1 n := by
    intro k
    rw [Nat.zero_mod]
    cases k <;> rfl
  rw [closed, drained_iff_buffered hh hc]
  constructor
  · intro h k
    exact (buffered_run es hstart k).symm.trans (h k)
  · intro h k
    exact (buffered_run es hstart k).trans (h k)

/-- A transfer that waits for a second one when the channel is closed. -/
def lastTransfer : List WorkerEvent :=
  [.command ⟨.createTransfer ⟨10, 1, 2, 50, 0, 0, 0, 0, 0, 1, 1, 0, 0⟩, 0⟩ .ok]

theorem lastTransfer_lost :
    ¬ Drained ((start .empty).run .reference 2 lastTransfer).closed := by
  intro h
  have hlost : ((start .empty).run .reference 2 lastTransfer).closed.transferBuf.batch.length = 1 :=
    rfl
  rw [h.buffers.1] at hlost
  cases hlost

end Worker

end Wurzburg.Tb
