import Wurzburg.TigerBeetle.WorkerInv

/-!
# Wurzburg.TigerBeetle.OneCommand

A command that the worker serves alone. With nothing buffered, a command that
arrives is answered at once or waits in its buffer for the size limit or the
next tick; either way it comes to one and the same ledger and answer
(`Worker.Done`), those of a batch of one.
-/

namespace Wurzburg.Tb

/-- The ledger after a command served alone. -/
def TbRequest.ledgerAfter (tb : TigerBeetle) (l : Ledger) : TbRequest → Ledger
  | .createTransfer transfer => (serveTransfers tb l [transfer]).2
  | .createAccount account => (serveAccounts tb l [account]).2
  | _ => l

/-- The answer to a command served alone. -/
def TbRequest.replyTo (tb : TigerBeetle) (l : Ledger) : TbRequest → TbReply
  | .createTransfer transfer => .createTransfers (.ok (serveTransfers tb l [transfer]).1)
  | .createAccount account => .createAccounts (.ok (serveAccounts tb l [account]).1)
  | .lookupAccount id => .accounts (.ok (serveLookupAccounts l [id]).1)
  | .lookupAccounts ids => .tbAccounts (.ok (l.lookupAccounts ids))
  | .lookupTransfer id => .transfers (.ok (serveLookupTransfers l [id]).1)
  | .getAccountBalances ids => .balances (.ok ((l.lookupAccounts ids).map Worker.balanceOf))

/-- A batch of one accepted transfer. -/
theorem serveTransfers_ok {tb : TigerBeetle} {l l' : Ledger} {t : AppTransfer}
    (h : tb.createTransfer l (toTbTransfer t) = .ok l') : serveTransfers tb l [t] = ([], l') := by
  simp only [serveTransfers, List.map_cons, List.map_nil, applyBatch, h]

/-- A batch of one rejected transfer. -/
theorem serveTransfers_error {tb : TigerBeetle} {l : Ledger} {t : AppTransfer} {code : Nat}
    (h : tb.createTransfer l (toTbTransfer t) = .error code) :
    serveTransfers tb l [t] = ([fromTbTransferResult ⟨0, code⟩], l) := by
  simp only [serveTransfers, List.map_cons, List.map_nil, applyBatch, h]

namespace Worker

variable {tb : TigerBeetle} {n : Nat} {w w' : Worker} {cmd : TbCommand}

/-- Nothing is buffered. -/
structure Unladen (w : Worker) : Prop where
  transfers : w.transferBuf = .empty
  accounts : w.accountBuf = .empty
  lookupAccounts : w.lookupAccBuf = .empty
  lookupTransfers : w.lookupTxBuf = .empty

/-- The responders of everything that is buffered. -/
def waiting (w : Worker) : List ResponderId :=
  w.transferBuf.responders ++ w.accountBuf.responders ++ w.lookupAccBuf.responders ++
    w.lookupTxBuf.responders

/-- The worker has served one command. -/
structure Done (tb : TigerBeetle) (w : Worker) (cmd : TbCommand) (w' : Worker) : Prop where
  unladen : w'.Unladen
  ledger : w'.ledger = cmd.request.ledgerAfter tb w.ledger
  replies : w'.replies = w.replies ++ [(cmd.responder, cmd.request.replyTo tb w.ledger)]

/-- From one worker to a later one, only responders of `known` were buffered, and
only theirs are the transfers that were submitted. -/
structure Handles (known : ResponderId → Prop) (w w' : Worker) : Prop where
  waiting : ∀ r ∈ w'.waiting, known r
  submitted : ∃ new, w'.transferLog = w.transferLog ++ new ∧ ∀ s ∈ new, ∀ r ∈ s.responders, known r

theorem Handles.flush {w₀ : Worker} {known : ResponderId → Prop} (h : Handles known w₀ w)
    (hf : Flush tb w w') : Handles known w₀ w' := by
  obtain ⟨hwaiting, new, hlog, hnew⟩ := h
  simp only [Worker.waiting, List.mem_append] at hwaiting
  cases hf with
  | transfers o _ =>
      refine ⟨fun r hr => hwaiting r ?_,
        new ++ [⟨w.transferBuf.batch, w.transferBuf.responders, w.ledger, o⟩], ?_,
        fun s hs r hr => ?_⟩
      · simp only [Worker.waiting, processTransfers, answerAll, Buffer.empty, List.nil_append,
          List.mem_append] at hr
        tauto
      · show w.transferLog ++ _ = _
        rw [hlog, List.append_assoc]
      · rcases List.mem_append.mp hs with hs | hs
        · exact hnew s hs r hr
        · rw [List.mem_singleton.mp hs] at hr
          exact hwaiting r (Or.inl (Or.inl (Or.inl hr)))
  | _ =>
      refine ⟨fun r hr => hwaiting r ?_, new, hlog, hnew⟩
      simp only [Worker.waiting, processAccounts, processLookupAccounts, processLookupTransfers,
        answerAll, Buffer.empty, List.append_nil, List.mem_append] at hr
      tauto

/-- What a turn buffers and submits was waiting or came with the command. -/
theorem turn_handles (e : WorkerEvent) :
    Handles (fun r => r ∈ w.waiting ∨ ∃ cmd ∈ e.command?, r = cmd.responder) w
      (w.turn tb n e) := by
  refine turn_induction (fun _ _ h hf => h.flush hf) (fun cmd o he => ?_)
    ⟨fun r hr => Or.inl hr, [], by simp, by simp⟩
  subst he
  obtain ⟨request, r₀⟩ := cmd
  refine ⟨fun r hr => ?_, [], ?_, by simp⟩
  · simp only [WorkerEvent.command?, Option.mem_def, Option.some.injEq]
    cases request <;>
      simp only [Worker.arrive, Worker.waiting, pushTransfer, pushAccount, pushLookupAcc,
        pushLookupTx, answerAll, Buffer.push, List.mem_append, List.mem_singleton] at hr ⊢ <;>
      grind
  · rw [List.append_nil]
    cases request <;> rfl

theorem Unladen.waiting (h : w.Unladen) : w.waiting = [] := by
  unfold Worker.waiting
  rw [h.transfers, h.accounts, h.lookupAccounts, h.lookupTransfers]
  rfl

/-- A tick has nothing to flush. -/
theorem Unladen.tick (h : w.Unladen) (o : TickOutcomes) : w.tick tb o = w := by
  unfold Worker.tick
  rw [h.transfers]
  simp only [Buffer.empty, List.isEmpty_nil, if_true]
  rw [h.accounts]
  simp only [Buffer.empty, List.isEmpty_nil, if_true]
  rw [h.lookupAccounts]
  simp only [Buffer.empty, List.isEmpty_nil, if_true]
  rw [h.lookupTransfers]
  simp only [Buffer.empty, List.isEmpty_nil, if_true]

/-- A command is answered on arrival, or it waits. -/
theorem Unladen.arrive (h : w.Unladen) (cmd : TbCommand) :
    Done tb w cmd (w.arrive cmd .ok) ∨
      (w.arrive cmd .ok).replies = w.replies ∧ cmd.responder ∈ (w.arrive cmd .ok).waiting := by
  obtain ⟨h₁, h₂, h₃, h₄⟩ := h
  obtain ⟨request, r⟩ := cmd
  cases request with
  | lookupAccounts ids => exact Or.inl ⟨⟨h₁, h₂, h₃, h₄⟩, rfl, rfl⟩
  | getAccountBalances ids => exact Or.inl ⟨⟨h₁, h₂, h₃, h₄⟩, rfl, rfl⟩
  | createTransfer t =>
      exact Or.inr ⟨rfl, by simp [Worker.arrive, Worker.waiting, pushTransfer, Buffer.push]⟩
  | createAccount a =>
      exact Or.inr ⟨rfl, by simp [Worker.arrive, Worker.waiting, pushAccount, Buffer.push]⟩
  | lookupAccount id =>
      exact Or.inr ⟨rfl, by simp [Worker.arrive, Worker.waiting, pushLookupAcc, Buffer.push]⟩
  | lookupTransfer id =>
      exact Or.inr ⟨rfl, by simp [Worker.arrive, Worker.waiting, pushLookupTx, Buffer.push]⟩

/-- The next tick serves a command that waits. -/
theorem Unladen.tick_arrive (h : w.Unladen) (cmd : TbCommand) :
    Done tb w cmd ((w.arrive cmd .ok).tick tb .allOk) := by
  obtain ⟨h₁, h₂, h₃, h₄⟩ := h
  obtain ⟨request, r⟩ := cmd
  cases request <;>
    · constructor
      · constructor <;>
          simp [Worker.arrive, Worker.tick, pushTransfer, pushAccount, pushLookupAcc, pushLookupTx,
            answerAll, processTransfers, processAccounts, processLookupAccounts,
            processLookupTransfers, Buffer.push, Buffer.empty, h₁, h₂, h₃, h₄]
      · simp [Worker.arrive, Worker.tick, pushTransfer, pushAccount, pushLookupAcc, pushLookupTx,
          answerAll, processTransfers, processAccounts, processLookupAccounts,
          processLookupTransfers, Buffer.push, Buffer.empty, h₁, h₂, h₃, h₄,
          TbRequest.ledgerAfter, TickOutcomes.allOk, Submitted.after]
      · simp [Worker.arrive, Worker.tick, pushTransfer, pushAccount, pushLookupAcc, pushLookupTx,
          answerAll, processTransfers, processAccounts, processLookupAccounts,
          processLookupTransfers, Buffer.push, Buffer.empty, h₁, h₂, h₃, h₄,
          TbRequest.replyTo, TickOutcomes.allOk, Submitted.results, lookupDirect,
          transferResults, accountResults, lookupAccResults, lookupTxResults, Except.map]

/-- Receiving a command buffers it, and serves it when that fills the buffer. -/
theorem Unladen.handle (h : w.Unladen) (cmd : TbCommand) :
    w.handle tb n cmd .ok = w.arrive cmd .ok ∨ Done tb w cmd (w.handle tb n cmd .ok) := by
  suffices hcases : w.handle tb n cmd .ok = w.arrive cmd .ok ∨
      w.handle tb n cmd .ok = (w.arrive cmd .ok).tick tb .allOk by
    rcases hcases with hw | hw
    · exact Or.inl hw
    · rw [hw]
      exact Or.inr (h.tick_arrive cmd)
  obtain ⟨h₁, h₂, h₃, h₄⟩ := h
  obtain ⟨request, r⟩ := cmd
  cases request with
  | lookupAccounts ids => exact Or.inl rfl
  | getAccountBalances ids => exact Or.inl rfl
  | createTransfer t =>
      simp only [Worker.handle]
      split
      · right
        simp [Worker.arrive, Worker.tick, pushTransfer, answerAll, processTransfers, Buffer.push,
          Buffer.empty, h₁, h₂, h₃, h₄, TickOutcomes.allOk]
      · exact Or.inl rfl
  | createAccount a =>
      simp only [Worker.handle]
      split
      · right
        simp [Worker.arrive, Worker.tick, pushAccount, answerAll, processAccounts, Buffer.push,
          Buffer.empty, h₁, h₂, h₃, h₄, TickOutcomes.allOk]
      · exact Or.inl rfl
  | lookupAccount id =>
      simp only [Worker.handle]
      split
      · right
        simp [Worker.arrive, Worker.tick, pushLookupAcc, answerAll, processLookupAccounts,
          Buffer.push, Buffer.empty, h₁, h₂, h₃, h₄, TickOutcomes.allOk]
      · exact Or.inl rfl
  | lookupTransfer id =>
      simp only [Worker.handle]
      split
      · right
        simp [Worker.arrive, Worker.tick, pushLookupTx, answerAll, processLookupTransfers,
          Buffer.push, Buffer.empty, h₁, h₂, h₃, h₄, TickOutcomes.allOk]
      · exact Or.inl rfl

/-- An account is created by the next tick at the latest, however the call ends. -/
theorem Unladen.createAccount (h : w.Unladen) (a : AppAccount) (r : ResponderId)
    (o : CallOutcome) :
    (w.handle tb n ⟨.createAccount a, r⟩ o).tick tb ⟨o, o, o, o⟩ =
      (w.arrive ⟨.createAccount a, r⟩ o).processAccounts tb o := by
  obtain ⟨h₁, h₂, h₃, h₄⟩ := h
  have htick : ∀ v : Worker, v.Unladen → v.tick tb ⟨o, o, o, o⟩ = v := fun v hv => hv.tick _
  simp only [Worker.handle]
  split
  · refine htick _ ⟨h₁, rfl, h₃, h₄⟩
  · simp [Worker.arrive, Worker.tick, pushAccount, answerAll, processAccounts, Buffer.push,
      Buffer.empty, h₁, h₂, h₃, h₄]

end Worker

end Wurzburg.Tb
