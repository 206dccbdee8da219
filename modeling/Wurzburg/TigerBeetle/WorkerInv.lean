import Wurzburg.TigerBeetle.Worker
import Mathlib.Data.List.Nodup
import Mathlib.Data.List.Pairwise

/-!
# Wurzburg.TigerBeetle.WorkerInv

Invariants of the worker loop.

A turn of the loop is an arrival (the command is buffered, or answered at once)
followed by flushes of non-empty buffers; `turn_induction` says so once, and
every invariant below is a statement about arrivals and about one flush. The
invariants are:

* `History`: for each kind, the batches submitted so far followed by the buffer
  are exactly the items received, each still next to its own responder;
* `Answers`: the messages sent are exactly the answers of the submitted batches,
  one and the same list for every responder of a batch, plus the direct answers.
-/

namespace Wurzburg.Tb

namespace Worker

variable {tb : TigerBeetle} {n : Nat}

/-! ### One turn, taken apart -/

/-- What a command does before any flush: it is buffered, or answered at once. -/
def arrive (cmd : TbCommand) (o : CallOutcome) (w : Worker) : Worker :=
  let w := { w with received := w.received ++ [cmd] }
  match cmd.request with
  | .createTransfer transfer => w.pushTransfer transfer cmd.responder
  | .createAccount account => w.pushAccount account cmd.responder
  | .lookupAccount id => w.pushLookupAcc id cmd.responder
  | .lookupAccounts ids =>
      w.answerAll [cmd.responder] (.tbAccounts (lookupDirect w.ledger ids o))
  | .lookupTransfer id => w.pushLookupTx id cmd.responder
  | .getAccountBalances ids =>
      w.answerAll [cmd.responder]
        (.balances ((lookupDirect w.ledger ids o).map (List.map balanceOf)))

/-- One flush of a non-empty buffer. -/
inductive Flush (tb : TigerBeetle) (w : Worker) : Worker → Prop
  | transfers (o : CallOutcome) :
      w.transferBuf.batch ≠ [] → Flush tb w (w.processTransfers tb o)
  | accounts (o : CallOutcome) :
      w.accountBuf.batch ≠ [] → Flush tb w (w.processAccounts tb o)
  | lookupAccounts (o : CallOutcome) :
      w.lookupAccBuf.batch ≠ [] → Flush tb w (w.processLookupAccounts o)
  | lookupTransfers (o : CallOutcome) :
      w.lookupTxBuf.batch ≠ [] → Flush tb w (w.processLookupTransfers o)

/-- A command arrives, and then at most one buffer is flushed. -/
theorem handle_cases (cmd : TbCommand) (o : CallOutcome) (w : Worker) :
    w.handle tb n cmd o = w.arrive cmd o ∨ Flush tb (w.arrive cmd o) (w.handle tb n cmd o) := by
  obtain ⟨request, r⟩ := cmd
  cases request with
  | createTransfer t =>
      simp only [handle, arrive]
      split
      · exact Or.inr (.transfers o (by simp [pushTransfer, Buffer.push]))
      · exact Or.inl rfl
  | createAccount a =>
      simp only [handle, arrive]
      split
      · exact Or.inr (.accounts o (by simp [pushAccount, Buffer.push]))
      · exact Or.inl rfl
  | lookupAccount id =>
      simp only [handle, arrive]
      split
      · exact Or.inr (.lookupAccounts o (by simp [pushLookupAcc, Buffer.push]))
      · exact Or.inl rfl
  | lookupTransfer id =>
      simp only [handle, arrive]
      split
      · exact Or.inr (.lookupTransfers o (by simp [pushLookupTx, Buffer.push]))
      · exact Or.inl rfl
  | lookupAccounts ids => exact Or.inl rfl
  | getAccountBalances ids => exact Or.inl rfl

/-- What arrivals and flushes keep, a tick keeps. -/
theorem tick_induction {motive : Worker → Prop}
    (flush : ∀ w w', motive w → Flush tb w w' → motive w') {o : TickOutcomes} {w : Worker}
    (hw : motive w) : motive (w.tick tb o) := by
  have h₁ : motive (if w.transferBuf.batch.isEmpty then w else w.processTransfers tb o.transfers) := by
    split
    · exact hw
    · next h => exact flush _ _ hw (.transfers _ (by simpa using h))
  have h₂ : ∀ w, motive w →
      motive (if w.accountBuf.batch.isEmpty then w else w.processAccounts tb o.accounts) := by
    intro w hw
    split
    · exact hw
    · next h => exact flush _ _ hw (.accounts _ (by simpa using h))
  have h₃ : ∀ w, motive w → motive (if w.lookupAccBuf.batch.isEmpty then w
      else w.processLookupAccounts o.lookupAccounts) := by
    intro w hw
    split
    · exact hw
    · next h => exact flush _ _ hw (.lookupAccounts _ (by simpa using h))
  have h₄ : ∀ w, motive w → motive (if w.lookupTxBuf.batch.isEmpty then w
      else w.processLookupTransfers o.lookupTransfers) := by
    intro w hw
    split
    · exact hw
    · next h => exact flush _ _ hw (.lookupTransfers _ (by simpa using h))
  exact h₄ _ (h₃ _ (h₂ _ h₁))

/-- What arrivals and flushes keep, a turn of the loop keeps. -/
theorem turn_induction {motive : Worker → Prop}
    (flush : ∀ w w', motive w → Flush tb w w' → motive w') {w : Worker} {e : WorkerEvent}
    (arrival : ∀ cmd o, e = .command cmd o → motive (w.arrive cmd o)) (hw : motive w) :
    motive (w.turn tb n e) := by
  cases e with
  | command cmd o =>
      have harr := arrival cmd o rfl
      rcases @handle_cases tb n cmd o w with h | h
      · simpa only [turn, h] using harr
      · exact flush _ _ harr h
  | tick o => exact tick_induction flush hw

/-- What arrivals and flushes keep, the loop keeps. -/
theorem run_induction {motive : Worker → Prop}
    (flush : ∀ w w', motive w → Flush tb w w' → motive w')
    (arrival : ∀ w cmd o, motive w → motive (w.arrive cmd o))
    {es : List WorkerEvent} {w : Worker} (hw : motive w) : motive (w.run tb n es) := by
  induction es generalizing w with
  | nil => exact hw
  | cons e es ih => exact ih (turn_induction flush (fun cmd o _ => arrival w cmd o hw) hw)

end Worker

/-! ### History -/

namespace TbCommand

/-- The transfer a command asks to create, with the responder. -/
def transfer? (c : TbCommand) : Option (AppTransfer × ResponderId) :=
  match c.request with
  | .createTransfer t => some (t, c.responder)
  | _ => none

/-- The account a command asks to create, with the responder. -/
def account? (c : TbCommand) : Option (AppAccount × ResponderId) :=
  match c.request with
  | .createAccount a => some (a, c.responder)
  | _ => none

/-- The account a command looks up through the batch, with the responder. -/
def lookupAcc? (c : TbCommand) : Option (Nat × ResponderId) :=
  match c.request with
  | .lookupAccount id => some (id, c.responder)
  | _ => none

/-- The transfer a command looks up through the batch, with the responder. -/
def lookupTx? (c : TbCommand) : Option (Nat × ResponderId) :=
  match c.request with
  | .lookupTransfer id => some (id, c.responder)
  | _ => none

theorem transfer?_eq_some {c : TbCommand} {t : AppTransfer} {r : ResponderId} :
    c.transfer? = some (t, r) ↔ c = ⟨.createTransfer t, r⟩ := by
  obtain ⟨req, r'⟩ := c
  cases req <;> simp [transfer?]

theorem account?_eq_some {c : TbCommand} {a : AppAccount} {r : ResponderId} :
    c.account? = some (a, r) ↔ c = ⟨.createAccount a, r⟩ := by
  obtain ⟨req, r'⟩ := c
  cases req <;> simp [account?]

theorem lookupAcc?_eq_some {c : TbCommand} {id : Nat} {r : ResponderId} :
    c.lookupAcc? = some (id, r) ↔ c = ⟨.lookupAccount id, r⟩ := by
  obtain ⟨req, r'⟩ := c
  cases req <;> simp [lookupAcc?]

theorem lookupTx?_eq_some {c : TbCommand} {id : Nat} {r : ResponderId} :
    c.lookupTx? = some (id, r) ↔ c = ⟨.lookupTransfer id, r⟩ := by
  obtain ⟨req, r'⟩ := c
  cases req <;> simp [lookupTx?]

end TbCommand

/-- For one kind of item: the batches submitted so far followed by the buffer
are exactly the items received, each next to its own responder. -/
structure KindHistory {α : Type} (received : List (α × ResponderId)) (buf : Buffer α)
    (log : List (Submitted α)) : Prop where
  buffered : buf.batch.length = buf.responders.length
  submitted : ∀ s ∈ log, s.items.length = s.responders.length
  complete : log.flatMap Submitted.pairs ++ buf.pairs = received

namespace KindHistory

variable {α : Type} {received : List (α × ResponderId)} {buf : Buffer α} {log : List (Submitted α)}

theorem push (h : KindHistory received buf log) (x : α) (r : ResponderId) :
    KindHistory (received ++ [(x, r)]) (buf.push x r) log where
  buffered := by simp [Buffer.push, h.buffered]
  submitted := h.submitted
  complete := by
    rw [← h.complete]
    simp [Buffer.push, Buffer.pairs, List.zip_append h.buffered]

theorem flush (h : KindHistory received buf log) (l : Ledger) (o : CallOutcome) :
    KindHistory received .empty (log ++ [⟨buf.batch, buf.responders, l, o⟩]) where
  buffered := rfl
  submitted := by
    intro s hs
    rcases List.mem_append.mp hs with hs | hs
    · exact h.submitted s hs
    · obtain rfl := List.mem_singleton.mp hs
      exact h.buffered
  complete := by
    rw [← h.complete]
    simp [Buffer.empty, Buffer.pairs, Submitted.pairs]

/-- An item of a submitted batch was received together with the responder at
its position. -/
theorem mem_received (h : KindHistory received buf log) {s : Submitted α} (hs : s ∈ log)
    {i : Nat} {x : α} {r : ResponderId} (hx : s.items[i]? = some x)
    (hr : s.responders[i]? = some r) : (x, r) ∈ received := by
  rw [← h.complete]
  refine List.mem_append_left _ (List.mem_flatMap.mpr ⟨s, hs, ?_⟩)
  exact List.mem_of_getElem? (i := i) (by simp [Submitted.pairs, List.getElem?_zip_eq_some, hx, hr])

/-- An item in the buffer was received. -/
theorem mem_received_of_buffered (h : KindHistory received buf log) {x : α} (hx : x ∈ buf.batch) :
    ∃ r, (x, r) ∈ received := by
  obtain ⟨i, hi⟩ := List.getElem?_of_mem hx
  have hlt : i < buf.responders.length := by
    have := (List.getElem?_eq_some_iff.mp hi).1
    have := h.buffered
    omega
  refine ⟨buf.responders[i], ?_⟩
  rw [← h.complete]
  refine List.mem_append_right _ (List.mem_of_getElem? (i := i) ?_)
  rw [Buffer.pairs, List.getElem?_zip_eq_some]
  exact ⟨hi, List.getElem?_eq_getElem hlt⟩

/-- Every responder of a submitted batch waits for the item at its position. -/
theorem exists_item (h : KindHistory received buf log) {s : Submitted α} (hs : s ∈ log)
    {i : Nat} {r : ResponderId} (hr : s.responders[i]? = some r) : ∃ x, s.items[i]? = some x := by
  have hlen := h.submitted s hs
  have hi : i < s.items.length := by
    have := (List.getElem?_eq_some_iff.mp hr).1
    omega
  exact ⟨s.items[i], List.getElem?_eq_getElem hi⟩

/-- With distinct responders, a responder belongs to one submitted batch only. -/
theorem batch_unique (h : KindHistory received buf log)
    (hnodup : (received.map Prod.snd).Nodup) {s s' : Submitted α} (hs : s ∈ log) (hs' : s' ∈ log)
    {r : ResponderId} (hr : r ∈ s.responders) (hr' : r ∈ s'.responders) : s = s' := by
  have hsnd : ∀ t ∈ log, (Submitted.pairs t).map Prod.snd = t.responders := fun t ht => by
    simp [Submitted.pairs, List.map_snd_zip (Nat.le_of_eq (h.submitted t ht).symm)]
  rw [← h.complete, List.map_append, List.map_flatMap] at hnodup
  have hdisj := (List.nodup_flatMap.mp (List.nodup_append.mp hnodup).1).2
  have hsymm : Std.Symm (Function.onFun List.Disjoint
      (fun t : Submitted α => t.pairs.map Prod.snd)) := ⟨fun _ _ hab _ hb ha => hab ha hb⟩
  by_contra hne
  have hd := hdisj.forall hs hs' hne
  simp only [Function.onFun, hsnd s hs, hsnd s' hs'] at hd
  exact hd hr hr'

/-- With distinct responders, a responder stands next to the item it came with. -/
theorem position (h : KindHistory received buf log) (hnodup : (received.map Prod.snd).Nodup)
    {x : α} {r : ResponderId} (hx : (x, r) ∈ received) {s : Submitted α} (hs : s ∈ log)
    (hr : r ∈ s.responders) :
    ∃ i : Nat, s.items[i]? = some x ∧ s.responders[i]? = some r := by
  obtain ⟨i, hi⟩ := List.getElem?_of_mem hr
  obtain ⟨y, hy⟩ := h.exists_item hs hi
  have heq := List.inj_on_of_nodup_map hnodup (h.mem_received hs hy hi) hx rfl
  obtain rfl : y = x := (Prod.mk.inj heq).1
  exact ⟨i, hy, hi⟩

/-- With distinct responders, a responder has one position in its batch. -/
theorem position_unique (h : KindHistory received buf log)
    (hnodup : (received.map Prod.snd).Nodup) {s : Submitted α} (hs : s ∈ log)
    {i j : Nat} {r : ResponderId} (hi : s.responders[i]? = some r)
    (hj : s.responders[j]? = some r) : i = j := by
  have hsnd : (Submitted.pairs s).map Prod.snd = s.responders := by
    simp [Submitted.pairs, List.map_snd_zip (Nat.le_of_eq (h.submitted s hs).symm)]
  rw [← h.complete, List.map_append, List.map_flatMap] at hnodup
  have hnd := (List.nodup_flatMap.mp (List.nodup_append.mp hnodup).1).1 s hs
  rw [hsnd] at hnd
  obtain ⟨hi', hri⟩ := List.getElem?_eq_some_iff.mp hi
  obtain ⟨hj', hrj⟩ := List.getElem?_eq_some_iff.mp hj
  exact (List.Nodup.getElem_inj_iff hnd).mp (hri.trans hrj.symm)

end KindHistory

namespace Worker

variable {tb : TigerBeetle} {n : Nat}

/-- The history of all four kinds. -/
structure History (w : Worker) : Prop where
  transfers : KindHistory (w.received.filterMap TbCommand.transfer?) w.transferBuf w.transferLog
  accounts : KindHistory (w.received.filterMap TbCommand.account?) w.accountBuf w.accountLog
  lookupAccs :
    KindHistory (w.received.filterMap TbCommand.lookupAcc?) w.lookupAccBuf w.lookupAccLog
  lookupTxs : KindHistory (w.received.filterMap TbCommand.lookupTx?) w.lookupTxBuf w.lookupTxLog

theorem History.start (l : Ledger) : History (Worker.start l) := by
  constructor <;> exact ⟨rfl, by simp [Worker.start], by simp [Worker.start, Buffer.empty, Buffer.pairs]⟩

theorem History.arrive {w : Worker} (h : History w) (cmd : TbCommand) (o : CallOutcome) :
    History (w.arrive cmd o) := by
  obtain ⟨ht, ha, hla, hlt⟩ := h
  obtain ⟨request, r⟩ := cmd
  cases request <;>
    refine ⟨?_, ?_, ?_, ?_⟩ <;>
    simp only [Worker.arrive, pushTransfer, pushAccount, pushLookupAcc, pushLookupTx, answerAll,
      List.filterMap_append, List.filterMap_cons, List.filterMap_nil, TbCommand.transfer?,
      TbCommand.account?, TbCommand.lookupAcc?, TbCommand.lookupTx?, List.append_nil] <;>
    first
    | assumption
    | exact ht.push _ _
    | exact ha.push _ _
    | exact hla.push _ _
    | exact hlt.push _ _

theorem History.flush {w w' : Worker} (h : History w) (hf : Flush tb w w') : History w' := by
  cases hf with
  | transfers o _ => exact ⟨h.transfers.flush _ _, h.accounts, h.lookupAccs, h.lookupTxs⟩
  | accounts o _ => exact ⟨h.transfers, h.accounts.flush _ _, h.lookupAccs, h.lookupTxs⟩
  | lookupAccounts o _ => exact ⟨h.transfers, h.accounts, h.lookupAccs.flush _ _, h.lookupTxs⟩
  | lookupTransfers o _ => exact ⟨h.transfers, h.accounts, h.lookupAccs, h.lookupTxs.flush _ _⟩

/-! ### Answers -/

/-- Where a message on a response channel can come from. -/
inductive Answered (tb : TigerBeetle) (w : Worker) (r : ResponderId) : TbReply → Prop
  | transfers {s} : s ∈ w.transferLog → r ∈ s.responders →
      Answered tb w r (.createTransfers (transferResults tb s))
  | accounts {s} : s ∈ w.accountLog → r ∈ s.responders →
      Answered tb w r (.createAccounts (accountResults tb s))
  | lookupAcc {s} : s ∈ w.lookupAccLog → r ∈ s.responders →
      Answered tb w r (.accounts (lookupAccResults s))
  | lookupTx {s} : s ∈ w.lookupTxLog → r ∈ s.responders →
      Answered tb w r (.transfers (lookupTxResults s))
  | direct {ids x} : ⟨.lookupAccounts ids, r⟩ ∈ w.received → Answered tb w r (.tbAccounts x)
  | balances {ids x} : ⟨.getAccountBalances ids, r⟩ ∈ w.received → Answered tb w r (.balances x)

theorem Answered.mono {w w' : Worker} {r : ResponderId} {reply : TbReply}
    (hr : w.received ⊆ w'.received) (ht : w.transferLog ⊆ w'.transferLog)
    (ha : w.accountLog ⊆ w'.accountLog) (hla : w.lookupAccLog ⊆ w'.lookupAccLog)
    (hlt : w.lookupTxLog ⊆ w'.lookupTxLog) (h : Answered tb w r reply) :
    Answered tb w' r reply := by
  cases h with
  | transfers hs hr' => exact .transfers (ht hs) hr'
  | accounts hs hr' => exact .accounts (ha hs) hr'
  | lookupAcc hs hr' => exact .lookupAcc (hla hs) hr'
  | lookupTx hs hr' => exact .lookupTx (hlt hs) hr'
  | direct hc => exact .direct (hr hc)
  | balances hc => exact .balances (hr hc)

/-- The messages sent are the answers of the submitted batches and the direct
answers, and every responder of a submitted batch has been sent the batch's
answer. -/
structure Answers (tb : TigerBeetle) (w : Worker) : Prop where
  sound : ∀ p ∈ w.replies, Answered tb w p.1 p.2
  transfers : ∀ s ∈ w.transferLog, ∀ r ∈ s.responders,
    (r, .createTransfers (transferResults tb s)) ∈ w.replies
  accounts : ∀ s ∈ w.accountLog, ∀ r ∈ s.responders,
    (r, .createAccounts (accountResults tb s)) ∈ w.replies
  lookupAccs : ∀ s ∈ w.lookupAccLog, ∀ r ∈ s.responders,
    (r, .accounts (lookupAccResults s)) ∈ w.replies
  lookupTxs : ∀ s ∈ w.lookupTxLog, ∀ r ∈ s.responders,
    (r, .transfers (lookupTxResults s)) ∈ w.replies

theorem Answers.start (l : Ledger) : Answers tb (Worker.start l) := by
  constructor <;> simp [Worker.start]

/-- Answering one more group of responders. -/
theorem mem_answerAll {w : Worker} {rs : List ResponderId} {reply : TbReply}
    {p : ResponderId × TbReply} (hp : p ∈ (w.answerAll rs reply).replies) :
    p ∈ w.replies ∨ p.1 ∈ rs ∧ p.2 = reply := by
  rcases List.mem_append.mp hp with hp | hp
  · exact Or.inl hp
  · obtain ⟨r, hr, rfl⟩ := List.mem_map.mp hp
    exact Or.inr ⟨hr, rfl⟩

theorem Answers.arrive {w : Worker} (h : Answers tb w) (cmd : TbCommand) (o : CallOutcome) :
    Answers tb (w.arrive cmd o) := by
  have keep : ∀ w' : Worker, w'.received = w.received ++ [cmd] →
      w'.transferLog = w.transferLog → w'.accountLog = w.accountLog →
      w'.lookupAccLog = w.lookupAccLog → w'.lookupTxLog = w.lookupTxLog →
      (∀ p ∈ w'.replies, p ∈ w.replies ∨ Answered tb w' p.1 p.2) →
      w.replies ⊆ w'.replies → Answers tb w' := by
    intro w' hrec ht ha hla hlt hnew hold
    refine ⟨fun p hp => ?_, ?_, ?_, ?_, ?_⟩
    · rcases hnew p hp with hp | hp
      · exact (h.sound p hp).mono (by simp [hrec]) (by simp [ht]) (by simp [ha]) (by simp [hla])
          (by simp [hlt])
      · exact hp
    · exact fun s hs r hr => hold (h.transfers s (ht ▸ hs) r hr)
    · exact fun s hs r hr => hold (h.accounts s (ha ▸ hs) r hr)
    · exact fun s hs r hr => hold (h.lookupAccs s (hla ▸ hs) r hr)
    · exact fun s hs r hr => hold (h.lookupTxs s (hlt ▸ hs) r hr)
  obtain ⟨request, r⟩ := cmd
  cases request with
  | createTransfer t =>
      exact keep _ rfl rfl rfl rfl rfl (fun p hp => Or.inl hp) (List.Subset.refl _)
  | createAccount a =>
      exact keep _ rfl rfl rfl rfl rfl (fun p hp => Or.inl hp) (List.Subset.refl _)
  | lookupAccount id =>
      exact keep _ rfl rfl rfl rfl rfl (fun p hp => Or.inl hp) (List.Subset.refl _)
  | lookupTransfer id =>
      exact keep _ rfl rfl rfl rfl rfl (fun p hp => Or.inl hp) (List.Subset.refl _)
  | lookupAccounts ids =>
      refine keep _ rfl rfl rfl rfl rfl (fun p hp => ?_) (List.subset_append_left _ _)
      rcases mem_answerAll hp with hp | ⟨hp, hreply⟩
      · exact Or.inl hp
      · refine Or.inr ?_
        rw [hreply, List.mem_singleton.mp hp]
        have hc : (⟨.lookupAccounts ids, r⟩ : TbCommand) ∈ w.received ++ [⟨.lookupAccounts ids, r⟩] := by
          simp
        exact .direct hc
  | getAccountBalances ids =>
      refine keep _ rfl rfl rfl rfl rfl (fun p hp => ?_) (List.subset_append_left _ _)
      rcases mem_answerAll hp with hp | ⟨hp, hreply⟩
      · exact Or.inl hp
      · refine Or.inr ?_
        rw [hreply, List.mem_singleton.mp hp]
        have hc : (⟨.getAccountBalances ids, r⟩ : TbCommand) ∈
            w.received ++ [⟨.getAccountBalances ids, r⟩] := by
          simp
        exact .balances hc

/-- The answers already sent are still the answers after a flush that only adds
to one log. -/
private theorem Answers.sound_flush {w w' : Worker} (h : Answers tb w)
    (hr : w'.received = w.received) (ht : w.transferLog ⊆ w'.transferLog)
    (ha : w.accountLog ⊆ w'.accountLog) (hla : w.lookupAccLog ⊆ w'.lookupAccLog)
    (hlt : w.lookupTxLog ⊆ w'.lookupTxLog) {rs : List ResponderId} {reply : TbReply}
    (hnew : w'.replies = (w.answerAll rs reply).replies)
    (hans : ∀ r ∈ rs, Answered tb w' r reply) : ∀ p ∈ w'.replies, Answered tb w' p.1 p.2 := by
  intro p hp
  rw [hnew] at hp
  rcases mem_answerAll hp with hp | ⟨hp, hreply⟩
  · exact (h.sound p hp).mono (by rw [hr]; exact List.Subset.refl _) ht ha hla hlt
  · rw [hreply]
    exact hans _ hp

/-- A batch added to a log has been answered, and so had those before. -/
private theorem answered_append {α : Type} {log : List (Submitted α)} {s : Submitted α}
    {reply : Submitted α → TbReply} {replies : List (ResponderId × TbReply)}
    (h : ∀ t ∈ log, ∀ r ∈ t.responders, (r, reply t) ∈ replies) :
    ∀ t ∈ log ++ [s], ∀ r ∈ t.responders,
      (r, reply t) ∈ replies ++ s.responders.map (fun r => (r, reply s)) := by
  intro t ht r hr
  rcases List.mem_append.mp ht with ht | ht
  · exact List.mem_append_left _ (h t ht r hr)
  · obtain rfl := List.mem_singleton.mp ht
    exact List.mem_append_right _ (List.mem_map_of_mem hr)

theorem Answers.flush {w w' : Worker} (h : Answers tb w) (hf : Flush tb w w') :
    Answers tb w' := by
  have old : ∀ {α : Type} {log : List (Submitted α)} {reply : Submitted α → TbReply}
      {new : List (ResponderId × TbReply)},
      (∀ s ∈ log, ∀ r ∈ s.responders, (r, reply s) ∈ w.replies) →
      ∀ s ∈ log, ∀ r ∈ s.responders, (r, reply s) ∈ w.replies ++ new :=
    fun h s hs r hr => List.mem_append_left _ (h s hs r hr)
  cases hf with
  | transfers o _ =>
      refine ⟨h.sound_flush rfl (List.subset_append_left _ _) (List.Subset.refl _)
        (List.Subset.refl _) (List.Subset.refl _) rfl (fun r hr => .transfers ?_ hr),
        answered_append h.transfers, old h.accounts, old h.lookupAccs, old h.lookupTxs⟩
      simp [processTransfers]
  | accounts o _ =>
      refine ⟨h.sound_flush rfl (List.Subset.refl _) (List.subset_append_left _ _)
        (List.Subset.refl _) (List.Subset.refl _) rfl (fun r hr => .accounts ?_ hr),
        old h.transfers, answered_append h.accounts, old h.lookupAccs, old h.lookupTxs⟩
      simp [processAccounts]
  | lookupAccounts o _ =>
      refine ⟨h.sound_flush rfl (List.Subset.refl _) (List.Subset.refl _)
        (List.subset_append_left _ _) (List.Subset.refl _) rfl (fun r hr => .lookupAcc ?_ hr),
        old h.transfers, old h.accounts, answered_append h.lookupAccs, old h.lookupTxs⟩
      simp [processLookupAccounts]
  | lookupTransfers o _ =>
      refine ⟨h.sound_flush rfl (List.Subset.refl _) (List.Subset.refl _)
        (List.Subset.refl _) (List.subset_append_left _ _) rfl (fun r hr => .lookupTx ?_ hr),
        old h.transfers, old h.accounts, old h.lookupAccs, answered_append h.lookupTxs⟩
      simp [processLookupTransfers]

/-! ### The loop -/

/-- What the loop has received after a sequence of events. -/
theorem received_run (w : Worker) (es : List WorkerEvent) :
    (w.run tb n es).received = w.received ++ es.filterMap WorkerEvent.command? := by
  have hflush : ∀ w w', Flush tb w w' → w'.received = w.received := by
    intro w w' hf
    cases hf <;> rfl
  induction es generalizing w with
  | nil => simp
  | cons e es ih =>
      rw [run_cons, ih]
      cases e with
      | command cmd o =>
          have harr : (w.arrive cmd o).received = w.received ++ [cmd] := by
            obtain ⟨request, r⟩ := cmd
            cases request <;> rfl
          have hturn : (w.turn tb n (.command cmd o)).received = w.received ++ [cmd] := by
            rcases @handle_cases tb n cmd o w with h | h
            · simpa only [turn, h] using harr
            · exact (hflush _ _ h).trans harr
          simp [hturn, WorkerEvent.command?]
      | tick o =>
          have hturn : (w.turn tb n (.tick o)).received = w.received :=
            tick_induction (motive := fun w' => w'.received = w.received)
              (fun _ _ h hf => (hflush _ _ hf).trans h) rfl
          simp [hturn, List.filterMap_cons, WorkerEvent.command?]

theorem History.run {w : Worker} (h : History w) (es : List WorkerEvent) :
    History (w.run tb n es) :=
  run_induction (fun _ _ h hf => h.flush hf) (fun _ cmd o h => h.arrive cmd o) h

theorem Answers.run {w : Worker} (h : Answers tb w) (es : List WorkerEvent) :
    Answers tb (w.run tb n es) :=
  run_induction (fun _ _ h hf => h.flush hf) (fun _ cmd o h => h.arrive cmd o) h

/-! ### What one responder is sent -/

/-- The commands received have distinct responders: each carries the sending
half of its own channel. -/
def Distinct (w : Worker) : Prop := (w.received.map TbCommand.responder).Nodup

/-- Projecting the received commands to one kind keeps responders distinct. -/
private theorem Distinct.kind {α : Type} {w : Worker} (h : w.Distinct)
    {f : TbCommand → Option (α × ResponderId)} (hf : ∀ c p, f c = some p → p.2 = c.responder) :
    ((w.received.filterMap f).map Prod.snd).Nodup := by
  refine List.Nodup.sublist ?_ h
  induction w.received with
  | nil => simp
  | cons c cs ih =>
      cases hc : f c with
      | none => simpa [hc] using ih.trans (List.sublist_cons_self _ _)
      | some p => simpa [hc, hf c p hc] using ih.cons_cons c.responder

theorem Distinct.transfers {w : Worker} (h : w.Distinct) :
    ((w.received.filterMap TbCommand.transfer?).map Prod.snd).Nodup :=
  h.kind (by rintro c ⟨t, r⟩ hc; rw [TbCommand.transfer?_eq_some.mp hc])

theorem Distinct.accounts {w : Worker} (h : w.Distinct) :
    ((w.received.filterMap TbCommand.account?).map Prod.snd).Nodup :=
  h.kind (by rintro c ⟨t, r⟩ hc; rw [TbCommand.account?_eq_some.mp hc])

theorem Distinct.lookupAccs {w : Worker} (h : w.Distinct) :
    ((w.received.filterMap TbCommand.lookupAcc?).map Prod.snd).Nodup :=
  h.kind (by rintro c ⟨t, r⟩ hc; rw [TbCommand.lookupAcc?_eq_some.mp hc])

theorem Distinct.lookupTxs {w : Worker} (h : w.Distinct) :
    ((w.received.filterMap TbCommand.lookupTx?).map Prod.snd).Nodup :=
  h.kind (by rintro c ⟨t, r⟩ hc; rw [TbCommand.lookupTx?_eq_some.mp hc])

/-- Two received commands with one responder are the same command. -/
theorem Distinct.eq_of_responder {w : Worker} (h : w.Distinct) {c d : TbCommand}
    (hc : c ∈ w.received) (hd : d ∈ w.received) (hr : c.responder = d.responder) : c = d :=
  List.inj_on_of_nodup_map h hc hd hr

/-- An item of a submitted batch of transfers was received as a command. -/
theorem History.transfer_received {w : Worker} (h : History w) {s : Submitted AppTransfer}
    (hs : s ∈ w.transferLog) {i : Nat} {t : AppTransfer} {r : ResponderId}
    (ht : s.items[i]? = some t) (hr : s.responders[i]? = some r) :
    ⟨.createTransfer t, r⟩ ∈ w.received := by
  obtain ⟨c, hc, hct⟩ := List.mem_filterMap.mp (h.transfers.mem_received hs ht hr)
  rwa [← TbCommand.transfer?_eq_some.mp hct]

theorem History.account_received {w : Worker} (h : History w) {s : Submitted AppAccount}
    (hs : s ∈ w.accountLog) {i : Nat} {a : AppAccount} {r : ResponderId}
    (ha : s.items[i]? = some a) (hr : s.responders[i]? = some r) :
    ⟨.createAccount a, r⟩ ∈ w.received := by
  obtain ⟨c, hc, hca⟩ := List.mem_filterMap.mp (h.accounts.mem_received hs ha hr)
  rwa [← TbCommand.account?_eq_some.mp hca]

theorem History.lookupAcc_received {w : Worker} (h : History w) {s : Submitted Nat}
    (hs : s ∈ w.lookupAccLog) {i : Nat} {id : Nat} {r : ResponderId}
    (hid : s.items[i]? = some id) (hr : s.responders[i]? = some r) :
    ⟨.lookupAccount id, r⟩ ∈ w.received := by
  obtain ⟨c, hc, hci⟩ := List.mem_filterMap.mp (h.lookupAccs.mem_received hs hid hr)
  rwa [← TbCommand.lookupAcc?_eq_some.mp hci]

theorem History.lookupTx_received {w : Worker} (h : History w) {s : Submitted Nat}
    (hs : s ∈ w.lookupTxLog) {i : Nat} {id : Nat} {r : ResponderId}
    (hid : s.items[i]? = some id) (hr : s.responders[i]? = some r) :
    ⟨.lookupTransfer id, r⟩ ∈ w.received := by
  obtain ⟨c, hc, hci⟩ := List.mem_filterMap.mp (h.lookupTxs.mem_received hs hid hr)
  rwa [← TbCommand.lookupTx?_eq_some.mp hci]

/-- The command behind a message determines the kind of the message. -/
theorem Answered.request {w : Worker} {r : ResponderId} {reply : TbReply} (hh : History w)
    (h : Answered tb w r reply) : ∃ c ∈ w.received, c.responder = r ∧
      match reply with
      | .createTransfers _ => ∃ t, c.request = .createTransfer t
      | .createAccounts _ => ∃ a, c.request = .createAccount a
      | .accounts _ => ∃ id, c.request = .lookupAccount id
      | .transfers _ => ∃ id, c.request = .lookupTransfer id
      | .tbAccounts _ => ∃ ids, c.request = .lookupAccounts ids
      | .balances _ => ∃ ids, c.request = .getAccountBalances ids := by
  cases h with
  | transfers hs hr =>
      obtain ⟨i, hi⟩ := List.getElem?_of_mem hr
      obtain ⟨x, hx⟩ := hh.transfers.exists_item hs hi
      exact ⟨_, hh.transfer_received hs hx hi, rfl, x, rfl⟩
  | accounts hs hr =>
      obtain ⟨i, hi⟩ := List.getElem?_of_mem hr
      obtain ⟨x, hx⟩ := hh.accounts.exists_item hs hi
      exact ⟨_, hh.account_received hs hx hi, rfl, x, rfl⟩
  | lookupAcc hs hr =>
      obtain ⟨i, hi⟩ := List.getElem?_of_mem hr
      obtain ⟨x, hx⟩ := hh.lookupAccs.exists_item hs hi
      exact ⟨_, hh.lookupAcc_received hs hx hi, rfl, x, rfl⟩
  | lookupTx hs hr =>
      obtain ⟨i, hi⟩ := List.getElem?_of_mem hr
      obtain ⟨x, hx⟩ := hh.lookupTxs.exists_item hs hi
      exact ⟨_, hh.lookupTx_received hs hx hi, rfl, x, rfl⟩
  | direct hc => exact ⟨_, hc, rfl, _, rfl⟩
  | balances hc => exact ⟨_, hc, rfl, _, rfl⟩

/-- Whatever the responder of a transfer was sent is the answer of a batch in
which it stands next to that transfer. -/
theorem transfer_answer {w : Worker} (hh : History w) (ha : Answers tb w) (hd : w.Distinct)
    {t : AppTransfer} {r : ResponderId} (hc : ⟨.createTransfer t, r⟩ ∈ w.received)
    {reply : TbReply} (hr : (r, reply) ∈ w.replies) :
    ∃ s ∈ w.transferLog, ∃ i : Nat, s.items[i]? = some t ∧ s.responders[i]? = some r ∧
      reply = .createTransfers (transferResults tb s) := by
  have hans := ha.sound _ hr
  obtain ⟨c, hcm, hcr, hreq⟩ := hans.request hh
  obtain rfl := hd.eq_of_responder hcm hc hcr
  cases hans with
  | @transfers s hs hrs =>
      obtain ⟨i, hi⟩ := hh.transfers.position hd.transfers
        (List.mem_filterMap.mpr ⟨_, hc, TbCommand.transfer?_eq_some.mpr rfl⟩) hs hrs
      exact ⟨s, hs, i, hi.1, hi.2, rfl⟩
  | _ => simp at hreq

/-- The same for the responder of an account. -/
theorem account_answer {w : Worker} (hh : History w) (ha : Answers tb w) (hd : w.Distinct)
    {a : AppAccount} {r : ResponderId} (hc : ⟨.createAccount a, r⟩ ∈ w.received)
    {reply : TbReply} (hr : (r, reply) ∈ w.replies) :
    ∃ s ∈ w.accountLog, ∃ i : Nat, s.items[i]? = some a ∧ s.responders[i]? = some r ∧
      reply = .createAccounts (accountResults tb s) := by
  have hans := ha.sound _ hr
  obtain ⟨c, hcm, hcr, hreq⟩ := hans.request hh
  obtain rfl := hd.eq_of_responder hcm hc hcr
  cases hans with
  | @accounts s hs hrs =>
      obtain ⟨i, hi⟩ := hh.accounts.position hd.accounts
        (List.mem_filterMap.mpr ⟨_, hc, TbCommand.account?_eq_some.mpr rfl⟩) hs hrs
      exact ⟨s, hs, i, hi.1, hi.2, rfl⟩
  | _ => simp at hreq

end Worker

end Wurzburg.Tb
