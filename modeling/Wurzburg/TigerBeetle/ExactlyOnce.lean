import Wurzburg.TigerBeetle.WorkerInv
import Mathlib.Data.List.Count

/-!
# Wurzburg.TigerBeetle.ExactlyOnce

The worker between two turns of its loop: what the buffers hold, what has been
submitted, and who has been sent how many messages.

Two invariants are added to `History` and `Answers`. `Conserved` counts
responders: whoever was received has been sent a message or stands in a buffer,
once each. `Sized` bounds the buffers and the batches submitted.
-/

namespace Wurzburg.Tb

/-! ### One responder, one message -/

namespace Worker

variable {tb : TigerBeetle} {n : Nat} {w w' : Worker}

/-- The messages a responder has been sent, oldest first. -/
def sent (w : Worker) (r : ResponderId) : List TbReply :=
  (w.replies.filter (fun p => p.1 = r)).map Prod.snd

/-- How often a responder stands in a buffer. -/
def waitingCount (w : Worker) (r : ResponderId) : Nat :=
  w.transferBuf.responders.count r + w.accountBuf.responders.count r +
    w.lookupAccBuf.responders.count r + w.lookupTxBuf.responders.count r

/-- No response channel is lost and none is used twice: those received are
those used and those waiting. -/
def Conserved (w : Worker) : Prop :=
  ∀ r, (w.received.map TbCommand.responder).count r = (w.sent r).length + w.waitingCount r

theorem sent_length (w : Worker) (r : ResponderId) :
    (w.sent r).length = (w.replies.map Prod.fst).count r := by
  simp only [sent, List.length_map, List.count_eq_length_filter, List.filter_map]
  rfl

theorem mem_sent {r : ResponderId} {reply : TbReply} :
    reply ∈ w.sent r ↔ (r, reply) ∈ w.replies := by
  simp only [sent, List.mem_map, List.mem_filter, decide_eq_true_eq]
  constructor
  · intro ⟨p, ⟨hp, hr⟩, hreply⟩
    rw [← hr, ← hreply]
    exact hp
  · intro h
    exact ⟨_, ⟨h, rfl⟩, rfl⟩

theorem Conserved.start (l : Ledger) : Conserved (Worker.start l) := by
  intro r
  simp [Worker.start, sent, waitingCount, Buffer.empty]

theorem Conserved.arrive (h : Conserved w) (cmd : TbCommand) (o : CallOutcome) :
    Conserved (w.arrive cmd o) := by
  intro r
  have hr := h r
  rw [sent_length] at hr ⊢
  obtain ⟨request, r'⟩ := cmd
  cases request <;>
    simp only [waitingCount, Worker.arrive, pushTransfer, pushAccount, pushLookupAcc,
      pushLookupTx, answerAll, Buffer.push, List.map_append, List.count_append, List.map_cons,
      List.map_nil] at hr ⊢ <;>
    omega

theorem Conserved.flush (h : Conserved w) (hf : Flush tb w w') : Conserved w' := by
  have hmap : ∀ (rs : List ResponderId) (reply : TbReply),
      (rs.map (fun r => (r, reply))).map Prod.fst = rs := by
    intro rs reply
    rw [List.map_map]
    exact List.map_id rs
  intro r
  have hr := h r
  rw [sent_length] at hr ⊢
  cases hf <;>
    simp only [waitingCount, processTransfers, processAccounts, processLookupAccounts,
      processLookupTransfers, answerAll, Buffer.empty, List.map_append, List.count_append, hmap,
      List.count_nil] at hr ⊢ <;>
    omega

theorem Conserved.run (h : Conserved w) (es : List WorkerEvent) : Conserved (w.run tb n es) :=
  run_induction (fun _ _ h hf => h.flush hf) (fun _ cmd o h => h.arrive cmd o) h

/-- With distinct responders, one that was sent a message was sent just that. -/
theorem Conserved.sent_eq (h : Conserved w) (hd : w.Distinct) {r : ResponderId}
    {reply : TbReply} (hr : (r, reply) ∈ w.replies) : w.sent r = [reply] := by
  have hone : (w.received.map TbCommand.responder).count r ≤ 1 :=
    List.nodup_iff_count_le_one.mp hd r
  have hmem := mem_sent.mpr hr
  have hpos := List.length_pos_of_mem hmem
  have hcount := h r
  obtain ⟨x, hx⟩ := List.length_eq_one_iff.mp (show (w.sent r).length = 1 by omega)
  rw [hx, List.mem_singleton] at hmem
  rw [hx, hmem]

/-- With distinct responders, one that waits was sent nothing. -/
theorem Conserved.sent_eq_nil (h : Conserved w) (hd : w.Distinct) {r : ResponderId}
    (hr : 0 < w.waitingCount r) : w.sent r = [] := by
  have hone : (w.received.map TbCommand.responder).count r ≤ 1 :=
    List.nodup_iff_count_le_one.mp hd r
  have hcount := h r
  exact List.length_eq_zero_iff.mp (by omega)

/-- A responder that was received and does not wait was sent a message. -/
theorem Conserved.exists_sent (h : Conserved w) {c : TbCommand} (hc : c ∈ w.received)
    (hr : w.waitingCount c.responder = 0) : ∃ reply, (c.responder, reply) ∈ w.replies := by
  have hpos : 0 < (w.received.map TbCommand.responder).count c.responder :=
    List.count_pos_iff.mpr (List.mem_map_of_mem hc)
  have hcount := h c.responder
  obtain ⟨reply, hreply⟩ := List.exists_mem_of_length_pos
    (show 0 < (w.sent c.responder).length by omega)
  exact ⟨reply, mem_sent.mp hreply⟩

/-! ### Sizes -/

/-- The size limit on one kind: a buffer is below it, and every batch submitted
is non-empty and within it. A limit of zero acts as a limit of one. -/
structure KindSized {α : Type} (n : Nat) (buf : Buffer α) (log : List (Submitted α)) : Prop where
  below : buf.batch.length < max 1 n
  submitted : ∀ s ∈ log, 1 ≤ s.items.length ∧ s.items.length ≤ max 1 n

/-- Handing over a buffer that has at most reached the limit. -/
theorem KindSized.flush {α : Type} {buf : Buffer α} {log : List (Submitted α)}
    (h : ∀ s ∈ log, 1 ≤ s.items.length ∧ s.items.length ≤ max 1 n) (hpos : buf.batch ≠ [])
    (hle : buf.batch.length ≤ max 1 n) (l : Ledger) (o : CallOutcome) :
    KindSized n (.empty : Buffer α) (log ++ [⟨buf.batch, buf.responders, l, o⟩]) where
  below := by
    simp only [Buffer.empty, List.length_nil]
    omega
  submitted := by
    intro s hs
    rcases List.mem_append.mp hs with hs | hs
    · exact h s hs
    · obtain rfl := List.mem_singleton.mp hs
      exact ⟨List.length_pos_iff.mpr hpos, hle⟩

/-- The size limit on all four kinds. -/
structure Sized (n : Nat) (w : Worker) : Prop where
  transfers : KindSized n w.transferBuf w.transferLog
  accounts : KindSized n w.accountBuf w.accountLog
  lookupAccs : KindSized n w.lookupAccBuf w.lookupAccLog
  lookupTxs : KindSized n w.lookupTxBuf w.lookupTxLog

theorem Sized.start (n : Nat) (l : Ledger) : Sized n (Worker.start l) := by
  constructor <;>
    exact ⟨by simp only [Worker.start, Buffer.empty, List.length_nil]; omega, by simp [Worker.start]⟩

/-- One more item fits, also when it brings the buffer to the limit. -/
private theorem push_length {α : Type} {buf : Buffer α} (h : buf.batch.length < max 1 n) (x : α)
    (r : ResponderId) : (buf.push x r).batch ≠ [] ∧ (buf.push x r).batch.length ≤ max 1 n := by
  refine ⟨by simp [Buffer.push], ?_⟩
  simp only [Buffer.push, List.length_append, List.length_singleton]
  omega

/-- An item that does not bring the buffer to the limit leaves it below. -/
private theorem KindSized.push {α : Type} {buf : Buffer α} {log : List (Submitted α)}
    (h : KindSized n buf log) {x : α} {r : ResponderId}
    (hlt : ¬ (buf.push x r).batch.length ≥ n) : KindSized n (buf.push x r) log :=
  ⟨by omega, h.submitted⟩

theorem Sized.handle (h : Sized n w) (cmd : TbCommand) (o : CallOutcome) :
    Sized n (w.handle tb n cmd o) := by
  obtain ⟨ht, ha, hla, hlt⟩ := h
  obtain ⟨request, r⟩ := cmd
  cases request with
  | createTransfer t =>
      obtain ⟨hpos, hle⟩ := push_length ht.below t r
      simp only [Worker.handle]
      split
      · exact ⟨.flush ht.submitted hpos hle _ _, ha, hla, hlt⟩
      · next hfull => exact ⟨ht.push hfull, ha, hla, hlt⟩
  | createAccount a =>
      obtain ⟨hpos, hle⟩ := push_length ha.below a r
      simp only [Worker.handle]
      split
      · exact ⟨ht, .flush ha.submitted hpos hle _ _, hla, hlt⟩
      · next hfull => exact ⟨ht, ha.push hfull, hla, hlt⟩
  | lookupAccount id =>
      obtain ⟨hpos, hle⟩ := push_length hla.below id r
      simp only [Worker.handle]
      split
      · exact ⟨ht, ha, .flush hla.submitted hpos hle _ _, hlt⟩
      · next hfull => exact ⟨ht, ha, hla.push hfull, hlt⟩
  | lookupTransfer id =>
      obtain ⟨hpos, hle⟩ := push_length hlt.below id r
      simp only [Worker.handle]
      split
      · exact ⟨ht, ha, hla, .flush hlt.submitted hpos hle _ _⟩
      · next hfull => exact ⟨ht, ha, hla, hlt.push hfull⟩
  | lookupAccounts ids => exact ⟨ht, ha, hla, hlt⟩
  | getAccountBalances ids => exact ⟨ht, ha, hla, hlt⟩

theorem Sized.flush (h : Sized n w) (hf : Flush tb w w') : Sized n w' := by
  obtain ⟨ht, ha, hla, hlt⟩ := h
  cases hf with
  | transfers o hne => exact ⟨.flush ht.submitted hne (Nat.le_of_lt ht.below) _ _, ha, hla, hlt⟩
  | accounts o hne => exact ⟨ht, .flush ha.submitted hne (Nat.le_of_lt ha.below) _ _, hla, hlt⟩
  | lookupAccounts o hne =>
      exact ⟨ht, ha, .flush hla.submitted hne (Nat.le_of_lt hla.below) _ _, hlt⟩
  | lookupTransfers o hne =>
      exact ⟨ht, ha, hla, .flush hlt.submitted hne (Nat.le_of_lt hlt.below) _ _⟩

theorem Sized.run (h : Sized n w) (es : List WorkerEvent) : Sized n (w.run tb n es) := by
  induction es generalizing w with
  | nil => exact h
  | cons e es ih =>
      rw [run_cons]
      cases e with
      | command cmd o => exact ih (h.handle cmd o)
      | tick o => exact ih (tick_induction (fun _ _ h hf => h.flush hf) h)

/-! ### Between two turns -/

/-- One kind of item at a start of the loop. -/
structure KindAtLoopStart {α : Type} (n : Nat) (received : List (α × ResponderId))
    (buf : Buffer α) (log : List (Submitted α)) (sent : ResponderId → List TbReply)
    (answer : Submitted α → TbReply) : Prop where
  paired : buf.batch.length = buf.responders.length
  below : buf.batch.length < max 1 n
  /-- The item and the responder at one position came in one command. -/
  sameCommand : ∀ (i : Nat) x r, buf.batch[i]? = some x → buf.responders[i]? = some r →
    (x, r) ∈ received
  /-- Nothing is lost, duplicated or reordered. -/
  items : log.flatMap Submitted.items ++ buf.batch = received.map Prod.fst
  responders : log.flatMap Submitted.responders ++ buf.responders = received.map Prod.snd
  sizes : ∀ s ∈ log, 1 ≤ s.items.length ∧ s.items.length ≤ max 1 n
  answered : ∀ s ∈ log, ∀ r ∈ s.responders, sent r = [answer s]
  unanswered : ∀ r ∈ buf.responders, sent r = []

/-- The worker at a start of the loop: the four kinds, and the two commands that
are answered outside the batches. -/
structure AtLoopStart (tb : TigerBeetle) (n : Nat) (w : Worker) : Prop where
  transfers : KindAtLoopStart n (w.received.filterMap TbCommand.transfer?) w.transferBuf
    w.transferLog w.sent (fun s => .createTransfers (transferResults tb s))
  accounts : KindAtLoopStart n (w.received.filterMap TbCommand.account?) w.accountBuf
    w.accountLog w.sent (fun s => .createAccounts (accountResults tb s))
  lookupAccs : KindAtLoopStart n (w.received.filterMap TbCommand.lookupAcc?) w.lookupAccBuf
    w.lookupAccLog w.sent (fun s => .accounts (lookupAccResults s))
  lookupTxs : KindAtLoopStart n (w.received.filterMap TbCommand.lookupTx?) w.lookupTxBuf
    w.lookupTxLog w.sent (fun s => .transfers (lookupTxResults s))
  lookupAccounts : ∀ ids r, ⟨.lookupAccounts ids, r⟩ ∈ w.received →
    ∃ x, w.sent r = [.tbAccounts x]
  getAccountBalances : ∀ ids r, ⟨.getAccountBalances ids, r⟩ ∈ w.received →
    ∃ x, w.sent r = [.balances x]

/-- One kind, from the invariants. -/
private theorem kindAtLoopStart {α : Type} {received : List (α × ResponderId)} {buf : Buffer α}
    {log : List (Submitted α)} {answer : Submitted α → TbReply} (hk : KindHistory received buf log)
    (hs : KindSized n buf log) (hc : Conserved w) (hd : w.Distinct)
    (hans : ∀ s ∈ log, ∀ r ∈ s.responders, (r, answer s) ∈ w.replies)
    (hwait : ∀ r ∈ buf.responders, 0 < w.waitingCount r) :
    KindAtLoopStart n received buf log w.sent answer where
  paired := hk.buffered
  below := hs.below
  sameCommand := by
    intro i x r hx hr
    rw [← hk.complete]
    refine List.mem_append_right _ (List.mem_of_getElem? (i := i) ?_)
    rw [Buffer.pairs, List.getElem?_zip_eq_some]
    exact ⟨hx, hr⟩
  items := by
    rw [← hk.complete, List.map_append, List.map_flatMap, Buffer.pairs,
      List.map_fst_zip (Nat.le_of_eq hk.buffered)]
    congr 1
    refine List.flatMap_congr (fun s hs => ?_)
    rw [Submitted.pairs, List.map_fst_zip (Nat.le_of_eq (hk.submitted s hs))]
  responders := by
    rw [← hk.complete, List.map_append, List.map_flatMap, Buffer.pairs,
      List.map_snd_zip (Nat.le_of_eq hk.buffered.symm)]
    congr 1
    refine List.flatMap_congr (fun s hs => ?_)
    rw [Submitted.pairs, List.map_snd_zip (Nat.le_of_eq (hk.submitted s hs).symm)]
  sizes := hs.submitted
  answered := fun s hs r hr => hc.sent_eq hd (hans s hs r hr)
  unanswered := fun r hr => hc.sent_eq_nil hd (hwait r hr)

/-- Whoever waits for an item came with it. -/
private theorem exists_buffered {α : Type} {received : List (α × ResponderId)} {buf : Buffer α}
    {log : List (Submitted α)} (hk : KindHistory received buf log) {r : ResponderId}
    (hr : r ∈ buf.responders) : ∃ x, (x, r) ∈ received := by
  obtain ⟨i, hi⟩ := List.getElem?_of_mem hr
  have hlt : i < buf.batch.length := by
    have := (List.getElem?_eq_some_iff.mp hi).1
    have := hk.buffered
    omega
  refine ⟨buf.batch[i], ?_⟩
  rw [← hk.complete]
  refine List.mem_append_right _ (List.mem_of_getElem? (i := i) ?_)
  rw [Buffer.pairs, List.getElem?_zip_eq_some]
  exact ⟨List.getElem?_eq_getElem hlt, hi⟩

/-- A command without an item never waits. -/
theorem History.not_waiting (h : History w) (hd : w.Distinct) {c : TbCommand}
    (hc : c ∈ w.received) (ht : c.transfer? = none) (ha : c.account? = none)
    (hla : c.lookupAcc? = none) (hlt : c.lookupTx? = none) :
    w.waitingCount c.responder = 0 := by
  have hnone : ∀ {α : Type} {f : TbCommand → Option (α × ResponderId)} {buf : Buffer α}
      {log : List (Submitted α)}, KindHistory (w.received.filterMap f) buf log →
      (∀ d x r, f d = some (x, r) → d.responder = r) → f c = none →
      buf.responders.count c.responder = 0 := by
    intro α f buf log hk hf hfc
    refine List.count_eq_zero.mpr (fun hr => ?_)
    obtain ⟨x, hx⟩ := exists_buffered hk hr
    obtain ⟨d, hdm, hdf⟩ := List.mem_filterMap.mp hx
    -- one channel, one command: the item would be this command's own
    obtain rfl := hd.eq_of_responder hdm hc (hf _ _ _ hdf)
    simp [hfc] at hdf
  have h₁ := hnone h.transfers (fun d x r hd => by rw [TbCommand.transfer?_eq_some.mp hd]) ht
  have h₂ := hnone h.accounts (fun d x r hd => by rw [TbCommand.account?_eq_some.mp hd]) ha
  have h₃ := hnone h.lookupAccs (fun d x r hd => by rw [TbCommand.lookupAcc?_eq_some.mp hd]) hla
  have h₄ := hnone h.lookupTxs (fun d x r hd => by rw [TbCommand.lookupTx?_eq_some.mp hd]) hlt
  simp only [waitingCount, h₁, h₂, h₃, h₄]

/-- **Exactly once.** Over every sequence of commands, each with its own
response channel, and ticks, for every size limit and however the calls end: at
the next start of the loop the worker has received the commands of the sequence,
the four kinds are in order, every responder of a submitted item has been sent
one message and every other none, and a direct lookup has been answered once,
already at the first start of the loop after it was received. -/
theorem atLoopStart_run (tb : TigerBeetle) (n : Nat) (l : Ledger) (es : List WorkerEvent)
    (hd : ((es.filterMap WorkerEvent.command?).map TbCommand.responder).Nodup) :
    ((start l).run tb n es).received = es.filterMap WorkerEvent.command? ∧
      AtLoopStart tb n ((start l).run tb n es) := by
  have hreceived : ((start l).run tb n es).received = es.filterMap WorkerEvent.command? :=
    received_run (start l) es
  refine ⟨hreceived, ?_⟩
  have hh : History ((start l).run tb n es) := (History.start l).run es
  have ha : Answers tb ((start l).run tb n es) := (Answers.start l).run es
  have hc : Conserved ((start l).run tb n es) := (Conserved.start l).run es
  have hs : Sized n ((start l).run tb n es) := (Sized.start n l).run es
  have hdist : ((start l).run tb n es).Distinct := by
    unfold Distinct
    rw [hreceived]
    exact hd
  generalize (start l).run tb n es = w at hh ha hc hs hdist
  have hdirect : ∀ {c}, c ∈ w.received → c.transfer? = none → c.account? = none →
      c.lookupAcc? = none → c.lookupTx? = none →
      ∃ reply, (c.responder, reply) ∈ w.replies ∧ w.sent c.responder = [reply] := by
    intro c hcm h₁ h₂ h₃ h₄
    obtain ⟨reply, hr⟩ := hc.exists_sent hcm (hh.not_waiting hdist hcm h₁ h₂ h₃ h₄)
    exact ⟨reply, hr, hc.sent_eq hdist hr⟩
  refine ⟨?_, ?_, ?_, ?_, ?_, ?_⟩
  · refine kindAtLoopStart hh.transfers hs.transfers hc hdist ha.transfers (fun r hr => ?_)
    have := List.count_pos_iff.mpr hr
    simp only [waitingCount]
    omega
  · refine kindAtLoopStart hh.accounts hs.accounts hc hdist ha.accounts (fun r hr => ?_)
    have := List.count_pos_iff.mpr hr
    simp only [waitingCount]
    omega
  · refine kindAtLoopStart hh.lookupAccs hs.lookupAccs hc hdist ha.lookupAccs (fun r hr => ?_)
    have := List.count_pos_iff.mpr hr
    simp only [waitingCount]
    omega
  · refine kindAtLoopStart hh.lookupTxs hs.lookupTxs hc hdist ha.lookupTxs (fun r hr => ?_)
    have := List.count_pos_iff.mpr hr
    simp only [waitingCount]
    omega
  · intro ids r hcm
    obtain ⟨reply, hr, hsent⟩ := hdirect hcm rfl rfl rfl rfl
    obtain ⟨d, hdm, hdr, hreq⟩ := (ha.sound _ hr).request hh
    obtain rfl := hdist.eq_of_responder hdm hcm hdr
    cases reply with
    | tbAccounts x => exact ⟨x, hsent⟩
    | _ => simp at hreq
  · intro ids r hcm
    obtain ⟨reply, hr, hsent⟩ := hdirect hcm rfl rfl rfl rfl
    obtain ⟨d, hdm, hdr, hreq⟩ := (ha.sound _ hr).request hh
    obtain rfl := hdist.eq_of_responder hdm hcm hdr
    cases reply with
    | balances x => exact ⟨x, hsent⟩
    | _ => simp at hreq

/-- Two transfers, the first in a call that fails after it was applied, and a
lookup between them. -/
def shortTraffic : List WorkerEvent :=
  [.command ⟨.createTransfer ⟨10, 1, 2, 50, 0, 0, 0, 0, 0, 1, 1, 0, 0⟩, 0⟩ (.err true ⟨"", ""⟩),
   .command ⟨.getAccountBalances [1, 2], 1⟩ .ok,
   .command ⟨.createTransfer ⟨11, 1, 2, 50, 0, 0, 0, 0, 0, 1, 1, 0, 0⟩, 2⟩ .ok, .tick .allOk]

theorem atLoopStart_shortTraffic :
    ((start .empty).run .reference 0 shortTraffic).received =
        shortTraffic.filterMap WorkerEvent.command? ∧
      AtLoopStart .reference 0 ((start .empty).run .reference 0 shortTraffic) :=
  atLoopStart_run .reference 0 .empty shortTraffic (by decide)

end Worker

end Wurzburg.Tb
