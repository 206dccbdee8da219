import Wurzburg.TigerBeetle.LedgerInv
import Mathlib.Logic.Relation

/-!
# Wurzburg.TigerBeetle.ReadYourWrites

What a lookup sees of what was written before it was sent.

`Desk` is the worker with the channel in front of it and the callers on the
other side: any number of them send commands, each with a new response channel,
and take answers, in any interleaving with the worker's loop. A ledger only ever
moves by accepting items (`Later`), so everything a caller was told to be
accepted is in the past of every ledger a later lookup is evaluated against.
-/

namespace Wurzburg.Tb

/-! ### The past of a ledger -/

section Later

variable (tb : TigerBeetle) (ok : AppTransfer → Prop)

/-- The ledger moves by accepting one item; the transfers among them are `ok`. -/
inductive Ledger.Accepts : Ledger → Ledger → Prop
  | transfer {l l'} {t : AppTransfer} : ok t → tb.createTransfer l (toTbTransfer t) = .ok l' →
      Accepts l l'
  | account {l l'} {a : AppAccount} : tb.createAccount l (toTbAccount a) = .ok l' → Accepts l l'

/-- A ledger that comes later: the server has accepted some items in between. -/
def Ledger.Later : Ledger → Ledger → Prop := Relation.ReflTransGen (Ledger.Accepts tb ok)

/-- The effect of a transfer is in the ledger: the server accepted it, and has
only accepted further items since. -/
def Ledger.HasTransfer (t : Transfer) (l : Ledger) : Prop :=
  ∃ l₀ l₁, tb.createTransfer l₀ t = .ok l₁ ∧ Later tb ok l₁ l

/-- The same for an account. -/
def Ledger.HasAccount (a : Account) (l : Ledger) : Prop :=
  ∃ l₀ l₁, tb.createAccount l₀ a = .ok l₁ ∧ Later tb ok l₁ l

variable {tb ok} {l l' : Ledger}

namespace Ledger

theorem Later.refl (l : Ledger) : Later tb ok l l := Relation.ReflTransGen.refl

theorem Later.trans {l'' : Ledger} (h : Later tb ok l l') (h' : Later tb ok l' l'') :
    Later tb ok l l'' :=
  Relation.ReflTransGen.trans h h'

theorem HasTransfer.later {t : Transfer} (h : HasTransfer tb ok t l) (hl : Later tb ok l l') :
    HasTransfer tb ok t l' := by
  obtain ⟨l₀, l₁, hx, hlater⟩ := h
  exact ⟨l₀, l₁, hx, hlater.trans hl⟩

theorem HasAccount.later {a : Account} (h : HasAccount tb ok a l) (hl : Later tb ok l l') :
    HasAccount tb ok a l' := by
  obtain ⟨l₀, l₁, hx, hlater⟩ := h
  exact ⟨l₀, l₁, hx, hlater.trans hl⟩

/-- Accepting transfers without flags, and accounts, forgets no transfer and
takes nothing back from an account. -/
theorem Later.grows (h : Later tb ok l l') (hplain : ∀ t, ok t → t.flags = 0) :
    l.transfers <+: l'.transfers ∧ ∀ id a, l.account? id = some a → ∃ b, l'.account? id = some b ∧
      a.debitsPosted ≤ b.debitsPosted ∧ a.creditsPosted ≤ b.creditsPosted := by
  induction h with
  | refl => exact ⟨List.prefix_refl _, fun id a ha => ⟨a, ha, Nat.le_refl _, Nat.le_refl _⟩⟩
  | tail _ hstep ih =>
      obtain ⟨hpre, hacc⟩ := ih
      cases hstep with
      | transfer hok hx =>
          obtain rfl := tb.createTransfer_post hx (hplain _ hok)
          refine ⟨hpre.trans (List.prefix_append _ _), fun id a ha => ?_⟩
          obtain ⟨b, hb, hd, hc⟩ := hacc id a ha
          refine ⟨b.post _, by rw [post_account?, hb]; rfl, ?_, ?_⟩
          · rw [Account.post_debitsPosted]
            omega
          · rw [Account.post_creditsPosted]
            omega
      | account hx =>
          obtain ⟨rfl, -⟩ := tb.createAccount_ok hx
          refine ⟨hpre, fun id a ha => ?_⟩
          obtain ⟨b, hb, hd, hc⟩ := hacc id a ha
          refine ⟨b, ?_, hd, hc⟩
          rw [account?] at hb ⊢
          rw [addAccount_accounts, List.find?_append, hb]
          rfl

/-- A transfer is stored, and its amount is part of what its two accounts show. -/
structure Shows (t : AppTransfer) (l : Ledger) : Prop where
  stored : toTbTransfer t ∈ l.transfers
  debited : ∃ a, l.account? t.debitAccountId = some a ∧ t.amount ≤ a.debitsPosted
  credited : ∃ a, l.account? t.creditAccountId = some a ∧ t.amount ≤ a.creditsPosted

/-- The effect of a transfer without flags, among such, shows. -/
theorem HasTransfer.shows {t : AppTransfer} (h : HasTransfer tb ok (toTbTransfer t) l)
    (hplain : ∀ t, ok t → t.flags = 0) (ht : t.flags = 0) : Shows t l := by
  obtain ⟨l₀, l₁, hx, hlater⟩ := h
  obtain ⟨hd, hc, -⟩ := tb.createTransfer_accounts hx ht
  obtain rfl := tb.createTransfer_post hx ht
  obtain ⟨hpre, hacc⟩ := hlater.grows hplain
  refine ⟨hpre.subset (by simp), ?_, ?_⟩
  · obtain ⟨a, ha⟩ := Option.isSome_iff_exists.mp hd
    obtain ⟨b, hb, hle, -⟩ := hacc _ (a.post (toTbTransfer t)) (by rw [post_account?, ha]; rfl)
    refine ⟨b, hb, ?_⟩
    rw [Account.post_debitsPosted, if_pos (account?_id ha)] at hle
    exact Nat.le_trans (Nat.le_add_left _ _) hle
  · obtain ⟨a, ha⟩ := Option.isSome_iff_exists.mp hc
    obtain ⟨b, hb, -, hle⟩ := hacc _ (a.post (toTbTransfer t)) (by rw [post_account?, ha]; rfl)
    refine ⟨b, hb, ?_⟩
    rw [Account.post_creditsPosted, if_pos (account?_id ha)] at hle
    exact Nat.le_trans (Nat.le_add_left _ _) hle

/-- A created account is found, when the transfers have no flags. -/
theorem HasAccount.found {a : Account} (h : HasAccount tb ok a l)
    (hplain : ∀ t, ok t → t.flags = 0) : ∃ b, l.account? a.id = some b := by
  obtain ⟨l₀, l₁, hx, hlater⟩ := h
  obtain ⟨rfl, hfree⟩ := tb.createAccount_ok hx
  obtain ⟨b, hb, -⟩ := (hlater.grows hplain).2 a.id a (by
    rw [account?] at hfree ⊢
    rw [addAccount_accounts, List.find?_append, hfree]
    simp)
  exact ⟨b, hb⟩

end Ledger

end Later

/-! ### What the worker has told -/

namespace Worker

variable {tb : TigerBeetle} {ok : AppTransfer → Prop} {n : Nat} {w w' : Worker}

/-- A flush moves the ledger forward. -/
theorem Flush.later (hf : Flush tb w w') (hok : ∀ t ∈ w.transferBuf.batch, ok t) :
    w.ledger.Later tb ok w'.ledger := by
  refine hf.ledger_induction (motive := w.ledger.Later tb ok) ?_ ?_ (.refl _)
  · exact fun t ht l l' hl hx => hl.tail (.transfer (hok t ht) hx)
  · exact fun a _ l l' hl hx => hl.tail (.account hx)

/-- Every batch that was answered with the empty list is in the ledger. -/
structure Told (tb : TigerBeetle) (ok : AppTransfer → Prop) (w : Worker) : Prop where
  transfers : ∀ s ∈ w.transferLog, transferResults tb s = .ok [] →
    ∀ t ∈ s.items, w.ledger.HasTransfer tb ok (toTbTransfer t)
  accounts : ∀ s ∈ w.accountLog, accountResults tb s = .ok [] →
    ∀ a ∈ s.items, w.ledger.HasAccount tb ok (toTbAccount a)

theorem Told.start (l : Ledger) : Told tb ok (Worker.start l) := by
  constructor <;> simp [Worker.start]

theorem Told.flush (h : Told tb ok w) (hf : Flush tb w w')
    (hok : ∀ t ∈ w.transferBuf.batch, ok t) : Told tb ok w' := by
  have hlater := hf.later hok
  have ht : ∀ s ∈ w.transferLog, transferResults tb s = .ok [] →
      ∀ t ∈ s.items, w'.ledger.HasTransfer tb ok (toTbTransfer t) :=
    fun s hs hr t ht => (h.transfers s hs hr t ht).later hlater
  have ha : ∀ s ∈ w.accountLog, accountResults tb s = .ok [] →
      ∀ a ∈ s.items, w'.ledger.HasAccount tb ok (toTbAccount a) :=
    fun s hs hr a ha => (h.accounts s hs hr a ha).later hlater
  cases hf with
  | transfers o _ =>
      refine ⟨fun s hs hr t htm => ?_, ha⟩
      rcases List.mem_append.mp hs with hs | hs
      · exact ht s hs hr t htm
      · obtain rfl := List.mem_singleton.mp hs
        obtain ⟨rfl, hnil⟩ := Submitted.results_eq_ok.mp hr
        have hempty : (applyBatch tb.createTransfer w.ledger 0
            (w.transferBuf.batch.map toTbTransfer)).1 = [] := by
          simpa [serveTransfers] using hnil.symm
        refine applyBatch_accepts tb.createTransfer (P := fun u l => l.HasTransfer tb ok u) ?_ ?_
          hempty _ (List.mem_map_of_mem htm)
        · exact fun x _ l l' hx => ⟨l, l', hx, .refl _⟩
        · intro x y hy l l' hxl hx
          obtain ⟨u, hu, rfl⟩ := List.mem_map.mp hy
          exact hxl.later (.single (.transfer (hok u hu) hx))
  | accounts o _ =>
      refine ⟨ht, fun s hs hr a ham => ?_⟩
      rcases List.mem_append.mp hs with hs | hs
      · exact ha s hs hr a ham
      · obtain rfl := List.mem_singleton.mp hs
        obtain ⟨rfl, hnil⟩ := Submitted.results_eq_ok.mp hr
        have hempty : (applyBatch tb.createAccount w.ledger 0
            (w.accountBuf.batch.map toTbAccount)).1 = [] := by
          simpa [serveAccounts] using hnil.symm
        refine applyBatch_accepts tb.createAccount (P := fun u l => l.HasAccount tb ok u) ?_ ?_
          hempty _ (List.mem_map_of_mem ham)
        · exact fun x _ l l' hx => ⟨l, l', hx, .refl _⟩
        · intro x y hy l l' hxl hx
          obtain ⟨u, hu, rfl⟩ := List.mem_map.mp hy
          exact hxl.later (.single (.account hx))
  | lookupAccounts o _ => exact ⟨ht, ha⟩
  | lookupTransfers o _ => exact ⟨ht, ha⟩

/-- Arrivals hand nothing over. -/
theorem arrive_frame (cmd : TbCommand) (o : CallOutcome) (w : Worker) :
    (w.arrive cmd o).accountLog = w.accountLog ∧
      (w.arrive cmd o).lookupAccLog = w.lookupAccLog := by
  obtain ⟨request, r⟩ := cmd
  cases request <;> exact ⟨rfl, rfl⟩

theorem Told.arrive (h : Told tb ok w) (cmd : TbCommand) (o : CallOutcome) :
    Told tb ok (w.arrive cmd o) where
  transfers := by
    rw [arrive_transferLog, arrive_ledger]
    exact h.transfers
  accounts := by
    rw [(arrive_frame cmd o w).1, arrive_ledger]
    exact h.accounts

/-- The lookups a flush evaluates are evaluated against the ledger before it. -/
theorem Flush.lookupAccLog (hf : Flush tb w w') :
    ∀ s ∈ w'.lookupAccLog, s ∈ w.lookupAccLog ∨ s.before = w.ledger := by
  intro s hs
  cases hf with
  | lookupAccounts o _ =>
      rcases List.mem_append.mp hs with hs | hs
      · exact Or.inl hs
      · obtain rfl := List.mem_singleton.mp hs
        exact Or.inr rfl
  | _ => exact Or.inl hs

/-- A worker some time after `w`: the ledger has moved forward, and every lookup
evaluated since was evaluated against a later ledger. -/
structure Ahead (tb : TigerBeetle) (ok : AppTransfer → Prop) (w w' : Worker) : Prop where
  told : Told tb ok w'
  ledger : w.ledger.Later tb ok w'.ledger
  lookups : ∀ s ∈ w'.lookupAccLog, s ∈ w.lookupAccLog ∨ w.ledger.Later tb ok s.before

/-- One turn of the loop, whose transfers are `ok`. -/
theorem ahead_turn {e : WorkerEvent} (hh : History w) (htold : Told tb ok w)
    (hok : ∀ t r, ⟨.createTransfer t, r⟩ ∈ (w.turn tb n e).received → ok t) :
    Ahead tb ok w (w.turn tb n e) := by
  have hturn : History (w.turn tb n e) ∧
      ((∀ t r, ⟨.createTransfer t, r⟩ ∈ (w.turn tb n e).received → ok t) →
        Ahead tb ok w (w.turn tb n e)) := by
    refine turn_induction (motive := fun w' => History w' ∧
      ((∀ t r, ⟨.createTransfer t, r⟩ ∈ w'.received → ok t) → Ahead tb ok w w')) ?_ ?_ ?_
    · intro w₁ w₂ ⟨hh₁, h₁⟩ hf
      have hrec : w₂.received = w₁.received := by cases hf <;> rfl
      refine ⟨hh₁.flush hf, fun hok => ?_⟩
      rw [hrec] at hok
      obtain ⟨htold₁, hlater, hlog⟩ := h₁ hok
      have hbatch : ∀ t ∈ w₁.transferBuf.batch, ok t := by
        intro t ht
        obtain ⟨r, hr⟩ := hh₁.transfer_buffered ht
        exact hok t r hr
      refine ⟨htold₁.flush hf hbatch, hlater.trans (hf.later hbatch), fun s hs => ?_⟩
      rcases hf.lookupAccLog s hs with hs | hs
      · exact hlog s hs
      · rw [hs]
        exact Or.inr hlater
    · intro cmd o _
      refine ⟨hh.arrive cmd o, fun _ => ⟨htold.arrive cmd o, ?_, fun s hs => Or.inl ?_⟩⟩
      · rw [arrive_ledger]
        exact .refl _
      · rwa [(arrive_frame cmd o w).2] at hs
    · exact ⟨hh, fun _ => ⟨htold, .refl _, fun s hs => Or.inl hs⟩⟩
  exact hturn.2 hok

/-- A turn takes no message back. -/
theorem turn_replies (w : Worker) (e : WorkerEvent) :
    w.replies <+: (w.turn tb n e).replies := by
  refine turn_induction (motive := fun w' => w.replies <+: w'.replies) ?_ ?_ (List.prefix_refl _)
  · intro w₁ w₂ h hf
    cases hf <;> exact h.trans (List.prefix_append _ _)
  · intro cmd o _
    obtain ⟨request, r⟩ := cmd
    cases request <;>
      first
      | exact List.prefix_refl _
      | exact List.prefix_append _ _

/-- The answers a turn gives outside the batches are those of the command it
takes, read off the ledger before it. -/
theorem turn_direct (w : Worker) (e : WorkerEvent) :
    (∀ r x, (r, .tbAccounts x) ∈ (w.turn tb n e).replies → (r, .tbAccounts x) ∈ w.replies ∨
      ∃ ids o, e = .command ⟨.lookupAccounts ids, r⟩ o ∧ x = lookupDirect w.ledger ids o) ∧
    (∀ r x, (r, .balances x) ∈ (w.turn tb n e).replies → (r, .balances x) ∈ w.replies ∨
      ∃ ids o, e = .command ⟨.getAccountBalances ids, r⟩ o ∧
        x = (lookupDirect w.ledger ids o).map (List.map balanceOf)) := by
  refine turn_induction (motive := fun w' =>
    (∀ r x, (r, .tbAccounts x) ∈ w'.replies → (r, .tbAccounts x) ∈ w.replies ∨
      ∃ ids o, e = .command ⟨.lookupAccounts ids, r⟩ o ∧ x = lookupDirect w.ledger ids o) ∧
    (∀ r x, (r, .balances x) ∈ w'.replies → (r, .balances x) ∈ w.replies ∨
      ∃ ids o, e = .command ⟨.getAccountBalances ids, r⟩ o ∧
        x = (lookupDirect w.ledger ids o).map (List.map balanceOf))) ?_ ?_ ?_
  · intro w₁ w₂ ⟨hread, hbal⟩ hf
    have hnew : ∃ rs reply, w₂.replies = (w₁.answerAll rs reply).replies ∧
        (∀ x, reply ≠ .tbAccounts x) ∧ ∀ x, reply ≠ .balances x := by
      cases hf <;> exact ⟨_, _, rfl, by simp, by simp⟩
    obtain ⟨rs, reply, hw, h₁, h₂⟩ := hnew
    rw [hw]
    refine ⟨fun r x hr => ?_, fun r x hr => ?_⟩
    · rcases mem_answerAll hr with hr | hr
      · exact hread r x hr
      · exact absurd hr.2.symm (h₁ x)
    · rcases mem_answerAll hr with hr | hr
      · exact hbal r x hr
      · exact absurd hr.2.symm (h₂ x)
  · intro cmd o he
    obtain ⟨request, r'⟩ := cmd
    cases request with
    | lookupAccounts ids =>
        refine ⟨fun r x hr => ?_, fun r x hr => ?_⟩
        · rcases mem_answerAll hr with hr | hr
          · exact Or.inl hr
          · obtain rfl := List.mem_singleton.mp hr.1
            exact Or.inr ⟨ids, o, he, TbReply.tbAccounts.inj hr.2⟩
        · rcases mem_answerAll hr with hr | hr
          · exact Or.inl hr
          · simp at hr
    | getAccountBalances ids =>
        refine ⟨fun r x hr => ?_, fun r x hr => ?_⟩
        · rcases mem_answerAll hr with hr | hr
          · exact Or.inl hr
          · simp at hr
        · rcases mem_answerAll hr with hr | hr
          · exact Or.inl hr
          · obtain rfl := List.mem_singleton.mp hr.1
            exact Or.inr ⟨ids, o, he, TbReply.balances.inj hr.2⟩
    | _ => exact ⟨fun r x hr => Or.inl hr, fun r x hr => Or.inl hr⟩
  · exact ⟨fun r x hr => Or.inl hr, fun r x hr => Or.inl hr⟩

/-- What one turn receives. -/
theorem received_turn (w : Worker) (e : WorkerEvent) :
    (w.turn tb n e).received = w.received ++ e.command?.toList := by
  have h := @received_run tb n w [e]
  rw [run_cons, run_nil] at h
  rw [h]
  cases e <;> rfl

end Worker

/-! ### Callers -/

/-- The worker, the channel in front of it, and what the callers have been told. -/
structure Desk where
  worker : Worker
  channel : List TbCommand
  /-- What the callers' awaits have returned so far. -/
  returned : List (ResponderId × TbReply)
  /-- The ledgers the commands answered outside the batches were evaluated
  against; a history variable. -/
  direct : List (ResponderId × Ledger)

/-- One step of a caller, or of the worker. -/
inductive DeskEvent where
  /-- A caller sends a command. -/
  | send (cmd : TbCommand)
  /-- The await of a caller returns. -/
  | answer (r : ResponderId)
  /-- The worker takes a command off the channel. -/
  | receive (o : CallOutcome)
  /-- The worker's timer ticks. -/
  | tick (o : Worker.TickOutcomes)
  deriving DecidableEq, Repr

namespace Desk

variable (tb : TigerBeetle) (n : Nat)

def start (l : Ledger) : Desk := ⟨.start l, [], [], []⟩

/-- The commands sent so far. -/
def asked (d : Desk) : List TbCommand := d.worker.received ++ d.channel

/-- The ledger a command is evaluated against on arrival, when it is one that is
answered outside the batches. -/
def evaluateDirect (d : Desk) (cmd : TbCommand) : List (ResponderId × Ledger) :=
  match cmd.request with
  | .lookupAccounts _ | .getAccountBalances _ => [(cmd.responder, d.worker.ledger)]
  | _ => []

/-- One step; `none` when it cannot be taken. Every command comes with a new
response channel, and an await returns only what was sent. -/
def step (d : Desk) : DeskEvent → Option Desk
  | .send cmd =>
      if cmd.responder ∈ d.asked.map TbCommand.responder then none
      else some { d with channel := d.channel ++ [cmd] }
  | .answer r =>
      match d.worker.replies.find? (fun p => p.1 = r) with
      | some p => some { d with returned := d.returned ++ [p] }
      | none => none
  | .receive o =>
      match d.channel with
      | [] => none
      | cmd :: rest => some { d with
          worker := d.worker.turn tb n (.command cmd o)
          channel := rest
          direct := d.direct ++ d.evaluateDirect cmd }
  | .tick o => some { d with worker := d.worker.turn tb n (.tick o) }

/-- An interleaving of callers and worker. -/
def run (d : Desk) : List DeskEvent → Option Desk
  | [] => some d
  | e :: es => (d.step tb n e).bind (fun d' => d'.run es)

/-- The lookup with this responder was evaluated against this ledger. -/
def Evaluated (d : Desk) (r : ResponderId) (l : Ledger) : Prop :=
  (r, l) ∈ d.direct ∨ ∃ s ∈ d.worker.lookupAccLog, r ∈ s.responders ∧ s.before = l

/-- This answer to a lookup was read off a ledger that the lookup was evaluated against. -/
def ReadFrom (d : Desk) (lookup : TbCommand) : TbReply → Prop
  | .accounts x => ∃ s ∈ d.worker.lookupAccLog, lookup.responder ∈ s.responders ∧
      d.Evaluated lookup.responder s.before ∧ x = Worker.lookupAccResults s
  | .tbAccounts x => ∃ l ids o, lookup.request = .lookupAccounts ids ∧
      d.Evaluated lookup.responder l ∧ x = Worker.lookupDirect l ids o
  | .balances x => ∃ l ids o, lookup.request = .getAccountBalances ids ∧
      d.Evaluated lookup.responder l ∧
        x = (Worker.lookupDirect l ids o).map (List.map Worker.balanceOf)
  | _ => True

variable {tb : TigerBeetle} {ok : AppTransfer → Prop} {n : Nat} {d d' : Desk}

/-- What holds of a desk whose transfers are `ok`. -/
structure Inv (tb : TigerBeetle) (ok : AppTransfer → Prop) (d : Desk) : Prop where
  history : d.worker.History
  answers : d.worker.Answers tb
  told : d.worker.Told tb ok
  distinct : (d.asked.map TbCommand.responder).Nodup
  returned : d.returned ⊆ d.worker.replies
  permitted : ∀ t r, ⟨.createTransfer t, r⟩ ∈ d.asked → ok t
  direct : ∀ p ∈ d.direct, p.1 ∈ d.asked.map TbCommand.responder
  /-- The commands answered outside the batches are answered from the ledger
  recorded for them. -/
  read : ∀ r x, (r, .tbAccounts x) ∈ d.worker.replies →
    ∃ l ids o, (r, l) ∈ d.direct ∧ ⟨.lookupAccounts ids, r⟩ ∈ d.worker.received ∧
      x = Worker.lookupDirect l ids o
  balances : ∀ r x, (r, .balances x) ∈ d.worker.replies →
    ∃ l ids o, (r, l) ∈ d.direct ∧ ⟨.getAccountBalances ids, r⟩ ∈ d.worker.received ∧
      x = (Worker.lookupDirect l ids o).map (List.map Worker.balanceOf)

/-- What has changed on a desk since `d`. -/
structure Since (tb : TigerBeetle) (ok : AppTransfer → Prop) (d d' : Desk) : Prop where
  ledger : d.worker.ledger.Later tb ok d'.worker.ledger
  lookups : ∀ s ∈ d'.worker.lookupAccLog, s ∈ d.worker.lookupAccLog ∨
    d.worker.ledger.Later tb ok s.before
  direct : ∀ p ∈ d'.direct, p ∈ d.direct ∨ d.worker.ledger.Later tb ok p.2

theorem Inv.start (l : Ledger) : Inv tb ok (Desk.start l) where
  history := .start l
  answers := .start l
  told := .start l
  distinct := by simp [asked, Desk.start, Worker.start]
  returned := List.Subset.refl _
  permitted := by simp [asked, Desk.start, Worker.start]
  direct := by simp [Desk.start]
  read := by simp [Desk.start, Worker.start]
  balances := by simp [Desk.start, Worker.start]

theorem Since.refl (d : Desk) : Since tb ok d d :=
  ⟨.refl _, fun _ hs => Or.inl hs, fun _ hp => Or.inl hp⟩

theorem Since.trans {d'' : Desk} (h : Since tb ok d d') (h' : Since tb ok d' d'') :
    Since tb ok d d'' where
  ledger := h.ledger.trans h'.ledger
  lookups := by
    intro s hs
    rcases h'.lookups s hs with hs | hs
    · exact h.lookups s hs
    · exact Or.inr (h.ledger.trans hs)
  direct := by
    intro p hp
    rcases h'.direct p hp with hp | hp
    · exact h.direct p hp
    · exact Or.inr (h.ledger.trans hp)

/-- A turn of the worker's loop on a command or a tick. -/
private theorem Inv.turn (h : Inv tb ok d) {e : WorkerEvent} {channel : List TbCommand}
    {direct : List (ResponderId × Ledger)} (hchan : d.channel = e.command?.toList ++ channel)
    (hdirect : direct = d.direct ++ e.command?.toList.flatMap d.evaluateDirect) :
    Inv tb ok ⟨d.worker.turn tb n e, channel, d.returned, direct⟩ ∧
      Since tb ok d ⟨d.worker.turn tb n e, channel, d.returned, direct⟩ := by
  have hasked : (d.worker.turn tb n e).received ++ channel = d.asked := by
    rw [Worker.received_turn, List.append_assoc, ← hchan]
    rfl
  have hahead : Worker.Ahead tb ok d.worker (d.worker.turn tb n e) := by
    refine Worker.ahead_turn h.history h.told (fun t r hr => h.permitted t r ?_)
    rw [← hasked]
    exact List.mem_append_left _ hr
  -- a direct lookup is evaluated on the ledger before the turn
  have hevaluated : ∀ p ∈ direct, p ∈ d.direct ∨
      p.2 = d.worker.ledger ∧ p.1 ∈ d.asked.map TbCommand.responder := by
    intro p hp
    rw [hdirect] at hp
    rcases List.mem_append.mp hp with hp | hp
    · exact Or.inl hp
    · obtain ⟨cmd, hcmd, hp⟩ := List.mem_flatMap.mp hp
      have hmem : cmd.responder ∈ d.asked.map TbCommand.responder := by
        refine List.mem_map_of_mem (List.mem_append_right _ ?_)
        rw [hchan]
        exact List.mem_append_left _ hcmd
      unfold evaluateDirect at hp
      split at hp
      · rw [List.mem_singleton.mp hp]
        exact Or.inr ⟨rfl, hmem⟩
      · rw [List.mem_singleton.mp hp]
        exact Or.inr ⟨rfl, hmem⟩
      · simp at hp
  have hold : d.direct ⊆ direct := by
    rw [hdirect]
    exact List.subset_append_left _ _
  have hreceived : d.worker.received ⊆ (d.worker.turn tb n e).received := by
    rw [Worker.received_turn]
    exact List.subset_append_left _ _
  obtain ⟨hread, hbal⟩ := @Worker.turn_direct tb n d.worker e
  refine ⟨⟨?_, ?_, hahead.told, ?_, ?_, ?_, fun p hp => ?_, fun r x hr => ?_, fun r x hr => ?_⟩,
    ⟨hahead.ledger, hahead.lookups, fun p hp => ?_⟩⟩
  -- what the history and the answers say is kept by each arrival and each flush of the turn
  · exact Worker.turn_induction (fun _ _ h hf => h.flush hf)
      (fun cmd o _ => h.history.arrive cmd o) h.history
  · exact Worker.turn_induction (fun _ _ h hf => h.flush hf)
      (fun cmd o _ => h.answers.arrive cmd o) h.answers
  · rw [asked, hasked]
    exact h.distinct
  · exact List.Subset.trans h.returned (Worker.turn_replies _ _).subset
  · rw [asked, hasked]
    exact h.permitted
  · rw [asked, hasked]
    rcases hevaluated p hp with hp | hp
    · exact h.direct p hp
    · exact hp.2
  · rcases hread r x hr with hr | ⟨ids, o, rfl, rfl⟩
    · obtain ⟨l, ids, o, hl, hcmd, hx⟩ := h.read r x hr
      exact ⟨l, ids, o, hold hl, hreceived hcmd, hx⟩
    · refine ⟨d.worker.ledger, ids, o, ?_, ?_, rfl⟩
      · simp [hdirect, WorkerEvent.command?, evaluateDirect]
      · simp [Worker.received_turn, WorkerEvent.command?]
  · rcases hbal r x hr with hr | ⟨ids, o, rfl, rfl⟩
    · obtain ⟨l, ids, o, hl, hcmd, hx⟩ := h.balances r x hr
      exact ⟨l, ids, o, hold hl, hreceived hcmd, hx⟩
    · refine ⟨d.worker.ledger, ids, o, ?_, ?_, rfl⟩
      · simp [hdirect, WorkerEvent.command?, evaluateDirect]
      · simp [Worker.received_turn, WorkerEvent.command?]
  · rcases hevaluated p hp with hp | hp
    · exact Or.inl hp
    · rw [hp.1]
      exact Or.inr (.refl _)

/-- One step of a caller or of the worker. -/
theorem Inv.step (h : Inv tb ok d) {e : DeskEvent} (hs : d.step tb n e = some d')
    (hok : ∀ t r, e = .send ⟨.createTransfer t, r⟩ → ok t) : Inv tb ok d' ∧ Since tb ok d d' := by
  cases e with
  | send cmd =>
      rw [Desk.step] at hs
      split at hs
      · simp at hs
      · next hnew =>
          obtain rfl := Option.some.inj hs
          refine ⟨⟨h.history, h.answers, h.told, ?_, h.returned, fun t r hr => ?_, fun p hp => ?_,
            h.read, h.balances⟩, ⟨.refl _, fun _ hs => Or.inl hs, fun _ hp => Or.inl hp⟩⟩
          · rw [asked, ← List.append_assoc, List.map_append]
            refine List.nodup_append.mpr ⟨h.distinct, by simp, ?_⟩
            intro r hr r' hr'
            rintro rfl
            obtain rfl : r = cmd.responder := by simpa using hr'
            exact hnew hr
          · rw [asked, ← List.append_assoc] at hr
            rcases List.mem_append.mp hr with hr | hr
            · exact h.permitted t r hr
            · exact hok t r (by rw [List.mem_singleton.mp hr])
          · rw [asked, ← List.append_assoc, List.map_append]
            exact List.mem_append_left _ (h.direct p hp)
  | answer r =>
      simp only [Desk.step] at hs
      split at hs
      · next p hp =>
          obtain rfl := Option.some.inj hs
          refine ⟨⟨h.history, h.answers, h.told, h.distinct, ?_, h.permitted, h.direct, h.read,
            h.balances⟩, ⟨.refl _, fun _ hs => Or.inl hs, fun _ hp => Or.inl hp⟩⟩
          refine List.append_subset.mpr ⟨h.returned, fun q hq => ?_⟩
          rw [List.mem_singleton.mp hq]
          exact List.mem_of_find?_eq_some hp
      · simp at hs
  | receive o =>
      simp only [Desk.step] at hs
      split at hs
      · simp at hs
      · next cmd rest hchan =>
          obtain rfl := Option.some.inj hs
          exact h.turn hchan (by simp [WorkerEvent.command?])
  | tick o =>
      obtain rfl := Option.some.inj hs
      exact h.turn rfl (by simp [WorkerEvent.command?])

/-- A run of callers and worker. -/
theorem Inv.run (h : Inv tb ok d) {es : List DeskEvent} (hr : d.run tb n es = some d')
    (hok : ∀ t r, .send ⟨.createTransfer t, r⟩ ∈ es → ok t) : Inv tb ok d' ∧ Since tb ok d d' := by
  induction es generalizing d with
  | nil =>
      obtain rfl := Option.some.inj hr
      exact ⟨h, .refl d⟩
  | cons e es ih =>
      obtain ⟨d₁, hs, hr⟩ := Option.bind_eq_some_iff.mp hr
      obtain ⟨h₁, hsince⟩ := h.step hs (fun t r he => hok t r (by simp [he]))
      obtain ⟨h', hsince'⟩ := ih h₁ hr (fun t r he => hok t r (List.mem_cons_of_mem _ he))
      exact ⟨h', hsince.trans hsince'⟩

/-- A lookup that was not sent yet has not been evaluated. -/
theorem Inv.not_evaluated (h : Inv tb ok d) {r : ResponderId} {l : Ledger}
    (hr : r ∉ d.asked.map TbCommand.responder) : ¬ d.Evaluated r l := by
  intro hl
  rcases hl with hl | ⟨s, hs, hrs, -⟩
  · exact hr (h.direct _ hl)
  · obtain ⟨i, hi⟩ := List.getElem?_of_mem hrs
    obtain ⟨x, hx⟩ := h.history.lookupAccs.exists_item hs hi
    have hrec := h.history.lookupAcc_received hs hx hi
    exact hr (List.mem_map.mpr ⟨_, List.mem_append_left _ hrec, rfl⟩)

/-- A lookup sent after `d` is evaluated against a later ledger. -/
theorem Since.evaluated (h : Since tb ok d d') {r : ResponderId} {l : Ledger}
    (hold : ¬ ∃ l, d.Evaluated r l) (hl : d'.Evaluated r l) :
    d.worker.ledger.Later tb ok l := by
  rcases hl with hl | ⟨s, hs, hrs, rfl⟩
  · rcases h.direct _ hl with hl | hl
    · exact absurd ⟨l, Or.inl hl⟩ hold
    · exact hl
  · rcases h.lookups s hs with hs | hs
    · exact absurd ⟨_, Or.inr ⟨s, hs, hrs, rfl⟩⟩ hold
    · exact hs

/-- What was sent stays sent. -/
theorem asked_run {es : List DeskEvent} (hr : d.run tb n es = some d') {c : TbCommand}
    (hc : c ∈ d.asked ∨ .send c ∈ es) : c ∈ d'.asked := by
  induction es generalizing d with
  | nil =>
      obtain rfl := Option.some.inj hr
      exact hc.resolve_right (by simp)
  | cons e es ih =>
      obtain ⟨d₁, hs, hr⟩ := Option.bind_eq_some_iff.mp hr
      refine ih hr ?_
      cases e with
      | send cmd =>
          rw [Desk.step] at hs
          split at hs
          · simp at hs
          · obtain rfl := Option.some.inj hs
            rcases hc with hc | hc
            · refine Or.inl ?_
              rw [asked, ← List.append_assoc]
              exact List.mem_append_left _ hc
            · rcases List.mem_cons.mp hc with hc | hc
              · refine Or.inl ?_
                rw [asked, ← List.append_assoc, DeskEvent.send.inj hc]
                exact List.mem_append_right _ (List.mem_singleton_self _)
              · exact Or.inr hc
      | answer r =>
          simp only [Desk.step] at hs
          split at hs
          · obtain rfl := Option.some.inj hs
            simpa [asked] using hc
          · simp at hs
      | receive o =>
          simp only [Desk.step] at hs
          split at hs
          · simp at hs
          · next cmd rest hchan =>
              obtain rfl := Option.some.inj hs
              have hasked : asked ⟨d.worker.turn tb n (.command cmd o), rest, d.returned,
                  d.direct ++ d.evaluateDirect cmd⟩ = d.asked := by
                simp only [asked, Worker.received_turn, hchan, WorkerEvent.command?,
                  Option.toList_some, List.append_assoc, List.singleton_append]
              rw [hasked]
              simpa using hc
      | tick o =>
          obtain rfl := Option.some.inj hs
          have hasked : asked { d with worker := d.worker.turn tb n (.tick o) } = d.asked := by
            simp only [asked, Worker.received_turn, WorkerEvent.command?, Option.toList_none,
              List.append_nil]
          rw [hasked]
          simpa using hc

/-- Two commands with one response channel are one command. -/
theorem Inv.eq_of_responder (h : Inv tb ok d) {c c' : TbCommand} (hc : c ∈ d.asked)
    (hc' : c' ∈ d.asked) (hr : c.responder = c'.responder) : c = c' :=
  List.inj_on_of_nodup_map h.distinct hc hc' hr

/-- What a lookup returns is read off a ledger that it was evaluated against. -/
theorem Inv.answer_evaluated (h : Inv tb ok d) {lookup : TbCommand} (hasked : lookup ∈ d.asked)
    {reply : TbReply} (hr : (lookup.responder, reply) ∈ d.worker.replies) :
    d.ReadFrom lookup reply := by
  have hrequest : ∀ {request}, ⟨request, lookup.responder⟩ ∈ d.worker.received →
      lookup.request = request := by
    intro request hmem
    have heq := h.eq_of_responder hasked (List.mem_append_left _ hmem) rfl
    rw [heq]
  cases reply with
  | accounts x =>
      generalize hreply : TbReply.accounts x = reply at hr
      cases h.answers.sound _ hr with
      | lookupAcc hs hrs =>
          obtain rfl := TbReply.accounts.inj hreply
          exact ⟨_, hs, hrs, Or.inr ⟨_, hs, hrs, rfl⟩, rfl⟩
      | _ => simp at hreply
  | tbAccounts x =>
      obtain ⟨l, ids, o, hl, hcmd, hx⟩ := h.read _ x hr
      exact ⟨l, ids, o, hrequest hcmd, Or.inl hl, hx⟩
  | balances x =>
      obtain ⟨l, ids, o, hl, hcmd, hx⟩ := h.balances _ x hr
      exact ⟨l, ids, o, hrequest hcmd, Or.inl hl, hx⟩
  | _ => trivial

/-- A transfer whose caller was told that it was accepted is in the ledger. -/
theorem Inv.told_transfer (h : Inv tb ok d) {t : AppTransfer} {r : ResponderId}
    (hc : ⟨.createTransfer t, r⟩ ∈ d.asked) (hr : (r, .createTransfers (.ok [])) ∈ d.returned) :
    d.worker.ledger.HasTransfer tb ok (toTbTransfer t) := by
  have hans := h.answers.sound _ (h.returned hr)
  generalize hreply : TbReply.createTransfers (.ok []) = reply at hans
  cases hans with
  | @transfers s hs hrs =>
      obtain ⟨i, hi⟩ := List.getElem?_of_mem hrs
      obtain ⟨x, hx⟩ := h.history.transfers.exists_item hs hi
      have hrec := h.history.transfer_received hs hx hi
      -- the item beside the responder is the caller's own
      have heq := h.eq_of_responder (List.mem_append_left _ hrec) hc rfl
      obtain rfl : x = t := by simpa using heq
      exact h.told.transfers s hs (TbReply.createTransfers.inj hreply).symm x
        (List.mem_of_getElem? hx)
  | _ => simp at hreply

/-- The same for an account. -/
theorem Inv.told_account (h : Inv tb ok d) {a : AppAccount} {r : ResponderId}
    (hc : ⟨.createAccount a, r⟩ ∈ d.asked) (hr : (r, .createAccounts (.ok [])) ∈ d.returned) :
    d.worker.ledger.HasAccount tb ok (toTbAccount a) := by
  have hans := h.answers.sound _ (h.returned hr)
  generalize hreply : TbReply.createAccounts (.ok []) = reply at hans
  cases hans with
  | @accounts s hs hrs =>
      obtain ⟨i, hi⟩ := List.getElem?_of_mem hrs
      obtain ⟨x, hx⟩ := h.history.accounts.exists_item hs hi
      have hrec := h.history.account_received hs hx hi
      have heq := h.eq_of_responder (List.mem_append_left _ hrec) hc rfl
      obtain rfl : x = a := by simpa using heq
      exact h.told.accounts s hs (TbReply.createAccounts.inj hreply).symm x
        (List.mem_of_getElem? hx)
  | _ => simp at hreply

/-- The transfers sent in a run. -/
def Sends (es : List DeskEvent) (t : AppTransfer) : Prop :=
  ∃ r, .send ⟨.createTransfer t, r⟩ ∈ es

/-- **Read your own writes.** In every interleaving of callers and worker, for
every size limit and however the calls end: once the await of a creation has
returned the empty list, whatever lookup is sent after that is evaluated against
a ledger that contains the effect of the item; when the transfers of the run
have no flags, the lookup finds the accounts with the amount in their figures.
Every answer of the lookup is read off such a ledger. -/
theorem reads_own_writes {l₀ l : Ledger} {es₁ es₂ : List DeskEvent} {d₁ d₂ : Desk}
    {lookup : TbCommand} (h₁ : (Desk.start l₀).run tb n es₁ = some d₁)
    (h₂ : d₁.run tb n (.send lookup :: es₂) = some d₂)
    (hl : d₂.Evaluated lookup.responder l) :
    (∀ t r, .send ⟨.createTransfer t, r⟩ ∈ es₁ →
      (r, .createTransfers (.ok [])) ∈ d₁.returned →
      l.HasTransfer tb (Sends (es₁ ++ .send lookup :: es₂)) (toTbTransfer t) ∧
      ((∀ u, Sends (es₁ ++ .send lookup :: es₂) u → u.flags = 0) → l.Shows t)) ∧
    (∀ a r, .send ⟨.createAccount a, r⟩ ∈ es₁ →
      (r, .createAccounts (.ok [])) ∈ d₁.returned →
      l.HasAccount tb (Sends (es₁ ++ .send lookup :: es₂)) (toTbAccount a) ∧
      ((∀ u, Sends (es₁ ++ .send lookup :: es₂) u → u.flags = 0) →
        ∃ b, l.account? a.id = some b)) ∧
    ∀ reply, (lookup.responder, reply) ∈ d₂.returned → d₂.ReadFrom lookup reply := by
  have hok₁ : ∀ t r, .send ⟨.createTransfer t, r⟩ ∈ es₁ →
      Sends (es₁ ++ .send lookup :: es₂) t := fun t r h => ⟨r, List.mem_append_left _ h⟩
  have hok₂ : ∀ t r, .send ⟨.createTransfer t, r⟩ ∈ (.send lookup :: es₂ : List DeskEvent) →
      Sends (es₁ ++ .send lookup :: es₂) t := fun t r h => ⟨r, List.mem_append_right _ h⟩
  generalize Sends (es₁ ++ .send lookup :: es₂) = ok at hok₁ hok₂ ⊢
  obtain ⟨hinv, -⟩ := (@Inv.start tb ok l₀).run h₁ hok₁
  obtain ⟨hinv₂, hsince⟩ := hinv.run h₂ hok₂
  -- the lookup's response channel is new, so it is evaluated after it was sent
  have hnew : lookup.responder ∉ d₁.asked.map TbCommand.responder := by
    intro hmem
    simp [Desk.run, Desk.step, hmem] at h₂
  have hlater : d₁.worker.ledger.Later tb ok l :=
    hsince.evaluated (fun ⟨_, h⟩ => hinv.not_evaluated hnew h) hl
  refine ⟨fun t r hsend hret => ?_, fun a r hsend hret => ?_, fun reply hreply => ?_⟩
  · have hhas := (hinv.told_transfer (asked_run h₁ (Or.inr hsend)) hret).later hlater
    exact ⟨hhas, fun hplain => hhas.shows hplain (hplain t (hok₁ t r hsend))⟩
  · have hhas := (hinv.told_account (asked_run h₁ (Or.inr hsend)) hret).later hlater
    exact ⟨hhas, fun hplain => hhas.found hplain⟩
  · exact hinv₂.answer_evaluated (asked_run h₂ (Or.inr (List.mem_cons_self ..)))
      (hinv₂.returned hreply)

/-- A credit of 50 from account 1 to account 2. -/
def smallCredit : AppTransfer := ⟨10, 1, 2, 50, 0, 0, 0, 0, 0, 1, 1, 0, 0⟩

/-- Two accounts, and nothing moved between them yet. -/
def twoAccounts : Ledger :=
  ⟨[⟨1, 0, 0, 0, 0, 0, 0, 0, 1, 100, 0, 0⟩, ⟨2, 0, 0, 0, 0, 0, 0, 0, 1, 200, 2, 0⟩], []⟩

/-- A caller credits account 2 and waits for the answer. -/
def creditAndWait : List DeskEvent :=
  [.send ⟨.createTransfer smallCredit, 0⟩, .receive .ok, .tick .allOk, .answer 0]

/-- It then asks for both balances, outside the batches. -/
def bothBalances : TbCommand := ⟨.getAccountBalances [1, 2], 1⟩

def thenRead : List DeskEvent := [.receive .ok, .answer 1]

theorem reads_own_writes_smallCredit :
    (twoAccounts.post (toTbTransfer smallCredit)).Shows smallCredit ∧
    ∃ d : Desk, (1, .balances (.ok [⟨1, -50, 0⟩, ⟨2, 50, 0⟩])) ∈ d.returned ∧
      d.ReadFrom bothBalances (.balances (.ok [⟨1, -50, 0⟩, ⟨2, 50, 0⟩])) := by
  have hplain : ∀ u, Sends (creditAndWait ++ .send bothBalances :: thenRead) u → u.flags = 0 := by
    intro u ⟨r, hr⟩
    have hu : u = smallCredit ∧ r = 0 := by
      simpa [creditAndWait, thenRead, bothBalances] using hr
    rw [hu.1]
    rfl
  obtain ⟨d₁, h₁, hret⟩ : ∃ d₁, (Desk.start twoAccounts).run .reference 8 creditAndWait = some d₁ ∧
      (0, .createTransfers (.ok [])) ∈ d₁.returned := ⟨_, rfl, by decide⟩
  obtain ⟨d₂, h₂, hl, hread⟩ : ∃ d₂, d₁.run .reference 8 (.send bothBalances :: thenRead) =
      some d₂ ∧ d₂.Evaluated 1 (twoAccounts.post (toTbTransfer smallCredit)) ∧
      (1, .balances (.ok [⟨1, -50, 0⟩, ⟨2, 50, 0⟩])) ∈ d₂.returned := by
    obtain rfl := Option.some.inj h₁
    exact ⟨_, rfl, Or.inl (List.mem_singleton_self _), by decide +kernel⟩
  have hsend : DeskEvent.send ⟨.createTransfer smallCredit, 0⟩ ∈ creditAndWait := by decide
  obtain ⟨htransfers, -, hanswers⟩ := reads_own_writes h₁ h₂ hl
  exact ⟨(htransfers smallCredit 0 hsend hret).2 hplain, d₂, hread, hanswers _ hread⟩

end Desk

end Wurzburg.Tb
