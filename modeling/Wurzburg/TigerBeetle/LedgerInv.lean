import Wurzburg.Lib.DoubleEntry
import Wurzburg.TigerBeetle.WorkerInv

/-!
# Wurzburg.TigerBeetle.LedgerInv

Invariants of the ledger behind the worker.

`Ledger.Sound okT okA` says that a ledger holds nothing but what was asked for:
its transfers satisfy `okT` and its accounts `okA`, ids are unique, every posted
figure is the sum over the transfers, and no credit-limited account is overdrawn.
It is kept by whatever the server accepts, hence by a batch, hence by a turn of
the worker whose buffered items satisfy `okT` and `okA`.
-/

namespace Wurzburg.Tb

open Wurzburg.Lib

/-! ### The ledger as a journal -/

/-- A transfer as a journal entry. -/
def Transfer.entry (t : Transfer) : DoubleEntry.Entry Nat :=
  ⟨t.debitAccountId, t.creditAccountId, t.amount⟩

namespace Ledger

/-- The journal behind the balances. -/
def entries (l : Ledger) : List (DoubleEntry.Entry Nat) := l.transfers.map Transfer.entry

@[simp] theorem entries_post (l : Ledger) (t : Transfer) :
    (l.post t).entries = l.entries ++ [t.entry] := by
  simp [entries]

@[simp] theorem entries_addAccount (l : Ledger) (a : Account) :
    (l.addAccount a).entries = l.entries := rfl

theorem account?_of_mem {l : Ledger} (hnodup : (l.accounts.map Account.id).Nodup) {a : Account}
    (ha : a ∈ l.accounts) : l.account? a.id = some a := by
  cases h : l.account? a.id with
  | none => exact absurd rfl (account?_eq_none.mp h a ha)
  | some b =>
      rw [List.inj_on_of_nodup_map hnodup (account?_mem h) ha (account?_id h)]

theorem account?_addAccount_isSome {l : Ledger} {a : Account} {id : Nat}
    (h : (l.account? id).isSome) : ((l.addAccount a).account? id).isSome := by
  simp only [account?, addAccount_accounts, List.find?_append] at h ⊢
  cases hf : l.accounts.find? (fun a => a.id = id) with
  | none => simp [hf] at h
  | some b => simp

theorem account?_post_isSome {l : Ledger} {t : Transfer} {id : Nat}
    (h : (l.account? id).isSome) : ((l.post t).account? id).isSome := by
  rw [post_account?, Option.isSome_map]
  exact h

/-! ### Soundness -/

/-- A ledger that holds what was asked for, with its books in order. -/
structure Sound (okT : AppTransfer → Prop) (okA : AppAccount → Prop) (l : Ledger) : Prop where
  transfers : ∀ t ∈ l.transfers, ∃ app, okT app ∧ t = toTbTransfer app
  transferIds : (l.transfers.map Transfer.id).Nodup
  accounts : ∀ a ∈ l.accounts, ∃ app, okA app ∧ a.id = app.id ∧ a.flags = app.flags ∧
    a.ledger = app.ledger ∧ a.code = app.code ∧ a.debitsPending = 0 ∧ a.creditsPending = 0
  accountIds : (l.accounts.map Account.id).Nodup
  posted : ∀ a ∈ l.accounts, a.debitsPosted = DoubleEntry.debits l.entries a.id ∧
    a.creditsPosted = DoubleEntry.credits l.entries a.id
  endpoints : ∀ t ∈ l.transfers, (l.account? t.debitAccountId).isSome ∧
    (l.account? t.creditAccountId).isSome
  solvent : ∀ a ∈ l.accounts, a.creditLimited → a.debitsPosted ≤ a.creditsPosted

theorem Sound.empty {okT : AppTransfer → Prop} {okA : AppAccount → Prop} :
    Sound okT okA Ledger.empty := by
  constructor <;> simp [Ledger.empty]

theorem Sound.mono {okT okT' : AppTransfer → Prop} {okA okA' : AppAccount → Prop} {l : Ledger}
    (h : Sound okT okA l) (ht : ∀ t, okT t → okT' t) (ha : ∀ a, okA a → okA' a) :
    Sound okT' okA' l where
  transfers := fun t htm => by
    obtain ⟨app, hok, happ⟩ := h.transfers t htm
    exact ⟨app, ht app hok, happ⟩
  transferIds := h.transferIds
  accounts := fun a ham => by
    obtain ⟨app, hok, happ⟩ := h.accounts a ham
    exact ⟨app, ha app hok, happ⟩
  accountIds := h.accountIds
  posted := h.posted
  endpoints := h.endpoints
  solvent := h.solvent

section

variable {okT : AppTransfer → Prop} {okA : AppAccount → Prop} {l l' : Ledger}

/-- No transfer touches an account that does not exist. -/
theorem Sound.untouched (h : Sound okT okA l) {id : Nat} (hid : l.account? id = none) :
    ∀ e ∈ l.entries, e.debit ≠ id ∧ e.credit ≠ id := by
  intro e he
  obtain ⟨t, ht, rfl⟩ := List.mem_map.mp he
  obtain ⟨hd, hc⟩ := h.endpoints t ht
  refine ⟨?_, ?_⟩
  · rintro rfl
    simp only [Transfer.entry] at hid
    simp [hid] at hd
  · rintro rfl
    simp only [Transfer.entry] at hid
    simp [hid] at hc

/-- What an id nets to in the journal, with or without an account. -/
theorem Sound.net_eq (h : Sound okT okA l) (id : Nat) :
    DoubleEntry.net l.entries id =
      match l.account? id with
      | some a => (a.creditsPosted : Int) - a.debitsPosted
      | none => 0 := by
  cases hid : l.account? id with
  | none => exact DoubleEntry.net_eq_zero (h.untouched hid)
  | some a =>
      obtain ⟨hd, hc⟩ := h.posted a (account?_mem hid)
      rw [account?_id hid] at hd hc
      simp only [DoubleEntry.net, hd, hc]

variable {tb : TigerBeetle}

/-- A ledger stays sound when an asked-for account without balances is accepted. -/
theorem Sound.createAccount (h : Sound okT okA l) {app : AppAccount} (hok : okA app)
    (hp : app.debitsPending = 0) (hp' : app.creditsPending = 0) (hd : app.debitsPosted = 0)
    (hc : app.creditsPosted = 0)
    (hx : tb.createAccount l (toTbAccount app) = .ok l') : Sound okT okA l' := by
  obtain ⟨rfl, hfree⟩ := tb.createAccount_ok hx
  have hsplit : ∀ a ∈ (l.addAccount (toTbAccount app)).accounts,
      a ∈ l.accounts ∨ a = toTbAccount app := by
    intro a ha
    simpa using ha
  refine ⟨h.transfers, h.transferIds, ?_, ?_, ?_, ?_, ?_⟩
  · intro a ha
    rcases hsplit a ha with ha | rfl
    · exact h.accounts a ha
    · exact ⟨app, hok, rfl, rfl, rfl, rfl, hp, hp'⟩
  · have hnew := account?_eq_none.mp hfree
    simp only [addAccount_accounts, List.map_append, List.map_cons, List.map_nil]
    refine List.nodup_append.mpr ⟨h.accountIds, by simp, ?_⟩
    intro i hi j hj
    obtain ⟨a, ha, rfl⟩ := List.mem_map.mp hi
    obtain rfl := List.mem_singleton.mp hj
    exact hnew a ha
  · intro a ha
    rw [entries_addAccount]
    rcases hsplit a ha with ha | rfl
    · exact h.posted a ha
    · have hun := h.untouched hfree
      rw [DoubleEntry.debits_eq_zero fun e he => (hun e he).1,
        DoubleEntry.credits_eq_zero fun e he => (hun e he).2]
      exact ⟨hd, hc⟩
  · intro t ht
    obtain ⟨hd', hc'⟩ := h.endpoints t ht
    exact ⟨account?_addAccount_isSome hd', account?_addAccount_isSome hc'⟩
  · intro a ha hlim
    rcases hsplit a ha with ha | rfl
    · exact h.solvent a ha hlim
    · simp [toTbAccount, hd]

/-- A ledger stays sound when an asked-for transfer without flags is accepted. -/
theorem Sound.createTransfer (h : Sound okT okA l) {app : AppTransfer} (hok : okT app)
    (hflags : app.flags = 0) (hx : tb.createTransfer l (toTbTransfer app) = .ok l') :
    Sound okT okA l' := by
  have hfresh := transfer?_eq_none.mp (tb.createTransfer_fresh hx)
  obtain ⟨hd, hc, hne⟩ := tb.createTransfer_accounts hx hflags
  have hlimited := fun a => tb.createTransfer_limited (a := a) hx hflags
  obtain rfl := tb.createTransfer_post hx hflags
  have hsplit : ∀ a ∈ (l.post (toTbTransfer app)).accounts,
      ∃ b ∈ l.accounts, a = b.post (toTbTransfer app) := by
    intro a ha
    obtain ⟨b, hb, rfl⟩ := List.mem_map.mp ha
    exact ⟨b, hb, rfl⟩
  refine ⟨?_, ?_, ?_, ?_, ?_, ?_, ?_⟩
  · intro t ht
    rcases List.mem_append.mp ht with ht | ht
    · exact h.transfers t ht
    · exact ⟨app, hok, List.mem_singleton.mp ht⟩
  · simp only [post_transfers, List.map_append, List.map_cons, List.map_nil]
    refine List.nodup_append.mpr ⟨h.transferIds, by simp, ?_⟩
    intro i hi j hj
    obtain ⟨t, ht, rfl⟩ := List.mem_map.mp hi
    obtain rfl := List.mem_singleton.mp hj
    exact hfresh t ht
  · intro a ha
    obtain ⟨b, hb, rfl⟩ := hsplit a ha
    exact h.accounts b hb
  · have hids : (l.post (toTbTransfer app)).accounts.map Account.id = l.accounts.map Account.id := by
      rw [post_accounts, List.map_map]
      rfl
    rw [hids]
    exact h.accountIds
  · intro a ha
    obtain ⟨b, hb, rfl⟩ := hsplit a ha
    obtain ⟨hbd, hbc⟩ := h.posted b hb
    rw [entries_post, DoubleEntry.debits_append, DoubleEntry.credits_append,
      Account.post_debitsPosted, Account.post_creditsPosted, hbd, hbc]
    simp [Transfer.entry]
  · intro t ht
    have hold : (l.account? t.debitAccountId).isSome ∧ (l.account? t.creditAccountId).isSome := by
      rcases List.mem_append.mp ht with ht | ht
      · exact h.endpoints t ht
      · obtain rfl := List.mem_singleton.mp ht
        exact ⟨hd, hc⟩
    exact ⟨account?_post_isSome hold.1, account?_post_isSome hold.2⟩
  · intro a ha hlim
    obtain ⟨b, hb, rfl⟩ := hsplit a ha
    have hsolvent := h.solvent b hb hlim
    rw [Account.post_debitsPosted, Account.post_creditsPosted]
    -- only the debited account can come closer to its limit, and the server checked that
    by_cases hbd : b.id = (toTbTransfer app).debitAccountId
    · have hfound := account?_of_mem h.accountIds hb
      rw [hbd] at hfound
      have := hlimited b hfound hlim
      rw [if_pos hbd]
      omega
    · rw [if_neg hbd]
      omega

end

end Ledger

/-! ### The worker -/

namespace Worker

variable {tb : TigerBeetle} {n : Nat} {w w' : Worker}

/-- What the server accepts of the buffered items, a flush keeps. -/
theorem Flush.ledger_induction {motive : Ledger → Prop} (hf : Flush tb w w')
    (transfer : ∀ t ∈ w.transferBuf.batch, ∀ l l', motive l →
      tb.createTransfer l (toTbTransfer t) = .ok l' → motive l')
    (account : ∀ a ∈ w.accountBuf.batch, ∀ l l', motive l →
      tb.createAccount l (toTbAccount a) = .ok l' → motive l')
    (h : motive w.ledger) : motive w'.ledger := by
  have htransfers : motive (serveTransfers tb w.ledger w.transferBuf.batch).2 := by
    refine applyBatch_induction tb.createTransfer (fun x hx l l' hl hok => ?_) h
    obtain ⟨t, ht, rfl⟩ := List.mem_map.mp hx
    exact transfer t ht l l' hl hok
  have haccounts : motive (serveAccounts tb w.ledger w.accountBuf.batch).2 := by
    refine applyBatch_induction tb.createAccount (fun x hx l l' hl hok => ?_) h
    obtain ⟨a, ha, rfl⟩ := List.mem_map.mp hx
    exact account a ha l l' hl hok
  cases hf with
  | transfers o _ =>
      cases o with
      | ok => exact htransfers
      | err applied e =>
          cases applied with
          | true => exact htransfers
          | false => exact h
  | accounts o _ =>
      cases o with
      | ok => exact haccounts
      | err applied e =>
          cases applied with
          | true => exact haccounts
          | false => exact h
  | lookupAccounts o _ => exact h
  | lookupTransfers o _ => exact h

theorem History.transfer_buffered (h : History w) {t : AppTransfer}
    (ht : t ∈ w.transferBuf.batch) : ∃ r, ⟨.createTransfer t, r⟩ ∈ w.received := by
  obtain ⟨r, hr⟩ := h.transfers.mem_received_of_buffered ht
  obtain ⟨c, hc, hct⟩ := List.mem_filterMap.mp hr
  rw [TbCommand.transfer?_eq_some.mp hct] at hc
  exact ⟨r, hc⟩

theorem History.account_buffered (h : History w) {a : AppAccount}
    (ha : a ∈ w.accountBuf.batch) : ∃ r, ⟨.createAccount a, r⟩ ∈ w.received := by
  obtain ⟨r, hr⟩ := h.accounts.mem_received_of_buffered ha
  obtain ⟨c, hc, hca⟩ := List.mem_filterMap.mp hr
  rw [TbCommand.account?_eq_some.mp hca] at hc
  exact ⟨r, hc⟩

/-- A batch of transfers that was answered with the empty list is in the ledger. -/
def Accepted (tb : TigerBeetle) (w : Worker) : Prop :=
  ∀ s ∈ w.transferLog, transferResults tb s = .ok [] →
    ∀ t ∈ s.items, toTbTransfer t ∈ w.ledger.transfers

theorem Accepted.start (l : Ledger) : Accepted tb (Worker.start l) := by
  simp [Accepted, Worker.start]

/-- Accepting an item without flags keeps the transfers already stored. -/
theorem transfer_mem_of_accept {t : Transfer} {u : AppTransfer} {l l' : Ledger}
    (hu : u.flags = 0) (ht : t ∈ l.transfers)
    (hx : tb.createTransfer l (toTbTransfer u) = .ok l') : t ∈ l'.transfers := by
  obtain rfl := tb.createTransfer_post hx hu
  exact List.mem_append_left _ ht

/-- A flush of transfers without flags only adds to the stored transfers. -/
theorem Flush.transfers_prefix (hf : Flush tb w w')
    (hplain : ∀ t ∈ w.transferBuf.batch, t.flags = 0) :
    w.ledger.transfers <+: w'.ledger.transfers := by
  refine hf.ledger_induction (motive := fun l => w.ledger.transfers <+: l.transfers) ?_ ?_
    (List.prefix_refl _)
  · intro t ht l l' hl hx
    obtain rfl := tb.createTransfer_post hx (hplain t ht)
    exact hl.trans (List.prefix_append _ _)
  · intro a _ l l' hl hx
    obtain ⟨rfl, -⟩ := tb.createAccount_ok hx
    exact hl

theorem Accepted.flush (h : Accepted tb w) (hf : Flush tb w w')
    (hplain : ∀ t ∈ w.transferBuf.batch, t.flags = 0) : Accepted tb w' := by
  have hmono := (hf.transfers_prefix hplain).subset
  have hold : ∀ s ∈ w.transferLog, transferResults tb s = .ok [] →
      ∀ t ∈ s.items, toTbTransfer t ∈ w'.ledger.transfers :=
    fun s hs hr t ht => hmono (h s hs hr t ht)
  cases hf with
  | transfers o _ =>
      intro s hs hr t ht
      rcases List.mem_append.mp hs with hs | hs
      · exact hold s hs hr t ht
      · obtain rfl := List.mem_singleton.mp hs
        obtain ⟨rfl, hnil⟩ := Submitted.results_eq_ok.mp hr
        have hempty : (applyBatch tb.createTransfer w.ledger 0
            (w.transferBuf.batch.map toTbTransfer)).1 = [] := by
          simpa [serveTransfers] using hnil.symm
        refine applyBatch_accepts tb.createTransfer (P := fun u l => u ∈ l.transfers) ?_ ?_ hempty
          _ (List.mem_map_of_mem ht)
        · intro x hx l l' hok
          obtain ⟨u, hu, rfl⟩ := List.mem_map.mp hx
          obtain rfl := tb.createTransfer_post hok (hplain u hu)
          simp
        · intro x y hy l l' hxl hok
          obtain ⟨u, hu, rfl⟩ := List.mem_map.mp hy
          exact transfer_mem_of_accept (hplain u hu) hxl hok
  | accounts o _ => exact hold
  | lookupAccounts o _ => exact hold
  | lookupTransfers o _ => exact hold

/-! ### A worker that is only asked for permitted items -/

/-- The worker and the ledger behind it, when every item received was permitted. -/
structure Sound (tb : TigerBeetle) (okT : AppTransfer → Prop) (okA : AppAccount → Prop)
    (w : Worker) : Prop where
  history : History w
  answers : Answers tb w
  accepted : Accepted tb w
  ledger : Ledger.Sound okT okA w.ledger
  transfers : ∀ t r, ⟨.createTransfer t, r⟩ ∈ w.received → okT t
  accounts : ∀ a r, ⟨.createAccount a, r⟩ ∈ w.received → okA a

section

variable {okT okT' : AppTransfer → Prop} {okA okA' : AppAccount → Prop}

theorem Sound.start {l : Ledger} (h : Ledger.Sound okT okA l) : Sound tb okT okA (Worker.start l) where
  history := .start l
  answers := .start l
  accepted := .start l
  ledger := h
  transfers := by simp [Worker.start]
  accounts := by simp [Worker.start]

theorem Sound.mono (h : Sound tb okT okA w) (ht : ∀ t, okT t → okT' t) (ha : ∀ a, okA a → okA' a) :
    Sound tb okT' okA' w where
  history := h.history
  answers := h.answers
  accepted := h.accepted
  ledger := h.ledger.mono ht ha
  transfers := fun t r hc => ht t (h.transfers t r hc)
  accounts := fun a r hc => ha a (h.accounts a r hc)

/-- The items permitted are plain: transfers without flags, accounts without
balances. -/
structure Plain (okT : AppTransfer → Prop) (okA : AppAccount → Prop) : Prop where
  transfer : ∀ t, okT t → t.flags = 0
  account : ∀ a, okA a →
    a.debitsPending = 0 ∧ a.creditsPending = 0 ∧ a.debitsPosted = 0 ∧ a.creditsPosted = 0

theorem Sound.plain_batch (h : Sound tb okT okA w) (hp : Plain okT okA) :
    ∀ t ∈ w.transferBuf.batch, t.flags = 0 := by
  intro t ht
  obtain ⟨r, hr⟩ := h.history.transfer_buffered ht
  exact hp.transfer t (h.transfers t r hr)

theorem Sound.flush (h : Sound tb okT okA w) (hp : Plain okT okA) (hf : Flush tb w w') :
    Sound tb okT okA w' := by
  have hrec : w'.received = w.received := by cases hf <;> rfl
  refine ⟨h.history.flush hf, h.answers.flush hf, h.accepted.flush hf (h.plain_batch hp), ?_,
    hrec ▸ h.transfers, hrec ▸ h.accounts⟩
  refine hf.ledger_induction (motive := Ledger.Sound okT okA) ?_ ?_ h.ledger
  · intro t ht l l' hl hx
    obtain ⟨r, hr⟩ := h.history.transfer_buffered ht
    have hok := h.transfers t r hr
    exact hl.createTransfer hok (hp.transfer t hok) hx
  · intro a ha l l' hl hx
    obtain ⟨r, hr⟩ := h.history.account_buffered ha
    have hok := h.accounts a r hr
    obtain ⟨h₁, h₂, h₃, h₄⟩ := hp.account a hok
    exact hl.createAccount hok h₁ h₂ h₃ h₄ hx

theorem arrive_ledger (cmd : TbCommand) (o : CallOutcome) (w : Worker) :
    (w.arrive cmd o).ledger = w.ledger := by
  obtain ⟨request, r⟩ := cmd
  cases request <;> rfl

theorem arrive_received (cmd : TbCommand) (o : CallOutcome) (w : Worker) :
    (w.arrive cmd o).received = w.received ++ [cmd] := by
  obtain ⟨request, r⟩ := cmd
  cases request <;> rfl

theorem arrive_transferLog (cmd : TbCommand) (o : CallOutcome) (w : Worker) :
    (w.arrive cmd o).transferLog = w.transferLog := by
  obtain ⟨request, r⟩ := cmd
  cases request <;> rfl

theorem Sound.arrive (h : Sound tb okT okA w) {cmd : TbCommand} (o : CallOutcome)
    (ht : ∀ t, cmd.request = .createTransfer t → okT t)
    (ha : ∀ a, cmd.request = .createAccount a → okA a) : Sound tb okT okA (w.arrive cmd o) where
  history := h.history.arrive cmd o
  answers := h.answers.arrive cmd o
  accepted := by
    intro s hs hr t ht
    rw [arrive_transferLog] at hs
    rw [arrive_ledger]
    exact h.accepted s hs hr t ht
  ledger := by
    rw [arrive_ledger]
    exact h.ledger
  transfers := by
    intro t r hc
    rw [arrive_received] at hc
    rcases List.mem_append.mp hc with hc | hc
    · exact h.transfers t r hc
    · exact ht t (by rw [← List.mem_singleton.mp hc])
  accounts := by
    intro a r hc
    rw [arrive_received] at hc
    rcases List.mem_append.mp hc with hc | hc
    · exact h.accounts a r hc
    · exact ha a (by rw [← List.mem_singleton.mp hc])

/-- The command of an event, if any, asks for a permitted item. -/
def Permitted (okT : AppTransfer → Prop) (okA : AppAccount → Prop) (e : WorkerEvent) : Prop :=
  ∀ cmd o, e = .command cmd o →
    (∀ t, cmd.request = .createTransfer t → okT t) ∧ (∀ a, cmd.request = .createAccount a → okA a)

/-- One turn of the loop keeps the worker sound, and only adds to the stored
transfers. -/
theorem Sound.turn (h : Sound tb okT okA w) (hp : Plain okT okA) {e : WorkerEvent}
    (he : Permitted okT okA e) :
    Sound tb okT okA (w.turn tb n e) ∧ w.ledger.transfers <+: (w.turn tb n e).ledger.transfers := by
  refine turn_induction (n := n)
    (motive := fun w' => Sound tb okT okA w' ∧ w.ledger.transfers <+: w'.ledger.transfers) ?_ ?_
    ⟨h, List.prefix_refl _⟩
  · intro w₁ w₂ ⟨h₁, hgrow⟩ hf
    exact ⟨h₁.flush hp hf, hgrow.trans (hf.transfers_prefix (h₁.plain_batch hp))⟩
  · intro cmd o hcmd
    obtain ⟨ht, ha⟩ := he cmd o hcmd
    refine ⟨h.arrive o ht ha, ?_⟩
    rw [arrive_ledger]

end

end Worker

end Wurzburg.Tb
