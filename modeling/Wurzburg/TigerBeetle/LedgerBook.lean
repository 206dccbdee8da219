import Wurzburg.Lib.Bank
import Wurzburg.TigerBeetle.LedgerInv

/-!
# Wurzburg.TigerBeetle.LedgerBook

The ledger as a bank: its transfers, in order, are movements that a bank posts one after
the other, where the accounts limited by their credits are the guarded ones (`Posted`).
Balances and solvency speak of the ledger as it is; this speaks of every moment it went
through, within a batch as well.
-/

namespace Wurzburg.Tb

open Wurzburg.Lib

/-- A transfer as a movement under its id. -/
def Transfer.movement (t : Transfer) : Bank.Movement Nat Nat := ⟨t.id, t.entry⟩

namespace Ledger

/-- The account may not be debited beyond its credits. -/
def Guards (l : Ledger) (id : Nat) : Prop := ∃ a ∈ l.accounts, a.id = id ∧ a.creditLimited

/-- Every transfer was postable when it was posted. -/
def Posted (l : Ledger) : Prop :=
  ∀ pre t post, l.transfers = pre ++ t :: post →
    Bank.Postable l.Guards (pre.map Transfer.movement) t.movement

theorem Posted.empty : Posted .empty := by
  intro pre t post h
  exact absurd h.symm (List.append_ne_nil_of_right_ne_nil _ (List.cons_ne_nil _ _))

theorem balance_movements (ts : List Transfer) (id : Nat) :
    Bank.balance (ts.map Transfer.movement) id = DoubleEntry.net (ts.map Transfer.entry) id := by
  unfold Bank.balance
  rw [List.map_map]
  rfl

section

variable {okT : AppTransfer → Prop} {okA : AppAccount → Prop} {l l' : Ledger} {tb : TigerBeetle}

/-- An account that no transfer names so far may well be limited. -/
theorem Posted.createAccount (h : Posted l) (hs : Sound okT okA l) {a : Account}
    (hx : tb.createAccount l a = .ok l') : Posted l' := by
  obtain ⟨rfl, hfree⟩ := tb.createAccount_ok hx
  intro pre t post hsplit
  obtain ⟨hkey, hapart, hcovered⟩ := h pre t post hsplit
  refine ⟨hkey, hapart, ?_⟩
  rintro ⟨b, hb, hid, hlimited⟩
  rcases List.mem_append.mp hb with hb | hb
  · exact hcovered ⟨b, hb, hid, hlimited⟩
  · obtain rfl := List.mem_singleton.mp hb
    have ht : t ∈ l.transfers := by
      rw [show l.transfers = pre ++ t :: post from hsplit]
      exact List.mem_append_right _ (List.mem_cons_self ..)
    have hexists := (hs.endpoints t ht).1
    rw [← show b.id = t.debitAccountId from hid, hfree] at hexists
    cases hexists

/-- The ledger accepts a transfer only where the bank posts it. -/
theorem Posted.createTransfer (h : Posted l) (hs : Sound okT okA l) {t : Transfer}
    (hflags : t.flags = 0) (hx : tb.createTransfer l t = .ok l') : Posted l' := by
  have hfresh := transfer?_eq_none.mp (tb.createTransfer_fresh hx)
  obtain ⟨-, -, hne⟩ := tb.createTransfer_accounts hx hflags
  have hlimit := fun a => tb.createTransfer_limited (a := a) hx hflags
  obtain rfl := tb.createTransfer_post hx hflags
  have hguards : ∀ id, (l.post t).Guards id → l.Guards id := by
    rintro id ⟨a, ha, hid, hlimited⟩
    obtain ⟨b, hb, rfl⟩ := List.mem_map.mp ha
    exact ⟨b, hb, hid, hlimited⟩
  intro pre u post hsplit
  rcases List.eq_nil_or_concat post with rfl | ⟨post, last, rfl⟩
  · -- the new transfer, after all the others
    obtain ⟨hpre, hu⟩ := List.append_inj' hsplit rfl
    obtain rfl := hpre
    obtain rfl := List.singleton_inj.mp hu
    refine ⟨fun hmem => ?_, hne, fun hguard => ?_⟩
    · obtain ⟨m, hm, hkey⟩ := List.mem_map.mp hmem
      obtain ⟨u, hu, rfl⟩ := List.mem_map.mp hm
      exact hfresh u hu hkey
    · obtain ⟨a, ha, hid, hlimited⟩ := hguards _ hguard
      have hfound := account?_of_mem hs.accountIds ha
      rw [show a.id = t.debitAccountId from hid] at hfound
      have hroom := hlimit a hfound hlimited
      rw [balance_movements]
      have hnet := hs.net_eq t.debitAccountId
      rw [hfound] at hnet
      have hbalance : DoubleEntry.net (l.transfers.map Transfer.entry) t.debitAccountId =
          (a.creditsPosted : Int) - a.debitsPosted := hnet
      show (t.amount : Int) ≤ DoubleEntry.net (l.transfers.map Transfer.entry) t.debitAccountId
      rw [hbalance]
      omega
  · rw [List.concat_eq_append, ← List.cons_append, ← List.append_assoc] at hsplit
    obtain ⟨hkey, hapart, hcovered⟩ := h pre u post (List.append_inj' hsplit rfl).1
    exact ⟨hkey, hapart, fun hguard => hcovered (hguards _ hguard)⟩

end

end Ledger

namespace Worker

variable {tb : TigerBeetle} {n : Nat} {w w' : Worker} {okT : AppTransfer → Prop}
  {okA : AppAccount → Prop}

theorem Sound.flush_posted (h : Sound tb okT okA w) (hp : Plain okT okA) (hf : Flush tb w w')
    (hposted : w.ledger.Posted) : w'.ledger.Posted := by
  refine (hf.ledger_induction (motive := fun l => Ledger.Sound okT okA l ∧ l.Posted) ?_ ?_
    ⟨h.ledger, hposted⟩).2
  · intro t ht l l' hl hx
    obtain ⟨r, hr⟩ := h.history.transfer_buffered ht
    have hok := h.transfers t r hr
    exact ⟨hl.1.createTransfer hok (hp.transfer t hok) hx,
      hl.2.createTransfer hl.1 (hp.transfer t hok) hx⟩
  · intro a ha l l' hl hx
    obtain ⟨r, hr⟩ := h.history.account_buffered ha
    have hok := h.accounts a r hr
    obtain ⟨h₁, h₂, h₃, h₄⟩ := hp.account a hok
    exact ⟨hl.1.createAccount hok h₁ h₂ h₃ h₄ hx, hl.2.createAccount hl.1 hx⟩

/-- One turn of the loop posts what the bank posts. -/
theorem Sound.turn_posted (h : Sound tb okT okA w) (hp : Plain okT okA) {e : WorkerEvent}
    (he : Permitted okT okA e) (hposted : w.ledger.Posted) : (w.turn tb n e).ledger.Posted := by
  refine (turn_induction (n := n)
    (motive := fun w' => Sound tb okT okA w' ∧ w'.ledger.Posted) ?_ ?_ ⟨h, hposted⟩).2
  · exact fun w₁ w₂ ⟨h₁, hposted₁⟩ hf => ⟨h₁.flush hp hf, h₁.flush_posted hp hf hposted₁⟩
  · intro cmd o hcmd
    obtain ⟨ht, ha⟩ := he cmd o hcmd
    refine ⟨h.arrive o ht ha, ?_⟩
    rw [arrive_ledger]
    exact hposted

/-! ### Where the transfers come from -/

/-- What the ledger holds, and what waits in the buffer. -/
def transfers (w : Worker) : List Transfer :=
  w.ledger.transfers ++ w.transferBuf.batch.map toTbTransfer

/-- A flush brings nothing that was not in the buffer. -/
theorem Flush.transfers_subset (hf : Flush tb w w')
    (hplain : ∀ t ∈ w.transferBuf.batch, t.flags = 0) : w'.transfers ⊆ w.transfers := by
  have hledger : w'.ledger.transfers ⊆ w.transfers := by
    refine hf.ledger_induction (motive := fun l => l.transfers ⊆ w.transfers) ?_ ?_
      (List.subset_append_left _ _)
    · intro t ht l l' hl hx
      obtain rfl := tb.createTransfer_post hx (hplain t ht)
      refine List.append_subset.mpr ⟨hl, fun u hu => ?_⟩
      rw [List.mem_singleton.mp hu]
      exact List.mem_append_right _ (List.mem_map_of_mem ht)
    · intro a _ l l' hl hx
      obtain ⟨rfl, -⟩ := tb.createAccount_ok hx
      exact hl
  have hbuffer : w'.transferBuf.batch ⊆ w.transferBuf.batch := by
    cases hf with
    | transfers o _ => exact List.nil_subset _
    | accounts o _ | lookupAccounts o _ | lookupTransfers o _ => exact List.Subset.refl _
  refine List.append_subset.mpr ⟨hledger, ?_⟩
  exact List.Subset.trans (List.map_subset _ hbuffer) (List.subset_append_right _ _)

/-- One turn of the loop brings at most the transfer of its command. -/
theorem Sound.turn_transfers (h : Sound tb okT okA w) (hp : Plain okT okA) {e : WorkerEvent}
    (he : Permitted okT okA e) {t : Transfer} (ht : t ∈ (w.turn tb n e).transfers) :
    t ∈ w.transfers ∨
      ∃ cmd o app, e = .command cmd o ∧ cmd.request = .createTransfer app ∧
        t = toTbTransfer app := by
  refine (turn_induction (n := n) (motive := fun w' => Sound tb okT okA w' ∧
    ∀ t ∈ w'.transfers, t ∈ w.transfers ∨ ∃ cmd o app, e = .command cmd o ∧
      cmd.request = .createTransfer app ∧ t = toTbTransfer app) ?_ ?_
    ⟨h, fun _ ht => Or.inl ht⟩).2 t ht
  · intro w₁ w₂ ⟨h₁, hfrom⟩ hf
    exact ⟨h₁.flush hp hf,
      fun t ht => hfrom t (hf.transfers_subset (h₁.plain_batch hp) ht)⟩
  · intro cmd o hcmd
    obtain ⟨hokT, hokA⟩ := he cmd o hcmd
    refine ⟨h.arrive o hokT hokA, fun t ht => ?_⟩
    obtain ⟨request, r⟩ := cmd
    cases request with
    | createTransfer app =>
        have ht : t ∈ w.ledger.transfers ++ (w.transferBuf.batch ++ [app]).map toTbTransfer := ht
        rw [List.map_append, ← List.append_assoc] at ht
        rcases List.mem_append.mp ht with ht | ht
        · exact Or.inl ht
        · exact Or.inr ⟨_, o, app, hcmd, rfl, List.mem_singleton.mp ht⟩
    | _ => exact Or.inl ht

/-! ### What a batch adds -/

/-- A batch that was accepted as a whole held nothing the ledger had before. -/
theorem accepted_fresh {l : Ledger} {i : Nat} {batch : List AppTransfer}
    (hplain : ∀ t ∈ batch, t.flags = 0)
    (h : (applyBatch tb.createTransfer l i (batch.map toTbTransfer)).1 = []) :
    ∀ t ∈ batch, ∀ t' ∈ l.transfers, t'.id ≠ t.id := by
  induction batch generalizing l i with
  | nil => exact fun t ht => absurd ht List.not_mem_nil
  | cons x xs ih =>
      obtain ⟨hx, hxs⟩ := List.forall_mem_cons.mp hplain
      rw [List.map_cons, applyBatch] at h
      cases hcreate : tb.createTransfer l (toTbTransfer x) with
      | error code => simp [hcreate] at h
      | ok l' =>
          simp only [hcreate] at h
          have hfresh := Ledger.transfer?_eq_none.mp (tb.createTransfer_fresh hcreate)
          obtain rfl := tb.createTransfer_post hcreate hx
          intro t ht t' ht'
          rcases List.mem_cons.mp ht with rfl | ht
          · exact hfresh t' ht'
          · exact ih hxs h t ht t' (List.mem_append_left _ ht')

/-- What a turn of the loop hands over, it hands to a ledger that is no earlier. -/
theorem Sound.turn_submits (h : Sound tb okT okA w) (hp : Plain okT okA) {e : WorkerEvent}
    (he : Permitted okT okA e) :
    ∀ s ∈ (w.turn tb n e).transferLog,
      s ∈ w.transferLog ∨ w.ledger.transfers <+: s.before.transfers := by
  refine (turn_induction (n := n) (motive := fun w' => Sound tb okT okA w' ∧
    w.ledger.transfers <+: w'.ledger.transfers ∧
    ∀ s ∈ w'.transferLog, s ∈ w.transferLog ∨ w.ledger.transfers <+: s.before.transfers) ?_ ?_
    ⟨h, List.prefix_refl _, fun s hs => Or.inl hs⟩).2.2
  · intro w₁ w₂ ⟨h₁, hgrown, hlog⟩ hf
    refine ⟨h₁.flush hp hf, hgrown.trans (hf.transfers_prefix (h₁.plain_batch hp)), ?_⟩
    cases hf with
    | transfers o _ =>
        intro s hs
        rcases List.mem_append.mp hs with hs | hs
        · exact hlog s hs
        · rw [List.mem_singleton.mp hs]
          exact Or.inr hgrown
    | accounts o _ | lookupAccounts o _ | lookupTransfers o _ => exact hlog
  · intro cmd o hcmd
    obtain ⟨ht, ha⟩ := he cmd o hcmd
    refine ⟨h.arrive o ht ha, ?_, ?_⟩
    · rw [arrive_ledger]
    · rw [arrive_transferLog]
      exact fun s hs => Or.inl hs

/-- A transfer that was confirmed was new to the ledger it was handed to. -/
theorem Sound.confirmed_fresh (h : Sound tb okT okA w) (hp : Plain okT okA)
    {s : Submitted AppTransfer} (hs : s ∈ w.transferLog) (hr : transferResults tb s = .ok []) :
    ∀ t ∈ s.items, ∀ t' ∈ s.before.transfers, t'.id ≠ t.id := by
  have hplain : ∀ t ∈ s.items, t.flags = 0 := by
    intro t ht
    obtain ⟨i, hi⟩ := List.getElem?_of_mem ht
    have hlt : i < s.responders.length := by
      rw [← h.history.transfers.submitted s hs]
      exact (List.getElem?_eq_some_iff.mp hi).1
    have hreceived := h.history.transfer_received hs hi (List.getElem?_eq_getElem hlt)
    exact hp.transfer t (h.transfers t _ hreceived)
  obtain ⟨-, hnil⟩ := Submitted.results_eq_ok.mp hr
  have hempty : (applyBatch tb.createTransfer s.before 0 (s.items.map toTbTransfer)).1 = [] := by
    simpa [serveTransfers] using hnil.symm
  exact accepted_fresh hplain hempty

end Worker

end Wurzburg.Tb
