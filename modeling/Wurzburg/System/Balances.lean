import Wurzburg.System.Journal

/-!
# Wurzburg.System.Balances

The balances of the ledger, in every reachable state: what a provider has paid
out, net, is what the users linked to it have received, net; system accounts
stay at zero (`Conserved`); and no user is overdrawn (`users_solvent`).

The ledger ids of providers, users and system accounts never meet, because each
was generated for its one use; so the accounts of a provider and of its users
form a group that no transfer crosses.
-/

namespace Wurzburg.System

open Wurzburg.Lib Wurzburg.Db Wurzburg.Tb Wurzburg.Api

/-! ### Balances -/

/-- Credits posted minus debits posted of a ledger account, if it exists. -/
def netPosted (l : Ledger) (id : Uuid) : Int :=
  match l.account? id.asU128 with
  | some a => (a.creditsPosted : Int) - a.debitsPosted
  | none => 0

/-- The balance of a user at a provider. -/
def userBalance (w : World) (userId providerId : Uuid) : Int :=
  match w.pg.userAccount? userId providerId with
  | some ua => netPosted w.worker.ledger ua.ledgerAccountId
  | none => 0

/-- What the users linked to a provider hold there, together. -/
def linkedBalance (w : World) (providerId : Uuid) : Int :=
  ((w.pg.userProviders.filter (fun up => up.providerId = providerId)).map
    (fun up => userBalance w up.userId providerId)).sum

/-- Conservation: a provider's net debits are its users' net credits, and system
accounts hold nothing. -/
structure Conserved (env : Env) (w : World) : Prop where
  provider : ∀ p ∈ w.pg.providers,
    - netPosted w.worker.ledger p.ledgerAccountId = linkedBalance w p.id
  system : ∀ id ∈ systemIds env, ∀ a ∈ w.worker.ledger.accounts, a.id = id.asU128 →
    a.debitsPosted = 0 ∧ a.creditsPosted = 0 ∧ a.debitsPending = 0 ∧ a.creditsPending = 0

section

variable {env : Env} {w : World}

theorem netPosted_eq (h : Inv env w) (id : Uuid) :
    DoubleEntry.net w.worker.ledger.entries id.asU128 = netPosted w.worker.ledger id := by
  rw [h.worker.ledger.net_eq]
  rfl

/-! ### The group of a provider -/

/-- The accounts at a provider. -/
def accountsAt (w : World) (providerId : Uuid) : List UserAccount :=
  w.pg.userAccounts.filter (fun ua => ua.providerId = providerId)

/-- The linked users hold what the accounts at the provider hold. -/
theorem Inv.linkedBalance_eq (h : Inv env w) (providerId : Uuid) :
    linkedBalance w providerId =
      ((accountsAt w providerId).map (fun ua => netPosted w.worker.ledger ua.ledgerAccountId)).sum := by
  have hlinks : linkedBalance w providerId =
      (((w.pg.userProviders.map UserProvider.pair).filter (fun pr => pr.2 = providerId)).map
        (fun pr => userBalance w pr.1 providerId)).sum := by
    rw [List.filter_map, List.map_map]
    rfl
  have haccounts : (((w.pg.userAccounts.map UserAccount.pair).filter
      (fun pr => pr.2 = providerId)).map (fun pr => userBalance w pr.1 providerId)).sum =
      ((accountsAt w providerId).map (fun ua => userBalance w ua.userId providerId)).sum := by
    rw [List.filter_map, List.map_map]
    rfl
  rw [hlinks, h.tables.links, haccounts]
  refine congrArg List.sum (List.map_congr_left fun ua hua => ?_)
  obtain ⟨hmem, hprov⟩ := List.mem_filter.mp hua
  have hfind := h.tables.userAccount?_of_mem hmem
  rw [of_decide_eq_true hprov] at hfind
  simp only [userBalance, hfind]

/-- UUIDs generated for different uses have different ledger ids. -/
theorem Inv.asU128_ne (h : Inv env w) {id id' : Uuid} {u v : IdUse} (hid : (id, u) ∈ w.issued)
    (hid' : (id', v) ∈ w.issued) (huv : u ≠ v) : id.asU128 ≠ id'.asU128 := by
  intro heq
  obtain rfl := Uuid.asU128_inj.mp heq
  exact huv (h.issuedOnce id u v hid hid')

/-- The two ledger accounts of a transfer of the service. -/
theorem TransferFor.ends {t : AppTransfer} (ht : TransferFor env w.pg t) :
    ∃ p ∈ w.pg.providers, ∃ ua ∈ w.pg.userAccounts, ua.providerId = p.id ∧
      (t.debitAccountId = p.ledgerAccountId.asU128 ∧
          t.creditAccountId = ua.ledgerAccountId.asU128 ∨
        t.debitAccountId = ua.ledgerAccountId.asU128 ∧
          t.creditAccountId = p.ledgerAccountId.asU128) := by
  obtain ⟨d, payload, p, hp, ua, hua, hlink, rfl⟩ := ht
  refine ⟨p, hp, ua, hua, hlink, ?_⟩
  cases d with
  | credit => exact Or.inl ⟨rfl, rfl⟩
  | debit => exact Or.inr ⟨rfl, rfl⟩

/-- The ledger ids of a provider and of the accounts there. -/
def groupOf (w : World) (p : Provider) : List Nat :=
  p.ledgerAccountId.asU128 ::
    (accountsAt w p.id).map (fun ua => ua.ledgerAccountId.asU128)

theorem Inv.provider_mem_groupOf (h : Inv env w) {p p' : Provider} (hp : p ∈ w.pg.providers)
    (hp' : p' ∈ w.pg.providers) : p'.ledgerAccountId.asU128 ∈ groupOf w p ↔ p' = p := by
  constructor
  · intro hmem
    rcases List.mem_cons.mp hmem with heq | hmem
    · exact List.inj_on_of_nodup_map h.tables.providerLedgers hp' hp (Uuid.asU128_inj.mp heq)
    · obtain ⟨ua, hua, heq⟩ := List.mem_map.mp hmem
      exact absurd heq (h.asU128_ne (h.userLedgers ua (List.mem_filter.mp hua).1)
        (h.providerLedgers p' hp') (by simp))
  · rintro rfl
    exact List.mem_cons_self ..

theorem Inv.account_mem_groupOf (h : Inv env w) {p : Provider} {ua : UserAccount}
    (hp : p ∈ w.pg.providers) (hua : ua ∈ w.pg.userAccounts) :
    ua.ledgerAccountId.asU128 ∈ groupOf w p ↔ ua.providerId = p.id := by
  constructor
  · intro hmem
    rcases List.mem_cons.mp hmem with heq | hmem
    · exact absurd heq (h.asU128_ne (h.userLedgers ua hua) (h.providerLedgers p hp) (by simp))
    · obtain ⟨ua', hua', heq⟩ := List.mem_map.mp hmem
      obtain ⟨hmem', hprov⟩ := List.mem_filter.mp hua'
      rw [← List.inj_on_of_nodup_map h.tables.accountLedgers hmem' hua (Uuid.asU128_inj.mp heq)]
      exact of_decide_eq_true hprov
  · intro hprov
    refine List.mem_cons_of_mem _ (List.mem_map_of_mem (List.mem_filter.mpr ⟨hua, ?_⟩))
    exact decide_eq_true hprov

theorem Inv.groupOf_nodup (h : Inv env w) {p : Provider} (hp : p ∈ w.pg.providers) :
    (groupOf w p).Nodup := by
  refine List.nodup_cons.mpr ⟨?_, ?_⟩
  · intro hmem
    obtain ⟨ua, hua, heq⟩ := List.mem_map.mp hmem
    exact h.asU128_ne (h.userLedgers ua (List.mem_filter.mp hua).1) (h.providerLedgers p hp)
      (by simp) heq
  · have hledgers : ((accountsAt w p.id).map (·.ledgerAccountId)).Nodup :=
      h.tables.accountLedgers.sublist (List.filter_sublist.map _)
    have := hledgers.map (f := Uuid.asU128) (fun _ _ heq => Uuid.asU128_inj.mp heq)
    rwa [List.map_map] at this

/-- No transfer crosses the group of a provider. -/
theorem Inv.groupOf_closed (h : Inv env w) {p : Provider} (hp : p ∈ w.pg.providers) :
    ∀ e ∈ w.worker.ledger.entries, e.debit ∈ groupOf w p ↔ e.credit ∈ groupOf w p := by
  intro e he
  obtain ⟨t, ht, rfl⟩ := List.mem_map.mp he
  obtain ⟨app, happ, rfl⟩ := h.worker.ledger.transfers t ht
  obtain ⟨p', hp', ua, hua, hlink, hends⟩ := happ.ends
  have hside : p'.ledgerAccountId.asU128 ∈ groupOf w p ↔
      ua.ledgerAccountId.asU128 ∈ groupOf w p := by
    rw [h.provider_mem_groupOf hp hp', h.account_mem_groupOf hp hua, hlink]
    constructor
    · rintro rfl
      rfl
    · exact fun hid => List.inj_on_of_nodup_map h.tables.providerIds hp' hp hid
  simp only [Transfer.entry, toTbTransfer]
  rcases hends with ⟨hd, hc⟩ | ⟨hd, hc⟩
  · rw [hd, hc]
    exact hside
  · rw [hd, hc]
    exact hside.symm

/-- No transfer touches a system account. -/
theorem Inv.system_untouched (h : Inv env w) {id : Uuid} (hid : id ∈ systemIds env) :
    ∀ e ∈ w.worker.ledger.entries, e.debit ≠ id.asU128 ∧ e.credit ≠ id.asU128 := by
  intro e he
  obtain ⟨t, ht, rfl⟩ := List.mem_map.mp he
  obtain ⟨app, happ, rfl⟩ := h.worker.ledger.transfers t ht
  obtain ⟨p, hp, ua, hua, -, hends⟩ := happ.ends
  have hprov := h.asU128_ne (h.providerLedgers p hp) (h.systemLedgers id hid) (by simp)
  have huser := h.asU128_ne (h.userLedgers ua hua) (h.systemLedgers id hid) (by simp)
  simp only [Transfer.entry, toTbTransfer]
  rcases hends with ⟨hd, hc⟩ | ⟨hd, hc⟩
  · rw [hd, hc]
    exact ⟨hprov, huser⟩
  · rw [hd, hc]
    exact ⟨huser, hprov⟩

/-- The invariant implies conservation. -/
theorem Inv.conserved (h : Inv env w) : Conserved env w where
  provider := by
    intro p hp
    have hhub := DoubleEntry.net_hub (h.groupOf_nodup hp) (h.groupOf_closed hp)
    rw [h.linkedBalance_eq, ← netPosted_eq h, hhub, List.map_map]
    exact congrArg List.sum (List.map_congr_left fun ua _ => netPosted_eq h ua.ledgerAccountId)
  system := by
    intro id hid a ha haid
    obtain ⟨hd, hc⟩ := h.worker.ledger.posted a ha
    obtain ⟨app, -, -, -, -, -, hdp, hcp⟩ := h.worker.ledger.accounts a ha
    have hun := h.system_untouched hid
    rw [haid, DoubleEntry.debits_eq_zero fun e he => (hun e he).1] at hd
    rw [haid, DoubleEntry.credits_eq_zero fun e he => (hun e he).2] at hc
    exact ⟨hd, hc, hdp, hcp⟩

/-! ### What one step moves -/

/-- Transfers were added, each between a provider and a user with an account
there, and the accounts none of them names have the figures they had. -/
def Moved (env : Env) (w w' : World) : Prop :=
  ∃ new, w'.worker.ledger.transfers = w.worker.ledger.transfers ++ new ∧
    (∀ t ∈ new, ∃ app, TransferFor env w'.pg app ∧ t = toTbTransfer app) ∧
    ∀ a ∈ w.worker.ledger.accounts, ∀ a' ∈ w'.worker.ledger.accounts, a'.id = a.id →
      (∀ t ∈ new, t.debitAccountId ≠ a.id ∧ t.creditAccountId ≠ a.id) →
        a'.debitsPosted = a.debitsPosted ∧ a'.creditsPosted = a.creditsPosted

theorem Grows.moved {w' : World} (hg : Grows w w') (h : Inv env w) (h' : Inv env w') :
    Moved env w w' := by
  obtain ⟨new, hnew⟩ := hg.transfers
  refine ⟨new, hnew.symm, fun t ht => ?_, fun a ha a' ha' hid hun => ?_⟩
  · exact h'.worker.ledger.transfers t (hnew ▸ List.mem_append_right _ ht)
  · have hentries : w'.worker.ledger.entries =
        w.worker.ledger.entries ++ new.map Transfer.entry := by
      rw [Ledger.entries, ← hnew, List.map_append]
      rfl
    have hout : ∀ e ∈ new.map Transfer.entry, e.debit ≠ a.id ∧ e.credit ≠ a.id := by
      intro e he
      obtain ⟨t, ht, rfl⟩ := List.mem_map.mp he
      exact hun t ht
    obtain ⟨hd, hc⟩ := h.worker.ledger.posted a ha
    obtain ⟨hd', hc'⟩ := h'.worker.ledger.posted a' ha'
    rw [hid, hentries, DoubleEntry.debits_append,
      DoubleEntry.debits_eq_zero fun e he => (hout e he).1, Nat.add_zero] at hd'
    rw [hid, hentries, DoubleEntry.credits_append,
      DoubleEntry.credits_eq_zero fun e he => (hout e he).2, Nat.add_zero] at hc'
    exact ⟨hd'.trans hd.symm, hc'.trans hc.symm⟩

end

/-- **Double-entry conservation.** In every reachable state, for every provider,
net debits are the net credits of its linked users, and system accounts hold
nothing; a request hands the ledger only the transfer between its own provider's
and its own user's account; and a step changes no balance but those of the
accounts its transfers name. -/
theorem balances_conserved {env : Env} {c : State} (h : Reachable env c) :
    Conserved env c.world ∧
      (∀ t ∈ c.tasks, ∀ transfer k,
        t.rest = some (.call (.tbSend (.createTransfer transfer)) k) →
          TransferOf env t.req c.world.pg transfer) ∧
      ∀ l c', (machine env).step c l = some c' → Moved env c.world c'.world := by
  refine ⟨h.inv.conserved, fun t ht transfer k hrest => h.holds.pending ht hrest,
    fun l c' hs => ?_⟩
  obtain ⟨h', hg⟩ := h.step hs
  exact hg.moved h.inv h'.inv

theorem balances_conserved_oneCredit :
    linkedBalance oneCredit.world ⟨1002⟩ = 500 ∧ Conserved defaultEnv oneCredit.world ∧
      (∀ t ∈ oneCredit.tasks, ∀ transfer k,
        t.rest = some (.call (.tbSend (.createTransfer transfer)) k) →
          TransferOf defaultEnv t.req oneCredit.world.pg transfer) ∧
      ∀ l c', (machine defaultEnv).step oneCredit l = some c' →
        Moved defaultEnv oneCredit.world c'.world :=
  ⟨by decide +kernel, balances_conserved oneCredit_reachable⟩

/-! ### Solvency -/

/-- An account asked for under a user's ledger id is the user's own, with the
one flag that keeps it from being overdrawn. -/
theorem AccountOf.of_userLedger {env : Env} {w : World} {q : Request} {app : AppAccount}
    {ua : UserAccount} (h : Inv env w) (happ : AccountOf env w.issued q app)
    (hua : ua ∈ w.pg.userAccounts) (hid : app.id = ua.ledgerAccountId.asU128) :
    (∃ payload, q = .createOrLink payload) ∧ app.flags = debitsMustNotExceedCredits := by
  have hissued := h.userLedgers ua hua
  cases happ with
  | provider payload id owner hid' => exact absurd hid (h.asU128_ne hid' hissued (by simp))
  | user payload id owner hid' => exact ⟨⟨payload, rfl⟩, rfl⟩
  | system id hid' => exact absurd hid (h.asU128_ne hid' hissued (by simp))

/-- **Users are never overdrawn.** In every reachable state, the ledger account
of every user account, once it exists, has nothing pending, at most its credits
debited, and exactly the flag `DebitsMustNotExceedCredits`; and whatever request
asks for an account under its id is a `create_or_link` that sets that flag. -/
theorem users_solvent {env : Env} {c : State} (h : Reachable env c) :
    ∀ ua ∈ c.world.pg.userAccounts,
      (∀ a ∈ c.world.worker.ledger.accounts, a.id = ua.ledgerAccountId.asU128 →
        a.debitsPending = 0 ∧ a.debitsPosted ≤ a.creditsPosted ∧
          a.flags = debitsMustNotExceedCredits) ∧
      (∀ t ∈ c.tasks, ∀ app k, t.rest = some (.call (.tbSend (.createAccount app)) k) →
        app.id = ua.ledgerAccountId.asU128 →
          (∃ payload, t.req = .createOrLink payload) ∧ app.flags = debitsMustNotExceedCredits) ∧
      ∀ cmd ∈ c.world.sent, ∀ app, cmd.request = .createAccount app →
        app.id = ua.ledgerAccountId.asU128 → app.flags = debitsMustNotExceedCredits := by
  intro ua hua
  refine ⟨fun a ha hid => ?_, fun t ht app k hrest hid => ?_, fun cmd hcmd app hreq hid => ?_⟩
  · obtain ⟨app, ⟨q, happ⟩, happid, hflags, -, -, hpending, -⟩ :=
      h.inv.worker.ledger.accounts a ha
    obtain ⟨-, hlimited⟩ := happ.of_userLedger h.inv hua (happid.symm.trans hid)
    have hflag : a.flags = debitsMustNotExceedCredits := hflags.trans hlimited
    refine ⟨hpending, h.inv.worker.ledger.solvent a ha ?_, hflag⟩
    rw [Account.creditLimited, hflag]
    rfl
  · exact (h.holds.pending ht hrest).of_userLedger h.inv hua hid
  · have hok := h.inv.traffic.commands cmd hcmd
    rw [hreq] at hok
    obtain ⟨q, happ⟩ := hok
    exact (happ.of_userLedger h.inv hua hid).2

/-- A debit of more than the balance is refused by the ledger. -/
def overdrawn : State :=
  request defaultEnv oneCredit (.debitUser ⟨1002⟩ ⟨1008⟩ ⟨⟨8⟩, 501, none⟩)

theorem users_solvent_overdrawn :
    overdrawn.world.pg.userAccounts.map (·.ledgerAccountId) = [⟨1006⟩] ∧
      (overdrawn.world.worker.ledger.accounts.map Account.id) = [1003, 1006] ∧
      ∀ ua ∈ overdrawn.world.pg.userAccounts,
        (∀ a ∈ overdrawn.world.worker.ledger.accounts, a.id = ua.ledgerAccountId.asU128 →
          a.debitsPending = 0 ∧ a.debitsPosted ≤ a.creditsPosted ∧
            a.flags = debitsMustNotExceedCredits) ∧
        (∀ t ∈ overdrawn.tasks, ∀ app k,
          t.rest = some (.call (.tbSend (.createAccount app)) k) →
          app.id = ua.ledgerAccountId.asU128 →
            (∃ payload, t.req = .createOrLink payload) ∧ app.flags = debitsMustNotExceedCredits) ∧
        ∀ cmd ∈ overdrawn.world.sent, ∀ app, cmd.request = .createAccount app →
          app.id = ua.ledgerAccountId.asU128 → app.flags = debitsMustNotExceedCredits :=
  ⟨by decide +kernel, by decide +kernel,
    users_solvent (request_reachable oneCredit_reachable _)⟩

end Wurzburg.System
