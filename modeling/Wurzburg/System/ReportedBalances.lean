import Wurzburg.Lib.Wrapping
import Wurzburg.Db.Lifecycle
import Wurzburg.System.Balances
import Wurzburg.System.Recovery

/-!
# Wurzburg.System.ReportedBalances

The balances the service reports, against the exact ones of the ledger.

Each place that computes a balance narrows at another moment: the handlers cast
both totals to `i64` and subtract, a priority request subtracts and then casts,
`GetAccountBalances` works in `i128`, and `get_user_balance` also adds up. Casts
and operations all wrap, so every one of them is the exact balance, wrapped once
(`currentBalance_own`, `providerBalance_own`, `totalBalance_own`); what is left
is to ask whether that is in range.
-/

namespace Wurzburg.System

open Wurzburg.Lib Wurzburg.Db Wurzburg.Tb Wurzburg.Api

/-! ### What is looked up -/

/-- A list of stored accounts in which an id is found if the ledger has it. -/
theorem find?_stored {l : Ledger} {rs : List Account} {id : Nat}
    (hstored : ∀ a ∈ rs, l.account? a.id = some a) (hid : ∀ a, l.account? id = some a → a ∈ rs) :
    rs.find? (fun a => a.id = id) = l.account? id := by
  cases hfind : rs.find? (fun a => a.id = id) with
  | some a =>
      obtain rfl : a.id = id := by simpa using List.find?_some hfind
      exact (hstored a (List.mem_of_find?_eq_some hfind)).symm
  | none =>
      cases hacc : l.account? id with
      | none => rfl
      | some a =>
          have := List.find?_eq_none.mp hfind a (hid a hacc)
          simp [Ledger.account?_id hacc] at this

section

variable {l : Ledger} {ids : List Nat} {id : Nat}

theorem stored_of_mem_lookupAccounts : ∀ a ∈ l.lookupAccounts ids, l.account? a.id = some a := by
  intro a ha
  obtain ⟨i, -, hi⟩ := List.mem_filterMap.mp ha
  rw [Ledger.account?_id hi, hi]

theorem mem_lookupAccounts (hid : id ∈ ids) (a : Account) (ha : l.account? id = some a) :
    a ∈ l.lookupAccounts ids :=
  List.mem_filterMap.mpr ⟨id, hid, ha⟩

theorem find?_lookupAccounts (hid : id ∈ ids) :
    (l.lookupAccounts ids).find? (fun a => a.id = id) = l.account? id :=
  find?_stored stored_of_mem_lookupAccounts (mem_lookupAccounts hid)

theorem find?_reverse_lookupAccounts (hid : id ∈ ids) :
    (l.lookupAccounts ids).reverse.find? (fun a => a.id = id) = l.account? id :=
  find?_stored (fun a ha => stored_of_mem_lookupAccounts a (List.mem_reverse.mp ha))
    (fun a ha => List.mem_reverse.mpr (mem_lookupAccounts hid a ha))

end

/-! ### Every balance is wrapped once -/

theorem wrap64_zero : wrap64 0 = 0 := Int.zero_bmod

theorem subI64_asI64 (c d : Nat) : subI64 (asI64 c) (asI64 d) = wrap64 ((c : Int) - d) := by
  unfold subI64 asI64 wrap64
  rw [← Int.sub_bmod]

theorem currentBalance_nil : currentBalance [] = 0 := rfl

theorem currentBalance_cons (a : AppAccount) (rs : List AppAccount) :
    currentBalance (a :: rs) = wrap64 ((a.creditsPosted : Int) - a.debitsPosted) := by
  rw [← subI64_asI64, currentBalance, List.head?_cons, Option.map_some, Option.getD_some]

/-- `current_balance`, on the account that was asked for. -/
theorem currentBalance_own (l : Ledger) (id : Uuid) :
    currentBalance (serveLookupAccounts l [id.asU128]).1 = wrap64 (netPosted l id) := by
  have hserve : (serveLookupAccounts l [id.asU128]).1 =
      (l.account? id.asU128).toList.map fromTbAccount := by
    cases hacc : l.account? id.asU128 <;>
      simp [serveLookupAccounts, Ledger.lookupAccounts, hacc]
  rw [hserve, netPosted]
  cases l.account? id.asU128 with
  | none =>
      rw [Option.toList_none, List.map_nil, currentBalance_nil]
      exact wrap64_zero.symm
  | some a =>
      rw [Option.toList_some, List.map_cons, currentBalance_cons]
      rfl

/-- One balance of `get_user_balance`. -/
theorem providerBalance_own {l : Ledger} {infos : List UserAccountProviderInfo}
    {info : UserAccountProviderInfo} (hinfo : info ∈ infos) :
    (providerBalance (l.lookupAccounts (infos.map (·.ledgerAccountId.asU128))) info).balance =
      wrap64 (netPosted l info.ledgerAccountId) := by
  have hid : info.ledgerAccountId.asU128 ∈ infos.map (·.ledgerAccountId.asU128) :=
    List.mem_map_of_mem hinfo
  simp only [providerBalance, netPosted, find?_lookupAccounts hid]
  cases l.account? info.ledgerAccountId.asU128 with
  | none => exact wrap64_zero.symm
  | some a =>
      simp only
      rw [subI64_asI64]

/-- What `get_user_balance` answers for these accounts. -/
def balanceResponse (l : Ledger) (infos : List UserAccountProviderInfo) : UserBalanceResponse :=
  let items := infos.map
    (providerBalance (l.lookupAccounts (infos.map (·.ledgerAccountId.asU128))))
  { totalBalance := items.foldl (fun total item => addI64 total item.balance) 0
    providerBalances := items }

theorem balances_own (l : Ledger) (infos : List UserAccountProviderInfo) :
    (balanceResponse l infos).providerBalances.map (·.balance) =
      infos.map (fun info => wrap64 (netPosted l info.ledgerAccountId)) := by
  rw [balanceResponse, List.map_map]
  exact List.map_congr_left (fun info hinfo => providerBalance_own hinfo)

/-- The total of `get_user_balance`. -/
theorem totalBalance_own (l : Ledger) (infos : List UserAccountProviderInfo) :
    (balanceResponse l infos).totalBalance =
      wrap64 (infos.map (fun info => netPosted l info.ledgerAccountId)).sum := by
  have hfold := @Wrapping.foldl_bmod_add ProviderBalanceItem (2 ^ 64) (·.balance)
    (balanceResponse l infos).providerBalances 0
  rw [balances_own, Int.zero_bmod, zero_add] at hfold
  have hwrap := @Wrapping.sum_bmod_bmod (2 ^ 64)
    (infos.map (fun info => netPosted l info.ledgerAccountId))
  rw [List.map_map] at hwrap
  exact hfold.trans hwrap

/-! ### The accounts of a user -/

/-- The accounts of a user. -/
def accountsOf (pg : Pg) (u : Uuid) : List UserAccount :=
  pg.userAccounts.filter (fun ua => ua.userId = u)

/-- What a user holds at all providers together, exactly. -/
def exactTotal (pg : Pg) (l : Ledger) (u : Uuid) : Int :=
  ((accountsOf pg u).map (fun ua => netPosted l ua.ledgerAccountId)).sum

/-- `get_user_accounts_provider_info` lists every account of the user once. -/
theorem accountInfos {pg : Pg} (h : Tables pg) (u : Uuid) :
    (pg.userAccountsProviderInfo u).map (fun info => (info.providerId, info.ledgerAccountId)) =
      (accountsOf pg u).map (fun ua => (ua.providerId, ua.ledgerAccountId)) := by
  have hjoin : ∀ uas : List UserAccount, (∀ ua ∈ uas, ua ∈ pg.userAccounts) →
      (uas.flatMap fun ua => (pg.providers.filter (fun p => ua.providerId = p.id)).map fun p =>
        ({ providerId := p.id, providerName := p.tradeName, ledgerAccountId := ua.ledgerAccountId } :
          UserAccountProviderInfo)).map (fun info => (info.providerId, info.ledgerAccountId)) =
        uas.map (fun ua => (ua.providerId, ua.ledgerAccountId)) := by
    intro uas huas
    induction uas with
    | nil => rfl
    | cons ua uas ih =>
        obtain ⟨hua, huas⟩ := List.forall_mem_cons.mp huas
        obtain ⟨p, hp, hid⟩ := h.accountProvider ua hua
        rw [List.flatMap_cons, ← hid, filter_provider h.providerIds hp, List.map_append, ih huas]
        simp [hid]
  exact hjoin _ (fun ua hua => (List.mem_filter.mp hua).1)

theorem map_accountInfos {pg : Pg} (h : Tables pg) (u : Uuid) {α : Type} (f : Uuid → α) :
    (pg.userAccountsProviderInfo u).map (fun info => f info.ledgerAccountId) =
      (accountsOf pg u).map (fun ua => f ua.ledgerAccountId) := by
  have := congrArg (List.map (fun pair : Uuid × Uuid => f pair.2)) (accountInfos h u)
  rwa [List.map_map, List.map_map] at this

/-! ### Requests alone -/

/-- At rest, whatever the stores hold. -/
def Rested (w : World) : Prop := AtRest w.pg w.worker.ledger w.issued w

/-- Effects that do not go to the ledger. -/
def Eff.sparesLedger : Eff → Prop
  | .tbSend _ | .tbRecv _ => False
  | _ => True

section

variable {env : Env} {pg : Pg} {l : Ledger} {issued : List (Uuid × IdUse)} {w w' : World}
  {γ δ : Type} {post : Except HttpError δ → World → Prop}

theorem AtRest.rested (h : AtRest pg l issued w) : Rested w :=
  ⟨h.alive, h.queue, h.unladen, h.answered, rfl, rfl, rfl⟩

theorem Rested.exec {capacity : Nat} {ch : Choice} {e : Eff} {r : e.Resp} (h : Rested w)
    (he : e.sparesLedger) (hch : ch.fault = .none) (hx : w.exec capacity ch e = some (r, w')) :
    Rested w' := by
  cases e with
  | now =>
      obtain ⟨-, rfl⟩ := Prod.mk.inj (Option.some.inj hx)
      exact h
  | newV4 use =>
      simp only [World.exec] at hx
      split at hx
      · obtain ⟨-, rfl⟩ := Prod.mk.inj (Option.some.inj hx)
        exact ⟨h.alive, h.queue, h.unladen, h.answered, rfl, rfl, rfl⟩
      · cases hx
  | db call =>
      obtain ⟨n, -, hw⟩ := dbExec_ok hch hx
      rw [hw]
      exact ⟨h.alive, h.queue, h.unladen, h.answered, rfl, rfl, rfl⟩
  | redis cmd =>
      have hx : some (w.faulty ch.fault (·.redisApply cmd)) = some (r, w') := hx
      rw [hch] at hx
      obtain ⟨-, rfl⟩ := Prod.mk.inj (Option.some.inj hx)
      cases cmd <;> exact ⟨h.alive, h.queue, h.unladen, h.answered, rfl, rfl, rfl⟩
  | kafka cmd =>
      have hx : some (w.faulty ch.fault (·.kafkaApply cmd)) = some (r, w') := hx
      rw [hch] at hx
      obtain ⟨-, rfl⟩ := Prod.mk.inj (Option.some.inj hx)
      cases cmd <;> exact ⟨h.alive, h.queue, h.unladen, h.answered, rfl, rfl, rfl⟩
  | tbSend request => exact he.elim
  | tbRecv i => exact he.elim

/-- A request that answers or fails as it likes, from rest to rest. -/
theorem rested_total {x : Handler γ} (hx : Prog.UsesE Eff.sparesLedger x) (h : Rested w)
    (hpost : ∀ e t, post (.error e) t) :
    (alone env (fun _ => True) False).TotalE (fun _ t => Rested t) post x w := by
  have hprog : ∀ (p : Prog Eff Eff.Resp (Except HttpError γ)) (w : World),
      p.Uses Eff.sparesLedger → Rested w →
      (alone env (fun _ => True) False).Total (fun _ t => Rested t) p w := by
    intro p
    induction p with
    | ret a => exact fun w _ h t ht => ⟨trivial, (h.moves ht).rested⟩
    | call e k ih =>
        intro w huses h t ht
        refine ⟨trivial, False.elim, fun ch r t' hch hx => ?_⟩
        exact ih r t' (huses.2 r) ((h.moves ht).rested.exec huses.1 hch hx)
  refine Setting.Total.weaken (hprog _ w hx h) (fun r t hr => ?_)
  cases r with
  | ok a => exact hr
  | error e => exact hpost e t

/-- `get_user_balance`, from rest. -/
theorem getUserBalance_total (u : Uuid) (h : AtRest pg l issued w) :
    (alone env (fun _ => True) False).Total
      (fun r _ => r = .ok (balanceResponse l (pg.userAccountsProviderInfo u)))
      (getUserBalance u).run w := by
  refine Setting.TotalE.total (Setting.TotalE.bind
    (M := fun (infos : DbCall.Row (.getUserAccountsProviderInfo u)) t =>
      infos = pg.userAccountsProviderInfo u ∧ AtRest pg l issued t)
    (db_read_total h trivial (fun _ _ => rfl) (fun t ht => ⟨rfl, ht⟩)) (fun infos t hinfos => ?_))
  obtain ⟨-, rfl, hrest⟩ := hinfos t .refl
  cases hnil : pg.userAccountsProviderInfo u with
  | nil => exact Setting.TotalE.pure (fun t' _ => ⟨trivial, rfl⟩)
  | cons info infos =>
      refine Setting.TotalE.bind
        (M := fun rs _ => rs = l.lookupAccounts ((info :: infos).map (·.ledgerAccountId.asU128)))
        (orFail_total (submit_total hrest trivial False.elim (fun t' _ => rfl))) (fun rs t hrs => ?_)
      obtain ⟨-, rfl⟩ := hrs t .refl
      exact Setting.TotalE.pure (fun t' _ => ⟨trivial, rfl⟩)

/-- The balance in an answer is that of the account, as the ledger stands. -/
def ReportsOwn (id : Uuid) (a : StatusCode × TransactionResponse) (w : World) : Prop :=
  a.2.currentBalance = some (currentBalance (serveLookupAccounts w.worker.ledger [id.asU128]).1)

variable {d : Direction} {p u : Uuid} {payload : TransferRequest}

/-- `settle`, from rest: the account is looked up last. -/
theorem settle_reports {ud : UserProviderDetails} {pd : Provider} (h : Rested w)
    (hpost : ∀ e t, post (.error e) t) :
    (alone env (fun _ => True) False).TotalE (ReportsOwn ud.userLedgerAccountId) post
      (settle env d p u payload ud pd) w := by
  refine Setting.TotalE.bind (M := fun _ t => Rested t)
    (orFail_total (submit_total h trivial False.elim (fun t ht => ht.rested))) (fun rs t hrs => ?_)
  obtain ⟨-, hrest⟩ := hrs t .refl
  by_cases hempty : rs.isEmpty = true
  · rw [if_pos hempty]
    have hrecord : Prog.UsesE Eff.sparesLedger
        (recordTransfer d p u payload pd.ledgerAccountId ud.userLedgerAccountId) := by
      cases d <;> exact db_uses trivial
    refine Setting.TotalE.bind (rested_total hrecord hrest hpost) (fun row t hrow => ?_)
    obtain ⟨-, hrest⟩ := hrow t .refl
    refine Setting.TotalE.bind (M := fun rs t =>
      rs = (serveLookupAccounts t.worker.ledger [ud.userLedgerAccountId.asU128]).1)
      (orFail_total (submit_total hrest trivial False.elim (fun t' ht' => ?_))) (fun rs t hrs => ?_)
    · rw [ht'.ledger_eq]
      rfl
    · refine Setting.TotalE.pure (fun t' hm => ⟨trivial, ?_⟩)
      obtain ⟨-, rfl⟩ := hrs t' hm
      rfl
  · rw [if_neg hempty]
    exact Setting.TotalE.throw (fun t' _ => ⟨trivial, hpost _ t'⟩)

/-- `admission`, from rest: the account is the one the details name. -/
theorem admission_reports (h : AtRest pg l issued w) (hpost : ∀ e t, post (.error e) t) :
    (alone env (fun _ => True) False).TotalE (fun a t => Rested t ∧ match a with
      | .answered response => response.status ≠ "SUCCESS" ∧ response.currentBalance = none
      | .admitted ud _ => (pg.userProviderDetails u p).head? = some ud) post
      (admission p u payload) w := by
  refine Setting.TotalE.bind (M := fun (found : DbCall.Row (.getUserProviderDetails u p)) t =>
    found = (pg.userProviderDetails u p).head? ∧ AtRest pg l issued t)
    (db_read_total h trivial (getUserProviderDetails_transact u p pg) (fun t ht => ⟨rfl, ht⟩))
    (fun found t hfound => ?_)
  obtain ⟨-, rfl, hrest⟩ := hfound t .refl
  cases hdetails : (pg.userProviderDetails u p).head? with
  | none => exact Setting.TotalE.throw (fun t' _ => ⟨trivial, hpost _ t'⟩)
  | some ud =>
  rw [orElse_some_bind]
  refine Setting.TotalE.bind (rested_total (tryDb_uses trivial) hrest.rested hpost)
    (fun known t hknown => ?_)
  obtain ⟨-, hrest⟩ := hknown t .refl
  split
  · exact Setting.TotalE.pure (fun t' hm =>
      ⟨trivial, (hrest.moves hm).rested, ne_of_beq_false rfl, rfl⟩)
  · refine Setting.TotalE.bind (rested_total (db_uses trivial) hrest hpost) (fun found t hf => ?_)
    obtain ⟨-, hrest⟩ := hf t .refl
    cases found with
    | none => exact Setting.TotalE.throw (fun t' _ => ⟨trivial, hpost _ t'⟩)
    | some pd => exact Setting.TotalE.pure (fun t' hm => ⟨trivial, (hrest.moves hm).rested, rfl⟩)

/-- A credit or debit, from rest: the balance is that of the user's account, and only an answer
other than `SUCCESS` is without one. -/
theorem transferHandler_reports (h : AtRest pg l issued w) :
    (alone env (fun _ => True) False).Total
      (fun r t => ∀ a, r = .ok a → (a.2.status ≠ "SUCCESS" ∧ a.2.currentBalance = none) ∨
        ∃ ud, (pg.userProviderDetails u p).head? = some ud ∧ ReportsOwn ud.userLedgerAccountId a t)
      (transferHandler env d p u payload).run w := by
  have hpost : ∀ (e : HttpError) (t : World), ∀ a : StatusCode × TransactionResponse,
      (Except.error e : Except HttpError _) = .ok a →
        (a.2.status ≠ "SUCCESS" ∧ a.2.currentBalance = none) ∨
        ∃ ud, (pg.userProviderDetails u p).head? = some ud ∧
          ReportsOwn ud.userLedgerAccountId a t := by
    intro e t a ha
    cases ha
  refine Setting.TotalE.total (Setting.TotalE.bind (admission_reports h hpost) (fun a t ha => ?_))
  obtain ⟨-, hrest, hadmitted⟩ := ha t .refl
  cases a with
  | answered response =>
      refine Setting.TotalE.pure (fun t' _ => ⟨trivial, fun a heq => Or.inl ?_⟩)
      rw [← Except.ok.inj heq]
      exact hadmitted
  | admitted ud pd =>
      have hprepare : Prog.UsesE Eff.sparesLedger (prepare d p u) := by
        cases d with
        | credit => exact .pure _
        | debit => exact cancelPriorityNaming_uses trivial trivial (fun _ => trivial)
      refine Setting.TotalE.bind (rested_total hprepare hrest hpost) (fun _ t ht => ?_)
      refine Setting.TotalE.weaken (settle_reports (ht t .refl).2 hpost) (fun a t hown => ?_)
      intro a' heq
      obtain rfl := Except.ok.inj heq
      exact Or.inr ⟨ud, hadmitted, hown⟩

end

/-! ### Balances in range -/

/-- The balances of a user fit an `i64`, each and together; the totals need not. -/
structure BalancesFit (pg : Pg) (l : Ledger) (u : Uuid) : Prop where
  posted : ∀ ua ∈ accountsOf pg u, ∀ a, l.account? ua.ledgerAccountId.asU128 = some a →
    a.debitsPosted ≤ a.creditsPosted ∧ a.creditsPosted < 2 ^ 127 ∧
      a.creditsPosted - a.debitsPosted < 2 ^ 63
  total : exactTotal pg l u < 2 ^ 63

instance (pg : Pg) (l : Ledger) (u : Uuid) : Decidable (BalancesFit pg l u) :=
  decidable_of_iff ((∀ ua ∈ accountsOf pg u, ∀ a ∈ l.account? ua.ledgerAccountId.asU128,
      a.debitsPosted ≤ a.creditsPosted ∧ a.creditsPosted < 2 ^ 127 ∧
        a.creditsPosted - a.debitsPosted < 2 ^ 63) ∧ exactTotal pg l u < 2 ^ 63)
    ⟨fun h => ⟨h.1, h.2⟩, fun h => ⟨h.1, h.2⟩⟩

section

variable {pg : Pg} {l : Ledger} {u : Uuid} {ua : UserAccount}

theorem BalancesFit.balance (h : BalancesFit pg l u) (hua : ua ∈ accountsOf pg u) :
    0 ≤ netPosted l ua.ledgerAccountId ∧ netPosted l ua.ledgerAccountId < 2 ^ 63 := by
  unfold netPosted
  cases hacc : l.account? ua.ledgerAccountId.asU128 with
  | none => simp
  | some a =>
      obtain ⟨hle, -, hlt⟩ := h.posted ua hua a hacc
      simp only
      omega

theorem BalancesFit.wrap64_balance (h : BalancesFit pg l u) (hua : ua ∈ accountsOf pg u) :
    wrap64 (netPosted l ua.ledgerAccountId) = netPosted l ua.ledgerAccountId := by
  obtain ⟨hlo, hhi⟩ := h.balance hua
  exact wrap64_of_bounds (by omega) (by omega)

theorem BalancesFit.wrap64_total (h : BalancesFit pg l u) :
    wrap64 (exactTotal pg l u) = exactTotal pg l u := by
  have hlo : 0 ≤ exactTotal pg l u :=
    List.sum_nonneg (List.forall_mem_map.mpr (fun ua hua => (h.balance hua).1))
  have hhi := h.total
  exact wrap64_of_bounds (by omega) hhi

/-- The answer of `get_user_balance` is exact: an entry for each provider the user is linked
to, each with the balance of the account there, and their sum. -/
structure ExactBalances (pg : Pg) (l : Ledger) (u : Uuid) (r : UserBalanceResponse) : Prop where
  once : (r.providerBalances.map (·.providerId)).Nodup
  linked : ∀ p, p ∈ r.providerBalances.map (·.providerId) ↔
    (u, p) ∈ pg.userProviders.map UserProvider.pair
  entries : r.providerBalances.map (fun item => (item.providerId, item.balance)) =
    (accountsOf pg u).map (fun ua => (ua.providerId, netPosted l ua.ledgerAccountId))
  total : r.totalBalance = exactTotal pg l u

/-- The accounts of a user are at different providers. -/
theorem accountsOf_providers_nodup (h : Tables pg) (u : Uuid) :
    ((accountsOf pg u).map (·.providerId)).Nodup := by
  have hpairs : ((accountsOf pg u).map UserAccount.pair).Nodup :=
    h.accountPairs.sublist (List.filter_sublist.map _)
  have hsame : (accountsOf pg u).map UserAccount.pair =
      ((accountsOf pg u).map (·.providerId)).map (fun p => (u, p)) := by
    rw [List.map_map]
    refine List.map_congr_left (fun ua hua => Prod.ext ?_ rfl)
    exact of_decide_eq_true (List.mem_filter.mp hua).2
  rw [hsame] at hpairs
  exact List.Nodup.of_map _ hpairs

theorem mem_accountsOf_providers (h : Tables pg) {p : Uuid} :
    p ∈ (accountsOf pg u).map (·.providerId) ↔ (u, p) ∈ pg.userProviders.map UserProvider.pair := by
  rw [h.links]
  constructor
  · intro hp
    obtain ⟨ua, hua, rfl⟩ := List.mem_map.mp hp
    obtain ⟨hmem, hu⟩ := List.mem_filter.mp hua
    obtain rfl := of_decide_eq_true hu
    exact List.mem_map_of_mem hmem
  · intro hpair
    obtain ⟨ua, hua, hu, rfl⟩ := Tables.account_of_pair hpair
    exact List.mem_map_of_mem (List.mem_filter.mpr ⟨hua, decide_eq_true hu⟩)

theorem exactBalances (h : Tables pg) (hfit : BalancesFit pg l u) :
    ExactBalances pg l u (balanceResponse l (pg.userAccountsProviderInfo u)) := by
  have hentries : (balanceResponse l (pg.userAccountsProviderInfo u)).providerBalances.map
      (fun item => (item.providerId, item.balance)) =
      (accountsOf pg u).map (fun ua => (ua.providerId, netPosted l ua.ledgerAccountId)) := by
    calc (balanceResponse l (pg.userAccountsProviderInfo u)).providerBalances.map
          (fun item => (item.providerId, item.balance))
        = ((pg.userAccountsProviderInfo u).map
            (fun info => (info.providerId, info.ledgerAccountId))).map
              (fun pair => (pair.1, wrap64 (netPosted l pair.2))) := by
          rw [balanceResponse, List.map_map, List.map_map]
          refine List.map_congr_left (fun info hinfo => Prod.ext rfl ?_)
          exact providerBalance_own hinfo
      _ = (accountsOf pg u).map (fun ua =>
            (ua.providerId, wrap64 (netPosted l ua.ledgerAccountId))) := by
          rw [accountInfos h, List.map_map]
          rfl
      _ = _ := List.map_congr_left (fun ua hua => by rw [hfit.wrap64_balance hua])
  have hproviders : (balanceResponse l (pg.userAccountsProviderInfo u)).providerBalances.map
      (·.providerId) = (accountsOf pg u).map (·.providerId) := by
    have := congrArg (List.map Prod.fst) hentries
    rwa [List.map_map, List.map_map] at this
  refine ⟨?_, fun p => ?_, hentries, ?_⟩
  · rw [hproviders]
    exact accountsOf_providers_nodup h u
  · rw [hproviders]
    exact mem_accountsOf_providers h
  · rw [totalBalance_own, map_accountInfos h]
    exact hfit.wrap64_total

/-- The text of a refusal for lack of funds. -/
def insufficientText (r : ResolvedItem) (available : Int) : String :=
  "Insufficient balance for provider " ++ r.item.providerId.toString ++ ". Requested: " ++
    toString r.item.maxAmount ++ ", Available: " ++ toString available

/-- `available_balance` of a priority request is exact. -/
theorem fundsError_exact (hfit : BalancesFit pg l u) (hua : ua ∈ accountsOf pg u) {a : Account}
    (hacc : l.account? ua.ledgerAccountId.asU128 = some a) {r : ResolvedItem}
    (hr : r.userLedgerId = ua.ledgerAccountId) {ids : List Nat}
    (hid : ua.ledgerAccountId.asU128 ∈ ids) :
    fundsError (l.lookupAccounts ids) r =
      if netPosted l ua.ledgerAccountId < r.item.maxAmount then
        some (insufficientText r (netPosted l ua.ledgerAccountId))
      else none := by
  obtain ⟨hle, -, hlt⟩ := hfit.posted ua hua a hacc
  have havailable : asI64 (a.creditsPosted - a.debitsPosted) = netPosted l ua.ledgerAccountId := by
    rw [asI64_of_lt hlt, netPosted, hacc]
    simp only
    omega
  rw [← hr] at hid
  simp only [fundsError, find?_reverse_lookupAccounts hid]
  rw [hr, hacc]
  simp only [havailable]
  rfl

/-- `posted_balance` of `GetAccountBalances` is exact. -/
theorem postedBalance_exact {a : Account} (hle : a.debitsPosted ≤ a.creditsPosted)
    (hlt : a.creditsPosted < 2 ^ 127) :
    (Worker.balanceOf a).postedBalance = (a.creditsPosted : Int) - a.debitsPosted := by
  unfold Worker.balanceOf subI128 asI128 wrap128
  simp only
  rw [← Int.sub_bmod, Int.bmod_eq_of_le_mul_two] <;> omega

end

section

variable {env : Env} {c₀ c c' : State} {u p : Uuid} {l : Ledger} {issued : List (Uuid × IdUse)}

/-- The balance in the answer to a credit or debit. -/
theorem transferAnswer_exact (hfit : BalancesFit c₀.world.pg l u) {l₀ : Ledger} {d : Direction}
    {payload : TransferRequest} {status : StatusCode} {r : TransactionResponse}
    (hrest : AtRest c₀.world.pg l₀ issued c.world)
    (hrun : (machine env).Reach (fun _ l => Alone c.tasks.length l)
      (arrived env c (transferRequest d p u payload)) c')
    (ha : c'.tasks[c.tasks.length]?.bind Task.answer? = some (.ok (status, .transaction r)))
    (hledger : c'.world.worker.ledger = l) :
    (r.status = "SUCCESS" → r.currentBalance ≠ none) ∧
    ∀ b, r.currentBalance = some b →
      ∃ ua ∈ accountsOf c₀.world.pg u, ua.providerId = p ∧ b = netPosted l ua.ledgerAccountId := by
  obtain ⟨t, ht, hanswer⟩ := Option.bind_eq_some_iff.mp ha
  have hhandler : (alone env (fun _ => True) False).Total _
      (transferHandler env d p u payload).run c.world := transferHandler_reports hrest
  have htotal := answerWith_mapped_total Body.transaction hhandler
  rw [← serve_transferRequest] at htotal
  obtain ⟨out, heq, hout⟩ := htotal.answered (arrived_task env c _) hrun ht hanswer
  obtain ⟨a, rfl⟩ : ∃ a, out = .ok a := by
    cases out with
    | ok a => exact ⟨a, rfl⟩
    | error e => cases heq
  obtain ⟨-, hr⟩ := Prod.mk.inj (Except.ok.inj heq)
  obtain rfl := Body.transaction.inj hr
  rcases hout a rfl with ⟨hstatus, hnone⟩ | ⟨ud, hud, hown⟩
  · refine ⟨fun h => absurd h hstatus, fun b hb => ?_⟩
    rw [hnone] at hb
    cases hb
  · rw [ReportsOwn, currentBalance_own, hledger] at hown
    refine ⟨fun _ hnone => ?_, fun b hb => ?_⟩
    · rw [hown] at hnone
      cases hnone
    · obtain ⟨-, -, ua, hua, hpair, hid⟩ := Pg.mem_userProviderDetails (List.mem_of_head? hud)
      obtain ⟨hu, hp⟩ := Prod.mk.inj hpair
      have hmem : ua ∈ accountsOf c₀.world.pg u := List.mem_filter.mpr ⟨hua, decide_eq_true hu⟩
      refine ⟨ua, hmem, hp, ?_⟩
      rw [← Option.some.inj (hown.symm.trans hb), ← hid, hfit.wrap64_balance hmem]

/-- The entries and the total of `get_user_balance`. -/
theorem userBalanceAnswer_exact (h₀ : Reachable env c₀) (hfit : BalancesFit c₀.world.pg l u)
    {a : Answer} (hrest : AtRest c₀.world.pg l issued c.world)
    (hrun : (machine env).Reach (fun _ l => Alone c.tasks.length l)
      (arrived env c (.getUserBalance u)) c')
    (ha : c'.tasks[c.tasks.length]?.bind Task.answer? = some a) :
    ∃ r, a = .ok (.ok, .userBalance r) ∧ ExactBalances c₀.world.pg l u r := by
  obtain ⟨t, ht, hanswer⟩ := Option.bind_eq_some_iff.mp ha
  have hmapped : (alone env (fun _ => True) False).Total
      (fun r _ => r = .ok (StatusCode.ok,
        balanceResponse l (c₀.world.pg.userAccountsProviderInfo u)))
      ((fun r => (StatusCode.ok, r)) <$> getUserBalance u : Handler _).run c.world := by
    refine Setting.Total.bind (getUserBalance_total u hrest) (fun r t hr => ?_)
    obtain rfl := hr.answer
    exact fun t' _ => ⟨trivial, rfl⟩
  obtain ⟨out, rfl, rfl⟩ := (answerWith_mapped_total Body.userBalance hmapped).answered
    (arrived_task env c (.getUserBalance u)) hrun ht hanswer
  exact ⟨_, rfl, exactBalances h₀.inv.tables hfit⟩

/-- The balances that `GetAccountBalances` is answered with. -/
theorem accountBalances_exact {pg : Pg} (hfit : BalancesFit pg l u) {ids : List Nat}
    (hids : ∀ id ∈ ids, ∃ ua ∈ accountsOf pg u, id = ua.ledgerAccountId.asU128) :
    ((l.lookupAccounts ids).map Worker.balanceOf).map (fun b => (b.accountId, b.postedBalance)) =
      (l.lookupAccounts ids).map (fun a => (a.id, (a.creditsPosted : Int) - a.debitsPosted)) := by
  rw [List.map_map]
  refine List.map_congr_left (fun a ha => ?_)
  obtain ⟨i, hi, hacc⟩ := List.mem_filterMap.mp ha
  obtain ⟨ua, hua, rfl⟩ := hids i hi
  obtain ⟨hle, hlt, -⟩ := hfit.posted ua hua a hacc
  show ((Worker.balanceOf a).accountId, (Worker.balanceOf a).postedBalance) = _
  rw [postedBalance_exact hle hlt]
  rfl

end

/-- **All balance computations agree** with the exact balance of the ledger, for every content
of the tables that the service can reach and every ledger that fits them: the balance in the
answer to a credit or debit, the entries and the total of `get_user_balance`, the available
balance that a priority request is checked against, and the posted balance of
`GetAccountBalances`. -/
theorem balances_agree {env : Env} {c₀ : State} {u : Uuid} {l : Ledger} (h₀ : Reachable env c₀)
    (hfit : BalancesFit c₀.world.pg l u) :
    (∀ (c c' : State) l₀ issued d p payload status r, AtRest c₀.world.pg l₀ issued c.world →
      (machine env).Reach (fun _ l => Alone c.tasks.length l)
        (arrived env c (transferRequest d p u payload)) c' →
      c'.tasks[c.tasks.length]?.bind Task.answer? = some (.ok (status, .transaction r)) →
      c'.world.worker.ledger = l →
      (r.status = "SUCCESS" → r.currentBalance ≠ none) ∧
      ∀ b, r.currentBalance = some b →
        ∃ ua ∈ accountsOf c₀.world.pg u, ua.providerId = p ∧ b = netPosted l ua.ledgerAccountId) ∧
    (∀ (c c' : State) issued a, AtRest c₀.world.pg l issued c.world →
      (machine env).Reach (fun _ l => Alone c.tasks.length l)
        (arrived env c (.getUserBalance u)) c' →
      c'.tasks[c.tasks.length]?.bind Task.answer? = some a →
      ∃ r, a = .ok (.ok, .userBalance r) ∧ ExactBalances c₀.world.pg l u r) ∧
    (∀ (resolved : List ResolvedItem), ∀ r ∈ resolved, ∀ ua ∈ accountsOf c₀.world.pg u, ∀ a,
      r.userLedgerId = ua.ledgerAccountId → l.account? ua.ledgerAccountId.asU128 = some a →
      fundsError (l.lookupAccounts (resolved.map (·.userLedgerId.asU128))) r =
        if netPosted l ua.ledgerAccountId < r.item.maxAmount then
          some (insufficientText r (netPosted l ua.ledgerAccountId))
        else none) ∧
    ∀ (worker : Worker) n ids responder, worker.ledger = l →
      (∀ id ∈ ids, ∃ ua ∈ accountsOf c₀.world.pg u, id = ua.ledgerAccountId.asU128) →
      ∃ balances, (worker.turn env.tb n (.command ⟨.getAccountBalances ids, responder⟩ .ok)).replies =
          worker.replies ++ [(responder, .balances (.ok balances))] ∧
        balances.map (fun b => (b.accountId, b.postedBalance)) =
          (l.lookupAccounts ids).map (fun a => (a.id, (a.creditsPosted : Int) - a.debitsPosted)) := by
  refine ⟨?_, ?_, ?_, ?_⟩
  · intro c c' l₀ issued d p payload status r hrest hrun ha hledger
    exact transferAnswer_exact hfit hrest hrun ha hledger
  · intro c c' issued a hrest hrun ha
    exact userBalanceAnswer_exact h₀ hfit hrest hrun ha
  · intro resolved r hr ua hua a hid hacc
    refine fundsError_exact hfit hua hacc hid ?_
    rw [← hid]
    exact List.mem_map_of_mem hr
  · intro worker n ids responder hledger hids
    refine ⟨(l.lookupAccounts ids).map Worker.balanceOf, ?_, accountBalances_exact hfit hids⟩
    rw [← hledger]
    rfl

/-- A user linked to two providers. -/
def twoAccounts : State :=
  request defaultEnv (request defaultEnv oneUser (.createProvider sampleProvider))
    (.createOrLink ⟨"0012345678", ⟨1011⟩, none, none⟩)

/-- The state with another ledger. -/
def State.withLedger (c : State) (l : Ledger) : State :=
  { c with world := { c.world with worker := { c.world.worker with ledger := l } } }

/-- Both accounts of the user have been credited and debited more than 64 bits hold. -/
def largeTotals : State :=
  twoAccounts.withLedger ⟨twoAccounts.world.worker.ledger.accounts.map (fun a =>
    if a.id = 1006 then { a with debitsPosted := 2 ^ 64, creditsPosted := 2 ^ 64 + 45 }
    else if a.id = 1015 then { a with debitsPosted := 2 ^ 65, creditsPosted := 2 ^ 65 + 30 }
    else a), []⟩

/-- A credit of 25 to the first of them. -/
def largeCredit : State :=
  request defaultEnv largeTotals (.creditUser ⟨1002⟩ ⟨1008⟩ ⟨⟨7⟩, 25, none⟩)

/-- The same accounts with the ledger of after the credit. -/
def largeBalances : State := twoAccounts.withLedger largeCredit.world.worker.ledger

/-- A priority that asks for more than the first account has, and for all of the second. -/
def bothResolved : List ResolvedItem :=
  [⟨⟨⟨1002⟩, 80, .multiUse⟩, ⟨1006⟩, ⟨1003⟩⟩, ⟨⟨⟨1011⟩, 30, .multiUse⟩, ⟨1015⟩, ⟨1012⟩⟩]

theorem balances_agree_largeTotals :
    (∃ ua ∈ accountsOf twoAccounts.world.pg ⟨1008⟩, ua.providerId = ⟨1002⟩ ∧
      70 = netPosted largeBalances.world.worker.ledger ua.ledgerAccountId) ∧
    ExactBalances twoAccounts.world.pg largeBalances.world.worker.ledger ⟨1008⟩
      ⟨100, [⟨⟨1002⟩, "Franziskaner", 70⟩, ⟨⟨1011⟩, "Franziskaner", 30⟩]⟩ ∧
    bothResolved.map (fundsError (largeBalances.world.worker.ledger.lookupAccounts
        (bothResolved.map (·.userLedgerId.asU128)))) =
      bothResolved.map (fun r =>
        if netPosted largeBalances.world.worker.ledger r.userLedgerId < r.item.maxAmount then
          some (insufficientText r (netPosted largeBalances.world.worker.ledger r.userLedgerId))
        else none) ∧
    ∃ balances, (largeBalances.world.worker.turn defaultEnv.tb 1
        (.command ⟨.getAccountBalances [1015, 1006], 0⟩ .ok)).replies =
          largeBalances.world.worker.replies ++ [(0, .balances (.ok balances))] ∧
      balances.map (fun b => (b.accountId, b.postedBalance)) = [(1015, 30), (1006, 70)] := by
  have hscene : Calm twoAccounts.world ∧ twoAccounts.tasks.length = 4 ∧
      largeCredit.tasks[4]?.bind Task.answer? =
        some (.ok (.ok, .transaction ⟨⟨1019⟩, "SUCCESS", some 70⟩)) ∧
      (request defaultEnv largeBalances (.getUserBalance ⟨1008⟩)).tasks[4]?.bind Task.answer? =
        some (.ok (.ok, .userBalance
          ⟨100, [⟨⟨1002⟩, "Franziskaner", 70⟩, ⟨⟨1011⟩, "Franziskaner", 30⟩]⟩)) ∧
      BalancesFit twoAccounts.world.pg largeBalances.world.worker.ledger ⟨1008⟩ ∧
      (accountsOf twoAccounts.world.pg ⟨1008⟩).map (·.ledgerAccountId) = [⟨1006⟩, ⟨1015⟩] ∧
      (∀ ua ∈ accountsOf twoAccounts.world.pg ⟨1008⟩,
        (largeBalances.world.worker.ledger.account? ua.ledgerAccountId.asU128).isSome) ∧
      (largeBalances.world.worker.ledger.lookupAccounts [1015, 1006]).map (fun a =>
        (a.id, (a.creditsPosted : Int) - a.debitsPosted)) = [(1015, 30), (1006, 70)] := by
    decide +kernel
  obtain ⟨hcalm, hlength, hcredit, hread, hfit, hids, hopen, hfigures⟩ := hscene
  have hreachable : Reachable defaultEnv twoAccounts :=
    request_reachable (request_reachable oneUser_reachable _) _
  have hrest := hreachable.inv.atRest hcalm
  obtain ⟨htransfers, haccounts, hlookups, hlookupsTx⟩ := hrest.unladen
  have hother : ∀ l, AtRest twoAccounts.world.pg l twoAccounts.world.issued
      (twoAccounts.withLedger l).world := fun l =>
    ⟨hrest.alive, hrest.queue, ⟨htransfers, haccounts, hlookups, hlookupsTx⟩, hrest.answered, rfl,
      rfl, rfl⟩
  obtain ⟨htransfer, hbalance, hfunds, hposted⟩ := balances_agree hreachable hfit
  have hlisted : ∀ id ∈ [1015, 1006], ∃ ua ∈ accountsOf twoAccounts.world.pg ⟨1008⟩,
      id = ua.ledgerAccountId.asU128 := by
    intro id hid
    have hmem : id ∈ ((accountsOf twoAccounts.world.pg ⟨1008⟩).map
        (·.ledgerAccountId)).map Uuid.asU128 := by
      rw [hids]
      simp only [List.mem_cons, List.not_mem_nil, or_false] at hid
      rcases hid with rfl | rfl
      · exact List.mem_cons_of_mem _ (List.mem_cons_self ..)
      · exact List.mem_cons_self ..
    rw [List.map_map] at hmem
    obtain ⟨ua, hua, heq⟩ := List.mem_map.mp hmem
    exact ⟨ua, hua, heq.symm⟩
  refine ⟨?_, ?_, ?_, ?_⟩
  · have hanswer : largeCredit.tasks[largeTotals.tasks.length]?.bind Task.answer? =
        some (.ok (.ok, .transaction ⟨⟨1019⟩, "SUCCESS", some 70⟩)) := by
      rw [show largeTotals.tasks.length = 4 from hlength]
      exact hcredit
    exact (htransfer largeTotals largeCredit _ _ .credit ⟨1002⟩ ⟨⟨7⟩, 25, none⟩ _ _ (hother _)
      (request_reach defaultEnv largeTotals _) hanswer rfl).2 70 rfl
  · have hanswer : (request defaultEnv largeBalances (.getUserBalance ⟨1008⟩)).tasks[
          largeBalances.tasks.length]?.bind Task.answer? = some (.ok (.ok, .userBalance
            ⟨100, [⟨⟨1002⟩, "Franziskaner", 70⟩, ⟨⟨1011⟩, "Franziskaner", 30⟩]⟩)) := by
      rw [show largeBalances.tasks.length = 4 from hlength]
      exact hread
    obtain ⟨r, hr, hexact⟩ := hbalance largeBalances _ _ _ (hother _)
      (request_reach defaultEnv largeBalances _) hanswer
    obtain rfl := Body.userBalance.inj (Prod.mk.inj (Except.ok.inj hr)).2
    exact hexact
  · refine List.map_congr_left (fun r hr => ?_)
    have hmem : r.userLedgerId ∈ (accountsOf twoAccounts.world.pg ⟨1008⟩).map
        (·.ledgerAccountId) := by
      rw [hids]
      simp only [bothResolved, List.mem_cons, List.not_mem_nil, or_false] at hr
      rcases hr with rfl | rfl <;> simp
    obtain ⟨ua, hua, hid⟩ := List.mem_map.mp hmem
    obtain ⟨a, hacc⟩ := Option.isSome_iff_exists.mp (hopen ua hua)
    rw [hfunds bothResolved r hr ua hua a hid.symm hacc, hid]
  · obtain ⟨balances, hreplies, hexact⟩ := hposted largeBalances.world.worker 1 [1015, 1006] 0 rfl
      hlisted
    exact ⟨balances, hreplies, hexact.trans hfigures⟩

end Wurzburg.System
