import Mathlib.Data.UInt
import Wurzburg.System.Priorities
import Wurzburg.System.Provisioning
import Wurzburg.System.ReportedBalances

/-!
# Wurzburg.System.FigureBounds

When the figures the handlers report are exact. The ledger's totals only grow,
while `current_balance`, `provider::get` and `get_user_balance` cast each of them
to `i64`. What keeps all casts and sums exact is that no provider has ever
credited `2^63` or more in total and that no user holds `2^63` or more
(`Bounded`); and this stays so in every run in which each credit that the ledger
takes has room (`bounded_run`). Debits need no room.
-/

namespace Wurzburg.System

open Wurzburg.Lib Wurzburg.Db Wurzburg.Tb Wurzburg.Api

/-! ### Exact figures -/

/-- No cast, subtraction or addition of the handlers overflows, and the figures they report are
those of the ledger. -/
structure FiguresExact (w : World) : Prop where
  /-- The casts of `current_balance` and of the balances of `get_user_balance`. -/
  userAccount : ∀ ua ∈ w.pg.userAccounts, ∀ a ∈ w.worker.ledger.account? ua.ledgerAccountId.asU128,
    asI64 a.creditsPosted = a.creditsPosted ∧ asI64 a.debitsPosted = a.debitsPosted ∧
      subI64 (asI64 a.creditsPosted) (asI64 a.debitsPosted) =
        (a.creditsPosted : Int) - a.debitsPosted
  /-- The casts of `provider::get`. -/
  providerAccount : ∀ p ∈ w.pg.providers,
    ∀ a ∈ w.worker.ledger.account? p.ledgerAccountId.asU128,
      asI64 a.creditsPosted = a.creditsPosted ∧ asI64 a.debitsPosted = a.debitsPosted
  /-- The additions of `get_user_balance`. -/
  additions : ∀ u items,
    items <+: (balanceResponse w.worker.ledger (w.pg.userAccountsProviderInfo u)).providerBalances →
      items.foldl (fun total item => addI64 total item.balance) 0 = (items.map (·.balance)).sum
  current : ∀ ua ∈ w.pg.userAccounts,
    currentBalance (serveLookupAccounts w.worker.ledger [ua.ledgerAccountId.asU128]).1 =
      netPosted w.worker.ledger ua.ledgerAccountId
  provider : ∀ p ∈ w.pg.providers,
    ∀ a ∈ w.worker.ledger.account? p.ledgerAccountId.asU128,
      providerFigures (serveLookupAccounts w.worker.ledger [p.ledgerAccountId.asU128]).1 =
        ((a.creditsPosted : Int), (a.debitsPosted : Int))
  balances : ∀ u, ExactBalances w.pg w.worker.ledger u
    (balanceResponse w.worker.ledger (w.pg.userAccountsProviderInfo u))

/-- What a user holds at all providers together, by the transfers. -/
def heldBy (pg : Pg) (es : List (DoubleEntry.Entry Nat)) (u : Uuid) : Int :=
  ((accountsOf pg u).map (fun ua => DoubleEntry.net es ua.ledgerAccountId.asU128)).sum

/-- No provider has credited `2^63` or more, and no user holds so much. -/
structure Bounded (pg : Pg) (es : List (DoubleEntry.Entry Nat)) : Prop where
  credited : ∀ p ∈ pg.providers, DoubleEntry.debits es p.ledgerAccountId.asU128 < 2 ^ 63
  held : ∀ u, heldBy pg es u < 2 ^ 63

/-- A transfer has room: if it is a credit, neither the credits of the provider nor what the
user holds come to `2^63` by it. -/
structure Room (pg : Pg) (es : List (DoubleEntry.Entry Nat)) (e : DoubleEntry.Entry Nat) :
    Prop where
  provider : ∀ p ∈ pg.providers, e.debit = p.ledgerAccountId.asU128 →
    DoubleEntry.debits es e.debit + e.amount < 2 ^ 63
  user : ∀ ua ∈ pg.userAccounts, e.credit = ua.ledgerAccountId.asU128 →
    heldBy pg es ua.userId + e.amount < 2 ^ 63

/-- Every transfer that the act posts has room when it is posted. -/
def LeavesRoom (env : Env) (c : State) (l : Act) : Prop :=
  ∀ c', (machine env).step c l = some c' → ∀ before t after,
    c'.world.worker.ledger.transfers = before ++ t :: after →
    c.world.worker.ledger.transfers <+: before →
    Room c.world.pg (before.map Transfer.entry) t.entry

/-! ### The bounds along a run -/

section

variable {env : Env} {pg : Pg} {es : List (DoubleEntry.Entry Nat)} {w w' : World}

theorem Bounded.post (hledgers : (pg.userAccounts.map (·.ledgerAccountId)).Nodup)
    (h : Bounded pg es) {e : DoubleEntry.Entry Nat} (hroom : Room pg es e) :
    Bounded pg (es ++ [e]) := by
  refine ⟨fun p hp => ?_, fun u => ?_⟩
  · rw [DoubleEntry.debits_append, DoubleEntry.debits_singleton]
    have hcredited := h.credited p hp
    by_cases hdebit : p.ledgerAccountId.asU128 = e.debit
    · have hfits := hroom.provider p hp hdebit.symm
      rw [if_pos hdebit]
      rwa [hdebit]
    · rw [if_neg hdebit]
      omega
  · have hnodup : ((accountsOf pg u).map (fun ua => ua.ledgerAccountId.asU128)).Nodup := by
      have hids : ((accountsOf pg u).map (·.ledgerAccountId)).Nodup :=
        hledgers.sublist (List.filter_sublist.map _)
      have := hids.map (f := Uuid.asU128) (fun _ _ heq => Uuid.asU128_inj.mp heq)
      rwa [List.map_map] at this
    have hle := DoubleEntry.net_sum_concat_le hnodup es e
    rw [List.map_map, List.map_map] at hle
    have hheld := h.held u
    by_cases hcredit : e.credit ∈ (accountsOf pg u).map (fun ua => ua.ledgerAccountId.asU128)
    · obtain ⟨ua, hua, hid⟩ := List.mem_map.mp hcredit
      obtain ⟨hmem, hu⟩ := List.mem_filter.mp hua
      have hfits := hroom.user ua hmem hid.symm
      rw [of_decide_eq_true hu] at hfits
      rw [if_pos hcredit] at hle
      exact lt_of_le_of_lt hle hfits
    · rw [if_neg hcredit, add_zero] at hle
      exact lt_of_le_of_lt hle hheld

/-- Posting one after the other. -/
theorem Bounded.postAll (hledgers : (pg.userAccounts.map (·.ledgerAccountId)).Nodup)
    {old new : List Transfer} (h : Bounded pg (old.map Transfer.entry))
    (hroom : ∀ before t after, old ++ new = before ++ t :: after → old <+: before →
      Room pg (before.map Transfer.entry) t.entry) :
    Bounded pg ((old ++ new).map Transfer.entry) := by
  induction new generalizing old with
  | nil => rwa [List.append_nil]
  | cons t new ih =>
      have hfirst := hroom old t new rfl (List.prefix_refl _)
      rw [List.append_cons]
      refine ih ?_ (fun before t' after hsplit hprefix => ?_)
      · rw [List.map_append]
        exact h.post hledgers hfirst
      · rw [← List.append_cons] at hsplit
        exact hroom before t' after hsplit ((List.prefix_append _ _).trans hprefix)

/-- Accounts that are not in the tables yet are in no transfer. -/
theorem Inv.unlisted_untouched (h : Inv env w) (id : Nat)
    (hprovider : ∀ p ∈ w.pg.providers, p.ledgerAccountId.asU128 ≠ id)
    (huser : ∀ ua ∈ w.pg.userAccounts, ua.ledgerAccountId.asU128 ≠ id) :
    ∀ e ∈ w.worker.ledger.entries, e.debit ≠ id ∧ e.credit ≠ id := by
  intro e he
  obtain ⟨t, ht, rfl⟩ := List.mem_map.mp he
  obtain ⟨app, happ, rfl⟩ := h.worker.ledger.transfers t ht
  obtain ⟨p, hp, ua, hua, -, hends⟩ := happ.ends
  simp only [Transfer.entry, toTbTransfer]
  rcases hends with ⟨hd, hc⟩ | ⟨hd, hc⟩
  · rw [hd, hc]
    exact ⟨hprovider p hp, huser ua hua⟩
  · rw [hd, hc]
    exact ⟨huser ua hua, hprovider p hp⟩

/-- New rows of the tables come with accounts that nothing was posted to. -/
theorem Bounded.tables (h : Inv env w) (h' : Inv env w') (hg : Pg.Grows w.pg w'.pg)
    (hb : Bounded w.pg w.worker.ledger.entries) : Bounded w'.pg w.worker.ledger.entries := by
  obtain ⟨newProviders, hproviders⟩ := hg.providers
  obtain ⟨newAccounts, haccounts⟩ := hg.userAccounts
  constructor
  · intro p hp
    by_cases hold : p ∈ w.pg.providers
    · exact hb.credited p hold
    · have hun := h.unlisted_untouched p.ledgerAccountId.asU128
        (fun q hq heq => hold ?_)
        (fun ua hua => h'.asU128_ne (h'.userLedgers ua (hg.userAccounts.subset hua))
          (h'.providerLedgers p hp) (by simp))
      · rw [DoubleEntry.debits_eq_zero fun e he => (hun e he).1]
        decide
      · rw [← List.inj_on_of_nodup_map h'.tables.providerLedgers (hg.providers.subset hq) hp
          (Uuid.asU128_inj.mp heq)]
        exact hq
  · intro u
    have hnew : ∀ ua ∈ newAccounts, DoubleEntry.net w.worker.ledger.entries
        ua.ledgerAccountId.asU128 = 0 := by
      intro ua hua
      have hmem : ua ∈ w'.pg.userAccounts := haccounts ▸ List.mem_append_right _ hua
      refine DoubleEntry.net_eq_zero (h.unlisted_untouched _
        (fun p hp => h'.asU128_ne (h'.providerLedgers p (hg.providers.subset hp))
          (h'.userLedgers ua hmem) (by simp)) (fun old hold heq => ?_))
      have hnodup := h'.tables.accountLedgers
      rw [← haccounts, List.map_append, List.nodup_append] at hnodup
      exact hnodup.2.2 _ (List.mem_map_of_mem hold) _ (List.mem_map_of_mem hua)
        (Uuid.asU128_inj.mp heq)
    have hzero : ((newAccounts.filter (fun ua => ua.userId = u)).map (fun ua =>
        DoubleEntry.net w.worker.ledger.entries ua.ledgerAccountId.asU128)).sum = 0 := by
      refine List.sum_eq_zero (List.forall_mem_map.mpr (fun ua hua => ?_))
      exact hnew ua (List.mem_filter.mp hua).1
    have hheld := hb.held u
    unfold heldBy accountsOf at hheld ⊢
    rw [← haccounts, List.filter_append, List.map_append, List.sum_append, hzero, add_zero]
    exact hheld

/-- An act changes the tables or the transfers, not both. -/
theorem step_pg_or_transfers {c c' : State} {l : Act} (hs : (machine env).step c l = some c') :
    c'.world.pg = c.world.pg ∨ c'.world.worker.ledger = c.world.worker.ledger := by
  rcases (machine env).step_cases hs with ⟨q, rfl, rfl⟩ |
    ⟨i, ch, q, hist, e, k, r, w, rfl, ht, hx, rfl⟩ | ⟨i, q, hist, e, k, rfl, ht, rfl⟩ |
    ⟨v, w, rfl, hx, rfl⟩
  · exact Or.inl rfl
  · exact Or.inr (congrArg Worker.ledger (exec_frame hx).1)
  · exact Or.inl rfl
  · exact Or.inl (move_pg hx)

/-- One act in which every credit has room. -/
theorem Bounded.step {c c' : State} {l : Act} (hc : Reachable env c)
    (hb : Bounded c.world.pg c.world.worker.ledger.entries) (hroom : LeavesRoom env c l)
    (hs : (machine env).step c l = some c') :
    Bounded c'.world.pg c'.world.worker.ledger.entries := by
  obtain ⟨hc', hg⟩ := hc.step hs
  have htables := Bounded.tables hc.inv hc'.inv hg.pg hb
  rcases step_pg_or_transfers hs with hpg | hledger
  · obtain ⟨new, hnew⟩ := hg.transfers
    rw [hpg]
    unfold Ledger.entries
    rw [← hnew]
    refine Bounded.postAll hc.inv.tables.accountLedgers hb (fun before t after hsplit hprefix => ?_)
    exact hroom c' hs before t after (hnew.symm.trans hsplit) hprefix
  · rw [hledger]
    exact htables

/-- **Along a run** in which every credit has room when it is posted. -/
theorem bounded_run {c : State} {now : Timestamp}
    (hrun : (machine env).Reach (fun c l => LeavesRoom env c l) (boot env now) c) :
    Bounded c.world.pg c.world.worker.ledger.entries := by
  refine (hrun.invariant (P := fun c => Reachable env c ∧
    Bounded c.world.pg c.world.worker.ledger.entries) ⟨boot_reachable env now, ?_⟩ ?_).2
  · constructor <;> simp [boot, World.boot, Pg.empty, heldBy, accountsOf]
  · rintro c l c' ⟨hc, hb⟩ hroom hs
    exact ⟨(hc.step hs).1, hb.step hc hroom hs⟩

end

/-! ### Exact exactly within the bounds -/

section

variable {env : Env} {w : World}

/-- What a user's account was credited with is among the debits of the provider. -/
theorem Inv.userCredits_le (h : Inv env w) {ua : UserAccount} (hua : ua ∈ w.pg.userAccounts) :
    ∃ p ∈ w.pg.providers,
      DoubleEntry.credits w.worker.ledger.entries ua.ledgerAccountId.asU128 ≤
        DoubleEntry.debits w.worker.ledger.entries p.ledgerAccountId.asU128 := by
  obtain ⟨p, hp, hid⟩ := h.tables.accountProvider ua hua
  refine ⟨p, hp, DoubleEntry.credits_le_debits (fun e he hcredit => ?_)⟩
  obtain ⟨t, ht, rfl⟩ := List.mem_map.mp he
  obtain ⟨app, happ, rfl⟩ := h.worker.ledger.transfers t ht
  obtain ⟨p', hp', ua', hua', hlink, hends⟩ := happ.ends
  simp only [Transfer.entry, toTbTransfer] at hcredit ⊢
  rcases hends with ⟨hd, hc⟩ | ⟨hd, hc⟩
  · obtain rfl : ua' = ua := List.inj_on_of_nodup_map h.tables.accountLedgers hua' hua
      (Uuid.asU128_inj.mp (hc.symm.trans hcredit))
    rw [hd, List.inj_on_of_nodup_map h.tables.providerIds hp' hp (hlink.symm.trans hid.symm)]
  · exact absurd (hcredit.symm.trans hc)
      (h.asU128_ne (h.userLedgers ua hua) (h.providerLedgers p' hp') (by simp))

/-- The posted figures of an account are those of the journal. -/
theorem Inv.posted_eq (h : Inv env w) {id : Nat} {a : Account}
    (hacc : w.worker.ledger.account? id = some a) :
    a.debitsPosted = DoubleEntry.debits w.worker.ledger.entries id ∧
      a.creditsPosted = DoubleEntry.credits w.worker.ledger.entries id := by
  have hposted := h.worker.ledger.posted a (Ledger.account?_mem hacc)
  rwa [Ledger.account?_id hacc] at hposted

theorem Inv.heldBy_eq (h : Inv env w) (u : Uuid) :
    heldBy w.pg w.worker.ledger.entries u = exactTotal w.pg w.worker.ledger u :=
  congrArg List.sum (List.map_congr_left (fun ua _ => netPosted_eq h ua.ledgerAccountId))

/-- A cast to `i64` is exact below `2^63`, and there only. -/
theorem asI64_eq_self_iff {n : Nat} : asI64 n = n ↔ n < 2 ^ 63 := by
  unfold asI64 wrap64
  rw [Wrapping.bmod_eq_self_iff (by decide)]
  omega

theorem providerFigures_own {l : Ledger} {id : Nat} {a : Account} (hacc : l.account? id = some a) :
    providerFigures (serveLookupAccounts l [id]).1 =
      (asI64 a.creditsPosted, asI64 a.debitsPosted) := by
  have hserve : (serveLookupAccounts l [id]).1 = [fromTbAccount a] := by
    simp [serveLookupAccounts, Ledger.lookupAccounts, hacc]
  rw [hserve, providerFigures, List.head?_cons, Option.map_some, Option.getD_some]
  rfl

end

section

variable {env : Env} {c : State}

/-- The account of a user holds no less than nothing. -/
theorem Reachable.userAccount_solvent (h : Reachable env c) {ua : UserAccount}
    (hua : ua ∈ c.world.pg.userAccounts) {a : Account}
    (hacc : c.world.worker.ledger.account? ua.ledgerAccountId.asU128 = some a) :
    a.debitsPosted ≤ a.creditsPosted :=
  ((users_solvent h ua hua).1 a (Ledger.account?_mem hacc) (Ledger.account?_id hacc)).2.1

theorem Reachable.netPosted_nonneg (h : Reachable env c) {ua : UserAccount}
    (hua : ua ∈ c.world.pg.userAccounts) :
    0 ≤ netPosted c.world.worker.ledger ua.ledgerAccountId := by
  unfold netPosted
  cases hacc : c.world.worker.ledger.account? ua.ledgerAccountId.asU128 with
  | none => exact Int.le_refl 0
  | some a =>
      have := h.userAccount_solvent hua hacc
      simp only
      omega

/-- A provider was credited no more than it was debited. -/
theorem Reachable.provider_credits_le (h : Reachable env c) {p : Provider}
    (hp : p ∈ c.world.pg.providers) {a : Account}
    (hacc : c.world.worker.ledger.account? p.ledgerAccountId.asU128 = some a) :
    a.creditsPosted ≤ a.debitsPosted := by
  have hconserved := h.inv.conserved.provider p hp
  have hnonneg : 0 ≤ linkedBalance c.world p.id := by
    rw [h.inv.linkedBalance_eq]
    refine List.sum_nonneg (List.forall_mem_map.mpr (fun ua hua => ?_))
    exact h.netPosted_nonneg (List.mem_filter.mp hua).1
  rw [netPosted, hacc] at hconserved
  simp only at hconserved
  omega

variable (hb : Bounded c.world.pg c.world.worker.ledger.entries)

include hb in
theorem Bounded.userAccount (h : Reachable env c) {ua : UserAccount}
    (hua : ua ∈ c.world.pg.userAccounts) {a : Account}
    (hacc : c.world.worker.ledger.account? ua.ledgerAccountId.asU128 = some a) :
    a.creditsPosted < 2 ^ 63 := by
  obtain ⟨p, hp, hle⟩ := h.inv.userCredits_le hua
  rw [(h.inv.posted_eq hacc).2]
  exact Nat.lt_of_le_of_lt hle (hb.credited p hp)

include hb in
theorem Bounded.balancesFit (h : Reachable env c) (u : Uuid) :
    BalancesFit c.world.pg c.world.worker.ledger u := by
  refine ⟨fun ua hua a hacc => ?_, ?_⟩
  · have hmem := (List.mem_filter.mp hua).1
    have hle := h.userAccount_solvent hmem hacc
    have hlt := hb.userAccount h hmem hacc
    omega
  · rw [← h.inv.heldBy_eq]
    exact hb.held u

include hb in
/-- Within the bounds, nothing overflows. -/
theorem Bounded.figuresExact (h : Reachable env c) : FiguresExact c.world := by
  have hexact := fun u => exactBalances h.inv.tables (hb.balancesFit h u)
  constructor
  · intro ua hua a hacc
    have hle := h.userAccount_solvent hua hacc
    have hlt := hb.userAccount h hua hacc
    refine ⟨asI64_of_lt hlt, asI64_of_lt (by omega), ?_⟩
    rw [subI64_asI64]
    exact wrap64_of_bounds (by omega) (by omega)
  · intro p hp a hacc
    have hlt := hb.credited p hp
    rw [← (h.inv.posted_eq hacc).1] at hlt
    have hle := h.provider_credits_le hp hacc
    exact ⟨asI64_of_lt (by omega), asI64_of_lt hlt⟩
  · intro u items hprefix
    refine Wrapping.foldl_exact (by decide) hprefix (fun item hitem => ?_) ?_
    · have hpair := List.mem_map_of_mem
        (f := fun item : ProviderBalanceItem => (item.providerId, item.balance)) hitem
      rw [(hexact u).entries] at hpair
      obtain ⟨ua, hua, heq⟩ := List.mem_map.mp hpair
      rw [← (Prod.mk.inj heq).2]
      exact h.netPosted_nonneg (List.mem_filter.mp hua).1
    · have hsum := congrArg (fun pairs : List (Uuid × Int) => (pairs.map Prod.snd).sum)
        (hexact u).entries
      simp only [List.map_map] at hsum
      refine lt_of_eq_of_lt hsum ?_
      exact (hb.balancesFit h u).total
  · intro ua hua
    have hmem : ua ∈ accountsOf c.world.pg ua.userId :=
      List.mem_filter.mpr ⟨hua, decide_eq_true rfl⟩
    rw [currentBalance_own, (hb.balancesFit h ua.userId).wrap64_balance hmem]
  · intro p hp a hacc
    have hlt := hb.credited p hp
    rw [← (h.inv.posted_eq hacc).1] at hlt
    have hle := h.provider_credits_le hp hacc
    rw [providerFigures_own hacc, asI64_of_lt hlt, asI64_of_lt (by omega)]
  · exact hexact

/-- Beyond them, something does. -/
theorem FiguresExact.bounded (h : Reachable env c) (hexact : FiguresExact c.world) :
    Bounded c.world.pg c.world.worker.ledger.entries := by
  constructor
  · intro p hp
    cases hacc : c.world.worker.ledger.account? p.ledgerAccountId.asU128 with
    | none =>
        have hun := h.inv.worker.ledger.untouched hacc
        rw [DoubleEntry.debits_eq_zero fun e he => (hun e he).1]
        decide
    | some a =>
        rw [← (h.inv.posted_eq hacc).1]
        exact asI64_eq_self_iff.mp (hexact.providerAccount p hp a hacc).2
  · intro u
    have htotal := (hexact.balances u).total
    rw [totalBalance_own, map_accountInfos h.inv.tables] at htotal
    have hrange := (Wrapping.bmod_eq_self_iff (by decide)).mp htotal
    rw [h.inv.heldBy_eq]
    exact hrange.2

end

/-- **The reported figures are exact** in a reachable state exactly when no provider has credited
`2^63` or more and no user holds so much; and in every state of a run in which each credit that
the ledger takes has room for it. -/
theorem figures_exact {env : Env} {c : State} (h : Reachable env c) :
    (FiguresExact c.world ↔ Bounded c.world.pg c.world.worker.ledger.entries) ∧
      ∀ now, (machine env).Reach (fun c l => LeavesRoom env c l) (boot env now) c →
        FiguresExact c.world :=
  ⟨⟨fun hexact => hexact.bounded h, fun hb => hb.figuresExact h⟩,
    fun _ hrun => (bounded_run hrun).figuresExact h⟩

/-! ### Two large credits -/

/-- The user of the example is credited `2^62` twice. -/
def twoLargeCredits : State :=
  request defaultEnv (request defaultEnv oneUser (.creditUser ⟨1002⟩ ⟨1008⟩ ⟨⟨7⟩, 2 ^ 62, none⟩))
    (.creditUser ⟨1002⟩ ⟨1008⟩ ⟨⟨8⟩, 2 ^ 62, none⟩)

/-- Both are admitted; the second is answered with a balance of `-2^63`. -/
theorem twoLargeCredits_overflow :
    ¬ ∀ (env : Env) (c : State), Reachable env c → FiguresExact c.world := by
  intro hall
  have hscene : (twoLargeCredits.tasks[2]?.bind Task.answer? = some (.ok (.ok, .transaction
        ⟨⟨1011⟩, "SUCCESS", some (2 ^ 62)⟩)) ∧
      twoLargeCredits.tasks[3]?.bind Task.answer? = some (.ok (.ok, .transaction
        ⟨⟨1012⟩, "SUCCESS", some (-2 ^ 63)⟩))) ∧
      twoLargeCredits.world.pg.userAccounts.map (fun ua => (currentBalance
        (serveLookupAccounts twoLargeCredits.world.worker.ledger [ua.ledgerAccountId.asU128]).1,
        netPosted twoLargeCredits.world.worker.ledger ua.ledgerAccountId)) =
          [(-2 ^ 63, 2 ^ 63)] := by
    decide +kernel
  obtain ⟨-, hfigures⟩ := hscene
  have hreach := request_reachable (request_reachable oneUser_reachable
    (.creditUser ⟨1002⟩ ⟨1008⟩ ⟨⟨7⟩, 2 ^ 62, none⟩)) (.creditUser ⟨1002⟩ ⟨1008⟩ ⟨⟨8⟩, 2 ^ 62, none⟩)
  have hexact := hall defaultEnv twoLargeCredits hreach
  have hsame : ∀ pair ∈ twoLargeCredits.world.pg.userAccounts.map (fun ua => (currentBalance
      (serveLookupAccounts twoLargeCredits.world.worker.ledger [ua.ledgerAccountId.asU128]).1,
      netPosted twoLargeCredits.world.worker.ledger ua.ledgerAccountId)), pair.1 = pair.2 := by
    intro pair hpair
    obtain ⟨ua, hua, rfl⟩ := List.mem_map.mp hpair
    rw [hexact.current ua hua]
  rw [hfigures] at hsame
  exact absurd (hsame _ (List.mem_singleton_self _)) (by decide)

/-! ### A run with room -/

instance (pg : Pg) (es : List (DoubleEntry.Entry Nat)) (e : DoubleEntry.Entry Nat) :
    Decidable (Room pg es e) :=
  decidable_of_iff ((∀ p ∈ pg.providers, e.debit = p.ledgerAccountId.asU128 →
      DoubleEntry.debits es e.debit + e.amount < 2 ^ 63) ∧
    ∀ ua ∈ pg.userAccounts, e.credit = ua.ledgerAccountId.asU128 →
      heldBy pg es ua.userId + e.amount < 2 ^ 63)
    ⟨fun h => ⟨h.1, h.2⟩, fun h => ⟨h.1, h.2⟩⟩

/-- Posted one after the other, the transfers have room. -/
def roomFor (pg : Pg) (es : List (DoubleEntry.Entry Nat)) : List Transfer → Bool
  | [] => true
  | t :: ts => decide (Room pg es t.entry) && roomFor pg (es ++ [t.entry]) ts

theorem room_of_roomFor {pg : Pg} {new : List Transfer} : ∀ {es : List (DoubleEntry.Entry Nat)},
    roomFor pg es new = true → ∀ mid t after, new = mid ++ t :: after →
      Room pg (es ++ mid.map Transfer.entry) t.entry := by
  induction new with
  | nil =>
      intro es _ mid t after hsplit
      simp at hsplit
  | cons t₀ new ih =>
      intro es h mid t after hsplit
      rw [roomFor, Bool.and_eq_true] at h
      cases mid with
      | nil =>
          obtain ⟨rfl, -⟩ := List.cons.inj hsplit
          rw [List.map_nil, List.append_nil]
          exact of_decide_eq_true h.1
      | cons t₁ mid =>
          obtain ⟨rfl, hrest⟩ := List.cons.inj hsplit
          rw [List.map_cons, List.append_cons]
          exact ih h.2 mid t after hrest

/-- A check of a single act. -/
def roomStep (env : Env) (c : State) (l : Act) : Bool :=
  match (machine env).step c l with
  | some c' => roomFor c.world.pg c.world.worker.ledger.entries
      (c'.world.worker.ledger.transfers.drop c.world.worker.ledger.transfers.length)
  | none => true

theorem leavesRoom_of_roomStep {env : Env} {c : State} {l : Act} (h : roomStep env c l = true) :
    LeavesRoom env c l := by
  intro c' hs before t after hsplit hprefix
  simp only [roomStep, hs] at h
  obtain ⟨mid, rfl⟩ := hprefix
  rw [List.map_append]
  refine room_of_roomFor h mid t after ?_
  rw [hsplit, List.append_assoc, List.drop_left]

/-- A request served alone, checked act by act. -/
theorem request_leavesRoom {env : Env} {c : State} {q : Request}
    (h : ((machine env).trace (requestPlan env c q) c).all (fun v => roomStep env v.1 v.2) = true) :
    (machine env).Reach (fun c l => LeavesRoom env c l) c (request env c q) :=
  Machine.reach_of_runAll (runAll_requestPlan env c q)
    (fun v hv => leavesRoom_of_roomStep (List.all_eq_true.mp h v hv))

theorem figures_exact_oneCredit :
    oneCredit.world.pg.userAccounts.map
        (fun ua => netPosted oneCredit.world.worker.ledger ua.ledgerAccountId) = [500] ∧
      Bounded oneCredit.world.pg oneCredit.world.worker.ledger.entries ∧
      FiguresExact oneCredit.world := by
  have htraces : oneCredit.world.pg.userAccounts.map
        (fun ua => netPosted oneCredit.world.worker.ledger ua.ledgerAccountId) = [500] ∧
      ((machine defaultEnv).trace (requestPlan defaultEnv (boot defaultEnv 0)
        (.createProvider sampleProvider)) (boot defaultEnv 0)).all
          (fun v => roomStep defaultEnv v.1 v.2) = true ∧
      ((machine defaultEnv).trace (requestPlan defaultEnv oneProvider
        (.createOrLink ⟨"0012345678", ⟨1002⟩, none, none⟩)) oneProvider).all
          (fun v => roomStep defaultEnv v.1 v.2) = true ∧
      ((machine defaultEnv).trace (requestPlan defaultEnv oneUser
        (.creditUser ⟨1002⟩ ⟨1008⟩ ⟨⟨7⟩, 500, none⟩)) oneUser).all
          (fun v => roomStep defaultEnv v.1 v.2) = true := by
    decide +kernel
  obtain ⟨hbalance, hprovider, huser, hcredit⟩ := htraces
  have hrun := ((request_leavesRoom hprovider).trans (request_leavesRoom huser)).trans
    (request_leavesRoom hcredit)
  obtain ⟨hiff, hruns⟩ := figures_exact oneCredit_reachable
  have hexact := hruns 0 hrun
  exact ⟨hbalance, hiff.mp hexact, hexact⟩

end Wurzburg.System
