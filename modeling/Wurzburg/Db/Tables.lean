import Wurzburg.Db.RepositorySpec
import Mathlib.Data.List.Nodup

/-!
# Wurzburg.Db.Tables

What the constraints of the migration and the repository methods keep true of
the tables: keys are unique, references are met, and a user is linked to a
provider exactly when there is an account for the pair (`Tables`).

Rows of these tables are only ever added (`Pg.Grows`).
-/

namespace Wurzburg.Db

/-- The tables of the accounts and the journal are consistent. -/
structure Tables (pg : Pg) : Prop where
  providerIds : (pg.providers.map (·.id)).Nodup
  providerLedgers : (pg.providers.map (·.ledgerAccountId)).Nodup
  userIds : (pg.users.map (·.id)).Nodup
  userNids : (pg.users.map (·.nid)).Nodup
  nidLengths : ∀ u ∈ pg.users, u.nid.length ≤ 10
  accountLedgers : (pg.userAccounts.map (·.ledgerAccountId)).Nodup
  accountPairs : (pg.userAccounts.map UserAccount.pair).Nodup
  /-- Links and accounts are about the same pairs. -/
  links : pg.userProviders.map UserProvider.pair = pg.userAccounts.map UserAccount.pair
  accountUser : ∀ ua ∈ pg.userAccounts, ∃ u ∈ pg.users, u.id = ua.userId
  accountProvider : ∀ ua ∈ pg.userAccounts, ∃ p ∈ pg.providers, p.id = ua.providerId
  keys : (pg.transactions.map (·.idempotencyKey)).Nodup

/-- Rows are only added. -/
structure Pg.Grows (pg pg' : Pg) : Prop where
  providers : pg.providers <+: pg'.providers
  users : pg.users <+: pg'.users
  userAccounts : pg.userAccounts <+: pg'.userAccounts
  transactions : pg.transactions <+: pg'.transactions

theorem Pg.Grows.refl (pg : Pg) : Pg.Grows pg pg :=
  ⟨List.prefix_refl _, List.prefix_refl _, List.prefix_refl _, List.prefix_refl _⟩

theorem Pg.Grows.trans {pg₁ pg₂ pg₃ : Pg} (h : Pg.Grows pg₁ pg₂) (h' : Pg.Grows pg₂ pg₃) :
    Pg.Grows pg₁ pg₃ :=
  ⟨h.1.trans h'.1, h.2.trans h'.2, h.3.trans h'.3, h.4.trans h'.4⟩

theorem Pg.SameCore.grows {pg pg' : Pg} (h : Pg.SameCore pg pg') : Pg.Grows pg pg' where
  providers := h.providers ▸ List.prefix_refl _
  users := h.users ▸ List.prefix_refl _
  userAccounts := h.userAccounts ▸ List.prefix_refl _
  transactions := h.transactions ▸ List.prefix_refl _

namespace Tables

variable {pg pg' : Pg}

theorem empty : Tables .empty := by
  constructor <;> simp [Pg.empty]

theorem sameCore (h : Tables pg) (hs : Pg.SameCore pg pg') : Tables pg' := by
  obtain ⟨h₁, h₂, h₃, h₄, h₅, h₆, h₇, h₈, h₉, h₁₀, h₁₁⟩ := h
  constructor <;> simp only [hs.providers, hs.users, hs.userProviders, hs.userAccounts,
    hs.transactions] <;> assumption

/-- A new key keeps a list of keys without repetition. -/
theorem nodup_map_concat {α β : Type} {f : α → β} {xs : List α} {x : α}
    (h : (xs.map f).Nodup) (hx : ∀ y ∈ xs, f y ≠ f x) : ((xs ++ [x]).map f).Nodup := by
  rw [List.map_append, List.map_singleton]
  refine List.nodup_append.mpr ⟨h, List.nodup_singleton _, ?_⟩
  intro a ha b hb
  obtain ⟨y, hy, rfl⟩ := List.mem_map.mp ha
  rw [List.mem_singleton.mp hb]
  exact hx y hy

/-- What held of some row still does after rows were added. -/
theorem exists_mem_concat {α : Type} {p : α → Prop} {xs ys : List α} (h : ∃ x ∈ xs, p x) :
    ∃ x ∈ xs ++ ys, p x := by
  obtain ⟨x, hx, hp⟩ := h
  exact ⟨x, List.mem_append_left _ hx, hp⟩

theorem addProvider (h : Tables pg) {p : Provider} {logs : List AuditLog}
    (hfree : ∀ q ∈ pg.providers, q.id ≠ p.id ∧ q.ledgerAccountId ≠ p.ledgerAccountId) :
    Tables (({ pg with providers := pg.providers ++ [p] } : Pg).log logs) where
  providerIds := nodup_map_concat h.providerIds (fun q hq => (hfree q hq).1)
  providerLedgers := nodup_map_concat h.providerLedgers (fun q hq => (hfree q hq).2)
  userIds := h.userIds
  userNids := h.userNids
  nidLengths := h.nidLengths
  accountLedgers := h.accountLedgers
  accountPairs := h.accountPairs
  links := h.links
  accountUser := h.accountUser
  accountProvider := fun ua hua => exists_mem_concat (h.accountProvider ua hua)
  keys := h.keys

theorem record (h : Tables pg) {actor : Uuid} {row : Transaction}
    (hfree : ∀ x ∈ pg.transactions, x.idempotencyKey ≠ row.idempotencyKey) :
    Tables (pg.record actor row) where
  providerIds := h.providerIds
  providerLedgers := h.providerLedgers
  userIds := h.userIds
  userNids := h.userNids
  nidLengths := h.nidLengths
  accountLedgers := h.accountLedgers
  accountPairs := h.accountPairs
  links := h.links
  accountUser := h.accountUser
  accountProvider := h.accountProvider
  keys := nodup_map_concat h.keys hfree

theorem foundUser (h : Tables pg) {nid : String} {now : Timestamp} {user : User}
    (hf : FoundUser pg pg' nid now user) : Tables pg' ∧ user ∈ pg'.users := by
  cases hf with
  | old hmem _ heq => exact heq ▸ ⟨h, hmem⟩
  | new logs hfree _ hlength _ heq =>
      subst heq
      refine ⟨⟨h.providerIds, h.providerLedgers, ?_, ?_, ?_, h.accountLedgers, h.accountPairs,
        h.links, fun ua hua => exists_mem_concat (h.accountUser ua hua), h.accountProvider,
        h.keys⟩, ?_⟩
      · exact nodup_map_concat h.userIds (fun u hu => (hfree u hu).1)
      · exact nodup_map_concat h.userNids (fun u hu => (hfree u hu).2.2)
      · exact List.forall_mem_append.mpr ⟨h.nidLengths, List.forall_mem_singleton.mpr hlength⟩
      · exact List.mem_append_right _ (List.mem_singleton_self _)

/-- After the three steps of `create_or_link_user` the tables are consistent
again: a link and its account are added together or were both there. -/
theorem linked (h : Tables pg) {nid : String} {providerId lid : Uuid} {now : Timestamp}
    {user : User} {account : UserAccount} (hl : Linked pg pg' nid providerId lid now user account) :
    Tables pg' := by
  obtain ⟨pg₁, pg₂, huser, hlink, haccount⟩ := hl.steps
  obtain ⟨h₁, hmem⟩ := h.foundUser huser
  cases hlink with
  | old links logs hpair hlinks heq =>
      subst heq
      cases haccount with
      | old _ _ heq =>
          subst heq
          exact ⟨h₁.providerIds, h₁.providerLedgers, h₁.userIds, h₁.userNids, h₁.nidLengths,
            h₁.accountLedgers, h₁.accountPairs, hlinks.trans h₁.links, h₁.accountUser,
            h₁.accountProvider, h₁.keys⟩
      | new logs' hfree _ _ hpair' _ _ heq =>
          -- the link was there, so the account was
          rw [h₁.links] at hpair
          obtain ⟨b, hb, hb'⟩ := List.mem_map.mp hpair
          exact absurd hb' (hfree b hb).2
  | new row logs hpair hrow _ _ heq =>
      subst heq
      rw [h₁.links] at hpair
      cases haccount with
      | old hold hpair' _ =>
          exact absurd (List.mem_map.mpr ⟨account, hold, hpair'⟩) hpair
      | new logs' hfree huserRow hproviderRow hpair' hlid _ heq =>
          subst heq
          have hmemPair : ∀ ua ∈ pg₁.userAccounts ++ [account],
              ua ∈ pg₁.userAccounts ∨ ua = account := by
            intro ua hua
            simpa using hua
          refine ⟨h₁.providerIds, h₁.providerLedgers, h₁.userIds, h₁.userNids, h₁.nidLengths,
            ?_, ?_, ?_, ?_, ?_, h₁.keys⟩
          · exact nodup_map_concat h₁.accountLedgers (fun b hb => hlid ▸ (hfree b hb).1)
          · exact nodup_map_concat h₁.accountPairs (fun b hb => hpair' ▸ (hfree b hb).2)
          · simp [h₁.links, hrow, hpair']
          · intro ua hua
            rcases hmemPair ua hua with hua | rfl
            · exact h₁.accountUser ua hua
            · rw [(Prod.mk.inj hpair').1]
              exact huserRow
          · intro ua hua
            rcases hmemPair ua hua with hua | rfl
            · exact h₁.accountProvider ua hua
            · rw [(Prod.mk.inj hpair').2]
              exact hproviderRow

/-- The account of a pair is found under the pair. -/
theorem userAccount?_of_mem (h : Tables pg) {ua : UserAccount} (hua : ua ∈ pg.userAccounts) :
    pg.userAccount? ua.userId ua.providerId = some ua := by
  cases hfind : pg.userAccount? ua.userId ua.providerId with
  | none =>
      have := List.find?_eq_none.mp hfind ua hua
      simp at this
  | some ua' =>
      have hpair : ua'.userId = ua.userId ∧ ua'.providerId = ua.providerId := by
        simpa using List.find?_some hfind
      rw [List.inj_on_of_nodup_map h.accountPairs (List.mem_of_find?_eq_some hfind) hua
        (Prod.ext hpair.1 hpair.2)]

/-! ### What the joins list -/

theorem account_of_pair {u p : Uuid} (h : (u, p) ∈ pg.userAccounts.map UserAccount.pair) :
    ∃ ua ∈ pg.userAccounts, ua.userId = u ∧ ua.providerId = p := by
  obtain ⟨ua, hua, hpair⟩ := List.mem_map.mp h
  exact ⟨ua, hua, (Prod.mk.inj hpair).1, (Prod.mk.inj hpair).2⟩

/-- `get_user_provider_details` finds the pairs that have an account. -/
theorem details_isSome (h : Tables pg) {u p : Uuid} :
    (pg.userProviderDetails u p).head?.isSome = true ↔
      (u, p) ∈ pg.userAccounts.map UserAccount.pair := by
  constructor
  · intro hsome
    obtain ⟨d, hd⟩ := Option.isSome_iff_exists.mp hsome
    obtain ⟨-, -, ua, hua, hpair, -⟩ := Pg.mem_userProviderDetails (List.mem_of_head? hd)
    rw [← hpair]
    exact List.mem_map_of_mem hua
  · intro hpair
    obtain ⟨ua, hua, rfl, rfl⟩ := account_of_pair hpair
    obtain ⟨user, huser, hid⟩ := h.accountUser ua hua
    obtain ⟨pr, hpr, hpid⟩ := h.accountProvider ua hua
    have hlink : ua.pair ∈ pg.userProviders.map UserProvider.pair := by
      rw [h.links]
      exact List.mem_map_of_mem hua
    obtain ⟨up, hup, hupair⟩ := List.mem_map.mp hlink
    obtain ⟨hupu, hupp⟩ := Prod.mk.inj hupair
    rw [Option.isSome_iff_exists, ← Option.ne_none_iff_exists', Ne, List.head?_eq_none_iff]
    refine List.ne_nil_of_mem (a := ⟨user.id, user.nid, user.internalMetadata, up.externalMetadata,
      ua.ledgerAccountId, pr.ledgerAccountId, ua.status, user.createdAt, user.updatedAt⟩) ?_
    simp only [Pg.userProviderDetails, List.mem_flatMap, List.mem_map, List.mem_filter,
      decide_eq_true_eq]
    exact ⟨user, ⟨huser, hid⟩, up, ⟨hup, hid.trans hupu.symm, hupp⟩, ua, ⟨hua, hid, rfl⟩, pr,
      ⟨hpr, hpid.trans hupp.symm⟩, rfl⟩

/-- `get_user_providers` lists the providers the user is linked to. -/
theorem mem_userProvidersOf (h : Tables pg) {u p : Uuid} :
    p ∈ (pg.userProvidersOf u).map (·.id) ↔ (u, p) ∈ pg.userAccounts.map UserAccount.pair := by
  have hlisted : p ∈ (pg.userProvidersOf u).map (·.id) ↔
      ∃ pr ∈ pg.providers, ∃ up ∈ pg.userProviders,
        (pr.id = up.providerId ∧ up.userId = u) ∧ pr.id = p := by
    simp only [Pg.userProvidersOf, List.mem_map, List.mem_flatMap, List.mem_filter,
      decide_eq_true_eq]
    constructor
    · rintro ⟨pr, ⟨pr', hpr', up, ⟨hup, hmatch⟩, rfl⟩, hid⟩
      exact ⟨pr', hpr', up, hup, hmatch, hid⟩
    · rintro ⟨pr, hpr, up, hup, hmatch, hid⟩
      exact ⟨pr, ⟨pr, hpr, up, ⟨hup, hmatch⟩, rfl⟩, hid⟩
  rw [hlisted]
  constructor
  · rintro ⟨pr, -, up, hup, ⟨hpid, hu⟩, hid⟩
    rw [← h.links]
    exact List.mem_map.mpr ⟨up, hup, Prod.ext hu (hpid.symm.trans hid)⟩
  · intro hpair
    obtain ⟨ua, hua, -, hup⟩ := account_of_pair hpair
    obtain ⟨pr, hpr, hpid⟩ := h.accountProvider ua hua
    rw [← h.links] at hpair
    obtain ⟨up, hmem, hupair⟩ := List.mem_map.mp hpair
    obtain ⟨hu, hp⟩ := Prod.mk.inj hupair
    exact ⟨pr, hpr, up, hmem, ⟨hpid.trans (hup.trans hp.symm), hu⟩, hpid.trans hup⟩

/-- `get_user_accounts_provider_info` lists the providers the user has an account at. -/
theorem mem_userAccountsProviderInfo (h : Tables pg) {u p : Uuid} :
    p ∈ (pg.userAccountsProviderInfo u).map (·.providerId) ↔
      (u, p) ∈ pg.userAccounts.map UserAccount.pair := by
  have hlisted : p ∈ (pg.userAccountsProviderInfo u).map (·.providerId) ↔
      ∃ ua ∈ pg.userAccounts, ua.userId = u ∧ ∃ pr ∈ pg.providers,
        ua.providerId = pr.id ∧ pr.id = p := by
    simp only [Pg.userAccountsProviderInfo, List.mem_map, List.mem_flatMap, List.mem_filter,
      decide_eq_true_eq]
    constructor
    · rintro ⟨info, ⟨ua, ⟨hua, hu⟩, pr, ⟨hpr, hmatch⟩, rfl⟩, hid⟩
      exact ⟨ua, hua, hu, pr, hpr, hmatch, hid⟩
    · rintro ⟨ua, hua, hu, pr, hpr, hmatch, hid⟩
      exact ⟨_, ⟨ua, ⟨hua, hu⟩, pr, ⟨hpr, hmatch⟩, rfl⟩, hid⟩
  rw [hlisted]
  constructor
  · rintro ⟨ua, hua, hu, pr, -, hmatch, hid⟩
    exact List.mem_map.mpr ⟨ua, hua, Prod.ext hu (hmatch.trans hid)⟩
  · intro hpair
    obtain ⟨ua, hua, hu, hp⟩ := account_of_pair hpair
    obtain ⟨pr, hpr, hpid⟩ := h.accountProvider ua hua
    exact ⟨ua, hua, hu, pr, hpr, hpid.symm, hpid.trans hp⟩

end Tables

/-- The user that was found or created has the NID, as it was given or without the blanks that
the column cuts, and the account is of that user at the provider. -/
theorem Linked.names {pg pg' : Pg} {nid : String} {providerId lid : Uuid} {now : Timestamp}
    {user : User} {account : UserAccount} (hl : Linked pg pg' nid providerId lid now user account) :
    user ∈ pg'.users ∧ (user.nid = nid ∨ user.nid = varchar 10 nid) ∧
      account.pair = (user.id, providerId) := by
  obtain ⟨pg₁, pg₂, huser, hlink, haccount⟩ := hl.steps
  have h₁ : user ∈ pg₁.users ∧ (user.nid = nid ∨ user.nid = varchar 10 nid) := by
    cases huser with
    | old hmem hnid heq => exact ⟨heq ▸ hmem, Or.inl hnid⟩
    | new logs _ hnid _ _ heq =>
        exact ⟨heq ▸ List.mem_append_right _ (List.mem_singleton_self user), Or.inr hnid⟩
  have h₂ : pg₂.users = pg₁.users := by
    cases hlink with
    | old links logs _ _ heq => rw [heq]; rfl
    | new row logs _ _ _ _ heq => rw [heq]; rfl
  cases haccount with
  | old _ hpair heq => exact ⟨heq ▸ h₂ ▸ h₁.1, h₁.2, hpair⟩
  | new logs _ _ _ hpair _ _ heq =>
      refine ⟨?_, h₁.2, hpair⟩
      rw [heq]
      exact h₂ ▸ h₁.1

/-- `create_or_link_user` only adds rows, and at most one account: the one with
the given ledger id. -/
theorem Linked.grows {pg pg' : Pg} {nid : String} {providerId lid : Uuid} {now : Timestamp}
    {user : User} {account : UserAccount} (hl : Linked pg pg' nid providerId lid now user account) :
    Pg.Grows pg pg' ∧ pg'.providers = pg.providers ∧ pg'.transactions = pg.transactions ∧
      account ∈ pg'.userAccounts ∧
      ∀ ua ∈ pg'.userAccounts, ua ∈ pg.userAccounts ∨ ua.ledgerAccountId = lid := by
  obtain ⟨pg₁, pg₂, huser, hlink, haccount⟩ := hl.steps
  have h₁ : Pg.Grows pg pg₁ ∧ pg₁.providers = pg.providers ∧ pg₁.transactions = pg.transactions ∧
      pg₁.userAccounts = pg.userAccounts := by
    cases huser with
    | old _ _ heq => exact heq ▸ ⟨.refl _, rfl, rfl, rfl⟩
    | new logs _ _ _ _ heq =>
        subst heq
        exact ⟨⟨List.prefix_refl _, List.prefix_append _ _, List.prefix_refl _, List.prefix_refl _⟩,
          rfl, rfl, rfl⟩
  have h₂ : Pg.Grows pg₁ pg₂ ∧ pg₂.providers = pg₁.providers ∧
      pg₂.transactions = pg₁.transactions ∧ pg₂.userAccounts = pg₁.userAccounts := by
    cases hlink with
    | old links logs _ _ heq =>
        subst heq
        exact ⟨⟨List.prefix_refl _, List.prefix_refl _, List.prefix_refl _, List.prefix_refl _⟩,
          rfl, rfl, rfl⟩
    | new row logs _ _ _ _ heq =>
        subst heq
        exact ⟨⟨List.prefix_refl _, List.prefix_refl _, List.prefix_refl _, List.prefix_refl _⟩,
          rfl, rfl, rfl⟩
  obtain ⟨hg₁, hp₁, ht₁, ha₁⟩ := h₁
  obtain ⟨hg₂, hp₂, ht₂, ha₂⟩ := h₂
  have ha := ha₂.trans ha₁
  cases haccount with
  | old hmem _ heq =>
      subst heq
      exact ⟨hg₁.trans hg₂, hp₂.trans hp₁, ht₂.trans ht₁, hmem, fun ua hua => Or.inl (ha ▸ hua)⟩
  | new logs _ _ _ _ hlid _ heq =>
      subst heq
      refine ⟨(hg₁.trans hg₂).trans ⟨List.prefix_refl _, List.prefix_refl _, List.prefix_append _ _,
        List.prefix_refl _⟩, hp₂.trans hp₁, ht₂.trans ht₁, List.mem_append_right _
        (List.mem_singleton_self _), ?_⟩
      intro ua hua
      rcases List.mem_append.mp hua with hua | hua
      · exact Or.inl (ha ▸ hua)
      · rw [List.mem_singleton.mp hua]
        exact Or.inr hlid

end Wurzburg.Db
