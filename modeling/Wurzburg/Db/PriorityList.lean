import Wurzburg.Db.Audit

/-!
# Wurzburg.Db.PriorityList

What `create_priority_config` stores, in any database that satisfies the constraints.

The tables are described completely (`Pg.Replaced`): the configuration in force is
cancelled, the new one and its items are added, everything else is as it was. The list
that was stored is what is returned, and what is read of the configuration as long as
it is in force, whatever other methods are run in between (`Pg.Later`).
-/

namespace Wurzburg.Db

open Wurzburg.Lib

/-! ### Stored items -/

/-- What a caller says of an item. -/
def PriorityItemData.terms (item : PriorityItemData) : Uuid × PriorityUsageType × Int × Uuid :=
  (item.providerId, item.usageType, item.maxAmount, item.userLedgerAccountId)

/-- What is read of it. -/
def UserPriorityItem.terms (item : UserPriorityItem) : Uuid × PriorityUsageType × Int × Uuid :=
  (item.providerId, item.usageType, item.maxAmount, item.userLedgerAccountId)

def PriorityItemRow.terms (row : PriorityItemRow) : Uuid × PriorityUsageType × Int × Uuid :=
  (row.providerId, row.usageType, row.maxAmount, row.ledgerAccountId)

/-- The items read are the items of the list, in number and order, numbered from 1. -/
structure Lists (read : List UserPriorityItem) (items : List PriorityItemData) : Prop where
  terms : read.map UserPriorityItem.terms = items.map PriorityItemData.terms
  orders : read.map (·.priorityOrder) = (List.range items.length).map (fun i : Nat => (i : Int) + 1)

/-- The rows of a list as one configuration has them. -/
structure StoredRows (rows : List PriorityItemRow) (items : List PriorityItemData) : Prop where
  terms : rows.map PriorityItemRow.terms = items.map PriorityItemData.terms
  orders : rows.map (·.priorityOrder) = (List.range items.length).map (fun i : Nat => (i : Int) + 1)
  kept : ∀ row ∈ rows, row.isDeleted = false

theorem StoredRows.ascending {rows : List PriorityItemRow} {items : List PriorityItemData}
    (h : StoredRows rows items) : rows.Pairwise (fun i j => i.priorityOrder < j.priorityOrder) := by
  have hmap : (rows.map (·.priorityOrder)).Pairwise (· < ·) := by
    rw [h.orders, List.pairwise_map]
    refine List.pairwise_lt_range.imp (fun {i j} hij => ?_)
    omega
  exact List.pairwise_map.mp hmap

theorem storedRows_itemRows {pg : Pg} {configId : Uuid} {now : Timestamp} {uuid : Nat → Uuid}
    {items : List PriorityItemData} (h : pg.AdmitsItems (itemRows configId now uuid 0 items)) :
    StoredRows (itemRows configId now uuid 0 items) items where
  terms := by
    rw [itemRows_eq, List.map_map]
    have hterms : (PriorityItemRow.terms ∘ fun x : PriorityItemData × Nat =>
        itemRow configId now (uuid (x.2 + 1)) x.2 x.1) = PriorityItemData.terms ∘ Prod.fst := by
      funext x
      simp only [Function.comp_apply, itemRow, PriorityItemRow.terms, PriorityItemData.terms]
    rw [hterms, ← List.map_map, List.zipIdx_map_fst]
  orders := by
    have horders := (numbered_itemRows h).orders
    rw [itemRows_length] at horders
    exact horders
  kept := fun row hrow => (mem_itemRows hrow).2

/-- The configuration, unless it was taken out of force, and its rows are stored. -/
structure Pg.Stores (pg : Pg) (c : UserPriorityConfig) (rows : List PriorityItemRow) : Prop where
  config : ∃ c' ∈ pg.configs, c.Later c' ∧ c'.isDeleted = false
  rows : pg.rowsOf c.id = rows

/-! ### Reading -/

section

variable {pg : Pg} {userId : Uuid} {c : UserPriorityConfig} {rows : List PriorityItemRow}
  {items : List PriorityItemData}

/-- Reading stored rows gives the list back. -/
theorem Pg.Valid.lists (h : pg.Valid) (hrows : pg.rowsOf c.id = rows)
    (hstored : StoredRows rows items) : Lists (pg.itemsOf c.id) items := by
  have hlive : pg.liveRows c.id = rows := by
    unfold Pg.liveRows
    rw [hrows]
    exact List.filter_eq_self.mpr (fun row hrow => by simp [hstored.kept row hrow])
  have hproviders : ∀ row ∈ pg.liveRows c.id, ∃ p ∈ pg.providers, p.id = row.providerId := by
    intro row hrow
    exact (h.refers.items row (List.mem_of_mem_filter (List.mem_of_mem_filter hrow))).2
  obtain ⟨hread, -⟩ := Pg.readAs_itemsOf (h.ids_nodup .providers) hproviders
    (by rw [hlive]; exact hstored.ascending)
  rw [hlive] at hread
  constructor
  · rw [← hstored.terms]
    exact hread.map_eq (fun _ _ => rfl)
  · rw [← hstored.orders]
    exact hread.map_eq (fun _ _ => rfl)

theorem Pg.Valid.active_unique (h : pg.Valid) {d : UserPriorityConfig} (hc : c ∈ pg.configs)
    (hd : d ∈ pg.configs) (huser : c.userId = d.userId) (hcactive : c.status = .active)
    (hdactive : d.status = .active) : c = d :=
  Db.active_unique (h.unique.configs.imp (fun hab => hab.2.2)) hc hd huser hcactive hdactive

/-- The configuration in force is the one that is found. -/
theorem Pg.Valid.activeConfig?_eq (h : pg.Valid) (hc : c ∈ pg.configs)
    (hcurrent : Pg.isCurrent userId c = true) : pg.activeConfig? userId = some c := by
  cases hfind : pg.activeConfig? userId with
  | none => exact absurd hcurrent (by simpa using List.find?_eq_none.mp hfind c hc)
  | some d =>
      have hfound := List.find?_some hfind
      simp only [Pg.isCurrent, decide_eq_true_eq] at hcurrent hfound
      rw [h.active_unique hc (List.mem_of_find?_eq_some hfind)
        (hcurrent.1.trans hfound.1.symm) hcurrent.2.1 hfound.2.1]

/-- The configuration under a key, not deleted, is the one that is found. -/
theorem Pg.Valid.configByKey?_eq (h : pg.Valid) (hc : c ∈ pg.configs)
    (hkept : c.isDeleted = false) : pg.configByKey? c.idempotencyKey = some c := by
  have hkeys : (pg.configs.map (·.idempotencyKey)).Nodup :=
    List.pairwise_map.mpr (h.unique.configs.imp (fun hab => hab.2.1))
  cases hfind : pg.configByKey? c.idempotencyKey with
  | none => exact absurd hkept (by simpa using List.find?_eq_none.mp hfind c hc)
  | some d =>
      have hkey : d.idempotencyKey = c.idempotencyKey ∧ d.isDeleted = false := by
        simpa using List.find?_some hfind
      rw [List.inj_on_of_nodup_map hkeys (List.mem_of_find?_eq_some hfind) hc hkey.1]

end

/-! ### Later -/

/-- The database after any methods were run, one after the other. -/
inductive Pg.Later (pg : Pg) : Pg → Prop where
  | refl : Later pg pg
  | call {pg' : Pg} (m : Mutator) (now : Timestamp) (uuid : Nat → Uuid) (h : Later pg pg') :
      Later pg (m.body.transact pg' now uuid).2.1
  | record {pg' : Pg} (code name : String) (category : SystemAccountCategory)
      (ledgerAccountId : Uuid) (now : Timestamp) (uuid : Nat → Uuid) (h : Later pg pg') :
      Later pg ((recordSystemAccount code name category ledgerAccountId).transact pg' now uuid).2.1

section

variable {pg pg' : Pg} {userId actor : Uuid} {c : UserPriorityConfig} {rows : List PriorityItemRow}
  {now : Timestamp} {uuid : Nat → Uuid}

theorem Pg.Stores.of_keeps (h : pg.Stores c rows) (hk : KeepsPriorities pg pg') :
    pg'.Stores c rows := by
  obtain ⟨⟨c', hc', hlater⟩, hrows⟩ := h
  refine ⟨⟨c', hk.configs ▸ hc', hlater⟩, ?_⟩
  unfold Pg.rowsOf at hrows ⊢
  rw [hk.items]
  exact hrows

theorem Pg.Stores.cancelActive (h : pg.Stores c rows) :
    (pg.cancelActive userId actor now).Stores c rows := by
  obtain ⟨⟨c', hc', hlater, hkept⟩, hrows⟩ := h
  refine ⟨⟨c'.afterCancel userId now, ?_, hlater.trans (c'.later_afterCancel userId now), ?_⟩, ?_⟩
  · rw [Pg.cancelActive_configs]
    exact List.mem_map_of_mem hc'
  · unfold UserPriorityConfig.afterCancel
    split
    · exact hkept
    · exact hkept
  · unfold Pg.rowsOf at hrows ⊢
    rw [Pg.cancelActive_items]
    exact hrows

theorem Pg.Stores.addPriority (h : pg.Stores c rows) {key : String} {items : List PriorityItemData}
    {expiresAt : Option Timestamp}
    (hadm : pg.AdmitsPriority now uuid key userId actor items expiresAt) :
    (pg.addPriority now uuid key userId actor items expiresAt).Stores c rows := by
  have hstores : (pg.cancelActive userId actor now).Stores c rows := h.cancelActive
  obtain ⟨⟨c', hc', hlater, hkept⟩, hrows⟩ := hstores
  refine ⟨⟨c', ?_, hlater, hkept⟩, ?_⟩
  · rw [Pg.addPriority, Pg.addItems_configs]
    exact List.mem_append_left _ hc'
  · have hne : c.id ≠ uuid 0 := hlater.id_eq ▸ hadm.config.newId c' hc'
    exact (Pg.rowsOf_withPriority hne (fun row hrow => (mem_itemRows hrow).1)).trans hrows

/-- `soft_delete_priority_config` sets no actor, and so changes nothing. -/
theorem softDeletePriorityConfig_transact (configId : Uuid) (pg : Pg) (now : Timestamp)
    (uuid : Nat → Uuid) :
    ((softDeletePriorityConfig configId).transact pg now uuid).2.1 = pg := by
  have huses : (softDeletePriorityConfig configId).Uses
      ((PriorityCall.softDelete configId).allowed .opened) := by
    refine Repo.uses_bind (Repo.uses_query (Or.inl ⟨rfl, fun u h => by cases h⟩)) (fun _ => ?_)
    refine Repo.uses_bind (Repo.uses_query (Or.inl ⟨rfl, fun u h => by cases h⟩)) (fun _ => ?_)
    exact Repo.uses_query (Or.inr rfl)
  have hkept := huses.exec_induction (motive := fun t => t.base = pg ∧ t.pg = pg ∧ t.actor = none)
    (fun e t he ht => ?_) (t := Tx.begin pg now uuid) ⟨rfl, rfl, rfl⟩
  · exact hkept.1
  · obtain ⟨hbase, hpg, hactor⟩ := ht
    rcases PriorityCall.allowed_opened he with ⟨a, -, ha⟩ | ⟨hupd, hne⟩ | rfl
    · cases ha
    · have hsame : (Sql.exec e t).2 = t := by
        cases e with
        | softDeleteItems configId => exact Tx.update_noActor hactor
        | softDeleteConfig configId => exact Tx.update_noActor hactor
        | cancelActiveConfig u => exact absurd rfl (hne u)
        | _ => cases hupd
      rw [hsame]
      exact ⟨hbase, hpg, hactor⟩
    · exact ⟨hpg, hpg, hactor⟩

/-- What a method does to the priorities: nothing, cancel those of a user, or add one. -/
theorem Mutator.priorities_cases (m : Mutator) (pg : Pg) (now : Timestamp) (uuid : Nat → Uuid) :
    KeepsPriorities pg (m.body.transact pg now uuid).2.1 ∨
    (∃ userId actor, (m.body.transact pg now uuid).2.1 = pg.cancelActive userId actor now) ∨
    ∃ key userId actor items expiresAt,
      pg.AdmitsPriority now uuid key userId actor items expiresAt ∧
      (m.body.transact pg now uuid).2.1 =
        pg.addPriority now uuid key userId actor items expiresAt := by
  cases m with
  | createProvider provider actorId =>
      unfold Mutator.body
      rw [Repo.transact_discard]
      exact Or.inl (Repo.transact_sparesPriorities (createProvider_sparesPriorities ..) rfl)
  | createOrLinkUser nid providerId im em lid actorId =>
      unfold Mutator.body
      rw [Repo.transact_discard]
      exact Or.inl (Repo.transact_sparesPriorities (createOrLinkUser_sparesPriorities ..) rfl)
  | executeCreditTransfer key amount providerId userId plid ulid actorId description =>
      unfold Mutator.body
      rw [Repo.transact_discard]
      exact Or.inl (Repo.transact_sparesPriorities (executeTransfer_sparesPriorities ..) rfl)
  | executeDebitTransfer key amount providerId userId plid ulid actorId description =>
      unfold Mutator.body
      rw [Repo.transact_discard]
      exact Or.inl (Repo.transact_sparesPriorities (executeTransfer_sparesPriorities ..) rfl)
  | createPriorityConfig key userId items expiresAt actorId =>
      unfold Mutator.body
      rw [Repo.transact_discard]
      rcases createPriorityConfig_cases with ⟨hadm, htx⟩ | ⟨e, n, -, htx⟩
      · rw [htx]
        exact Or.inr (Or.inr ⟨key, userId, actorId, items, expiresAt, hadm, rfl⟩)
      · rw [htx]
        exact Or.inl (.refl pg)
  | cancelActivePriorityConfig userId actorId =>
      unfold Mutator.body
      rw [Repo.transact_discard, cancelActivePriorityConfig_transact]
      exact Or.inr (Or.inl ⟨userId, actorId, rfl⟩)
  | softDeletePriorityConfig configId =>
      unfold Mutator.body
      rw [softDeletePriorityConfig_transact]
      exact Or.inl (.refl pg)

/-- No method touches a stored configuration but to take it out of force. -/
theorem Pg.Stores.mutator (h : pg.Stores c rows) (m : Mutator) :
    (m.body.transact pg now uuid).2.1.Stores c rows := by
  rcases m.priorities_cases pg now uuid with hk | ⟨u, a, heq⟩ | ⟨key, u, a, items, ea, hadm, heq⟩
  · exact h.of_keeps hk
  · rw [heq]
    exact h.cancelActive
  · rw [heq]
    exact h.addPriority hadm

theorem Pg.Stores.later (hv : pg.Valid) (h : pg.Stores c rows) (hl : pg.Later pg') :
    pg'.Valid ∧ pg'.Stores c rows := by
  induction hl with
  | refl => exact ⟨hv, h⟩
  | call m now uuid _ ih => exact ⟨Repo.transact_valid ih.1 _ now uuid, ih.2.mutator m⟩
  | record code name category lid now uuid _ ih =>
      refine ⟨Repo.transact_valid ih.1 _ now uuid, ih.2.of_keeps ?_⟩
      exact Repo.transact_sparesPriorities (recordSystemAccount_sparesPriorities ..) rfl

end

/-! ### What a creation does -/

/-- The user's configuration in force is cancelled, the new one and its items are
added, and everything else is as it was. -/
structure Pg.Replaced (pg pg' : Pg) (userId : Uuid) (now : Timestamp)
    (new : UserPriorityConfig) : Prop where
  isNew : ∀ c ∈ pg.configs, c.id ≠ new.id
  configs : pg'.configs =
    pg.configs.map (fun c => if Pg.isCurrent userId c then c.cancel now else c) ++ [new]
  items : ∃ rows, pg'.items = pg.items ++ rows ∧ ∀ row ∈ rows, row.configId = new.id
  core : Pg.SameCore pg pg'
  systemAccounts : pg'.systemAccounts = pg.systemAccounts
  auditLogs : pg.auditLogs <+: pg'.auditLogs

/-- A creation that returned has stored the list. -/
structure StoredList (pg pg' : Pg) (key : String) (userId : Uuid) (items : List PriorityItemData)
    (expiresAt : Option Timestamp) (now : Timestamp) (d : UserPriorityDetails) : Prop where
  config : d.config = newConfig d.config.id userId key expiresAt now
  replaced : pg.Replaced pg' userId now d.config
  onlyActive : ∀ c ∈ pg'.configs, c.userId = userId → c.status = .active → c = d.config
  returned : Lists d.items items
  /-- Later reads of the configuration, as long as it is in force. -/
  read : ∀ pg'', pg'.Later pg'' → ∀ c ∈ pg''.configs, c.id = d.config.id →
    Pg.isCurrent userId c = true → ∀ (now' : Timestamp) (uuid' : Nat → Uuid), ∃ read,
      (getActivePriorityConfig userId).transact pg'' now' uuid' =
        (.ok (some ⟨c, read⟩), pg'', 0) ∧
      (getPriorityConfigByIdempotencyKey key).transact pg'' now' uuid' =
        (.ok (some ⟨c, read⟩), pg'', 0) ∧
      Lists read items

section

variable {pg pg' : Pg} {key : String} {userId actor : Uuid} {items : List PriorityItemData}
  {expiresAt : Option Timestamp} {now : Timestamp} {uuid : Nat → Uuid}

/-- The tables that an insertion of items leaves alone. -/
theorem Pg.addItems_frame (pg : Pg) (actor : Uuid) (rows : List PriorityItemRow) :
    Pg.SameCore pg (pg.addItems actor rows) ∧
      (pg.addItems actor rows).systemAccounts = pg.systemAccounts ∧
      pg.auditLogs <+: (pg.addItems actor rows).auditLogs := by
  induction rows generalizing pg with
  | nil => exact ⟨.refl pg, rfl, List.prefix_refl _⟩
  | cons row rows ih =>
      obtain ⟨hcore, hsystem, hlogs⟩ := ih (pg.addItem actor row)
      have hadd : Pg.SameCore pg (pg.addItem actor row) := ⟨rfl, rfl, rfl, rfl, rfl⟩
      refine ⟨hadd.trans hcore, hsystem, ?_⟩
      exact (List.prefix_append _ _).trans hlogs

theorem Pg.cancelActive_frame (pg : Pg) (userId actor : Uuid) (now : Timestamp) :
    (pg.cancelActive userId actor now).systemAccounts = pg.systemAccounts ∧
      pg.auditLogs <+: (pg.cancelActive userId actor now).auditLogs := by
  unfold Pg.cancelActive
  split
  · exact ⟨rfl, List.prefix_refl _⟩
  · exact ⟨rfl, List.prefix_append _ _⟩

theorem Pg.AdmitsPriority.replaced
    (hadm : pg.AdmitsPriority now uuid key userId actor items expiresAt) :
    pg.Replaced (pg.addPriority now uuid key userId actor items expiresAt) userId now
      (newConfig (uuid 0) userId key expiresAt now) := by
  obtain ⟨hcore, hsystem, hlogs⟩ := ((pg.cancelActive userId actor now).addConfig actor
    (newConfig (uuid 0) userId key expiresAt now)).addItems_frame actor
      (itemRows (uuid 0) now uuid 0 items)
  obtain ⟨hsystem₀, hlogs₀⟩ := pg.cancelActive_frame userId actor now
  refine ⟨fun c hc => ?_, ?_, ⟨itemRows (uuid 0) now uuid 0 items, ?_, ?_⟩, ?_, ?_, ?_⟩
  · have hnew := hadm.config.newId (c.afterCancel userId now)
      (by rw [Pg.cancelActive_configs]; exact List.mem_map_of_mem hc)
    rw [(c.later_afterCancel userId now).id_eq] at hnew
    exact hnew
  · rw [Pg.addPriority, Pg.addItems_configs]
    show (pg.cancelActive userId actor now).configs ++ _ = _
    rw [Pg.cancelActive_configs]
    rfl
  · rw [Pg.addPriority, Pg.addItems_items]
    show (pg.cancelActive userId actor now).items ++ _ = _
    rw [Pg.cancelActive_items]
  · exact fun row hrow => (mem_itemRows hrow).1
  · refine (Pg.cancelActive_sameCore pg userId actor now).trans (Pg.SameCore.trans ?_ hcore)
    exact ⟨rfl, rfl, rfl, rfl, rfl⟩
  · exact hsystem.trans hsystem₀
  · exact hlogs₀.trans ((List.prefix_append _ _).trans hlogs)

/-- The new configuration and its items are stored. -/
theorem Pg.Valid.stores_addPriority (hv : pg.Valid)
    (hadm : pg.AdmitsPriority now uuid key userId actor items expiresAt) :
    (pg.addPriority now uuid key userId actor items expiresAt).Stores
      (newConfig (uuid 0) userId key expiresAt now) (itemRows (uuid 0) now uuid 0 items) := by
  constructor
  · refine ⟨newConfig (uuid 0) userId key expiresAt now, ?_, .refl _, rfl⟩
    rw [Pg.addPriority, Pg.addItems_configs]
    exact List.mem_append_right _ (List.mem_singleton_self _)
  · refine Pg.rowsOf_new (fun i hi => ?_) hadm.config.newId (fun row hrow => (mem_itemRows hrow).1)
    rw [Pg.cancelActive_items] at hi
    obtain ⟨c, hc, hci⟩ := (hv.refers.items i hi).1
    refine ⟨c.afterCancel userId now, ?_, (c.later_afterCancel userId now).id_eq.trans hci⟩
    rw [Pg.cancelActive_configs]
    exact List.mem_map_of_mem hc

/-- **`create_priority_config` is atomic and stores the list faithfully.** -/
theorem createPriorityConfig_stores (hv : pg.Valid) {r : Except RepoError UserPriorityDetails}
    {n : Nat} (h : (createPriorityConfig key userId items expiresAt actor).transact pg now uuid =
      (r, pg', n)) :
    (∃ d, r = .ok d ∧ StoredList pg pg' key userId items expiresAt now d) ∨
      ∃ e, r = .error e ∧ pg' = pg := by
  have hv' : pg'.Valid := by
    have hkeep := Repo.transact_valid hv (createPriorityConfig key userId items expiresAt actor)
      now uuid
    rw [h] at hkeep
    exact hkeep
  rcases createPriorityConfig_cases with ⟨hadm, htx⟩ | ⟨e, m, -, htx⟩
  · obtain ⟨rfl, hrest⟩ := Prod.mk.inj (h.symm.trans htx)
    obtain ⟨rfl, -⟩ := Prod.mk.inj hrest
    have hstored := storedRows_itemRows hadm.items
    have hstores := hv.stores_addPriority hadm
    have hmem : newConfig (uuid 0) userId key expiresAt now ∈
        (pg.addPriority now uuid key userId actor items expiresAt).configs := by
      rw [Pg.addPriority, Pg.addItems_configs]
      exact List.mem_append_right _ (List.mem_singleton_self _)
    refine Or.inl ⟨_, rfl, rfl, hadm.replaced, fun c hc huser hactive => ?_,
      hv'.lists hstores.rows hstored, fun pg'' hlater c hc hid hcurrent now' uuid' => ?_⟩
    · exact hv'.active_unique hc hmem huser hactive rfl
    · obtain ⟨hv'', ⟨c', hc', hsame, hkept⟩, hrows⟩ := hstores.later hv' hlater
      obtain rfl : c' = c :=
        List.inj_on_of_nodup_map (hv''.ids_nodup .userPriorityConfigs) hc' hc
          (hsame.id_eq.trans hid.symm)
      have hkey : c'.idempotencyKey = key := by
        rw [hsame.row]
        rfl
      refine ⟨pg''.itemsOf c'.id, ?_, ?_, ?_⟩
      · rw [getActivePriorityConfig_transact, Pg.activeDetails?,
          hv''.activeConfig?_eq hc' hcurrent]
        rfl
      · rw [getPriorityConfigByIdempotencyKey_transact, ← hkey, hv''.configByKey?_eq hc' hkept]
        rfl
      · refine hv''.lists ?_ hstored
        rw [hid]
        exact hrows
  · obtain ⟨rfl, hrest⟩ := Prod.mk.inj (h.symm.trans htx)
    exact Or.inr ⟨e, rfl, (Prod.mk.inj hrest).1⟩

end

/-- Methods carried out one after the other, each with UUIDs of its own. -/
def carriedOut (ms : List Mutator) : Pg :=
  ms.zipIdx.foldl (fun pg m =>
    (m.1.body.transact pg 0 (fun n => ⟨BitVec.ofNat 128 (100 * m.2 + n)⟩)).2.1) .empty

theorem carriedOut_valid (ms : List Mutator) : (carriedOut ms).Valid := by
  unfold carriedOut
  refine List.foldlRecOn (motive := Pg.Valid) _ _ .empty (fun pg hv m _ => ?_)
  exact Repo.transact_valid hv _ _ _

/-- A user linked to two providers, with a priority in force at the first. -/
def onePriority : Pg :=
  carriedOut [.createProvider (namedProvider ⟨1⟩ ⟨11⟩) ⟨9⟩,
    .createProvider (namedProvider ⟨2⟩ ⟨12⟩) ⟨9⟩,
    .createOrLinkUser "0012345678" ⟨1⟩ "{}" "{}" ⟨21⟩ ⟨9⟩,
    .createOrLinkUser "0012345678" ⟨2⟩ "{}" "{}" ⟨22⟩ ⟨9⟩,
    .createPriorityConfig "first" ⟨200⟩ [⟨⟨1⟩, .multiUse, 50, ⟨21⟩, ⟨11⟩⟩] none ⟨9⟩]

/-- The list that is to take its place. -/
def bothItems : List PriorityItemData :=
  [⟨⟨2⟩, .singleUse, 80, ⟨22⟩, ⟨12⟩⟩, ⟨⟨1⟩, .multiUse, 50, ⟨21⟩, ⟨11⟩⟩]

def createBoth : Except RepoError UserPriorityDetails × Pg × Nat :=
  (createPriorityConfig "second" ⟨200⟩ bothItems (some 9) ⟨9⟩).transact onePriority 5
    (fun n => ⟨BitVec.ofNat 128 (600 + n)⟩)

theorem createPriorityConfig_stores_two :
    (onePriority.configs.map (·.status) = [.active] ∧
      createBoth.2.1.configs.map (·.status) = [.cancelled, .active] ∧
      ∃ d, createBoth.1 = .ok d) ∧
    ((∃ d, createBoth.1 = .ok d ∧
        StoredList onePriority createBoth.2.1 "second" ⟨200⟩ bothItems (some 9) 5 d) ∨
      ∃ e, createBoth.1 = .error e ∧ createBoth.2.1 = onePriority) := by
  refine ⟨?_, createPriorityConfig_stores (carriedOut_valid _) rfl⟩
  have hscene : onePriority.configs.map (·.status) = [.active] ∧
      createBoth.2.1.configs.map (·.status) = [.cancelled, .active] ∧
      createBoth.1.isOk = true := by
    decide +kernel
  obtain ⟨hbefore, hafter, hok⟩ := hscene
  refine ⟨hbefore, hafter, ?_⟩
  cases h : createBoth.1 with
  | ok d => exact ⟨d, rfl⟩
  | error e =>
      rw [h] at hok
      cases hok

end Wurzburg.Db
