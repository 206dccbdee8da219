import Wurzburg.Db.PriorityRows

/-!
# Wurzburg.Db.Lifecycle

What the priorities of all users have in common at any time (`Priorities`), and
how two states of the tables are related when one comes later
(`Pg.Continues`): rows stay where they are, a configuration can only go from
`ACTIVE` to `CANCELLED`, and the items of a configuration stay the same but for
their deletion marks.
-/

namespace Wurzburg.Db

open Wurzburg.Lib

/-! ### One row over time -/

/-- The same configuration at a later time. -/
structure UserPriorityConfig.Later (c c' : UserPriorityConfig) : Prop where
  row : c' = { c with status := c'.status, isDeleted := c'.isDeleted, deletedAt := c'.deletedAt,
                      updatedAt := c'.updatedAt }
  status : c'.status = c.status ∨ c.status = .active ∧ c'.status = .cancelled

theorem UserPriorityConfig.Later.refl (c : UserPriorityConfig) : c.Later c := ⟨rfl, Or.inl rfl⟩

theorem UserPriorityConfig.Later.trans {a b c : UserPriorityConfig} (h : a.Later b)
    (h' : b.Later c) : a.Later c := by
  constructor
  · rw [h'.row, h.row]
  · rcases h.status with hab | ⟨ha, hb⟩
    · rw [← hab]
      exact h'.status
    · rcases h'.status with hbc | ⟨hb', -⟩
      · exact Or.inr ⟨ha, hbc.trans hb⟩
      · rw [hb] at hb'
        cases hb'

theorem UserPriorityConfig.Later.id_eq {c c' : UserPriorityConfig} (h : c.Later c') :
    c'.id = c.id := by
  rw [h.row]

/-- A cancelled configuration stays cancelled. -/
theorem UserPriorityConfig.Later.cancelled {c c' : UserPriorityConfig} (h : c.Later c')
    (hc : c.status = .cancelled) : c'.status = .cancelled := by
  rcases h.status with heq | ⟨ha, -⟩
  · exact heq.trans hc
  · rw [hc] at ha
    cases ha

/-- An item without its deletion marks. -/
def PriorityItemRow.unmarked (i : PriorityItemRow) : PriorityItemRow :=
  { i with isDeleted := false, deletedAt := none }

/-! ### The tables over time -/

/-- The rows of the items of a configuration. -/
def Pg.rowsOf (pg : Pg) (configId : Uuid) : List PriorityItemRow :=
  pg.items.filter (fun i => i.configId = configId)

/-- The priorities at a later time. -/
structure Pg.Continues (pg pg' : Pg) : Prop where
  configs : ∀ (i : Nat) (c : UserPriorityConfig), pg.configs[i]? = some c →
    ∃ c', pg'.configs[i]? = some c' ∧ c.Later c'
  items : ∀ c ∈ pg.configs, (pg'.rowsOf c.id).map PriorityItemRow.unmarked =
    (pg.rowsOf c.id).map PriorityItemRow.unmarked

namespace Pg.Continues

variable {pg pg' pg'' : Pg}

theorem of_eq (hc : pg'.configs = pg.configs) (hi : pg'.items = pg.items) :
    Pg.Continues pg pg' where
  configs := fun i c h => ⟨c, by rw [hc]; exact h, .refl c⟩
  items := fun c _ => by
    unfold rowsOf
    rw [hi]

theorem refl (pg : Pg) : Pg.Continues pg pg := of_eq rfl rfl

/-- A configuration is still there. -/
theorem mem (h : Pg.Continues pg pg') {c : UserPriorityConfig} (hc : c ∈ pg.configs) :
    ∃ c' ∈ pg'.configs, c.Later c' := by
  obtain ⟨i, hi⟩ := List.getElem?_of_mem hc
  obtain ⟨c', hc', hlater⟩ := h.configs i c hi
  exact ⟨c', List.mem_of_getElem? hc', hlater⟩

theorem trans (h : Pg.Continues pg pg') (h' : Pg.Continues pg' pg'') : Pg.Continues pg pg'' where
  configs := fun i c hc => by
    obtain ⟨c', hc', hlater⟩ := h.configs i c hc
    obtain ⟨c'', hc'', hlater'⟩ := h'.configs i c' hc'
    exact ⟨c'', hc'', hlater.trans hlater'⟩
  items := fun c hc => by
    obtain ⟨c', hc', hlater⟩ := h.mem hc
    have hnext := h'.items c' hc'
    rw [hlater.id_eq] at hnext
    exact hnext.trans (h.items c hc)

end Pg.Continues

/-! ### What the tables have in common -/

/-- The rows of one configuration: different providers, numbered from 1. -/
structure Numbered (rows : List PriorityItemRow) : Prop where
  orders : rows.map (·.priorityOrder) = (List.range rows.length).map (fun i : Nat => (i : Int) + 1)
  providers : (rows.map (·.providerId)).Nodup

/-- The priorities of all users are consistent. -/
structure Priorities (pg : Pg) : Prop where
  ids : (pg.configs.map (·.id)).Nodup
  keys : (pg.configs.map (·.idempotencyKey)).Nodup
  oneActive : pg.configs.Pairwise
    (fun c d => c.userId = d.userId → c.status = .active → d.status ≠ .active)
  /-- `soft_delete_priority_config` sets no actor, so the audit trigger refuses it. -/
  kept : ∀ c ∈ pg.configs, c.isDeleted = false
  numbered : ∀ c ∈ pg.configs, Numbered (pg.rowsOf c.id)
  itemConfig : ∀ i ∈ pg.items, ∃ c ∈ pg.configs, c.id = i.configId
  itemProvider : ∀ i ∈ pg.items, ∃ p ∈ pg.providers, p.id = i.providerId
  itemKept : ∀ i ∈ pg.items, i.isDeleted = false

theorem Priorities.empty : Priorities .empty := by
  constructor <;> simp [Pg.empty]

/-- Other tables do not matter, and providers may be added. -/
theorem Priorities.congr {pg pg' : Pg} (h : Priorities pg) (hconfigs : pg'.configs = pg.configs)
    (hitems : pg'.items = pg.items) (hproviders : pg.providers ⊆ pg'.providers) :
    Priorities pg' := by
  obtain ⟨h₁, h₂, h₃, h₄, h₅, h₆, h₇, h₈⟩ := h
  have hrows : ∀ id, pg'.rowsOf id = pg.rowsOf id := fun id => by
    unfold Pg.rowsOf
    rw [hitems]
  refine ⟨?_, ?_, ?_, ?_, ?_, ?_, ?_, ?_⟩
  · rwa [hconfigs]
  · rwa [hconfigs]
  · rwa [hconfigs]
  · rwa [hconfigs]
  · intro c hc
    rw [hrows]
    exact h₅ c (hconfigs ▸ hc)
  · rwa [hconfigs, hitems]
  · intro i hi
    obtain ⟨p, hp, hpi⟩ := h₇ i (hitems ▸ hi)
    exact ⟨p, hproviders hp, hpi⟩
  · rwa [hitems]

/-- The priorities are the same; providers may have been added. -/
structure KeepsPriorities (pg pg' : Pg) : Prop where
  configs : pg'.configs = pg.configs
  items : pg'.items = pg.items
  providers : pg.providers ⊆ pg'.providers

theorem KeepsPriorities.refl (pg : Pg) : KeepsPriorities pg pg := ⟨rfl, rfl, List.Subset.refl _⟩

theorem KeepsPriorities.of_same {pg pg' : Pg} (h : Pg.SamePriorities pg pg') :
    KeepsPriorities pg pg' :=
  ⟨h.configs, h.items, h.providers ▸ List.Subset.refl _⟩

theorem KeepsPriorities.trans {pg₁ pg₂ pg₃ : Pg} (h : KeepsPriorities pg₁ pg₂)
    (h' : KeepsPriorities pg₂ pg₃) : KeepsPriorities pg₁ pg₃ :=
  ⟨h'.configs.trans h.configs, h'.items.trans h.items, fun _ hp => h'.providers (h.providers hp)⟩

theorem KeepsPriorities.keep {pg pg' : Pg} (h : KeepsPriorities pg pg') (hp : Priorities pg) :
    Priorities pg' ∧ Pg.Continues pg pg' :=
  ⟨hp.congr h.configs h.items h.providers, .of_eq h.configs h.items⟩

/-! ### Methods that leave the priorities alone -/

/-- Statements that do not write a configuration or an item. -/
def Sql.sparesPriorities : Sql → Prop
  | .cancelActiveConfig _ | .insertConfig .. | .insertItem _ => False
  | .softDeleteItems _ | .softDeleteConfig _ => False
  | _ => True

theorem Tx.write_keepsPriorities {α : Type} {t : Tx} {checks : List (Bool × SqlError)} {row : α}
    {upd : Pg → Pg} {logs : Uuid → List AuditLog} (hupd : KeepsPriorities t.pg (upd t.pg)) :
    KeepsPriorities t.pg (t.write checks row upd logs).2.pg := by
  cases h : t.write checks row upd logs with
  | mk r t' =>
      rcases write_cases h with ⟨e, -, rfl⟩ | ⟨actor, -, -, -, rfl⟩
      · exact .refl _
      · exact ⟨hupd.configs, hupd.items, hupd.providers⟩

theorem Sql.exec_sparesPriorities {s : Sql} {t : Tx} (hs : s.sparesPriorities)
    (hrollback : s ≠ .rollback) : KeepsPriorities t.pg (Sql.exec s t).2.pg := by
  cases s with
  | cancelActiveConfig | insertConfig | insertItem | softDeleteItems | softDeleteConfig =>
      exact (show False from hs).elim
  | rollback => exact absurd rfl hrollback
  | insertProvider p =>
      exact Tx.write_keepsPriorities ⟨rfl, rfl, List.subset_append_left _ _⟩
  | insertUser id nid metadata => exact Tx.write_keepsPriorities ⟨rfl, rfl, List.Subset.refl _⟩
  | insertUserAccount id u p l => exact Tx.write_keepsPriorities ⟨rfl, rfl, List.Subset.refl _⟩
  | insertTransaction new => exact Tx.write_keepsPriorities ⟨rfl, rfl, List.Subset.refl _⟩
  | upsertUserProvider u p metadata =>
      simp only [Sql.exec, Tx.upsertUserProvider]
      split
      · exact Tx.write_keepsPriorities ⟨rfl, rfl, List.Subset.refl _⟩
      · exact Tx.write_keepsPriorities (t := t.draw) ⟨rfl, rfl, List.Subset.refl _⟩
  | insertSystemAccount code name category l =>
      simp only [Sql.exec, Tx.insertSystemAccount]
      split
      · exact .refl _
      · exact Tx.write_keepsPriorities (t := t.draw) ⟨rfl, rfl, List.Subset.refl _⟩
  | _ => exact .refl _

/-- A method without such statements keeps the priorities. -/
theorem Repo.transact_sparesPriorities {α : Type} {x : Repo α} (hx : x.Uses Sql.sparesPriorities)
    {pg pg' : Pg} {now : Timestamp} {uuid : Nat → Uuid} {r : Except RepoError α} {n : Nat}
    (h : x.transact pg now uuid = (r, pg', n)) : KeepsPriorities pg pg' := by
  obtain ⟨t, hexec, rfl, -⟩ := Repo.transact_cases h
  have hkeep := hx.exec_induction
    (motive := fun t => KeepsPriorities pg t.base ∧ KeepsPriorities pg t.pg)
    (fun s t hs ht => ?_) (t := Tx.begin pg now uuid) ⟨.refl _, .refl _⟩
  · rw [hexec] at hkeep
    exact hkeep.1
  · by_cases hcommit : s = .commit
    · subst hcommit
      exact ⟨ht.2, ht.2⟩
    by_cases hrollback : s = .rollback
    · subst hrollback
      exact ⟨ht.1, ht.1⟩
    rw [Sql.exec_base hcommit]
    exact ⟨ht.1, ht.2.trans (Sql.exec_sparesPriorities hs hrollback)⟩

theorem createProvider_sparesPriorities (provider : Provider) (actorId : Uuid) :
    (createProvider provider actorId).Uses Sql.sparesPriorities := by
  refine Repo.uses_bind (Repo.uses_query trivial) (fun _ => ?_)
  refine Repo.uses_bind (Repo.uses_query trivial) (fun _ => ?_)
  exact Repo.uses_bind (Repo.uses_query trivial) (fun _ => Repo.uses_pure _)

theorem createOrLinkUser_sparesPriorities (nid : String) (providerId : Uuid)
    (internalMetadata externalMetadata : Json) (ledgerAccountId actorId : Uuid) :
    (createOrLinkUser nid providerId internalMetadata externalMetadata ledgerAccountId
      actorId).Uses Sql.sparesPriorities := by
  refine Repo.uses_bind (Repo.uses_query trivial) (fun _ => ?_)
  refine Repo.uses_bind (Repo.uses_bind (Repo.uses_query trivial) (fun found => ?_))
    (fun user => ?_)
  · cases found with
    | some user => exact Repo.uses_pure _
    | none =>
        exact Repo.uses_bind (Repo.uses_query trivial) (fun _ => Repo.uses_query trivial)
  refine Repo.uses_bind (Repo.uses_query trivial) (fun _ => ?_)
  refine Repo.uses_bind (Repo.uses_bind (Repo.uses_query trivial) (fun found => ?_))
    (fun account => ?_)
  · cases found with
    | some account => exact Repo.uses_pure _
    | none =>
        exact Repo.uses_bind (Repo.uses_query trivial) (fun _ => Repo.uses_query trivial)
  exact Repo.uses_bind (Repo.uses_query trivial) (fun _ => Repo.uses_pure _)

theorem executeTransfer_sparesPriorities (ty : TransactionType) (key : String) (amount : Int)
    (providerId userId dr cr actorId : Uuid) (description : Option String) :
    (executeTransfer ty key amount providerId userId dr cr actorId description).Uses
      Sql.sparesPriorities := by
  refine Repo.uses_bind (Repo.uses_query trivial) (fun _ => ?_)
  refine Repo.uses_bind (Repo.uses_query trivial) (fun _ => ?_)
  refine Repo.uses_bind (Repo.uses_query trivial) (fun _ => ?_)
  exact Repo.uses_bind (Repo.uses_query trivial) (fun _ => Repo.uses_pure _)

theorem recordSystemAccount_sparesPriorities (code name : String)
    (category : SystemAccountCategory) (ledgerAccountId : Uuid) :
    (recordSystemAccount code name category ledgerAccountId).Uses Sql.sparesPriorities := by
  refine Repo.uses_bind (Repo.uses_query trivial) (fun _ => ?_)
  refine Repo.uses_bind (Repo.uses_query trivial) (fun _ => ?_)
  exact Repo.uses_bind (Repo.uses_query trivial) (fun _ => Repo.uses_pure _)

/-! ### Cancelling -/

/-- What cancelling makes of one configuration. -/
def UserPriorityConfig.afterCancel (userId : Uuid) (now : Timestamp) (c : UserPriorityConfig) :
    UserPriorityConfig :=
  if Pg.isCurrent userId c then c.cancel now else c

theorem UserPriorityConfig.later_afterCancel (userId : Uuid) (now : Timestamp)
    (c : UserPriorityConfig) : c.Later (c.afterCancel userId now) := by
  unfold afterCancel
  split
  · next h =>
      have hactive : c.status = .active := by
        simp only [Pg.isCurrent, decide_eq_true_eq] at h
        exact h.2.1
      exact ⟨rfl, Or.inr ⟨hactive, rfl⟩⟩
  · exact .refl c

theorem UserPriorityConfig.afterCancel_active {userId : Uuid} {now : Timestamp}
    {c : UserPriorityConfig} (h : (c.afterCancel userId now).status = .active) :
    c.afterCancel userId now = c := by
  unfold afterCancel at h ⊢
  split at h
  · cases h
  · next hnot => rw [if_neg hnot]

theorem Pg.cancelActive_configs (pg : Pg) (userId actor : Uuid) (now : Timestamp) :
    (pg.cancelActive userId actor now).configs =
      pg.configs.map (UserPriorityConfig.afterCancel userId now) := by
  unfold cancelActive
  split
  · next h =>
      have hnone : ∀ c ∈ pg.configs, c.afterCancel userId now = c := by
        intro c hc
        have := List.filter_eq_nil_iff.mp (List.isEmpty_iff.mp h) c hc
        exact if_neg this
      rw [List.map_congr_left hnone, List.map_id']
  · rfl

theorem Pg.cancelActive_items (pg : Pg) (userId actor : Uuid) (now : Timestamp) :
    (pg.cancelActive userId actor now).items = pg.items := by
  unfold cancelActive
  split
  · rfl
  · rfl

theorem Pg.cancelActive_sameCore (pg : Pg) (userId actor : Uuid) (now : Timestamp) :
    Pg.SameCore pg (pg.cancelActive userId actor now) := by
  unfold cancelActive
  split
  · exact .refl _
  · exact ⟨rfl, rfl, rfl, rfl, rfl⟩

theorem Pg.continues_cancelActive (pg : Pg) (userId actor : Uuid) (now : Timestamp) :
    Pg.Continues pg (pg.cancelActive userId actor now) where
  configs := fun i c hc => by
    refine ⟨c.afterCancel userId now, ?_, c.later_afterCancel userId now⟩
    rw [cancelActive_configs, List.getElem?_map, hc]
    rfl
  items := fun c _ => by
    unfold rowsOf
    rw [cancelActive_items]

theorem Priorities.cancelActive {pg : Pg} (h : Priorities pg) (userId actor : Uuid)
    (now : Timestamp) : Priorities (pg.cancelActive userId actor now) := by
  have hid : ∀ c : UserPriorityConfig, (c.afterCancel userId now).id = c.id :=
    fun c => (c.later_afterCancel userId now).id_eq
  have hmem : ∀ c' ∈ (pg.cancelActive userId actor now).configs,
      ∃ c ∈ pg.configs, c.afterCancel userId now = c' := by
    intro c' hc'
    rw [Pg.cancelActive_configs] at hc'
    exact List.mem_map.mp hc'
  have hrows : ∀ id, (pg.cancelActive userId actor now).rowsOf id = pg.rowsOf id := by
    intro id
    unfold Pg.rowsOf
    rw [Pg.cancelActive_items]
  constructor
  · rw [Pg.cancelActive_configs, List.map_map]
    exact (congrArg (fun f => (pg.configs.map f).Nodup) (funext hid)).mpr h.ids
  · rw [Pg.cancelActive_configs, List.map_map]
    have hkey : ∀ c : UserPriorityConfig,
        (c.afterCancel userId now).idempotencyKey = c.idempotencyKey := by
      intro c
      rw [(c.later_afterCancel userId now).row]
    exact (congrArg (fun f => (pg.configs.map f).Nodup) (funext hkey)).mpr h.keys
  -- no row becomes active, so no two of one user do
  · rw [Pg.cancelActive_configs, List.pairwise_map]
    refine h.oneActive.imp (fun {c d} hcd huser hc hd => ?_)
    rw [UserPriorityConfig.afterCancel_active hc] at huser hc
    rw [UserPriorityConfig.afterCancel_active hd] at huser hd
    exact hcd huser hc hd
  · intro c' hc'
    obtain ⟨c, hc, rfl⟩ := hmem c' hc'
    unfold UserPriorityConfig.afterCancel
    split
    · exact h.kept c hc
    · exact h.kept c hc
  · intro c' hc'
    obtain ⟨c, hc, rfl⟩ := hmem c' hc'
    rw [hid, hrows]
    exact h.numbered c hc
  · intro i hi
    rw [Pg.cancelActive_items] at hi
    obtain ⟨c, hc, hci⟩ := h.itemConfig i hi
    refine ⟨c.afterCancel userId now, ?_, (hid c).trans hci⟩
    rw [Pg.cancelActive_configs]
    exact List.mem_map_of_mem hc
  · intro i hi
    rw [Pg.cancelActive_items] at hi
    rw [(Pg.cancelActive_sameCore pg userId actor now).providers]
    exact h.itemProvider i hi
  · intro i hi
    rw [Pg.cancelActive_items] at hi
    exact h.itemKept i hi

/-! ### Creating -/

/-- The rows of the items, by position. -/
theorem itemRows_eq (configId : Uuid) (now : Timestamp) (uuid : Nat → Uuid) (index : Nat)
    (items : List PriorityItemData) :
    itemRows configId now uuid index items =
      (items.zipIdx index).map (fun x => itemRow configId now (uuid (x.2 + 1)) x.2 x.1) := by
  induction items generalizing index with
  | nil => rfl
  | cons item items ih => rw [itemRows, ih, List.zipIdx_cons, List.map_cons]

theorem itemRows_length (configId : Uuid) (now : Timestamp) (uuid : Nat → Uuid) (index : Nat)
    (items : List PriorityItemData) :
    (itemRows configId now uuid index items).length = items.length := by
  rw [itemRows_eq, List.length_map, List.length_zipIdx]

theorem mem_itemRows {configId : Uuid} {now : Timestamp} {uuid : Nat → Uuid} {index : Nat}
    {items : List PriorityItemData} {row : PriorityItemRow}
    (h : row ∈ itemRows configId now uuid index items) :
    row.configId = configId ∧ row.isDeleted = false := by
  rw [itemRows_eq] at h
  obtain ⟨x, -, rfl⟩ := List.mem_map.mp h
  exact ⟨rfl, rfl⟩

theorem asI32_succ {i : Nat} (h : i < 2 ^ 31 - 1) : asI32 (i + 1) = (i : Int) + 1 := by
  unfold asI32
  rw [Int.bmod_eq_of_le_mul_two] <;> omega

/-- Casts to `i32` that stay positive did not wrap. -/
theorem asI32_of_pos {n : Nat} (h : ∀ i < n, 0 < asI32 (i + 1)) :
    ∀ i < n, asI32 (i + 1) = (i : Int) + 1 := by
  have hlt : n < 2 ^ 31 := by
    by_contra hge
    have := h (2 ^ 31 - 1) (by omega)
    exact absurd this (by decide)
  exact fun i hi => asI32_succ (by omega)

theorem itemRow_priorityOrder (configId : Uuid) (now : Timestamp) (id : Uuid) (index : Nat)
    (item : PriorityItemData) :
    (itemRow configId now id index item).priorityOrder = asI32 (index + 1) := by
  simp only [itemRow]

theorem itemRows_orders (configId : Uuid) (now : Timestamp) (uuid : Nat → Uuid) (index : Nat)
    (items : List PriorityItemData) :
    (itemRows configId now uuid index items).map (·.priorityOrder) =
      (List.range' index items.length).map (fun i => asI32 (i + 1)) := by
  induction items generalizing index with
  | nil => rfl
  | cons item items ih =>
      rw [itemRows, List.map_cons, ih, itemRow_priorityOrder, List.length_cons, List.range'_succ,
        List.map_cons]

/-- Rows the constraints admit for one configuration are numbered. -/
theorem numbered_itemRows {pg : Pg} {configId : Uuid} {now : Timestamp} {uuid : Nat → Uuid}
    {items : List PriorityItemData} (h : pg.AdmitsItems (itemRows configId now uuid 0 items)) :
    Numbered (itemRows configId now uuid 0 items) := by
  constructor
  · have horders := itemRows_orders configId now uuid 0 items
    have hpos : ∀ i < items.length, 0 < asI32 (i + 1) := by
      intro i hi
      have hmem : asI32 (i + 1) ∈ (itemRows configId now uuid 0 items).map (·.priorityOrder) := by
        rw [horders]
        exact List.mem_map_of_mem (List.mem_range'_1.mpr ⟨Nat.zero_le i, by omega⟩)
      obtain ⟨row, hrow, horder⟩ := List.mem_map.mp hmem
      rw [← horder]
      exact (h.1 row hrow).order
    rw [horders, itemRows_length, ← List.range_eq_range']
    refine List.map_congr_left (fun i hi => ?_)
    exact asI32_of_pos hpos i (List.mem_range.mp hi)
  · refine List.pairwise_map.mpr (h.2.imp_of_mem (fun {a b} ha hb hab => ?_))
    exact (hab.2 ((mem_itemRows ha).1.trans (mem_itemRows hb).1.symm)).1

/-- The database with a new configuration and its items. -/
def Pg.withPriority (pg : Pg) (actor : Uuid) (c : UserPriorityConfig)
    (rows : List PriorityItemRow) : Pg :=
  (pg.addConfig actor c).addItems actor rows

theorem Pg.withPriority_configs (pg : Pg) (actor : Uuid) (c : UserPriorityConfig)
    (rows : List PriorityItemRow) :
    (pg.withPriority actor c rows).configs = pg.configs ++ [c] :=
  addItems_configs ..

theorem Pg.withPriority_items (pg : Pg) (actor : Uuid) (c : UserPriorityConfig)
    (rows : List PriorityItemRow) : (pg.withPriority actor c rows).items = pg.items ++ rows :=
  addItems_items ..

theorem Pg.withPriority_providers (pg : Pg) (actor : Uuid) (c : UserPriorityConfig)
    (rows : List PriorityItemRow) : (pg.withPriority actor c rows).providers = pg.providers :=
  addItems_providers ..

section

variable {pg : Pg} {actor : Uuid} {c : UserPriorityConfig} {rows : List PriorityItemRow}

/-- The new rows are the items of the new configuration. -/
theorem Pg.rowsOf_new (hconfig : ∀ i ∈ pg.items, ∃ d ∈ pg.configs, d.id = i.configId)
    (hnew : ∀ d ∈ pg.configs, d.id ≠ c.id) (hrows : ∀ row ∈ rows, row.configId = c.id) :
    (pg.withPriority actor c rows).rowsOf c.id = rows := by
  have hold : pg.items.filter (fun i => i.configId = c.id) = [] := by
    refine List.filter_eq_nil_iff.mpr (fun i hi hci => ?_)
    obtain ⟨d, hd, hdi⟩ := hconfig i hi
    exact hnew d hd (hdi.trans (by simpa using hci))
  have hnew : rows.filter (fun i => i.configId = c.id) = rows :=
    List.filter_eq_self.mpr (fun row hrow => by simpa using hrows row hrow)
  unfold Pg.rowsOf
  rw [Pg.withPriority_items, List.filter_append, hold, hnew, List.nil_append]

/-- The other configurations keep theirs. -/
theorem Pg.rowsOf_withPriority {id : Uuid} (hid : id ≠ c.id)
    (hrows : ∀ row ∈ rows, row.configId = c.id) :
    (pg.withPriority actor c rows).rowsOf id = pg.rowsOf id := by
  have hnone : rows.filter (fun i => i.configId = id) = [] := by
    refine List.filter_eq_nil_iff.mpr (fun row hrow hci => hid ?_)
    have hci : row.configId = id := by simpa using hci
    exact hci.symm.trans (hrows row hrow)
  unfold rowsOf
  rw [withPriority_items, List.filter_append, hnone, List.append_nil]

theorem Pg.continues_withPriority (hnew : ∀ d ∈ pg.configs, d.id ≠ c.id)
    (hrows : ∀ row ∈ rows, row.configId = c.id) :
    Pg.Continues pg (pg.withPriority actor c rows) where
  configs := fun i d hd => by
    refine ⟨d, ?_, .refl d⟩
    rw [withPriority_configs, List.getElem?_append_left (List.getElem?_eq_some_iff.mp hd).1]
    exact hd
  items := fun d hd => by rw [rowsOf_withPriority (hnew d hd) hrows]

/-- Rows that the constraints admit keep the tables consistent. -/
theorem Priorities.withPriority (h : Priorities pg) (hc : pg.AdmitsConfig c)
    (hkept : c.isDeleted = false) (hadm : (pg.addConfig actor c).AdmitsItems rows)
    (hrows : ∀ row ∈ rows, row.configId = c.id ∧ row.isDeleted = false)
    (hnum : Numbered rows) : Priorities (pg.withPriority actor c rows) := by
  have hmem : ∀ d ∈ pg.configs ++ [c], d ∈ pg.configs ∨ d = c := by
    intro d hd
    simpa using hd
  constructor
  · rw [Pg.withPriority_configs]
    exact Tables.nodup_map_concat h.ids hc.newId
  · rw [Pg.withPriority_configs]
    exact Tables.nodup_map_concat h.keys hc.newKey
  · rw [Pg.withPriority_configs]
    refine List.pairwise_append.mpr ⟨h.oneActive, List.pairwise_singleton _ _, ?_⟩
    intro d hd d' hd' huser hactive
    rw [List.mem_singleton.mp hd'] at huser
    exact absurd hactive (hc.noActive d hd huser)
  · rw [Pg.withPriority_configs]
    intro d hd
    rcases hmem d hd with hd | rfl
    · exact h.kept d hd
    · exact hkept
  · rw [Pg.withPriority_configs]
    intro d hd
    rcases hmem d hd with hd | rfl
    · rw [Pg.rowsOf_withPriority (hc.newId d hd) (fun row hrow => (hrows row hrow).1)]
      exact h.numbered d hd
    · rw [Pg.rowsOf_new h.itemConfig hc.newId (fun row hrow => (hrows row hrow).1)]
      exact hnum
  · rw [Pg.withPriority_configs, Pg.withPriority_items]
    intro i hi
    rcases List.mem_append.mp hi with hi | hi
    · exact Tables.exists_mem_concat (h.itemConfig i hi)
    · exact ⟨c, List.mem_append_right _ (List.mem_singleton_self c), (hrows i hi).1.symm⟩
  · rw [Pg.withPriority_items, Pg.withPriority_providers]
    intro i hi
    rcases List.mem_append.mp hi with hi | hi
    · exact h.itemProvider i hi
    · exact (hadm.1 i hi).provider
  · rw [Pg.withPriority_items]
    intro i hi
    rcases List.mem_append.mp hi with hi | hi
    · exact h.itemKept i hi
    · exact (hrows i hi).2

end

/-! ### What a method does -/

section

variable {pg : Pg} {now : Timestamp} {uuid : Nat → Uuid} {key : String} {userId actor : Uuid}
  {items : List PriorityItemData} {expiresAt : Option Timestamp}

theorem Priorities.addPriority (h : Priorities pg)
    (hadm : pg.AdmitsPriority now uuid key userId actor items expiresAt) :
    Priorities (pg.addPriority now uuid key userId actor items expiresAt) ∧
      Pg.Continues pg (pg.addPriority now uuid key userId actor items expiresAt) ∧
      (pg.addPriority now uuid key userId actor items expiresAt).rowsOf (uuid 0) =
        itemRows (uuid 0) now uuid 0 items := by
  have hcancelled := h.cancelActive userId actor now
  have hrows : ∀ row ∈ itemRows (uuid 0) now uuid 0 items,
      row.configId = (newConfig (uuid 0) userId key expiresAt now).id := fun row hrow =>
    (mem_itemRows hrow).1
  refine ⟨hcancelled.withPriority hadm.config rfl hadm.items (fun row hrow => mem_itemRows hrow)
    (numbered_itemRows hadm.items), ?_, ?_⟩
  · exact (Pg.continues_cancelActive pg userId actor now).trans
      (Pg.continues_withPriority hadm.config.newId hrows)
  · exact Pg.rowsOf_new hcancelled.itemConfig hadm.config.newId hrows

end

/-! ### One user's configurations -/

/-- The configurations of a user. -/
def Pg.prioritiesOf (pg : Pg) (userId : Uuid) : List UserPriorityConfig :=
  pg.configs.filter (fun c => c.userId = userId)

theorem UserPriorityConfig.afterCancel_of_ne {userId : Uuid} {now : Timestamp}
    {c : UserPriorityConfig} (h : c.userId ≠ userId) : c.afterCancel userId now = c := by
  unfold afterCancel
  rw [if_neg (by simp [Pg.isCurrent, h])]

theorem Pg.prioritiesOf_cancelActive {userId u : Uuid} (h : userId ≠ u) (pg : Pg) (actor : Uuid)
    (now : Timestamp) : (pg.cancelActive userId actor now).prioritiesOf u = pg.prioritiesOf u := by
  unfold prioritiesOf
  rw [cancelActive_configs, List.filter_map]
  have hfun : ((fun c : UserPriorityConfig => decide (c.userId = u)) ∘
      UserPriorityConfig.afterCancel userId now) = fun c => decide (c.userId = u) := by
    funext c
    show decide ((c.afterCancel userId now).userId = u) = _
    rw [(c.later_afterCancel userId now).row]
  rw [hfun]
  refine (List.map_congr_left (fun c hc => ?_)).trans (List.map_id _)
  have huser : c.userId = u := by simpa using (List.mem_filter.mp hc).2
  exact UserPriorityConfig.afterCancel_of_ne (fun heq => h (heq.symm.trans huser))

theorem Pg.prioritiesOf_addPriority {pg : Pg} {now : Timestamp} {uuid : Nat → Uuid} {key : String}
    {userId actor u : Uuid} {items : List PriorityItemData} {expiresAt : Option Timestamp}
    (h : userId ≠ u) :
    (pg.addPriority now uuid key userId actor items expiresAt).prioritiesOf u =
      pg.prioritiesOf u := by
  rw [← prioritiesOf_cancelActive h pg actor now]
  unfold prioritiesOf
  have hconfigs : (pg.addPriority now uuid key userId actor items expiresAt).configs =
      (pg.cancelActive userId actor now).configs ++ [newConfig (uuid 0) userId key expiresAt now] :=
    withPriority_configs ..
  rw [hconfigs, List.filter_append]
  simp [newConfig, h]

/-- A configuration of the user was cancelled that, if it was there at the start, was
active then. -/
def Pg.Lost (pg₀ pg : Pg) (userId : Uuid) : Prop :=
  ∃ c ∈ pg.configs, c.userId = userId ∧ c.status = .cancelled ∧
    ∀ d ∈ pg₀.configs, d.id = c.id → d.status = .active

namespace Pg.Lost

variable {pg₀ pg pg' : Pg} {userId : Uuid}

/-- It stays cancelled. -/
theorem later (h : Pg.Lost pg₀ pg userId) (hc : Pg.Continues pg pg') :
    Pg.Lost pg₀ pg' userId := by
  obtain ⟨c, hmem, huser, hcancelled, hold⟩ := h
  obtain ⟨c', hmem', hlater⟩ := hc.mem hmem
  refine ⟨c', hmem', ?_, hlater.cancelled hcancelled, fun d hd hid => ?_⟩
  · rw [hlater.row]
    exact huser
  · exact hold d hd (hid.trans hlater.id_eq)

theorem ne (h : Pg.Lost pg₀ pg userId) : pg.prioritiesOf userId ≠ pg₀.prioritiesOf userId := by
  intro heq
  obtain ⟨c, hmem, huser, hcancelled, hold⟩ := h
  have hc : c ∈ pg.prioritiesOf userId := List.mem_filter.mpr ⟨hmem, by simpa using huser⟩
  rw [heq] at hc
  have hactive := hold c (List.mem_of_mem_filter hc) rfl
  rw [hcancelled] at hactive
  cases hactive

/-- Cancelling a configuration in force loses it. -/
theorem of_cancelActive (hc : Pg.Continues pg₀ pg) (hp : Priorities pg) {actor : Uuid}
    {now : Timestamp} (hcurrent : pg.configs.filter (Pg.isCurrent userId) ≠ []) :
    Pg.Lost pg₀ (pg.cancelActive userId actor now) userId := by
  obtain ⟨c, hcmem⟩ := List.exists_mem_of_ne_nil _ hcurrent
  obtain ⟨hmem, hcur⟩ := List.mem_filter.mp hcmem
  have hcurrent : c.userId = userId ∧ c.status = .active ∧ c.isDeleted = false := by
    simpa [Pg.isCurrent] using hcur
  have hcancel : c.afterCancel userId now = c.cancel now := if_pos hcur
  refine ⟨c.cancel now, ?_, hcurrent.1, rfl, fun d hd hid => ?_⟩
  · rw [Pg.cancelActive_configs, ← hcancel]
    exact List.mem_map_of_mem hmem
  · obtain ⟨d', hd', hlater⟩ := hc.mem hd
    obtain rfl : d' = c := List.inj_on_of_nodup_map hp.ids hd' hmem (hlater.id_eq.trans hid)
    rcases hlater.status with heq | ⟨hactive, -⟩
    · exact heq.symm.trans hcurrent.2.1
    · exact hactive

end Pg.Lost

/-! ### What the constraints take -/

/-- What the items are checked for, whatever the database holds. -/
structure SoundItems (items : List PriorityItemData) : Prop where
  amounts : ∀ item ∈ items, 0 ≤ item.maxAmount
  providers : (items.map (·.providerId)).Nodup
  count : items.length < 2 ^ 31

theorem SoundItems.take {items : List PriorityItemData} (h : SoundItems items) (k : Nat) :
    SoundItems (items.take k) where
  amounts := fun item hitem => h.amounts item (List.mem_of_mem_take hitem)
  providers := h.providers.sublist ((List.take_sublist k items).map _)
  count := Nat.lt_of_le_of_lt (List.length_take_le' k items) h.count

/-- The UUIDs are new to the priorities, also among themselves. -/
structure Pg.NewIds (pg : Pg) (ids : List Uuid) : Prop where
  nodup : ids.Nodup
  configs : ∀ c ∈ pg.configs, c.id ∉ ids
  items : ∀ i ∈ pg.items, i.id ∉ ids

theorem Pg.NewIds.sublist {pg : Pg} {ids ids' : List Uuid} (h : pg.NewIds ids)
    (hs : ids'.Sublist ids) : pg.NewIds ids' where
  nodup := h.nodup.sublist hs
  configs := fun c hc hid => h.configs c hc (hs.subset hid)
  items := fun i hi hid => h.items i hi (hs.subset hid)

theorem itemRows_getElem {configId : Uuid} {now : Timestamp} {uuid : Nat → Uuid}
    {items : List PriorityItemData} {i : Nat} (h : i < items.length)
    (h' : i < (itemRows configId now uuid 0 items).length) :
    (itemRows configId now uuid 0 items)[i] = itemRow configId now (uuid (i + 1)) i items[i] := by
  simp only [itemRows_eq, List.getElem_map, List.getElem_zipIdx, Nat.zero_add]

/-- The rows of sound items of known providers, under new UUIDs, are admitted. -/
theorem SoundItems.admitsItems {pg : Pg} {now : Timestamp} {uuid : Nat → Uuid}
    {items : List PriorityItemData} (h : SoundItems items)
    (hconfig : ∃ c ∈ pg.configs, c.id = uuid 0) (hempty : ∀ i ∈ pg.items, i.configId ≠ uuid 0)
    (hknown : ∀ item ∈ items, ∃ p ∈ pg.providers, p.id = item.providerId)
    (hnodup : ((List.range (items.length + 1)).map uuid).Nodup)
    (hnew : ∀ i ∈ pg.items, i.id ∉ (List.range (items.length + 1)).map uuid) :
    pg.AdmitsItems (itemRows (uuid 0) now uuid 0 items) := by
  have hcount := h.count
  constructor
  · intro row hrow
    obtain ⟨i, hi, rfl⟩ := List.getElem_of_mem hrow
    have hi' : i < items.length := by rwa [itemRows_length] at hi
    have hitem : items[i] ∈ items := List.getElem_mem hi'
    have hid : uuid (i + 1) ∈ (List.range (items.length + 1)).map uuid :=
      List.mem_map_of_mem (List.mem_range.mpr (Nat.succ_lt_succ hi'))
    rw [itemRows_getElem hi']
    refine ⟨?_, h.amounts _ hitem, fun j hj => ⟨fun heq => ?_, fun heq => ?_⟩, hconfig,
      hknown _ hitem⟩
    · rw [itemRow_priorityOrder, asI32_succ (by omega)]
      omega
    · exact hnew j hj (heq ▸ hid)
    · exact absurd heq (hempty j hj)
  · refine List.pairwise_iff_getElem.mpr (fun i j hi hj hij => ?_)
    have hi' : i < items.length := by rwa [itemRows_length] at hi
    have hj' : j < items.length := by rwa [itemRows_length] at hj
    rw [itemRows_getElem hi', itemRows_getElem hj']
    refine ⟨fun heq => ?_, fun _ => ⟨fun heq => ?_, ?_⟩⟩
    · have hinj := List.inj_on_of_nodup_map hnodup
        (List.mem_range.mpr (Nat.succ_lt_succ hi')) (List.mem_range.mpr (Nat.succ_lt_succ hj')) heq
      omega
    · have hdistinct := List.pairwise_iff_getElem.mp (List.pairwise_map.mp h.providers) i j hi' hj' hij
      exact absurd heq hdistinct
    · rw [itemRow_priorityOrder, itemRow_priorityOrder, asI32_succ (by omega),
        asI32_succ (by omega)]
      omega
/-- The database takes these items for the user under this key. -/
structure Pg.Takes (pg : Pg) (key : String) (userId : Uuid) (items : List PriorityItemData)
    (expiresAt : Option Timestamp) : Prop where
  expiry : expiresAt.all timestampOk = true
  fits : varcharOk 255 key = true
  newKey : ∀ c ∈ pg.configs, c.idempotencyKey ≠ key
  user : ∃ u ∈ pg.users, u.id = userId
  known : ∀ item ∈ items, ∃ p ∈ pg.providers, p.id = item.providerId
  sound : SoundItems items

section

variable {pg pg' : Pg} {now : Timestamp} {uuid : Nat → Uuid} {key : String} {userId actor : Uuid}
  {items : List PriorityItemData} {expiresAt : Option Timestamp}

theorem Pg.Takes.take (h : pg.Takes key userId items expiresAt) (k : Nat) :
    pg.Takes key userId (items.take k) expiresAt where
  expiry := h.expiry
  fits := h.fits
  newKey := h.newKey
  user := h.user
  known := fun item hitem => h.known item (List.mem_of_mem_take hitem)
  sound := h.sound.take k

/-- After a cancellation the user has no active configuration. -/
theorem Priorities.noActive (h : Priorities pg) : ∀ c ∈ (pg.cancelActive userId actor now).configs,
    c.userId = userId → c.status ≠ .active := by
  intro c' hc' huser hactive
  rw [Pg.cancelActive_configs] at hc'
  obtain ⟨c, hc, rfl⟩ := List.mem_map.mp hc'
  by_cases hcurrent : Pg.isCurrent userId c = true
  · rw [UserPriorityConfig.afterCancel, if_pos hcurrent] at hactive
    cases hactive
  · rw [UserPriorityConfig.afterCancel, if_neg hcurrent] at huser hactive
    exact hcurrent (by simp [Pg.isCurrent, huser, hactive, h.kept c hc])

/-- What the database takes, it admits under new UUIDs. -/
theorem Priorities.admitsPriority (h : Priorities pg) (ht : pg.Takes key userId items expiresAt)
    (hids : pg.NewIds ((List.range (items.length + 1)).map uuid)) :
    pg.AdmitsPriority now uuid key userId actor items expiresAt := by
  have hfirst : uuid 0 ∈ (List.range (items.length + 1)).map uuid :=
    List.mem_map_of_mem (List.mem_range.mpr (Nat.succ_pos _))
  have hcore := Pg.cancelActive_sameCore pg userId actor now
  have hnew : ∀ c ∈ (pg.cancelActive userId actor now).configs, c.id ≠ uuid 0 := by
    intro c' hc' heq
    rw [Pg.cancelActive_configs] at hc'
    obtain ⟨c, hc, rfl⟩ := List.mem_map.mp hc'
    rw [(c.later_afterCancel userId now).id_eq] at heq
    exact hids.configs c hc (heq ▸ hfirst)
  refine ⟨⟨ht.expiry, ht.fits, hnew, ?_, h.noActive, ?_⟩, ?_⟩
  · intro c' hc'
    rw [Pg.cancelActive_configs] at hc'
    obtain ⟨c, hc, rfl⟩ := List.mem_map.mp hc'
    rw [(c.later_afterCancel userId now).row]
    exact ht.newKey c hc
  · rw [hcore.users]
    exact ht.user
  · refine ht.sound.admitsItems ⟨_, List.mem_append_right _ (List.mem_singleton_self _), rfl⟩ ?_ ?_
      hids.nodup ?_
    · intro i hi heq
      obtain ⟨c, hc, hci⟩ := (h.cancelActive userId actor now).itemConfig i hi
      exact hnew c hc (hci.trans heq)
    · show ∀ item ∈ items, ∃ p ∈ (pg.cancelActive userId actor now).providers, _
      rw [hcore.providers]
      exact ht.known
    · show ∀ i ∈ (pg.cancelActive userId actor now).items, _
      rw [Pg.cancelActive_items]
      exact hids.items

/-- A creation of what the database takes succeeds. -/
theorem Priorities.creates (h : Priorities pg) (ht : pg.Takes key userId items expiresAt)
    {r : Except RepoError UserPriorityDetails} {n : Nat}
    (htx : (createPriorityConfig key userId items expiresAt actor).transact pg now uuid =
      (r, pg', n)) (hids : pg.NewIds ((List.range n).map uuid)) : ∃ d, r = .ok d := by
  rcases createPriorityConfig_cases with ⟨-, hcreate⟩ | ⟨e, m, ⟨k, rfl, hnot⟩, hcreate⟩
  · exact ⟨_, (Prod.mk.inj (htx.symm.trans hcreate)).1⟩
  · obtain ⟨-, hrest⟩ := Prod.mk.inj (htx.symm.trans hcreate)
    obtain ⟨-, rfl⟩ := Prod.mk.inj hrest
    have hlength : (items.take k).length + 1 ≤ k + 1 :=
      Nat.succ_le_succ (List.length_take_le k items)
    exact absurd (h.admitsPriority (ht.take k)
      (hids.sublist ((List.range_sublist.mpr hlength).map uuid))) hnot
end

/-! ### Reading -/

/-- What a row is read as, joined with its provider. -/
def PriorityItemRow.item (row : PriorityItemRow) (p : Provider) : UserPriorityItem where
  id := row.id
  configId := row.configId
  providerId := row.providerId
  userLedgerAccountId := row.ledgerAccountId
  providerLedgerAccountId := p.ledgerAccountId
  priorityOrder := row.priorityOrder
  usageType := row.usageType
  maxAmount := row.maxAmount
  feeRateBps := p.feeRateBps
  fixedFeeAmount := p.fixedFeeAmount
  createdAt := row.createdAt
  updatedAt := row.updatedAt

/-- The items are these rows, each read with its provider. -/
def Pg.ReadAs (pg : Pg) (rows : List PriorityItemRow) (items : List UserPriorityItem) : Prop :=
  List.Forall₂ (fun row item => ∃ p ∈ pg.providers, p.id = row.providerId ∧ item = row.item p)
    rows items

/-- Rows and items agree in every column of both. -/
theorem Pg.ReadAs.map_eq {β : Type} {pg : Pg} {rows : List PriorityItemRow}
    {items : List UserPriorityItem} (h : pg.ReadAs rows items) {f : PriorityItemRow → β}
    {g : UserPriorityItem → β} (hfg : ∀ row p, g (row.item p) = f row) :
    items.map g = rows.map f := by
  have hcolumn : List.Forall₂ (fun row item => f row = g item) rows items := by
    refine List.Forall₂.imp (fun row item hrow => ?_) h
    obtain ⟨p, -, -, rfl⟩ := hrow
    exact (hfg row p).symm
  have heq : List.Forall₂ Eq (rows.map f) (items.map g) :=
    List.forall₂_map_left_iff.mpr (List.forall₂_map_right_iff.mpr hcolumn)
  rw [List.forall₂_eq_eq_eq] at heq
  exact heq.symm

/-- What is read is among the rows. -/
theorem Pg.ReadAs.mem {pg : Pg} {rows : List PriorityItemRow} {items : List UserPriorityItem}
    (h : pg.ReadAs rows items) {item : UserPriorityItem} (hitem : item ∈ items) :
    ∃ row ∈ rows, ∃ p ∈ pg.providers, item = row.item p := by
  induction h with
  | nil => cases hitem
  | cons hrow _ ih =>
      rcases List.mem_cons.mp hitem with rfl | hitem
      · obtain ⟨p, hp, -, heq⟩ := hrow
        exact ⟨_, List.mem_cons_self .., p, hp, heq⟩
      · obtain ⟨row, hmem, hrest⟩ := ih hitem
        exact ⟨row, List.mem_cons_of_mem _ hmem, hrest⟩

/-- A provider is joined once. -/
theorem filter_provider {providers : List Provider} (h : (providers.map (·.id)).Nodup)
    {p : Provider} (hp : p ∈ providers) :
    providers.filter (fun q => p.id = q.id) = [p] := by
  induction providers with
  | nil => cases hp
  | cons q qs ih =>
      rw [List.map_cons, List.nodup_cons] at h
      rcases List.mem_cons.mp hp with rfl | hp
      · have hrest : qs.filter (fun q => p.id = q.id) = [] := by
          refine List.filter_eq_nil_iff.mpr (fun q hq heq => h.1 ?_)
          have heq : p.id = q.id := by simpa using heq
          rw [heq]
          exact List.mem_map_of_mem hq
        rw [List.filter_cons_of_pos (by simp), hrest]
      · have hne : p.id ≠ q.id := fun heq => h.1 (heq ▸ List.mem_map_of_mem hp)
        rw [List.filter_cons_of_neg (by simpa using hne)]
        exact ih h.2 hp

/-- The join before it is sorted. -/
theorem readAs_join {pg : Pg} (hids : (pg.providers.map (·.id)).Nodup)
    {rows : List PriorityItemRow}
    (hrows : ∀ row ∈ rows, ∃ p ∈ pg.providers, p.id = row.providerId) :
    pg.ReadAs rows (rows.flatMap fun row =>
      (pg.providers.filter (fun p => row.providerId = p.id)).map row.item) := by
  induction rows with
  | nil => exact .nil
  | cons row rows ih =>
      obtain ⟨p, hp, hid⟩ := hrows row (List.mem_cons_self ..)
      rw [List.flatMap_cons, ← hid, filter_provider hids hp]
      exact .cons ⟨p, hp, hid, rfl⟩ (ih (fun row hrow => hrows row (List.mem_cons_of_mem _ hrow)))

theorem Numbered.ascending {rows : List PriorityItemRow} (h : Numbered rows) :
    rows.Pairwise (fun i j => i.priorityOrder < j.priorityOrder) := by
  have hmap : (rows.map (·.priorityOrder)).Pairwise (· < ·) := by
    rw [h.orders, List.pairwise_map]
    refine List.pairwise_lt_range.imp (fun {i j} hij => ?_)
    omega
  exact List.pairwise_map.mp hmap

/-- The rows of a configuration that are not deleted. -/
def Pg.liveRows (pg : Pg) (configId : Uuid) : List PriorityItemRow :=
  (pg.rowsOf configId).filter (fun i => i.isDeleted = false)

/-- **Reading a configuration** returns its rows that are not deleted, in their
order. -/
theorem Pg.readAs_itemsOf {pg : Pg} {configId : Uuid} (hids : (pg.providers.map (·.id)).Nodup)
    (hrows : ∀ row ∈ pg.liveRows configId, ∃ p ∈ pg.providers, p.id = row.providerId)
    (hascending : (pg.liveRows configId).Pairwise (fun i j => i.priorityOrder < j.priorityOrder)) :
    pg.ReadAs (pg.liveRows configId) (pg.itemsOf configId) ∧
      (pg.itemsOf configId).Pairwise (fun i j => i.priorityOrder < j.priorityOrder) := by
  have hread := readAs_join hids hrows
  obtain ⟨items, hitems⟩ : ∃ items, ((pg.liveRows configId).flatMap fun row =>
      (pg.providers.filter (fun p => row.providerId = p.id)).map row.item) = items := ⟨_, rfl⟩
  rw [hitems] at hread
  have hsorted : items.Pairwise (fun i j => i.priorityOrder < j.priorityOrder) := by
    have horders := hread.map_eq (f := (·.priorityOrder)) (g := (·.priorityOrder))
      (fun _ _ => rfl)
    have hlive : ((pg.liveRows configId).map (·.priorityOrder)).Pairwise (· < ·) :=
      List.pairwise_map.mpr hascending
    rw [← horders] at hlive
    exact List.pairwise_map.mp hlive
  have heq : pg.itemsOf configId = items := by
    have hfilter : pg.items.filter (fun i => i.configId = configId ∧ i.isDeleted = false) =
        pg.liveRows configId := by
      unfold Pg.liveRows Pg.rowsOf
      rw [List.filter_filter]
      refine List.filter_congr (fun i _ => ?_)
      simp [and_comm]
    have hunsorted : pg.itemsOf configId = items.insertionSort
        (fun a b => a.priorityOrder ≤ b.priorityOrder) := by
      unfold Pg.itemsOf
      rw [hfilter, ← hitems]
      rfl
    rw [hunsorted]
    exact List.Pairwise.insertionSort_eq (hsorted.imp (fun hlt => Int.le_of_lt hlt))
  rw [heq]
  exact ⟨hread, hsorted⟩

theorem Priorities.readAs_itemsOf {pg : Pg} (h : Priorities pg)
    (hids : (pg.providers.map (·.id)).Nodup) {c : UserPriorityConfig} (hc : c ∈ pg.configs) :
    pg.ReadAs (pg.liveRows c.id) (pg.itemsOf c.id) ∧
      (pg.itemsOf c.id).Pairwise (fun i j => i.priorityOrder < j.priorityOrder) := by
  refine Pg.readAs_itemsOf hids (fun row hrow => ?_) ?_
  · exact h.itemProvider row (List.mem_of_mem_filter (List.mem_of_mem_filter hrow))
  · exact (h.numbered c hc).ascending.sublist List.filter_sublist

theorem detailsOf_exec (configs : List UserPriorityConfig) (t : Tx) :
    (detailsOf configs).exec t = (.ok (configs.map (fun c => ⟨c, t.pg.itemsOf c.id⟩)), t) := by
  induction configs with
  | nil => rfl
  | cons c cs ih =>
      have hread : Repo.exec (query (.selectItems c.id) []) t = (.ok (t.pg.itemsOf c.id), t) := rfl
      unfold detailsOf
      rw [Repo.exec_bind_ok hread, Repo.exec_bind_ok ih]
      rfl

/-- `get_all_priority_configs` -/
theorem getAllPriorityConfigs_transact (userId : Uuid) (pg : Pg) (now : Timestamp)
    (uuid : Nat → Uuid) : (getAllPriorityConfigs userId).transact pg now uuid =
      (.ok ((pg.configsOf userId).map (fun c => ⟨c, pg.itemsOf c.id⟩)), pg, 0) := by
  rw [Repo.transact_reads (getAllPriorityConfigs_reads userId)]
  have hread : Repo.exec (query (.selectConfigs userId) []) (Tx.begin pg now uuid) =
      (.ok (pg.configsOf userId), Tx.begin pg now uuid) := rfl
  unfold getAllPriorityConfigs
  rw [Repo.exec_bind_ok hread, detailsOf_exec]
  rfl

/-! ### Which providers are named -/

/-- The configuration contains an item for the provider. -/
def Pg.Names (pg : Pg) (c : UserPriorityConfig) (providerId : Uuid) : Prop :=
  ∃ row ∈ pg.liveRows c.id, row.providerId = providerId

/-- Every configuration in force names the provider. -/
def Pg.OnlyNaming (pg : Pg) (userId providerId : Uuid) : Prop :=
  ∀ c ∈ pg.configs, c.userId = userId → c.status = .active → c.isDeleted = false →
    pg.Names c providerId

/-- No configuration in force names the provider. -/
def Pg.NoneNaming (pg : Pg) (userId providerId : Uuid) : Prop :=
  ∀ c ∈ pg.configs, c.userId = userId → c.status = .active → c.isDeleted = false →
    ¬ pg.Names c providerId

section

variable {pg pg' : Pg} {userId providerId : Uuid} {c : UserPriorityConfig}

theorem Pg.liveRows_congr (hitems : pg'.items = pg.items) (id : Uuid) :
    pg'.liveRows id = pg.liveRows id := by
  unfold liveRows rowsOf
  rw [hitems]

theorem Pg.Names.congr (hitems : pg'.items = pg.items) :
    pg'.Names c providerId ↔ pg.Names c providerId := by
  unfold Names
  rw [liveRows_congr hitems]

theorem Pg.OnlyNaming.congr (h : pg.OnlyNaming userId providerId)
    (hconfigs : pg'.configs = pg.configs) (hitems : pg'.items = pg.items) :
    pg'.OnlyNaming userId providerId := by
  intro c hc huser hactive hkept
  exact (Names.congr hitems).mpr (h c (hconfigs ▸ hc) huser hactive hkept)

theorem Pg.NoneNaming.congr (h : pg.NoneNaming userId providerId)
    (hconfigs : pg'.configs = pg.configs) (hitems : pg'.items = pg.items) :
    pg'.NoneNaming userId providerId := by
  intro c hc huser hactive hkept hnames
  exact h c (hconfigs ▸ hc) huser hactive hkept ((Names.congr hitems).mp hnames)

/-- What is read of a configuration names the providers that its rows name. -/
theorem Priorities.names_iff (h : Priorities pg) (hids : (pg.providers.map (·.id)).Nodup)
    (hc : c ∈ pg.configs) :
    pg.Names c providerId ↔
      (pg.itemsOf c.id).any (fun item => item.providerId = providerId) = true := by
  have hcolumn : (pg.itemsOf c.id).map (·.providerId) = (pg.liveRows c.id).map (·.providerId) :=
    (h.readAs_itemsOf hids hc).1.map_eq (fun _ _ => rfl)
  have hmem : pg.Names c providerId ↔ providerId ∈ (pg.liveRows c.id).map (·.providerId) :=
    List.mem_map.symm
  rw [hmem, ← hcolumn, List.mem_map, List.any_eq_true]
  simp only [decide_eq_true_eq]

/-- Two configurations in force for one user are the same. -/
theorem active_unique {configs : List UserPriorityConfig}
    (h : configs.Pairwise (fun c d => c.userId = d.userId → c.status = .active → d.status ≠ .active))
    {c d : UserPriorityConfig} (hc : c ∈ configs) (hd : d ∈ configs) (huser : c.userId = d.userId)
    (hcactive : c.status = .active) (hdactive : d.status = .active) : c = d := by
  have hpairs := List.pairwise_iff_getElem.mp h
  obtain ⟨i, hi, rfl⟩ := List.getElem_of_mem hc
  obtain ⟨j, hj, rfl⟩ := List.getElem_of_mem hd
  rcases Nat.lt_trichotomy i j with hlt | rfl | hgt
  · exact absurd hdactive (hpairs i j hi hj hlt huser hcactive)
  · rfl
  · exact absurd hcactive (hpairs j i hj hi hgt huser.symm hdactive)

theorem Priorities.active_unique (h : Priorities pg) {c d : UserPriorityConfig}
    (hc : c ∈ pg.configs) (hd : d ∈ pg.configs) (huser : c.userId = d.userId)
    (hcactive : c.status = .active) (hdactive : d.status = .active) : c = d :=
  Db.active_unique h.oneActive hc hd huser hcactive hdactive

/-- The configuration in force that was read decides for all. -/
theorem Priorities.naming_of_activeDetails (h : Priorities pg)
    (hids : (pg.providers.map (·.id)).Nodup) {d : UserPriorityDetails}
    (hd : pg.activeDetails? userId = some d) :
    if d.items.any (fun item => item.providerId = providerId) = true
    then pg.OnlyNaming userId providerId else pg.NoneNaming userId providerId := by
  obtain ⟨c, hfind, rfl⟩ := Option.map_eq_some_iff.mp hd
  have hc := List.mem_of_find?_eq_some hfind
  have hcurrent : c.userId = userId ∧ c.status = .active ∧ c.isDeleted = false := by
    simpa [Pg.isCurrent] using List.find?_some hfind
  have hsame : ∀ d ∈ pg.configs, d.userId = userId → d.status = .active → d = c :=
    fun d hmem huser hactive =>
      h.active_unique hmem hc (huser.trans hcurrent.1.symm) hactive hcurrent.2.1
  split
  · next hany =>
      intro d hmem huser hactive _
      rw [hsame d hmem huser hactive]
      exact (h.names_iff hids hc).mpr hany
  · next hany =>
      intro d hmem huser hactive _ hnames
      rw [hsame d hmem huser hactive] at hnames
      exact hany ((h.names_iff hids hc).mp hnames)

theorem Pg.noneNaming_of_idle (h : ∀ c ∈ pg.configs, c.userId = userId → c.status ≠ .active) :
    pg.NoneNaming userId providerId :=
  fun c hc huser hactive => absurd hactive (h c hc huser)

theorem Pg.onlyNaming_of_idle (h : ∀ c ∈ pg.configs, c.userId = userId → c.status ≠ .active) :
    pg.OnlyNaming userId providerId :=
  fun c hc huser hactive => absurd hactive (h c hc huser)

theorem Priorities.noneNaming_of_activeDetails (h : Priorities pg)
    (hd : pg.activeDetails? userId = none) : pg.NoneNaming userId providerId := by
  refine Pg.noneNaming_of_idle (fun c hc huser hactive => ?_)
  have hnone := List.filter_eq_nil_iff.mp (Pg.activeDetails?_eq_none.mp hd) c hc
  simp [Pg.isCurrent, huser, hactive, h.kept c hc] at hnone

/-- A creation decides by its items. -/
theorem Priorities.naming_of_addPriority (h : Priorities pg) {now : Timestamp}
    {uuid : Nat → Uuid} {key : String} {actor : Uuid} {items : List PriorityItemData}
    {expiresAt : Option Timestamp}
    (hadm : pg.AdmitsPriority now uuid key userId actor items expiresAt) :
    if items.any (fun item => item.providerId = providerId) = true
    then (pg.addPriority now uuid key userId actor items expiresAt).OnlyNaming userId providerId
    else (pg.addPriority now uuid key userId actor items expiresAt).NoneNaming userId
      providerId := by
  obtain ⟨-, -, hrows⟩ := h.addPriority hadm
  have hnew : ∀ c ∈ (pg.addPriority now uuid key userId actor items expiresAt).configs,
      c.userId = userId → c.status = .active → c.id = uuid 0 := by
    intro c hc huser hactive
    rcases List.mem_append.mp (Pg.withPriority_configs .. ▸ hc) with hc | hc
    · exact absurd hactive (h.noActive c hc huser)
    · rw [List.mem_singleton.mp hc]
      rfl
  have hnames : ∀ c : UserPriorityConfig, c.id = uuid 0 →
      ((pg.addPriority now uuid key userId actor items expiresAt).Names c providerId ↔
        items.any (fun item => item.providerId = providerId) = true) := by
    intro c hid
    unfold Pg.Names Pg.liveRows
    rw [hid, hrows, List.filter_eq_self.mpr (fun row hrow => by simp [(mem_itemRows hrow).2]),
      List.any_eq_true]
    constructor
    · rintro ⟨row, hrow, rfl⟩
      rw [itemRows_eq] at hrow
      obtain ⟨x, hx, rfl⟩ := List.mem_map.mp hrow
      exact ⟨x.1, List.fst_mem_of_mem_zipIdx hx, by simp [itemRow]⟩
    · rintro ⟨item, hitem, hp⟩
      obtain ⟨i, hi, rfl⟩ := List.getElem_of_mem hitem
      have hi' : i < (itemRows (uuid 0) now uuid 0 items).length := by rwa [itemRows_length]
      refine ⟨(itemRows (uuid 0) now uuid 0 items)[i], List.getElem_mem hi', ?_⟩
      rw [itemRows_getElem hi]
      simpa [itemRow] using hp
  split
  · next hany =>
      exact fun c hc huser hactive _ => (hnames c (hnew c hc huser hactive)).mpr hany
  · next hany =>
      exact fun c hc huser hactive _ hn => hany ((hnames c (hnew c hc huser hactive)).mp hn)

end

end Wurzburg.Db
