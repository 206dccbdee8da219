import Wurzburg.Db.PrioritySpec
import Wurzburg.Db.Tables

/-!
# Wurzburg.Db.PriorityRows

The rows of a priority: which of them the constraints let
`create_priority_config` insert, what it leaves behind, and what reading the
items of a configuration returns.

`Pg.AdmitsPriority` is the exact condition under which a creation succeeds.
-/

namespace Wurzburg.Db

open Wurzburg.Lib

/-! ### The rows of a creation -/

/-- The configuration that `create_priority_config` inserts. -/
def newConfig (id userId : Uuid) (key : String) (expiresAt : Option Timestamp) (now : Timestamp) :
    UserPriorityConfig :=
  ⟨id, userId, key, .active, expiresAt, false, none, now, now⟩

/-- The row of the item at an index. -/
def itemRow (configId : Uuid) (now : Timestamp) (id : Uuid) (index : Nat)
    (item : PriorityItemData) : PriorityItemRow :=
  ⟨id, configId, item.providerId, item.userLedgerAccountId, asI32 (index + 1), item.usageType,
   item.maxAmount, false, none, now, now⟩

/-- The rows of the items from `index` on. The first UUID is the configuration's. -/
def itemRows (configId : Uuid) (now : Timestamp) (uuid : Nat → Uuid) :
    Nat → List PriorityItemData → List PriorityItemRow
  | _, [] => []
  | index, item :: items =>
      itemRow configId now (uuid (index + 1)) index item ::
        itemRows configId now uuid (index + 1) items

def Pg.addConfig (pg : Pg) (actor : Uuid) (c : UserPriorityConfig) : Pg :=
  ({ pg with configs := pg.configs ++ [c] } : Pg).log
    [⟨"user_priority_configs", c.id, actor, .insert⟩]

def Pg.addItem (pg : Pg) (actor : Uuid) (row : PriorityItemRow) : Pg :=
  ({ pg with items := pg.items ++ [row] } : Pg).log
    [⟨"user_priority_items", row.id, actor, .insert⟩]

def Pg.addItems (pg : Pg) (actor : Uuid) (rows : List PriorityItemRow) : Pg :=
  rows.foldl (fun pg row => pg.addItem actor row) pg

theorem Pg.addItems_cons (pg : Pg) (actor : Uuid) (row : PriorityItemRow)
    (rows : List PriorityItemRow) :
    pg.addItems actor (row :: rows) = (pg.addItem actor row).addItems actor rows := rfl

theorem Pg.addItems_items (pg : Pg) (actor : Uuid) (rows : List PriorityItemRow) :
    (pg.addItems actor rows).items = pg.items ++ rows := by
  induction rows generalizing pg with
  | nil => exact (List.append_nil _).symm
  | cons row rows ih =>
      rw [addItems_cons, ih]
      show (pg.items ++ [row]) ++ rows = _
      rw [List.append_assoc]
      rfl

theorem Pg.addItems_configs (pg : Pg) (actor : Uuid) (rows : List PriorityItemRow) :
    (pg.addItems actor rows).configs = pg.configs := by
  induction rows generalizing pg with
  | nil => rfl
  | cons row rows ih =>
      rw [addItems_cons, ih]
      rfl

theorem Pg.addItems_providers (pg : Pg) (actor : Uuid) (rows : List PriorityItemRow) :
    (pg.addItems actor rows).providers = pg.providers := by
  induction rows generalizing pg with
  | nil => rfl
  | cons row rows ih =>
      rw [addItems_cons, ih]
      rfl

theorem Pg.addItems_userAccounts (pg : Pg) (actor : Uuid) (rows : List PriorityItemRow) :
    (pg.addItems actor rows).userAccounts = pg.userAccounts := by
  induction rows generalizing pg with
  | nil => rfl
  | cons row rows ih =>
      rw [addItems_cons, ih]
      rfl

/-! ### What the constraints ask -/

/-- What the constraints ask of a new configuration. -/
structure Pg.AdmitsConfig (pg : Pg) (c : UserPriorityConfig) : Prop where
  expiry : c.expiresAt.all timestampOk = true
  key : varcharOk 255 c.idempotencyKey = true
  newId : ∀ d ∈ pg.configs, d.id ≠ c.id
  newKey : ∀ d ∈ pg.configs, d.idempotencyKey ≠ c.idempotencyKey
  noActive : ∀ d ∈ pg.configs, d.userId = c.userId → d.status ≠ .active
  user : ∃ u ∈ pg.users, u.id = c.userId

/-- The unique indexes let both rows be in the table. -/
def PriorityItemRow.Compatible (a b : PriorityItemRow) : Prop :=
  a.id ≠ b.id ∧
    (a.configId = b.configId → a.providerId ≠ b.providerId ∧ a.priorityOrder ≠ b.priorityOrder)

/-- What the constraints ask of a new item. -/
structure Pg.AdmitsItem (pg : Pg) (row : PriorityItemRow) : Prop where
  order : 0 < row.priorityOrder
  amount : 0 ≤ row.maxAmount
  unique : ∀ j ∈ pg.items, j.Compatible row
  config : ∃ c ∈ pg.configs, c.id = row.configId
  provider : ∃ p ∈ pg.providers, p.id = row.providerId

/-- What the constraints ask of new items, one after the other. -/
def Pg.AdmitsItems (pg : Pg) (rows : List PriorityItemRow) : Prop :=
  (∀ row ∈ rows, pg.AdmitsItem row) ∧ rows.Pairwise PriorityItemRow.Compatible

theorem Pg.admitsItem_addItem {pg : Pg} {actor : Uuid} {row row' : PriorityItemRow} :
    (pg.addItem actor row).AdmitsItem row' ↔ pg.AdmitsItem row' ∧ row.Compatible row' := by
  constructor
  · intro ⟨h₁, h₂, h₃, h₄, h₅⟩
    refine ⟨⟨h₁, h₂, fun j hj => h₃ j (List.mem_append_left _ hj), h₄, h₅⟩, ?_⟩
    exact h₃ row (List.mem_append_right _ (List.mem_singleton_self _))
  · intro ⟨⟨h₁, h₂, h₃, h₄, h₅⟩, hc⟩
    refine ⟨h₁, h₂, fun j hj => ?_, h₄, h₅⟩
    rcases List.mem_append.mp hj with hj | hj
    · exact h₃ j hj
    · rw [List.mem_singleton.mp hj]
      exact hc

theorem Pg.admitsItems_cons {pg : Pg} (actor : Uuid) {row : PriorityItemRow}
    {rows : List PriorityItemRow} :
    pg.AdmitsItems (row :: rows) ↔
      pg.AdmitsItem row ∧ (pg.addItem actor row).AdmitsItems rows := by
  unfold AdmitsItems
  rw [List.forall_mem_cons, List.pairwise_cons]
  constructor
  · intro ⟨⟨hrow, hrows⟩, hnew, hpairs⟩
    exact ⟨hrow, fun r hr => admitsItem_addItem.mpr ⟨hrows r hr, hnew r hr⟩, hpairs⟩
  · intro ⟨hrow, hrows, hpairs⟩
    exact ⟨⟨hrow, fun r hr => (admitsItem_addItem.mp (hrows r hr)).1⟩,
      fun r hr => (admitsItem_addItem.mp (hrows r hr)).2, hpairs⟩

/-- The constraints let `create_priority_config` insert its rows. -/
structure Pg.AdmitsPriority (pg : Pg) (now : Timestamp) (uuid : Nat → Uuid) (key : String)
    (userId actor : Uuid) (items : List PriorityItemData) (expiresAt : Option Timestamp) :
    Prop where
  config : (pg.cancelActive userId actor now).AdmitsConfig
    (newConfig (uuid 0) userId key expiresAt now)
  items : ((pg.cancelActive userId actor now).addConfig actor
    (newConfig (uuid 0) userId key expiresAt now)).AdmitsItems (itemRows (uuid 0) now uuid 0 items)

/-- A creation that was refused stopped after `n` UUIDs, at a row that the constraints
do not let in. -/
def Pg.RefusesAt (pg : Pg) (now : Timestamp) (uuid : Nat → Uuid) (key : String)
    (userId actor : Uuid) (items : List PriorityItemData) (expiresAt : Option Timestamp)
    (n : Nat) : Prop :=
  ∃ k, n = k + 1 ∧ ¬ pg.AdmitsPriority now uuid key userId actor (items.take k) expiresAt

theorem itemRows_take (configId : Uuid) (now : Timestamp) (uuid : Nat → Uuid) (index k : Nat)
    (items : List PriorityItemData) :
    itemRows configId now uuid index (items.take k) =
      (itemRows configId now uuid index items).take k := by
  induction items generalizing index k with
  | nil => simp [itemRows]
  | cons item items ih =>
      cases k with
      | zero => rfl
      | succ k => rw [List.take_succ_cons, itemRows, itemRows, ih, List.take_succ_cons]

/-- What is refused at some row is not admitted. -/
theorem Pg.RefusesAt.not_admits {pg : Pg} {now : Timestamp} {uuid : Nat → Uuid} {key : String}
    {userId actor : Uuid} {items : List PriorityItemData} {expiresAt : Option Timestamp} {n : Nat}
    (h : pg.RefusesAt now uuid key userId actor items expiresAt n) :
    ¬ pg.AdmitsPriority now uuid key userId actor items expiresAt := by
  intro ⟨hconfig, hrows, hpairs⟩
  obtain ⟨k, -, hnot⟩ := h
  refine hnot ⟨hconfig, ?_⟩
  rw [itemRows_take]
  exact ⟨fun row hrow => hrows row (List.mem_of_mem_take hrow),
    hpairs.sublist (List.take_sublist _ _)⟩

/-- The database after a creation. -/
def Pg.addPriority (pg : Pg) (now : Timestamp) (uuid : Nat → Uuid) (key : String)
    (userId actor : Uuid) (items : List PriorityItemData) (expiresAt : Option Timestamp) : Pg :=
  ((pg.cancelActive userId actor now).addConfig actor
    (newConfig (uuid 0) userId key expiresAt now)).addItems actor (itemRows (uuid 0) now uuid 0 items)

/-! ### The statements -/

/-- The checks on a new configuration. -/
theorem Tx.insertConfig_cases {t : Tx} {actor : Uuid} (userId : Uuid) (key : String)
    (expiresAt : Option Timestamp) (ha : t.actor = some actor) :
    (t.pg.AdmitsConfig (newConfig t.fresh userId key expiresAt t.now) ∧
      t.insertConfig userId key expiresAt = (.ok (newConfig t.fresh userId key expiresAt t.now),
        { t.draw with pg := t.pg.addConfig actor (newConfig t.fresh userId key expiresAt t.now) })) ∨
    (¬ t.pg.AdmitsConfig (newConfig t.fresh userId key expiresAt t.now) ∧
      ∃ e, t.insertConfig userId key expiresAt = (.error e, t.draw)) := by
  cases hins : t.insertConfig userId key expiresAt with
  | mk r t' =>
      simp only [insertConfig] at hins
      rcases write_cases hins with ⟨e, rfl, rfl⟩ | ⟨a, rfl, ha', hc, rfl⟩
      · refine Or.inr ⟨fun h => ?_, e, rfl⟩
        rw [write_ok (t := t.draw) ha ?_] at hins
        · simp at hins
        · obtain ⟨h₀, h₁, h₂, h₃, h₄, u, hu, hu'⟩ := h
          simp only [List.forall_mem_cons, List.not_mem_nil, false_implies, implies_true, and_true,
            List.any_eq_false, Bool.not_eq_false', List.any_eq_true, decide_eq_true_eq]
          exact ⟨h₀, h₁, h₂, h₃, fun d hd h => h₄ d hd h.1 h.2, u, hu, hu'⟩
      · obtain rfl : actor = a := Option.some.inj (ha.symm.trans ha')
        simp only [List.forall_mem_cons, List.not_mem_nil, false_implies, implies_true, and_true,
          List.any_eq_false, Bool.not_eq_false', List.any_eq_true, decide_eq_true_eq] at hc
        obtain ⟨h₀, h₁, h₂, h₃, h₄, h₅⟩ := hc
        exact Or.inl ⟨⟨h₀, h₁, h₂, h₃, fun d hd hu ha => h₄ d hd ⟨hu, ha⟩, h₅⟩, rfl⟩

theorem Repo.exec_query_error {s : Sql} {contexts : List String} {t t' : Tx} {e : SqlError}
    (h : Sql.exec s t = (.error e, t')) :
    exec (query s contexts) t = (.error ⟨contexts, e⟩, t') := by
  rw [exec_query, h]
  rfl

/-- The row that `INSERT INTO user_priority_items` adds. -/
def priorityItemRow (id : Uuid) (now : Timestamp) (new : NewPriorityItem) : PriorityItemRow :=
  ⟨id, new.configId, new.providerId, new.ledgerAccountId, new.priorityOrder, new.usageType,
   new.maxAmount, false, none, now, now⟩

/-- The checks on a new item. -/
theorem Tx.insertItem_cases {t : Tx} {actor : Uuid} (new : NewPriorityItem)
    (ha : t.actor = some actor) :
    (t.pg.AdmitsItem (priorityItemRow t.fresh t.now new) ∧
      t.insertItem new = (.ok (),
        { t.draw with pg := t.pg.addItem actor (priorityItemRow t.fresh t.now new) })) ∨
    (¬ t.pg.AdmitsItem (priorityItemRow t.fresh t.now new) ∧
      ∃ e, t.insertItem new = (.error e, t.draw)) := by
  cases hins : t.insertItem new with
  | mk r t' =>
      simp only [insertItem] at hins
      rcases write_cases hins with ⟨e, rfl, rfl⟩ | ⟨a, rfl, ha', hc, rfl⟩
      · refine Or.inr ⟨fun h => ?_, e, rfl⟩
        rw [write_ok (t := t.draw) ha ?_] at hins
        · simp at hins
        · obtain ⟨h₁, h₂, h₃, ⟨c, hc, hc'⟩, p, hp, hp'⟩ := h
          simp only [List.forall_mem_cons, List.not_mem_nil, false_implies, implies_true, and_true,
            List.any_eq_false, Bool.not_eq_false', List.any_eq_true, decide_eq_true_eq,
            decide_eq_false_iff_not, not_le, not_lt, not_and]
          exact ⟨h₁, h₂, fun j hj => (h₃ j hj).1, fun j hj hc => ((h₃ j hj).2 hc).1,
            fun j hj hc => ((h₃ j hj).2 hc).2, ⟨c, hc, hc'⟩, p, hp, hp'⟩
      · obtain rfl : actor = a := Option.some.inj (ha.symm.trans ha')
        simp only [List.forall_mem_cons, List.not_mem_nil, false_implies, implies_true, and_true,
          List.any_eq_false, Bool.not_eq_false', List.any_eq_true, decide_eq_true_eq,
          decide_eq_false_iff_not, not_le, not_lt, not_and] at hc
        obtain ⟨h₁, h₂, h₃, h₄, h₅, h₆, h₇⟩ := hc
        exact Or.inl ⟨⟨h₁, h₂, fun j hj => ⟨h₃ j hj, fun hc => ⟨h₄ j hj hc, h₅ j hj hc⟩⟩, h₆, h₇⟩,
          rfl⟩

/-- What the items loop inserts for the item at an index. -/
def newItem (configId : Uuid) (index : Nat) (item : PriorityItemData) : NewPriorityItem :=
  ⟨configId, item.providerId, item.userLedgerAccountId, asI32 (index + 1), item.usageType,
   item.maxAmount⟩

theorem priorityItemRow_newItem (id : Uuid) (now : Timestamp) (configId : Uuid) (index : Nat)
    (item : PriorityItemData) :
    priorityItemRow id now (newItem configId index item) = itemRow configId now id index item := by
  simp only [priorityItemRow, newItem, itemRow]

/-- One round of the items loop that inserts its row. -/
theorem insertItems_cons_ok {configId : Uuid} {index : Nat} {item : PriorityItemData}
    {items : List PriorityItemData} {t t' : Tx}
    (h : t.insertItem (newItem configId index item) = (.ok (), t')) :
    (insertItems configId index (item :: items)).exec t =
      (insertItems configId (index + 1) items).exec t' := by
  have hexec : Sql.exec (.insertItem (newItem configId index item)) t = (.ok (), t') := h
  exact Repo.exec_bind_ok (Repo.exec_query_ok hexec)

/-- One round of the items loop whose row is refused. -/
theorem insertItems_cons_error {configId : Uuid} {index : Nat} {item : PriorityItemData}
    (items : List PriorityItemData) {t t' : Tx} {e : SqlError}
    (h : t.insertItem (newItem configId index item) = (.error e, t')) :
    ∃ e', (insertItems configId index (item :: items)).exec t = (.error e', t') := by
  have hexec : Sql.exec (.insertItem (newItem configId index item)) t = (.error e, t') := h
  exact ⟨_, Repo.exec_bind_error (Repo.exec_query_error hexec)⟩

/-- The items loop inserts every row, or stops at the first one the constraints
refuse. -/
theorem insertItems_cases (configId : Uuid) {actor : Uuid} (items : List PriorityItemData)
    (index : Nat) {t : Tx} (ha : t.actor = some actor) (hd : t.drawn = index + 1) :
    (t.pg.AdmitsItems (itemRows configId t.now t.uuid index items) ∧
      (insertItems configId index items).exec t = (.ok (),
        { t with pg := t.pg.addItems actor (itemRows configId t.now t.uuid index items)
                 drawn := t.drawn + items.length })) ∨
    ∃ k e t', ¬ t.pg.AdmitsItems (itemRows configId t.now t.uuid index (items.take k)) ∧
      (insertItems configId index items).exec t = (.error e, t') ∧ t'.base = t.base ∧
      t'.drawn = t.drawn + k := by
  induction items generalizing index t with
  | nil => exact Or.inl ⟨⟨by simp [itemRows], .nil⟩, rfl⟩
  | cons item items ih =>
      have hrow : priorityItemRow t.fresh t.now (newItem configId index item) =
          itemRow configId t.now (t.uuid (index + 1)) index item := by
        rw [priorityItemRow_newItem, Tx.fresh, hd]
      unfold itemRows
      rw [Pg.admitsItems_cons actor]
      rcases Tx.insertItem_cases (newItem configId index item) ha with
        ⟨hadm, hins⟩ | ⟨hnot, e, hins⟩
      · rw [hrow] at hadm hins
        rw [insertItems_cons_ok hins]
        have hdrawn : t.drawn + 1 = index + 1 + 1 := by rw [hd]
        rcases ih (index + 1) (t := { t.draw with
            pg := t.pg.addItem actor (itemRow configId t.now (t.uuid (index + 1)) index item) })
          ha hdrawn with ⟨hadms, hx⟩ | ⟨k, e, t', hnot, hx, hbase, hdrawn'⟩
        · refine Or.inl ⟨⟨hadm, hadms⟩, hx.trans ?_⟩
          have hlength : t.draw.drawn + items.length = t.drawn + (items.length + 1) := by
            show t.drawn + 1 + items.length = _
            omega
          simp only [Pg.addItems_cons, List.length_cons, hlength]
          rfl
        · refine Or.inr ⟨k + 1, e, t', ?_, hx, hbase, ?_⟩
          · rw [List.take_succ_cons]
            exact fun h => hnot ((Pg.admitsItems_cons actor).mp h).2
          · have hdraw : t'.drawn = t.drawn + 1 + k := hdrawn'
            omega
      · rw [hrow] at hnot
        obtain ⟨e', hx⟩ := insertItems_cons_error items hins
        refine Or.inr ⟨1, e', t.draw, ?_, hx, rfl, rfl⟩
        rw [List.take_succ_cons]
        exact fun h => hnot ((Pg.admitsItems_cons actor).mp h).1

section

variable {pg : Pg} {now : Timestamp} {uuid : Nat → Uuid} {key : String} {userId actor : Uuid}
  {items : List PriorityItemData} {expiresAt : Option Timestamp}

/-- The creation's run up to the first insertion. -/
theorem createPriorityConfig_exec :
    (createPriorityConfig key userId items expiresAt actor).exec (Tx.begin pg now uuid) =
      Repo.exec (do
        let newConfig ← query (.insertConfig userId key expiresAt)
          ["Failed to create new priority config"]
        insertItems newConfig.id 0 items
        let createdItems ← query (.selectItems newConfig.id)
          ["Failed to fetch created priority items with ledger IDs"]
        query .commit ["Failed to commit transaction"]
        return (⟨newConfig, createdItems⟩ : UserPriorityDetails))
        ⟨pg, pg.cancelActive userId actor now, some actor, now, uuid, 0⟩ := by
  have hset : Repo.exec (query (.setActor actor) ["Failed to set actor_id for audit log"])
      (Tx.begin pg now uuid) = (.ok (), (Tx.begin pg now uuid).asActor actor) := rfl
  have hcancel : Sql.exec (.cancelActiveConfig userId) ((Tx.begin pg now uuid).asActor actor) = _ :=
    Tx.cancelActiveConfig_eq rfl
  unfold createPriorityConfig
  rw [Repo.exec_bind_ok hset, Repo.exec_bind_ok (Repo.exec_query_ok hcancel)]
  rfl

/-- **A creation succeeds exactly where the constraints allow its rows**, and then
leaves exactly these behind; otherwise it stops at one that they refuse. -/
theorem createPriorityConfig_cases :
    (pg.AdmitsPriority now uuid key userId actor items expiresAt ∧
      (createPriorityConfig key userId items expiresAt actor).transact pg now uuid =
        (.ok ⟨newConfig (uuid 0) userId key expiresAt now,
            (pg.addPriority now uuid key userId actor items expiresAt).itemsOf (uuid 0)⟩,
          pg.addPriority now uuid key userId actor items expiresAt, items.length + 1)) ∨
    ∃ e n, pg.RefusesAt now uuid key userId actor items expiresAt n ∧
      (createPriorityConfig key userId items expiresAt actor).transact pg now uuid =
        (.error e, pg, n) := by
  obtain ⟨c, hc⟩ : ∃ c, newConfig (uuid 0) userId key expiresAt now = c := ⟨_, rfl⟩
  obtain ⟨pg₁, hpg₁⟩ : ∃ pg₁, pg.cancelActive userId actor now = pg₁ := ⟨_, rfl⟩
  have hid : c.id = uuid 0 := by rw [← hc]; rfl
  unfold Repo.transact
  rw [createPriorityConfig_exec, hpg₁]
  rcases Tx.insertConfig_cases (t := ⟨pg, pg₁, some actor, now, uuid, 0⟩) userId key expiresAt rfl with
    ⟨hadm, hins⟩ | ⟨hnot, e, hins⟩
  · have hexec : Sql.exec (.insertConfig userId key expiresAt)
        ⟨pg, pg₁, some actor, now, uuid, 0⟩ =
        (.ok c, ⟨pg, pg₁.addConfig actor c, some actor, now, uuid, 1⟩) := hc ▸ hins
    rw [Repo.exec_bind_ok (Repo.exec_query_ok hexec), hid]
    rcases insertItems_cases (uuid 0) items 0
      (t := ⟨pg, pg₁.addConfig actor c, some actor, now, uuid, 1⟩) rfl rfl with
      ⟨hadms, hx⟩ | ⟨k, e, t', hnots, hx, hbase, hdrawn⟩
    · refine Or.inl ⟨⟨hpg₁ ▸ hadm, by rw [hpg₁, hc]; exact hadms⟩, ?_⟩
      rw [Repo.exec_bind_ok hx, Nat.add_comm items.length]
      unfold Pg.addPriority
      rw [hpg₁, hc]
      rfl
    · refine Or.inr ⟨e, t'.drawn, ⟨k, hdrawn.trans (Nat.add_comm 1 k), fun h => hnots ?_⟩, ?_⟩
      · have := h.items
        rw [hpg₁, hc] at this
        exact this
      · rw [Repo.exec_bind_error hx]
        exact Prod.ext rfl (Prod.ext hbase rfl)
  · have hexec : Sql.exec (.insertConfig userId key expiresAt)
        ⟨pg, pg₁, some actor, now, uuid, 0⟩ =
        (.error e, ⟨pg, pg₁, some actor, now, uuid, 1⟩) := hins
    refine Or.inr ⟨⟨["Failed to create new priority config"], e⟩, 1,
      ⟨0, rfl, fun h => hnot (hpg₁ ▸ h.config)⟩, ?_⟩
    rw [Repo.exec_bind_error (Repo.exec_query_error hexec)]

end

end Wurzburg.Db
