import Wurzburg.Db.RepositorySpec

/-!
# Wurzburg.Db.PrioritySpec

What the repository methods on priorities do to the configuration in force.
`Pg.activeDetails?` is that configuration with its items; cancelling leaves
none, and creating leaves the one that is returned.
-/

namespace Wurzburg.Db

open Wurzburg.Lib

/-- The configuration in force, with its items. -/
def Pg.activeDetails? (pg : Pg) (userId : Uuid) : Option UserPriorityDetails :=
  (pg.activeConfig? userId).map (fun c => ⟨c, pg.itemsOf c.id⟩)

/-- The tables the configuration in force is read from are the same. -/
structure Pg.SamePriorities (pg pg' : Pg) : Prop where
  configs : pg'.configs = pg.configs
  items : pg'.items = pg.items
  providers : pg'.providers = pg.providers

theorem Pg.SamePriorities.refl (pg : Pg) : Pg.SamePriorities pg pg := ⟨rfl, rfl, rfl⟩

theorem Pg.SamePriorities.activeDetails? {pg pg' : Pg} (h : Pg.SamePriorities pg pg') (u : Uuid) :
    pg'.activeDetails? u = pg.activeDetails? u := by
  unfold Pg.activeDetails? Pg.activeConfig? Pg.itemsOf
  rw [h.configs, h.items, h.providers]

/-- What a configuration becomes when it is cancelled. -/
def UserPriorityConfig.cancel (now : Timestamp) (c : UserPriorityConfig) : UserPriorityConfig :=
  { c with status := .cancelled, updatedAt := now }

/-- The database after the configuration in force was cancelled. -/
def Pg.cancelActive (pg : Pg) (userId actor : Uuid) (now : Timestamp) : Pg :=
  if (pg.configs.filter (Pg.isCurrent userId)).isEmpty then pg
  else ({ pg with
      configs := pg.configs.map (fun c =>
        if Pg.isCurrent userId c then c.cancel now else c) } : Pg).log
    ((pg.configs.filter (Pg.isCurrent userId)).map
      (fun c => ⟨"user_priority_configs", c.id, actor, .update⟩))

theorem Pg.itemsOf_cancelActive (pg : Pg) (userId actor : Uuid) (now : Timestamp) (id : Uuid) :
    (pg.cancelActive userId actor now).itemsOf id = pg.itemsOf id := by
  unfold Pg.cancelActive
  split
  · rfl
  · rfl

theorem Pg.activeConfig?_eq_none {pg : Pg} {userId : Uuid} :
    pg.activeConfig? userId = none ↔ pg.configs.filter (Pg.isCurrent userId) = [] := by
  unfold Pg.activeConfig?
  rw [List.find?_eq_none, List.filter_eq_nil_iff]

theorem Pg.activeDetails?_eq_none {pg : Pg} {userId : Uuid} :
    pg.activeDetails? userId = none ↔ pg.configs.filter (Pg.isCurrent userId) = [] := by
  unfold Pg.activeDetails?
  rw [Option.map_eq_none_iff, Pg.activeConfig?_eq_none]

/-- Nothing is in force after a cancellation. -/
theorem Pg.activeDetails?_cancelActive (pg : Pg) (userId actor : Uuid) (now : Timestamp) :
    (pg.cancelActive userId actor now).activeDetails? userId = none := by
  rw [Pg.activeDetails?_eq_none]
  unfold Pg.cancelActive
  split
  · next h => exact List.isEmpty_iff.mp h
  · rw [Pg.log_configs, List.filter_eq_nil_iff]
    intro c hc
    obtain ⟨b, -, rfl⟩ := List.mem_map.mp hc
    by_cases hb : Pg.isCurrent userId b = true
    · rw [if_pos hb]
      simp [Pg.isCurrent, UserPriorityConfig.cancel]
    · rw [if_neg hb]
      exact hb

section

variable {pg : Pg} {now : Timestamp} {uuid : Nat → Uuid} {userId actor : Uuid}

theorem getActivePriorityConfig_transact (userId : Uuid) (pg : Pg) (now : Timestamp)
    (uuid : Nat → Uuid) : (getActivePriorityConfig userId).transact pg now uuid =
      (.ok (pg.activeDetails? userId), pg, 0) := by
  rw [Repo.transact_reads (getActivePriorityConfig_reads userId)]
  have hread : Repo.exec (query (.selectActiveConfig userId) []) (Tx.begin pg now uuid) =
      (.ok (pg.activeConfig? userId), Tx.begin pg now uuid) := rfl
  unfold getActivePriorityConfig Pg.activeDetails?
  rw [Repo.exec_bind_ok hread]
  cases pg.activeConfig? userId with
  | none => rfl
  | some c => rfl

theorem getPriorityConfigByIdempotencyKey_transact (key : String) (pg : Pg) (now : Timestamp)
    (uuid : Nat → Uuid) : (getPriorityConfigByIdempotencyKey key).transact pg now uuid =
      (.ok ((pg.configByKey? key).map (fun c => ⟨c, pg.itemsOf c.id⟩)), pg, 0) := by
  rw [Repo.transact_reads (getPriorityConfigByIdempotencyKey_reads key)]
  have hread : Repo.exec (query (.selectConfigByKey key) []) (Tx.begin pg now uuid) =
      (.ok (pg.configByKey? key), Tx.begin pg now uuid) := rfl
  unfold getPriorityConfigByIdempotencyKey
  rw [Repo.exec_bind_ok hread]
  cases pg.configByKey? key with
  | none => rfl
  | some c => rfl

/-- The cancelling statement, under an actor. -/
theorem Tx.cancelActiveConfig_eq {t : Tx} (ha : t.actor = some actor) :
    t.cancelActiveConfig userId =
      (.ok ((t.pg.configs.filter (Pg.isCurrent userId)).head?.map (·.cancel t.now)),
        { t with pg := t.pg.cancelActive userId actor t.now }) := by
  unfold Tx.cancelActiveConfig Tx.update Pg.cancelActive
  simp only [List.isEmpty_map]
  split
  · next hnone =>
      rw [List.isEmpty_iff.mp hnone]
      rfl
  · rw [Tx.write_ok ha (by simp), List.head?_map, List.map_map]
    rfl

/-- `cancel_active_priority_config` always succeeds, and tells whether there was
anything to cancel. -/
theorem cancelActivePriorityConfig_transact (userId actor : Uuid) (pg : Pg) (now : Timestamp)
    (uuid : Nat → Uuid) : (cancelActivePriorityConfig userId actor).transact pg now uuid =
      (.ok ((pg.configs.filter (Pg.isCurrent userId)).head?.map
        (fun c => ⟨c.cancel now, pg.itemsOf c.id⟩)), pg.cancelActive userId actor now, 0) := by
  have hset : Repo.exec (query (.setActor actor) []) (Tx.begin pg now uuid) =
      (.ok (), (Tx.begin pg now uuid).asActor actor) := rfl
  have hcancel : Sql.exec (.cancelActiveConfig userId) ((Tx.begin pg now uuid).asActor actor) = _ :=
    Tx.cancelActiveConfig_eq rfl
  unfold Repo.transact cancelActivePriorityConfig
  rw [Repo.exec_bind_ok hset, Repo.exec_bind_ok (Repo.exec_query_ok hcancel)]
  show _ = (Except.ok (_ : Option UserPriorityDetails), _, 0)
  cases hfilter : pg.configs.filter (Pg.isCurrent userId) with
  | nil =>
      have hsame : pg.cancelActive userId actor now = pg := by
        unfold Pg.cancelActive
        rw [hfilter]
        rfl
      have hhead : (((Tx.begin pg now uuid).asActor actor).pg.configs.filter
          (Pg.isCurrent userId)).head? = none := by
        show (pg.configs.filter (Pg.isCurrent userId)).head? = none
        rw [hfilter]
        rfl
      simp only [hhead, Option.map_none]
      rw [hsame]
      rfl
  | cons c cs =>
      have hhead : (((Tx.begin pg now uuid).asActor actor).pg.configs.filter
          (Pg.isCurrent userId)).head? = some c := by
        show (pg.configs.filter (Pg.isCurrent userId)).head? = some c
        rw [hfilter]
        rfl
      have hitems : (pg.cancelActive userId actor now).itemsOf c.id = pg.itemsOf c.id := by
        rw [Pg.itemsOf_cancelActive]
      simp only [hhead, Option.map_some, List.head?_cons]
      rw [← hitems]
      rfl

/-- The items loop leaves the configurations and what is committed alone. -/
theorem insertItems_exec {configId : Uuid} {index : Nat} {items : List PriorityItemData}
    {t t' : Tx} {r : Except RepoError Unit}
    (h : (insertItems configId index items).exec t = (r, t')) :
    t'.base = t.base ∧ t'.pg.configs = t.pg.configs := by
  have huses : (insertItems configId index items).Uses (fun s => ∃ new, s = .insertItem new) :=
    insertItems_uses (fun new => ⟨new, rfl⟩) configId index items
  have hkeep := huses.exec_induction
    (motive := fun t' => t'.base = t.base ∧ t'.pg.configs = t.pg.configs) ?_ ⟨rfl, rfl⟩
  · rw [h] at hkeep
    exact hkeep
  · rintro s t₁ ⟨new, rfl⟩ ⟨hbase, hconfigs⟩
    cases hx : Sql.exec (.insertItem new) t₁ with
    | mk r₁ t₂ =>
        have hx : t₁.insertItem new = (r₁, t₂) := hx
        simp only [Tx.insertItem] at hx
        rcases Tx.write_cases hx with ⟨e, -, rfl⟩ | ⟨a, -, -, -, rfl⟩
        · exact ⟨hbase, hconfigs⟩
        · exact ⟨hbase, hconfigs⟩

/-- `create_priority_config` fails and changes nothing, or leaves the
configuration it returns in force. -/
theorem createPriorityConfig_spec {key : String} {items : List PriorityItemData}
    {expiresAt : Option Timestamp} {pg' : Pg} {r : Except RepoError UserPriorityDetails} {n : Nat}
    (h : (createPriorityConfig key userId items expiresAt actor).transact pg now uuid =
      (r, pg', n)) :
    (∃ e, r = .error e ∧ pg' = pg) ∨ ∃ d, r = .ok d ∧ pg'.activeDetails? userId = some d := by
  obtain ⟨t, hx, rfl, rfl⟩ := Repo.transact_cases h
  have hset : Repo.exec (query (.setActor actor) ["Failed to set actor_id for audit log"])
      (Tx.begin pg now uuid) = (.ok (), (Tx.begin pg now uuid).asActor actor) := rfl
  have hcancel : Sql.exec (.cancelActiveConfig userId) ((Tx.begin pg now uuid).asActor actor) = _ :=
    Tx.cancelActiveConfig_eq rfl
  unfold createPriorityConfig at hx
  rw [Repo.exec_bind_ok hset, Repo.exec_bind_ok (Repo.exec_query_ok hcancel)] at hx
  rcases Repo.exec_bind_cases hx with ⟨e, hi, rfl⟩ | ⟨config, t₂, hi, hx⟩
  · rcases Repo.exec_query_cases hi with ⟨e', hins, -⟩ | ⟨_, -, hok⟩
    · simp only [Sql.exec, Tx.insertConfig] at hins
      rcases Tx.write_cases hins with ⟨_, -, rfl⟩ | ⟨_, hok, -⟩
      · exact Or.inl ⟨e, rfl, rfl⟩
      · simp at hok
    · simp at hok
  rcases Repo.exec_query_cases hi with ⟨_, -, herr⟩ | ⟨config', hins, hok⟩
  · simp at herr
  obtain rfl := Except.ok.inj hok
  obtain ⟨hcurrent, hconfigs, hbase⟩ : Pg.isCurrent userId config = true ∧
      t₂.pg.configs = (pg.cancelActive userId actor now).configs ++ [config] ∧ t₂.base = pg := by
    simp only [Sql.exec, Tx.insertConfig] at hins
    rcases Tx.write_cases hins with ⟨_, herr, -⟩ | ⟨a, hrow, -, -, rfl⟩
    · simp at herr
    · obtain rfl := Except.ok.inj hrow
      exact ⟨by simp [Pg.isCurrent], rfl, rfl⟩
  rcases Repo.exec_bind_cases hx with ⟨e, hitems, rfl⟩ | ⟨⟨⟩, t₃, hitems, hx⟩
  · exact Or.inl ⟨e, rfl, (insertItems_exec hitems).1.trans hbase⟩
  obtain ⟨-, hkept⟩ := insertItems_exec hitems
  have hselect : Sql.exec (.selectItems config.id) t₃ = (.ok (t₃.pg.itemsOf config.id), t₃) := rfl
  have hcommit : Sql.exec .commit t₃ = (.ok (), t₃.commit) := rfl
  rw [Repo.exec_bind_ok (Repo.exec_query_ok hselect),
    Repo.exec_bind_ok (Repo.exec_query_ok hcommit)] at hx
  obtain ⟨rfl, rfl⟩ := Prod.mk.inj hx
  refine Or.inr ⟨_, rfl, ?_⟩
  have hnone : (pg.cancelActive userId actor now).activeConfig? userId = none := by
    rw [Pg.activeConfig?_eq_none, ← Pg.activeDetails?_eq_none]
    exact Pg.activeDetails?_cancelActive pg userId actor now
  have hactive : t₃.pg.activeConfig? userId = some config := by
    unfold Pg.activeConfig? at hnone ⊢
    rw [hkept, hconfigs, List.find?_append, hnone, Option.none_or]
    exact List.find?_cons_of_pos hcurrent
  show t₃.pg.activeDetails? userId = _
  unfold Pg.activeDetails?
  rw [hactive]
  rfl

end

end Wurzburg.Db
