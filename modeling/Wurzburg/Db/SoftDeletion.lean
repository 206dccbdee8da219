import Wurzburg.Db.PriorityList

/-!
# Wurzburg.Db.SoftDeletion

What `soft_delete_priority_config` leaves behind.

A deleted configuration is passed over by every statement that looks for the one
in force, so nothing ever cancels it; but its status is still `ACTIVE`, and the
unique indexes do not look at `is_deleted`. Its user is `Occupied` from then on:
no configuration can be created for them any more, under any key.

The methods are run with the actor of the audit trigger set (`Repo.transactAs`),
so that the trigger refuses none of them.
-/

namespace Wurzburg.Db

open Wurzburg.Lib

/-! ### Runs under an actor -/

/-- Run a method as one step, in a session in which an actor is set. -/
def Repo.transactAs {α : Type} (body : Repo α) (actor : Uuid) (pg : Pg) (now : Timestamp)
    (uuid : Nat → Uuid) : Except RepoError α × Pg × Nat :=
  let out := body.exec ((Tx.begin pg now uuid).asActor actor)
  (out.1, out.2.base, out.2.drawn)

/-- An `UPDATE` under an actor. -/
theorem Tx.update_as {α : Type} {t : Tx} {actor : Uuid} {table : String} {touched : List Uuid}
    {row : α} {upd : Pg → Pg} (ha : t.actor = some actor) :
    t.update table touched row upd =
      (.ok row, { t with
        pg := if touched.isEmpty then t.pg
          else (upd t.pg).log (touched.map (fun id => ⟨table, id, actor, .update⟩)) }) := by
  unfold Tx.update
  split
  · rfl
  · rw [Tx.write_ok ha (by simp)]

/-- What a configuration becomes when it is deleted. -/
def UserPriorityConfig.softDelete (now : Timestamp) (c : UserPriorityConfig) :
    UserPriorityConfig :=
  { c with isDeleted := true, deletedAt := some now }

section

variable {pg pg' : Pg} {userId actor configId : Uuid} {now : Timestamp} {uuid : Nat → Uuid}

/-- The configurations after the two statements of a deletion. -/
theorem Tx.softDelete_configs {t : Tx} (configId : Uuid) (ha : t.actor = some actor) :
    ∃ t', Sql.exec (.softDeleteConfig configId) t = (.ok (), t') ∧ t'.base = t.base ∧
      t'.drawn = t.drawn ∧ t'.pg.configs =
        t.pg.configs.map (fun c => if c.id = configId then c.softDelete t.now else c) := by
  refine ⟨_, Tx.update_as ha, rfl, rfl, ?_⟩
  split
  · next hnone =>
      have hother : ∀ c ∈ t.pg.configs, (if c.id = configId then c.softDelete t.now else c) = c := by
        intro c hc
        simp only [List.isEmpty_map, List.isEmpty_iff, List.filter_eq_nil_iff,
          decide_eq_true_eq] at hnone
        rw [if_neg (hnone c hc)]
      rw [List.map_congr_left hother, List.map_id']
  · rfl

/-- **A deletion commits**, and marks the configuration without changing its status. -/
theorem softDeletePriorityConfig_transactAs :
    ∃ pg', (softDeletePriorityConfig configId).transactAs actor pg now uuid = (.ok (), pg', 0) ∧
      pg'.configs = pg.configs.map (fun c => if c.id = configId then c.softDelete now else c) := by
  have hitems : Sql.exec (.softDeleteItems configId) ((Tx.begin pg now uuid).asActor actor) = _ :=
    Tx.update_as rfl
  obtain ⟨t, ht⟩ : ∃ t, (Sql.exec (.softDeleteItems configId)
      ((Tx.begin pg now uuid).asActor actor)).2 = t := ⟨_, rfl⟩
  have hsame : t.actor = some actor ∧ t.now = now ∧ t.drawn = 0 ∧ t.pg.configs = pg.configs := by
    rw [hitems] at ht
    subst ht
    refine ⟨rfl, rfl, rfl, ?_⟩
    show (if _ then _ else _ : Pg).configs = _
    split
    · rfl
    · rfl
  obtain ⟨hactor, hnow, hdrawn, hconfigs⟩ := hsame
  obtain ⟨t', hx, -, hdrawn', hconfigs'⟩ := Tx.softDelete_configs configId hactor
  have hfirst : Sql.exec (.softDeleteItems configId) ((Tx.begin pg now uuid).asActor actor) =
      (.ok (), t) := by
    rw [← ht, hitems]
  have hcommit : Repo.exec (query .commit []) t' = (.ok (), t'.commit) := rfl
  refine ⟨t'.pg, ?_, ?_⟩
  · unfold Repo.transactAs softDeletePriorityConfig
    rw [Repo.exec_bind_ok (Repo.exec_query_ok hfirst), Repo.exec_bind_ok (Repo.exec_query_ok hx),
      hcommit]
    exact Prod.ext rfl (Prod.ext rfl (hdrawn'.trans hdrawn))
  · rw [hconfigs', hconfigs, hnow]

/-! ### Occupied users -/

/-- A deleted configuration of the user still counts as active. -/
def Pg.Occupied (pg : Pg) (userId : Uuid) : Prop :=
  ∃ c ∈ pg.configs, c.userId = userId ∧ c.status = .active ∧ c.isDeleted = true

/-- The cancelling statement passes over what is deleted. -/
theorem UserPriorityConfig.afterCancel_deleted {c : UserPriorityConfig} (h : c.isDeleted = true)
    (u : Uuid) (now : Timestamp) : c.afterCancel u now = c := by
  unfold UserPriorityConfig.afterCancel
  rw [if_neg]
  simp [Pg.isCurrent, h]

namespace Pg.Occupied

theorem congr (h : pg.Occupied userId) (hconfigs : pg'.configs = pg.configs) :
    pg'.Occupied userId := by
  unfold Pg.Occupied
  rw [hconfigs]
  exact h

theorem cancelActive (h : pg.Occupied userId) (u actor : Uuid) (now : Timestamp) :
    (pg.cancelActive u actor now).Occupied userId := by
  obtain ⟨c, hc, hcuser, hactive, hdeleted⟩ := h
  refine ⟨c, ?_, hcuser, hactive, hdeleted⟩
  rw [Pg.cancelActive_configs, ← UserPriorityConfig.afterCancel_deleted hdeleted u now]
  exact List.mem_map_of_mem hc

/-- A deletion leaves every deleted configuration as active as it was. -/
theorem softDelete (h : pg.Occupied userId) (hconfigs : pg'.configs =
    pg.configs.map (fun c => if c.id = configId then c.softDelete now else c)) :
    pg'.Occupied userId := by
  obtain ⟨c, hc, hcuser, hactive, hdeleted⟩ := h
  unfold Pg.Occupied
  rw [hconfigs]
  by_cases hid : c.id = configId
  · exact ⟨c.softDelete now, List.mem_map.mpr ⟨c, hc, if_pos hid⟩, hcuser, hactive, rfl⟩
  · exact ⟨c, List.mem_map.mpr ⟨c, hc, if_neg hid⟩, hcuser, hactive, hdeleted⟩

/-- The index of active configurations has no room for another one. -/
theorem not_admits (h : pg.Occupied userId) {key : String} {items : List PriorityItemData}
    {expiresAt : Option Timestamp} :
    ¬ pg.AdmitsPriority now uuid key userId actor items expiresAt := by
  intro hadm
  obtain ⟨c, hc, hcuser, hactive, -⟩ := h.cancelActive userId actor now
  exact hadm.config.noActive c hc hcuser hactive

/-- Every creation for the user is refused. -/
theorem refuses (h : pg.Occupied userId) (key : String) (items : List PriorityItemData)
    (expiresAt : Option Timestamp) (actor : Uuid) (now : Timestamp) (uuid : Nat → Uuid) :
    ∃ e n, (createPriorityConfig key userId items expiresAt actor).transact pg now uuid =
      (.error e, pg, n) := by
  rcases @createPriorityConfig_cases pg now uuid key userId actor items expiresAt with
    ⟨hadm, -⟩ | ⟨e, n, -, htx⟩
  · exact absurd hadm h.not_admits
  · exact ⟨e, n, htx⟩

/-- No method frees an occupied user. -/
theorem mutator (h : pg.Occupied userId) (m : Mutator) :
    (m.body.transact pg now uuid).2.1.Occupied userId := by
  rcases m.priorities_cases pg now uuid with hk | ⟨u, a, heq⟩ | ⟨key, u, a, items, ea, hadm, heq⟩
  · exact h.congr hk.configs
  · rw [heq]
    exact h.cancelActive u a now
  · rw [heq]
    obtain ⟨c, hc, hrest⟩ := h.cancelActive u a now
    refine ⟨c, ?_, hrest⟩
    rw [Pg.addPriority, Pg.addItems_configs]
    exact List.mem_append_left _ hc

end Pg.Occupied

/-- The database after any methods were run, deletions under an actor included. -/
inductive Pg.Onward (pg : Pg) : Pg → Prop where
  | refl : Onward pg pg
  | call {pg' : Pg} (m : Mutator) (now : Timestamp) (uuid : Nat → Uuid) (h : Onward pg pg') :
      Onward pg (m.body.transact pg' now uuid).2.1
  | record {pg' : Pg} (code name : String) (category : SystemAccountCategory)
      (ledgerAccountId : Uuid) (now : Timestamp) (uuid : Nat → Uuid) (h : Onward pg pg') :
      Onward pg ((recordSystemAccount code name category ledgerAccountId).transact pg' now uuid).2.1
  | delete {pg' : Pg} (configId actor : Uuid) (now : Timestamp) (uuid : Nat → Uuid)
      (h : Onward pg pg') :
      Onward pg ((softDeletePriorityConfig configId).transactAs actor pg' now uuid).2.1

/-- An occupied user stays occupied. -/
theorem Pg.Occupied.onward (h : pg.Occupied userId) (hl : pg.Onward pg') :
    pg'.Occupied userId := by
  induction hl with
  | refl => exact h
  | call m now uuid _ ih => exact ih.mutator m
  | record code name category lid now uuid _ ih =>
      exact ih.congr
        (Repo.transact_sparesPriorities (recordSystemAccount_sparesPriorities ..) rfl).configs
  | @delete pg₁ configId actor now uuid _ ih =>
      obtain ⟨pg₂, htx, hconfigs⟩ := @softDeletePriorityConfig_transactAs pg₁ actor configId now uuid
      rw [htx]
      exact ih.softDelete hconfigs

end

/-! ### Creation, deletion, creation -/

/-- The call commits. -/
def Creates (pg : Pg) (now : Timestamp) (uuid : Nat → Uuid) (key : String) (userId : Uuid)
    (items : List PriorityItemData) (expiresAt : Option Timestamp) (actor : Uuid)
    (pg' : Pg) : Prop :=
  ∃ d n, (createPriorityConfig key userId items expiresAt actor).transact pg now uuid =
    (.ok d, pg', n)

/-- A deletion has undone a creation: the same call commits again and leaves one
configuration in force, and so does a call with any other key that is free. -/
structure Compensated (pg : Pg) (now : Timestamp) (uuid : Nat → Uuid) (key : String)
    (userId : Uuid) (items : List PriorityItemData) (expiresAt : Option Timestamp)
    (actor : Uuid) : Prop where
  again : ∃ pg', Creates pg now uuid key userId items expiresAt actor pg' ∧
    (pg'.configs.filter (Pg.isCurrent userId)).length = 1
  other : ∀ key', varcharOk 255 key' = true → (∀ c ∈ pg.configs, c.idempotencyKey ≠ key') →
    ∃ pg', Creates pg now uuid key' userId items expiresAt actor pg'

section

variable {pg pg₁ pg₂ : Pg} {key : String} {userId actor actor₁ : Uuid}
  {items : List PriorityItemData} {expiresAt : Option Timestamp} {now now₁ : Timestamp}
  {uuid uuid₁ : Nat → Uuid} {d : UserPriorityDetails} {n n₁ : Nat}

/-- A creation and the deletion of what it created leave the user occupied. -/
theorem occupied_of_deleted
    (hcreate : (createPriorityConfig key userId items expiresAt actor).transact pg now uuid =
      (.ok d, pg₁, n))
    (hdelete : (softDeletePriorityConfig d.config.id).transactAs actor₁ pg₁ now₁ uuid₁ =
      (.ok (), pg₂, n₁)) : pg₂.Occupied userId := by
  have hcreated : d.config = newConfig (uuid 0) userId key expiresAt now ∧
      d.config ∈ pg₁.configs := by
    rcases @createPriorityConfig_cases pg now uuid key userId actor items expiresAt with
      ⟨-, htx⟩ | ⟨e, m, -, htx⟩
    · rw [htx] at hcreate
      obtain ⟨hd, hrest⟩ := Prod.mk.inj hcreate
      obtain ⟨rfl, -⟩ := Prod.mk.inj hrest
      obtain rfl := Except.ok.inj hd
      refine ⟨rfl, ?_⟩
      rw [Pg.addPriority, Pg.addItems_configs]
      exact List.mem_append_right _ (List.mem_singleton_self _)
    · rw [htx] at hcreate
      cases (Prod.mk.inj hcreate).1
  obtain ⟨hnew, hmem⟩ := hcreated
  obtain ⟨pg', htx, hconfigs⟩ :=
    @softDeletePriorityConfig_transactAs pg₁ actor₁ d.config.id now₁ uuid₁
  rw [htx] at hdelete
  obtain ⟨-, hrest⟩ := Prod.mk.inj hdelete
  obtain ⟨rfl, -⟩ := Prod.mk.inj hrest
  refine ⟨d.config.softDelete now₁, ?_, ?_, ?_, rfl⟩
  · rw [hconfigs]
    exact List.mem_map.mpr ⟨d.config, hmem, if_pos rfl⟩
  · rw [hnew]
    rfl
  · rw [hnew]
    rfl

/-- **Soft deletion never compensates a creation.** Once a configuration was created and
deleted, no creation for its user commits, neither under the same key nor under
another one, now or after whatever is called later. -/
theorem softDeletePriorityConfig_neverCompensates
    (hcreate : (createPriorityConfig key userId items expiresAt actor).transact pg now uuid =
      (.ok d, pg₁, n))
    (hdelete : (softDeletePriorityConfig d.config.id).transactAs actor₁ pg₁ now₁ uuid₁ =
      (.ok (), pg₂, n₁)) :
    ∀ pg₃, pg₂.Onward pg₃ → ∀ (now' : Timestamp) (uuid' : Nat → Uuid),
      ¬ Compensated pg₃ now' uuid' key userId items expiresAt actor ∧
      ∀ key' items' expiresAt' actor' pg',
        ¬ Creates pg₃ now' uuid' key' userId items' expiresAt' actor' pg' := by
  intro pg₃ hl now' uuid'
  have hoccupied := (occupied_of_deleted hcreate hdelete).onward hl
  have hnone : ∀ key' items' expiresAt' actor' pg',
      ¬ Creates pg₃ now' uuid' key' userId items' expiresAt' actor' pg' := by
    rintro key' items' expiresAt' actor' pg' ⟨d', n', hcreates⟩
    obtain ⟨e, m, hrefused⟩ := hoccupied.refuses key' items' expiresAt' actor' now' uuid'
    rw [hrefused] at hcreates
    cases (Prod.mk.inj hcreates).1
  refine ⟨fun h => ?_, hnone⟩
  obtain ⟨pg', hcreates, -⟩ := h.again
  exact hnone _ _ _ _ _ hcreates

end

/-- A provider, and a user linked to it. -/
def oneLink : Pg :=
  carriedOut [.createProvider (namedProvider ⟨1⟩ ⟨11⟩) ⟨9⟩,
    .createOrLinkUser "0012345678" ⟨1⟩ "{}" "{}" ⟨21⟩ ⟨9⟩]

def oneItem : List PriorityItemData := [⟨⟨1⟩, .multiUse, 50, ⟨21⟩, ⟨11⟩⟩]

/-- A priority of the user. -/
def createOne : Except RepoError UserPriorityDetails × Pg × Nat :=
  (createPriorityConfig "key" ⟨100⟩ oneItem none ⟨9⟩).transact oneLink 5
    (fun n => ⟨BitVec.ofNat 128 (600 + n)⟩)

/-- The deletion of the configuration that `createOne` created. -/
def deleteOne : Except RepoError Unit × Pg × Nat :=
  (softDeletePriorityConfig ⟨600⟩).transactAs ⟨9⟩ createOne.2.1 6 (fun _ => ⟨0⟩)

/-- The same call with any key, after the deletion. -/
def createAgain (key : String) : Except RepoError UserPriorityDetails × Pg × Nat :=
  (createPriorityConfig key ⟨100⟩ oneItem none ⟨9⟩).transact deleteOne.2.1 7
    (fun n => ⟨BitVec.ofNat 128 (800 + n)⟩)

theorem createOne_deleteOne :
    createOne.1.toOption.map (·.config.id) = some ⟨600⟩ ∧ deleteOne.1 = .ok () := by
  decide +kernel

/-- The creation and the deletion as the hypotheses have them. -/
theorem exists_createOne : ∃ d, createOne = (.ok d, createOne.2.1, createOne.2.2) ∧
    (softDeletePriorityConfig d.config.id).transactAs ⟨9⟩ createOne.2.1 6 (fun _ => ⟨0⟩) =
      (.ok (), deleteOne.2.1, deleteOne.2.2) := by
  obtain ⟨hcreated, hdeleted⟩ := createOne_deleteOne
  cases h : createOne.1 with
  | error e =>
      rw [h] at hcreated
      cases hcreated
  | ok d =>
      rw [h] at hcreated
      have hid : d.config.id = ⟨600⟩ := Option.some.inj hcreated
      refine ⟨d, Prod.ext h rfl, ?_⟩
      rw [hid]
      exact Prod.ext hdeleted rfl

theorem softDeletePriorityConfig_neverCompensates_one :
    createOne.1.isOk = true ∧ deleteOne.1 = .ok () ∧
    ∀ (now : Timestamp) (uuid : Nat → Uuid),
      ¬ Compensated deleteOne.2.1 now uuid "key" ⟨100⟩ oneItem none ⟨9⟩ := by
  obtain ⟨d, hcreate, hdelete⟩ := exists_createOne
  refine ⟨by rw [hcreate]; rfl, createOne_deleteOne.2, fun now uuid => ?_⟩
  exact (softDeletePriorityConfig_neverCompensates hcreate hdelete _ .refl now uuid).1

/-- Under the same key the key is taken; under another one the user still has an active
configuration. -/
theorem createAgain_refused :
    (∃ d, createOne = (.ok d, createOne.2.1, createOne.2.2) ∧
      (softDeletePriorityConfig d.config.id).transactAs ⟨9⟩ createOne.2.1 6 (fun _ => ⟨0⟩) =
        (.ok (), deleteOne.2.1, deleteOne.2.2)) ∧
    createAgain "key" = (.error ⟨["Failed to create new priority config"],
      .uniqueViolation "user_priority_configs_idempotency_key_key"⟩, deleteOne.2.1, 1) ∧
    createAgain "other key" = (.error ⟨["Failed to create new priority config"],
      .uniqueViolation "idx_user_active_priority_config"⟩, deleteOne.2.1, 1) ∧
    ¬ Compensated deleteOne.2.1 7 (fun n => ⟨BitVec.ofNat 128 (800 + n)⟩) "key" ⟨100⟩ oneItem none
      ⟨9⟩ := by
  have hrefused : createAgain "key" = (.error ⟨["Failed to create new priority config"],
      .uniqueViolation "user_priority_configs_idempotency_key_key"⟩, deleteOne.2.1, 1) ∧
    createAgain "other key" = (.error ⟨["Failed to create new priority config"],
      .uniqueViolation "idx_user_active_priority_config"⟩, deleteOne.2.1, 1) := by
    decide +kernel
  refine ⟨exists_createOne, hrefused.1, hrefused.2, fun h => ?_⟩
  obtain ⟨pg', ⟨d, n, hcreates⟩, -⟩ := h.again
  have hsame := hrefused.1
  unfold createAgain at hsame
  rw [hcreates] at hsame
  cases (Prod.mk.inj hsame).1

end Wurzburg.Db
