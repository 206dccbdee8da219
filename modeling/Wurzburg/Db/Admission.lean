import Wurzburg.Db.Lifecycle

/-!
# Wurzburg.Db.Admission

What `create_priority_config` takes. That the items are sound is not only enough
for the constraints but also needed (`Pg.AdmitsPriority.sound`), so that on
consistent tables a creation for a known user and known providers under a new
key succeeds exactly when the key fits and the items are sound
(`Pg.Ready.creates_iff`).
-/

namespace Wurzburg.Db

open Wurzburg.Lib

/-! ### What the constraints need -/

section

variable {pg : Pg} {now : Timestamp} {uuid : Nat → Uuid} {key : String} {userId actor : Uuid}
  {items : List PriorityItemData} {expiresAt : Option Timestamp}

/-- The first order that does not fit into 32 bits turns negative. -/
theorem asI32_overflow : ¬ 0 < asI32 (2 ^ 31 - 1 + 1) := by decide

/-- Only sound items are admitted. -/
theorem Pg.AdmitsItems.sound {configId : Uuid}
    (h : pg.AdmitsItems (itemRows configId now uuid 0 items)) : SoundItems items := by
  obtain ⟨hrows, hpairs⟩ := h
  have hrow : ∀ (i : Nat) (hi : i < items.length),
      pg.AdmitsItem (itemRow configId now (uuid (i + 1)) i items[i]) := by
    intro i hi
    have hi' : i < (itemRows configId now uuid 0 items).length := by rwa [itemRows_length]
    have hmem := List.getElem_mem hi'
    rw [itemRows_getElem hi] at hmem
    exact hrows _ hmem
  refine ⟨fun item hitem => ?_, ?_, ?_⟩
  · obtain ⟨i, hi, rfl⟩ := List.getElem_of_mem hitem
    exact (hrow i hi).amount
  · refine List.pairwise_map.mpr (List.pairwise_iff_getElem.mpr (fun i j hi hj hij => ?_))
    have hi' : i < (itemRows configId now uuid 0 items).length := by rwa [itemRows_length]
    have hj' : j < (itemRows configId now uuid 0 items).length := by rwa [itemRows_length]
    have hpair := List.pairwise_iff_getElem.mp hpairs i j hi' hj' hij
    rw [itemRows_getElem hi, itemRows_getElem hj] at hpair
    exact (hpair.2 rfl).1
  · by_contra hmany
    have hi : 2 ^ 31 - 1 < items.length := by omega
    have horder := (hrow (2 ^ 31 - 1) hi).order
    rw [itemRow_priorityOrder] at horder
    exact asI32_overflow horder

theorem Pg.AdmitsPriority.sound
    (h : pg.AdmitsPriority now uuid key userId actor items expiresAt) :
    expiresAt.all timestampOk = true ∧ varcharOk 255 key = true ∧ SoundItems items :=
  ⟨h.config.expiry, h.config.key, h.items.sound⟩

end

/-! ### How many UUIDs it draws -/

section

variable {pg pg' : Pg} {now : Timestamp} {uuid : Nat → Uuid} {key : String} {userId actor : Uuid}
  {items : List PriorityItemData} {expiresAt : Option Timestamp}

theorem insertItems_drawn (configId : Uuid) (index : Nat) (items : List PriorityItemData) {t : Tx}
    (ha : t.actor = some actor) :
    ((insertItems configId index items).exec t).2.drawn ≤ t.drawn + items.length := by
  induction items generalizing index t with
  | nil => exact Nat.le_refl _
  | cons item items ih =>
      rcases Tx.insertItem_cases (newItem configId index item) ha with ⟨-, hins⟩ | ⟨-, e, hins⟩
      · rw [insertItems_cons_ok hins]
        have hrest := ih (index + 1) (t := { t.draw with
          pg := t.pg.addItem actor (priorityItemRow t.fresh t.now (newItem configId index item)) }) ha
        have hdraw : t.draw.drawn = t.drawn + 1 := rfl
        simp only [hdraw, List.length_cons] at hrest ⊢
        omega
      · obtain ⟨e', hx⟩ := insertItems_cons_error items hins
        have hdraw : t.draw.drawn = t.drawn + 1 := rfl
        rw [hx, List.length_cons, hdraw]
        omega

/-- A creation draws at most one UUID for the configuration and one for each item. -/
theorem createPriorityConfig_drawn {r : Except RepoError UserPriorityDetails} {n : Nat}
    (htx : (createPriorityConfig key userId items expiresAt actor).transact pg now uuid =
      (r, pg', n)) : n ≤ items.length + 1 := by
  obtain ⟨-, hrest⟩ := Prod.mk.inj htx
  obtain ⟨-, rfl⟩ := Prod.mk.inj hrest
  obtain ⟨r, t, hins, hactor, hdrawn⟩ : ∃ r t, Sql.exec (.insertConfig userId key expiresAt)
      ⟨pg, pg.cancelActive userId actor now, some actor, now, uuid, 0⟩ = (r, t) ∧
      t.actor = some actor ∧ t.drawn = 1 := by
    rcases Tx.insertConfig_cases
      (t := ⟨pg, pg.cancelActive userId actor now, some actor, now, uuid, 0⟩)
      userId key expiresAt rfl with ⟨-, hins⟩ | ⟨-, e, hins⟩
    · exact ⟨_, _, hins, rfl, rfl⟩
    · exact ⟨_, _, hins, rfl, rfl⟩
  rw [createPriorityConfig_exec]
  cases r with
  | error e =>
      rw [Repo.exec_bind_error (Repo.exec_query_error hins), hdrawn]
      exact Nat.succ_le_succ (Nat.zero_le _)
  | ok c =>
      rw [Repo.exec_bind_ok (Repo.exec_query_ok hins)]
      have hle := insertItems_drawn c.id 0 items hactor
      rw [hdrawn, Nat.add_comm] at hle
      cases hx : (insertItems c.id 0 items).exec t with
      | mk r t' =>
          rw [hx] at hle
          cases r with
          | ok _ =>
              rw [Repo.exec_bind_ok hx]
              exact hle
          | error e =>
              rw [Repo.exec_bind_error hx]
              exact hle

end

/-! ### When it succeeds -/

/-- The tables are consistent and know the user and the providers, and the key is new. -/
structure Pg.Ready (pg : Pg) (key : String) (userId : Uuid) (items : List PriorityItemData) :
    Prop where
  priorities : Priorities pg
  newKey : ∀ c ∈ pg.configs, c.idempotencyKey ≠ key
  user : ∃ u ∈ pg.users, u.id = userId
  known : ∀ item ∈ items, ∃ p ∈ pg.providers, p.id = item.providerId

namespace Pg.Ready

variable {pg pg' : Pg} {now : Timestamp} {uuid : Nat → Uuid} {key : String} {userId : Uuid}
  {items : List PriorityItemData} {expiresAt : Option Timestamp}

theorem cancelActive (h : pg.Ready key userId items) (u actor : Uuid) (now : Timestamp) :
    (pg.cancelActive u actor now).Ready key userId items := by
  have hcore := Pg.cancelActive_sameCore pg u actor now
  refine ⟨h.priorities.cancelActive u actor now, fun c' hc' => ?_, ?_, ?_⟩
  · rw [Pg.cancelActive_configs] at hc'
    obtain ⟨c, hc, rfl⟩ := List.mem_map.mp hc'
    rw [(c.later_afterCancel u now).row]
    exact h.newKey c hc
  · rw [hcore.users]
    exact h.user
  · rw [hcore.providers]
    exact h.known

/-- **When a creation succeeds.** -/
theorem creates_iff (h : pg.Ready key userId items) {actor : Uuid}
    {r : Except RepoError UserPriorityDetails} {n : Nat}
    (htx : (createPriorityConfig key userId items expiresAt actor).transact pg now uuid =
      (r, pg', n)) (hids : pg.NewIds ((List.range n).map uuid)) :
    (∃ d, r = .ok d) ↔
      expiresAt.all timestampOk = true ∧ varcharOk 255 key = true ∧ SoundItems items := by
  constructor
  · rintro ⟨d, rfl⟩
    rcases createPriorityConfig_cases with ⟨hadm, -⟩ | ⟨e, m, -, hcreate⟩
    · exact Pg.AdmitsPriority.sound hadm
    · cases (Prod.mk.inj (htx.symm.trans hcreate)).1
  · rintro ⟨hexpiry, hfits, hsound⟩
    exact h.priorities.creates ⟨hexpiry, hfits, h.newKey, h.user, h.known, hsound⟩ htx hids

end Pg.Ready

theorem Pg.NewIds.cancelActive {pg : Pg} {ids : List Uuid} (h : pg.NewIds ids) (u actor : Uuid)
    (now : Timestamp) : (pg.cancelActive u actor now).NewIds ids := by
  refine ⟨h.nodup, fun c' hc' => ?_, ?_⟩
  · rw [Pg.cancelActive_configs] at hc'
    obtain ⟨c, hc, rfl⟩ := List.mem_map.mp hc'
    rw [(c.later_afterCancel u now).id_eq]
    exact h.configs c hc
  · rw [Pg.cancelActive_items]
    exact h.items

end Wurzburg.Db
