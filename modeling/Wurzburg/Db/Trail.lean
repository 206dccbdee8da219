import Wurzburg.Db.Audit
import Wurzburg.Db.Lifecycle

/-!
# Wurzburg.Db.Trail

What can be read off the audit log alone. Its insertions are the rows of the tables, in
their order, and whatever else it says is about a row that is there (`Pg.Logged`). And
a configuration is `CANCELLED` exactly if the log has an update of it, then one, by its
user (`Pg.CancelsLogged`). Each way in which a call changes the tables keeps both.
-/

namespace Wurzburg.Db

open Wurzburg.Lib

/-! ### The entries of a table -/

theorem AuditedTable.name_inj {T T' : AuditedTable} (h : T.name = T'.name) : T = T' := by
  revert h
  cases T <;> cases T' <;> decide

namespace Pg

/-- The entries about rows of a table with this action. -/
def logged (pg : Pg) (T : AuditedTable) (action : AuditAction) : List AuditLog :=
  pg.auditLogs.filter (fun l => l.entityType = T.name ∧ l.actionType = action)

/-- The actors of the updates of a configuration. -/
def cancelledBy (pg : Pg) (configId : Uuid) : List Uuid :=
  ((pg.logged .userPriorityConfigs .update).filter (fun l => l.entityId = configId)).map
    (·.actorId)

/-- The log says which rows there are. Only links to providers and configurations are ever
updated, and nothing is deleted. -/
structure Logged (pg : Pg) : Prop where
  inserted : ∀ T, (pg.logged T .insert).map (·.entityId) = pg.ids T
  updated : ∀ T, ∀ l ∈ pg.logged T .update, l.entityId ∈ pg.ids T ∧
    (T = .userProviders ∨ T = .userPriorityConfigs)
  only : ∀ l ∈ pg.auditLogs, ∃ T, l ∈ pg.logged T .insert ∨ l ∈ pg.logged T .update

/-- The log says which configurations are cancelled, and by whom. -/
def CancelsLogged (pg : Pg) : Prop :=
  ∀ c ∈ pg.configs, pg.cancelledBy c.id = if c.status = .cancelled then [c.userId] else []

variable {pg pg' : Pg} {actor : Uuid} {ws : List RowWrite}

/-! ### What a call adds -/

theorem Audits.logs (h : pg.Audits pg' (some actor) ws) :
    pg'.auditLogs = pg.auditLogs ++ ws.map (RowWrite.log actor) := by
  obtain ⟨logs, heq, hlogs⟩ := h.logged
  suffices hmap : logs = ws.map (RowWrite.log actor) by rw [heq, hmap]
  clear heq h
  induction hlogs with
  | nil => rfl
  | cons hl _ ih =>
      obtain ⟨a, ha, rfl⟩ := hl
      obtain rfl := Option.some.inj ha
      rw [List.map_cons, ih]

theorem Audits.logged_eq (h : pg.Audits pg' (some actor) ws) (T : AuditedTable)
    (action : AuditAction) : pg'.logged T action = pg.logged T action ++
      (ws.filter (fun w => w.table = T ∧ w.action = action)).map (RowWrite.log actor) := by
  have hsame : ∀ w : RowWrite, decide ((w.log actor).entityType = T.name ∧
      (w.log actor).actionType = action) = decide (w.table = T ∧ w.action = action) :=
    fun w => decide_eq_decide.mpr (and_congr_left' ⟨AuditedTable.name_inj, congrArg AuditedTable.name⟩)
  unfold Pg.logged
  rw [h.logs, List.filter_append, List.filter_map]
  congr 2
  exact List.filter_congr (fun w _ => hsame w)

/-- A call that updates only links and configurations. -/
theorem Logged.audits (hlog : pg.Logged) (h : pg.Audits pg' (some actor) ws)
    (hupdates : ∀ w ∈ ws, w.action = .update →
      w.table = .userProviders ∨ w.table = .userPriorityConfigs) : pg'.Logged where
  inserted T := by
    rw [h.logged_eq, List.map_append, hlog.inserted, h.wrote.inserted, List.map_map]
    rfl
  updated T l hl := by
    have hgrow : ∀ id ∈ pg.ids T, id ∈ pg'.ids T := by
      rw [h.wrote.inserted]
      exact fun id hid => List.mem_append_left _ hid
    rw [h.logged_eq] at hl
    rcases List.mem_append.mp hl with hl | hl
    · exact ⟨hgrow _ (hlog.updated T l hl).1, (hlog.updated T l hl).2⟩
    · obtain ⟨w, hw, rfl⟩ := List.mem_map.mp hl
      obtain ⟨hmem, hw⟩ := List.mem_filter.mp hw
      obtain ⟨rfl, hupdate⟩ := of_decide_eq_true hw
      exact ⟨hgrow _ (h.wrote.updated w hmem hupdate), hupdates w hmem hupdate⟩
  only l hl := by
    have hold : ∀ T action, l ∈ pg.logged T action → l ∈ pg'.logged T action := by
      intro T action hmem
      rw [h.logged_eq]
      exact List.mem_append_left _ hmem
    rw [h.logs] at hl
    rcases List.mem_append.mp hl with hl | hl
    · obtain ⟨T, hmem⟩ := hlog.only l hl
      exact ⟨T, hmem.imp (hold T .insert) (hold T .update)⟩
    · obtain ⟨w, hw, rfl⟩ := List.mem_map.mp hl
      have hnew : ∀ action, w.action = action → w.log actor ∈ pg'.logged w.table action := by
        intro action haction
        rw [h.logged_eq]
        exact List.mem_append_right _ (List.mem_map_of_mem (List.mem_filter.mpr
          ⟨hw, decide_eq_true ⟨rfl, haction⟩⟩))
      exact ⟨w.table, (h.wrote.actions w hw).imp (hnew .insert) (hnew .update)⟩

/-! ### Cancellations -/

/-- A call that leaves the configurations alone. -/
theorem CancelsLogged.audits (hcancels : pg.CancelsLogged) (h : pg.Audits pg' (some actor) ws)
    (hsame : pg'.configs = pg.configs)
    (hnone : ∀ w ∈ ws, w.table ≠ .userPriorityConfigs) : pg'.CancelsLogged := by
  have hempty : ws.filter (fun w => w.table = .userPriorityConfigs ∧ w.action = .update) = [] :=
    List.filter_eq_nil_iff.mpr (fun w hw hdec => hnone w hw (of_decide_eq_true hdec).1)
  intro c hc
  unfold cancelledBy
  rw [h.logged_eq, hempty, List.map_nil, List.append_nil]
  exact hcancels c (hsame ▸ hc)

theorem cancelActive_logs (pg : Pg) (userId actor : Uuid) (now : Timestamp) :
    (pg.cancelActive userId actor now).auditLogs = pg.auditLogs ++
      (pg.configs.filter (isCurrent userId)).map
        (fun c => ⟨"user_priority_configs", c.id, actor, .update⟩) := by
  unfold cancelActive
  split
  · next h => rw [List.isEmpty_iff.mp h, List.map_nil, List.append_nil]
  · rfl

theorem cancelledBy_cancelActive (pg : Pg) (userId actor : Uuid) (now : Timestamp)
    (configId : Uuid) : (pg.cancelActive userId actor now).cancelledBy configId =
      pg.cancelledBy configId ++ ((pg.configs.filter (isCurrent userId)).filter
        (fun c => c.id = configId)).map (fun _ => actor) := by
  have hall : ∀ l : List UserPriorityConfig, (l.map (fun c => (⟨"user_priority_configs", c.id,
      actor, .update⟩ : AuditLog))).filter (fun l => l.entityType =
        AuditedTable.userPriorityConfigs.name ∧ l.actionType = .update) =
      l.map (fun c => ⟨"user_priority_configs", c.id, actor, .update⟩) := by
    intro l
    refine List.filter_eq_self.mpr (fun entry hentry => ?_)
    obtain ⟨c, -, rfl⟩ := List.mem_map.mp hentry
    rfl
  unfold cancelledBy logged
  rw [cancelActive_logs, List.filter_append, hall, List.filter_append, List.map_append]
  congr 1
  rw [List.filter_map, List.map_map]
  rfl

/-- The cancellation of the configuration in force, by its user. -/
theorem CancelsLogged.cancelActive (hcancels : pg.CancelsLogged)
    (hids : (pg.configs.map (·.id)).Nodup) (userId : Uuid) (now : Timestamp) :
    (pg.cancelActive userId userId now).CancelsLogged := by
  intro c' hc'
  rw [cancelActive_configs] at hc'
  obtain ⟨c, hc, rfl⟩ := List.mem_map.mp hc'
  have hsame : pg.configs.filter (fun d => d.id = c.id) = [c] := by
    have heq : ∀ d ∈ pg.configs, decide (d.id = c.id) = decide (d = c) := fun d hd =>
      decide_eq_decide.mpr ⟨fun h => List.inj_on_of_nodup_map hids hd hc h, congrArg _⟩
    have hcount : pg.configs.count c = 1 :=
      List.count_eq_one_of_mem (List.Nodup.of_map _ hids) hc
    rw [List.filter_congr heq, List.filter_eq, hcount]
    rfl
  rw [(c.later_afterCancel userId now).id_eq, cancelledBy_cancelActive, List.filter_comm, hsame,
    hcancels c hc]
  unfold UserPriorityConfig.afterCancel
  by_cases hcurrent : isCurrent userId c = true
  · -- it was in force, so it has not been cancelled before
    have hwas : c.userId = userId ∧ c.status = .active ∧ c.isDeleted = false :=
      of_decide_eq_true hcurrent
    rw [if_pos hcurrent, List.filter_cons_of_pos hcurrent, hwas.2.1, if_neg (by decide)]
    show [] ++ [userId] = if PriorityStatus.cancelled = .cancelled then [c.userId] else []
    rw [if_pos rfl, hwas.1, List.nil_append]
  · rw [if_neg hcurrent, List.filter_cons_of_neg hcurrent, List.filter_nil, List.map_nil,
      List.append_nil]

/-- Entries that are no updates of configurations. -/
theorem cancelledBy_log (pg : Pg) {logs : List AuditLog}
    (h : ∀ l ∈ logs, l.actionType = .insert) (configId : Uuid) :
    (pg.log logs).cancelledBy configId = pg.cancelledBy configId := by
  have hnone : logs.filter (fun l => l.entityType = AuditedTable.userPriorityConfigs.name ∧
      l.actionType = .update) = [] := by
    refine List.filter_eq_nil_iff.mpr (fun l hl hdec => ?_)
    have hupdate := (of_decide_eq_true hdec).2
    rw [h l hl] at hupdate
    cases hupdate
  unfold cancelledBy logged Pg.log
  rw [List.filter_append, hnone, List.append_nil]

theorem addItems_cancelledBy (pg : Pg) (actor : Uuid) (rows : List PriorityItemRow)
    (configId : Uuid) : (pg.addItems actor rows).cancelledBy configId = pg.cancelledBy configId := by
  induction rows generalizing pg with
  | nil => rfl
  | cons row rows ih =>
      rw [addItems_cons, ih]
      exact cancelledBy_log _ (fun l hl => by rw [List.mem_singleton.mp hl]) configId

/-- The creation of a configuration, which cancels the one in force. -/
theorem CancelsLogged.addPriority (hcancels : pg.CancelsLogged) (hlog : pg.Logged)
    (hids : (pg.configs.map (·.id)).Nodup) {now : Timestamp} {uuid : Nat → Uuid} {key : String}
    {userId : Uuid} {items : List PriorityItemData} {expiresAt : Option Timestamp}
    (hadm : pg.AdmitsPriority now uuid key userId userId items expiresAt) :
    (pg.addPriority now uuid key userId userId items expiresAt).CancelsLogged := by
  have hsame : ∀ id, (pg.addPriority now uuid key userId userId items expiresAt).cancelledBy id =
      (pg.cancelActive userId userId now).cancelledBy id := by
    intro id
    unfold Pg.addPriority
    rw [addItems_cancelledBy]
    exact cancelledBy_log _ (fun l hl => by rw [List.mem_singleton.mp hl]) id
  intro c hc
  have hc : c ∈ (pg.cancelActive userId userId now).configs ++
      [newConfig (uuid 0) userId key expiresAt now] := by
    unfold Pg.addPriority at hc
    rw [addItems_configs] at hc
    exact hc
  rw [hsame]
  rcases List.mem_append.mp hc with hc | hc
  · exact hcancels.cancelActive hids userId now c hc
  · obtain rfl := List.mem_singleton.mp hc
    -- nothing was logged of the new configuration
    have hnew : ∀ d ∈ pg.configs, d.id ≠ uuid 0 := by
      intro d hd
      have hne := hadm.config.newId (d.afterCancel userId now)
        (by rw [cancelActive_configs]; exact List.mem_map_of_mem hd)
      rw [(d.later_afterCancel userId now).id_eq] at hne
      exact hne
    have hnone : pg.cancelledBy (uuid 0) = [] := by
      refine List.map_eq_nil_iff.mpr (List.filter_eq_nil_iff.mpr (fun l hl hdec => ?_))
      obtain ⟨d, hd, hid⟩ := List.mem_map.mp (hlog.updated _ l hl).1
      exact hnew d hd (hid.trans (of_decide_eq_true hdec))
    have hfilter : (pg.configs.filter (isCurrent userId)).filter (fun d => d.id = uuid 0) = [] :=
      List.filter_eq_nil_iff.mpr (fun d hd hdec =>
        hnew d (List.mem_of_mem_filter hd) (of_decide_eq_true hdec))
    show (pg.cancelActive userId userId now).cancelledBy (uuid 0) = _
    rw [cancelledBy_cancelActive, hnone, hfilter]
    rfl

end Pg

end Wurzburg.Db
