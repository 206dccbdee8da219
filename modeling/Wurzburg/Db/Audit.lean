import Wurzburg.Lib.Hoare
import Wurzburg.Db.Constraints
import Wurzburg.Db.Interleavings

/-!
# Wurzburg.Db.Audit

The audit log. A run of a method is watched (`Sql.note`), so that the rows it inserts
and updates are known: those of its `VALUES` and those that its `WHERE`s pick. What
is watched describes how the tables changed (`Pg.Wrote`), and the trigger has logged
each of these rows once, for the actor of the call (`Pg.Audits`).

Six of the seven methods that write set the actor first; `soft_delete_priority_config`
does not, and is refused as soon as it finds a row (`Mutator.audited_iff`).
-/

namespace Wurzburg.Db

open Wurzburg.Lib

/-! ### The audited tables -/

/-- The tables with an audit trigger that a statement writes. -/
inductive AuditedTable where
  | providers
  | users
  | userProviders
  | userAccounts
  | userPriorityConfigs
  | userPriorityItems
  | transactions
  | systemAccounts
  deriving DecidableEq, Repr

namespace AuditedTable

/-- `TG_TABLE_NAME` -/
def name : AuditedTable → String
  | providers => "providers"
  | users => "users"
  | userProviders => "user_providers"
  | userAccounts => "user_accounts"
  | userPriorityConfigs => "user_priority_configs"
  | userPriorityItems => "user_priority_items"
  | transactions => "transactions"
  | systemAccounts => "system_accounts"

@[reducible] def Row : AuditedTable → Type
  | providers => Provider
  | users => User
  | userProviders => UserProvider
  | userAccounts => UserAccount
  | userPriorityConfigs => UserPriorityConfig
  | userPriorityItems => PriorityItemRow
  | transactions => Transaction
  | systemAccounts => SystemAccount

/-- `NEW.id`, `OLD.id` -/
def id : (T : AuditedTable) → T.Row → Uuid
  | providers, p => p.id
  | users, u => u.id
  | userProviders, up => up.id
  | userAccounts, ua => ua.id
  | userPriorityConfigs, c => c.id
  | userPriorityItems, i => i.id
  | transactions, t => t.id
  | systemAccounts, a => a.id

end AuditedTable

/-- The rows of a table. -/
def Pg.rows (pg : Pg) : (T : AuditedTable) → List T.Row
  | .providers => pg.providers
  | .users => pg.users
  | .userProviders => pg.userProviders
  | .userAccounts => pg.userAccounts
  | .userPriorityConfigs => pg.configs
  | .userPriorityItems => pg.items
  | .transactions => pg.transactions
  | .systemAccounts => pg.systemAccounts

/-- The database with other rows in a table. -/
def Pg.setRows (pg : Pg) : (T : AuditedTable) → List T.Row → Pg
  | .providers, rows => { pg with providers := rows }
  | .users, rows => { pg with users := rows }
  | .userProviders, rows => { pg with userProviders := rows }
  | .userAccounts, rows => { pg with userAccounts := rows }
  | .userPriorityConfigs, rows => { pg with configs := rows }
  | .userPriorityItems, rows => { pg with items := rows }
  | .transactions, rows => { pg with transactions := rows }
  | .systemAccounts, rows => { pg with systemAccounts := rows }

@[simp] theorem Pg.rows_setRows (pg : Pg) (T : AuditedTable) (rows : List T.Row) :
    (pg.setRows T rows).rows T = rows := by
  cases T <;> rfl

theorem Pg.rows_setRows_of_ne (pg : Pg) {T T' : AuditedTable} (h : T' ≠ T) (rows : List T.Row) :
    (pg.setRows T rows).rows T' = pg.rows T' := by
  cases T <;> cases T' <;> first | rfl | exact (h rfl).elim

@[simp] theorem Pg.setRows_auditLogs (pg : Pg) (T : AuditedTable) (rows : List T.Row) :
    (pg.setRows T rows).auditLogs = pg.auditLogs := by
  cases T <;> rfl

def Pg.ids (pg : Pg) (T : AuditedTable) : List Uuid := (pg.rows T).map T.id

theorem Pg.Valid.ids_nodup {pg : Pg} (h : pg.Valid) (T : AuditedTable) : (pg.ids T).Nodup := by
  unfold Pg.ids
  rw [List.Nodup, List.pairwise_map]
  cases T with
  | providers => exact h.unique.providers.imp (fun hab => hab.1)
  | users => exact h.unique.users.imp (fun hab => hab.1)
  | userProviders => exact h.unique.userProviders.imp (fun hab => hab.1)
  | userAccounts => exact h.unique.userAccounts.imp (fun hab => hab.1)
  | userPriorityConfigs => exact h.unique.configs.imp (fun hab => hab.1)
  | userPriorityItems => exact h.unique.items.imp (fun hab => hab.1)
  | transactions => exact h.unique.transactions.imp (fun hab => hab.1)
  | systemAccounts => exact h.unique.systemAccounts.imp (fun hab => hab.1)

/-! ### Rows that are written -/

/-- A row of an audited table that is inserted or updated. -/
structure RowWrite where
  table : AuditedTable
  id : Uuid
  action : AuditAction
  deriving DecidableEq, Repr

namespace RowWrite

/-- What `fn_audit_trigger` inserts for it. -/
def log (actor : Uuid) (w : RowWrite) : AuditLog := ⟨w.table.name, w.id, actor, w.action⟩

/-- The row, whatever is done to it. -/
def key (w : RowWrite) : AuditedTable × Uuid := (w.table, w.id)

end RowWrite

/-- The rows that a statement inserts or updates when it is not refused. -/
def Sql.rowsWritten (t : Tx) : Sql → List RowWrite
  | .insertProvider p => [⟨.providers, p.id, .insert⟩]
  | .insertUser id _ _ => [⟨.users, id, .insert⟩]
  | .upsertUserProvider u p _ =>
      match t.pg.userProviders.find? (fun up => up.userId = u ∧ up.providerId = p) with
      | some row => [⟨.userProviders, row.id, .update⟩]
      | none => [⟨.userProviders, t.fresh, .insert⟩]
  | .insertUserAccount id _ _ _ => [⟨.userAccounts, id, .insert⟩]
  | .insertTransaction new => [⟨.transactions, new.id, .insert⟩]
  | .cancelActiveConfig u =>
      (t.pg.configs.filter (Pg.isCurrent u)).map (fun c => ⟨.userPriorityConfigs, c.id, .update⟩)
  | .insertConfig _ _ _ => [⟨.userPriorityConfigs, t.fresh, .insert⟩]
  | .insertItem _ => [⟨.userPriorityItems, t.fresh, .insert⟩]
  | .softDeleteItems configId =>
      (t.pg.items.filter (fun i => i.configId = configId)).map
        (fun i => ⟨.userPriorityItems, i.id, .update⟩)
  | .softDeleteConfig configId =>
      (t.pg.configs.filter (fun c => c.id = configId)).map
        (fun c => ⟨.userPriorityConfigs, c.id, .update⟩)
  | .insertSystemAccount code _ _ _ =>
      if t.pg.systemAccounts.any (fun a => a.code = code) then []
      else [⟨.systemAccounts, t.fresh, .insert⟩]
  | _ => []

/-- How the audited tables changed: rows were appended, others rewritten in place, and
the rest is as it was. -/
structure Pg.Wrote (pg pg' : Pg) (ws : List RowWrite) : Prop where
  inserted : ∀ T, pg'.ids T =
    pg.ids T ++ (ws.filter (fun w => w.table = T ∧ w.action = .insert)).map (·.id)
  updated : ∀ w ∈ ws, w.action = .update → w.id ∈ pg.ids w.table
  kept : ∀ (T : AuditedTable) (row : T.Row), row ∈ pg'.rows T → (T, T.id row) ∉ ws.map RowWrite.key →
    row ∈ pg.rows T
  actions : ∀ w ∈ ws, w.action = .insert ∨ w.action = .update
  /-- No row is written twice. -/
  once : (ws.map RowWrite.key).Nodup

/-- The rows were written, and each of them is logged once. -/
structure Pg.Audits (pg pg' : Pg) (actor : Option Uuid) (ws : List RowWrite) : Prop where
  wrote : pg.Wrote pg' ws
  logged : ∃ logs, pg'.auditLogs = pg.auditLogs ++ logs ∧
    List.Forall₂ (fun w l => ∃ a, actor = some a ∧ l = w.log a) ws logs

namespace Pg

variable {pg pg₁ pg₂ : Pg} {ws ws' : List RowWrite} {actor : Option Uuid}

theorem Wrote.refl (pg : Pg) : pg.Wrote pg [] := by
  refine ⟨fun T => (List.append_nil _).symm, fun w hw => ?_, fun T row hrow _ => hrow,
    fun w hw => ?_, List.nodup_nil⟩
  · cases hw
  · cases hw

theorem Audits.refl (pg : Pg) (actor : Option Uuid) : pg.Audits pg actor [] :=
  ⟨.refl pg, [], (List.append_nil _).symm, .nil⟩

/-- The rows written are there afterwards. -/
theorem Wrote.mem_ids (h : pg.Wrote pg₁ ws) {w : RowWrite} (hw : w ∈ ws) :
    w.id ∈ pg₁.ids w.table := by
  rw [h.inserted]
  rcases h.actions w hw with hinsert | hupdate
  · refine List.mem_append_right _ (List.mem_map_of_mem (List.mem_filter.mpr ⟨hw, ?_⟩))
    simpa using hinsert
  · exact List.mem_append_left _ (h.updated w hw hupdate)

/-- One part after another, where the second updates no row that the first wrote. -/
theorem Wrote.trans (h : pg.Wrote pg₁ ws) (h' : pg₁.Wrote pg₂ ws') (hids : ∀ T, (pg₂.ids T).Nodup)
    (hnew : ∀ w ∈ ws', w.action = .update → ∀ v ∈ ws, v.table ≠ w.table) :
    pg.Wrote pg₂ (ws ++ ws') where
  inserted := fun T => by
    rw [h'.inserted, h.inserted, List.filter_append, List.map_append, List.append_assoc]
  updated := fun w hw hupdate => by
    rcases List.mem_append.mp hw with hw | hw
    · exact h.updated w hw hupdate
    · have hmem := h'.updated w hw hupdate
      rw [h.inserted] at hmem
      rcases List.mem_append.mp hmem with hmem | hmem
      · exact hmem
      · obtain ⟨v, hv, -⟩ := List.mem_map.mp hmem
        obtain ⟨hvs, hv⟩ := List.mem_filter.mp hv
        simp only [decide_eq_true_eq] at hv
        exact absurd hv.1 (hnew w hw hupdate v hvs)
  kept := fun T row hrow hnot => by
    rw [List.map_append, List.mem_append, not_or] at hnot
    exact h.kept T row (h'.kept T row hrow hnot.2) hnot.1
  actions := fun w hw => by
    rcases List.mem_append.mp hw with hw | hw
    · exact h.actions w hw
    · exact h'.actions w hw
  once := by
    rw [List.map_append]
    refine List.nodup_append.mpr ⟨h.once, h'.once, fun a ha b hb heq => ?_⟩
    obtain ⟨v, hv, rfl⟩ := List.mem_map.mp ha
    obtain ⟨w, hw, rfl⟩ := List.mem_map.mp hb
    obtain ⟨htable, hid⟩ : v.table = w.table ∧ v.id = w.id := Prod.mk.inj heq
    rcases h'.actions w hw with hinsert | hupdate
    · -- an inserted row was not there before
      have hnodup := hids w.table
      rw [h'.inserted] at hnodup
      refine (List.nodup_append.mp hnodup).2.2 v.id (htable ▸ h.mem_ids hv) w.id ?_ hid
      exact List.mem_map_of_mem (List.mem_filter.mpr ⟨hw, by simpa using hinsert⟩)
    · exact hnew w hw hupdate v hv htable

theorem Audits.trans (h : pg.Audits pg₁ actor ws) (h' : pg₁.Audits pg₂ actor ws')
    (hids : ∀ T, (pg₂.ids T).Nodup)
    (hnew : ∀ w ∈ ws', w.action = .update → ∀ v ∈ ws, v.table ≠ w.table) :
    pg.Audits pg₂ actor (ws ++ ws') := by
  obtain ⟨logs, hlogs, hall⟩ := h.logged
  obtain ⟨logs', hlogs', hall'⟩ := h'.logged
  refine ⟨h.wrote.trans h'.wrote hids hnew, logs ++ logs', ?_, List.rel_append hall hall'⟩
  rw [hlogs', hlogs, List.append_assoc]

/-- A row is added to a table. -/
theorem Wrote.insert (pg : Pg) {T : AuditedTable} (row : T.Row) :
    pg.Wrote (pg.setRows T (pg.rows T ++ [row])) [⟨T, T.id row, .insert⟩] where
  inserted := fun T' => by
    unfold ids
    by_cases hT : T' = T
    · subst hT
      rw [rows_setRows, List.map_append]
      simp
    · rw [rows_setRows_of_ne pg hT]
      simp [Ne.symm hT]
  updated := fun w hw hupdate => by
    rw [List.mem_singleton.mp hw] at hupdate
    cases hupdate
  kept := fun T' row' hrow hnot => by
    by_cases hT : T' = T
    · subst hT
      rw [rows_setRows] at hrow
      rcases List.mem_append.mp hrow with hrow | hrow
      · exact hrow
      · rw [List.mem_singleton.mp hrow] at hnot
        exact absurd (List.mem_singleton_self _) hnot
    · rw [rows_setRows_of_ne pg hT] at hrow
      exact hrow
  actions := fun w hw => Or.inl (by rw [List.mem_singleton.mp hw])
  once := List.nodup_singleton _

/-- Rows of a table are rewritten. -/
theorem Wrote.update (pg : Pg) {T : AuditedTable} {f : T.Row → T.Row} {touched : List Uuid}
    (hid : ∀ row, T.id (f row) = T.id row)
    (hsame : ∀ row ∈ pg.rows T, T.id row ∉ touched → f row = row)
    (htouched : ∀ id ∈ touched, id ∈ pg.ids T) (hnodup : touched.Nodup) :
    pg.Wrote (pg.setRows T ((pg.rows T).map f)) (touched.map (fun id => ⟨T, id, .update⟩)) where
  inserted := fun T' => by
    have hnone : (touched.map (fun id => (⟨T, id, .update⟩ : RowWrite))).filter
        (fun w => w.table = T' ∧ w.action = .insert) = [] := by
      refine List.filter_eq_nil_iff.mpr (fun w hw => ?_)
      obtain ⟨id, -, rfl⟩ := List.mem_map.mp hw
      simp
    rw [hnone, List.map_nil, List.append_nil]
    unfold ids
    by_cases hT : T' = T
    · subst hT
      rw [rows_setRows, List.map_map]
      exact List.map_congr_left (fun row _ => hid row)
    · rw [rows_setRows_of_ne pg hT]
  updated := fun w hw _ => by
    obtain ⟨id, hmem, rfl⟩ := List.mem_map.mp hw
    exact htouched id hmem
  kept := fun T' row hrow hnot => by
    by_cases hT : T' = T
    · subst hT
      rw [rows_setRows] at hrow
      obtain ⟨row₀, hrow₀, rfl⟩ := List.mem_map.mp hrow
      have hnot : T'.id row₀ ∉ touched := fun hmem => hnot (by
        rw [hid, List.map_map]
        exact List.mem_map.mpr ⟨_, hmem, rfl⟩)
      rw [hsame row₀ hrow₀ hnot]
      exact hrow₀
    · rw [rows_setRows_of_ne pg hT] at hrow
      exact hrow
  actions := fun w hw => by
    obtain ⟨id, -, rfl⟩ := List.mem_map.mp hw
    exact Or.inr rfl
  once := by
    rw [List.map_map]
    exact hnodup.map (fun a b hab => (Prod.mk.inj hab).2)

/-- The rows that an `UPDATE` finds by a condition. -/
theorem Wrote.found (pg : Pg) {T : AuditedTable} (hids : (pg.ids T).Nodup) (P : T.Row → Bool)
    {f : T.Row → T.Row} (hid : ∀ row, T.id (f row) = T.id row) :
    pg.Wrote (pg.setRows T ((pg.rows T).map (fun row => if P row then f row else row)))
      ((((pg.rows T).filter P).map T.id).map (fun id => ⟨T, id, .update⟩)) := by
  refine .update pg (fun row => ?_) (fun row hrow hnot => ?_) (fun id hmem => ?_) ?_
  · split
    · exact hid row
    · rfl
  · refine if_neg (fun hP => hnot ?_)
    exact List.mem_map_of_mem (List.mem_filter.mpr ⟨hrow, hP⟩)
  · obtain ⟨row, hrow, rfl⟩ := List.mem_map.mp hmem
    exact List.mem_map_of_mem (List.mem_of_mem_filter hrow)
  · exact hids.sublist (List.filter_sublist.map _)

theorem Wrote.log (h : pg.Wrote pg₁ ws) (logs : List AuditLog) : pg.Wrote (pg₁.log logs) ws := by
  have hrows : ∀ T, (pg₁.log logs).rows T = pg₁.rows T := fun T => by cases T <;> rfl
  have hids : ∀ T, (pg₁.log logs).ids T = pg₁.ids T := fun T => by unfold ids; rw [hrows]
  exact ⟨fun T => (hids T).trans (h.inserted T), h.updated,
    fun T row hrow => h.kept T row (hrows T ▸ hrow), h.actions, h.once⟩

end Pg

/-! ### Statements -/

section

variable {t t' : Tx}

/-- An insertion logs its row. -/
theorem Tx.insert_audits {α : Type} {checks : List (Bool × SqlError)} {res r : α} {upd : Pg → Pg}
    {logs : Uuid → List AuditLog} {T : AuditedTable} (row : T.Row)
    (h : t.write checks res upd logs = (.ok r, t'))
    (hupd : upd t.pg = t.pg.setRows T (t.pg.rows T ++ [row]))
    (hlogs : ∀ a, logs a = [(⟨T, T.id row, .insert⟩ : RowWrite).log a]) :
    t.pg.Audits t'.pg t.actor [⟨T, T.id row, .insert⟩] ∧ t'.actor = t.actor := by
  rcases write_cases h with ⟨e, hr, -⟩ | ⟨actor, -, hactor, -, rfl⟩
  · cases hr
  · rw [hupd, hlogs]
    refine ⟨⟨(Pg.Wrote.insert t.pg row).log _, _, ?_, .cons ⟨actor, hactor, rfl⟩ .nil⟩, rfl⟩
    show (t.pg.setRows T _).auditLogs ++ _ = _
    rw [Pg.setRows_auditLogs]

/-- An `UPDATE` logs the rows it finds. -/
theorem Tx.update_audits {α : Type} {T : AuditedTable} {f : T.Row → T.Row} {touched : List Uuid}
    {checks : List (Bool × SqlError)} {res r : α} {upd : Pg → Pg} {logs : Uuid → List AuditLog}
    (h : t.write checks res upd logs = (.ok r, t'))
    (hupd : upd t.pg = t.pg.setRows T ((t.pg.rows T).map f))
    (hlogs : ∀ a, logs a = touched.map (fun id => ⟨T.name, id, a, .update⟩))
    (hwrote : t.pg.Wrote (t.pg.setRows T ((t.pg.rows T).map f))
      (touched.map (fun id => ⟨T, id, .update⟩))) :
    t.pg.Audits t'.pg t.actor (touched.map (fun id => ⟨T, id, .update⟩)) ∧
      t'.actor = t.actor := by
  rcases write_cases h with ⟨e, hr, -⟩ | ⟨actor, -, hactor, -, rfl⟩
  · cases hr
  · rw [hupd, hlogs]
    refine ⟨⟨hwrote.log _, touched.map (fun id => ⟨T.name, id, actor, .update⟩), ?_, ?_⟩, rfl⟩
    · show (t.pg.setRows T _).auditLogs ++ _ = _
      rw [Pg.setRows_auditLogs]
    · rw [List.forall₂_map_left_iff, List.forall₂_map_right_iff, List.forall₂_same]
      exact fun id _ => ⟨actor, hactor, rfl⟩

/-- An `UPDATE` by a condition logs the rows that meet it. -/
theorem Tx.found_audits {α : Type} {T : AuditedTable} (hids : (t.pg.ids T).Nodup)
    {P : T.Row → Bool} {f : T.Row → T.Row} (hid : ∀ row, T.id (f row) = T.id row) {res r : α}
    {upd : Pg → Pg} {touched : List Uuid} (htouched : touched = ((t.pg.rows T).filter P).map T.id)
    (hupd : upd t.pg = t.pg.setRows T ((t.pg.rows T).map (fun row => if P row then f row else row)))
    (h : t.update T.name touched res upd = (.ok r, t')) :
    t.pg.Audits t'.pg t.actor (((t.pg.rows T).filter P).map (fun row => ⟨T, T.id row, .update⟩)) ∧
      t'.actor = t.actor := by
  have hws : ((t.pg.rows T).filter P).map (fun row => (⟨T, T.id row, .update⟩ : RowWrite)) =
      touched.map (fun id => ⟨T, id, .update⟩) := by
    rw [htouched, List.map_map]
    rfl
  rw [hws]
  unfold update at h
  split at h
  · next hnone =>
      obtain ⟨-, rfl⟩ := Prod.mk.inj h
      rw [List.isEmpty_iff.mp hnone]
      exact ⟨.refl _ _, rfl⟩
  · refine update_audits h hupd (fun a => rfl) ?_
    rw [htouched]
    exact .found t.pg hids P hid

theorem Tx.upsertUserProvider_audits (hv : t.pg.Valid) {u p : Uuid} {metadata : Json}
    {row : Unit} (h : t.upsertUserProvider u p metadata = (.ok row, t')) :
    t.pg.Audits t'.pg t.actor ((Sql.upsertUserProvider u p metadata).rowsWritten t) ∧
      t'.actor = t.actor := by
  simp only [upsertUserProvider] at h
  unfold Sql.rowsWritten
  split at h
  · next row hrow =>
      simp only [hrow]
      have hmem := List.mem_of_find?_eq_some hrow
      have hlink : row.userId = u ∧ row.providerId = p := by simpa using List.find?_some hrow
      have hlogs : ∀ a : Uuid, [⟨"user_providers", row.id, a, .update⟩] =
          [row.id].map (fun id => (⟨AuditedTable.userProviders.name, id, a, .update⟩ : AuditLog)) :=
        fun a => rfl
      refine update_audits (T := .userProviders) h rfl hlogs ?_
      refine .update t.pg (fun up => ?_) (fun up hup hnot => ?_) (fun id hid => ?_)
        (List.nodup_singleton _)
      · split <;> rfl
      · refine if_neg (fun heq => hnot ?_)
        have heq : up.userId = u ∧ up.providerId = p := by simpa using heq
        -- the pair is unique, so this is the row that was found
        have hsame : up = row := by
          refine List.inj_on_of_nodup_map hv.linkPairs hup hmem (Prod.ext ?_ ?_)
          · exact heq.1.trans hlink.1.symm
          · exact heq.2.trans hlink.2.symm
        rw [hsame]
        exact List.mem_singleton_self _
      · rw [List.mem_singleton.mp hid]
        exact List.mem_map_of_mem hmem
  · next hnone =>
      simp only [hnone]
      let link : UserProvider := ⟨t.fresh, u, p, metadata, t.now, t.now⟩
      exact insert_audits (t := t.draw) (T := .userProviders) link h rfl (fun a => rfl)

/-- **The trigger logs what a statement writes.** -/
theorem Sql.exec_audits {s : Sql} {row : s.Row} (hv : t.pg.Valid) (hs : s ≠ .rollback)
    (hactor : ∀ a, s ≠ .setActor a) (h : Sql.exec s t = (.ok row, t')) :
    t.pg.Audits t'.pg t.actor (s.rowsWritten t) ∧ t'.actor = t.actor := by
  cases s with
  | rollback => exact absurd rfl hs
  | setActor a => exact absurd rfl (hactor a)
  | insertProvider p =>
      have h : t.insertProvider p = (.ok row, t') := h
      exact Tx.insert_audits (T := .providers) p.stored h rfl (fun a => rfl)
  | insertUser id nid metadata =>
      have h : t.insertUser id nid metadata = (.ok row, t') := h
      simp only [Tx.insertUser] at h
      let user : User := ⟨id, varchar 10 nid, metadata, t.now, t.now⟩
      exact Tx.insert_audits (T := .users) user h rfl (fun a => rfl)
  | upsertUserProvider u p metadata => exact Tx.upsertUserProvider_audits hv h
  | insertUserAccount id u p l =>
      have h : t.insertUserAccount id u p l = (.ok row, t') := h
      simp only [Tx.insertUserAccount] at h
      let account : UserAccount := ⟨id, u, p, l, .active, t.now, t.now⟩
      exact Tx.insert_audits (T := .userAccounts) account h rfl (fun a => rfl)
  | insertTransaction new =>
      have h : t.insertTransaction new = (.ok row, t') := h
      exact Tx.insert_audits (T := .transactions) (Tx.transactionRow t.now new) h rfl (fun a => rfl)
  | cancelActiveConfig u =>
      have h : t.cancelActiveConfig u = (.ok row, t') := h
      exact Tx.found_audits (T := .userPriorityConfigs) (P := Pg.isCurrent u)
        (f := UserPriorityConfig.cancel t.now) (hv.ids_nodup _) (fun c => rfl) rfl rfl h
  | insertConfig u key expiresAt =>
      have h : t.insertConfig u key expiresAt = (.ok row, t') := h
      simp only [Tx.insertConfig] at h
      exact Tx.insert_audits (t := t.draw) (T := .userPriorityConfigs)
        (newConfig t.fresh u key expiresAt t.now) h rfl (fun a => rfl)
  | insertItem new =>
      have h : t.insertItem new = (.ok row, t') := h
      simp only [Tx.insertItem] at h
      exact Tx.insert_audits (t := t.draw) (T := .userPriorityItems)
        (priorityItemRow t.fresh t.now new) h rfl (fun a => rfl)
  | softDeleteItems configId =>
      have h : t.softDeleteItems configId = (.ok row, t') := h
      exact Tx.found_audits (T := .userPriorityItems) (P := fun i => i.configId = configId)
        (f := fun i => { i with isDeleted := true, deletedAt := some t.now }) (hv.ids_nodup _)
        (fun i => rfl) rfl (by simp [Pg.setRows, Pg.rows]) h
  | softDeleteConfig configId =>
      have h : t.softDeleteConfig configId = (.ok row, t') := h
      exact Tx.found_audits (T := .userPriorityConfigs) (P := fun c => c.id = configId)
        (f := fun c => { c with isDeleted := true, deletedAt := some t.now }) (hv.ids_nodup _)
        (fun c => rfl) rfl (by simp [Pg.setRows, Pg.rows]) h
  | insertSystemAccount code name category l =>
      have h : t.insertSystemAccount code name category l = (.ok row, t') := h
      simp only [Tx.insertSystemAccount] at h
      simp only [Sql.rowsWritten]
      split at h
      · next hknown =>
          obtain ⟨-, rfl⟩ := Prod.mk.inj h
          rw [if_pos hknown]
          exact ⟨.refl _ _, rfl⟩
      · next hnew =>
          rw [if_neg hnew]
          let account : SystemAccount := ⟨t.fresh, code, name, category, l, .irr, t.now, t.now⟩
          exact Tx.insert_audits (t := t.draw) (T := .systemAccounts) account h rfl (fun a => rfl)
  | commit | newV4 =>
      obtain ⟨-, rfl⟩ := Prod.mk.inj h
      exact ⟨.refl _ _, rfl⟩
  | selectProviderById | selectUserByNid | selectUserAccount | selectUserProviderDetails
  | selectUserProviders | selectUserAccountsProviderInfo | selectTransactionByKey
  | selectConfigByKey | selectActiveConfig | selectConfigs | selectItems =>
      obtain ⟨-, rfl⟩ := Prod.mk.inj h
      exact ⟨.refl _ _, rfl⟩

end

/-! ### Watching a method -/

/-- A transaction, with the rows noted that it has written. -/
structure Watched where
  tx : Tx
  writes : List RowWrite

/-- Execute a statement and note what it writes. -/
def Sql.note (e : Sql) (s : Watched) : e.Resp × Watched :=
  match Sql.exec e s.tx with
  | (.ok row, t) => (.ok row, ⟨t, if e = .rollback then [] else s.writes ++ e.rowsWritten s.tx⟩)
  | (.error error, t) => (.error error, ⟨t, s.writes⟩)

/-- The rows that a method inserts and updates. -/
def Repo.rowsWritten {α : Type} (body : Repo α) (pg : Pg) (now : Timestamp) (uuid : Nat → Uuid) :
    List RowWrite :=
  (Prog.run Sql.note body.run ⟨Tx.begin pg now uuid, []⟩).2.writes

theorem Sql.exec_note (e : Sql) (s : Watched) :
    Sql.exec e s.tx = ((Sql.note e s).1, (Sql.note e s).2.tx) := by
  unfold note
  cases Sql.exec e s.tx with
  | mk r t => cases r <;> rfl

/-- Watching changes nothing. -/
theorem Repo.exec_watched {α : Type} (body : Repo α) (s : Watched) :
    body.exec s.tx =
      ((Prog.run Sql.note body.run s).1, (Prog.run Sql.note body.run s).2.tx) :=
  Prog.run_project Sql.exec_note body.run s

/-- The statements other than those that open and close a transaction. -/
def Sql.works : Sql → Prop
  | .setActor _ | .commit | .rollback => False
  | _ => True

/-- An open transaction for this actor that has written rows of these tables. -/
structure Watched.Under (pg : Pg) (actor : Option Uuid) (tables : List AuditedTable)
    (s : Watched) : Prop where
  base : s.tx.base = pg
  acting : s.tx.actor = actor
  valid : s.tx.pg.Valid
  audits : pg.Audits s.tx.pg actor s.writes
  within : ∀ w ∈ s.writes, w.table ∈ tables

/-- What is committed in the end. -/
def Watched.Ended (pg : Pg) (actor : Option Uuid) (s : Watched) : Prop :=
  pg.Audits s.tx.base actor s.writes

/-- Nothing is committed. -/
def Watched.Undone (pg : Pg) (s : Watched) : Prop := s.tx.base = pg

/-- The triples of repository methods on a database: where they start, what they leave in
the transaction, and that an error leaves nothing. -/
abbrev Repo.Audited {α : Type} (pg : Pg) (P : Watched → Prop) (body : Repo α)
    (Q : α → Watched → Prop) : Prop :=
  Prog.TripleE Sql.note P body Q (fun _ => Watched.Undone pg)

section

variable {pg : Pg} {actor : Option Uuid} {tables tables' : List AuditedTable} {now : Timestamp}
  {uuid : Nat → Uuid}

theorem Watched.Under.mono {s : Watched} (h : s.Under pg actor tables)
    (hsub : ∀ T ∈ tables, T ∈ tables') : s.Under pg actor tables' :=
  ⟨h.base, h.acting, h.valid, h.audits, fun w hw => hsub _ (h.within w hw)⟩

/-- A statement that updates rows only of tables not written before. -/
theorem query_audited (hv : pg.Valid) (tables' : List AuditedTable) {e : Sql}
    {contexts : List String} (hworks : e.works)
    (hrows : ∀ t, ∀ w ∈ e.rowsWritten t, w.table ∈ tables' ∧ (w.action = .update → w.table ∉ tables))
    (hsub : ∀ T ∈ tables, T ∈ tables') :
    Repo.Audited pg (Watched.Under pg actor tables) (query e contexts)
      (fun _ => Watched.Under pg actor tables') := by
  have hends : e ≠ .rollback ∧ e ≠ .commit ∧ ∀ a, e ≠ .setActor a :=
    ⟨fun h => by subst h; exact hworks, fun h => by subst h; exact hworks,
      fun a h => by subst h; exact hworks⟩
  obtain ⟨hrollback, hcommit, hactor⟩ := hends
  intro s hs
  cases hx : Sql.exec e s.tx with
  | mk r t =>
      have hbase : t.base = pg := by
        have := Sql.exec_base (t := s.tx) hcommit
        rw [hx] at this
        exact this.trans hs.base
      have hnote : Prog.run Sql.note (query e contexts).run s =
          ((Sql.note e s).1.mapError (RepoError.mk contexts), (Sql.note e s).2) := rfl
      rw [hnote]
      unfold Sql.note
      rw [hx]
      cases r with
      | error err => exact hbase
      | ok row =>
          obtain ⟨haudits, hsame⟩ := Sql.exec_audits hs.valid hrollback hactor hx
          rw [hs.acting] at haudits hsame
          have hvalid : t.pg.Valid := by
            have hkeep := (Sql.exec_valid (s := e) (hs.base ▸ hv) hs.valid).2
            rw [hx] at hkeep
            exact hkeep
          have hnew : ∀ w ∈ e.rowsWritten s.tx, w.action = .update → ∀ v ∈ s.writes,
              v.table ≠ w.table := by
            intro w hw hupdate v hv' heq
            exact (hrows s.tx w hw).2 hupdate (heq ▸ hs.within v hv')
          show Watched.Under pg actor tables' ⟨t, if e = .rollback then [] else _⟩
          rw [if_neg hrollback]
          refine ⟨hbase, hsame, hvalid, hs.audits.trans haudits hvalid.ids_nodup hnew, ?_⟩
          intro w hw
          rcases List.mem_append.mp hw with hw | hw
          · exact hsub _ (hs.within w hw)
          · exact (hrows s.tx w hw).1

theorem setActor_audited (hv : pg.Valid) (a : Uuid) (contexts : List String) :
    Repo.Audited pg (· = ⟨Tx.begin pg now uuid, []⟩) (query (.setActor a) contexts)
      (fun _ => Watched.Under pg (some a) []) := by
  rintro s rfl
  exact ⟨rfl, rfl, hv, .refl pg _, fun w hw => by cases hw⟩

theorem commit_audited {contexts : List String} :
    Repo.Audited pg (Watched.Under pg actor tables) (query .commit contexts)
      (fun _ => Watched.Ended pg actor) := by
  intro s hs
  have haudits := hs.audits
  show pg.Audits s.tx.pg actor (if Sql.commit = Sql.rollback then [] else s.writes ++ [])
  rw [if_neg (by simp), List.append_nil]
  exact haudits

theorem rollback_audited {contexts : List String} :
    Repo.Audited pg (Watched.Under pg actor tables) (query .rollback contexts)
      (fun _ => Watched.Ended pg actor) := by
  intro s hs
  show pg.Audits s.tx.base actor (if Sql.rollback = Sql.rollback then [] else s.writes ++ [])
  rw [if_pos rfl, hs.base]
  exact .refl pg actor

end

/-! ### The methods that write -/

/-- A call of a method that writes. -/
inductive Mutator where
  | createProvider (provider : Provider) (actorId : Uuid)
  | createOrLinkUser (nid : String) (providerId : Uuid) (internalMetadata externalMetadata : Json)
      (ledgerAccountId actorId : Uuid)
  | executeCreditTransfer (idempotencyKey : String) (amount : Int)
      (providerId userId providerLedgerId userLedgerId actorId : Uuid) (description : Option String)
  | executeDebitTransfer (idempotencyKey : String) (amount : Int)
      (providerId userId providerLedgerId userLedgerId actorId : Uuid) (description : Option String)
  | createPriorityConfig (idempotencyKey : String) (userId : Uuid) (items : List PriorityItemData)
      (expiresAt : Option Timestamp) (actorId : Uuid)
  | cancelActivePriorityConfig (userId actorId : Uuid)
  | softDeletePriorityConfig (configId : Uuid)
  deriving DecidableEq, Repr

namespace Mutator

/-- What the call does; its result is only whether it succeeded. -/
def body : Mutator → Repo Unit
  | createProvider provider actorId => do
      let _ ← Db.createProvider provider actorId
      return ()
  | createOrLinkUser nid providerId internalMetadata externalMetadata ledgerAccountId actorId => do
      let _ ← Db.createOrLinkUser nid providerId internalMetadata externalMetadata ledgerAccountId
        actorId
      return ()
  | executeCreditTransfer key amount providerId userId providerLedgerId userLedgerId actorId
      description => do
      let _ ← Db.executeCreditTransfer key amount providerId userId providerLedgerId userLedgerId
        actorId description
      return ()
  | executeDebitTransfer key amount providerId userId providerLedgerId userLedgerId actorId
      description => do
      let _ ← Db.executeDebitTransfer key amount providerId userId providerLedgerId userLedgerId
        actorId description
      return ()
  | createPriorityConfig key userId items expiresAt actorId => do
      let _ ← Db.createPriorityConfig key userId items expiresAt actorId
      return ()
  | cancelActivePriorityConfig userId actorId => do
      let _ ← Db.cancelActivePriorityConfig userId actorId
      return ()
  | softDeletePriorityConfig configId => Db.softDeletePriorityConfig configId

/-- The `actor_id` of the call; `soft_delete_priority_config` has none. -/
def actorId? : Mutator → Option Uuid
  | createProvider _ actorId => some actorId
  | createOrLinkUser _ _ _ _ _ actorId => some actorId
  | executeCreditTransfer _ _ _ _ _ _ actorId _ => some actorId
  | executeDebitTransfer _ _ _ _ _ _ actorId _ => some actorId
  | createPriorityConfig _ _ _ _ actorId => some actorId
  | cancelActivePriorityConfig _ actorId => some actorId
  | softDeletePriorityConfig _ => none

end Mutator

section

variable {pg : Pg} {actor : Option Uuid} {tables : List AuditedTable} {now : Timestamp}
  {uuid : Nat → Uuid}

theorem findOrCreateUser_audited (hv : pg.Valid) (nid : String) (metadata : Json) :
    Repo.Audited pg (Watched.Under pg actor tables) (findOrCreateUser nid metadata)
      (fun _ => Watched.Under pg actor (.users :: tables)) := by
  refine .bind (query_audited hv (.users :: tables) trivial (by simp [Sql.rowsWritten])
    (fun T hT => List.mem_cons_of_mem _ hT)) (fun found => ?_)
  cases found with
  | some user => exact .pure (fun s hs => hs)
  | none =>
      refine .bind (query_audited hv (.users :: tables) trivial
        (by simp [Sql.rowsWritten]) (fun T hT => hT)) (fun id => ?_)
      exact query_audited hv _ trivial (by simp [Sql.rowsWritten]) (fun T hT => hT)

theorem findOrCreateAccount_audited (hv : pg.Valid) (userId providerId lid : Uuid) :
    Repo.Audited pg (Watched.Under pg actor tables) (findOrCreateAccount userId providerId lid)
      (fun _ => Watched.Under pg actor (.userAccounts :: tables)) := by
  refine .bind (query_audited hv (.userAccounts :: tables) trivial
    (by simp [Sql.rowsWritten]) (fun T hT => List.mem_cons_of_mem _ hT)) (fun found => ?_)
  cases found with
  | some account => exact .pure (fun s hs => hs)
  | none =>
      refine .bind (query_audited hv (.userAccounts :: tables) trivial
        (by simp [Sql.rowsWritten]) (fun T hT => hT)) (fun id => ?_)
      exact query_audited hv _ trivial (by simp [Sql.rowsWritten]) (fun T hT => hT)

theorem insertItems_audited (hv : pg.Valid) (configId : Uuid) (items : List PriorityItemData)
    (index : Nat) (hitems : .userPriorityItems ∈ tables) :
    Repo.Audited pg (Watched.Under pg actor tables) (insertItems configId index items)
      (fun _ => Watched.Under pg actor tables) := by
  have hinsert : ∀ new contexts, Repo.Audited pg (Watched.Under pg actor tables)
      (query (.insertItem new) contexts) (fun _ => Watched.Under pg actor tables) := by
    intro new contexts
    refine query_audited hv _ trivial (fun t w hw => ?_) (fun T hT => hT)
    rw [List.mem_singleton.mp hw]
    exact ⟨hitems, fun h => by cases h⟩
  induction items generalizing index with
  | nil => exact .pure (fun s hs => hs)
  | cons item items ih =>
      have hround : ∀ new contexts, Repo.Audited pg (Watched.Under pg actor tables)
          (query (.insertItem new) contexts >>= fun _ => insertItems configId (index + 1) items)
          (fun _ => Watched.Under pg actor tables) :=
        fun new contexts => Prog.TripleE.bind (hinsert new contexts) (fun _ => ih (index + 1))
      exact hround _ _

theorem executeTransfer_audited (hv : pg.Valid) (ty : TransactionType) (key : String)
    (amount : Int) (providerId userId dr cr actorId : Uuid) (description : Option String) :
    Repo.Audited pg (· = ⟨Tx.begin pg now uuid, []⟩)
      (executeTransfer ty key amount providerId userId dr cr actorId description)
      (fun _ => Watched.Ended pg (some actorId)) := by
  refine .bind (setActor_audited hv actorId []) (fun _ => ?_)
  refine .bind (query_audited hv [] trivial (by simp [Sql.rowsWritten]) (by simp))
    (fun id => ?_)
  refine .bind (query_audited hv [.transactions] trivial (by simp [Sql.rowsWritten])
    (by simp)) (fun row => ?_)
  exact .bind commit_audited (fun _ => .pure (fun s hs => hs))

/-- **What a call commits is audited**, and what fails is undone. -/
theorem Mutator.body_audited (hv : pg.Valid) (m : Mutator) :
    Repo.Audited pg (· = ⟨Tx.begin pg now uuid, []⟩) m.body
      (fun _ => Watched.Ended pg m.actorId?) := by
  cases m with
  | createProvider provider actorId =>
      refine .bind ?_ (fun _ => .pure (fun s hs => hs))
      refine .bind (setActor_audited hv actorId []) (fun _ => ?_)
      refine .bind (query_audited hv [.providers] trivial (by simp [Sql.rowsWritten])
        (by simp)) (fun row => ?_)
      exact .bind commit_audited (fun _ => .pure (fun s hs => hs))
  | createOrLinkUser nid providerId internalMetadata externalMetadata lid actorId =>
      refine .bind ?_ (fun _ => .pure (fun s hs => hs))
      refine .bind (setActor_audited hv actorId []) (fun _ => ?_)
      refine .bind (findOrCreateUser_audited hv nid internalMetadata) (fun user => ?_)
      refine .bind (query_audited hv [.userProviders, .users] trivial ?_ (by simp))
        (fun _ => ?_)
      · intro t w hw
        simp only [Sql.rowsWritten] at hw
        split at hw <;> simp_all
      refine .bind (findOrCreateAccount_audited hv user.id providerId lid) (fun account => ?_)
      exact .bind commit_audited (fun _ => .pure (fun s hs => hs))
  | executeCreditTransfer key amount providerId userId plid ulid actorId description =>
      exact .bind (executeTransfer_audited hv .credit key amount providerId userId plid ulid actorId
        description) (fun _ => .pure (fun s hs => hs))
  | executeDebitTransfer key amount providerId userId plid ulid actorId description =>
      exact .bind (executeTransfer_audited hv .debit key amount providerId userId ulid plid actorId
        description) (fun _ => .pure (fun s hs => hs))
  | createPriorityConfig key userId items expiresAt actorId =>
      refine .bind ?_ (fun _ => .pure (fun s hs => hs))
      refine .bind (setActor_audited hv actorId _) (fun _ => ?_)
      refine .bind (query_audited hv [.userPriorityConfigs, .userPriorityItems] trivial
        (fun t w hw => ?_) (fun T hT => by cases hT)) (fun _ => ?_)
      · obtain ⟨c, -, rfl⟩ := List.mem_map.mp hw
        simp
      refine .bind (query_audited hv [.userPriorityConfigs, .userPriorityItems] trivial
        (by simp [Sql.rowsWritten]) (fun T hT => hT)) (fun config => ?_)
      refine .bind (insertItems_audited hv config.id items 0 (by simp)) (fun _ => ?_)
      refine .bind (query_audited hv [.userPriorityConfigs, .userPriorityItems] trivial
        (by simp [Sql.rowsWritten]) (fun T hT => hT)) (fun created => ?_)
      exact .bind commit_audited (fun _ => .pure (fun s hs => hs))
  | cancelActivePriorityConfig userId actorId =>
      refine .bind ?_ (fun _ => .pure (fun s hs => hs))
      refine .bind (setActor_audited hv actorId _) (fun _ => ?_)
      refine .bind (query_audited hv [.userPriorityConfigs] trivial
        (fun t w hw => ?_) (fun T hT => by cases hT)) (fun found => ?_)
      · obtain ⟨c, -, rfl⟩ := List.mem_map.mp hw
        simp
      cases found with
      | none => exact .bind rollback_audited (fun _ => .pure (fun s hs => hs))
      | some config =>
          refine .bind (query_audited hv _ trivial (by simp [Sql.rowsWritten]) (fun T hT => hT))
            (fun items => ?_)
          exact .bind commit_audited (fun _ => .pure (fun s hs => hs))
  | softDeletePriorityConfig configId =>
      have hitems : Repo.Audited pg (Watched.Under pg none []) (query (.softDeleteItems configId) [])
          (fun _ => Watched.Under pg none [.userPriorityItems]) := by
        refine query_audited hv _ trivial (fun t w hw => ?_) (fun T hT => by cases hT)
        obtain ⟨i, -, rfl⟩ := List.mem_map.mp hw
        simp
      have hopen : Repo.Audited pg (· = ⟨Tx.begin pg now uuid, []⟩)
          (query (.softDeleteItems configId) [])
          (fun _ => Watched.Under pg none [.userPriorityItems]) := by
        refine hitems.weaken ?_ (fun _ s hs => hs) (fun _ s hs => hs)
        rintro s rfl
        exact ⟨rfl, rfl, hv, .refl pg _, fun w hw => by cases hw⟩
      refine .bind hopen (fun _ => ?_)
      refine .bind (query_audited hv [.userPriorityConfigs, .userPriorityItems] trivial
        (fun t w hw => ?_) (by simp)) (fun _ => commit_audited)
      obtain ⟨c, -, rfl⟩ := List.mem_map.mp hw
      simp

end

/-! ### The property and its condition -/

namespace Mutator

variable {pg : Pg} {now : Timestamp} {uuid : Nat → Uuid}

/-- No statement of the call breaks a constraint: with an actor set for the trigger from
the start, the call runs to its end. -/
def Lawful (m : Mutator) (pg : Pg) (now : Timestamp) (uuid : Nat → Uuid) : Prop :=
  (m.body.exec ((Tx.begin pg now uuid).asActor nilUuid)).1 = .ok ()

/-- **The call is audited**, and not aborted by the trigger. -/
structure IsAudited (m : Mutator) (pg : Pg) (now : Timestamp) (uuid : Nat → Uuid) : Prop where
  commits : m.Lawful pg now uuid → (m.body.transact pg now uuid).1 = .ok ()
  audits : (m.body.transact pg now uuid).1 = .ok () →
    pg.Audits (m.body.transact pg now uuid).2.1 m.actorId? (m.body.rowsWritten pg now uuid)
  undone : (m.body.transact pg now uuid).1 ≠ .ok () → (m.body.transact pg now uuid).2.1 = pg

/-- The call deletes a configuration that is there, or items of one. -/
def FindsDeleted (pg : Pg) : Mutator → Prop
  | softDeletePriorityConfig configId =>
      (∃ c ∈ pg.configs, c.id = configId) ∨ ∃ i ∈ pg.items, i.configId = configId
  | _ => False

/-- The methods other than `soft_delete_priority_config` set the actor themselves. -/
theorem exec_asActor {m : Mutator} (h : ∀ configId, m ≠ .softDeletePriorityConfig configId)
    (a : Uuid) (t : Tx) : m.body.exec (t.asActor a) = m.body.exec t := by
  cases m with
  | softDeletePriorityConfig configId => exact absurd rfl (h configId)
  | _ => rfl

/-- Deleting under an actor always succeeds. -/
theorem lawful_softDelete (configId : Uuid) :
    (softDeletePriorityConfig configId).Lawful pg now uuid := by
  have hupdate : ∀ {t : Tx} {table : String} {touched : List Uuid} {upd : Pg → Pg} {a : Uuid},
      t.actor = some a → ∃ t', t.update table touched () upd = (.ok (), t') ∧ t'.actor = some a := by
    intro t table touched upd a ha
    unfold Tx.update
    split
    · exact ⟨t, rfl, ha⟩
    · exact ⟨_, Tx.write_ok ha (by simp), ha⟩
  obtain ⟨t₁, hitems, ha₁⟩ : ∃ t', Sql.exec (.softDeleteItems configId)
      ((Tx.begin pg now uuid).asActor nilUuid) = (.ok (), t') ∧ t'.actor = some nilUuid :=
    hupdate rfl
  obtain ⟨t₂, hconfig, -⟩ : ∃ t', Sql.exec (.softDeleteConfig configId) t₁ = (.ok (), t') ∧
      t'.actor = some nilUuid := hupdate ha₁
  unfold Lawful body Db.softDeletePriorityConfig
  rw [Repo.exec_bind_ok (Repo.exec_query_ok hitems), Repo.exec_bind_ok (Repo.exec_query_ok hconfig)]
  rfl

/-- Without an actor, it succeeds exactly if there is nothing to delete. -/
theorem softDelete_ok_iff (configId : Uuid) :
    ((softDeletePriorityConfig configId).body.transact pg now uuid).1 = .ok () ↔
      ¬ (softDeletePriorityConfig configId).FindsDeleted pg := by
  have hupdate : ∀ (table : String) (touched : List Uuid) (upd : Pg → Pg),
      (Tx.begin pg now uuid).update table touched () upd =
        if touched = [] then (.ok (), Tx.begin pg now uuid)
        else (.error (.raised auditMessage), Tx.begin pg now uuid) := by
    intro table touched upd
    cases touched <;> rfl
  have hitems : (pg.items.filter (fun i => i.configId = configId)).map (·.id) = [] ↔
      ∀ i ∈ pg.items, i.configId ≠ configId := by
    simp [List.filter_eq_nil_iff]
  have hconfigs : (pg.configs.filter (fun c => c.id = configId)).map (·.id) = [] ↔
      ∀ c ∈ pg.configs, c.id ≠ configId := by
    simp [List.filter_eq_nil_iff]
  have hfinds : ¬ (softDeletePriorityConfig configId).FindsDeleted pg ↔
      (∀ i ∈ pg.items, i.configId ≠ configId) ∧ ∀ c ∈ pg.configs, c.id ≠ configId := by
    simp only [FindsDeleted, not_or, not_exists, not_and]
    exact and_comm
  rw [hfinds, ← hitems, ← hconfigs]
  show (Repo.exec (Db.softDeletePriorityConfig configId) (Tx.begin pg now uuid)).1 = _ ↔ _
  have hfirst : Sql.exec (.softDeleteItems configId) (Tx.begin pg now uuid) = _ := hupdate _ _ _
  have hsecond : Sql.exec (.softDeleteConfig configId) (Tx.begin pg now uuid) = _ := hupdate _ _ _
  unfold Db.softDeletePriorityConfig
  by_cases h₁ : (pg.items.filter (fun i => i.configId = configId)).map (·.id) = []
  · rw [Repo.exec_bind_ok (Repo.exec_query_ok (hfirst.trans (if_pos h₁)))]
    by_cases h₂ : (pg.configs.filter (fun c => c.id = configId)).map (·.id) = []
    · rw [Repo.exec_bind_ok (Repo.exec_query_ok (hsecond.trans (if_pos h₂)))]
      exact ⟨fun _ => ⟨h₁, h₂⟩, fun _ => rfl⟩
    · rw [Repo.exec_bind_error (Repo.exec_query_error (hsecond.trans (if_neg h₂)))]
      exact ⟨fun h => (by cases h), fun h => absurd h.2 h₂⟩
  · rw [Repo.exec_bind_error (Repo.exec_query_error (hfirst.trans (if_neg h₁)))]
    exact ⟨fun h => (by cases h), fun h => absurd h.1 h₁⟩

/-- **Every call is audited, except a deletion that finds a row.** -/
theorem audited_iff (hv : pg.Valid) (m : Mutator) (now : Timestamp) (uuid : Nat → Uuid) :
    m.IsAudited pg now uuid ↔ ¬ m.FindsDeleted pg := by
  constructor
  · intro h hfinds
    cases m with
    | softDeletePriorityConfig configId =>
        exact (softDelete_ok_iff configId).mp (h.commits (lawful_softDelete configId)) hfinds
    | _ => exact hfinds
  · intro h
    have hrun := m.body_audited hv ⟨Tx.begin pg now uuid, []⟩ rfl
    have hwatched := m.body.exec_watched ⟨Tx.begin pg now uuid, []⟩
    have hresult : (m.body.transact pg now uuid).1 =
        (Prog.run Sql.note m.body.run ⟨Tx.begin pg now uuid, []⟩).1 := congrArg Prod.fst hwatched
    have hbase : (m.body.transact pg now uuid).2.1 =
        (Prog.run Sql.note m.body.run ⟨Tx.begin pg now uuid, []⟩).2.tx.base :=
      congrArg (fun out => out.2.base) hwatched
    refine ⟨fun hlawful => ?_, fun hok => ?_, fun herr => ?_⟩
    · by_cases hdelete : ∃ configId, m = .softDeletePriorityConfig configId
      · obtain ⟨configId, rfl⟩ := hdelete
        exact (softDelete_ok_iff configId).mpr h
      · have hother : ∀ configId, m ≠ .softDeletePriorityConfig configId :=
          fun configId heq => hdelete ⟨configId, heq⟩
        unfold Lawful at hlawful
        rw [exec_asActor hother] at hlawful
        exact hlawful
    · rw [hresult] at hok
      rw [hok] at hrun
      rw [hbase]
      exact hrun
    · rw [hresult] at herr
      rw [hbase]
      cases hr : (Prog.run Sql.note m.body.run ⟨Tx.begin pg now uuid, []⟩).1 with
      | ok u => exact absurd hr herr
      | error e =>
          rw [hr] at hrun
          exact hrun

/-- The first provider is created in an empty database. -/
theorem audited_iff_firstProvider :
    (createProvider (namedProvider ⟨1⟩ ⟨11⟩) ⟨9⟩).IsAudited .empty 0 (fun n => ⟨BitVec.ofNat 128 n⟩) :=
  (audited_iff .empty _ 0 _).mpr (fun h => h)

/-- One configuration, without items. -/
def onePriority : Pg :=
  { Pg.empty with
    users := [⟨⟨7⟩, "0012345678", "{}", 0, 0⟩]
    configs := [newConfig ⟨5⟩ ⟨7⟩ "key" none 0] }

theorem softDelete_not_audited :
    ¬ (softDeletePriorityConfig ⟨5⟩).IsAudited onePriority 0 (fun n => ⟨BitVec.ofNat 128 n⟩) := by
  intro h
  have hfails := h.commits (lawful_softDelete ⟨5⟩)
  have herror : ((softDeletePriorityConfig ⟨5⟩).body.transact onePriority 0
      (fun n => ⟨BitVec.ofNat 128 n⟩)).1 = .error ⟨[], .raised auditMessage⟩ := by decide +kernel
  rw [herror] at hfails
  cases hfails

end Mutator

end Wurzburg.Db
