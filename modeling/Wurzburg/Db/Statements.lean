import Wurzburg.Db.Stages

/-!
# Wurzburg.Db.Statements

What one statement of a priority transaction does in its stage
(`Stage.Holds.wrote`), what its commit does to the tables
(`Stage.Holds.commit`), and that a stage stands whatever another transaction
commits (`Stage.Holds.elsewhere`).
-/

namespace Wurzburg.Db

open Wurzburg.Lib

/-! ### The tables under another name -/

theorem Pg.SamePriorities.admitsItem {pg pg' : Pg} (h : Pg.SamePriorities pg pg')
    {row : PriorityItemRow} (hadm : pg'.AdmitsItem row) : pg.AdmitsItem row where
  order := hadm.order
  amount := hadm.amount
  unique := h.items ▸ hadm.unique
  config := h.configs ▸ hadm.config
  provider := h.providers ▸ hadm.provider

theorem Pg.SamePriorities.continues {pg₀ pg pg' : Pg} (h : Pg.SamePriorities pg pg')
    (hc : Pg.Continues pg₀ pg) : Pg.Continues pg₀ pg' :=
  hc.trans (.of_eq h.configs h.items)

theorem Pg.SamePriorities.priorities {pg pg' : Pg} (h : Pg.SamePriorities pg pg')
    (hp : Priorities pg) : Priorities pg' :=
  hp.congr h.configs h.items (h.providers ▸ List.Subset.refl _)

theorem Pg.AdmitsConfig.congr {pg pg' : Pg} {c : UserPriorityConfig} (h : pg.AdmitsConfig c)
    (hconfigs : pg'.configs = pg.configs) (husers : pg'.users = pg.users) : pg'.AdmitsConfig c where
  expiry := h.expiry
  key := h.key
  newId := hconfigs ▸ h.newId
  newKey := hconfigs ▸ h.newKey
  noActive := hconfigs ▸ h.noActive
  user := husers ▸ h.user

/-- An item after those that were inserted. -/
theorem Pg.AdmitsItems.concat {pg : Pg} {actor : Uuid} {rows : List PriorityItemRow}
    {row : PriorityItemRow} (h : pg.AdmitsItems rows)
    (hrow : (pg.addItems actor rows).AdmitsItem row) : pg.AdmitsItems (rows ++ [row]) := by
  have hunique : ∀ j ∈ pg.items ++ rows, j.Compatible row := by
    rw [← addItems_items pg actor rows]
    exact hrow.unique
  have hconfig := hrow.config
  have hprovider := hrow.provider
  rw [addItems_configs] at hconfig
  rw [addItems_providers] at hprovider
  refine ⟨fun r hr => ?_, List.pairwise_append.mpr ⟨h.2, List.pairwise_singleton _ _, ?_⟩⟩
  · rcases List.mem_append.mp hr with hr | hr
    · exact h.1 r hr
    · rw [List.mem_singleton.mp hr]
      exact ⟨hrow.order, hrow.amount, fun j hj => hunique j (List.mem_append_left _ hj), hconfig,
        hprovider⟩
  · intro r hr r' hr'
    rw [List.mem_singleton.mp hr']
    exact hunique r (List.mem_append_right _ hr)

/-- The rows of one more item. -/
theorem itemRows_take_succ {configId : Uuid} {now : Timestamp} {uuid : Nat → Uuid} {n : Nat}
    {items : List PriorityItemData} {item : PriorityItemData} (h : items[n]? = some item) :
    itemRows configId now uuid 0 (items.take (n + 1)) =
      itemRows configId now uuid 0 (items.take n) ++
        [itemRow configId now (uuid (n + 1)) n item] := by
  obtain ⟨hn, rfl⟩ := List.getElem?_eq_some_iff.mp h
  have hlength : n < (itemRows configId now uuid 0 items).length := by rwa [itemRows_length]
  rw [itemRows_take, itemRows_take, List.take_add_one, List.getElem?_eq_getElem hlength,
    itemRows_getElem hn]
  rfl

/-- New rows have no deletion marks. -/
theorem unmarked_itemRows (configId : Uuid) (now : Timestamp) (uuid : Nat → Uuid)
    (items : List PriorityItemData) :
    (itemRows configId now uuid 0 items).map PriorityItemRow.unmarked =
      itemRows configId now uuid 0 items := by
  rw [itemRows_eq, List.map_map]
  refine List.map_congr_left (fun x _ => ?_)
  simp only [Function.comp, itemRow, PriorityItemRow.unmarked]

/-! ### The configuration in force -/

/-- There is at most one. -/
theorem Priorities.current_eq {pg : Pg} (h : Priorities pg) {userId : Uuid}
    {rows : List UserPriorityConfig}
    (hrows : rows.Sublist (pg.configs.filter (Pg.isCurrent userId))) : rows = rows.head?.toList := by
  have hcurrent : ∀ c ∈ rows, c ∈ pg.configs ∧ c.userId = userId ∧ c.status = .active := by
    intro c hc
    obtain ⟨hmem, hcur⟩ := List.mem_filter.mp (hrows.subset hc)
    simp only [Pg.isCurrent, decide_eq_true_eq] at hcur
    exact ⟨hmem, hcur.1, hcur.2.1⟩
  cases rows with
  | nil => rfl
  | cons c cs =>
      cases cs with
      | nil => rfl
      | cons d ds =>
          have hnodup : (c :: d :: ds).Nodup :=
            (hrows.trans List.filter_sublist).nodup h.ids.of_map
          obtain ⟨hc, hcu, hca⟩ := hcurrent c (List.mem_cons_self ..)
          obtain ⟨hd, hdu, hda⟩ := hcurrent d (List.mem_cons_of_mem _ (List.mem_cons_self ..))
          have heq := h.active_unique hc hd (hcu.trans hdu.symm) hca hda
          rw [heq] at hnodup
          simp at hnodup

/-- The one that was found is the one there is. -/
theorem Priorities.current_found {pg : Pg} (h : Priorities pg) {c : UserPriorityConfig}
    {userId : Uuid} (hc : c ∈ pg.configs) (hcur : Pg.isCurrent userId c = true) :
    pg.configs.filter (Pg.isCurrent userId) = [c] := by
  have hmem : c ∈ pg.configs.filter (Pg.isCurrent userId) := List.mem_filter.mpr ⟨hc, hcur⟩
  have heq := h.current_eq (List.Sublist.refl (pg.configs.filter (Pg.isCurrent userId)))
  cases hhead : (pg.configs.filter (Pg.isCurrent userId)).head? with
  | none =>
      rw [List.head?_eq_none_iff.mp hhead] at hmem
      cases hmem
  | some d =>
      rw [hhead] at heq
      rw [heq] at hmem ⊢
      rw [List.mem_singleton.mp hmem]
      rfl

/-- Cancelling changes the row. -/
theorem UserPriorityConfig.cancel_ne {userId : Uuid} {now : Timestamp} {c : UserPriorityConfig}
    (h : Pg.isCurrent userId c = true) : c.cancel now ≠ c := by
  intro heq
  have hactive : c.status = .active := by
    simp only [Pg.isCurrent, decide_eq_true_eq] at h
    exact h.2.1
  have hcancelled : (c.cancel now).status = .cancelled := rfl
  rw [heq, hactive] at hcancelled
  cases hcancelled

/-! ### One statement -/

/-- The stage depends on what the call is and what has been written. -/
theorem Stage.Holds.of_same {pg : Pg} {s s' : PrioritySession} {φ : Stage} (h : φ.Holds pg s)
    (hcall : s'.call = s.call) (hnow : s'.now = s.now) (huuid : s'.uuid = s.uuid)
    (hdrawn : s'.drawn = s.drawn) (hactor : s'.actor = s.actor)
    (hhas : ∀ configs items, s.Has configs items → s'.Has configs items) : φ.Holds pg s' := by
  obtain ⟨call, now, uuid, drawn, actor, own, found, rest⟩ := s
  obtain ⟨call', now', uuid', drawn', actor', own', found', rest'⟩ := s'
  obtain rfl : call' = call := hcall
  obtain rfl : now' = now := hnow
  obtain rfl : uuid' = uuid := huuid
  obtain rfl : drawn' = drawn := hdrawn
  obtain rfl : actor' = actor := hactor
  cases h with
  | opened acts drawn has => exact .opened acts drawn (hhas _ _ has)
  | acting acts drawn has => exact .acting acts drawn (hhas _ _ has)
  | replaced acts drawn has old => exact .replaced acts drawn (hhas _ _ has) old
  | inserted call acts drawn has admits =>
      exact .inserted call acts drawn (hhas _ _ has) admits
  | committed has records => exact .committed (hhas _ _ has) records
  | undone has => exact .undone (hhas _ _ has)

/-- An `UPDATE` without an actor changes nothing: the trigger refuses it, or it has found
nothing. -/
theorem Tx.update_noActor {α : Type} {t : Tx} {table : String} {touched : List Uuid} {row : α}
    {upd : Pg → Pg} (ha : t.actor = none) : (t.update table touched row upd).2 = t := by
  unfold update
  split
  · rfl
  · cases hw : t.write [] row upd
        (fun actor => touched.map (fun id => ⟨table, id, actor, .update⟩)) with
    | mk r t' =>
        rcases write_cases hw with ⟨e, -, rfl⟩ | ⟨actor, -, hactor, -⟩
        · rfl
        · rw [ha] at hactor
          cases hactor

section

variable {pg : Pg} {s : PrioritySession} {φ : Stage} {seen : Pg}

/-- A statement that changes nothing. -/
theorem Stage.Holds.kept (h : φ.Holds pg s) : φ.Holds pg (s.wrote seen (s.tx pg seen)) :=
  h.of_same rfl rfl rfl rfl rfl (fun _ _ hhas => hhas.kept rfl)

theorem Stage.Holds.wrote_setActor {a : Uuid} (h : Stage.opened.Holds pg s)
    (hactor : s.call.actor? = some a) :
    Stage.acting.Holds pg (s.wrote seen ((s.tx pg seen).asActor a)) := by
  cases h with
  | opened acts drawn has => exact .acting hactor.symm drawn (has.kept rfl)

/-- The configuration in force is cancelled, if it was found. -/
theorem Stage.Holds.wrote_cancel {u a : Uuid} {ids : List Uuid} (hp : Priorities pg)
    (h : Stage.acting.Holds pg s) (hseen : seen = (s.view pg).only ids .configs) :
    (Stage.replaced u ((seen.configs.filter (Pg.isCurrent u)).head?.map (·.cancel s.now))).Holds pg
      (s.wrote seen { s.tx pg seen with pg := seen.cancelActive u a s.now }) := by
  cases h with
  | acting acts drawn has =>
      obtain ⟨rows, hrows⟩ : ∃ rows, seen.configs.filter (Pg.isCurrent u) = rows := ⟨_, rfl⟩
      have hconfigs : seen.configs = pg.configs.filter (fun c => c.id ∈ ids) := by
        rw [hseen]
        show (s.view pg).configs.filter _ = _
        rw [has.view_nil.configs]
      have hsub : rows.Sublist (pg.configs.filter (Pg.isCurrent u)) := by
        rw [← hrows, hconfigs]
        exact List.filter_sublist.filter _
      have hids : (seen.configs.map (·.id)).Nodup := by
        rw [hconfigs]
        exact hp.ids.sublist (List.filter_sublist.map _)
      have hwritten : changed seen.configs (seen.cancelActive u a s.now).configs =
          rows.map (·.cancel s.now) := by
        rw [Pg.cancelActive_configs, ← hrows]
        exact changed_rewritten hids (fun _ => rfl)
          (fun c _ hcur => UserPriorityConfig.cancel_ne hcur)
      have hitems : changed seen.items (seen.cancelActive u a s.now).items = [] := by
        rw [Pg.cancelActive_items, changed_self]
      have hcore := Pg.cancelActive_sameCore seen u a s.now
      have hhas : (s.wrote seen { s.tx pg seen with pg := seen.cancelActive u a s.now }).Has
          (supersede (·.id) [] (rows.map (·.cancel s.now))) (supersede (·.id) [] []) :=
        has.wrote hwritten hitems hcore.users hcore.providers
      have hone : rows.map (·.cancel s.now) = (rows.head?.map (·.cancel s.now)).toList := by
        have hhead := hp.current_eq hsub
        cases hc : rows.head? with
        | none => rw [List.head?_eq_none_iff.mp hc]; rfl
        | some c =>
            rw [hc] at hhead
            rw [hhead]
            rfl
      have hsupersede : supersede (·.id) [] (rows.map (·.cancel s.now)) =
          rows.map (·.cancel s.now) := List.nil_append _
      rw [hsupersede, hone] at hhas
      rw [hrows]
      refine .replaced acts drawn hhas (fun v hv => ?_)
      obtain ⟨c, hc, rfl⟩ := Option.map_eq_some_iff.mp hv
      have hmem := hsub.subset (List.mem_of_head? hc)
      exact ⟨c, List.mem_of_mem_filter hmem, (List.mem_filter.mp hmem).2, rfl⟩

/-- The new configuration is inserted. -/
theorem Stage.Holds.wrote_insertConfig {key : String} {u a : Uuid} {items : List PriorityItemData}
    {expiresAt : Option Timestamp} {found : Option UserPriorityConfig} (hp : Priorities pg)
    (h : (Stage.replaced u found).Holds pg s) (hcall : s.call = .create key u items expiresAt a)
    (hadm : (s.view pg).AdmitsConfig (newConfig (s.uuid 0) u key expiresAt s.now)) :
    (Stage.inserted (s.uuid 0) 0).Holds pg (s.wrote (s.view pg)
      { s.tx pg (s.view pg) with
        drawn := 1
        pg := (s.view pg).addConfig a (newConfig (s.uuid 0) u key expiresAt s.now) }) := by
  cases h with
  | replaced acts drawn has old =>
      obtain ⟨c, hc⟩ : ∃ c, newConfig (s.uuid 0) u key expiresAt s.now = c := ⟨_, rfl⟩
      have hid : c.id = s.uuid 0 := by rw [← hc]; rfl
      have huser : c.userId = u := by rw [← hc]; rfl
      rw [hc] at hadm ⊢
      -- what the view does not show as active any more is the row that was found
      have hfound : found.toList = (pg.configs.filter (Pg.isCurrent u)).map (·.cancel s.now) := by
        cases found with
        | none =>
            have hnone : pg.configs.filter (Pg.isCurrent u) = [] := by
              refine List.filter_eq_nil_iff.mpr (fun d hd hcur => ?_)
              simp only [Pg.isCurrent, decide_eq_true_eq] at hcur
              rw [← has.view_nil.configs] at hd
              exact hadm.noActive d hd (hcur.1.trans huser.symm) hcur.2.1
            rw [hnone]
            rfl
        | some v =>
            obtain ⟨d, hd, hcur, rfl⟩ := old v rfl
            rw [hp.current_found hd hcur]
            rfl
      rw [hfound] at has
      have hwritten : changed (s.view pg).configs ((s.view pg).addConfig a c).configs = [c] := by
        refine changed_append (fun v hv hmem => ?_)
        rw [List.mem_singleton.mp hv] at hmem
        exact hadm.newId c hmem rfl
      have hnew : ∀ v ∈ (pg.configs.filter (Pg.isCurrent u)).map (·.cancel s.now),
          v.id ∉ [c].map (·.id) := by
        intro v hv hmem
        obtain ⟨d, hd, rfl⟩ := List.mem_map.mp hv
        obtain ⟨d', hd', heq⟩ : ∃ d' ∈ (s.view pg).configs, d'.id = d.id :=
          exists_mem_overlay (List.mem_of_mem_filter hd)
        exact hadm.newId d' hd' (heq.trans (List.mem_singleton.mp hmem))
      have hhas := has.wrote (t := { s.tx pg (s.view pg) with
        drawn := 1, pg := (s.view pg).addConfig a c }) hwritten changed_self rfl rfl
      rw [supersede_append hnew, supersede_nil] at hhas
      have hconfig : (pg.cancelActive u a s.now).AdmitsConfig c := by
        refine hadm.congr (has.view_cancelled hp.ids a).symm ?_
        rw [has.view_users]
        exact (Pg.cancelActive_sameCore pg u a s.now).users
      subst hc
      refine .inserted hcall ?_ rfl hhas ⟨hconfig, ⟨fun _ h => ?_, .nil⟩⟩
      · show s.actor = some a
        rw [acts, hcall]
        rfl
      · cases h

/-- One more item is inserted. -/
theorem Stage.Holds.wrote_insertItem {n : Nat} {key : String} {u a : Uuid}
    {items : List PriorityItemData} {item : PriorityItemData} {expiresAt : Option Timestamp}
    {configId : Uuid} (hp : Priorities pg) (h : (Stage.inserted configId n).Holds pg s)
    (hcall : s.call = .create key u items expiresAt a) (hitem : items[n]? = some item)
    (hadm : (s.view pg).AdmitsItem (itemRow configId s.now (s.uuid (n + 1)) n item)) :
    (Stage.inserted configId (n + 1)).Holds pg (s.wrote (s.view pg)
      { s.tx pg (s.view pg) with
        drawn := n + 2
        pg := (s.view pg).addItem a (itemRow configId s.now (s.uuid (n + 1)) n item) }) := by
  cases h with
  | inserted call acts drawn has admits =>
      obtain ⟨rfl, rfl, rfl, rfl, rfl⟩ := PriorityCall.create.inj (hcall.symm.trans call)
      obtain ⟨row, hrow⟩ : ∃ row, itemRow (s.uuid 0) s.now (s.uuid (n + 1)) n item = row := ⟨_, rfl⟩
      rw [hrow] at hadm ⊢
      have hview := has.view_inserted hp.ids admits
      have hrows : itemRows (s.uuid 0) s.now s.uuid 0 (items.take (n + 1)) =
          itemRows (s.uuid 0) s.now s.uuid 0 (items.take n) ++ [row] := by
        rw [itemRows_take_succ hitem, hrow]
      have hadms := admits.items.concat (hview.admitsItem hadm)
      have hwritten : changed (s.view pg).items ((s.view pg).addItem a row).items = [row] := by
        refine changed_append (fun v hv hmem => ?_)
        rw [List.mem_singleton.mp hv] at hmem
        exact (hadm.unique row hmem).1 rfl
      have hnew : ∀ v ∈ itemRows (s.uuid 0) s.now s.uuid 0 (items.take n), v.id ∉ [row].map (·.id) := by
        intro v hv hmem
        have hmem' : v ∈ (s.view pg).items := by
          rw [hview.items]
          exact Pg.addItems_items .. ▸ List.mem_append_right _ hv
        exact (hadm.unique v hmem').1 (List.mem_singleton.mp hmem)
      have hconfigs : changed (s.view pg).configs ((s.view pg).addItem a row).configs = [] :=
        changed_self
      have hhas := has.wrote (t := { s.tx pg (s.view pg) with
        drawn := n + 2, pg := (s.view pg).addItem a row }) hconfigs hwritten rfl rfl
      rw [supersede_append hnew, supersede_nil, ← hrows] at hhas
      refine .inserted hcall acts rfl hhas ⟨admits.config, ?_⟩
      show Pg.AdmitsItems _ (itemRows (s.uuid 0) s.now s.uuid 0 (items.take (n + 1)))
      rw [hrows]
      exact hadms

theorem Stage.next_isRead {e : Sql} {row : e.Row} (he : e.isRead) : φ.next e (.ok row) = φ := by
  cases e <;> first | (cases φ <;> rfl) | cases he

theorem Session.sight_of_not_updates {e : Sql} (he : e.updates = none)
    (h : s.sight pg e = some seen) : seen = s.view pg := by
  unfold sight at h
  rw [he] at h
  exact (Option.some.inj h).symm

/-- A statement that only reads. -/
theorem Stage.Holds.wrote_read {e : Sql} {row : e.Row} {t : Tx} (h : φ.Holds pg s) (he : e.isRead)
    (hexec : Sql.exec e (s.tx pg seen) = (.ok row, t)) :
    (φ.next e (.ok row)).Holds pg (s.wrote seen t) := by
  have ht := Sql.exec_isRead (t := s.tx pg seen) he
  rw [hexec] at ht
  rw [next_isRead he, show t = s.tx pg seen from ht]
  exact h.kept

/-- **One statement** leads to the next stage. -/
theorem Stage.Holds.wrote {e : Sql} {row : e.Row} {t : Tx} (hp : Priorities pg)
    (h : φ.Holds pg s) (he : s.call.allowed φ e) (hgoing : e ≠ .commit ∧ e ≠ .rollback)
    (hsight : s.sight pg e = some seen) (hexec : Sql.exec e (s.tx pg seen) = (.ok row, t)) :
    (φ.next e (.ok row)).Holds pg (s.wrote seen t) := by
  cases φ with
  | opened =>
      rcases PriorityCall.allowed_opened he with ⟨a, rfl, ha⟩ | ⟨hupd, hne⟩ | rfl
      · obtain ⟨-, rfl⟩ := Prod.mk.inj hexec
        exact h.wrote_setActor ha
      · -- without an actor the audit trigger lets no row be marked, so nothing changes
        have hactor : (s.tx pg seen).actor = none := by
          cases h with
          | opened acts drawn has => exact acts
        have hkept : t = s.tx pg seen ∧ Stage.opened.next e (.ok row) = .opened := by
          cases e with
          | softDeleteItems configId =>
              exact ⟨(congrArg Prod.snd hexec).symm.trans (Tx.update_noActor hactor), rfl⟩
          | softDeleteConfig configId =>
              exact ⟨(congrArg Prod.snd hexec).symm.trans (Tx.update_noActor hactor), rfl⟩
          | cancelActiveConfig u => exact absurd rfl (hne u)
          | _ => cases hupd
        rw [hkept.1, hkept.2]
        exact h.kept
      · exact absurd rfl hgoing.1
  | acting =>
      obtain ⟨u, a, rfl, ha⟩ := PriorityCall.allowed_acting he
      have hactor : (s.tx pg seen).actor = some a := by
        cases h with
        | acting acts drawn has => exact acts.trans ha
      obtain ⟨ids, -, hseen⟩ := Option.map_eq_some_iff.mp hsight
      have heq : Sql.exec (.cancelActiveConfig u) (s.tx pg seen) = _ :=
        Tx.cancelActiveConfig_eq hactor
      obtain ⟨hrow, ht⟩ := Prod.mk.inj (hexec.symm.trans heq)
      rw [Except.ok.inj hrow, ht]
      exact h.wrote_cancel hp hseen.symm
  | replaced u found =>
      rcases PriorityCall.allowed_replaced he with
        ⟨key, items, expiresAt, a, hcall, rfl⟩ | ⟨a, hcall, hread | ⟨rfl, -⟩ | rfl⟩
      · obtain rfl := Session.sight_of_not_updates rfl hsight
        have hstart : (s.tx pg (s.view pg)).actor = some a ∧ s.drawn = 0 := by
          cases h with
          | replaced acts drawn has old => exact ⟨acts.trans (by rw [hcall]; rfl), drawn⟩
        have hfresh : (s.tx pg (s.view pg)).fresh = s.uuid 0 := congrArg s.uuid hstart.2
        have hcases := Tx.insertConfig_cases u key expiresAt hstart.1
        rw [hfresh] at hcases
        -- the statement ran, so the tables take the configuration
        rcases hcases with ⟨hadm, hins⟩ | ⟨-, error, hins⟩
        · obtain ⟨hrow, ht⟩ := Prod.mk.inj (hexec.symm.trans hins)
          have hdrawn : s.drawn + 1 = 1 := by rw [hstart.2]
          rw [Except.ok.inj hrow, ht]
          simp only [Tx.draw, Session.tx, hdrawn]
          exact h.wrote_insertConfig hp hcall hadm
        · cases (Prod.mk.inj (hexec.symm.trans hins)).1
      · exact h.wrote_read hread hexec
      · exact absurd rfl hgoing.1
      · exact absurd rfl hgoing.2
  | inserted configId n =>
      obtain ⟨key, u, items, expiresAt, a, hcall, ⟨item, hitem, rfl⟩ | ⟨id, rfl⟩ | ⟨rfl, -⟩⟩ :=
        PriorityCall.allowed_inserted he
      · obtain rfl := Session.sight_of_not_updates rfl hsight
        have hstart : (s.tx pg (s.view pg)).actor = some a ∧ s.drawn = n + 1 := by
          cases h with
          | inserted call acts drawn has admits =>
              obtain ⟨-, -, -, -, rfl⟩ := PriorityCall.create.inj (hcall.symm.trans call)
              exact ⟨acts, drawn⟩
        have hfresh : (s.tx pg (s.view pg)).fresh = s.uuid (n + 1) := congrArg s.uuid hstart.2
        have hcases := Tx.insertItem_cases (newItem configId n item) hstart.1
        rw [hfresh, priorityItemRow_newItem] at hcases
        rcases hcases with ⟨hadm, hins⟩ | ⟨-, error, hins⟩
        · obtain ⟨hrow, ht⟩ := Prod.mk.inj (hexec.symm.trans hins)
          have hdrawn : s.drawn + 1 = n + 2 := by rw [hstart.2]
          rw [ht]
          simp only [Tx.draw, Session.tx, hdrawn]
          exact h.wrote_insertItem hp hcall hitem hadm
        · cases (Prod.mk.inj (hexec.symm.trans hins)).1
      · exact h.wrote_read trivial hexec
      · exact absurd rfl hgoing.1
  | committed => exact absurd he (PriorityCall.not_allowed_over (Or.inl rfl))
  | undone => exact absurd he (PriorityCall.not_allowed_over (Or.inr rfl))

/-! ### Committing -/

/-- What has been written when a transaction commits is what its call does in one step. -/
theorem Stage.Holds.commit_cases (hp : Priorities pg) (h : φ.Holds pg s)
    (he : s.call.allowed φ .commit) :
    match s.call with
    | .create key u items expiresAt a =>
        pg.AdmitsPriority s.now s.uuid key u a items expiresAt ∧
          Pg.SamePriorities (pg.addPriority s.now s.uuid key u a items expiresAt) (s.view pg)
    | .cancel u a => Pg.SamePriorities (pg.cancelActive u a s.now) (s.view pg)
    | .softDelete _ => Pg.SamePriorities pg (s.view pg) := by
  cases h with
  | opened acts drawn has =>
      cases hcall : s.call with
      | softDelete configId => exact has.view_nil
      | _ =>
          rw [hcall] at he
          cases he
  | acting acts drawn has =>
      obtain ⟨u, a, heq, -⟩ := PriorityCall.allowed_acting he
      cases heq
  | @replaced u found acts drawn has old =>
      rcases PriorityCall.allowed_replaced he with
        ⟨key, items, expiresAt, a, -, heq⟩ | ⟨a, hcall, hread | ⟨-, hsome⟩ | heq⟩
      · cases heq
      · cases hread
      · obtain ⟨v, rfl⟩ := Option.isSome_iff_exists.mp hsome
        obtain ⟨c, hc, hcur, rfl⟩ := old v rfl
        rw [hcall]
        have hlist : (some (c.cancel s.now)).toList =
            (pg.configs.filter (Pg.isCurrent u)).map (·.cancel s.now) := by
          rw [hp.current_found hc hcur]
          rfl
        rw [hlist] at has
        refine ⟨has.view_cancelled hp.ids a, ?_, ?_⟩
        · show overlay (·.id) pg.items s.own.items = _
          rw [has.items, overlay_nil, Pg.cancelActive_items]
        · rw [has.view_providers, (Pg.cancelActive_sameCore pg u a s.now).providers]
      · cases heq
  | inserted call acts drawn has admits =>
      obtain ⟨key, u, items, expiresAt, a, hcall, ⟨item, -, heq⟩ | ⟨id, heq⟩ | ⟨-, hn⟩⟩ :=
        PriorityCall.allowed_inserted he
      · cases heq
      · cases heq
      · obtain ⟨rfl, rfl, rfl, rfl, rfl⟩ := PriorityCall.create.inj (hcall.symm.trans call)
        rw [hn, List.take_length] at has admits
        rw [hcall]
        exact ⟨admits, has.view_inserted hp.ids admits⟩
  | committed has records => exact absurd he (PriorityCall.not_allowed_over (Or.inl rfl))
  | undone has => exact absurd he (PriorityCall.not_allowed_over (Or.inr rfl))

/-- What the commit of a session does to the tables. -/
structure Session.Commits (s : PrioritySession) (pg : Pg) : Prop where
  priorities : Priorities (s.view pg)
  continues : Pg.Continues pg (s.view pg)
  providers : (s.view pg).providers = pg.providers
  users : (s.view pg).users = pg.users
  fromOld : ∀ c' ∈ (s.view pg).configs,
    (∃ c ∈ pg.configs, c.Later c') ∨ s.Records (s.view pg) c'
  records : ∀ key userId items expiresAt actor,
    s.call = .create key userId items expiresAt actor →
      ∃ c ∈ (s.view pg).configs, s.Records (s.view pg) c

/-- A transaction that has added no configuration. -/
theorem Session.Commits.of_mapped {pg₁ : Pg} (hsame : Pg.SamePriorities pg₁ (s.view pg))
    (hp : Priorities pg₁) (hc : Pg.Continues pg pg₁) (hproviders : pg₁.providers = pg.providers)
    (husers : (s.view pg).users = pg.users)
    (hlength : pg₁.configs.length = pg.configs.length)
    (hnot : ∀ key u items expiresAt a, s.call ≠ .create key u items expiresAt a) :
    s.Commits pg where
  priorities := hsame.priorities hp
  continues := hsame.continues hc
  providers := hsame.providers.trans hproviders
  users := husers
  fromOld := fun c' hc' => by
    rw [hsame.configs] at hc'
    obtain ⟨i, hi, rfl⟩ := List.getElem_of_mem hc'
    have hi' : i < pg.configs.length := hlength ▸ hi
    obtain ⟨c, hget, hlater⟩ := hc.configs i _ (List.getElem?_eq_getElem hi')
    rw [List.getElem?_eq_getElem hi] at hget
    exact Or.inl ⟨pg.configs[i], List.getElem_mem hi', Option.some.inj hget ▸ hlater⟩
  records := fun key u items expiresAt a hcall => absurd hcall (hnot key u items expiresAt a)

theorem Stage.Holds.commits (hp : Priorities pg) (h : φ.Holds pg s)
    (he : s.call.allowed φ .commit) : s.Commits pg := by
  have hcases := h.commit_cases hp he
  have husers : (s.view pg).users = pg.users := by
    cases h <;> exact Session.Has.view_users ‹_›
  cases hcall : s.call with
  | create key u items expiresAt a =>
      rw [hcall] at hcases
      obtain ⟨hadm, hsame⟩ := hcases
      obtain ⟨hp', hc, hrows⟩ := hp.addPriority hadm
      have hconfigs : (s.view pg).configs = (pg.cancelActive u a s.now).configs ++
          [newConfig (s.uuid 0) u key expiresAt s.now] :=
        hsame.configs.trans (Pg.withPriority_configs ..)
      have hrecords : s.Records (s.view pg) (newConfig (s.uuid 0) u key expiresAt s.now) := by
        refine ⟨key, u, items, expiresAt, a, hcall, .refl _, ?_⟩
        have hview : (s.view pg).rowsOf (s.uuid 0) =
            itemRows (s.uuid 0) s.now s.uuid 0 items := by
          rw [← hrows]
          unfold Pg.rowsOf
          rw [hsame.items]
        show ((s.view pg).rowsOf (s.uuid 0)).map _ = _
        rw [hview]
        exact unmarked_itemRows ..
      -- every configuration committed is an old one in a later state, or the new one
      refine ⟨hsame.priorities hp', hsame.continues hc, ?_, husers, fun c' hc' => ?_, ?_⟩
      · rw [hsame.providers]
        exact (Pg.withPriority_providers ..).trans (Pg.cancelActive_sameCore pg u a s.now).providers
      · rw [hconfigs, Pg.cancelActive_configs] at hc'
        rcases List.mem_append.mp hc' with hold | hnew
        · obtain ⟨c, hc, rfl⟩ := List.mem_map.mp hold
          exact Or.inl ⟨c, hc, c.later_afterCancel u s.now⟩
        · rw [List.mem_singleton.mp hnew]
          exact Or.inr hrecords
      · intro _ _ _ _ _ _
        refine ⟨_, ?_, hrecords⟩
        rw [hconfigs]
        exact List.mem_append_right _ (List.mem_singleton_self _)
  | cancel u a =>
      rw [hcall] at hcases
      refine .of_mapped hcases (hp.cancelActive u a s.now) (Pg.continues_cancelActive ..)
        (Pg.cancelActive_sameCore pg u a s.now).providers husers ?_ ?_
      · rw [Pg.cancelActive_configs, List.length_map]
      · intro _ _ _ _ _ h
        rw [hcall] at h
        cases h
  | softDelete configId =>
      rw [hcall] at hcases
      refine .of_mapped hcases hp (.refl pg) rfl husers rfl ?_
      intro _ _ _ _ _ h
      rw [hcall] at h
      cases h

/-! ### Another transaction commits -/

theorem Session.Records.later {pg' : Pg} {c c' : UserPriorityConfig} (h : s.Records pg c)
    (hmem : c ∈ pg.configs) (hlater : c.Later c') (hc : Pg.Continues pg pg') :
    s.Records pg' c' := by
  obtain ⟨key, u, items, expiresAt, a, hcall, hnew, hrows⟩ := h
  refine ⟨key, u, items, expiresAt, a, hcall, hnew.trans hlater, ?_⟩
  rw [hlater.id_eq, hc.items c hmem]
  exact hrows

/-- The constraints still admit what has been inserted. -/
theorem Pg.AdmitsPriority.elsewhere {C α : Type} {o : Session C α} {now : Timestamp}
    {uuid : Nat → Uuid} {key : String} {u a : Uuid} {items : List PriorityItemData}
    {expiresAt : Option Timestamp}
    (h : pg.AdmitsPriority now uuid key u a items expiresAt)
    (hconfigs : ∀ d ∈ o.own.configs, d.Compatible (newConfig (uuid 0) u key expiresAt now))
    (hitems : ∀ j ∈ o.own.items, ∀ row ∈ itemRows (uuid 0) now uuid 0 items, j.Compatible row)
    (husers : (o.view pg).users = pg.users) (hproviders : (o.view pg).providers = pg.providers) :
    (o.view pg).AdmitsPriority now uuid key u a items expiresAt := by
  obtain ⟨c, hc⟩ : ∃ c, newConfig (uuid 0) u key expiresAt now = c := ⟨_, rfl⟩
  have hactive : c.status = .active := by rw [← hc]; rfl
  have hcore := Pg.cancelActive_sameCore pg u a now
  have hcore' := Pg.cancelActive_sameCore (o.view pg) u a now
  obtain ⟨hconfig, hadms⟩ := h
  rw [hc] at hconfig hadms hconfigs
  -- a row that is there now was there before or belongs to the other transaction
  have hmem : ∀ d' ∈ ((o.view pg).cancelActive u a now).configs,
      (d' ∈ (pg.cancelActive u a now).configs) ∨
        ∃ d ∈ o.own.configs, d.afterCancel u now = d' := by
    intro d' hd'
    rw [cancelActive_configs] at hd' ⊢
    obtain ⟨d, hd, rfl⟩ := List.mem_map.mp hd'
    rcases mem_overlay hd with hd | hd
    · exact Or.inl (List.mem_map_of_mem hd)
    · exact Or.inr ⟨d, hd, rfl⟩
  constructor
  · rw [hc]
    refine ⟨hconfig.expiry, hconfig.key, fun d' hd' => ?_, fun d' hd' => ?_, fun d' hd' huser hd => ?_, ?_⟩
    · rcases hmem d' hd' with hold | ⟨d, hd, rfl⟩
      · exact hconfig.newId d' hold
      · rw [(d.later_afterCancel u now).id_eq]
        exact (hconfigs d hd).1
    · rcases hmem d' hd' with hold | ⟨d, hd, rfl⟩
      · exact hconfig.newKey d' hold
      · rw [(d.later_afterCancel u now).row]
        exact (hconfigs d hd).2.1
    · rcases hmem d' hd' with hold | ⟨d, hown, rfl⟩
      · exact hconfig.noActive d' hold huser hd
      · rw [UserPriorityConfig.afterCancel_active hd] at huser hd
        exact (hconfigs d hown).2.2 huser hd hactive
    · rw [hcore'.users, husers, ← hcore.users]
      exact hconfig.user
  · rw [hc]
    refine ⟨fun row hrow => ?_, hadms.2⟩
    obtain ⟨h₁, h₂, h₃, h₄, h₅⟩ := hadms.1 row hrow
    refine ⟨h₁, h₂, fun j hj => ?_, ?_, ?_⟩
    · have hj : j ∈ ((o.view pg).cancelActive u a now).items := hj
      rw [cancelActive_items] at hj
      rcases mem_overlay hj with hold | hown
      · refine h₃ j ?_
        show j ∈ (pg.cancelActive u a now).items
        rwa [cancelActive_items]
      · exact hitems j hown row hrow
    · refine ⟨c, List.mem_append_right _ (List.mem_singleton_self c), ?_⟩
      rw [(mem_itemRows hrow).1, ← hc]
      rfl
    · show ∃ p ∈ ((o.view pg).cancelActive u a now).providers, _
      rw [hcore'.providers, hproviders, ← hcore.providers]
      exact h₅

/-- A stage stands whatever another transaction commits. -/
theorem Stage.Holds.elsewhere {o : PrioritySession} (h : φ.Holds pg s)
    (hapart : o.own.Apart s.own) (hc : o.Commits pg) : φ.Holds (o.view pg) s := by
  have hproviders := hc.providers
  have husers := hc.users
  cases h with
  | opened acts drawn has => exact .opened acts drawn has
  | acting acts drawn has => exact .acting acts drawn has
  | replaced acts drawn has old =>
      refine .replaced acts drawn has (fun v hv => ?_)
      obtain ⟨c, hmem, hcur, rfl⟩ := old v hv
      refine ⟨c, mem_overlay_of_base hmem (fun w hw => ?_), hcur, rfl⟩
      refine (hapart.configs w hw (c.cancel s.now) ?_).1
      rw [has.configs]
      exact Option.mem_toList.mpr hv
  | @inserted n key u a items expiresAt call acts drawn has admits =>
      obtain ⟨c, hc⟩ : ∃ c, newConfig (s.uuid 0) u key expiresAt s.now = c := ⟨_, rfl⟩
      have hactive : c.status = .active ∧ c.userId = u := by rw [← hc]; exact ⟨rfl, rfl⟩
      have hown : ∀ v ∈ (pg.configs.filter (Pg.isCurrent u)).map (·.cancel s.now) ++ [c],
          v ∈ s.own.configs := by
        rw [has.configs, hc]
        exact fun v hv => hv
      have hcompat : ∀ d ∈ o.own.configs, d.Compatible c := fun d hd =>
        hapart.configs d hd c (hown c (List.mem_append_right _ (List.mem_singleton_self c)))
      -- the other transaction has not touched the configuration that was in force
      have hsame : (o.view pg).configs.filter (Pg.isCurrent u) =
          pg.configs.filter (Pg.isCurrent u) := by
        refine filter_overlay (fun v hv => ?_) (fun r hr hcur v hv => ?_)
        · by_contra hcur
          simp only [Pg.isCurrent, Bool.not_eq_false, decide_eq_true_eq] at hcur
          exact (hcompat v hv).2.2 (hcur.1.trans hactive.2.symm) hcur.2.1 hactive.1
        · refine (hapart.configs v hv (r.cancel s.now) (hown _ (List.mem_append_left _ ?_))).1
          exact List.mem_map_of_mem (List.mem_filter.mpr ⟨hr, hcur⟩)
      refine .inserted call acts drawn ⟨?_, has.items, has.users, has.providers⟩ ?_
      · rw [hsame]
        exact has.configs
      · refine admits.elsewhere (hc ▸ hcompat) (fun j hj row hrow => ?_) husers hproviders
        exact hapart.items j hj row (has.items ▸ hrow)
  | committed has records =>
      refine .committed has (fun key u items expiresAt a hcall => ?_)
      obtain ⟨c, hmem, hrec⟩ := records key u items expiresAt a hcall
      obtain ⟨c', hmem', hlater⟩ := hc.continues.mem hmem
      exact ⟨c', hmem', hrec.later hmem hlater hc.continues⟩
  | undone has => exact .undone has

end

end Wurzburg.Db
