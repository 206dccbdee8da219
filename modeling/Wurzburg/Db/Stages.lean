import Wurzburg.Db.Sessions

/-!
# Wurzburg.Db.Stages

How far a priority transaction has come, and what it has written by then
(`Stage.Holds`).

Each statement leads from one stage to the next (`Stage.Holds.run`), and nothing
that another transaction commits takes a stage back (`Stage.Holds.elsewhere`).
-/

namespace Wurzburg.Db

open Wurzburg.Lib

/-! ### Calls -/

/-- A call of a method that writes priorities. -/
inductive PriorityCall where
  | create (key : String) (userId : Uuid) (items : List PriorityItemData)
      (expiresAt : Option Timestamp) (actor : Uuid)
  | cancel (userId actor : Uuid)
  | softDelete (configId : Uuid)
  deriving DecidableEq, Repr

namespace PriorityCall

/-- What the call does; its result is only whether it succeeded. -/
def body : PriorityCall → Repo Unit
  | create key userId items expiresAt actor => do
      let _ ← createPriorityConfig key userId items expiresAt actor
      return ()
  | cancel userId actor => do
      let _ ← cancelActivePriorityConfig userId actor
      return ()
  | softDelete configId => softDeletePriorityConfig configId

/-- Whom the call writes for. -/
def actor? : PriorityCall → Option Uuid
  | create _ _ _ _ actor => some actor
  | cancel _ actor => some actor
  | softDelete _ => none

end PriorityCall

/-- A priority transaction. -/
abbrev PrioritySession := Session PriorityCall Unit

/-! ### The stages of a call -/

/-- How far a transaction has come. -/
inductive Stage where
  | opened
  /-- The actor is set. -/
  | acting
  /-- The configuration in force, if one was found, is cancelled. -/
  | replaced (userId : Uuid) (found : Option UserPriorityConfig)
  /-- The new configuration and this many items are inserted. -/
  | inserted (configId : Uuid) (n : Nat)
  | committed
  | undone

namespace Stage

/-- The stage after a statement and its reply. -/
def next : Stage → (e : Sql) → e.Resp → Stage
  | opened, .setActor _, .ok _ => acting
  | acting, .cancelActiveConfig userId, .ok found => replaced userId found
  | replaced .., .insertConfig .., .ok config => inserted config.id 0
  | inserted configId n, .insertItem _, .ok _ => inserted configId (n + 1)
  | _, .commit, .ok _ => committed
  | _, .rollback, .ok _ => undone
  | _, _, .error _ => undone
  | φ, _, .ok _ => φ

theorem next_error (φ : Stage) (e : Sql) (error : SqlError) :
    φ.next e (.error error) = undone := by
  cases φ <;> cases e <;> rfl

/-- Only a commit leads to the stage after it. -/
theorem next_ne_committed {φ : Stage} {e : Sql} (he : e ≠ .commit) (hφ : φ ≠ committed)
    (r : e.Resp) : φ.next e r ≠ committed := by
  cases r with
  | error error =>
      rw [next_error]
      exact fun h => by cases h
  | ok row =>
      cases φ with
      | committed => exact absurd rfl hφ
      | _ => cases e <;> first | exact absurd rfl he | exact fun h => by cases h

end Stage

namespace PriorityCall

/-- The statements of a call in each stage. -/
def allowed : PriorityCall → Stage → Sql → Prop
  | create _ _ _ _ actor, .opened, .setActor a => a = actor
  | create _ userId _ _ _, .acting, .cancelActiveConfig u => u = userId
  | create key userId _ expiresAt _, .replaced u _, .insertConfig u' k x =>
      u = userId ∧ u' = userId ∧ k = key ∧ x = expiresAt
  | create _ _ items _ _, .inserted configId n, .insertItem new =>
      ∃ item, items[n]? = some item ∧ new = newItem configId n item
  | create .., .inserted .., .selectItems _ => True
  | create _ _ items _ _, .inserted _ n, .commit => n = items.length
  | cancel _ actor, .opened, .setActor a => a = actor
  | cancel userId _, .acting, .cancelActiveConfig u => u = userId
  | cancel userId _, .replaced u found, e =>
      u = userId ∧ (e.isRead ∨ (e = .commit ∧ found.isSome) ∨ e = .rollback)
  | softDelete _, .opened, e => (e.updates.isSome ∧ ∀ u, e ≠ .cancelActiveConfig u) ∨ e = .commit
  | _, _, _ => False

/-- The protocol of a call. -/
def protocol (call : PriorityCall) : Protocol Sql Sql.Resp where
  Phase := Stage
  allowed := call.allowed
  next := Stage.next

/-- The call is a creation. -/
def creates : PriorityCall → Prop
  | create .. => True
  | _ => False

/-- A call that has committed succeeds, and a creation that succeeds has committed. -/
def ends (call : PriorityCall) (φ : Stage) (r : Except RepoError Unit) : Prop :=
  (φ = .committed → r = .ok ()) ∧ (call.creates → r = .ok () → φ = .committed)

/-- The program keeps to the protocol from this stage on. -/
abbrev Keeps (call : PriorityCall) (φ : Stage) (p : Prog Sql Sql.Resp (Except RepoError Unit)) :
    Prop :=
  p.Follows call.protocol call.ends φ

/-- A part of a method that leads from a stage to those with `mid`. -/
abbrev Leads {α : Type} (call : PriorityCall) (φ : Stage) (mid : Stage → α → Prop)
    (x : Repo α) : Prop :=
  Prog.FollowsE call.protocol mid call.ends φ x

section

variable {α : Type} {call : PriorityCall} {φ : Stage}

theorem ends_error {e : Sql} {error : SqlError} (repoError : RepoError) :
    call.ends (φ.next e (.error error)) (.error repoError) := by
  rw [Stage.next_error]
  constructor
  · intro h
    cases h
  · intro _ h
    cases h

/-- One statement. -/
theorem leads_query {e : Sql} {contexts : List String} {mid : Stage → e.Row → Prop}
    (he : call.allowed φ e) (hmid : ∀ row, mid (φ.next e (.ok row)) row) :
    call.Leads φ mid (query e contexts) :=
  query_follows he hmid (fun _ => ends_error _)

/-- One statement, and what follows it. -/
theorem leads_query_bind {e : Sql} {contexts : List String} {f : e.Row → Repo α}
    {mid : Stage → α → Prop} (he : call.allowed φ e)
    (hf : ∀ row, call.Leads (φ.next e (.ok row)) mid (f row)) :
    call.Leads φ mid (query e contexts >>= f) :=
  query_bind_follows he hf (fun _ => ends_error _)

end

/-- The items loop inserts one item after the other. -/
theorem insertItems_leads {key : String} {userId actor : Uuid} {all : List PriorityItemData}
    {expiresAt : Option Timestamp} (configId : Uuid) (items : List PriorityItemData) (index : Nat)
    (hindex : index ≤ all.length) (hitems : all.drop index = items) :
    (create key userId all expiresAt actor).Leads (.inserted configId index)
      (fun ψ _ => ψ = .inserted configId all.length) (insertItems configId index items) := by
  induction items generalizing index with
  | nil =>
      have hlength : index = all.length := Nat.le_antisymm hindex (List.drop_eq_nil_iff.mp hitems)
      rw [hlength]
      exact rfl
  | cons item items ih =>
      have hitem : all[index]? = some item := by
        rw [← List.head?_drop, hitems]
        rfl
      have hrest : all.drop (index + 1) = items := by
        rw [← List.tail_drop, hitems]
        rfl
      have hindex' : index + 1 ≤ all.length := (List.getElem?_eq_some_iff.mp hitem).1
      exact leads_query_bind ⟨item, hitem, rfl⟩ (fun _ => ih (index + 1) hindex' hrest)

theorem create_leads {key : String} {userId actor : Uuid} {items : List PriorityItemData}
    {expiresAt : Option Timestamp} :
    (create key userId items expiresAt actor).Leads .opened (fun ψ _ => ψ = .committed)
      (createPriorityConfig key userId items expiresAt actor) := by
  unfold createPriorityConfig
  refine leads_query_bind rfl (fun _ => leads_query_bind rfl (fun found => ?_))
  refine leads_query_bind ⟨rfl, rfl, rfl, rfl⟩ (fun config => ?_)
  refine (insertItems_leads config.id items 0 (Nat.zero_le _) rfl).bind (fun ψ _ hψ => ?_)
  subst hψ
  refine leads_query_bind trivial (fun created => leads_query_bind rfl (fun _ => ?_))
  exact rfl

theorem cancel_leads {userId actor : Uuid} :
    (cancel userId actor).Leads .opened (fun _ _ => True)
      (cancelActivePriorityConfig userId actor) := by
  unfold cancelActivePriorityConfig
  refine leads_query_bind rfl (fun _ => leads_query_bind rfl (fun found => ?_))
  cases found with
  | some config =>
      refine leads_query_bind ⟨rfl, Or.inl trivial⟩ (fun items => ?_)
      exact leads_query_bind ⟨rfl, Or.inr (Or.inl ⟨rfl, rfl⟩)⟩ (fun _ => trivial)
  | none => exact leads_query_bind ⟨rfl, Or.inr (Or.inr rfl)⟩ (fun _ => trivial)

theorem softDelete_leads {configId : Uuid} :
    (softDelete configId).Leads .opened (fun ψ _ => (softDelete configId).ends ψ (.ok ()))
      (softDeletePriorityConfig configId) := by
  unfold softDeletePriorityConfig
  refine leads_query_bind (Or.inl ⟨rfl, fun u h => by cases h⟩) (fun _ => ?_)
  refine leads_query_bind (Or.inl ⟨rfl, fun u h => by cases h⟩) (fun _ => ?_)
  exact leads_query (Or.inr rfl) (fun _ => ⟨fun _ => rfl, False.elim⟩)

/-- Every call keeps to its protocol. -/
theorem body_keeps (call : PriorityCall) : call.Keeps .opened call.body.run := by
  have hbody : call.Leads .opened (fun ψ _ => call.ends ψ (.ok ())) call.body := by
    cases call with
    | create key userId items expiresAt actor =>
        exact create_leads.bind (fun ψ _ hψ => ⟨fun _ => rfl, fun _ _ => hψ⟩)
    | cancel userId actor => exact cancel_leads.bind (fun _ _ _ => ⟨fun _ => rfl, False.elim⟩)
    | softDelete configId => exact softDelete_leads
  refine Prog.Follows.weaken hbody (fun ψ r hr => ?_)
  cases r with
  | ok _ => exact hr
  | error _ => exact hr

/-! ### Which statements a stage allows -/

section

variable {call : PriorityCall} {e : Sql}

theorem allowed_opened (h : call.allowed .opened e) :
    (∃ a, e = .setActor a ∧ call.actor? = some a) ∨
      (e.updates.isSome ∧ ∀ u, e ≠ .cancelActiveConfig u) ∨ e = .commit := by
  cases call with
  | create key userId items expiresAt actor =>
      cases e <;> first | exact Or.inl ⟨actor, congrArg _ h, rfl⟩ | cases h
  | cancel userId actor =>
      cases e <;> first | exact Or.inl ⟨actor, congrArg _ h, rfl⟩ | cases h
  | softDelete configId => exact Or.inr h

theorem allowed_acting (h : call.allowed .acting e) :
    ∃ u a, e = .cancelActiveConfig u ∧ call.actor? = some a := by
  cases call with
  | create key userId items expiresAt actor =>
      cases e <;> first | exact ⟨_, actor, rfl, rfl⟩ | cases h
  | cancel userId actor => cases e <;> first | exact ⟨_, actor, rfl, rfl⟩ | cases h
  | softDelete configId => cases e <;> cases h

theorem allowed_replaced {u : Uuid} {found : Option UserPriorityConfig}
    (h : call.allowed (.replaced u found) e) :
    (∃ key items expiresAt actor, call = create key u items expiresAt actor ∧
      e = .insertConfig u key expiresAt) ∨
    (∃ actor, call = cancel u actor ∧
      (e.isRead ∨ (e = .commit ∧ found.isSome) ∨ e = .rollback)) := by
  cases call with
  | create key userId items expiresAt actor =>
      cases e with
      | insertConfig u' k x =>
          obtain ⟨rfl, rfl, rfl, rfl⟩ := h
          exact Or.inl ⟨_, _, _, _, rfl, rfl⟩
      | _ => cases h
  | cancel userId actor =>
      obtain ⟨rfl, he⟩ := h
      exact Or.inr ⟨actor, rfl, he⟩
  | softDelete configId => cases e <;> cases h

theorem allowed_inserted {configId : Uuid} {n : Nat} (h : call.allowed (.inserted configId n) e) :
    ∃ key u items expiresAt actor, call = create key u items expiresAt actor ∧
      ((∃ item, items[n]? = some item ∧ e = .insertItem (newItem configId n item)) ∨
        (∃ id, e = .selectItems id) ∨ (e = .commit ∧ n = items.length)) := by
  cases call with
  | create key userId items expiresAt actor =>
      refine ⟨key, userId, items, expiresAt, actor, rfl, ?_⟩
      cases e with
      | insertItem new =>
          obtain ⟨item, hitem, rfl⟩ := h
          exact Or.inl ⟨item, hitem, rfl⟩
      | selectItems id => exact Or.inr (Or.inl ⟨id, rfl⟩)
      | commit => exact Or.inr (Or.inr ⟨rfl, h⟩)
      | _ => cases h
  | cancel userId actor => cases e <;> cases h
  | softDelete configId => cases e <;> cases h

theorem not_allowed_over {φ : Stage} (hφ : φ = .committed ∨ φ = .undone) :
    ¬ call.allowed φ e := by
  intro h
  rcases hφ with rfl | rfl <;> cases call <;> cases e <;> cases h

end

end PriorityCall

/-! ### What has been written by then -/

/-- The transaction has written these priorities, and no users or providers. -/
structure Session.Has {C α : Type} (s : Session C α) (configs : List UserPriorityConfig)
    (items : List PriorityItemRow) : Prop where
  configs : s.own.configs = configs
  items : s.own.items = items
  users : s.own.users = []
  providers : s.own.providers = []

theorem Session.has_empty {C α : Type} {s : Session C α} (h : s.own = .empty) : s.Has [] [] := by
  constructor <;> rw [h] <;> rfl

/-- The configuration in the tables is the one that the session created, with its items. -/
def Session.Records (s : PrioritySession) (pg : Pg) (c : UserPriorityConfig) : Prop :=
  ∃ key userId items expiresAt actor, s.call = .create key userId items expiresAt actor ∧
    (newConfig (s.uuid 0) userId key expiresAt s.now).Later c ∧
    (pg.rowsOf c.id).map PriorityItemRow.unmarked = itemRows (s.uuid 0) s.now s.uuid 0 items

/-- What a session in this stage has written, beside this database. -/
inductive Stage.Holds (pg : Pg) (s : PrioritySession) : Stage → Prop where
  | opened (acts : s.actor = none) (drawn : s.drawn = 0) (has : s.Has [] []) : Holds pg s .opened
  | acting (acts : s.actor = s.call.actor?) (drawn : s.drawn = 0) (has : s.Has [] []) :
      Holds pg s .acting
  | replaced {userId : Uuid} {found : Option UserPriorityConfig} (acts : s.actor = s.call.actor?)
      (drawn : s.drawn = 0) (has : s.Has found.toList [])
      (old : ∀ v ∈ found, ∃ c ∈ pg.configs, Pg.isCurrent userId c = true ∧ v = c.cancel s.now) :
      Holds pg s (.replaced userId found)
  | inserted {n : Nat} {key : String} {userId actor : Uuid} {items : List PriorityItemData}
      {expiresAt : Option Timestamp} (call : s.call = .create key userId items expiresAt actor)
      (acts : s.actor = some actor) (drawn : s.drawn = n + 1)
      (has : s.Has ((pg.configs.filter (Pg.isCurrent userId)).map (·.cancel s.now) ++
          [newConfig (s.uuid 0) userId key expiresAt s.now])
        (itemRows (s.uuid 0) s.now s.uuid 0 (items.take n)))
      (admits : pg.AdmitsPriority s.now s.uuid key userId actor (items.take n) expiresAt) :
      Holds pg s (.inserted (s.uuid 0) n)
  | committed (has : s.Has [] [])
      (records : ∀ key userId items expiresAt actor,
        s.call = .create key userId items expiresAt actor → ∃ c ∈ pg.configs, s.Records pg c) :
      Holds pg s .committed
  | undone (has : s.Has [] []) : Holds pg s .undone

/-! ### What a transaction sees -/

section

variable {C α : Type} {s : Session C α} {pg : Pg}

theorem Session.Has.wrote {configs newConfigs : List UserPriorityConfig}
    {items newItems : List PriorityItemRow} {seen : Pg} {t : Tx} (h : s.Has configs items)
    (hc : changed seen.configs t.pg.configs = newConfigs)
    (hi : changed seen.items t.pg.items = newItems) (hu : t.pg.users = seen.users)
    (hp : t.pg.providers = seen.providers) :
    (s.wrote seen t).Has (supersede (·.id) configs newConfigs)
      (supersede (·.id) items newItems) where
  configs := by
    rw [← hc, ← h.configs]
    rfl
  items := by
    rw [← hi, ← h.items]
    rfl
  users := by
    show supersede (·.id) s.own.users (changed seen.users t.pg.users) = []
    rw [hu, changed_self, supersede_nil, h.users]
  providers := by
    show supersede (·.id) s.own.providers (changed seen.providers t.pg.providers) = []
    rw [hp, changed_self, supersede_nil, h.providers]

/-- A statement that leaves the tables as they are. -/
theorem Session.Has.kept {configs : List UserPriorityConfig} {items : List PriorityItemRow}
    {seen : Pg} {t : Tx} (h : s.Has configs items) (ht : t.pg = seen) :
    (s.wrote seen t).Has configs items := by
  have hown : (s.wrote seen t).own = s.own := by
    show s.own.written seen t.pg = s.own
    rw [ht, Pg.written_self]
  exact ⟨hown ▸ h.configs, hown ▸ h.items, hown ▸ h.users, hown ▸ h.providers⟩

theorem Session.Has.view_users {configs : List UserPriorityConfig} {items : List PriorityItemRow}
    (h : s.Has configs items) : (s.view pg).users = pg.users := by
  show overlay (·.id) pg.users s.own.users = _
  rw [h.users, overlay_nil]

theorem Session.Has.view_providers {configs : List UserPriorityConfig}
    {items : List PriorityItemRow} (h : s.Has configs items) :
    (s.view pg).providers = pg.providers := by
  show overlay (·.id) pg.providers s.own.providers = _
  rw [h.providers, overlay_nil]

theorem Session.Has.view_nil (h : s.Has [] []) : Pg.SamePriorities pg (s.view pg) where
  configs := by
    show overlay (·.id) pg.configs s.own.configs = _
    rw [h.configs, overlay_nil]
  items := by
    show overlay (·.id) pg.items s.own.items = _
    rw [h.items, overlay_nil]
  providers := h.view_providers

/-- With the configuration in force cancelled. -/
theorem Session.Has.view_cancelled (hids : (pg.configs.map (·.id)).Nodup) {userId : Uuid}
    (actor : Uuid) {items : List PriorityItemRow}
    (h : s.Has ((pg.configs.filter (Pg.isCurrent userId)).map (·.cancel s.now)) items) :
    (s.view pg).configs = (pg.cancelActive userId actor s.now).configs := by
  show overlay (·.id) pg.configs s.own.configs = _
  rw [h.configs, Pg.cancelActive_configs]
  exact overlay_rewritten hids (fun _ => rfl)

/-- With the rows of a creation. -/
theorem Session.Has.view_inserted (hids : (pg.configs.map (·.id)).Nodup) {key : String}
    {userId actor : Uuid} {items : List PriorityItemData} {expiresAt : Option Timestamp}
    (h : s.Has ((pg.configs.filter (Pg.isCurrent userId)).map (·.cancel s.now) ++
        [newConfig (s.uuid 0) userId key expiresAt s.now])
      (itemRows (s.uuid 0) s.now s.uuid 0 items))
    (hadm : pg.AdmitsPriority s.now s.uuid key userId actor items expiresAt) :
    Pg.SamePriorities (pg.addPriority s.now s.uuid key userId actor items expiresAt)
      (s.view pg) where
  configs := by
    have hnew : ∀ v ∈ [newConfig (s.uuid 0) userId key expiresAt s.now],
        v.id ∉ pg.configs.map (·.id) := by
      intro v hv hmem
      obtain ⟨c, hc, hid⟩ := List.mem_map.mp hmem
      refine hadm.config.newId (c.afterCancel userId s.now) ?_ ?_
      · rw [Pg.cancelActive_configs]
        exact List.mem_map_of_mem hc
      · rw [(c.later_afterCancel userId s.now).id_eq, hid, List.mem_singleton.mp hv]
    have hconfigs : (pg.addPriority s.now s.uuid key userId actor items expiresAt).configs =
        (pg.cancelActive userId actor s.now).configs ++
          [newConfig (s.uuid 0) userId key expiresAt s.now] := Pg.withPriority_configs ..
    show overlay (·.id) pg.configs s.own.configs = _
    rw [h.configs, overlay_append hnew, hconfigs, Pg.cancelActive_configs]
    congr 1
    exact overlay_rewritten hids (fun _ => rfl)
  items := by
    have hnew : ∀ v ∈ itemRows (s.uuid 0) s.now s.uuid 0 items, v.id ∉ pg.items.map (·.id) := by
      intro v hv hmem
      obtain ⟨i, hi, hid⟩ := List.mem_map.mp hmem
      refine ((hadm.items.1 v hv).unique i ?_).1 hid
      show i ∈ (pg.cancelActive userId actor s.now).items
      rwa [Pg.cancelActive_items]
    have hitems : (pg.addPriority s.now s.uuid key userId actor items expiresAt).items =
        (pg.cancelActive userId actor s.now).items ++ itemRows (s.uuid 0) s.now s.uuid 0 items :=
      Pg.withPriority_items ..
    have happend : overlay (·.id) pg.items ([] ++ itemRows (s.uuid 0) s.now s.uuid 0 items) =
        overlay (·.id) pg.items [] ++ itemRows (s.uuid 0) s.now s.uuid 0 items :=
      overlay_append hnew
    show overlay (·.id) pg.items s.own.items = _
    rw [h.items, hitems, Pg.cancelActive_items]
    rwa [List.nil_append, overlay_nil] at happend
  providers := by
    have hproviders : (pg.addPriority s.now s.uuid key userId actor items expiresAt).providers =
        (pg.cancelActive userId actor s.now).providers := Pg.withPriority_providers ..
    rw [h.view_providers, hproviders,
      (Pg.cancelActive_sameCore pg userId actor s.now).providers]

end

end Wurzburg.Db
