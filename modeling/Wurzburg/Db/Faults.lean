import Wurzburg.Db.Sessions

/-!
# Wurzburg.Db.Faults

Which error a repository method ends with.

A method stops at the first statement that fails and returns the error of that
statement under the contexts of its place (`Repo.Stops`). Of the statements of the
priorities only the two insertions can be refused by a unique index (`Sql.exec_violation`),
and no context in `create_priority_config` repeats the error it is put around
(`createPriorityConfig_stops`).
-/

namespace Wurzburg.Db

open Wurzburg.Lib

/-! ### Refused by a unique index -/

def SqlError.isUnique : SqlError → Bool
  | .uniqueViolation _ => true
  | _ => false

/-- The insertion meets a row in a unique index. -/
def Sql.collides (pg : Pg) (fresh : Uuid) : Sql → Bool
  | .insertConfig u key _ => pg.configs.any (fun c =>
      c.id = fresh ∨ c.idempotencyKey = key ∨ c.userId = u ∧ c.status = .active)
  | .insertItem new => pg.items.any (fun i =>
      i.id = fresh ∨ i.configId = new.configId ∧
        (i.providerId = new.providerId ∨ i.priorityOrder = new.priorityOrder))
  | _ => false

/-- Statements of the priorities that insert nothing. -/
def Sql.insertsNothing : Sql → Prop
  | .setActor _ | .commit | .rollback | .cancelActiveConfig _ => True
  | e => e.isRead

/-- Statements of the priorities. -/
def Sql.ofPriorities : Sql → Prop
  | .insertConfig .. | .insertItem _ => True
  | e => e.insertsNothing

/-- What a write is refused for. -/
theorem Tx.write_refused {α : Type} {t t' : Tx} {checks : List (Bool × SqlError)} {row : α}
    {upd : Pg → Pg} {logs : Uuid → List AuditLog} {e : SqlError}
    (h : t.write checks row upd logs = (.error e, t')) :
    e = .raised auditMessage ∨ (true, e) ∈ checks := by
  unfold write at h
  split at h
  · next e' he =>
      obtain ⟨he', -⟩ := Prod.mk.inj h
      rw [← Except.error.inj he']
      exact Or.inr (mem_of_firstFailure he)
  · split at h
    · obtain ⟨he', -⟩ := Prod.mk.inj h
      exact Or.inl (Except.error.inj he').symm
    · cases (Prod.mk.inj h).1

/-- A statement that inserts nothing is not refused by a unique index. -/
theorem Sql.exec_insertsNothing {e : Sql} {t t' : Tx} {error : SqlError} (he : e.insertsNothing)
    (h : Sql.exec e t = (.error error, t')) : error.isUnique = false := by
  cases e with
  | cancelActiveConfig u =>
      have h : t.cancelActiveConfig u = (.error error, t') := h
      unfold Tx.cancelActiveConfig Tx.update at h
      simp only at h
      split at h
      · cases (Prod.mk.inj h).1
      · rcases Tx.write_refused h with rfl | hmem
        · rfl
        · cases hmem
  | insertProvider _ | insertUser _ _ _ | upsertUserProvider _ _ _ | insertUserAccount _ _ _ _
  | insertTransaction _ | insertConfig _ _ _ | insertItem _ | softDeleteItems _
  | softDeleteConfig _ | insertSystemAccount _ _ _ _ | newV4 => exact he.elim
  | _ => cases (Prod.mk.inj h).1

/-- An insertion that a unique index refuses has met a row in it. -/
theorem Sql.exec_violation {e : Sql} {t t' : Tx} {error : SqlError} (he : e.ofPriorities)
    (hunique : error.isUnique = true) (h : Sql.exec e t = (.error error, t')) :
    e.collides t.pg t.fresh = true := by
  cases e with
  | insertConfig u key expiresAt =>
      have h : t.insertConfig u key expiresAt = (.error error, t') := h
      unfold Tx.insertConfig at h
      have hany : ∀ {p : UserPriorityConfig → Bool}, true = t.pg.configs.any p →
          (∀ c, p c = true → c.id = t.fresh ∨ c.idempotencyKey = key ∨
            c.userId = u ∧ c.status = .active) →
          (Sql.insertConfig u key expiresAt).collides t.pg t.fresh = true := by
        intro p hp himp
        obtain ⟨c, hc, hpc⟩ := List.any_eq_true.mp hp.symm
        exact List.any_eq_true.mpr ⟨c, hc, decide_eq_true (himp c hpc)⟩
      rcases Tx.write_refused h with rfl | hmem
      · cases hunique
      · simp only [List.mem_cons, Prod.mk.injEq, List.not_mem_nil, or_false] at hmem
        rcases hmem with ⟨-, rfl⟩ | ⟨-, rfl⟩ | ⟨hid, -⟩ | ⟨hkey, -⟩ | ⟨hactive, -⟩ | ⟨-, rfl⟩
        · cases hunique
        · cases hunique
        · exact hany hid (fun c hc => Or.inl (of_decide_eq_true hc))
        · exact hany hkey (fun c hc => Or.inr (Or.inl (of_decide_eq_true hc)))
        · exact hany hactive (fun c hc => Or.inr (Or.inr (of_decide_eq_true hc)))
        · cases hunique
  | insertItem new =>
      have h : t.insertItem new = (.error error, t') := h
      unfold Tx.insertItem at h
      have hany : ∀ {p : PriorityItemRow → Bool}, true = t.pg.items.any p →
          (∀ i, p i = true → i.id = t.fresh ∨ i.configId = new.configId ∧
            (i.providerId = new.providerId ∨ i.priorityOrder = new.priorityOrder)) →
          (Sql.insertItem new).collides t.pg t.fresh = true := by
        intro p hp himp
        obtain ⟨i, hi, hpi⟩ := List.any_eq_true.mp hp.symm
        exact List.any_eq_true.mpr ⟨i, hi, decide_eq_true (himp i hpi)⟩
      rcases Tx.write_refused h with rfl | hmem
      · cases hunique
      · simp only [List.mem_cons, Prod.mk.injEq, List.not_mem_nil, or_false] at hmem
        rcases hmem with ⟨-, rfl⟩ | ⟨-, rfl⟩ | ⟨hid, -⟩ | ⟨hprovider, -⟩ | ⟨horder, -⟩ | ⟨-, rfl⟩ |
          ⟨-, rfl⟩
        · cases hunique
        · cases hunique
        · exact hany hid (fun i hi => Or.inl (of_decide_eq_true hi))
        · refine hany hprovider (fun i hi => Or.inr ?_)
          obtain ⟨h₁, h₂⟩ := of_decide_eq_true hi
          exact ⟨h₁, Or.inl h₂⟩
        · refine hany horder (fun i hi => Or.inr ?_)
          obtain ⟨h₁, h₂⟩ := of_decide_eq_true hi
          exact ⟨h₁, Or.inr h₂⟩
        · cases hunique
        · cases hunique
  | cancelActiveConfig u =>
      rw [Sql.exec_insertsNothing (e := .cancelActiveConfig u) trivial h] at hunique
      cases hunique
  | insertProvider _ | insertUser _ _ _ | upsertUserProvider _ _ _ | insertUserAccount _ _ _ _
  | insertTransaction _ | softDeleteItems _ | softDeleteConfig _ | insertSystemAccount _ _ _ _
  | newV4 => exact he.elim
  | _ => cases (Prod.mk.inj h).1

/-! ### Where the error of a method comes from -/

/-- A method goes on while its statements succeed, and the last error is remembered. -/
def faults (allowed : Sql → Prop) : Protocol Sql Sql.Resp where
  Phase := Option SqlError
  allowed φ e := φ = none ∧ allowed e
  next _ _ r := match r with
    | .ok _ => none
    | .error error => some error

/-- The method returns the error under contexts of a kind. -/
def Blames {α : Type} (contexts : List String → Prop) :
    Option SqlError → Except RepoError α → Prop
  | φ, .ok _ => φ = none
  | φ, .error e => φ = some e.source ∧ contexts e.contexts

/-- The method issues statements of a kind up to the first one that fails, and returns its
error under contexts of a kind. -/
def Repo.Stops {α : Type} (allowed : Sql → Prop) (contexts : List String → Prop) (x : Repo α) :
    Prop :=
  x.run.Follows (faults allowed) (Blames contexts) none

namespace Repo

variable {α β : Type} {allowed : Sql → Prop} {contexts : List String → Prop}

theorem stops_query {e : Sql} {cs : List String} (he : allowed e) (hcs : contexts cs) :
    Stops allowed contexts (query e cs) := by
  refine ⟨⟨rfl, he⟩, fun r => ?_⟩
  cases r with
  | ok row => exact rfl
  | error error => exact ⟨rfl, hcs⟩

theorem stops_pure (a : α) : Stops allowed contexts (pure a : Repo α) := rfl

theorem Stops.bind {x : Repo α} {f : α → Repo β} (hx : Stops allowed contexts x)
    (hf : ∀ a, Stops allowed contexts (f a)) : Stops allowed contexts (x >>= f) := by
  refine Prog.Follows.bind (f := ExceptT.bindCont f) hx (fun φ r hr => ?_)
  cases r with
  | ok a =>
      obtain rfl : φ = none := hr
      exact hf a
  | error e => exact hr

end Repo

/-- A text around an error that does not repeat it. -/
def Mute (contexts : List String) : Prop :=
  ∃ c cs, contexts = c :: cs ∧ containsText c "duplicate key value" = false

theorem insertItems_stops (configId : Uuid) (index : Nat) (items : List PriorityItemData) :
    (insertItems configId index items).Stops Sql.ofPriorities Mute := by
  induction items generalizing index with
  | nil => exact Repo.stops_pure _
  | cons item items ih =>
      have hmute : Mute
          ["Failed to create priority item for provider " ++ item.providerId.toString] := by
        refine ⟨_, [], rfl, containsText_eq_false (c := 'k') (by decide) ?_⟩
        rw [String.toList_append, List.mem_append]
        rintro (h | h)
        · exact absurd h (by decide)
        · rcases Uuid.mem_toString h with h | ⟨a, h⟩
          · cases h
          · exact absurd h.symm (by revert a; decide)
      exact .bind (Repo.stops_query trivial hmute) (fun _ => ih (index + 1))

/-- **Every failure of `create_priority_config` is mute**: it shows only where it
happened. -/
theorem createPriorityConfig_stops (key : String) (userId : Uuid) (items : List PriorityItemData)
    (expiresAt : Option Timestamp) (actorId : Uuid) :
    (createPriorityConfig key userId items expiresAt actorId).Stops Sql.ofPriorities Mute := by
  have hmute : ∀ c ∈ ["Failed to set actor_id for audit log",
      "Failed to cancel existing active priority config", "Failed to create new priority config",
      "Failed to fetch created priority items with ledger IDs", "Failed to commit transaction"],
      Mute [c] := by
    intro c hc
    have hk : 'k' ∉ c.toList := by
      revert c
      decide
    exact ⟨c, [], rfl, containsText_eq_false (c := 'k') (by decide) hk⟩
  refine .bind (Repo.stops_query trivial (hmute _ (by simp))) (fun _ => ?_)
  refine .bind (Repo.stops_query trivial (hmute _ (by simp))) (fun _ => ?_)
  refine .bind (Repo.stops_query trivial (hmute _ (by simp))) (fun config => ?_)
  refine .bind (insertItems_stops config.id 0 items) (fun _ => ?_)
  refine .bind (Repo.stops_query trivial (hmute _ (by simp))) (fun created => ?_)
  exact .bind (Repo.stops_query trivial (hmute _ (by simp))) (fun _ => Repo.stops_pure _)

theorem cancelActivePriorityConfig_stops (userId actorId : Uuid) :
    (cancelActivePriorityConfig userId actorId).Stops Sql.insertsNothing (fun _ => True) := by
  refine .bind (Repo.stops_query trivial trivial) (fun _ => ?_)
  refine .bind (Repo.stops_query trivial trivial) (fun found => ?_)
  cases found with
  | none => exact .bind (Repo.stops_query trivial trivial) (fun _ => Repo.stops_pure _)
  | some config =>
      refine .bind (Repo.stops_query trivial trivial) (fun items => ?_)
      exact .bind (Repo.stops_query trivial trivial) (fun _ => Repo.stops_pure _)

theorem withItems_stops (config : Option UserPriorityConfig) :
    (withItems config).Stops Sql.insertsNothing (fun _ => True) := by
  cases config with
  | none => exact Repo.stops_pure _
  | some c => exact .bind (Repo.stops_query trivial trivial) (fun _ => Repo.stops_pure _)

theorem detailsOf_stops (configs : List UserPriorityConfig) :
    (detailsOf configs).Stops Sql.insertsNothing (fun _ => True) := by
  induction configs with
  | nil => exact Repo.stops_pure _
  | cons c cs ih =>
      refine .bind (Repo.stops_query trivial trivial) (fun items => ?_)
      exact .bind ih (fun rest => Repo.stops_pure _)

end Wurzburg.Db
