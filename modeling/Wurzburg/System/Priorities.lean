import Wurzburg.Db.Lifecycle
import Wurzburg.System.Histories
import Wurzburg.System.PriorityCache

/-!
# Wurzburg.System.Priorities

The priorities in the running service. Whatever is called, the configurations
and their items change by a cancellation or a creation only
(`priorities_cases`), so they are consistent in every reachable state and only
move on (`Reachable.priorities`).
-/

namespace Wurzburg.System

open Wurzburg.Lib Wurzburg.Db Wurzburg.Tb Wurzburg.Api

/-! ### One repository call -/

/-- What a repository call can do to the priorities. -/
theorem priorities_cases {call : DbCall} {pg pg' : Pg} {now : Timestamp} {uuid : Nat → Uuid}
    {r : Except RepoError call.Row} {n : Nat} (h : call.body.transact pg now uuid = (r, pg', n)) :
    KeepsPriorities pg pg' ∨
    (∃ userId actor, call = .cancelActivePriorityConfig userId actor ∧
      pg' = pg.cancelActive userId actor now) ∨
    (∃ key userId items expiresAt actor,
      call = .createPriorityConfig key userId items expiresAt actor ∧
      pg.AdmitsPriority now uuid key userId actor items expiresAt ∧
      pg' = pg.addPriority now uuid key userId actor items expiresAt) := by
  cases call with
  | createProvider p actor =>
      exact Or.inl (Repo.transact_sparesPriorities (createProvider_sparesPriorities ..) h)
  | createOrLinkUser nid p im em lid actor =>
      exact Or.inl (Repo.transact_sparesPriorities (createOrLinkUser_sparesPriorities ..) h)
  | recordSystemAccount code name category lid =>
      exact Or.inl (Repo.transact_sparesPriorities (recordSystemAccount_sparesPriorities ..) h)
  | cancelActivePriorityConfig userId actor =>
      have htx := (cancelActivePriorityConfig_transact userId actor pg now uuid).symm.trans h
      obtain ⟨-, htx⟩ := Prod.mk.inj htx
      exact Or.inr (Or.inl ⟨userId, actor, rfl, (Prod.mk.inj htx).1.symm⟩)
  | createPriorityConfig key userId items expiresAt actor =>
      rcases createPriorityConfig_cases with ⟨hadm, htx⟩ | ⟨e, m, -, htx⟩
      · obtain ⟨-, htx⟩ := Prod.mk.inj (htx.symm.trans h)
        exact Or.inr (Or.inr ⟨key, userId, items, expiresAt, actor, rfl, hadm,
          (Prod.mk.inj htx).1.symm⟩)
      · obtain ⟨-, htx⟩ := Prod.mk.inj (htx.symm.trans h)
        rw [← (Prod.mk.inj htx).1]
        exact Or.inl (.refl _)
  | _ => exact Or.inl (.of_same (spares_transact (by trivial) h))

/-! ### The whole service -/

/-- Only a repository call touches the database. -/
theorem exec_pg {w w' : World} {capacity : Nat} {ch : Choice} {e : Eff} {r : e.Resp}
    (hx : w.exec capacity ch e = some (r, w')) :
    w'.pg = w.pg ∨ ∃ call, e = .db call ∧ ∃ r', w.dbApply ch call = some (r', w') := by
  cases e with
  | db call =>
      rcases World.dbExec_cases hx with ⟨_, -, rfl⟩ | ⟨r', happly, -⟩
      · exact Or.inl rfl
      · exact Or.inr ⟨call, rfl, r', happly⟩
  | now =>
      obtain ⟨-, rfl⟩ := Prod.mk.inj (Option.some.inj hx)
      exact Or.inl rfl
  | newV4 use =>
      simp only [World.exec] at hx
      split at hx
      · obtain ⟨-, rfl⟩ := Prod.mk.inj (Option.some.inj hx)
        exact Or.inl rfl
      · cases hx
  | redis cmd =>
      exact Or.inl (faulty_sameBooks (redisApply_sameBooks w cmd) (Option.some.inj hx)).pg
  | kafka cmd =>
      exact Or.inl (faulty_sameBooks (kafkaApply_sameBooks w cmd) (Option.some.inj hx)).pg
  | tbSend request =>
      rcases World.tbSend_cases hx with ⟨-, rfl⟩ | ⟨-, rfl⟩ <;> exact Or.inl rfl
  | tbRecv i =>
      obtain ⟨rfl, -⟩ := World.tbRecv_cases hx
      exact Or.inl rfl

/-- One effect of a handler moves the priorities on. -/
theorem exec_priorities {w w' : World} {capacity : Nat} {ch : Choice} {e : Eff} {r : e.Resp}
    (hx : w.exec capacity ch e = some (r, w')) (hp : Priorities w.pg) :
    Priorities w'.pg ∧ Pg.Continues w.pg w'.pg := by
  rcases exec_pg hx with heq | ⟨call, rfl, r', happly⟩
  · rw [heq]
    exact ⟨hp, .refl _⟩
  · obtain ⟨pg, n, htx, -, rfl⟩ := World.dbApply_cases happly
    rcases priorities_cases htx with hkeep | ⟨userId, actor, -, rfl⟩ |
      ⟨key, userId, items, expiresAt, actor, -, hadm, rfl⟩
    · exact hkeep.keep hp
    · exact ⟨hp.cancelActive userId actor w.dbNow, Pg.continues_cancelActive ..⟩
    · obtain ⟨hp', hcontinues, -⟩ := hp.addPriority hadm
      exact ⟨hp', hcontinues⟩

/-- The world by itself does not touch the database. -/
theorem move_pg {tb : TigerBeetle} {n : Nat} {w w' : World} {v : Move}
    (hx : w.move tb n v = some w') : w'.pg = w.pg :=
  (World.move_frame hx).1

theorem step_priorities {env : Env} {c c' : State} {l : Act} (hp : Priorities c.world.pg)
    (hs : (machine env).step c l = some c') :
    Priorities c'.world.pg ∧ Pg.Continues c.world.pg c'.world.pg := by
  rcases (machine env).step_cases hs with ⟨q, rfl, rfl⟩ |
    ⟨i, ch, q, hist, e, k, r, w, rfl, -, hx, rfl⟩ | ⟨i, q, hist, e, k, rfl, -, rfl⟩ |
    ⟨v, w, rfl, hx, rfl⟩
  · exact ⟨hp, .refl _⟩
  · exact exec_priorities hx hp
  · exact ⟨hp, .refl _⟩
  · have heq : w.pg = c.world.pg := move_pg hx
    show Priorities w.pg ∧ Pg.Continues c.world.pg w.pg
    rw [heq]
    exact ⟨hp, .refl _⟩

/-- The ids of the rows were generated. -/
structure IdsIssued (w : World) : Prop where
  configs : ∀ c ∈ w.pg.configs, c.id ∈ w.issued.map Prod.fst
  items : ∀ i ∈ w.pg.items, i.id ∈ w.issued.map Prod.fst

theorem IdsIssued.mono {w w' : World} (h : IdsIssued w) (hissued : w.issued <+: w'.issued)
    (hconfigs : ∀ c ∈ w'.pg.configs, c.id ∈ w.pg.configs.map (·.id))
    (hitems : w'.pg.items = w.pg.items) : IdsIssued w' := by
  have hsub := (hissued.map Prod.fst).subset
  refine ⟨fun c hc => ?_, fun i hi => hsub (h.items i (hitems ▸ hi))⟩
  obtain ⟨d, hd, hid⟩ := List.mem_map.mp (hconfigs c hc)
  exact hsub (hid ▸ h.configs d hd)

/-- A creation takes its ids from those it generates. -/
theorem IdsIssued.addPriority {w w' : World} (h : IdsIssued w) {now : Timestamp}
    {uuid : Nat → Uuid} {key : String} {userId actor : Uuid} {items : List PriorityItemData}
    {expiresAt : Option Timestamp}
    (hpg : w'.pg = w.pg.addPriority now uuid key userId actor items expiresAt)
    (hissued : w.issued <+: w'.issued)
    (hdrawn : ∀ i ≤ items.length, uuid i ∈ w'.issued.map Prod.fst) : IdsIssued w' := by
  have hsub := (hissued.map Prod.fst).subset
  constructor
  · intro c hc
    rw [hpg] at hc
    rcases List.mem_append.mp (Pg.withPriority_configs .. ▸ hc) with hc | hc
    · rw [Pg.cancelActive_configs] at hc
      obtain ⟨d, hd, rfl⟩ := List.mem_map.mp hc
      rw [(d.later_afterCancel userId now).id_eq]
      exact hsub (h.configs d hd)
    · rw [List.mem_singleton.mp hc]
      exact hdrawn 0 (Nat.zero_le _)
  · intro i hi
    rw [hpg] at hi
    rcases List.mem_append.mp (Pg.withPriority_items .. ▸ hi) with hi | hi
    · rw [Pg.cancelActive_items] at hi
      exact hsub (h.items i hi)
    · obtain ⟨j, hj, rfl⟩ := List.getElem_of_mem hi
      have hj' : j < items.length := by rwa [itemRows_length] at hj
      rw [itemRows_getElem hj']
      exact hdrawn (j + 1) hj'

theorem exec_idsIssued {w w' : World} {capacity : Nat} {ch : Choice} {e : Eff} {r : e.Resp}
    (hx : w.exec capacity ch e = some (r, w')) (hg : Grows w w') (h : IdsIssued w) :
    IdsIssued w' := by
  have hsame : ∀ pg : Pg, pg.configs = w.pg.configs → pg.items = w.pg.items → w'.pg = pg →
      IdsIssued w' := by
    intro pg hconfigs hitems hpg
    refine h.mono hg.issued (fun c hc => ?_) (by rw [hpg, hitems])
    rw [hpg, hconfigs] at hc
    exact List.mem_map_of_mem hc
  rcases exec_pg hx with heq | ⟨call, rfl, r', happly⟩
  · exact hsame _ rfl rfl heq
  · obtain ⟨pg, n, htx, -, hw⟩ := World.dbApply_cases happly
    have hpg : w'.pg = pg := by rw [hw]
    rcases priorities_cases htx with hkeep | ⟨userId, actor, -, rfl⟩ |
      ⟨key, userId, items, expiresAt, actor, rfl, hadm, rfl⟩
    · exact hsame pg hkeep.configs hkeep.items hpg
    · refine h.mono hg.issued (fun c hc => ?_) (by rw [hpg, Pg.cancelActive_items])
      rw [hpg, Pg.cancelActive_configs] at hc
      obtain ⟨d, hd, rfl⟩ := List.mem_map.mp hc
      rw [(d.later_afterCancel userId w.dbNow).id_eq]
      exact List.mem_map_of_mem hd
    · refine h.addPriority hpg hg.issued (fun i hi => ?_)
      have hn : n = items.length + 1 := by
        rcases createPriorityConfig_cases with ⟨-, hcreate⟩ | ⟨e, m, hrefused, -⟩
        · obtain ⟨-, hrest⟩ := Prod.mk.inj (hcreate.symm.trans htx)
          exact (Prod.mk.inj hrest).2.symm
        · exact absurd hadm hrefused.not_admits
      rw [hw, hn]
      simp only [List.map_append, List.mem_append, List.map_map]
      exact Or.inr (List.mem_map_of_mem (List.mem_range.mpr (Nat.lt_succ_of_le hi)))

/-- The rows of the priorities have generated ids in every reachable state. -/
theorem Reachable.idsIssued {env : Env} {c : State} (h : Reachable env c) :
    IdsIssued c.world := by
  obtain ⟨now, hreach⟩ := h
  refine (hreach.invariant (P := fun c => Reachable env c ∧ IdsIssued c.world)
    ⟨boot_reachable env now, by constructor <;> simp [boot, World.boot, Pg.empty]⟩ ?_).2
  rintro c l c' ⟨hc, hids⟩ - hs
  obtain ⟨hc', hg⟩ := hc.step hs
  refine ⟨hc', ?_⟩
  rcases (machine env).step_cases hs with ⟨q, rfl, rfl⟩ |
    ⟨i, ch, q, hist, e, k, r, w, rfl, -, hx, rfl⟩ | ⟨i, q, hist, e, k, rfl, -, rfl⟩ |
    ⟨v, w, rfl, hx, rfl⟩
  · exact hids
  · exact exec_idsIssued hx hg hids
  · exact hids
  · have heq : w.pg = c.world.pg := move_pg hx
    exact hids.mono hg.issued (fun c hc => heq ▸ List.mem_map_of_mem hc) (by rw [heq])

/-- The priorities are consistent in every reachable state. -/
theorem Reachable.priorities {env : Env} {c : State} (h : Reachable env c) :
    Priorities c.world.pg := by
  obtain ⟨now, hreach⟩ := h
  exact hreach.invariant (P := fun c => Priorities c.world.pg) Priorities.empty
    (fun _ _ _ hp _ hs => (step_priorities hp hs).1)

end Wurzburg.System
