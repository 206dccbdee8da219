import Wurzburg.Db.Serial
import Wurzburg.Db.Interleavings

/-!
# Wurzburg.Db.SerialPriorities

Interleaved priority calls leave what the same calls leave one after the other
(`priorities_serializable`).

A creation or a cancellation that commits does what its call does in one step at that
moment (`Stage.Holds.commits_transact`), so the order of the commits serves. A soft
deletion sets no actor, so that it changes nothing, and is left out; so is a
cancellation that rolls back, although a configuration can be in force at every moment
of it: its `UPDATE` has found one that another call then replaces.
-/

namespace Wurzburg.Db

open Wurzburg.Lib

/-! ### The tables of priorities -/

/-- The tables that priority calls read and write are the same. -/
structure Pg.SameForPriorities (pg pg' : Pg) : Prop extends Pg.SamePriorities pg pg' where
  users : pg'.users = pg.users

section

variable {pg pg₁ pg₂ : Pg} {now : Timestamp} {uuid : Nat → Uuid} {key : String}
  {userId actor : Uuid} {items : List PriorityItemData} {expiresAt : Option Timestamp}

theorem Pg.SamePriorities.trans (h : Pg.SamePriorities pg pg₁) (h' : Pg.SamePriorities pg₁ pg₂) :
    Pg.SamePriorities pg pg₂ :=
  ⟨h'.configs.trans h.configs, h'.items.trans h.items, h'.providers.trans h.providers⟩

theorem Pg.SamePriorities.cancelActive (h : Pg.SamePriorities pg₁ pg) :
    Pg.SamePriorities (pg₁.cancelActive userId actor now) (pg.cancelActive userId actor now) where
  configs := by rw [Pg.cancelActive_configs, Pg.cancelActive_configs, h.configs]
  items := by rw [Pg.cancelActive_items, Pg.cancelActive_items, h.items]
  providers := by
    rw [(Pg.cancelActive_sameCore pg userId actor now).providers,
      (Pg.cancelActive_sameCore pg₁ userId actor now).providers, h.providers]

theorem Pg.SamePriorities.withPriority {c : UserPriorityConfig} {rows : List PriorityItemRow}
    (h : Pg.SamePriorities pg₁ pg) :
    Pg.SamePriorities (pg₁.withPriority actor c rows) (pg.withPriority actor c rows) where
  configs := by rw [Pg.withPriority_configs, Pg.withPriority_configs, h.configs]
  items := by rw [Pg.withPriority_items, Pg.withPriority_items, h.items]
  providers := by rw [Pg.withPriority_providers, Pg.withPriority_providers, h.providers]

theorem Pg.SameForPriorities.refl (pg : Pg) : Pg.SameForPriorities pg pg := ⟨.refl pg, rfl⟩

theorem Pg.SameForPriorities.admits (h : Pg.SameForPriorities pg₁ pg)
    (hadm : pg.AdmitsPriority now uuid key userId actor items expiresAt) :
    pg₁.AdmitsPriority now uuid key userId actor items expiresAt := by
  have hcancel : Pg.SamePriorities (pg₁.cancelActive userId actor now)
      (pg.cancelActive userId actor now) := h.toSamePriorities.cancelActive
  refine ⟨hadm.config.congr hcancel.configs.symm ?_, fun row hrow => ?_, hadm.items.2⟩
  · rw [(Pg.cancelActive_sameCore pg₁ userId actor now).users,
      (Pg.cancelActive_sameCore pg userId actor now).users, h.users]
  · have hconfig : Pg.SamePriorities
        ((pg₁.cancelActive userId actor now).addConfig actor
          (newConfig (uuid 0) userId key expiresAt now))
        ((pg.cancelActive userId actor now).addConfig actor
          (newConfig (uuid 0) userId key expiresAt now)) :=
      ⟨congrArg (· ++ [_]) hcancel.configs, hcancel.items, hcancel.providers⟩
    exact hconfig.admitsItem (hadm.items.1 row hrow)

end

/-! ### One move -/

section

variable {pg pg₁ pg' : Pg} {s s' : PrioritySession} {φ : Stage} {m : Session.Move}

/-- **A commit** of a creation or a cancellation does what the call does in one step. -/
theorem Stage.Holds.commits_transact (h : φ.Holds pg s) (hp : Priorities pg)
    (he : s.call.allowed φ .commit) (hsame : Pg.SameForPriorities pg₁ pg)
    (hnot : ∀ configId, s.call ≠ .softDelete configId) :
    ∃ pg₂ n, s.call.body.transact pg₁ s.now s.uuid = (.ok (), pg₂, n) ∧
      Pg.SameForPriorities pg₂ (s.view pg) := by
  have hcases := h.commit_cases hp he
  have husers := (h.commits hp he).users
  cases hcall : s.call with
  | create key u items expiresAt a =>
      rw [hcall] at hcases
      obtain ⟨hadm, hview⟩ := hcases
      rcases @createPriorityConfig_cases pg₁ s.now s.uuid key u a items expiresAt with
        ⟨-, htx⟩ | ⟨e, n, hrefused, -⟩
      · have hcore := Repo.transact_sparesCore (createPriorityConfig_spares ..) htx
        refine ⟨_, _, Repo.transact_discard_ok htx, hsame.cancelActive.withPriority.trans hview, ?_⟩
        exact husers.trans (hsame.users.trans hcore.users.symm)
      · exact absurd (hsame.admits hadm) hrefused.not_admits
  | cancel u a =>
      rw [hcall] at hcases
      have hcore := Pg.cancelActive_sameCore pg₁ u a s.now
      refine ⟨_, _, Repo.transact_discard_ok (cancelActivePriorityConfig_transact ..),
        hsame.cancelActive.trans hcases, ?_⟩
      exact husers.trans (hsame.users.trans hcore.users.symm)
  | softDelete configId => exact absurd hcall (hnot configId)

/-- Nothing is left to execute after a commit. -/
theorem PriorityCall.Keeps.committed {call : PriorityCall}
    {p : Prog Sql Sql.Resp (Except RepoError Unit)} (h : call.Keeps .committed p) :
    p = .ret (.ok ()) := by
  cases p with
  | ret r => exact congrArg Prog.ret (h.1 rfl)
  | call e k => exact absurd h.1 (PriorityCall.not_allowed_over (Or.inl rfl))

/-- A creation does not succeed by a statement that fails or is no commit. -/
theorem PriorityCall.Keeps.not_created {call : PriorityCall} {e : Sql}
    {k : e.Resp → Prog Sql Sql.Resp (Except RepoError Unit)} {resp : e.Resp}
    {r : Except RepoError Unit} (h : call.Keeps φ (.call e k))
    (he : (∃ error, resp = .error error) ∨ e ≠ .commit) (hcreates : call.creates)
    (hk : k resp = .ret r) : r ≠ .ok () := by
  rintro rfl
  have hnext := h.2 resp
  rw [hk] at hnext
  have hcommitted : φ.next e resp = .committed := hnext.2 hcreates rfl
  rcases he with ⟨error, rfl⟩ | he
  · rw [φ.next_error] at hcommitted
    cases hcommitted
  · refine Stage.next_ne_committed he ?_ resp hcommitted
    rintro rfl
    exact PriorityCall.not_allowed_over (Or.inl rfl) h.1

/-- **One move** of a priority transaction. -/
theorem Session.Moves.atomic (h : s.Moves pg m s' pg') (hp : Priorities pg) (hφ : φ.Holds pg s)
    (hkeeps : s.call.Keeps φ s.rest) :
    Store.Atomic PriorityCall.body Pg.SameForPriorities PriorityCall.creates pg s s' pg' := by
  -- a statement after which nothing is committed
  have hsilent : ∀ {e : Sql} {k : e.Resp → Prog Sql Sql.Resp (Except RepoError Unit)}
      {resp : e.Resp} {o : PrioritySession}, s.rest = .call e k →
        ((∃ error, resp = .error error) ∨ e ≠ .commit) → o.rest = k resp →
        Store.Atomic PriorityCall.body Pg.SameForPriorities PriorityCall.creates pg s o pg := by
    intro e k resp o hrest he ho
    rw [hrest] at hkeeps
    refine .silent (fun _ hsame => hsame) (fun r hcreates _ hr => ?_)
    rw [Session.result?_eq_some, ho] at hr
    exact PriorityCall.Keeps.not_created hkeeps he hcreates hr rfl
  cases h with
  | find =>
      refine .silent (fun _ hsame => hsame) (fun r _ hnone hr => ?_)
      have hr' : s.result? = some (.ok r) := hr
      rw [hnone] at hr'
      cases hr'
  | ran hrest hgoing hsight hexec => exact hsilent hrest (Or.inr hgoing.1) rfl
  | refused hrest hsight hexec => exact hsilent hrest (Or.inl ⟨_, rfl⟩) rfl
  | rolledBack hrest => exact hsilent hrest (Or.inr (fun h => by cases h)) rfl
  | failed hrest => exact hsilent hrest (Or.inl ⟨_, rfl⟩) rfl
  | @committed k hrest =>
      have hrest' := hrest ▸ hkeeps
      cases hcall : s.call with
      | softDelete configId =>
          -- without an actor it has written nothing
          have hcases := hφ.commit_cases hp hrest'.1
          have husers := (hφ.commits hp hrest'.1).users
          rw [hcall] at hcases
          refine .silent (fun pg₁ hsame => ?_) (fun r hcreates _ _ => ?_)
          · exact ⟨hsame.toSamePriorities.trans hcases, husers.trans hsame.users⟩
          · rw [hcall] at hcreates
            exact hcreates
      | _ =>
          refine .commits ?_ (fun pg₁ hsame => ?_)
          · unfold Session.result?
            rw [hrest]
          · have hnext : φ.next .commit (.ok ()) = .committed := by cases φ <;> rfl
            have hdone : s.call.Keeps .committed (k (.ok ())) := hnext ▸ hrest'.2 (.ok ())
            obtain ⟨pg₂, n, htx, hsame'⟩ := hφ.commits_transact hp hrest'.1 hsame
              (fun configId h => by rw [hcall] at h; cases h)
            exact ⟨(), pg₂, n, htx, hsame', Session.result?_eq_some.mpr hdone.committed⟩

end

/-! ### Every run -/

/-- A call has statements to execute. -/
theorem PriorityCall.begin_result? (call : PriorityCall) (now : Timestamp) (uuid : Nat → Uuid) :
    (Session.begin call call.body now uuid).result? = none := by
  cases call <;> rfl

/-- The priority calls that have committed, in turn. -/
abbrev Store.InSeries (pg : Pg) (st : PriorityStore) (order : List Nat) : Prop :=
  Store.Serial PriorityCall.body Pg.SameForPriorities PriorityCall.creates pg st order

end Wurzburg.Db
