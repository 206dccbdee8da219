import Wurzburg.Lib.Overlay
import Wurzburg.Lib.Protocol
import Wurzburg.Db.Lifecycle
import Mathlib.Data.List.Perm.Basic

/-!
# Wurzburg.Db.Sessions

Repository methods on several connections at once, statement by statement.

Every call runs in a `READ COMMITTED` transaction of its own (`Session`). A
statement works on what is committed at that moment together with what its own
transaction has written. An `UPDATE` finds its rows first and, when it has their
locks, takes the newest versions of these; a row version that conflicts with one
of another open transaction has to wait for it. A statement that a constraint
refuses, or that fails for another reason, ends its transaction.
-/

namespace Wurzburg.Db

open Wurzburg.Lib

/-! ### Locks -/

/-- The primary key and the unique indexes let both rows be in the table. -/
def Provider.Compatible (p q : Provider) : Prop :=
  p.id ≠ q.id ∧ p.ledgerAccountId ≠ q.ledgerAccountId ∧ (p.isCore = true → q.isCore = false)

def User.Compatible (u v : User) : Prop := u.id ≠ v.id ∧ u.nid ≠ v.nid

def UserProvider.Compatible (a b : UserProvider) : Prop := a.id ≠ b.id ∧ a.pair ≠ b.pair

def UserAccount.Compatible (a b : UserAccount) : Prop :=
  a.id ≠ b.id ∧ a.ledgerAccountId ≠ b.ledgerAccountId ∧ a.pair ≠ b.pair

def UserPriorityConfig.Compatible (c d : UserPriorityConfig) : Prop :=
  c.id ≠ d.id ∧ c.idempotencyKey ≠ d.idempotencyKey ∧
    (c.userId = d.userId → c.status = .active → d.status ≠ .active)

def Transaction.Compatible (a b : Transaction) : Prop :=
  a.id ≠ b.id ∧ a.idempotencyKey ≠ b.idempotencyKey

def SystemAccount.Compatible (a b : SystemAccount) : Prop :=
  a.id ≠ b.id ∧ a.code ≠ b.code ∧ a.ledgerAccountId ≠ b.ledgerAccountId

instance (p q : Provider) : Decidable (p.Compatible q) := inferInstanceAs (Decidable (_ ∧ _))

instance (u v : User) : Decidable (u.Compatible v) := inferInstanceAs (Decidable (_ ∧ _))

instance (a b : UserProvider) : Decidable (a.Compatible b) := inferInstanceAs (Decidable (_ ∧ _))

instance (a b : UserAccount) : Decidable (a.Compatible b) := inferInstanceAs (Decidable (_ ∧ _))

instance (c d : UserPriorityConfig) : Decidable (c.Compatible d) :=
  inferInstanceAs (Decidable (_ ∧ _))

instance (a b : PriorityItemRow) : Decidable (a.Compatible b) :=
  inferInstanceAs (Decidable (_ ∧ _))

instance (a b : Transaction) : Decidable (a.Compatible b) := inferInstanceAs (Decidable (_ ∧ _))

instance (a b : SystemAccount) : Decidable (a.Compatible b) :=
  inferInstanceAs (Decidable (_ ∧ _))

namespace Pg

/-- The rows of both databases can be in the tables together. -/
structure Apart (a b : Pg) : Prop where
  providers : ∀ p ∈ a.providers, ∀ q ∈ b.providers, p.Compatible q
  users : ∀ u ∈ a.users, ∀ v ∈ b.users, u.Compatible v
  userProviders : ∀ x ∈ a.userProviders, ∀ y ∈ b.userProviders, x.Compatible y
  userAccounts : ∀ x ∈ a.userAccounts, ∀ y ∈ b.userAccounts, x.Compatible y
  configs : ∀ c ∈ a.configs, ∀ d ∈ b.configs, c.Compatible d
  items : ∀ i ∈ a.items, ∀ j ∈ b.items, i.Compatible j
  transactions : ∀ x ∈ a.transactions, ∀ y ∈ b.transactions, x.Compatible y
  systemAccounts : ∀ x ∈ a.systemAccounts, ∀ y ∈ b.systemAccounts, x.Compatible y

instance (a b : Pg) : Decidable (a.Apart b) :=
  decidable_of_iff
    ((∀ p ∈ a.providers, ∀ q ∈ b.providers, p.Compatible q) ∧
      (∀ u ∈ a.users, ∀ v ∈ b.users, u.Compatible v) ∧
      (∀ x ∈ a.userProviders, ∀ y ∈ b.userProviders, x.Compatible y) ∧
      (∀ x ∈ a.userAccounts, ∀ y ∈ b.userAccounts, x.Compatible y) ∧
      (∀ c ∈ a.configs, ∀ d ∈ b.configs, c.Compatible d) ∧
      (∀ i ∈ a.items, ∀ j ∈ b.items, i.Compatible j) ∧
      (∀ x ∈ a.transactions, ∀ y ∈ b.transactions, x.Compatible y) ∧
      ∀ x ∈ a.systemAccounts, ∀ y ∈ b.systemAccounts, x.Compatible y)
    ⟨fun ⟨h₁, h₂, h₃, h₄, h₅, h₆, h₇, h₈⟩ => ⟨h₁, h₂, h₃, h₄, h₅, h₆, h₇, h₈⟩,
      fun h => ⟨h.1, h.2, h.3, h.4, h.5, h.6, h.7, h.8⟩⟩

theorem apart_empty (a : Pg) : empty.Apart a := by
  constructor <;> exact fun _ h => absurd h List.not_mem_nil

theorem Apart.symm {a b : Pg} (h : a.Apart b) : b.Apart a where
  providers := fun q hq p hp => by
    obtain ⟨h₁, h₂, h₃⟩ := h.providers p hp q hq
    refine ⟨h₁.symm, h₂.symm, fun hcore => Bool.eq_false_iff.mpr (fun hp => ?_)⟩
    rw [h₃ hp] at hcore
    cases hcore
  users := fun v hv u hu => ⟨(h.users u hu v hv).1.symm, (h.users u hu v hv).2.symm⟩
  userProviders := fun y hy x hx =>
    ⟨(h.userProviders x hx y hy).1.symm, (h.userProviders x hx y hy).2.symm⟩
  userAccounts := fun y hy x hx => by
    obtain ⟨h₁, h₂, h₃⟩ := h.userAccounts x hx y hy
    exact ⟨h₁.symm, h₂.symm, h₃.symm⟩
  configs := fun d hd c hc => by
    obtain ⟨h₁, h₂, h₃⟩ := h.configs c hc d hd
    exact ⟨h₁.symm, h₂.symm, fun huser hda hca => h₃ huser.symm hca hda⟩
  items := fun j hj i hi => by
    obtain ⟨h₁, h₂⟩ := h.items i hi j hj
    exact ⟨h₁.symm, fun hconfig => ⟨(h₂ hconfig.symm).1.symm, (h₂ hconfig.symm).2.symm⟩⟩
  transactions := fun y hy x hx =>
    ⟨(h.transactions x hx y hy).1.symm, (h.transactions x hx y hy).2.symm⟩
  systemAccounts := fun y hy x hx => by
    obtain ⟨h₁, h₂, h₃⟩ := h.systemAccounts x hx y hy
    exact ⟨h₁.symm, h₂.symm, h₃.symm⟩

/-- The database as a transaction sees it that has written these row versions. -/
def overlay (pg own : Pg) : Pg where
  providers := Lib.overlay (·.id) pg.providers own.providers
  users := Lib.overlay (·.id) pg.users own.users
  userProviders := Lib.overlay (·.id) pg.userProviders own.userProviders
  userAccounts := Lib.overlay (·.id) pg.userAccounts own.userAccounts
  configs := Lib.overlay (·.id) pg.configs own.configs
  items := Lib.overlay (·.id) pg.items own.items
  transactions := Lib.overlay (·.id) pg.transactions own.transactions
  systemAccounts := Lib.overlay (·.id) pg.systemAccounts own.systemAccounts
  auditLogs := pg.auditLogs ++ own.auditLogs

/-- The row versions that have been written after a statement that saw `seen` and left
`after`. -/
def written (own seen after : Pg) : Pg where
  providers := supersede (·.id) own.providers (changed seen.providers after.providers)
  users := supersede (·.id) own.users (changed seen.users after.users)
  userProviders := supersede (·.id) own.userProviders
    (changed seen.userProviders after.userProviders)
  userAccounts := supersede (·.id) own.userAccounts (changed seen.userAccounts after.userAccounts)
  configs := supersede (·.id) own.configs (changed seen.configs after.configs)
  items := supersede (·.id) own.items (changed seen.items after.items)
  transactions := supersede (·.id) own.transactions (changed seen.transactions after.transactions)
  systemAccounts := supersede (·.id) own.systemAccounts
    (changed seen.systemAccounts after.systemAccounts)
  auditLogs := own.auditLogs ++ after.auditLogs.drop seen.auditLogs.length

/-- A statement that only reads writes nothing. -/
theorem written_self (own seen : Pg) : written own seen seen = own := by
  unfold written
  simp only [changed_self, supersede_nil, List.drop_length, List.append_nil]

end Pg

/-- The table that an `UPDATE` finds its rows in. -/
inductive PriorityTable where
  | configs
  | items
  deriving DecidableEq, Repr

/-- The table of an `UPDATE`. -/
def Sql.updates : Sql → Option PriorityTable
  | .cancelActiveConfig _ | .softDeleteConfig _ => some .configs
  | .softDeleteItems _ => some .items
  | _ => none

/-- The rows that an `UPDATE` finds. -/
def Sql.finds (pg : Pg) : Sql → List Uuid
  | .cancelActiveConfig u => (pg.configs.filter (Pg.isCurrent u)).map (·.id)
  | .softDeleteConfig c => (pg.configs.filter (fun d => d.id = c)).map (·.id)
  | .softDeleteItems c => (pg.items.filter (fun i => i.configId = c)).map (·.id)
  | _ => []

/-- The rows that `ON CONFLICT … DO UPDATE` has a lock on, even when it has not changed them. -/
def Sql.upserted (pg : Pg) : Sql → List UserProvider
  | .upsertUserProvider userId providerId _ =>
      pg.userProviders.filter (fun up => up.pair = (userId, providerId))
  | _ => []

/-- The rows with these ids of a table. -/
def Pg.only (pg : Pg) (ids : List Uuid) : PriorityTable → Pg
  | .configs => { pg with configs := pg.configs.filter (fun c => c.id ∈ ids) }
  | .items => { pg with items := pg.items.filter (fun i => i.id ∈ ids) }

/-! ### Sessions -/

/-- One call and its transaction. -/
structure Session (C α : Type) where
  call : C
  /-- `NOW()` and the UUIDs generated during the transaction. -/
  now : Timestamp
  uuid : Nat → Uuid
  drawn : Nat
  /-- `app.current_user_id` -/
  actor : Option Uuid
  /-- The row versions that it has written and not committed. -/
  own : Pg
  /-- The rows that the next statement, an `UPDATE`, has found. -/
  found : Option (List Uuid)
  rest : Prog Sql Sql.Resp (Except RepoError α)

namespace Session

/-- What can happen to an open transaction. -/
inductive Move where
  /-- An `UPDATE` finds its rows. -/
  | find
  /-- The next statement is executed. -/
  | run
  | commit
  | rollback
  /-- The next statement fails for another reason than a constraint. -/
  | fail (error : SqlError)
  deriving DecidableEq

variable {C α : Type}

/-- A transaction that has just begun. -/
def begin (call : C) (body : Repo α) (now : Timestamp) (uuid : Nat → Uuid) : Session C α :=
  ⟨call, now, uuid, 0, none, .empty, none, body.run⟩

/-- What the transaction sees. -/
def view (s : Session C α) (pg : Pg) : Pg := pg.overlay s.own

/-- What a statement works on; an `UPDATE` has to find its rows first. -/
def sight (s : Session C α) (pg : Pg) (e : Sql) : Option Pg :=
  match e.updates with
  | none => some (s.view pg)
  | some table => s.found.map (fun ids => (s.view pg).only ids table)

/-- The state that a statement starts from. -/
def tx (s : Session C α) (pg seen : Pg) : Tx := ⟨pg, seen, s.actor, s.now, s.uuid, s.drawn⟩

/-- After a statement that saw `seen` and left `t`. -/
def wrote (s : Session C α) (seen : Pg) (t : Tx) : Session C α :=
  { s with
    drawn := t.drawn
    actor := t.actor
    own := s.own.written seen t.pg
    found := none }

/-- With its versions of these links. -/
def locking (s : Session C α) (links : List UserProvider) : Session C α :=
  { s with own := { s.own with userProviders := supersede (·.id) s.own.userProviders links } }

theorem locking_nil (s : Session C α) : s.locking [] = s := by
  unfold locking
  rw [supersede_nil]

/-- The transaction has ended. -/
def ended (s : Session C α) : Session C α := { s with own := .empty, found := none }

def goingOn (s : Session C α) (rest : Prog Sql Sql.Resp (Except RepoError α)) : Session C α :=
  { s with rest := rest }

/-- The session after a move, and what is committed then. -/
def step (s : Session C α) (pg : Pg) : Move → Option (Session C α × Pg)
  | .find =>
      match s.rest with
      | .call e _ => some ({ s with found := some (e.finds (s.view pg)) }, pg)
      | .ret _ => none
  | .run =>
      match s.rest with
      | .call .commit _ => none
      | .call .rollback _ => none
      | .call e k =>
          match s.sight pg e with
          | none => none
          | some seen =>
              match Sql.exec e (s.tx pg seen) with
              | (.ok row, t) =>
                  some (((s.wrote seen t).locking (e.upserted t.pg)).goingOn (k (.ok row)), pg)
              | (.error error, _) => some (s.ended.goingOn (k (.error error)), pg)
      | .ret _ => none
  | .commit =>
      match s.rest with
      | .call .commit k => some (s.ended.goingOn (k (.ok ())), s.view pg)
      | _ => none
  | .rollback =>
      match s.rest with
      | .call .rollback k => some (s.ended.goingOn (k (.ok ())), pg)
      | _ => none
  | .fail error =>
      match s.rest with
      | .call _ k => some (s.ended.goingOn (k (.error error)), pg)
      | .ret _ => none

/-- What a move does. -/
inductive Moves (pg : Pg) (s : Session C α) : Move → Session C α → Pg → Prop where
  | find {ids : List Uuid} : Moves pg s .find { s with found := some ids } pg
  | ran {e : Sql} {k : e.Resp → Prog Sql Sql.Resp (Except RepoError α)} {seen : Pg} {row : e.Row}
      {t : Tx} (rest : s.rest = .call e k) (going : e ≠ .commit ∧ e ≠ .rollback)
      (sight : s.sight pg e = some seen) (exec : Sql.exec e (s.tx pg seen) = (.ok row, t)) :
      Moves pg s .run (((s.wrote seen t).locking (e.upserted t.pg)).goingOn (k (.ok row))) pg
  | refused {e : Sql} {k : e.Resp → Prog Sql Sql.Resp (Except RepoError α)} {seen : Pg}
      {error : SqlError} {t : Tx} (rest : s.rest = .call e k)
      (sight : s.sight pg e = some seen) (exec : Sql.exec e (s.tx pg seen) = (.error error, t)) :
      Moves pg s .run (s.ended.goingOn (k (.error error))) pg
  | committed {k : Sql.commit.Resp → Prog Sql Sql.Resp (Except RepoError α)}
      (rest : s.rest = .call .commit k) :
      Moves pg s .commit (s.ended.goingOn (k (.ok ()))) (s.view pg)
  | rolledBack {k : Sql.rollback.Resp → Prog Sql Sql.Resp (Except RepoError α)}
      (rest : s.rest = .call .rollback k) :
      Moves pg s .rollback (s.ended.goingOn (k (.ok ()))) pg
  | failed {e : Sql} {k : e.Resp → Prog Sql Sql.Resp (Except RepoError α)} {error : SqlError}
      (rest : s.rest = .call e k) : Moves pg s (.fail error) (s.ended.goingOn (k (.error error))) pg

theorem moves_of_step {s s' : Session C α} {pg pg' : Pg} {m : Move}
    (h : s.step pg m = some (s', pg')) : s.Moves pg m s' pg' := by
  have hinj : ∀ {s₁ : Session C α} {pg₁ : Pg}, some (s₁, pg₁) = some (s', pg') →
      s₁ = s' ∧ pg₁ = pg' := fun heq => Prod.mk.inj (Option.some.inj heq)
  cases m with
  | find =>
      simp only [step] at h
      split at h
      · obtain ⟨rfl, rfl⟩ := hinj h
        exact .find
      · cases h
  | run =>
      simp only [step] at h
      split at h
      · cases h
      · cases h
      · next e k hcommit hrollback hrest =>
          split at h
          · cases h
          · next seen hsight =>
              split at h
              · next row t hexec =>
                  obtain ⟨rfl, rfl⟩ := hinj h
                  refine .ran hrest ⟨?_, ?_⟩ hsight hexec
                  · rintro rfl
                    exact hcommit k rfl HEq.rfl
                  · rintro rfl
                    exact hrollback k rfl HEq.rfl
              · next error t hexec =>
                  obtain ⟨rfl, rfl⟩ := hinj h
                  exact .refused hrest hsight hexec
      · cases h
  | commit =>
      simp only [step] at h
      split at h
      · next k hrest =>
          obtain ⟨rfl, rfl⟩ := hinj h
          exact .committed hrest
      · cases h
  | rollback =>
      simp only [step] at h
      split at h
      · next k hrest =>
          obtain ⟨rfl, rfl⟩ := hinj h
          exact .rolledBack hrest
      · cases h
  | fail error =>
      simp only [step] at h
      split at h
      · next e k hrest =>
          obtain ⟨rfl, rfl⟩ := hinj h
          exact .failed hrest
      · cases h

/-- A statement that is not an `UPDATE` works on what the transaction sees. -/
theorem sight_view {s : Session C α} {e : Sql} (he : e.updates = none) (pg : Pg) :
    s.sight pg e = some (s.view pg) := by
  simp only [sight, he]

/-- Executing the next statement. -/
theorem step_run {s : Session C α} {e : Sql} {k : e.Resp → Prog Sql Sql.Resp (Except RepoError α)}
    {pg seen : Pg} (hrest : s.rest = .call e k) (he : e ≠ .commit ∧ e ≠ .rollback)
    (hsight : s.sight pg e = some seen) :
    s.step pg .run =
      match Sql.exec e (s.tx pg seen) with
      | (.ok row, t) => some (((s.wrote seen t).locking (e.upserted t.pg)).goingOn (k (.ok row)), pg)
      | (.error error, _) => some (s.ended.goingOn (k (.error error)), pg) := by
  cases e with
  | commit => exact absurd rfl he.1
  | rollback => exact absurd rfl he.2
  | _ => simp only [step, hrest, hsight]

/-- What the call has returned. -/
def result? (s : Session C α) : Option (Except RepoError α) :=
  match s.rest with
  | .ret r => some r
  | .call .. => none

theorem result?_eq_some {s : Session C α} {r : Except RepoError α} :
    s.result? = some r ↔ s.rest = .ret r := by
  unfold result?
  cases s.rest with
  | ret r' => simp
  | call e k => simp

/-- A session that moves has a statement to execute. -/
theorem Moves.result? {pg pg' : Pg} {s s' : Session C α} {m : Move} (h : s.Moves pg m s' pg') :
    m = .find ∨ s.result? = none := by
  cases h with
  | find => exact Or.inl rfl
  | ran rest | refused rest | committed rest | rolledBack rest | failed rest =>
      refine Or.inr ?_
      unfold Session.result?
      rw [rest]

end Session

/-! ### The store -/

/-- The database and the sessions on it. -/
structure Store (C α : Type) where
  /-- What is committed. -/
  pg : Pg
  sessions : List (Session C α)

inductive Store.Act (C : Type) where
  | begin (call : C) (now : Timestamp) (uuid : Nat → Uuid)
  | move (i : Nat) (m : Session.Move)

namespace Store

variable {C α : Type}

def start (pg : Pg) : Store C α := ⟨pg, []⟩

/-- One step of the store, where calls do this. A move that conflicts with another
transaction has to wait. -/
def step (body : C → Repo α) (st : Store C α) : Act C → Option (Store C α)
  | .begin call now uuid =>
      some { st with sessions := st.sessions ++ [.begin call (body call) now uuid] }
  | .move i m =>
      match st.sessions[i]? with
      | none => none
      | some s =>
          match s.step st.pg m with
          | none => none
          | some (s', pg') =>
              if ∀ o ∈ st.sessions.eraseIdx i, s'.own.Apart o.own then
                some ⟨pg', st.sessions.set i s'⟩
              else none

/-- Take these steps, leaving out those that cannot be taken. -/
def run (body : C → Repo α) (st : Store C α) (acts : List (Act C)) : Store C α :=
  acts.foldl (fun st act => (st.step body act).getD st) st

variable {body : C → Repo α}

/-- The second state can come after the first. -/
inductive Leads (body : C → Repo α) : Store C α → Store C α → Prop where
  | refl (st : Store C α) : Leads body st st
  | step {st st' st'' : Store C α} (act : Act C) (h : Leads body st st')
      (hstep : st'.step body act = some st'') : Leads body st st''

theorem Leads.run (st : Store C α) (acts : List (Act C)) : Leads body st (st.run body acts) := by
  have hfrom : ∀ st', Leads body st st' → Leads body st (st'.run body acts) := by
    induction acts with
    | nil => exact fun _ h => h
    | cons act acts ih =>
        intro st' h
        refine ih _ ?_
        show Leads body st ((st'.step body act).getD st')
        cases hstep : st'.step body act with
        | none => exact h
        | some st'' => exact .step act h hstep
  exact hfrom st (.refl st)

/-- A move that is in conflict with no other session. -/
theorem step_of_apart {st : Store C α} {i : Nat} {m : Session.Move} {s s' : Session C α} {pg' : Pg}
    (hs : st.sessions[i]? = some s) (hmove : s.step st.pg m = some (s', pg'))
    (hapart : ∀ o ∈ st.sessions.eraseIdx i, s'.own.Apart o.own) :
    st.step body (.move i m) = some ⟨pg', st.sessions.set i s'⟩ := by
  simp only [step, hs, hmove]
  rw [if_pos hapart]

/-- A move of one session; it is not in conflict with any other. -/
theorem step_move_at {st st' : Store C α} {i : Nat} {m : Session.Move}
    (h : st.step body (.move i m) = some st') :
    ∃ s s', st.sessions[i]? = some s ∧ s.Moves st.pg m s' st'.pg ∧
      st'.sessions = st.sessions.set i s' ∧ ∀ o ∈ st.sessions.eraseIdx i, s'.own.Apart o.own := by
  cases hs : st.sessions[i]? with
  | none =>
      simp only [step, hs] at h
      cases h
  | some s =>
      simp only [step, hs] at h
      split at h
      · cases h
      · next s' pg' hmove =>
          split at h
          · next hapart =>
              obtain rfl := Option.some.inj h
              exact ⟨s, s', rfl, Session.moves_of_step hmove, rfl, hapart⟩
          · cases h

/-- A move of one session, and the others in any order. -/
theorem step_move {st st' : Store C α} {i : Nat} {m : Session.Move}
    (h : st.step body (.move i m) = some st') :
    ∃ s s' others, s.Moves st.pg m s' st'.pg ∧ st.sessions.Perm (s :: others) ∧
      st'.sessions.Perm (s' :: others) ∧ ∀ o ∈ others, s'.own.Apart o.own := by
  obtain ⟨s, s', hs, hmoves, hset, hapart⟩ := step_move_at h
  obtain ⟨hi, rfl⟩ := List.getElem?_eq_some_iff.mp hs
  rw [hset]
  exact ⟨_, s', st.sessions.eraseIdx i, hmoves, (List.getElem_cons_eraseIdx_perm hi).symm,
    List.set_perm_cons_eraseIdx hi s', hapart⟩

/-- A session and the others. -/
theorem perm_at {st : Store C α} {i : Nat} {s : Session C α} (hs : st.sessions[i]? = some s) :
    st.sessions.Perm (s :: st.sessions.eraseIdx i) := by
  obtain ⟨hi, rfl⟩ := List.getElem?_eq_some_iff.mp hs
  exact (List.getElem_cons_eraseIdx_perm hi).symm

/-- What a session has written and what the others have. -/
theorem apart_at {st : Store C α} {i : Nat} {s : Session C α} (hs : st.sessions[i]? = some s)
    (hapart : st.sessions.Pairwise (fun s o => s.own.Apart o.own)) :
    (∀ o ∈ st.sessions.eraseIdx i, s.own.Apart o.own) ∧
      (st.sessions.eraseIdx i).Pairwise (fun s o => s.own.Apart o.own) :=
  List.pairwise_cons.mp
    (((perm_at hs).pairwise_iff (fun {_ _} hab => Pg.Apart.symm hab)).mp hapart)

/-- What holds of every session holds after a move, when the session that moves and those
that do not keep it. -/
theorem move_keeps {I : Pg → Session C α → Prop} {st st' : Store C α} {i : Nat} {m : Session.Move}
    (h : st.step body (.move i m) = some st')
    (hapart : st.sessions.Pairwise (fun s o => s.own.Apart o.own))
    (hI : ∀ s ∈ st.sessions, I st.pg s)
    (hself : ∀ s s', st.sessions[i]? = some s → s.Moves st.pg m s' st'.pg → I st'.pg s')
    (helse : ∀ s s' o, s ∈ st.sessions → s.Moves st.pg m s' st'.pg → I st.pg o →
      s.own.Apart o.own → I st'.pg o) :
    st'.sessions.Pairwise (fun s o => s.own.Apart o.own) ∧ ∀ s ∈ st'.sessions, I st'.pg s := by
  obtain ⟨s, s', hget, hmoves, hset, hothers'⟩ := step_move_at h
  have hmem : s ∈ st.sessions := List.mem_of_getElem? hget
  have hperm := perm_at hget
  have hperm' : st'.sessions.Perm (s' :: st.sessions.eraseIdx i) :=
    hset ▸ List.set_perm_cons_eraseIdx (List.getElem?_eq_some_iff.mp hget).1 s'
  obtain ⟨hs, hothers⟩ := apart_at hget hapart
  constructor
  · exact (hperm'.pairwise_iff (fun {_ _} hab => Pg.Apart.symm hab)).mpr
      (List.pairwise_cons.mpr ⟨hothers', hothers⟩)
  · intro o ho
    rcases List.mem_cons.mp (hperm'.mem_iff.mp ho) with rfl | ho
    · exact hself s _ hget hmoves
    · exact helse s s' o hmem hmoves (hI o (hperm.mem_iff.mpr (List.mem_cons_of_mem _ ho))) (hs o ho)

/-- A call that has returned stays so. -/
theorem step_result? {st st' : Store C α} {act : Act C} {r : Except RepoError α}
    (h : st.step body act = some st') (hr : ∃ s ∈ st.sessions, s.result? = some r) :
    ∃ s ∈ st'.sessions, s.result? = some r := by
  obtain ⟨o, ho, hr⟩ := hr
  cases act with
  | begin call now uuid =>
      obtain rfl := Option.some.inj h
      exact ⟨o, List.mem_append_left _ ho, hr⟩
  | move i m =>
      obtain ⟨s, s', others, hmoves, hperm, hperm', -⟩ := step_move h
      rcases List.mem_cons.mp (hperm.mem_iff.mp ho) with rfl | ho
      · rcases hmoves.result? with rfl | hnone
        · generalize st'.pg = pg' at hmoves
          cases hmoves with
          | find => exact ⟨_, hperm'.mem_iff.mpr (List.mem_cons_self ..), hr⟩
        · rw [hnone] at hr
          cases hr
      · exact ⟨o, hperm'.mem_iff.mpr (List.mem_cons_of_mem _ ho), hr⟩

/-! ### Whole runs -/

/-- Every step of the run meets the condition, in the state in which it is taken. -/
def Throughout (body : C → Repo α) (ok : Store C α → Act C → Prop) : Store C α → List (Act C) → Prop
  | _, [] => True
  | st, act :: acts => ok st act ∧ Throughout body ok ((st.step body act).getD st) acts

instance decidableThroughout (ok : Store C α → Act C → Prop) [∀ st act, Decidable (ok st act)] :
    (st : Store C α) → (acts : List (Act C)) → Decidable (Throughout body ok st acts)
  | _, [] => inferInstanceAs (Decidable True)
  | st, act :: acts =>
      have := decidableThroughout ok ((st.step body act).getD st) acts
      inferInstanceAs (Decidable (_ ∧ _))

theorem Throughout.and {ok ok' : Store C α → Act C → Prop} {acts : List (Act C)} :
    ∀ {st : Store C α}, Throughout body ok st acts → Throughout body ok' st acts →
      Throughout body (fun st act => ok st act ∧ ok' st act) st acts := by
  induction acts with
  | nil => exact fun _ _ => trivial
  | cons act acts ih =>
      rintro st ⟨hok, hacts⟩ ⟨hok', hacts'⟩
      exact ⟨⟨hok, hok'⟩, ih hacts hacts'⟩

/-- What one step keeps under the condition, such a run keeps. -/
theorem Throughout.run_induction {ok : Store C α → Act C → Prop} {motive : Store C α → Prop}
    (hstep : ∀ {st st' : Store C α} {act : Act C}, motive st → ok st act →
      st.step body act = some st' → motive st') {acts : List (Act C)} :
    ∀ {st : Store C α}, motive st → Throughout body ok st acts → motive (st.run body acts) := by
  induction acts with
  | nil => exact fun hst _ => hst
  | cons act acts ih =>
      rintro st hst ⟨hok, hacts⟩
      have hnext : motive ((st.step body act).getD st) := by
        cases hact : st.step body act with
        | none => exact hst
        | some st' => exact hstep hst hok hact
      exact ih hnext hacts

theorem run_append (st : Store C α) (acts acts' : List (Act C)) :
    st.run body (acts ++ acts') = (st.run body acts).run body acts' := List.foldl_append ..

/-- A call that has returned stays so in every run. -/
theorem run_result? {st : Store C α} {r : Except RepoError α} (acts : List (Act C))
    (hr : ∃ s ∈ st.sessions, s.result? = some r) :
    ∃ s ∈ (st.run body acts).sessions, s.result? = some r := by
  induction acts generalizing st with
  | nil => exact hr
  | cons act acts ih =>
      have hnext : ∃ s ∈ ((st.step body act).getD st).sessions, s.result? = some r := by
        cases hact : st.step body act with
        | none => exact hr
        | some st' => exact step_result? hact hr
      exact ih hnext

end Store

/-! ### Methods that keep to a protocol -/

section

variable {α β : Type} {P : Protocol Sql Sql.Resp} {φ : P.Phase} {e : Sql} {contexts : List String}
  {post : P.Phase → Except RepoError β → Prop}

/-- One statement. -/
theorem query_follows {mid : P.Phase → e.Row → Prop} (he : P.allowed φ e)
    (hok : ∀ row, mid (P.next φ e (.ok row)) row)
    (herror : ∀ error, post (P.next φ e (.error error)) (.error ⟨contexts, error⟩)) :
    Prog.FollowsE P mid post φ (query e contexts) := by
  refine ⟨he, fun r => ?_⟩
  cases r with
  | ok row => exact hok row
  | error error => exact herror error

/-- One statement, and what follows it. -/
theorem query_bind_follows {f : e.Row → Repo α} {mid : P.Phase → α → Prop} (he : P.allowed φ e)
    (hf : ∀ row, Prog.FollowsE P mid post (P.next φ e (.ok row)) (f row))
    (herror : ∀ error, post (P.next φ e (.error error)) (.error ⟨contexts, error⟩)) :
    Prog.FollowsE P mid post φ (query e contexts >>= f) := by
  have hquery : Prog.FollowsE P (fun ψ row => ψ = P.next φ e (.ok row)) post φ
      (query e contexts) := query_follows he (fun _ => rfl) herror
  refine hquery.bind (fun ψ row hψ => ?_)
  rw [hψ]
  exact hf row

end

end Wurzburg.Db
