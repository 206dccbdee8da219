import Wurzburg.Db.LinkStatements
import Wurzburg.Db.Interleavings
import Mathlib.Data.Finset.Max
import Mathlib.Data.Fintype.Basic

/-!
# Wurzburg.Db.LinkRaces

Calls of `create_or_link_user` for the same NID, however their statements are
interleaved: whether all succeed and return the same user and accounts
(`createOrLinkUser_agrees_iff`).

What can go wrong is the first statement that creates: a call that found no user
inserts one, and has to find none still. The link and the account come after an
upsert that only one call at a time gets past.
-/

namespace Wurzburg.Db

open Wurzburg.Lib

/-- A database and the transactions of `create_or_link_user` on it. -/
abbrev LinkStore := Store LinkCall (User × UserAccount)

/-! ### One move -/

section

variable {nid : String} {pg : Pg} {s : LinkSession} {φ : LinkStage}

/-- A stage without a next statement is the last. -/
theorem LinkCall.Keeps.returned {call : LinkCall}
    {p : Prog Sql Sql.Resp (Except RepoError (User × UserAccount))} (h : call.Keeps nid φ p)
    (hlast : φ.statement nid call = none) : ∃ r, p = .ret r := by
  rcases h.statement with ⟨e, k, -, he⟩ | ⟨r, hr, -⟩
  · rw [hlast] at he
    cases he
  · exact ⟨r, hr⟩

/-- A call has returned in one of the last two stages. -/
theorem LinkCall.ends_cases {r : Except RepoError (User × UserAccount)} (h : LinkCall.ends φ r) :
    (∃ user account, φ = .committed user account ∧ r = .ok (user, account)) ∨
      ∃ error, φ = .undone ∧ r = .error error := by
  cases φ with
  | committed user account =>
      cases r with
      | ok out =>
          obtain rfl : out = (user, account) := h
          exact Or.inl ⟨user, account, rfl, rfl⟩
      | error error => cases h
  | undone =>
      cases r with
      | ok out => cases h
      | error error => exact Or.inr ⟨error, rfl, rfl⟩
  | _ => cases h

/-- Only the last statement is a commit. -/
theorem LinkStage.statement_commit {call : LinkCall} (h : φ.statement nid call = some .commit) :
    ∃ user account, φ = .settled user account := by
  cases φ with
  | settled user account => exact ⟨user, account, rfl⟩
  | _ => cases h

/-- After an error the transaction is undone. -/
theorem LinkCall.Keeps.error {call : LinkCall} {e : Sql}
    {k : e.Resp → Prog Sql Sql.Resp (Except RepoError (User × UserAccount))}
    (h : call.Keeps nid φ (.call e k)) (error : SqlError) :
    call.Keeps nid .undone (k (.error error)) := by
  have hnext := h.2 (.error error)
  rwa [show (call.protocol nid).next φ e (.error error) = .undone from φ.next_error e error] at hnext

/-- A move of a session: what is committed is the same, or the transaction commits in its
last stage; and the session goes on to another stage. -/
theorem Session.Moves.staged {s' : LinkSession} {pg' : Pg} {m : Session.Move}
    (h : s.Moves pg m s' pg') (hfits : varchar 10 nid = nid)
    (hids : (pg.userProviders.map (·.id)).Nodup) (hφ : φ.Holds nid pg s)
    (hkeeps : s.call.Keeps nid φ s.rest) :
    s'.call = s.call ∧
      (pg' = pg ∨ pg' = s.view pg ∧ ∃ user account, (LinkStage.settled user account).Holds nid pg s) ∧
      ∃ ψ : LinkStage, ψ.Holds nid pg' s' ∧ s'.call.Keeps nid ψ s'.rest := by
  -- a transaction that ends with an error is undone
  have hundone : ∀ {e : Sql} {k : e.Resp → Prog Sql Sql.Resp (Except RepoError (User × UserAccount))}
      {error : SqlError}, s.rest = .call e k → ∃ ψ : LinkStage,
        ψ.Holds nid pg (s.ended.goingOn (k (.error error))) ∧ s.call.Keeps nid ψ (k (.error error)) := by
    intro e k error hrest
    rw [hrest] at hkeeps
    exact ⟨.undone, .undone (Session.holding_empty rfl), hkeeps.error error⟩
  cases h with
  | find => exact ⟨rfl, Or.inl rfl, φ, hφ.of_same rfl rfl rfl, hkeeps⟩
  | ran hrest hgoing hsight hexec =>
      rw [hrest] at hkeeps
      rw [Session.sight_view (LinkStage.statement_plain hkeeps.1).1] at hsight
      obtain rfl := Option.some.inj hsight
      obtain ⟨hψ, -⟩ := hφ.wrote hfits hids hkeeps.1 hgoing.1 hexec
      exact ⟨rfl, Or.inl rfl, _, hψ.of_same rfl rfl rfl, hkeeps.2 _⟩
  | refused hrest hsight hexec => exact ⟨rfl, Or.inl rfl, hundone hrest⟩
  | committed hrest =>
      rw [hrest] at hkeeps
      obtain ⟨user, account, rfl⟩ := LinkStage.statement_commit hkeeps.1
      exact ⟨rfl, Or.inr ⟨rfl, user, account, hφ⟩, .committed user account,
        hφ.commit.of_same rfl rfl rfl, hkeeps.2 (.ok ())⟩
  | rolledBack hrest =>
      rw [hrest] at hkeeps
      exact absurd rfl (LinkStage.statement_plain hkeeps.1).2
  | failed hrest => exact ⟨rfl, Or.inl rfl, hundone hrest⟩

end

/-! ### Every state -/

/-- The transaction is in some stage of its call. -/
def LinkStage.Reached (nid : String) (pg : Pg) (s : LinkSession) : Prop :=
  ∃ φ : LinkStage, φ.Holds nid pg s ∧ s.call.Keeps nid φ s.rest

/-- What holds in every state of the store. -/
structure Store.Staged (nid : String) (st : LinkStore) : Prop where
  /-- The NID has nothing that the column cuts. -/
  fits : varchar 10 nid = nid
  linkIds : (st.pg.userProviders.map (·.id)).Nodup
  apart : st.sessions.Pairwise (fun s o => s.own.Apart o.own)
  stages : ∀ s ∈ st.sessions, LinkStage.Reached nid st.pg s

namespace Store.Staged

variable {nid : String} {st st' : LinkStore}

theorem start {pg : Pg} (hfits : varchar 10 nid = nid)
    (hids : (pg.userProviders.map (·.id)).Nodup) : Staged nid (.start pg) where
  fits := hfits
  linkIds := hids
  apart := .nil
  stages := fun _ hs => absurd hs List.not_mem_nil

theorem step (h : st.Staged nid) {act : Store.Act LinkCall}
    (hstep : st.step (LinkCall.body nid) act = some st') :
    st'.Staged nid ∧ st'.pg.providers = st.pg.providers := by
  cases act with
  | begin call now uuid =>
      obtain rfl := Option.some.inj hstep
      refine ⟨⟨h.fits, h.linkIds, ?_, fun s hs => ?_⟩, rfl⟩
      · refine List.pairwise_append.mpr ⟨h.apart, List.pairwise_singleton _ _, ?_⟩
        intro s _ o ho
        rw [List.mem_singleton.mp ho]
        exact (Pg.apart_empty _).symm
      · rcases List.mem_append.mp hs with hs | hs
        · exact h.stages s hs
        · rw [List.mem_singleton.mp hs]
          exact ⟨.opened, .opened (Session.holding_empty rfl), call.body_keeps nid⟩
  | move i m =>
      obtain ⟨s, s', hs, hmoves, -, -⟩ := Store.step_move_at hstep
      obtain ⟨φ, hφ, hkeeps⟩ := h.stages s (List.mem_of_getElem? hs)
      obtain ⟨-, htables, -⟩ := hmoves.staged h.fits h.linkIds hφ hkeeps
      have hself : ∀ s s', st.sessions[i]? = some s → s.Moves st.pg m s' st'.pg →
          LinkStage.Reached nid st'.pg s' := by
        intro s s' hs hmoves
        obtain ⟨φ, hφ, hkeeps⟩ := h.stages s (List.mem_of_getElem? hs)
        exact (hmoves.staged h.fits h.linkIds hφ hkeeps).2.2
      have helse : ∀ s s' o, s ∈ st.sessions → s.Moves st.pg m s' st'.pg →
          LinkStage.Reached nid st.pg o → s.own.Apart o.own → LinkStage.Reached nid st'.pg o := by
        rintro s s' o hs hmoves ⟨ψ, hψ, hkeeps'⟩ hso
        obtain ⟨φ, hφ, hkeeps⟩ := h.stages s hs
        rcases (hmoves.staged h.fits h.linkIds hφ hkeeps).2.1 with hsame | ⟨hview, _, _, hsettled⟩
        · exact ⟨ψ, hsame ▸ hψ, hkeeps'⟩
        · exact ⟨ψ, hview ▸ hψ.elsewhere hsettled hso, hkeeps'⟩
      obtain ⟨hapart, hstages⟩ := Store.move_keeps hstep h.apart h.stages hself helse
      rcases htables with hsame | ⟨hview, _, _, hsettled⟩
      · exact ⟨⟨h.fits, hsame ▸ h.linkIds, hapart, hstages⟩, by rw [hsame]⟩
      · refine ⟨⟨h.fits, hview ▸ hsettled.view_linkIds h.linkIds, hapart, hstages⟩, ?_⟩
        rw [hview, hsettled.view_providers]

/-- Every run. -/
theorem run (h : st.Staged nid) (acts : List (Store.Act LinkCall)) :
    (st.run (LinkCall.body nid) acts).Staged nid := by
  induction acts generalizing st with
  | nil => exact h
  | cons act acts ih =>
      have hnext : ((st.step (LinkCall.body nid) act).getD st).Staged nid := by
        cases hact : st.step (LinkCall.body nid) act with
        | none => exact h
        | some st' => exact (h.step hact).1
      exact ih hnext

/-- What a call has left that has returned. -/
theorem returned (h : st.Staged nid) {s : LinkSession} (hs : s ∈ st.sessions)
    {r : Except RepoError (User × UserAccount)} (hr : s.result? = some r) :
    ∃ φ : LinkStage, φ.Holds nid st.pg s ∧ LinkCall.ends φ r := by
  obtain ⟨φ, hφ, hkeeps⟩ := h.stages s hs
  rw [Session.result?_eq_some.mp hr] at hkeeps
  exact ⟨φ, hφ, hkeeps⟩

end Store.Staged

/-! ### Nobody waits for ever -/

/-- Another transaction that has not come further in the tables is not in the way. -/
theorem Session.Grows.apart {s s' o : LinkSession} {users : List User}
    {links : List UserProvider} {accounts : List UserAccount} (h : s.Grows s')
    (hs' : s'.Holding users links accounts) (hapart : s.own.Apart o.own)
    (hrank : o.rank ≤ s.rank) : s'.own.Apart o.own := by
  obtain ⟨hu, hl, ha⟩ := h
  have hnone : ∀ {ρ : Type} {P : ρ → Prop} {rows : List ρ}, rows = [] → ∀ r ∈ rows, P r := by
    rintro ρ P rows rfl r hr
    cases hr
  refine ⟨hnone hs'.providers, ?_, ?_, ?_, hnone hs'.configs, hnone hs'.items,
    hnone hs'.transactions, hnone hs'.systemAccounts⟩
  · rcases hu with hu | ⟨hu, hl, ha⟩
    · rw [hu]
      exact hapart.users
    · have hzero : s.rank = 0 := by simp [rank, hu, hl, ha]
      rw [hzero] at hrank
      exact fun u _ => hnone (o.users_of_rank (by omega))
  · rcases hl with hl | ⟨hl, ha⟩
    · rw [hl]
      exact hapart.userProviders
    · have hone : s.rank ≤ 1 := by
        unfold rank
        simp only [hl, ha, ne_eq, not_true_eq_false, if_false]
        split <;> omega
      exact fun l _ => hnone (o.links_of_rank (by omega))
  · rcases ha with ha | ha
    · rw [ha]
      exact hapart.userAccounts
    · have htwo : s.rank ≤ 2 := by
        unfold rank
        simp only [ha, ne_eq, not_true_eq_false, if_false]
        split <;> [omega; split <;> omega]
      exact fun a _ => hnone (o.accounts_of_rank (by omega))

/-- Every table that a stage knows of. -/
theorem LinkStage.Holds.holding {nid : String} {pg : Pg} {s : LinkSession} {φ : LinkStage}
    (h : φ.Holds nid pg s) :
    s.Holding s.own.users s.own.userProviders s.own.userAccounts := by
  have hhas : ∀ {users links accounts}, s.Holding users links accounts →
      s.Holding s.own.users s.own.userProviders s.own.userAccounts := by
    intro users links accounts has
    exact ⟨rfl, rfl, rfl, has.providers, has.configs, has.items, has.transactions,
      has.systemAccounts⟩
  cases h with
  | opened has => exact hhas has
  | acting acts has => exact hhas has
  | missing acts has => exact hhas has
  | named acts has => exact hhas has
  | identified acts has names => exact hhas has
  | linked links => exact hhas links.has
  | unaccounted links none => exact hhas links.has
  | numbered links none => exact hhas links.has
  | settled links names => exact hhas links.has
  | committed has names link owns => exact hhas has
  | undone has => exact hhas has

/-- The step executes the next statement of a session. -/
def Store.Act.Executes {C : Type} : Store.Act C → Prop
  | .move _ .run | .move _ .commit => True
  | _ => False

namespace Store.Staged

variable {nid : String} {st : LinkStore}

/-- The transaction that has come furthest in the tables can go on: it returns, or it is
still the one that has come furthest. -/
theorem goesOn (h : st.Staged nid) {i : Nat} {s : LinkSession} {φ : LinkStage}
    (hs : st.sessions[i]? = some s) (hφ : φ.Holds nid st.pg s)
    (hkeeps : s.call.Keeps nid φ s.rest) (hopen : s.result? = none)
    (hfurthest : ∀ o ∈ st.sessions.eraseIdx i, o.rank ≤ s.rank) :
    ∃ (act : Store.Act LinkCall) (s' : LinkSession) (pg' : Pg), act.Executes ∧
      st.step (LinkCall.body nid) act = some ⟨pg', st.sessions.set i s'⟩ ∧
      ((∃ r, s'.result? = some r) ∨ pg' = st.pg ∧ s.rank ≤ s'.rank ∧
        ∃ ψ : LinkStage, ψ.Holds nid st.pg s' ∧ s'.call.Keeps nid ψ s'.rest ∧ ψ.left < φ.left) := by
  obtain ⟨hothers, -⟩ := Store.apart_at hs h.apart
  rcases hkeeps.statement with ⟨e, k, hrest, he⟩ | ⟨r, hrest, -⟩
  swap
  · rw [Session.result?_eq_some.mpr hrest] at hopen
    cases hopen
  rw [hrest] at hkeeps
  obtain ⟨hupdates, hrollback⟩ := LinkStage.statement_plain he
  by_cases hcommit : e = .commit
  · subst hcommit
    obtain ⟨user, account, rfl⟩ := LinkStage.statement_commit he
    have hmove : s.step st.pg .commit = some (s.ended.goingOn (k (.ok ())), s.view st.pg) := by
      simp only [Session.step, hrest]
    obtain ⟨r, hr⟩ := LinkCall.Keeps.returned (hkeeps.2 (.ok ())) rfl
    exact ⟨.move i .commit, _, _, trivial,
      Store.step_of_apart hs hmove (fun o _ => Pg.apart_empty o.own),
      Or.inl ⟨r, Session.result?_eq_some.mpr hr⟩⟩
  · have hmove := Session.step_run hrest ⟨hcommit, hrollback⟩ (s.sight_view hupdates st.pg)
    obtain ⟨reply, t, hexec⟩ : ∃ reply t, Sql.exec e (s.tx st.pg (s.view st.pg)) = (reply, t) :=
      ⟨_, _, rfl⟩
    rw [hexec] at hmove
    cases reply with
    | error error =>
        obtain ⟨error', hr⟩ := (hkeeps.error error).undone
        exact ⟨.move i .run, _, _, trivial,
          Store.step_of_apart hs hmove (fun o _ => Pg.apart_empty o.own),
          Or.inl ⟨_, Session.result?_eq_some.mpr hr⟩⟩
    | ok row =>
        obtain ⟨hψ, hgrows⟩ := hφ.wrote h.fits h.linkIds he hcommit hexec
        refine ⟨.move i .run, _, _, trivial, Store.step_of_apart hs hmove (fun o ho => ?_),
          Or.inr ⟨rfl, hgrows.rank_le, _, hψ.of_same rfl rfl rfl, hkeeps.2 _,
            LinkStage.left_next he row⟩⟩
        exact hgrows.apart hψ.holding (hothers o ho) (hfurthest o ho)

/-- It can go on until it returns. -/
theorem returns (h : st.Staged nid) {i : Nat} {s : LinkSession} {φ : LinkStage}
    (hs : st.sessions[i]? = some s) (hφ : φ.Holds nid st.pg s)
    (hkeeps : s.call.Keeps nid φ s.rest) (hopen : s.result? = none)
    (hfurthest : ∀ o ∈ st.sessions.eraseIdx i, o.rank ≤ s.rank) :
    ∃ (acts : List (Store.Act LinkCall)) (s' : LinkSession) (pg' : Pg),
      (∀ act ∈ acts, act.Executes) ∧
      st.run (LinkCall.body nid) acts = ⟨pg', st.sessions.set i s'⟩ ∧ ∃ r, s'.result? = some r := by
  -- on the number of statements that are left
  induction hleft : φ.left using Nat.strong_induction_on generalizing st s φ with
  | h n ih =>
      obtain ⟨act, s₁, pg₁, hact, hstep, hcase⟩ := h.goesOn hs hφ hkeeps hopen hfurthest
      have hrun : ∀ acts, st.run (LinkCall.body nid) (act :: acts) =
          (⟨pg₁, st.sessions.set i s₁⟩ : LinkStore).run (LinkCall.body nid) acts := by
        intro acts
        show Store.run _ ((st.step (LinkCall.body nid) act).getD st) acts = _
        rw [hstep]
        rfl
      cases hr : s₁.result? with
      | some r =>
          refine ⟨[act], s₁, pg₁, fun a ha => ?_, hrun [], r, hr⟩
          rwa [List.mem_singleton.mp ha]
      | none =>
          rcases hcase with ⟨r, hr'⟩ | ⟨rfl, hrank, ψ, hψ, hkeeps', hlt⟩
          · rw [hr] at hr'
            cases hr'
          have hi : i < st.sessions.length := (List.getElem?_eq_some_iff.mp hs).1
          have hs₁ : (st.sessions.set i s₁)[i]? = some s₁ := List.getElem?_set_self hi
          have hfurthest₁ : ∀ o ∈ (st.sessions.set i s₁).eraseIdx i, o.rank ≤ s₁.rank := by
            rw [List.eraseIdx_set_eq]
            exact fun o ho => (hfurthest o ho).trans hrank
          have h₁ : (⟨st.pg, st.sessions.set i s₁⟩ : LinkStore).Staged nid := (h.step hstep).1
          obtain ⟨acts, s₂, pg₂, hacts, hrun₂, hreturned⟩ :=
            ih ψ.left (hleft ▸ hlt) h₁ hs₁ hψ hkeeps' hr hfurthest₁ rfl
          refine ⟨act :: acts, s₂, pg₂, List.forall_mem_cons.mpr ⟨hact, hacts⟩, ?_, hreturned⟩
          rw [hrun, hrun₂, List.set_set]

/-- A call that has returned has nothing in the tables that it has not committed. -/
theorem rank_of_returned (h : st.Staged nid) {s : LinkSession} (hs : s ∈ st.sessions)
    {r : Except RepoError (User × UserAccount)} (hr : s.result? = some r) : s.rank = 0 := by
  obtain ⟨φ, hφ, hends⟩ := h.returned hs hr
  have hrank : s.Holding [] [] [] → s.rank = 0 := by
    intro has
    simp [Session.rank, has.users, has.links, has.accounts]
  rcases LinkCall.ends_cases hends with ⟨user, account, rfl, -⟩ | ⟨error, rfl, -⟩
  · cases hφ with
    | committed has names link owns => exact hrank has
  · cases hφ with
    | undone has => exact hrank has

/-- **Every call can be brought to return**, whatever has happened: they do not wait for each
other in a circle. -/
theorem canReturn (h : st.Staged nid) :
    ∃ acts : List (Store.Act LinkCall), (∀ act ∈ acts, act.Executes) ∧
      ∀ s ∈ (st.run (LinkCall.body nid) acts).sessions, s.result?.isSome := by
  -- on the number of calls that have not returned
  induction hopen : st.sessions.countP (fun s => s.result?.isNone) using Nat.strong_induction_on
    generalizing st with
  | h n ih =>
      by_cases hall : ∀ s ∈ st.sessions, s.result?.isSome
      · exact ⟨[], fun _ ha => absurd ha List.not_mem_nil, hall⟩
      -- the one that has come furthest in the tables
      have hne : (Finset.univ.filter (fun i : Fin st.sessions.length =>
          st.sessions[i].result? = none)).Nonempty := by
        simp only [not_forall, Option.not_isSome_iff_eq_none, exists_prop] at hall
        obtain ⟨s, hs, hnone⟩ := hall
        obtain ⟨i, hi, rfl⟩ := List.getElem_of_mem hs
        exact ⟨⟨i, hi⟩, by simpa using hnone⟩
      obtain ⟨⟨i, hi⟩, hmem, hmax⟩ := Finset.exists_max_image _
        (fun i : Fin st.sessions.length => st.sessions[i].rank) hne
      obtain ⟨s, hs⟩ : ∃ s, st.sessions[i]? = some s := ⟨_, List.getElem?_eq_getElem hi⟩
      have hget : st.sessions[i] = s := (List.getElem?_eq_some_iff.mp hs).2
      have hnone : s.result? = none := by
        rw [← hget]
        simpa using hmem
      have hfurthest : ∀ o ∈ st.sessions.eraseIdx i, o.rank ≤ s.rank := by
        intro o ho
        have ho' : o ∈ st.sessions := List.mem_of_mem_eraseIdx ho
        cases hr : o.result? with
        | some r =>
            rw [h.rank_of_returned ho' hr]
            exact Nat.zero_le _
        | none =>
            obtain ⟨j, hj, rfl⟩ := List.getElem_of_mem ho'
            have hle := hmax ⟨j, hj⟩ (by simpa using hr)
            rw [← hget]
            exact hle
      obtain ⟨φ, hφ, hkeeps⟩ := h.stages s (List.mem_of_getElem? hs)
      obtain ⟨acts, s', pg', hacts, hrun, r, hr⟩ := h.returns hs hφ hkeeps hnone hfurthest
      have hcount : (st.run (LinkCall.body nid) acts).sessions.countP
          (fun s => s.result?.isNone) < n := by
        rw [hrun, ← hopen, (List.set_perm_cons_eraseIdx hi s').countP_eq,
          (Store.perm_at hs).countP_eq, List.countP_cons, List.countP_cons, hnone, hr]
        simp
      obtain ⟨acts', hacts', hall'⟩ := ih _ hcount (h.run acts) rfl
      refine ⟨acts ++ acts', ?_, ?_⟩
      · intro act hact
        exact (List.mem_append.mp hact).elim (hacts act) (hacts' act)
      · rw [Store.run_append]
        exact hall'

end Store.Staged

/-! ### Runs in which nothing fails -/

/-- What the next statement adds is new. -/
def Session.insertsNew (s : LinkSession) (pg : Pg) : Bool :=
  match s.rest with
  | .call e _ => e.insertsNew pg (s.uuid s.drawn)
  | .ret _ => true

/-- The next statement inserts a user that another transaction has committed. -/
def Session.overtaken (s : LinkSession) (pg : Pg) : Bool :=
  match s.rest with
  | .call e _ => e.overtaken pg
  | .ret _ => false

namespace Store

/-- The calls are ones that the tables take, with new ids, and no statement fails for another
reason than a constraint. -/
def undisturbed (nid : String) (st : LinkStore) : Act LinkCall → Bool
  | .begin call _ _ => call.Acceptable nid st.pg
  | .move i .run => st.sessions[i]?.all (·.insertsNew st.pg)
  | .move _ (.fail _) => false
  | .move _ _ => true

/-- No call inserts the user after another has committed one with the NID. -/
def inTime (st : LinkStore) : Act LinkCall → Bool
  | .move i .run => st.sessions[i]?.all (fun s => !s.overtaken st.pg)
  | _ => true

/-- All calls agree. -/
structure Agreed (nid : String) (st : LinkStore) : Prop where
  /-- Every call that has returned has succeeded. -/
  succeeded : ∀ s ∈ st.sessions, ∀ error, s.result? ≠ some (.error error)
  /-- Every call can be brought to return. -/
  canReturn : ∃ acts : List (Act LinkCall), (∀ act ∈ acts, act.Executes) ∧
    ∀ s ∈ (st.run (LinkCall.body nid) acts).sessions, s.result?.isSome
  sameUser : ∀ s ∈ st.sessions, ∀ o ∈ st.sessions, ∀ user account user' account',
    s.result? = some (.ok (user, account)) → o.result? = some (.ok (user', account')) →
      user.id = user'.id
  sameAccount : ∀ s ∈ st.sessions, ∀ o ∈ st.sessions, ∀ user account user' account',
    s.result? = some (.ok (user, account)) → o.result? = some (.ok (user', account')) →
      s.call.providerId = o.call.providerId → account = account'
  /-- The user with the NID is linked to the provider and has the account there. -/
  linked : ∀ s ∈ st.sessions, ∀ user account, s.result? = some (.ok (user, account)) →
    user ∈ st.pg.users ∧ user.nid = nid ∧
      (∃ l ∈ st.pg.userProviders, l.pair = (user.id, s.call.providerId)) ∧
      account ∈ st.pg.userAccounts ∧ account.pair = (user.id, s.call.providerId)

/-- Every call is acceptable, and none has failed. -/
structure Smooth (nid : String) (st : LinkStore) : Prop where
  acceptable : ∀ s ∈ st.sessions, s.call.Acceptable nid st.pg
  succeeded : ∀ s ∈ st.sessions, ∀ error, s.result? ≠ some (.error error)

end Store

section

variable {nid : String} {st st' : LinkStore}

theorem LinkCall.Acceptable.of_providers {pg pg' : Pg} {call : LinkCall}
    (h : call.Acceptable nid pg) (hproviders : pg'.providers = pg.providers) :
    call.Acceptable nid pg' :=
  ⟨h.nid, h.internalMetadata, h.externalMetadata, hproviders ▸ h.provider⟩

/-- The session after a move that does not fail. -/
theorem LinkStage.Reached.succeeded {pg pg' : Pg} {s s' : LinkSession} {m : Session.Move}
    (h : LinkStage.Reached nid pg s) (hmoves : s.Moves pg m s' pg') (hacc : s.call.Acceptable nid pg)
    (hfail : ∀ error, m ≠ .fail error) (hnew : m = .run → s.insertsNew pg = true)
    (hfirst : m = .run → s.overtaken pg = false) (hold : ∀ error, s.result? ≠ some (.error error)) :
    ∀ error, s'.result? ≠ some (.error error) := by
  obtain ⟨φ, hφ, hkeeps⟩ := h
  -- no stage that follows a reply without an error is the undone one
  have hok : ∀ {e : Sql} {k : e.Resp → Prog Sql Sql.Resp (Except RepoError (User × UserAccount))}
      {row : e.Row}, s.call.Keeps nid φ (.call e k) → ∀ error, k (.ok row) ≠ .ret (.error error) := by
    intro e k row hkeeps error heq
    have hnext := hkeeps.2 (.ok row)
    rw [heq] at hnext
    rcases LinkCall.ends_cases hnext with ⟨_, _, -, herror⟩ | ⟨_, hundone, -⟩
    · cases herror
    · have hstatement := hkeeps.1
      change φ.statement nid s.call = some e at hstatement
      change φ.next e (.ok row) = .undone at hundone
      cases φ with
      | committed user account => cases hstatement
      | undone => cases hstatement
      | acting =>
          obtain rfl := Option.some.inj hstatement
          cases row <;> cases hundone
      | linked user =>
          obtain rfl := Option.some.inj hstatement
          cases row <;> cases hundone
      | _ =>
          obtain rfl := Option.some.inj hstatement
          cases hundone
  intro error herror
  rw [Session.result?_eq_some] at herror
  cases hmoves with
  | find => exact hold error (Session.result?_eq_some.mpr herror)
  | ran hrest hgoing hsight hexec => exact hok (hrest ▸ hkeeps) error herror
  | refused hrest hsight hexec =>
      have hnew := hnew rfl
      have hfirst := hfirst rfl
      unfold Session.insertsNew at hnew
      unfold Session.overtaken at hfirst
      rw [hrest] at hkeeps hnew hfirst
      rw [Session.sight_view (LinkStage.statement_plain hkeeps.1).1] at hsight
      obtain rfl := Option.some.inj hsight
      obtain ⟨row, t, hexec'⟩ := hφ.exec_ok hkeeps.1 hacc hnew hfirst
      rw [hexec] at hexec'
      cases hexec'
  | committed hrest => exact hok (hrest ▸ hkeeps) error herror
  | rolledBack hrest =>
      rw [hrest] at hkeeps
      exact absurd rfl (LinkStage.statement_plain hkeeps.1).2
  | failed hrest => exact hfail _ rfl

/-- **One step** of a run in which nothing fails and no call comes too late. -/
theorem Store.Smooth.step (h : st.Smooth nid) (hst : st.Staged nid) {act : Store.Act LinkCall}
    (hstep : st.step (LinkCall.body nid) act = some st') (hact : st.undisturbed nid act = true)
    (hfirst : st.inTime act = true) : st'.Smooth nid := by
  obtain ⟨-, hproviders⟩ := hst.step hstep
  cases act with
  | begin call now uuid =>
      obtain rfl := Option.some.inj hstep
      have hcall : call.Acceptable nid st.pg := of_decide_eq_true hact
      refine ⟨fun s hs => ?_, fun s hs error => ?_⟩ <;> rcases List.mem_append.mp hs with hs | hs
      · exact h.acceptable s hs
      · obtain rfl := List.mem_singleton.mp hs
        exact hcall
      · exact h.succeeded s hs error
      · rw [List.mem_singleton.mp hs]
        intro herror
        cases herror
  | move i m =>
      have hself : ∀ s s', st.sessions[i]? = some s → s.Moves st.pg m s' st'.pg →
          s'.call.Acceptable nid st'.pg ∧ ∀ error, s'.result? ≠ some (.error error) := by
        intro s s' hs hmoves
        have hmem := List.mem_of_getElem? hs
        obtain ⟨φ, hφ, hkeeps⟩ := hst.stages s hmem
        refine ⟨?_, (hst.stages s hmem).succeeded hmoves (h.acceptable s hmem) ?_ ?_ ?_
          (h.succeeded s hmem)⟩
        · rw [(hmoves.staged hst.fits hst.linkIds hφ hkeeps).1]
          exact (h.acceptable s hmem).of_providers hproviders
        · rintro error rfl
          cases hact
        · rintro rfl
          simpa [Store.undisturbed, hs] using hact
        · rintro rfl
          simpa [Store.inTime, hs] using hfirst
      obtain ⟨-, hall⟩ := Store.move_keeps
        (I := fun pg s => s.call.Acceptable nid pg ∧ ∀ error, s.result? ≠ some (.error error))
        hstep hst.apart (fun s hs => ⟨h.acceptable s hs, h.succeeded s hs⟩) hself
        (fun s s' o _ _ ho _ => ⟨ho.1.of_providers hproviders, ho.2⟩)
      exact ⟨fun s hs => (hall s hs).1, fun s hs => (hall s hs).2⟩

/-- Calls that have all succeeded agree. -/
theorem Store.Staged.agreed (h : st.Staged nid)
    (hok : ∀ s ∈ st.sessions, ∀ error, s.result? ≠ some (.error error)) : st.Agreed nid := by
  have hleft : ∀ s ∈ st.sessions, ∀ user account, s.result? = some (.ok (user, account)) →
      st.pg.userByNid? nid = some user ∧
        (∃ l ∈ st.pg.userProviders, l.pair = (user.id, s.call.providerId)) ∧
        st.pg.userAccount? user.id s.call.providerId = some account := by
    intro s hs user account hr
    obtain ⟨φ, hφ, hends⟩ := h.returned hs hr
    rcases LinkCall.ends_cases hends with ⟨user', account', rfl, hout⟩ | ⟨error, -, herror⟩
    · obtain ⟨rfl, rfl⟩ := Prod.mk.inj (Except.ok.inj hout)
      cases hφ with
      | committed has names link owns => exact ⟨names, link, owns⟩
    · cases herror
  have hsame : ∀ s ∈ st.sessions, ∀ o ∈ st.sessions, ∀ user account user' account',
      s.result? = some (.ok (user, account)) → o.result? = some (.ok (user', account')) →
        user = user' := by
    intro s hs o ho user account user' account' hr hr'
    obtain ⟨hnames, -, -⟩ := hleft s hs user account hr
    obtain ⟨hnames', -, -⟩ := hleft o ho user' account' hr'
    exact Option.some.inj (hnames.symm.trans hnames')
  refine ⟨hok, h.canReturn, fun s hs o ho user account user' account' hr hr' => ?_,
    fun s hs o ho user account user' account' hr hr' hp => ?_, fun s hs user account hr => ?_⟩
  · rw [hsame s hs o ho user account user' account' hr hr']
  · obtain rfl := hsame s hs o ho user account user' account' hr hr'
    obtain ⟨-, -, howns⟩ := hleft s hs user account hr
    obtain ⟨-, -, howns'⟩ := hleft o ho user account' hr'
    rw [← hp] at howns'
    exact Option.some.inj (howns.symm.trans howns')
  · obtain ⟨hnames, hlink, howns⟩ := hleft s hs user account hr
    have hnid : user.nid = nid := by simpa using List.find?_some hnames
    have hpair : account.userId = user.id ∧ account.providerId = s.call.providerId := by
      simpa using List.find?_some howns
    exact ⟨List.mem_of_find?_eq_some hnames, hnid, hlink, List.mem_of_find?_eq_some howns,
      Prod.ext hpair.1 hpair.2⟩

/-- A call that comes too late fails. -/
theorem Store.Staged.fails (h : st.Staged nid) {act : Store.Act LinkCall}
    (hlate : st.inTime act = false) :
    ∃ st' error, st.step (LinkCall.body nid) act = some st' ∧
      ∃ s ∈ st'.sessions, s.result? = some (.error error) := by
  cases act with
  | begin call now uuid => cases hlate
  | move i m =>
      cases m with
      | run =>
          cases hs : st.sessions[i]? with
          | none => simp [Store.inTime, hs] at hlate
          | some s =>
              have hlate : s.overtaken st.pg = true := by simpa [Store.inTime, hs] using hlate
              obtain ⟨φ, hφ, hkeeps⟩ := h.stages s (List.mem_of_getElem? hs)
              cases hrest : s.rest with
              | ret r =>
                  unfold Session.overtaken at hlate
                  rw [hrest] at hlate
                  cases hlate
              | call e k =>
                  rw [hrest] at hkeeps
                  have hover : e.overtaken st.pg = true := by
                    unfold Session.overtaken at hlate
                    rwa [hrest] at hlate
                  obtain ⟨id, metadata, rfl, hview⟩ : ∃ id metadata,
                      e = .insertUser id nid metadata ∧ (s.view st.pg).users = st.pg.users := by
                    have hstatement : φ.statement nid s.call = some e := hkeeps.1
                    cases hφ with
                    | named acts has =>
                        exact ⟨_, _, (Option.some.inj hstatement).symm, has.view_users⟩
                    | committed has names link owns => cases hstatement
                    | undone has => cases hstatement
                    | _ =>
                        obtain rfl := Option.some.inj hstatement
                        cases hover
                  have hseen : (Sql.insertUser id nid metadata).overtaken (s.view st.pg) = true := by
                    show (s.view st.pg).users.any _ = true
                    rw [hview]
                    exact hover
                  obtain ⟨error, hexec⟩ := Session.exec_overtaken hseen
                  have hmove := Session.step_run hrest ⟨fun hc => (by cases hc),
                    fun hc => (by cases hc)⟩ (s.sight_view rfl st.pg)
                  rw [hexec] at hmove
                  obtain ⟨error', hr⟩ := (hkeeps.error error).undone
                  refine ⟨_, error', Store.step_of_apart hs hmove
                    (fun o _ => Pg.apart_empty o.own), _,
                    List.mem_set (List.getElem?_eq_some_iff.mp hs).1 _, ?_⟩
                  exact Session.result?_eq_some.mpr hr
      | _ => cases hlate

/-- Where all calls have succeeded, none has come too late. -/
theorem Store.Staged.inTime (h : st.Staged nid) {acts : List (Store.Act LinkCall)}
    (hok : ∀ s ∈ (st.run (LinkCall.body nid) acts).sessions, ∀ error,
      s.result? ≠ some (.error error)) :
    Store.Throughout (LinkCall.body nid) (fun st act => st.inTime act = true) st acts := by
  induction acts generalizing st with
  | nil => trivial
  | cons act acts ih =>
      refine ⟨?_, ih (h.run [act]) hok⟩
      by_contra hlate
      obtain ⟨st', error, hstep, herror⟩ := h.fails (Bool.eq_false_iff.mpr hlate)
      have hstays : ∃ s ∈ (st'.run (LinkCall.body nid) acts).sessions,
          s.result? = some (.error error) := Store.run_result? acts herror
      obtain ⟨s, hs, hr⟩ := hstays
      refine hok s ?_ error hr
      show s ∈ (Store.run _ ((st.step (LinkCall.body nid) act).getD st) acts).sessions
      rw [hstep]
      exact hs

end

/-- The tables take no call for an NID with more than the column cuts. -/
theorem Store.idle_run {nid : String} {st : LinkStore} {acts : List (Store.Act LinkCall)}
    (hidle : st.sessions = []) (hfits : varchar 10 nid ≠ nid)
    (h : Store.Throughout (LinkCall.body nid) (fun st act => st.undisturbed nid act = true) st acts) :
    st.run (LinkCall.body nid) acts = st ∧
      Store.Throughout (LinkCall.body nid) (fun st act => st.inTime act = true) st acts := by
  induction acts with
  | nil => exact ⟨rfl, trivial⟩
  | cons act acts ih =>
      obtain ⟨hact, hacts⟩ := h
      cases act with
      | begin call now uuid =>
          have hacc : call.Acceptable nid st.pg := of_decide_eq_true hact
          exact absurd (varchar_of_varcharOk hacc.nid) hfits
      | move i m =>
          have hstep : st.step (LinkCall.body nid) (.move i m) = none := by
            simp [Store.step, hidle]
          have htime : st.inTime (.move i m) = true := by
            cases m <;> simp [Store.inTime, hidle]
          simp only [hstep, Option.getD_none] at hacts
          obtain ⟨hrun, hrest⟩ := ih hacts
          refine ⟨?_, htime, by simpa only [hstep, Option.getD_none] using hrest⟩
          rw [Store.run, List.foldl_cons, hstep]
          exact hrun

/-- Nobody has called. -/
theorem Store.agreed_start (nid : String) (pg : Pg) : (Store.start pg : LinkStore).Agreed nid where
  succeeded := fun _ hs => absurd hs List.not_mem_nil
  canReturn := ⟨[], fun _ h => absurd h List.not_mem_nil, fun _ hs => absurd hs List.not_mem_nil⟩
  sameUser := fun _ hs => absurd hs List.not_mem_nil
  sameAccount := fun _ hs => absurd hs List.not_mem_nil
  linked := fun _ hs => absurd hs List.not_mem_nil

/-- **Find-or-create in a race.** Calls for the same NID, from any state and however their
statements are interleaved: they all succeed and return the same user, and the same account
for the same provider, exactly when no call inserts the user after another has committed it. -/
theorem createOrLinkUser_agrees_iff {nid : String} {pg : Pg} {acts : List (Store.Act LinkCall)}
    (hids : (pg.userProviders.map (·.id)).Nodup)
    (hacts : Store.Throughout (LinkCall.body nid) (fun st act => st.undisturbed nid act = true)
      (.start pg) acts) :
    ((Store.start pg).run (LinkCall.body nid) acts).Agreed nid ↔
      Store.Throughout (LinkCall.body nid) (fun st act => st.inTime act = true) (.start pg) acts := by
  by_cases hfits : varchar 10 nid = nid
  swap
  · obtain ⟨hsame, htime⟩ := Store.idle_run rfl hfits hacts
    rw [hsame]
    exact iff_of_true (Store.agreed_start nid pg) htime
  have hstart : (Store.start pg : LinkStore).Staged nid := .start hfits hids
  constructor
  · intro hagreed
    exact hstart.inTime hagreed.succeeded
  · intro htime
    have hsmooth : ((Store.start pg).run (LinkCall.body nid) acts).Staged nid ∧
        ((Store.start pg).run (LinkCall.body nid) acts).Smooth nid := by
      refine (hacts.and htime).run_induction
        (motive := fun st => st.Staged nid ∧ st.Smooth nid) ?_ ⟨hstart, ?_⟩
      · rintro st st' act ⟨hst, hs⟩ ⟨hact, hfirst⟩ hstep
        exact ⟨(hst.step hstep).1, hs.step hst hstep hact hfirst⟩
      · exact ⟨fun _ hs => absurd hs List.not_mem_nil, fun _ hs => absurd hs List.not_mem_nil⟩
    exact hsmooth.1.agreed hsmooth.2.succeeded

/-! ### Two calls at once -/

/-- A call for a provider. -/
def linkTo (k : Nat) (providerId : Uuid) : Store.Act LinkCall :=
  .begin ⟨providerId, "{}", "{}", ⟨BitVec.ofNat 128 (20 + k)⟩, ⟨9⟩⟩ k
    (fun n => ⟨BitVec.ofNat 128 (100 * k + n)⟩)

/-- The second call waits for the upsert of the first, and finds its account. -/
def waiting : List (Store.Act LinkCall) :=
  [linkTo 1 ⟨1⟩, linkTo 2 ⟨1⟩, .move 0 .run, .move 1 .run, .move 0 .run, .move 1 .run, .move 0 .run,
   .move 1 .run, .move 0 .run, .move 0 .run, .move 0 .run, .move 0 .commit, .move 1 .run,
   .move 1 .run, .move 1 .commit]

theorem createOrLinkUser_agrees_iff_waiting :
    ((Store.start twoProviders).run (LinkCall.body "0012345678") waiting).Agreed "0012345678" ∧
      ((Store.start twoProviders).run (LinkCall.body "0012345678") waiting).sessions.map
          (fun s => s.result?.map (fun r => r.toOption.map (fun out => (out.1.id, out.2.id)))) =
        [some (some (⟨7⟩, ⟨101⟩)), some (some (⟨7⟩, ⟨101⟩))] :=
  ⟨(createOrLinkUser_agrees_iff (by decide) (by decide +kernel)).mpr (by decide +kernel),
    by decide +kernel⟩

/-- Two calls find no user, and both insert one. -/
def lostInsert : List (Store.Act LinkCall) :=
  [linkTo 1 ⟨1⟩, linkTo 2 ⟨2⟩, .move 0 .run, .move 1 .run, .move 0 .run, .move 1 .run, .move 0 .run,
   .move 1 .run, .move 0 .run, .move 0 .run, .move 0 .run, .move 0 .run, .move 0 .run,
   .move 0 .commit, .move 1 .run]

/-- One of them is refused. -/
theorem lostInsert_disagrees :
    ¬ ∀ (nid : String) (pg : Pg) (acts : List (Store.Act LinkCall)),
      (pg.userProviders.map (·.id)).Nodup →
      Store.Throughout (LinkCall.body nid) (fun st act => st.undisturbed nid act = true)
        (.start pg) acts →
      ((Store.start pg).run (LinkCall.body nid) acts).Agreed nid := by
  intro h
  have hagreed := h "0012345679" twoProviders lostInsert (by decide) (by decide +kernel)
  have hrefused : ∃ s ∈ ((Store.start twoProviders).run (LinkCall.body "0012345679")
      lostInsert).sessions, s.result? = some (.error ⟨[], .uniqueViolation "users_nid_key"⟩) := by
    decide +kernel
  obtain ⟨s, hs, hr⟩ := hrefused
  exact hagreed.succeeded s hs _ hr

end Wurzburg.Db
