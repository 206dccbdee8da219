import Wurzburg.Db.Sessions

/-!
# Wurzburg.Db.LinkStages

How far a call of `create_or_link_user` has come, and what its transaction has
written by then (`LinkStage.Holds`), when every call is for the same NID.
-/

namespace Wurzburg.Db

open Wurzburg.Lib

/-! ### Calls -/

/-- The arguments of `create_or_link_user`, but for the NID. -/
structure LinkCall where
  providerId : Uuid
  internalMetadata : Json
  externalMetadata : Json
  ledgerAccountId : Uuid
  actorId : Uuid
  deriving DecidableEq, Repr

/-- What the call does. -/
def LinkCall.body (nid : String) (call : LinkCall) : Repo (User × UserAccount) :=
  createOrLinkUser nid call.providerId call.internalMetadata call.externalMetadata
    call.ledgerAccountId call.actorId

/-- A transaction of `create_or_link_user`. -/
abbrev LinkSession := Session LinkCall (User × UserAccount)

/-! ### The stages of a call -/

/-- How far a transaction has come. -/
inductive LinkStage where
  | opened
  /-- The actor is set. -/
  | acting
  /-- There is no user with the NID. -/
  | missing
  | named (id : Uuid)
  /-- The user was found or inserted. -/
  | identified (user : User)
  | linked (user : User)
  /-- The user has no account at the provider. -/
  | unaccounted (user : User)
  | numbered (user : User) (id : Uuid)
  /-- The account was found or inserted. -/
  | settled (user : User) (account : UserAccount)
  | committed (user : User) (account : UserAccount)
  | undone

namespace LinkStage

/-- The next statement. -/
def statement (nid : String) (call : LinkCall) : LinkStage → Option Sql
  | opened => some (.setActor call.actorId)
  | acting => some (.selectUserByNid nid)
  | missing => some .newV4
  | named id => some (.insertUser id nid call.internalMetadata)
  | identified user => some (.upsertUserProvider user.id call.providerId call.externalMetadata)
  | linked user => some (.selectUserAccount user.id call.providerId)
  | unaccounted _ => some .newV4
  | numbered user id =>
      some (.insertUserAccount id user.id call.providerId call.ledgerAccountId)
  | settled .. => some .commit
  | committed .. | undone => none

/-- The stage after a statement and its reply. -/
def next : LinkStage → (e : Sql) → e.Resp → LinkStage
  | opened, .setActor _, .ok _ => acting
  | acting, .selectUserByNid _, .ok (some user) => identified user
  | acting, .selectUserByNid _, .ok none => missing
  | missing, .newV4, .ok id => named id
  | named _, .insertUser .., .ok user => identified user
  | identified user, .upsertUserProvider .., .ok _ => linked user
  | linked user, .selectUserAccount .., .ok (some account) => settled user account
  | linked user, .selectUserAccount .., .ok none => unaccounted user
  | unaccounted user, .newV4, .ok id => numbered user id
  | numbered user _, .insertUserAccount .., .ok account => settled user account
  | settled user account, .commit, .ok _ => committed user account
  | _, _, .error _ => undone
  | φ, _, .ok _ => φ

theorem next_error (φ : LinkStage) (e : Sql) (error : SqlError) :
    φ.next e (.error error) = undone := by
  cases φ <;> cases e <;> rfl

/-- No statement is an `UPDATE` that has to find its rows, or a rollback. -/
theorem statement_plain {nid : String} {call : LinkCall} {φ : LinkStage} {e : Sql}
    (he : φ.statement nid call = some e) : e.updates = none ∧ e ≠ .rollback := by
  cases φ with
  | committed user account => cases he
  | undone => cases he
  | _ =>
      obtain rfl := Option.some.inj he
      exact ⟨rfl, fun h => by cases h⟩

/-- How many statements are left at most. -/
def left : LinkStage → Nat
  | opened => 9
  | acting => 8
  | missing => 7
  | named _ => 6
  | identified _ => 5
  | linked _ => 4
  | unaccounted _ => 3
  | numbered .. => 2
  | settled .. => 1
  | committed .. | undone => 0

theorem left_next {nid : String} {call : LinkCall} {φ : LinkStage} {e : Sql}
    (he : φ.statement nid call = some e) (row : e.Row) : (φ.next e (.ok row)).left < φ.left := by
  cases φ with
  | committed user account => cases he
  | undone => cases he
  | acting =>
      obtain rfl := Option.some.inj he
      cases row <;> simp [next, left]
  | linked user =>
      obtain rfl := Option.some.inj he
      cases row <;> simp [next, left]
  | _ =>
      obtain rfl := Option.some.inj he
      simp [next, left]

end LinkStage

namespace LinkCall

/-- The protocol of a call. -/
def protocol (nid : String) (call : LinkCall) : Protocol Sql Sql.Resp where
  Phase := LinkStage
  allowed := fun φ e => φ.statement nid call = some e
  next := LinkStage.next

/-- What a call returns in its last stage. -/
def ends (φ : LinkStage) (r : Except RepoError (User × UserAccount)) : Prop :=
  match φ, r with
  | .committed user account, .ok out => out = (user, account)
  | .undone, .error _ => True
  | _, _ => False

/-- The program keeps to the protocol from this stage on. -/
abbrev Keeps (nid : String) (call : LinkCall) (φ : LinkStage)
    (p : Prog Sql Sql.Resp (Except RepoError (User × UserAccount))) : Prop :=
  p.Follows (call.protocol nid) ends φ

/-- A part of the method that leads from a stage to those with `mid`. -/
abbrev Leads {α : Type} (nid : String) (call : LinkCall) (φ : LinkStage)
    (mid : LinkStage → α → Prop) (x : Repo α) : Prop :=
  Prog.FollowsE (call.protocol nid) mid ends φ x

section

variable {α : Type} {nid : String} {call : LinkCall} {φ : LinkStage}

/-- One statement. -/
theorem leads_query {e : Sql} {contexts : List String} {mid : LinkStage → e.Row → Prop}
    (he : φ.statement nid call = some e) (hmid : ∀ row, mid (φ.next e (.ok row)) row) :
    call.Leads nid φ mid (query e contexts) := by
  refine query_follows he hmid (fun error => ?_)
  rw [show (call.protocol nid).next φ e (.error error) = .undone from φ.next_error e error]
  trivial

/-- One statement, and what follows it. -/
theorem leads_query_bind {e : Sql} {contexts : List String} {f : e.Row → Repo α}
    {mid : LinkStage → α → Prop} (he : φ.statement nid call = some e)
    (hf : ∀ row, call.Leads nid (φ.next e (.ok row)) mid (f row)) :
    call.Leads nid φ mid (query e contexts >>= f) := by
  refine query_bind_follows he hf (fun error => ?_)
  rw [show (call.protocol nid).next φ e (.error error) = .undone from φ.next_error e error]
  trivial

theorem findOrCreateUser_leads :
    call.Leads nid .acting (fun ψ user => ψ = .identified user)
      (findOrCreateUser nid call.internalMetadata) := by
  unfold findOrCreateUser
  refine leads_query_bind rfl (fun found => ?_)
  cases found with
  | some user => exact rfl
  | none => exact leads_query_bind rfl (fun id => leads_query rfl (fun user => rfl))

theorem findOrCreateAccount_leads {user : User} :
    call.Leads nid (.linked user) (fun ψ account => ψ = .settled user account)
      (findOrCreateAccount user.id call.providerId call.ledgerAccountId) := by
  unfold findOrCreateAccount
  refine leads_query_bind rfl (fun found => ?_)
  cases found with
  | some account => exact rfl
  | none => exact leads_query_bind rfl (fun id => leads_query rfl (fun account => rfl))

/-- Every call keeps to its protocol. -/
theorem body_keeps (nid : String) (call : LinkCall) :
    call.Keeps nid .opened (call.body nid).run := by
  have hbody : call.Leads nid .opened (fun ψ out => ends ψ (.ok out)) (call.body nid) := by
    unfold body createOrLinkUser
    refine leads_query_bind rfl (fun _ => findOrCreateUser_leads.bind (fun ψ user hψ => ?_))
    subst hψ
    refine leads_query_bind rfl (fun _ => findOrCreateAccount_leads.bind (fun ψ account hψ => ?_))
    subst hψ
    exact leads_query_bind rfl (fun _ => rfl)
  refine Prog.Follows.weaken hbody (fun ψ r hr => ?_)
  cases r with
  | ok _ => exact hr
  | error _ => exact hr

/-- A call that has not come to its last stage has a statement left. -/
theorem Keeps.statement {p : Prog Sql Sql.Resp (Except RepoError (User × UserAccount))}
    (h : call.Keeps nid φ p) :
    (∃ e k, p = .call e k ∧ φ.statement nid call = some e) ∨ ∃ r, p = .ret r ∧ ends φ r := by
  cases p with
  | call e k => exact Or.inl ⟨e, k, rfl, h.1⟩
  | ret r => exact Or.inr ⟨r, rfl, h⟩

/-- A transaction that has ended with an error returns one. -/
theorem Keeps.undone {p : Prog Sql Sql.Resp (Except RepoError (User × UserAccount))}
    (h : call.Keeps nid .undone p) : ∃ error, p = .ret (.error error) := by
  rcases h.statement with ⟨e, k, -, he⟩ | ⟨r, rfl, hr⟩
  · cases he
  · cases r with
    | ok out => cases hr
    | error error => exact ⟨error, rfl⟩

end

end LinkCall

/-! ### What has been written by then -/

/-- The transaction has written these users, links and accounts, and nothing else. -/
structure Session.Holding {C α : Type} (s : Session C α) (users : List User)
    (links : List UserProvider) (accounts : List UserAccount) : Prop where
  users : s.own.users = users
  links : s.own.userProviders = links
  accounts : s.own.userAccounts = accounts
  providers : s.own.providers = []
  configs : s.own.configs = []
  items : s.own.items = []
  transactions : s.own.transactions = []
  systemAccounts : s.own.systemAccounts = []

/-- The user with the NID, for a transaction with these own users. -/
abbrev Pg.NamesUser (pg : Pg) (nid : String) (user : User) (own : List User) : Prop :=
  FoundOrAdded (·.id) (fun u => u.nid = nid) pg.users user own

/-- The account of the pair, for a transaction with these own accounts. -/
abbrev Pg.NamesAccount (pg : Pg) (pair : Uuid × Uuid) (account : UserAccount)
    (own : List UserAccount) : Prop :=
  FoundOrAdded (·.id) (fun a => a.userId = pair.1 ∧ a.providerId = pair.2) pg.userAccounts account
    own

/-- These versions of links are what an upsert of the pair has left. -/
structure Pg.Upserted (pg : Pg) (pair : Uuid × Uuid) (links : List UserProvider) : Prop where
  nonempty : links ≠ []
  pairs : ∀ l ∈ links, l.pair = pair
  ids : (links.map (·.id)).Nodup
  sameRows : ∀ l ∈ links, ∀ r ∈ pg.userProviders, l.id = r.id → l.pair = r.pair

/-- The transaction has linked the user to the provider of the call. -/
structure Session.Links (nid : String) (pg : Pg) (s : LinkSession) (user : User)
    (accounts : List UserAccount) : Prop where
  acts : s.actor = some s.call.actorId
  has : s.Holding s.own.users s.own.userProviders accounts
  names : pg.NamesUser nid user s.own.users
  link : pg.Upserted (user.id, s.call.providerId) s.own.userProviders

/-- What a session in this stage has written, beside this database. -/
inductive LinkStage.Holds (nid : String) (pg : Pg) (s : LinkSession) : LinkStage → Prop where
  | opened (has : s.Holding [] [] []) : Holds nid pg s .opened
  | acting (acts : s.actor = some s.call.actorId) (has : s.Holding [] [] []) : Holds nid pg s .acting
  | missing (acts : s.actor = some s.call.actorId) (has : s.Holding [] [] []) :
      Holds nid pg s .missing
  | named {id : Uuid} (acts : s.actor = some s.call.actorId) (has : s.Holding [] [] []) :
      Holds nid pg s (.named id)
  | identified {user : User} (acts : s.actor = some s.call.actorId)
      (has : s.Holding s.own.users [] []) (names : pg.NamesUser nid user s.own.users) :
      Holds nid pg s (.identified user)
  | linked {user : User} (links : s.Links nid pg user []) : Holds nid pg s (.linked user)
  | unaccounted {user : User} (links : s.Links nid pg user [])
      (none : pg.userAccount? user.id s.call.providerId = none) : Holds nid pg s (.unaccounted user)
  | numbered {user : User} {id : Uuid} (links : s.Links nid pg user [])
      (none : pg.userAccount? user.id s.call.providerId = none) : Holds nid pg s (.numbered user id)
  | settled {user : User} {account : UserAccount} (links : s.Links nid pg user s.own.userAccounts)
      (names : pg.NamesAccount (user.id, s.call.providerId) account s.own.userAccounts) :
      Holds nid pg s (.settled user account)
  | committed {user : User} {account : UserAccount} (has : s.Holding [] [] [])
      (names : pg.userByNid? nid = some user)
      (link : ∃ l ∈ pg.userProviders, l.pair = (user.id, s.call.providerId))
      (owns : pg.userAccount? user.id s.call.providerId = some account) :
      Holds nid pg s (.committed user account)
  | undone (has : s.Holding [] [] []) : Holds nid pg s .undone

theorem Session.holding_empty {C α : Type} {s : Session C α} (h : s.own = .empty) :
    s.Holding [] [] [] := by
  constructor <;> rw [h] <;> rfl

theorem Session.Holding.of_own {C α : Type} {s s' : Session C α} {users : List User}
    {links : List UserProvider} {accounts : List UserAccount}
    (h : s.Holding users links accounts) (hown : s'.own = s.own) :
    s'.Holding users links accounts := by
  obtain ⟨h₁, h₂, h₃, h₄, h₅, h₆, h₇, h₈⟩ := h
  rw [← hown] at h₁ h₂ h₃ h₄ h₅ h₆ h₇ h₈
  exact ⟨h₁, h₂, h₃, h₄, h₅, h₆, h₇, h₈⟩

/-- The stage depends on what the call is and what has been written. -/
theorem LinkStage.Holds.of_same {nid : String} {pg : Pg} {s s' : LinkSession} {φ : LinkStage}
    (h : φ.Holds nid pg s) (hcall : s'.call = s.call) (hactor : s'.actor = s.actor)
    (hown : s'.own = s.own) : φ.Holds nid pg s' := by
  have hhas : ∀ {users links accounts}, s.Holding users links accounts →
      s'.Holding users links accounts := fun has => has.of_own hown
  have hlinks : ∀ {user accounts}, s.Links nid pg user accounts →
      s'.Links nid pg user accounts := by
    rintro user accounts ⟨acts, has, names, link⟩
    have has := hhas has
    rw [← hown] at has names link
    rw [← hactor, ← hcall] at acts
    rw [← hcall] at link
    exact ⟨acts, has, names, link⟩
  cases h with
  | opened has => exact .opened (hhas has)
  | acting acts has => exact .acting (by rw [hactor, hcall, acts]) (hhas has)
  | missing acts has => exact .missing (by rw [hactor, hcall, acts]) (hhas has)
  | named acts has => exact .named (by rw [hactor, hcall, acts]) (hhas has)
  | identified acts has names =>
      have has := hhas has
      rw [← hown] at has names
      exact .identified (by rw [hactor, hcall, acts]) has names
  | linked links => exact .linked (hlinks links)
  | unaccounted links none => exact .unaccounted (hlinks links) (hcall ▸ none)
  | numbered links none => exact .numbered (hlinks links) (hcall ▸ none)
  | settled links names =>
      have links := hlinks links
      rw [← hown] at links names
      exact .settled links (hcall ▸ names)
  | committed has names link owns =>
      exact .committed (hhas has) names (hcall ▸ link) (hcall ▸ owns)
  | undone has => exact .undone (hhas has)

/-! ### The order of the tables -/

/-- Users are written before links, and links before accounts: what has been written of a
table stays as it is from the first row of a later table on. -/
structure Session.Grows {C α : Type} (s s' : Session C α) : Prop where
  users : s'.own.users = s.own.users ∨
    s.own.users = [] ∧ s.own.userProviders = [] ∧ s.own.userAccounts = []
  links : s'.own.userProviders = s.own.userProviders ∨
    s.own.userProviders = [] ∧ s.own.userAccounts = []
  accounts : s'.own.userAccounts = s.own.userAccounts ∨ s.own.userAccounts = []

theorem Session.Grows.of_own {C α : Type} {s s' : Session C α} (h : s'.own = s.own) :
    s.Grows s' := by
  refine ⟨Or.inl ?_, Or.inl ?_, Or.inl ?_⟩ <;> rw [h]

/-- The last of these tables that the transaction has written to. -/
def Session.rank {C α : Type} (s : Session C α) : Nat :=
  if s.own.userAccounts ≠ [] then 3
  else if s.own.userProviders ≠ [] then 2
  else if s.own.users ≠ [] then 1
  else 0

theorem Session.accounts_of_rank {C α : Type} (s : Session C α) (h : s.rank < 3) :
    s.own.userAccounts = [] := by
  by_contra haccounts
  simp [rank, haccounts] at h

theorem Session.links_of_rank {C α : Type} (s : Session C α) (h : s.rank < 2) :
    s.own.userProviders = [] := by
  have haccounts := s.accounts_of_rank (by omega)
  by_contra hlinks
  simp [rank, haccounts, hlinks] at h

theorem Session.users_of_rank {C α : Type} (s : Session C α) (h : s.rank < 1) :
    s.own.users = [] := by
  have haccounts := s.accounts_of_rank (by omega)
  have hlinks := s.links_of_rank (by omega)
  by_contra husers
  simp [rank, haccounts, hlinks, husers] at h

theorem Session.Grows.rank_le {C α : Type} {s s' : Session C α} (h : s.Grows s') :
    s.rank ≤ s'.rank := by
  obtain ⟨hu, hl, ha⟩ := h
  unfold rank
  by_cases haccounts : s.own.userAccounts = []
  · by_cases hlinks : s.own.userProviders = []
    · by_cases husers : s.own.users = []
      · simp [haccounts, hlinks, husers]
      · have husers' : s'.own.users ≠ [] := by
          rcases hu with hu | hu
          · rwa [hu]
          · exact absurd hu.1 husers
        simp only [haccounts, hlinks, husers, husers', ne_eq, not_true_eq_false, not_false_eq_true,
          if_false, if_true]
        split <;> [omega; split <;> omega]
    · have hlinks' : s'.own.userProviders ≠ [] := by
        rcases hl with hl | hl
        · rwa [hl]
        · exact absurd hl.1 hlinks
      simp only [haccounts, hlinks, hlinks', ne_eq, not_true_eq_false, not_false_eq_true, if_false,
        if_true]
      split <;> omega
  · have haccounts' : s'.own.userAccounts ≠ [] := by
      rcases ha with ha | ha
      · rwa [ha]
      · exact absurd ha haccounts
    simp [haccounts, haccounts']

/-! ### What a transaction sees -/

section

variable {C α : Type} {s : Session C α} {pg : Pg} {users : List User} {links : List UserProvider}
  {accounts : List UserAccount}

theorem Session.Holding.view_users (h : s.Holding [] links accounts) :
    (s.view pg).users = pg.users := by
  show overlay (·.id) pg.users s.own.users = _
  rw [h.users, overlay_nil]

theorem Session.Holding.view_links (h : s.Holding users [] accounts) :
    (s.view pg).userProviders = pg.userProviders := by
  show overlay (·.id) pg.userProviders s.own.userProviders = _
  rw [h.links, overlay_nil]

theorem Session.Holding.view_accounts (h : s.Holding users links []) :
    (s.view pg).userAccounts = pg.userAccounts := by
  show overlay (·.id) pg.userAccounts s.own.userAccounts = _
  rw [h.accounts, overlay_nil]

theorem Session.Holding.view_providers (h : s.Holding users links accounts) :
    (s.view pg).providers = pg.providers := by
  show overlay (·.id) pg.providers s.own.providers = _
  rw [h.providers, overlay_nil]

/-- What a statement has written that changes no table but these. -/
theorem Session.Holding.wrote {newUsers : List User} {newLinks : List UserProvider}
    {newAccounts : List UserAccount} (h : s.Holding users links accounts) (seen : Pg) (t : Tx)
    (ht : t.pg = { seen with
      users := t.pg.users
      userProviders := t.pg.userProviders
      userAccounts := t.pg.userAccounts
      auditLogs := t.pg.auditLogs })
    (hu : changed seen.users t.pg.users = newUsers)
    (hl : changed seen.userProviders t.pg.userProviders = newLinks)
    (ha : changed seen.userAccounts t.pg.userAccounts = newAccounts) :
    (s.wrote seen t).Holding (supersede (·.id) users newUsers) (supersede (·.id) links newLinks)
      (supersede (·.id) accounts newAccounts) where
  users := by
    rw [← hu, ← h.users]
    rfl
  links := by
    rw [← hl, ← h.links]
    rfl
  accounts := by
    rw [← ha, ← h.accounts]
    rfl
  providers := by
    show supersede (·.id) s.own.providers (changed seen.providers t.pg.providers) = []
    rw [show t.pg.providers = seen.providers by rw [ht], changed_self, supersede_nil, h.providers]
  configs := by
    show supersede (·.id) s.own.configs (changed seen.configs t.pg.configs) = []
    rw [show t.pg.configs = seen.configs by rw [ht], changed_self, supersede_nil, h.configs]
  items := by
    show supersede (·.id) s.own.items (changed seen.items t.pg.items) = []
    rw [show t.pg.items = seen.items by rw [ht], changed_self, supersede_nil, h.items]
  transactions := by
    show supersede (·.id) s.own.transactions (changed seen.transactions t.pg.transactions) = []
    rw [show t.pg.transactions = seen.transactions by rw [ht], changed_self, supersede_nil,
      h.transactions]
  systemAccounts := by
    show supersede (·.id) s.own.systemAccounts
      (changed seen.systemAccounts t.pg.systemAccounts) = []
    rw [show t.pg.systemAccounts = seen.systemAccounts by rw [ht], changed_self, supersede_nil,
      h.systemAccounts]

/-- A statement that only reads writes nothing. -/
theorem Session.wrote_own {seen : Pg} {t : Tx} (ht : t.pg = seen) :
    ((s.wrote seen t).locking []).own = s.own := by
  rw [Session.locking_nil]
  show s.own.written seen t.pg = s.own
  rw [ht, Pg.written_self]

/-- The user that was found or inserted is seen. -/
theorem Pg.NamesUser.mem_view {nid : String} {user : User} (h : pg.NamesUser nid user s.own.users) :
    user ∈ (s.view pg).users := by
  show user ∈ Lib.overlay (·.id) pg.users s.own.users
  rw [h.overlay_eq]
  exact List.mem_of_find?_eq_some h.find_eq

end

end Wurzburg.Db
