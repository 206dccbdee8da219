import Wurzburg.System.Histories

/-!
# Wurzburg.System.Linking

`create_or_link`: users, links and accounts.

How a 201 comes about (`LinkAnswer`), and what is true of the tables of users,
links and accounts in every reachable state (`identity_and_links`).
-/

namespace Wurzburg.System

open Wurzburg.Lib Wurzburg.Db Wurzburg.Tb Wurzburg.Api

/-! ### How a request comes to its answer -/

/-- The database found or created this user and this account for the request. -/
def LinkedTo (payload : CreateUserRequest) (ev : Event Eff Eff.Resp) (user : User)
    (account : UserAccount) : Prop :=
  ∃ im em lid actor, ev = ⟨.db (.createOrLinkUser payload.nid payload.providerId im em lid actor),
    .ok (user, account)⟩

/-- The ledger answered the creation of the account with a list of rejections. -/
def AskedFor (env : Env) (hist : History) (user : User) (account : UserAccount) : Prop :=
  ∃ past i reply rejections, hist = past ++
      [⟨.tbSend (.createAccount (userLedgerAccount env account.ledgerAccountId user.id)), some i⟩,
       ⟨.tbRecv i, some reply⟩] ∧
    createAccountsReply reply = some (.ok rejections)

/-- What the history of a 201 of `create_or_link` shows. -/
structure LinkAnswer (env : Env) (payload : CreateUserRequest) (hist : History)
    (r : CreateUserResponse) (user : User) (account : UserAccount) : Prop where
  linked : ∃ requestTime past ev rest, hist = past ++ ev :: rest ∧ ⟨.now, requestTime⟩ ∈ past ∧
    LinkedTo payload ev user account ∧
    (requestTime - seconds 1 ≤ account.createdAt → AskedFor env hist user account)
  userId : r.userId = user.id
  ledgerAccountId : r.ledgerAccountId = account.ledgerAccountId

/-- An answer of 201 comes about as `LinkAnswer` says. -/
def LinkPost (env : Env) (q : Request) (hist : History) (a : Answer) : Prop :=
  ∀ payload r, q = .createOrLink payload → a = .ok (.created, .createUser r) →
    ∃ user account, LinkAnswer env payload hist r user account

theorem createOrLink_ends (env : Env) (payload : CreateUserRequest) :
    Prog.EndsE (fun hist (out : StatusCode × CreateUserResponse) =>
        ∃ user account, LinkAnswer env payload hist out.2 user account)
      (fun _ (r : Except HttpError (StatusCode × CreateUserResponse)) => ∀ a, r ≠ .ok a) []
      (createOrLink env payload) := by
  refine now_ends.bind (fun h₁ requestTime hh₁ => ?_)
  refine newV4_ends.bind (fun h₂ lid hh₂ => newV4_ends.bind (fun h₃ actor hh₃ => ?_))
  refine (db_ends (fun _ _ _ h => by cases h)).bind (fun h₄ => ?_)
  intro ⟨user, account⟩ hh₄
  obtain ⟨ev, hev, hh₄⟩ : ∃ ev, LinkedTo payload ev user account ∧ h₄ = h₃ ++ [ev] :=
    ⟨_, ⟨_, _, _, _, rfl⟩, hh₄⟩
  have hnow : (⟨.now, requestTime⟩ : Event Eff Eff.Resp) ∈ h₃ := by
    rw [hh₃, hh₂, hh₁]
    simp
  simp only
  split
  · next hnew =>
      refine Prog.EndsE.bind (orFail_ends (fun _ _ _ h => by cases h) submit_ends)
        (fun h₅ rejections hh₅ => ?_)
      obtain ⟨i, reply, hh₅, hreply⟩ := hh₅
      have hsplit := hh₅
      rw [hh₄, List.append_assoc] at hsplit
      exact ⟨user, account, ⟨requestTime, h₃, ev, _, hsplit, hnow, hev, fun _ =>
        ⟨h₄, i, reply, rejections, hh₅, hreply⟩⟩, rfl, rfl⟩
  · next hold =>
      refine ⟨user, account, ⟨requestTime, h₃, ev, [], hh₄, hnow, hev, ?_⟩, rfl, rfl⟩
      intro hle
      exact absurd (decide_eq_true hle) hold

theorem serve_linkPost (env : Env) (q : Request) : (serve env q).Ends (LinkPost env q) [] := by
  cases q with
  | createOrLink payload =>
      refine answerWith_ends (createOrLink_ends env payload) ?_ ?_
      · intro hist out hout payload' r hq ha
        obtain rfl := Request.createOrLink.inj hq
        obtain ⟨-, hr⟩ := Prod.mk.inj (Except.ok.inj ha)
        obtain rfl := Body.createUser.inj hr
        exact hout
      · intro hist e _ payload' r _ ha
        cases ha
  | _ => exact Prog.Ends.of_forall (fun _ _ _ _ hq => by cases hq) _

/-! ### Identity and links -/

/-- The user and the account are in the tables. -/
def LinkFact (_ : Request) (_ : History) (ev : Event Eff Eff.Resp) (w : World) : Prop :=
  ∀ payload user account, LinkedTo payload ev user account →
    user ∈ w.pg.users ∧ (user.nid = payload.nid ∨ user.nid = varchar 10 payload.nid) ∧
      account ∈ w.pg.userAccounts ∧ account.pair = (user.id, payload.providerId)

/-- What a call of `create_or_link_user` returned is in the tables. -/
theorem exec_linkFact {env : Env} {q : Request} {hist : History} {w w' : World} {ch : Choice}
    {e : Eff} {r : e.Resp} (hx : w.exec env.settings.tigerbeetle.channelCapacity ch e =
      some (r, w')) : LinkFact q hist ⟨e, r⟩ w' := by
  rintro payload user account ⟨im, em, lid, actor, hev⟩
  obtain ⟨rfl, hr⟩ := Event.mk.inj hev
  obtain rfl := eq_of_heq hr
  rcases World.dbExec_cases hx with ⟨_, he, -⟩ | ⟨r', happly, heq | ⟨_, he⟩⟩
  · cases he
  · obtain ⟨pg, n, htx, -, rfl⟩ := World.dbApply_cases happly
    rcases createOrLinkUser_spec htx with ⟨_, he, -⟩ | ⟨user', account', hok, hl⟩
    · rw [← heq] at he
      cases he
    · obtain ⟨rfl, rfl⟩ := Prod.mk.inj (Except.ok.inj (heq.trans hok))
      obtain ⟨huser, hnid, hpair⟩ := hl.names
      exact ⟨huser, hnid, hl.grows.2.2.2.1, hpair⟩
  · cases he

theorem LinkFact.mono {q : Request} {hist : History} {ev : Event Eff Eff.Resp} {w w' : World}
    (hg : Grows w w') (h : LinkFact q hist ev w) : LinkFact q hist ev w' := by
  intro payload user account hlink
  obtain ⟨huser, hnid, haccount, hpair⟩ := h payload user account hlink
  exact ⟨hg.pg.users.subset huser, hnid, hg.pg.userAccounts.subset haccount, hpair⟩

/-- What a request was told of its user and account is in the tables. -/
theorem Reachable.linkedRows {env : Env} {c : State} (h : Reachable env c) {t : Serving}
    (ht : t ∈ c.tasks) {past rest : History} {ev : Event Eff Eff.Resp}
    (hhist : t.hist = past ++ ev :: rest) {payload : CreateUserRequest} {user : User}
    {account : UserAccount} (hlink : LinkedTo payload ev user account) :
    user ∈ c.world.pg.users ∧ (user.nid = payload.nid ∨ user.nid = varchar 10 payload.nid) ∧
      account ∈ c.world.pg.userAccounts ∧ account.pair = (user.id, payload.providerId) := by
  obtain ⟨now, hreach⟩ := h
  have hfacts : ∀ t ∈ c.tasks, Machine.Remembers (LinkFact t.req) t.hist c.world :=
    Reachable.facts (fun _ _ _ _ _ hg => LinkFact.mono hg)
      (fun _ _ _ _ _ _ _ _ _ _ _ _ _ hx => exec_linkFact hx) hreach
  exact hfacts t ht past ev rest hhist payload user account hlink

/-- A 201 of `create_or_link` names a user and an account in the tables. -/
theorem Reachable.linked {env : Env} {c : State} (h : Reachable env c) {t : Serving}
    (ht : t ∈ c.tasks) {payload : CreateUserRequest} (hq : t.req = .createOrLink payload)
    {r : CreateUserResponse} (ha : t.answer? = some (.ok (.created, .createUser r))) :
    ∃ user ∈ c.world.pg.users, ∃ account ∈ c.world.pg.userAccounts,
      (user.nid = payload.nid ∨ user.nid = varchar 10 payload.nid) ∧
      account.pair = (user.id, payload.providerId) ∧ r.userId = user.id ∧
      r.ledgerAccountId = account.ledgerAccountId := by
  have ⟨now, hreach⟩ := h
  obtain ⟨user, account, hanswer⟩ :=
    hreach.answer_ends (serve_linkPost env) rfl ht ha payload r hq rfl
  obtain ⟨requestTime, past, ev, rest, hhist, -, hlink, -⟩ := hanswer.linked
  obtain ⟨huser, hnid, haccount, hpair⟩ := h.linkedRows ht hhist hlink
  exact ⟨user, huser, account, haccount, hnid, hpair, hanswer.userId, hanswer.ledgerAccountId⟩

/-- Links and accounts say the same, identities are unique, and a ledger account
id belongs to one pair and to no provider. -/
structure LinksAgree (pg : Pg) : Prop where
  linksOnce : (pg.userProviders.map UserProvider.pair).Nodup
  accountsOnce : (pg.userAccounts.map UserAccount.pair).Nodup
  samePairs : ∀ pair, pair ∈ pg.userProviders.map UserProvider.pair ↔
    pair ∈ pg.userAccounts.map UserAccount.pair
  /-- The three reads of a user's providers agree. -/
  reads : ∀ u p now uuid, ∃ details providers infos,
    (getUserProviderDetails u p).transact pg now uuid = (.ok details, pg, 0) ∧
    (getUserProviders u).transact pg now uuid = (.ok providers, pg, 0) ∧
    (getUserAccountsProviderInfo u).transact pg now uuid = (.ok infos, pg, 0) ∧
    (details.isSome ↔ p ∈ providers.map (·.id)) ∧
    (details.isSome ↔ p ∈ infos.map (·.providerId))
  nids : (pg.users.map (·.nid)).Nodup
  ledgerIds : (pg.userAccounts.map (·.ledgerAccountId)).Nodup
  notProviders : ∀ ua ∈ pg.userAccounts, ∀ p ∈ pg.providers, p.ledgerAccountId ≠ ua.ledgerAccountId

theorem Inv.linksAgree {env : Env} {w : World} (h : Inv env w) : LinksAgree w.pg where
  linksOnce := h.tables.links ▸ h.tables.accountPairs
  accountsOnce := h.tables.accountPairs
  samePairs := fun pair => by rw [h.tables.links]
  reads := fun u p now uuid => by
    refine ⟨(w.pg.userProviderDetails u p).head?, w.pg.userProvidersOf u,
      w.pg.userAccountsProviderInfo u, rfl, rfl, rfl, ?_, ?_⟩
    · rw [h.tables.mem_userProvidersOf]
      exact h.tables.details_isSome
    · rw [h.tables.mem_userAccountsProviderInfo]
      exact h.tables.details_isSome
  nids := h.tables.userNids
  ledgerIds := h.tables.accountLedgers
  notProviders := fun ua hua p hp heq => by
    have huse := h.userLedgers ua hua
    rw [← heq] at huse
    cases h.issuedOnce _ _ _ huse (h.providerLedgers p hp)

/-- **Identity and links**, in every reachable state; and in every state after
it, an account has kept its ledger id, which is the one every request for its
NID and provider was answered with. -/
theorem identity_and_links {env : Env} {c c' : State} (h : Reachable env c)
    (hrun : (machine env).Reach (fun _ _ => True) c c') :
    LinksAgree c.world.pg ∧
    ∀ ua ∈ c.world.pg.userAccounts,
      (∃ ua' ∈ c'.world.pg.userAccounts, ua'.pair = ua.pair) ∧
      (∀ ua' ∈ c'.world.pg.userAccounts, ua'.pair = ua.pair →
        ua'.ledgerAccountId = ua.ledgerAccountId) ∧
      ∀ user ∈ c.world.pg.users, user.id = ua.userId → ∀ t ∈ c'.tasks, ∀ payload r,
        t.req = .createOrLink payload → payload.nid = user.nid →
        payload.providerId = ua.providerId →
        t.answer? = some (.ok (.created, .createUser r)) →
        r.userId = ua.userId ∧ r.ledgerAccountId = ua.ledgerAccountId := by
  have hreach' := Reachable.extend h hrun
  have hgrows : Grows c.world c'.world := by
    induction hrun with
    | refl => exact .refl _
    | tail hr _ hs ih =>
        exact (ih (h.extend hr)).trans ((h.extend hr).step hs).2
  have htables := hreach'.inv.tables
  refine ⟨h.inv.linksAgree, fun ua hua => ?_⟩
  have hua' := hgrows.pg.userAccounts.subset hua
  have hsame : ∀ ua' ∈ c'.world.pg.userAccounts, ua'.pair = ua.pair → ua' = ua :=
    fun ua' hmem hpair => List.inj_on_of_nodup_map htables.accountPairs hmem hua' hpair
  refine ⟨⟨ua, hua', rfl⟩, fun ua' hmem hpair => by rw [hsame ua' hmem hpair], ?_⟩
  intro user huser hid t ht payload r hq hnid hp ha
  obtain ⟨user', huser', account, haccount, hnid', hpair, hr, hlid⟩ := hreach'.linked ht hq ha
  -- the NID of a row has nothing to cut
  rw [varchar_of_length_le (hnid ▸ h.inv.tables.nidLengths user huser), or_self, hnid] at hnid'
  obtain rfl : user' = user := List.inj_on_of_nodup_map htables.userNids huser'
    (hgrows.pg.users.subset huser) hnid'
  obtain rfl : account = ua :=
    hsame account haccount (hpair.trans (Prod.ext hid hp))
  exact ⟨hr.trans hid, hlid⟩

/-- The user of the example is linked to the same provider again. -/
def relinked : State :=
  request defaultEnv oneUser (.createOrLink ⟨"0012345678", ⟨1002⟩, none, none⟩)

theorem oneUser_relinked : (machine defaultEnv).Reach (fun _ _ => True) oneUser relinked :=
  (Machine.Reach.tail (l := .arrive _) .refl trivial ((machine defaultEnv).step_arrive oneUser _)).trans
    ((request_reach defaultEnv oneUser _).mono (fun _ _ _ => trivial))

theorem identity_and_links_relinked :
    (oneUser.world.pg.userAccounts.map UserAccount.pair = [(⟨1008⟩, ⟨1002⟩)] ∧
      relinked.tasks[2]?.bind Task.answer? = some (.ok (.created, .createUser
        ⟨⟨1008⟩, "0012345678", ⟨1002⟩, ⟨1006⟩, false, 0, 0⟩))) ∧
    LinksAgree oneUser.world.pg ∧
    ∀ ua ∈ oneUser.world.pg.userAccounts,
      (∃ ua' ∈ relinked.world.pg.userAccounts, ua'.pair = ua.pair) ∧
      (∀ ua' ∈ relinked.world.pg.userAccounts, ua'.pair = ua.pair →
        ua'.ledgerAccountId = ua.ledgerAccountId) ∧
      ∀ user ∈ oneUser.world.pg.users, user.id = ua.userId → ∀ t ∈ relinked.tasks, ∀ payload r,
        t.req = .createOrLink payload → payload.nid = user.nid →
        payload.providerId = ua.providerId →
        t.answer? = some (.ok (.created, .createUser r)) →
        r.userId = ua.userId ∧ r.ledgerAccountId = ua.ledgerAccountId :=
  ⟨by decide +kernel,
    identity_and_links oneUser_reachable oneUser_relinked⟩

end Wurzburg.System
