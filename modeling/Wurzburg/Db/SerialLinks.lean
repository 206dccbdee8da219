import Wurzburg.Db.Serial
import Wurzburg.Db.LinkRaces

/-!
# Wurzburg.Db.SerialLinks

Interleaved calls of `create_or_link_user` for the same NID leave, and return, what those
that succeed leave and return one after the other (`createOrLinkUser_serializable`).

A transaction's stage says what it has found; beside it, `LinkStage.Replayed` says which
rows it has added and under which of its UUIDs. The same statements have the same replies
on what is committed when the transaction commits, so that they can be run once more, all
in one step (`LinkStage.Replayed.transact`).
-/

namespace Wurzburg.Db

open Wurzburg.Lib

/-- The tables that the calls read and write are the same. -/
structure Pg.SameForLinks (pg pg' : Pg) : Prop where
  users : pg'.users = pg.users
  links : pg'.userProviders = pg.userProviders
  accounts : pg'.userAccounts = pg.userAccounts
  providers : pg'.providers = pg.providers

theorem Pg.SameForLinks.refl (pg : Pg) : Pg.SameForLinks pg pg := ⟨rfl, rfl, rfl, rfl⟩

/-! ### Rows that are found or added -/

/-- The user was found, or it was added under the first UUID. -/
inductive Session.NamedUser (nid : String) (s : LinkSession) (user : User) : Nat → Prop where
  | found (own : s.own.users = []) : NamedUser nid s user 0
  | added (own : s.own.users = [user])
      (row : user = ⟨s.uuid 0, nid, s.call.internalMetadata, s.now, s.now⟩)
      (fits : varcharOk 10 nid = true)
      (metadata : jsonbOk s.call.internalMetadata.toList = true) : NamedUser nid s user 1

/-- The links of the pair. -/
def Pg.linksOf (pg : Pg) (pair : Uuid × Uuid) : List UserProvider :=
  pg.userProviders.filter (fun up => up.pair = pair)

/-- The links of the pair were found and rewritten, or one was added under the next UUID. -/
inductive Session.UpsertedLink (pg : Pg) (s : LinkSession) (user : User) (n : Nat) :
    Nat → Prop where
  | found (some : pg.linksOf (user.id, s.call.providerId) ≠ [])
      (own : s.own.userProviders = (pg.linksOf (user.id, s.call.providerId)).map
        (·.relinked user.id s.call.providerId s.call.externalMetadata s.now)) :
      UpsertedLink pg s user n n
  | added (none : pg.linksOf (user.id, s.call.providerId) = [])
      (own : s.own.userProviders =
        [⟨s.uuid n, user.id, s.call.providerId, s.call.externalMetadata, s.now, s.now⟩])
      (new : ∀ up ∈ pg.userProviders, up.id ≠ s.uuid n)
      (provider : ∃ p ∈ pg.providers, p.id = s.call.providerId) :
      UpsertedLink pg s user n (n + 1)

/-- The account was found, or it was added under the next UUID. -/
inductive Session.SettledAccount (pg : Pg) (s : LinkSession) (user : User) (account : UserAccount)
    (n : Nat) : Prop where
  | found (own : s.own.userAccounts = [])
  | added (own : s.own.userAccounts = [account])
      (row : account = ⟨s.uuid n, user.id, s.call.providerId, s.call.ledgerAccountId, .active,
        s.now, s.now⟩)
      (new : ∀ a ∈ pg.userAccounts, a.ledgerAccountId ≠ s.call.ledgerAccountId)
      (provider : ∃ p ∈ pg.providers, p.id = s.call.providerId)

/-- The user was found or added, and linked, with this many UUIDs. -/
structure Session.Linked (nid : String) (pg : Pg) (s : LinkSession) (user : User) (n : Nat) :
    Prop where
  metadata : jsonbOk s.call.externalMetadata.toList = true
  rows : ∃ k, s.NamedUser nid user k ∧ s.UpsertedLink pg user k n

/-- Which rows a transaction in this stage has added, and with how many UUIDs. -/
inductive LinkStage.Replayed (nid : String) (pg : Pg) (s : LinkSession) : LinkStage → Prop where
  | opened (drawn : s.drawn = 0) : Replayed nid pg s .opened
  | acting (drawn : s.drawn = 0) : Replayed nid pg s .acting
  | missing (drawn : s.drawn = 0) : Replayed nid pg s .missing
  | named (drawn : s.drawn = 1) : Replayed nid pg s (.named (s.uuid 0))
  | identified {user : User} (names : s.NamedUser nid user s.drawn) :
      Replayed nid pg s (.identified user)
  | linked {user : User} (linked : s.Linked nid pg user s.drawn) : Replayed nid pg s (.linked user)
  | unaccounted {user : User} (linked : s.Linked nid pg user s.drawn) :
      Replayed nid pg s (.unaccounted user)
  | numbered {user : User} {n : Nat} (linked : s.Linked nid pg user n) (drawn : s.drawn = n + 1) :
      Replayed nid pg s (.numbered user (s.uuid n))
  | settled {user : User} {account : UserAccount} {n : Nat} (linked : s.Linked nid pg user n)
      (owns : s.SettledAccount pg user account n) : Replayed nid pg s (.settled user account)
  | committed {user : User} {account : UserAccount} : Replayed nid pg s (.committed user account)
  | undone : Replayed nid pg s .undone

/-! ### In one step -/

/-- The state that a part of the method leads to. -/
structure Tx.Goes (t t' : Tx) (users : List User) (links : List UserProvider)
    (accounts : List UserAccount) (drawn : Nat) : Prop where
  actor : t'.actor = t.actor
  now : t'.now = t.now
  uuid : t'.uuid = t.uuid
  drawn : t'.drawn = drawn
  users : t'.pg.users = users
  links : t'.pg.userProviders = links
  accounts : t'.pg.userAccounts = accounts
  providers : t'.pg.providers = t.pg.providers

section

variable {nid : String} {pg pg₁ : Pg} {s : LinkSession} {user : User} {account : UserAccount}
  {t : Tx} {n k : Nat}

/-- The user is found or added once more. -/
theorem Session.NamedUser.exec (h : s.NamedUser nid user k)
    (hnames : t.pg.NamesUser nid user s.own.users) (hfits : varchar 10 nid = nid)
    (hactor : t.actor = some s.call.actorId) (hnow : t.now = s.now) (huuid : t.uuid = s.uuid)
    (hdrawn : t.drawn = 0) :
    ∃ t', Repo.exec (findOrCreateUser nid s.call.internalMetadata) t = (.ok user, t') ∧
      t.Goes t' (t.pg.users ++ s.own.users) t.pg.userProviders t.pg.userAccounts k := by
  unfold findOrCreateUser
  cases h with
  | found hown =>
      rw [hown] at hnames ⊢
      cases hnames with
      | found hfind =>
          refine ⟨t, ?_, rfl, rfl, rfl, hdrawn, (List.append_nil _).symm, rfl, rfl, rfl⟩
          have hselect : Sql.exec (.selectUserByNid nid) t = (.ok (some user), t) := by
            rw [← hfind]
            rfl
          rw [Repo.exec_bind_ok (Repo.exec_query_ok hselect)]
          rfl
  | added hown hrow hok hmetadata =>
      rw [hown] at hnames ⊢
      cases hnames with
      | added hnone hprop hkey =>
          have hselect : Sql.exec (.selectUserByNid nid) t = (.ok none, t) := by
            rw [← hnone]
            rfl
          have hv4 : Sql.exec .newV4 t = (.ok (s.uuid 0), t.draw) := by
            rw [← huuid, ← hdrawn]
            rfl
          rw [Repo.exec_bind_ok (Repo.exec_query_ok hselect),
            Repo.exec_bind_ok (Repo.exec_query_ok hv4)]
          have hinsert : t.draw.insertUser (s.uuid 0) nid s.call.internalMetadata =
              (.ok user, { t.draw with
                pg := ({ t.pg with users := t.pg.users ++ [user] } : Pg).log
                  [⟨"users", s.uuid 0, s.call.actorId, .insert⟩] }) := by
            subst hrow
            simp only [Tx.insertUser, hfits, ← hnow]
            refine Tx.write_ok hactor ?_
            have hid : ∀ u ∈ t.pg.users, u.id ≠ s.uuid 0 := fun u hu heq =>
              hkey (List.mem_map.mpr ⟨u, hu, heq⟩)
            have hnid : ∀ u ∈ t.pg.users, u.nid ≠ nid := fun u hu heq =>
              List.find?_eq_none.mp hnone u hu (decide_eq_true heq)
            simpa [hok, hmetadata] using ⟨hid, hnid⟩
          refine ⟨_, Repo.exec_query_ok hinsert, rfl, rfl, rfl, ?_, rfl, rfl, rfl, rfl⟩
          show t.drawn + 1 = 1
          rw [hdrawn]

theorem Pg.linksOf_eq_nil {pair : Uuid × Uuid} : pg.linksOf pair = [] ↔
    pg.userProviders.find? (fun up => up.userId = pair.1 ∧ up.providerId = pair.2) = none := by
  have hpair : ∀ up : UserProvider,
      up.pair = pair ↔ up.userId = pair.1 ∧ up.providerId = pair.2 := fun up => Prod.ext_iff
  unfold linksOf
  simp only [List.filter_eq_nil_iff, List.find?_eq_none, decide_eq_true_eq, hpair]

/-- The links of the pair are found and rewritten, or one is added, once more. -/
theorem Session.UpsertedLink.exec (h : s.UpsertedLink pg user k n)
    (hids : (pg.userProviders.map (·.id)).Nodup)
    (hmetadata : jsonbOk s.call.externalMetadata.toList = true)
    (huser : ∃ u ∈ t.pg.users, u.id = user.id) (hlinks : t.pg.userProviders = pg.userProviders)
    (hproviders : t.pg.providers = pg.providers) (hactor : t.actor = some s.call.actorId)
    (hnow : t.now = s.now) (huuid : t.uuid = s.uuid) (hdrawn : t.drawn = k) :
    ∃ t', Sql.exec (.upsertUserProvider user.id s.call.providerId s.call.externalMetadata) t =
        (.ok (), t') ∧
      t.Goes t' t.pg.users (overlay (·.id) pg.userProviders s.own.userProviders)
        t.pg.userAccounts n := by
  simp only [Sql.exec, Tx.upsertUserProvider, hlinks]
  cases h with
  | found hsome hown =>
      obtain ⟨row, hrow⟩ := Option.ne_none_iff_exists'.mp (fun hnone =>
        hsome (Pg.linksOf_eq_nil.mpr hnone))
      simp only [hrow]
      refine ⟨_, Tx.write_ok hactor (by simpa using hmetadata), rfl, rfl, rfl, hdrawn, rfl, ?_, rfl,
        rfl⟩
      rw [hown]
      refine Eq.trans ?_ (overlay_rewritten hids (fun _ => UserProvider.relinked_id)).symm
      show t.pg.userProviders.map _ = _
      rw [hlinks, hnow]
      refine List.map_congr_left (fun up _ => ?_)
      simp only [UserProvider.relinked, UserProvider.pair, Prod.mk.injEq, decide_eq_true_eq]
      split <;> rfl
  | added hnone hown hnew hprovider =>
      have hrow := Pg.linksOf_eq_nil.mp hnone
      simp only [hrow]
      have hfresh : t.fresh = s.uuid k := by
        rw [← huuid, ← hdrawn]
        rfl
      refine ⟨_, Tx.write_ok (t := t.draw) hactor ?_, rfl, rfl, rfl, congrArg (· + 1) hdrawn, rfl,
        ?_, rfl, rfl⟩
      · rw [hfresh, hproviders]
        simpa [hmetadata] using ⟨hnew, huser, hprovider⟩
      · have happend : overlay (·.id) pg.userProviders ([] ++ s.own.userProviders) =
            overlay (·.id) pg.userProviders [] ++ s.own.userProviders := by
          refine overlay_append (fun v hv hmem => ?_)
          obtain ⟨up, hup, hid⟩ := List.mem_map.mp hmem
          rw [hown, List.mem_singleton] at hv
          exact hnew up hup (hid.trans (congrArg UserProvider.id hv))
        rw [List.nil_append, overlay_nil] at happend
        rw [happend, hown, ← hfresh, ← hnow]
        show t.pg.userProviders ++ _ = _
        rw [hlinks]

/-- The account is found or added once more. -/
theorem Session.SettledAccount.exec (h : s.SettledAccount pg user account n)
    (hnames : pg.NamesAccount (user.id, s.call.providerId) account s.own.userAccounts)
    (huser : ∃ u ∈ t.pg.users, u.id = user.id) (haccounts : t.pg.userAccounts = pg.userAccounts)
    (hproviders : t.pg.providers = pg.providers) (hactor : t.actor = some s.call.actorId)
    (hnow : t.now = s.now) (huuid : t.uuid = s.uuid) (hdrawn : t.drawn = n) :
    ∃ t' m, Repo.exec (findOrCreateAccount user.id s.call.providerId s.call.ledgerAccountId) t =
        (.ok account, t') ∧
      t.Goes t' t.pg.users t.pg.userProviders (pg.userAccounts ++ s.own.userAccounts) m := by
  unfold findOrCreateAccount
  have hselect : Sql.exec (.selectUserAccount user.id s.call.providerId) t =
      (.ok (pg.userAccount? user.id s.call.providerId), t) := by
    unfold Pg.userAccount?
    rw [← haccounts]
    rfl
  cases h with
  | found hown =>
      rw [hown] at hnames ⊢
      cases hnames with
      | found hfind =>
          rw [show pg.userAccount? user.id s.call.providerId = some account from hfind] at hselect
          refine ⟨t, n, ?_, rfl, rfl, rfl, hdrawn, rfl, rfl, ?_, rfl⟩
          · rw [Repo.exec_bind_ok (Repo.exec_query_ok hselect)]
            rfl
          · rw [haccounts, List.append_nil]
  | added hown hrow hnew hprovider =>
      rw [hown] at hnames ⊢
      cases hnames with
      | added hnone hprop hkey =>
          rw [show pg.userAccount? user.id s.call.providerId = none from hnone] at hselect
          have hv4 : Sql.exec .newV4 t = (.ok (s.uuid n), t.draw) := by
            rw [← huuid, ← hdrawn]
            rfl
          have hinsert : t.draw.insertUserAccount (s.uuid n) user.id s.call.providerId
              s.call.ledgerAccountId = (.ok account, { t.draw with
                pg := ({ t.pg with userAccounts := t.pg.userAccounts ++ [account] } : Pg).log
                  [⟨"user_accounts", s.uuid n, s.call.actorId, .insert⟩] }) := by
            have hid : ∀ a ∈ pg.userAccounts, a.id ≠ s.uuid n := fun a ha heq =>
              hkey (List.mem_map.mpr ⟨a, ha, by rw [heq, hrow]⟩)
            have hpair : ∀ a ∈ pg.userAccounts,
                ¬(a.userId = user.id ∧ a.providerId = s.call.providerId) := fun a ha heq =>
              List.find?_eq_none.mp hnone a ha (decide_eq_true heq)
            subst hrow
            simp only [Tx.insertUserAccount, ← hnow]
            refine Tx.write_ok hactor ?_
            rw [show t.draw.pg.userAccounts = pg.userAccounts from haccounts,
              show t.draw.pg.providers = pg.providers from hproviders]
            simpa using ⟨hid, hnew, by simpa using hpair, huser, hprovider⟩
          refine ⟨_, n + 1, (Repo.exec_bind_ok (Repo.exec_query_ok hselect)).trans
            ((Repo.exec_bind_ok (Repo.exec_query_ok hv4)).trans (Repo.exec_query_ok hinsert)),
            rfl, rfl, rfl, congrArg (· + 1) hdrawn, rfl, rfl, ?_, rfl⟩
          show t.pg.userAccounts ++ _ = _
          rw [haccounts]

/-- **A commit** does what the call does in one step. -/
theorem LinkStage.Replayed.transact (h : (LinkStage.settled user account).Replayed nid pg s)
    (hφ : (LinkStage.settled user account).Holds nid pg s) (hfits : varchar 10 nid = nid)
    (hids : (pg.userProviders.map (·.id)).Nodup) (hsame : Pg.SameForLinks pg₁ pg) :
    ∃ pg₂ n, (s.call.body nid).transact pg₁ s.now s.uuid = (.ok (user, account), pg₂, n) ∧
      Pg.SameForLinks pg₂ (s.view pg) := by
  cases hφ with
  | settled links names =>
      cases h with
      | @settled _ _ n linked owns =>
          obtain ⟨hmetadata, k, hnamed, hlink⟩ := linked
          -- the user
          have hnames : pg₁.NamesUser nid user s.own.users := by
            have hnames := links.names
            unfold Pg.NamesUser at hnames
            rwa [hsame.users] at hnames
          obtain ⟨t₁, hexec₁, h₁⟩ := hnamed.exec
            (t := (Tx.begin pg₁ s.now s.uuid).asActor s.call.actorId) hnames hfits rfl rfl rfl rfl
          have huser : user ∈ pg₁.users ++ s.own.users :=
            List.mem_of_find?_eq_some hnames.find_eq
          -- the link
          have hlinks₁ : t₁.pg.userProviders = pg.userProviders := h₁.links.trans hsame.links.symm
          obtain ⟨t₂, hexec₂, h₂⟩ := hlink.exec hids hmetadata ⟨user, h₁.users ▸ huser, rfl⟩ hlinks₁
            (h₁.providers.trans hsame.providers.symm) h₁.actor h₁.now h₁.uuid h₁.drawn
          -- the account
          obtain ⟨t₃, m, hexec₃, h₃⟩ := owns.exec names
            ⟨user, h₂.users ▸ h₁.users ▸ huser, rfl⟩
            (h₂.accounts.trans (h₁.accounts.trans hsame.accounts.symm))
            (h₂.providers.trans (h₁.providers.trans hsame.providers.symm))
            (h₂.actor.trans h₁.actor) (h₂.now.trans h₁.now) (h₂.uuid.trans h₁.uuid) h₂.drawn
          have hset : Repo.exec (query (.setActor s.call.actorId) []) (Tx.begin pg₁ s.now s.uuid) =
              (.ok (), (Tx.begin pg₁ s.now s.uuid).asActor s.call.actorId) := rfl
          have hrun : Repo.exec (s.call.body nid) (Tx.begin pg₁ s.now s.uuid) =
              (.ok (user, account), { t₃ with base := t₃.pg }) := by
            unfold LinkCall.body createOrLinkUser
            rw [Repo.exec_bind_ok hset, Repo.exec_bind_ok hexec₁,
              Repo.exec_bind_ok (Repo.exec_query_ok hexec₂), Repo.exec_bind_ok hexec₃]
            rfl
          refine ⟨t₃.pg, t₃.drawn, ?_, ?_, ?_, ?_, ?_⟩
          · unfold Repo.transact
            rw [hrun]
          · show overlay (·.id) pg.users s.own.users = _
            rw [links.names.overlay_eq, hsame.users, h₃.users, h₂.users, h₁.users]
            rfl
          · show overlay (·.id) pg.userProviders s.own.userProviders = _
            rw [h₃.links, h₂.links]
          · show overlay (·.id) pg.userAccounts s.own.userAccounts = _
            rw [names.overlay_eq, h₃.accounts]
          · rw [links.has.view_providers, hsame.providers, h₃.providers, h₂.providers, h₁.providers]
            rfl

end

/-! ### One statement -/

/-- What the upsert of a pair has done. -/
theorem Tx.upsertUserProvider_cases {t t' : Tx} {userId providerId : Uuid} {metadata : Json}
    (h : t.upsertUserProvider userId providerId metadata = (.ok (), t')) :
    jsonbOk metadata.toList = true ∧
      ((t.pg.linksOf (userId, providerId) ≠ [] ∧ t'.drawn = t.drawn ∧
          t'.pg.userProviders =
            t.pg.userProviders.map (·.relinked userId providerId metadata t.now)) ∨
        (t.pg.linksOf (userId, providerId) = [] ∧ t'.drawn = t.drawn + 1 ∧
          (∀ up ∈ t.pg.userProviders, up.id ≠ t.fresh) ∧
          (∃ p ∈ t.pg.providers, p.id = providerId) ∧
          t'.pg.userProviders =
            t.pg.userProviders ++ [⟨t.fresh, userId, providerId, metadata, t.now, t.now⟩])) := by
  simp only [upsertUserProvider] at h
  split at h
  · next row hrow =>
      rcases Tx.write_cases h with ⟨e, he, -⟩ | ⟨actor, -, -, hc, rfl⟩
      · cases he
      refine ⟨by simpa using hc, Or.inl ⟨fun hnil => ?_, rfl, ?_⟩⟩
      · have hnone := Pg.linksOf_eq_nil.mp hnil
        rw [hrow] at hnone
        cases hnone
      · refine List.map_congr_left (fun up _ => ?_)
        simp only [UserProvider.relinked, decide_eq_true_eq]
  · next hnone =>
      rcases Tx.write_cases h with ⟨e, he, -⟩ | ⟨actor, -, -, hc, rfl⟩
      · cases he
      simp only [List.forall_mem_cons, Bool.not_eq_false', List.any_eq_false, List.any_eq_true,
        decide_eq_true_eq] at hc
      obtain ⟨hmetadata, hnew, -, hprovider, -⟩ := hc
      exact ⟨hmetadata, Or.inr ⟨Pg.linksOf_eq_nil.mpr hnone, rfl, hnew, hprovider, rfl⟩⟩

section

variable {nid : String} {pg : Pg} {s s' : LinkSession} {φ : LinkStage} {user : User}
  {account : UserAccount} {n k : Nat}

theorem Session.NamedUser.of_same (h : s.NamedUser nid user n) (hcall : s'.call = s.call)
    (hnow : s'.now = s.now) (huuid : s'.uuid = s.uuid) (hown : s'.own.users = s.own.users) :
    s'.NamedUser nid user n := by
  cases h with
  | found own => exact .found (hown.trans own)
  | added own row fits metadata =>
      refine .added (hown.trans own) ?_ fits (hcall ▸ metadata)
      rw [hcall, hnow, huuid]
      exact row

theorem Session.UpsertedLink.of_same (h : s.UpsertedLink pg user k n) (hcall : s'.call = s.call)
    (hnow : s'.now = s.now) (huuid : s'.uuid = s.uuid)
    (hown : s'.own.userProviders = s.own.userProviders) : s'.UpsertedLink pg user k n := by
  cases h with
  | found some own =>
      refine .found (by rwa [hcall]) (hown.trans ?_)
      rw [hcall, hnow]
      exact own
  | added none own new provider =>
      refine .added (by rwa [hcall]) (hown.trans ?_) (by rwa [huuid]) (by rwa [hcall])
      rw [hcall, hnow, huuid]
      exact own

theorem Session.Linked.of_same (h : s.Linked nid pg user n) (hcall : s'.call = s.call)
    (hnow : s'.now = s.now) (huuid : s'.uuid = s.uuid) (husers : s'.own.users = s.own.users)
    (hlinks : s'.own.userProviders = s.own.userProviders) : s'.Linked nid pg user n := by
  obtain ⟨hmetadata, k, hnamed, hlink⟩ := h
  exact ⟨hcall ▸ hmetadata, k, hnamed.of_same hcall hnow huuid husers,
    hlink.of_same hcall hnow huuid hlinks⟩

/-- The user that a transaction has inserted. -/
theorem LinkStage.Replayed.wrote_insertUser {id : Uuid} {t : Tx}
    (h : (LinkStage.named id).Replayed nid pg s) (hφ : (LinkStage.named id).Holds nid pg s)
    (hfits : varchar 10 nid = nid)
    (hexec : (s.tx pg (s.view pg)).insertUser id nid s.call.internalMetadata = (.ok user, t)) :
    (LinkStage.identified user).Replayed nid pg ((s.wrote (s.view pg) t).locking []) := by
  obtain ⟨hψ, -⟩ := hφ.wrote_insertUser hfits hexec
  cases hφ with
  | named acts has =>
      cases h with
      | named drawn =>
          simp only [Tx.insertUser, hfits] at hexec
          rcases Tx.write_cases hexec with ⟨e, he, -⟩ | ⟨actor, hok, -, hc, ht⟩
          · cases he
          have husers : (s.tx pg (s.view pg)).pg.users = pg.users := has.view_users
          rw [husers] at hc
          simp only [List.forall_mem_cons, Bool.not_eq_false', List.any_eq_false,
            decide_eq_true_eq] at hc
          obtain ⟨hok', hmetadata, -, hnone, -⟩ := hc
          have hdrawn : ((s.wrote (s.view pg) t).locking []).drawn = 1 := by
            rw [ht]
            exact drawn
          cases hψ with
          | identified _ _ names =>
              refine .identified (hdrawn.symm ▸ ?_)
              obtain ⟨own, hown⟩ : ∃ own, ((s.wrote (s.view pg) t).locking []).own.users = own :=
                ⟨_, rfl⟩
              rw [hown] at names
              cases names with
              | found hfind =>
                  -- the constraint has let the row in, so that none was there
                  have hnid := List.find?_some hfind
                  have hmem := List.mem_of_find?_eq_some hfind
                  exact absurd (of_decide_eq_true hnid) (hnone user hmem)
              | added => exact .added hown (Except.ok.inj hok) hok' hmetadata

/-- The link that a transaction has upserted. -/
theorem LinkStage.Replayed.wrote_upsert {t : Tx}
    (h : (LinkStage.identified user).Replayed nid pg s)
    (hφ : (LinkStage.identified user).Holds nid pg s)
    (hids : (pg.userProviders.map (·.id)).Nodup)
    (hexec : (s.tx pg (s.view pg)).upsertUserProvider user.id s.call.providerId
      s.call.externalMetadata = (.ok (), t)) :
    (LinkStage.linked user).Replayed nid pg ((s.wrote (s.view pg) t).locking
      (t.pg.userProviders.filter (fun up => up.pair = (user.id, s.call.providerId)))) := by
  have hown := hφ.upserted_own hids hexec
  cases hφ with
  | identified acts has names =>
      cases h with
      | identified named =>
          have hview : (s.view pg).userProviders = pg.userProviders := has.view_links
          have hproviders : (s.view pg).providers = pg.providers := has.view_providers
          obtain ⟨-, hups⟩ := Tx.upsertUserProvider_upserts
            (show ((s.view pg).userProviders.map (·.id)).Nodup by rwa [hview]) hexec
          have husers : supersede (·.id) s.own.users (changed (s.view pg).users t.pg.users) =
              s.own.users := by
            rw [show t.pg.users = (s.view pg).users by rw [hups.only]; rfl, changed_self,
              supersede_nil]
          obtain ⟨hmetadata, hcases⟩ := Tx.upsertUserProvider_cases hexec
          refine .linked ⟨hmetadata, s.drawn, named.of_same rfl rfl rfl husers, ?_⟩
          have hlinks : (s.tx pg (s.view pg)).pg.linksOf (user.id, s.call.providerId) =
              pg.linksOf (user.id, s.call.providerId) := congrArg (List.filter _) hview
          have hseen : (s.tx pg (s.view pg)).pg.userProviders = pg.userProviders := hview
          rw [hlinks, hseen] at hcases
          show Session.UpsertedLink pg _ user s.drawn t.drawn
          rcases hcases with ⟨hsome, hdrawn, hrows⟩ | ⟨hnone, hdrawn, hnew, hprovider, hrows⟩
          · rw [hdrawn]
            refine .found hsome (hown.trans ?_)
            rw [hrows, List.filter_map]
            refine congrArg (List.map _) (List.filter_congr (fun up _ => ?_))
            simp only [Function.comp, UserProvider.relinked_pair]
            rfl
          · rw [hdrawn]
            refine .added hnone (hown.trans ?_) hnew (hproviders ▸ hprovider)
            rw [hrows, List.filter_append, show pg.userProviders.filter _ = [] from hnone]
            refine List.filter_eq_self.mpr (fun up hup => ?_)
            rw [List.mem_singleton.mp hup]
            exact decide_eq_true rfl

/-- The account that a transaction has inserted. -/
theorem LinkStage.Replayed.wrote_insertUserAccount {id : Uuid} {t : Tx}
    (h : (LinkStage.numbered user id).Replayed nid pg s)
    (hφ : (LinkStage.numbered user id).Holds nid pg s)
    (hexec : (s.tx pg (s.view pg)).insertUserAccount id user.id s.call.providerId
      s.call.ledgerAccountId = (.ok account, t)) :
    (LinkStage.settled user account).Replayed nid pg ((s.wrote (s.view pg) t).locking []) := by
  obtain ⟨hψ, -⟩ := hφ.wrote_insertUserAccount hexec
  cases hφ with
  | numbered links hnone =>
      cases h with
      | numbered linked drawn =>
          simp only [Tx.insertUserAccount] at hexec
          rcases Tx.write_cases hexec with ⟨e, he, -⟩ | ⟨actor, hok, -, hc, ht⟩
          · cases he
          have haccounts : (s.tx pg (s.view pg)).pg.userAccounts = pg.userAccounts :=
            links.has.view_accounts
          have hproviders : (s.tx pg (s.view pg)).pg.providers = pg.providers :=
            links.has.view_providers
          rw [haccounts, hproviders] at hc
          simp only [List.forall_mem_cons, Bool.not_eq_false', List.any_eq_false, List.any_eq_true,
            decide_eq_true_eq] at hc
          obtain ⟨-, hledger, -, -, hprovider, -⟩ := hc
          have husers : supersede (·.id) s.own.users (changed (s.view pg).users t.pg.users) =
              s.own.users := by
            rw [show t.pg.users = (s.view pg).users by rw [ht]; rfl, changed_self, supersede_nil]
          have hlinks : supersede (·.id) s.own.userProviders
              (changed (s.view pg).userProviders t.pg.userProviders) = s.own.userProviders := by
            rw [show t.pg.userProviders = (s.view pg).userProviders by rw [ht]; rfl, changed_self,
              supersede_nil]
          rw [Session.locking_nil] at hψ ⊢
          refine .settled (linked.of_same rfl rfl rfl husers hlinks) ?_
          cases hψ with
          | settled _ names =>
              obtain ⟨own, hown⟩ : ∃ own, (s.wrote (s.view pg) t).own.userAccounts = own :=
                ⟨_, rfl⟩
              rw [hown] at names
              cases names with
              | found hfind =>
                  have hnone : pg.userAccounts.find? _ = none := hnone
                  exact absurd (hfind.symm.trans hnone) (fun h => by cases h)
              | added => exact .added hown (Except.ok.inj hok) hledger hprovider

/-- A statement that only reads. -/
theorem LinkStage.Replayed.of_same (h : φ.Replayed nid pg s) (hcall : s'.call = s.call)
    (hnow : s'.now = s.now) (huuid : s'.uuid = s.uuid) (hdrawn : s'.drawn = s.drawn)
    (hown : s'.own = s.own) : φ.Replayed nid pg s' := by
  have hlinked : ∀ {u : User} {m : Nat}, s.Linked nid pg u m → s'.Linked nid pg u m :=
    fun hl => hl.of_same hcall hnow huuid (by rw [hown]) (by rw [hown])
  cases h with
  | opened drawn => exact .opened (hdrawn.trans drawn)
  | acting drawn => exact .acting (hdrawn.trans drawn)
  | missing drawn => exact .missing (hdrawn.trans drawn)
  | named drawn => exact huuid ▸ .named (hdrawn.trans drawn)
  | identified names =>
      exact .identified (hdrawn.symm ▸ names.of_same hcall hnow huuid (by rw [hown]))
  | linked linked => exact .linked (hdrawn.symm ▸ hlinked linked)
  | unaccounted linked => exact .unaccounted (hdrawn.symm ▸ hlinked linked)
  | numbered linked drawn => exact huuid ▸ .numbered (hlinked linked) (hdrawn.trans drawn)
  | settled linked owns =>
      refine .settled (hlinked linked) ?_
      cases owns with
      | found own => exact .found (by rw [hown, own])
      | added own row new provider =>
          refine .added (by rw [hown, own]) ?_ (hcall ▸ new) (hcall ▸ provider)
          rw [hcall, hnow, huuid]
          exact row
  | committed => exact .committed
  | undone => exact .undone

/-- **One statement** leads to the next stage. -/
theorem LinkStage.Replayed.wrote {e : Sql} {row : e.Row} {t : Tx} (h : φ.Replayed nid pg s)
    (hφ : φ.Holds nid pg s) (hfits : varchar 10 nid = nid)
    (hids : (pg.userProviders.map (·.id)).Nodup) (he : φ.statement nid s.call = some e)
    (hgoing : e ≠ .commit) (hexec : Sql.exec e (s.tx pg (s.view pg)) = (.ok row, t)) :
    (φ.next e (.ok row)).Replayed nid pg ((s.wrote (s.view pg) t).locking (e.upserted t.pg)) := by
  have hread : ∀ {ψ : LinkStage}, ψ.Replayed nid pg s → t = s.tx pg (s.view pg) →
      ψ.Replayed nid pg ((s.wrote (s.view pg) t).locking []) := by
    rintro ψ hψ rfl
    exact hψ.of_same rfl rfl rfl rfl (Session.wrote_own rfl)
  cases φ with
  | opened =>
      obtain rfl := Option.some.inj he
      obtain ⟨-, rfl⟩ := Prod.mk.inj hexec
      cases h with
      | opened drawn => exact .acting drawn
  | acting =>
      obtain rfl := Option.some.inj he
      obtain ⟨-, ht⟩ := Prod.mk.inj hexec
      cases h with
      | acting drawn =>
          cases hφ with
          | acting acts has =>
              cases row with
              | none => exact hread (.missing drawn) ht.symm
              | some user =>
                  have hfound : s.NamedUser nid user 0 := .found has.users
                  exact hread (.identified (drawn.symm ▸ hfound)) ht.symm
  | missing =>
      obtain rfl := Option.some.inj he
      obtain ⟨hrow, rfl⟩ := Prod.mk.inj hexec
      cases h with
      | missing drawn =>
          have hid : row = s.uuid 0 := by
            rw [← Except.ok.inj hrow, ← drawn]
            rfl
          rw [hid]
          exact .named (congrArg (· + 1) drawn)
  | named id =>
      obtain rfl := Option.some.inj he
      exact h.wrote_insertUser hφ hfits hexec
  | identified user =>
      obtain rfl := Option.some.inj he
      exact h.wrote_upsert hφ hids hexec
  | linked user =>
      obtain rfl := Option.some.inj he
      obtain ⟨-, ht⟩ := Prod.mk.inj hexec
      cases h with
      | linked linked =>
          cases hφ with
          | linked links =>
              cases row with
              | none => exact hread (.unaccounted linked) ht.symm
              | some account => exact hread (.settled linked (.found links.has.accounts)) ht.symm
  | unaccounted user =>
      obtain rfl := Option.some.inj he
      obtain ⟨hrow, rfl⟩ := Prod.mk.inj hexec
      cases h with
      | unaccounted linked =>
          have hid : row = s.uuid s.drawn := (Except.ok.inj hrow).symm
          have hown : ((s.wrote (s.view pg) (s.tx pg (s.view pg)).draw).locking []).own = s.own :=
            Session.wrote_own rfl
          rw [hid]
          exact .numbered (linked.of_same rfl rfl rfl (congrArg Pg.users hown)
            (congrArg Pg.userProviders hown)) rfl
  | numbered user id =>
      obtain rfl := Option.some.inj he
      exact h.wrote_insertUserAccount hφ hexec
  | settled user account => exact absurd (Option.some.inj he).symm hgoing
  | committed user account => cases he
  | undone => cases he

/-! ### Commits of others -/

/-- **Nothing that another call commits** changes which rows a transaction has added, or the
replies it has had. -/
theorem LinkStage.Replayed.elsewhere {o : LinkSession} {user : User} {account : UserAccount}
    (h : φ.Replayed nid pg s) (hφ : φ.Holds nid pg s)
    (ho : (LinkStage.settled user account).Holds nid pg o) (hapart : o.own.Apart s.own) :
    φ.Replayed nid (o.view pg) s := by
  cases ho with
  | settled links names =>
      have haccounts : (o.view pg).userAccounts = pg.userAccounts ++ o.own.userAccounts :=
        names.overlay_eq
      have hproviders : (o.view pg).providers = pg.providers := links.has.view_providers
      -- the pairs of both upserts differ
      have hpairs : ∀ {v : User} {accounts : List UserAccount}, s.Links nid pg v accounts →
          ∀ l ∈ o.own.userProviders, l.pair ≠ (v.id, s.call.providerId) := by
        intro v accounts hl l hmem hpair
        obtain ⟨l', hmem'⟩ := List.exists_mem_of_ne_nil _ hl.link.nonempty
        refine (hapart.userProviders l hmem l' hmem').2 ?_
        rw [hpair, hl.link.pairs l' hmem']
      have hrows : ∀ {v : User} {accounts : List UserAccount}, s.Links nid pg v accounts →
          (o.view pg).linksOf (v.id, s.call.providerId) =
            pg.linksOf (v.id, s.call.providerId) := by
        intro v accounts hl
        refine filter_overlay (fun l hmem => decide_eq_false (hpairs hl l hmem)) ?_
        intro r hr hpair l hmem heq
        refine hpairs hl l hmem ?_
        rw [links.link.sameRows l hmem r hr heq]
        exact of_decide_eq_true hpair
      have hlinked : ∀ {v : User} {accounts : List UserAccount} {m : Nat},
          s.Links nid pg v accounts → s.Linked nid pg v m → s.Linked nid (o.view pg) v m := by
        rintro v accounts m hl ⟨hmetadata, k, hnamed, hlink⟩
        refine ⟨hmetadata, k, hnamed, ?_⟩
        cases hlink with
        | found hsome hown =>
            rw [← hrows hl] at hsome hown
            exact .found hsome hown
        | added hnone hown hnew hprovider =>
            refine .added ((hrows hl).trans hnone) hown (fun up hup => ?_)
              (hproviders.symm ▸ hprovider)
            rcases mem_overlay hup with hup | hup
            · exact hnew up hup
            · exact (hapart.userProviders up hup _ (hown.symm ▸ List.mem_singleton_self _)).1
      cases h with
      | opened drawn => exact .opened drawn
      | acting drawn => exact .acting drawn
      | missing drawn => exact .missing drawn
      | named drawn => exact .named drawn
      | identified names => exact .identified names
      | linked linked =>
          cases hφ with
          | linked hl => exact .linked (hlinked hl linked)
      | unaccounted linked =>
          cases hφ with
          | unaccounted hl => exact .unaccounted (hlinked hl linked)
      | numbered linked drawn =>
          cases hφ with
          | numbered hl => exact .numbered (hlinked hl linked) drawn
      | settled linked owns =>
          cases hφ with
          | settled hl =>
              refine .settled (hlinked hl linked) ?_
              cases owns with
              | found own => exact .found own
              | added own row new provider =>
                  refine .added own row (fun a ha => ?_) (hproviders.symm ▸ provider)
                  rw [haccounts] at ha
                  rcases List.mem_append.mp ha with ha | ha
                  · exact new a ha
                  · have hledger := (hapart.userAccounts a ha _
                      (own.symm ▸ List.mem_singleton_self _)).2.1
                    rw [row] at hledger
                    exact hledger
      | committed => exact .committed
      | undone => exact .undone

end

/-! ### One move -/

/-- The transaction is in some stage of its call, and what it has added is known. -/
def LinkStage.Retraced (nid : String) (pg : Pg) (s : LinkSession) : Prop :=
  ∃ φ : LinkStage, φ.Holds nid pg s ∧ φ.Replayed nid pg s ∧ s.call.Keeps nid φ s.rest

section

variable {nid : String} {pg pg' : Pg} {s s' : LinkSession} {φ : LinkStage} {m : Session.Move}

/-- Only a commit leads to the stage after it. -/
theorem LinkStage.next_ne_committed {call : LinkCall} {e : Sql} {user : User}
    {account : UserAccount} (he : φ.statement nid call = some e) (hgoing : e ≠ .commit)
    (row : e.Row) : φ.next e (.ok row) ≠ .committed user account := by
  cases φ with
  | settled user account => exact absurd (Option.some.inj he).symm hgoing
  | committed user account => cases he
  | undone => cases he
  | acting | linked =>
      obtain rfl := Option.some.inj he
      cases row <;> exact fun h => by cases h
  | _ =>
      obtain rfl := Option.some.inj he
      exact fun h => by cases h

/-- A stage of a call that has not committed: the call does not return with success. -/
theorem LinkCall.Keeps.not_returned {call : LinkCall} {o : LinkSession}
    (h : call.Keeps nid φ o.rest) (hφ : ∀ user account, φ ≠ .committed user account)
    (out : User × UserAccount) : o.result? ≠ some (.ok out) := by
  intro hr
  rw [Session.result?_eq_some.mp hr] at h
  rcases LinkCall.ends_cases h with ⟨user, account, rfl, -⟩ | ⟨error, -, herror⟩
  · exact hφ user account rfl
  · cases herror

/-- **One move** of a transaction. -/
theorem Session.Moves.retraced (h : s.Moves pg m s' pg') (hfits : varchar 10 nid = nid)
    (hids : (pg.userProviders.map (·.id)).Nodup) (hs : LinkStage.Retraced nid pg s) :
    LinkStage.Retraced nid pg' s' ∧
      Store.Atomic (LinkCall.body nid) Pg.SameForLinks (fun _ => True) pg s s' pg' := by
  obtain ⟨φ, hφ, hreplayed, hkeeps⟩ := hs
  -- a transaction that ends with an error is undone
  have hundone : ∀ {e : Sql}
      {k : e.Resp → Prog Sql Sql.Resp (Except RepoError (User × UserAccount))}
      {error : SqlError} {o : LinkSession}, s.rest = .call e k →
        o = s.ended.goingOn (k (.error error)) → LinkStage.Retraced nid pg o ∧
          Store.Atomic (LinkCall.body nid) Pg.SameForLinks (fun _ => True) pg s o pg := by
    rintro e k error o hrest rfl
    rw [hrest] at hkeeps
    have hend := hkeeps.error error
    refine ⟨⟨.undone, .undone (Session.holding_empty rfl), .undone, hend⟩,
      .silent (fun _ hsame => hsame) (fun out _ _ => ?_)⟩
    exact hend.not_returned (fun _ _ h => by cases h) out
  cases h with
  | find =>
      refine ⟨⟨φ, hφ.of_same rfl rfl rfl, hreplayed.of_same rfl rfl rfl rfl rfl, hkeeps⟩, ?_⟩
      refine .silent (fun _ hsame => hsame) (fun out _ hnone hr => ?_)
      have hr : s.result? = some (.ok out) := hr
      rw [hnone] at hr
      cases hr
  | ran hrest hgoing hsight hexec =>
      rw [hrest] at hkeeps
      rw [Session.sight_view (LinkStage.statement_plain hkeeps.1).1] at hsight
      obtain rfl := Option.some.inj hsight
      obtain ⟨hψ, -⟩ := hφ.wrote hfits hids hkeeps.1 hgoing.1 hexec
      have hwrote := hreplayed.wrote hφ hfits hids hkeeps.1 hgoing.1 hexec
      refine ⟨⟨_, hψ.of_same rfl rfl rfl, hwrote.of_same rfl rfl rfl rfl rfl, hkeeps.2 _⟩, ?_⟩
      refine .silent (fun _ hsame => hsame) (fun out _ _ => ?_)
      exact LinkCall.Keeps.not_returned (hkeeps.2 _)
        (fun _ _ => LinkStage.next_ne_committed hkeeps.1 hgoing.1 _) out
  | refused hrest hsight hexec => exact hundone hrest rfl
  | @committed k hrest =>
      rw [hrest] at hkeeps
      obtain ⟨user, account, rfl⟩ := LinkStage.statement_commit hkeeps.1
      refine ⟨⟨.committed user account, hφ.commit.of_same rfl rfl rfl, .committed,
        hkeeps.2 (.ok ())⟩, .commits ?_ (fun pg₁ hsame => ?_)⟩
      · unfold Session.result?
        rw [hrest]
      · obtain ⟨pg₂, n, htx, hsame'⟩ := hreplayed.transact hφ hfits hids hsame
        refine ⟨(user, account), pg₂, n, htx, hsame', ?_⟩
        -- after the commit nothing is left but the result
        obtain ⟨r, hr⟩ := LinkCall.Keeps.returned (hkeeps.2 (.ok ())) rfl
        have hends := hkeeps.2 (.ok ())
        rw [hr] at hends
        rcases LinkCall.ends_cases hends with ⟨_, _, hφ', rfl⟩ | ⟨_, hφ', -⟩
        · obtain ⟨rfl, rfl⟩ := LinkStage.committed.inj hφ'
          exact Session.result?_eq_some.mpr hr
        · cases hφ'
  | rolledBack hrest =>
      rw [hrest] at hkeeps
      exact absurd rfl (LinkStage.statement_plain hkeeps.1).2
  | failed hrest => exact hundone hrest rfl

end

/-! ### Every run -/

/-- What holds in every state of the store. -/
structure Store.Retraced (nid : String) (st : LinkStore) : Prop extends Store.Staged nid st where
  added : ∀ s ∈ st.sessions, LinkStage.Retraced nid st.pg s

theorem Store.Retraced.step {nid : String} {st st' : LinkStore} (h : st.Retraced nid)
    {act : Store.Act LinkCall} (hstep : st.step (LinkCall.body nid) act = some st') :
    st'.Retraced nid := by
  refine ⟨(h.toStaged.step hstep).1, ?_⟩
  cases act with
  | begin call now uuid =>
      obtain rfl := Option.some.inj hstep
      intro s hs
      rcases List.mem_append.mp hs with hs | hs
      · exact h.added s hs
      · rw [List.mem_singleton.mp hs]
        exact ⟨.opened, .opened (Session.holding_empty rfl), .opened rfl, call.body_keeps nid⟩
  | move i m =>
      refine (Store.move_keeps (I := LinkStage.Retraced nid) hstep h.apart h.added ?_ ?_).2
      · intro s s' hs hmoves
        exact (hmoves.retraced h.fits h.linkIds (h.added s (List.mem_of_getElem? hs))).1
      · rintro s s' o hs hmoves ⟨ψ, hψ, hreplayed, hkeeps'⟩ hso
        obtain ⟨φ, hφ, hkeeps⟩ := h.stages s hs
        rcases (hmoves.staged h.fits h.linkIds hφ hkeeps).2.1 with hsame | ⟨hview, _, _, hsettled⟩
        · exact ⟨ψ, hsame ▸ hψ, hsame ▸ hreplayed, hkeeps'⟩
        · exact ⟨ψ, hview ▸ hψ.elsewhere hsettled hso, hview ▸ hreplayed.elsewhere hψ hsettled hso,
            hkeeps'⟩

/-- The calls for the NID that have committed, in turn. -/
abbrev Store.LinksInSeries (nid : String) (pg : Pg) (st : LinkStore) (order : List Nat) : Prop :=
  Store.Serial (LinkCall.body nid) Pg.SameForLinks (fun _ => True) pg st order

/-- Two more calls, at once, after the one that was refused. -/
def calledAgain : List (Store.Act LinkCall) :=
  [linkTo 3 ⟨2⟩, linkTo 4 ⟨2⟩, .move 2 .run, .move 3 .run, .move 2 .run, .move 3 .run, .move 2 .run,
   .move 3 .run, .move 2 .run, .move 2 .run, .move 2 .run, .move 2 .commit, .move 3 .run,
   .move 3 .run, .move 3 .commit]

def afterLostInsert : LinkStore :=
  Store.run (LinkCall.body "0012345679") (.start twoProviders) lostInsert

end Wurzburg.Db
