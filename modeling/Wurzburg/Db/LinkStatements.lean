import Wurzburg.Db.LinkStages

/-!
# Wurzburg.Db.LinkStatements

What one statement of `create_or_link_user` does in its stage
(`LinkStage.Holds.wrote`), that no constraint refuses it unless another
transaction has inserted the user first (`LinkStage.Holds.exec_ok`), and that
nothing which another call commits takes a stage back
(`LinkStage.Holds.elsewhere`).

The upsert of the link keeps two calls for the same provider apart: from there on
only one of them looks for the account.
-/

namespace Wurzburg.Db

open Wurzburg.Lib

/-! ### The upsert -/

/-- What the upsert of a pair does to the links. -/
structure Pg.Upserts (pg pg' : Pg) (pair : Uuid × Uuid) : Prop where
  only : pg' = { pg with userProviders := pg'.userProviders, auditLogs := pg'.auditLogs }
  rows : ∀ l ∈ pg'.userProviders, l ∈ pg.userProviders ∨ l.pair = pair
  linked : ∃ l ∈ pg'.userProviders, l.pair = pair
  ids : (pg'.userProviders.map (·.id)).Nodup
  sameRows : ∀ l ∈ pg'.userProviders, ∀ r ∈ pg.userProviders, l.id = r.id → l.pair = r.pair

/-- A link after the upsert of a pair. -/
def UserProvider.relinked (userId providerId : Uuid) (metadata : Json) (now : Timestamp)
    (up : UserProvider) : UserProvider :=
  if up.userId = userId ∧ up.providerId = providerId then
    { up with externalMetadata := metadata, updatedAt := now }
  else up

section

variable {pg : Pg} {userId providerId : Uuid} {metadata : Json} {now : Timestamp}
  {up row : UserProvider}

@[simp] theorem UserProvider.relinked_id :
    (up.relinked userId providerId metadata now).id = up.id := by
  unfold relinked
  split <;> rfl

@[simp] theorem UserProvider.relinked_pair :
    (up.relinked userId providerId metadata now).pair = up.pair := by
  unfold relinked
  split <;> rfl

theorem UserProvider.relinked_cases :
    up.relinked userId providerId metadata now = up ∨ up.pair = (userId, providerId) := by
  by_cases hlink : up.userId = userId ∧ up.providerId = providerId
  · exact Or.inr (Prod.ext hlink.1 hlink.2)
  · exact Or.inl (if_neg hlink)

/-- A link of the pair is found and rewritten. -/
theorem Pg.upserts_relinked (hids : (pg.userProviders.map (·.id)).Nodup)
    (hrow : row ∈ pg.userProviders) (hpair : row.pair = (userId, providerId))
    {logs : List AuditLog} :
    pg.Upserts
      { pg with
        userProviders := pg.userProviders.map (·.relinked userId providerId metadata now)
        auditLogs := logs }
      (userId, providerId) where
  only := rfl
  rows := fun l hl => by
    obtain ⟨up, hup, rfl⟩ := List.mem_map.mp hl
    rcases up.relinked_cases with hsame | hlink
    · rw [hsame]
      exact Or.inl hup
    · exact Or.inr (UserProvider.relinked_pair.trans hlink)
  linked := ⟨_, List.mem_map_of_mem hrow, UserProvider.relinked_pair.trans hpair⟩
  ids := by
    simp only [List.map_map, Function.comp_def, UserProvider.relinked_id]
    exact hids
  sameRows := fun l hl r hr heq => by
    obtain ⟨up, hup, rfl⟩ := List.mem_map.mp hl
    rw [UserProvider.relinked_id] at heq
    rw [UserProvider.relinked_pair, List.inj_on_of_nodup_map hids hup hr heq]

/-- None is found, and one is added under a new id. -/
theorem Pg.upserts_added (hids : (pg.userProviders.map (·.id)).Nodup)
    (hnew : ∀ up ∈ pg.userProviders, up.id ≠ row.id) {logs : List AuditLog} :
    pg.Upserts { pg with userProviders := pg.userProviders ++ [row], auditLogs := logs }
      row.pair where
  only := rfl
  rows := fun l hl => by
    rcases List.mem_append.mp hl with hl | hl
    · exact Or.inl hl
    · rw [List.mem_singleton.mp hl]
      exact Or.inr rfl
  linked := ⟨row, List.mem_append_right _ (List.mem_singleton_self _), rfl⟩
  ids := by
    simp only [List.map_append]
    refine List.nodup_append.mpr ⟨hids, List.nodup_singleton _, ?_⟩
    rintro k hk k' hk' rfl
    obtain ⟨up, hup, rfl⟩ := List.mem_map.mp hk
    exact hnew up hup (List.mem_singleton.mp hk')
  sameRows := fun l hl r hr heq => by
    rcases List.mem_append.mp hl with hl | hl
    · rw [List.inj_on_of_nodup_map hids hl hr heq]
    · rw [List.mem_singleton.mp hl] at heq
      exact absurd heq.symm (hnew r hr)

end

theorem Tx.upsertUserProvider_upserts {t t' : Tx} {userId providerId : Uuid} {metadata : Json}
    (hids : (t.pg.userProviders.map (·.id)).Nodup)
    (h : t.upsertUserProvider userId providerId metadata = (.ok (), t')) :
    t'.actor = t.actor ∧ t.pg.Upserts t'.pg (userId, providerId) := by
  simp only [upsertUserProvider] at h
  split at h
  · next row hrow =>
      have hpair : row.userId = userId ∧ row.providerId = providerId := by
        simpa using List.find?_some hrow
      rcases Tx.write_cases h with ⟨e, he, -⟩ | ⟨actor, -, -, -, rfl⟩
      · cases he
      have hlinks : (t.pg.userProviders.map (fun up =>
          if decide (up.userId = userId ∧ up.providerId = providerId) = true then
            { up with externalMetadata := metadata, updatedAt := t.now }
          else up)) = t.pg.userProviders.map (·.relinked userId providerId metadata t.now) := by
        simp only [UserProvider.relinked, decide_eq_true_eq]
      refine ⟨rfl, ?_⟩
      rw [hlinks]
      exact Pg.upserts_relinked hids (List.mem_of_find?_eq_some hrow) (Prod.ext hpair.1 hpair.2)
  · rcases Tx.write_cases h with ⟨e, he, -⟩ | ⟨actor, -, -, hc, rfl⟩
    · cases he
    have hnew : ∀ up ∈ t.pg.userProviders, up.id ≠ t.fresh := by
      simpa using hc _ (List.mem_cons_of_mem _ (List.mem_cons_self ..))
    exact ⟨rfl, @Pg.upserts_added t.pg ⟨t.fresh, userId, providerId, metadata, t.now, t.now⟩ hids
      hnew _⟩

/-! ### One statement -/

section

variable {nid : String} {pg : Pg} {s : LinkSession} {φ : LinkStage}

/-- A statement that only reads. -/
theorem LinkStage.Holds.kept {seen : Pg} {t : Tx} (h : φ.Holds nid pg s) (ht : t.pg = seen)
    (hactor : t.actor = s.actor) :
    φ.Holds nid pg ((s.wrote seen t).locking []) ∧ s.Grows ((s.wrote seen t).locking []) :=
  ⟨h.of_same rfl hactor (Session.wrote_own ht), .of_own (Session.wrote_own ht)⟩

theorem LinkStage.Holds.wrote_insertUser {id : Uuid} {metadata : Json} {user : User} {t : Tx}
    (h : (LinkStage.named id).Holds nid pg s) (hfits : varchar 10 nid = nid)
    (hexec : (s.tx pg (s.view pg)).insertUser id nid metadata = (.ok user, t)) :
    (LinkStage.identified user).Holds nid pg ((s.wrote (s.view pg) t).locking []) ∧
      s.Grows ((s.wrote (s.view pg) t).locking []) := by
  cases h with
  | named acts has =>
      simp only [Tx.insertUser, hfits] at hexec
      rcases Tx.write_cases hexec with ⟨e, he, -⟩ | ⟨actor, hok, ha, hc, rfl⟩
      · cases he
      obtain rfl := Except.ok.inj hok
      have hview : (s.tx pg (s.view pg)).pg.users = pg.users := has.view_users
      rw [hview] at hc
      simp only [List.forall_mem_cons, List.any_eq_false, decide_eq_true_eq] at hc
      obtain ⟨-, -, hid, hnid, -⟩ := hc
      have hnew : ∀ v ∈ [(⟨id, nid, metadata, s.now, s.now⟩ : User)], v ∉ (s.view pg).users := by
        intro v hv hmem
        rw [has.view_users] at hmem
        exact hid v hmem (by rw [List.mem_singleton.mp hv])
      have hhas := has.wrote (s.view pg) ({ s.tx pg (s.view pg) with
        pg := ({ s.view pg with users := (s.view pg).users ++ [⟨id, nid, metadata, s.now, s.now⟩] } :
          Pg).log [⟨"users", id, actor, .insert⟩] }) rfl (changed_append hnew) changed_self
          changed_self
      rw [supersede_nil, supersede_nil, supersede_of_subset (List.nil_subset _)] at hhas
      rw [Session.locking_nil]
      refine ⟨.identified acts ?_ ?_, Or.inr ⟨has.users, has.links, has.accounts⟩,
        Or.inr ⟨has.links, has.accounts⟩, Or.inr has.accounts⟩
      · exact hhas.users.symm ▸ hhas
      · refine hhas.users.symm ▸ .added ?_ (decide_eq_true rfl) ?_
        · exact List.find?_eq_none.mpr (fun u hu heq => hnid u hu (of_decide_eq_true heq))
        · intro hmem
          obtain ⟨u, hu, heq⟩ := List.mem_map.mp hmem
          exact hid u hu heq

/-- The versions of links that a transaction holds after the upsert. -/
theorem LinkStage.Holds.upserted_own {user : User} {metadata : Json} {t : Tx}
    (h : (LinkStage.identified user).Holds nid pg s)
    (hids : (pg.userProviders.map (·.id)).Nodup)
    (hexec : (s.tx pg (s.view pg)).upsertUserProvider user.id s.call.providerId metadata =
      (.ok (), t)) :
    let rows := t.pg.userProviders.filter (fun up => up.pair = (user.id, s.call.providerId))
    ((s.wrote (s.view pg) t).locking rows).own.userProviders = rows := by
  intro rows
  cases h with
  | identified acts has names =>
      have hview : (s.tx pg (s.view pg)).pg.userProviders = pg.userProviders := has.view_links
      obtain ⟨-, hups⟩ := Tx.upsertUserProvider_upserts (by rwa [hview]) hexec
      -- the rows that have changed are among those with the pair
      have hchanged : changed (s.view pg).userProviders t.pg.userProviders ⊆ rows := by
        intro l hl
        obtain ⟨hl, hnew⟩ := List.mem_filter.mp hl
        exact List.mem_filter.mpr
          ⟨hl, decide_eq_true ((hups.rows l hl).resolve_left (of_decide_eq_true hnew))⟩
      show supersede (·.id) (supersede (·.id) s.own.userProviders _) rows = rows
      rw [has.links, supersede_of_subset (List.nil_subset _)]
      exact supersede_of_subset hchanged

theorem LinkStage.Holds.wrote_upsert {user : User} {metadata : Json} {t : Tx}
    (h : (LinkStage.identified user).Holds nid pg s)
    (hids : (pg.userProviders.map (·.id)).Nodup)
    (hexec : (s.tx pg (s.view pg)).upsertUserProvider user.id s.call.providerId metadata =
      (.ok (), t)) :
    let rows := t.pg.userProviders.filter (fun up => up.pair = (user.id, s.call.providerId))
    (LinkStage.linked user).Holds nid pg ((s.wrote (s.view pg) t).locking rows) ∧
      s.Grows ((s.wrote (s.view pg) t).locking rows) := by
  intro rows
  have hown : ((s.wrote (s.view pg) t).locking rows).own.userProviders = rows :=
    h.upserted_own hids hexec
  cases h with
  | identified acts has names =>
      have hview : (s.tx pg (s.view pg)).pg.userProviders = pg.userProviders := has.view_links
      obtain ⟨hactor, hups⟩ := Tx.upsertUserProvider_upserts (by rwa [hview]) hexec
      have hmem : ∀ l, l ∈ rows ↔
          l ∈ t.pg.userProviders ∧ l.pair = (user.id, s.call.providerId) := by
        intro l
        rw [List.mem_filter, decide_eq_true_eq]
      have husers : t.pg.users = (s.view pg).users := by rw [hups.only]; rfl
      have haccounts : t.pg.userAccounts = (s.view pg).userAccounts := by rw [hups.only]; rfl
      have honly : t.pg = { s.view pg with
          users := t.pg.users
          userProviders := t.pg.userProviders
          userAccounts := t.pg.userAccounts
          auditLogs := t.pg.auditLogs } := by
        rw [husers, haccounts]
        exact hups.only
      have husers' : changed (s.view pg).users t.pg.users = [] := husers ▸ changed_self
      have haccounts' : changed (s.view pg).userAccounts t.pg.userAccounts = [] :=
        haccounts ▸ changed_self
      have hhas := has.wrote (s.view pg) t honly husers' rfl haccounts'
      rw [supersede_nil, supersede_nil, supersede_of_subset (List.nil_subset _)] at hhas
      refine ⟨.linked ⟨hactor.trans acts, ⟨rfl, rfl, hhas.accounts, hhas.providers, hhas.configs,
        hhas.items, hhas.transactions, hhas.systemAccounts⟩, hhas.users.symm ▸ names, ?_⟩,
        Or.inl hhas.users, Or.inr ⟨has.links, has.accounts⟩, Or.inr has.accounts⟩
      rw [hown]
      refine ⟨fun hnil => ?_, fun l hl => ((hmem l).mp hl).2, ?_, fun l hl r hr heq => ?_⟩
      · obtain ⟨l, hl, hpair⟩ := hups.linked
        have hl : l ∈ rows := (hmem l).mpr ⟨hl, hpair⟩
        rw [hnil] at hl
        cases hl
      · exact (List.filter_sublist.map _).nodup hups.ids
      · exact hups.sameRows l ((hmem l).mp hl).1 r (hview.symm ▸ hr) heq

theorem LinkStage.Holds.wrote_insertUserAccount {user : User} {id ledgerAccountId : Uuid}
    {account : UserAccount} {t : Tx} (h : (LinkStage.numbered user id).Holds nid pg s)
    (hexec : (s.tx pg (s.view pg)).insertUserAccount id user.id s.call.providerId ledgerAccountId =
      (.ok account, t)) :
    (LinkStage.settled user account).Holds nid pg ((s.wrote (s.view pg) t).locking []) ∧
      s.Grows ((s.wrote (s.view pg) t).locking []) := by
  cases h with
  | numbered links none =>
      obtain ⟨acts, has, names, link⟩ := links
      simp only [Tx.insertUserAccount] at hexec
      rcases Tx.write_cases hexec with ⟨e, he, -⟩ | ⟨actor, hok, ha, hc, rfl⟩
      · cases he
      obtain rfl := Except.ok.inj hok
      have hview : (s.tx pg (s.view pg)).pg.userAccounts = pg.userAccounts := has.view_accounts
      have hid : ∀ a ∈ pg.userAccounts, a.id ≠ id := by
        have hfirst := hc _ (List.mem_cons_self ..)
        rw [hview] at hfirst
        simpa using hfirst
      have hnew : ∀ a ∈ [(⟨id, user.id, s.call.providerId, ledgerAccountId, .active, s.now, s.now⟩ :
          UserAccount)], a ∉ (s.view pg).userAccounts := by
        intro a ha hmem
        rw [has.view_accounts] at hmem
        exact hid a hmem (by rw [List.mem_singleton.mp ha])
      have hhas := has.wrote (s.view pg) ({ s.tx pg (s.view pg) with
        pg := ({ s.view pg with userAccounts := (s.view pg).userAccounts ++
          [⟨id, user.id, s.call.providerId, ledgerAccountId, .active, s.now, s.now⟩] } :
          Pg).log [⟨"user_accounts", id, actor, .insert⟩] }) rfl changed_self changed_self
          (changed_append hnew)
      rw [supersede_nil, supersede_nil, supersede_of_subset (List.nil_subset _)] at hhas
      rw [Session.locking_nil]
      refine ⟨.settled ⟨acts, ?_, hhas.users.symm ▸ names, hhas.links.symm ▸ link⟩ ?_,
        Or.inl hhas.users, Or.inl hhas.links, Or.inr has.accounts⟩
      · exact ⟨rfl, rfl, rfl, hhas.providers, hhas.configs, hhas.items, hhas.transactions,
          hhas.systemAccounts⟩
      · refine hhas.accounts.symm ▸ .added none (decide_eq_true ⟨rfl, rfl⟩) ?_
        intro hmem
        obtain ⟨a, ha, heq⟩ := List.mem_map.mp hmem
        exact hid a ha heq

/-- **One statement** leads to the next stage. -/
theorem LinkStage.Holds.wrote {e : Sql} {row : e.Row} {t : Tx} (h : φ.Holds nid pg s)
    (hfits : varchar 10 nid = nid) (hids : (pg.userProviders.map (·.id)).Nodup)
    (he : φ.statement nid s.call = some e) (hgoing : e ≠ .commit)
    (hexec : Sql.exec e (s.tx pg (s.view pg)) = (.ok row, t)) :
    (φ.next e (.ok row)).Holds nid pg ((s.wrote (s.view pg) t).locking (e.upserted t.pg)) ∧
      s.Grows ((s.wrote (s.view pg) t).locking (e.upserted t.pg)) := by
  cases φ with
  | opened =>
      obtain rfl := Option.some.inj he
      obtain ⟨-, rfl⟩ := Prod.mk.inj hexec
      cases h with
      | opened has =>
          have hown : ((s.wrote (s.view pg) ((s.tx pg (s.view pg)).asActor s.call.actorId)).locking
              []).own = s.own := Session.wrote_own rfl
          exact ⟨.acting rfl (has.of_own hown), .of_own hown⟩
  | acting =>
      obtain rfl := Option.some.inj he
      obtain ⟨hrow, rfl⟩ := Prod.mk.inj hexec
      cases h with
      | acting acts has =>
          have hfind : pg.userByNid? nid = row := by
            rw [← Except.ok.inj hrow]
            show _ = (s.view pg).users.find? _
            rw [has.view_users]
            rfl
          cases row with
          | none => exact (LinkStage.Holds.missing acts has).kept rfl rfl
          | some user =>
              have hfound : (LinkStage.identified user).Holds nid pg s :=
                .identified acts (has.users.symm ▸ has) (has.users.symm ▸ .found hfind)
              exact hfound.kept rfl rfl
  | missing =>
      obtain rfl := Option.some.inj he
      obtain ⟨-, rfl⟩ := Prod.mk.inj hexec
      cases h with
      | missing acts has => exact (LinkStage.Holds.named acts has).kept rfl rfl
  | named id =>
      obtain rfl := Option.some.inj he
      exact h.wrote_insertUser hfits hexec
  | identified user =>
      obtain rfl := Option.some.inj he
      exact h.wrote_upsert hids hexec
  | linked user =>
      obtain rfl := Option.some.inj he
      obtain ⟨hrow, rfl⟩ := Prod.mk.inj hexec
      cases h with
      | linked links =>
          have hfind : pg.userAccount? user.id s.call.providerId = row := by
            rw [← Except.ok.inj hrow]
            show _ = (s.view pg).userAccounts.find? _
            rw [links.has.view_accounts]
            rfl
          cases row with
          | none => exact (LinkStage.Holds.unaccounted links hfind).kept rfl rfl
          | some account =>
              have hfound : (LinkStage.settled user account).Holds nid pg s :=
                .settled (links.has.accounts.symm ▸ links)
                  (links.has.accounts.symm ▸ .found hfind)
              exact hfound.kept rfl rfl
  | unaccounted user =>
      obtain rfl := Option.some.inj he
      obtain ⟨-, rfl⟩ := Prod.mk.inj hexec
      cases h with
      | unaccounted links none => exact (LinkStage.Holds.numbered links none).kept rfl rfl
  | numbered user id =>
      obtain rfl := Option.some.inj he
      exact h.wrote_insertUserAccount hexec
  | settled user account => exact absurd (Option.some.inj he).symm hgoing
  | committed user account => cases he
  | undone => cases he

/-! ### Commits -/

/-- A transaction that commits leaves the user, the link and the account. -/
theorem LinkStage.Holds.commit {user : User} {account : UserAccount}
    (h : (LinkStage.settled user account).Holds nid pg s) :
    (LinkStage.committed user account).Holds nid (s.view pg) s.ended := by
  cases h with
  | settled links names =>
      refine .committed (Session.holding_empty rfl) ?_ ?_ ?_
      · show (overlay (·.id) pg.users s.own.users).find? _ = some user
        rw [links.names.overlay_eq]
        exact links.names.find_eq
      · obtain ⟨l, hl⟩ := List.exists_mem_of_ne_nil _ links.link.nonempty
        obtain ⟨w, hw, hpair⟩ := exists_overlay_of_own (g := UserProvider.pair)
          links.link.sameRows hl
        exact ⟨w, hw, hpair.trans (links.link.pairs l hl)⟩
      · show (overlay (·.id) pg.userAccounts s.own.userAccounts).find? _ = some account
        rw [names.overlay_eq]
        exact names.find_eq

/-- The links keep their primary key. -/
theorem LinkStage.Holds.view_linkIds {user : User} {account : UserAccount}
    (h : (LinkStage.settled user account).Holds nid pg s)
    (hids : (pg.userProviders.map (·.id)).Nodup) :
    ((s.view pg).userProviders.map (·.id)).Nodup := by
  cases h with
  | settled links names => exact nodup_overlay hids links.link.ids

theorem LinkStage.Holds.view_providers {user : User} {account : UserAccount}
    (h : (LinkStage.settled user account).Holds nid pg s) :
    (s.view pg).providers = pg.providers := by
  cases h with
  | settled links names => exact links.has.view_providers

/-- **Nothing that another call commits** takes a stage back. -/
theorem LinkStage.Holds.elsewhere {o : LinkSession} {user : User} {account : UserAccount}
    (h : φ.Holds nid pg s) (ho : (LinkStage.settled user account).Holds nid pg o)
    (hapart : o.own.Apart s.own) : φ.Holds nid (o.view pg) s := by
  cases ho with
  | settled links names =>
      have husers : (o.view pg).users = pg.users ++ o.own.users := links.names.overlay_eq
      have haccounts : (o.view pg).userAccounts = pg.userAccounts ++ o.own.userAccounts :=
        names.overlay_eq
      have hnames : ∀ {v : User}, pg.NamesUser nid v s.own.users →
          (o.view pg).NamesUser nid v s.own.users := by
        intro v hv
        show FoundOrAdded _ _ (o.view pg).users _ _
        rw [husers]
        refine hv.append (fun u hu r hr => ?_)
        obtain ⟨hid, hnid⟩ := hapart.users u hu r hr
        have hr : r.nid = nid := of_decide_eq_true (hv.property hr)
        exact ⟨hid, decide_eq_false (fun heq => hnid (heq.trans hr.symm))⟩
      have hrows : ∀ {pair : Uuid × Uuid}, pg.Upserted pair s.own.userProviders →
          (o.view pg).Upserted pair s.own.userProviders := by
        rintro pair ⟨hne, hpairs, hids, hsame⟩
        refine ⟨hne, hpairs, hids, fun l hl r hr heq => ?_⟩
        rcases mem_overlay hr with hr | hr
        · exact hsame l hl r hr heq
        · exact absurd heq.symm (hapart.userProviders r hr l hl).1
      have hlinks : ∀ {v : User} {accounts : List UserAccount}, s.Links nid pg v accounts →
          s.Links nid (o.view pg) v accounts := fun hl =>
        ⟨hl.acts, hl.has, hnames hl.names, hrows hl.link⟩
      -- the upsert keeps others from the accounts of the pair
      have hnone : ∀ {v : User} {accounts : List UserAccount}, s.Links nid pg v accounts →
          pg.userAccount? v.id s.call.providerId = none →
          (o.view pg).userAccount? v.id s.call.providerId = none := by
        intro v accounts hl hnone
        show (o.view pg).userAccounts.find? _ = none
        rw [haccounts, List.find?_append, show pg.userAccounts.find? _ = none from hnone,
          Option.none_or]
        refine List.find?_eq_none.mpr (fun a ha heq => ?_)
        obtain ⟨hu, hp⟩ := of_decide_eq_true heq
        obtain ⟨hu', hp'⟩ := of_decide_eq_true (names.property ha)
        obtain ⟨l, hmem⟩ := List.exists_mem_of_ne_nil _ hl.link.nonempty
        obtain ⟨l', hmem'⟩ := List.exists_mem_of_ne_nil _ links.link.nonempty
        refine (hapart.userProviders l' hmem' l hmem).2 ?_
        rw [links.link.pairs l' hmem', hl.link.pairs l hmem, ← hu, ← hp]
        exact Prod.ext hu'.symm hp'.symm
      cases h with
      | opened has => exact .opened has
      | acting acts has => exact .acting acts has
      | missing acts has => exact .missing acts has
      | named acts has => exact .named acts has
      | identified acts has hv => exact .identified acts has (hnames hv)
      | linked hl => exact .linked (hlinks hl)
      | unaccounted hl none => exact .unaccounted (hlinks hl) (hnone hl none)
      | numbered hl none => exact .numbered (hlinks hl) (hnone hl none)
      | settled hl howns =>
          refine .settled (hlinks hl) ?_
          show FoundOrAdded _ _ (o.view pg).userAccounts _ _
          rw [haccounts]
          refine howns.append (fun a ha b hb => ?_)
          obtain ⟨hid, -, hpair⟩ := hapart.userAccounts a ha b hb
          obtain ⟨hu, hp⟩ := of_decide_eq_true (howns.property hb)
          refine ⟨hid, decide_eq_false (fun heq => hpair ?_)⟩
          exact Prod.ext (heq.1.trans hu.symm) (heq.2.trans hp.symm)
      | committed has hv hlink howns =>
          refine .committed has ?_ ?_ ?_
          · show (o.view pg).users.find? _ = _
            rw [husers, List.find?_append, show pg.users.find? _ = _ from hv, Option.some_or]
          · obtain ⟨l, hl, hpair⟩ := hlink
            obtain ⟨w, hw, hsame⟩ := exists_overlay_of_base (g := UserProvider.pair)
              links.link.sameRows hl
            exact ⟨w, hw, hsame.trans hpair⟩
          · show (o.view pg).userAccounts.find? _ = _
            rw [haccounts, List.find?_append, show pg.userAccounts.find? _ = _ from howns,
              Option.some_or]
      | undone has => exact .undone has

/-! ### What is not refused -/

end

/-- The tables take what the call gives them. -/
structure LinkCall.Acceptable (nid : String) (pg : Pg) (call : LinkCall) : Prop where
  nid : varcharOk 10 nid = true
  internalMetadata : jsonbOk call.internalMetadata.toList = true
  externalMetadata : jsonbOk call.externalMetadata.toList = true
  provider : ∃ p ∈ pg.providers, p.id = call.providerId

instance (nid : String) (pg : Pg) (call : LinkCall) : Decidable (call.Acceptable nid pg) :=
  decidable_of_iff
    (varcharOk 10 nid = true ∧ jsonbOk call.internalMetadata.toList = true ∧
      jsonbOk call.externalMetadata.toList = true ∧ ∃ p ∈ pg.providers, p.id = call.providerId)
    ⟨fun ⟨h₁, h₂, h₃, h₄⟩ => ⟨h₁, h₂, h₃, h₄⟩, fun h => ⟨h.1, h.2, h.3, h.4⟩⟩

/-- The UUIDs and the ledger account id that an `INSERT` adds are in no row yet. -/
def Sql.insertsNew (pg : Pg) (fresh : Uuid) : Sql → Bool
  | .insertUser id _ _ => pg.users.all (fun u => u.id ≠ id)
  | .upsertUserProvider .. => pg.userProviders.all (fun l => l.id ≠ fresh)
  | .insertUserAccount id _ _ ledgerAccountId =>
      pg.userAccounts.all (fun a => a.id ≠ id ∧ a.ledgerAccountId ≠ ledgerAccountId)
  | _ => true

/-- The user that an `INSERT` adds has been committed by another transaction. -/
def Sql.overtaken (pg : Pg) : Sql → Bool
  | .insertUser _ nid _ => pg.users.any (fun u => u.nid = varchar 10 nid)
  | _ => false

section

variable {nid : String} {pg : Pg} {s : LinkSession} {φ : LinkStage}

/-- **No constraint refuses** a statement with acceptable and new values whose user has not
been inserted by another transaction. -/
theorem LinkStage.Holds.exec_ok {e : Sql} (h : φ.Holds nid pg s)
    (he : φ.statement nid s.call = some e) (hacc : s.call.Acceptable nid pg)
    (hnew : e.insertsNew pg (s.uuid s.drawn) = true) (hfirst : e.overtaken pg = false) :
    ∃ row t, Sql.exec e (s.tx pg (s.view pg)) = (.ok row, t) := by
  obtain ⟨hnid, hinternal, hexternal, hprovider⟩ := hacc
  cases h with
  | opened has => obtain rfl := Option.some.inj he; exact ⟨_, _, rfl⟩
  | acting acts has => obtain rfl := Option.some.inj he; exact ⟨_, _, rfl⟩
  | missing acts has => obtain rfl := Option.some.inj he; exact ⟨_, _, rfl⟩
  -- only the three insertions can be refused; each check is met by one hypothesis
  | named acts has =>
      obtain rfl := Option.some.inj he
      simp only [Sql.exec, Tx.insertUser]
      refine ⟨_, _, Tx.write_ok acts ?_⟩
      have husers : (s.tx pg (s.view pg)).pg.users = pg.users := has.view_users
      rw [husers]
      simp only [Sql.insertsNew, List.all_eq_true, decide_eq_true_eq] at hnew
      simp only [Sql.overtaken, List.any_eq_false, decide_eq_true_eq,
        varchar_of_varcharOk hnid] at hfirst
      simpa [varchar_of_varcharOk hnid, hnid, hinternal] using ⟨hnew, hfirst⟩
  | @identified user acts has names =>
      obtain rfl := Option.some.inj he
      have hlinks : (s.tx pg (s.view pg)).pg.userProviders = pg.userProviders := has.view_links
      have hproviders : (s.tx pg (s.view pg)).pg.providers = pg.providers := has.view_providers
      have huser : ∃ u ∈ (s.tx pg (s.view pg)).pg.users, u.id = user.id :=
        ⟨user, names.mem_view, rfl⟩
      simp only [Sql.insertsNew, List.all_eq_true, decide_eq_true_eq] at hnew
      simp only [Sql.exec, Tx.upsertUserProvider]
      split
      · exact ⟨_, _, Tx.write_ok acts (by simpa using hexternal)⟩
      · refine ⟨_, _, Tx.write_ok (t := (s.tx pg (s.view pg)).draw) acts ?_⟩
        rw [hlinks, hproviders]
        simpa [hexternal] using ⟨hnew, huser, hprovider⟩
  | linked links => obtain rfl := Option.some.inj he; exact ⟨_, _, rfl⟩
  | unaccounted links none => obtain rfl := Option.some.inj he; exact ⟨_, _, rfl⟩
  | @numbered user id links none =>
      obtain rfl := Option.some.inj he
      obtain ⟨acts, has, names, link⟩ := links
      simp only [Sql.exec, Tx.insertUserAccount]
      refine ⟨_, _, Tx.write_ok acts ?_⟩
      have haccounts : (s.tx pg (s.view pg)).pg.userAccounts = pg.userAccounts := has.view_accounts
      have hproviders : (s.tx pg (s.view pg)).pg.providers = pg.providers := has.view_providers
      have huser : ∃ u ∈ (s.tx pg (s.view pg)).pg.users, u.id = user.id :=
        ⟨user, names.mem_view, rfl⟩
      have hpair : ∀ a ∈ pg.userAccounts,
          ¬(a.userId = user.id ∧ a.providerId = s.call.providerId) := by
        intro a ha heq
        exact List.find?_eq_none.mp none a ha (decide_eq_true heq)
      simp only [Sql.insertsNew, List.all_eq_true, decide_eq_true_eq] at hnew
      rw [haccounts, hproviders]
      simpa using ⟨fun a ha => (hnew a ha).1, fun a ha => (hnew a ha).2, by simpa using hpair,
        huser, hprovider⟩
  | settled links names => obtain rfl := Option.some.inj he; exact ⟨_, _, rfl⟩
  | committed has names link owns => cases he
  | undone has => cases he

/-- An `INSERT` of a user that another transaction has committed is refused. -/
theorem Session.exec_overtaken {e : Sql} (he : e.overtaken (s.view pg) = true) :
    ∃ error, Sql.exec e (s.tx pg (s.view pg)) = (.error error, s.tx pg (s.view pg)) := by
  cases e with
  | insertUser id nid metadata =>
      simp only [Sql.exec, Tx.insertUser]
      exact Tx.write_error (c := ((s.view pg).users.any (fun v => v.nid = varchar 10 nid),
        .uniqueViolation "users_nid_key")) (List.mem_cons_of_mem _ (List.mem_cons_of_mem _
        (List.mem_cons_of_mem _ (List.mem_cons_self ..)))) he
  | _ => cases he

end

end Wurzburg.Db
