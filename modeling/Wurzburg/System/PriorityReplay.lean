import Wurzburg.System.PriorityRequests

/-!
# Wurzburg.System.PriorityReplay

Whose priority `create_user_priority` answers with. A configuration that it
creates is the requested one; one that it finds under the idempotency key is
whatever another request stored there, since the check looks at the key alone.
In runs in which a request finds only its own under its key, every answer is
confined to the user and the request (`replay_confined`).
-/

namespace Wurzburg.System

open Wurzburg.Lib Wurzburg.Db Wurzburg.Tb Wurzburg.Api

/-! ### Items of their owner -/

/-- The items of a configuration are about accounts of its user. -/
def ItemsOwned (pg : Pg) : Prop :=
  ∀ i ∈ pg.items, ∀ c ∈ pg.configs, c.id = i.configId →
    ∃ ua ∈ pg.userAccounts, ua.pair = (c.userId, i.providerId) ∧
      ua.ledgerAccountId = i.ledgerAccountId

theorem ItemsOwned.keep {pg pg' : Pg} (h : ItemsOwned pg) (hk : KeepsPriorities pg pg')
    (hg : Pg.Grows pg pg') : ItemsOwned pg' := by
  intro i hi c hc hci
  obtain ⟨ua, hua, hrest⟩ := h i (hk.items ▸ hi) c (hk.configs ▸ hc) hci
  exact ⟨ua, hg.userAccounts.subset hua, hrest⟩

theorem ItemsOwned.cancelActive {pg : Pg} (h : ItemsOwned pg) (userId actor : Uuid)
    (now : Timestamp) : ItemsOwned (pg.cancelActive userId actor now) := by
  intro i hi c hc hci
  rw [Pg.cancelActive_items] at hi
  rw [Pg.cancelActive_configs] at hc
  obtain ⟨d, hd, rfl⟩ := List.mem_map.mp hc
  have hlater := d.later_afterCancel userId now
  have huser : (d.afterCancel userId now).userId = d.userId := by rw [hlater.row]
  rw [(Pg.cancelActive_sameCore pg userId actor now).userAccounts, huser]
  exact h i hi d hd (hlater.id_eq.symm.trans hci)

/-- A creation whose items are about accounts of the user. -/
theorem ItemsOwned.addPriority {pg : Pg} (hp : Priorities pg) (h : ItemsOwned pg)
    {now : Timestamp} {uuid : Nat → Uuid} {key : String} {userId actor : Uuid}
    {items : List PriorityItemData} {expiresAt : Option Timestamp}
    (hadm : pg.AdmitsPriority now uuid key userId actor items expiresAt)
    (hitems : ∀ item ∈ items, ∃ ua ∈ pg.userAccounts, ua.pair = (userId, item.providerId) ∧
      ua.ledgerAccountId = item.userLedgerAccountId) :
    ItemsOwned (pg.addPriority now uuid key userId actor items expiresAt) := by
  have hcancelled := h.cancelActive userId actor now
  have hold := (hp.cancelActive userId actor now).itemConfig
  have hcore := (Pg.cancelActive_sameCore pg userId actor now).userAccounts
  have haccounts : (pg.addPriority now uuid key userId actor items expiresAt).userAccounts =
      pg.userAccounts := (Pg.addItems_userAccounts ..).trans hcore
  intro i hi c hc hci
  have hi : i ∈ (pg.cancelActive userId actor now).items ++ itemRows (uuid 0) now uuid 0 items :=
    Pg.withPriority_items .. ▸ hi
  have hc : c ∈ (pg.cancelActive userId actor now).configs ++
      [newConfig (uuid 0) userId key expiresAt now] := Pg.withPriority_configs .. ▸ hc
  rw [haccounts]
  rcases List.mem_append.mp hi with hi | hi
  · rcases List.mem_append.mp hc with hc | hc
    · rw [← hcore]
      exact hcancelled i hi c hc hci
    · -- an old item is not of the new configuration
      rw [List.mem_singleton.mp hc] at hci
      obtain ⟨d, hd, hdi⟩ := hold i hi
      exact absurd (hdi.trans hci.symm) (hadm.config.newId d hd)
  · have hnew := (mem_itemRows hi).1
    rcases List.mem_append.mp hc with hc | hc
    · exact absurd (hci.trans hnew) (hadm.config.newId c hc)
    · rw [List.mem_singleton.mp hc]
      rw [itemRows_eq] at hi
      obtain ⟨x, hx, rfl⟩ := List.mem_map.mp hi
      exact hitems x.1 (List.fst_mem_of_mem_zipIdx hx)

/-- **The items of every configuration are about accounts of its user**, in
every reachable state. -/
theorem Reachable.itemsOwned {env : Env} {c : State} (h : Reachable env c) :
    ItemsOwned c.world.pg := by
  obtain ⟨now, hreach⟩ := h
  refine (hreach.invariant (P := fun c => Reachable env c ∧ ItemsOwned c.world.pg)
    ⟨boot_reachable env now, fun i hi => by cases hi⟩ ?_).2
  intro c l c' ⟨hc, howned⟩ _ hs
  obtain ⟨hc', hg⟩ := hc.step hs
  refine ⟨hc', ?_⟩
  rcases (machine env).step_cases hs with ⟨q, rfl, rfl⟩ |
    ⟨i, ch, q, hist, e, k, r, w, rfl, ht, hx, rfl⟩ | ⟨i, q, hist, e, k, rfl, -, rfl⟩ |
    ⟨v, w, rfl, hx, rfl⟩
  · exact howned
  · have hsame : w.pg = c.world.pg → ItemsOwned w.pg := fun heq => heq ▸ howned
    rcases exec_pg hx with heq | ⟨call, rfl, r', happly⟩
    · exact hsame heq
    · obtain ⟨pg, n, htx, -, rfl⟩ := World.dbApply_cases happly
      rcases priorities_cases htx with hkeep | ⟨userId, actor, -, rfl⟩ |
        ⟨key, userId, items, expiresAt, actor, rfl, hadm, rfl⟩
      · exact howned.keep hkeep hg.pg
      · exact howned.cancelActive userId actor _
      · refine howned.addPriority hc.priorities hadm (fun item hitem => ?_)
        have ⟨now', hrun⟩ := hc
        obtain ⟨header, payload, rfl, resolved, rfl, hasks⟩ :=
          hrun.issues (serve_ownPriority env) rfl ht
        obtain ⟨r, hr, rfl⟩ := List.mem_map.mp hitem
        obtain ⟨details, hmem, hlid⟩ := hasks.resolved.2 r hr
        obtain ⟨ua, hua, hpair, heq⟩ := hc.detailsFact (List.mem_of_getElem? ht) hmem
        exact ⟨ua, hua, hpair, heq.trans hlid.symm⟩
  · exact howned
  · have heq : w.pg = c.world.pg := move_pg hx
    exact heq ▸ howned

/-! ### What an answer shows -/

/-- What is asked for one provider. -/
abbrev Terms := Uuid × Int × PriorityUsageType

def requestTerms (i : PriorityItemRequest) : Terms := (i.providerId, i.maxAmount, i.usageType)

def itemTerms (i : UserPriorityItem) : Terms := (i.providerId, i.maxAmount, i.usageType)

def dataTerms (i : PriorityItemData) : Terms := (i.providerId, i.maxAmount, i.usageType)

/-- The configuration is the user's, with the requested items in their order, each
about an account of the user. -/
structure ConfinedTo (pg : Pg) (userId : Uuid) (priorities : List PriorityItemRequest)
    (d : UserPriorityDetails) : Prop where
  owner : d.config.userId = userId
  items : d.items.map itemTerms = priorities.map requestTerms
  accounts : ∀ item ∈ d.items, ∃ ua ∈ pg.userAccounts, ua.pair = (userId, item.providerId) ∧
    ua.ledgerAccountId = item.userLedgerAccountId

theorem ConfinedTo.mono {pg pg' : Pg} {userId : Uuid} {priorities : List PriorityItemRequest}
    {d : UserPriorityDetails} (h : ConfinedTo pg userId priorities d) (hg : Pg.Grows pg pg') :
    ConfinedTo pg' userId priorities d where
  owner := h.owner
  items := h.items
  accounts := fun item hitem => by
    obtain ⟨ua, hua, hrest⟩ := h.accounts item hitem
    exact ⟨ua, hg.userAccounts.subset hua, hrest⟩

/-- A row with these terms. -/
def rowTerms (i : PriorityItemRow) : Terms := (i.providerId, i.maxAmount, i.usageType)

theorem itemRows_terms (configId : Uuid) (now : Timestamp) (uuid : Nat → Uuid) (index : Nat)
    (items : List PriorityItemData) :
    (itemRows configId now uuid index items).map rowTerms = items.map dataTerms := by
  induction items generalizing index with
  | nil => rfl
  | cons item items ih =>
      rw [itemRows, List.map_cons, List.map_cons, ih]
      rfl

/-- The items that are read of a configuration are about accounts of its user. -/
theorem ItemsOwned.details {pg : Pg} (h : ItemsOwned pg) (hp : Priorities pg) (ht : Tables pg)
    {c : UserPriorityConfig} (hc : c ∈ pg.configs) : ∀ item ∈ pg.itemsOf c.id,
      ∃ ua ∈ pg.userAccounts, ua.pair = (c.userId, item.providerId) ∧
        ua.ledgerAccountId = item.userLedgerAccountId := by
  intro item hitem
  obtain ⟨row, hrow, p, -, rfl⟩ := (hp.readAs_itemsOf ht.providerIds hc).1.mem hitem
  have hrow := List.mem_of_mem_filter hrow
  have hid : row.configId = c.id := by simpa using (List.mem_filter.mp hrow).2
  exact h row (List.mem_of_mem_filter hrow) c hc hid.symm

/-- A creation answers with the requested items. -/
theorem addPriority_itemTerms {pg : Pg} {now : Timestamp} {uuid : Nat → Uuid} {key : String}
    {userId actor : Uuid} {items : List PriorityItemData} {expiresAt : Option Timestamp}
    (hp : Priorities pg) (ht : Tables pg)
    (hadm : pg.AdmitsPriority now uuid key userId actor items expiresAt) :
    ((pg.addPriority now uuid key userId actor items expiresAt).itemsOf (uuid 0)).map itemTerms =
      items.map dataTerms := by
  obtain ⟨hp', -, hrows⟩ := hp.addPriority hadm
  have hproviders : (pg.addPriority now uuid key userId actor items expiresAt).providers =
      pg.providers :=
    (Pg.withPriority_providers ..).trans (Pg.cancelActive_sameCore pg userId actor now).providers
  have hc : newConfig (uuid 0) userId key expiresAt now ∈
      (pg.addPriority now uuid key userId actor items expiresAt).configs := by
    unfold Pg.addPriority
    rw [Pg.addItems_configs]
    exact List.mem_append_right _ (List.mem_singleton_self _)
  obtain ⟨hread, -⟩ := hp'.readAs_itemsOf (hproviders ▸ ht.providerIds) hc
  have hlive : (pg.addPriority now uuid key userId actor items expiresAt).liveRows (uuid 0) =
      itemRows (uuid 0) now uuid 0 items := by
    unfold Pg.liveRows
    rw [hrows]
    exact List.filter_eq_self.mpr (fun row hrow => by simpa using (mem_itemRows hrow).2)
  rw [← itemRows_terms (uuid 0) now uuid 0 items, ← hlive]
  exact hread.map_eq (fun _ _ => rfl)

/-! ### Requests that find their own -/

/-- The act lets a request find, under its key, only a configuration of its own
user with the items it asks for. -/
def ReplaysOwn (c : State) : Act → Prop
  | .step i ch => ∀ userId header payload hist key k,
      c.tasks[i]? = some ⟨.createUserPriority userId header payload, hist,
        some (.call (.db (.getPriorityConfigByIdempotencyKey key)) k)⟩ →
      ch.fault = .none → ∀ config, c.world.pg.configByKey? key = some config →
        config.userId = userId ∧
          (c.world.pg.itemsOf config.id).map itemTerms = payload.priorities.map requestTerms
  | _ => True

/-- What a request was given is its own. -/
def ReplayFact (q : Request) (_ : History) (ev : Event Eff Eff.Resp) (w : World) : Prop :=
  (∀ userId header payload key d, q = .createUserPriority userId header payload →
    ev = ⟨.db (.getPriorityConfigByIdempotencyKey key), .ok (some d)⟩ →
    ConfinedTo w.pg userId payload.priorities d) ∧
  ∀ key userId items expiresAt actor d priorities,
    ev = ⟨.db (.createPriorityConfig key userId items expiresAt actor), .ok d⟩ →
    items.map dataTerms = priorities.map requestTerms → ConfinedTo w.pg userId priorities d

theorem replaysOwn_facts {env : Env} {now : Timestamp} {c : State}
    (h : (machine env).Reach ReplaysOwn (boot env now) c) :
    ∀ t ∈ c.tasks, Machine.Remembers (ReplayFact t.req) t.hist c.world := by
  refine Reachable.facts (fun q _ ev w w' hg hfact => ⟨?_, ?_⟩) ?_ h
  · exact fun userId header payload key d hq hev =>
      (hfact.1 userId header payload key d hq hev).mono hg.pg
  · exact fun key userId items expiresAt actor d priorities hev hitems =>
      (hfact.2 key userId items expiresAt actor d priorities hev hitems).mono hg.pg
  intro c c' i ch q hist e k r hc hc' hok ht hx
  refine ⟨?_, ?_⟩
  · rintro userId header payload key d rfl hev
    obtain ⟨rfl, hr⟩ := Event.mk.inj hev
    obtain rfl := eq_of_heq hr
    obtain ⟨hfault, happly⟩ := World.dbExec_row hx
    obtain ⟨pg, n, htx, -, hw⟩ := World.dbApply_cases happly
    have hread := (getPriorityConfigByIdempotencyKey_transact key _ _ _).symm.trans htx
    obtain ⟨hfound, hsame⟩ := Prod.mk.inj hread
    obtain ⟨config, hconfig, rfl⟩ := Option.map_eq_some_iff.mp (Except.ok.inj hfound)
    obtain ⟨huser, hitems⟩ := hok userId header payload hist key k ht hfault config hconfig
    have hpg : c'.world.pg = c.world.pg := by
      rw [hw]
      exact (Prod.mk.inj hsame).1.symm
    rw [hpg]
    refine ⟨huser, hitems, fun item hitem => ?_⟩
    rw [← huser]
    exact hc.itemsOwned.details hc.priorities hc.inv.tables (List.mem_of_find?_eq_some hconfig)
      item hitem
  · intro key userId items expiresAt actor d priorities hev hitems
    obtain ⟨rfl, hr⟩ := Event.mk.inj hev
    obtain rfl := eq_of_heq hr
    obtain ⟨pg, n, htx, -, hw⟩ := World.dbApply_cases (World.dbExec_row hx).2
    rcases createPriorityConfig_cases with ⟨hadm, hcreate⟩ | ⟨e, m, -, hcreate⟩
    · obtain ⟨hd, hpg⟩ := Prod.mk.inj (hcreate.symm.trans htx)
      have hpg := (Prod.mk.inj hpg).1
      have hd := Except.ok.inj hd
      subst hd
      have hmem : newConfig (ch.uuid 0) userId key expiresAt c.world.dbNow ∈ c'.world.pg.configs := by
        rw [hw, ← hpg]
        show _ ∈ (c.world.pg.addPriority _ _ _ _ _ _ _).configs
        unfold Pg.addPriority
        rw [Pg.addItems_configs]
        exact List.mem_append_right _ (List.mem_singleton_self _)
      refine ⟨rfl, ?_, fun item hitem => ?_⟩
      · exact (addPriority_itemTerms hc.priorities hc.inv.tables hadm).trans hitems
      · have hpg' : c'.world.pg =
            c.world.pg.addPriority c.world.dbNow ch.uuid key userId actor items expiresAt := by
          rw [hw, ← hpg]
        refine hc'.itemsOwned.details hc'.priorities hc'.inv.tables hmem item ?_
        rw [hpg']
        exact hitem
    · obtain ⟨hd, -⟩ := Prod.mk.inj (hcreate.symm.trans htx)
      cases hd

/-- **An idempotent replay is confined to its owner and request**, in every run
in which a request finds only its own under its key. -/
theorem replay_confined {env : Env} {now : Timestamp} {c : State}
    (h : (machine env).Reach ReplaysOwn (boot env now) c) :
    ∀ t ∈ c.tasks, ∀ userId header payload status r,
      t.req = .createUserPriority userId header payload →
      t.answer? = some (.ok (status, .priority r)) →
      ConfinedTo c.world.pg userId payload.priorities r.data := by
  intro t ht userId header payload status r hq ha
  have hanswer := h.answer_ends (serve_answeredWith env) rfl ht ha userId header payload status r
    hq rfl
  have hfacts := replaysOwn_facts h t ht
  cases hanswer with
  | replayed key hmem =>
      obtain ⟨past, rest, heq⟩ := List.append_of_mem hmem
      exact (hfacts past _ rest heq).1 userId header payload key r.data hq rfl
  | created key expiresAt resolved before hresolved hmem =>
      obtain ⟨past, rest, heq⟩ := List.append_of_mem hmem
      refine (hfacts past _ rest heq).2 key userId _ expiresAt userId r.data payload.priorities rfl ?_
      rw [← hresolved.1, List.map_map, List.map_map]
      rfl

/-- A check that finds nothing finds nothing of others. -/
def replaysNothing (c : State) : Act → Bool
  | .step i _ =>
      match c.tasks[i]? with
      | some ⟨_, _, some (.call (.db (.getPriorityConfigByIdempotencyKey key)) _)⟩ =>
          (c.world.pg.configByKey? key).isNone
      | _ => true
  | _ => true

theorem replaysOwn_of_nothing {c : State} {l : Act} (h : replaysNothing c l = true) :
    ReplaysOwn c l := by
  cases l with
  | step i ch =>
      intro userId header payload hist key k ht _ config hconfig
      simp only [replaysNothing, ht, hconfig] at h
      simp at h
  | _ => trivial

theorem request_replaysOwn {env : Env} {c : State} {q : Request}
    (h : ((machine env).trace (requestPlan env c q) c).all (fun v => replaysNothing v.1 v.2) =
      true) : (machine env).Reach ReplaysOwn c (request env c q) :=
  Machine.reach_of_runAll (runAll_requestPlan env c q)
    (fun v hv => replaysOwn_of_nothing (List.all_eq_true.mp h v hv))

/-- The priority of the example is created. -/
def onePriority : State := request defaultEnv oneCredit createPriority

theorem onePriority_reachable : Reachable defaultEnv onePriority :=
  request_reachable oneCredit_reachable _

/-- Whose priority an answer shows. -/
def shownOwner? : Answer → Option Uuid
  | .ok (_, .priority r) => some r.data.config.userId
  | _ => none

theorem replay_confined_onePriority :
    ((onePriority.tasks[3]?.bind Task.answer?).bind shownOwner? = some ⟨1008⟩) ∧
    ∀ t ∈ onePriority.tasks, ∀ userId header payload status r,
      t.req = .createUserPriority userId header payload →
      t.answer? = some (.ok (status, .priority r)) →
      ConfinedTo onePriority.world.pg userId payload.priorities r.data := by
  have hruns : (onePriority.tasks[3]?.bind Task.answer?).bind shownOwner? = some ⟨1008⟩ ∧
      ∀ step ∈ [(boot defaultEnv 0, Request.createProvider sampleProvider),
          (oneProvider, .createOrLink ⟨"0012345678", ⟨1002⟩, none, none⟩),
          (oneUser, .creditUser ⟨1002⟩ ⟨1008⟩ ⟨⟨7⟩, 500, none⟩), (oneCredit, createPriority)],
        ((machine defaultEnv).trace (requestPlan defaultEnv step.1 step.2) step.1).all
          (fun v => replaysNothing v.1 v.2) = true := by
    decide +kernel
  obtain ⟨howner, hplans⟩ := hruns
  have h₁ : (machine defaultEnv).Reach ReplaysOwn (boot defaultEnv 0) oneProvider :=
    request_replaysOwn (hplans _ (.head _))
  have h₂ : (machine defaultEnv).Reach ReplaysOwn oneProvider oneUser :=
    request_replaysOwn (hplans _ (.tail _ (.head _)))
  have h₃ : (machine defaultEnv).Reach ReplaysOwn oneUser oneCredit :=
    request_replaysOwn (hplans _ (.tail _ (.tail _ (.head _))))
  have h₄ : (machine defaultEnv).Reach ReplaysOwn oneCredit onePriority :=
    request_replaysOwn (hplans _ (.tail _ (.tail _ (.tail _ (.head _)))))
  exact ⟨howner, @replay_confined defaultEnv 0 _ (((h₁.trans h₂).trans h₃).trans h₄)⟩

/-- A second user of the provider asks for a priority of 50 under the same key. -/
def foreignReplay : State :=
  request defaultEnv
    (request defaultEnv onePriority (.createOrLink ⟨"0087654321", ⟨1002⟩, none, none⟩))
    (.createUserPriority ⟨1016⟩ (some "k1") ⟨[⟨⟨1002⟩, 50, .multiUse⟩], none⟩)

/-- The second user is shown the priority of the first. -/
theorem foreignReplay_not_confined :
    ¬ ∀ (env : Env) (c : State), Reachable env c →
      ∀ t ∈ c.tasks, ∀ userId header payload status r,
        t.req = .createUserPriority userId header payload →
        t.answer? = some (.ok (status, .priority r)) →
        ConfinedTo c.world.pg userId payload.priorities r.data := by
  intro hall
  have hlast : foreignReplay.tasks[5]?.map Task.req = some (.createUserPriority ⟨1016⟩ (some "k1")
        ⟨[⟨⟨1002⟩, 50, .multiUse⟩], none⟩) ∧
      (foreignReplay.tasks[5]?.bind Task.answer?).bind shownOwner? = some ⟨1008⟩ := by
    decide +kernel
  obtain ⟨a, ha, howner⟩ := Option.bind_eq_some_iff.mp hlast.2
  obtain ⟨t, ht, hq, ha⟩ := exists_task hlast.1 ha
  have hreach : Reachable defaultEnv foreignReplay :=
    request_reachable (request_reachable onePriority_reachable _) _
  unfold shownOwner? at howner
  split at howner
  · next status r =>
      have hconfined := hall defaultEnv _ hreach t ht _ _ _ _ _ hq ha
      rw [hconfined.owner] at howner
      exact absurd howner (by decide)
  · cases howner

end Wurzburg.System
