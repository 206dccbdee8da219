import Wurzburg.System.Footprint
import Wurzburg.System.PriorityReplay

/-!
# Wurzburg.System.CacheContents

Where the values in Redis come from. Whatever fails, is lost, is cut off, expires
or is overtaken by another request: a value stands under the key of a user because
a `create_user_priority` of that user has created that very configuration, with the
items it was asked for (`cache_contents`). Two laws of the requests give this: only
that handler sets a key (`serve_allows`), and it sets it to what PostgreSQL answered
its own creation with (`serve_setsOwn`).
-/

namespace Wurzburg.System

open Wurzburg.Lib Wurzburg.Db Wurzburg.Tb Wurzburg.Api

/-! ### What a request publishes -/

/-- The configuration that the request has created, under the key of its user, with the
expiry it was asked for as of a time that it has read. -/
structure Publishes (env : Env) (userId : Uuid) (header : Option String)
    (payload : CreatePriorityRequest) (hist : History) (d : UserPriorityDetails) (at_ : Timestamp)
    (entry : String × RedisValue) : Prop where
  key : entry.1 = priorityKey userId
  value : entry.2.value = env.priorityToJson d
  ex : entry.2.ex = ttlSeconds payload.expiresAt at_
  read : payload.expiresAt = none ∨ (⟨.now, at_⟩ : Event Eff Eff.Resp) ∈ hist
  created : ∃ (idempotencyKey : String) (resolved : List ResolvedItem),
    usableKey header = some idempotencyKey ∧ resolved.map (·.item) = payload.priorities ∧
    (⟨.db (.createPriorityConfig idempotencyKey userId (resolved.map ResolvedItem.data)
      payload.expiresAt userId), .ok d⟩ : Event Eff Eff.Resp) ∈ hist

theorem Publishes.mono {env : Env} {userId : Uuid} {header : Option String}
    {payload : CreatePriorityRequest} {hist hist' : History} {d : UserPriorityDetails}
    {at_ : Timestamp} {entry : String × RedisValue}
    (h : Publishes env userId header payload hist d at_ entry) (hsub : hist ⊆ hist') :
    Publishes env userId header payload hist' d at_ entry where
  key := h.key
  value := h.value
  ex := h.ex
  read := h.read.imp_right (fun hmem => hsub hmem)
  created := by
    obtain ⟨idempotencyKey, resolved, hkey, hitems, hmem⟩ := h.created
    exact ⟨idempotencyKey, resolved, hkey, hitems, hsub hmem⟩

/-- A request sets a key only to what it publishes. -/
def SetsOwn (env : Env) (q : Request) (hist : History) : Eff → Prop
  | .redis (.set key value ex) => ∃ userId header payload d at_,
      q = .createUserPriority userId header payload ∧
        Publishes env userId header payload hist d at_ (key, ⟨value, ex⟩)
  | _ => True

/-- Effects that set no key. -/
def Eff.setsNothing : Eff → Prop
  | .redis (.set ..) => False
  | _ => True

theorem Eff.isRead.setsNothing {e : Eff} (h : e.isRead) : e.setsNothing := by
  cases e with
  | redis cmd => cases cmd <;> first | exact h.elim | trivial
  | _ => trivial

theorem Eff.setsNothing.setsOwn {env : Env} {q : Request} {hist : History} {e : Eff}
    (h : e.setsNothing) : SetsOwn env q hist e := by
  cases e with
  | redis cmd => cases cmd <;> first | exact h.elim | trivial
  | _ => trivial

section

variable {env : Env} {userId : Uuid} {header : Option String} {payload : CreatePriorityRequest}
  {hist : History} {key : String} {resolved : List ResolvedItem}

/-- The expiry is computed from a time that was read. -/
theorem ttlNow_reads {γ : Type} {post : History → Except HttpError γ → Prop}
    (expiresAt : Option Timestamp) :
    Prog.EndsE (fun h at_ => hist ⊆ h ∧
        (expiresAt = none ∨ (⟨.now, at_⟩ : Event Eff Eff.Resp) ∈ h)) post hist
      (ttlNow expiresAt) := by
  cases expiresAt with
  | none => exact ⟨List.Subset.refl _, Or.inl rfl⟩
  | some t =>
      exact fun at_ => ⟨List.subset_append_left _ _,
        Or.inr (List.mem_append_right _ (List.mem_singleton_self _))⟩

theorem quiet_setsOwn {q : Request} {α : Type} {x : Handler α}
    (hx : Prog.UsesE Eff.setsNothing x) : Prog.IssuesE (SetsOwn env q) hist x :=
  Prog.Issues.of_uses (fun _ _ he => he.setsOwn) hx

theorem publishPriority_setsOwn (hasks : AsksFor userId header payload hist key resolved) :
    Prog.IssuesE (SetsOwn env (.createUserPriority userId header payload)) hist
      (publishPriority env userId key resolved payload.expiresAt) := by
  refine (quiet_setsOwn (orFail_uses (perform_uses trivial))).bind
    (perform_ends (fun _ _ => trivial)) (fun h₁ d hh₁ => ?_)
  have hnow := (ttlNow_uses payload.expiresAt).mono (fun _ he => he.setsNothing)
  refine (quiet_setsOwn hnow).bind (ttlNow_reads _)
    (fun h₂ at_ ⟨hsub, hread⟩ => ⟨⟨userId, header, payload, d, at_, rfl, ?_⟩, fun r => ?_⟩)
  · refine ⟨rfl, rfl, rfl, hread, key, resolved, hasks.usable, hasks.resolved.1, hsub ?_⟩
    exact hh₁ ▸ List.mem_append_right _ (List.mem_singleton_self _)
  · cases r <;> trivial

theorem replacePriority_setsOwn (hasks : AsksFor userId header payload hist key resolved) :
    Prog.IssuesE (SetsOwn env (.createUserPriority userId header payload)) hist
      (replacePriority env userId key resolved payload.expiresAt) := by
  have hlater : ∀ new, AsksFor userId header payload (hist ++ new) key resolved :=
    fun new => hasks.mono (List.subset_append_left _ _)
  have hacquire : Prog.UsesE Eff.setsNothing (redis .acquire) := redis_uses trivial
  have hdel : Prog.UsesE Eff.setsNothing (redis (.del (priorityKey userId))) := redis_uses trivial
  refine (quiet_setsOwn hacquire).bind (redis_ends (fun _ _ => trivial)) ?_
  rintro h₁ _ rfl
  refine (quiet_setsOwn hdel).bind (redis_ends (fun _ _ => trivial)) ?_
  rintro h₂ _ rfl
  refine (quiet_setsOwn (db_uses trivial)).bind (db_ends (fun _ _ => trivial)) ?_
  rintro h₃ active rfl
  simp only [List.append_assoc]
  split
  · refine (quiet_setsOwn (db_uses trivial)).bind (db_ends (fun _ _ => trivial)) ?_
    rintro h₄ _ rfl
    simp only [List.append_assoc]
    exact publishPriority_setsOwn (hlater _)
  · exact publishPriority_setsOwn (hlater _)

theorem createUserPriority_setsOwn :
    Prog.IssuesE (SetsOwn env (.createUserPriority userId header payload)) hist
      (createUserPriority env userId header payload) := by
  have hread : ∀ {α : Type} {x : Handler α} {h : History}, Prog.UsesE Eff.isRead x →
      Prog.IssuesE (SetsOwn env (.createUserPriority userId header payload)) h x :=
    fun hx => quiet_setsOwn (hx.mono (fun _ he => he.setsNothing))
  unfold createUserPriority
  split
  · trivial
  · next hlisted =>
    refine (hread orElse_uses).bind (orElse_ends (fun _ _ => trivial)) (fun h₁ key hkey => ?_)
    have hknown : Prog.UsesE Eff.isRead (tryDb (.getPriorityConfigByIdempotencyKey key)) :=
      tryDb_uses trivial
    refine (hread hknown).bind tryDb_ends (fun h₂ known _ => ?_)
    split
    · trivial
    · refine (hread (checkItems_uses ..)).bind (checkItems_ends _ (fun _ _ => trivial)) ?_
      intro h₃ resolved hresolved
      refine replacePriority_setsOwn ⟨hkey.2, fun heq => hlisted ?_, hresolved⟩
      rw [heq]
      rfl

end

/-- A key is set only by `create_user_priority`, to the configuration it has created. -/
theorem serve_setsOwn (env : Env) (q : Request) : (serve env q).Issues (SetsOwn env q) [] := by
  by_cases hq : ∃ userId header payload, q = .createUserPriority userId header payload
  · obtain ⟨userId, header, payload, rfl⟩ := hq
    exact Prog.Issues.bind createUserPriority_setsOwn (Prog.Ends.of_forall
      (fun _ _ => trivial) _) (fun _ _ (_ : True) => trivial)
  · refine Prog.Issues.of_uses (fun _ e he => ?_) (serve_allows env q)
    cases e with
    | redis cmd =>
        cases cmd with
        | set key value ex =>
            obtain ⟨userId, header, payload, heq, -⟩ := he
            exact absurd ⟨userId, header, payload, heq⟩ hq
        | _ => trivial
    | _ => trivial

/-! ### What PostgreSQL holds of a creation -/

/-- A configuration that a creation was answered with is there, with the items it was
created with, each about an account of the user. -/
structure Created (pg : Pg) (key : String) (userId : Uuid) (items : List PriorityItemData)
    (expiresAt : Option Timestamp) (d : UserPriorityDetails) : Prop where
  config : ∃ row ∈ pg.configs, d.config.Later row
  rows : (pg.rowsOf d.config.id).map rowTerms = items.map dataTerms
  owner : d.config.userId = userId
  key : d.config.idempotencyKey = key
  expiry : d.config.expiresAt = expiresAt
  items : d.items.map itemTerms = items.map dataTerms
  accounts : ∀ item ∈ d.items, ∃ ua ∈ pg.userAccounts, ua.pair = (userId, item.providerId) ∧
    ua.ledgerAccountId = item.userLedgerAccountId

theorem Created.mono {pg pg' : Pg} {key : String} {userId : Uuid} {items : List PriorityItemData}
    {expiresAt : Option Timestamp} {d : UserPriorityDetails}
    (h : Created pg key userId items expiresAt d) (hg : Pg.Grows pg pg')
    (hc : Pg.Continues pg pg') : Created pg' key userId items expiresAt d where
  config := by
    obtain ⟨row, hrow, hlater⟩ := h.config
    obtain ⟨row', hrow', hlater'⟩ := hc.mem hrow
    exact ⟨row', hrow', hlater.trans hlater'⟩
  rows := by
    -- the rows of the items only gain deletion marks
    obtain ⟨row, hrow, hlater⟩ := h.config
    have hunmarked := hc.items row hrow
    rw [hlater.id_eq] at hunmarked
    have hterms : ∀ rows : List PriorityItemRow,
        rows.map rowTerms = (rows.map PriorityItemRow.unmarked).map rowTerms := by
      intro rows
      rw [List.map_map]
      rfl
    rw [hterms, hunmarked, ← hterms]
    exact h.rows
  owner := h.owner
  key := h.key
  expiry := h.expiry
  items := h.items
  accounts := fun item hitem => by
    obtain ⟨ua, hua, hrest⟩ := h.accounts item hitem
    exact ⟨ua, hg.userAccounts.subset hua, hrest⟩

/-- What a creation was answered with. -/
def CreatedFact (ev : Event Eff Eff.Resp) (w : World) : Prop :=
  ∀ key userId items expiresAt actor d,
    ev = ⟨.db (.createPriorityConfig key userId items expiresAt actor), .ok d⟩ →
    Created w.pg key userId items expiresAt d

theorem exec_createdFact {env : Env} {c c' : State} {capacity : Nat} {ch : Choice} {e : Eff}
    {r : e.Resp} (hc : Reachable env c) (hc' : Reachable env c')
    (hx : c.world.exec capacity ch e = some (r, c'.world)) : CreatedFact ⟨e, r⟩ c'.world := by
  intro key userId items expiresAt actor d hev
  obtain ⟨rfl, hr⟩ := Event.mk.inj hev
  obtain rfl := eq_of_heq hr
  obtain ⟨pg, n, htx, -, hw⟩ := World.dbApply_cases (World.dbExec_row hx).2
  rcases createPriorityConfig_cases with ⟨hadm, hcreate⟩ | ⟨e, m, -, hcreate⟩
  · obtain ⟨hd, hpg⟩ := Prod.mk.inj (hcreate.symm.trans htx)
    obtain rfl := Except.ok.inj hd
    have hpg' : c'.world.pg =
        c.world.pg.addPriority c.world.dbNow ch.uuid key userId actor items expiresAt := by
      rw [hw, ← (Prod.mk.inj hpg).1]
    have hmem : newConfig (ch.uuid 0) userId key expiresAt c.world.dbNow ∈ c'.world.pg.configs := by
      rw [hpg']
      unfold Pg.addPriority
      rw [Pg.addItems_configs]
      exact List.mem_append_right _ (List.mem_singleton_self _)
    obtain ⟨-, -, hrows⟩ := hc.priorities.addPriority hadm
    refine ⟨⟨_, hmem, .refl _⟩, ?_, rfl, rfl, rfl, ?_, fun item hitem => ?_⟩
    · rw [hpg']
      exact (congrArg (List.map rowTerms) hrows).trans (itemRows_terms ..)
    · exact addPriority_itemTerms hc.priorities hc.inv.tables hadm
    · refine hc'.itemsOwned.details hc'.priorities hc'.inv.tables hmem item ?_
      rw [hpg']
      exact hitem
  · obtain ⟨hd, -⟩ := Prod.mk.inj (hcreate.symm.trans htx)
    cases hd

/-- The second world comes after the first: it has grown, and its priority history goes on. -/
def ComesAfter (w w' : World) : Prop := Grows w w' ∧ Pg.Continues w.pg w'.pg

/-- A creation that a task was answered with is in the database from then on. -/
theorem Reachable.created {env : Env} {c : State} (h : Reachable env c) {t : Serving}
    (ht : t ∈ c.tasks) {key : String} {userId actor : Uuid} {items : List PriorityItemData}
    {expiresAt : Option Timestamp} {d : UserPriorityDetails}
    (hev : (⟨.db (.createPriorityConfig key userId items expiresAt actor), .ok d⟩ :
      Event Eff Eff.Resp) ∈ t.hist) : Created c.world.pg key userId items expiresAt d := by
  obtain ⟨now, hreach⟩ := h
  have hkeeps : ∀ (c : State) l c', Reachable env c → (machine env).step c l = some c' →
      Reachable env c' ∧ ComesAfter c.world c'.world := by
    intro c l c' hc hs
    obtain ⟨hc', hgrows⟩ := hc.step hs
    exact ⟨hc', hgrows, (step_priorities hc.priorities hs).2⟩
  have hfacts : ∀ t ∈ c.tasks,
      Machine.Remembers (fun _ ev w => CreatedFact ev w) t.hist c.world := by
    refine Machine.Reach.facts (P := Reachable env) (fun c l c' hc _ hs => hkeeps c l c' hc hs)
      ?_ (fun _ _ _ _ _ _ _ _ _ hc hc' _ _ hx => exec_createdFact hc hc' hx)
      (boot_reachable env now) rfl hreach
    intro _ _ ev w w' hg hfact key userId items expiresAt actor d hev
    exact (hfact key userId items expiresAt actor d hev).mono hg.1.pg hg.2
  obtain ⟨past, rest, heq⟩ := List.append_of_mem hev
  exact hfacts t ht past _ rest heq key userId items expiresAt actor d rfl

/-! ### What happens to Redis -/

theorem redisApply_mem {w : World} {cmd : RedisCmd} {entry : String × RedisValue}
    (h : entry ∈ (w.redisApply cmd).redis) : entry ∈ w.redis ∨
      ∃ key value ex, cmd = .set key value ex ∧ entry = (key, ⟨value, ex⟩) := by
  cases cmd with
  | acquire => exact Or.inl h
  | del key => exact Or.inl (List.mem_of_mem_filter h)
  | set key value ex =>
      rcases List.mem_cons.mp h with rfl | h
      · exact Or.inr ⟨key, value, ex, rfl, rfl⟩
      · exact Or.inl (List.mem_of_mem_filter h)

/-- Every key has one value. -/
theorem redisApply_nodup {w : World} {cmd : RedisCmd} (h : (w.redis.map Prod.fst).Nodup) :
    ((w.redisApply cmd).redis.map Prod.fst).Nodup := by
  cases cmd with
  | acquire => exact h
  | del key => exact h.sublist (List.filter_sublist.map _)
  | set key value ex =>
      refine List.nodup_cons.mpr ⟨fun hmem => ?_, h.sublist (List.filter_sublist.map _)⟩
      obtain ⟨entry, hentry, heq⟩ := List.mem_map.mp hmem
      have hne := of_decide_eq_true (List.mem_filter.mp hentry).2
      exact hne heq

theorem exec_redis {w w' : World} {capacity : Nat} {ch : Choice} {e : Eff} {r : e.Resp}
    (hx : w.exec capacity ch e = some (r, w')) :
    w'.redis = w.redis ∨ ∃ cmd, e = .redis cmd ∧ w'.redis = (w.redisApply cmd).redis := by
  cases exec_did hx with
  | nothing => exact Or.inl rfl
  | drew use ids => exact Or.inl rfl
  | db happly =>
      obtain ⟨pg, n, -, -, rfl⟩ := World.dbApply_cases happly
      exact Or.inl rfl
  | redis cmd => exact Or.inr ⟨cmd, rfl, rfl⟩
  | kafka cmd => exact Or.inl (by cases cmd <;> rfl)
  | sent request => exact Or.inl rfl

/-- By itself, the world at most drops a key. -/
theorem move_redis {tb : TigerBeetle} {n : Nat} {w w' : World} {v : Move}
    (hx : w.move tb n v = some w') : w'.redis.Sublist w.redis := by
  by_cases hv : ∃ key, v = .expire key
  · obtain ⟨key, rfl⟩ := hv
    simp only [World.move] at hx
    split at hx
    · obtain rfl := Option.some.inj hx
      exact List.filter_sublist
    · cases hx
  · obtain ⟨-, hredis⟩ := World.move_sparesPriorities hx (fun key heq => hv ⟨key, heq⟩)
    rw [hredis]

/-! ### Where the values come from -/

/-- A request of a user published the entry. -/
def PublishedBy (env : Env) (c : State) (entry : String × RedisValue) : Prop :=
  ∃ t ∈ c.tasks, ∃ userId header payload d at_,
    t.req = .createUserPriority userId header payload ∧
      Publishes env userId header payload t.hist d at_ entry

theorem PublishedBy.step {env : Env} {c c' : State} {l : Act} {entry : String × RedisValue}
    (h : PublishedBy env c entry) (hs : (machine env).step c l = some c') :
    PublishedBy env c' entry := by
  obtain ⟨t, ht, userId, header, payload, d, at_, hreq, hpub⟩ := h
  obtain ⟨i, hi⟩ := List.getElem?_of_mem ht
  have hrun : (machine env).Reach (fun _ _ => True) c c' := .tail .refl trivial hs
  obtain ⟨t', ht', hreq', hprefix⟩ := hrun.hist_prefix hi
  exact ⟨t', List.mem_of_getElem? ht', userId, header, payload, d, at_, hreq'.trans hreq,
    hpub.mono (List.IsPrefix.subset hprefix)⟩

/-- Redis in every reachable state. -/
theorem Reachable.redis {env : Env} {c : State} (h : Reachable env c) :
    (c.world.redis.map Prod.fst).Nodup ∧
      ∀ entry ∈ c.world.redis, PublishedBy env c entry := by
  obtain ⟨now, hreach⟩ := h
  refine (hreach.invariant (P := fun c => Reachable env c ∧
    (c.world.redis.map Prod.fst).Nodup ∧ ∀ entry ∈ c.world.redis, PublishedBy env c entry)
    ⟨boot_reachable env now, List.nodup_nil, fun _ h => by cases h⟩ ?_).2
  intro c l c' ⟨hc, hnodup, hall⟩ _ hs
  refine ⟨(hc.step hs).1, ?_⟩
  have hold : ∀ entry ∈ c.world.redis, PublishedBy env c' entry :=
    fun entry hentry => (hall entry hentry).step hs
  rcases (machine env).step_cases hs with ⟨q, rfl, rfl⟩ |
    ⟨i, ch, q, hist, e, k, r, w, rfl, ht, hx, rfl⟩ | ⟨i, q, hist, e, k, rfl, -, rfl⟩ |
    ⟨v, w, rfl, hx, rfl⟩
  · exact ⟨hnodup, hold⟩
  · rcases exec_redis hx with hsame | ⟨cmd, rfl, happlied⟩
    · exact ⟨hsame ▸ hnodup, fun entry hentry => hold entry (hsame ▸ hentry)⟩
    · refine ⟨happlied ▸ redisApply_nodup hnodup, fun entry hentry => ?_⟩
      rcases redisApply_mem (happlied ▸ hentry) with hmem | ⟨key, value, ex, rfl, rfl⟩
      · exact hold entry hmem
      · have ⟨now', hrun⟩ := hc
        obtain ⟨userId, header, payload, d, at_, hreq, hpub⟩ :=
          hrun.issues (serve_setsOwn env) rfl ht
        have hbefore : PublishedBy env c (key, ⟨value, ex⟩) :=
          ⟨_, List.mem_of_getElem? ht, userId, header, payload, d, at_, hreq, hpub⟩
        exact hbefore.step hs
  · exact ⟨hnodup, hold⟩
  · have hsub := move_redis hx
    exact ⟨hnodup.sublist (hsub.map _), fun entry hentry => hold entry (hsub.subset hentry)⟩

/-- The entry is what a creation for the user has published: its own configuration, as it
is in the database but for a cancellation since, with the requested items. -/
structure CachedFor (env : Env) (pg : Pg) (userId : Uuid) (header : Option String)
    (payload : CreatePriorityRequest) (d : UserPriorityDetails) (at_ : Timestamp)
    (entry : String × RedisValue) : Prop where
  key : entry.1 = priorityKey userId
  value : entry.2.value = env.priorityToJson d
  ex : entry.2.ex = ttlSeconds d.config.expiresAt at_
  asked : usableKey header = some d.config.idempotencyKey ∧
    d.config.expiresAt = payload.expiresAt
  confined : ConfinedTo pg userId payload.priorities d
  stored : ∃ row ∈ pg.configs, d.config.Later row ∧
    (pg.rowsOf row.id).map rowTerms = d.items.map itemTerms

/-- **Nobody's cached priority is another's, or made up.** In every reachable state, a key
of Redis has one value, and that is the configuration that a `create_user_priority` of the
key's user has created, with the items and the expiry it was asked for. -/
theorem cache_contents {env : Env} {c : State} (hc : Reachable env c) :
    (c.world.redis.map Prod.fst).Nodup ∧
    ∀ entry ∈ c.world.redis, ∃ t ∈ c.tasks, ∃ userId header payload,
      t.req = .createUserPriority userId header payload ∧
      ∃ d at_, (payload.expiresAt = none ∨
          (⟨.now, at_⟩ : Event Eff Eff.Resp) ∈ t.hist) ∧
        CachedFor env c.world.pg userId header payload d at_ entry := by
  obtain ⟨hnodup, hall⟩ := hc.redis
  refine ⟨hnodup, fun entry hentry => ?_⟩
  obtain ⟨t, ht, userId, header, payload, d, at_, hreq, hpub⟩ := hall entry hentry
  obtain ⟨idempotencyKey, resolved, hkey, hitems, hmem⟩ := hpub.created
  have hcreated := hc.created ht hmem
  refine ⟨t, ht, userId, header, payload, hreq, d, at_, hpub.read, hpub.key, hpub.value, ?_,
    ⟨?_, hcreated.expiry⟩, ⟨hcreated.owner, ?_, hcreated.accounts⟩, ?_⟩
  · rw [hcreated.expiry]
    exact hpub.ex
  · rw [hcreated.key]
    exact hkey
  · rw [hcreated.items, ← hitems, List.map_map, List.map_map]
    rfl
  · obtain ⟨row, hrow, hlater⟩ := hcreated.config
    refine ⟨row, hrow, hlater, ?_⟩
    rw [hlater.id_eq, hcreated.rows, hcreated.items]

/-- The priority of the example is cached, and no other. -/
theorem cache_contents_onePriority :
    onePriority.world.redis.map Prod.fst = [priorityKey ⟨1008⟩] ∧
    ∀ entry ∈ onePriority.world.redis, ∃ t ∈ onePriority.tasks, ∃ userId header payload,
      t.req = .createUserPriority userId header payload ∧
      ∃ d at_, (payload.expiresAt = none ∨
          (⟨.now, at_⟩ : Event Eff Eff.Resp) ∈ t.hist) ∧
        CachedFor defaultEnv onePriority.world.pg userId header payload d at_ entry :=
  ⟨by decide +kernel, (cache_contents onePriority_reachable).2⟩

end Wurzburg.System
