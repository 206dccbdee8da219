import Wurzburg.System.PriorityRequests
import Wurzburg.System.Provisioning

/-!
# Wurzburg.System.PriorityExpiry

The expiry of priorities. Redis lets the cached configuration expire by its
`EX`, which `create_user_priority` sets only when a whole second is left; in
PostgreSQL nothing expires, `get_active_priority_config` does not look at
`expires_at` and no statement sets a configuration to `EXPIRED`.
-/

namespace Wurzburg.System

open Wurzburg.Lib Wurzburg.Db Wurzburg.Tb Wurzburg.Api

/-! ### The key in Redis -/

/-- What the last command on the key of a user stored there, if it was a `SET`: its `EX`. -/
def leftStored (u : Uuid) (hist : History) : Option (Option Nat) :=
  (hist.reverse.findSome? (fun ev =>
    match ev.eff with
    | .redis (.set key _ ex) => if key = priorityKey u then some (some ex) else none
    | .redis (.del key) => if key = priorityKey u then some none else none
    | _ => none)).join

/-- The key is not left stored, or with an `EX` of at most the time that is left. -/
def ExpiresInTime (u : Uuid) (e at_ : Timestamp) (hist : History) : Prop :=
  ∀ ex, leftStored u hist = some ex → ∃ n : Nat, ex = some n ∧ seconds n ≤ max 0 (e - at_)

/-- The request read the clock and then stored the key. -/
def PublishedAt (u : Uuid) (at_ : Timestamp) (ex : Option Nat) (hist : History) : Prop :=
  ∃ before value,
    hist = before ++ [⟨.now, at_⟩, ⟨.redis (.set (priorityKey u) value ex), .ok ()⟩]

theorem PublishedAt.leftStored {u : Uuid} {at_ : Timestamp} {ex : Option Nat} {hist : History}
    (h : PublishedAt u at_ ex hist) : leftStored u hist = some ex := by
  obtain ⟨before, value, rfl⟩ := h
  simp [System.leftStored]

/-- Whole seconds are left from one second on. -/
theorem tdiv_pos_iff {d : Int} : 0 < d.tdiv 1000000 ↔ seconds 1 ≤ d := by
  unfold seconds
  by_cases hd : 0 ≤ d
  · rw [Int.tdiv_eq_ediv_of_nonneg hd]
    omega
  · have hneg : 0 ≤ (-d).tdiv 1000000 := Int.tdiv_nonneg (by omega) (by omega)
    rw [Int.neg_tdiv] at hneg
    omega

/-- The key gets an `EX` exactly when a second is left, and it is not more than what is left. -/
theorem ttlSeconds_inTime (e at_ : Timestamp) :
    (∃ n : Nat, ttlSeconds (some e) at_ = some n ∧ seconds n ≤ max 0 (e - at_)) ↔
      seconds 1 ≤ e - at_ := by
  simp only [ttlSeconds]
  by_cases hpos : 0 < (e - at_).tdiv 1000000
  · have hleft := tdiv_pos_iff.mp hpos
    rw [if_pos hpos]
    refine ⟨fun _ => hleft, fun _ => ⟨_, rfl, ?_⟩⟩
    unfold seconds at hleft ⊢
    rw [Int.tdiv_eq_ediv_of_nonneg (by omega)] at hpos ⊢
    omega
  · rw [if_neg hpos]
    constructor
    · rintro ⟨n, hn, -⟩
      cases hn
    · intro hleft
      exact absurd (tdiv_pos_iff.mpr hleft) hpos

/-- The request keeps what it asked for exactly when a second is left. -/
theorem PublishedAt.expiresInTime_iff {u : Uuid} {e at_ : Timestamp} {hist : History}
    (h : PublishedAt u at_ (ttlSeconds (some e) at_) hist) :
    ExpiresInTime u e at_ hist ↔ seconds 1 ≤ e - at_ := by
  rw [← ttlSeconds_inTime]
  unfold ExpiresInTime
  rw [h.leftStored]
  constructor
  · intro hall
    exact hall _ rfl
  · rintro ⟨n, hn, hle⟩ ex hex
    exact ⟨n, (Option.some.inj hex).symm.trans hn, hle⟩

section

variable {env : Env} {u : Uuid} {γ : Type} {hist : History} {e : Timestamp}
  {post : History → Except HttpError γ → Prop}

/-- An answer of 201 comes after the clock was read and the key was stored. -/
def StoredIfCreated (u : Uuid) (e : Timestamp) (hist : History)
    (out : StatusCode × PriorityConfigResponse) : Prop :=
  out.1 = .created → ∃ at_, PublishedAt u at_ (ttlSeconds (some e) at_) hist

theorem publishPriority_published (hpost : ∀ h e, post h (.error e)) (key : String)
    (resolved : List ResolvedItem) :
    Prog.EndsE (StoredIfCreated u e) post hist
      (publishPriority env u key resolved (some e)) := by
  refine (perform_ends hpost).bind (fun h₁ d _ => now_ends.bind (fun h₂ at_ hh₂ => ?_))
  refine (redis_ends hpost).bind (fun h₃ _ hh₃ => ?_)
  intro _
  refine ⟨at_, h₁, env.priorityToJson d, ?_⟩
  rw [hh₃, hh₂, List.append_assoc]
  rfl

theorem replacePriority_published (hpost : ∀ h e, post h (.error e)) (key : String)
    (resolved : List ResolvedItem) :
    Prog.EndsE (StoredIfCreated u e) post hist
      (replacePriority env u key resolved (some e)) := by
  refine (redis_ends hpost).bind (fun h₁ _ _ => (redis_ends hpost).bind (fun h₂ _ _ => ?_))
  refine (db_ends hpost).bind (fun h₃ active _ => ?_)
  split
  · exact (db_ends hpost).bind (fun h₄ _ _ => publishPriority_published hpost key resolved)
  · exact publishPriority_published hpost key resolved

theorem createUserPriority_published (hpost : ∀ h e, post h (.error e)) (header : Option String)
    {payload : CreatePriorityRequest} (he : payload.expiresAt = some e) :
    Prog.EndsE (StoredIfCreated u e) post hist (createUserPriority env u header payload) := by
  unfold createUserPriority
  split
  · exact hpost _ _
  · refine (orElse_ends hpost).bind (fun h₁ key _ => tryDb_ends.bind (fun h₂ known _ => ?_))
    have hrest : Prog.EndsE (StoredIfCreated u e) post h₂
        (checkItems u payload.priorities >>= fun resolved =>
          replacePriority env u key resolved payload.expiresAt) := by
      rw [he]
      exact (checkItems_ends payload.priorities hpost).bind (fun h₃ resolved _ =>
        replacePriority_published hpost key resolved)
    cases known with
    | error e => exact hrest
    | ok known =>
        cases known with
        | none => exact hrest
        | some d =>
            intro hcreated
            cases hcreated

end

/-- Every answer of 201 to a request with an expiry comes about like this. -/
theorem serve_published (env : Env) (q : Request) :
    (serve env q).Ends (fun hist a => ∀ u header payload e body,
      q = .createUserPriority u header payload → payload.expiresAt = some e →
      a = .ok (.created, body) →
      ∃ at_, PublishedAt u at_ (ttlSeconds (some e) at_) hist) [] := by
  cases q with
  | createUserPriority u header payload =>
      cases he : payload.expiresAt with
      | none =>
          refine Prog.Ends.of_forall (fun hist a u' header' payload' e body hq he' => ?_) _
          obtain ⟨rfl, rfl, rfl⟩ := Request.createUserPriority.inj hq
          rw [he] at he'
          cases he'
      | some e =>
          have hends : Prog.EndsE (StoredIfCreated u e)
              (fun _ (_ : Except HttpError (StatusCode × PriorityConfigResponse)) => True) []
              (createUserPriority env u header payload) :=
            createUserPriority_published (fun _ _ => trivial) header he
          refine answerWith_ends hends ?_ ?_
          · intro hist out hout u' header' payload' e' body hq he' ha
            obtain ⟨rfl, rfl, rfl⟩ := Request.createUserPriority.inj hq
            obtain rfl : e = e' := Option.some.inj (he.symm.trans he')
            exact hout (Prod.mk.inj (Except.ok.inj ha)).1
          · intro hist e _ _ _ _ _ _ _ _ ha
            cases ha
  | _ => exact Prog.Ends.of_forall (fun _ _ _ _ _ _ _ hq => by cases hq) _

/-! ### The configuration in force -/

/-- The configuration has expired by this time. -/
def HasExpired (c : UserPriorityConfig) (t : Timestamp) : Prop := ∃ e, c.expiresAt = some e ∧ e ≤ t

/-- `get_active_priority_config` returns, at this time, a configuration that has expired. -/
def ReturnsExpired (pg : Pg) (u : Uuid) (t : Timestamp) : Prop :=
  ∃ (uuid : Nat → Uuid) (d : UserPriorityDetails),
    ((getActivePriorityConfig u).transact pg t uuid).1 = .ok (some d) ∧ HasExpired d.config t

/-- No configuration of the user is active past its expiry. -/
def NoneOverdue (pg : Pg) (u : Uuid) (t : Timestamp) : Prop :=
  ∀ c ∈ pg.configs, c.userId = u → c.status = .active → ¬ HasExpired c t

/-- Whatever is active is returned, expired or not. -/
theorem returnsExpired_iff {pg : Pg} (hp : Priorities pg) (u : Uuid) (t : Timestamp) :
    ¬ ReturnsExpired pg u t ↔ NoneOverdue pg u t := by
  constructor
  · intro hnone c hc hu hactive hexpired
    have hcurrent : Pg.isCurrent u c = true := by simp [Pg.isCurrent, hu, hactive, hp.kept c hc]
    obtain ⟨d, hd⟩ : ∃ d, pg.activeConfig? u = some d := by
      have hfound : (pg.activeConfig? u).isSome := List.find?_isSome.mpr ⟨c, hc, hcurrent⟩
      exact Option.isSome_iff_exists.mp hfound
    have hcur : d.userId = u ∧ d.status = .active ∧ d.isDeleted = false := by
      simpa [Pg.isCurrent] using List.find?_some hd
    obtain rfl : c = d := hp.active_unique hc (List.mem_of_find?_eq_some hd)
      (hu.trans hcur.1.symm) hactive hcur.2.1
    refine hnone ⟨fun _ => u, ⟨c, pg.itemsOf c.id⟩, ?_, hexpired⟩
    rw [getActivePriorityConfig_transact, Pg.activeDetails?, hd]
    rfl
  · rintro hnone ⟨uuid, d, hread, hexpired⟩
    rw [getActivePriorityConfig_transact] at hread
    obtain ⟨c, hfound, rfl⟩ := Option.map_eq_some_iff.mp (Except.ok.inj hread)
    have hcur : c.userId = u ∧ c.status = .active ∧ c.isDeleted = false := by
      simpa [Pg.isCurrent] using List.find?_some hfound
    exact hnone c (List.mem_of_find?_eq_some hfound) hcur.1 hcur.2.1 hexpired

/-! ### Runs in which nothing outlives its expiry -/

/-- The clock does not reach the expiry of what is active, and what is created has not
expired yet. -/
def InTime (c : State) : Act → Prop
  | .env (.clock _ db) => ∀ u, NoneOverdue c.world.pg u (c.world.dbNow + db)
  | .step i ch => ∀ q hist key u items e actor k,
      c.tasks[i]? = some ⟨q, hist,
        some (.call (.db (.createPriorityConfig key u items (some e) actor)) k)⟩ →
      c.world.pg.AdmitsPriority c.world.dbNow ch.uuid key u actor items (some e) →
      c.world.dbNow < e
  | _ => True

section

variable {env : Env} {pg : Pg} {u : Uuid} {t : Timestamp}

theorem NoneOverdue.congr {pg' : Pg} (h : NoneOverdue pg u t) (heq : pg'.configs = pg.configs) :
    NoneOverdue pg' u t := by
  unfold NoneOverdue
  rw [heq]
  exact h

theorem NoneOverdue.cancelActive (h : NoneOverdue pg u t) (userId actor : Uuid) (now : Timestamp) :
    NoneOverdue (pg.cancelActive userId actor now) u t := by
  intro c hc hu hactive
  rw [Pg.cancelActive_configs] at hc
  obtain ⟨d, hd, rfl⟩ := List.mem_map.mp hc
  have hsame := UserPriorityConfig.afterCancel_active hactive
  rw [hsame] at hu hactive ⊢
  exact h d hd hu hactive

theorem NoneOverdue.addPriority (h : NoneOverdue pg u t) {now : Timestamp} {uuid : Nat → Uuid}
    {key : String} {userId actor : Uuid} {items : List PriorityItemData}
    {expiresAt : Option Timestamp} (hnew : ∀ e, expiresAt = some e → t < e) :
    NoneOverdue (pg.addPriority now uuid key userId actor items expiresAt) u t := by
  intro c hc hu hactive
  rcases List.mem_append.mp (Pg.withPriority_configs .. ▸ hc) with hc | hc
  · exact h.cancelActive userId actor now c hc hu hactive
  · rw [List.mem_singleton.mp hc]
    rintro ⟨e, he, hle⟩
    exact absurd hle (Int.not_le.mpr (hnew e he))

/-- Only the clock moves the time of the database. -/
theorem move_dbNow {tb : TigerBeetle} {n : Nat} {w w' : World} {v : Move}
    (hx : w.move tb n v = some w') :
    w'.dbNow = w.dbNow ∨ ∃ app db, v = .clock app db ∧ w'.dbNow = w.dbNow + db := by
  cases v with
  | clock app db =>
      obtain rfl := Option.some.inj hx
      exact Or.inr ⟨app, db, rfl, rfl⟩
  | receive o =>
      obtain ⟨cmd, rest, -, rfl⟩ := World.receive_cases hx
      exact Or.inl rfl
  | tick o =>
      simp only [World.move] at hx
      split at hx
      · obtain rfl := Option.some.inj hx
        exact Or.inl rfl
      · cases hx
  | expire key =>
      simp only [World.move] at hx
      split at hx
      · obtain rfl := Option.some.inj hx
        exact Or.inl rfl
      · cases hx
  | _ =>
      obtain rfl := Option.some.inj hx
      exact Or.inl rfl

/-- An act in time leaves nothing overdue. -/
theorem step_noneOverdue {c c' : State} {l : Act}
    (h : ∀ u, NoneOverdue c.world.pg u c.world.dbNow) (hok : InTime c l)
    (hs : (machine env).step c l = some c') : ∀ u, NoneOverdue c'.world.pg u c'.world.dbNow := by
  intro u
  rcases (machine env).step_cases hs with ⟨q, rfl, rfl⟩ |
    ⟨i, ch, q, hist, e, k, r, w, rfl, ht, hx, rfl⟩ | ⟨i, q, hist, e, k, rfl, -, rfl⟩ |
    ⟨v, w, rfl, hx, rfl⟩
  · exact h u
  · obtain ⟨-, -, hnow⟩ := exec_frame hx
    show NoneOverdue w.pg u w.dbNow
    rw [hnow]
    rcases exec_pg hx with heq | ⟨call, rfl, r', happly⟩
    · rw [heq]
      exact h u
    · obtain ⟨pg, n, htx, -, rfl⟩ := World.dbApply_cases happly
      rcases priorities_cases htx with hkeep | ⟨userId, actor, -, rfl⟩ |
        ⟨key, userId, items, expiresAt, actor, rfl, hadm, rfl⟩
      · exact (h u).congr hkeep.configs
      · exact (h u).cancelActive userId actor _
      · refine (h u).addPriority (fun e he => ?_)
        subst he
        exact hok q hist key userId items e actor k ht hadm
  · exact h u
  · show NoneOverdue w.pg u w.dbNow
    have hpg : w.pg = c.world.pg := move_pg hx
    rw [hpg]
    rcases move_dbNow hx with hnow | ⟨app, db, rfl, hnow⟩
    · rw [hnow]
      exact h u
    · rw [hnow]
      exact hok u

end

/-- A request answered 201 has let the key expire in time exactly when a whole second was
left; a read returns what has expired exactly when something active has; and in a run
whose acts are all in time, no read does. -/
theorem expires_iff {env : Env} {c : State} (h : Reachable env c) :
    (∀ t ∈ c.tasks, ∀ u header payload e body, t.req = .createUserPriority u header payload →
      payload.expiresAt = some e → t.answer? = some (.ok (.created, body)) →
      ∃ at_, (∃ ex, PublishedAt u at_ ex t.hist) ∧
        (ExpiresInTime u e at_ t.hist ↔ seconds 1 ≤ e - at_)) ∧
    (∀ u t, ¬ ReturnsExpired c.world.pg u t ↔ NoneOverdue c.world.pg u t) ∧
    ((∀ u, NoneOverdue c.world.pg u c.world.dbNow) → ∀ c', (machine env).Reach InTime c c' →
      ∀ u, ¬ ReturnsExpired c'.world.pg u c'.world.dbNow) := by
  refine ⟨?_, returnsExpired_iff h.priorities, ?_⟩
  · intro t ht u header payload e body hq he ha
    obtain ⟨now, hreach⟩ := h
    obtain ⟨at_, hpublished⟩ := hreach.answer_ends (serve_published env) rfl ht ha
      u header payload e body hq he rfl
    exact ⟨at_, ⟨_, hpublished⟩, hpublished.expiresInTime_iff⟩
  · intro hnone c' hreach u
    have hkept : ∀ u, NoneOverdue c'.world.pg u c'.world.dbNow :=
      hreach.invariant (P := fun c => ∀ u, NoneOverdue c.world.pg u c.world.dbNow) hnone
        (fun _ _ _ hc hok hs => step_noneOverdue hc hok hs)
    have hpriorities : Priorities c'.world.pg :=
      hreach.invariant (P := fun c => Priorities c.world.pg) h.priorities
        (fun _ _ _ hp _ hs => (step_priorities hp hs).1)
    exact (returnsExpired_iff hpriorities u _).mpr (hkept u)

/-! ### A second and a half, and half a second -/

/-- A priority of 100 at the provider of the user, with this expiry. -/
def createExpiring (e : Timestamp) : Request :=
  .createUserPriority ⟨1008⟩ (some "k1") ⟨[⟨⟨1002⟩, 100, .multiUse⟩], some e⟩

/-- The reading of the clock that an event is. -/
def clockReading : Event Eff Eff.Resp → Option Timestamp
  | ⟨.now, t⟩ => some t
  | _ => none

theorem PublishedAt.mem_readings {u : Uuid} {at_ : Timestamp} {ex : Option Nat} {hist : History}
    (h : PublishedAt u at_ ex hist) : at_ ∈ hist.filterMap clockReading := by
  obtain ⟨before, value, rfl⟩ := h
  rw [List.filterMap_append]
  exact List.mem_append_right _ (List.mem_cons_self ..)

/-- A request answered 201, found by its position. -/
theorem exists_created {c : State} {i : Nat} {q : Request}
    (hq : c.tasks[i]?.map Task.req = some q)
    (ha : (c.tasks[i]?.bind Task.answer?).bind (·.toOption.map Prod.fst) = some .created) :
    ∃ t body, c.tasks[i]? = some t ∧ t.req = q ∧ t.answer? = some (.ok (.created, body)) := by
  obtain ⟨t, ht, hreq⟩ := Option.map_eq_some_iff.mp hq
  rw [ht] at ha
  obtain ⟨a, hanswer, hcreated⟩ := Option.bind_eq_some_iff.mp ha
  cases a with
  | error e => cases hcreated
  | ok out =>
      obtain ⟨status, body⟩ := out
      obtain rfl : status = .created := Option.some.inj hcreated
      exact ⟨t, body, ht, hreq, hanswer⟩

/-- The service after a priority with a second and a half was created. -/
def secondAndHalf : State := request defaultEnv oneCredit (createExpiring 1500000)

theorem secondAndHalf_scene :
    secondAndHalf.tasks[3]?.map Task.req = some (createExpiring 1500000) ∧
    (secondAndHalf.tasks[3]?.bind Task.answer?).bind (·.toOption.map Prod.fst) = some .created ∧
    secondAndHalf.tasks[3]?.map (fun t => t.hist.filterMap clockReading) = some [0] ∧
    secondAndHalf.world.pg.configs.map (fun c => (c.userId, c.status, c.expiresAt)) =
      [(⟨1008⟩, .active, some 1500000)] := by
  decide +kernel

/-- The key expires in time, and reads return the configuration until then and after. -/
theorem expires_iff_secondAndHalf :
    (∃ t ∈ secondAndHalf.tasks, ∃ at_, (∃ ex, PublishedAt ⟨1008⟩ at_ ex t.hist) ∧
      ExpiresInTime ⟨1008⟩ 1500000 at_ t.hist) ∧
    ¬ ReturnsExpired secondAndHalf.world.pg ⟨1008⟩ 1499999 ∧
    ReturnsExpired secondAndHalf.world.pg ⟨1008⟩ 1500000 := by
  have hc : Reachable defaultEnv secondAndHalf := request_reachable oneCredit_reachable _
  obtain ⟨hstored, hreturns, -⟩ := expires_iff hc
  obtain ⟨hreq, hanswer, hread, hconfigs⟩ := secondAndHalf_scene
  obtain ⟨config, hconfig, hrow⟩ := List.map_eq_singleton_iff.mp hconfigs
  obtain ⟨huser, hrow⟩ := Prod.mk.inj hrow
  obtain ⟨hactive, hexpires⟩ := Prod.mk.inj hrow
  refine ⟨?_, ?_, ?_⟩
  · obtain ⟨t, body, ht, hreq, ha⟩ := exists_created hreq hanswer
    rw [ht] at hread
    obtain ⟨at_, ⟨ex, hex⟩, hiff⟩ :=
      hstored t (List.mem_of_getElem? ht) _ _ _ _ body hreq rfl ha
    have hreadings : t.hist.filterMap clockReading = [0] := Option.some.inj hread
    have hmem : at_ ∈ t.hist.filterMap clockReading := hex.mem_readings
    rw [hreadings, List.mem_singleton] at hmem
    subst hmem
    exact ⟨t, List.mem_of_getElem? ht, 0, ⟨ex, hex⟩, hiff.mpr (by decide)⟩
  · refine (hreturns ⟨1008⟩ 1499999).mpr (fun c hc _ _ hexpired => ?_)
    rw [hconfig, List.mem_singleton] at hc
    subst hc
    obtain ⟨e, he, hle⟩ := hexpired
    obtain rfl := Option.some.inj (hexpires.symm.trans he)
    exact absurd hle (by decide)
  · by_contra hnone
    refine (hreturns ⟨1008⟩ 1500000).mp hnone config ?_ huser hactive ⟨_, hexpires, Int.le_refl _⟩
    rw [hconfig]
    exact List.mem_singleton_self _

/-- The service after a priority with half a second was created. -/
def halfSecond : State := request defaultEnv oneCredit (createExpiring 500000)

/-- One second later. -/
def pastHalfSecond : State :=
  { halfSecond with world := { halfSecond.world with
      appNow := halfSecond.world.appNow + (1000000 : Nat)
      dbNow := halfSecond.world.dbNow + (1000000 : Nat) } }

theorem pastHalfSecond_reachable : Reachable defaultEnv pastHalfSecond := by
  obtain ⟨now, hreach⟩ := request_reachable oneCredit_reachable (createExpiring 500000)
  exact ⟨now, hreach.tail (l := .env (.clock 1000000 1000000)) trivial rfl⟩

/-- The key is stored without an `EX`, and after the expiry the configuration is returned. -/
theorem halfSecond_outlives :
    (¬ ∀ (env : Env) (c : State), Reachable env c →
      ∀ t ∈ c.tasks, ∀ u header payload e body, t.req = .createUserPriority u header payload →
        payload.expiresAt = some e → t.answer? = some (.ok (.created, body)) →
        ∃ at_, (∃ ex, PublishedAt u at_ ex t.hist) ∧ ExpiresInTime u e at_ t.hist) ∧
    ¬ ∀ (env : Env) (c : State), Reachable env c → ∀ u,
      ¬ ReturnsExpired c.world.pg u c.world.dbNow := by
  have hend : (pastHalfSecond.tasks[3]?.map Task.req = some (createExpiring 500000) ∧
      (pastHalfSecond.tasks[3]?.bind Task.answer?).bind (·.toOption.map Prod.fst) =
        some .created ∧
      pastHalfSecond.tasks[3]?.map (fun t => leftStored ⟨1008⟩ t.hist) = some (some none)) ∧
      (pastHalfSecond.world.pg.activeDetails? ⟨1008⟩).map (·.config.expiresAt) =
        some (some 500000) ∧ 500000 ≤ pastHalfSecond.world.dbNow := by
    decide +kernel
  obtain ⟨⟨hreq, hanswer, hleft⟩, hactive, hnow⟩ := hend
  constructor
  · intro hall
    obtain ⟨t, body, ht, hreq, ha⟩ := exists_created hreq hanswer
    rw [ht] at hleft
    obtain ⟨at_, -, hexpires⟩ := hall defaultEnv pastHalfSecond pastHalfSecond_reachable t
      (List.mem_of_getElem? ht) _ _ _ _ body hreq rfl ha
    obtain ⟨n, hn, -⟩ := hexpires none (Option.some.inj hleft)
    cases hn
  · intro hall
    obtain ⟨d, hd, he⟩ := Option.map_eq_some_iff.mp hactive
    refine hall defaultEnv pastHalfSecond pastHalfSecond_reachable ⟨1008⟩
      ⟨fun _ => ⟨0⟩, d, ?_, 500000, he, hnow⟩
    rw [getActivePriorityConfig_transact, hd]

end Wurzburg.System
