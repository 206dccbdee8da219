import Wurzburg.System.PriorityReplay

/-!
# Wurzburg.System.PriorityReplacement

What a failed `create_user_priority` leaves of the priority the user had. The
handler cancels the configuration in force in a transaction of its own, before a
second one inserts the new configuration. A request that fails before it cancels
keeps everything; one whose insertion is refused afterwards has lost the old
configuration. So it keeps everything exactly in the runs in which the database
takes what is inserted after a cancellation (`failed_create_keeps`).
-/

namespace Wurzburg.System

open Wurzburg.Lib Wurzburg.Db Wurzburg.Tb Wurzburg.Api

/-! ### What a request has done so far -/

/-- A configuration of the user was cancelled. -/
def Cancels (u : Uuid) : Event Eff Eff.Resp → Prop
  | ⟨.db (.cancelActivePriorityConfig userId _), .ok (some _)⟩ => userId = u
  | _ => False

/-- A configuration was created. -/
def Creates : Event Eff Eff.Resp → Prop
  | ⟨.db (.createPriorityConfig ..), .ok _⟩ => True
  | _ => False

/-- A creation was refused. -/
def Refuses : Event Eff Eff.Resp → Prop
  | ⟨.db (.createPriorityConfig ..), .error _⟩ => True
  | _ => False

/-- Redis failed, or a cancellation did. -/
def Fails : Event Eff Eff.Resp → Prop
  | ⟨.redis _, .error _⟩ => True
  | ⟨.db (.cancelActivePriorityConfig ..), .error _⟩ => True
  | _ => False

/-- The priorities of the user are as they were. -/
def Idle (u : Uuid) (hist : History) : Prop := ∀ ev ∈ hist, ¬ Cancels u ev ∧ ¬ Creates ev

/-- How a creation comes to fail: something else failed, or it created nothing, and
if it cancelled, the creation was refused last. -/
def FailsAs (u : Uuid) (hist : History) : Prop :=
  (∃ ev ∈ hist, Fails ev) ∨ (∀ ev ∈ hist, ¬ Creates ev) ∧
    ((∃ ev ∈ hist, Cancels u ev) →
      ∃ before ev, hist = before ++ [ev] ∧ Refuses ev ∧ ∃ ev ∈ before, Cancels u ev)

theorem Idle.failsAs {u : Uuid} {hist : History} (h : Idle u hist) : FailsAs u hist :=
  Or.inr ⟨fun ev hev => (h ev hev).2, fun ⟨ev, hev, hc⟩ => absurd hc (h ev hev).1⟩

theorem Idle.concat {u : Uuid} {hist : History} (h : Idle u hist) (ev : Event Eff Eff.Resp)
    (hc : ¬ Cancels u ev) (hn : ¬ Creates ev) : Idle u (hist ++ [ev]) := by
  intro ev' hev
  rcases List.mem_append.mp hev with hev | hev
  · exact h ev' hev
  · rw [List.mem_singleton.mp hev]
    exact ⟨hc, hn⟩

theorem Eff.sparesPriorities.idle {e : Eff} (he : e.sparesPriorities) (u : Uuid) (r : e.Resp) :
    ¬ Cancels u ⟨e, r⟩ ∧ ¬ Creates ⟨e, r⟩ := by
  cases e with
  | db call => cases call <;> first | exact he.elim | exact ⟨id, id⟩
  | _ => exact ⟨id, id⟩

section

variable {env : Env} {u : Uuid} {hist : History} {γ δ : Type}
  {post : History → Except HttpError γ → Prop}

theorem redis_failsAs {f : Unit → Handler δ} {cmd : RedisCmd}
    (hpost : ∀ h e, FailsAs u h → post h (.error e))
    (hf : Prog.EndsE (fun _ _ => True) post (hist ++ [⟨.redis cmd, .ok ()⟩]) (f ())) :
    Prog.EndsE (fun _ _ => True) post hist (redis cmd >>= f) := by
  intro r
  cases r with
  | ok _ => exact hf
  | error message =>
      exact hpost _ _ (Or.inl ⟨_, List.mem_append_right _ (List.mem_singleton_self _), trivial⟩)

/-- After the insertion only Redis can fail. -/
theorem publishPriority_failsAs (hpost : ∀ h e, FailsAs u h → post h (.error e)) (key : String)
    (resolved : List ResolvedItem) (expiresAt : Option Timestamp)
    (h : ∀ ev ∈ hist, ¬ Creates ev) :
    Prog.EndsE (fun _ _ => True) post hist (publishPriority env u key resolved expiresAt) := by
  intro r
  cases r with
  | error e =>
      refine hpost _ _ (Or.inr ⟨fun ev hev => ?_, fun ⟨ev, hev, hc⟩ => ?_⟩)
      · rcases List.mem_append.mp hev with hev | hev
        · exact h ev hev
        · rw [List.mem_singleton.mp hev]
          exact id
      · refine ⟨hist, _, rfl, trivial, ?_⟩
        rcases List.mem_append.mp hev with hev | hev
        · exact ⟨ev, hev, hc⟩
        · rw [List.mem_singleton.mp hev] at hc
          exact hc.elim
  | ok d =>
      refine (ttlNow_ends expiresAt).bind (fun h₁ at_ _ => ?_)
      exact redis_failsAs hpost trivial

/-- Before the insertion the request is idle but for a cancellation. -/
theorem replacePriority_failsAs (hpost : ∀ h e, FailsAs u h → post h (.error e)) (key : String)
    (resolved : List ResolvedItem) (expiresAt : Option Timestamp) (h : Idle u hist) :
    Prog.EndsE (fun _ _ => True) post hist (replacePriority env u key resolved expiresAt) := by
  refine redis_failsAs hpost (redis_failsAs hpost ?_)
  have h₁ := (h.concat ⟨.redis .acquire, .ok ()⟩ id id).concat
    ⟨.redis (.del (priorityKey u)), .ok ()⟩ id id
  intro found
  cases found with
  | error e => exact hpost _ _ (h₁.concat _ id id).failsAs
  | ok found =>
      have h₂ := h₁.concat ⟨.db (.getActivePriorityConfig u), .ok found⟩ id id
      cases found with
      | none => exact publishPriority_failsAs hpost key resolved expiresAt (fun ev hev => (h₂ ev hev).2)
      | some d =>
          intro r
          cases r with
          | error e =>
              exact hpost _ _ (Or.inl ⟨_, List.mem_append_right _ (List.mem_singleton_self _), trivial⟩)
          | ok cancelled =>
              refine publishPriority_failsAs hpost key resolved expiresAt (fun ev hev => ?_)
              rcases List.mem_append.mp hev with hev | hev
              · exact (h₂ ev hev).2
              · rw [List.mem_singleton.mp hev]
                exact id

theorem createUserPriority_failsAs (hpost : ∀ h e, FailsAs u h → post h (.error e))
    (header : Option String) (payload : CreatePriorityRequest) :
    Prog.EndsE (fun _ _ => True) post [] (createUserPriority env u header payload) := by
  have hidle : ∀ h e (r : Eff.Resp e), e.isRead → Idle u h → Idle u (h ++ [⟨e, r⟩]) :=
    fun h e r he hi => hi.concat _ (he.sparesPriorities.idle u r).1 (he.sparesPriorities.idle u r).2
  have hfails : ∀ h (e : HttpError), Idle u h → post h (.error e) :=
    fun h e hi => hpost h e hi.failsAs
  have hnil : Idle u [] := fun ev hev => absurd hev List.not_mem_nil
  unfold createUserPriority
  split
  · exact hpost _ _ hnil.failsAs
  · refine (Prog.EndsE.of_uses hidle hfails orElse_uses hnil).bind (fun h₁ key hh₁ => ?_)
    have hknown : Prog.UsesE Eff.isRead (tryDb (.getPriorityConfigByIdempotencyKey key)) :=
      tryDb_uses trivial
    refine (Prog.EndsE.of_uses hidle hfails hknown hh₁).bind (fun h₂ known hh₂ => ?_)
    split
    · trivial
    · refine (Prog.EndsE.of_uses hidle hfails (checkItems_uses ..) hh₂).bind ?_
      exact fun h₃ resolved hh₃ => replacePriority_failsAs hpost key resolved payload.expiresAt hh₃

end

/-- Every failure of `create_user_priority` comes about like this. -/
theorem serve_failsAs (env : Env) (q : Request) :
    (serve env q).Ends (fun hist a => ∀ u header payload e,
      q = .createUserPriority u header payload → a = .error e → FailsAs u hist) [] := by
  cases q with
  | createUserPriority u header payload =>
      have hends : Prog.EndsE (fun _ _ => True)
          (fun hist (r : Except HttpError (StatusCode × PriorityConfigResponse)) =>
            ∀ e, r = .error e → FailsAs u hist) [] (createUserPriority env u header payload) :=
        createUserPriority_failsAs (fun _ _ h _ _ => h) header payload
      refine answerWith_ends hends ?_ ?_
      · intro hist a _ u' header' payload' e _ ha
        cases ha
      · intro hist e he u' header' payload' e' hq _
        obtain ⟨rfl, -, -⟩ := Request.createUserPriority.inj hq
        exact he e rfl
  | _ => exact Prog.Ends.of_forall (fun _ _ _ _ _ _ hq => by cases hq) _

/-! ### What the database takes -/

/-- The constraints take this list under this key, with this expiry. -/
structure TakesRequest (pg : Pg) (key : String) (priorities : List PriorityItemRequest)
    (expiresAt : Option Timestamp) : Prop where
  expiry : expiresAt.all timestampOk = true
  fits : varcharOk 255 key = true
  newKey : ∀ c ∈ pg.configs, c.idempotencyKey ≠ key
  amounts : ∀ i ∈ priorities, 0 ≤ i.maxAmount
  providers : (priorities.map (·.providerId)).Nodup
  count : priorities.length < 2 ^ 31

section

variable {env : Env} {c : State} {t : Serving} {u : Uuid} {header : Option String}
  {payload : CreatePriorityRequest} {key : String} {resolved : List ResolvedItem}
  {expiresAt : Option Timestamp}

/-- Linked providers and their user are there. -/
theorem Reachable.takes (hc : Reachable env c) (ht : t ∈ c.tasks)
    (hasks : AsksFor u header payload t.hist key resolved)
    (htakes : TakesRequest c.world.pg key payload.priorities expiresAt) :
    c.world.pg.Takes key u (resolved.map ResolvedItem.data) expiresAt := by
  have hitems := hasks.resolved.1
  have htables := hc.inv.tables
  have haccount : ∀ r ∈ resolved, ∃ ua ∈ c.world.pg.userAccounts,
      ua.pair = (u, r.item.providerId) := by
    intro r hr
    obtain ⟨details, hmem, -⟩ := hasks.resolved.2 r hr
    obtain ⟨ua, hua, hpair, -⟩ := hc.detailsFact ht hmem
    exact ⟨ua, hua, hpair⟩
  refine ⟨htakes.expiry, htakes.fits, htakes.newKey, ?_, ?_, ?_, ?_, ?_⟩
  · cases hresolved : resolved with
    | nil =>
        rw [hresolved] at hitems
        exact absurd hitems.symm hasks.listed
    | cons r rs =>
        obtain ⟨ua, hua, hpair⟩ := haccount r (hresolved ▸ List.mem_cons_self ..)
        obtain ⟨user, huser, hid⟩ := htables.accountUser ua hua
        exact ⟨user, huser, hid.trans (Prod.mk.inj hpair).1⟩
  · intro item hitem
    obtain ⟨r, hr, rfl⟩ := List.mem_map.mp hitem
    obtain ⟨ua, hua, hpair⟩ := haccount r hr
    obtain ⟨p, hp, hid⟩ := htables.accountProvider ua hua
    exact ⟨p, hp, hid.trans (Prod.mk.inj hpair).2⟩
  · intro item hitem
    obtain ⟨r, hr, rfl⟩ := List.mem_map.mp hitem
    exact htakes.amounts r.item (hitems ▸ List.mem_map_of_mem hr)
  · have hproviders := htakes.providers
    rw [← hitems, List.map_map] at hproviders
    rw [List.map_map]
    exact hproviders
  · have hcount := htakes.count
    rw [← hitems, List.length_map] at hcount
    rw [List.length_map]
    exact hcount

end

/-! ### One request among others -/

/-- The request at position `n` is served without a failing call, while no other
request changes the priorities of the user. -/
def Undisturbed (n : Nat) (u : Uuid) (c : State) : Act → Prop
  | .step i ch => if i = n then ch.fault = .none
      else ∀ t, c.tasks[i]? = some t → ¬ t.req.changesPriority u
  | _ => True

/-- Only effects on the user's own priorities change them. -/
theorem exec_prioritiesOf {w w' : World} {capacity : Nat} {ch : Choice} {e : Eff} {r : e.Resp}
    {q : Request} {hist : History} {u : Uuid} (hlaw : OwnPriority q hist e)
    (hx : w.exec capacity ch e = some (r, w')) :
    w'.pg.prioritiesOf u = w.pg.prioritiesOf u ∨ q.changesPriority u := by
  rcases exec_pg hx with heq | ⟨call, rfl, r', happly⟩
  · rw [heq]
    exact Or.inl rfl
  · obtain ⟨pg, n, htx, -, hw⟩ := World.dbApply_cases happly
    have hpg : w'.pg = pg := by rw [hw]
    rw [hpg]
    rcases priorities_cases htx with hkeep | ⟨userId, actor, rfl, rfl⟩ |
      ⟨key, userId, items, expiresAt, actor, rfl, -, rfl⟩
    · unfold Pg.prioritiesOf
      rw [hkeep.configs]
      exact Or.inl rfl
    · by_cases huser : userId = u
      · exact Or.inr (huser ▸ hlaw)
      · exact Or.inl (Pg.prioritiesOf_cancelActive huser _ _ _)
    · by_cases huser : userId = u
      · obtain ⟨header, payload, rfl, -⟩ := hlaw
        exact Or.inr huser
      · exact Or.inl (Pg.prioritiesOf_addPriority huser)

section

variable {env : Env} {c₀ c c' : State} {n : Nat} {u : Uuid} {l : Act} {t : Serving}

/-- Either the request takes a step, or the user's priorities stay as they are. -/
theorem undisturbed_cases (hc : Reachable env c) (hok : Undisturbed n u c l)
    (hs : (machine env).step c l = some c') (ht : c.tasks[n]? = some t) :
    (∃ t', c'.tasks[n]? = some t' ∧ t'.req = t.req ∧ t'.hist = t.hist ∧
      c'.world.pg.prioritiesOf u = c.world.pg.prioritiesOf u) ∨
    ∃ ch e k r, l = .step n ch ∧ t.rest = some (.call e k) ∧ ch.fault = .none ∧
      c.world.exec env.settings.tigerbeetle.channelCapacity ch e = some (r, c'.world) ∧
      c'.tasks[n]? = some ⟨t.req, t.hist ++ [⟨e, r⟩], some (k r)⟩ := by
  have hlt : n < c.tasks.length := (List.getElem?_eq_some_iff.mp ht).1
  rcases (machine env).step_cases hs with ⟨q, rfl, rfl⟩ |
    ⟨i, ch, q, hist, e, k, r, w, rfl, hi, hx, rfl⟩ | ⟨i, q, hist, e, k, rfl, hi, rfl⟩ |
    ⟨v, w, rfl, hx, rfl⟩
  · exact Or.inl ⟨t, (List.getElem?_append_left hlt).trans ht, rfl, rfl, rfl⟩
  · by_cases hin : i = n
    · subst hin
      rw [Undisturbed, if_pos rfl] at hok
      rw [hi] at ht
      obtain rfl := Option.some.inj ht
      exact Or.inr ⟨ch, e, k, r, rfl, rfl, hok, hx, List.getElem?_set_self hlt⟩
    · rw [Undisturbed, if_neg hin] at hok
      have ⟨now, hrun⟩ := hc
      have hlaw : OwnPriority q hist e := hrun.issues (serve_ownPriority env) rfl hi
      rcases exec_prioritiesOf (u := u) hlaw hx with hsame | howner
      · exact Or.inl ⟨t, (List.getElem?_set_ne hin).trans ht, rfl, rfl, hsame⟩
      · exact absurd howner (hok _ hi)
  · by_cases hin : i = n
    · subst hin
      rw [hi] at ht
      obtain rfl := Option.some.inj ht
      exact Or.inl ⟨_, List.getElem?_set_self hlt, rfl, rfl, rfl⟩
    · exact Or.inl ⟨t, (List.getElem?_set_ne hin).trans ht, rfl, rfl, rfl⟩
  · have heq : w.pg = c.world.pg := move_pg hx
    exact Or.inl ⟨t, ht, rfl, rfl, by rw [heq]⟩

variable {header : Option String} {payload : CreatePriorityRequest} {hist : History} {e : Eff}
  {k : e.Resp → Io Answer} {r : e.Resp} {w : World} {ch : Choice} {capacity : Nat}

/-- What one effect of a creating request does to its user's priorities. -/
structure OwnEffect (pg₀ pg pg' : Pg) (u : Uuid) (ev : Event Eff Eff.Resp) : Prop where
  answers : ¬ Fails ev
  keeps : ¬ Cancels u ev → ¬ Creates ev → pg'.prioritiesOf u = pg.prioritiesOf u
  loses : Cancels u ev → Pg.Lost pg₀ pg' u

theorem ownEffect (hc : Reachable env c) (hcont : Pg.Continues c₀.world.pg c.world.pg)
    (hlaw : OwnPriority (.createUserPriority u header payload) hist e) (hch : ch.fault = .none)
    (hx : c.world.exec capacity ch e = some (r, w)) :
    OwnEffect c₀.world.pg c.world.pg w.pg u ⟨e, r⟩ := by
  have hsame : w.pg = c.world.pg → w.pg.prioritiesOf u = c.world.pg.prioritiesOf u :=
    fun heq => by rw [heq]
  have hpg : (∀ call, e ≠ .db call) → w.pg = c.world.pg := by
    intro hno
    rcases exec_pg hx with heq | ⟨call, rfl, -⟩
    · exact heq
    · exact absurd rfl (hno call)
  cases e with
  | redis cmd =>
      have hx' : some (c.world.faulty ch.fault (·.redisApply cmd)) = some (r, w) := hx
      rw [hch] at hx'
      obtain ⟨rfl, -⟩ := Prod.mk.inj (Option.some.inj hx')
      exact ⟨id, fun _ _ => hsame (hpg (fun _ h => by cases h)), fun h => h.elim⟩
  | db call =>
      obtain ⟨m, htx, -⟩ := dbExec_ok hch hx
      cases call with
      | cancelActivePriorityConfig userId actor =>
          obtain rfl : u = userId := hlaw
          have htx' := (cancelActivePriorityConfig_transact u actor c.world.pg c.world.dbNow
            ch.uuid).symm.trans htx
          obtain ⟨rfl, hpg⟩ := Prod.mk.inj htx'
          rw [← (Prod.mk.inj hpg).1]
          cases hcurrent : c.world.pg.configs.filter (Pg.isCurrent u) with
          | nil =>
              refine ⟨id, fun _ _ => ?_, fun h => h.elim⟩
              rw [Pg.cancelActive, hcurrent]
              rfl
          | cons config configs =>
              refine ⟨id, fun h _ => absurd rfl h, fun _ => ?_⟩
              exact .of_cancelActive hcont hc.priorities (by rw [hcurrent]; simp)
      | createPriorityConfig key userId items expiresAt actor =>
          rcases createPriorityConfig_cases with ⟨-, hcreate⟩ | ⟨e, m, -, hcreate⟩
          · obtain ⟨rfl, -⟩ := Prod.mk.inj (hcreate.symm.trans htx)
            exact ⟨id, fun _ h => absurd trivial h, fun h => h.elim⟩
          · obtain ⟨rfl, hpg⟩ := Prod.mk.inj (hcreate.symm.trans htx)
            exact ⟨id, fun _ _ => hsame (Prod.mk.inj hpg).1.symm, fun h => h.elim⟩
      | _ =>
          rcases priorities_cases htx with hkeep | ⟨userId, actor, hcall, -⟩ |
            ⟨key, userId, items, expiresAt, actor, hcall, -⟩
          · refine ⟨id, fun _ _ => ?_, fun h => h.elim⟩
            unfold Pg.prioritiesOf
            rw [hkeep.configs]
          · cases hcall
          · cases hcall
  | _ => exact ⟨id, fun _ _ => hsame (hpg (fun _ h => by cases h)), fun h => h.elim⟩

/-- The request in the course of its run, from `c₀`. -/
structure Replacing (env : Env) (c₀ : State) (n : Nat) (u : Uuid) (header : Option String)
    (payload : CreatePriorityRequest) (c : State) (t : Serving) : Prop where
  reachable : Reachable env c
  continues : Pg.Continues c₀.world.pg c.world.pg
  task : c.tasks[n]? = some t
  req : t.req = .createUserPriority u header payload
  answers : ∀ ev ∈ t.hist, ¬ Fails ev
  keeps : Idle u t.hist → c.world.pg.prioritiesOf u = c₀.world.pg.prioritiesOf u
  loses : (∃ ev ∈ t.hist, Cancels u ev) → Pg.Lost c₀.world.pg c.world.pg u

theorem Replacing.step (h : Replacing env c₀ n u header payload c t) (hok : Undisturbed n u c l)
    (hs : (machine env).step c l = some c') :
    ∃ t', Replacing env c₀ n u header payload c' t' ∧
      (t'.hist = t.hist ∨ ∃ ch e k r, l = .step n ch ∧ t.rest = some (.call e k) ∧
        ch.fault = .none ∧ c.world.exec env.settings.tigerbeetle.channelCapacity ch e =
          some (r, c'.world) ∧ t'.hist = t.hist ++ [⟨e, r⟩]) := by
  have hcont := (step_priorities h.reachable.priorities hs).2
  have hreach := (h.reachable.step hs).1
  rcases undisturbed_cases h.reachable hok hs h.task with ⟨t', ht', hreq, hhist, hsame⟩ |
    ⟨ch, e, k, r, rfl, hrest, hch, hx, ht'⟩
  · refine ⟨t', ⟨hreach, h.continues.trans hcont, ht', hreq.trans h.req, ?_, ?_, ?_⟩, Or.inl hhist⟩
    · rw [hhist]
      exact h.answers
    · rw [hhist]
      exact fun hidle => hsame.trans (h.keeps hidle)
    · rw [hhist]
      exact fun hc => (h.loses hc).later hcont
  · obtain ⟨req, hist, rest⟩ := t
    obtain rfl : req = _ := h.req
    obtain rfl : rest = _ := hrest
    have ⟨now, hrun⟩ := h.reachable
    have hlaw : OwnPriority _ hist e := hrun.issues (serve_ownPriority env) rfl h.task
    have hown : OwnEffect c₀.world.pg c.world.pg c'.world.pg u ⟨e, r⟩ :=
      ownEffect h.reachable h.continues hlaw hch hx
    refine ⟨_, ⟨hreach, h.continues.trans hcont, ht', rfl, ?_, ?_, ?_⟩,
      Or.inr ⟨ch, e, k, r, rfl, rfl, hch, hx, rfl⟩⟩
    · intro ev hev
      rcases List.mem_append.mp hev with hev | hev
      · exact h.answers ev hev
      · rw [List.mem_singleton.mp hev]
        exact hown.answers
    · intro hidle
      have hlast := hidle _ (List.mem_append_right _ (List.mem_singleton_self _))
      exact (hown.keeps hlast.1 hlast.2).trans
        (h.keeps (fun ev hev => hidle ev (List.mem_append_left _ hev)))
    · intro ⟨ev, hev, hc⟩
      rcases List.mem_append.mp hev with hev | hev
      · exact (h.loses ⟨ev, hev, hc⟩).later hcont
      · rw [List.mem_singleton.mp hev] at hc
        exact hown.loses hc

/-! ### When the database takes what is inserted -/

/-- What a request inserts after it has cancelled, the database takes. -/
def TakenIfCancelled (u : Uuid) (c : State) : Act → Prop
  | .step i _ => ∀ header payload hist key items expiresAt actor k,
      c.tasks[i]? = some ⟨.createUserPriority u header payload, hist,
        some (.call (.db (.createPriorityConfig key u items expiresAt actor)) k)⟩ →
      (∃ ev ∈ hist, Cancels u ev) → TakesRequest c.world.pg key payload.priorities expiresAt
  | _ => True

theorem Refuses.creation {ev : Event Eff Eff.Resp} (h : Refuses ev) :
    ∃ key userId items expiresAt actor e,
      ev = ⟨.db (.createPriorityConfig key userId items expiresAt actor), .error e⟩ := by
  obtain ⟨e, r⟩ := ev
  cases e with
  | db call =>
      cases call with
      | createPriorityConfig key userId items expiresAt actor =>
          cases r with
          | error e => exact ⟨key, userId, items, expiresAt, actor, e, rfl⟩
          | ok d => exact h.elim
      | _ => exact h.elim
  | _ => exact h.elim

/-- What the database takes it does not refuse. -/
theorem Replacing.not_refuses (h : Replacing env c₀ n u header payload c t)
    (hrest : t.rest = some (.call e k)) (hch : ch.fault = .none)
    (hx : c.world.exec capacity ch e = some (r, w))
    (htakes : ∀ key items expiresAt actor,
      e = .db (.createPriorityConfig key u items expiresAt actor) →
      TakesRequest c.world.pg key payload.priorities expiresAt) : ¬ Refuses ⟨e, r⟩ := by
  intro hrefuses
  obtain ⟨key, userId, items, expiresAt, actor, err, hev⟩ := hrefuses.creation
  obtain ⟨rfl, hr⟩ := Event.mk.inj hev
  obtain rfl := eq_of_heq hr
  obtain ⟨req, hist, rest⟩ := t
  obtain rfl : req = _ := h.req
  obtain rfl : rest = _ := hrest
  have ⟨now, hrun⟩ := h.reachable
  obtain ⟨header', payload', hq, resolved, rfl, hasks⟩ :=
    hrun.issues (serve_ownPriority env) rfl h.task
  obtain ⟨rfl, rfl, rfl⟩ := Request.createUserPriority.inj hq
  have htaken := h.reachable.takes (List.mem_of_getElem? h.task) hasks
    (htakes key _ expiresAt actor rfl)
  obtain ⟨pg, m, htx, hfresh, -⟩ : ∃ pg m, _ ∧ _ ∧ _ :=
    World.dbApply_cases (by
      have hx : c.world.dbExec ch _ = some (_, w) := hx
      unfold World.dbExec at hx
      rw [hch] at hx
      exact hx)
  have hids := h.reachable.idsIssued
  obtain ⟨hnodup, hnew⟩ := isFresh_iff.mp hfresh
  obtain ⟨d, hd⟩ := h.reachable.priorities.creates htaken htx
    ⟨hnodup, fun c hc hid => hnew _ hid (hids.configs c hc),
      fun i hi hid => hnew _ hid (hids.items i hi)⟩
  cases hd

/-- The request when it has just arrived. -/
theorem replacing_arrived (hc : Reachable env c₀) :
    Replacing env c₀ c₀.tasks.length u header payload
      (arrived env c₀ (.createUserPriority u header payload))
      ⟨.createUserPriority u header payload, [],
        some (serve env (.createUserPriority u header payload))⟩ where
  reachable := arrived_reachable hc _
  continues := .refl _
  task := arrived_task env c₀ _
  req := rfl
  answers := by simp
  keeps := fun _ => rfl
  loses := by simp

/-- A run in which what was not taken has cost a configuration. -/
theorem taken_or_lost (hc : Reachable env c₀)
    (hrun : (machine env).Reach (Undisturbed c₀.tasks.length u)
      (arrived env c₀ (.createUserPriority u header payload)) c) :
    (∃ t, Replacing env c₀ c₀.tasks.length u header payload c t) ∧
      ((machine env).Reach
        (fun c l => Undisturbed c₀.tasks.length u c l ∧ TakenIfCancelled u c l)
        (arrived env c₀ (.createUserPriority u header payload)) c ∨
      Pg.Lost c₀.world.pg c.world.pg u) := by
  induction hrun with
  | refl => exact ⟨⟨_, replacing_arrived hc⟩, Or.inl .refl⟩
  | @tail c c' l _ hok hs ih =>
      obtain ⟨⟨t, ht⟩, hsofar⟩ := ih
      obtain ⟨t', ht', -⟩ := ht.step hok hs
      have hcont := (step_priorities ht.reachable.priorities hs).2
      refine ⟨⟨t', ht'⟩, ?_⟩
      rcases hsofar with hrun | hlost
      · by_cases htaken : TakenIfCancelled u c l
        · exact Or.inl (hrun.tail ⟨hok, htaken⟩ hs)
        · cases l with
          | step i ch =>
              simp only [TakenIfCancelled, not_forall] at htaken
              obtain ⟨header', payload', hist, key, items, expiresAt, actor, k, hi, hc, -⟩ := htaken
              -- only the request itself acts for the user
              have hin : i = c₀.tasks.length := by
                by_contra hin
                rw [Undisturbed, if_neg hin] at hok
                exact hok _ hi rfl
              subst hin
              rw [ht.task] at hi
              obtain rfl := Option.some.inj hi
              exact Or.inr ((ht.loses hc).later hcont)
          | _ => exact absurd trivial htaken
      · exact Or.inr (hlost.later hcont)

/-- In a run in which everything is taken, a refusal comes before any cancellation. -/
theorem refused_before_cancelled (hc : Reachable env c₀)
    (hrun : (machine env).Reach
      (fun c l => Undisturbed c₀.tasks.length u c l ∧ TakenIfCancelled u c l)
      (arrived env c₀ (.createUserPriority u header payload)) c) :
    ∃ t, Replacing env c₀ c₀.tasks.length u header payload c t ∧
      Machine.Remembers (fun before ev _ => Refuses ev → ∀ ev' ∈ before, ¬ Cancels u ev') t.hist
        c.world := by
  induction hrun with
  | refl => exact ⟨_, replacing_arrived hc, fun before ev after heq => by simp at heq⟩
  | @tail c c' l _ hok hs ih =>
      obtain ⟨t, ht, hbefore⟩ := ih
      obtain ⟨t', ht', hhist | ⟨ch, e, k, r, rfl, hrest, hch, hx, hhist⟩⟩ := ht.step hok.1 hs
      · refine ⟨t', ht', ?_⟩
        rw [hhist]
        exact hbefore
      · have hlast : Refuses ⟨e, r⟩ → ∀ ev' ∈ t.hist, ¬ Cancels u ev' := by
          intro hrefuses ev' hev' hcancels
          refine ht.not_refuses hrest hch hx (fun key items expiresAt actor heq => ?_) hrefuses
          subst heq
          refine hok.2 header payload t.hist key items expiresAt actor k ?_ ⟨ev', hev', hcancels⟩
          rw [ht.task, ← ht.req, ← hrest]
        refine ⟨t', ht', ?_⟩
        rw [hhist]
        exact Machine.Remembers.concat hbefore hlast

/-- **A failed creation keeps the user's priorities** exactly in the runs in which
the database takes what the request inserts after it has cancelled. -/
theorem failed_create_keeps (hc : Reachable env c₀)
    (hrun : (machine env).Reach (Undisturbed c₀.tasks.length u)
      (arrived env c₀ (.createUserPriority u header payload)) c)
    (ht : c.tasks[c₀.tasks.length]? = some t) {e : HttpError}
    (hanswer : t.answer? = some (.error e)) :
    c.world.pg.prioritiesOf u = c₀.world.pg.prioritiesOf u ↔
      (machine env).Reach
        (fun c l => Undisturbed c₀.tasks.length u c l ∧ TakenIfCancelled u c l)
        (arrived env c₀ (.createUserPriority u header payload)) c := by
  constructor
  · intro hsame
    rcases (taken_or_lost hc hrun).2 with htaken | hlost
    · exact htaken
    · exact absurd hsame hlost.ne
  · intro htaken
    obtain ⟨t', ht', hbefore⟩ := refused_before_cancelled hc htaken
    obtain rfl : t' = t := Option.some.inj (ht'.task.symm.trans ht)
    have ⟨now, hreach⟩ := ht'.reachable
    have hfails := hreach.answer_ends (serve_failsAs env) rfl (List.mem_of_getElem? ht) hanswer
      u header payload e ht'.req rfl
    rcases hfails with ⟨ev, hev, hfail⟩ | ⟨hcreated, hcancelled⟩
    · exact absurd hfail (ht'.answers ev hev)
    · refine ht'.keeps (fun ev hev => ⟨fun hc => ?_, hcreated ev hev⟩)
      obtain ⟨before, last, heq, hrefuses, ev', hev', hc'⟩ := hcancelled ⟨ev, hev, hc⟩
      exact hbefore before last [] heq hrefuses ev' hev' hc'

end

theorem Alone.undisturbed {n : Nat} {u : Uuid} {c : State} {l : Act} (h : Alone n l) :
    Undisturbed n u c l := by
  cases l with
  | step i ch =>
      obtain ⟨rfl, hch⟩ := h
      rw [Undisturbed, if_pos rfl]
      exact hch
  | _ => trivial

/-- The user of the example asks for more than its account covers. -/
def unfunded : Request :=
  .createUserPriority ⟨1008⟩ (some "k2") ⟨[⟨⟨1002⟩, 1000, .multiUse⟩], none⟩

/-- The error that a request was answered with. -/
def failedWith (c : State) (i : Nat) : Option HttpError :=
  match c.tasks[i]?.bind Task.answer? with
  | some (.error e) => some e
  | _ => none

theorem exists_failed {c : State} {i : Nat} {e : HttpError} (h : failedWith c i = some e) :
    ∃ t, c.tasks[i]? = some t ∧ t.answer? = some (.error e) := by
  unfold failedWith at h
  split at h
  · next e' ha =>
      obtain rfl := Option.some.inj h
      exact Option.bind_eq_some_iff.mp ha
  · cases h

theorem failed_create_keeps_unfunded :
    (request defaultEnv onePriority unfunded).world.pg.prioritiesOf ⟨1008⟩ =
        onePriority.world.pg.prioritiesOf ⟨1008⟩ ↔
      (machine defaultEnv).Reach
        (fun c l => Undisturbed onePriority.tasks.length ⟨1008⟩ c l ∧ TakenIfCancelled ⟨1008⟩ c l)
        (arrived defaultEnv onePriority unfunded) (request defaultEnv onePriority unfunded) := by
  have hfailed : (failedWith (request defaultEnv onePriority unfunded) onePriority.tasks.length).map
      Prod.fst = some .unprocessableEntity := by
    decide +kernel
  obtain ⟨e, he, -⟩ := Option.map_eq_some_iff.mp hfailed
  obtain ⟨t, ht, ha⟩ := exists_failed he
  exact failed_create_keeps onePriority_reachable
    ((request_reach defaultEnv onePriority unfunded).mono (fun _ _ h => h.undisturbed)) ht ha

/-- The user of the example lists its provider twice. -/
def listedTwice : Request :=
  .createUserPriority ⟨1008⟩ (some "k2")
    ⟨[⟨⟨1002⟩, 100, .multiUse⟩, ⟨⟨1002⟩, 50, .multiUse⟩], none⟩

/-- The request fails, and has cancelled the priority the user had. -/
theorem listedTwice_loses :
    ¬ ∀ (env : Env) (c₀ c : State) (u : Uuid) (header : Option String)
      (payload : CreatePriorityRequest), Reachable env c₀ →
      (machine env).Reach (fun _ l => Alone c₀.tasks.length l)
        (arrived env c₀ (.createUserPriority u header payload)) c →
      ∀ e, failedWith c c₀.tasks.length = some e →
        c.world.pg.prioritiesOf u = c₀.world.pg.prioritiesOf u := by
  intro hall
  have hend : (failedWith (request defaultEnv onePriority listedTwice) onePriority.tasks.length).map
        Prod.fst = some .internalServerError ∧
      (onePriority.world.pg.prioritiesOf ⟨1008⟩).map (·.status) = [.active] ∧
      ((request defaultEnv onePriority listedTwice).world.pg.prioritiesOf ⟨1008⟩).map (·.status) =
        [.cancelled] := by
    decide +kernel
  obtain ⟨hfailed, hbefore, hafter⟩ := hend
  obtain ⟨e, he, -⟩ := Option.map_eq_some_iff.mp hfailed
  have hsame := hall defaultEnv onePriority (request defaultEnv onePriority listedTwice) ⟨1008⟩
    (some "k2") ⟨[⟨⟨1002⟩, 100, .multiUse⟩, ⟨⟨1002⟩, 50, .multiUse⟩], none⟩
    onePriority_reachable (request_reach defaultEnv onePriority listedTwice) e he
  rw [hsame, hbefore] at hafter
  cases hafter

end Wurzburg.System
