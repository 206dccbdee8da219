import Wurzburg.System.Provisioning

/-!
# Wurzburg.System.NewAndExisting

How `create_or_link` tells a new user and a new account from existing ones.

It compares when the rows were created, by the clock of the database, with when the
request came in, by the clock of the service, and allows for a second. Nothing ties the two
clocks together, and a row can be a second old (`createOrLink_tells_iff`).
-/

namespace Wurzburg.System

open Wurzburg.Lib Wurzburg.Db Wurzburg.Tb Wurzburg.Api

/-! ### What a request has learnt -/

/-- When the request came in. -/
def requestTime? (hist : History) : Option Timestamp :=
  hist.findSome? (fun ev => match ev with
    | ⟨.now, t⟩ => some t
    | _ => none)

/-- The user and the account of the request. -/
def told? (hist : History) : Option (User × UserAccount) :=
  hist.findSome? (fun ev => match ev with
    | ⟨.db (.createOrLinkUser ..), .ok out⟩ => some out
    | _ => none)

/-- The next effect asks for the ledger account. -/
def Asks (env : Env) (user : User) (account : UserAccount) (p : Prog Eff Eff.Resp Answer) : Prop :=
  ∃ k, p = .call
    (.tbSend (.createAccount (userLedgerAccount env account.ledgerAccountId user.id))) k

/-- What holds of a `create_or_link` at any point of it. -/
structure LinkPoint (env : Env) (payload : CreateUserRequest) (hist : History)
    (p : Prog Eff Eff.Resp Answer) : Prop where
  calls : ∀ call k, p = .call (.db call) k → ∃ im em lid actor,
    call = .createOrLinkUser payload.nid payload.providerId im em lid actor
  asks : ∀ past ev t user account, hist = past ++ [ev] → told? past = none →
    told? hist = some (user, account) → requestTime? hist = some t →
    (Asks env user account p ↔ t - seconds 1 ≤ account.createdAt)
  flags : ∀ t user account r, told? hist = some (user, account) → requestTime? hist = some t →
    p = .ret (.ok (.created, .createUser r)) →
    (r.isExistingUser = true ↔ user.createdAt < t - seconds 1)

section

variable {env : Env} {payload : CreateUserRequest} {hist : History} {p : Prog Eff Eff.Resp Answer}

/-- Before it has been told of the rows. -/
theorem LinkPoint.untold (h : told? hist = none)
    (hcalls : ∀ call k, p = .call (.db call) k → ∃ im em lid actor,
      call = .createOrLinkUser payload.nid payload.providerId im em lid actor) :
    LinkPoint env payload hist p where
  calls := hcalls
  asks := fun _ _ _ _ _ _ _ htold _ => by
    rw [h] at htold
    cases htold
  flags := fun _ _ _ _ htold _ _ => by
    rw [h] at htold
    cases htold

theorem told?_append {x : User × UserAccount} (h : told? hist = some x) (more : History) :
    told? (hist ++ more) = some x := by
  unfold told? at h ⊢
  rw [List.findSome?_append, h, Option.some_or]

theorem requestTime?_append {t : Timestamp} (h : requestTime? hist = some t) (more : History) :
    requestTime? (hist ++ more) = some t := by
  unfold requestTime? at h ⊢
  rw [List.findSome?_append, h, Option.some_or]

variable {t : Timestamp} {user : User} {account : UserAccount}

/-- From when it has been told of the rows. -/
theorem LinkPoint.told (htold : told? hist = some (user, account))
    (htime : requestTime? hist = some t) (hcalls : ∀ call k, p ≠ .call (.db call) k)
    (hasks : ∀ past ev, hist = past ++ [ev] → told? past = none →
      (Asks env user account p ↔ t - seconds 1 ≤ account.createdAt))
    (hflags : ∀ r, p = .ret (.ok (.created, .createUser r)) →
      (r.isExistingUser = true ↔ user.createdAt < t - seconds 1)) :
    LinkPoint env payload hist p := by
  refine ⟨fun call k h => absurd h (hcalls call k), ?_, ?_⟩
  · intro past ev t' user' account' hhist hnone htold' htime'
    obtain ⟨rfl, rfl⟩ := Prod.mk.inj (Option.some.inj (htold.symm.trans htold'))
    obtain rfl := Option.some.inj (htime.symm.trans htime')
    exact hasks past ev hhist hnone
  · intro t' user' account' r htold' htime' hp
    obtain ⟨rfl, rfl⟩ := Prod.mk.inj (Option.some.inj (htold.symm.trans htold'))
    obtain rfl := Option.some.inj (htime.symm.trans htime')
    exact hflags r hp

/-- Once it has gone on from there. -/
theorem LinkPoint.later {e : Eff} {r : e.Resp} (htold : told? hist = some (user, account))
    (htime : requestTime? hist = some t) (hcalls : ∀ call k, p ≠ .call (.db call) k)
    (hflags : ∀ r, p = .ret (.ok (.created, .createUser r)) →
      (r.isExistingUser = true ↔ user.createdAt < t - seconds 1)) :
    LinkPoint env payload (hist ++ [⟨e, r⟩]) p := by
  refine .told (told?_append htold _) (requestTime?_append htime _) hcalls ?_ hflags
  intro past ev hhist hnone
  obtain ⟨rfl, -⟩ := List.append_inj' hhist rfl
  rw [htold] at hnone
  cases hnone

/-- The response to a request that came in at time `t`. -/
def linkResponse (payload : CreateUserRequest) (t : Timestamp) (user : User)
    (account : UserAccount) : CreateUserResponse where
  userId := user.id
  nid := user.nid
  providerId := payload.providerId
  ledgerAccountId := account.ledgerAccountId
  isExistingUser := decide (user.createdAt < t - seconds 1)
  createdAt := user.createdAt
  updatedAt := user.updatedAt

/-- What is left when the rows are known. -/
def provision (env : Env) (payload : CreateUserRequest) (t : Timestamp) (user : User)
    (account : UserAccount) : Handler (StatusCode × CreateUserResponse) :=
  if decide (account.createdAt ≥ t - seconds 1) then do
    let _ ← orFail (createAccount (userLedgerAccount env account.ledgerAccountId user.id))
      (fun _ => (.internalServerError, "Failed to provision ledger account"))
    return (.created, linkResponse payload t user account)
  else return (.created, linkResponse payload t user account)

theorem linkResponse_flag {r : CreateUserResponse} (h : (.ret (.ok (.created, .createUser
      (linkResponse payload t user account))) : Prog Eff Eff.Resp Answer) =
        .ret (.ok (.created, .createUser r))) :
    r.isExistingUser = true ↔ user.createdAt < t - seconds 1 := by
  obtain ⟨-, hr⟩ := Prod.mk.inj (Except.ok.inj (Prog.ret.inj h))
  rw [← Body.createUser.inj hr]
  exact decide_eq_true_iff

theorem provision_visits {past : History} {ev : Event Eff Eff.Resp}
    (htold : told? (past ++ [ev]) = some (user, account))
    (htime : requestTime? (past ++ [ev]) = some t) :
    (answerWith .createUser (provision env payload t user account)).Visits (LinkPoint env payload)
      (past ++ [ev]) := by
  by_cases hnew : t - seconds 1 ≤ account.createdAt
  · have hprov : provision env payload t user account = (do
        let _ ← orFail (createAccount (userLedgerAccount env account.ledgerAccountId user.id))
          (fun _ => (.internalServerError, "Failed to provision ledger account"))
        return (.created, linkResponse payload t user account)) := if_pos (decide_eq_true hnew)
    rw [hprov]
    refine ⟨.told htold htime (fun _ _ h => by cases h) ?_ (fun _ h => by cases h), fun sent => ?_⟩
    · exact fun _ _ _ _ => ⟨fun _ => hnew, fun _ => ⟨_, rfl⟩⟩
    cases sent with
    | none => exact .later htold htime (fun _ _ h => by cases h) (fun _ h => by cases h)
    | some i =>
        refine ⟨.later htold htime (fun _ _ h => by cases h) (fun _ h => by cases h),
          fun reply => ?_⟩
        have htold := told?_append htold [⟨.tbSend (.createAccount
          (userLedgerAccount env account.ledgerAccountId user.id)), some i⟩]
        have htime := requestTime?_append htime [⟨.tbSend (.createAccount
          (userLedgerAccount env account.ledgerAccountId user.id)), some i⟩]
        have hfails : ∀ e, (.ret (.error e) : Prog Eff Eff.Resp Answer).Visits
            (LinkPoint env payload) (past ++ [ev] ++ [⟨.tbSend (.createAccount
              (userLedgerAccount env account.ledgerAccountId user.id)), some i⟩] ++
                [⟨.tbRecv i, reply⟩]) :=
          fun e => .later htold htime (fun _ _ h => by cases h) (fun _ h => by cases h)
        cases reply with
        | none => exact hfails _
        | some m =>
            cases m with
            | createAccounts out =>
                cases out with
                | error e => exact hfails _
                | ok rejections =>
                    exact .later htold htime (fun _ _ h => by cases h)
                      (fun _ h => linkResponse_flag h)
            | _ => exact hfails _
  · have hprov : provision env payload t user account =
        pure (.created, linkResponse payload t user account) :=
      if_neg (by simpa using hnew)
    rw [hprov]
    refine .told htold htime (fun _ _ h => by cases h) ?_ (fun _ h => linkResponse_flag h)
    refine fun _ _ _ _ => ⟨?_, fun h => absurd h hnew⟩
    rintro ⟨k, hk⟩
    cases hk

theorem createOrLink_visits (env : Env) (payload : CreateUserRequest) :
    (serve env (.createOrLink payload)).Visits (LinkPoint env payload) [] := by
  refine ⟨.untold rfl (fun _ _ h => by cases h), fun t => ⟨.untold rfl (fun _ _ h => by cases h),
    fun lid => ⟨.untold rfl (fun _ _ h => by cases h), fun actor => ⟨.untold rfl ?_, fun r => ?_⟩⟩⟩⟩
  · intro call k h
    obtain ⟨heff, -⟩ := Prog.call.inj h
    exact ⟨_, _, _, _, (Eff.db.inj heff).symm⟩
  · cases r with
    | error e => exact .untold rfl (fun _ _ h => by cases h)
    | ok out =>
        obtain ⟨user, account⟩ := out
        exact @provision_visits env payload t user account
          [⟨.now, t⟩, ⟨.newV4 .userLedger, lid⟩, ⟨.newV4 .other, actor⟩] _ rfl rfl

theorem serve_linkVisits (env : Env) (q : Request) :
    (serve env q).Visits (fun hist p => ∀ payload, q = .createOrLink payload →
      LinkPoint env payload hist p) [] := by
  by_cases hq : ∃ payload, q = .createOrLink payload
  · obtain ⟨payload, rfl⟩ := hq
    refine (createOrLink_visits env payload).mono (fun hist p h payload' hq => ?_)
    obtain rfl := Request.createOrLink.inj hq
    exact h
  · exact Prog.Visits.of_forall (fun _ _ payload h => absurd ⟨payload, h⟩ hq) _

end

/-! ### When it is told -/

/-- The step in which the call of task `i`, which came in at `requestTime`, returns the rows. -/
structure ToldAt (env : Env) (c c' : State) (i : Nat) (payload : CreateUserRequest)
    (requestTime : Timestamp) (user : User) (account : UserAccount) : Prop where
  step : ∃ ch, (machine env).step c (.step i ch) = some c'
  before : ∃ t, c.tasks[i]? = some t ∧ told? t.hist = none
  after : ∃ t, c'.tasks[i]? = some t ∧ t.req = .createOrLink payload ∧
    requestTime? t.hist = some requestTime ∧ told? t.hist = some (user, account)

/-- There is a row of the user before the step. -/
def Existed (c : State) (payload : CreateUserRequest) : Prop :=
  ∃ u ∈ c.world.pg.users, u.nid = payload.nid

/-- The step inserts the row of the account. -/
def Inserted (c c' : State) (account : UserAccount) : Prop :=
  account ∉ c.world.pg.userAccounts ∧ account ∈ c'.world.pg.userAccounts

/-- The next effect of the task asks for the ledger account. -/
def Requests (env : Env) (c' : State) (i : Nat) (user : User) (account : UserAccount) : Prop :=
  ∃ t p, c'.tasks[i]? = some t ∧ t.rest = some p ∧ Asks env user account p

section

variable {env : Env} {c c' : State} {i : Nat} {payload : CreateUserRequest}
  {requestTime : Timestamp} {user : User} {account : UserAccount}

/-- Every point of a `create_or_link` in a reachable state. -/
theorem Reachable.linkPoint (h : Reachable env c) {t : Serving} (ht : c.tasks[i]? = some t)
    (hq : t.req = .createOrLink payload) {p : Prog Eff Eff.Resp Answer} (hp : t.rest = some p) :
    LinkPoint env payload t.hist p := by
  obtain ⟨now, hreach⟩ := h
  exact hreach.visits (serve_linkVisits env) rfl (List.mem_of_getElem? ht) hp payload hq

/-- The event that tells a request of its rows. -/
theorem told?_concat_cases {hist : History} {ev : Event Eff Eff.Resp} {out : User × UserAccount}
    (hnone : told? hist = none) (h : told? (hist ++ [ev]) = some out) :
    ∃ nid p im em lid actor, ev = ⟨.db (.createOrLinkUser nid p im em lid actor), .ok out⟩ := by
  unfold told? at hnone h
  rw [List.findSome?_append, hnone, Option.none_or, List.findSome?_singleton] at h
  split at h
  · obtain rfl := Option.some.inj h
    exact ⟨_, _, _, _, _, _, rfl⟩
  · cases h

/-- What the step does to the tables, and what the task does next. -/
theorem ToldAt.linked (hreach : Reachable env c)
    (htold : ToldAt env c c' i payload requestTime user account) :
    (∃ lid, Linked c.world.pg c'.world.pg payload.nid payload.providerId lid c.world.dbNow user
      account) ∧
    (Requests env c' i user account ↔ requestTime - seconds 1 ≤ account.createdAt) := by
  obtain ⟨⟨ch, hs⟩, ⟨t, ht, hbefore⟩, t', ht', hq, htime, hafter⟩ := htold
  have hreach' := (hreach.step hs).1
  -- Only a step of the task itself adds to its history.
  rcases (machine env).step_cases hs with ⟨_, h, -⟩ |
    ⟨j, ch', q, hist, e, k, r, w, hlabel, hj, hx, rfl⟩ | ⟨_, _, _, _, _, h, -⟩ | ⟨_, _, h, -⟩
  · cases h
  · obtain ⟨rfl, rfl⟩ := Label.step.inj hlabel
    obtain rfl := Option.some.inj (hj.symm.trans ht)
    have hset := List.getElem?_set_self (a := (⟨q, hist ++ [⟨e, r⟩], some (k r)⟩ : Serving))
      (List.getElem?_eq_some_iff.mp hj).1
    obtain rfl := Option.some.inj (hset.symm.trans ht')
    obtain ⟨nid, p, im, em, lid, actor, hev⟩ := told?_concat_cases hbefore hafter
    obtain ⟨rfl, hr⟩ := Event.mk.inj hev
    obtain rfl := eq_of_heq hr
    obtain ⟨im', em', lid', actor', hcall⟩ := (hreach.linkPoint hj hq rfl).calls _ k rfl
    constructor
    · obtain ⟨-, happly⟩ := World.dbExec_row hx
      obtain ⟨pg, n, htx, -, rfl⟩ := World.dbApply_cases happly
      obtain ⟨rfl, rfl, -⟩ := DbCall.createOrLinkUser.inj hcall
      rcases createOrLinkUser_spec htx with ⟨_, he, -⟩ | ⟨user', account', hsome, hl⟩
      · cases he
      · obtain ⟨rfl, rfl⟩ := Prod.mk.inj (Except.ok.inj hsome)
        exact ⟨lid, hl⟩
    · have hasks := (hreach'.linkPoint ht' hq rfl).asks hist _ requestTime user account rfl
        hbefore hafter htime
      rw [← hasks]
      constructor
      · rintro ⟨t, p, ht, hp, h⟩
        obtain rfl := Option.some.inj (ht.symm.trans ht')
        obtain rfl := Option.some.inj hp
        exact h
      · exact fun h => ⟨_, _, ht', rfl, h⟩
  · cases h
  · cases h

/-- The user that is returned is an existing one, or of now. -/
theorem Linked.existed {pg pg' : Pg} {nid : String} {p lid : Uuid} {now : Timestamp}
    (hl : Linked pg pg' nid p lid now user account) :
    user ∈ pg.users ∧ user.nid = nid ∨ (∀ u ∈ pg.users, u.nid ≠ nid) ∧ user.createdAt = now := by
  obtain ⟨pg₁, pg₂, huser, -, -⟩ := hl.steps
  cases huser with
  | old hmem hnid _ => exact Or.inl ⟨hmem, hnid⟩
  | new logs hfree _ _ hnow _ => exact Or.inr ⟨fun u hu => (hfree u hu).2.1, hnow⟩

/-- What an answer says of the user. -/
theorem ToldAt.flag (hreach : Reachable env c)
    (htold : ToldAt env c c' i payload requestTime user account) {c'' : State}
    (hrun : (machine env).Reach (fun _ _ => True) c' c'') {t : Serving} {r : CreateUserResponse}
    (ht : c''.tasks[i]? = some t) (ha : t.answer? = some (.ok (.created, .createUser r))) :
    r.isExistingUser = true ↔ user.createdAt < requestTime - seconds 1 := by
  obtain ⟨⟨ch, hs⟩, -, t', ht', hq, htime, hafter⟩ := htold
  obtain ⟨t'', ht'', hreq, more, hmore⟩ := hrun.hist_prefix ht'
  obtain rfl := Option.some.inj (ht''.symm.trans ht)
  have hrest : t''.rest = some (.ret (.ok (.created, .createUser r))) := by
    unfold Task.answer? at ha
    split at ha
    · next a hr => rw [hr, Option.some.inj ha]
    · cases ha
  have hpoint := ((hreach.step hs).1.extend hrun).linkPoint ht (hreq.trans hq) hrest
  refine hpoint.flags requestTime user account r ?_ ?_ rfl
  · rw [← hmore]
    exact told?_append hafter more
  · rw [← hmore]
    exact requestTime?_append htime more

end

/-- **New and existing.** Whatever the clocks, the durations and the history: an answer
tells whether the user existed exactly when an existing row is more than a second old and a
new one less than a second behind; and a new account is asked for exactly when it is less
than a second behind. -/
theorem createOrLink_tells_iff {env : Env} {c c' : State} {i : Nat} {payload : CreateUserRequest}
    {requestTime : Timestamp} {user : User} {account : UserAccount} (hreach : Reachable env c)
    (htold : ToldAt env c c' i payload requestTime user account) :
    (∀ c'', (machine env).Reach (fun _ _ => True) c' c'' → ∀ t r, c''.tasks[i]? = some t →
      t.answer? = some (.ok (.created, .createUser r)) →
      ((r.isExistingUser = true ↔ Existed c payload) ↔
        (∀ u ∈ c.world.pg.users, u.nid = payload.nid → u.createdAt < requestTime - seconds 1) ∧
        (¬ Existed c payload → requestTime - seconds 1 ≤ c.world.dbNow))) ∧
    ((Inserted c c' account → Requests env c' i user account) ↔
      (Inserted c c' account → requestTime - seconds 1 ≤ c.world.dbNow)) := by
  obtain ⟨⟨lid, hl⟩, hrequests⟩ := htold.linked hreach
  have htables := hreach.inv.tables
  constructor
  · intro c'' hrun t r ht ha
    rw [htold.flag hreach hrun ht ha]
    rcases Linked.existed hl with ⟨hmem, hnid⟩ | ⟨hfree, hnow⟩
    -- NIDs are unique: the row that is found is the only one the answer could be about.
    · have hexisted : Existed c payload := ⟨user, hmem, hnid⟩
      have honly : ∀ u ∈ c.world.pg.users, u.nid = payload.nid → u = user := fun u hu hu' =>
        List.inj_on_of_nodup_map htables.userNids hu hmem (hu'.trans hnid.symm)
      constructor
      · intro h
        refine ⟨fun u hu hu' => ?_, fun hnot => absurd hexisted hnot⟩
        rw [honly u hu hu']
        exact h.mpr hexisted
      · exact fun h => ⟨fun _ => hexisted, fun _ => h.1 user hmem hnid⟩
    · have hnot : ¬ Existed c payload := fun ⟨u, hu, hu'⟩ => hfree u hu hu'
      rw [hnow]
      constructor
      · intro h
        refine ⟨fun u hu hu' => absurd hu' (hfree u hu), fun _ => ?_⟩
        exact Int.not_lt.mp (fun hlt => hnot (h.mp hlt))
      · intro h
        have hle := h.2 hnot
        exact ⟨fun hlt => absurd hlt (Int.not_lt.mpr hle), fun h => absurd h hnot⟩
  · rw [hrequests]
    -- An account that was not there carries the time of the database, whatever the request's.
    have hnew : Inserted c c' account → account.createdAt = c.world.dbNow := by
      rintro ⟨hold, -⟩
      rcases Linked.found htables hl with hfound | hnow
      · exact absurd hfound.1 hold
      · exact hnow
    constructor
    · intro h hins
      rw [← hnew hins]
      exact h hins
    · intro h hins
      rw [hnew hins]
      exact h hins

/-! ### Twice within a second -/

/-- A request to link the user of the examples. -/
def linkRequest : CreateUserRequest := ⟨"0012345678", ⟨1002⟩, none, none⟩

/-- The request arrives, and comes to its repository call. -/
def beforeCall (c : State) : State :=
  serveAlone defaultEnv c.tasks.length 3 (arrived defaultEnv c (.createOrLink linkRequest))

/-- How the call returns. -/
def callStep (c : State) : Option State :=
  (machine defaultEnv).step (beforeCall c)
    (.step c.tasks.length (counting (beforeCall c).world))

/-- The call has returned. -/
def afterCall (c : State) : State := (callStep c).getD (beforeCall c)

/-- The request is served to its end. -/
def afterLink (c : State) : State := serveAlone defaultEnv c.tasks.length 60 (afterCall c)

/-- The user of the examples. -/
def linkedUser : User := ⟨⟨1008⟩, "0012345678", "{}", 0, 0⟩

/-- The account of the user at the provider of the examples. -/
def linkedAccount : UserAccount := ⟨⟨1010⟩, ⟨1008⟩, ⟨1002⟩, ⟨1006⟩, .active, 0, 0⟩

theorem beforeCall_reachable {c : State} (h : Reachable defaultEnv c) :
    Reachable defaultEnv (beforeCall c) :=
  (arrived_reachable h _).extend (serveAlone_reach _ _ _ _)

theorem afterLink_reach (c : State) :
    (machine defaultEnv).Reach (fun _ _ => True) (afterCall c) (afterLink c) :=
  (serveAlone_reach _ _ _ _).mono (fun _ _ _ => trivial)

/-- The call, from what is read off its two ends. -/
theorem linked_toldAt {c : State} (hstep : (callStep c).isSome)
    (hbefore : (beforeCall c).tasks[c.tasks.length]?.map (fun t => told? t.hist) = some none)
    (hafter : (afterCall c).tasks[c.tasks.length]?.map
      (fun t => (t.req, requestTime? t.hist, told? t.hist)) =
        some (.createOrLink linkRequest, some 0, some (linkedUser, linkedAccount))) :
    ToldAt defaultEnv (beforeCall c) (afterCall c) c.tasks.length linkRequest 0 linkedUser
      linkedAccount := by
  obtain ⟨c', hc'⟩ := Option.isSome_iff_exists.mp hstep
  obtain ⟨t, ht, hnone⟩ := Option.map_eq_some_iff.mp hbefore
  obtain ⟨t', ht', h⟩ := Option.map_eq_some_iff.mp hafter
  obtain ⟨hreq, h⟩ := Prod.mk.inj h
  obtain ⟨htime, htold⟩ := Prod.mk.inj h
  refine ⟨⟨counting (beforeCall c).world, ?_⟩, ⟨t, ht, hnone⟩, t', ht', hreq, htime, htold⟩
  have hafterCall : afterCall c = c' := by rw [afterCall, hc', Option.getD_some]
  rw [hafterCall]
  exact hc'

/-- The first link of the user: both clocks show 0. -/
theorem createOrLink_tells_first :
    ∃ r, (afterLink oneProvider).tasks[1]?.bind Task.answer? = some (.ok (.created, .createUser r)) ∧
      (r.isExistingUser = true ↔ Existed (beforeCall oneProvider) linkRequest) ∧
      (Inserted (beforeCall oneProvider) (afterCall oneProvider) linkedAccount →
        Requests defaultEnv (afterCall oneProvider) 1 linkedUser linkedAccount) := by
  have hlength : oneProvider.tasks.length = 1 := by decide +kernel
  have hruns : (callStep oneProvider).isSome ∧
      (beforeCall oneProvider).tasks[oneProvider.tasks.length]?.map (fun t => told? t.hist) =
        some none ∧
      (afterCall oneProvider).tasks[oneProvider.tasks.length]?.map
        (fun t => (t.req, requestTime? t.hist, told? t.hist)) =
          some (.createOrLink linkRequest, some 0, some (linkedUser, linkedAccount)) ∧
      (afterLink oneProvider).tasks[1]?.bind Task.answer? =
        some (.ok (.created, .createUser (linkResponse linkRequest 0 linkedUser linkedAccount))) ∧
      (beforeCall oneProvider).world.pg.users = [] ∧ (beforeCall oneProvider).world.dbNow = 0 := by
    decide +kernel
  obtain ⟨hstep, hbefore, hafter, hanswer, husers, hnow⟩ := hruns
  have hreach : Reachable defaultEnv (beforeCall oneProvider) :=
    beforeCall_reachable (request_reachable (boot_reachable _ _) _)
  have htells := createOrLink_tells_iff hreach (linked_toldAt hstep hbefore hafter)
  have hle : (0 : Timestamp) - seconds 1 ≤ (beforeCall oneProvider).world.dbNow := by
    rw [hnow]
    decide
  rw [hlength] at htells
  obtain ⟨t, ht, ha⟩ := Option.bind_eq_some_iff.mp hanswer
  refine ⟨_, hanswer, (htells.1 _ (afterLink_reach _) t _ ht ha).mpr ⟨?_, fun _ => hle⟩,
    htells.2.mpr (fun _ => hle)⟩
  rw [husers]
  exact List.forall_mem_nil _

/-- Linked again within the second, the user is told to be new. -/
theorem linkedTwice_untold :
    ¬ ∀ (env : Env) (c c' : State) (i : Nat) (payload : CreateUserRequest)
      (requestTime : Timestamp) (user : User) (account : UserAccount), Reachable env c →
      ToldAt env c c' i payload requestTime user account →
      (∀ c'', (machine env).Reach (fun _ _ => True) c' c'' → ∀ t r, c''.tasks[i]? = some t →
        t.answer? = some (.ok (.created, .createUser r)) →
        (r.isExistingUser = true ↔ Existed c payload)) ∧
      (Inserted c c' account → Requests env c' i user account) := by
  intro hall
  have hruns : (callStep oneUser).isSome ∧
      (beforeCall oneUser).tasks[oneUser.tasks.length]?.map (fun t => told? t.hist) =
        some none ∧
      (afterCall oneUser).tasks[oneUser.tasks.length]?.map
        (fun t => (t.req, requestTime? t.hist, told? t.hist)) =
          some (.createOrLink linkRequest, some 0, some (linkedUser, linkedAccount)) ∧
      (afterLink oneUser).tasks[oneUser.tasks.length]?.bind Task.answer? =
        some (.ok (.created, .createUser (linkResponse linkRequest 0 linkedUser linkedAccount))) ∧
      (beforeCall oneUser).world.pg.users = [linkedUser] := by
    decide +kernel
  obtain ⟨hstep, hbefore, hafter, hanswer, husers⟩ := hruns
  obtain ⟨t, ht, ha⟩ := Option.bind_eq_some_iff.mp hanswer
  have htells := (hall _ _ _ _ _ _ _ _ (beforeCall_reachable oneUser_reachable)
    (linked_toldAt hstep hbefore hafter)).1 _ (afterLink_reach _) t _ ht ha
  have hexisted : Existed (beforeCall oneUser) linkRequest :=
    ⟨linkedUser, by rw [husers]; exact List.mem_singleton_self _, rfl⟩
  have hflag : (linkResponse linkRequest 0 linkedUser linkedAccount).isExistingUser = false := by
    decide
  rw [htells.mpr hexisted] at hflag
  cases hflag

end Wurzburg.System
