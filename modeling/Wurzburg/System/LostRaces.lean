import Wurzburg.Db.Faults
import Wurzburg.System.PriorityCache
import Wurzburg.System.Schedule
import Wurzburg.System.Workload

/-!
# Wurzburg.System.LostRaces

How a request is answered that loses a race to create a priority.

`create_user_priority` tells a uniqueness violation by the text of the error. But every
error of `create_priority_config` is wrapped in a context that shows nothing of it, so no
request is ever answered 409 (`Handling.Sound`). Lost races are reported as conflicts only
where there are none.
-/

namespace Wurzburg.System

open Wurzburg.Lib Wurzburg.Db Wurzburg.Api

/-! ### What is reported -/

/-- The error of a repository call. -/
def failure? : (e : Eff) → e.Resp → Option RepoError
  | .db _, .error e => some e
  | _, _ => none

/-- A repository call that a unique index refused. -/
def violates (ev : Event Eff Eff.Resp) : Bool :=
  (failure? ev.eff ev.reply).any (fun e => e.source.isUnique)

/-- A creation that the index on the keys or the one on active configurations refused. -/
def losesRace (ev : Event Eff Eff.Resp) : Bool :=
  match ev.eff with
  | .db (.createPriorityConfig ..) => (failure? ev.eff ev.reply).any (fun e =>
      e.source = .uniqueViolation "user_priority_configs_idempotency_key_key" ∨
        e.source = .uniqueViolation "idx_user_active_priority_config")
  | _ => false

theorem losesRace_violates {ev : Event Eff Eff.Resp} (h : losesRace ev = true) :
    violates ev = true := by
  unfold losesRace at h
  split at h
  · unfold violates
    cases hfailure : failure? ev.eff ev.reply with
    | none =>
        rw [hfailure] at h
        cases h
    | some e =>
        rw [hfailure] at h
        rcases of_decide_eq_true h with hsource | hsource
        · rw [Option.any_some, hsource]
          rfl
        · rw [Option.any_some, hsource]
          rfl
  · cases h

namespace Workload

/-- A lost race is answered 409, and 500 is answered only for failures that are not
uniqueness violations. -/
def Reported (st : Workload) : Prop :=
  ∀ h ∈ st.handlings, h.req.createsPriority = true → ∀ a, h.answer? = some a →
    ((∃ ev ∈ h.hist, losesRace ev = true) → a.status = .conflict) ∧
    (a.status = .internalServerError → ∀ ev ∈ h.hist, violates ev = false)

/-- No request that has been answered had an insertion refused by a unique index. -/
def Unviolated (st : Workload) : Prop :=
  ∀ h ∈ st.handlings, h.req.createsPriority = true → h.answer?.isSome = true →
    ∀ ev ∈ h.hist, violates ev = false

/-- An insertion into the tables of priorities meets no row in their unique indexes. -/
def clear (st : Workload) : Act → Bool
  | .move i .run =>
      match st.handlings[i]? with
      | some ⟨_, _, .within _ _ s⟩ =>
          match s.rest with
          | .call e _ => !e.collides (s.view st.pg) (s.uuid s.drawn)
          | .ret _ => true
      | _ => true
  | _ => true

end Workload

/-! ### The handler -/

/-- Only the calls of the priorities are made, and a creation that failed is answered at
once. -/
def faultLaw : (e : Eff) → (e.Resp → Prog Eff Eff.Resp Answer) → Prop
  | .db (.createPriorityConfig ..), k => ∀ e, k (.error e) = .ret (.error (createError e))
  | .db (.cancelActivePriorityConfig ..), _ => True
  | .db call, _ => (Eff.db call).isRead
  | _, _ => True

section

variable {env : Env} {u : Uuid} {wrap : PriorityConfigResponse → Body}

theorem Eff.isRead.faultLaw {e : Eff} (h : e.isRead) (k : e.Resp → Prog Eff Eff.Resp Answer) :
    faultLaw e k := by
  cases e with
  | db call => cases call <;> first | exact h | exact h.elim
  | _ => trivial

theorem publishPriority_faultLaw {key : String} {resolved : List ResolvedItem}
    {expiresAt : Option Timestamp} :
    Prog.ObeysE faultLaw (fun r => r.map (fun a => (a.1, wrap a.2)))
      (publishPriority env u key resolved expiresAt) := by
  refine ⟨fun e => rfl, fun r => ?_⟩
  cases r with
  | error e => trivial
  | ok d =>
      refine (ttlNow_uses expiresAt).obeys_bind (fun e k h => h.faultLaw k) (fun at_ => ?_)
      have hredis : Prog.UsesE (fun e => ∀ k, faultLaw e k)
          (redis (.set (priorityKey u) (env.priorityToJson d) (ttlSeconds expiresAt at_))) :=
        redis_uses (fun _ => trivial)
      exact hredis.obeys_bind (fun e k h => h k) (fun _ => trivial)

theorem createUserPriority_faultLaw {header : Option String} {payload : CreatePriorityRequest} :
    Prog.ObeysE faultLaw (fun r => r.map (fun a => (a.1, wrap a.2)))
      (createUserPriority env u header payload) := by
  refine createUserPriority_obeys (fun e k h => h.faultLaw k) (fun key resolved => ?_)
  unfold replacePriority
  have hfree : ∀ {cmd : RedisCmd}, Prog.UsesE (fun e => ∀ k, faultLaw e k) (redis cmd) :=
    redis_uses (fun _ => trivial)
  refine hfree.obeys_bind (fun e k h => h k) (fun _ => ?_)
  refine hfree.obeys_bind (fun e k h => h k) (fun _ => ?_)
  have hactive : Prog.UsesE Eff.isRead (db (.getActivePriorityConfig u)) := db_uses trivial
  refine hactive.obeys_bind (fun e k h => h.faultLaw k) (fun active => ?_)
  split
  · have hcancel : Prog.UsesE (fun e => ∀ k, faultLaw e k)
        (db (.cancelActivePriorityConfig u u)) := db_uses (fun _ => trivial)
    exact hcancel.obeys_bind (fun e k h => h k) (fun _ => publishPriority_faultLaw)
  · exact publishPriority_faultLaw

end

theorem serve_faultLaw {env : Env} {q : Request} (hq : q.createsPriority = true) :
    (serve env q).Obeys faultLaw := by
  cases q with
  | createUserPriority u header payload => exact createUserPriority_faultLaw
  | _ => cases hq

/-! ### Repository calls -/

/-- The calls that insert priorities. -/
def DbCall.creates : DbCall → Bool
  | .createPriorityConfig .. => true
  | _ => false

/-- The statements of a call of the priorities. -/
def DbCall.statements (call : DbCall) : Sql → Prop :=
  if call.creates then Sql.ofPriorities else Sql.insertsNothing

/-- The contexts of its errors. -/
def DbCall.contexts (call : DbCall) (contexts : List String) : Prop :=
  call.creates = true → Mute contexts

/-- A call within a run that is `clear`, or one that inserts nothing, has not been refused by
a unique index. -/
def Clean (isClear : Prop) {call : DbCall} (s : Session DbCall call.Row) : Prop :=
  ∃ φ, s.rest.Follows (faults call.statements) (Blames call.contexts) φ ∧
    (isClear ∨ call.creates = false → ∀ error, φ = some error → error.isUnique = false)

theorem DbCall.stops_of_creates_eq_false {call : DbCall} (h : call.creates = false)
    (hstops : call.body.Stops Sql.insertsNothing (fun _ => True)) :
    call.body.Stops call.statements call.contexts := by
  have hstatements : call.statements = Sql.insertsNothing := by
    unfold DbCall.statements
    rw [h, if_neg Bool.false_ne_true]
  have hcontexts : call.contexts = fun _ => True := by
    funext cs
    unfold DbCall.contexts
    rw [h]
    simp
  rw [hstatements, hcontexts]
  exact hstops

theorem faultLaw.stops {call : DbCall} {k : Eff.Resp (.db call) → Prog Eff Eff.Resp Answer}
    (h : faultLaw (.db call) k) : call.body.Stops call.statements call.contexts := by
  cases call with
  | createPriorityConfig key u items expiresAt actor =>
      have hstops := createPriorityConfig_stops key u items expiresAt actor
      exact Prog.Follows.weaken hstops (fun φ r hr => by
        cases r with
        | ok d => exact hr
        | error e => exact ⟨hr.1, fun _ => hr.2⟩)
  | cancelActivePriorityConfig u actor =>
      exact DbCall.stops_of_creates_eq_false rfl (cancelActivePriorityConfig_stops u actor)
  | getPriorityConfigByIdempotencyKey key =>
      exact DbCall.stops_of_creates_eq_false rfl
        (.bind (Repo.stops_query trivial trivial) withItems_stops)
  | getActivePriorityConfig u =>
      exact DbCall.stops_of_creates_eq_false rfl
        (.bind (Repo.stops_query trivial trivial) withItems_stops)
  | getAllPriorityConfigs u =>
      exact DbCall.stops_of_creates_eq_false rfl
        (.bind (Repo.stops_query trivial trivial) detailsOf_stops)
  | createProvider _ _ | createOrLinkUser _ _ _ _ _ _ | executeCreditTransfer _ _ _ _ _ _ _ _
  | executeDebitTransfer _ _ _ _ _ _ _ _ | recordSystemAccount _ _ _ _ => exact h.elim
  | _ => exact DbCall.stops_of_creates_eq_false rfl (Repo.stops_query trivial trivial)

section

variable {isClear : Prop} {call : DbCall} {s s' : Session DbCall call.Row} {pg pg' : Pg}
  {m : Session.Move}

theorem Clean.moves (h : Clean isClear s) (hm : isViolation m = false) (hmoves : s.Moves pg m s' pg')
    (hclear : isClear → m = .run → ∀ e k, s.rest = .call e k →
      e.collides (s.view pg) (s.uuid s.drawn) = false) : Clean isClear s' := by
  obtain ⟨φ, hfollows, hφ⟩ := h
  cases hmoves with
  | find => exact ⟨φ, hfollows, hφ⟩
  | @ran e k seen row t hrest hgoing hsight hexec =>
      rw [hrest] at hfollows
      exact ⟨none, hfollows.2 (.ok row), fun _ error herror => (by cases herror)⟩
  | @refused e k seen error t hrest hsight hexec =>
      rw [hrest] at hfollows
      refine ⟨some error, hfollows.2 (.error error), fun hsafe error' herror => ?_⟩
      obtain rfl := Option.some.inj herror
      obtain ⟨-, hstatement⟩ := hfollows.1
      have hstatement : call.statements e := hstatement
      unfold DbCall.statements at hstatement
      by_cases hcreates : call.creates = true
      · rw [if_pos hcreates] at hstatement
        obtain hsafe | hsafe := hsafe
        -- A uniqueness violation is a collision with what the session sees, and there was none.
        · have hfree := hclear hsafe rfl e k hrest
          cases hunique : error.isUnique with
          | false => rfl
          | true =>
              have hcollides := Sql.exec_violation hstatement hunique hexec
              have hview : seen = s.view pg := by
                cases e with
                | insertConfig _ _ _ | insertItem _ => exact (Option.some.inj hsight).symm
                | _ => cases hcollides
              rw [hview] at hcollides
              exact absurd (hfree.symm.trans hcollides) Bool.false_ne_true
        · rw [hcreates] at hsafe
          cases hsafe
      · rw [if_neg hcreates] at hstatement
        exact Sql.exec_insertsNothing hstatement hexec
  | committed hrest =>
      rw [hrest] at hfollows
      exact ⟨none, hfollows.2 (.ok ()), fun _ error herror => (by cases herror)⟩
  | rolledBack hrest =>
      rw [hrest] at hfollows
      exact ⟨none, hfollows.2 (.ok ()), fun _ error herror => (by cases herror)⟩
  | @failed e k error hrest =>
      rw [hrest] at hfollows
      refine ⟨some error, hfollows.2 (.error error), fun _ error' herror => ?_⟩
      obtain rfl := Option.some.inj herror
      cases error with
      | uniqueViolation c => cases hm
      | _ => rfl

end

/-! ### Every state -/

/-- What holds of every request to create a priority, in a run that is `clear` or in any. -/
structure Handling.Sound (isClear : Prop) (h : Handling) : Prop where
  point : match h.point with
    | .between p => p.Obeys faultLaw
    | .within call k s => (Prog.call (.db call) k).Obeys faultLaw ∧ Clean isClear s
    | .gone => True
  clear : isClear → ∀ ev ∈ h.hist, violates ev = false
  violated : (∃ ev ∈ h.hist, violates ev = true) → h.point = .gone ∨
    h.point = .between (.ret (.error internalError))

/-- A request that a unique index has refused is not on its way any more. -/
theorem Handling.Sound.unviolated {isClear : Prop} {h : Handling} (hsound : h.Sound isClear)
    (hway : h.point ≠ .gone ∧ h.point ≠ .between (.ret (.error internalError))) :
    ∀ ev ∈ h.hist, violates ev = false := by
  intro ev hev
  by_contra hviolates
  rcases hsound.violated ⟨ev, hev, by simpa using hviolates⟩ with hgone | hanswered
  · exact hway.1 hgone
  · exact hway.2 hanswered

section

variable {env : Env} {isClear : Prop} {q : Request} {hist : List (Event Eff Eff.Resp)}

theorem Handling.Sound.arrived (hq : q.createsPriority = true) :
    Handling.Sound isClear ⟨q, [], .between (serve env q)⟩ :=
  ⟨serve_faultLaw hq, fun _ _ h => absurd h List.not_mem_nil,
    fun ⟨_, h, _⟩ => absurd h List.not_mem_nil⟩

/-- A repository call returns. -/
theorem Handling.Sound.returned {call : DbCall}
    {k : Except RepoError call.Row → Prog Eff Eff.Resp Answer} {r : Except RepoError call.Row}
    (hhist : ∀ ev ∈ hist, violates ev = false) (hlaw : (Prog.call (.db call) k).Obeys faultLaw)
    (hr : ∀ e, r = .error e → call.contexts e.contexts ∧
      (isClear ∨ call.creates = false → e.source.isUnique = false)) :
    Handling.Sound isClear ⟨q, hist ++ [⟨.db call, r⟩], .between (k r)⟩ := by
  have hnew : ∀ ev ∈ hist ++ [⟨.db call, r⟩], violates ev = true → ev = ⟨.db call, r⟩ := by
    intro ev hev hviolates
    rcases List.mem_append.mp hev with hev | hev
    · rw [hhist ev hev] at hviolates
      cases hviolates
    · exact List.mem_singleton.mp hev
  refine ⟨hlaw.2 r, fun hclear ev hev => ?_, ?_⟩
  · by_contra hviolates
    have hviolates : violates ev = true := by simpa using hviolates
    obtain rfl := hnew ev hev hviolates
    cases r with
    | ok row => cases hviolates
    | error e =>
        have hunique : e.source.isUnique = true := hviolates
        rw [(hr e rfl).2 (Or.inl hclear)] at hunique
        cases hunique
  · rintro ⟨ev, hev, hviolates⟩
    obtain rfl := hnew ev hev hviolates
    cases r with
    | ok row => cases hviolates
    | error e =>
        have hunique : e.source.isUnique = true := hviolates
        obtain ⟨hcontexts, hsafe⟩ := hr e rfl
        cases hcreates : call.creates with
        | false =>
            rw [hsafe (Or.inr hcreates)] at hunique
            cases hunique
        | true =>
            obtain ⟨c, cs, hcs, htext⟩ := hcontexts hcreates
            have herror : createError e = internalError := by
              unfold createError RepoError.toString
              rw [hcs, List.headD_cons, htext, if_neg Bool.false_ne_true]
            cases call with
            | createPriorityConfig key u items expiresAt actor =>
                have hk := hlaw.1 e
                rw [herror] at hk
                refine Or.inr ?_
                rw [hk]
            | _ => cases hcreates

/-- **One act.** -/
theorem Handling.Sound.goes {h h' : Handling} {st : Workload} {act : Workload.Act} {i : Nat}
    (hsound : h.Sound isClear) (hi : st.handlings[i]? = some h)
    (hact : isClear → st.clear act = true) (hgoes : Workload.Goes st.pg i act h h') :
    h'.Sound isClear := by
  have hpoint := hsound.point
  cases hgoes with
  | @replied answer q hist e k he =>
      have hhist := hsound.unviolated ⟨fun hc => (by cases hc), fun hc => (by cases hc)⟩
      -- only a repository call can be refused by a unique index
      have hnone : violates ⟨e, answer e⟩ = false := by
        cases e with
        | db call => cases he
        | _ => rfl
      have hall : ∀ ev ∈ hist ++ [⟨e, answer e⟩], violates ev = false := by
        intro ev hev
        rcases List.mem_append.mp hev with hev | hev
        · exact hhist ev hev
        · rw [List.mem_singleton.mp hev]
          exact hnone
      refine ⟨hpoint.2 (answer e), fun _ => hall, ?_⟩
      rintro ⟨ev, hev, hviolates⟩
      rw [hall ev hev] at hviolates
      cases hviolates
  | @connected now uuid q hist call k =>
      have hhist := hsound.unviolated ⟨fun hc => (by cases hc), fun hc => (by cases hc)⟩
      refine ⟨⟨hpoint, none, faultLaw.stops hpoint.1, fun _ error h => (by cases h)⟩,
        hsound.clear, ?_⟩
      rintro ⟨ev, hev, hviolates⟩
      rw [hhist ev hev] at hviolates
      cases hviolates
  | @refused message q hist call k r hr =>
      have hhist := hsound.unviolated ⟨fun hc => (by cases hc), fun hc => (by cases hc)⟩
      -- a failing connection is reported under its own contexts, and is no violation
      refine .returned hhist hpoint (fun e he => ?_)
      rw [hr] at he
      obtain rfl := Except.error.inj he
      refine ⟨fun hcreates => ?_, fun _ => rfl⟩
      cases call with
      | createPriorityConfig key u items expiresAt actor =>
          exact ⟨_, [], rfl, by decide⟩
      | _ => cases hcreates
  | @moved m q hist call k s s' pg' hm hmoves =>
      have hhist := hsound.unviolated ⟨fun hc => (by cases hc), fun hc => (by cases hc)⟩
      obtain ⟨hlaw, hclean⟩ := hpoint
      refine ⟨⟨hlaw, hclean.moves hm hmoves ?_⟩, hsound.clear, ?_⟩
      · rintro hclear rfl e k hrest
        have hact := hact hclear
        simp only [Workload.clear, hi, hrest] at hact
        simpa using hact
      · rintro ⟨ev, hev, hviolates⟩
        rw [hhist ev hev] at hviolates
        cases hviolates
  | @closed q hist call k s r hrest =>
      have hhist := hsound.unviolated ⟨fun hc => (by cases hc), fun hc => (by cases hc)⟩
      obtain ⟨hlaw, φ, hfollows, hφ⟩ := hpoint
      rw [hrest] at hfollows
      refine .returned hhist hlaw (fun e he => ?_)
      subst he
      obtain ⟨hphase, hcontexts⟩ := hfollows
      exact ⟨hcontexts, fun hsafe => hφ hsafe _ hphase⟩
  | dropped => exact ⟨trivial, hsound.clear, fun _ => Or.inl rfl⟩

/-- What holds of the requests in a run. -/
theorem Handling.Sound.run {ok : Workload → Workload.Act → Prop} {pg : Pg}
    {acts : List Workload.Act} (hok : ∀ st act, ok st act → isClear → st.clear act = true)
    (hacts : Workload.Along env ok (.start pg) acts) :
    ∀ h ∈ ((Workload.start pg).run env acts).handlings, h.req.createsPriority = true →
      h.Sound isClear := by
  refine hacts.handlings (fun q hq => .arrived hq) ?_
  intro st act i h h' hact hi hgoes hsound hq
  rw [hgoes.req] at hq
  exact (hsound hq).goes hi (hok st act hact) hgoes

end

/-! ### Lost races -/

/-- **A request that loses a race.** In every state of every run, lost races are reported as
conflicts, and only other failures as internal errors, exactly when no request that was
answered met a unique index; and they are where no insertion of the run met a row in one. -/
theorem createUserPriority_reports_iff (env : Env) (pg : Pg) (acts : List Workload.Act) :
    (((Workload.start pg).run env acts).Reported ↔ ((Workload.start pg).run env acts).Unviolated) ∧
      (Workload.Along env (fun st act => st.clear act = true) (.start pg) acts →
        ((Workload.start pg).run env acts).Reported) := by
  have hsound := @Handling.Sound.run env False (fun _ _ => True) pg acts
    (fun _ _ _ h => h.elim) (Acts.Along.trivially _)
  generalize hst : (Workload.start pg).run env acts = st at hsound ⊢
  have hreported : st.Unviolated → st.Reported := by
    intro hun h hh hq a ha
    have hnone := hun h hh hq (by rw [ha]; rfl)
    refine ⟨?_, fun _ => hnone⟩
    rintro ⟨ev, hev, hloses⟩
    have hviolates : violates ev = true := losesRace_violates hloses
    rw [hnone ev hev] at hviolates
    cases hviolates
  refine ⟨⟨?_, hreported⟩, fun hclear => hreported ?_⟩
  · intro hrep h hh hq hanswered ev hev
    by_contra hviolates
    have hviolates : violates ev = true := by simpa using hviolates
    obtain ⟨a, ha⟩ := Option.isSome_iff_exists.mp hanswered
    obtain hgone | hpoint := (hsound h hh hq).violated ⟨ev, hev, hviolates⟩
    · unfold Handling.answer? at ha
      rw [hgone] at ha
      cases ha
    · have ha' : h.answer? = some (.error internalError) := by
        unfold Handling.answer?
        rw [hpoint]
      rw [ha'] at ha
      obtain rfl := Option.some.inj ha
      have hnone := (hrep h hh hq _ ha').2 rfl ev hev
      rw [hviolates] at hnone
      cases hnone
  · have hclean := @Handling.Sound.run env True _ pg acts (fun _ _ h _ => h) hclear
    rw [hst] at hclean
    exact fun h hh hq _ => (hclean h hh hq).clear trivial

/-! ### Two requests at once -/

/-- The user of `oneUser` asks for a priority. -/
def askedUnder (key : String) : Request :=
  .createUserPriority ⟨1008⟩ (some key) ⟨[⟨⟨1002⟩, 0, .multiUse⟩], none⟩

/-- The other stores of `oneUser` answer. -/
def answers : (e : Eff) → e.Resp
  | .now => (0 : Timestamp)
  | .newV4 _ => (⟨0⟩ : Uuid)
  | .db call => .error ⟨call.connectionContexts, .connection "pool timed out"⟩
  | .redis _ => .ok ()
  | .kafka _ => .ok ()
  | .tbSend _ => some 0
  | .tbRecv _ => some (.tbAccounts (.ok oneUser.world.worker.ledger.accounts))

/-- Request `i` begins a call. -/
def begins (i : Nat) : Workload.Act :=
  .connect i 0 (fun n => ⟨BitVec.ofNat 128 (2000 + 100 * i + n)⟩)

/-- A call of request `i` that reads. -/
def looksUp (i : Nat) : List Workload.Act := [begins i, .move i .run, .close i]

/-- Request `i` up to the creation, when no configuration is in force. -/
def approaches (i : Nat) : List Workload.Act :=
  looksUp i ++ looksUp i ++ [.reply i answers, .reply i answers, .reply i answers,
    .reply i answers] ++ looksUp i

/-- Its creation up to the insertions. -/
def clears (i : Nat) : List Workload.Act :=
  [begins i, .move i .run, .move i .find, .move i .run]

/-- Its insertions, the commit and the answer. -/
def inserts (i : Nat) : List Workload.Act :=
  [.move i .run, .move i .run, .move i .run, .move i .commit, .close i, .reply i answers]

/-- The second request starts its creation when the first has committed. -/
def inTurn : List Workload.Act :=
  [.arrive (askedUnder "first"), .arrive (askedUnder "second")] ++ approaches 0 ++ approaches 1 ++
    clears 0 ++ inserts 0 ++ clears 1 ++ inserts 1

theorem createUserPriority_reports_inTurn :
    ((Workload.start oneUser.world.pg).run defaultEnv inTurn).Reported :=
  (createUserPriority_reports_iff defaultEnv oneUser.world.pg inTurn).2 (by decide +kernel)

/-- Both find no active configuration to cancel, and the second inserts when the first has
committed. -/
def atOnce : List Workload.Act :=
  [.arrive (askedUnder "first"), .arrive (askedUnder "second")] ++ approaches 0 ++ approaches 1 ++
    clears 0 ++ clears 1 ++ inserts 0 ++ [.move 1 .run, .close 1]

/-- The second is answered 500. -/
theorem atOnce_unreported :
    ¬ ∀ (env : Env) (pg : Pg) (acts : List Workload.Act),
      ((Workload.start pg).run env acts).Reported := by
  intro h
  have hreported := h defaultEnv oneUser.world.pg atOnce
  have hsecond : ((Workload.start oneUser.world.pg).run defaultEnv atOnce).handlings[1]?.map
      (fun h => (h.req.createsPriority, h.answer?.map Answer.status, h.hist.any losesRace)) =
        some (true, some .internalServerError, true) := by
    decide +kernel
  obtain ⟨h, hh, heq⟩ := Option.map_eq_some_iff.mp hsecond
  obtain ⟨hq, heq⟩ := Prod.mk.inj heq
  obtain ⟨hstatus, hloses⟩ := Prod.mk.inj heq
  obtain ⟨a, ha, hstatus⟩ := Option.map_eq_some_iff.mp hstatus
  obtain ⟨hconflict, -⟩ := hreported h (List.mem_of_getElem? hh) hq a ha
  rw [hconflict (List.any_eq_true.mp hloses)] at hstatus
  cases hstatus

end Wurzburg.System
