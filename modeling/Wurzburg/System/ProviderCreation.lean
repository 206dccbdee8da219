import Wurzburg.System.Schedule

/-!
# Wurzburg.System.ProviderCreation

`provider::create` under every outcome of its steps.

`Outcomes` fixes how each step ends: the ledger call, the database call and the
three Kafka commands. `Outcomes.answer` serves one effect under it, so that a
creation is a computation (`Outcomes.create`); what it computes is a run of the
service in which only this request is served (`create_reach`).

One lemma says what each step leaves behind; `allOrNothing_iff` puts them
together. The handler undoes nothing, takes no notice of the list of rejections
the ledger returns, and only logs what the Kafka commands report. So a creation
is all or nothing only when nothing fails after the first effect that was
applied (`Outcomes.Whole`).
-/

namespace Wurzburg.System

open Wurzburg.Lib Wurzburg.Db Wurzburg.Tb Wurzburg.Api

/-! ### Outcomes of the steps -/

/-- How the ledger step ends: the worker makes the call, or ends before it does. -/
inductive LedgerOutcome where
  | call (o : CallOutcome)
  | stopped
  deriving DecidableEq, Repr

/-- How every step of a creation ends, and the UUIDs drawn from here on. -/
structure Outcomes where
  uuid : Nat → Uuid
  ledger : LedgerOutcome
  database : Fault
  topic : Fault
  user : Fault
  acls : Fault

/-- The store has carried the call out. -/
def Fault.applied : Fault → Bool
  | .none => true
  | .fail applied _ => applied

namespace Outcomes

variable (o : Outcomes)

/-- How the call of a store ends. -/
def fault : Eff → Fault
  | .db _ => o.database
  | .kafka (.createProviderTopic _) => o.topic
  | .kafka (.createScramUser ..) => o.user
  | .kafka (.grantConsumerAcls ..) => o.acls
  | _ => .none

/-- What the environment chooses at one effect. -/
def choice (e : Eff) (w : World) : Choice := ⟨o.fault e, fun i => o.uuid (w.issued.length + i)⟩

/-- What the world does before an effect: the worker serves the command that is
awaited, or ends. -/
def before (env : Env) : Eff → World → Option World
  | .tbRecv _, w =>
      match o.ledger with
      | .call out =>
          (w.move env.tb env.settings.tigerbeetle.batchMaxSize (.receive out)).bind
            (·.move env.tb env.settings.tigerbeetle.batchMaxSize (.tick ⟨out, out, out, out⟩))
      | .stopped => w.move env.tb env.settings.tigerbeetle.batchMaxSize .stop
  | _, w => some w

/-- One effect under these outcomes. -/
def answer (env : Env) (e : Eff) (w : World) : Option (e.Resp × World) :=
  (o.before env e w).bind
    (fun w' => w'.exec env.settings.tigerbeetle.channelCapacity (o.choice e w') e)

/-- A request to create a provider, served alone under these outcomes. -/
def create (env : Env) (payload : CreateProviderRequest) (w : World) : Option (Answer × World) :=
  (serve env (.createProvider payload)).tryRun (o.answer env) w

end Outcomes

theorem Outcomes.answer_of_before {env : Env} {o : Outcomes} {e : Eff} {w w₁ : World}
    {out : e.Resp × World} (hbefore : o.before env e w = some w₁)
    (hx : w₁.exec env.settings.tigerbeetle.channelCapacity (o.choice e w₁) e = some out) :
    o.answer env e w = some out := by
  rw [answer, hbefore]
  exact hx

/-- Any choices and any moves of the world. -/
def anything (env : Env) : Setting (machine env) :=
  ⟨fun _ => True, fun _ => True, fun _ => True, True⟩

/-- From every state over the world `w`, a run that serves this request and no other answers it
with `a` and ends in the world `w'`. -/
def Served (env : Env) (payload : CreateProviderRequest) (w : World) (a : Answer) (w' : World) :
    Prop :=
  ∀ c : State, c.world = w → ∃ c' t,
    (machine env).Reach (fun _ l => l.Alone (fun _ => True) (fun _ => True) c.tasks.length)
      (arrived env c (.createProvider payload)) c' ∧
    c'.world = w' ∧ c'.tasks[c.tasks.length]? = some t ∧ t.req = .createProvider payload ∧
    t.answer? = some a

/-- Every computed creation is a run of the service. -/
theorem create_reach {env : Env} {o : Outcomes} {payload : CreateProviderRequest} {w : World}
    {a : Answer} {w' : World} (h : o.create env payload w = some (a, w')) :
    Served env payload w a w' := by
  rintro c rfl
  refine Setting.reach_of_tryRun (S := anything env) (fun e w r w₂ he => ?_)
    (arrived_task env c (.createProvider payload)) h
  obtain ⟨w₁, hbefore, hx⟩ := Option.bind_eq_some_iff.mp he
  refine ⟨w₁, o.choice e w₁, ?_, trivial, hx⟩
  unfold Outcomes.before at hbefore
  split at hbefore
  · split at hbefore
    · obtain ⟨w₀, hreceive, htick⟩ := Option.bind_eq_some_iff.mp hbefore
      exact .tail (.single ⟨Move.receive _, trivial, hreceive⟩) ⟨Move.tick _, trivial, htick⟩
    · exact .single ⟨Move.stop, trivial, hbefore⟩
  · obtain rfl := Option.some.inj hbefore
    exact .refl

/-! ### The ledger step -/

namespace LedgerOutcome

/-- The request reaches the server. -/
def applied : LedgerOutcome → Bool
  | .call .ok | .call (.err true _) => true
  | _ => false

/-- The ledger after the step. -/
def after (tb : TigerBeetle) (l : Ledger) (account : AppAccount) (o : LedgerOutcome) : Ledger :=
  if o.applied then (serveAccounts tb l [account]).2 else l

end LedgerOutcome

/-- The server accepts the account. -/
def Accepts (tb : TigerBeetle) (l : Ledger) (account : AppAccount) : Prop :=
  ∃ l', tb.createAccount l (toTbAccount account) = .ok l'

section

variable {tb : TigerBeetle} {l : Ledger} {account : AppAccount} {o : LedgerOutcome}

theorem LedgerOutcome.after_accepted (ha : o.applied = true) (hacc : Accepts tb l account) :
    o.after tb l account = l.addAccount (toTbAccount account) := by
  obtain ⟨l', hl'⟩ := hacc
  rw [after, if_pos ha]
  simp only [serveAccounts, List.map_cons, List.map_nil, applyBatch, hl']
  exact (tb.createAccount_ok hl').1

theorem LedgerOutcome.after_unchanged (h : ¬ (o.applied = true ∧ Accepts tb l account)) :
    o.after tb l account = l := by
  unfold after
  split
  · next ha =>
      simp only [serveAccounts, List.map_cons, List.map_nil, applyBatch]
      cases hx : tb.createAccount l (toTbAccount account) with
      | ok l' => exact absurd ⟨ha, l', hx⟩ h
      | error code => rfl
  · rfl

/-- What was stored shows. -/
theorem LedgerOutcome.after_eq_iff :
    o.after tb l account = l ↔ ¬ (o.applied = true ∧ Accepts tb l account) := by
  refine ⟨fun heq h => ?_, after_unchanged⟩
  rw [after_accepted h.1 h.2] at heq
  have hlen := congrArg (fun l => l.accounts.length) heq
  simp at hlen

/-- An account under a new id is there only if it was stored. -/
theorem LedgerOutcome.after_isSome_iff (hnew : l.account? account.id = none) :
    ((o.after tb l account).account? account.id).isSome ↔
      o.applied = true ∧ Accepts tb l account := by
  by_cases h : o.applied = true ∧ Accepts tb l account
  · refine ⟨fun _ => h, fun _ => ?_⟩
    rw [after_accepted h.1 h.2]
    simp [Ledger.account?, toTbAccount]
  · rw [after_unchanged h, hnew]
    simp [h]

end

/-- The worker is idle and there is room for a command. -/
structure WorkerReady (env : Env) (w : World) : Prop where
  alive : w.alive = true
  queue : w.queue = []
  unladen : w.worker.Unladen
  answered : ∀ m ∈ w.worker.replies, m.1 < w.sent.length
  room : 0 < env.settings.tigerbeetle.channelCapacity

section

variable {env : Env} {o : Outcomes} {w : World}

/-- The awaited answer is the last message of the worker. -/
theorem World.tbRecv_answered {r : ResponderId} {reply : TbReply}
    {earlier : List (ResponderId × TbReply)} (hnone : earlier.find? (fun m => m.1 = r) = none)
    (hreplies : w.worker.replies = earlier ++ [(r, reply)]) :
    w.tbRecv r = some (some reply, w) := by
  have hreply : w.reply? r = some reply := by
    rw [World.reply?, hreplies, List.find?_append, hnone, Option.none_or]
    simp
  rw [World.tbRecv, hreply]

/-- The worker ended without an answer. -/
theorem World.tbRecv_dropped {r : ResponderId}
    (hnone : w.worker.replies.find? (fun m => m.1 = r) = none) (ha : w.alive = false) :
    w.tbRecv r = some (none, w) := by
  simp only [World.tbRecv, World.reply?, hnone, Option.map_none, World.isPending, ha,
    Bool.false_and, Bool.false_eq_true, if_false]

/-- `create_account`, from an idle worker: it reports success when the call ends well,
whatever the server made of the account. -/
theorem createAccount_run (hi : WorkerReady env w) (account : AppAccount) :
    ∃ r w', (createAccount account).tryRun (o.answer env) w = some (r, w') ∧
      (r.toBool = true ↔ o.ledger = .call .ok) ∧
      w'.worker.ledger = o.ledger.after env.tb w.worker.ledger account ∧
      w'.pg = w.pg ∧ w'.kafka = w.kafka ∧ w'.issued = w.issued := by
  obtain ⟨ha, hq, hu, hans, hroom⟩ := hi
  have hsend : w.tbSend env.settings.tigerbeetle.channelCapacity (.createAccount account) =
      some (some w.sent.length, { w with
        queue := [⟨.createAccount account, w.sent.length⟩]
        sent := w.sent ++ [⟨.createAccount account, w.sent.length⟩] }) := by
    simp [World.tbSend, ha, hq, hroom]
  have hnone : w.worker.replies.find? (fun m => m.1 = w.sent.length) = none := by
    rw [List.find?_eq_none]
    intro m hm
    simpa using Nat.ne_of_lt (hans m hm)
  have hsent : o.answer env (.tbSend (.createAccount account)) w = _ :=
    Outcomes.answer_of_before rfl hsend
  unfold createAccount submit
  rw [Prog.bind_eq_bind, Prog.perform_bind, Prog.tryRun_call _ hsent]
  show ∃ r w', Prog.tryRun (o.answer env) (.call (.tbRecv w.sent.length) _) _ = some (r, w') ∧ _
  cases ho : o.ledger with
  | stopped =>
      have hbefore : o.before env (.tbRecv w.sent.length) { w with
          queue := [⟨.createAccount account, w.sent.length⟩]
          sent := w.sent ++ [⟨.createAccount account, w.sent.length⟩] } =
          some { w with
            alive := false
            queue := []
            sent := w.sent ++ [⟨.createAccount account, w.sent.length⟩] } := by
        simp only [Outcomes.before, ho, World.move]
      have hreceived : o.answer env (.tbRecv w.sent.length) _ = _ :=
        Outcomes.answer_of_before hbefore (World.tbRecv_dropped hnone rfl)
      rw [Prog.tryRun_call _ hreceived]
      exact ⟨_, _, rfl, by simp [Except.toBool], rfl, rfl, rfl, rfl⟩
  | call out =>
      have hbefore : o.before env (.tbRecv w.sent.length) { w with
          queue := [⟨.createAccount account, w.sent.length⟩]
          sent := w.sent ++ [⟨.createAccount account, w.sent.length⟩] } =
          some { w with
            worker := (w.worker.arrive ⟨.createAccount account, w.sent.length⟩ out).processAccounts
              env.tb out
            queue := []
            sent := w.sent ++ [⟨.createAccount account, w.sent.length⟩] } := by
        simp only [Outcomes.before, ho, World.move, ha, Option.bind_some, if_true, Worker.turn,
          hu.createAccount]
      have hreply : ((w.worker.arrive ⟨.createAccount account, w.sent.length⟩ out).processAccounts
          env.tb out).replies = w.worker.replies ++ [(w.sent.length, .createAccounts
            (Worker.accountResults env.tb ⟨[account], [w.sent.length], w.worker.ledger, out⟩))] := by
        simp [Worker.arrive, Worker.pushAccount, Worker.processAccounts, Worker.answerAll,
          Buffer.push, hu.accounts, Buffer.empty]
      have hreceived : o.answer env (.tbRecv w.sent.length) _ = _ :=
        Outcomes.answer_of_before hbefore (World.tbRecv_answered hnone hreply)
      rw [Prog.tryRun_call _ hreceived]
      refine ⟨_, _, rfl, ?_, ?_, rfl, rfl, rfl⟩
      · cases out with
        | ok => simp [createAccountsReply, Worker.accountResults, Submitted.results, Except.toBool]
        | err applied e =>
            simp [createAccountsReply, Worker.accountResults, Submitted.results, Except.toBool]
      · simp only [Worker.arrive, Worker.pushAccount, Worker.processAccounts, Buffer.push,
          hu.accounts, Buffer.empty, List.nil_append]
        cases out with
        | ok => rfl
        | err applied e => cases applied <;> rfl

/-! ### The database step -/

/-- The row is stored by a call that ends this way. -/
def StoresRow (f : Fault) (pg : Pg) (row : Provider) : Prop :=
  f.applied = true ∧ pg.AdmitsProvider row

/-- What is left in the database. -/
structure RowStep (f : Fault) (pg : Pg) (row : Provider) (actor : Uuid) (reported : Prop)
    (pg' : Pg) : Prop where
  reported : reported ↔ f = .none ∧ pg.AdmitsProvider row
  stored : StoresRow f pg row → pg' = pg.addProvider actor row
  unchanged : ¬ StoresRow f pg row → pg' = pg

/-- A call under a fault: what it would leave is left when it is applied, and it reports
what it would report when there is no fault. -/
theorem dbExec_of_dbApply {ch : Choice} {call : DbCall} {r : Except RepoError call.Row} {pg' : Pg}
    (h : w.dbApply ch call = some (r, { w with pg := pg' })) :
    ∃ r', w.dbExec ch call =
        some (r', { w with pg := if ch.fault.applied then pg' else w.pg }) ∧
      (r'.toBool = true ↔ ch.fault = .none ∧ r.toBool = true) := by
  unfold World.dbExec
  cases ch.fault with
  | none => exact ⟨r, h, fun hr => ⟨rfl, hr⟩, fun hr => hr.2⟩
  | fail applied message =>
      cases applied with
      | false => exact ⟨_, rfl, fun hr => (by cases hr), fun hr => (by cases hr.1)⟩
      | true =>
          rw [h]
          exact ⟨_, rfl, fun hr => (by cases hr), fun hr => (by cases hr.1)⟩

theorem dbExec_createProvider (ch : Choice) (row : Provider) (actor : Uuid) :
    ∃ r pg', w.dbExec ch (.createProvider row actor) = some (r, { w with pg := pg' }) ∧
      RowStep ch.fault w.pg row actor (r.toBool = true) pg' := by
  rcases @createProvider_cases row actor w.pg w.dbNow ch.uuid with ⟨hadm, htx⟩ | ⟨hadm, e, htx⟩
  · have happly : w.dbApply ch (.createProvider row actor) = _ := dbApply_of_transact htx
    obtain ⟨r, hx, hr⟩ := dbExec_of_dbApply happly
    refine ⟨r, _, hx, ?_, fun h => if_pos h.1, fun h => if_neg (fun happlied => h ⟨happlied, hadm⟩)⟩
    rw [hr]
    exact ⟨fun h => ⟨h.1, hadm⟩, fun h => ⟨h.1, rfl⟩⟩
  · have happly : w.dbApply ch (.createProvider row actor) = _ := dbApply_of_transact htx
    obtain ⟨r, hx, hr⟩ := dbExec_of_dbApply happly
    refine ⟨r, _, hx, ?_, fun h => absurd h.2 hadm, fun _ => ite_self _⟩
    rw [hr]
    exact ⟨fun h => (by cases h.2), fun h => absurd h.2 hadm⟩

variable (env o) in
/-- `create_provider`: it reports the row when it was stored and the call ended well. -/
theorem dbCreateProvider_run (row : Provider) (actor : Uuid) :
    ∃ r pg', (db (.createProvider row actor)).run.tryRun (o.answer env) w =
        some (r, { w with pg := pg' }) ∧
      RowStep o.database w.pg row actor (r.toBool = true) pg' := by
  obtain ⟨r, pg', hx, hrec⟩ :=
    dbExec_createProvider (o.choice (.db (.createProvider row actor)) w) row actor
  have hanswer : o.answer env (.db (.createProvider row actor)) w = _ :=
    Outcomes.answer_of_before rfl hx
  refine ⟨r.mapError (fun _ => internalError), pg', Prog.tryRun_call _ hanswer, ?_⟩
  cases r with
  | ok row' => exact hrec
  | error e => exact hrec

/-! ### The Kafka steps -/

/-- The topic, the user and its permissions exist. -/
def Kafka.Serves (k : Kafka) (settings : ProviderKafkaSettings) : Prop :=
  settings.topic ∈ k.topics ∧ (settings.username, settings.password) ∈ k.scramUsers ∧
    (settings.topic, settings.username) ∈ k.consumerAcls

/-- One Kafka command whose outcome is kept. -/
theorem kafka_run (cmd : KafkaCmd) :
    (attempt (Prog.perform (Eff.kafka cmd))).run.tryRun (o.answer env) w =
      some (.ok (w.faulty (o.fault (.kafka cmd)) (·.kafkaApply cmd)).1,
        (w.faulty (o.fault (.kafka cmd)) (·.kafkaApply cmd)).2) := rfl

variable (env o) in
/-- `setUpKafka` never fails, and sets everything up only when its first two commands succeed
and the third was carried out. -/
theorem setUpKafka_run (settings : ProviderKafkaSettings)
    (huser : ∀ u ∈ w.kafka.scramUsers, u.1 ≠ settings.username)
    (hacl : (settings.topic, settings.username) ∉ w.kafka.consumerAcls) :
    ∃ k, (setUpKafka settings).run.tryRun (o.answer env) w =
        some (.ok (), { w with kafka := k }) ∧
      (k.Serves settings ↔ o.topic = .none ∧ o.user = .none ∧ o.acls.applied = true) := by
  have hnouser : (settings.username, settings.password) ∉ w.kafka.scramUsers :=
    fun h => huser _ h rfl
  unfold setUpKafka
  rw [Prog.tryRun_bind_ok (kafka_run _)]
  show ∃ k, Prog.tryRun _ (ExceptT.run (if (w.faulty o.topic _).1.isOk then _ else _))
    (w.faulty o.topic _).2 = _ ∧ _
  cases htopic : o.topic with
  | fail applied message =>
      cases applied with
      | false => exact ⟨w.kafka, rfl, fun h => absurd h.2.1 hnouser, fun h => (by cases h.1)⟩
      | true => exact ⟨_, rfl, fun h => absurd h.2.1 hnouser, fun h => (by cases h.1)⟩
  | none =>
      show ∃ k, Prog.tryRun _ (ExceptT.run (attempt _ >>= _)) _ = _ ∧ _
      rw [Prog.tryRun_bind_ok (kafka_run _)]
      show ∃ k, Prog.tryRun _ (ExceptT.run (if (World.faulty _ o.user _).1.isOk then _ else _))
        (World.faulty _ o.user _).2 = _ ∧ _
      cases huserStep : o.user with
      | fail applied message =>
          cases applied with
          | false => exact ⟨_, rfl, fun h => absurd h.2.2 hacl, fun h => (by cases h.2.1)⟩
          | true => exact ⟨_, rfl, fun h => absurd h.2.2 hacl, fun h => (by cases h.2.1)⟩
      | none =>
          show ∃ k, Prog.tryRun _ (ExceptT.run (attempt _ >>= _)) _ = _ ∧ _
          rw [Prog.tryRun_bind_ok (kafka_run _)]
          show ∃ k, Prog.tryRun _ _ (World.faulty _ o.acls _).2 = _ ∧ _
          cases hacls : o.acls with
          | none =>
              refine ⟨_, rfl, ?_⟩
              simp [Kafka.Serves, Fault.applied, World.faulty, World.kafkaApply]
          | fail applied message =>
              cases applied with
              | false => exact ⟨_, rfl, fun h => absurd h.2.2 hacl, fun h => (by cases h.2.2)⟩
              | true =>
                  refine ⟨_, rfl, ?_⟩
                  simp [Kafka.Serves, Fault.applied, World.faulty, World.kafkaApply]

/-! ### The whole creation -/

namespace Outcomes

variable (o) (env) (w)

/-- The answer's body when the creation succeeds. -/
def response : CreateProviderResponse where
  providerId := o.uuid w.issued.length
  ledgerAccountId := o.uuid (w.issued.length + 1)
  kafka := newKafkaSettings env (o.uuid w.issued.length) (o.uuid (w.issued.length + 3))

/-- The ledger account that is asked for. -/
def account : AppAccount :=
  providerLedgerAccount env (o.uuid (w.issued.length + 1)) (o.uuid w.issued.length)

/-- The row that is inserted. -/
def row (payload : CreateProviderRequest) : Provider :=
  newProvider env payload (o.uuid w.issued.length) (o.uuid (w.issued.length + 1))
    (o.response env w).kafka w.appNow

/-- The UUIDs to be drawn are new, to every store. -/
structure NewIds : Prop where
  ids : Unissued w.issued ((List.range 4).map (fun i => o.uuid (w.issued.length + i)))
  account : w.worker.ledger.account? (o.account env w).id = none
  user : ∀ u ∈ w.kafka.scramUsers, u.1 ≠ (o.response env w).kafka.username
  acl : ((o.response env w).kafka.topic, (o.response env w).kafka.username) ∉ w.kafka.consumerAcls

end Outcomes

/-- Everything the answer speaks of exists. -/
def Provisioned (r : CreateProviderResponse) (w : World) : Prop :=
  (w.worker.ledger.account? r.ledgerAccountId.asU128).isSome = true ∧
  (∃ p ∈ w.pg.providers, p.id = r.providerId ∧ p.ledgerAccountId = r.ledgerAccountId) ∧
  w.kafka.Serves r.kafka

/-- Nothing was left behind. -/
def Untouched (w w' : World) : Prop :=
  w'.worker.ledger = w.worker.ledger ∧ w'.pg = w.pg ∧ w'.kafka = w.kafka

/-- A creation that answers 201 has created everything, one that answers an error nothing. -/
def AllOrNothing (w w' : World) (a : Answer) : Prop :=
  (∀ r, a = .ok (.created, .createProvider r) → Provisioned r w') ∧
  (∀ e, a = .error e → Untouched w w')

/-- The outcomes under which a creation is all or nothing. -/
inductive Outcomes.Whole (env : Env) (o : Outcomes) (payload : CreateProviderRequest)
    (w : World) : Prop
  /-- The request does not pass the validation. -/
  | refused : (validateWithConfig env payload).isEmpty = false → Whole env o payload w
  /-- The ledger call fails, and no account was created. -/
  | noAccount : (validateWithConfig env payload).isEmpty = true → o.ledger ≠ .call .ok →
      ¬ (o.ledger.applied = true ∧ Accepts env.tb w.worker.ledger (o.account env w)) →
      Whole env o payload w
  /-- The server rejects the account, and the database stores no row. -/
  | noRow : (validateWithConfig env payload).isEmpty = true → o.ledger = .call .ok →
      ¬ Accepts env.tb w.worker.ledger (o.account env w) →
      ¬ StoresRow o.database w.pg (o.row env w payload) → Whole env o payload w
  /-- Every step is carried out, and all but the last are reported so. -/
  | complete : (validateWithConfig env payload).isEmpty = true → o.ledger = .call .ok →
      Accepts env.tb w.worker.ledger (o.account env w) → o.database = .none →
      w.pg.AdmitsProvider (o.row env w payload) → o.topic = .none → o.user = .none →
      o.acls.applied = true → Whole env o payload w

theorem orFail_run {ε α : Type} {p : Io (Except ε α)} {r : Except ε α} {w' : World}
    (h : p.tryRun (o.answer env) w = some (r, w')) (f : ε → HttpError) :
    (orFail p f).run.tryRun (o.answer env) w = some (r.mapError f, w') :=
  Prog.tryRun_bind h

theorem now_run : now.run.tryRun (o.answer env) w = some (.ok w.appNow, w) := rfl

/-- The next UUID is drawn. -/
theorem newV4_run (env : Env) (use : IdUse) {n : Nat} {rest : List Uuid}
    (hn : w.issued.length = n) (h : Unissued w.issued (o.uuid n :: rest)) :
    ∃ issued', (newV4 use).run.tryRun (o.answer env) w =
        some (.ok (o.uuid n), { w with issued := issued' }) ∧
      issued'.length = n + 1 ∧ Unissued issued' rest := by
  subst hn
  obtain ⟨hnodup, hnew⟩ := h
  obtain ⟨hnot, hrest⟩ := List.nodup_cons.mp hnodup
  refine ⟨w.issued ++ [(o.uuid w.issued.length, use)], ?_, by simp, hrest, fun id hid hmem => ?_⟩
  · have hfresh : w.isFresh [o.uuid w.issued.length] = true := by
      refine isFresh_iff.mpr ⟨List.nodup_singleton _, fun id hid => ?_⟩
      rw [List.mem_singleton.mp hid]
      exact hnew _ (List.mem_cons_self ..)
    have hx : w.exec env.settings.tigerbeetle.channelCapacity (o.choice (.newV4 use) w)
        (.newV4 use) = some (o.uuid w.issued.length,
          { w with issued := w.issued ++ [(o.uuid w.issued.length, use)] }) := by
      simp only [World.exec, Outcomes.choice, Nat.add_zero, hfresh, if_true]
      rfl
    exact Prog.tryRun_call _ (Outcomes.answer_of_before rfl hx)
  · rw [List.map_append, List.mem_append] at hmem
    rcases hmem with hmem | hmem
    · exact hnew id (List.mem_cons_of_mem _ hid) hmem
    · rw [List.mem_singleton.mp hmem] at hid
      exact hnot hid

variable {payload : CreateProviderRequest}

/-- Where a creation that passes the validation ends, and what it leaves. -/
inductive Ended (env : Env) (o : Outcomes) (payload : CreateProviderRequest) (w w' : World) :
    Answer → Prop
  /-- The ledger call fails. -/
  | atLedger (e : HttpError) : o.ledger ≠ .call .ok → w'.pg = w.pg → w'.kafka = w.kafka →
      Ended env o payload w w' (.error e)
  /-- The database call fails. -/
  | atDatabase (e : HttpError) (actor : Uuid) : o.ledger = .call .ok →
      RowStep o.database w.pg (o.row env w payload) actor False w'.pg → w'.kafka = w.kafka →
      Ended env o payload w w' (.error e)
  /-- The answer is 201. -/
  | created (actor : Uuid) : o.ledger = .call .ok →
      RowStep o.database w.pg (o.row env w payload) actor True w'.pg →
      (w'.kafka.Serves (o.response env w).kafka ↔
        o.topic = .none ∧ o.user = .none ∧ o.acls.applied = true) →
      Ended env o payload w w' (.ok (.created, .createProvider (o.response env w)))

/-- A request that does not pass the validation is answered at once. -/
theorem create_refused (hvalid : (validateWithConfig env payload).isEmpty = false) :
    o.create env payload w =
      some (.error (.badRequest, validationText (validateWithConfig env payload)), w) := by
  have hrun : (Api.createProvider env payload).run.tryRun (o.answer env) w =
      some (.error (.badRequest, validationText (validateWithConfig env payload)), w) := by
    unfold Api.createProvider
    rw [Prog.tryRun_bind_ok now_run]
    simp only [hvalid, Bool.false_eq_true, if_false]
    rfl
  exact Prog.tryRun_bind hrun

/-- Any other creation comes to one of three ends, with the ledger as the first step left it. -/
theorem create_ends (hi : WorkerReady env w) (hnew : o.NewIds env w)
    (hvalid : (validateWithConfig env payload).isEmpty = true) :
    ∃ a w', o.create env payload w = some (a, w') ∧
      w'.worker.ledger = o.ledger.after env.tb w.worker.ledger (o.account env w) ∧
      Ended env o payload w w' a := by
  suffices hrun : ∃ r w', (Api.createProvider env payload).run.tryRun (o.answer env) w = some (r, w') ∧
      w'.worker.ledger = o.ledger.after env.tb w.worker.ledger (o.account env w) ∧
      Ended env o payload w w' (r.map (fun a => (a.1, Body.createProvider a.2))) by
    obtain ⟨r, w', hr, hend⟩ := hrun
    exact ⟨_, w', Prog.tryRun_bind hr, hend⟩
  unfold Api.createProvider
  rw [Prog.tryRun_bind_ok now_run]
  simp only [hvalid, if_true]
  have hids : Unissued w.issued [o.uuid w.issued.length, o.uuid (w.issued.length + 1),
      o.uuid (w.issued.length + 2), o.uuid (w.issued.length + 3)] := hnew.ids
  obtain ⟨i₁, hrun₁, hn₁, hids₁⟩ := newV4_run env .other rfl hids
  obtain ⟨i₂, hrun₂, hn₂, hids₂⟩ := newV4_run env .providerLedger
    (w := { w with issued := i₁ }) hn₁ hids₁
  obtain ⟨i₃, hrun₃, hn₃, hids₃⟩ := newV4_run env .other (w := { w with issued := i₂ }) hn₂ hids₂
  rw [Prog.tryRun_bind_ok hrun₁, Prog.tryRun_bind_ok hrun₂, Prog.tryRun_bind_ok hrun₃]
  -- the ledger account
  have hi₃ : WorkerReady env { w with issued := i₃ } :=
    ⟨hi.alive, hi.queue, hi.unladen, hi.answered, hi.room⟩
  obtain ⟨r, w₄, hrun₄, hreport, hledger, hpg, hkafka, hissued⟩ :=
    createAccount_run (o := o) hi₃ (providerLedgerAccount env (o.uuid (w.issued.length + 1))
      (o.uuid w.issued.length))
  have hstep₄ := orFail_run hrun₄
    (fun _ => (StatusCode.internalServerError, "Failed to provision ledger account"))
  cases r with
  | error e =>
      have hfailed : o.ledger ≠ .call .ok := fun h => by cases hreport.mpr h
      exact ⟨_, w₄, Prog.tryRun_bind_error hstep₄, hledger, .atLedger _ hfailed hpg hkafka⟩
  | ok results =>
  have hok : o.ledger = .call .ok := hreport.mp rfl
  rw [Prog.tryRun_bind_ok hstep₄]
  -- the credentials, and the row
  have hissued : w₄.issued = i₃ := hissued
  obtain ⟨i₅, hrun₅, -, -⟩ := newV4_run env .other (hissued ▸ hn₃) (hissued ▸ hids₃)
  rw [Prog.tryRun_bind_ok hrun₅]
  obtain ⟨r, pg', hrun₆, hrow⟩ := dbCreateProvider_run env o
    (w := { w₄ with issued := i₅ }) (newProvider env payload (o.uuid w.issued.length)
      (o.uuid (w.issued.length + 1)) (newKafkaSettings env (o.uuid w.issued.length)
      (o.uuid (w.issued.length + 3))) w.appNow) (o.uuid (w.issued.length + 2))
  have hrow : RowStep o.database w.pg (o.row env w payload) (o.uuid (w.issued.length + 2))
      (r.toBool = true) pg' := hpg ▸ hrow
  cases r with
  | error e =>
      refine ⟨_, { w₄ with issued := i₅, pg := pg' }, Prog.tryRun_bind_error hrun₆, hledger,
        .atDatabase _ (o.uuid (w.issued.length + 2)) hok ?_ hkafka⟩
      exact ⟨⟨fun h => h.elim, fun h => by cases hrow.reported.mpr h⟩, hrow.stored, hrow.unchanged⟩
  | ok row' =>
  rw [Prog.tryRun_bind_ok hrun₆]
  -- Kafka
  have hkafka : w₄.kafka = w.kafka := hkafka
  obtain ⟨k, hrun₇, hserves⟩ := setUpKafka_run env o
    (w := { w₄ with issued := i₅, pg := pg' })
    (newKafkaSettings env (o.uuid w.issued.length) (o.uuid (w.issued.length + 3)))
    (hkafka ▸ hnew.user) (hkafka ▸ hnew.acl)
  rw [Prog.tryRun_bind_ok hrun₇]
  refine ⟨_, _, rfl, hledger, .created (o.uuid (w.issued.length + 2)) hok ?_ hserves⟩
  exact ⟨⟨fun _ => hrow.reported.mp rfl, fun _ => trivial⟩, hrow.stored, hrow.unchanged⟩

theorem allOrNothing_error {e : HttpError} : AllOrNothing w w' (.error e) ↔ Untouched w w' :=
  ⟨fun h => h.2 e rfl, fun h => ⟨fun r hr => (by cases hr), fun _ _ => h⟩⟩

theorem allOrNothing_created {r : CreateProviderResponse} :
    AllOrNothing w w' (.ok (.created, .createProvider r)) ↔ Provisioned r w' := by
  constructor
  · exact fun h => h.1 r rfl
  · refine fun h => ⟨fun r' hr' => ?_, fun e he => by cases he⟩
    obtain rfl : r = r' := by simpa using hr'
    exact h

/-! The outcomes of `Outcomes.Whole`, for each of the three ends. -/

theorem whole_iff_noAccount (hvalid : (validateWithConfig env payload).isEmpty = true)
    (hfailed : o.ledger ≠ .call .ok) :
    o.Whole env payload w ↔
      ¬ (o.ledger.applied = true ∧ Accepts env.tb w.worker.ledger (o.account env w)) := by
  refine ⟨fun h => ?_, fun h => .noAccount hvalid hfailed h⟩
  cases h with
  | refused hinvalid =>
      rw [hvalid] at hinvalid
      cases hinvalid
  | noAccount _ _ h => exact h
  | noRow _ hok => exact absurd hok hfailed
  | complete _ hok => exact absurd hok hfailed

theorem whole_iff_noRow (hvalid : (validateWithConfig env payload).isEmpty = true)
    (hok : o.ledger = .call .ok)
    (hunreported : ¬ (o.database = .none ∧ w.pg.AdmitsProvider (o.row env w payload))) :
    o.Whole env payload w ↔ ¬ Accepts env.tb w.worker.ledger (o.account env w) ∧
      ¬ StoresRow o.database w.pg (o.row env w payload) := by
  refine ⟨fun h => ?_, fun h => .noRow hvalid hok h.1 h.2⟩
  cases h with
  | refused hinvalid =>
      rw [hvalid] at hinvalid
      cases hinvalid
  | noAccount _ hfailed => exact absurd hok hfailed
  | noRow _ _ hacc hrow => exact ⟨hacc, hrow⟩
  | complete _ _ _ hdb hadm => exact absurd ⟨hdb, hadm⟩ hunreported

theorem whole_iff_complete (hvalid : (validateWithConfig env payload).isEmpty = true)
    (hok : o.ledger = .call .ok) (hdb : o.database = .none)
    (hadm : w.pg.AdmitsProvider (o.row env w payload)) :
    o.Whole env payload w ↔ Accepts env.tb w.worker.ledger (o.account env w) ∧
      o.topic = .none ∧ o.user = .none ∧ o.acls.applied = true := by
  refine ⟨fun h => ?_, fun ⟨hacc, htopic, huser, hacls⟩ =>
    .complete hvalid hok hacc hdb hadm htopic huser hacls⟩
  cases h with
  | refused hinvalid =>
      rw [hvalid] at hinvalid
      cases hinvalid
  | noAccount _ hfailed => exact absurd hok hfailed
  | noRow _ _ _ hnot => exact absurd ⟨by rw [hdb]; rfl, hadm⟩ hnot
  | complete _ _ hacc _ _ htopic huser hacls => exact ⟨hacc, htopic, huser, hacls⟩

end

/-- **When a creation is all or nothing.** Under any outcome of its steps, a creation whose
UUIDs are new is answered in a run of the service, and it is all or nothing under the outcomes
of `Outcomes.Whole` and no others. -/
theorem allOrNothing_iff {env : Env} {o : Outcomes} {w : World} (payload : CreateProviderRequest)
    (hi : WorkerReady env w) (hnew : o.NewIds env w) :
    ∃ a w', o.create env payload w = some (a, w') ∧ Served env payload w a w' ∧
      (AllOrNothing w w' a ↔ o.Whole env payload w) := by
  cases hvalid : (validateWithConfig env payload).isEmpty with
  | false =>
      have hrun := create_refused (o := o) (w := w) hvalid
      refine ⟨_, w, hrun, create_reach hrun, fun _ => .refused hvalid, fun _ => ⟨?_, ?_⟩⟩
      · exact fun r hr => by cases hr
      · exact fun _ _ => ⟨rfl, rfl, rfl⟩
  | true =>
  obtain ⟨a, w', hrun, hledger, hend⟩ := create_ends hi hnew hvalid
  refine ⟨a, w', hrun, create_reach hrun, ?_⟩
  cases hend with
  | atLedger e hfailed hpg hkafka =>
      have huntouched : Untouched w w' ↔ w'.worker.ledger = w.worker.ledger :=
        ⟨fun h => h.1, fun h => ⟨h, hpg, hkafka⟩⟩
      rw [allOrNothing_error, huntouched, hledger, LedgerOutcome.after_eq_iff,
        whole_iff_noAccount hvalid hfailed]
  | atDatabase e actor hok hrow hkafka =>
      have happlied : o.ledger.applied = true := by
        rw [hok]
        rfl
      have hpg : w'.pg = w.pg ↔ ¬ StoresRow o.database w.pg (o.row env w payload) := by
        refine ⟨fun heq hstored => ?_, hrow.unchanged⟩
        rw [hrow.stored hstored] at heq
        have hlen := congrArg (fun pg => pg.providers.length) heq
        simp [Pg.addProvider, Pg.log] at hlen
      have huntouched : Untouched w w' ↔
          w'.worker.ledger = w.worker.ledger ∧ w'.pg = w.pg :=
        ⟨fun h => ⟨h.1, h.2.1⟩, fun h => ⟨h.1, h.2, hkafka⟩⟩
      -- the ledger call went well, so the account is absent only if it was rejected
      rw [allOrNothing_error, huntouched, hledger, LedgerOutcome.after_eq_iff, hpg,
        whole_iff_noRow hvalid hok (fun h => hrow.reported.mpr h), and_iff_right happlied]
  | created actor hok hrow hserves =>
      have happlied : o.ledger.applied = true := by
        rw [hok]
        rfl
      obtain ⟨hdb, hadm⟩ := hrow.reported.mp trivial
      have hstored : StoresRow o.database w.pg (o.row env w payload) := ⟨by rw [hdb]; rfl, hadm⟩
      have hprovider : ∃ p ∈ w'.pg.providers, p.id = (o.response env w).providerId ∧
          p.ledgerAccountId = (o.response env w).ledgerAccountId := by
        rw [hrow.stored hstored]
        exact ⟨(o.row env w payload).stored,
          List.mem_append_right _ (List.mem_singleton_self _), rfl, rfl⟩
      have haccount : (w'.worker.ledger.account? (o.response env w).ledgerAccountId.asU128).isSome ↔
          Accepts env.tb w.worker.ledger (o.account env w) := by
        rw [hledger]
        exact (LedgerOutcome.after_isSome_iff hnew.account).trans (and_iff_right happlied)
      -- the row is there, so the account and the Kafka resources decide
      rw [allOrNothing_created, whole_iff_complete hvalid hok hdb hadm, ← haccount, ← hserves]
      exact ⟨fun h => ⟨h.1, h.2.2⟩, fun h => ⟨h.1, hprovider, h.2⟩⟩

/-! ### Two creations -/

/-- No step fails, and the UUIDs count. -/
def uneventful : Outcomes :=
  ⟨fun i => ⟨BitVec.ofNat 128 (1000 + i)⟩, .call .ok, .none, .none, .none, .none⟩

/-- The first creation of all is all or nothing. -/
theorem allOrNothing_iff_first :
    ∃ a w', uneventful.create defaultEnv sampleProvider (World.boot [] 0) = some (a, w') ∧
      Served defaultEnv sampleProvider (World.boot [] 0) a w' ∧
      AllOrNothing (World.boot [] 0) w' a := by
  have hi : WorkerReady defaultEnv (World.boot [] 0) :=
    ⟨rfl, rfl, ⟨rfl, rfl, rfl, rfl⟩, fun _ h => absurd h List.not_mem_nil, by decide⟩
  have hnew : uneventful.NewIds defaultEnv (World.boot [] 0) :=
    ⟨⟨by decide, fun _ _ => List.not_mem_nil⟩, rfl, fun _ h => absurd h List.not_mem_nil,
      List.not_mem_nil⟩
  obtain ⟨a, w', hrun, hserved, hiff⟩ := allOrNothing_iff sampleProvider hi hnew
  refine ⟨a, w', hrun, hserved, hiff.mpr (.complete (by decide) rfl ⟨_, rfl⟩ rfl ?_ rfl rfl rfl)⟩
  exact ⟨by decide, fun _ h => absurd h List.not_mem_nil, fun _ h => absurd h List.not_mem_nil,
    fun h => by cases h⟩

/-- A request for a core provider. -/
def coreProvider : CreateProviderRequest := { sampleProvider with isCore := some true }

/-- The service with a core provider. -/
def oneCoreProvider : World :=
  (request defaultEnv (boot defaultEnv 0) (.createProvider coreProvider)).world

/-- **A creation that leaves an account behind.** A second core provider is refused by the
database, after its ledger account was created; no step failed. -/
theorem secondCoreProvider_leavesAccount :
    WorkerReady defaultEnv oneCoreProvider ∧ uneventful.NewIds defaultEnv oneCoreProvider ∧
      ∃ e w', uneventful.create defaultEnv coreProvider oneCoreProvider =
          some (.error e, w') ∧
        ¬ AllOrNothing oneCoreProvider w' (.error e) := by
  have hscene : (oneCoreProvider.alive = true ∧ oneCoreProvider.queue = [] ∧
      oneCoreProvider.worker.transferBuf = .empty ∧ oneCoreProvider.worker.accountBuf = .empty ∧
      oneCoreProvider.worker.lookupAccBuf = .empty ∧ oneCoreProvider.worker.lookupTxBuf = .empty ∧
      ∀ m ∈ oneCoreProvider.worker.replies, m.1 < oneCoreProvider.sent.length) ∧
      (((List.range 4).map (fun i => uneventful.uuid (oneCoreProvider.issued.length + i))).Nodup ∧
        (∀ id ∈ (List.range 4).map (fun i => uneventful.uuid (oneCoreProvider.issued.length + i)),
          id ∉ oneCoreProvider.issued.map Prod.fst) ∧
        oneCoreProvider.worker.ledger.account?
          (uneventful.account defaultEnv oneCoreProvider).id = none ∧
        (∀ u ∈ oneCoreProvider.kafka.scramUsers,
          u.1 ≠ (uneventful.response defaultEnv oneCoreProvider).kafka.username) ∧
        ((uneventful.response defaultEnv oneCoreProvider).kafka.topic,
          (uneventful.response defaultEnv oneCoreProvider).kafka.username) ∉
            oneCoreProvider.kafka.consumerAcls) ∧
      (uneventful.create defaultEnv coreProvider oneCoreProvider).map
        (fun out => (out.1, out.2.worker.ledger.accounts.length)) =
          some (.error internalError, oneCoreProvider.worker.ledger.accounts.length + 1) := by
    decide +kernel
  obtain ⟨⟨ha, hq, h₁, h₂, h₃, h₄, hans⟩, ⟨hnodup, hids, hacc, huser, hacl⟩, hcreate⟩ := hscene
  refine ⟨⟨ha, hq, ⟨h₁, h₂, h₃, h₄⟩, hans, by decide⟩, ⟨⟨hnodup, hids⟩, hacc, huser, hacl⟩, ?_⟩
  obtain ⟨⟨a, w'⟩, hrun, hout⟩ := Option.map_eq_some_iff.mp hcreate
  obtain ⟨rfl, hlength⟩ := Prod.mk.inj hout
  refine ⟨_, w', hrun, fun h => ?_⟩
  have hledger := (h.2 _ rfl).1
  rw [hledger] at hlength
  omega

end Wurzburg.System
