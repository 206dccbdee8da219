import Wurzburg.Kafka.Broker
import Wurzburg.Lib.Expand
import Wurzburg.System.KafkaTenants

/-!
# Wurzburg.System.KafkaScripts

The service with its Kafka commands run as scripts. `machine` takes what
`create_provider_topic`, `create_scram_user` and `grant_consumer_acls` do to be one
effect each; here they are the methods of `AppKafkaAdmin`, on a cluster that others may
have used before, and the two scripts of a grant are two steps. What a script does to the
cluster is a parameter (`KafkaTools`).

The scripts refine the effects (`scripts`, an expansion of `Wurzburg.Lib.Expand`).
-/

namespace Wurzburg.System

open Wurzburg.Lib Wurzburg.Db Wurzburg.Tb Wurzburg.Api Wurzburg.Admin

/-! ### The machine -/

/-- The service, and next to it the Kafka cluster that it administers; what `service` holds of
Kafka is not used. -/
structure Deployment where
  service : World
  broker : Broker

/-- What a handler can await when Kafka is administered by scripts. -/
inductive ScriptEff where
  | service (e : Eff)
  | script (command : Command)

def ScriptEff.Resp : ScriptEff → Type
  | service e => e.Resp
  | script _ => Except String Output

/-- What the environment chooses at one of them. -/
structure DeploymentChoice (C : Type) where
  service : Choice
  script : C

/-- A method of the administrator, from a handler; its error is only logged. -/
def await (x : Scripts Unit) : Prog ScriptEff ScriptEff.Resp (Except String Unit) :=
  (x.run.expand (fun command => Prog.perform (ScriptEff.script command))).map
    (fun r => r.mapError AdminError.toString)

/-- What carries an effect out. -/
def carryOut (admin : AppKafkaAdmin) : (e : Eff) → Prog ScriptEff ScriptEff.Resp e.Resp
  | .kafka (.createProviderTopic topic) => await (admin.createProviderTopic topic)
  | .kafka (.createScramUser username password) => await (admin.createScramUser username password)
  | .kafka (.grantConsumerAcls topic username) => await (admin.grantConsumerAcls topic username)
  | .now => Prog.perform (ScriptEff.service .now)
  | .newV4 use => Prog.perform (ScriptEff.service (.newV4 use))
  | .db call => Prog.perform (ScriptEff.service (.db call))
  | .redis cmd => Prog.perform (ScriptEff.service (.redis cmd))
  | .tbSend request => Prog.perform (ScriptEff.service (.tbSend request))
  | .tbRecv i => Prog.perform (ScriptEff.service (.tbRecv i))

/-- The service that runs scripts. -/
def deployed {C : Type} (env : Env) (tools : KafkaTools C) (admin : AppKafkaAdmin) :
    Machine Deployment Request ScriptEff ScriptEff.Resp Answer (DeploymentChoice C) Move where
  start q := (serve env q).expand (carryOut admin)
  exec ch e d :=
    match e with
    | .service e => (d.service.exec env.settings.tigerbeetle.channelCapacity ch.service e).map
        (fun out => (out.1, { d with service := out.2 }))
    | .script command => (tools.run d.broker command ch.script).map
        (fun out => (out.1, { d with broker := out.2 }))
  env v d := (d.service.move env.tb env.settings.tigerbeetle.batchMaxSize v).map
    (fun w => { d with service := w })

/-- The state of the service that runs scripts. -/
abbrev DeployedState := Config Deployment Request ScriptEff ScriptEff.Resp Answer

/-- What it can reach from its first start, next to the cluster `b₀`. -/
def Deployed {C : Type} (env : Env) (tools : KafkaTools C) (admin : AppKafkaAdmin) (b₀ : Broker)
    (c : DeployedState) : Prop :=
  ∃ now, (deployed env tools admin).Reach (fun _ _ => True)
    ⟨⟨World.boot (systemIds env) now, b₀⟩, []⟩ c

/-! ### A world without its Kafka part -/

/-- The world with another Kafka part. -/
def World.withKafka (w : World) (k : Kafka) : World := { w with kafka := k }

@[simp] theorem World.withKafka_kafka (w : World) (k : Kafka) : (w.withKafka k).kafka = k := rfl

@[simp] theorem World.withKafka_pg (w : World) (k : Kafka) : (w.withKafka k).pg = w.pg := rfl

@[simp] theorem World.withKafka_self (w : World) : w.withKafka w.kafka = w := rfl

@[simp] theorem World.withKafka_withKafka (w : World) (k k' : Kafka) :
    (w.withKafka k).withKafka k' = w.withKafka k' := rfl

theorem World.dbApply_withKafka (w : World) (k : Kafka) (ch : Choice) (call : DbCall) :
    (w.withKafka k).dbApply ch call =
      (w.dbApply ch call).map (fun out => (out.1, out.2.withKafka k)) := by
  unfold World.dbApply
  by_cases hfresh : w.isFresh
      ((List.range (call.body.transact w.pg w.dbNow ch.uuid).2.2).map ch.uuid) = true
  · simp only [if_pos hfresh]
    exact if_pos hfresh
  · simp only [if_neg hfresh]
    exact if_neg hfresh

theorem World.dbExec_withKafka (w : World) (k : Kafka) (ch : Choice) (call : DbCall) :
    (w.withKafka k).dbExec ch call =
      (w.dbExec ch call).map (fun out => (out.1, out.2.withKafka k)) := by
  unfold World.dbExec
  split
  · exact w.dbApply_withKafka k ch call
  · rfl
  · simp only [World.dbApply_withKafka, Option.map_map, Function.comp_def]

theorem World.tbSend_withKafka (w : World) (k : Kafka) (capacity : Nat) (request : TbRequest) :
    (w.withKafka k).tbSend capacity request =
      (w.tbSend capacity request).map (fun out => (out.1, out.2.withKafka k)) := by
  by_cases ha : w.alive = true
  · by_cases hq : w.queue.length < capacity <;> simp [World.tbSend, World.withKafka, ha, hq]
  · simp [World.tbSend, World.withKafka, ha]

theorem World.tbRecv_withKafka (w : World) (k : Kafka) (i : ResponderId) :
    (w.withKafka k).tbRecv i = (w.tbRecv i).map (fun out => (out.1, out.2.withKafka k)) := by
  have hreply : (w.withKafka k).reply? i = w.reply? i := rfl
  have hpending : (w.withKafka k).isPending i = w.isPending i := rfl
  unfold World.tbRecv
  rw [hreply, hpending]
  cases w.reply? i with
  | some reply => rfl
  | none => by_cases hp : w.isPending i = true <;> simp [hp]

theorem World.kafkaApply_withKafka (w : World) (cmd : KafkaCmd) (k : Kafka) :
    (w.kafkaApply cmd).withKafka k = w.withKafka k := by
  cases cmd <;> rfl

/-- Effects other than Kafka commands do not see the Kafka part. -/
theorem World.exec_withKafka {capacity : Nat} {ch : Choice} {e : Eff} (he : e.notKafka) (w : World)
    (k : Kafka) : (w.withKafka k).exec capacity ch e =
      (w.exec capacity ch e).map (fun out => (out.1, out.2.withKafka k)) := by
  cases e with
  | kafka cmd => exact he.elim
  | now => rfl
  | newV4 use =>
      simp only [World.exec]
      change (if w.isFresh [ch.uuid 0] = true then _ else _) = _
      split <;> rfl
  | db call => exact w.dbExec_withKafka k ch call
  | redis cmd =>
      simp only [World.exec, World.faulty]
      split
      · cases cmd <;> rfl
      · next applied message _ => cases applied <;> cases cmd <;> rfl
  | tbSend request => exact w.tbSend_withKafka k capacity request
  | tbRecv i => exact w.tbRecv_withKafka k i

/-- Nor do the world's own moves. -/
theorem World.move_withKafka {tb : TigerBeetle} {n : Nat} {v : Move} (w : World) (k : Kafka) :
    (w.withKafka k).move tb n v = (w.move tb n v).map (fun w' => w'.withKafka k) := by
  cases v with
  | receive o =>
      cases ha : w.alive with
      | false => simp [World.move, World.withKafka, ha]
      | true => cases hq : w.queue <;> simp [World.move, World.withKafka, ha, hq]
  | tick o => by_cases ha : w.alive = true <;> simp [World.move, World.withKafka, ha]
  | expire key =>
      have hget : (w.withKafka k).redisGet key = w.redisGet key := rfl
      simp only [World.move, hget]
      rcases w.redisGet key with _ | ⟨value, _ | ex⟩ <;> rfl
  | _ => rfl

/-- Nor do they change it. -/
theorem World.exec_kafka {capacity : Nat} {ch : Choice} {e : Eff} {r : e.Resp} {w w' : World}
    (he : e.notKafka) (h : w.exec capacity ch e = some (r, w')) : w'.kafka = w.kafka := by
  have hself := @World.exec_withKafka capacity ch e he w w.kafka
  rw [World.withKafka_self, h] at hself
  obtain ⟨-, hw⟩ := Prod.mk.inj (Option.some.inj hself)
  rw [hw]
  rfl

theorem World.move_kafka {tb : TigerBeetle} {n : Nat} {v : Move} {w w' : World}
    (h : w.move tb n v = some w') : w'.kafka = w.kafka := by
  have hself := @World.move_withKafka tb n v w w.kafka
  rw [World.withKafka_self, h] at hself
  rw [Option.some.inj hself]
  rfl

/-! ### The cluster -/

/-- The entries for a provider's user on its own topic. -/
def topicAcls (topic username : String) : List Acl :=
  [⟨"User:" ++ username, .read, .topic topic⟩, ⟨"User:" ++ username, .describe, .topic topic⟩]

/-- The entries that a provider's user gets: its own topic, as any consumer group. -/
def consumerAcls (topic username : String) : List Acl :=
  topicAcls topic username ++ [⟨"User:" ++ username, .read, .group "*"⟩]

/-- What the effects of the service have brought about is on the cluster, next to what was
there before (`b₀`). Of a grant it may have more, while the second script is still to come. -/
structure Mirrors (b₀ b : Broker) (k : Kafka) : Prop where
  topics : ∀ t, (b.topics t).isSome ↔ t ∈ k.topics ∨ (b₀.topics t).isSome
  users : ∀ u, b.users u = (k.scramUsers.lookup u).or (b₀.users u)
  granted : ∀ pair ∈ k.consumerAcls, ∀ a ∈ consumerAcls pair.1 pair.2, b.acls a = true

/-- What was on the cluster before is left alone, and what is new belongs to a provider in the
database, under the settings that its row holds. -/
structure Tenancy (env : Env) (admin : AppKafkaAdmin) (b₀ b : Broker) (pg : Pg) : Prop where
  keptTopics : ∀ t settings, b₀.topics t = some settings → b.topics t = some settings
  keptAcls : ∀ a, b₀.acls a = true → b.acls a = true
  ownTopics : ∀ t settings, b.topics t = some settings → b₀.topics t = some settings ∨
    ∃ p ∈ pg.providers, ∃ s, SettingsOf env p s ∧ t = s.topic ∧
      settings = ⟨admin.partitions, admin.replicationFactor⟩
  ownUsers : ∀ u, b.users u = b₀.users u ∨
    ∃ p ∈ pg.providers, ∃ s, SettingsOf env p s ∧ u = s.username ∧ b.users u = some s.password
  ownAcls : ∀ a, b.acls a = true → b₀.acls a = true ∨
    ∃ p ∈ pg.providers, ∃ s, SettingsOf env p s ∧ a ∈ consumerAcls s.topic s.username

/-- The cluster next to the service, in a state `w` of the service. -/
structure BrokerOf (env : Env) (admin : AppKafkaAdmin) (b₀ b : Broker) (w : World) : Prop
    extends Mirrors b₀ b w.kafka, Tenancy env admin b₀ b w.pg

/-- Another user's password is found where it was. -/
theorem lookup_filter_ne {α β : Type} [DecidableEq α] {u v : α} (xs : List (α × β)) (h : u ≠ v) :
    (xs.filter (fun x => x.1 ≠ v)).lookup u = xs.lookup u := by
  induction xs with
  | nil => rfl
  | cons x xs ih =>
      by_cases hx : x.1 = v
      · have hux : (u == x.1) = false := by simpa [hx] using h
        rw [List.filter_cons_of_neg (by simpa using hx), ih, List.lookup_cons, hux]
      · rw [List.filter_cons_of_pos (by simpa using hx), List.lookup_cons, List.lookup_cons, ih]

namespace BrokerOf

variable {env : Env} {admin : AppKafkaAdmin} {b₀ b : Broker} {w w' : World}

theorem start (hw : w.kafka = ⟨[], [], []⟩) : BrokerOf env admin b₀ b₀ w where
  topics := by simp [hw]
  users := by simp [hw]
  granted := by simp [hw]
  keptTopics _ _ h := h
  keptAcls _ h := h
  ownTopics _ _ h := Or.inl h
  ownUsers _ := Or.inl rfl
  ownAcls _ h := Or.inl h

theorem mono (h : BrokerOf env admin b₀ b w) (hkafka : w'.kafka = w.kafka)
    (hproviders : w.pg.providers ⊆ w'.pg.providers) : BrokerOf env admin b₀ b w' where
  topics := by rw [hkafka]; exact h.topics
  users := by rw [hkafka]; exact h.users
  granted := by rw [hkafka]; exact h.granted
  keptTopics := h.keptTopics
  keptAcls := h.keptAcls
  ownTopics t settings ht :=
    (h.ownTopics t settings ht).imp_right (fun ⟨p, hp, hs⟩ => ⟨p, hproviders hp, hs⟩)
  ownUsers u := (h.ownUsers u).imp_right (fun ⟨p, hp, hs⟩ => ⟨p, hproviders hp, hs⟩)
  ownAcls a ha := (h.ownAcls a ha).imp_right (fun ⟨p, hp, hs⟩ => ⟨p, hproviders hp, hs⟩)

theorem createTopic {t : String} (h : BrokerOf env admin b₀ b w)
    (hcmd : TenantCommand env w.pg (.createProviderTopic t)) :
    BrokerOf env admin b₀
      (b.apply (.createTopic t ⟨admin.partitions, admin.replicationFactor⟩))
      (w.kafkaApply (.createProviderTopic t)) := by
  obtain ⟨p, hp, s, hs, hmem⟩ := hcmd
  obtain rfl : t = s.topic := by simpa [kafkaCommands] using hmem
  refine { h with topics := fun t => ?_, keptTopics := fun t settings ht => ?_,
                  ownTopics := fun t settings ht => ?_ }
  · by_cases heq : t = s.topic
    · subst heq
      simp [Broker.apply, World.kafkaApply]
    · simp [Broker.apply, World.kafkaApply, heq, h.topics t]
  · have hkept := h.keptTopics t settings ht
    by_cases heq : t = s.topic
    · subst heq
      simp [Broker.apply, hkept]
    · simp [Broker.apply, heq, hkept]
  · by_cases heq : t = s.topic
    · subst heq
      cases hold : b.topics s.topic with
      | some old =>
          obtain rfl : old = settings := by simpa [Broker.apply, hold] using ht
          exact h.ownTopics _ _ hold
      | none =>
          have hnew : ⟨admin.partitions, admin.replicationFactor⟩ = settings := by
            simpa [Broker.apply, hold] using ht
          exact Or.inr ⟨p, hp, s, hs, rfl, hnew.symm⟩
    · exact h.ownTopics t settings (by simpa [Broker.apply, heq] using ht)

theorem createUser {u password : String} (h : BrokerOf env admin b₀ b w)
    (hcmd : TenantCommand env w.pg (.createScramUser u password)) :
    BrokerOf env admin b₀ (b.apply (.alterUser u password))
      (w.kafkaApply (.createScramUser u password)) := by
  obtain ⟨p, hp, s, hs, hmem⟩ := hcmd
  obtain ⟨rfl, rfl⟩ : u = s.username ∧ password = s.password := by
    simpa [kafkaCommands] using hmem
  refine { h with users := fun u => ?_, ownUsers := fun u => ?_ }
  · by_cases heq : u = s.username
    · subst heq
      simp [Broker.apply, World.kafkaApply]
    · have hbeq : (u == s.username) = false := by simpa using heq
      have hlookup : (w.kafkaApply (.createScramUser s.username s.password)).kafka.scramUsers.lookup u
          = w.kafka.scramUsers.lookup u := by
        simp only [World.kafkaApply, List.lookup_cons, hbeq]
        exact lookup_filter_ne w.kafka.scramUsers heq
      rw [hlookup, ← h.users u]
      simp [Broker.apply, heq]
  · by_cases heq : u = s.username
    · subst heq
      exact Or.inr ⟨p, hp, s, hs, rfl, by simp [Broker.apply]⟩
    · have hsame : (b.apply (.alterUser s.username s.password)).users u = b.users u := by
        simp [Broker.apply, heq]
      rw [hsame]
      exact h.ownUsers u

/-- More entries for a provider's user. -/
theorem allow {p : Provider} {s : ProviderKafkaSettings} {principal : String}
    {operations : List Operation} {resource : Resource} (h : BrokerOf env admin b₀ b w)
    (hp : p ∈ w.pg.providers) (hs : SettingsOf env p s)
    (hown : ∀ operation ∈ operations,
      (⟨principal, operation, resource⟩ : Acl) ∈ consumerAcls s.topic s.username) :
    BrokerOf env admin b₀ (b.apply (.allow principal operations resource)) w := by
  have hmore : ∀ a, b.acls a = true →
      (b.apply (.allow principal operations resource)).acls a = true := by
    intro a ha
    simp [Broker.apply, ha]
  refine { h with granted := fun pair hpair a ha => hmore a (h.granted pair hpair a ha),
                  keptAcls := fun a ha => hmore a (h.keptAcls a ha),
                  ownAcls := fun a ha => ?_ }
  by_cases hold : b.acls a = true
  · exact h.ownAcls a hold
  · obtain ⟨⟨rfl, hmem⟩, rfl⟩ : (a.principal = principal ∧ a.operation ∈ operations) ∧
        a.resource = resource := by simpa [Broker.apply, hold] using ha
    exact Or.inr ⟨p, hp, s, hs, hown _ hmem⟩

theorem grant {t u : String} (h : BrokerOf env admin b₀ b w)
    (hall : ∀ a ∈ consumerAcls t u, b.acls a = true) :
    BrokerOf env admin b₀ b (w.kafkaApply (.grantConsumerAcls t u)) := by
  refine { h with granted := fun pair hpair => ?_ }
  rcases List.mem_insert_iff.mp hpair with rfl | hpair
  · exact hall
  · exact h.granted pair hpair

end BrokerOf

/-! ### The expansion -/

/-- The methods of the administrator carry the Kafka effects out. -/
def scripts {C : Type} (env : Env) (tools : KafkaTools C) (admin : AppKafkaAdmin) (b₀ : Broker) :
    Expansion (machine env) (deployed env tools admin) where
  impl := carryOut admin
  rel d w := d.service = w.withKafka ⟨[], [], []⟩ ∧ BrokerOf env admin b₀ d.broker w
  ready e w :=
    match e with
    | .kafka cmd => TenantCommand env w.pg cmd
    | _ => True
  grows := Grows

section

variable {C : Type} {env : Env} {tools : KafkaTools C} {admin : AppKafkaAdmin} {b₀ : Broker}

theorem await_invoke (command : Command) (ignored : List String) (failure : String) :
    await (invoke command ignored failure) = .call (.script command) (fun r =>
      .ret ((finished command ignored failure r).mapError AdminError.toString)) := by
  unfold await
  rw [invoke_run]
  rfl

theorem await_invoke_bind (command : Command) (ignored : List String) (failure : String)
    (next : Unit → Scripts Unit) :
    await (invoke command ignored failure >>= next) = .call (.script command) (fun r =>
      match finished command ignored failure r with
      | .ok done => await (next done)
      | .error e => .ret (.error e.toString)) := by
  unfold await
  rw [invoke_bind_run]
  change Prog.call (ScriptEff.script command) _ = Prog.call (ScriptEff.script command) _
  congr 1
  funext r
  simp only [Prog.ret_bind]
  generalize finished command ignored failure r = x
  cases x <;> rfl

/-- A step that runs a command. -/
theorem deployed_script {ch : DeploymentChoice C} {command : Command} {d d' : Deployment}
    {r : Except String Output}
    (hx : (deployed env tools admin).exec ch (.script command) d = some (r, d')) :
    tools.run d.broker command ch.script = some (r, d'.broker) ∧ d'.service = d.service := by
  obtain ⟨⟨r', b'⟩, hrun, heq⟩ := Option.map_eq_some_iff.mp hx
  obtain ⟨rfl, rfl⟩ := Prod.mk.inj heq
  exact ⟨hrun, rfl⟩

/-- What is allowed on the cluster stays allowed. -/
theorem stable_acls (acls : List Acl) :
    (deployed env tools admin).Stable (fun d => ∀ a ∈ acls, d.broker.acls a = true) where
  exec ch e d r d' hnote hx := by
    cases e with
    | service e =>
        obtain ⟨out, -, heq⟩ := Option.map_eq_some_iff.mp hx
        obtain ⟨-, rfl⟩ := Prod.mk.inj heq
        exact hnote
    | script command =>
        obtain ⟨hrun, -⟩ := deployed_script hx
        obtain ⟨action, -, hb | hb⟩ := tools.run_cases hrun
        · rw [hb]
          exact hnote
        · rw [hb]
          exact fun a ha => Broker.apply_acls (hnote a ha) action
  env v d d' hnote hx := by
    obtain ⟨w, -, rfl⟩ := Option.map_eq_some_iff.mp hx
    exact hnote

theorem commits_service {e : Eff} (he : e.notKafka) :
    (scripts env tools admin b₀).Commits e (fun _ => True)
      (Prog.perform (ScriptEff.service e) : Prog ScriptEff ScriptEff.Resp e.Resp) := by
  rintro ch d w r d' - ⟨hservice, hbroker⟩ - hx
  obtain ⟨⟨r', v⟩, hexec, heq⟩ := Option.map_eq_some_iff.mp hx
  obtain ⟨rfl, rfl⟩ := Prod.mk.inj heq
  rw [hservice, World.exec_withKafka he] at hexec
  obtain ⟨⟨r'', w'⟩, hexec', heq⟩ := Option.map_eq_some_iff.mp hexec
  obtain ⟨rfl, rfl⟩ := Prod.mk.inj heq
  refine Or.inr ⟨ch.service, r'', w', hexec', fun hgrows => ⟨rfl, ?_⟩, rfl⟩
  exact hbroker.mono (World.exec_kafka he hexec') hgrows.pg.providers.subset

/-- The last command of an effect: it commits, and what the command is for is what the effect
does to the cluster. -/
theorem commits_last {cmd : KafkaCmd} {command : Command} {a : Action} {ignored : List String}
    {failure : String} {note : Deployment → Prop}
    (hparse : ∀ pg, TenantCommand env pg cmd → tools.action command = some a)
    (hignored : ignored ⊆ a.saysDone)
    (happly : ∀ d w, note d → BrokerOf env admin b₀ d.broker w → TenantCommand env w.pg cmd →
      BrokerOf env admin b₀ (d.broker.apply a) (w.kafkaApply cmd)) :
    (scripts env tools admin b₀).Commits (.kafka cmd) note (await (invoke command ignored failure)) := by
  rw [await_invoke]
  intro ch d w r d' hnote ⟨hservice, hbroker⟩ hcmd hx
  obtain ⟨hrun, hsame⟩ := deployed_script hx
  have hparsed := hparse _ hcmd
  have hnext := happly d w hnote hbroker hcmd
  have hservice' : d'.service = w.withKafka ⟨[], [], []⟩ := hsame.trans hservice
  refine Or.inr ?_
  cases hfinished : finished command ignored failure r with
  | ok done =>
      have hb := tools.run_checked_apply hparsed hignored hrun hfinished
      have hreply : (finished command ignored failure r).mapError AdminError.toString = .ok done := by
        rw [hfinished]
        rfl
      refine ⟨⟨.none, ch.service.uuid⟩, .ok done, w.kafkaApply cmd, rfl, fun _ => ?_, hreply⟩
      exact ⟨hservice'.trans (w.kafkaApply_withKafka cmd _).symm, hb ▸ hnext⟩
  | error e =>
      have hreply : (finished command ignored failure r).mapError AdminError.toString =
          .error e.toString := by
        rw [hfinished]
        rfl
      obtain ⟨a', hparse', hb | hb⟩ := tools.run_cases hrun
      · refine ⟨⟨.fail false e.toString, ch.service.uuid⟩, .error e.toString, w, rfl, fun _ => ?_,
          hreply⟩
        exact ⟨hservice', hb ▸ hbroker⟩
      · obtain rfl := Option.some.inj (hparsed.symm.trans hparse')
        refine ⟨⟨.fail true e.toString, ch.service.uuid⟩, .error e.toString, w.kafkaApply cmd, rfl,
          fun _ => ?_, hreply⟩
        exact ⟨hservice'.trans (w.kafkaApply_withKafka cmd _).symm, hb ▸ hnext⟩

theorem commits_createProviderTopic (topic : String) :
    (scripts env tools admin b₀).Commits (.kafka (.createProviderTopic topic)) (fun _ => True)
      (await (admin.createProviderTopic topic)) :=
  commits_last (fun _ _ => tools.createTopic admin topic) (List.Subset.refl _)
    (fun _ _ _ hbroker hcmd => hbroker.createTopic hcmd)

theorem commits_createScramUser (username password : String) :
    (scripts env tools admin b₀).Commits (.kafka (.createScramUser username password)) (fun _ => True)
      (await (admin.createScramUser username password)) := by
  refine commits_last (fun _ hcmd => tools.createScramUser admin username ?_)
    (List.Subset.refl _) (fun _ _ _ hbroker hcmd => hbroker.createUser hcmd)
  obtain ⟨p, -, s, ⟨-, passwordId, rfl⟩, hmem⟩ := hcmd
  obtain ⟨-, rfl⟩ : username = _ ∧ password = passwordId.simple := by
    simpa [kafkaCommands, newKafkaSettings] using hmem
  exact isPlain_simple passwordId

theorem commits_grantConsumerAcls (topic username : String) :
    (scripts env tools admin b₀).Commits (.kafka (.grantConsumerAcls topic username)) (fun _ => True)
      (await (admin.grantConsumerAcls topic username)) := by
  unfold AppKafkaAdmin.grantConsumerAcls
  rw [await_invoke_bind]
  rintro ch d w r d' - ⟨hservice, hbroker⟩ hcmd hx
  obtain ⟨hrun, hsame⟩ := deployed_script hx
  have hparse := tools.topicRead admin topic username
  -- the first entries belong to a provider, whether or not the second script is ever run
  have hmore : BrokerOf env admin b₀ d'.broker w := by
    obtain ⟨p, hp, s, hs, hmem⟩ := hcmd
    obtain ⟨rfl, rfl⟩ : topic = s.topic ∧ username = s.username := by
      simpa [kafkaCommands] using hmem
    obtain ⟨a, hparse', hb | hb⟩ := tools.run_cases hrun
    · rw [hb]
      exact hbroker
    · obtain rfl := Option.some.inj (hparse.symm.trans hparse')
      rw [hb]
      exact hbroker.allow hp hs (by simp [consumerAcls, topicAcls])
  have hrel : (scripts env tools admin b₀).rel d' w := ⟨hsame.trans hservice, hmore⟩
  cases hfinished : finished (admin.topicReadCommand topic username) []
      "Failed to grant topic ACLs: " r with
  | ok done =>
      -- the second script is still to come, and what the first one brought about stays
      have hdone : ∀ a ∈ topicAcls topic username, d'.broker.acls a = true := by
        have hhas := tools.run_checked hparse (List.nil_subset _) hrun hfinished
        simpa [topicAcls, Broker.Has] using hhas
      refine Or.inl ⟨hrel, _, stable_acls (topicAcls topic username), hdone, ?_⟩
      simp only [hfinished]
      refine commits_last (fun _ _ => tools.groupRead admin username)
        (List.nil_subset _) (fun d w hnote hbroker hcmd => ?_)
      obtain ⟨p, hp, s, hs, hmem⟩ := hcmd
      obtain ⟨rfl, rfl⟩ : topic = s.topic ∧ username = s.username := by
        simpa [kafkaCommands] using hmem
      refine (hbroker.allow hp hs (by simp [consumerAcls, topicAcls])).grant (fun a ha => ?_)
      rcases List.mem_append.mp ha with ha | ha
      · exact Broker.apply_acls (hnote a ha) _
      · obtain rfl := List.mem_singleton.mp ha
        have hhas := d.broker.has_apply (.allow ("User:" ++ s.username) [.read] (.group "*"))
        exact hhas .read (List.mem_singleton_self _)
  | error e =>
      refine Or.inr ⟨⟨.fail false e.toString, ch.service.uuid⟩, .error e.toString, w, rfl,
        fun _ => hrel, ?_⟩
      simp only [hfinished]
      rfl

/-- Every effect is carried out by what commits once. -/
theorem scripts_sound : (scripts env tools admin b₀).Sound := by
  intro e
  cases e with
  | kafka cmd =>
      cases cmd with
      | createProviderTopic topic => exact commits_createProviderTopic topic
      | createScramUser username password => exact commits_createScramUser username password
      | grantConsumerAcls topic username => exact commits_grantConsumerAcls topic username
  | _ => exact commits_service trivial

theorem scripts_matches : (scripts env tools admin b₀).Matches where
  start _ := rfl
  env v d w d' hrel hx := by
    obtain ⟨hservice, hbroker⟩ := hrel
    obtain ⟨v', hmove, rfl⟩ := Option.map_eq_some_iff.mp hx
    rw [hservice, World.move_withKafka] at hmove
    obtain ⟨w', hmove', rfl⟩ := Option.map_eq_some_iff.mp hmove
    refine Or.inr ⟨v, w', hmove', fun hgrows => ⟨rfl, ?_⟩⟩
    exact hbroker.mono (World.move_kafka hmove') hgrows.pg.providers.subset

/-- What the service with scripts reaches, the service reaches. -/
theorem Deployed.simulated {c' : DeployedState} (h : Deployed env tools admin b₀ c') :
    ∃ c, Reachable env c ∧ (scripts env tools admin b₀).Simulated c' c := by
  obtain ⟨now, hreach⟩ := h
  refine Expansion.simulates (P := Reachable env) scripts_sound scripts_matches
    (fun c l d hc hs => hc.step hs) ?_ (boot_reachable env now)
    ⟨⟨rfl, BrokerOf.start rfl⟩, .nil⟩ hreach
  intro c t e k hc ht hrest
  cases e with
  | kafka cmd => exact hc.tenantCommand ht hrest
  | _ => trivial

end

end Wurzburg.System
