import Wurzburg.System.KafkaScripts
import Wurzburg.System.Schedule

/-!
# Wurzburg.System.KafkaAccess

What the scripts of `AppKafkaAdmin` come to, over whole runs of the service: they refine
the effects that the rest of this development reasons about, and they keep the providers
apart on the cluster.
-/

namespace Wurzburg.System

open Wurzburg.Lib Wurzburg.Db Wurzburg.Tb Wurzburg.Api Wurzburg.Admin

/-- `provider.events.…` -/
def eventsTopic (id : Uuid) : String := "provider.events." ++ id.simple

/-- `provider_user_…` -/
def eventsUser (id : Uuid) : String := "provider_user_" ++ id.simple

/-- **The scripts refine the Kafka effects.** Whatever the service reaches when each command is
run on its own, on a cluster in use, with any failures and cut off anywhere, the service of
`machine` reaches: with the same stores, the same answers, and the topics, users and grants of
its Kafka part on the cluster. -/
theorem scripts_refine_service {C : Type} {env : Env} {tools : KafkaTools C}
    {admin : AppKafkaAdmin} {b₀ : Broker}
    {c' : DeployedState} (h : Deployed env tools admin b₀ c') :
    ∃ c, Reachable env c ∧
      c'.world.service = c.world.withKafka ⟨[], [], []⟩ ∧
      Mirrors b₀ c'.world.broker c.world.kafka ∧
      c'.tasks.length = c.tasks.length ∧
      ∀ (i : Nat) t', c'.tasks[i]? = some t' → ∃ t : Serving, c.tasks[i]? = some t ∧
        t.req = t'.req ∧ ∀ a, t'.answer? = some a → t.answer? = some a := by
  obtain ⟨c, hc, hsim⟩ := h.simulated
  obtain ⟨hservice, hbroker⟩ := hsim.world
  exact ⟨c, hc, hservice, hbroker.toMirrors, hsim.tasks.length_eq,
    fun i t' ht' => hsim.answered ht'⟩

/-! ### A set-up that ends half-way -/

/-- `[kafka.admin]` of `config/default.toml`, in a shorter directory. -/
def defaultAdmin : AppKafkaAdmin := .new ⟨"localhost:9092", "/opt/kafka/bin/", 1, 1⟩

/-- A cluster that a producer uses already. -/
def usedBroker : Broker where
  topics t := if t = "nuremberg.events" then some ⟨"1", "1"⟩ else none
  users u := if u = "nuremberg_producer_user" then some "nuremberg_producer_password" else none
  acls a := a = ⟨"User:nuremberg_producer_user", .write, .topic "nuremberg.events"⟩

/-- The next step of the only request, without a failure. -/
def goOn (n : Nat) : Label Request (DeploymentChoice ScriptChoice) Move :=
  .step 0 ⟨⟨.none, fun i => ⟨BitVec.ofNat 128 (1000 + n + i)⟩⟩, ⟨.ok ⟨true, ""⟩, true⟩⟩

/-- The last script does not come through. -/
def timesOut : Label Request (DeploymentChoice ScriptChoice) Move :=
  .step 0 ⟨⟨.none, fun _ => ⟨0⟩⟩, ⟨.ok ⟨false, "TimeoutException"⟩, false⟩⟩

/-- A provider is created, and its user is not let into consumer groups. -/
def halfGranted : List (Label Request (DeploymentChoice ScriptChoice) Move) :=
  [.arrive (.createProvider sampleProvider)] ++ (List.range 5).map goOn ++
    [.env (.receive .ok), .env (.tick .allOk)] ++ (List.range 6).map (fun n => goOn (5 + n)) ++
    [timesOut]

/-- The provider is created all the same; its user may read the topic, but not as a consumer
group. -/
theorem halfGranted_run : ∃ c, Deployed defaultEnv .reference defaultAdmin usedBroker c ∧
    c.tasks.map (fun t => t.answer?.map Answer.status) = [some .created] ∧
    c.world.service.pg.providers.map (·.id) = [⟨1001⟩] ∧
    [c.world.broker.acls ⟨"User:" ++ eventsUser ⟨1001⟩, .read, .topic (eventsTopic ⟨1001⟩)⟩,
      c.world.broker.acls ⟨"User:" ++ eventsUser ⟨1001⟩, .read, .group "*"⟩] = [true, false] := by
  have hscene : ((deployed defaultEnv .reference defaultAdmin).runAll halfGranted
      ⟨⟨World.boot (systemIds defaultEnv) 0, usedBroker⟩, []⟩).map (fun c =>
        (c.tasks.map (fun t => t.answer?.map Answer.status),
          c.world.service.pg.providers.map (·.id),
          [c.world.broker.acls ⟨"User:" ++ eventsUser ⟨1001⟩, .read, .topic (eventsTopic ⟨1001⟩)⟩,
            c.world.broker.acls ⟨"User:" ++ eventsUser ⟨1001⟩, .read, .group "*"⟩])) =
      some ([some .created], [⟨1001⟩], [true, false]) := by
    decide +kernel
  obtain ⟨c, hrun, heq⟩ := Option.map_eq_some_iff.mp hscene
  obtain ⟨hanswers, hrest⟩ := Prod.mk.inj heq
  obtain ⟨hproviders, hacls⟩ := Prod.mk.inj hrest
  exact ⟨c, ⟨0, Machine.reach_of_runAll hrun (fun _ _ => trivial)⟩, hanswers, hproviders, hacls⟩

theorem scripts_refine_service_halfGranted :
    ∃ c' c, Deployed defaultEnv .reference defaultAdmin usedBroker c' ∧ Reachable defaultEnv c ∧
      c'.world.service = c.world.withKafka ⟨[], [], []⟩ ∧
      Mirrors usedBroker c'.world.broker c.world.kafka := by
  obtain ⟨c', hc', -⟩ := halfGranted_run
  obtain ⟨c, hc, hservice, hmirrors, -⟩ := scripts_refine_service hc'
  exact ⟨c', c, hc', hc, hservice, hmirrors⟩

/-! ### The providers on the cluster -/

theorem eventsUser_inj {id id' : Uuid} (h : eventsUser id = eventsUser id') : id = id' := by
  have hchars := congrArg String.toList h
  simp only [eventsUser, String.toList_append] at hchars
  exact Uuid.simple_inj.mp (String.toList_injective (List.append_cancel_left hchars))

theorem SettingsOf.names {env : Env} {p : Provider} {s : ProviderKafkaSettings}
    (h : SettingsOf env p s) : s.topic = eventsTopic p.id ∧ s.username = eventsUser p.id := by
  obtain ⟨passwordId, rfl⟩ := h.drawn
  exact ⟨rfl, rfl⟩

theorem principal_of_mem_consumerAcls {topic username : String} {a : Acl}
    (h : a ∈ consumerAcls topic username) : a.principal = "User:" ++ username := by
  simp only [consumerAcls, topicAcls, List.cons_append, List.nil_append, List.mem_cons,
    List.not_mem_nil, or_false] at h
  rcases h with rfl | rfl | rfl <;> rfl

theorem Deployed.tenancy {C : Type} {env : Env} {tools : KafkaTools C}
    {admin : AppKafkaAdmin} {b₀ : Broker} {c : DeployedState}
    (h : Deployed env tools admin b₀ c) :
    Tenancy env admin b₀ c.world.broker c.world.service.pg := by
  obtain ⟨c₁, hc, hsim⟩ := h.simulated
  obtain ⟨hservice, hbroker⟩ := hsim.world
  rw [hservice]
  exact hbroker.toTenancy

/-- **Every provider reads its own events only.** Whatever happens while the service runs, and
wherever it is cut off, on the cluster that it administers everything is as it was before but
for topics, users and entries of providers in the database: a new topic is a provider's, with
the configured numbers; a user whose password is not the one from before is a provider's, and
the password is one that its row holds; and what the user of a provider was not allowed before,
it is allowed on the provider's own topic only. -/
theorem providers_kept_apart {C : Type} {env : Env} {tools : KafkaTools C}
    {admin : AppKafkaAdmin} {b₀ : Broker}
    {c : DeployedState} (h : Deployed env tools admin b₀ c) :
    (∀ t settings, b₀.topics t = some settings → c.world.broker.topics t = some settings) ∧
    (∀ a, b₀.acls a = true → c.world.broker.acls a = true) ∧
    (∀ t settings, c.world.broker.topics t = some settings → b₀.topics t = some settings ∨
      settings = ⟨admin.partitions, admin.replicationFactor⟩ ∧
        ∃ p ∈ c.world.service.pg.providers, t = eventsTopic p.id) ∧
    (∀ u, c.world.broker.users u = b₀.users u ∨
      ∃ p ∈ c.world.service.pg.providers, u = eventsUser p.id ∧
        ∃ s, p.kafkaConfig = env.kafkaToJson s ∧ s.username = u ∧
          c.world.broker.users u = some s.password) ∧
    (∀ a, c.world.broker.acls a = true → b₀.acls a = true ∨
      ∃ p ∈ c.world.service.pg.providers,
        a ∈ consumerAcls (eventsTopic p.id) (eventsUser p.id)) ∧
    ∀ p ∈ c.world.service.pg.providers, ∀ a, c.world.broker.acls a = true →
      a.principal = "User:" ++ eventsUser p.id →
      b₀.acls a = true ∨ a ∈ consumerAcls (eventsTopic p.id) (eventsUser p.id) := by
  have htenancy := h.tenancy
  have hacls : ∀ a, c.world.broker.acls a = true → b₀.acls a = true ∨
      ∃ p ∈ c.world.service.pg.providers,
        a ∈ consumerAcls (eventsTopic p.id) (eventsUser p.id) := by
    intro a ha
    refine (htenancy.ownAcls a ha).imp_right (fun ⟨p, hp, s, hs, hmem⟩ => ⟨p, hp, ?_⟩)
    rwa [hs.names.1, hs.names.2] at hmem
  refine ⟨htenancy.keptTopics, htenancy.keptAcls, fun t settings ht => ?_, fun u => ?_, hacls,
    fun p hp a ha hprincipal => ?_⟩
  · exact (htenancy.ownTopics t settings ht).imp_right
      (fun ⟨p, hp, s, hs, hname, hnumbers⟩ => ⟨hnumbers, p, hp, hname.trans hs.names.1⟩)
  · refine (htenancy.ownUsers u).imp_right (fun ⟨p, hp, s, hs, hname, hpassword⟩ => ?_)
    exact ⟨p, hp, hname.trans hs.names.2, s, hs.stored, hname.symm, hpassword⟩
  · rcases hacls a ha with hold | ⟨p', hp', hmem⟩
    · exact Or.inl hold
    · have hname := (principal_of_mem_consumerAcls hmem).symm.trans hprincipal
      have hchars := congrArg String.toList hname
      simp only [String.toList_append] at hchars
      obtain hid := eventsUser_inj (String.toList_injective (List.append_cancel_left hchars))
      exact Or.inr (hid ▸ hmem)

theorem providers_kept_apart_halfGranted :
    ∃ c, c.world.service.pg.providers.map (·.id) = [⟨1001⟩] ∧
      Deployed defaultEnv .reference defaultAdmin usedBroker c ∧
      ∀ a, c.world.broker.acls a = true → usedBroker.acls a = true ∨
        ∃ p ∈ c.world.service.pg.providers,
          a ∈ consumerAcls (eventsTopic p.id) (eventsUser p.id) := by
  obtain ⟨c, hc, -, hproviders, -⟩ := halfGranted_run
  obtain ⟨-, -, -, -, hacls, -⟩ := providers_kept_apart hc
  exact ⟨c, hproviders, hc, hacls⟩

end Wurzburg.System
