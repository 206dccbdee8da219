import Wurzburg.Kafka.Broker
import Wurzburg.Lib.Pool
import Wurzburg.Lib.Retry

/-!
# Wurzburg.Kafka.Nuremberg

`seed_nuremberg_kafka_infrastructure`: at every start of the service, a topic, a user
that may write to it, and the right to do so are created by three scripts.

A start can fail or be cut off after any of them and is then made again, and several
instances of the service can start at once. The scripts are steps that can come again
(`Wurzburg.Lib.Retry`), so the cluster only ever goes through the stages of one seeding
(`seeding_converges`).
-/

namespace Wurzburg.Admin

open Wurzburg.Lib

/-! ### Seeding -/

/-- `[kafka.nuremberg.producer]`, as far as it is read here. -/
structure NurembergProducerConfig where
  saslUsername : Option String
  saslPassword : Option String
  topicName : String
  deriving DecidableEq, Repr

/-- `[kafka]`, as far as it is read here. -/
structure KafkaConfig where
  admin : KafkaAdminConfig
  nuremberg : NurembergProducerConfig
  deriving DecidableEq, Repr

/-- How a start can end before the service listens. -/
inductive BootFailure where
  /-- `unwrap` found no user name or no password. -/
  | panicked
  | failed (e : AdminError)
  deriving DecidableEq, Repr

/-- What is run on the blocking thread. -/
def seedNuremberg (admin : AppKafkaAdmin) (topicName producerUser producerPassword : String) :
    Scripts Unit := do
  -- 1. Create the topic
  admin.createTopic topicName
  -- 2. Create the SCRAM user for the producer
  admin.createScramUser producerUser producerPassword
  -- 3. Grant producer ACLs exclusively to the producer client
  admin.grantProducerAcls topicName producerUser

/-- `.context("Kafka infrastructure seeding failed")` -/
def seedingResult (r : Except AdminError Unit) : Except BootFailure Unit :=
  r.mapError (fun e => .failed (e.context "Kafka infrastructure seeding failed"))

/-- `seed_nuremberg_kafka_infrastructure` -/
def seedNurembergKafkaInfrastructure (config : KafkaConfig) :
    Prog Command (fun _ => Except String Output) (Except BootFailure Unit) :=
  let admin := AppKafkaAdmin.new config.admin
  match config.nuremberg.saslUsername, config.nuremberg.saslPassword with
  | some producerUser, some producerPassword =>
      (seedNuremberg admin config.nuremberg.topicName producerUser producerPassword).run.map
        seedingResult
  | _, _ => .ret (.error .panicked)

/-! ### Actions on different things -/

/-- The topic or the user that an action replaces. -/
def Action.target : Action → Option (Bool × String)
  | .createTopic topic _ | .deleteTopic topic => some (true, topic)
  | .alterUser name _ | .deleteUser name => some (false, name)
  | .allow .. => none

/-- Two actions that do not replace the same thing. -/
def Action.Apart (a a' : Action) : Prop := ∀ x, a.target = some x → a'.target ≠ some x

namespace Broker

variable (b : Broker) (a : Action)

/-- An action leaves other topics alone, and what it makes of one depends on that one only. -/
theorem apply_topics {t : String} (h : a.target ≠ some (true, t)) :
    (b.apply a).topics t = b.topics t := by
  cases a <;> simp_all [apply, Action.target, eq_comm]

theorem apply_topics_congr {b b' : Broker} {t : String} (h : b.topics t = b'.topics t) :
    (b.apply a).topics t = (b'.apply a).topics t := by
  cases a with
  | createTopic topic settings => by_cases heq : t = topic <;> simp_all [apply]
  | deleteTopic topic => by_cases heq : t = topic <;> simp_all [apply]
  | _ => exact h

theorem apply_users {name : String} (h : a.target ≠ some (false, name)) :
    (b.apply a).users name = b.users name := by
  cases a <;> simp_all [apply, Action.target, eq_comm]

theorem apply_users_congr {b b' : Broker} {name : String} (h : b.users name = b'.users name) :
    (b.apply a).users name = (b'.apply a).users name := by
  cases a with
  | alterUser name' password => by_cases heq : name = name' <;> simp_all [apply]
  | deleteUser name' => by_cases heq : name = name' <;> simp_all [apply]
  | _ => exact h

/-- Actions on different things can be made in any order. -/
theorem apply_comm {a' : Action} (h : a.Apart a') :
    (b.apply a).apply a' = (b.apply a').apply a := by
  ext x : 2
  · by_cases ha : a.target = some (true, x)
    · have ha' := h _ ha
      rw [apply_topics _ a' ha']
      exact apply_topics_congr a (apply_topics b a' ha').symm
    · rw [apply_topics _ a ha]
      exact apply_topics_congr a' (apply_topics b a ha)
  · by_cases ha : a.target = some (false, x)
    · have ha' := h _ ha
      rw [apply_users _ a' ha']
      exact apply_users_congr a (apply_users b a' ha').symm
    · rw [apply_users _ a ha]
      exact apply_users_congr a' (apply_users b a ha)
  · cases a <;> cases a' <;> simp [apply, Bool.or_right_comm]

end Broker

/-! ### Steps in turn -/

variable {C : Type} {tools : KafkaTools C}

/-- A command of a procedure, and what it is for. -/
structure Step (tools : KafkaTools C) where
  command : Command
  failure : String
  action : Action
  isFor : tools.action command = some action

/-- A procedure: each step only after the one before succeeded. A step whose effect is there
already is no error. -/
def inTurn : List (Step tools) → Scripts Unit
  | [] => pure ()
  | step :: steps => do
      invoke step.command step.action.saysDone step.failure
      inTurn steps

variable {α : Type} {g : Except AdminError Unit → α}

theorem inTurn_cons (step : Step tools) (steps : List (Step tools)) :
    (inTurn (step :: steps)).run.map g = .call step.command (fun r =>
      match finished step.command step.action.saysDone step.failure r with
      | .ok _ => (inTurn steps).run.map g
      | .error e => .ret (g (.error e))) := by
  change Prog.map g (invoke step.command step.action.saysDone step.failure >>=
    fun _ => inTurn steps).run = _
  rw [invoke_bind_run]
  change Prog.call step.command _ = Prog.call step.command _
  congr 1
  funext r
  beta_reduce
  generalize finished step.command step.action.saysDone step.failure r = x
  cases x <;> rfl

theorem inTurn_singleton (step : Step tools) :
    inTurn [step] = invoke step.command step.action.saysDone step.failure := by
  have hrun : (invoke step.command step.action.saysDone step.failure >>= fun _ => pure ()).run =
      (invoke step.command step.action.saysDone step.failure).run := by
    rw [invoke_bind_run, invoke_run]
    congr 1
    funext r
    generalize finished step.command step.action.saysDone step.failure r = x
    cases x <;> rfl
  exact hrun

/-- The cluster, and what others have done to it. -/
structure Cluster where
  broker : Broker
  others : List Action

/-- Any number of parties that carry a procedure out, between whose commands others do what
they like. -/
def parties (tools : KafkaTools C) (start : Prog Command (fun _ => Except String Output) α) :
    Machine Cluster Unit Command (fun _ => Except String Output) α C Action where
  start _ := start
  exec ch command s :=
    (tools.run s.broker command ch).map (fun out => (out.1, { s with broker := out.2 }))
  env a s := some ⟨s.broker.apply a, s.others ++ [a]⟩

/-- What others have made of the cluster. -/
def Cluster.besides (s : Cluster) (b₀ : Broker) : Broker := s.others.foldl Broker.apply b₀

/-- What is left of a party when the cluster is at stage `k`: it goes on with a step that is not
ahead of the cluster, or it has failed. -/
def AtStage (steps : List (Step tools)) (g : Except AdminError Unit → α) (k : Nat) :
    Prog Command (fun _ => Except String Output) α → Prop
  | p => (∃ j ≤ k, p = (inTurn (steps.drop j)).run.map g) ∨ ∃ e, p = .ret (g (.error e))

theorem AtStage.mono {steps : List (Step tools)} {k k' : Nat}
    {p : Prog Command (fun _ => Except String Output) α} (h : AtStage steps g k p) (hle : k ≤ k') :
    AtStage steps g k' p :=
  h.imp_left (fun ⟨j, hj, hp⟩ => ⟨j, hj.trans hle, hp⟩)

/-- A party that is at its end has succeeded, with the cluster at the last stage, or failed. -/
theorem AtStage.ended {steps : List (Step tools)} {k : Nat} {a : α}
    (h : AtStage steps g k (.ret a)) :
    (a = g (.ok ()) ∧ steps.length ≤ k) ∨ ∃ e, a = g (.error e) := by
  rcases h with ⟨j, hj, hp⟩ | ⟨e, hp⟩
  · by_cases hlt : j < steps.length
    · rw [List.drop_eq_getElem_cons hlt, inTurn_cons] at hp
      cases hp
    · rw [List.drop_eq_nil_of_le (Nat.le_of_not_lt hlt)] at hp
      exact Or.inl ⟨Prog.ret.inj hp, (Nat.le_of_not_lt hlt).trans hj⟩
  · exact Or.inr ⟨e, Prog.ret.inj hp⟩

section

variable {steps : List (Step tools)}

/-- A step that is not ahead of the cluster. -/
theorem apply_staged (hrep : Repeatable Broker.apply (steps.map Step.action)) {j k : Nat}
    (hlt : j < steps.length) (hj : j ≤ k) (b : Broker) :
    (staged Broker.apply (steps.map Step.action) k b).apply steps[j].action =
      staged Broker.apply (steps.map Step.action) (max k (j + 1)) b := by
  have hlt' : j < (steps.map Step.action).length := by simpa using hlt
  have hget : (steps.map Step.action)[j] = steps[j].action := List.getElem_map ..
  rcases Nat.lt_or_eq_of_le hj with hjk | rfl
  · rw [Nat.max_eq_left hjk, ← hget]
    exact hrep.again _ hjk b
  · rw [Nat.max_eq_right (Nat.le_succ _), ← hget]
    exact staged_succ _ b

/-- One command of a party: the cluster is at the same stage afterwards or, if it was the party
that was ahead, at the next one. -/
theorem AtStage.step {k : Nat} {command : Command}
    {next : Except String Output → Prog Command (fun _ => Except String Output) α}
    (h : AtStage steps g k (.call command next)) (hk : k ≤ steps.length)
    (hrep : Repeatable Broker.apply (steps.map Step.action)) {b b' : Broker} {ch : C}
    {r : Except String Output} (hrun : tools.run
      (staged Broker.apply (steps.map Step.action) k b) command ch = some (r, b')) :
    ∃ k', k ≤ k' ∧ k' ≤ steps.length ∧
      b' = staged Broker.apply (steps.map Step.action) k' b ∧ AtStage steps g k' (next r) := by
  rcases h with ⟨j, hj, hp⟩ | ⟨e, hp⟩
  · by_cases hlt : j < steps.length
    · rw [List.drop_eq_getElem_cons hlt, inTurn_cons] at hp
      obtain ⟨rfl, hnext⟩ := Prog.call.inj hp
      obtain rfl := eq_of_heq hnext
      have happly := apply_staged hrep hlt hj b
      have hmax : max k (j + 1) ≤ steps.length := Nat.max_le.mpr ⟨hk, hlt⟩
      obtain ⟨a, haction, hb⟩ := tools.run_cases hrun
      obtain rfl := Option.some.inj (steps[j].isFor.symm.trans haction)
      cases hfinished : finished steps[j].command steps[j].action.saysDone steps[j].failure r with
      | ok done =>
          have hb' := tools.run_checked_apply steps[j].isFor (List.Subset.refl _) hrun hfinished
          refine ⟨max k (j + 1), Nat.le_max_left .., hmax, hb'.trans happly,
            Or.inl ⟨j + 1, Nat.le_max_right .., ?_⟩⟩
          simp only [hfinished]
      | error e =>
          have hrest : AtStage steps g (max k (j + 1)) (.ret (g (.error e))) := Or.inr ⟨e, rfl⟩
          simp only [hfinished]
          rcases hb with rfl | rfl
          · exact ⟨k, Nat.le_refl _, hk, rfl, Or.inr ⟨e, rfl⟩⟩
          · exact ⟨max k (j + 1), Nat.le_max_left .., hmax, happly, hrest⟩
    · rw [List.drop_eq_nil_of_le (Nat.le_of_not_lt hlt)] at hp
      cases hp
  · cases hp

/-- **Procedures that can be made again.** However many parties carry the steps out, wherever
they fail or are cut off, the cluster is what others have made of it with the first so many
steps carried out, and no party is ahead of it. -/
theorem parties_staged (hrep : Repeatable Broker.apply (steps.map Step.action)) {b₀ : Broker}
    {c : Config Cluster Unit Command (fun _ => Except String Output) α}
    (h : (parties tools ((inTurn steps).run.map g)).Reach
      (fun _ l => ∀ a, l = .env a → ∀ step ∈ steps, step.action.Apart a) ⟨⟨b₀, []⟩, []⟩ c) :
    ∃ k ≤ steps.length,
      c.world.broker = staged Broker.apply (steps.map Step.action) k (c.world.besides b₀) ∧
      ∀ t ∈ c.tasks, ∀ p, t.rest = some p → AtStage steps g k p := by
  refine h.invariant (P := fun c => ∃ k ≤ steps.length,
    c.world.broker = staged Broker.apply (steps.map Step.action) k (c.world.besides b₀) ∧
    ∀ t ∈ c.tasks, ∀ p, t.rest = some p → AtStage steps g k p)
    ⟨0, Nat.zero_le _, rfl, fun t ht => by cases ht⟩ ?_
  rintro c l c' ⟨k, hk, hbroker, htasks⟩ hok hs
  rcases Machine.step_cases _ hs with ⟨q, rfl, rfl⟩ |
    ⟨i, ch, q, hist, command, next, r, w, rfl, ht, hx, rfl⟩ | ⟨i, q, hist, e, next, rfl, ht, rfl⟩ |
    ⟨a, w, rfl, hx, rfl⟩
  · refine ⟨k, hk, hbroker, fun t ht p hp => ?_⟩
    rcases List.mem_append.mp ht with ht | ht
    · exact htasks t ht p hp
    · obtain rfl := List.mem_singleton.mp ht
      obtain rfl := Option.some.inj hp
      exact Or.inl ⟨0, Nat.zero_le _, rfl⟩
  · obtain ⟨⟨r', b'⟩, hrun, heq⟩ := Option.map_eq_some_iff.mp hx
    obtain ⟨rfl, rfl⟩ := Prod.mk.inj heq
    rw [hbroker] at hrun
    obtain ⟨k', hle, hk', hb', hnext⟩ :=
      (htasks _ (List.mem_of_getElem? ht) _ rfl).step hk hrep hrun
    refine ⟨k', hk', hb', fun t htm p hp => ?_⟩
    rcases List.mem_or_eq_of_mem_set htm with htm | rfl
    · exact (htasks t htm p hp).mono hle
    · obtain rfl := Option.some.inj hp
      exact hnext
  · refine ⟨k, hk, hbroker, fun t htm p hp => ?_⟩
    rcases List.mem_or_eq_of_mem_set htm with htm | rfl
    · exact htasks t htm p hp
    · cases hp
  · obtain rfl := Option.some.inj hx
    refine ⟨k, hk, ?_, htasks⟩
    have hcomm : ∀ x ∈ steps.map Step.action, ∀ b : Broker,
        (b.apply x).apply a = (b.apply a).apply x := by
      intro x hmem b
      obtain ⟨step, hstep, rfl⟩ := List.mem_map.mp hmem
      exact b.apply_comm step.action (hok a rfl step hstep)
    have hbesides : (⟨c.world.broker.apply a, c.world.others ++ [a]⟩ : Cluster).besides b₀ =
        (c.world.besides b₀).apply a := by
      simp [Cluster.besides]
    rw [hbesides, hbroker]
    exact Repeatable.besides hcomm k _

/-- A party that is not disturbed comes to its end. -/
theorem completes {start : Prog Command (fun _ => Except String Output) α}
    {ok : Config Cluster Unit Command (fun _ => Except String Output) α →
      Label Unit C Action → Prop}
    (hok : ∀ c i ch, ok c (.step i ch))
    {c : Config Cluster Unit Command (fun _ => Except String Output) α} {i : Nat}
    {hist : List (Event Command (fun _ => Except String Output))}
    (ht : c.tasks[i]? = some ⟨(), hist, some ((inTurn steps).run.map g)⟩) :
    ∃ c' hist', (parties tools start).Reach ok c c' ∧ c'.world.others = c.world.others ∧
      c'.tasks = c.tasks.set i ⟨(), hist', some (.ret (g (.ok ())))⟩ := by
  induction steps generalizing c hist with
  | nil =>
      refine ⟨c, hist, .refl, rfl, ?_⟩
      obtain ⟨hlt, hget⟩ := List.getElem?_eq_some_iff.mp ht
      have hself : c.tasks.set i c.tasks[i] = c.tasks := List.set_getElem_self hlt
      rw [hget] at hself
      exact hself.symm
  | cons step steps ih =>
      rw [inTurn_cons] at ht
      -- the script comes through
      obtain ⟨ch, r, hrun, hfinished⟩ :=
        tools.exists_finished c.world.broker step.failure step.isFor
      have hx : (parties tools start).exec ch step.command c.world =
          some (r, { c.world with broker := c.world.broker.apply step.action }) := by
        simp [parties, hrun]
      have hstep := (parties tools start).step_step ht hx
      obtain ⟨hlt, -⟩ := List.getElem?_eq_some_iff.mp ht
      simp only [hfinished] at hstep
      have hnext : (c.tasks.set i ⟨(), hist ++ [⟨step.command, r⟩],
          some ((inTurn steps).run.map g)⟩)[i]? = some ⟨(), _, some ((inTurn steps).run.map g)⟩ :=
        List.getElem?_set_self hlt
      obtain ⟨c', hist', hreach, hothers, htasks⟩ := ih
        (c := ⟨{ c.world with broker := c.world.broker.apply step.action }, _⟩) hnext
      refine ⟨c', hist', .trans (.tail .refl (hok _ _ _) hstep) hreach, hothers, ?_⟩
      rw [htasks, List.set_set]

/-- One more party, not disturbed, carries the whole procedure out. -/
theorem one_more
    {ok : Config Cluster Unit Command (fun _ => Except String Output) α →
      Label Unit C Action → Prop}
    (harrive : ∀ c, ok c (.arrive ())) (hstep : ∀ c i ch, ok c (.step i ch))
    (c : Config Cluster Unit Command (fun _ => Except String Output) α) :
    ∃ c' t, (parties tools ((inTurn steps).run.map g)).Reach ok c c' ∧ c'.tasks = c.tasks ++ [t] ∧
      c'.world.others = c.world.others ∧ t.answer? = some (g (.ok ())) := by
  let fresh := (parties tools ((inTurn steps).run.map g)).newTask ()
  have hnew : (c.tasks ++ [fresh])[c.tasks.length]? = some fresh := by simp
  obtain ⟨c', hist', hreach, hothers, htasks⟩ :=
    completes (c := ⟨c.world, c.tasks ++ [fresh]⟩) hstep hnew
  refine ⟨c', ⟨(), hist', some (.ret (g (.ok ())))⟩, ?_, ?_, hothers, rfl⟩
  · exact .trans (.tail .refl (harrive _) (Machine.step_arrive _ c ())) hreach
  · rw [htasks]
    simp

end

/-! ### The seeds -/

/-- What is seeded. -/
def seeds (config : KafkaConfig) (producerUser producerPassword : String) : List Action :=
  let admin := AppKafkaAdmin.new config.admin
  [.createTopic config.nuremberg.topicName ⟨admin.partitions, admin.replicationFactor⟩,
   .alterUser producerUser producerPassword,
   .allow ("User:" ++ producerUser) [.write, .describe] (.topic config.nuremberg.topicName)]

/-- The three scripts. -/
def seedingSteps (tools : KafkaTools C) (admin : AppKafkaAdmin) (topicName producerUser : String)
    {producerPassword : String} (hplain : isPlain producerPassword = true) : List (Step tools) :=
  [{ command := admin.createTopicCommand topicName
     failure := "Failed to create topic: "
     action := .createTopic topicName ⟨admin.partitions, admin.replicationFactor⟩
     isFor := tools.createTopic admin topicName },
   { command := admin.createScramUserCommand producerUser producerPassword
     failure := "Failed to create user: "
     action := .alterUser producerUser producerPassword
     isFor := tools.createScramUser admin producerUser hplain },
   { command := admin.topicWriteCommand topicName producerUser
     failure := "Failed to grant producer ACLs: "
     action := .allow ("User:" ++ producerUser) [.write, .describe] (.topic topicName)
     isFor := tools.topicWrite admin topicName producerUser }]

theorem seedNuremberg_inTurn (tools : KafkaTools C) (admin : AppKafkaAdmin)
    (topicName producerUser : String) {producerPassword : String}
    (hplain : isPlain producerPassword = true) :
    seedNuremberg admin topicName producerUser producerPassword =
      inTurn (seedingSteps tools admin topicName producerUser hplain) := by
  simp only [seedingSteps]
  change _ = (invoke _ _ _ >>= fun _ => invoke _ _ _ >>= fun _ => inTurn [_])
  rw [inTurn_singleton]
  rfl

theorem seeds_repeatable (config : KafkaConfig) (producerUser producerPassword : String) :
    Repeatable Broker.apply (seeds config producerUser producerPassword) where
  idem a _ b := Broker.apply_of_has (b.has_apply a)
  comm a ha a' ha' b := by
    simp only [seeds, List.mem_cons, List.not_mem_nil, or_false] at ha ha'
    rcases ha with rfl | rfl | rfl <;> rcases ha' with rfl | rfl | rfl <;> rfl

theorem seedNuremberg_start (tools : KafkaTools C) {config : KafkaConfig}
    {producerUser producerPassword : String}
    (huser : config.nuremberg.saslUsername = some producerUser)
    (hpassword : config.nuremberg.saslPassword = some producerPassword)
    (hplain : isPlain producerPassword = true) :
    seedNurembergKafkaInfrastructure config =
      (inTurn (seedingSteps tools (AppKafkaAdmin.new config.admin) config.nuremberg.topicName
        producerUser hplain)).run.map seedingResult := by
  simp only [seedNurembergKafkaInfrastructure, huser, hpassword,
    seedNuremberg_inTurn tools _ _ _ hplain]

/-- The instances of the service that start, any number of them and any number of times. -/
def Starts (tools : KafkaTools C) (config : KafkaConfig) (producerUser producerPassword : String) :
    (c₀ c : Config Cluster Unit Command (fun _ => Except String Output) (Except BootFailure Unit)) →
      Prop :=
  (parties tools (seedNurembergKafkaInfrastructure config)).Reach (fun _ l => ∀ a, l = .env a →
    ∀ seed ∈ seeds config producerUser producerPassword, seed.Apart a)

theorem starts_staged {config : KafkaConfig} {producerUser producerPassword : String}
    {b₀ : Broker}
    {c : Config Cluster Unit Command (fun _ => Except String Output) (Except BootFailure Unit)}
    (huser : config.nuremberg.saslUsername = some producerUser)
    (hpassword : config.nuremberg.saslPassword = some producerPassword)
    (hplain : isPlain producerPassword = true)
    (h : Starts tools config producerUser producerPassword ⟨⟨b₀, []⟩, []⟩ c) :
    ∃ k ≤ 3, c.world.broker = staged Broker.apply (seeds config producerUser producerPassword) k
        (c.world.besides b₀) ∧ ∀ t ∈ c.tasks, ∀ p, t.rest = some p →
      AtStage (seedingSteps tools (AppKafkaAdmin.new config.admin) config.nuremberg.topicName
        producerUser hplain) seedingResult k p := by
  have hrep : Repeatable Broker.apply ((seedingSteps tools (AppKafkaAdmin.new config.admin)
      config.nuremberg.topicName producerUser hplain).map Step.action) :=
    seeds_repeatable config producerUser producerPassword
  unfold Starts at h
  rw [seedNuremberg_start tools huser hpassword hplain] at h
  refine parties_staged hrep (h.mono ?_)
  intro c l hok a hl step hstep
  exact hok a hl step.action (List.mem_map_of_mem hstep)

/-- `[kafka]` of `config/default.toml`, with a shorter directory. -/
def defaultKafka : KafkaConfig where
  admin := ⟨"localhost:9092", "/opt/kafka/bin/", 1, 1⟩
  nuremberg :=
    { saslUsername := some "nuremberg_producer_user"
      saslPassword := some "nuremberg_producer_password"
      topicName := "nuremberg.events" }

def emptyBroker : Broker := ⟨fun _ => none, fun _ => none, fun _ => false⟩

/-- The topic is created, and the first start is cut off; the second finds the topic, and its
second script takes effect without saying so. A provider's topic is created in between. -/
def startedTwice : List (Label Unit ScriptChoice Action) :=
  [.arrive (), .step 0 ⟨.ok ⟨true, ""⟩, true⟩, .drop 0, .arrive (),
   .step 1 ⟨.ok ⟨false, "org.apache.kafka.common.errors.TopicExistsException"⟩, false⟩,
   .env (.createTopic "provider.events.0" ⟨"1", "1"⟩),
   .step 1 ⟨.ok ⟨false, "TimeoutException"⟩, true⟩]

end Wurzburg.Admin
