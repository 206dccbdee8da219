import Wurzburg.Kafka.Admin
import Mathlib.Logic.Function.Basic

/-!
# Wurzburg.Kafka.Broker

A Kafka cluster, and what the administration scripts do to it. The scripts are no part
of this repository, so they are a parameter (`KafkaTools`) with what their documentation
says of them: which action a command is for, and that a run of it carries the action out
or fails, possibly after it took effect. Nothing is assumed of a failure but that its error
output is truthful where it says that a topic or a user exists or does not.

`KafkaTools.run_checked` is what is known once a method of `AppKafkaAdmin` took the output
of its command for success, and `AppKafkaAdmin.IsFor.effective` what a whole method has done
that returned `Ok`. `KafkaTools.reference` is one set of tools, which reads the options of a
command.
-/

namespace Wurzburg.Admin

open Wurzburg.Lib

/-! ### The cluster -/

/-- What a principal may be allowed to do. -/
inductive Operation where
  | read
  | write
  | describe
  deriving DecidableEq, Repr

/-- What it may be allowed to do it with. A group named `*` stands for all groups. -/
inductive Resource where
  | topic (name : String)
  | group (name : String)
  deriving DecidableEq, Repr

/-- An entry that allows something. -/
structure Acl where
  principal : String
  operation : Operation
  resource : Resource
  deriving DecidableEq, Repr

/-- What a topic was created with. -/
structure TopicSettings where
  partitions : String
  replicationFactor : String
  deriving DecidableEq, Repr

/-- What the cluster has under administration: its topics, the `SCRAM-SHA-512` password of
each user, and the entries that allow something. -/
@[ext] structure Broker where
  topics : String → Option TopicSettings
  users : String → Option String
  acls : Acl → Bool

/-- What a command can be for. -/
inductive Action where
  | createTopic (topic : String) (settings : TopicSettings)
  | deleteTopic (topic : String)
  | alterUser (name password : String)
  | deleteUser (name : String)
  | allow (principal : String) (operations : List Operation) (resource : Resource)
  deriving DecidableEq, Repr

namespace Broker

/-- An action that is carried out. An existing topic stays as it is. -/
def apply (b : Broker) : Action → Broker
  | .createTopic topic settings =>
      { b with topics := Function.update b.topics topic ((b.topics topic).getD settings) }
  | .deleteTopic topic => { b with topics := Function.update b.topics topic none }
  | .alterUser name password => { b with users := Function.update b.users name password }
  | .deleteUser name => { b with users := Function.update b.users name none }
  | .allow principal operations resource =>
      { b with acls := fun a => b.acls a ||
          (a.principal == principal && operations.contains a.operation && a.resource == resource) }

/-- What the action is there to bring about. -/
def Has (b : Broker) : Action → Prop
  | .createTopic topic _ => (b.topics topic).isSome
  | .deleteTopic topic => b.topics topic = none
  | .alterUser name password => b.users name = some password
  | .deleteUser name => b.users name = none
  | .allow principal operations resource =>
      ∀ operation ∈ operations, b.acls ⟨principal, operation, resource⟩ = true

theorem has_apply (b : Broker) (a : Action) : (b.apply a).Has a := by
  cases a with
  | allow principal operations resource =>
      intro operation hmem
      simp [apply, hmem]
  | _ => simp [apply, Has]

/-- An action whose effect is there already changes nothing. -/
theorem apply_of_has {b : Broker} {a : Action} (h : b.Has a) : b.apply a = b := by
  cases a with
  | createTopic topic settings =>
      obtain ⟨old, hold⟩ := Option.isSome_iff_exists.mp h
      have hsame : Function.update b.topics topic (some old) = b.topics := by
        rw [← hold, Function.update_eq_self]
      simp [apply, hold, hsame]
  | deleteTopic topic =>
      have hsame : Function.update b.topics topic none = b.topics := by
        rw [← (h : b.topics topic = none), Function.update_eq_self]
      simp [apply, hsame]
  | alterUser name password =>
      have hsame : Function.update b.users name (some password) = b.users := by
        rw [← (h : b.users name = some password), Function.update_eq_self]
      simp [apply, hsame]
  | deleteUser name =>
      have hsame : Function.update b.users name none = b.users := by
        rw [← (h : b.users name = none), Function.update_eq_self]
      simp [apply, hsame]
  | allow principal operations resource =>
      ext a <;> try rfl
      rw [Bool.eq_iff_iff]
      simp only [apply, Bool.or_eq_true, or_iff_left_iff_imp]
      intro hnew
      obtain ⟨⟨hp, ho⟩, hr⟩ : (a.principal = principal ∧ a.operation ∈ operations) ∧
          a.resource = resource := by simpa using hnew
      subst hp hr
      exact h a.operation ho

/-- Nothing that was allowed is taken back. -/
theorem apply_acls {b : Broker} {acl : Acl} (h : b.acls acl = true) (a : Action) :
    (b.apply a).acls acl = true := by
  cases a <;> simp [apply, h]

end Broker

/-! ### The tools -/

/-- The texts by which a failing script says that its effect is there already. -/
def Action.saysDone : Action → List String
  | .createTopic .. => ["TopicExistsException"]
  | .deleteTopic _ => ["UnknownTopicOrPartitionException"]
  | .deleteUser _ => ["InvalidConfigurationException", "does not exist"]
  | _ => []

/-- An output by which the effect is there. -/
def Action.Done (a : Action) (out : Output) : Prop :=
  out.success = true ∨ ∃ text ∈ a.saysDone, containsText out.stderr text = true

/-- The characters with a meaning in configuration values do not occur. -/
def isPlain (text : String) : Bool := text.toList.all (fun c => !(['[', ']', ','].contains c))

private theorem hexDigit_isPlain :
    ∀ a : Fin 16, (!(['[', ']', ','].contains (Uuid.hexDigit a))) = true := by decide

/-- The password of a provider can stand in a configuration as it is. -/
theorem isPlain_simple (u : Uuid) : isPlain u.simple = true := by
  unfold isPlain Uuid.simple
  rw [String.toList_ofList, List.all_eq_true]
  intro c hc
  obtain ⟨a, rfl⟩ := Uuid.mem_hexDigits hc
  exact hexDigit_isPlain a

/-- The scripts of a Kafka installation, as they are documented. `C` is what the environment
chooses when a command is run. -/
structure KafkaTools (C : Type) where
  /-- A run of a command on the cluster: what comes out, and the cluster that is left. -/
  run : Broker → Command → C → Option (Except String Output × Broker)
  /-- What a command is for. -/
  action : Command → Option Action
  -- `kafka-topics.sh`
  createTopic : ∀ (admin : AppKafkaAdmin) topic, action (admin.createTopicCommand topic) =
    some (.createTopic topic ⟨admin.partitions, admin.replicationFactor⟩)
  deleteTopic : ∀ (admin : AppKafkaAdmin) topic, action (admin.deleteTopicCommand topic) =
    some (.deleteTopic topic)
  -- `kafka-configs.sh`
  createScramUser : ∀ (admin : AppKafkaAdmin) name {password}, isPlain password = true →
    action (admin.createScramUserCommand name password) = some (.alterUser name password)
  deleteScramUser : ∀ (admin : AppKafkaAdmin) name, action (admin.deleteScramUserCommand name) =
    some (.deleteUser name)
  -- `kafka-acls.sh`
  topicRead : ∀ (admin : AppKafkaAdmin) topic name, action (admin.topicReadCommand topic name) =
    some (.allow ("User:" ++ name) [.read, .describe] (.topic topic))
  groupRead : ∀ (admin : AppKafkaAdmin) name, action (admin.groupReadCommand name) =
    some (.allow ("User:" ++ name) [.read] (.group "*"))
  topicWrite : ∀ (admin : AppKafkaAdmin) topic name, action (admin.topicWriteCommand topic name) =
    some (.allow ("User:" ++ name) [.write, .describe] (.topic topic))
  /-- A run carries the action out, or it changes nothing. -/
  run_cases : ∀ {b command c r b'}, run b command c = some (r, b') →
    ∃ a, action command = some a ∧ (b' = b ∨ b' = b.apply a)
  /-- The effect is there after a run that succeeds, or whose error output says so. -/
  run_done : ∀ {b command c out b' a}, run b command c = some (.ok out, b') →
    action command = some a → a.Done out → b'.Has a
  /-- A run can come through. -/
  can_run : ∀ b {command a}, action command = some a →
    ∃ c out, run b command c = some (.ok out, b.apply a) ∧ a.Done out

namespace KafkaTools

variable {C : Type} (tools : KafkaTools C) {b b' : Broker} {command : Command} {c : C} {a : Action}
  {r : Except String Output} {failure : String}

/-- A command is taken for successful when its effect is there. -/
theorem checked_of_done {out : Output} (h : a.Done out) :
    checked a.saysDone failure out = .ok () := by
  have hok : (out.success || a.saysDone.any (containsText out.stderr)) = true := by
    rcases h with h | ⟨text, hmem, htext⟩
    · rw [h, Bool.true_or]
    · rw [List.any_eq_true.mpr ⟨text, hmem, htext⟩, Bool.or_true]
  rw [checked, if_pos hok]

/-- A command whose output is taken for success has brought about what it is for. -/
theorem run_checked (haction : tools.action command = some a) {ignored : List String}
    (hignored : ignored ⊆ a.saysDone) (h : tools.run b command c = some (r, b'))
    (hfinished : finished command ignored failure r = .ok ()) : b'.Has a := by
  cases r with
  | error message => cases hfinished
  | ok out =>
      refine tools.run_done h haction ?_
      simp only [finished, checked] at hfinished
      split at hfinished
      · next hok =>
          rcases Bool.or_eq_true_iff.mp hok with hsuccess | hany
          · exact Or.inl hsuccess
          · obtain ⟨text, hmem, htext⟩ := List.any_eq_true.mp hany
            exact Or.inr ⟨text, hignored hmem, htext⟩
      · cases hfinished

/-- Then it is as if it had been carried out. -/
theorem run_checked_apply (haction : tools.action command = some a) {ignored : List String}
    (hignored : ignored ⊆ a.saysDone) (h : tools.run b command c = some (r, b'))
    (hfinished : finished command ignored failure r = .ok ()) : b' = b.apply a := by
  have hhas := tools.run_checked haction hignored h hfinished
  obtain ⟨a', haction', rfl | rfl⟩ := tools.run_cases h
  · exact (Broker.apply_of_has hhas).symm
  · rw [Option.some.inj (haction.symm.trans haction')]

/-! ### Methods -/

/-- A program whose commands are run one after the other. -/
inductive Runs {α : Type} : Broker → Prog Command (fun _ => Except String Output) α → α →
    Broker → Prop
  | ret {b : Broker} {x : α} : Runs b (.ret x) x b
  | call {b b' b'' : Broker} {command : Command} {c : C} {r : Except String Output} {x : α}
      {next : Except String Output → Prog Command (fun _ => Except String Output) α} :
      tools.run b command c = some (r, b') → Runs b' (next r) x b'' →
        Runs b (.call command next) x b''

variable {tools}

theorem Runs.of_ret {α : Type} {x y : α} (h : tools.Runs b (.ret x) y b') : x = y ∧ b' = b := by
  cases h
  exact ⟨rfl, rfl⟩

/-- A command that is run and found successful, and what is run after it. -/
theorem Runs.of_invoke {ignored : List String} {next : Unit → Scripts Unit}
    (haction : tools.action command = some a) (hignored : ignored ⊆ a.saysDone)
    (h : tools.Runs b (invoke command ignored failure >>= next).run (.ok ()) b') :
    tools.Runs (b.apply a) (next ()).run (.ok ()) b' := by
  rw [invoke_bind_run] at h
  cases h with
  | @call _ b₁ _ _ c r _ _ hrun hnext =>
      cases hfinished : finished command ignored failure r with
      | ok done =>
          rw [← tools.run_checked_apply haction hignored hrun hfinished]
          simpa only [hfinished] using hnext
      | error e =>
          simp only [hfinished] at hnext
          cases hnext.of_ret.1

/-- The last command. -/
theorem Runs.of_last {ignored : List String} (haction : tools.action command = some a)
    (hignored : ignored ⊆ a.saysDone)
    (h : tools.Runs b (invoke command ignored failure).run (.ok ()) b') : b' = b.apply a := by
  rw [invoke_run] at h
  cases h with
  | call hrun hnext =>
      obtain ⟨hfinished, rfl⟩ := hnext.of_ret
      exact tools.run_checked_apply haction hignored hrun hfinished

/-- A command can be run with success, and its action is carried out then. -/
theorem exists_finished (tools : KafkaTools C) (b : Broker) (failure : String)
    (haction : tools.action command = some a) :
    ∃ c r, tools.run b command c = some (r, b.apply a) ∧
      finished command a.saysDone failure r = .ok () := by
  obtain ⟨c, out, hrun, hdone⟩ := tools.can_run b haction
  exact ⟨c, .ok out, hrun, checked_of_done hdone⟩

theorem exists_runs_last (tools : KafkaTools C) (b : Broker) (failure : String)
    (haction : tools.action command = some a) :
    tools.Runs b (invoke command a.saysDone failure).run (.ok ()) (b.apply a) := by
  obtain ⟨c, r, hrun, hfinished⟩ := tools.exists_finished b failure haction
  rw [invoke_run]
  refine .call hrun ?_
  rw [hfinished]
  exact .ret

theorem exists_runs_invoke (tools : KafkaTools C) (b : Broker) (failure : String)
    {next : Unit → Scripts Unit} (haction : tools.action command = some a)
    (h : tools.Runs (b.apply a) (next ()).run (.ok ()) b') :
    tools.Runs b (invoke command a.saysDone failure >>= next).run (.ok ()) b' := by
  obtain ⟨c, r, hrun, hfinished⟩ := tools.exists_finished b failure haction
  rw [invoke_bind_run]
  refine .call hrun ?_
  rw [hfinished]
  exact h

end KafkaTools

/-- The methods of the administrator, each with what it is there to bring about. -/
inductive AppKafkaAdmin.IsFor (admin : AppKafkaAdmin) : Scripts Unit → List Action → Prop
  | createProviderTopic (topic : String) : IsFor admin (admin.createProviderTopic topic)
      [.createTopic topic ⟨admin.partitions, admin.replicationFactor⟩]
  | deleteProviderTopic (topic : String) :
      IsFor admin (admin.deleteProviderTopic topic) [.deleteTopic topic]
  | createScramUser (name : String) {password : String} : isPlain password = true →
      IsFor admin (admin.createScramUser name password) [.alterUser name password]
  | deleteScramUser (name : String) : IsFor admin (admin.deleteScramUser name) [.deleteUser name]
  | grantConsumerAcls (topic name : String) : IsFor admin (admin.grantConsumerAcls topic name)
      [.allow ("User:" ++ name) [.read, .describe] (.topic topic),
       .allow ("User:" ++ name) [.read] (.group "*")]
  | createTopic (topic : String) : IsFor admin (admin.createTopic topic)
      [.createTopic topic ⟨admin.partitions, admin.replicationFactor⟩]
  | grantProducerAcls (topic name : String) : IsFor admin (admin.grantProducerAcls topic name)
      [.allow ("User:" ++ name) [.write, .describe] (.topic topic)]

/-! ### Tools that read the options -/

/-- The options that take no value. -/
def flags : List String := ["--create", "--delete", "--alter", "--add"]

/-- The options of a command, with their values. -/
def options : List String → List (String × String)
  | [] => []
  | [name] => [(name, "")]
  | name :: value :: rest =>
      if flags.contains name then (name, "") :: options (value :: rest)
      else (name, value) :: options rest

/-- The values given for an option. -/
def values (opts : List (String × String)) (name : String) : List String :=
  (opts.filter (fun o => o.1 == name)).map (·.2)

/-- The last part of a path. -/
def fileName (path : String) : String :=
  String.ofList ((path.toList.reverse.takeWhile (· != '/')).reverse)

/-- The password in a `SCRAM` configuration, when it can stand there as it is. -/
def scramPassword (config : String) : Option String :=
  let opening := "SCRAM-SHA-512=[password=".toList
  let inner := (config.toList.drop opening.length).dropLast
  if config.toList = opening ++ inner ++ [']'] ∧ isPlain (String.ofList inner) then
    some (String.ofList inner)
  else none

def Operation.parse : String → Option Operation
  | "Read" => some .read
  | "Write" => some .write
  | "Describe" => some .describe
  | _ => none

/-- What a command is for, when it is one of these. -/
def Action.parse (command : Command) : Option Action :=
  let opts := options command.args
  let has := fun flag => opts.contains (flag, "")
  match fileName command.program with
  | "kafka-topics.sh" =>
      match values opts "--topic", values opts "--partitions",
          values opts "--replication-factor" with
      | [topic], [partitions], [factor] =>
          if has "--create" then some (.createTopic topic ⟨partitions, factor⟩) else none
      | [topic], [], [] => if has "--delete" then some (.deleteTopic topic) else none
      | _, _, _ => none
  | "kafka-configs.sh" =>
      if has "--alter" && values opts "--entity-type" == ["users"] then
        match values opts "--entity-name", values opts "--add-config",
            values opts "--delete-config" with
        | [name], [config], [] => (scramPassword config).map (.alterUser name)
        | [name], [], ["SCRAM-SHA-512"] => some (.deleteUser name)
        | _, _, _ => none
      else none
  | "kafka-acls.sh" =>
      if has "--add" then
        match values opts "--allow-principal", (values opts "--operation").mapM Operation.parse,
            values opts "--topic", values opts "--group" with
        | [principal], some operations, [topic], [] =>
            some (.allow principal operations (.topic topic))
        | [principal], some operations, [], [group] =>
            some (.allow principal operations (.group group))
        | _, _, _, _ => none
      else none
  | _ => none

theorem fileName_join (dir : String) {name : String} (hname : '/' ∉ name.toList) :
    fileName (join dir name) = name := by
  -- what stands before the name ends in a slash
  have hlast : ∀ pre : String, (pre.toList.getLast? = none ∨ pre.toList.getLast? = some '/') →
      fileName (pre ++ name) = name := by
    intro pre hpre
    have hplain : ∀ c ∈ name.toList.reverse, (c != '/') = true := by
      intro c hc
      rw [List.mem_reverse] at hc
      simp only [bne_iff_ne, ne_eq]
      rintro rfl
      exact hname hc
    have hstop : pre.toList.reverse.takeWhile (· != '/') = [] := by
      rw [← List.head?_reverse] at hpre
      cases hrev : pre.toList.reverse with
      | nil => rfl
      | cons c cs =>
          rw [hrev] at hpre
          obtain rfl : c = '/' := by simpa using hpre
          rfl
    rw [fileName, String.toList_append, List.reverse_append,
      List.takeWhile_append_of_pos hplain, hstop, List.append_nil, List.reverse_reverse,
      String.ofList_toList]
  unfold join
  split
  · next h => exact hlast dir h
  · exact hlast (dir ++ "/") (Or.inr (by simp))

theorem scramPassword_of_plain {password : String} (h : isPlain password = true) :
    scramPassword ("SCRAM-SHA-512=[password=" ++ password ++ "]") = some password := by
  have htext : ("SCRAM-SHA-512=[password=" ++ password ++ "]").toList =
      "SCRAM-SHA-512=[password=".toList ++ (password.toList ++ [']']) := by
    simp only [String.toList_append, List.append_assoc]
    rfl
  simp only [scramPassword, htext, List.drop_left, List.dropLast_concat, String.ofList_toList, h,
    List.append_assoc, and_self, if_true]

section

variable (admin : AppKafkaAdmin)

@[simp] theorem parse_createTopicCommand (topic : String) :
    Action.parse (admin.createTopicCommand topic) =
      some (.createTopic topic ⟨admin.partitions, admin.replicationFactor⟩) := by
  simp [Action.parse, AppKafkaAdmin.createTopicCommand, AppKafkaAdmin.script, fileName_join,
    options, values, flags]

@[simp] theorem parse_deleteTopicCommand (topic : String) :
    Action.parse (admin.deleteTopicCommand topic) = some (.deleteTopic topic) := by
  simp [Action.parse, AppKafkaAdmin.deleteTopicCommand, AppKafkaAdmin.script, fileName_join,
    options, values, flags]

theorem parse_createScramUserCommand (name : String) {password : String}
    (h : isPlain password = true) :
    Action.parse (admin.createScramUserCommand name password) =
      some (.alterUser name password) := by
  simp [Action.parse, AppKafkaAdmin.createScramUserCommand, AppKafkaAdmin.script, fileName_join,
    options, values, flags, scramPassword_of_plain h]

@[simp] theorem parse_deleteScramUserCommand (name : String) :
    Action.parse (admin.deleteScramUserCommand name) = some (.deleteUser name) := by
  simp [Action.parse, AppKafkaAdmin.deleteScramUserCommand, AppKafkaAdmin.script, fileName_join,
    options, values, flags]

@[simp] theorem parse_topicReadCommand (topic name : String) :
    Action.parse (admin.topicReadCommand topic name) =
      some (.allow ("User:" ++ name) [.read, .describe] (.topic topic)) := by
  simp [Action.parse, AppKafkaAdmin.topicReadCommand, AppKafkaAdmin.script, fileName_join,
    options, values, flags, Operation.parse]

@[simp] theorem parse_groupReadCommand (name : String) :
    Action.parse (admin.groupReadCommand name) =
      some (.allow ("User:" ++ name) [.read] (.group "*")) := by
  simp [Action.parse, AppKafkaAdmin.groupReadCommand, AppKafkaAdmin.script, fileName_join,
    options, values, flags, Operation.parse]

@[simp] theorem parse_topicWriteCommand (topic name : String) :
    Action.parse (admin.topicWriteCommand topic name) =
      some (.allow ("User:" ++ name) [.write, .describe] (.topic topic)) := by
  simp [Action.parse, AppKafkaAdmin.topicWriteCommand, AppKafkaAdmin.script, fileName_join,
    options, values, flags, Operation.parse]

end

instance (b : Broker) (a : Action) : Decidable (b.Has a) := by
  cases a <;> unfold Broker.Has <;> infer_instance

/-- How a run ends: whether the action was carried out, and what comes out. -/
structure ScriptChoice where
  result : Except String Output
  applied : Bool

namespace Broker

/-- The cluster after a script that carried its action out or did not. -/
def after (b : Broker) (a : Action) (applied : Bool) : Broker := if applied then b.apply a else b

/-- A run of a command. One that cannot be started does nothing, one that succeeds has done
what it is for, and one that fails may have done so. -/
def run (b : Broker) (command : Command) (ch : ScriptChoice) :
    Option (Except String Output × Broker) :=
  match Action.parse command with
  | none => none
  | some a =>
      match ch.result with
      | .error message => if ch.applied then none else some (.error message, b)
      | .ok out =>
          if (out.success = true → ch.applied = true) ∧
              (a.saysDone.any (containsText out.stderr) = true → (b.after a ch.applied).Has a) then
            some (.ok out, b.after a ch.applied)
          else none

theorem run_ok {b b' : Broker} {command : Command} {ch : ScriptChoice} {a : Action} {out : Output}
    (hparse : Action.parse command = some a) (h : b.run command ch = some (.ok out, b')) :
    b' = b.after a ch.applied ∧ (out.success = true → ch.applied = true) ∧
      (a.saysDone.any (containsText out.stderr) = true → b'.Has a) := by
  simp only [run, hparse] at h
  split at h
  · split at h
    · cases h
    · cases (Prod.mk.inj (Option.some.inj h)).1
  · split at h
    · next hguard =>
        obtain ⟨hout, rfl⟩ := Prod.mk.inj (Option.some.inj h)
        obtain rfl := Except.ok.inj hout
        exact ⟨rfl, hguard⟩
    · cases h

end Broker

/-- The tools that do what their options say. -/
def KafkaTools.reference : KafkaTools ScriptChoice where
  run := Broker.run
  action := Action.parse
  createTopic := parse_createTopicCommand
  deleteTopic := parse_deleteTopicCommand
  createScramUser admin name _ h := parse_createScramUserCommand admin name h
  deleteScramUser := parse_deleteScramUserCommand
  topicRead := parse_topicReadCommand
  groupRead := parse_groupReadCommand
  topicWrite := parse_topicWriteCommand
  run_cases {b command ch r b'} h := by
    simp only [Broker.run] at h
    split at h
    · cases h
    · next a hparse =>
        refine ⟨a, hparse, ?_⟩
        split at h
        · split at h
          · cases h
          · exact Or.inl (Prod.mk.inj (Option.some.inj h)).2.symm
        · split at h
          · obtain ⟨-, rfl⟩ := Prod.mk.inj (Option.some.inj h)
            cases ch.applied
            · exact Or.inl rfl
            · exact Or.inr rfl
          · cases h
  run_done {b command ch out b' a} h hparse hdone := by
    obtain ⟨hb, hsuccess, htruthful⟩ := Broker.run_ok hparse h
    rcases hdone with hok | ⟨text, hmem, htext⟩
    · rw [hb, hsuccess hok]
      exact b.has_apply a
    · exact htruthful (List.any_eq_true.mpr ⟨text, hmem, htext⟩)
  can_run b {command a} hparse := by
    have hhas := b.has_apply a
    refine ⟨⟨.ok ⟨true, ""⟩, true⟩, ⟨true, ""⟩, ?_, Or.inl rfl⟩
    simp [Broker.run, hparse, Broker.after, hhas]

/-- A provider's topic that is there already. -/
def topicThere : Broker where
  topics t := if t = "provider.events.0" then some ⟨"3", "2"⟩ else none
  users _ := none
  acls _ := false

end Wurzburg.Admin
