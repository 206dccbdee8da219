import Wurzburg.Base
import Wurzburg.Lib.Prog

/-!
# Wurzburg.Kafka.Admin

`AppKafkaAdmin`: the Kafka cluster is administered through the shell scripts of a
Kafka installation, run one after the other.

Each method is a program whose effects are the commands it runs. A command that
cannot be started at all is an error of the operating system; one that fails may be
taken for success, when its error output says that there was nothing to do.
-/

namespace Wurzburg.Admin

open Wurzburg.Lib

/-! ### Commands -/

/-- `std::process::Command` -/
structure Command where
  program : String
  args : List String
  deriving DecidableEq, Repr

/-- `std::process::Output`, with the error output as `from_utf8_lossy` reads it. -/
structure Output where
  success : Bool
  stderr : String
  deriving DecidableEq, Repr

/-- An `anyhow::Error`: the text of the first error and the contexts put around it,
outermost first. -/
structure AdminError where
  contexts : List String
  source : String
  deriving DecidableEq, Repr

/-- `to_string()` shows the outermost context only. -/
def AdminError.toString (e : AdminError) : String := e.contexts.headD e.source

/-- `.context(…)` -/
def AdminError.context (text : String) (e : AdminError) : AdminError :=
  { e with contexts := text :: e.contexts }

/-- A computation that runs commands. -/
abbrev Scripts (α : Type) := ExceptT AdminError (Prog Command (fun _ => Except String Output)) α

/-- `PathBuf::join` with a file name. -/
def join (dir name : String) : String :=
  if dir.toList.getLast? = none ∨ dir.toList.getLast? = some '/' then dir ++ name
  else dir ++ "/" ++ name

/-- `Path` under `{:?}`, for a path without characters that are escaped. -/
def debugPath (path : String) : String := "\"" ++ path ++ "\""

/-- `Command::new(…).args(…).output().with_context(…)?` -/
def output (command : Command) : Scripts Output :=
  ExceptT.mk ((Prog.perform command).bind (fun r => .ret (r.mapError
    (AdminError.mk ["Failed to execute " ++ debugPath command.program]))))

/-- What a method makes of the output of its command: errors whose text is to be ignored are
none. -/
def checked (ignored : List String) (failure : String) (out : Output) : Except AdminError Unit :=
  if out.success || ignored.any (containsText out.stderr) then .ok ()
  else .error ⟨[], failure ++ out.stderr⟩

/-- Run a command and check its output. -/
def invoke (command : Command) (ignored : List String) (failure : String) : Scripts Unit := do
  let out ← output command
  ExceptT.mk (.ret (checked ignored failure out))

/-- What becomes of a command: it could not be started, or its output is checked. -/
def finished (command : Command) (ignored : List String) (failure : String) :
    Except String Output → Except AdminError Unit
  | .error message => .error ⟨["Failed to execute " ++ debugPath command.program], message⟩
  | .ok out => checked ignored failure out

theorem invoke_run (command : Command) (ignored : List String) (failure : String) :
    (invoke command ignored failure).run =
      .call command (fun r => .ret (finished command ignored failure r)) := by
  change Prog.call command _ = Prog.call command _
  congr 1
  funext r
  cases r <;> rfl

/-- A second command is run only after the first succeeded. -/
theorem invoke_bind_run (command : Command) (ignored : List String) (failure : String)
    (next : Unit → Scripts Unit) :
    (invoke command ignored failure >>= next).run =
      .call command (fun r => match finished command ignored failure r with
        | .ok done => (next done).run
        | .error e => .ret (.error e)) := by
  change (invoke command ignored failure).run.bind (ExceptT.bindCont next) = _
  rw [invoke_run]
  change Prog.call command _ = Prog.call command _
  congr 1
  funext r
  change ExceptT.bindCont next (finished command ignored failure r) = _
  cases finished command ignored failure r <;> rfl

/-! ### The administrator -/

/-- `[kafka.admin]` -/
structure KafkaAdminConfig where
  bootstrapServers : String
  kafkaBinDir : String
  partitions : Nat
  replicationFactor : Nat
  deriving DecidableEq, Repr

/-- `AppKafkaAdmin` -/
structure AppKafkaAdmin where
  bootstrapServers : String
  kafkaBinDir : String
  partitions : String
  replicationFactor : String
  deriving DecidableEq, Repr

namespace AppKafkaAdmin

/-- `AppKafkaAdmin::new` -/
def new (config : KafkaAdminConfig) : AppKafkaAdmin where
  bootstrapServers := config.bootstrapServers
  kafkaBinDir := config.kafkaBinDir
  partitions := toString config.partitions
  replicationFactor := toString config.replicationFactor

variable (admin : AppKafkaAdmin)

/-- A script of the installation, with the server to talk to as its first argument. -/
def script (name : String) (args : List String) : Command where
  program := join admin.kafkaBinDir name
  args := "--bootstrap-server" :: admin.bootstrapServers :: args

def createTopicCommand (topicName : String) : Command :=
  admin.script "kafka-topics.sh"
    ["--create",
     "--topic", topicName,
     "--partitions", admin.partitions,
     "--replication-factor", admin.replicationFactor]

def deleteTopicCommand (topicName : String) : Command :=
  admin.script "kafka-topics.sh"
    ["--delete",
     "--topic", topicName]

def createScramUserCommand (username password : String) : Command :=
  admin.script "kafka-configs.sh"
    ["--alter",
     "--add-config", "SCRAM-SHA-512=[password=" ++ password ++ "]",
     "--entity-type", "users",
     "--entity-name", username]

def deleteScramUserCommand (username : String) : Command :=
  admin.script "kafka-configs.sh"
    ["--alter",
     "--delete-config", "SCRAM-SHA-512",
     "--entity-type", "users",
     "--entity-name", username]

def topicReadCommand (topicName username : String) : Command :=
  admin.script "kafka-acls.sh"
    ["--add",
     "--allow-principal", "User:" ++ username,
     "--operation", "Read",
     "--operation", "Describe",
     "--topic", topicName]

def groupReadCommand (username : String) : Command :=
  admin.script "kafka-acls.sh"
    ["--add",
     "--allow-principal", "User:" ++ username,
     "--operation", "Read",
     "--group", "*"]

def topicWriteCommand (topicName username : String) : Command :=
  admin.script "kafka-acls.sh"
    ["--add",
     "--allow-principal", "User:" ++ username,
     "--operation", "Write",
     "--operation", "Describe",
     "--topic", topicName]

/-- `create_provider_topic`: a topic that exists already is no error. -/
def createProviderTopic (topicName : String) : Scripts Unit :=
  invoke (admin.createTopicCommand topicName) ["TopicExistsException"] "Failed to create topic: "

/-- `delete_provider_topic`: a topic that does not exist is no error. -/
def deleteProviderTopic (topicName : String) : Scripts Unit :=
  invoke (admin.deleteTopicCommand topicName) ["UnknownTopicOrPartitionException"]
    "Failed to delete topic: "

/-- `create_scram_user`: of a user that exists the password is replaced. -/
def createScramUser (username password : String) : Scripts Unit :=
  invoke (admin.createScramUserCommand username password) [] "Failed to create user: "

/-- `delete_scram_user`: a user that does not exist is no error. -/
def deleteScramUser (username : String) : Scripts Unit :=
  invoke (admin.deleteScramUserCommand username)
    ["InvalidConfigurationException", "does not exist"] "Failed to delete user: "

/-- `grant_consumer_acls`: two commands, the second only after the first succeeded. -/
def grantConsumerAcls (topicName username : String) : Scripts Unit := do
  -- Step 1: read the topic
  invoke (admin.topicReadCommand topicName username) [] "Failed to grant topic ACLs: "
  -- Step 2: read as any consumer group
  invoke (admin.groupReadCommand username) [] "Failed to grant group ACLs: "

/-- `create_topic` -/
def createTopic (topicName : String) : Scripts Unit :=
  invoke (admin.createTopicCommand topicName) ["TopicExistsException"] "Failed to create topic: "

/-- `grant_producer_acls` -/
def grantProducerAcls (topicName username : String) : Scripts Unit :=
  invoke (admin.topicWriteCommand topicName username) [] "Failed to grant producer ACLs: "

end AppKafkaAdmin

end Wurzburg.Admin
