import Wurzburg.Db.Repository
import Wurzburg.TigerBeetle.Worker

/-!
# Wurzburg.System.World

The shared state of the running service and the effects a request handler can
have on it: one effect for each await point of the handlers.

The stores are PostgreSQL (`Db.Pg`), Redis, Kafka and the ledger; the ledger is
reached only through the bounded channel to the worker. `World.exec` says what
one effect does and `World.move` what the world does by itself (the worker's
loop, restarts, clocks, key expiry). Every choice the environment makes is in
`Choice` and in the labels of `Move`: which calls fail, with or without having
been applied, and which UUIDs are generated.

`sent` and `issued` are history variables: the commands sent so far, each with
its position as responder, and the UUIDs in existence with the use they were
generated for.
-/

namespace Wurzburg.System

open Wurzburg.Db Wurzburg.Tb

/-! ### State -/

/-- A value in Redis, with the expiry it was set with. -/
structure RedisValue where
  value : String
  ex : Option Nat
  deriving DecidableEq, Repr

/-- What the Kafka administration commands create. -/
structure Kafka where
  topics : List String
  scramUsers : List (String × String)
  consumerAcls : List (String × String)
  deriving DecidableEq, Repr

/-- What a UUID was generated for. -/
inductive IdUse where
  | userLedger
  | providerLedger
  | systemLedger
  | other
  deriving DecidableEq, Repr

/-- The shared state of the service. -/
structure World where
  pg : Pg
  redis : List (String × RedisValue)
  kafka : Kafka
  worker : Worker
  /-- The channel to the worker. -/
  queue : List TbCommand
  /-- The worker task is running. -/
  alive : Bool
  sent : List TbCommand
  issued : List (Uuid × IdUse)
  appNow : Timestamp
  dbNow : Timestamp

namespace World

/-- The value of a key. -/
def redisGet (w : World) (key : String) : Option RedisValue :=
  (w.redis.find? (fun e => e.1 = key)).map Prod.snd

def redisDel (w : World) (key : String) : World :=
  { w with redis := w.redis.filter (fun e => e.1 ≠ key) }

def redisSet (w : World) (key : String) (v : RedisValue) : World :=
  { w with redis := (key, v) :: w.redis.filter (fun e => e.1 ≠ key) }

@[simp] theorem redisGet_redisDel (w : World) (key : String) :
    (w.redisDel key).redisGet key = none := by
  simp [redisGet, redisDel, List.find?_filter]

@[simp] theorem redisGet_redisSet (w : World) (key : String) (v : RedisValue) :
    (w.redisSet key v).redisGet key = some v := by
  simp [redisGet, redisSet]

theorem redisGet_redisDel_of_ne (w : World) {key key' : String} (h : key ≠ key') :
    (w.redisDel key').redisGet key = w.redisGet key := by
  have hfun : (fun e : String × RedisValue =>
      decide (decide (e.1 ≠ key') = true ∧ decide (e.1 = key) = true)) =
      fun e => decide (e.1 = key) := by
    funext e
    by_cases he : e.1 = key <;> simp [he, h]
  simp only [redisGet, redisDel, List.find?_filter, hfun]

/-- UUIDs that are new, also among themselves. -/
def isFresh (w : World) (ids : List Uuid) : Bool :=
  ids.Nodup ∧ ∀ id ∈ ids, id ∉ w.issued.map Prod.fst

/-- A responder whose command is in the channel or in a buffer of the worker. -/
def isPending (w : World) (r : ResponderId) : Bool :=
  w.alive && (r ∈ w.queue.map TbCommand.responder || r ∈ w.worker.transferBuf.responders ||
    r ∈ w.worker.accountBuf.responders || r ∈ w.worker.lookupAccBuf.responders ||
    r ∈ w.worker.lookupTxBuf.responders)

/-- The message sent to a responder. -/
def reply? (w : World) (r : ResponderId) : Option TbReply :=
  (w.worker.replies.find? (fun m => m.1 = r)).map Prod.snd

end World

/-! ### Effects -/

/-- A call of the repository. -/
inductive DbCall where
  | getProviderById (id : Uuid)
  | createProvider (provider : Provider) (actorId : Uuid)
  | createOrLinkUser (nid : String) (providerId : Uuid) (internalMetadata externalMetadata : Json)
      (ledgerAccountId actorId : Uuid)
  | getUserProviderDetails (userId providerId : Uuid)
  | getUserAccountsProviderInfo (userId : Uuid)
  | getTransactionByIdempotencyKey (key : String)
  | executeCreditTransfer (idempotencyKey : String) (amount : Int)
      (providerId userId providerLedgerId userLedgerId actorId : Uuid)
      (description : Option String)
  | executeDebitTransfer (idempotencyKey : String) (amount : Int)
      (providerId userId providerLedgerId userLedgerId actorId : Uuid)
      (description : Option String)
  | getPriorityConfigByIdempotencyKey (key : String)
  | createPriorityConfig (idempotencyKey : String) (userId : Uuid) (items : List PriorityItemData)
      (expiresAt : Option Timestamp) (actorId : Uuid)
  | getActivePriorityConfig (userId : Uuid)
  | cancelActivePriorityConfig (userId actorId : Uuid)
  | getAllPriorityConfigs (userId : Uuid)
  | recordSystemAccount (code name : String) (category : SystemAccountCategory)
      (ledgerAccountId : Uuid)
  deriving DecidableEq, Repr

namespace DbCall

/-- What a call returns when it succeeds. -/
def Row : DbCall → Type
  | getProviderById _ => Option Provider
  | createProvider .. => Provider
  | createOrLinkUser .. => User × UserAccount
  | getUserProviderDetails .. => Option UserProviderDetails
  | getUserAccountsProviderInfo _ => List UserAccountProviderInfo
  | getTransactionByIdempotencyKey _ => Option Transaction
  | executeCreditTransfer .. => Transaction
  | executeDebitTransfer .. => Transaction
  | getPriorityConfigByIdempotencyKey _ => Option UserPriorityDetails
  | createPriorityConfig .. => UserPriorityDetails
  | getActivePriorityConfig _ => Option UserPriorityDetails
  | cancelActivePriorityConfig .. => Option UserPriorityDetails
  | getAllPriorityConfigs _ => List UserPriorityDetails
  | recordSystemAccount .. => Nat

/-- The method that serves a call. -/
def body : (c : DbCall) → Repo c.Row
  | getProviderById id => Db.getProviderById id
  | createProvider provider actorId => Db.createProvider provider actorId
  | createOrLinkUser nid providerId internalMetadata externalMetadata ledgerAccountId actorId =>
      Db.createOrLinkUser nid providerId internalMetadata externalMetadata ledgerAccountId actorId
  | getUserProviderDetails userId providerId => Db.getUserProviderDetails userId providerId
  | getUserAccountsProviderInfo userId => Db.getUserAccountsProviderInfo userId
  | getTransactionByIdempotencyKey key => Db.getTransactionByIdempotencyKey key
  | executeCreditTransfer key amount providerId userId providerLedgerId userLedgerId actorId
      description =>
      Db.executeCreditTransfer key amount providerId userId providerLedgerId userLedgerId actorId
        description
  | executeDebitTransfer key amount providerId userId providerLedgerId userLedgerId actorId
      description =>
      Db.executeDebitTransfer key amount providerId userId providerLedgerId userLedgerId actorId
        description
  | getPriorityConfigByIdempotencyKey key => Db.getPriorityConfigByIdempotencyKey key
  | createPriorityConfig key userId items expiresAt actorId =>
      Db.createPriorityConfig key userId items expiresAt actorId
  | getActivePriorityConfig userId => Db.getActivePriorityConfig userId
  | cancelActivePriorityConfig userId actorId => Db.cancelActivePriorityConfig userId actorId
  | getAllPriorityConfigs userId => Db.getAllPriorityConfigs userId
  | recordSystemAccount code name category ledgerAccountId =>
      Db.recordSystemAccount code name category ledgerAccountId

/-- The context a failing connection is reported under. -/
def connectionContexts : DbCall → List String
  | createPriorityConfig .. => ["Failed to begin transaction"]
  | recordSystemAccount .. => ["Failed to begin transaction"]
  | _ => []

end DbCall

inductive RedisCmd where
  /-- `state.redis.get()`: a connection from the pool. -/
  | acquire
  | del (key : String)
  | set (key value : String) (ex : Option Nat)
  deriving DecidableEq, Repr

inductive KafkaCmd where
  | createProviderTopic (topic : String)
  | createScramUser (username password : String)
  | grantConsumerAcls (topic username : String)
  deriving DecidableEq, Repr

/-- What a handler can await, and the two ambient calls it makes. -/
inductive Eff where
  /-- `Utc::now()` -/
  | now
  /-- `Uuid::new_v4()` -/
  | newV4 (use : IdUse)
  | db (call : DbCall)
  | redis (cmd : RedisCmd)
  | kafka (cmd : KafkaCmd)
  /-- `sender.send(…)`, with a new response channel. -/
  | tbSend (request : TbRequest)
  /-- `resp_rx.await` -/
  | tbRecv (responder : ResponderId)
  deriving DecidableEq, Repr

/-- What an effect returns. A `none` of the two channel effects is the error of
a closed channel. -/
def Eff.Resp : Eff → Type
  | now => Timestamp
  | newV4 _ => Uuid
  | db call => Except RepoError call.Row
  | redis _ => Except String Unit
  | kafka _ => Except String Unit
  | tbSend _ => Option ResponderId
  | tbRecv _ => Option TbReply

/-- How a call to one of the stores ends: as the store answers, or with an
error before or after the store has applied it. -/
inductive Fault where
  | none
  | fail (applied : Bool) (message : String)
  deriving DecidableEq, Repr

/-- What the environment chooses at one effect. -/
structure Choice where
  fault : Fault
  /-- The UUIDs generated. -/
  uuid : Nat → Uuid

namespace World

/-- A Redis command that is carried out. -/
def redisApply (w : World) : RedisCmd → World
  | .acquire => w
  | .del key => w.redisDel key
  | .set key value ex => w.redisSet key ⟨value, ex⟩

/-- A Kafka command that is carried out. -/
def kafkaApply (w : World) : KafkaCmd → World
  | .createProviderTopic topic =>
      { w with kafka := { w.kafka with topics := w.kafka.topics.insert topic } }
  | .createScramUser username password =>
      { w with kafka := { w.kafka with
        scramUsers := (username, password) :: w.kafka.scramUsers.filter (fun u => u.1 ≠ username) } }
  | .grantConsumerAcls topic username =>
      { w with kafka := { w.kafka with
        consumerAcls := w.kafka.consumerAcls.insert (topic, username) } }

/-- A call to a store without results, under a fault. -/
def faulty (w : World) (f : Fault) (apply : World → World) : Except String Unit × World :=
  match f with
  | .none => (.ok (), apply w)
  | .fail applied message => (.error message, if applied then apply w else w)

/-- A repository call that reaches the database. -/
def dbApply (w : World) (ch : Choice) (call : DbCall) :
    Option (Except RepoError call.Row × World) :=
  let out := call.body.transact w.pg w.dbNow ch.uuid
  let drawn := (List.range out.2.2).map ch.uuid
  if w.isFresh drawn then
    some (out.1, { w with pg := out.2.1, issued := w.issued ++ drawn.map (fun u => (u, .other)) })
  else none

/-- A repository call, under a fault. -/
def dbExec (w : World) (ch : Choice) (call : DbCall) :
    Option (Except RepoError call.Row × World) :=
  match ch.fault with
  | .none => w.dbApply ch call
  | .fail false message => some (.error ⟨call.connectionContexts, .connection message⟩, w)
  | .fail true message =>
      (w.dbApply ch call).map
        (fun out => (.error ⟨call.connectionContexts, .connection message⟩, out.2))

/-- Send a command to the worker; waits while the channel is full. -/
def tbSend (w : World) (capacity : Nat) (request : TbRequest) :
    Option (Option ResponderId × World) :=
  if w.alive then
    if w.queue.length < capacity then
      let cmd : TbCommand := ⟨request, w.sent.length⟩
      some (some cmd.responder, { w with queue := w.queue ++ [cmd], sent := w.sent ++ [cmd] })
    else none
  else some (none, w)

/-- Await a response; waits while the command is under way. -/
def tbRecv (w : World) (r : ResponderId) : Option (Option TbReply × World) :=
  match w.reply? r with
  | some reply => some (some reply, w)
  | none => if w.isPending r then none else some (none, w)

/-- One effect. -/
def exec (capacity : Nat) (ch : Choice) : (e : Eff) → World → Option (e.Resp × World)
  | .now, w => some (w.appNow, w)
  | .newV4 use, w =>
      if w.isFresh [ch.uuid 0] then
        some (ch.uuid 0, { w with issued := w.issued ++ [(ch.uuid 0, use)] })
      else none
  | .db call, w => w.dbExec ch call
  | .redis cmd, w => some (w.faulty ch.fault (·.redisApply cmd))
  | .kafka cmd, w => some (w.faulty ch.fault (·.kafkaApply cmd))
  | .tbSend request, w => w.tbSend capacity request
  | .tbRecv r, w => w.tbRecv r

/-- A call that reaches the database runs its method on fresh UUIDs. -/
theorem dbApply_cases {w w' : World} {ch : Choice} {call : DbCall}
    {r : Except RepoError call.Row} (h : w.dbApply ch call = some (r, w')) :
    ∃ pg n, call.body.transact w.pg w.dbNow ch.uuid = (r, pg, n) ∧
      w.isFresh ((List.range n).map ch.uuid) = true ∧
      w' = { w with
        pg := pg
        issued := w.issued ++ ((List.range n).map ch.uuid).map (fun u => (u, .other)) } := by
  simp only [dbApply] at h
  split at h
  · next hfresh =>
      obtain ⟨rfl, rfl⟩ := Prod.mk.inj (Option.some.inj h)
      exact ⟨_, _, rfl, hfresh, rfl⟩
  · simp at h

/-- A call fails without effect, or is applied; a result other than an error is
the method's own. -/
theorem dbExec_cases {w w' : World} {ch : Choice} {call : DbCall}
    {r : Except RepoError call.Row} (h : w.dbExec ch call = some (r, w')) :
    (∃ e, r = .error e ∧ w' = w) ∨
    ∃ r', w.dbApply ch call = some (r', w') ∧ (r = r' ∨ ∃ e, r = .error e) := by
  unfold dbExec at h
  split at h
  · exact Or.inr ⟨r, h, Or.inl rfl⟩
  · obtain ⟨rfl, rfl⟩ := Prod.mk.inj (Option.some.inj h)
    exact Or.inl ⟨_, rfl, rfl⟩
  · obtain ⟨out, hout, heq⟩ := Option.map_eq_some_iff.mp h
    obtain ⟨rfl, rfl⟩ := Prod.mk.inj heq
    exact Or.inr ⟨out.1, hout, Or.inr ⟨_, rfl⟩⟩

/-- A call that returned a row was made without a fault. -/
theorem dbExec_row {w w' : World} {ch : Choice} {call : DbCall} {row : call.Row}
    (h : w.dbExec ch call = some (.ok row, w')) :
    ch.fault = .none ∧ w.dbApply ch call = some (.ok row, w') := by
  unfold dbExec at h
  split at h
  · next hfault => exact ⟨hfault, h⟩
  · simp at h
  · obtain ⟨out, -, heq⟩ := Option.map_eq_some_iff.mp h
    simp at heq

/-- Sending appends the command to the channel, or finds it closed. -/
theorem tbSend_cases {w w' : World} {capacity : Nat} {request : TbRequest}
    {r : Option ResponderId} (h : w.tbSend capacity request = some (r, w')) :
    (r = none ∧ w' = w) ∨
    (r = some w.sent.length ∧ w' = { w with
      queue := w.queue ++ [⟨request, w.sent.length⟩]
      sent := w.sent ++ [⟨request, w.sent.length⟩] }) := by
  unfold tbSend at h
  split at h
  · split at h
    · obtain ⟨rfl, rfl⟩ := Prod.mk.inj (Option.some.inj h)
      exact Or.inr ⟨rfl, rfl⟩
    · simp at h
  · obtain ⟨rfl, rfl⟩ := Prod.mk.inj (Option.some.inj h)
    exact Or.inl ⟨rfl, rfl⟩

/-- Receiving changes nothing and returns a message that was sent. -/
theorem tbRecv_cases {w w' : World} {r : ResponderId} {reply : Option TbReply}
    (h : w.tbRecv r = some (reply, w')) :
    w' = w ∧ ∀ m, reply = some m → (r, m) ∈ w.worker.replies := by
  unfold tbRecv at h
  split at h
  · next m hm =>
      obtain ⟨rfl, rfl⟩ := Prod.mk.inj (Option.some.inj h)
      refine ⟨rfl, fun m' hm' => ?_⟩
      obtain rfl := Option.some.inj hm'
      obtain ⟨p, hp, rfl⟩ := Option.map_eq_some_iff.mp hm
      have hr : p.1 = r := by simpa using List.find?_some hp
      rw [← hr]
      exact List.mem_of_find?_eq_some hp
  · split at h
    · simp at h
    · obtain ⟨rfl, rfl⟩ := Prod.mk.inj (Option.some.inj h)
      exact ⟨rfl, fun m hm => by simp at hm⟩

/-- A message that was received is the one sent to the responder. -/
theorem tbRecv_reply {w w' : World} {r : ResponderId} {m : TbReply}
    (h : w.tbRecv r = some (some m, w')) : w.reply? r = some m := by
  unfold tbRecv at h
  split at h
  · next m' hm =>
      obtain ⟨heq, -⟩ := Prod.mk.inj (Option.some.inj h)
      exact hm.trans heq
  · split at h
    · simp at h
    · simp at h

end World

/-! ### The world's own moves -/

/-- What happens without a handler. -/
inductive Move where
  /-- The worker takes a command off the channel. -/
  | receive (o : CallOutcome)
  /-- The worker's timer ticks. -/
  | tick (o : Worker.TickOutcomes)
  /-- The worker task ends. -/
  | stop
  /-- The service starts a new worker. -/
  | restart
  | clock (app db : Nat)
  /-- A Redis key with an expiry disappears. -/
  | expire (key : String)
  deriving DecidableEq, Repr

/-- One move of the world. -/
def World.move (tb : TigerBeetle) (batchMaxSize : Nat) (w : World) : Move → Option World
  | .receive o =>
      match w.alive, w.queue with
      | true, cmd :: rest =>
          some { w with worker := w.worker.turn tb batchMaxSize (.command cmd o), queue := rest }
      | _, _ => none
  | .tick o =>
      if w.alive then some { w with worker := w.worker.turn tb batchMaxSize (.tick o) } else none
  | .stop => some { w with alive := false, queue := [] }
  | .restart => some { w with worker := Worker.start w.worker.ledger, queue := [], alive := true }
  | .clock app db => some { w with appNow := w.appNow + app, dbNow := w.dbNow + db }
  | .expire key =>
      match w.redisGet key with
      | some ⟨_, some _⟩ => some (w.redisDel key)
      | _ => none

/-- Receiving takes the first command off the channel. -/
theorem World.receive_cases {tb : TigerBeetle} {n : Nat} {o : CallOutcome} {w w' : World}
    (h : w.move tb n (.receive o) = some w') :
    ∃ cmd rest, w.queue = cmd :: rest ∧ w' = { w with
      worker := w.worker.turn tb n (.command cmd o)
      queue := rest } := by
  simp only [move] at h
  split at h
  · next cmd rest _ hq => exact ⟨cmd, rest, hq, (Option.some.inj h).symm⟩
  · simp at h

theorem World.move_receive {tb : TigerBeetle} {n : Nat} {o : CallOutcome} {w : World}
    {cmd : TbCommand} {rest : List TbCommand} (ha : w.alive = true) (hq : w.queue = cmd :: rest) :
    w.move tb n (.receive o) = some { w with
      worker := w.worker.turn tb n (.command cmd o)
      queue := rest } := by
  simp only [move, ha, hq]

theorem World.move_tick {tb : TigerBeetle} {n : Nat} {o : Worker.TickOutcomes} {w : World}
    (ha : w.alive = true) :
    w.move tb n (.tick o) = some { w with worker := w.worker.turn tb n (.tick o) } := by
  rw [move, if_pos ha]

/-- The world by itself leaves PostgreSQL and the commands sent alone. -/
theorem World.move_frame {tb : TigerBeetle} {n : Nat} {w w' : World} {v : Move}
    (h : w.move tb n v = some w') : w'.pg = w.pg ∧ w'.sent = w.sent := by
  cases v with
  | receive o =>
      obtain ⟨cmd, rest, -, rfl⟩ := World.receive_cases h
      exact ⟨rfl, rfl⟩
  | tick o =>
      simp only [World.move] at h
      split at h
      · obtain rfl := Option.some.inj h
        exact ⟨rfl, rfl⟩
      · cases h
  | expire key =>
      simp only [World.move] at h
      split at h
      · obtain rfl := Option.some.inj h
        exact ⟨rfl, rfl⟩
      · cases h
  | _ =>
      obtain rfl := Option.some.inj h
      exact ⟨rfl, rfl⟩

/-- The service at its first start: empty stores, and the configured system
account ids in existence. -/
def World.boot (systemIds : List Uuid) (now : Timestamp) : World where
  pg := .empty
  redis := []
  kafka := ⟨[], [], []⟩
  worker := .start .empty
  queue := []
  alive := true
  sent := []
  issued := systemIds.map (fun id => (id, .systemLedger))
  appNow := now
  dbNow := now

end Wurzburg.System
