import Wurzburg.Lib.Budget
import Wurzburg.System.PriorityRequests
import Wurzburg.System.Rest
import Wurzburg.TigerBeetle.Shutdown

/-!
# Wurzburg.System.Completion

No request hangs. Each request has a budget of effects and generated UUIDs, known when it
arrives (`Request.budget`), and keeps to it whatever the replies. A handler waits only for
room in the channel and for an answer of the worker, and the worker, received from and ticked,
gives both; so from any reachable state all requests come to their ends (`requests_complete`).
-/

namespace Wurzburg.Db

open Wurzburg.Lib

/-! ### UUIDs that a repository method generates -/

/-- How many UUIDs a step generates, at most. -/
def Sql.draws : Sql → Nat
  | .newV4 | .upsertUserProvider .. | .insertConfig .. | .insertItem _ => 1
  | .insertSystemAccount .. => 1
  | _ => 0

theorem Tx.write_drawn {α : Type} (t : Tx) (checks : List (Bool × SqlError)) (row : α)
    (upd : Pg → Pg) (logs : Uuid → List AuditLog) :
    (t.write checks row upd logs).2.drawn = t.drawn := by
  unfold Tx.write
  split
  · rfl
  · split
    · rfl
    · rfl

theorem Tx.update_drawn {α : Type} (t : Tx) (table : String) (touched : List Uuid) (row : α)
    (upd : Pg → Pg) : (t.update table touched row upd).2.drawn = t.drawn := by
  unfold Tx.update
  split
  · rfl
  · exact Tx.write_drawn ..

theorem Sql.exec_drawn (s : Sql) (t : Tx) : (s.exec t).2.drawn ≤ t.drawn + s.draws := by
  cases s with
  | upsertUserProvider u p metadata =>
      simp only [Sql.exec, Tx.upsertUserProvider]
      split
      · rw [Tx.write_drawn]
        exact Nat.le_add_right _ _
      · exact Nat.le_of_eq (Tx.write_drawn ..)
  | insertSystemAccount code name category l =>
      simp only [Sql.exec, Tx.insertSystemAccount]
      split
      · exact Nat.le_add_right _ _
      · exact Nat.le_of_eq (Tx.write_drawn ..)
  | cancelActiveConfig _ | softDeleteItems _ | softDeleteConfig _ =>
      exact Nat.le_of_eq (Tx.update_drawn ..)
  | insertUser _ _ _ | insertUserAccount _ _ _ _ | insertConfig _ _ _ =>
      exact Nat.le_of_eq (Tx.write_drawn ..)
  | insertProvider _ | insertTransaction _ | insertItem _ =>
      exact Nat.le_of_eq (Tx.write_drawn ..)
  | _ => exact Nat.le_refl _

theorem query_within (s : Sql) (contexts : List String) :
    Prog.WithinE Sql.draws s.draws (query s contexts) :=
  Prog.Within.call (n := 0) (fun _ => trivial)

theorem reads_within {α : Type} {x : Repo α} (h : x.Uses Sql.isRead) :
    Prog.WithinE Sql.draws 0 x := by
  refine Prog.WithinE.of_uses (Prog.UsesE.mono h (fun s hs => ?_))
  cases s <;> first | rfl | exact hs.elim

theorem findOrCreateUser_within (nid : String) (metadata : Json) :
    Prog.WithinE Sql.draws 1 (findOrCreateUser nid metadata) := by
  refine (query_within _ _).andThen rfl (fun found => ?_)
  cases found with
  | some user => exact .pure _
  | none => exact (query_within _ _).andThen rfl (fun _ => query_within _ _)

theorem findOrCreateAccount_within (u p l : Uuid) :
    Prog.WithinE Sql.draws 1 (findOrCreateAccount u p l) := by
  refine (query_within _ _).andThen rfl (fun found => ?_)
  cases found with
  | some account => exact .pure _
  | none => exact (query_within _ _).andThen rfl (fun _ => query_within _ _)

theorem createOrLinkUser_within (nid : String) (p : Uuid) (im em : Json) (lid actor : Uuid) :
    Prog.WithinE Sql.draws 3 (createOrLinkUser nid p im em lid actor) := by
  refine (query_within _ _).andThen rfl (fun _ => ?_)
  refine (findOrCreateUser_within nid im).andThen rfl (fun user => ?_)
  refine (query_within _ _).andThen rfl (fun _ => ?_)
  refine (findOrCreateAccount_within user.id p lid).andThen rfl (fun account => ?_)
  exact (query_within _ _).andThen rfl (fun _ => .pure _)

theorem executeTransfer_within (type : TransactionType) (key : String) (amount : Int)
    (p u dr cr actor : Uuid) (description : Option String) :
    Prog.WithinE Sql.draws 1 (executeTransfer type key amount p u dr cr actor description) := by
  refine (query_within _ _).andThen rfl (fun _ => ?_)
  refine (query_within _ _).andThen rfl (fun _ => ?_)
  refine (query_within _ _).andThen rfl (fun _ => ?_)
  exact (query_within _ _).andThen rfl (fun _ => .pure _)

theorem insertItems_within (configId : Uuid) (index : Nat) (items : List PriorityItemData) :
    Prog.WithinE Sql.draws items.length (insertItems configId index items) := by
  induction items generalizing index with
  | nil => exact .pure _
  | cons item items ih =>
      exact (query_within _ _).andThen (Nat.ble_eq.mpr (Nat.le_add_left _ _)) (fun _ => ih (index + 1))

theorem createPriorityConfig_within (key : String) (u : Uuid) (items : List PriorityItemData)
    (expiresAt : Option Timestamp) (actor : Uuid) :
    Prog.WithinE Sql.draws (items.length + 1) (createPriorityConfig key u items expiresAt actor) := by
  refine (query_within _ _).andThen rfl (fun _ => ?_)
  refine (query_within _ _).andThen rfl (fun _ => ?_)
  refine (query_within _ _).andThen (Nat.ble_eq.mpr (Nat.le_add_left _ _)) (fun config => ?_)
  refine (insertItems_within config.id 0 items).andThen (Nat.ble_eq.mpr (Nat.le_refl _)) (fun _ => ?_)
  refine (query_within _ _).andThen rfl (fun created => ?_)
  exact (query_within _ _).andThen rfl (fun _ => .pure _)

theorem cancelActivePriorityConfig_within (u actor : Uuid) :
    Prog.WithinE Sql.draws 0 (cancelActivePriorityConfig u actor) := by
  refine (query_within _ _).andThen rfl (fun _ => ?_)
  refine (query_within _ _).andThen rfl (fun found => ?_)
  cases found with
  | none => exact (query_within _ _).andThen rfl (fun _ => .pure _)
  | some config =>
      refine (query_within _ _).andThen rfl (fun items => ?_)
      exact (query_within _ _).andThen rfl (fun _ => .pure _)

end Wurzburg.Db

namespace Wurzburg.System

open Wurzburg.Lib Wurzburg.Db Wurzburg.Tb Wurzburg.Api

/-- How many UUIDs a call generates, at most. -/
def DbCall.draws : DbCall → Nat
  | .createOrLinkUser .. => 3
  | .executeCreditTransfer .. | .executeDebitTransfer .. => 1
  | .createPriorityConfig _ _ items _ _ => items.length + 1
  | .recordSystemAccount .. => 1
  | _ => 0

theorem DbCall.body_within (call : DbCall) : Prog.WithinE Sql.draws call.draws call.body := by
  cases call with
  | createProvider p actor =>
      refine (query_within _ _).andThen rfl (fun _ => ?_)
      refine (query_within _ _).andThen rfl (fun _ => ?_)
      exact (query_within _ _).andThen rfl (fun _ => .pure _)
  | recordSystemAccount code name category l =>
      refine (query_within _ _).andThen rfl (fun _ => ?_)
      refine (query_within _ _).andThen rfl (fun _ => ?_)
      exact (query_within _ _).andThen rfl (fun _ => .pure _)
  | createOrLinkUser nid p im em lid actor => exact createOrLinkUser_within ..
  | executeCreditTransfer key amount p u pl ul actor description =>
      exact executeTransfer_within ..
  | executeDebitTransfer key amount p u pl ul actor description => exact executeTransfer_within ..
  | createPriorityConfig key u items expiresAt actor => exact createPriorityConfig_within ..
  | cancelActivePriorityConfig u actor => exact cancelActivePriorityConfig_within ..
  | getPriorityConfigByIdempotencyKey key =>
      exact reads_within (getPriorityConfigByIdempotencyKey_reads key)
  | getActivePriorityConfig u => exact reads_within (getActivePriorityConfig_reads u)
  | getAllPriorityConfigs u => exact reads_within (getAllPriorityConfigs_reads u)
  | getUserProviderDetails u p => exact query_within _ _
  | getProviderById _ | getUserAccountsProviderInfo _ | getTransactionByIdempotencyKey _ =>
      exact query_within _ _

/-- A call generates no more UUIDs than that. -/
theorem transact_drawn (call : DbCall) (pg : Pg) (now : Timestamp) (uuid : Nat → Uuid) :
    (call.body.transact pg now uuid).2.2 ≤ call.draws := by
  have h : (call.body.transact pg now uuid).2.2 ≤ Tx.drawn (Tx.begin pg now uuid) + call.draws :=
    Prog.Within.run_le Sql.exec_drawn call.body_within (Tx.begin pg now uuid)
  rw [show (Tx.begin pg now uuid).drawn = 0 from rfl, Nat.zero_add] at h
  exact h

/-! ### The budget of a request -/

/-- What an effect takes of a budget: one for itself, and one for each UUID it generates. -/
def Eff.cost : Eff → Nat
  | .newV4 _ => 2
  | .db call => call.draws + 1
  | _ => 1

/-- What a request may take; only the list of a priority makes a difference. -/
def Request.budget : Request → Nat
  | .seedSystemAccounts => 8
  | .createProvider _ => 15
  | .createOrLink _ => 11
  | .creditUser .. => 9
  | .debitUser .. => 13
  | .createUserPriority _ _ payload => 2 * payload.priorities.length + 11
  | .getProvider _ | .getUser .. | .getUserBalance _ => 3
  | .cancelActiveUserPriority _ => 3
  | .getActiveUserPriority _ | .getAllUserPriorities _ => 1

section

variable {env : Env} {β γ : Type}

theorem perform_within (e : Eff) : (Prog.perform e : Io e.Resp).Within Eff.cost e.cost :=
  Prog.Within.call (n := 0) (fun _ => trivial)

theorem db_within (call : DbCall) : Prog.WithinE Eff.cost (call.draws + 1) (db call) :=
  (perform_within (.db call)).bind (n := 0) (fun _ => trivial)

theorem tryDb_within (call : DbCall) : Prog.WithinE Eff.cost (call.draws + 1) (tryDb call) :=
  (perform_within (.db call)).bind (n := 0) (fun _ => trivial)

theorem redis_within (cmd : RedisCmd) : Prog.WithinE Eff.cost 1 (redis cmd) :=
  (perform_within (.redis cmd)).bind (n := 0) (fun _ => trivial)

theorem tryRedis_within (cmd : RedisCmd) : Prog.WithinE Eff.cost 1 (tryRedis cmd) :=
  (perform_within (.redis cmd)).bind (n := 0) (fun _ => trivial)

theorem now_within : Prog.WithinE Eff.cost 1 now :=
  (perform_within .now).bind (n := 0) (fun _ => trivial)

theorem newV4_within (use : IdUse) : Prog.WithinE Eff.cost 2 (newV4 use) :=
  (perform_within (.newV4 use)).bind (n := 0) (fun _ => trivial)

theorem orElse_within (e : HttpError) (o : Option β) : Prog.WithinE Eff.cost 0 (orElse e o) := by
  cases o with
  | none => exact .throw _
  | some a => exact .pure _

theorem submit_within {request : TbRequest} {sendError recvError : String}
    {extract : TbReply → Option (Except String γ)} :
    (submit request sendError recvError extract).Within Eff.cost 2 := by
  refine Prog.Within.call (n := 1) (fun r => ?_)
  cases r with
  | none => trivial
  | some i =>
      refine Prog.Within.call (n := 0) (fun m => ?_)
      cases m with
      | none => trivial
      | some reply => trivial

/-- A command to the worker, inside a handler. -/
theorem command_within {request : TbRequest} {sendError recvError : String}
    {extract : TbReply → Option (Except String γ)} {f : String → HttpError} :
    Prog.WithinE Eff.cost 2 (orFail (submit request sendError recvError extract) f) :=
  submit_within.bind (n := 0) (fun _ => trivial)

theorem setUpKafka_within (settings : ProviderKafkaSettings) :
    Prog.WithinE Eff.cost 3 (setUpKafka settings) := by
  have hkafka : ∀ cmd, Prog.WithinE Eff.cost 1
      (attempt (Prog.perform (Eff.kafka cmd)) : Handler (Except String Unit)) :=
    fun cmd => (perform_within (.kafka cmd)).bind (n := 0) (fun _ => trivial)
  refine (hkafka _).andThen rfl (fun topic => ?_)
  split
  · refine (hkafka _).andThen rfl (fun user => ?_)
    split
    · exact (hkafka _).andThen rfl (fun _ => .pure _)
    · exact .pure _
  · exact .pure _

theorem createProvider_within (payload : CreateProviderRequest) :
    Prog.WithinE Eff.cost 15 (Api.createProvider env payload) := by
  refine now_within.andThen rfl (fun at_ => ?_)
  simp only
  split
  · refine (newV4_within _).andThen rfl (fun providerId => ?_)
    refine (newV4_within _).andThen rfl (fun lid => ?_)
    refine (newV4_within _).andThen rfl (fun actorId => ?_)
    refine command_within.andThen rfl (fun _ => ?_)
    refine (newV4_within _).andThen rfl (fun passwordId => ?_)
    refine (db_within _).andThen rfl (fun _ => ?_)
    exact (setUpKafka_within _).andThen rfl (fun _ => .pure _)
  · exact .throw _

theorem createOrLink_within (payload : CreateUserRequest) :
    Prog.WithinE Eff.cost 11 (createOrLink env payload) := by
  refine now_within.andThen rfl (fun requestTime => ?_)
  refine (newV4_within _).andThen rfl (fun lid => ?_)
  refine (newV4_within _).andThen rfl (fun actorId => ?_)
  refine (db_within _).andThen rfl (fun ⟨user, account⟩ => ?_)
  simp only
  split
  · exact command_within.andThen rfl (fun _ => .pure _)
  · exact .pure _

theorem admission_within (p u : Uuid) (payload : TransferRequest) :
    Prog.WithinE Eff.cost 3 (admission p u payload) := by
  refine (db_within _).andThen rfl (fun found => ?_)
  refine (orElse_within _ found).andThen rfl (fun account => ?_)
  refine (tryDb_within _).andThen rfl (fun known => ?_)
  split
  · exact .pure _
  · refine (db_within _).andThen rfl (fun provider => ?_)
    exact (orElse_within _ provider).andThen rfl (fun _ => .pure _)

theorem settle_within (d : Direction) (p u : Uuid) (payload : TransferRequest)
    (ud : UserProviderDetails) (pd : Provider) :
    Prog.WithinE Eff.cost 6 (settle env d p u payload ud pd) := by
  have hrecord : Prog.WithinE Eff.cost 2
      (recordTransfer d p u payload pd.ledgerAccountId ud.userLedgerAccountId) := by
    cases d with
    | credit => exact db_within _
    | debit => exact db_within _
  refine command_within.andThen rfl (fun rs => ?_)
  split
  · refine hrecord.andThen rfl (fun row => ?_)
    exact command_within.andThen rfl (fun _ => .pure _)
  · exact .throw _

theorem cancelPriorityNaming_within (p u : Uuid) :
    Prog.WithinE Eff.cost 4 (cancelPriorityNaming p u) := by
  refine (db_within _).andThen rfl (fun found => ?_)
  cases found with
  | none => exact .pure _
  | some active =>
      simp only
      split
      · refine (db_within _).andThen rfl (fun _ => ?_)
        refine (tryRedis_within _).andThen rfl (fun r => ?_)
        cases r with
        | error e => exact .pure _
        | ok _ => exact (tryRedis_within _).andThen rfl (fun _ => .pure _)
      · exact .pure _

theorem resolveAccounts_within (u : Uuid) (items : List PriorityItemRequest) :
    Prog.WithinE Eff.cost items.length (resolveAccounts u items) := by
  induction items with
  | nil => exact .pure _
  | cons item items ih =>
      refine (tryDb_within _).andThen (Nat.ble_eq.mpr (Nat.le_add_left _ _)) (fun found => ?_)
      refine Prog.WithinE.andThen ih (Nat.ble_eq.mpr (Nat.le_refl _)) (fun ⟨resolved, errors⟩ => ?_)
      simp only
      split
      · exact .pure _
      · exact .pure _

theorem checkItems_within (u : Uuid) (items : List PriorityItemRequest) :
    Prog.WithinE Eff.cost (items.length + 2) (checkItems u items) := by
  refine (resolveAccounts_within u items).bind (fun ⟨resolved, errors⟩ => ?_)
  simp only
  split
  · refine command_within.andThen rfl (fun accounts => ?_)
    split
    · exact .pure _
    · exact .throw _
  · exact .throw _

theorem ttlNow_within (expiresAt : Option Timestamp) : Prog.WithinE Eff.cost 1 (ttlNow expiresAt) := by
  cases expiresAt with
  | none => exact .pure _
  | some t => exact now_within

theorem publishPriority_within (u : Uuid) (key : String) (resolved : List ResolvedItem)
    (expiresAt : Option Timestamp) :
    Prog.WithinE Eff.cost (resolved.length + 4) (publishPriority env u key resolved expiresAt) := by
  have hcreate : Prog.WithinE Eff.cost (resolved.length + 2) (orFail (Prog.perform (Eff.db
      (.createPriorityConfig key u (resolved.map ResolvedItem.data) expiresAt u))) createError) := by
    refine Prog.Within.bind (m := resolved.length + 2) (n := 0) ?_ (fun _ => trivial)
    refine (perform_within _).mono (Nat.le_of_eq ?_)
    simp [Eff.cost, DbCall.draws]
  refine hcreate.bind (n := 2) (fun created => ?_)
  refine (ttlNow_within expiresAt).andThen rfl (fun at_ => ?_)
  exact (redis_within _).andThen rfl (fun _ => .pure _)

theorem replacePriority_within (u : Uuid) (key : String) (resolved : List ResolvedItem)
    (expiresAt : Option Timestamp) :
    Prog.WithinE Eff.cost (resolved.length + 8) (replacePriority env u key resolved expiresAt) := by
  refine (redis_within _).andThen (Nat.ble_eq.mpr (by omega)) (fun _ => ?_)
  refine (redis_within _).andThen (Nat.ble_eq.mpr (by omega)) (fun _ => ?_)
  refine (db_within _).andThen (Nat.ble_eq.mpr (by simp [DbCall.draws])) (fun active => ?_)
  cases active with
  | none => exact (publishPriority_within u key resolved expiresAt).mono (by simp [DbCall.draws])
  | some d =>
      refine (db_within _).andThen (Nat.ble_eq.mpr (by simp [DbCall.draws])) (fun _ => ?_)
      exact (publishPriority_within u key resolved expiresAt).mono (by simp [DbCall.draws])

theorem createUserPriority_within (u : Uuid) (header : Option String)
    (payload : CreatePriorityRequest) :
    Prog.WithinE Eff.cost (2 * payload.priorities.length + 11)
      (createUserPriority env u header payload) := by
  have hreplace : ∀ key, Prog.WithinE Eff.cost (2 * payload.priorities.length + 10)
      (checkItems u payload.priorities >>= fun resolved =>
        replacePriority env u key resolved payload.expiresAt) := by
    intro key
    -- as many items are created as were asked for
    have hends : Prog.EndsE (fun h resolved => ResolvedAs u payload.priorities h resolved)
        (fun _ (_ : Except HttpError Unit) => True) [] (checkItems u payload.priorities) :=
      checkItems_ends payload.priorities (fun _ _ => trivial)
    have hboth := (checkItems_within u payload.priorities).bind_ends
      (n := payload.priorities.length + 8) hends
      (f := fun resolved => replacePriority env u key resolved payload.expiresAt) ?_
    · exact hboth.mono (by omega)
    · rintro hist resolved ⟨hitems, -⟩
      rw [← hitems, List.length_map]
      exact replacePriority_within u key resolved payload.expiresAt
  unfold createUserPriority
  split
  · exact .throw _
  · cases usableKey header with
    | none => exact .throw _
    | some key =>
        rw [orElse_some_bind]
        refine (tryDb_within _).andThen (Nat.ble_eq.mpr (by simp [DbCall.draws])) (fun known => ?_)
        split
        · exact .pure _
        · exact (hreplace key).mono (by simp [DbCall.draws])

theorem seedAll_within (seeds : List SystemAccountSeed) :
    Prog.WithinE Eff.cost (4 * seeds.length) (seedAll env seeds) := by
  have hseed : ∀ seed, Prog.WithinE Eff.cost 4 (seedSystemAccount env seed) := by
    intro seed
    unfold seedSystemAccount
    split
    · exact .throw _
    · refine Prog.WithinE.andThen (m := 2) (submit_within.bind (n := 0) (fun _ => trivial)) rfl
        (fun _ => ?_)
      refine Prog.WithinE.andThen (m := 2) ((perform_within _).bind (n := 0) (fun _ => trivial)) rfl
        (fun _ => ?_)
      exact .pure _
  induction seeds with
  | nil => exact .pure _
  | cons seed seeds ih =>
      rw [List.length_cons, Nat.mul_add, Nat.add_comm]
      exact (hseed seed).bind (fun _ => ih)

theorem answerWith_within {n : Nat} {wrap : γ → Body} {x : Handler (StatusCode × γ)}
    (h : Prog.WithinE Eff.cost n x) : (answerWith wrap x).Within Eff.cost n :=
  Prog.Within.bind (n := 0) h (fun _ => trivial)

/-- **Every request keeps to its budget**, whatever the replies. -/
theorem serve_within (env : Env) (q : Request) : (serve env q).Within Eff.cost q.budget := by
  cases q with
  | seedSystemAccounts =>
      have hseeds : Prog.WithinE Eff.cost _ (seedAll env _) :=
        seedAll_within (systemAccounts env.settings.tigerbeetle)
      exact Prog.Within.bind (m := 8) (n := 0) hseeds (fun _ => trivial)
  | createProvider payload => exact answerWith_within (createProvider_within payload)
  | createOrLink payload => exact answerWith_within (createOrLink_within payload)
  | creditUser p u payload =>
      refine answerWith_within ((admission_within p u payload).andThen rfl (fun a => ?_))
      cases a with
      | answered response => exact .pure _
      | admitted ud pd => exact settle_within .credit p u payload ud pd
  | debitUser p u payload =>
      refine answerWith_within ((admission_within p u payload).andThen rfl (fun a => ?_))
      cases a with
      | answered response => exact .pure _
      | admitted ud pd =>
          exact (cancelPriorityNaming_within p u).andThen rfl
            (fun _ => settle_within .debit p u payload ud pd)
  | createUserPriority u header payload =>
      exact answerWith_within (createUserPriority_within u header payload)
  | cancelActiveUserPriority u =>
      refine answerWith_within ((db_within _).andThen rfl (fun found => ?_))
      cases found with
      | none => exact .throw _
      | some details =>
          exact (redis_within _).andThen rfl (fun _ => (redis_within _).andThen rfl (fun _ => .pure _))
  | getProvider id =>
      refine answerWith_within ((db_within _).andThen rfl (fun found => ?_))
      cases found with
      | none => exact .throw _
      | some p => exact command_within.andThen rfl (fun _ => .pure _)
  | getUser u p =>
      refine answerWith_within ((db_within _).andThen rfl (fun found => ?_))
      cases found with
      | none => exact .throw _
      | some details => exact command_within.andThen rfl (fun _ => .pure _)
  | getUserBalance u =>
      refine answerWith_within (Prog.WithinE.andThen (m := 3) ?_ rfl (fun _ => .pure _))
      refine (db_within _).andThen rfl (fun infos => ?_)
      simp only
      split
      · exact .pure _
      · exact command_within.andThen rfl (fun _ => .pure _)
  | getActiveUserPriority u =>
      refine answerWith_within ((db_within _).andThen rfl (fun found => ?_))
      cases found with
      | none => exact .throw _
      | some details => exact .pure _
  | getAllUserPriorities u => exact answerWith_within ((db_within _).andThen rfl (fun _ => .pure _))

end

/-! ### What the world can serve -/

/-- The worker can go on, and there are so many UUIDs left. -/
def Means (n : Nat) (w : World) : Prop :=
  Worker.History w.worker ∧ w.issued.length + n ≤ 2 ^ 128

section

variable {env : Env} {w w' : World}

theorem Means.less {n n' : Nat} (hle : n' ≤ n) (h : Means n w) : Means n' w :=
  ⟨h.1, (Nat.add_le_add_left hle _).trans h.2⟩

/-- The UUID with these bits. -/
def uuidOf (i : Nat) : Uuid := ⟨BitVec.ofNat 128 i⟩

theorem uuidOf_inj {i j : Nat} (hi : i < 2 ^ 128) (hj : j < 2 ^ 128) (h : uuidOf i = uuidOf j) :
    i = j := by
  have hbits := congrArg BitVec.toNat (Uuid.mk.inj h)
  rwa [BitVec.toNat_ofNat, BitVec.toNat_ofNat, Nat.mod_eq_of_lt hi, Nat.mod_eq_of_lt hj] at hbits

/-- As many UUIDs that are new as there are left. -/
theorem exists_fresh {issued : List (Uuid × IdUse)} {n : Nat} (h : issued.length + n ≤ 2 ^ 128) :
    ∃ ids : List Uuid, ids.length = n ∧ Unissued issued ids := by
  have hinj : Set.InjOn uuidOf (Finset.range (issued.length + n)) := by
    intro i hi j hj heq
    have hi : i < issued.length + n := Finset.mem_range.mp hi
    have hj : j < issued.length + n := Finset.mem_range.mp hj
    exact uuidOf_inj (by omega) (by omega) heq
  let left := (Finset.range (issued.length + n)).image uuidOf \ (issued.map Prod.fst).toFinset
  have hcard : n ≤ left.card := by
    have hused : (issued.map Prod.fst).toFinset.card ≤ issued.length :=
      (List.toFinset_card_le _).trans (Nat.le_of_eq (List.length_map _))
    have hsub := Finset.le_card_sdiff (issued.map Prod.fst).toFinset
      ((Finset.range (issued.length + n)).image uuidOf)
    rw [Finset.card_image_of_injOn hinj, Finset.card_range] at hsub
    show n ≤ Finset.card (_ \ _)
    omega
  refine ⟨left.toList.take n, ?_, left.nodup_toList.sublist (List.take_sublist _ _),
    fun id hid => ?_⟩
  · rw [List.length_take, Finset.length_toList]
    omega
  · have hmem := Finset.mem_toList.mp (List.mem_of_mem_take hid)
    rw [← List.mem_toFinset]
    exact (Finset.mem_sdiff.mp hmem).2

/-- A choice without a fault whose UUIDs are new. -/
theorem exists_choice {issued : List (Uuid × IdUse)} {n : Nat} (h : issued.length + n ≤ 2 ^ 128) :
    ∃ ch : Choice, ch.fault = .none ∧ Unissued issued ((List.range n).map ch.uuid) := by
  obtain ⟨ids, hlen, hfresh⟩ := exists_fresh h
  refine ⟨⟨.none, fun i => ids.getD i nilUuid⟩, rfl, ?_⟩
  have hall : (List.range n).map (fun i => ids.getD i nilUuid) = ids := by
    refine List.ext_getElem (by simp [hlen]) (fun i hi hi' => ?_)
    simp [hi']
  rw [hall]
  exact hfresh

/-! ### The worker gives way -/

/-- After a tick nobody waits for a buffered command. -/
theorem tick_responders {tb : TigerBeetle} {v : Worker} (h : v.History) (o : Worker.TickOutcomes) :
    (v.tick tb o).transferBuf.responders = [] ∧ (v.tick tb o).accountBuf.responders = [] ∧
      (v.tick tb o).lookupAccBuf.responders = [] ∧ (v.tick tb o).lookupTxBuf.responders = [] := by
  obtain ⟨ht, ha, hla, hlt⟩ : (v.tick tb o).History := h.run (n := 0) [.tick o]
  have hempty : ∀ k, (v.tick tb o).buffered k = 0 := Worker.buffered_tick o
  refine ⟨?_, ?_, ?_, ?_⟩
  · exact List.eq_nil_of_length_eq_zero (ht.buffered ▸ hempty .transfers)
  · exact List.eq_nil_of_length_eq_zero (ha.buffered ▸ hempty .accounts)
  · exact List.eq_nil_of_length_eq_zero (hla.buffered ▸ hempty .lookupAccounts)
  · exact List.eq_nil_of_length_eq_zero (hlt.buffered ▸ hempty .lookupTransfers)

/-- The channel has room, and nobody waits for an answer that is to come. -/
structure World.Idle (w : World) : Prop where
  queue : w.alive = true → w.queue = []
  answered : ∀ r, w.isPending r = false

/-- The worker takes all commands off the channel and answers them. -/
theorem drained (env : Env) (keeps : Pg → Prop) (live : Prop) {w : World}
    (hh : w.worker.History) :
    ∃ w', (alone env keeps live).Moves w w' ∧ w'.worker.History ∧ w'.issued = w.issued ∧
      w'.Idle := by
  by_cases halive : w.alive = true
  · have hturn : ∀ v : Worker, v.History → ∀ e,
        (v.turn env.tb env.settings.tigerbeetle.batchMaxSize e).History := fun v hv e => hv.run [e]
    induction hq : w.queue generalizing w with
    | nil =>
        have hmove := @World.move_tick env.tb env.settings.tigerbeetle.batchMaxSize .allOk w halive
        refine ⟨_, .single ⟨.tick .allOk, rfl, hmove⟩, hturn _ hh (.tick .allOk), rfl,
          fun _ => hq, fun r => ?_⟩
        obtain ⟨ht, ha, hla, hlt⟩ := @tick_responders env.tb w.worker hh .allOk
        simp [World.isPending, Worker.turn, hq, ht, ha, hla, hlt]
    | cons cmd rest ih =>
        have hmove := @World.move_receive env.tb env.settings.tigerbeetle.batchMaxSize .ok w _ _
          halive hq
        obtain ⟨w', hmoves, hw'⟩ := ih (w := { w with
            worker := w.worker.turn env.tb env.settings.tigerbeetle.batchMaxSize (.command cmd .ok)
            queue := rest }) (hturn _ hh (.command cmd .ok)) halive rfl
        exact ⟨w', .head ⟨.receive .ok, rfl, hmove⟩ hmoves, hw'⟩
  · -- a worker that has ended closes the channel and all response channels
    exact ⟨w, .refl, hh, rfl, fun h => absurd h halive, fun r => by simp [World.isPending, halive]⟩

theorem World.Idle.tbSend {w : World} (h : w.Idle) {capacity : Nat} (hroom : 0 < capacity)
    (request : TbRequest) : ∃ r w', w.tbSend capacity request = some (r, w') := by
  unfold World.tbSend
  split
  · next halive =>
      rw [h.queue halive, List.length_nil, if_pos hroom]
      exact ⟨_, _, rfl⟩
  · exact ⟨_, _, rfl⟩

theorem World.Idle.tbRecv {w : World} (h : w.Idle) (r : ResponderId) :
    ∃ reply, w.tbRecv r = some (reply, w) := by
  unfold World.tbRecv
  split
  · exact ⟨_, rfl⟩
  · rw [h.answered r]
    exact ⟨none, rfl⟩

/-- A call under a choice without a fault, with enough UUIDs that are new. -/
theorem dbExec_fresh {call : DbCall} {ch : Choice} (hch : ch.fault = .none)
    (hfresh : Unissued w.issued ((List.range call.draws).map ch.uuid)) :
    ∃ r w', w.dbExec ch call = some (r, w') ∧ w'.worker = w.worker ∧
      w'.issued.length ≤ w.issued.length + call.draws := by
  have hdrawn := transact_drawn call w.pg w.dbNow ch.uuid
  have hsub : ((List.range (call.body.transact w.pg w.dbNow ch.uuid).2.2).map ch.uuid).Sublist
      ((List.range call.draws).map ch.uuid) := (List.range_sublist.mpr hdrawn).map _
  have hnew : w.isFresh ((List.range (call.body.transact w.pg w.dbNow ch.uuid).2.2).map ch.uuid) =
      true :=
    isFresh_iff.mpr ⟨hfresh.1.sublist hsub, fun id hid => hfresh.2 id (hsub.subset hid)⟩
  have hx : w.dbExec ch call = w.dbApply ch call := by
    unfold World.dbExec
    rw [hch]
  refine ⟨_, _, hx.trans (if_pos hnew), rfl, ?_⟩
  simpa using hdrawn

/-- An effect that the stores serve at once. -/
theorem serves_at_once {e : Eff} {n : Nat} (hmeans : Means (e.cost + n) w) (ch : Choice)
    (hch : ch.fault = .none) {r : e.Resp} {w₁ : World}
    (hx : w.exec env.settings.tigerbeetle.channelCapacity ch e = some (r, w₁))
    (hworker : w₁.worker = w.worker) (hissued : w₁.issued.length < w.issued.length + e.cost) :
    ∃ w₁ ch r w₂, (alone env (fun _ => True) True).Moves w w₁ ∧ ch.fault = .none ∧
      w₁.exec env.settings.tigerbeetle.channelCapacity ch e = some (r, w₂) ∧ Means n w₂ := by
  refine ⟨w, ch, r, w₁, .refl, hch, hx, ?_, ?_⟩
  · rw [hworker]
    exact hmeans.1
  · have hleft := hmeans.2
    omega

/-- **The world serves every effect** it has the means for, once the worker has given way. -/
theorem serves (env : Env) (hroom : 0 < env.settings.tigerbeetle.channelCapacity) :
    (alone env (fun _ => True) True).Serves Eff.cost Means := by
  intro e n w hmeans
  cases e with
  | now => exact serves_at_once hmeans ⟨.none, uuidOf⟩ rfl rfl rfl (Nat.lt_succ_self _)
  | redis cmd =>
      refine serves_at_once hmeans ⟨.none, uuidOf⟩ rfl rfl ?_ ?_
      · cases cmd <;> rfl
      · cases cmd <;> exact Nat.lt_succ_self _
  | kafka cmd =>
      refine serves_at_once hmeans ⟨.none, uuidOf⟩ rfl rfl ?_ ?_
      · cases cmd <;> rfl
      · cases cmd <;> exact Nat.lt_succ_self _
  | newV4 use =>
      have hleft : w.issued.length + 1 ≤ 2 ^ 128 := (by simp only [Eff.cost]; omega : _ ≤ _).trans hmeans.2
      obtain ⟨ch, hch, hfresh⟩ := exists_choice hleft
      have hx : w.exec env.settings.tigerbeetle.channelCapacity ch (.newV4 use) =
          some (ch.uuid 0, { w with issued := w.issued ++ [(ch.uuid 0, use)] }) :=
        if_pos (isFresh_iff.mpr hfresh)
      exact serves_at_once hmeans ch hch hx rfl (by simp [Eff.cost])
  | db call =>
      have hleft : w.issued.length + call.draws ≤ 2 ^ 128 :=
        (by simp [Eff.cost]; omega : _ ≤ _).trans hmeans.2
      obtain ⟨ch, hch, hfresh⟩ := exists_choice hleft
      obtain ⟨r, w₁, hx, hworker, hissued⟩ := dbExec_fresh hch hfresh
      exact serves_at_once hmeans ch hch hx hworker (Nat.lt_succ_of_le hissued)
  | tbSend request =>
      obtain ⟨w₁, hmoves, hhist, hissued, hidle⟩ := drained env (fun _ => True) True hmeans.1
      obtain ⟨r, w₂, hx⟩ := hidle.tbSend hroom request
      refine ⟨w₁, ⟨.none, uuidOf⟩, r, w₂, hmoves, rfl, hx, ?_⟩
      have hmeans₁ : Means n w₁ := ⟨hhist, by rw [hissued]; exact (hmeans.less (by omega)).2⟩
      rcases World.tbSend_cases hx with ⟨-, rfl⟩ | ⟨-, rfl⟩
      · exact hmeans₁
      · exact hmeans₁
  | tbRecv r =>
      obtain ⟨w₁, hmoves, hhist, hissued, hidle⟩ := drained env (fun _ => True) True hmeans.1
      obtain ⟨reply, hx⟩ := hidle.tbRecv r
      refine ⟨w₁, ⟨.none, uuidOf⟩, reply, w₁, hmoves, rfl, hx, hhist, ?_⟩
      rw [hissued]
      exact (hmeans.less (by omega)).2

end

section

variable {env : Env} {c : State}

theorem spent_ge (hist : History) : hist.length ≤ spent Eff.cost hist := by
  induction hist with
  | nil => exact Nat.le_refl _
  | cons ev hist ih =>
      have hone : 1 ≤ ev.eff.cost := by
        cases ev.eff with
        | db call => exact Nat.le_add_left 1 _
        | _ => exact Nat.le_add_left 1 _
      simp only [spent, List.map_cons, List.sum_cons, List.length_cons] at ih ⊢
      omega

theorem Reachable.affords (hc : Reachable env c) :
    ∀ t ∈ c.tasks, t.Affords Eff.cost Request.budget := by
  obtain ⟨now, hreach⟩ := hc
  exact hreach.affords (serve_within env) rfl

/-- **No request hangs.** A request never issues more effects than its budget, which is known
when it arrives. And in every reachable state, whatever failed, was cut off or restarted
before, all requests that are still served can be brought to their answers, by steps without
failures and the worker's own receiving and ticking; unless the UUIDs run out, or the channel
was configured without room. -/
theorem requests_complete (hc : Reachable env c)
    (hroom : 0 < env.settings.tigerbeetle.channelCapacity)
    (hleft : c.world.issued.length + (c.tasks.map (fun t => t.req.budget)).sum ≤ 2 ^ 128) :
    (∀ t ∈ c.tasks, t.hist.length ≤ t.req.budget) ∧
    ∃ c', (machine env).Reach (fun _ l => (alone env (fun _ => True) True).GoesOn l) c c' ∧
      List.Forall₂ Setting.Finishes c.tasks c'.tasks := by
  refine ⟨fun t ht => (spent_ge t.hist).trans (hc.affords t ht).1, ?_⟩
  have hneed : ∀ t ∈ c.tasks, ∀ p, t.rest = some p → p.Within Eff.cost t.req.budget :=
    fun t ht p hp => ((hc.affords t ht).2 p hp).mono (Nat.sub_le _ _)
  exact Setting.finish_all (serves env hroom) (fun n n' w hle h => h.less hle) hneed
    ⟨hc.inv.worker.history, hleft⟩

end

/-- A credit that waits for the ledger and a balance request that has just come, when the
worker ends. -/
def workerEnded : State :=
  let sent := serveAlone defaultEnv oneUser.tasks.length 4
    (arrived defaultEnv oneUser (.creditUser ⟨1002⟩ ⟨1008⟩ ⟨⟨7⟩, 500, none⟩))
  let asked := arrived defaultEnv sent (.getUserBalance ⟨1008⟩)
  { asked with world := { asked.world with alive := false, queue := [] } }

theorem workerEnded_reachable : Reachable defaultEnv workerEnded := by
  have hsent : Reachable defaultEnv (serveAlone defaultEnv oneUser.tasks.length 4
      (arrived defaultEnv oneUser (.creditUser ⟨1002⟩ ⟨1008⟩ ⟨⟨7⟩, 500, none⟩))) :=
    (arrived_reachable oneUser_reachable _).extend (serveAlone_reach _ _ _ _)
  exact ((arrived_reachable hsent (.getUserBalance ⟨1008⟩)).step (l := .env .stop) rfl).1

/-- Both are answered all the same. -/
theorem requests_complete_workerEnded :
    (workerEnded.tasks.map Task.answer?).count none = 2 ∧ workerEnded.world.queue = [] ∧
    ∃ c', (machine defaultEnv).Reach
        (fun _ l => (alone defaultEnv (fun _ => True) True).GoesOn l) workerEnded c' ∧
      List.Forall₂ Setting.Finishes workerEnded.tasks c'.tasks := by
  have hstate : (workerEnded.tasks.map Task.answer?).count none = 2 ∧
      workerEnded.world.queue = [] ∧ 0 < defaultEnv.settings.tigerbeetle.channelCapacity ∧
      workerEnded.world.issued.length + (workerEnded.tasks.map (fun t => t.req.budget)).sum ≤
        2 ^ 128 := by
    decide +kernel
  obtain ⟨hopen, hqueue, hroom, hleft⟩ := hstate
  exact ⟨hopen, hqueue, (requests_complete workerEnded_reachable hroom hleft).2⟩

end Wurzburg.System
