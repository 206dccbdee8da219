import Wurzburg.Db.PrioritySpec
import Wurzburg.System.Journal

/-!
# Wurzburg.System.PriorityCache

The Redis key of a user's active priority against the configuration in force in
PostgreSQL, under any interleaving of the requests that change either.

The two are written at different moments, so in between they may differ; what
holds all along is that some request is still going to repair a difference
(`Synced`). Three acts can break that: a `SET` of a configuration that is no
longer in force, a `DEL` after a cancellation when another configuration is in
force again, and a refused `create_priority_config` that leaves a value behind.
Runs without them leave the key in agreement (`cache_agrees`).
-/

namespace Wurzburg.System

open Wurzburg.Lib Wurzburg.Db Wurzburg.Tb Wurzburg.Api

/-! ### Agreement -/

/-- The key holds a value exactly when a configuration is in force, and then the
serialization of that configuration with its items. -/
def CacheAgrees (env : Env) (u : Uuid) (w : World) : Prop :=
  (w.redisGet (priorityKey u)).map RedisValue.value = (w.pg.activeDetails? u).map env.priorityToJson

/-- The requests of a user that change its priorities. -/
def Request.changesPriority (u : Uuid) : Request → Prop
  | .createUserPriority userId _ _ => userId = u
  | .cancelActiveUserPriority userId => userId = u
  | .debitUser _ userId _ => userId = u
  | _ => False

def Request.createsPriority : Request → Bool
  | .createUserPriority .. => true
  | _ => false

/-- From position `n` on, only requests that change the priorities of the user
arrive and run; nothing fails, and no key expires. -/
def PriorityTraffic (n : Nat) (u : Uuid) (l : Act) : Prop :=
  Together n (Request.changesPriority u) l ∧ ∀ key, l ≠ .env (.expire key)

/-- The effect keeps the key in step: a value that is set is that of the
configuration in force; after a cancellation the key is deleted only while none
is in force; and `create_priority_config` is refused only while the key is empty
or a configuration is in force. -/
def InStep (env : Env) (u : Uuid) (w : World) (ch : Choice) (q : Request) : Eff → Prop
  | .redis (.set _ value _) => (w.pg.activeDetails? u).map env.priorityToJson = some value
  | .redis (.del _) => q.createsPriority ∨ w.pg.activeDetails? u = none
  | .db (.createPriorityConfig key userId items expiresAt actor) =>
      (((createPriorityConfig key userId items expiresAt actor).transact w.pg w.dbNow
        ch.uuid).1.toOption = none →
        w.redisGet (priorityKey u) = none ∨ w.pg.activeDetails? u ≠ none)
  | _ => True

/-- The act keeps the key in step. -/
def StaysInStep (env : Env) (u : Uuid) (c : State) : Act → Prop
  | .step i ch => ∀ q hist e k, c.tasks[i]? = some ⟨q, hist, some (.call e k)⟩ →
      InStep env u c.world ch q e
  | _ => True

/-! ### What a request is going to do -/

section

variable (env : Env) (u : Uuid)

/-- Next the key is deleted. -/
inductive WillDel : Io Answer → Prop
  | del {k} : WillDel (.call (.redis (.del (priorityKey u))) k)
  | acquire {k : Except String Unit → Io Answer} : WillDel (k (.ok ())) →
      WillDel (.call (.redis .acquire) k)

/-- Next the key is set to this configuration. -/
inductive WillSet (d : UserPriorityDetails) : Io Answer → Prop
  | set {ex k} : WillSet d (.call (.redis (.set (priorityKey u) (env.priorityToJson d) ex)) k)
  | now {k : Timestamp → Io Answer} : (∀ t, WillSet d (k t)) → WillSet d (.call .now k)

/-- Next a configuration is created, and then the key is set to it. -/
inductive WillCreate : Io Answer → Prop
  | create {key items expiresAt actor}
      {k : Except RepoError UserPriorityDetails → Io Answer} :
      (∀ d, WillSet env u d (k (.ok d))) →
      WillCreate (.call (.db (.createPriorityConfig key u items expiresAt actor)) k)

/-- Next a configuration in force is cancelled, to create another one. -/
inductive WillReplace : Io Answer → Prop
  | cancel {actor} {k : Except RepoError (Option UserPriorityDetails) → Io Answer} :
      (∀ d, WillCreate env u (k (.ok d))) →
      WillReplace (.call (.db (.cancelActivePriorityConfig u actor)) k)
  | look {k : Except RepoError (Option UserPriorityDetails) → Io Answer} :
      (∀ d, WillReplace (k (.ok (some d)))) →
      WillReplace (.call (.db (.getActivePriorityConfig u)) k)

/-- Effects that touch neither the priorities nor the key. -/
def Eff.sparesPriorities : Eff → Prop
  | .db (.createProvider ..) | .db (.createOrLinkUser ..) | .db (.recordSystemAccount ..) => False
  | .db (.createPriorityConfig ..) | .db (.cancelActivePriorityConfig ..) => False
  | .redis (.del _) | .redis (.set ..) => False
  | _ => True

/-- What the requests of the user do, and what they do next: after a `DEL` a
creating request replaces the configuration in force; whoever cancels goes on to
delete the key or to create; whoever creates goes on to set the key. -/
def priorityLaw (creates : Prop) : (e : Eff) → (e.Resp → Io Answer) → Prop
  | .redis (.del key), k => key = priorityKey u ∧ (creates → WillReplace env u (k (.ok ())))
  | .redis (.set key _ _), _ => key = priorityKey u
  | .db (.cancelActivePriorityConfig userId _), k =>
      userId = u ∧ ∀ d, WillDel u (k (.ok (some d))) ∨ WillCreate env u (k (.ok (some d)))
  | .db (.createPriorityConfig _ userId _ _ _), k =>
      userId = u ∧ ∀ d, WillSet env u d (k (.ok d))
  | e, _ => e.sparesPriorities

end

section

variable {env : Env} {u : Uuid} {creates : Prop}

theorem Eff.isRead.sparesPriorities {e : Eff} (h : e.isRead) : e.sparesPriorities := by
  cases e with
  | db call => cases call <;> first | exact h.elim | trivial
  | redis cmd => cases cmd <;> first | exact h.elim | trivial
  | _ => trivial

theorem Eff.sparesPriorities.lawful {e : Eff} (h : e.sparesPriorities) (k : e.Resp → Io Answer) :
    priorityLaw env u creates e k := by
  cases e with
  | db call => cases call <;> first | exact h.elim | exact h
  | redis cmd => cases cmd <;> first | exact h.elim | exact h
  | _ => exact h

/-! ### The requests are lawful -/

theorem cancelActiveUserPriority_lawful (hc : ¬ creates)
    {g : Except HttpError (StatusCode × PriorityConfigResponse) → Answer} :
    Prog.ObeysE (priorityLaw env u creates) g (cancelActiveUserPriority u) := by
  -- a cancellation that found a configuration goes on to delete the key
  refine ⟨⟨rfl, fun d => Or.inl (.acquire .del)⟩, fun r => ?_⟩
  cases r with
  | error e => trivial
  | ok found =>
      cases found with
      | none => trivial
      | some d =>
          refine ⟨trivial, fun r => ?_⟩
          cases r with
          | error e => trivial
          | ok _ =>
              refine ⟨⟨rfl, fun h => absurd h hc⟩, fun r => ?_⟩
              cases r with
              | error e => trivial
              | ok _ => trivial

theorem admission_uses (p u : Uuid) (payload : TransferRequest) :
    Prog.UsesE Eff.isRead (admission p u payload) := by
  refine .bind (db_uses trivial) (fun found => .bind orElse_uses (fun ud => ?_))
  refine .bind (tryDb_uses trivial) (fun known => ?_)
  split
  · exact .pure _
  · exact .bind (db_uses trivial) (fun found => .bind orElse_uses (fun pd => .pure _))

theorem settle_uses (d : Direction) (p : Uuid) (payload : TransferRequest)
    (ud : UserProviderDetails) (pd : Provider) :
    Prog.UsesE Eff.sparesPriorities (settle env d p u payload ud pd) := by
  refine .bind (orFail_uses (submit_uses trivial (fun _ => trivial))) (fun rs => ?_)
  split
  · have hrecord : Prog.UsesE Eff.sparesPriorities
        (recordTransfer d p u payload pd.ledgerAccountId ud.userLedgerAccountId) := by
      cases d <;> exact db_uses trivial
    exact .bind hrecord (fun row => .bind (orFail_uses (submit_uses trivial (fun _ => trivial)))
      (fun _ => .pure _))
  · exact .throw _

theorem cancelPriorityNaming_lawful (hc : ¬ creates) {β : Type} {p : Uuid} {f : Unit → Handler β}
    {g : Except HttpError β → Answer} (hf : Prog.ObeysE (priorityLaw env u creates) g (f ())) :
    Prog.ObeysE (priorityLaw env u creates) g (cancelPriorityNaming p u >>= f) := by
  refine ⟨trivial, fun r => ?_⟩
  cases r with
  | error e => trivial
  | ok found =>
      cases found with
      | none => exact hf
      | some active =>
          by_cases hnames : active.items.any (fun item => item.providerId = p) = true
          · show Prog.ObeysE _ g ((if _ then _ else _) >>= f)
            rw [if_pos hnames]
            refine ⟨⟨rfl, fun d => Or.inl (.acquire .del)⟩, fun r => ?_⟩
            cases r with
            | error e => trivial
            | ok _ =>
                refine ⟨trivial, fun r => ?_⟩
                cases r with
                | error e => exact hf
                | ok _ => exact ⟨⟨rfl, fun h => absurd h hc⟩, fun _ => hf⟩
          · show Prog.ObeysE _ g ((if _ then _ else _) >>= f)
            rw [if_neg hnames]
            exact hf

theorem debitUser_lawful (hc : ¬ creates) {p : Uuid} {payload : TransferRequest}
    {g : Except HttpError (StatusCode × TransactionResponse) → Answer} :
    Prog.ObeysE (priorityLaw env u creates) g (debitUser env p u payload) := by
  refine (admission_uses p u payload).obeys_bind (fun e k h => h.sparesPriorities.lawful k) ?_
  intro a
  cases a with
  | answered response => trivial
  | admitted ud pd =>
      exact cancelPriorityNaming_lawful hc ((settle_uses ..).obeys (fun e k h => h.lawful k))

theorem publishPriority_willCreate {key : String} {resolved : List ResolvedItem}
    {expiresAt : Option Timestamp}
    {g : Except HttpError (StatusCode × PriorityConfigResponse) → Answer} :
    WillCreate env u ((publishPriority env u key resolved expiresAt).run.map g) := by
  refine .create (fun d => ?_)
  cases expiresAt with
  | none => exact .set
  | some t => exact .now (fun _ => .set)

theorem publishPriority_lawful {key : String} {resolved : List ResolvedItem}
    {expiresAt : Option Timestamp}
    {g : Except HttpError (StatusCode × PriorityConfigResponse) → Answer} :
    Prog.ObeysE (priorityLaw env u creates) g (publishPriority env u key resolved expiresAt) := by
  refine ⟨⟨rfl, fun d => ?_⟩, fun r => ?_⟩
  · cases expiresAt with
    | none => exact .set
    | some t => exact .now (fun _ => .set)
  · cases r with
    | error e => trivial
    | ok d =>
        have hset : ∀ at_ : Timestamp, Prog.ObeysE (priorityLaw env u creates) g
            (redis (.set (priorityKey u) (env.priorityToJson d) (ttlSeconds expiresAt at_)) >>=
              fun _ => pure (StatusCode.created,
                ({ data := d, status := .created } : PriorityConfigResponse))) := by
          intro at_
          refine ⟨rfl, fun r => ?_⟩
          cases r with
          | error e => trivial
          | ok _ => trivial
        exact (ttlNow_uses expiresAt).obeys_bind (fun e k h => h.sparesPriorities.lawful k) hset

theorem replacePriority_lawful {key : String} {resolved : List ResolvedItem}
    {expiresAt : Option Timestamp}
    {g : Except HttpError (StatusCode × PriorityConfigResponse) → Answer} :
    Prog.ObeysE (priorityLaw env u creates) g (replacePriority env u key resolved expiresAt) := by
  refine ⟨trivial, fun r => ?_⟩
  cases r with
  | error e => trivial
  | ok _ =>
      refine ⟨⟨rfl, fun _ => ?_⟩, fun r => ?_⟩
      · exact .look (fun d => .cancel (fun r => publishPriority_willCreate))
      · cases r with
        | error e => trivial
        | ok _ =>
            refine ⟨trivial, fun r => ?_⟩
            cases r with
            | error e => trivial
            | ok found =>
                cases found with
                | none => exact publishPriority_lawful
                | some d =>
                    refine ⟨⟨rfl, fun d => Or.inr publishPriority_willCreate⟩, fun r => ?_⟩
                    cases r with
                    | error e => trivial
                    | ok _ => exact publishPriority_lawful

/-- A law that binds no reading effect is obeyed by a creation when the replacement obeys it. -/
theorem createUserPriority_obeys {law : (e : Eff) → (e.Resp → Prog Eff Eff.Resp Answer) → Prop}
    {header : Option String} {payload : CreatePriorityRequest}
    {g : Except HttpError (StatusCode × PriorityConfigResponse) → Answer}
    (hread : ∀ e k, Eff.isRead e → law e k)
    (hreplace : ∀ key resolved,
      Prog.ObeysE law g (replacePriority env u key resolved payload.expiresAt)) :
    Prog.ObeysE law g (createUserPriority env u header payload) := by
  unfold createUserPriority
  split
  · trivial
  · have hheader : Prog.UsesE Eff.isRead (orElse
        (StatusCode.badRequest, "Missing or invalid Idempotency-Key header") (usableKey header)) :=
      orElse_uses
    refine hheader.obeys_bind hread (fun key => ?_)
    have hknown : Prog.UsesE Eff.isRead (tryDb (.getPriorityConfigByIdempotencyKey key)) :=
      tryDb_uses trivial
    refine hknown.obeys_bind hread (fun known => ?_)
    split
    · trivial
    · exact (checkItems_uses ..).obeys_bind hread (fun resolved => hreplace key resolved)

theorem createUserPriority_lawful {header : Option String} {payload : CreatePriorityRequest}
    {g : Except HttpError (StatusCode × PriorityConfigResponse) → Answer} :
    Prog.ObeysE (priorityLaw env u creates) g (createUserPriority env u header payload) :=
  createUserPriority_obeys (fun _ k h => h.sparesPriorities.lawful k)
    (fun _ _ => replacePriority_lawful)

/-- **The requests of the user are lawful.** -/
theorem serve_lawful {q : Request} (hq : q.changesPriority u) :
    (serve env q).Obeys (priorityLaw env u q.createsPriority) := by
  cases q with
  | createUserPriority userId header payload =>
      obtain rfl : userId = u := hq
      exact createUserPriority_lawful
  | cancelActiveUserPriority userId =>
      obtain rfl : userId = u := hq
      exact cancelActiveUserPriority_lawful Bool.false_ne_true
  | debitUser p userId payload =>
      obtain rfl : userId = u := hq
      exact debitUser_lawful Bool.false_ne_true
  | _ => exact hq.elim

/-! ### What the effects do -/

variable {w w' : World} {ch : Choice} {capacity : Nat}

theorem spares_transact {call : DbCall} {pg pg' : Pg} {now : Timestamp} {uuid : Nat → Uuid}
    {r : Except RepoError call.Row} {n : Nat} (hcall : (Eff.db call).sparesPriorities)
    (h : call.body.transact pg now uuid = (r, pg', n)) : Pg.SamePriorities pg pg' := by
  have reads : ∀ {α : Type} {x : Repo α} {r : Except RepoError α}, x.Uses Sql.isRead →
      x.transact pg now uuid = (r, pg', n) → Pg.SamePriorities pg pg' := by
    intro α x r hx h
    rw [Repo.transact_reads hx] at h
    obtain ⟨-, h⟩ := Prod.mk.inj h
    obtain ⟨rfl, -⟩ := Prod.mk.inj h
    exact .refl _
  cases call with
  | executeCreditTransfer key amount p u pl ul actor description =>
      rcases executeTransfer_spec h with ⟨-, ⟨e, -, rfl⟩ | ⟨new, -, -, -, rfl⟩⟩
      · exact .refl _
      · exact ⟨rfl, rfl, rfl⟩
  | executeDebitTransfer key amount p u pl ul actor description =>
      rcases executeTransfer_spec h with ⟨-, ⟨e, -, rfl⟩ | ⟨new, -, -, -, rfl⟩⟩
      · exact .refl _
      · exact ⟨rfl, rfl, rfl⟩
  | getProviderById id => exact reads (x := getProviderById id) (Repo.uses_query trivial) h
  | getUserProviderDetails u p =>
      exact reads (x := getUserProviderDetails u p) (Repo.uses_query trivial) h
  | getUserAccountsProviderInfo u =>
      exact reads (x := getUserAccountsProviderInfo u) (Repo.uses_query trivial) h
  | getTransactionByIdempotencyKey key =>
      exact reads (x := getTransactionByIdempotencyKey key) (Repo.uses_query trivial) h
  | getPriorityConfigByIdempotencyKey key =>
      exact reads (getPriorityConfigByIdempotencyKey_reads key) h
  | getActivePriorityConfig u => exact reads (getActivePriorityConfig_reads u) h
  | getAllPriorityConfigs u => exact reads (getAllPriorityConfigs_reads u) h
  | _ => exact hcall.elim

theorem Eff.sparesPriorities.exec {e : Eff} {r : e.Resp} (h : e.sparesPriorities)
    (hdb : ∀ call, e = .db call → ch.fault = .none) (hx : w.exec capacity ch e = some (r, w')) :
    Pg.SamePriorities w.pg w'.pg ∧ w'.redis = w.redis := by
  have faulty : ∀ {apply : World → World} {out : Except String Unit × World},
      (apply w).pg = w.pg ∧ (apply w).redis = w.redis → w.faulty ch.fault apply = out →
      Pg.SamePriorities w.pg out.2.pg ∧ out.2.redis = w.redis := by
    intro apply out ⟨hpg, hredis⟩ hout
    have hsame : Pg.SamePriorities w.pg (apply w).pg := hpg ▸ .refl _
    subst hout
    unfold World.faulty
    split
    · exact ⟨hsame, hredis⟩
    · split
      · exact ⟨hsame, hredis⟩
      · exact ⟨.refl _, rfl⟩
  cases e with
  | now =>
      obtain ⟨-, rfl⟩ := Prod.mk.inj (Option.some.inj hx)
      exact ⟨.refl _, rfl⟩
  | newV4 use =>
      simp only [World.exec] at hx
      split at hx
      · obtain ⟨-, rfl⟩ := Prod.mk.inj (Option.some.inj hx)
        exact ⟨.refl _, rfl⟩
      · cases hx
  | db call =>
      obtain ⟨n, htx, hw⟩ := dbExec_ok (hdb call rfl) hx
      refine ⟨spares_transact h htx, ?_⟩
      rw [hw]
  | redis cmd =>
      cases cmd with
      | acquire => exact faulty ⟨rfl, rfl⟩ (Option.some.inj hx)
      | del key => exact h.elim
      | set key value ex => exact h.elim
  | kafka cmd => cases cmd <;> exact faulty ⟨rfl, rfl⟩ (Option.some.inj hx)
  | tbSend request =>
      rcases World.tbSend_cases hx with ⟨-, rfl⟩ | ⟨-, rfl⟩
      · exact ⟨.refl _, rfl⟩
      · exact ⟨.refl _, rfl⟩
  | tbRecv i =>
      obtain ⟨rfl, -⟩ := World.tbRecv_cases hx
      exact ⟨.refl _, rfl⟩

/-- So does every move of the world but the expiry of a key. -/
theorem World.move_sparesPriorities {tb : TigerBeetle} {n : Nat} {v : Move}
    (hm : w.move tb n v = some w') (hv : ∀ key, v ≠ .expire key) :
    w'.pg = w.pg ∧ w'.redis = w.redis := by
  cases v with
  | receive o =>
      obtain ⟨cmd, rest, -, rfl⟩ := World.receive_cases hm
      exact ⟨rfl, rfl⟩
  | tick o =>
      simp only [World.move] at hm
      split at hm
      · obtain rfl := Option.some.inj hm
        exact ⟨rfl, rfl⟩
      · cases hm
  | stop =>
      obtain rfl := Option.some.inj hm
      exact ⟨rfl, rfl⟩
  | restart =>
      obtain rfl := Option.some.inj hm
      exact ⟨rfl, rfl⟩
  | clock app db =>
      obtain rfl := Option.some.inj hm
      exact ⟨rfl, rfl⟩
  | expire key => exact absurd rfl (hv key)

theorem redisGet_congr (h : w'.redis = w.redis) (key : String) :
    w'.redisGet key = w.redisGet key := by
  unfold World.redisGet
  rw [h]

end

/-! ### Some request repairs every difference -/

/-- Some request from position `n` on is about to do this. -/
def Pending (n : Nat) (P : Io Answer → Prop) (c : State) : Prop :=
  ∃ i q hist p, n ≤ i ∧ c.tasks[i]? = some ⟨q, hist, some p⟩ ∧ P p

/-- The key holds the serialization of the configuration in force, or a request
is going to set it or to replace the configuration; and it is empty while none
is in force, or a request is going to delete it or to create one. -/
structure Synced (env : Env) (u : Uuid) (n : Nat) (c : State) : Prop where
  lawful : From n (fun _ t => ∃ p, t.rest = some p ∧
    p.Obeys (priorityLaw env u t.req.createsPriority)) c.tasks
  inForce : ∀ d, c.world.pg.activeDetails? u = some d →
    (c.world.redisGet (priorityKey u)).map RedisValue.value = some (env.priorityToJson d) ∨
      Pending n (WillSet env u d) c ∨ Pending n (WillReplace env u) c
  notInForce : c.world.pg.activeDetails? u = none →
    c.world.redisGet (priorityKey u) = none ∨
      Pending n (WillDel u) c ∨ Pending n (WillCreate env u) c

section

variable {env : Env} {u : Uuid} {n i : Nat} {c c' : State} {w : World} {P : Io Answer → Prop}
  {q : Request} {hist : History} {e : Eff} {k : e.Resp → Io Answer} {r : e.Resp} {ch : Choice}

theorem Pending.arrive (h : Pending n P c) (t : Serving) :
    Pending n P { c with tasks := c.tasks ++ [t] } := by
  obtain ⟨j, q, hist, p, hj, ht, hp⟩ := h
  refine ⟨j, q, hist, p, hj, ?_, hp⟩
  rw [← ht]
  exact List.getElem?_append_left (List.getElem?_eq_some_iff.mp ht).1

/-- A task goes one step on the way to what it is about to do. -/
theorem Pending.step {t : Serving} (h : Pending n P c)
    (ht : c.tasks[i]? = some ⟨q, hist, some (.call e k)⟩) (hrest : t.rest = some (k r))
    (hnext : P (.call e k) → P (k r)) :
    Pending n P { world := w, tasks := c.tasks.set i t } := by
  obtain ⟨j, q', hist', p, hj, ht', hp⟩ := h
  by_cases hij : i = j
  · subst hij
    rw [ht] at ht'
    obtain ⟨-, -, hp'⟩ := Task.mk.inj (Option.some.inj ht')
    obtain rfl := Option.some.inj hp'
    refine ⟨i, t.req, t.hist, k r, hj, ?_, hnext hp⟩
    rw [← hrest]
    exact List.getElem?_set_self (List.getElem?_eq_some_iff.mp ht).1
  · refine ⟨j, q', hist', p, hj, ?_, hp⟩
    rw [← ht']
    exact List.getElem?_set_ne hij

theorem Pending.here {t : Serving} {p : Io Answer} (hi : n ≤ i) (hlt : i < c.tasks.length)
    (hrest : t.rest = some p) (hp : P p) :
    Pending n P { world := w, tasks := c.tasks.set i t } := by
  refine ⟨i, t.req, t.hist, p, hi, ?_, hp⟩
  rw [← hrest]
  exact List.getElem?_set_self hlt

/-- One effect: whatever is in force after it is in the key, is about to be set
or replaced by the task itself, or was in force before with the task no nearer
to it; and likewise when nothing is in force. -/
theorem Synced.next (h : Synced env u n c) (hi : n ≤ i)
    (ht : c.tasks[i]? = some ⟨q, hist, some (.call e k)⟩)
    (hforce : ∀ d, w.pg.activeDetails? u = some d →
      (w.redisGet (priorityKey u)).map RedisValue.value = some (env.priorityToJson d) ∨
      WillSet env u d (k r) ∨ WillReplace env u (k r) ∨
      c.world.pg.activeDetails? u = some d ∧
        w.redisGet (priorityKey u) = c.world.redisGet (priorityKey u) ∧
        (WillSet env u d (.call e k) → WillSet env u d (k r)) ∧
        (WillReplace env u (.call e k) → WillReplace env u (k r)))
    (hidle : w.pg.activeDetails? u = none →
      w.redisGet (priorityKey u) = none ∨ WillDel u (k r) ∨ WillCreate env u (k r) ∨
      c.world.pg.activeDetails? u = none ∧
        w.redisGet (priorityKey u) = c.world.redisGet (priorityKey u) ∧
        (WillDel u (.call e k) → WillDel u (k r)) ∧
        (WillCreate env u (.call e k) → WillCreate env u (k r))) :
    Synced env u n
      { world := w, tasks := c.tasks.set i ⟨q, hist ++ [⟨e, r⟩], some (k r)⟩ } := by
  have hlt : i < c.tasks.length := (List.getElem?_eq_some_iff.mp ht).1
  refine ⟨?_, fun d hd => ?_, fun hnone => ?_⟩
  · obtain ⟨p, hp, hobeys⟩ := h.lawful i _ hi ht
    obtain rfl := Option.some.inj hp
    exact h.lawful.set ⟨k r, rfl, hobeys.2 r⟩ (fun _ _ _ h => h)
  · rcases hforce d hd with hval | hset | hrep | ⟨hold, hsame, hset, hrep⟩
    · exact Or.inl hval
    · exact Or.inr (Or.inl (.here hi hlt rfl hset))
    · exact Or.inr (Or.inr (.here hi hlt rfl hrep))
    · rcases h.inForce d hold with hval | hp | hp
      · refine Or.inl ?_
        rw [← hsame] at hval
        exact hval
      · exact Or.inr (Or.inl (hp.step ht rfl hset))
      · exact Or.inr (Or.inr (hp.step ht rfl hrep))
  · rcases hidle hnone with hval | hdel | hcreate | ⟨hold, hsame, hdel, hcreate⟩
    · exact Or.inl hval
    · exact Or.inr (Or.inl (.here hi hlt rfl hdel))
    · exact Or.inr (Or.inr (.here hi hlt rfl hcreate))
    · rcases h.notInForce hold with hval | hp | hp
      · refine Or.inl ?_
        rw [← hsame] at hval
        exact hval
      · exact Or.inr (Or.inl (hp.step ht rfl hdel))
      · exact Or.inr (Or.inr (hp.step ht rfl hcreate))

/-- An effect that spares the priorities. -/
theorem Synced.spares {capacity : Nat} (h : Synced env u n c) (hi : n ≤ i)
    (ht : c.tasks[i]? = some ⟨q, hist, some (.call e k)⟩) (he : e.sparesPriorities)
    (hch : ch.fault = .none) (hx : c.world.exec capacity ch e = some (r, w)) :
    Synced env u n
      { world := w, tasks := c.tasks.set i ⟨q, hist ++ [⟨e, r⟩], some (k r)⟩ } := by
  obtain ⟨hsame, hredis⟩ := he.exec (fun _ _ => hch) hx
  have hactive : w.pg.activeDetails? u = c.world.pg.activeDetails? u := hsame.activeDetails? u
  have hkey := redisGet_congr hredis (priorityKey u)
  refine h.next hi ht (fun d hd => ?_) (fun hnone => ?_)
  · rw [hactive] at hd
    refine Or.inr (Or.inr (Or.inr ⟨hd, hkey, fun hset => ?_, fun hrep => ?_⟩))
    · cases hset with
      | set => exact he.elim
      | now hk => exact hk r
    · cases hrep with
      | cancel hk => exact he.elim
      | look hk =>
          -- the configuration in force is what it reads
          obtain ⟨m, htx, -⟩ := dbExec_ok hch hx
          have hread : ((Except.ok (c.world.pg.activeDetails? u), c.world.pg, 0) :
              Except RepoError (Option UserPriorityDetails) × Pg × Nat) = (r, w.pg, m) :=
            (getActivePriorityConfig_transact u _ _ _).symm.trans htx
          obtain ⟨hr, -⟩ := Prod.mk.inj hread
          rw [← hr, hd]
          exact hk d
  · rw [hactive] at hnone
    refine Or.inr (Or.inr (Or.inr ⟨hnone, hkey, fun hdel => ?_, fun hcreate => ?_⟩))
    · cases hdel with
      | del => exact he.elim
      | acquire hk =>
          have hx : some (c.world.faulty ch.fault (·.redisApply .acquire)) = some (r, w) := hx
          rw [hch] at hx
          obtain ⟨hr, -⟩ := Prod.mk.inj (Option.some.inj hx)
          rw [← hr]
          exact hk
    · cases hcreate with
      | create hk => exact he.elim

/-- A Redis command: the key holds what is in force, or is deleted before a replacement. -/
theorem Synced.redis {capacity : Nat} {cmd : RedisCmd} {k : (Eff.redis cmd).Resp → Io Answer}
    {r : (Eff.redis cmd).Resp} (h : Synced env u n c) (hi : n ≤ i)
    (ht : c.tasks[i]? = some ⟨q, hist, some (.call (.redis cmd) k)⟩)
    (hlaw : priorityLaw env u q.createsPriority (.redis cmd) k)
    (hin : InStep env u c.world ch q (.redis cmd)) (hch : ch.fault = .none)
    (hx : c.world.exec capacity ch (.redis cmd) = some (r, w)) :
    Synced env u n
      { world := w, tasks := c.tasks.set i ⟨q, hist ++ [⟨.redis cmd, r⟩], some (k r)⟩ } := by
  have hx' : some (c.world.faulty ch.fault (·.redisApply cmd)) = some (r, w) := hx
  rw [hch] at hx'
  obtain ⟨hr, hw⟩ := Prod.mk.inj (Option.some.inj hx')
  cases cmd with
  | acquire => exact h.spares hi ht trivial hch hx
  | del key =>
      obtain ⟨rfl, hreplace⟩ := hlaw
      have hempty : w.redisGet (priorityKey u) = none := by
        rw [← hw]
        exact World.redisGet_redisDel ..
      refine h.next hi ht (fun d hd => ?_) (fun _ => Or.inl hempty)
      -- a creation goes on to replace what is in force; a cancellation found nothing in force
      rcases hin with hcreates | hnone
      · rw [← hr]
        exact Or.inr (Or.inr (Or.inl (hreplace hcreates)))
      · rw [← hw] at hd
        exact absurd (hnone.symm.trans hd) (by simp)
  | set key value ex =>
      obtain rfl : key = priorityKey u := hlaw
      have hin : (c.world.pg.activeDetails? u).map env.priorityToJson = some value := hin
      have hactive : w.pg.activeDetails? u = c.world.pg.activeDetails? u := by
        rw [← hw]
        rfl
      refine h.next hi ht (fun d hd => Or.inl ?_) (fun hnone => ?_)
      · rw [← hactive, hd] at hin
        rw [← hw]
        show ((c.world.redisSet _ _).redisGet _).map _ = _
        rw [World.redisGet_redisSet]
        exact hin.symm
      · rw [← hactive, hnone] at hin
        cases hin

/-- A cancellation: nothing is in force after it, and the request goes on to delete the key
or to create. -/
theorem Synced.cancel {capacity : Nat} {userId actor : Uuid}
    {k : (Eff.db (.cancelActivePriorityConfig userId actor)).Resp → Io Answer}
    {r : (Eff.db (.cancelActivePriorityConfig userId actor)).Resp} (h : Synced env u n c)
    (hi : n ≤ i) (ht : c.tasks[i]? =
      some ⟨q, hist, some (.call (.db (.cancelActivePriorityConfig userId actor)) k)⟩)
    (hlaw : priorityLaw env u q.createsPriority (.db (.cancelActivePriorityConfig userId actor)) k)
    (hch : ch.fault = .none)
    (hx : c.world.exec capacity ch (.db (.cancelActivePriorityConfig userId actor)) =
      some (r, w)) :
    Synced env u n
      { world := w
        tasks := c.tasks.set i
          ⟨q, hist ++ [⟨.db (.cancelActivePriorityConfig userId actor), r⟩], some (k r)⟩ } := by
  obtain ⟨m, htx, hw⟩ := dbExec_ok hch hx
  have hkey : w.redisGet (priorityKey u) = c.world.redisGet (priorityKey u) :=
    redisGet_congr (by rw [hw]) _
  obtain ⟨rfl, hnext⟩ := hlaw
  have hcancel := (cancelActivePriorityConfig_transact userId actor c.world.pg
    c.world.dbNow ch.uuid).symm.trans htx
  obtain ⟨hr, hpg⟩ := Prod.mk.inj hcancel
  have hnone : w.pg.activeDetails? userId = none := by
    rw [← (Prod.mk.inj hpg).1]
    exact Pg.activeDetails?_cancelActive ..
  refine h.next hi ht (fun d hd => ?_) (fun _ => ?_)
  · rw [hnone] at hd
    cases hd
  · cases hcurrent : c.world.pg.configs.filter (Pg.isCurrent userId) with
    | nil =>
        -- there was nothing to cancel, and the task was not about to delete or create
        refine Or.inr (Or.inr (Or.inr ⟨Pg.activeDetails?_eq_none.mpr hcurrent, hkey, ?_, ?_⟩))
        · intro hdel
          cases hdel
        · intro hcreate
          cases hcreate
    | cons config configs =>
        rw [hcurrent] at hr
        rw [← hr]
        rcases hnext ⟨config.cancel c.world.dbNow, c.world.pg.itemsOf config.id⟩ with hd | hc
        · exact Or.inr (Or.inl hd)
        · exact Or.inr (Or.inr (Or.inl hc))

/-- A creation: the request goes on to set what it created; where it is refused, the tables
are as they were, and the key was empty or something is in force. -/
theorem Synced.create {capacity : Nat} {key : String} {userId actor : Uuid}
    {items : List PriorityItemData} {expiresAt : Option Timestamp}
    {k : (Eff.db (.createPriorityConfig key userId items expiresAt actor)).Resp → Io Answer}
    {r : (Eff.db (.createPriorityConfig key userId items expiresAt actor)).Resp}
    (h : Synced env u n c) (hi : n ≤ i) (ht : c.tasks[i]? = some
      ⟨q, hist, some (.call (.db (.createPriorityConfig key userId items expiresAt actor)) k)⟩)
    (hlaw : priorityLaw env u q.createsPriority
      (.db (.createPriorityConfig key userId items expiresAt actor)) k)
    (hin : InStep env u c.world ch q (.db (.createPriorityConfig key userId items expiresAt actor)))
    (hch : ch.fault = .none)
    (hx : c.world.exec capacity ch (.db (.createPriorityConfig key userId items expiresAt actor)) =
      some (r, w)) :
    Synced env u n
      { world := w
        tasks := c.tasks.set i
          ⟨q, hist ++ [⟨.db (.createPriorityConfig key userId items expiresAt actor), r⟩],
            some (k r)⟩ } := by
  obtain ⟨m, htx, hw⟩ := dbExec_ok hch hx
  have hkey : w.redisGet (priorityKey u) = c.world.redisGet (priorityKey u) :=
    redisGet_congr (by rw [hw]) _
  obtain ⟨rfl, hnext⟩ := hlaw
  rcases createPriorityConfig_spec htx with ⟨e, rfl, hpg⟩ | ⟨d, rfl, hd⟩
  · have hactive : w.pg.activeDetails? userId = c.world.pg.activeDetails? userId := by
      rw [hpg]
    refine h.next hi ht (fun d hd => ?_) (fun hnone => ?_)
    · rw [hactive] at hd
      refine Or.inr (Or.inr (Or.inr ⟨hd, hkey, ?_, ?_⟩))
      · intro hset
        cases hset
      · intro hrep
        cases hrep
    · rw [hactive] at hnone
      have hrefused : ((createPriorityConfig key userId items expiresAt actor).transact
          c.world.pg c.world.dbNow ch.uuid).1.toOption = none := by
        rw [show (createPriorityConfig key userId items expiresAt actor).transact
          c.world.pg c.world.dbNow ch.uuid = _ from htx]
        rfl
      rcases hin hrefused with hempty | hactive'
      · rw [hkey]
        exact Or.inl hempty
      · exact absurd hnone hactive'
  · refine h.next hi ht (fun d' hd' => ?_) (fun hnone => ?_)
    · rw [hd] at hd'
      obtain rfl := Option.some.inj hd'
      exact Or.inr (Or.inl (hnext _))
    · rw [hd] at hnone
      cases hnone

/-- One effect of a request of the user, in step. -/
theorem Synced.effect {capacity : Nat} (h : Synced env u n c) (hi : n ≤ i)
    (ht : c.tasks[i]? = some ⟨q, hist, some (.call e k)⟩) (hin : InStep env u c.world ch q e)
    (hch : ch.fault = .none) (hx : c.world.exec capacity ch e = some (r, w)) :
    Synced env u n
      { world := w, tasks := c.tasks.set i ⟨q, hist ++ [⟨e, r⟩], some (k r)⟩ } := by
  obtain ⟨p, hp, hobeys⟩ := h.lawful i _ hi ht
  obtain rfl := Option.some.inj hp
  have hlaw : priorityLaw env u q.createsPriority e k := hobeys.1
  cases e with
  | redis cmd => exact h.redis hi ht hlaw hin hch hx
  | db call =>
      cases call with
      | cancelActivePriorityConfig userId actor => exact h.cancel hi ht hlaw hch hx
      | createPriorityConfig key userId items expiresAt actor => exact h.create hi ht hlaw hin hch hx
      | _ => exact h.spares hi ht hlaw hch hx
  | _ => exact h.spares hi ht hlaw hch hx

/-- What one act keeps. -/
theorem Synced.step {l : Act} (h : Synced env u n c) (hok : PriorityTraffic n u l)
    (hin : StaysInStep env u c l) (hs : (machine env).step c l = some c') : Synced env u n c' := by
  obtain ⟨hgroup, hexpire⟩ := hok
  rcases (machine env).step_cases hs with ⟨q, rfl, rfl⟩ |
    ⟨i, ch, q, hist, e, k, r, w, rfl, ht, hx, rfl⟩ | ⟨i, q, hist, e, k, rfl, -, -⟩ |
    ⟨v, w, rfl, hw, rfl⟩
  · refine ⟨h.lawful.append ⟨_, rfl, serve_lawful hgroup⟩, fun d hd => ?_, fun hnone => ?_⟩
    · rcases h.inForce d hd with hval | hset | hrep
      · exact Or.inl hval
      · exact Or.inr (Or.inl (hset.arrive _))
      · exact Or.inr (Or.inr (hrep.arrive _))
    · rcases h.notInForce hnone with hval | hdel | hcreate
      · exact Or.inl hval
      · exact Or.inr (Or.inl (hdel.arrive _))
      · exact Or.inr (Or.inr (hcreate.arrive _))
  · exact h.effect hgroup.1 ht (hin q hist e k ht) hgroup.2 hx
  · exact hgroup.elim
  · obtain ⟨hpg, hredis⟩ := World.move_sparesPriorities hw (fun key heq => hexpire key (by rw [heq]))
    have hkey := redisGet_congr hredis (priorityKey u)
    refine ⟨h.lawful, fun d hd => ?_, fun hnone => ?_⟩
    · have hd : w.pg.activeDetails? u = some d := hd
      rw [hpg] at hd
      show (w.redisGet _).map _ = _ ∨ _
      rw [hkey]
      exact h.inForce d hd
    · have hnone : w.pg.activeDetails? u = none := hnone
      rw [hpg] at hnone
      show w.redisGet _ = none ∨ _
      rw [hkey]
      exact h.notInForce hnone

theorem CacheAgrees.synced (h : CacheAgrees env u c.world) : Synced env u c.tasks.length c := by
  refine ⟨.of_length_le (Nat.le_refl _), fun d hd => Or.inl ?_, fun hnone => Or.inl ?_⟩
  · rw [CacheAgrees, hd] at h
    exact h
  · rw [CacheAgrees, hnone] at h
    exact Option.map_eq_none_iff.mp h

/-- When all requests have been answered, nothing is left to repair. -/
theorem Synced.cacheAgrees (h : Synced env u n c) (hdone : ∀ t ∈ c.tasks.drop n, t.answer? ≠ none) :
    CacheAgrees env u c.world := by
  have hnotPending : ∀ P : Io Answer → Prop, (∀ a, ¬ P (.ret a)) → ¬ Pending n P c := by
    rintro P hP ⟨i, q, hist, p, hi, ht, hp⟩
    have hmem : (⟨q, hist, some p⟩ : Serving) ∈ c.tasks.drop n := by
      refine List.mem_of_getElem? (i := i - n) ?_
      rw [List.getElem?_drop, Nat.add_sub_cancel' hi]
      exact ht
    cases p with
    | ret a => exact hP a hp
    | call e k => exact hdone _ hmem rfl
  unfold CacheAgrees
  cases hactive : c.world.pg.activeDetails? u with
  | some d =>
      rcases h.inForce d hactive with hval | hset | hrep
      · exact hval
      · refine absurd hset (hnotPending _ (fun a ha => ?_))
        cases ha
      · refine absurd hrep (hnotPending _ (fun a ha => ?_))
        cases ha
  | none =>
      rcases h.notInForce hactive with hempty | hdel | hcreate
      · rw [hempty]
        rfl
      · refine absurd hdel (hnotPending _ (fun a ha => ?_))
        cases ha
      · refine absurd hcreate (hnotPending _ (fun a ha => ?_))
        cases ha

end

/-- **The cache agrees with the database** when all requests have finished, in
every run of the user's requests, from agreement, whose effects stay in step. -/
theorem cache_agrees {env : Env} {u : Uuid} {c₀ c : State} (h₀ : CacheAgrees env u c₀.world)
    (hrun : (machine env).Reach
      (fun c l => PriorityTraffic c₀.tasks.length u l ∧ StaysInStep env u c l) c₀ c)
    (hdone : ∀ t ∈ c.tasks.drop c₀.tasks.length, t.answer? ≠ none) :
    CacheAgrees env u c.world := by
  have hsynced : Synced env u c₀.tasks.length c :=
    hrun.invariant (P := Synced env u c₀.tasks.length) h₀.synced
      (fun _ _ _ h hok hs => h.step hok.1 hok.2 hs)
  exact hsynced.cacheAgrees hdone

/-! ### A late `SET` -/

theorem nextAct_traffic {env : Env} {n i : Nat} {u : Uuid} (hi : n ≤ i) (c : State) :
    PriorityTraffic n u (nextAct env i c) := by
  refine ⟨(nextAct_alone env i c).together hi, fun key heq => ?_⟩
  unfold nextAct at heq
  split at heq
  · cases heq
  · split at heq
    · cases heq
    · cases heq

theorem serveAlone_traffic {env : Env} {n i : Nat} {u : Uuid} (hi : n ≤ i) (fuel : Nat)
    (c : State) : (machine env).Reach (fun _ l => PriorityTraffic n u l) c
      (serveAlone env i fuel c) := by
  refine (serveAlone_scheduled env i fuel c).mono (fun c' l hl => ?_)
  rw [hl]
  exact nextAct_traffic hi c'

theorem arrived_traffic {env : Env} {n : Nat} {u : Uuid} {q : Request} (hq : q.changesPriority u)
    (c : State) :
    (machine env).Reach (fun _ l => PriorityTraffic n u l) c (arrived env c q) :=
  .tail (l := .arrive q) .refl ⟨hq, fun _ h => by cases h⟩ ((machine env).step_arrive c q)

/-- A priority of 100 at the provider of the user that was credited 500. -/
def createPriority : Request :=
  .createUserPriority ⟨1008⟩ (some "k1") ⟨[⟨⟨1002⟩, 100, .multiUse⟩], none⟩

/-- It is created and about to be published to Redis. -/
def unpublished : State := serveAlone defaultEnv 3 9 (arrived defaultEnv oneCredit createPriority)

/-- It is cancelled, and then it is published. -/
def publishedLate : State :=
  serveAlone defaultEnv 3 60 (request defaultEnv unpublished (.cancelActiveUserPriority ⟨1008⟩))

/-- The key holds a configuration that was cancelled before. -/
theorem publishedLate_disagrees :
    ¬ ∀ (env : Env) (u : Uuid) (c₀ c : State), Reachable env c₀ → CacheAgrees env u c₀.world →
      (machine env).Reach (fun _ l => PriorityTraffic c₀.tasks.length u l) c₀ c →
      (∀ t ∈ c.tasks.drop c₀.tasks.length, t.answer? ≠ none) → CacheAgrees env u c.world := by
  intro hall
  have hstart : oneCredit.tasks.length = 3 ∧ unpublished.tasks.length = 4 ∧
      CacheAgrees defaultEnv ⟨1008⟩ oneCredit.world := by
    unfold CacheAgrees
    decide +kernel
  obtain ⟨hlen, hlen', hagrees⟩ := hstart
  have hrun : (machine defaultEnv).Reach
      (fun _ l => PriorityTraffic oneCredit.tasks.length ⟨1008⟩ l) oneCredit publishedLate := by
    rw [hlen]
    have hcreator : createPriority.changesPriority ⟨1008⟩ := rfl
    have harrived : (machine defaultEnv).Reach (fun _ l => PriorityTraffic 3 ⟨1008⟩ l) oneCredit
        (arrived defaultEnv oneCredit createPriority) := arrived_traffic hcreator oneCredit
    have hcreated := harrived.trans (serveAlone_traffic (Nat.le_refl 3) 9 _)
    have howner : (Request.cancelActiveUserPriority ⟨1008⟩).changesPriority ⟨1008⟩ := rfl
    have hcancels := hcreated.trans (arrived_traffic howner _)
    have hcancelled := hcancels.trans (serveAlone_traffic (by decide : 3 ≤ 4) 60 _)
    rw [← hlen'] at hcancelled
    exact hcancelled.trans (serveAlone_traffic (Nat.le_refl 3) 60 _)
  have hend : (∀ t ∈ publishedLate.tasks.drop 3, t.answer? ≠ none) ∧
      ¬ CacheAgrees defaultEnv ⟨1008⟩ publishedLate.world := by
    unfold CacheAgrees
    decide +kernel
  refine hend.2 (hall defaultEnv ⟨1008⟩ oneCredit publishedLate oneCredit_reachable hagrees hrun ?_)
  rw [hlen]
  exact hend.1

/-! ### Two creations at the same time -/

/-- A check of a single act, which asks a little more of a creation. -/
def keepsStep (env : Env) (u : Uuid) (c : State) : Act → Bool
  | .step i _ =>
      match c.tasks[i]? with
      | some ⟨_, _, some (.call (.redis (.set _ value _)) _)⟩ =>
          (c.world.pg.activeDetails? u).map env.priorityToJson = some value
      | some ⟨q, _, some (.call (.redis (.del _)) _)⟩ =>
          q.createsPriority || (c.world.pg.activeDetails? u).isNone
      | some ⟨_, _, some (.call (.db (.createPriorityConfig ..)) _)⟩ =>
          (c.world.redisGet (priorityKey u)).isNone
      | _ => true
  | _ => true

theorem staysInStep_of_keeps {env : Env} {u : Uuid} {c : State} {l : Act}
    (h : keepsStep env u c l = true) : StaysInStep env u c l := by
  cases l with
  | step i ch =>
      intro q hist e k ht
      simp only [keepsStep, ht] at h
      cases e with
      | redis cmd =>
          cases cmd with
          | acquire => trivial
          | del key => simpa [InStep] using h
          | set key value ex => simpa [InStep] using h
      | db call =>
          cases call with
          | createPriorityConfig key userId items expiresAt actor =>
              exact fun _ => Or.inl (Option.isNone_iff_eq_none.mp h)
          | _ => trivial
      | _ => trivial
  | _ => trivial

theorem plan_traffic {env : Env} {n i : Nat} {u : Uuid} (hi : n ≤ i) (fuel : Nat) (c : State) :
    ∀ l ∈ plan env i fuel c, PriorityTraffic n u l := by
  induction fuel generalizing c with
  | zero => simp [plan]
  | succ fuel ih =>
      intro l hl
      rw [plan] at hl
      split at hl
      · split at hl
        · next c' _ =>
            rcases List.mem_cons.mp hl with rfl | hl
            · exact nextAct_traffic hi c
            · exact ih c' l hl
        · simp at hl
      · simp at hl

/-- Requests of the user for priorities, served in turns, are traffic of its key. -/
theorem turns_traffic {env : Env} {n : Nat} {u : Uuid} {turns : List Turn} {c : State}
    (harrive : ∀ q, Turn.arrive q ∈ turns → q.changesPriority u)
    (hserve : ∀ i acts, Turn.serve i acts ∈ turns → n ≤ i) :
    ∀ l ∈ turnsPlan env turns c, PriorityTraffic n u l := by
  intro l hl
  rcases mem_turnsPlan hl with ⟨q, hq, rfl⟩ | ⟨i, acts, c', hi, hl⟩
  · exact ⟨harrive q hq, fun _ h => by cases h⟩
  · exact plan_traffic (hserve i acts hi) acts c' l hl

/-- A second priority, of 40 at the same provider. -/
def createSecondPriority : Request :=
  .createUserPriority ⟨1008⟩ (some "k2") ⟨[⟨⟨1002⟩, 40, .multiUse⟩], none⟩

/-- The first creation has emptied the key when the second arrives and looks for the
priority in force; the first is published, and then the second replaces it. -/
def replaced : List Turn :=
  [.arrive createPriority, .serve 3 6, .arrive createSecondPriority, .serve 4 4, .serve 3 60,
    .serve 4 60]

theorem cache_agrees_createPriority :
    (inTurns defaultEnv replaced oneCredit).world.redisGet (priorityKey ⟨1008⟩) ≠ none ∧
      CacheAgrees defaultEnv ⟨1008⟩ (inTurns defaultEnv replaced oneCredit).world := by
  have hscene : oneCredit.tasks.length = 3 ∧ CacheAgrees defaultEnv ⟨1008⟩ oneCredit.world := by
    unfold CacheAgrees
    decide +kernel
  obtain ⟨hlen, hstart⟩ := hscene
  have hkeeps : ((machine defaultEnv).trace (turnsPlan defaultEnv replaced oneCredit)
      oneCredit).all (fun v => keepsStep defaultEnv ⟨1008⟩ v.1 v.2) = true := by
    decide +kernel
  have hend : (inTurns defaultEnv replaced oneCredit).world.redisGet (priorityKey ⟨1008⟩) ≠
      none ∧ ∀ t ∈ (inTurns defaultEnv replaced oneCredit).tasks.drop 3, t.answer? ≠ none := by
    decide +kernel
  have htraffic : ∀ l ∈ turnsPlan defaultEnv replaced oneCredit,
      PriorityTraffic oneCredit.tasks.length ⟨1008⟩ l := by
    rw [hlen]
    refine turns_traffic (fun q hq => ?_) (fun i acts hi => ?_)
    · simp only [replaced, List.mem_cons, Turn.arrive.injEq, reduceCtorEq, false_or, or_false,
        List.not_mem_nil] at hq
      rcases hq with rfl | rfl
      · exact (rfl : (⟨1008⟩ : Uuid) = ⟨1008⟩)
      · exact (rfl : (⟨1008⟩ : Uuid) = ⟨1008⟩)
    · simp only [replaced, List.mem_cons, Turn.serve.injEq, reduceCtorEq, false_or,
        List.not_mem_nil, or_false] at hi
      omega
  refine ⟨hend.1, cache_agrees hstart (inTurns_reach (fun v hv => ⟨?_, ?_⟩)) ?_⟩
  · exact htraffic v.2 (Machine.mem_of_mem_trace hv)
  · exact staysInStep_of_keeps (List.all_eq_true.mp hkeeps v hv)
  · rw [hlen]
    exact hend.2

end Wurzburg.System
