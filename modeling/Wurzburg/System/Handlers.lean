import Wurzburg.System.Inv

/-!
# Wurzburg.System.Handlers

Every handler keeps the invariant under any interference.

The contract `service` instantiates the rely/guarantee rules of
`Wurzburg.Lib.Pool`: the invariant is `Inv`, the rely is `Grows`, and before
each effect a handler must have established `Pre`. Handlers that only read, or
only touch stores the invariant does not speak about, are recognised by their
effects (`Eff.isHarmless`); the others are followed step by step.

`Post` is what an answer of a transfer handler tells about the journal.
-/

namespace Wurzburg.System

open Wurzburg.Lib Wurzburg.Db Wurzburg.Tb Wurzburg.Api

/-! ### The contract -/

/-- What the tasks of the service are held to. -/
def service (env : Env) : Contract (machine env) where
  valid := Inv env
  grows := Grows
  allow := fun _ _ _ _ _ => True
  pre := fun q _ e w => Pre env q e w
  refl := .refl
  trans := .trans

/-- What one task has issued so far. -/
abbrev History := List (Event Eff Eff.Resp)

/-- A row was returned by a repository call that left the world as it is. -/
def Returned (call : DbCall) (row : call.Row) (w : World) : Prop :=
  ∃ (ch : Choice) (w₀ : World), w₀.dbApply ch call = some (.ok row, w)

section

variable {env : Env} {q : Request} {β γ : Type} {hist : History} {w : World}

/-- One effect, whose precondition is met, before a safe rest. -/
theorem safe_call {post : History → β → World → Prop} {e : Eff} {k : e.Resp → Io β}
    (hpre : ∀ w', Inv env w' → Grows w w' → Pre env q e w')
    (hk : ∀ ch r w' w'', Inv env w' → Grows w w' →
      w'.exec env.settings.tigerbeetle.channelCapacity ch e = some (r, w'') →
      Inv env w'' → Grows w' w'' → (service env).Safe q post (hist ++ [⟨e, r⟩]) (k r) w'') :
    (service env).Safe q post hist (.call e k) w := by
  intro w' hv hg
  have hp := hpre w' hv hg
  refine ⟨hp, fun ch r w'' _ hx => ?_⟩
  obtain ⟨hv', hg'⟩ := hv.exec hp hx
  exact ⟨hv', hg', hk ch r w' w'' hv hg hx hv' hg'⟩

/-- A repository call whose error is kept as a value. -/
theorem tryDb_safe {call : DbCall} {mid : History → Except RepoError call.Row → World → Prop}
    {post : History → Except HttpError γ → World → Prop}
    (hpre : ∀ w', Inv env w' → Grows w w' → Pre env q (.db call) w')
    (hmid : ∀ (r : Except RepoError call.Row) w' w'', Inv env w' → Grows w w' → Inv env w'' →
      Grows w' w'' → (∀ row, r = .ok row → Returned call row w') →
      mid (hist ++ [⟨.db call, r⟩]) r w'') :
    (service env).SafeE q mid post hist (tryDb call) w := by
  refine safe_call hpre (fun ch r w₀ w' hv hg hx hv' hg' => ?_)
  intro w'' hv'' hg''
  refine hmid r w' w'' hv' (hg.trans hg') hv'' hg'' (fun row hrow => ?_)
  subst hrow
  rcases World.dbExec_cases hx with ⟨e, he, -⟩ | ⟨r', happly, heq | ⟨e, he⟩⟩
  · simp at he
  · exact ⟨ch, w₀, heq ▸ happly⟩
  · simp at he

/-- A repository call that stops the handler when it fails. -/
theorem db_safe {call : DbCall} {mid : History → call.Row → World → Prop}
    {post : History → Except HttpError γ → World → Prop}
    (hpre : ∀ w', Inv env w' → Grows w w' → Pre env q (.db call) w')
    (hmid : ∀ (row : call.Row) w' w'', Inv env w' → Grows w w' → Inv env w'' → Grows w' w'' →
      Returned call row w' → mid (hist ++ [⟨.db call, .ok row⟩]) row w'')
    (hfail : ∀ hist w', post hist (.error internalError) w') :
    (service env).SafeE q mid post hist (db call) w := by
  refine safe_call hpre (fun ch r w₀ w' hv hg hx hv' hg' => ?_)
  intro w'' hv'' hg''
  cases r with
  | error e => exact hfail _ _
  | ok row =>
      refine hmid row w' w'' hv' (hg.trans hg') hv'' hg'' ?_
      rcases World.dbExec_cases hx with ⟨e, he, -⟩ | ⟨r', happly, heq | ⟨e, he⟩⟩
      · simp at he
      · exact ⟨ch, w₀, heq ▸ happly⟩
      · simp at he

/-- A command to the worker: what is known of the answer when it is received. -/
theorem submit_safe {request : TbRequest} {sendError recvError : String}
    {extract : TbReply → Option (Except String γ)} {mid : γ → World → Prop}
    (hpre : ∀ w', Inv env w' → Grows w w' → Pre env q (.tbSend request) w')
    (hmono : ∀ x w' w'', mid x w' → Grows w' w'' → mid x w'')
    (hmid : ∀ x i reply w', Inv env w' → w'.sent[i]? = some ⟨request, i⟩ →
      (i, reply) ∈ w'.worker.replies → extract reply = some (.ok x) → mid x w') :
    (service env).Safe q (fun _ r w => ∀ x, r = .ok x → mid x w) hist
      (submit request sendError recvError extract) w := by
  refine safe_call hpre (fun ch r w₀ w' hv hg hx hv' hg' => ?_)
  have hcmd : CommandFor env w₀.pg w₀.issued request := by
    have hp := hpre w₀ hv hg
    cases request with
    | createTransfer t => exact TransferOf.transferFor hp
    | createAccount a => exact ⟨q, hp⟩
    | _ => trivial
  obtain ⟨-, -, hsent⟩ := hv.tbSend hcmd hx
  cases r with
  | none => exact fun _ _ _ x hx => by simp at hx
  | some i =>
      refine safe_call (fun _ _ _ => trivial) (fun ch' m w₁ w'' hv₁ hg₁ hx₁ _ _ => ?_)
      obtain ⟨rfl, hreply⟩ := World.tbRecv_cases hx₁
      cases m with
      | none => exact fun _ _ _ x hx => by simp at hx
      | some reply =>
          intro w''' _ hg''' x hext
          refine hmono x w'' w''' (hmid x i reply w'' hv₁ ?_ (hreply reply rfl) ?_) hg'''
          · exact hg₁.sent_getElem? (hsent i rfl)
          · cases hxr : extract reply with
            | none => simp [hxr] at hext
            | some r => simpa [hxr] using hext

/-- What is made of the answer of a command inside a handler. -/
theorem orFail_safe {δ : Type} {p : Io (Except String γ)} {f : String → HttpError}
    {mid : γ → World → Prop} {post : History → Except HttpError δ → World → Prop}
    (hw : Inv env w)
    (h : (service env).Safe q (fun _ r w => ∀ x, r = .ok x → mid x w) hist p w)
    (hfail : ∀ hist e w', post hist (.error (f e)) w') :
    (service env).SafeE q (fun _ x w => mid x w) post hist (orFail p f) w := by
  refine Contract.Safe.bind h hw (fun hist' r w' hv hg hr => ?_)
  intro w'' hv'' hg''
  cases r with
  | error e => exact hfail _ _ _
  | ok x => exact hr w'' hv'' hg'' x rfl

/-! ### The ledger's answer to a transfer -/

/-- A transfer answered with the empty list is in the ledger. -/
theorem Inv.accepted {i : ResponderId} {t : AppTransfer} {reply : TbReply} (h : Inv env w)
    (hsent : w.sent[i]? = some ⟨.createTransfer t, i⟩) (hreply : (i, reply) ∈ w.worker.replies)
    (hext : createTransfersReply reply = some (.ok [])) :
    toTbTransfer t ∈ w.worker.ledger.transfers := by
  obtain ⟨c, hc, hci, -⟩ := (h.worker.answers.sound _ hreply).request h.worker.history
  -- the command answered under `i` is the one sent under `i`
  obtain ⟨j, hj⟩ := List.getElem?_of_mem (h.traffic.known c (List.mem_append_left _ hc))
  obtain rfl : j = i := (h.traffic.numbered j c hj).symm.trans hci
  obtain rfl : c = ⟨.createTransfer t, j⟩ := Option.some.inj (hj.symm.trans hsent)
  have hdist : w.worker.Distinct :=
    h.traffic.distinct.sublist ((List.sublist_append_left _ _).map _)
  obtain ⟨s, hs, k, hk, -, rfl⟩ :=
    Worker.transfer_answer h.worker.history h.worker.answers hdist hc hreply
  exact h.worker.accepted s hs (Option.some.inj hext) t (List.mem_of_getElem? hk)

theorem createTransfer_safe {t : AppTransfer}
    (hpre : ∀ w', Inv env w' → Grows w w' → TransferOf env q w'.pg t) :
    (service env).Safe q
      (fun _ r w => ∀ x, r = .ok x → x = [] → toTbTransfer t ∈ w.worker.ledger.transfers) hist
      (createTransfer t) w := by
  refine submit_safe hpre ?_ ?_
  · intro x w' w'' hmem hg hx
    exact hg.transfers.subset (hmem hx)
  · rintro x i reply w' hv hsent hreply hext rfl
    exact hv.accepted hsent hreply hext

/-! ### Harmless effects -/

/-- Effects that owe the invariant nothing. -/
def Eff.isHarmless : Eff → Prop
  | .db (.createProvider ..) | .db (.createOrLinkUser ..) => False
  | .db (.executeCreditTransfer ..) | .db (.executeDebitTransfer ..) => False
  | .tbSend (.createTransfer _) | .tbSend (.createAccount _) => False
  | _ => True

/-- Effects that only read. -/
def Eff.isRead : Eff → Prop
  | .db (.getProviderById _) | .db (.getUserProviderDetails ..) => True
  | .db (.getUserAccountsProviderInfo _) | .db (.getTransactionByIdempotencyKey _) => True
  | .db (.getPriorityConfigByIdempotencyKey _) | .db (.getActivePriorityConfig _) => True
  | .db (.getAllPriorityConfigs _) => True
  | .tbSend (.lookupAccount _) | .tbSend (.lookupAccounts _) => True
  | .tbRecv _ | .now | .redis .acquire => True
  | _ => False

theorem Eff.isRead.harmless {e : Eff} (h : e.isRead) : e.isHarmless := by
  cases e with
  | db call => cases call <;> first | exact h.elim | trivial
  | tbSend request => cases request <;> first | exact h.elim | trivial
  | _ => trivial

theorem Eff.isHarmless.pre {e : Eff} (h : e.isHarmless) : Pre env q e w := by
  cases e with
  | db call => cases call <;> trivial
  | tbSend request => cases request <;> trivial
  | _ => trivial

/-- A program of harmless effects is safe. -/
theorem harmless_safe {p : Io β} (hp : p.Uses Eff.isHarmless) :
    (service env).Safe q (fun _ _ _ => True) hist p w :=
  Contract.Safe.of_uses hp (fun _ _ _ _ he => he.pre)
    (fun _ _ _ _ _ _ hv he _ hx => hv.exec (q := q) he.pre hx)

theorem submit_uses {allowed : Eff → Prop} {request : TbRequest} {sendError recvError : String}
    {extract : TbReply → Option (Except String γ)} (h : allowed (.tbSend request))
    (hrecv : ∀ i, allowed (.tbRecv i)) :
    (submit request sendError recvError extract).Uses allowed := by
  refine ⟨h, fun r => ?_⟩
  cases r with
  | none => trivial
  | some i =>
      refine ⟨hrecv i, fun m => ?_⟩
      cases m with
      | none => trivial
      | some reply => trivial

theorem orFail_uses {allowed : Eff → Prop} {ε : Type} {p : Io (Except ε β)} {f : ε → HttpError}
    (h : p.Uses allowed) : Prog.UsesE allowed (orFail p f) :=
  Prog.Uses.bind h (fun _ => trivial)

theorem attempt_uses {allowed : Eff → Prop} {ε : Type} {p : Io (Except ε β)}
    (h : p.Uses allowed) : Prog.UsesE allowed (attempt p) :=
  Prog.Uses.bind h (fun _ => trivial)

theorem perform_uses {allowed : Eff → Prop} {e : Eff} (h : allowed e) :
    (Prog.perform e : Io e.Resp).Uses allowed :=
  ⟨h, fun _ => trivial⟩

theorem db_uses {allowed : Eff → Prop} {call : DbCall} (h : allowed (.db call)) :
    Prog.UsesE allowed (db call) :=
  orFail_uses (perform_uses h)

theorem tryDb_uses {allowed : Eff → Prop} {call : DbCall} (h : allowed (.db call)) :
    Prog.UsesE allowed (tryDb call) :=
  attempt_uses (perform_uses h)

theorem redis_uses {allowed : Eff → Prop} {cmd : RedisCmd} (h : allowed (.redis cmd)) :
    Prog.UsesE allowed (redis cmd) :=
  orFail_uses (perform_uses h)

theorem tryRedis_uses {allowed : Eff → Prop} {cmd : RedisCmd} (h : allowed (.redis cmd)) :
    Prog.UsesE allowed (tryRedis cmd) :=
  attempt_uses (perform_uses h)

theorem now_uses {allowed : Eff → Prop} (h : allowed .now) : Prog.UsesE allowed now :=
  ⟨h, fun _ => trivial⟩

theorem orElse_uses {allowed : Eff → Prop} {e : HttpError} {o : Option β} :
    Prog.UsesE allowed (orElse e o) := by
  cases o <;> trivial

/-! ### The reading handlers and those of the priorities -/

theorem getProvider_uses (id : Uuid) :
    Prog.UsesE Eff.isRead (getProvider env id) := by
  refine .bind (db_uses trivial) (fun p => ?_)
  cases p with
  | none => exact .throw _
  | some p => exact .bind (orFail_uses (submit_uses trivial (fun _ => trivial))) (fun _ => .pure _)

theorem getUser_uses (userId providerId : Uuid) :
    Prog.UsesE Eff.isRead (getUser userId providerId) := by
  refine .bind (db_uses trivial) (fun details => ?_)
  cases details with
  | none => exact .throw _
  | some details => exact .bind (orFail_uses (submit_uses trivial (fun _ => trivial))) (fun _ => .pure _)

theorem getUserBalance_uses (userId : Uuid) :
    Prog.UsesE Eff.isRead (getUserBalance userId) := by
  refine .bind (db_uses trivial) (fun infos => ?_)
  split
  · exact .pure _
  · exact .bind (orFail_uses (submit_uses trivial (fun _ => trivial))) (fun _ => .pure _)

theorem resolveAccounts_uses (userId : Uuid) (items : List PriorityItemRequest) :
    Prog.UsesE Eff.isRead (resolveAccounts userId items) := by
  induction items with
  | nil => exact .pure _
  | cons item items ih =>
      refine .bind (tryDb_uses trivial) (fun found => .bind ih (fun ⟨resolved, errors⟩ => ?_))
      simp only
      split <;> exact .pure _

theorem checkItems_uses (userId : Uuid) (priorities : List PriorityItemRequest) :
    Prog.UsesE Eff.isRead (checkItems userId priorities) := by
  refine .bind (resolveAccounts_uses userId priorities) (fun ⟨resolved, errors⟩ => ?_)
  simp only
  split
  · refine .bind (orFail_uses (submit_uses trivial (fun _ => trivial))) (fun accounts => ?_)
    split
    · exact .pure _
    · exact .throw _
  · exact .throw _

theorem ttlNow_uses (expiresAt : Option Timestamp) :
    Prog.UsesE Eff.isRead (ttlNow expiresAt) := by
  cases expiresAt with
  | none => exact .pure _
  | some t => exact now_uses trivial

theorem publishPriority_uses (userId : Uuid) (key : String) (resolved : List ResolvedItem)
    (expiresAt : Option Timestamp) :
    Prog.UsesE Eff.isHarmless (publishPriority env userId key resolved expiresAt) :=
  .bind (orFail_uses (perform_uses trivial)) (fun _ =>
    .bind ((ttlNow_uses _).mono (fun _ => Eff.isRead.harmless))
      (fun _ => .bind (redis_uses trivial) (fun _ => .pure _)))

theorem replacePriority_uses (userId : Uuid) (key : String) (resolved : List ResolvedItem)
    (expiresAt : Option Timestamp) :
    Prog.UsesE Eff.isHarmless (replacePriority env userId key resolved expiresAt) := by
  refine .bind (redis_uses trivial) (fun _ => .bind (redis_uses trivial) (fun _ => ?_))
  refine .bind (db_uses trivial) (fun active => ?_)
  cases active with
  | none => exact publishPriority_uses ..
  | some _ => exact .bind (db_uses trivial) (fun _ => publishPriority_uses ..)

theorem createUserPriority_uses (userId : Uuid) (key : Option String)
    (payload : CreatePriorityRequest) :
    Prog.UsesE Eff.isHarmless (createUserPriority env userId key payload) := by
  unfold createUserPriority
  split
  · exact .throw _
  · refine .bind orElse_uses (fun key => .bind (tryDb_uses trivial) (fun found => ?_))
    split
    · exact .pure _
    · exact .bind ((checkItems_uses _ _).mono (fun _ => Eff.isRead.harmless))
        (fun resolved => replacePriority_uses _ _ _ _)

theorem getActiveUserPriority_uses (userId : Uuid) :
    Prog.UsesE Eff.isRead (getActiveUserPriority userId) := by
  refine .bind (db_uses trivial) (fun found => ?_)
  cases found with
  | none => exact .throw _
  | some details => exact .pure _

theorem cancelActiveUserPriority_uses (userId : Uuid) :
    Prog.UsesE Eff.isHarmless (cancelActiveUserPriority userId) := by
  refine .bind (db_uses trivial) (fun found => ?_)
  cases found with
  | none => exact .throw _
  | some details =>
      exact .bind (redis_uses trivial) (fun _ => .bind (redis_uses trivial) (fun _ => .pure _))

theorem getAllUserPriorities_uses (userId : Uuid) :
    Prog.UsesE Eff.isRead (getAllUserPriorities userId) :=
  .bind (db_uses trivial) (fun _ => .pure _)

/-- The cancellation that goes before a debit, whatever is allowed. -/
theorem cancelPriorityNaming_uses {allowed : Eff → Prop} {providerId userId : Uuid}
    (hread : allowed (.db (.getActivePriorityConfig userId)))
    (hcancel : allowed (.db (.cancelActivePriorityConfig userId userId)))
    (hredis : ∀ cmd, allowed (.redis cmd)) :
    Prog.UsesE allowed (cancelPriorityNaming providerId userId) := by
  refine .bind (db_uses hread) (fun found => ?_)
  cases found with
  | none => exact .pure _
  | some active =>
      by_cases hnames : active.items.any (fun item => item.providerId = providerId) = true
      · show Prog.UsesE _ (if _ then _ else _)
        rw [if_pos hnames]
        refine .bind (db_uses hcancel) (fun _ => .bind (tryRedis_uses (hredis _)) (fun r => ?_))
        cases r with
        | error e => exact .pure _
        | ok _ => exact .bind (tryRedis_uses (hredis _)) (fun _ => .pure _)
      · show Prog.UsesE _ (if _ then _ else _)
        rw [if_neg hnames]
        exact .pure _

/-! ### What a returned row tells -/

theorem Returned.provider {id : Uuid} {p : Provider}
    (h : Returned (.getProviderById id) (some p) w) : p ∈ w.pg.providers ∧ p.id = id := by
  obtain ⟨ch, w₀, happly⟩ := h
  obtain ⟨pg, n, htx, -, rfl⟩ := World.dbApply_cases happly
  obtain ⟨hrow, htx⟩ := Prod.mk.inj htx
  obtain ⟨rfl, -⟩ := Prod.mk.inj htx
  have hfind : w₀.pg.provider? id = some p := Except.ok.inj hrow
  exact ⟨List.mem_of_find?_eq_some hfind, by simpa using List.find?_some hfind⟩

theorem Returned.transaction {key : String} {row : Transaction}
    (h : Returned (.getTransactionByIdempotencyKey key) (some row) w) :
    row ∈ w.pg.transactions ∧ row.idempotencyKey = key := by
  obtain ⟨ch, w₀, happly⟩ := h
  obtain ⟨pg, n, htx, -, rfl⟩ := World.dbApply_cases happly
  obtain ⟨hrow, htx⟩ := Prod.mk.inj htx
  obtain ⟨rfl, -⟩ := Prod.mk.inj htx
  have hfind : w₀.pg.transactionByKey? key = some row := Except.ok.inj hrow
  exact ⟨List.mem_of_find?_eq_some hfind, by simpa using List.find?_some hfind⟩

theorem Returned.details {userId providerId : Uuid} {d : UserProviderDetails}
    (h : Returned (.getUserProviderDetails userId providerId) (some d) w) :
    ∃ ua ∈ w.pg.userAccounts, ua.pair = (userId, providerId) ∧
      ua.ledgerAccountId = d.userLedgerAccountId := by
  obtain ⟨ch, w₀, happly⟩ := h
  obtain ⟨pg, n, htx, -, rfl⟩ := World.dbApply_cases happly
  obtain ⟨hrow, htx⟩ := Prod.mk.inj htx
  obtain ⟨rfl, -⟩ := Prod.mk.inj htx
  have hhead : (w₀.pg.userProviderDetails userId providerId).head? = some d := Except.ok.inj hrow
  exact (Pg.mem_userProviderDetails (List.mem_of_head? hhead)).2.2

/-- A row of the journal that records the movement a request asks for. -/
structure Records (row : Transaction) (d : Direction) (providerId userId : Uuid)
    (payload : TransferRequest) : Prop where
  key : row.idempotencyKey = payload.idempotencyKey.toString
  provider : row.providerId = some providerId
  user : row.userId = some userId
  amount : row.amount = payload.amount.toNat
  type : row.transactionType = d.transactionType

/-- The account returned by `create_or_link_user` is in its table. -/
theorem Returned.linked {nid : String} {p lid actor : Uuid} {im em : Json}
    {out : User × UserAccount} (h : Returned (.createOrLinkUser nid p im em lid actor) out w) :
    out.2 ∈ w.pg.userAccounts := by
  obtain ⟨ch, w₀, happly⟩ := h
  obtain ⟨pg, n, htx, -, rfl⟩ := World.dbApply_cases happly
  rcases createOrLinkUser_spec htx with ⟨e, he, -⟩ | ⟨user, account, hok, hl⟩
  · simp at he
  · obtain rfl := Except.ok.inj hok
    exact hl.grows.2.2.2.1

theorem Returned.recorded {d : Direction} {key : String} {amount : Int} {p u pl ul actor : Uuid}
    {description : Option String} {row : Transaction} {call : DbCall}
    (hcall : call = .executeCreditTransfer key amount p u pl ul actor description ∧ d = .credit ∨
      call = .executeDebitTransfer key amount p u pl ul actor description ∧ d = .debit)
    (hrow : call.Row = Transaction) (h : Returned call (hrow ▸ row) w) :
    row ∈ w.pg.transactions ∧ 0 < row.amount ∧ row.idempotencyKey = key ∧ row.amount = amount ∧
      row.providerId = some p ∧ row.userId = some u ∧ row.transactionType = d.transactionType := by
  obtain ⟨ch, w₀, happly⟩ := h
  obtain ⟨pg, n, htx, -, rfl⟩ := World.dbApply_cases happly
  have hspec : ∃ r, (executeTransfer d.transactionType key amount p u (d.accounts pl ul).1
      (d.accounts pl ul).2 actor description).transact w₀.pg w₀.dbNow ch.uuid = (r, pg, n) ∧
      r = .ok row := by
    rcases hcall with ⟨rfl, rfl⟩ | ⟨rfl, rfl⟩
    · exact ⟨_, htx, rfl⟩
    · exact ⟨_, htx, rfl⟩
  obtain ⟨r, hr, rfl⟩ := hspec
  rcases executeTransfer_spec hr with ⟨-, ⟨e, he, -⟩ | ⟨new, rfl, hadm, hok, rfl⟩⟩
  · simp at he
  · rw [Except.ok.inj hok]
    exact ⟨List.mem_append_right _ (List.mem_singleton_self _), hadm.amount, rfl, rfl, rfl, rfl, rfl⟩

end

/-! ### The transfer handlers -/

/-- What a debit does between its checks and the ledger call; a credit does
nothing there. -/
def prepare (d : Direction) (providerId userId : Uuid) : Handler Unit :=
  match d with
  | .credit => return ()
  | .debit => cancelPriorityNaming providerId userId

/-- `credit_user` and `debit_user` as one handler. -/
def transferHandler (env : Env) (d : Direction) (providerId userId : Uuid)
    (payload : TransferRequest) : Handler (StatusCode × TransactionResponse) := do
  match ← admission providerId userId payload with
  | .answered response => return (.ok, response)
  | .admitted userAccount providerDetails =>
      prepare d providerId userId
      settle env d providerId userId payload userAccount providerDetails

theorem serve_transferRequest (env : Env) (d : Direction) (p u : Uuid) (payload : TransferRequest) :
    serve env (transferRequest d p u payload) =
      answerWith .transaction (transferHandler env d p u payload) := by
  cases d <;> rfl

/-- An answer is backed by a row under the request's key: one that records its
movement, or the one its idempotency check returned. -/
def Backed (d : Direction) (p u : Uuid) (payload : TransferRequest) (hist : History) (id : Uuid)
    (w : World) : Prop :=
  ∃ row ∈ w.pg.transactions, row.id = id ∧
    row.idempotencyKey = payload.idempotencyKey.toString ∧
    (Records row d p u payload ∨
      (⟨.db (.getTransactionByIdempotencyKey payload.idempotencyKey.toString), .ok (some row)⟩ :
        Event Eff Eff.Resp) ∈ hist)

theorem Backed.mono {d : Direction} {p u id : Uuid} {payload : TransferRequest}
    {hist hist' : History} {w w' : World} (h : Backed d p u payload hist id w) (hg : Grows w w')
    (hh : hist ⊆ hist') : Backed d p u payload hist' id w' := by
  obtain ⟨row, hrow, hid, hkey, hwhy⟩ := h
  exact ⟨row, hg.pg.transactions.subset hrow, hid, hkey, hwhy.imp_right (fun h => hh h)⟩

/-- The rows a transfer works with. -/
structure Parties (w : World) (p u : Uuid) (userAccount : UserProviderDetails)
    (providerDetails : Provider) : Prop where
  provider : providerDetails ∈ w.pg.providers
  providerId : providerDetails.id = p
  account : ∃ ua ∈ w.pg.userAccounts, ua.pair = (u, p) ∧
    ua.ledgerAccountId = userAccount.userLedgerAccountId

theorem Parties.mono {w w' : World} {p u : Uuid} {ud : UserProviderDetails} {pd : Provider}
    (h : Parties w p u ud pd) (hg : Grows w w') : Parties w' p u ud pd where
  provider := hg.pg.providers.subset h.provider
  providerId := h.providerId
  account := by
    obtain ⟨ua, hua, hrest⟩ := h.account
    exact ⟨ua, hg.pg.userAccounts.subset hua, hrest⟩

/-- What the result of a transfer handler tells. -/
def Tells (d : Direction) (p u : Uuid) (payload : TransferRequest) (hist : History)
    (r : Except HttpError (StatusCode × TransactionResponse)) (w : World) : Prop :=
  match r with
  | .ok (status, response) => status = .ok ∧ Backed d p u payload hist response.transactionId w
  | .error (status, _) => status ≠ .ok

/-- What the outcome of the checks tells. -/
def AdmissionTells (d : Direction) (p u : Uuid) (payload : TransferRequest) (hist : History)
    (a : Admission) (w : World) : Prop :=
  match a with
  | .answered response => Backed d p u payload hist response.transactionId w
  | .admitted userAccount providerDetails => Parties w p u userAccount providerDetails

section

variable {env : Env} {d : Direction} {p u : Uuid} {payload : TransferRequest} {hist : History}
  {w : World}

theorem admission_safe (hw : Inv env w) :
    (service env).SafeE (transferRequest d p u payload) (AdmissionTells d p u payload)
      (Tells d p u payload) hist (admission p u payload) w := by
  refine Contract.SafeE.bind (M := fun _ found w => ∀ ud, found = some ud →
    ∃ ua ∈ w.pg.userAccounts, ua.pair = (u, p) ∧ ua.ledgerAccountId = ud.userLedgerAccountId)
    (db_safe (fun _ _ _ => trivial) ?_ (fun _ _ => by simp [Tells, internalError])) hw ?_
  · intro found w₁ w₂ _ _ _ hg₂ hret ud hud
    subst hud
    obtain ⟨ua, hua, hrest⟩ := hret.details
    exact ⟨ua, hg₂.pg.userAccounts.subset hua, hrest⟩
  intro hist₁ found w₁ hv₁ hg₁ haccount
  cases found with
  | none => exact Contract.SafeE.throw (fun _ _ _ => by simp [Tells])
  | some ud =>
      rw [orElse_some_bind]
      refine Contract.SafeE.bind (M := fun hist r w => ∀ row, r = .ok (some row) →
        Backed d p u payload hist row.id w) (tryDb_safe (fun _ _ _ => trivial) ?_) hv₁ ?_
      · intro r w₂ w₃ _ _ _ hg₃ hret row hrow
        subst hrow
        obtain ⟨hmem, hkey⟩ := (hret _ rfl).transaction
        exact ⟨row, hg₃.pg.transactions.subset hmem, rfl, hkey,
          Or.inr (List.mem_append_right _ (List.mem_singleton_self _))⟩
      intro hist₂ r w₂ hv₂ hg₂ hback
      have hrest : (service env).SafeE (transferRequest d p u payload)
          (AdmissionTells d p u payload) (Tells d p u payload) hist₂ (do
            let providerDetails ← orElse (.notFound, "Provider not found")
              (← db (.getProviderById p))
            return Admission.admitted ud providerDetails) w₂ := by
        refine Contract.SafeE.bind (M := fun _ found w => ∀ pd, found = some pd →
          pd ∈ w.pg.providers ∧ pd.id = p)
          (db_safe (fun _ _ _ => trivial) ?_ (fun _ _ => by simp [Tells, internalError])) hv₂ ?_
        · intro found w₃ w₄ _ _ _ hg₄ hret pd hpd
          subst hpd
          obtain ⟨hmem, hid⟩ := hret.provider
          exact ⟨hg₄.pg.providers.subset hmem, hid⟩
        intro hist₃ found w₃ hv₃ hg₃ hprovider
        cases found with
        | none => exact Contract.SafeE.throw (fun _ _ _ => by simp [Tells])
        | some pd =>
            rw [orElse_some_bind]
            obtain ⟨ua, hua, hua'⟩ := haccount ud rfl
            refine Contract.SafeE.pure (fun w₄ _ hg₄ => ?_)
            have hg := (hg₂.trans hg₃).trans hg₄
            exact ⟨hg₄.pg.providers.subset (hprovider pd rfl).1, (hprovider pd rfl).2, ua,
              hg.pg.userAccounts.subset hua, hua'⟩
      cases r with
      | error e => exact hrest
      | ok found =>
          cases found with
          | none => exact hrest
          | some row =>
              exact Contract.SafeE.pure (fun w₃ _ hg₃ => (hback row rfl).mono hg₃
                (List.Subset.refl _))

theorem prepare_safe (hw : Inv env w) :
    (service env).SafeE (transferRequest d p u payload) (fun _ _ _ => True)
      (Tells d p u payload) hist (prepare d p u) w := by
  have hfail : ∀ hist w', Tells d p u payload hist (.error internalError) w' :=
    fun _ _ => by simp [Tells, internalError]
  cases d with
  | credit => exact Contract.SafeE.pure (fun _ _ _ => trivial)
  | debit =>
      refine Contract.SafeE.bind (M := fun _ _ _ => True)
        (db_safe (fun _ _ _ => trivial) (fun _ _ _ _ _ _ _ _ => trivial) hfail) hw ?_
      intro hist₁ found w₁ hv₁ _ _
      cases found with
      | none => exact Contract.SafeE.pure (fun _ _ _ => trivial)
      | some active =>
          simp only
          split
          · refine Contract.SafeE.bind (M := fun _ _ _ => True)
              (db_safe (fun _ _ _ => trivial) (fun _ _ _ _ _ _ _ _ => trivial) hfail) hv₁ ?_
            intro hist₂ _ w₂ hv₂ _ _
            refine Contract.SafeE.bind (M := fun _ _ _ => True)
              (safe_call (fun _ _ _ => trivial) (fun _ _ _ _ _ _ _ _ _ _ _ _ => trivial)) hv₂ ?_
            intro hist₃ r w₃ hv₃ _ _
            cases r with
            | error e => exact Contract.SafeE.pure (fun _ _ _ => trivial)
            | ok _ =>
                refine Contract.SafeE.bind (M := fun _ _ _ => True)
                  (safe_call (fun _ _ _ => trivial) (fun _ _ _ _ _ _ _ _ _ _ _ _ => trivial)) hv₃ ?_
                exact fun _ _ _ _ _ _ => Contract.SafeE.pure (fun _ _ _ => trivial)
          · exact Contract.SafeE.pure (fun _ _ _ => trivial)

theorem Parties.transferOf {ud : UserProviderDetails} {pd : Provider} (h : Parties w p u ud pd) :
    TransferOf env (transferRequest d p u payload) w.pg
      (ledgerTransfer env d payload pd.ledgerAccountId ud.userLedgerAccountId) := by
  obtain ⟨hpd, rfl, ua, hua, hpair, hlid⟩ := h
  obtain ⟨rfl, hlink⟩ := Prod.mk.inj hpair
  exact ⟨d, payload, pd, hpd, ua, hua, hlink, rfl, by rw [hlid]⟩

theorem Parties.settled {ud : UserProviderDetails} {pd : Provider} (h : Parties w p u ud pd)
    (hmem : toTbTransfer (ledgerTransfer env d payload pd.ledgerAccountId ud.userLedgerAccountId) ∈
      w.worker.ledger.transfers) :
    Settled env w.pg w.worker.ledger.transfers d payload.idempotencyKey.toString
      (asI64 payload.amount.toNat) p u pd.ledgerAccountId ud.userLedgerAccountId := by
  obtain ⟨hpd, rfl, ua, hua, hpair, hlid⟩ := h
  obtain ⟨rfl, hlink⟩ := Prod.mk.inj hpair
  exact ⟨payload, pd, hpd, ua, hua, rfl, hlink, rfl, rfl, hlid, rfl, rfl, hmem⟩

/-- A positive amount in the journal is the amount requested. -/
theorem amount_of_pos {n : UInt64} (h : 0 < asI64 n.toNat) : asI64 n.toNat = n.toNat := by
  have hlt : n.toNat < 2 ^ 64 := n.toNat_lt
  exact asI64_of_lt ((asI64_pos_iff hlt).mp h).2

theorem recordTransfer_safe {pl ul : Uuid}
    (hpre : ∀ w', Inv env w' → Grows w w' → Settled env w'.pg w'.worker.ledger.transfers d
      payload.idempotencyKey.toString (asI64 payload.amount.toNat) p u pl ul) :
    (service env).SafeE (transferRequest d p u payload)
      (fun _ row w => row ∈ w.pg.transactions ∧ Records row d p u payload)
      (Tells d p u payload) hist (recordTransfer d p u payload pl ul) w := by
  have hfail : ∀ hist w', Tells d p u payload hist (.error internalError) w' :=
    fun _ _ => by simp [Tells, internalError]
  have hrecords : ∀ (row : Transaction) (w' w'' : World), Grows w' w'' →
      (row ∈ w'.pg.transactions ∧ 0 < row.amount ∧
        row.idempotencyKey = payload.idempotencyKey.toString ∧
        row.amount = asI64 payload.amount.toNat ∧ row.providerId = some p ∧ row.userId = some u ∧
        row.transactionType = d.transactionType) →
      row ∈ w''.pg.transactions ∧ Records row d p u payload := by
    rintro row w' w'' hg ⟨hmem, hpos, hkey, hamount, hp, hu, hty⟩
    rw [hamount] at hpos
    exact ⟨hg.pg.transactions.subset hmem, hkey, hp, hu, hamount.trans (amount_of_pos hpos), hty⟩
  cases d with
  | credit =>
      refine db_safe hpre (fun row w' w'' _ _ _ hg hret => hrecords row w' w'' hg ?_) hfail
      exact Returned.recorded (Or.inl ⟨rfl, rfl⟩) rfl hret
  | debit =>
      refine db_safe hpre (fun row w' w'' _ _ _ hg hret => hrecords row w' w'' hg ?_) hfail
      exact Returned.recorded (Or.inr ⟨rfl, rfl⟩) rfl hret

theorem settle_safe {ud : UserProviderDetails} {pd : Provider} (hw : Inv env w)
    (hparties : Parties w p u ud pd) :
    (service env).SafeE (transferRequest d p u payload)
      (fun hist r w => Tells d p u payload hist (.ok r) w) (Tells d p u payload) hist
      (settle env d p u payload ud pd) w := by
  refine Contract.SafeE.bind (orFail_safe hw
    (createTransfer_safe (fun w' _ hg => (hparties.mono hg).transferOf))
    (fun _ _ _ => by simp [Tells])) hw ?_
  intro hist₁ tbResult w₁ hv₁ hg₁ hmem
  split
  · next hempty =>
      have hnil : tbResult = [] := List.isEmpty_iff.mp hempty
      refine Contract.SafeE.bind (recordTransfer_safe (fun w' _ hg => ?_)) hv₁ ?_
      · exact (hparties.mono (hg₁.trans hg)).settled (hg.transfers.subset (hmem hnil))
      intro hist₂ row w₂ hv₂ _ ⟨hrow, hrec⟩
      refine Contract.SafeE.bind (M := fun _ _ _ => True) (orFail_safe hv₂
        (Contract.Safe.weaken (harmless_safe (submit_uses trivial (fun _ => trivial))) (fun _ _ _ _ _ _ _ => trivial))
        (fun _ _ _ => by simp [Tells])) hv₂ ?_
      intro hist₃ accounts w₃ _ hg₃ _
      refine Contract.SafeE.pure (fun w₄ _ hg₄ => ⟨rfl, row, ?_, rfl, hrec.key, Or.inl hrec⟩)
      exact (hg₃.trans hg₄).pg.transactions.subset hrow
  · exact Contract.SafeE.throw (fun _ _ _ => by simp [Tells])

theorem transferHandler_safe (hw : Inv env w) :
    (service env).SafeE (transferRequest d p u payload)
      (fun hist r w => Tells d p u payload hist (.ok r) w) (Tells d p u payload) hist
      (transferHandler env d p u payload) w := by
  refine Contract.SafeE.bind (admission_safe hw) hw ?_
  intro hist₁ a w₁ hv₁ _ ha
  cases a with
  | answered response =>
      exact Contract.SafeE.pure (fun w₂ _ hg₂ => ⟨rfl, Backed.mono ha hg₂ (List.Subset.refl _)⟩)
  | admitted ud pd =>
      refine Contract.SafeE.bind (prepare_safe hv₁) hv₁ ?_
      exact fun hist₂ _ w₂ hv₂ hg₂ _ => settle_safe hv₂ (Parties.mono ha hg₂)

end

/-! ### The handlers that create accounts -/

section

variable {env : Env} {q : Request} {hist : History} {w : World}

/-- No claim about a result. -/
abbrev Anything {β : Type} : History → β → World → Prop := fun _ _ _ => True

theorem newV4_safe {γ : Type} {use : IdUse} {post : History → Except HttpError γ → World → Prop} :
    (service env).SafeE q (fun _ u w => (u, use) ∈ w.issued) post hist (newV4 use) w := by
  refine safe_call (fun _ _ _ => trivial) (fun ch r w₁ w₂ _ _ hx _ _ => ?_)
  intro w₃ _ hg₃
  simp only [World.exec] at hx
  split at hx
  · obtain ⟨rfl, rfl⟩ := Prod.mk.inj (Option.some.inj hx)
    exact hg₃.issued.subset (List.mem_append_right _ (List.mem_singleton_self _))
  · simp at hx

theorem now_safe {γ : Type} {post : History → Except HttpError γ → World → Prop} :
    (service env).SafeE q Anything post hist now w :=
  safe_call (fun _ _ _ => trivial) (fun _ _ _ _ _ _ _ _ _ _ _ _ => trivial)

theorem createAccount_safe {a : AppAccount}
    (hpre : ∀ w', Inv env w' → Grows w w' → AccountOf env w'.issued q a) :
    (service env).Safe q (fun _ r _ => ∀ x, r = .ok x → True) hist (createAccount a) w :=
  submit_safe hpre (fun _ _ _ _ _ => trivial) (fun _ _ _ _ _ _ _ _ => trivial)

theorem setUpKafka_uses {allowed : Eff → Prop} (h : ∀ cmd, allowed (.kafka cmd))
    (settings : ProviderKafkaSettings) : Prog.UsesE allowed (setUpKafka settings) := by
  refine .bind (attempt_uses (perform_uses (h _))) (fun topic => ?_)
  split
  · refine .bind (attempt_uses (perform_uses (h _))) (fun user => ?_)
    split
    · exact .bind (attempt_uses (perform_uses (h _))) (fun _ => .pure _)
    · exact .pure _
  · exact .pure _

theorem createProvider_safe {payload : CreateProviderRequest} (hw : Inv env w) :
    (service env).SafeE (ε := HttpError) (γ := StatusCode × CreateProviderResponse)
      (.createProvider payload) Anything Anything hist (Api.createProvider env payload) w := by
  refine Contract.SafeE.bind now_safe hw (fun _ at_ w₁ hv₁ _ _ => ?_)
  simp only
  split
  · refine Contract.SafeE.bind newV4_safe hv₁ (fun _ providerId w₂ hv₂ _ _ => ?_)
    refine Contract.SafeE.bind newV4_safe hv₂ (fun _ lid w₃ hv₃ _ hlid => ?_)
    refine Contract.SafeE.bind newV4_safe hv₃ (fun _ actorId w₄ hv₄ hg₄ _ => ?_)
    refine Contract.SafeE.bind (orFail_safe hv₄ (createAccount_safe (fun w' _ hg => ?_))
      (fun _ _ _ => trivial)) hv₄ (fun _ _ w₅ hv₅ hg₅ _ => ?_)
    · exact .provider _ _ _ ((hg₄.trans hg).issued.subset hlid)
    refine Contract.SafeE.bind newV4_safe hv₅ (fun _ passwordId w₆ hv₆ hg₆ _ => ?_)
    refine Contract.SafeE.bind (M := Anything) (db_safe (fun w' _ hg => ?_)
      (fun _ _ _ _ _ _ _ _ => trivial) (fun _ _ => trivial)) hv₆ (fun _ _ w₇ hv₇ _ _ => ?_)
    · exact (((hg₄.trans hg₅).trans hg₆).trans hg).issued.subset hlid
    refine Contract.SafeE.bind (M := Anything) ?_ hv₇
      (fun _ _ _ _ _ _ => Contract.SafeE.pure (fun _ _ _ => trivial))
    refine Contract.Safe.weaken (harmless_safe (setUpKafka_uses (fun _ => trivial) _)) (fun _ r _ _ _ => ?_)
    cases r <;> trivial
  · exact Contract.SafeE.throw (fun _ _ _ => trivial)

theorem createOrLink_safe {payload : CreateUserRequest} (hw : Inv env w) :
    (service env).SafeE (ε := HttpError) (γ := StatusCode × CreateUserResponse)
      (.createOrLink payload) Anything Anything hist (createOrLink env payload) w := by
  refine Contract.SafeE.bind now_safe hw (fun _ requestTime w₁ hv₁ _ _ => ?_)
  refine Contract.SafeE.bind newV4_safe hv₁ (fun _ lid w₂ hv₂ _ hlid => ?_)
  refine Contract.SafeE.bind newV4_safe hv₂ (fun _ actorId w₃ hv₃ hg₃ _ => ?_)
  refine Contract.SafeE.bind (M := fun _ (out : User × UserAccount) w =>
    (out.2.ledgerAccountId, IdUse.userLedger) ∈ w.issued) (db_safe (fun w' _ hg => ?_)
    (fun out w' w'' hv' _ _ hg hret => ?_) (fun _ _ => trivial)) hv₃ ?_
  · exact (hg₃.trans hg).issued.subset hlid
  · exact hg.issued.subset (hv'.userLedgers _ hret.linked)
  intro _ ⟨user, account⟩ w₄ hv₄ _ haccount
  simp only
  split
  · refine Contract.SafeE.bind (orFail_safe hv₄ (createAccount_safe (fun w' _ hg => ?_))
      (fun _ _ _ => trivial)) hv₄
      (fun _ _ _ _ _ _ => Contract.SafeE.pure (fun _ _ _ => trivial))
    exact .user _ _ _ (hg.issued.subset haccount)
  · exact Contract.SafeE.pure (fun _ _ _ => trivial)

/-- One seed, whose ledger id is one of the configured ones. -/
theorem seedSystemAccount_safe {seed : SystemAccountSeed} (hw : Inv env w)
    (hseed : ∀ id, env.parseUuid seed.ledgerAccountId = some id → id ∈ systemIds env) :
    (service env).SafeE (ε := String) (γ := Unit) .seedSystemAccounts Anything Anything hist
      (seedSystemAccount env seed) w := by
  unfold seedSystemAccount
  split
  · exact Contract.SafeE.throw (fun _ _ _ => trivial)
  · next id hid =>
      refine Contract.SafeE.bind (M := Anything) ?_ hw (fun _ _ w₁ hv₁ _ _ => ?_)
      · refine Contract.Safe.bind (createAccount_safe (fun w' hv' _ => ?_)) hw
          (fun _ r _ _ _ _ => ?_)
        · exact .system _ (hv'.systemLedgers _ (hseed id hid))
        · cases r <;> exact fun _ _ _ => trivial
      refine Contract.SafeE.bind (M := Anything) (safe_call (fun _ _ _ => trivial)
        (fun _ r _ _ _ _ _ _ _ => ?_)) hv₁
        (fun _ _ _ _ _ _ => Contract.SafeE.pure (fun _ _ _ => trivial))
      cases r <;> exact fun _ _ _ => trivial

theorem seedAll_safe {seeds : List SystemAccountSeed}
    (hseeds : ∀ seed ∈ seeds, ∀ id, env.parseUuid seed.ledgerAccountId = some id →
      id ∈ systemIds env) (hw : Inv env w) :
    (service env).SafeE (ε := String) (γ := Unit) .seedSystemAccounts Anything Anything hist
      (seedAll env seeds) w := by
  induction seeds generalizing hist w with
  | nil => exact Contract.SafeE.pure (fun _ _ _ => trivial)
  | cons seed seeds ih =>
      refine Contract.SafeE.bind
        (seedSystemAccount_safe hw (hseeds seed (List.mem_cons_self ..))) hw ?_
      exact fun _ _ _ hv _ _ => ih (fun s hs => hseeds s (List.mem_cons_of_mem _ hs)) hv

theorem seedSystemAccounts_safe (hw : Inv env w) :
    (service env).SafeE (ε := String) (γ := Unit) .seedSystemAccounts Anything Anything hist
      (seedSystemAccounts env) w := by
  refine seedAll_safe (fun seed hseed id hid => ?_) hw
  simp only [systemAccounts, List.mem_cons, List.not_mem_nil, or_false] at hseed
  refine List.mem_filterMap.mpr ?_
  rcases hseed with rfl | rfl
  · exact ⟨_, List.mem_cons_self .., hid⟩
  · exact ⟨_, List.mem_cons_of_mem _ (List.mem_cons_self ..), hid⟩

end

/-! ### The service -/

/-- What an answer of the service tells: a transfer answered with 200 is backed
by a row of the journal. -/
def Post (q : Request) (hist : History) (a : Answer) (w : World) : Prop :=
  ∀ d p u payload, q = transferRequest d p u payload → a.status = .ok →
    ∃ response, a = .ok (.ok, .transaction response) ∧
      Backed d p u payload hist response.transactionId w

section

variable {env : Env} {q : Request} {hist : History} {w : World}

/-- Wrapping the result of a handler. -/
theorem answerWith_safe {α : Type} {wrap : α → Body} {h : Handler (StatusCode × α)}
    {mid : History → StatusCode × α → World → Prop}
    {post : History → Except HttpError (StatusCode × α) → World → Prop}
    {post' : History → Answer → World → Prop} (hw : Inv env w)
    (hh : (service env).SafeE q mid post hist h w)
    (hok : ∀ hist a w, mid hist a w → post' hist (.ok (a.1, wrap a.2)) w)
    (herr : ∀ hist e w, post hist (.error e) w → post' hist (.error e) w) :
    (service env).Safe q post' hist (answerWith wrap h) w := by
  refine Contract.Safe.bind hh hw (fun hist' r w' hv hg hr => ?_)
  intro w'' hv'' hg''
  have := hr w'' hv'' hg''
  cases r with
  | ok a => exact hok _ _ _ this
  | error e => exact herr _ _ _ this

/-- **Every request is served safely.** -/
theorem serve_safe (hw : Inv env w) : (service env).Safe q (Post q) hist (serve env q) w := by
  have other : ∀ q', (∀ d p u payload, q' ≠ transferRequest d p u payload) →
      ∀ hist a w, Post q' hist a w :=
    fun q' hne _ _ _ d p u payload hq => absurd hq (hne d p u payload)
  have harmless : ∀ {p : Io Answer}, (∀ d p u payload, q ≠ transferRequest d p u payload) →
      p.Uses Eff.isHarmless → (service env).Safe q (Post q) hist p w :=
    fun hne hp => Contract.Safe.weaken (harmless_safe hp) (fun _ _ _ _ _ => other _ hne _ _ _)
  have reads : ∀ {p : Io Answer}, (∀ d p u payload, q ≠ transferRequest d p u payload) →
      p.Uses Eff.isRead → (service env).Safe q (Post q) hist p w :=
    fun hne hp => harmless hne (hp.mono (fun _ => Eff.isRead.harmless))
  have transfer : ∀ d p u payload, q = transferRequest d p u payload →
      (service env).Safe q (Post q) hist (serve env q) w := by
    rintro d p u payload rfl
    rw [serve_transferRequest]
    refine answerWith_safe hw (transferHandler_safe hw) ?_ ?_
    · rintro hist' ⟨status, response⟩ w' ⟨hstatus, hback⟩ d' p' u' payload' heq _
      obtain ⟨rfl, rfl, rfl, rfl⟩ : d = d' ∧ p = p' ∧ u = u' ∧ payload = payload' := by
        cases d <;> cases d' <;> simp_all [transferRequest]
      exact ⟨response, by rw [← hstatus], hback⟩
    · rintro hist' ⟨status, text⟩ w' hne d' p' u' payload' _ hstatus
      exact absurd hstatus hne
  -- only credits and debits have something to show; the others keep the invariant
  cases q with
  | creditUser p u payload => exact transfer .credit p u payload rfl
  | debitUser p u payload => exact transfer .debit p u payload rfl
  | seedSystemAccounts =>
      refine Contract.Safe.bind (seedSystemAccounts_safe hw) hw (fun _ r _ _ _ _ => ?_)
      cases r <;> exact fun _ _ _ => other _ (by rintro ⟨⟩ <;> simp [transferRequest]) _ _ _
  | createProvider payload =>
      have hne : ∀ d p u pl, Request.createProvider payload ≠ transferRequest d p u pl := by
        rintro ⟨⟩ <;> simp [transferRequest]
      exact answerWith_safe hw (createProvider_safe hw) (fun _ _ _ _ => other _ hne _ _ _)
        (fun _ _ _ _ => other _ hne _ _ _)
  | createOrLink payload =>
      have hne : ∀ d p u pl, Request.createOrLink payload ≠ transferRequest d p u pl := by
        rintro ⟨⟩ <;> simp [transferRequest]
      exact answerWith_safe hw (createOrLink_safe hw) (fun _ _ _ _ => other _ hne _ _ _)
        (fun _ _ _ _ => other _ hne _ _ _)
  | getProvider id =>
      exact reads (by rintro ⟨⟩ <;> simp [transferRequest])
        (Prog.Uses.bind (getProvider_uses id) (fun _ => trivial))
  | getUser u p =>
      exact reads (by rintro ⟨⟩ <;> simp [transferRequest])
        (Prog.Uses.bind (getUser_uses u p) (fun _ => trivial))
  | getUserBalance u =>
      exact reads (by rintro ⟨⟩ <;> simp [transferRequest])
        (Prog.Uses.bind (Prog.UsesE.bind (getUserBalance_uses u) (fun _ => .pure _))
          (fun _ => trivial))
  | createUserPriority u key payload =>
      exact harmless (by rintro ⟨⟩ <;> simp [transferRequest])
        (Prog.Uses.bind (createUserPriority_uses u key payload) (fun _ => trivial))
  | getActiveUserPriority u =>
      exact reads (by rintro ⟨⟩ <;> simp [transferRequest])
        (Prog.Uses.bind (getActiveUserPriority_uses u) (fun _ => trivial))
  | cancelActiveUserPriority u =>
      exact harmless (by rintro ⟨⟩ <;> simp [transferRequest])
        (Prog.Uses.bind (cancelActiveUserPriority_uses u) (fun _ => trivial))
  | getAllUserPriorities u =>
      exact reads (by rintro ⟨⟩ <;> simp [transferRequest])
        (Prog.Uses.bind (getAllUserPriorities_uses u) (fun _ => trivial))

/-- The contract is kept by every step of the service. -/
theorem service_sound : Contract.Sound (service env) Post (fun _ _ => True) where
  allow := fun _ _ _ _ _ _ _ _ _ _ => trivial
  env := fun _ _ _ hv _ hx => hv.move hx
  start := fun _ _ hv _ => serve_safe hv

/-- **Every reachable state** meets the contract: its world is consistent and
every request in it is being served safely. -/
theorem Reachable.holds {c : State} (h : Reachable env c) : (service env).Holds Post c := by
  obtain ⟨now, hreach⟩ := h
  have hboot : (service env).Holds Post (boot env now) :=
    ⟨Inv.boot env now, fun t ht => by simp [boot] at ht⟩
  exact (Contract.reach service_sound hboot hreach).1

theorem Reachable.inv {c : State} (h : Reachable env c) : Inv env c.world := h.holds.world

/-- Reachable states are closed under steps, which only add to the books. -/
theorem Reachable.step {c c' : State} {l : Act} (h : Reachable env c)
    (hs : (machine env).step c l = some c') : Reachable env c' ∧ Grows c.world c'.world := by
  refine ⟨?_, (service_sound.step h.holds trivial hs).2⟩
  obtain ⟨now, hreach⟩ := h
  exact ⟨now, hreach.tail trivial hs⟩

end

end Wurzburg.System
