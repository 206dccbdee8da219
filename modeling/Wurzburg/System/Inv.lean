import Wurzburg.Db.Tables
import Wurzburg.TigerBeetle.LedgerInv
import Wurzburg.System.Service

/-!
# Wurzburg.System.Inv

The invariant of the shared world, and what any step may change.

`Inv` ties the stores together: every transfer in the ledger, in the worker or
in the channel is one between a provider and a user with an account there, every
ledger account was asked for under a UUID generated for that use, and every row
of the journal records a transfer that the ledger holds. `Grows` is the rely of
every handler: rows, UUIDs, commands and transfers are only added. `Pre` is what
a handler must know before an effect for the invariant to survive it.
-/

namespace Wurzburg.System

open Wurzburg.Lib Wurzburg.Db Wurzburg.Tb Wurzburg.Api

/-! ### What may be in the ledger -/

/-- The request that moves money in a direction. -/
def transferRequest : Direction → Uuid → Uuid → TransferRequest → Request
  | .credit => .creditUser
  | .debit => .debitUser

/-- A transfer between a provider and a user with an account there. -/
def TransferFor (env : Env) (pg : Pg) (t : AppTransfer) : Prop :=
  ∃ d payload, ∃ p ∈ pg.providers, ∃ ua ∈ pg.userAccounts, ua.providerId = p.id ∧
    t = ledgerTransfer env d payload p.ledgerAccountId ua.ledgerAccountId

/-- The transfer that a request hands over. -/
def TransferOf (env : Env) (q : Request) (pg : Pg) (t : AppTransfer) : Prop :=
  ∃ d payload, ∃ p ∈ pg.providers, ∃ ua ∈ pg.userAccounts, ua.providerId = p.id ∧
    q = transferRequest d p.id ua.userId payload ∧
    t = ledgerTransfer env d payload p.ledgerAccountId ua.ledgerAccountId

theorem TransferOf.transferFor {env : Env} {q : Request} {pg : Pg} {t : AppTransfer}
    (h : TransferOf env q pg t) : TransferFor env pg t := by
  obtain ⟨d, payload, p, hp, ua, hua, hlink, -, ht⟩ := h
  exact ⟨d, payload, p, hp, ua, hua, hlink, ht⟩

theorem TransferFor.mono {env : Env} {pg pg' : Pg} {t : AppTransfer} (h : TransferFor env pg t)
    (hg : Pg.Grows pg pg') : TransferFor env pg' t := by
  obtain ⟨d, payload, p, hp, ua, hua, hlink, ht⟩ := h
  exact ⟨d, payload, p, hg.providers.subset hp, ua, hg.userAccounts.subset hua, hlink, ht⟩

/-- The account that a request asks for, under a UUID generated for that use. -/
inductive AccountOf (env : Env) (issued : List (Uuid × IdUse)) : Request → AppAccount → Prop
  | provider (payload : CreateProviderRequest) (id owner : Uuid) : (id, .providerLedger) ∈ issued →
      AccountOf env issued (.createProvider payload) (providerLedgerAccount env id owner)
  | user (payload : CreateUserRequest) (id owner : Uuid) : (id, .userLedger) ∈ issued →
      AccountOf env issued (.createOrLink payload) (userLedgerAccount env id owner)
  | system (id : Uuid) : (id, .systemLedger) ∈ issued →
      AccountOf env issued .seedSystemAccounts (systemLedgerAccount env id)

/-- An account that some request may ask for. -/
def AccountFor (env : Env) (issued : List (Uuid × IdUse)) (a : AppAccount) : Prop :=
  ∃ q, AccountOf env issued q a

theorem AccountFor.mono {env : Env} {issued issued' : List (Uuid × IdUse)} {a : AppAccount}
    (h : AccountFor env issued a) (hg : issued <+: issued') : AccountFor env issued' a := by
  obtain ⟨q, h⟩ := h
  cases h with
  | provider payload id owner h => exact ⟨_, .provider payload id owner (hg.subset h)⟩
  | user payload id owner h => exact ⟨_, .user payload id owner (hg.subset h)⟩
  | system id h => exact ⟨_, .system id (hg.subset h)⟩

/-- What the handlers ask for is plain. -/
theorem plain (env : Env) (pg : Pg) (issued : List (Uuid × IdUse)) :
    Worker.Plain (TransferFor env pg) (AccountFor env issued) where
  transfer := by
    rintro t ⟨d, payload, p, hp, ua, hua, hlink, rfl⟩
    rfl
  account := by
    rintro a ⟨q, ha⟩
    cases ha <;> exact ⟨rfl, rfl, rfl, rfl⟩

/-- A command a handler may send. -/
def CommandFor (env : Env) (pg : Pg) (issued : List (Uuid × IdUse)) : TbRequest → Prop
  | .createTransfer t => TransferFor env pg t
  | .createAccount a => AccountFor env issued a
  | _ => True

theorem CommandFor.mono {env : Env} {pg pg' : Pg} {issued issued' : List (Uuid × IdUse)}
    {request : TbRequest} (h : CommandFor env pg issued request) (hg : Pg.Grows pg pg')
    (hi : issued <+: issued') : CommandFor env pg' issued' request := by
  cases request with
  | createTransfer t => exact TransferFor.mono h hg
  | createAccount a => exact AccountFor.mono h hi
  | _ => trivial

/-! ### What may be in the journal -/

/-- A transfer of the ledger with the arguments it is recorded under. -/
def Settled (env : Env) (pg : Pg) (transfers : List Transfer) (d : Direction) (key : String)
    (amount : Int) (providerId userId providerLedgerId userLedgerId : Uuid) : Prop :=
  ∃ payload : TransferRequest, ∃ p ∈ pg.providers, ∃ ua ∈ pg.userAccounts,
    p.id = providerId ∧ ua.providerId = providerId ∧ ua.userId = userId ∧
    p.ledgerAccountId = providerLedgerId ∧ ua.ledgerAccountId = userLedgerId ∧
    key = payload.idempotencyKey.toString ∧ amount = asI64 payload.amount.toNat ∧
    toTbTransfer (ledgerTransfer env d payload providerLedgerId userLedgerId) ∈ transfers

/-- A row of the journal records a transfer that the ledger holds. -/
def Recorded (env : Env) (pg : Pg) (transfers : List Transfer) (row : Transaction) : Prop :=
  ∃ d providerId userId providerLedgerId userLedgerId,
    Settled env pg transfers d row.idempotencyKey row.amount providerId userId providerLedgerId
      userLedgerId ∧
    0 < row.amount ∧ row.transactionType = d.transactionType ∧ row.providerId = some providerId ∧
    row.userId = some userId ∧
    (row.drAccountId, row.crAccountId) = d.accounts providerLedgerId userLedgerId

theorem Settled.mono {env : Env} {pg pg' : Pg} {ts ts' : List Transfer} {d : Direction}
    {key : String} {amount : Int} {p u pl ul : Uuid} (h : Settled env pg ts d key amount p u pl ul)
    (hg : Pg.Grows pg pg') (ht : ts <+: ts') : Settled env pg' ts' d key amount p u pl ul := by
  obtain ⟨payload, p, hp, ua, hua, h₁, h₂, h₃, h₄, h₅, h₆, h₇, hmem⟩ := h
  exact ⟨payload, p, hg.providers.subset hp, ua, hg.userAccounts.subset hua, h₁, h₂, h₃, h₄, h₅,
    h₆, h₇, ht.subset hmem⟩

theorem Recorded.mono {env : Env} {pg pg' : Pg} {ts ts' : List Transfer} {row : Transaction}
    (h : Recorded env pg ts row) (hg : Pg.Grows pg pg') (ht : ts <+: ts') :
    Recorded env pg' ts' row := by
  obtain ⟨d, p, u, pl, ul, hs, hrow⟩ := h
  exact ⟨d, p, u, pl, ul, hs.mono hg ht, hrow⟩

/-! ### The invariant -/

/-- The commands sent, and where they are. -/
structure Traffic (env : Env) (w : World) : Prop where
  numbered : ∀ (i : Nat) (c : TbCommand), w.sent[i]? = some c → c.responder = i
  known : ∀ c ∈ w.worker.received ++ w.queue, c ∈ w.sent
  distinct : ((w.worker.received ++ w.queue).map TbCommand.responder).Nodup
  commands : ∀ c ∈ w.sent, CommandFor env w.pg w.issued c.request

/-- The invariant of the world. -/
structure Inv (env : Env) (w : World) : Prop where
  traffic : Traffic env w
  worker : Worker.Sound env.tb (TransferFor env w.pg) (AccountFor env w.issued) w.worker
  tables : Tables w.pg
  /-- A UUID was generated for one use only. -/
  issuedOnce : ∀ id u v, (id, u) ∈ w.issued → (id, v) ∈ w.issued → u = v
  providerLedgers : ∀ p ∈ w.pg.providers, (p.ledgerAccountId, .providerLedger) ∈ w.issued
  userLedgers : ∀ ua ∈ w.pg.userAccounts, (ua.ledgerAccountId, .userLedger) ∈ w.issued
  rowIds : ∀ row ∈ w.pg.transactions, row.id ∈ w.issued.map Prod.fst
  journal : ∀ row ∈ w.pg.transactions, Recorded env w.pg w.worker.ledger.transfers row
  systemLedgers : ∀ id ∈ systemIds env, (id, .systemLedger) ∈ w.issued

/-- What any step may change. -/
structure Grows (w w' : World) : Prop where
  pg : Pg.Grows w.pg w'.pg
  issued : w.issued <+: w'.issued
  sent : w.sent <+: w'.sent
  transfers : w.worker.ledger.transfers <+: w'.worker.ledger.transfers

theorem Grows.refl (w : World) : Grows w w :=
  ⟨.refl _, List.prefix_refl _, List.prefix_refl _, List.prefix_refl _⟩

theorem Grows.trans {w₁ w₂ w₃ : World} (h : Grows w₁ w₂) (h' : Grows w₂ w₃) : Grows w₁ w₃ :=
  ⟨h.1.trans h'.1, h.2.trans h'.2, h.3.trans h'.3, h.4.trans h'.4⟩

theorem Grows.sent_getElem? {w w' : World} (h : Grows w w') {r : ResponderId} {c : TbCommand}
    (hc : w.sent[r]? = some c) : w'.sent[r]? = some c := by
  have hlt := (List.getElem?_eq_some_iff.mp hc).1
  obtain ⟨new, hnew⟩ := h.sent
  rw [← hnew, List.getElem?_append_left hlt]
  exact hc

/-! ### Steps that leave the books alone -/

/-- Everything the invariant speaks about is the same. -/
structure SameBooks (w w' : World) : Prop where
  pg : w'.pg = w.pg
  worker : w'.worker = w.worker
  queue : w'.queue = w.queue
  sent : w'.sent = w.sent
  issued : w'.issued = w.issued

theorem SameBooks.refl (w : World) : SameBooks w w := ⟨rfl, rfl, rfl, rfl, rfl⟩

theorem SameBooks.grows {w w' : World} (h : SameBooks w w') : Grows w w' where
  pg := h.pg ▸ .refl _
  issued := h.issued ▸ List.prefix_refl _
  sent := h.sent ▸ List.prefix_refl _
  transfers := h.worker ▸ List.prefix_refl _

theorem Inv.sameBooks {env : Env} {w w' : World} (h : Inv env w) (hs : SameBooks w w') :
    Inv env w' := by
  obtain ⟨⟨h₁, h₂, h₃, h₄⟩, h₅, h₆, h₇, h₈, h₉, h₁₀, h₁₁, h₁₂⟩ := h
  constructor
  · constructor <;> simp only [hs.pg, hs.worker, hs.queue, hs.sent, hs.issued] <;> assumption
  all_goals simp only [hs.pg, hs.worker, hs.issued]; assumption

theorem redisApply_sameBooks (w : World) (cmd : RedisCmd) : SameBooks w (w.redisApply cmd) := by
  cases cmd <;> exact ⟨rfl, rfl, rfl, rfl, rfl⟩

theorem kafkaApply_sameBooks (w : World) (cmd : KafkaCmd) : SameBooks w (w.kafkaApply cmd) := by
  cases cmd <;> exact ⟨rfl, rfl, rfl, rfl, rfl⟩

theorem faulty_sameBooks {w w' : World} {f : Fault} {apply : World → World}
    {r : Except String Unit} (happly : SameBooks w (apply w)) (h : w.faulty f apply = (r, w')) :
    SameBooks w w' := by
  unfold World.faulty at h
  split at h
  · obtain ⟨rfl, rfl⟩ := Prod.mk.inj h
    exact happly
  · next applied _ =>
      obtain ⟨rfl, rfl⟩ := Prod.mk.inj h
      cases applied
      · exact .refl _
      · exact happly

/-! ### Steps of the database and of the UUID supply -/

/-- New UUIDs are put to one use. -/
theorem issuedOnce_append {issued : List (Uuid × IdUse)} {ids : List Uuid} {use : IdUse}
    (h : ∀ id u v, (id, u) ∈ issued → (id, v) ∈ issued → u = v)
    (hfresh : ∀ id ∈ ids, id ∉ issued.map Prod.fst) :
    ∀ id u v, (id, u) ∈ issued ++ ids.map (fun i => (i, use)) →
      (id, v) ∈ issued ++ ids.map (fun i => (i, use)) → u = v := by
  have hnew : ∀ id u, (id, u) ∈ ids.map (fun i => (i, use)) → id ∈ ids ∧ u = use := by
    intro id u hmem
    obtain ⟨i, hi, heq⟩ := List.mem_map.mp hmem
    obtain ⟨rfl, rfl⟩ := Prod.mk.inj heq
    exact ⟨hi, rfl⟩
  have hold : ∀ id u, (id, u) ∈ issued → id ∈ issued.map Prod.fst :=
    fun id u hmem => List.mem_map.mpr ⟨_, hmem, rfl⟩
  intro id u v hu hv
  rcases List.mem_append.mp hu with hu | hu <;> rcases List.mem_append.mp hv with hv | hv
  · exact h id u v hu hv
  · exact absurd (hold id u hu) (hfresh id (hnew id v hv).1)
  · exact absurd (hold id v hv) (hfresh id (hnew id u hu).1)
  · rw [(hnew id u hu).2, (hnew id v hv).2]

/-- The database and the UUIDs move on while the worker stands still. -/
theorem Inv.store {env : Env} {w : World} {pg : Pg} {issued : List (Uuid × IdUse)}
    (h : Inv env w) (hg : Pg.Grows w.pg pg) (hi : w.issued <+: issued) (ht : Tables pg)
    (honce : ∀ id u v, (id, u) ∈ issued → (id, v) ∈ issued → u = v)
    (hp : ∀ p ∈ pg.providers, (p.ledgerAccountId, .providerLedger) ∈ issued)
    (hu : ∀ ua ∈ pg.userAccounts, (ua.ledgerAccountId, .userLedger) ∈ issued)
    (hr : ∀ row ∈ pg.transactions, row.id ∈ issued.map Prod.fst)
    (hj : ∀ row ∈ pg.transactions, Recorded env pg w.worker.ledger.transfers row) :
    Inv env { w with pg := pg, issued := issued } ∧
      Grows w { w with pg := pg, issued := issued } := by
  refine ⟨⟨⟨h.traffic.numbered, h.traffic.known, h.traffic.distinct, fun c hc => ?_⟩, ?_, ht, honce,
    hp, hu, hr, hj, fun id hid => hi.subset (h.systemLedgers id hid)⟩, ⟨hg, hi, List.prefix_refl _, List.prefix_refl _⟩⟩
  · exact (h.traffic.commands c hc).mono hg hi
  · exact h.worker.mono (fun t ht => ht.mono hg) (fun a ha => ha.mono hi)

/-- What a repository call can do to the accounts and the journal. -/
theorem transact_cases {call : DbCall} {pg pg' : Pg} {now : Timestamp} {uuid : Nat → Uuid}
    {r : Except RepoError call.Row} {n : Nat} (h : call.body.transact pg now uuid = (r, pg', n)) :
    Pg.SameCore pg pg' ∨
    (∃ p actor, call = .createProvider p actor ∧
      (∀ q ∈ pg.providers, q.id ≠ p.id ∧ q.ledgerAccountId ≠ p.ledgerAccountId) ∧
      pg' = pg.addProvider actor p) ∨
    (∃ nid p im em lid actor user account, call = .createOrLinkUser nid p im em lid actor ∧
      Linked pg pg' nid p lid now user account) ∨
    (∃ d key amount p u pl ul actor description,
      (call = .executeCreditTransfer key amount p u pl ul actor description ∧ d = Direction.credit ∨
        call = .executeDebitTransfer key amount p u pl ul actor description ∧ d = Direction.debit) ∧
      n = 1 ∧
      ∃ new, new = newTransaction (uuid 0) key d.transactionType amount p u (d.accounts pl ul).1
        (d.accounts pl ul).2 description ∧ pg.Admits new ∧
        pg' = pg.record actor (Tx.transactionRow now new)) := by
  have reads : ∀ {α : Type} {x : Repo α} {r : Except RepoError α}, x.Uses Sql.isRead →
      x.transact pg now uuid = (r, pg', n) → Pg.SameCore pg pg' := by
    intro α x r hx h
    rw [Repo.transact_reads hx] at h
    obtain ⟨-, h⟩ := Prod.mk.inj h
    obtain ⟨rfl, -⟩ := Prod.mk.inj h
    exact .refl _
  cases call with
  | createProvider p actor =>
      rcases createProvider_spec h with ⟨e, -, rfl⟩ | ⟨-, hfree, rfl⟩
      · exact Or.inl (.refl _)
      · exact Or.inr (Or.inl ⟨p, actor, rfl, hfree, rfl⟩)
  | createOrLinkUser nid p im em lid actor =>
      rcases createOrLinkUser_spec h with ⟨e, -, rfl⟩ | ⟨user, account, -, hl⟩
      · exact Or.inl (.refl _)
      · exact Or.inr (Or.inr (Or.inl ⟨nid, p, im, em, lid, actor, user, account, rfl, hl⟩))
  | executeCreditTransfer key amount p u pl ul actor description =>
      rcases executeTransfer_spec h with ⟨hn, ⟨e, -, rfl⟩ | ⟨new, hnew, hadm, -, rfl⟩⟩
      · exact Or.inl (.refl _)
      · exact Or.inr (Or.inr (Or.inr ⟨.credit, key, amount, p, u, pl, ul, actor, description,
          Or.inl ⟨rfl, rfl⟩, hn, new, hnew, hadm, rfl⟩))
  | executeDebitTransfer key amount p u pl ul actor description =>
      rcases executeTransfer_spec h with ⟨hn, ⟨e, -, rfl⟩ | ⟨new, hnew, hadm, -, rfl⟩⟩
      · exact Or.inl (.refl _)
      · exact Or.inr (Or.inr (Or.inr ⟨.debit, key, amount, p, u, pl, ul, actor, description,
          Or.inr ⟨rfl, rfl⟩, hn, new, hnew, hadm, rfl⟩))
  | createPriorityConfig key userId items expiresAt actor =>
      exact Or.inl (Repo.transact_sparesCore (createPriorityConfig_spares ..) h)
  | cancelActivePriorityConfig userId actor =>
      exact Or.inl (Repo.transact_sparesCore (cancelActivePriorityConfig_spares ..) h)
  | recordSystemAccount code name category lid =>
      exact Or.inl (Repo.transact_sparesCore (recordSystemAccount_spares ..) h)
  | getProviderById id =>
      exact Or.inl (reads (x := getProviderById id) (Repo.uses_query trivial) h)
  | getUserProviderDetails u p =>
      exact Or.inl (reads (x := getUserProviderDetails u p) (Repo.uses_query trivial) h)
  | getUserAccountsProviderInfo u =>
      exact Or.inl (reads (x := getUserAccountsProviderInfo u) (Repo.uses_query trivial) h)
  | getTransactionByIdempotencyKey key =>
      exact Or.inl (reads (x := getTransactionByIdempotencyKey key) (Repo.uses_query trivial) h)
  | getPriorityConfigByIdempotencyKey key =>
      exact Or.inl (reads (getPriorityConfigByIdempotencyKey_reads key) h)
  | getActivePriorityConfig u => exact Or.inl (reads (getActivePriorityConfig_reads u) h)
  | getAllPriorityConfigs u => exact Or.inl (reads (getAllPriorityConfigs_reads u) h)

/-! ### What a handler owes the invariant -/

/-- What must hold before a request issues an effect. -/
def Pre (env : Env) (q : Request) : Eff → World → Prop
  | .db (.createProvider p _), w => (p.ledgerAccountId, .providerLedger) ∈ w.issued
  | .db (.createOrLinkUser _ _ _ _ lid _), w => (lid, .userLedger) ∈ w.issued
  | .db (.executeCreditTransfer key amount p u pl ul _ _), w =>
      Settled env w.pg w.worker.ledger.transfers .credit key amount p u pl ul
  | .db (.executeDebitTransfer key amount p u pl ul _ _), w =>
      Settled env w.pg w.worker.ledger.transfers .debit key amount p u pl ul
  | .tbSend (.createTransfer t), w => TransferOf env q w.pg t
  | .tbSend (.createAccount a), w => AccountOf env w.issued q a
  | _, _ => True

/-- A repository call keeps the invariant. -/
theorem Inv.dbApply {env : Env} {q : Request} {w w' : World} {ch : Choice} {call : DbCall}
    {r : Except RepoError call.Row} (h : Inv env w) (hpre : Pre env q (.db call) w)
    (hx : w.dbApply ch call = some (r, w')) : Inv env w' ∧ Grows w w' := by
  obtain ⟨pg, n, htransact, hfresh, rfl⟩ := World.dbApply_cases hx
  obtain ⟨-, hnew⟩ : _ ∧ ∀ id ∈ (List.range n).map ch.uuid, id ∉ w.issued.map Prod.fst := by
    simpa only [World.isFresh, decide_eq_true_eq] using hfresh
  have hi : w.issued <+: w.issued ++ ((List.range n).map ch.uuid).map (fun u => (u, IdUse.other)) :=
    List.prefix_append _ _
  have honce := @issuedOnce_append _ _ .other h.issuedOnce hnew
  have hrowIds : ∀ row ∈ w.pg.transactions, row.id ∈ (w.issued ++
      ((List.range n).map ch.uuid).map (fun u => (u, IdUse.other))).map Prod.fst := by
    intro row hrow
    rw [List.map_append]
    exact List.mem_append_left _ (h.rowIds row hrow)
  have hledgers : ∀ p ∈ w.pg.providers, (p.ledgerAccountId, IdUse.providerLedger) ∈ w.issued ++
      ((List.range n).map ch.uuid).map (fun u => (u, IdUse.other)) :=
    fun p hp => hi.subset (h.providerLedgers p hp)
  have hulgers : ∀ ua ∈ w.pg.userAccounts, (ua.ledgerAccountId, IdUse.userLedger) ∈ w.issued ++
      ((List.range n).map ch.uuid).map (fun u => (u, IdUse.other)) :=
    fun ua hua => hi.subset (h.userLedgers ua hua)
  -- what can change: nothing of the books, a provider, a link, or the journal
  rcases transact_cases htransact with hs | ⟨p, actor, rfl, hfree, rfl⟩ |
    ⟨nid, p, im, em, lid, actor, user, account, rfl, hl⟩ |
    ⟨d, key, amount, p, u, pl, ul, actor, description, hcall, rfl, new, rfl, hadm, rfl⟩
  · refine h.store hs.grows hi (h.tables.sameCore hs) honce ?_ ?_ ?_ ?_
    · rw [hs.providers]
      exact hledgers
    · rw [hs.userAccounts]
      exact hulgers
    · rw [hs.transactions]
      exact hrowIds
    · rw [hs.transactions]
      exact fun row hrow => (h.journal row hrow).mono hs.grows (List.prefix_refl _)
  · have hg : Pg.Grows w.pg (w.pg.addProvider actor p) :=
      ⟨List.prefix_append _ _, List.prefix_refl _, List.prefix_refl _, List.prefix_refl _⟩
    refine h.store hg hi (h.tables.addProvider hfree) honce ?_ hulgers hrowIds
      (fun row hrow => (h.journal row hrow).mono hg (List.prefix_refl _))
    intro p' hp'
    rcases List.mem_append.mp hp' with hp' | hp'
    · exact hledgers p' hp'
    · rw [List.mem_singleton.mp hp']
      exact hi.subset hpre
  · obtain ⟨hg, hprov, htx, -, hacc⟩ := hl.grows
    refine h.store hg hi (h.tables.linked hl) honce ?_ ?_ ?_ ?_
    · rw [hprov]
      exact hledgers
    · intro ua hua
      rcases hacc ua hua with hua | hlid
      · exact hulgers ua hua
      · rw [hlid]
        exact hi.subset hpre
    · rw [htx]
      exact hrowIds
    · rw [htx]
      exact fun row hrow => (h.journal row hrow).mono hg (List.prefix_refl _)
  · -- the row is backed, since its handler has seen the ledger accept the transfer
    have hsettled : Settled env w.pg w.worker.ledger.transfers d key amount p u pl ul := by
      rcases hcall with ⟨rfl, rfl⟩ | ⟨rfl, rfl⟩
      · exact hpre
      · exact hpre
    have hg : Pg.Grows w.pg (w.pg.record actor (Tx.transactionRow w.dbNow (newTransaction (ch.uuid 0)
        key d.transactionType amount p u (d.accounts pl ul).1 (d.accounts pl ul).2 description))) :=
      ⟨List.prefix_refl _, List.prefix_refl _, List.prefix_refl _, List.prefix_append _ _⟩
    refine h.store hg hi (h.tables.record hadm.newKey) honce hledgers hulgers ?_ ?_
    · intro row hrow
      rcases List.mem_append.mp hrow with hrow | hrow
      · exact hrowIds row hrow
      · rw [List.mem_singleton.mp hrow]
        simp [Tx.transactionRow, newTransaction]
    · intro row hrow
      rcases List.mem_append.mp hrow with hrow | hrow
      · exact (h.journal row hrow).mono hg (List.prefix_refl _)
      · rw [List.mem_singleton.mp hrow]
        exact ⟨d, p, u, pl, ul, hsettled.mono hg (List.prefix_refl _), hadm.amount, rfl, rfl, rfl, rfl⟩

/-- Sending a permitted command keeps the invariant. -/
theorem Inv.tbSend {env : Env} {w w' : World} {capacity : Nat} {request : TbRequest}
    {r : Option ResponderId} (h : Inv env w) (hreq : CommandFor env w.pg w.issued request)
    (hx : w.tbSend capacity request = some (r, w')) :
    Inv env w' ∧ Grows w w' ∧ ∀ i, r = some i → w'.sent[i]? = some ⟨request, i⟩ := by
  rcases World.tbSend_cases hx with ⟨rfl, rfl⟩ | ⟨rfl, rfl⟩
  · exact ⟨h, .refl _, fun i hi => by simp at hi⟩
  · have hnum : ∀ c ∈ w.sent, c.responder < w.sent.length := by
      intro c hc
      obtain ⟨i, hi⟩ := List.getElem?_of_mem hc
      rw [h.traffic.numbered i c hi]
      exact (List.getElem?_eq_some_iff.mp hi).1
    refine ⟨⟨⟨?_, ?_, ?_, ?_⟩, h.worker, h.tables, h.issuedOnce, h.providerLedgers, h.userLedgers,
      h.rowIds, h.journal, h.systemLedgers⟩, ⟨.refl _, List.prefix_refl _, List.prefix_append _ _,
      List.prefix_refl _⟩, ?_⟩
    · intro i c hc
      rcases Nat.lt_trichotomy i w.sent.length with hlt | heq | hgt
      · rw [List.getElem?_append_left hlt] at hc
        exact h.traffic.numbered i c hc
      · subst heq
        rw [List.getElem?_concat_length] at hc
        rw [← Option.some.inj hc]
      · have hlen : (w.sent ++ [(⟨request, w.sent.length⟩ : TbCommand)]).length ≤ i := by
          rw [List.length_append]
          exact hgt
        rw [List.getElem?_eq_none hlen] at hc
        simp at hc
    · intro c hc
      rw [← List.append_assoc] at hc
      rcases List.mem_append.mp hc with hc | hc
      · exact List.mem_append_left _ (h.traffic.known c hc)
      · exact List.mem_append_right _ hc
    · rw [← List.append_assoc]
      refine Tables.nodup_map_concat h.traffic.distinct (fun c hc => ?_)
      exact Nat.ne_of_lt (hnum c (h.traffic.known c hc))
    · intro c hc
      rcases List.mem_append.mp hc with hc | hc
      · exact h.traffic.commands c hc
      · rw [List.mem_singleton.mp hc]
        exact hreq
    · intro i hi
      obtain rfl := Option.some.inj hi
      exact List.getElem?_concat_length

/-- **Every effect keeps the invariant**, given what its handler owes it. -/
theorem Inv.exec {env : Env} {q : Request} {w w' : World} {capacity : Nat} {ch : Choice} {e : Eff}
    {r : e.Resp} (h : Inv env w) (hpre : Pre env q e w) (hx : w.exec capacity ch e = some (r, w')) :
    Inv env w' ∧ Grows w w' := by
  cases e with
  | now =>
      obtain ⟨rfl, rfl⟩ := Prod.mk.inj (Option.some.inj hx)
      exact ⟨h, .refl _⟩
  | newV4 use =>
      simp only [World.exec] at hx
      split at hx
      · next hfresh =>
          obtain ⟨rfl, rfl⟩ := Prod.mk.inj (Option.some.inj hx)
          have hnew : ∀ id ∈ [ch.uuid 0], id ∉ w.issued.map Prod.fst := by
            have := (by simpa only [World.isFresh, decide_eq_true_eq] using hfresh :
              [ch.uuid 0].Nodup ∧ ∀ id ∈ [ch.uuid 0], id ∉ w.issued.map Prod.fst)
            exact this.2
          have hi : w.issued <+: w.issued ++ [(ch.uuid 0, use)] := List.prefix_append _ _
          refine h.store (.refl _) hi h.tables (issuedOnce_append h.issuedOnce hnew)
            (fun p hp => hi.subset (h.providerLedgers p hp))
            (fun ua hua => hi.subset (h.userLedgers ua hua)) ?_ h.journal
          intro row hrow
          rw [List.map_append]
          exact List.mem_append_left _ (h.rowIds row hrow)
      · simp at hx
  | db call =>
      rcases World.dbExec_cases hx with ⟨e, -, rfl⟩ | ⟨r', happly, -⟩
      · exact ⟨h, .refl _⟩
      · exact h.dbApply hpre happly
  | redis cmd =>
      have hs := faulty_sameBooks (redisApply_sameBooks w cmd) (Option.some.inj hx)
      exact ⟨h.sameBooks hs, hs.grows⟩
  | kafka cmd =>
      have hs := faulty_sameBooks (kafkaApply_sameBooks w cmd) (Option.some.inj hx)
      exact ⟨h.sameBooks hs, hs.grows⟩
  | tbSend request =>
      have hreq : CommandFor env w.pg w.issued request := by
        cases request with
        | createTransfer t => exact TransferOf.transferFor hpre
        | createAccount a => exact ⟨q, hpre⟩
        | _ => trivial
      obtain ⟨hinv, hg, -⟩ := h.tbSend hreq hx
      exact ⟨hinv, hg⟩
  | tbRecv i =>
      obtain ⟨rfl, -⟩ := World.tbRecv_cases hx
      exact ⟨h, .refl _⟩

/-! ### The world's own moves -/

/-- A turn of the worker keeps the invariant. -/
theorem Inv.turn {env : Env} {w : World} {e : WorkerEvent} {queue : List TbCommand}
    (h : Inv env w) (hcmd : ∀ cmd o, e = .command cmd o → cmd ∈ w.sent)
    (hsplit : (w.worker.turn env.tb env.settings.tigerbeetle.batchMaxSize e).received ++ queue =
      w.worker.received ++ w.queue) :
    Inv env { w with worker := w.worker.turn env.tb env.settings.tigerbeetle.batchMaxSize e,
                     queue := queue } ∧
      Grows w { w with worker := w.worker.turn env.tb env.settings.tigerbeetle.batchMaxSize e,
                       queue := queue } := by
  have hperm : Worker.Permitted (TransferFor env w.pg) (AccountFor env w.issued) e := by
    intro cmd o he
    have hok := h.traffic.commands cmd (hcmd cmd o he)
    refine ⟨fun t ht => ?_, fun a ha => ?_⟩
    · rw [ht] at hok
      exact hok
    · rw [ha] at hok
      exact hok
  obtain ⟨hworker, hgrow⟩ := h.worker.turn
    (n := env.settings.tigerbeetle.batchMaxSize) (plain env w.pg w.issued) hperm
  refine ⟨⟨⟨h.traffic.numbered, ?_, ?_, h.traffic.commands⟩, hworker, h.tables, h.issuedOnce,
    h.providerLedgers, h.userLedgers, h.rowIds, ?_, h.systemLedgers⟩, ⟨.refl _, List.prefix_refl _,
    List.prefix_refl _, hgrow⟩⟩
  · rw [hsplit]
    exact h.traffic.known
  · rw [hsplit]
    exact h.traffic.distinct
  · exact fun row hrow => (h.journal row hrow).mono (.refl _) hgrow

theorem turn_received (tb : TigerBeetle) (n : Nat) (w : Worker) (e : WorkerEvent) :
    (w.turn tb n e).received = w.received ++ e.command?.toList := by
  have h := @Worker.received_run tb n w [e]
  cases e with
  | command cmd o => exact h
  | tick o => exact h

/-- **Every move of the world keeps the invariant.** -/
theorem Inv.move {env : Env} {w w' : World} {v : Move} (h : Inv env w)
    (hx : w.move env.tb env.settings.tigerbeetle.batchMaxSize v = some w') :
    Inv env w' ∧ Grows w w' := by
  cases v with
  | receive o =>
      simp only [World.move] at hx
      split at hx
      · next cmd rest _ hq =>
          obtain rfl := Option.some.inj hx
          refine h.turn (fun cmd' o' he => ?_) ?_
          · obtain ⟨rfl, -⟩ := WorkerEvent.command.inj he
            refine h.traffic.known _ (List.mem_append_right _ ?_)
            rw [hq]
            exact List.mem_cons_self ..
          · rw [turn_received, hq]
            simp [WorkerEvent.command?]
      · simp at hx
  | tick o =>
      simp only [World.move] at hx
      split at hx
      · obtain rfl := Option.some.inj hx
        refine h.turn (fun cmd' o' he => by simp at he) ?_
        rw [turn_received]
        simp [WorkerEvent.command?]
      · simp at hx
  -- the commands in the channel are dropped, so what is known of the traffic shrinks
  | stop =>
      obtain rfl := Option.some.inj hx
      have hsub : (w.worker.received ++ []).Sublist (w.worker.received ++ w.queue) :=
        (List.Sublist.refl _).append (List.nil_sublist _)
      exact ⟨⟨⟨h.traffic.numbered, fun c hc => h.traffic.known c (hsub.subset hc),
        h.traffic.distinct.sublist (hsub.map _), h.traffic.commands⟩, h.worker, h.tables,
        h.issuedOnce, h.providerLedgers, h.userLedgers, h.rowIds, h.journal, h.systemLedgers⟩,
        ⟨.refl _, List.prefix_refl _, List.prefix_refl _, List.prefix_refl _⟩⟩
  -- the new worker starts from the ledger, with an empty log
  | restart =>
      obtain rfl := Option.some.inj hx
      exact ⟨⟨⟨h.traffic.numbered, by simp [Worker.start], by simp [Worker.start],
        h.traffic.commands⟩, .start h.worker.ledger, h.tables, h.issuedOnce, h.providerLedgers,
        h.userLedgers, h.rowIds, h.journal, h.systemLedgers⟩, ⟨.refl _, List.prefix_refl _,
        List.prefix_refl _, List.prefix_refl _⟩⟩
  | clock app db =>
      obtain rfl := Option.some.inj hx
      have hs : SameBooks w { w with appNow := w.appNow + app, dbNow := w.dbNow + db } :=
        ⟨rfl, rfl, rfl, rfl, rfl⟩
      exact ⟨h.sameBooks hs, hs.grows⟩
  | expire key =>
      simp only [World.move] at hx
      split at hx
      · obtain rfl := Option.some.inj hx
        have hs := redisApply_sameBooks w (.del key)
        exact ⟨h.sameBooks hs, hs.grows⟩
      · simp at hx

/-- The invariant holds at the first start. -/
theorem Inv.boot (env : Env) (now : Timestamp) : Inv env (World.boot (systemIds env) now) where
  traffic := ⟨by simp [World.boot], by simp [World.boot, Worker.start],
    by simp [World.boot, Worker.start], by simp [World.boot]⟩
  worker := .start .empty
  tables := .empty
  issuedOnce := by
    intro id u v hu hv
    obtain ⟨i, -, hi⟩ := List.mem_map.mp hu
    obtain ⟨j, -, hj⟩ := List.mem_map.mp hv
    rw [← (Prod.mk.inj hi).2, ← (Prod.mk.inj hj).2]
  providerLedgers := by simp [World.boot, Pg.empty]
  userLedgers := by simp [World.boot, Pg.empty]
  rowIds := by simp [World.boot, Pg.empty]
  journal := by simp [World.boot, Pg.empty]
  systemLedgers := fun id hid => List.mem_map_of_mem hid

end Wurzburg.System
