import Wurzburg.System.Bank
import Wurzburg.System.Histories
import Wurzburg.System.ReportedBalances
import Wurzburg.TigerBeetle.ReadYourWrites

/-!
# Wurzburg.System.Linearizable

The movements and the balances of the service in one order.

However requests overlap, there is one book of movements (`Wurzburg.System.Bank`) in which
each of them has a place between its arrival and its answer: a credit or debit that is
answered `SUCCESS` is a movement of the book, made meanwhile, and the balances of
`get_user_balance` are those after some of the movements, all that were made before it
arrived among them (`service_linearizable`). The accounts that a balance lists are read
before the ledger is asked, so they are those of an earlier moment of the same run.
-/

namespace Wurzburg.System

open Wurzburg.Lib Wurzburg.Db Wurzburg.Tb Wurzburg.Api

/-! ### What an answer says of the book -/

/-- How many movements the ledger has posted. -/
def World.posted (w : World) : Nat := w.worker.ledger.transfers.length

/-- A credit or debit in the book: its key is there, and a `SUCCESS` put it there after the
first `lo` movements. -/
def PlacedTransfer (book : Bank.Book Uuid Party) (lo hi : Nat) (d : Direction) (p u : Uuid)
    (payload : TransferRequest) (response : TransactionResponse) : Prop :=
  ∃ k m, k < hi ∧ book[k]? = some m ∧ m.key = payload.idempotencyKey ∧
    (response.status = "SUCCESS" → lo ≤ k ∧ m = movement d p u payload)

/-- Balances in the book: those of the accounts, after the first `n` movements. -/
structure ReadAt (book : Bank.Book Uuid Party) (u : Uuid) (accounts : List UserAccount) (n : Nat)
    (response : UserBalanceResponse) : Prop where
  balances : response.providerBalances.map (fun item => (item.providerId, item.balance)) =
    accounts.map (fun ua =>
      (ua.providerId, wrap64 (Bank.balance (book.take n) (.user u ua.providerId))))
  total : response.totalBalance =
    wrap64 (accounts.map (fun ua => Bank.balance (book.take n) (.user u ua.providerId))).sum

/-- The answer has a place in the book between the two states. The balances are those of two
moments of the run from the one to the other: the accounts are listed as they were at `m`, and
their balances as they were at the later `m'`. -/
structure Placed (env : Env) (book : Bank.Book Uuid Party) (c₀ c₁ : State) (q : Request)
    (a : Answer) : Prop where
  transfer : ∀ d p u payload response, q = transferRequest d p u payload →
    a = .ok (.ok, .transaction response) →
      PlacedTransfer book c₀.world.posted c₁.world.posted d p u payload response
  balance : ∀ u response, q = .getUserBalance u → a = .ok (.ok, .userBalance response) →
    ∃ m m', (machine env).Reach (fun _ _ => True) c₀ m ∧
      (machine env).Reach (fun _ _ => True) m m' ∧ (machine env).Reach (fun _ _ => True) m' c₁ ∧
      c₀.world.posted ≤ m'.world.posted ∧ m'.world.posted ≤ c₁.world.posted ∧
      ReadAt book u (accountsOf m.world.pg u) m'.world.posted response

/-! ### What the histories of answers hold -/

/-- The worker confirmed a transfer. -/
def Confirmed (hist : History) : Prop :=
  ∃ past app i rest, hist = past ++ ⟨.tbSend (.createTransfer app), some i⟩ ::
    ⟨.tbRecv i, some (.createTransfers (.ok []))⟩ :: rest

/-- The response that the handler makes of what it read. -/
def balanceFrom (infos : List UserAccountProviderInfo) (accounts : List Account) :
    UserBalanceResponse :=
  let items := infos.map (providerBalance accounts)
  { totalBalance := items.foldl (fun total item => addI64 total item.balance) 0
    providerBalances := items }

/-- What `get_user_balance` read, and what it made of it. -/
def BalanceRead (u : Uuid) (hist : History) (response : UserBalanceResponse) : Prop :=
  ∃ infos rest, hist = ⟨.db (.getUserAccountsProviderInfo u), .ok infos⟩ :: rest ∧
    (infos = [] ∧ response = balanceFrom [] [] ∨
      ∃ i accounts, rest =
          [⟨.tbSend (.lookupAccounts (infos.map (·.ledgerAccountId.asU128))), some i⟩,
            ⟨.tbRecv i, some (.tbAccounts (.ok accounts))⟩] ∧
        response = balanceFrom infos accounts)

section

variable {env : Env} {d : Direction} {p u : Uuid} {payload : TransferRequest} {hist : History}

theorem Confirmed.append (h : Confirmed hist) (ev : Event Eff Eff.Resp) :
    Confirmed (hist ++ [ev]) := by
  obtain ⟨past, app, i, rest, rfl⟩ := h
  exact ⟨past, app, i, rest ++ [ev], by simp⟩

/-- What a successful handler leaves in its history. -/
def SuccessConfirmed (hist : History) (r : Except HttpError (StatusCode × TransactionResponse)) : Prop :=
  ∀ a, r = .ok a → a.2.status = "SUCCESS" → Confirmed hist

theorem successConfirmed_error (hist : History) (e : HttpError) : SuccessConfirmed hist (.error e) := by
  intro a ha
  cases ha

theorem admission_ends : Prog.EndsE (fun _ a => match a with
      | .answered response => response.status ≠ "SUCCESS"
      | .admitted .. => True) SuccessConfirmed hist (admission p u payload) := by
  refine Prog.EndsE.bind (db_ends successConfirmed_error) (fun h₁ found _ => ?_)
  refine Prog.EndsE.bind (orElse_ends successConfirmed_error) (fun h₂ ud _ => ?_)
  refine Prog.EndsE.bind tryDb_ends (fun h₃ known _ => ?_)
  split
  · exact (show "ALREADY_PROCESSED" ≠ "SUCCESS" by decide)
  · refine Prog.EndsE.bind (db_ends successConfirmed_error) (fun h₄ found _ => ?_)
    exact Prog.EndsE.bind (orElse_ends successConfirmed_error) (fun h₅ pd _ => trivial)

theorem settle_ends {ud : UserProviderDetails} {pd : Provider} :
    Prog.EndsE (fun h _ => Confirmed h) SuccessConfirmed hist (settle env d p u payload ud pd) := by
  refine Prog.EndsE.bind (orFail_ends successConfirmed_error submit_ends) (fun h₁ rs hrs => ?_)
  obtain ⟨i, reply, rfl, hreply⟩ := hrs
  split
  · next hempty =>
      obtain rfl := List.isEmpty_iff.mp hempty
      have hconfirmed : Confirmed (hist ++
          [⟨.tbSend (.createTransfer (ledgerTransfer env d payload pd.ledgerAccountId
            ud.userLedgerAccountId)), some i⟩, ⟨.tbRecv i, some reply⟩]) := by
        cases reply with
        | createTransfers r =>
            obtain rfl := Option.some.inj hreply
            exact ⟨hist, _, i, [], rfl⟩
        | _ => cases hreply
      have hkept : ∀ {γ : Type} {x : Handler γ} {h : History}, Confirmed h →
          Prog.UsesE (fun _ => True) x →
          Prog.EndsE (fun h _ => Confirmed h) SuccessConfirmed h x := fun hc hx =>
        Prog.EndsE.of_uses (fun _ _ _ _ h => h.append _) (fun h e _ => successConfirmed_error h e) hx hc
      refine Prog.EndsE.bind (hkept hconfirmed ?_) (fun h₂ row hc => ?_)
      · cases d <;> exact db_uses trivial
      · refine Prog.EndsE.bind (hkept hc ?_) (fun h₃ rs hc => hc)
        exact orFail_uses (submit_uses trivial (fun _ => trivial))
  · exact successConfirmed_error _ _

theorem transferHandler_ends :
    (serve env (transferRequest d p u payload)).Ends (fun h a => ∀ response,
      a = .ok (.ok, .transaction response) → response.status = "SUCCESS" → Confirmed h) [] := by
  rw [serve_transferRequest]
  have hhandler : Prog.EndsE (fun h a => a.2.status = "SUCCESS" → Confirmed h) SuccessConfirmed []
      (transferHandler env d p u payload) := by
    refine Prog.EndsE.bind admission_ends (fun h₁ a ha => ?_)
    cases a with
    | answered response => exact fun hs => absurd hs ha
    | admitted ud pd =>
        have hprepare : Prog.EndsE (fun _ _ => True) SuccessConfirmed h₁ (prepare d p u) := by
          refine Prog.Ends.of_forall (fun h r => ?_) _
          cases r with
          | ok a => trivial
          | error e => exact successConfirmed_error h e
        refine hprepare.bind (fun h₂ _ _ => settle_ends.weaken (fun h r hr => ?_))
        cases r with
        | ok a => exact fun _ => hr
        | error e => exact hr
  refine answerWith_ends hhandler ?_ ?_
  · intro h a ha response heq
    obtain ⟨-, hbody⟩ := Prod.mk.inj (Except.ok.inj heq)
    obtain rfl := Body.transaction.inj hbody
    exact ha
  · intro h e _ response heq
    cases heq

theorem serve_confirms (q : Request) :
    (serve env q).Ends (fun h a => ∀ d p u payload response, q = transferRequest d p u payload →
      a = .ok (.ok, .transaction response) → response.status = "SUCCESS" → Confirmed h) [] := by
  by_cases hq : ∃ d p u payload, q = transferRequest d p u payload
  · obtain ⟨d, p, u, payload, rfl⟩ := hq
    exact transferHandler_ends.weaken (fun h a hh _ _ _ _ response _ => hh response)
  · refine Prog.Ends.of_forall (fun h a d p u payload _ heq => ?_) _
    exact absurd ⟨d, p, u, payload, heq⟩ hq

theorem getUserBalance_ends :
    (serve env (.getUserBalance u)).Ends (fun h a => ∀ response,
      a = .ok (.ok, .userBalance response) → BalanceRead u h response) [] := by
  have herror : ∀ (h : History) (e : HttpError), (fun (_ : History)
      (r : Except HttpError (StatusCode × UserBalanceResponse)) => ∀ a, r ≠ .ok a) h (.error e) := by
    intro h e a heq
    cases heq
  have hbody : Prog.EndsE (BalanceRead u)
      (fun _ (r : Except HttpError (StatusCode × UserBalanceResponse)) => ∀ a, r ≠ .ok a) []
      (getUserBalance u) := by
    refine Prog.EndsE.bind (db_ends herror) (fun h₁ infos hinfos => ?_)
    subst hinfos
    split
    · next hempty =>
        obtain rfl := List.isEmpty_iff.mp hempty
        exact ⟨_, _, rfl, Or.inl ⟨rfl, rfl⟩⟩
    · refine Prog.EndsE.bind (orFail_ends herror submit_ends) (fun h₂ accounts hread => ?_)
      obtain ⟨i, reply, rfl, hreply⟩ := hread
      cases reply with
      | tbAccounts r =>
          obtain rfl := Option.some.inj hreply
          exact ⟨infos, _, rfl, Or.inr ⟨i, accounts, rfl, rfl⟩⟩
      | _ => cases hreply
  have hhandler : Prog.EndsE (fun h a => BalanceRead u h a.2) (fun _ r => ∀ a, r ≠ .ok a) []
      ((getUserBalance u).map (fun b => (StatusCode.ok, b))) :=
    hbody.bind (fun h response hread => hread)
  refine answerWith_ends hhandler ?_ ?_
  · intro h a hread response heq
    obtain ⟨-, hbody⟩ := Prod.mk.inj (Except.ok.inj heq)
    obtain rfl := Body.userBalance.inj hbody
    exact hread
  · intro h e _ response heq
    cases heq

theorem serve_reads (q : Request) :
    (serve env q).Ends (fun h a => ∀ u response, q = .getUserBalance u →
      a = .ok (.ok, .userBalance response) → BalanceRead u h response) [] := by
  cases q with
  | getUserBalance v =>
      have hends : (serve env (.getUserBalance v)).Ends _ [] := getUserBalance_ends
      refine hends.weaken (fun h a hh u response heq => ?_)
      obtain rfl := Request.getUserBalance.inj heq
      exact hh response
  | _ => exact Prog.Ends.of_forall (fun h a u response heq => by cases heq) _

end

/-! ### When the ledger was asked -/

section

variable {env : Env} {c₀ c : State} {ok : State → Act → Prop}

/-- No command was answered before it was sent. -/
theorem Inv.responder_lt {w : World} (h : Inv env w) {i : ResponderId} {reply : TbReply}
    (hreply : (i, reply) ∈ w.worker.replies) : i < w.sent.length := by
  obtain ⟨cmd, hcmd, rfl, -⟩ := (h.worker.answers.sound _ hreply).request h.worker.history
  obtain ⟨j, hj⟩ := List.getElem?_of_mem (h.traffic.known cmd (List.mem_append_left _ hcmd))
  rw [h.traffic.numbered j cmd hj]
  exact (List.getElem?_eq_some_iff.mp hj).1

/-- A command that was sent is the one that is answered under its number. -/
theorem Inv.sent_eq {w : World} (h : Inv env w) {cmd : TbCommand} {request : TbRequest}
    (hcmd : cmd ∈ w.sent) (hsent : w.sent[cmd.responder]? = some ⟨request, cmd.responder⟩) :
    cmd.request = request := by
  obtain ⟨j, hj⟩ := List.getElem?_of_mem hcmd
  rw [h.traffic.numbered j cmd hj] at hsent
  exact congrArg TbCommand.request (Option.some.inj (hj.symm.trans hsent))

/-- A lookup outside the batches reads the ledger of some moment between its command and its
answer. -/
theorem Reachable.lookup_moment (hc₀ : Reachable env c₀) (hrun : (machine env).Reach ok c₀ c)
    {i : ResponderId} {x : Except String (List Account)}
    (hold : c₀.world.sent.length ≤ i) (hreply : (i, .tbAccounts x) ∈ c.world.worker.replies) :
    ∃ m ids o, (machine env).Reach ok c₀ m ∧ (machine env).Reach ok m c ∧
      ⟨.lookupAccounts ids, i⟩ ∈ m.world.sent ∧ x = Worker.lookupDirect m.world.worker.ledger ids o := by
  induction hrun with
  | refl => exact absurd (hc₀.inv.responder_lt hreply) (Nat.not_lt.mpr hold)
  | @tail m c' l hrun hok hs ih =>
      have hearlier : (i, .tbAccounts x) ∈ m.world.worker.replies →
          ∃ m₁ ids o, (machine env).Reach ok c₀ m₁ ∧ (machine env).Reach ok m₁ c' ∧
            ⟨.lookupAccounts ids, i⟩ ∈ m₁.world.sent ∧
            x = Worker.lookupDirect m₁.world.worker.ledger ids o := by
        intro h
        obtain ⟨m₁, ids, o, h₁, h₂, hrest⟩ := ih h
        exact ⟨m₁, ids, o, h₁, h₂.tail hok hs, hrest⟩
      have hm := hc₀.extend hrun
      rcases step_worker hs with hw | ⟨e, hw, hqueued⟩ | hw
      · rw [hw] at hreply
        exact hearlier hreply
      · rw [hw] at hreply
        rcases (Worker.turn_direct m.world.worker e).1 i x hreply with h | ⟨ids, o, he, hx⟩
        · exact hearlier h
        · have hsent := hm.inv.traffic.known _ (List.mem_append_right _ (hqueued _ o he))
          exact ⟨m, ids, o, hrun, .tail .refl hok hs, hsent, hx⟩
      · rw [hw] at hreply
        cases hreply

/-- A batch handed over since `c₀` met a ledger no earlier than that of `c₀`. -/
theorem Reachable.submitted_since (hc₀ : Reachable env c₀) (hrun : (machine env).Reach ok c₀ c) :
    ∀ s ∈ c.world.worker.transferLog, s ∈ c₀.world.worker.transferLog ∨
      c₀.world.worker.ledger.transfers <+: s.before.transfers := by
  induction hrun with
  | refl => exact fun s hs => Or.inl hs
  | @tail m c' l hrun _ hs ih =>
      have hm := hc₀.extend hrun
      rcases step_worker hs with hw | ⟨e, hw, hqueued⟩ | hw
      · rw [hw]
        exact ih
      · rw [hw]
        intro s hs
        rcases hm.inv.worker.turn_submits (plain env _ _) (hm.inv.permitted hqueued) s hs with h | h
        · exact ih s h
        · exact Or.inr ((hc₀.grows hrun).transfers.trans h)
      · rw [hw]
        exact fun s hs => absurd hs List.not_mem_nil

/-- A transfer sent since `c₀` and confirmed since is new to the ledger. -/
theorem Reachable.confirmed_new (hc₀ : Reachable env c₀) (hrun : (machine env).Reach ok c₀ c)
    {i : ResponderId} {app : AppTransfer} (hold : c₀.world.sent.length ≤ i)
    (hsent : c.world.sent[i]? = some ⟨.createTransfer app, i⟩)
    (hreply : (i, .createTransfers (.ok [])) ∈ c.world.worker.replies) :
    toTbTransfer app ∈ c.world.worker.ledger.transfers ∧
      ∀ t ∈ c₀.world.worker.ledger.transfers, t.id ≠ app.id := by
  have hc := hc₀.extend hrun
  refine ⟨hc.inv.accepted hsent hreply rfl, ?_⟩
  -- the batch of the transfer was handed over since `c₀`, or its answer was there before
  obtain ⟨cmd, hcmd, rfl, -⟩ :=
    (hc.inv.worker.answers.sound _ hreply).request hc.inv.worker.history
  have hreq := hc.inv.sent_eq (hc.inv.traffic.known cmd (List.mem_append_left _ hcmd)) hsent
  have hreceived : ⟨.createTransfer app, cmd.responder⟩ ∈ c.world.worker.received := by
    rw [← hreq]
    exact hcmd
  have hdistinct : c.world.worker.Distinct :=
    hc.inv.traffic.distinct.sublist ((List.sublist_append_left _ _).map _)
  obtain ⟨s, hs, k, hitem, hresponder, hresults⟩ := Worker.transfer_answer hc.inv.worker.history
    hc.inv.worker.answers hdistinct hreceived hreply
  rcases hc₀.submitted_since hrun s hs with hlogged | hprefix
  · have hanswered := hc₀.inv.worker.answers.transfers s hlogged _
      (List.mem_of_getElem? hresponder)
    exact absurd (hc₀.inv.responder_lt hanswered) (Nat.not_lt.mpr hold)
  · have hfresh := hc.inv.worker.confirmed_fresh (plain env _ _) hs
      (TbReply.createTransfers.inj hresults).symm app (List.mem_of_getElem? hitem)
    exact fun t ht => hfresh t (List.IsPrefix.subset hprefix ht)

/-- A new request that had an answer from the worker: the command was sent and the answer
taken in the run. -/
theorem Reachable.exchange_moment (hc₀ : Reachable env c₀) (hrun : (machine env).Reach ok c₀ c)
    {n : Nat} {t : Serving} {past rest : History} {request : TbRequest} {i : ResponderId}
    {reply : TbReply} (ht : c.tasks[n]? = some t)
    (hhist : t.hist =
      past ++ ⟨.tbSend request, some i⟩ :: ⟨.tbRecv i, some reply⟩ :: rest)
    (hnew : ∀ t₀, c₀.tasks[n]? = some t₀ → t₀.hist.length ≤ past.length) :
    ∃ m m' k, (machine env).Reach ok c₀ m ∧ (machine env).Reach ok m m' ∧
      (machine env).Reach ok m' c ∧
      m.tasks[n]? = some ⟨t.req, past, some (.call (.tbSend request) k)⟩ ∧
      m.world.sent.length = i ∧ m'.world.sent[i]? = some ⟨request, i⟩ ∧
      (i, reply) ∈ m'.world.worker.replies := by
  obtain ⟨m, m₁, ch, k, h₀m, hmm₁, hm₁, htask, hx, htask₁⟩ := hrun.moment ht hhist hnew
  have hhist₁ : t.hist =
      (past ++ [⟨.tbSend request, some i⟩]) ++ ⟨.tbRecv i, some reply⟩ :: rest := by
    rw [hhist, List.append_assoc]
    rfl
  obtain ⟨m', m₂, ch', k', hm₁m', hm'm₂, hm₂, -, hx', -⟩ := hm₁.moment ht hhist₁ (fun t₀ ht₀ => by
    obtain rfl := Option.some.inj (htask₁.symm.trans ht₀)
    exact Nat.le_refl _)
  have hsent : m.world.sent.length = i ∧ m₁.world.sent[i]? = some ⟨request, i⟩ := by
    rcases World.tbSend_cases hx with ⟨hnone, -⟩ | ⟨hsome, hw⟩
    · cases hnone
    · obtain rfl := Option.some.inj hsome
      refine ⟨rfl, ?_⟩
      rw [hw]
      exact List.getElem?_concat_length
  have hm₁ := ((hc₀.extend h₀m).extend hmm₁)
  refine ⟨m, m', k, h₀m, hmm₁.trans hm₁m', hm'm₂.trans hm₂, htask, hsent.1, ?_, ?_⟩
  · exact (hm₁.grows hm₁m').sent_getElem? hsent.2
  · exact (World.tbRecv_cases hx').2 reply rfl

/-! ### The place of a request -/

/-- What a balance was made of: the accounts as they were at one moment, the ledger as it
was at a later one. -/
theorem Reachable.balance_moments (hc₀ : Reachable env c₀) (hrun : (machine env).Reach ok c₀ c)
    {n : Nat} {t : Serving} {u : Uuid} {response : UserBalanceResponse}
    (ht : c.tasks[n]? = some t) (hnew : c₀.tasks.length ≤ n)
    (hread : BalanceRead u t.hist response) :
    ∃ m m', (machine env).Reach ok c₀ m ∧ (machine env).Reach ok m m' ∧
      (machine env).Reach ok m' c ∧
      response = balanceResponse m'.world.worker.ledger (m.world.pg.userAccountsProviderInfo u) := by
  have hnone : c₀.tasks[n]? = none := List.getElem?_eq_none hnew
  obtain ⟨infos, rest, hhist, hmade⟩ := hread
  obtain ⟨m, m₁, ch, k, h₀m, hmm₁, hm₁, -, hx, htask₁⟩ := hrun.moment ht
    (show t.hist = [] ++ _ :: rest from hhist) (fun t₀ ht₀ => by rw [hnone] at ht₀; cases ht₀)
  have hinfos : m.world.pg.userAccountsProviderInfo u = infos := by
    obtain ⟨-, happly⟩ := World.dbExec_row hx
    obtain ⟨pg, k, htx, -, -⟩ := World.dbApply_cases happly
    exact Except.ok.inj (Prod.mk.inj htx).1
  rcases hmade with ⟨rfl, rfl⟩ | ⟨i, accounts, rfl, rfl⟩
  · refine ⟨m, m₁, h₀m, hmm₁, hm₁, ?_⟩
    rw [hinfos]
    rfl
  · have hr₁ := (hc₀.extend h₀m).extend hmm₁
    obtain ⟨m₂, m₃, k, hm₁m₂, hm₂m₃, hm₃, -, hlen, hsent, hreply⟩ :=
      hr₁.exchange_moment hm₁ ht (show t.hist = [_] ++ _ :: _ :: [] from hhist) (fun t₀ ht₀ => by
        obtain rfl := Option.some.inj (htask₁.symm.trans ht₀)
        exact Nat.le_refl _)
    have hr₂ := hr₁.extend hm₁m₂
    obtain ⟨m', ids, o, hm₂m', hm'm₃, hcmd, hlookup⟩ :=
      hr₂.lookup_moment hm₂m₃ (Nat.le_of_eq hlen) hreply
    have hr₃ := hr₂.extend hm₂m₃
    have hids : ids = infos.map (·.ledgerAccountId.asU128) := by
      have hmem := ((hr₂.extend hm₂m').grows hm'm₃).sent.subset hcmd
      exact TbRequest.lookupAccounts.inj (hr₃.inv.sent_eq hmem hsent)
    refine ⟨m, m', h₀m, (hmm₁.trans hm₁m₂).trans hm₂m', hm'm₃.trans hm₃, ?_⟩
    cases o with
    | ok =>
        obtain rfl := Except.ok.inj hlookup
        rw [hinfos, hids]
        rfl
    | err applied e => cases hlookup

/-- A confirmed transfer: what the request asked for, posted since it arrived. -/
theorem Reachable.confirmed_moment (hc₀ : Reachable env c₀)
    (hrun : (machine env).Reach ok c₀ c) {n : Nat} {t : Serving} (ht : c.tasks[n]? = some t)
    (hnew : c₀.tasks.length ≤ n) (hconfirmed : Confirmed t.hist) :
    ∃ d p u payload, t.req = transferRequest d p u payload ∧
      ∃ transfer ∈ c.world.worker.ledger.transfers,
        CarriesOut c.world.pg (movement d p u payload) transfer ∧
        transfer ∉ c₀.world.worker.ledger.transfers := by
  have hnone : c₀.tasks[n]? = none := List.getElem?_eq_none hnew
  obtain ⟨past, app, i, rest, hhist⟩ := hconfirmed
  obtain ⟨m, m', k, h₀m, hmm', hm', htask, hlen, hsent, hreply⟩ :=
    hc₀.exchange_moment hrun ht hhist (fun t₀ ht₀ => by rw [hnone] at ht₀; cases ht₀)
  have hr := hc₀.extend h₀m
  have hr' := hr.extend hmm'
  obtain ⟨hposted, hfresh⟩ := hr.confirmed_new hmm' (Nat.le_of_eq hlen) hsent hreply
  have hof : TransferOf env t.req m.world.pg app :=
    hr.holds.pending (List.mem_of_getElem? htask) rfl
  obtain ⟨d, p, u, payload, hreq, hcarries⟩ := hof.carriesOut
  refine ⟨d, p, u, payload, hreq, toTbTransfer app, ?_, ?_, fun hmem => ?_⟩
  · exact (hr'.grows hm').transfers.subset hposted
  · exact hcarries.mono (hr.grows (hmm'.trans hm')).pg
  · exact hfresh _ ((hc₀.grows h₀m).transfers.subset hmem) rfl

/-! ### The book at an earlier moment -/

section Book

variable {book : Bank.Book Uuid Party} {m : State}

/-- The movements of an earlier moment come first in the book. -/
theorem Shows.earlier (hshows : Shows c.world book) (hm : Reachable env m)
    (hrun : (machine env).Reach ok m c) :
    List.Forall₂ (CarriesOut c.world.pg) (book.take m.world.posted)
      m.world.worker.ledger.transfers := by
  rw [List.prefix_iff_eq_take.mp (hm.grows hrun).transfers]
  exact List.forall₂_take m.world.posted hshows.transfers

/-- What a party held at an earlier moment. -/
theorem Shows.held_earlier (hshows : Shows c.world book) (hm : Reachable env m)
    (hrun : (machine env).Reach ok m c) {party : Party} {x : Uuid}
    (hx : Numbered m.world.pg party x) :
    Bank.balance (book.take m.world.posted) party = netPosted m.world.worker.ledger x := by
  have hc := hm.extend hrun
  rw [hc.inv.balance_eq (hx.mono (hm.grows hrun).pg) (hshows.earlier hm hrun),
    Ledger.balance_movements]
  exact netPosted_eq hm.inv x

/-- A transfer of an earlier moment has its movement in the book. -/
theorem Shows.entry (hshows : Shows c.world book) (hm : Reachable env m)
    (hrun : (machine env).Reach ok m c) {t : Transfer}
    (ht : t ∈ m.world.worker.ledger.transfers) :
    ∃ k, k < m.world.posted ∧ c.world.worker.ledger.transfers[k]? = some t ∧
      ∃ entry, book[k]? = some entry ∧ CarriesOut c.world.pg entry t := by
  obtain ⟨k, hk⟩ := List.getElem?_of_mem ht
  have hlt : k < m.world.posted := (List.getElem?_eq_some_iff.mp hk).1
  obtain ⟨new, hnew⟩ := (hm.grows hrun).transfers
  have hk' : c.world.worker.ledger.transfers[k]? = some t := by
    rw [← hnew, List.getElem?_append_left hlt, hk]
  obtain ⟨hltc, hget⟩ := List.getElem?_eq_some_iff.mp hk'
  have hltb : k < book.length := by
    rw [hshows.transfers.length_eq]
    exact hltc
  have hentry := hshows.transfers.get hltb hltc
  rw [List.get_eq_getElem, List.get_eq_getElem, hget] at hentry
  exact ⟨k, hlt, hk', _, List.getElem?_eq_getElem hltb, hentry⟩

/-- The balances computed from an earlier ledger, for the accounts of a moment before it. -/
theorem Shows.readAt (hshows : Shows c.world book) {m' : State} (hm : Reachable env m)
    (hmm' : (machine env).Reach ok m m') (hrun : (machine env).Reach ok m' c) (u : Uuid) :
    ReadAt book u (accountsOf m.world.pg u) m'.world.posted
      (balanceResponse m'.world.worker.ledger (m.world.pg.userAccountsProviderInfo u)) := by
  have hm' := hm.extend hmm'
  have hheld : ∀ ua ∈ accountsOf m.world.pg u, netPosted m'.world.worker.ledger ua.ledgerAccountId =
      Bank.balance (book.take m'.world.posted) (.user u ua.providerId) := by
    intro ua hua
    obtain ⟨hmem, huser⟩ := List.mem_filter.mp hua
    obtain rfl : ua.userId = u := of_decide_eq_true huser
    have hnumbered : Numbered m'.world.pg (.user ua.userId ua.providerId) ua.ledgerAccountId :=
      .user ((hm.grows hmm').pg.userAccounts.subset hmem)
    exact (hshows.held_earlier hm' hrun hnumbered).symm
  constructor
  · have hitems : (balanceResponse m'.world.worker.ledger
        (m.world.pg.userAccountsProviderInfo u)).providerBalances.map
          (fun item => (item.providerId, item.balance)) =
        ((m.world.pg.userAccountsProviderInfo u).map
          (fun info => (info.providerId, info.ledgerAccountId))).map
          (fun pair => (pair.1, wrap64 (netPosted m'.world.worker.ledger pair.2))) := by
      rw [balanceResponse, List.map_map, List.map_map]
      refine List.map_congr_left (fun info hinfo => ?_)
      exact congrArg (Prod.mk info.providerId) (providerBalance_own hinfo)
    rw [hitems, accountInfos hm.inv.tables, List.map_map]
    refine List.map_congr_left (fun ua hua => ?_)
    exact congrArg (fun b => (ua.providerId, wrap64 b)) (hheld ua hua)
  · rw [totalBalance_own, map_accountInfos hm.inv.tables u
      (fun x => netPosted m'.world.worker.ledger x)]
    exact congrArg (fun bs : List Int => wrap64 bs.sum) (List.map_congr_left hheld)

end Book

/-! ### The places -/

variable {book : Bank.Book Uuid Party} {c₁ : State}

theorem transferRequest_inj {d d' : Direction} {p p' u u' : Uuid}
    {payload payload' : TransferRequest}
    (h : transferRequest d p u payload = transferRequest d' p' u' payload') :
    d = d' ∧ p = p' ∧ u = u' ∧ payload = payload' := by
  cases d <;> cases d' <;> simp_all [transferRequest]

/-- The place of a credit or debit. -/
theorem Shows.placed_transfer (hshows : Shows c.world book) (hc₀ : Reachable env c₀)
    (hrun₀ : (machine env).Reach ok c₀ c₁) (hrun : (machine env).Reach ok c₁ c) {n : Nat}
    {t : Serving} {d : Direction} {p u : Uuid} {payload : TransferRequest}
    {response : TransactionResponse} (hnew : c₀.tasks.length ≤ n) (ht : c₁.tasks[n]? = some t)
    (hreq : t.req = transferRequest d p u payload)
    (ha : t.answer? = some (.ok (.ok, .transaction response))) :
    PlacedTransfer book c₀.world.posted c₁.world.posted d p u payload response := by
  have hc₁ := hc₀.extend hrun₀
  have hc := hc₁.extend hrun
  have hmem := List.mem_of_getElem? ht
  by_cases hsuccess : response.status = "SUCCESS"
  · obtain ⟨now, hboot⟩ := id hc₁
    have hconfirmed := hboot.answer_ends serve_confirms rfl hmem ha d p u payload response hreq rfl
      hsuccess
    obtain ⟨d', p', u', payload', hreq', transfer, hposted, hcarries, hfresh⟩ :=
      hc₀.confirmed_moment hrun₀ ht hnew hconfirmed
    obtain ⟨rfl, rfl, rfl, rfl⟩ := transferRequest_inj (hreq.symm.trans hreq')
    obtain ⟨k, hlt, hk, entry, hentry, hcarries'⟩ := hshows.entry hc₁ hrun hposted
    obtain rfl := hc.inv.carriesOut_inj hcarries' (hcarries.mono (hc₁.grows hrun).pg)
    refine ⟨k, _, hlt, hentry, rfl, fun _ => ⟨?_, rfl⟩⟩
    -- what was there before the request arrived is not the transfer
    by_contra hlo
    obtain ⟨new, hprefix⟩ := (hc₀.grows (hrun₀.trans hrun)).transfers
    rw [← hprefix, List.getElem?_append_left (Nat.lt_of_not_le hlo)] at hk
    exact hfresh (List.mem_of_getElem? hk)
  · obtain ⟨_, -, row, hrow, -, hkey, -⟩ := hc₁.holds.answered hmem ha d p u payload hreq rfl
    obtain ⟨transfer, hposted, hbacked⟩ := (hc₁.inv.journal row hrow).backedBy hkey
    obtain ⟨k, hlt, -, entry, hentry, hcarries⟩ := hshows.entry hc₁ hrun hposted
    refine ⟨k, entry, hlt, hentry, ?_, fun h => absurd h hsuccess⟩
    exact Uuid.asU128_inj.mp (hcarries.key.symm.trans hbacked.id)

/-- The place of a balance. -/
theorem Shows.placed_balance (hshows : Shows c.world book) (hc₀ : Reachable env c₀)
    (hrun₀ : (machine env).Reach ok c₀ c₁) (hrun : (machine env).Reach ok c₁ c) {n : Nat}
    {t : Serving} {u : Uuid} {response : UserBalanceResponse} (hnew : c₀.tasks.length ≤ n)
    (ht : c₁.tasks[n]? = some t) (hreq : t.req = .getUserBalance u)
    (ha : t.answer? = some (.ok (.ok, .userBalance response))) :
    ∃ m m', (machine env).Reach ok c₀ m ∧ (machine env).Reach ok m m' ∧
      (machine env).Reach ok m' c₁ ∧
      c₀.world.posted ≤ m'.world.posted ∧ m'.world.posted ≤ c₁.world.posted ∧
      ReadAt book u (accountsOf m.world.pg u) m'.world.posted response := by
  obtain ⟨now, hboot⟩ := hc₀.extend hrun₀
  have hread := hboot.answer_ends serve_reads rfl (List.mem_of_getElem? ht) ha u response hreq rfl
  obtain ⟨m, m', h₀m, hmm', hm', rfl⟩ := hc₀.balance_moments hrun₀ ht hnew hread
  have hm := hc₀.extend h₀m
  refine ⟨m, m', h₀m, hmm', hm', ?_, ?_, ?_⟩
  · exact (hc₀.grows (h₀m.trans hmm')).transfers.length_le
  · exact ((hm.extend hmm').grows hm').transfers.length_le
  · exact hshows.readAt hm hmm' (hm'.trans hrun) u

end

/-- **Credits, debits and balances are linearizable.** In every reachable state there is one
book, a run of the bank that shows the ledger, in which every request that was answered has a
place between any moment before it arrived and any moment after its answer. -/
theorem service_linearizable {env : Env} {c : State} (hc : Reachable env c) :
    ∃ book, Bank.Run Party.isUser (Asked c) [] book ∧ Shows c.world book ∧
      ∀ c₀ c₁, Reachable env c₀ → (machine env).Reach (fun _ _ => True) c₀ c₁ →
        (machine env).Reach (fun _ _ => True) c₁ c →
        ∀ (i : Nat) t a, c₀.tasks.length ≤ i → c₁.tasks[i]? = some t → t.answer? = some a →
          Placed env book c₀ c₁ t.req a := by
  obtain ⟨book, hbook, hshows⟩ := hc.exists_run
  refine ⟨book, hbook, hshows, fun c₀ c₁ hc₀ hrun₀ hrun i t a hnew ht ha => ⟨?_, ?_⟩⟩
  · rintro d p u payload response hreq rfl
    exact hshows.placed_transfer hc₀ hrun₀ hrun hnew ht hreq ha
  · rintro u response hreq rfl
    exact hshows.placed_balance hc₀ hrun₀ hrun hnew ht hreq ha

/-- A credit of 500 has been posted and is not answered yet. -/
def creditUnderWay : State :=
  inTurns defaultEnv
    [.arrive (transferRequest .credit ⟨1002⟩ ⟨1008⟩ ⟨⟨7⟩, 500, none⟩), .serve 2 6] oneUser

/-- Meanwhile the balance is read, and then the credit is answered. -/
def balanceAfter : State :=
  inTurns defaultEnv [.arrive (.getUserBalance ⟨1008⟩), .serve 3 60, .serve 2 60] creditUnderWay

theorem service_linearizable_balanceAfter :
    ∃ book, Shows balanceAfter.world book ∧
      (∃ k : Nat, book[k]? = some (movement .credit ⟨1002⟩ ⟨1008⟩ ⟨⟨7⟩, 500, none⟩)) ∧
      ∃ m m', (machine defaultEnv).Reach (fun _ _ => True) creditUnderWay m ∧
        (machine defaultEnv).Reach (fun _ _ => True) m m' ∧ m'.world.posted = 1 ∧
        ReadAt book ⟨1008⟩ (accountsOf m.world.pg ⟨1008⟩) 1
          ⟨500, [⟨⟨1002⟩, "Franziskaner", 500⟩]⟩ := by
  have hscene : balanceAfter.tasks[2]?.map Task.req =
        some (transferRequest .credit ⟨1002⟩ ⟨1008⟩ ⟨⟨7⟩, 500, none⟩) ∧
      balanceAfter.tasks[2]?.bind Task.answer? =
        some (.ok (.ok, .transaction ⟨⟨1011⟩, "SUCCESS", some 500⟩)) ∧
      balanceAfter.tasks[3]?.map Task.req = some (.getUserBalance ⟨1008⟩) ∧
      balanceAfter.tasks[3]?.bind Task.answer? = some (.ok (.ok, .userBalance
        ⟨500, [⟨⟨1002⟩, "Franziskaner", 500⟩]⟩)) ∧
      oneUser.tasks.length = 2 ∧ creditUnderWay.tasks.length = 3 ∧
      creditUnderWay.world.posted = 1 ∧ balanceAfter.world.posted = 1 := by
    decide +kernel
  obtain ⟨hreq₂, ha₂, hreq₃, ha₃, hlen₂, hlen₃, hposted, hposted'⟩ := hscene
  have hrun₂ : (machine defaultEnv).Reach (fun _ _ => True) oneUser creditUnderWay :=
    inTurns_reach (fun _ _ => trivial)
  have hrun₃ : (machine defaultEnv).Reach (fun _ _ => True) creditUnderWay balanceAfter :=
    inTurns_reach (fun _ _ => trivial)
  have hunderWay : Reachable defaultEnv creditUnderWay := oneUser_reachable.extend hrun₂
  obtain ⟨t₂, ht₂, hq₂⟩ := Option.map_eq_some_iff.mp hreq₂
  obtain ⟨t₃, ht₃, hq₃⟩ := Option.map_eq_some_iff.mp hreq₃
  rw [ht₂] at ha₂
  rw [ht₃] at ha₃
  obtain ⟨book, -, hshows, hplaced⟩ := service_linearizable (hunderWay.extend hrun₃)
  refine ⟨book, hshows, ?_, ?_⟩
  · obtain ⟨k, m, -, hk, -, hsuccess⟩ := (hplaced oneUser balanceAfter oneUser_reachable
      (hrun₂.trans hrun₃) .refl 2 t₂ _ (Nat.le_of_eq hlen₂) ht₂ ha₂).transfer _ _ _ _ _ hq₂ rfl
    exact ⟨k, hk.trans (congrArg some (hsuccess rfl).2)⟩
  · obtain ⟨m, m', h₀m, hmm', -, hlo, hhi, hread⟩ := (hplaced creditUnderWay balanceAfter
      hunderWay hrun₃ .refl 3 t₃ _ (Nat.le_of_eq hlen₃) ht₃ ha₃).balance _ _ hq₃ rfl
    have hone : m'.world.posted = 1 := by omega
    rw [hone] at hread
    exact ⟨m, m', h₀m, hmm', hone, hread⟩

end Wurzburg.System
