import Wurzburg.System.Journal
import Wurzburg.System.Settle

/-!
# Wurzburg.System.Recovery

What a credit or debit that runs alone does to the two stores together: whether
ledger and journal agree afterwards (`books_agree_iff`), and whether a retry
completes what an earlier attempt left half done (`recovers_iff`).
-/

namespace Wurzburg.System

open Wurzburg.Lib Wurzburg.Db Wurzburg.Tb Wurzburg.Api

/-! ### Alone from a calm state -/

/-- The worker runs and has nothing to do. -/
structure Calm (w : World) : Prop where
  alive : w.alive = true
  queue : w.queue = []
  unladen : w.worker.Unladen

instance (w : World) : Decidable (Calm w) :=
  decidable_of_iff (w.alive = true ∧ w.queue = [] ∧ w.worker.transferBuf = .empty ∧
      w.worker.accountBuf = .empty ∧ w.worker.lookupAccBuf = .empty ∧ w.worker.lookupTxBuf = .empty)
    ⟨fun ⟨h₁, h₂, h₃, h₄, h₅, h₆⟩ => ⟨h₁, h₂, ⟨h₃, h₄, h₅, h₆⟩⟩,
      fun ⟨h₁, h₂, ⟨h₃, h₄, h₅, h₆⟩⟩ => ⟨h₁, h₂, h₃, h₄, h₅, h₆⟩⟩

section

variable {env : Env} {c c' : State} {d : Direction} {p u : Uuid} {payload : TransferRequest}
  {ud : UserProviderDetails} {pd : Provider} {live : Prop} {w : World}

/-- A calm world is at rest. -/
theorem Inv.atRest (h : Inv env w) (hcalm : Calm w) : AtRest w.pg w.worker.ledger w.issued w := by
  refine ⟨hcalm.alive, hcalm.queue, hcalm.unladen, fun m hm => ?_, rfl, rfl, rfl⟩
  obtain ⟨cmd, hcmd, hr, -⟩ := (h.worker.answers.sound m hm).request h.worker.history
  have hsent := h.traffic.known cmd (List.mem_append_left _ hcmd)
  obtain ⟨i, hi⟩ := List.getElem?_of_mem hsent
  rw [← hr, h.traffic.numbered i cmd hi]
  exact (List.getElem?_eq_some_iff.mp hi).1

/-- What a transfer request promises on arrival in a calm state. -/
theorem arrived_total (d : Direction) (payload : TransferRequest) (live : Prop)
    (h : Reachable env c) (hcalm : Calm c.world)
    (hres : Resolves p u ud pd c.world.pg) (hlive : live → CanProceed env c.world.issued) :
    (alone env (Resolves p u ud pd) live).Total
      (fun a t => ∃ r, a = r.map (fun x => (x.1, Body.transaction x.2)) ∧
        EndsFrom env d p u payload ud pd c.world.pg c.world.worker.ledger c.world.issued r t)
      (serve env (transferRequest d p u payload)) c.world :=
  serve_transferRequest_total (h.inv.atRest hcalm) hres h.inv.rowIds hlive

theorem transfersFor_eq_nil {key : Uuid} :
    transfersFor w key = [] ↔ w.worker.ledger.transfer? key.asU128 = none := by
  unfold transfersFor
  rw [Ledger.transfer?_eq_none, List.filter_eq_nil_iff]
  simp

theorem rowsFor_eq_nil {key : Uuid} :
    rowsFor w key = [] ↔ w.pg.transactionByKey? key.toString = none := by
  unfold rowsFor Pg.transactionByKey?
  rw [List.filter_eq_nil_iff, List.find?_eq_none]

/-- The ledger after it has accepted a request's transfer. -/
theorem createTransfer_ledgerTransfer {l l' : Ledger} {pl ul : Uuid}
    (h : env.tb.createTransfer l (toTbTransfer (ledgerTransfer env d payload pl ul)) = .ok l') :
    l'.transfers = l.transfers ++ [toTbTransfer (ledgerTransfer env d payload pl ul)] := by
  rw [env.tb.createTransfer_post h rfl]
  rfl

end

/-! ### Agreement -/

/-- Ledger and journal agree about a request that was answered: both hold its
movement, or neither holds anything for its key. -/
def Agrees (env : Env) (d : Direction) (payload : TransferRequest) (ud : UserProviderDetails)
    (pd : Provider) (w : World) : Answer → Prop
  | .ok (status, body) =>
      status = .ok ∧ (∃ id balance, body = .transaction ⟨id, "SUCCESS", balance⟩) ∧
      toTbTransfer (ledgerTransfer env d payload pd.ledgerAccountId ud.userLedgerAccountId) ∈
        w.worker.ledger.transfers ∧
      ∃ row ∈ w.pg.transactions, row.idempotencyKey = payload.idempotencyKey.toString ∧
        row.amount = payload.amount.toNat
  | .error _ => transfersFor w payload.idempotencyKey = [] ∧ rowsFor w payload.idempotencyKey = []

/-- **Ledger and journal.** A request of a linked user that runs alone with an
unused key leaves ledger and journal in agreement exactly when the ledger
rejects its transfer or the journal can hold its row. -/
theorem books_agree_iff {env : Env} {c c' : State} {d : Direction} {p u : Uuid}
    {payload : TransferRequest} {ud : UserProviderDetails} {pd : Provider} {a : Answer}
    (h : Reachable env c) (hcalm : Calm c.world) (hlinked : Resolves p u ud pd c.world.pg)
    (hledger : transfersFor c.world payload.idempotencyKey = [])
    (hjournal : rowsFor c.world payload.idempotencyKey = [])
    (hrun : (machine env).Reach (fun _ l => Alone c.tasks.length l)
      (arrived env c (transferRequest d p u payload)) c')
    (ha : c'.tasks[c.tasks.length]?.bind Task.answer? = some a) :
    Agrees env d payload ud pd c'.world a ↔
      (∃ code, env.tb.createTransfer c.world.worker.ledger (toTbTransfer
        (ledgerTransfer env d payload pd.ledgerAccountId ud.userLedgerAccountId)) = .error code) ∨
      Storable payload := by
  obtain ⟨t, ht, hanswer⟩ := Option.bind_eq_some_iff.mp ha
  have htotal := arrived_total d payload False h hcalm hlinked False.elim
  obtain ⟨r, rfl, hends⟩ := htotal.answered (arrived_task env c _) hrun ht hanswer
  unfold EndsFrom at hends
  rw [rowsFor_eq_nil.mp hjournal] at hends
  obtain ⟨pg', l', issued', hrest, hsettled⟩ := hends
  cases hsettled with
  | @rejected code text _ hv hsame =>
      refine ⟨fun _ => Or.inl ⟨code, hv⟩, fun _ => ⟨?_, ?_⟩⟩
      · rw [transfersFor, hrest.ledger_eq]
        exact hledger
      · rw [rowsFor, hrest.pg_eq, hsame.transactions]
        exact hjournal
  | @lost l' _ hv hs hsame =>
      constructor
      · rintro ⟨hnone, -⟩
        rw [transfersFor, hrest.ledger_eq, createTransfer_ledgerTransfer hv] at hnone
        simp only [List.filter_append, List.append_eq_nil_iff] at hnone
        have hother : ¬(toTbTransfer (ledgerTransfer env d payload pd.ledgerAccountId
            ud.userLedgerAccountId)).id = payload.idempotencyKey.asU128 := by
          simpa using hnone.2
        exact absurd rfl hother
      · rintro (⟨code, hcode⟩ | hs')
        · rw [hv] at hcode
          cases hcode
        · exact absurd hs' hs
  | @recorded l' _ row balance hv hs hsame hrec =>
      refine ⟨fun _ => Or.inr hs, fun _ => ⟨rfl, ⟨row.id, balance, rfl⟩, ?_, row, ?_, hrec.key,
        hrec.amount⟩⟩
      · rw [hrest.ledger_eq, createTransfer_ledgerTransfer hv]
        exact List.mem_append_right _ (List.mem_singleton_self _)
      · rw [hrest.pg_eq]
        exact List.mem_append_right _ (List.mem_singleton_self _)

/-- A credit of nothing: the ledger takes it, the journal does not. -/
def zeroCredit : State := request defaultEnv oneUser (.creditUser ⟨1002⟩ ⟨1008⟩ ⟨⟨7⟩, 0, none⟩)

/-- The user is linked, and the key 7 is free. -/
theorem oneUser_free : Calm oneUser.world ∧
    oneUser.world.pg.userProviderDetails ⟨1008⟩ ⟨1002⟩ ≠ [] ∧
    transfersFor oneUser.world ⟨7⟩ = [] ∧ rowsFor oneUser.world ⟨7⟩ = [] := by
  decide +kernel

/-- It is answered 500, and the ledger holds a transfer the journal knows nothing of. -/
theorem zeroCredit_disagrees :
    ¬ ∀ (env : Env) (c c' : State) (d : Direction) (p u : Uuid) (payload : TransferRequest)
      (ud : UserProviderDetails) (pd : Provider) (a : Answer), Reachable env c → Calm c.world →
      Resolves p u ud pd c.world.pg → transfersFor c.world payload.idempotencyKey = [] →
      rowsFor c.world payload.idempotencyKey = [] →
      (machine env).Reach (fun _ l => Alone c.tasks.length l)
        (arrived env c (transferRequest d p u payload)) c' →
      c'.tasks[c.tasks.length]?.bind Task.answer? = some a →
      Agrees env d payload ud pd c'.world a := by
  intro hall
  obtain ⟨hcalm, hlinked, hledger, hjournal⟩ := oneUser_free
  obtain ⟨ud, pd, hres⟩ := exists_resolves hlinked
  have hend : zeroCredit.tasks[oneUser.tasks.length]?.bind Task.answer? =
      some (.error internalError) ∧ (transfersFor zeroCredit.world ⟨7⟩).length = 1 := by
    decide +kernel
  obtain ⟨hnone, -⟩ := hall defaultEnv oneUser zeroCredit .credit ⟨1002⟩ ⟨1008⟩ ⟨⟨7⟩, 0, none⟩ ud pd
    _ oneUser_reachable hcalm hres hledger hjournal (request_reach defaultEnv oneUser _) hend.1
  have hone := hend.2
  rw [hnone] at hone
  cases hone

theorem books_agree_oneCredit :
    ∃ ud pd, Resolves ⟨1002⟩ ⟨1008⟩ ud pd oneUser.world.pg ∧
      Agrees defaultEnv .credit ⟨⟨7⟩, 500, none⟩ ud pd oneCredit.world
        (.ok (.ok, .transaction ⟨⟨1011⟩, "SUCCESS", some 500⟩)) := by
  obtain ⟨hcalm, hlinked, hledger, hjournal⟩ := oneUser_free
  obtain ⟨ud, pd, hres⟩ := exists_resolves hlinked
  have hanswer : oneCredit.tasks[oneUser.tasks.length]?.bind Task.answer? =
      some (.ok (.ok, .transaction ⟨⟨1011⟩, "SUCCESS", some 500⟩)) := by decide +kernel
  have hiff := @books_agree_iff defaultEnv oneUser oneCredit .credit ⟨1002⟩ ⟨1008⟩ ⟨⟨7⟩, 500, none⟩ ud
    pd _ oneUser_reachable hcalm hres hledger hjournal (request_reach defaultEnv oneUser _) hanswer
  refine ⟨ud, pd, hres, hiff.mpr (Or.inr ?_)⟩
  exact ⟨by decide, by decide, rfl⟩

/-! ### Retries -/

/-- Where the journal has a row for a key, both stores have exactly one entry. -/
theorem Inv.one_each {env : Env} {w : World} {key : Uuid} (h : Inv env w)
    (hrow : rowsFor w key ≠ []) :
    (transfersFor w key).length = 1 ∧ (rowsFor w key).length = 1 := by
  obtain ⟨row, hmem⟩ := List.exists_mem_of_ne_nil _ hrow
  obtain ⟨hrow', hkey⟩ := List.mem_filter.mp hmem
  obtain ⟨t, ht, hbacked⟩ := (h.journal row hrow').backedBy (of_decide_eq_true hkey)
  have htransfer : t ∈ transfersFor w key :=
    List.mem_filter.mpr ⟨ht, decide_eq_true hbacked.id⟩
  exact ⟨Nat.le_antisymm (h.transfersFor_le key) (List.length_pos_of_mem htransfer),
    Nat.le_antisymm (h.rowsFor_le key) (List.length_pos_of_mem hmem)⟩

/-- A request that arrives now and runs alone can always still be answered, and
when it is, the answer is 200 and its key has one transfer and one row. -/
def Recovers (env : Env) (c : State) (d : Direction) (p u : Uuid) (payload : TransferRequest) :
    Prop :=
  ∀ c', (machine env).Reach (fun _ l => Alone c.tasks.length l)
      (arrived env c (transferRequest d p u payload)) c' →
    (∃ c'' a, (machine env).Reach (fun _ l => Alone c.tasks.length l) c' c'' ∧
      c''.tasks[c.tasks.length]?.bind Task.answer? = some a) ∧
    ∀ a, c'.tasks[c.tasks.length]?.bind Task.answer? = some a →
      a.status = .ok ∧ (transfersFor c'.world payload.idempotencyKey).length = 1 ∧
        (rowsFor c'.world payload.idempotencyKey).length = 1

/-- **Recovery.** A request whose amount both stores can hold, and whose transfer
the ledger has accepted before or accepts now, recovers exactly when the journal
knows its key already, or the ledger does not and the description can be stored. -/
theorem recovers_iff {env : Env} {c : State} {d : Direction} {p u : Uuid}
    {payload : TransferRequest} {ud : UserProviderDetails} {pd : Provider}
    (h : Reachable env c) (hcalm : Calm c.world) (hlinked : Resolves p u ud pd c.world.pg)
    (hproceed : CanProceed env c.world.issued)
    (hpositive : 0 < payload.amount.toNat) (hfits : payload.amount.toNat < 2 ^ 63)
    (hledger : toTbTransfer (ledgerTransfer env d payload pd.ledgerAccountId
        ud.userLedgerAccountId) ∈ c.world.worker.ledger.transfers ∨
      ∃ l', env.tb.createTransfer c.world.worker.ledger (toTbTransfer
        (ledgerTransfer env d payload pd.ledgerAccountId ud.userLedgerAccountId)) = .ok l') :
    Recovers env c d p u payload ↔
      rowsFor c.world payload.idempotencyKey ≠ [] ∨
      transfersFor c.world payload.idempotencyKey = [] ∧
        payload.description.all textOk = true := by
  have htotal := arrived_total d payload True h hcalm hlinked (fun _ => hproceed)
  have htask := arrived_task env c (transferRequest d p u payload)
  constructor
  · intro hrec
    by_cases hrow : rowsFor c.world payload.idempotencyKey = []
    · obtain ⟨c', t, a, hrun, ht, ha⟩ := htotal.finishes trivial htask
      obtain ⟨r, rfl, hends⟩ := htotal.answered htask hrun ht ha
      obtain ⟨hstatus, -⟩ := (hrec c' hrun).2 _ (Option.bind_eq_some_iff.mpr ⟨t, ht, ha⟩)
      unfold EndsFrom at hends
      rw [rowsFor_eq_nil.mp hrow] at hends
      obtain ⟨pg', l', issued', -, hsettled⟩ := hends
      cases hsettled with
      | rejected _ _ => cases hstatus
      | lost _ _ _ => cases hstatus
      | recorded hv hs _ _ =>
          exact Or.inr ⟨transfersFor_eq_nil.mpr (env.tb.createTransfer_fresh hv), hs.text⟩
    · exact Or.inl hrow
  · intro hcond c' hrun
    obtain ⟨hist, p', htask', htotal'⟩ := htotal.run htask hrun
    have hinv : Inv env c'.world := ((arrived_reachable h _).extend hrun).inv
    refine ⟨?_, fun a ha => ?_⟩
    · obtain ⟨c'', t, a, hrun', ht, ha⟩ := htotal'.finishes trivial htask'
      exact ⟨c'', a, hrun', Option.bind_eq_some_iff.mpr ⟨t, ht, ha⟩⟩
    · obtain ⟨t, ht, ha⟩ := Option.bind_eq_some_iff.mp ha
      obtain ⟨r, rfl, hends⟩ := htotal.answered htask hrun ht ha
      unfold EndsFrom at hends
      split at hends
      · next row hrow =>
          obtain ⟨rfl, hrest⟩ := hends
          refine ⟨rfl, hinv.one_each (fun hnil => ?_)⟩
          rw [rowsFor_eq_nil, hrest.pg_eq, hrow] at hnil
          cases hnil
      · next hrow =>
          -- nothing is recorded, so the ledger must be free of the key
          have hnorow := rowsFor_eq_nil.mpr hrow
          obtain ⟨hfree, htext⟩ := hcond.resolve_left (fun hne => hne hnorow)
          have hnotheld : toTbTransfer (ledgerTransfer env d payload pd.ledgerAccountId
              ud.userLedgerAccountId) ∉ c.world.worker.ledger.transfers := by
            intro hmem
            have := List.filter_eq_nil_iff.mp hfree _ hmem
            exact this (decide_eq_true rfl)
          obtain ⟨l₁, haccepted⟩ := hledger.resolve_left hnotheld
          obtain ⟨pg', l', issued', hrest, hsettled⟩ := hends
          cases hsettled with
          | rejected hv _ =>
              rw [haccepted] at hv
              cases hv
          | lost _ hs _ => exact absurd ⟨hpositive, hfits, htext⟩ hs
          | @recorded _ _ row _ _ _ _ hrec =>
              refine ⟨rfl, hinv.one_each (fun hnil => ?_)⟩
              rw [rowsFor, hrest.pg_eq] at hnil
              refine List.filter_eq_nil_iff.mp hnil row ?_ (decide_eq_true hrec.key)
              exact List.mem_append_right _ (List.mem_singleton_self _)

/-- A first credit of 500 under the key 7, up to where the ledger has applied it. -/
def appliedCredit : State :=
  serveAlone defaultEnv 2 6 (arrived defaultEnv oneUser (.creditUser ⟨1002⟩ ⟨1008⟩ ⟨⟨7⟩, 500, none⟩))

/-- And cut off there. -/
def halfDone : State := ((machine defaultEnv).step appliedCredit (.drop 2)).get (by decide +kernel)

theorem halfDone_reachable : Reachable defaultEnv halfDone := by
  have happlied : Reachable defaultEnv appliedCredit :=
    (arrived_reachable oneUser_reachable _).extend (serveAlone_reach _ _ _ _)
  obtain ⟨now, hreach⟩ := happlied
  exact ⟨now, hreach.tail (l := .drop 2) trivial (Option.some_get _).symm⟩

/-- The ledger holds the transfer of a first credit of 500 under the key 7, and
a retry has all it needs. -/
def Retryable (c : State) : Prop :=
  Calm c.world ∧ c.world.pg.userProviderDetails ⟨1008⟩ ⟨1002⟩ ≠ [] ∧
    (∀ ud ∈ c.world.pg.userProviderDetails ⟨1008⟩ ⟨1002⟩, ∀ pd ∈ c.world.pg.providers,
      toTbTransfer (ledgerTransfer defaultEnv .credit ⟨⟨7⟩, 500, none⟩ pd.ledgerAccountId
        ud.userLedgerAccountId) ∈ c.world.worker.ledger.transfers) ∧
    (⟨7⟩ : Uuid) ∉ c.world.issued.map Prod.fst

instance (c : State) : Decidable (Retryable c) := inferInstanceAs (Decidable (_ ∧ _))

theorem Resolves.applied {c : State} {ud : UserProviderDetails} {pd : Provider}
    (h : Resolves ⟨1002⟩ ⟨1008⟩ ud pd c.world.pg) (hc : Retryable c) :
    toTbTransfer (ledgerTransfer defaultEnv .credit ⟨⟨7⟩, 500, none⟩ pd.ledgerAccountId
      ud.userLedgerAccountId) ∈ c.world.worker.ledger.transfers :=
  hc.2.2.1 ud (List.mem_of_head? h.details) pd (List.mem_of_find?_eq_some h.provider)

/-- The retry of the same credit is answered 400, and the journal stays without a row. -/
theorem halfDone_not_recovered :
    ¬ ∀ (env : Env) (c : State) (d : Direction) (p u : Uuid) (payload : TransferRequest)
      (ud : UserProviderDetails) (pd : Provider), Reachable env c → Calm c.world →
      Resolves p u ud pd c.world.pg → CanProceed env c.world.issued →
      0 < payload.amount.toNat → payload.amount.toNat < 2 ^ 63 →
      (toTbTransfer (ledgerTransfer env d payload pd.ledgerAccountId ud.userLedgerAccountId) ∈
          c.world.worker.ledger.transfers ∨
        ∃ l', env.tb.createTransfer c.world.worker.ledger (toTbTransfer
          (ledgerTransfer env d payload pd.ledgerAccountId ud.userLedgerAccountId)) = .ok l') →
      Recovers env c d p u payload := by
  intro hall
  have hscene : Retryable halfDone ∧
      ((request defaultEnv halfDone (.creditUser ⟨1002⟩ ⟨1008⟩ ⟨⟨7⟩, 500, none⟩)).tasks[
        halfDone.tasks.length]?.bind Task.answer?).map Answer.status = some .badRequest := by
    decide +kernel
  obtain ⟨hretry, hanswer⟩ := hscene
  obtain ⟨ud, pd, hres⟩ := exists_resolves hretry.2.1
  have hrec := hall defaultEnv halfDone .credit ⟨1002⟩ ⟨1008⟩ ⟨⟨7⟩, 500, none⟩ ud pd
    halfDone_reachable hretry.1 hres ⟨by decide, ⟨7⟩, hretry.2.2.2⟩ (by decide) (by decide)
    (Or.inl (hres.applied hretry))
  obtain ⟨a, ha, hstatus⟩ := Option.map_eq_some_iff.mp hanswer
  obtain ⟨hok, -⟩ := (hrec _ (request_reach defaultEnv halfDone _)).2 a ha
  rw [hstatus] at hok
  cases hok

theorem recovers_oneCredit :
    Recovers defaultEnv oneCredit .credit ⟨1002⟩ ⟨1008⟩ ⟨⟨7⟩, 500, none⟩ := by
  have hscene : Retryable oneCredit ∧ rowsFor oneCredit.world ⟨7⟩ ≠ [] := by decide +kernel
  obtain ⟨hretry, hrecorded⟩ := hscene
  obtain ⟨ud, pd, hres⟩ := exists_resolves hretry.2.1
  exact (recovers_iff oneCredit_reachable hretry.1 hres ⟨by decide, ⟨7⟩, hretry.2.2.2⟩ (by decide)
    (by decide) (Or.inl (hres.applied hretry))).mpr (Or.inl hrecorded)

end Wurzburg.System
