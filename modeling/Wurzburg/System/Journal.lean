import Wurzburg.System.Schedule

/-!
# Wurzburg.System.Journal

The journal and the ledger, in every reachable state: the `transactions` table
never outruns the ledger (`journal_backed`), and what an answer of 200 to a
credit or debit says about the table (`success_recorded`).
-/

namespace Wurzburg.System

open Wurzburg.Lib Wurzburg.Db Wurzburg.Tb Wurzburg.Api

/-! ### At most one of each -/

/-- Of rows with distinct keys, at most one has a given key. -/
theorem filter_key_length_le_one {α κ : Type} [DecidableEq κ] {xs : List α} {f : α → κ}
    (h : (xs.map f).Nodup) (k : κ) : (xs.filter (fun x => f x = k)).length ≤ 1 := by
  have hall : ∀ y ∈ (xs.filter (fun x => f x = k)).map f, y = k := by
    intro y hy
    obtain ⟨x, hx, rfl⟩ := List.mem_map.mp hy
    simpa using (List.mem_filter.mp hx).2
  have hnodup : ((xs.filter (fun x => f x = k)).map f).Nodup := h.sublist (List.filter_sublist.map f)
  rw [List.eq_replicate_iff.mpr ⟨rfl, hall⟩, List.nodup_replicate] at hnodup
  simpa using hnodup

/-- The transfers of the ledger for an idempotency key. -/
def transfersFor (w : World) (key : Uuid) : List Transfer :=
  w.worker.ledger.transfers.filter (fun t => t.id = key.asU128)

/-- The rows of the journal for an idempotency key. -/
def rowsFor (w : World) (key : Uuid) : List Transaction :=
  w.pg.transactions.filter (fun row => row.idempotencyKey = key.toString)

section

variable {env : Env} {w : World}

theorem Inv.transfersFor_le (h : Inv env w) (key : Uuid) : (transfersFor w key).length ≤ 1 :=
  filter_key_length_le_one h.worker.ledger.transferIds key.asU128

theorem Inv.rowsFor_le (h : Inv env w) (key : Uuid) : (rowsFor w key).length ≤ 1 :=
  filter_key_length_le_one h.tables.keys key.toString

/-- The ledger holds the movement that a row records, between the accounts of
the provider and of the user at that provider. -/
structure BackedBy (pg : Pg) (row : Transaction) (key : Uuid) (t : Transfer) : Prop where
  id : t.id = key.asU128
  amount : (t.amount : Int) = row.amount
  debit : t.debitAccountId = row.drAccountId.asU128
  credit : t.creditAccountId = row.crAccountId.asU128
  sides : ∃ p ∈ pg.providers, ∃ ua ∈ pg.userAccounts,
    row.providerId = some p.id ∧ row.userId = some ua.userId ∧ ua.providerId = p.id ∧
      (row.transactionType = .credit ∧ row.drAccountId = p.ledgerAccountId ∧
          row.crAccountId = ua.ledgerAccountId ∨
        row.transactionType = .debit ∧ row.drAccountId = ua.ledgerAccountId ∧
          row.crAccountId = p.ledgerAccountId)

theorem Recorded.backedBy {pg : Pg} {transfers : List Transfer} {row : Transaction} {key : Uuid}
    (h : Recorded env pg transfers row) (hkey : row.idempotencyKey = key.toString) :
    ∃ t ∈ transfers, BackedBy pg row key t := by
  obtain ⟨d, _, _, _, _, ⟨payload, p, hp, ua, hua, rfl, hlink, rfl, rfl, rfl, hpayload, hamount,
    hmem⟩, hpos, hty, hprov, huser, haccounts⟩ := h
  obtain rfl : payload.idempotencyKey = key := Uuid.toString_inj.mp (hpayload.symm.trans hkey)
  obtain ⟨hdr, hcr⟩ := Prod.mk.inj haccounts
  refine ⟨_, hmem, ⟨rfl, ?_, ?_, ?_, p, hp, ua, hua, hprov, huser, hlink, ?_⟩⟩
  · rw [hamount] at hpos ⊢
    exact (amount_of_pos hpos).symm
  · rw [hdr]
    rfl
  · rw [hcr]
    rfl
  · cases d with
    | credit => exact Or.inl ⟨hty, hdr, hcr⟩
    | debit => exact Or.inr ⟨hty, hdr, hcr⟩

end

/-- **The journal never outruns the ledger.** In every reachable state there is,
for each idempotency key, at most one transfer and at most one row, and a row is
backed by the transfer with the key as its id. -/
theorem journal_backed {env : Env} {c : State} (h : Reachable env c) (key : Uuid) :
    (transfersFor c.world key).length ≤ 1 ∧ (rowsFor c.world key).length ≤ 1 ∧
      ∀ row ∈ c.world.pg.transactions, row.idempotencyKey = key.toString →
        ∃ t ∈ c.world.worker.ledger.transfers, BackedBy c.world.pg row key t :=
  ⟨h.inv.transfersFor_le key, h.inv.rowsFor_le key,
    fun row hrow hkey => (h.inv.journal row hrow).backedBy hkey⟩

/-- The service after a first credit of 500 under the key 7. -/
def oneCredit : State := request defaultEnv oneUser (.creditUser ⟨1002⟩ ⟨1008⟩ ⟨⟨7⟩, 500, none⟩)

theorem oneCredit_reachable : Reachable defaultEnv oneCredit :=
  request_reachable oneUser_reachable _

theorem journal_backed_oneCredit :
    (rowsFor oneCredit.world ⟨7⟩).length = 1 ∧
      (transfersFor oneCredit.world ⟨7⟩).length ≤ 1 ∧ (rowsFor oneCredit.world ⟨7⟩).length ≤ 1 ∧
        ∀ row ∈ oneCredit.world.pg.transactions, row.idempotencyKey = (⟨7⟩ : Uuid).toString →
          ∃ t ∈ oneCredit.world.worker.ledger.transfers, BackedBy oneCredit.world.pg row ⟨7⟩ t :=
  ⟨by decide +kernel, journal_backed oneCredit_reachable ⟨7⟩⟩

/-! ### What an answer of 200 says -/

/-- The act lets a request find, under its own key, only a row that records its
own movement. -/
def ChecksOwn (c : State) : Act → Prop
  | .step i ch => ∀ d p u payload hist k row,
      c.tasks[i]? = some ⟨transferRequest d p u payload, hist,
        some (.call (.db (.getTransactionByIdempotencyKey payload.idempotencyKey.toString)) k)⟩ →
      ch.fault = .none →
      c.world.pg.transactionByKey? payload.idempotencyKey.toString = some row →
        Records row d p u payload
  | _ => True

/-- Every row that a request's check has returned records its own movement. -/
def CheckedOwn (t : Serving) : Prop :=
  ∀ d p u payload row, t.req = transferRequest d p u payload →
    (⟨.db (.getTransactionByIdempotencyKey payload.idempotencyKey.toString), .ok (some row)⟩ :
      Event Eff Eff.Resp) ∈ t.hist → Records row d p u payload

/-- The check returns a row only when it succeeds, and then the row of the key. -/
theorem exec_check_some {w w' : World} {ch : Choice} {key : String} {row : Transaction}
    (h : w.dbExec ch (.getTransactionByIdempotencyKey key) = some (.ok (some row), w')) :
    ch.fault = .none ∧ w.pg.transactionByKey? key = some row := by
  obtain ⟨hfault, happly⟩ := World.dbExec_row h
  obtain ⟨pg, n, htx, -, -⟩ := World.dbApply_cases happly
  exact ⟨hfault, Except.ok.inj (Prod.mk.inj htx).1⟩

/-- What one act keeps. -/
theorem checkedOwn_step {env : Env} {c c' : State} {l : Act} (h : ∀ t ∈ c.tasks, CheckedOwn t)
    (hok : ChecksOwn c l) (hs : (machine env).step c l = some c') : ∀ t ∈ c'.tasks, CheckedOwn t := by
  rcases (machine env).step_cases hs with ⟨q, rfl, rfl⟩ | ⟨i, ch, q, hist, e, k, r, w, rfl, ht, hx, rfl⟩ |
    ⟨i, q, hist, e, k, rfl, ht, rfl⟩ | ⟨v, w, rfl, -, rfl⟩
  · intro t ht
    rcases List.mem_append.mp ht with ht | ht
    · exact h t ht
    · rw [List.mem_singleton.mp ht]
      intro d p u payload row _ hmem
      simp [Machine.newTask] at hmem
  · intro t htm
    rcases List.mem_or_eq_of_mem_set htm with htm | rfl
    · exact h t htm
    · intro d p u payload row hq hmem
      rcases List.mem_append.mp hmem with hmem | hmem
      · exact h _ (List.mem_of_getElem? ht) d p u payload row hq hmem
      · obtain ⟨he, hr⟩ := Event.mk.inj (List.mem_singleton.mp hmem)
        subst he
        obtain rfl := eq_of_heq hr
        obtain ⟨hfault, hfind⟩ := exec_check_some hx
        obtain rfl : q = transferRequest d p u payload := hq
        exact hok d p u payload hist k row ht hfault hfind
  · intro t htm
    rcases List.mem_or_eq_of_mem_set htm with htm | rfl
    · exact h t htm
    · exact fun d p u payload row hq hmem =>
        h _ (List.mem_of_getElem? ht) d p u payload row hq hmem
  · exact h

/-- A request answered with 200 is recorded: the journal holds the row of its
key, with its provider, user, amount and direction, and the answer names it. -/
def RecordedAnswer (w : World) (t : Serving) : Prop :=
  ∀ d p u payload a, t.req = transferRequest d p u payload → t.answer? = some a →
    a.status = .ok → ∃ response, a = .ok (.ok, .transaction response) ∧
      ∃ row ∈ w.pg.transactions, row.id = response.transactionId ∧ Records row d p u payload

/-- **A 200 means this transfer happened**, in every run in which no request
finds, under its own key, a row of another movement. -/
theorem success_recorded {env : Env} {now : Timestamp} {c : State}
    (h : (machine env).Reach ChecksOwn (boot env now) c) :
    ∀ t ∈ c.tasks, RecordedAnswer c.world t := by
  have hchecked : ∀ t ∈ c.tasks, CheckedOwn t :=
    h.invariant (P := fun c => ∀ t ∈ c.tasks, CheckedOwn t) (by simp [boot])
      (fun _ _ _ hP hok hs => checkedOwn_step hP hok hs)
  have hholds := Reachable.holds ⟨now, h.mono (fun _ _ _ => trivial)⟩
  intro t ht d p u payload a hq ha hstatus
  obtain ⟨response, rfl, row, hrow, hid, -, hwhy⟩ :=
    hholds.answered ht ha d p u payload hq hstatus
  refine ⟨response, rfl, row, hrow, hid, ?_⟩
  rcases hwhy with hrec | hmem
  · exact hrec
  · exact hchecked t ht d p u payload row hq hmem

/-- A check that finds no row at all finds none of another movement. -/
def checksNothing (c : State) : Act → Bool
  | .step i _ =>
      match c.tasks[i]? with
      | some ⟨_, _, some (.call (.db (.getTransactionByIdempotencyKey key)) _)⟩ =>
          (c.world.pg.transactionByKey? key).isNone
      | _ => true
  | _ => true

theorem checksOwn_of_nothing {c : State} {l : Act} (h : checksNothing c l = true) :
    ChecksOwn c l := by
  cases l with
  | step i ch =>
      intro d p u payload hist k row ht _ hfind
      simp only [checksNothing, ht, hfind] at h
      simp at h
  | _ => trivial

theorem request_checksOwn {env : Env} {c : State} {q : Request}
    (h : ((machine env).trace (requestPlan env c q) c).all (fun v => checksNothing v.1 v.2) = true) :
    (machine env).Reach ChecksOwn c (request env c q) :=
  Machine.reach_of_runAll (runAll_requestPlan env c q)
    (fun v hv => checksOwn_of_nothing (List.all_eq_true.mp h v hv))

theorem success_recorded_oneCredit :
    oneCredit.tasks[2]?.bind Task.answer? =
        some (.ok (.ok, .transaction ⟨⟨1011⟩, "SUCCESS", some 500⟩)) ∧
      ∀ t ∈ oneCredit.tasks, RecordedAnswer oneCredit.world t := by
  have hruns : oneCredit.tasks[2]?.bind Task.answer? =
        some (.ok (.ok, .transaction ⟨⟨1011⟩, "SUCCESS", some 500⟩)) ∧
      ∀ step ∈ [(boot defaultEnv 0, Request.createProvider sampleProvider),
          (oneProvider, .createOrLink ⟨"0012345678", ⟨1002⟩, none, none⟩),
          (oneUser, .creditUser ⟨1002⟩ ⟨1008⟩ ⟨⟨7⟩, 500, none⟩)],
        ((machine defaultEnv).trace (requestPlan defaultEnv step.1 step.2) step.1).all
          (fun v => checksNothing v.1 v.2) = true := by
    decide +kernel
  obtain ⟨hanswer, hplans⟩ := hruns
  have h₁ : (machine defaultEnv).Reach ChecksOwn (boot defaultEnv 0) oneProvider :=
    request_checksOwn (hplans _ (.head _))
  have h₂ : (machine defaultEnv).Reach ChecksOwn oneProvider oneUser :=
    request_checksOwn (hplans _ (.tail _ (.head _)))
  have h₃ : (machine defaultEnv).Reach ChecksOwn oneUser oneCredit :=
    request_checksOwn (hplans _ (.tail _ (.tail _ (.head _))))
  exact ⟨hanswer, @success_recorded defaultEnv 0 _ ((h₁.trans h₂).trans h₃)⟩

/-- Two users of one provider; the second uses the key of the first. -/
def sharedKey : State :=
  request defaultEnv
    (request defaultEnv oneCredit (.createOrLink ⟨"0087654321", ⟨1002⟩, none, none⟩))
    (.creditUser ⟨1002⟩ ⟨1014⟩ ⟨⟨7⟩, 900, none⟩)

/-- The second user is told of a success, under the transaction of the first;
nothing was moved or recorded for it. -/
theorem sharedKey_answers_foreign_row :
    ¬ ∀ (env : Env) (c : State), Reachable env c → ∀ t ∈ c.tasks, RecordedAnswer c.world t := by
  intro hall
  have hreach : Reachable defaultEnv sharedKey :=
    request_reachable (request_reachable oneCredit_reachable _) _
  have hscene : sharedKey.tasks[4]?.map Task.req =
        some (transferRequest .credit ⟨1002⟩ ⟨1014⟩ ⟨⟨7⟩, 900, none⟩) ∧
      sharedKey.tasks[4]?.bind Task.answer? =
        some (.ok (.ok, .transaction ⟨⟨1011⟩, "ALREADY_PROCESSED", none⟩)) ∧
      ∀ row ∈ sharedKey.world.pg.transactions, row.userId ≠ some ⟨1014⟩ := by
    decide +kernel
  obtain ⟨hreq, hanswer, hnone⟩ := hscene
  obtain ⟨t, ht, hq, ha⟩ := exists_task hreq hanswer
  obtain ⟨response, -, row, hrow, -, hrec⟩ :=
    hall defaultEnv sharedKey hreach t ht _ _ _ _ _ hq ha rfl
  exact hnone row hrow hrec.user

end Wurzburg.System
