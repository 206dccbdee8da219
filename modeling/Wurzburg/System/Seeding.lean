import Wurzburg.System.Schedule

/-!
# Wurzburg.System.Seeding

`seed_system_accounts` at the start of a process, under any failures.

Each seed writes the ledger and PostgreSQL, one after the other. Whatever the
ledger returns is taken to mean that the account exists, and a row of the same
code is left as it is. So a boot that returns `Ok` has converged exactly when what
it found and what the ledger accepted were right already (`Ready`): a seed in whose
place there is another account, or none that the ledger would create, or whose code
names another id, passes as seeded.

The process starts `Quiet`, with the stores as earlier ones left them (`LeftBy`), and
runs alone. Unlike in `Wurzburg.System.Rest`, every call can fail and the worker can
stop at any time.
-/

namespace Wurzburg.System

open Wurzburg.Lib Wurzburg.Db Wurzburg.Tb Wurzburg.Api

/-! ### A process that seeds -/

/-- A task that runs alone, with any failures, while `keep` holds of the stores. -/
def seeding (env : Env) (keep : Pg → Ledger → Prop) : Setting (machine env) where
  choice _ := True
  move _ := True
  during w := keep w.pg w.worker.ledger
  live := False

/-- Nothing is under way to the ledger, and the stores hold this. -/
structure Quiet (pg : Pg) (l : Ledger) (w : World) : Prop where
  queue : w.queue = []
  unladen : w.alive = true → w.worker.Unladen
  answered : ∀ m ∈ w.worker.replies, m.1 < w.sent.length
  pg_eq : w.pg = pg
  ledger_eq : w.worker.ledger = l

section

variable {env : Env} {keep : Pg → Ledger → Prop} {pg : Pg} {l : Ledger} {w w' : World}

theorem Quiet.move {v : Move} (h : Quiet pg l w)
    (hm : w.move env.tb env.settings.tigerbeetle.batchMaxSize v = some w') : Quiet pg l w' := by
  obtain ⟨hqueue, hunladen, hanswered, hpg, hledger⟩ := h
  cases v with
  | receive o =>
      obtain ⟨cmd, rest, hq, -⟩ := World.receive_cases hm
      rw [hqueue] at hq
      cases hq
  | tick o =>
      by_cases halive : w.alive = true
      · rw [World.move_tick halive, Worker.turn, (hunladen halive).tick] at hm
        obtain rfl := Option.some.inj hm
        exact ⟨hqueue, hunladen, hanswered, hpg, hledger⟩
      · rw [World.move, if_neg halive] at hm
        cases hm
  | stop =>
      obtain rfl := Option.some.inj hm
      exact ⟨rfl, fun h => (by cases h), hanswered, hpg, hledger⟩
  | restart =>
      obtain rfl := Option.some.inj hm
      exact ⟨rfl, fun _ => ⟨rfl, rfl, rfl, rfl⟩, fun m hm => absurd hm List.not_mem_nil, hpg, hledger⟩
  | clock app db =>
      obtain rfl := Option.some.inj hm
      exact ⟨hqueue, hunladen, hanswered, hpg, hledger⟩
  | expire key =>
      simp only [World.move] at hm
      split at hm
      · obtain rfl := Option.some.inj hm
        exact ⟨hqueue, hunladen, hanswered, hpg, hledger⟩
      · cases hm

theorem Quiet.moves (h : Quiet pg l w) (hm : (seeding env keep).Moves w w') : Quiet pg l w' := by
  induction hm with
  | refl => exact h
  | tail _ hstep ih =>
      obtain ⟨v, -, hw⟩ := hstep
      exact ih.move hw

theorem Quiet.forever {P : World → Prop} (h : Quiet pg l w) (hk : keep pg l)
    (hP : ∀ t, Quiet pg l t → P t) :
    ∀ t, (seeding env keep).Moves w t → (seeding env keep).during t ∧ P t := by
  intro t ht
  have hquiet := h.moves ht
  refine ⟨?_, hP t hquiet⟩
  show keep t.pg t.worker.ledger
  rw [hquiet.pg_eq, hquiet.ledger_eq]
  exact hk

/-! ### An account under way -/

/-- The ledger after a batch of one account. -/
def ledgerAfter (tb : TigerBeetle) (l : Ledger) (a : AppAccount) : Ledger :=
  (serveAccounts tb l [a]).2

/-- Where a new account is: in the channel, in the worker's buffer, or settled in one way
or another. A list of results is sent only for a batch that the ledger has applied. -/
inductive AccountStage (tb : TigerBeetle) (l : Ledger) (a : AppAccount) (r : ResponderId)
    (w : World) : Prop
  | sent (w₀ : Worker) : w.alive = true → w.queue = [⟨.createAccount a, r⟩] → w.worker = w₀ →
      w₀.Unladen → (∀ m ∈ w₀.replies, m.1 < r) → w₀.ledger = l → AccountStage tb l a r w
  | buffered (w₀ : Worker) : w.alive = true → w.queue = [] →
      w.worker = w₀.arrive ⟨.createAccount a, r⟩ .ok → w₀.Unladen → (∀ m ∈ w₀.replies, m.1 < r) →
      w₀.ledger = l → AccountStage tb l a r w
  | settled : w.queue = [] → (w.alive = true → w.worker.Unladen) →
      (∀ m ∈ w.worker.replies, m.1 ≤ r) →
      (w.worker.ledger = l ∨ w.worker.ledger = ledgerAfter tb l a) →
      (∀ rs, (r, .createAccounts (.ok rs)) ∈ w.worker.replies →
        w.worker.ledger = ledgerAfter tb l a) → AccountStage tb l a r w

variable {a : AppAccount} {r : ResponderId}

/-- The flush of a batch of one account, however the call ends. -/
theorem processAccounts_one {tb : TigerBeetle} {w₀ : Worker} (h : w₀.Unladen)
    (hanswered : ∀ m ∈ w₀.replies, m.1 < r) {o : CallOutcome} {w' : Worker}
    (hw' : (w₀.arrive ⟨.createAccount a, r⟩ .ok).processAccounts tb o = w') :
    w'.Unladen ∧ (∀ m ∈ w'.replies, m.1 ≤ r) ∧
      (w'.ledger = w₀.ledger ∨ w'.ledger = ledgerAfter tb w₀.ledger a) ∧
      ∀ rs, (r, .createAccounts (.ok rs)) ∈ w'.replies → w'.ledger = ledgerAfter tb w₀.ledger a := by
  obtain ⟨h₁, h₂, h₃, h₄⟩ := h
  have hreplies : w'.replies = w₀.replies ++ [(r, .createAccounts (Worker.accountResults tb
      ⟨[a], [r], w₀.ledger, o⟩))] := by
    rw [← hw']
    simp [Worker.arrive, Worker.pushAccount, Worker.processAccounts, Worker.answerAll, Buffer.push,
      h₂, Buffer.empty]
  have hledger : w'.ledger =
      (⟨[a], [r], w₀.ledger, o⟩ : Submitted AppAccount).after (serveAccounts tb) := by
    rw [← hw']
    simp [Worker.arrive, Worker.pushAccount, Worker.processAccounts, Buffer.push, h₂, Buffer.empty]
  refine ⟨?_, fun m hm => ?_, ?_, fun rs hrs => ?_⟩
  · rw [← hw']
    exact ⟨h₁, rfl, h₃, h₄⟩
  · rw [hreplies] at hm
    rcases List.mem_append.mp hm with hm | hm
    · exact (hanswered m hm).le
    · rw [List.mem_singleton.mp hm]
  · rw [hledger]
    cases o with
    | ok => exact Or.inr rfl
    | err applied e =>
        cases applied
        · exact Or.inl rfl
        · exact Or.inr rfl
  · rw [hreplies] at hrs
    rcases List.mem_append.mp hrs with hrs | hrs
    · exact absurd (hanswered _ hrs) (Nat.lt_irrefl r)
    · have hresults := TbReply.createAccounts.inj (Prod.mk.inj (List.mem_singleton.mp hrs)).2
      obtain ⟨ho, -⟩ := Submitted.results_eq_ok.mp hresults.symm
      obtain rfl : o = .ok := ho
      rw [hledger]
      rfl

/-- A worker with one buffered account flushes it at the next tick. -/
theorem tick_one {tb : TigerBeetle} {w₀ : Worker} (h : w₀.Unladen) (o : Worker.TickOutcomes) :
    (w₀.arrive ⟨.createAccount a, r⟩ .ok).tick tb o =
      (w₀.arrive ⟨.createAccount a, r⟩ .ok).processAccounts tb o.accounts := by
  obtain ⟨h₁, h₂, h₃, h₄⟩ := h
  simp [Worker.arrive, Worker.tick, Worker.pushAccount, Worker.answerAll, Worker.processAccounts,
    Buffer.push, Buffer.empty, h₁, h₂, h₃, h₄]

section

variable {tb : TigerBeetle} {w₀ : Worker} {o : CallOutcome}

/-- What a flush leaves. -/
theorem AccountStage.flushed (hunladen : w₀.Unladen) (hanswered : ∀ m ∈ w₀.replies, m.1 < r)
    (hledger : w₀.ledger = l) (hqueue : w.queue = [])
    (hworker : (w₀.arrive ⟨.createAccount a, r⟩ .ok).processAccounts tb o = w.worker) :
    AccountStage tb l a r w := by
  obtain ⟨hun, hans, hled, hok⟩ := processAccounts_one hunladen hanswered hworker
  rw [hledger] at hled hok
  exact .settled hqueue (fun _ => hun) hans hled hok

/-- What is left when the worker ends before the batch was handed over. -/
theorem AccountStage.lost (hqueue : w.queue = []) (hunladen : w.alive = true → w.worker.Unladen)
    (hanswered : ∀ m ∈ w.worker.replies, m.1 < r) (hledger : w.worker.ledger = l) :
    AccountStage tb l a r w := by
  refine .settled hqueue hunladen (fun m hm => (hanswered m hm).le) (Or.inl hledger) ?_
  exact fun rs hrs => absurd (hanswered _ hrs) (Nat.lt_irrefl r)

/-- A new worker on the ledger, with the account or without it. -/
theorem AccountStage.restarted {l' : Ledger} (hqueue : w.queue = [])
    (hworker : w.worker = Worker.start l') (hledger : l' = l ∨ l' = ledgerAfter tb l a) :
    AccountStage tb l a r w := by
  refine .settled hqueue (fun _ => ?_) ?_ ?_ ?_
  · rw [hworker]
    exact ⟨rfl, rfl, rfl, rfl⟩
  · rw [hworker]
    exact fun m hm => absurd hm List.not_mem_nil
  · rw [hworker]
    exact hledger
  · rw [hworker]
    exact fun rs hrs => absurd hrs List.not_mem_nil

/-- The stage depends on the worker and its channel only. -/
theorem AccountStage.congr (h : AccountStage tb l a r w) (hworker : w'.worker = w.worker)
    (hqueue : w'.queue = w.queue) (halive : w'.alive = w.alive) : AccountStage tb l a r w' := by
  cases h with
  | sent w₀ h₁ h₂ h₃ h₄ h₅ h₆ =>
      exact .sent w₀ (halive.trans h₁) (hqueue.trans h₂) (hworker.trans h₃) h₄ h₅ h₆
  | buffered w₀ h₁ h₂ h₃ h₄ h₅ h₆ =>
      exact .buffered w₀ (halive.trans h₁) (hqueue.trans h₂) (hworker.trans h₃) h₄ h₅ h₆
  | settled h₁ h₂ h₃ h₄ h₅ =>
      rw [← hworker] at h₂ h₃ h₄ h₅
      rw [← halive] at h₂
      exact .settled (hqueue.trans h₁) h₂ h₃ h₄ h₅

end

theorem AccountStage.move {v : Move} (h : AccountStage env.tb l a r w)
    (hm : w.move env.tb env.settings.tigerbeetle.batchMaxSize v = some w') :
    AccountStage env.tb l a r w' := by
  cases v with
  | receive o =>
      obtain ⟨cmd, rest, hq, rfl⟩ := World.receive_cases hm
      cases h with
      | sent w₀ halive hqueue hworker hunladen hanswered hledger =>
          rw [hqueue] at hq
          obtain ⟨rfl, rfl⟩ := List.cons.inj hq
          have hturn : w.worker.turn env.tb env.settings.tigerbeetle.batchMaxSize
              (.command ⟨.createAccount a, r⟩ o) =
              if (w₀.arrive ⟨.createAccount a, r⟩ .ok).accountBuf.batch.length ≥
                env.settings.tigerbeetle.batchMaxSize
              then (w₀.arrive ⟨.createAccount a, r⟩ .ok).processAccounts env.tb o
              else w₀.arrive ⟨.createAccount a, r⟩ .ok := by
            rw [hworker]
            rfl
          -- a full batch is flushed at once, any other waits for the timer
          rw [hturn]
          split
          · exact .flushed hunladen hanswered hledger rfl rfl
          · exact .buffered w₀ halive rfl rfl hunladen hanswered hledger
      -- the channel holds nothing else
      | buffered w₀ halive hqueue hworker hunladen hanswered hledger =>
          rw [hqueue] at hq
          cases hq
      | settled hqueue hunladen hanswered hledger hok =>
          rw [hqueue] at hq
          cases hq
  | tick o =>
      by_cases halive : w.alive = true
      · rw [World.move_tick halive, Worker.turn] at hm
        obtain rfl := Option.some.inj hm
        cases h with
        | sent w₀ _ hqueue hworker hunladen hanswered hledger =>
            refine .sent w₀ halive hqueue ?_ hunladen hanswered hledger
            show w.worker.tick env.tb o = w₀
            rw [hworker, hunladen.tick]
        | buffered w₀ _ hqueue hworker hunladen hanswered hledger =>
            refine .flushed (o := o.accounts) hunladen hanswered hledger hqueue ?_
            show _ = w.worker.tick env.tb o
            rw [hworker, tick_one hunladen]
        | settled hqueue hunladen hanswered hledger hok =>
            have hsame : w.worker.tick env.tb o = w.worker := (hunladen halive).tick o
            rw [hsame]
            exact .settled hqueue hunladen hanswered hledger hok
      · rw [World.move, if_neg halive] at hm
        cases hm
  -- what was not handed over is lost with the worker; what was stays in the ledger
  | stop =>
      obtain rfl := Option.some.inj hm
      cases h with
      | sent w₀ _ hqueue hworker hunladen hanswered hledger =>
          exact .lost rfl (fun h => (by cases h)) (hworker ▸ hanswered) (hworker ▸ hledger)
      | buffered w₀ _ hqueue hworker hunladen hanswered hledger =>
          refine .lost rfl (fun h => (by cases h)) ?_ ?_
          · show ∀ m ∈ w.worker.replies, m.1 < r
            rw [hworker]
            exact hanswered
          · show w.worker.ledger = l
            rw [hworker]
            exact hledger
      | settled hqueue hunladen hanswered hledger hok =>
          exact .settled rfl (fun h => (by cases h)) hanswered hledger hok
  | restart =>
      obtain rfl := Option.some.inj hm
      refine .restarted rfl rfl ?_
      cases h with
      | sent w₀ _ hqueue hworker hunladen hanswered hledger => exact Or.inl (hworker ▸ hledger)
      | buffered w₀ _ hqueue hworker hunladen hanswered hledger =>
          rw [hworker]
          exact Or.inl hledger
      | settled hqueue hunladen hanswered hledger hok => exact hledger
  | clock app db =>
      obtain rfl := Option.some.inj hm
      exact h.congr rfl rfl rfl
  | expire key =>
      simp only [World.move] at hm
      split at hm
      · obtain rfl := Option.some.inj hm
        exact h.congr rfl rfl rfl
      · cases hm

/-- A process that has sent a new account, or has just got its answer. -/
structure Placing (tb : TigerBeetle) (pg : Pg) (l : Ledger) (a : AppAccount) (r : ResponderId)
    (w : World) : Prop where
  pg_eq : w.pg = pg
  sent : w.sent.length = r + 1
  stage : AccountStage tb l a r w

theorem Placing.moves (h : Placing env.tb pg l a r w) (hm : (seeding env keep).Moves w w') :
    Placing env.tb pg l a r w' := by
  induction hm with
  | refl => exact h
  | tail _ hstep ih =>
      obtain ⟨v, -, hw⟩ := hstep
      obtain ⟨hpg, hsent⟩ := World.move_frame hw
      exact ⟨hpg.trans ih.pg_eq, by rw [hsent]; exact ih.sent, ih.stage.move hw⟩

theorem Placing.keeps (h : Placing env.tb pg l a r w)
    (hk : ∀ l', l' = l ∨ l' = ledgerAfter env.tb l a → keep pg l') :
    keep w.pg w.worker.ledger := by
  rw [h.pg_eq]
  cases h.stage with
  | sent w₀ _ _ hworker _ _ hledger => exact hk _ (Or.inl (hworker ▸ hledger))
  | buffered w₀ _ _ hworker _ _ hledger =>
      rw [hworker]
      exact hk _ (Or.inl hledger)
  | settled _ _ _ hledger _ => exact hk _ hledger

/-- Sending from quietness. -/
theorem Quiet.tbSend {capacity : Nat} {out : Option ResponderId} (h : Quiet pg l w)
    (hx : w.tbSend capacity (.createAccount a) = some (out, w')) :
    out = none ∧ w' = w ∨
      out = some w.sent.length ∧ Placing env.tb pg l a w.sent.length w' := by
  unfold World.tbSend at hx
  split at hx
  · next halive =>
      split at hx
      · obtain ⟨rfl, rfl⟩ := Prod.mk.inj (Option.some.inj hx)
        refine Or.inr ⟨rfl, h.pg_eq, by simp, ?_⟩
        refine .sent w.worker halive ?_ rfl (h.unladen halive) h.answered h.ledger_eq
        show w.queue ++ [_] = [_]
        rw [h.queue, List.nil_append]
      · cases hx
  · obtain ⟨rfl, rfl⟩ := Prod.mk.inj (Option.some.inj hx)
    exact Or.inl ⟨rfl, rfl⟩

/-- What receiving the answer finds: the batch was applied when there is a list of results. -/
theorem Placing.tbRecv {reply : Option TbReply} (h : Placing env.tb pg l a r w)
    (hx : w.tbRecv r = some (reply, w')) :
    ∃ l', Quiet pg l' w' ∧ (l' = l ∨ l' = ledgerAfter env.tb l a) ∧
      ∀ rs, reply = some (.createAccounts (.ok rs)) → l' = ledgerAfter env.tb l a := by
  obtain ⟨rfl, hreply⟩ := World.tbRecv_cases hx
  -- before the batch was handed over the receiver waits
  have hwaits : (∀ m ∈ w'.worker.replies, m.1 < r) → w'.isPending r = true → False := by
    intro hanswered hpending
    have hnone : w'.reply? r = none := by
      unfold World.reply?
      rw [List.find?_eq_none.mpr, Option.map_none]
      intro m hm
      simpa using Nat.ne_of_lt (hanswered m hm)
    unfold World.tbRecv at hx
    rw [hnone, hpending] at hx
    simp at hx
  cases h.stage with
  | sent w₀ halive hqueue hworker _ hanswered _ =>
      refine (hwaits (hworker ▸ hanswered) ?_).elim
      simp [World.isPending, halive, hqueue]
  | buffered w₀ halive hqueue hworker _ hanswered _ =>
      refine (hwaits ?_ ?_).elim
      · rw [hworker]
        exact hanswered
      · simp [World.isPending, halive, hworker, Worker.arrive, Worker.pushAccount, Buffer.push]
  | settled hqueue hunladen hanswered hledger hok =>
      refine ⟨w'.worker.ledger, ⟨hqueue, hunladen, fun m hm => ?_, h.pg_eq, rfl⟩, hledger, ?_⟩
      · rw [h.sent]
        exact Nat.lt_succ_of_le (hanswered m hm)
      · exact fun rs hrs => hok rs (hreply _ hrs)

/-- One effect of a quiet process. -/
theorem perform_seeding {e : Eff} {Q : e.Resp → World → Prop} (h : Quiet pg l w) (hk : keep pg l)
    (hexec : ∀ t ch r t', Quiet pg l t →
      t.exec env.settings.tigerbeetle.channelCapacity ch e = some (r, t') →
      (seeding env keep).Total Q (.ret r) t') :
    (seeding env keep).Total Q (Prog.perform e) w := by
  intro t ht
  have hquiet := h.moves ht
  refine ⟨(h.forever (P := fun _ => True) hk (fun _ _ => trivial) t ht).1, fun hl => hl.elim, ?_⟩
  exact fun ch r t' _ hx => hexec t ch r t' hquiet hx

/-- **Creating an account.** A list of results, empty or not, says that the ledger was
asked; an error says nothing. -/
theorem createAccount_seeding {Q : Except String (List AppCreateAccountsResult) → World → Prop}
    (h : Quiet pg l w) (hk : ∀ l', l' = l ∨ l' = ledgerAfter env.tb l a → keep pg l')
    (hok : ∀ rs t, Quiet pg (ledgerAfter env.tb l a) t → Q (.ok rs) t)
    (herror : ∀ e l' t, Quiet pg l' t → l' = l ∨ l' = ledgerAfter env.tb l a → Q (.error e) t) :
    (seeding env keep).Total Q (createAccount a) w := by
  have hfirst : ∀ t ch (out : Option ResponderId) t', Quiet pg l t →
      t.exec env.settings.tigerbeetle.channelCapacity ch (.tbSend (.createAccount a)) =
        some (out, t') →
      (seeding env keep).Total (fun out t => out = none ∧ Quiet pg l t ∨
        ∃ i, out = some i ∧ Placing env.tb pg l a i t) (.ret out) t' := by
    intro t ch out t' ht hx
    rcases @Quiet.tbSend env pg l t t' a _ _ ht hx with ⟨rfl, rfl⟩ | ⟨rfl, hplacing⟩
    · exact ht.forever (hk l (Or.inl rfl)) (fun u hu => Or.inl ⟨rfl, hu⟩)
    · intro u hu
      have hplacing := hplacing.moves hu
      exact ⟨hplacing.keeps hk, Or.inr ⟨_, rfl, hplacing⟩⟩
  refine Setting.Total.bind (perform_seeding h (hk l (Or.inl rfl)) hfirst) (fun out t hout => ?_)
  rcases hout.answer with ⟨rfl, hquiet⟩ | ⟨i, rfl, hplacing⟩
  · exact hquiet.forever (hk l (Or.inl rfl)) (fun u hu => herror _ l u hu (Or.inl rfl))
  · show (seeding env keep).Total Q (.call (.tbRecv i) _) t
    intro u hu
    have hplacing := hplacing.moves hu
    refine ⟨hplacing.keeps hk, fun hl => hl.elim, fun ch reply u' _ hx => ?_⟩
    obtain ⟨l', hquiet, hl', hresults⟩ := hplacing.tbRecv hx
    have hkeep := hk l' hl'
    cases reply with
    | none => exact hquiet.forever hkeep (fun v hv => herror _ l' v hv hl')
    | some m =>
        cases m with
        | createAccounts rs =>
            cases rs with
            | ok rs =>
                obtain rfl := hresults rs rfl
                exact hquiet.forever hkeep (fun v hv => hok rs v hv)
            | error e => exact hquiet.forever hkeep (fun v hv => herror e l' v hv hl')
        | _ => exact hquiet.forever hkeep (fun v hv => herror _ l' v hv hl')

/-! ### Rows of `system_accounts` -/

/-- The row of a code. -/
def systemAccount? (pg : Pg) (code : String) : Option SystemAccount :=
  pg.systemAccounts.find? (fun a => a.code = code)

/-- What recording a system account does: nothing where the code has a row, else a row with
the id. -/
inductive Seeded (pg : Pg) (code : String) (id : Uuid) : Pg → Prop
  | found {row : SystemAccount} : systemAccount? pg code = some row → Seeded pg code id pg
  | added {pg' : Pg} {row : SystemAccount} : systemAccount? pg code = none → row.code = code →
      row.ledgerAccountId = id → pg'.systemAccounts = pg.systemAccounts ++ [row] →
      Seeded pg code id pg'

variable {code name : String} {category : SystemAccountCategory} {id : Uuid} {now : Timestamp}
  {uuid : Nat → Uuid}

theorem systemAccount?_eq_none :
    systemAccount? pg code = none ↔ pg.systemAccounts.any (fun a => a.code = code) = false := by
  simp [systemAccount?]

/-- The insertion passes over a code that has a row. -/
theorem recordSystemAccount_found {row : SystemAccount} (h : systemAccount? pg code = some row) :
    (recordSystemAccount code name category id).transact pg now uuid = (.ok 0, pg, 0) := by
  have hany : pg.systemAccounts.any (fun a => a.code = code) = true := by
    by_contra hnone
    rw [systemAccount?_eq_none.mpr (by simpa using hnone)] at h
    cases h
  have hins : Sql.exec (.insertSystemAccount code name category id)
      ((Tx.begin pg now uuid).asActor nilUuid) =
      (.ok 0, (Tx.begin pg now uuid).asActor nilUuid) := if_pos hany
  unfold Repo.transact recordSystemAccount
  rw [Repo.exec_bind_ok (Repo.exec_query_ok rfl), Repo.exec_bind_ok (Repo.exec_query_ok hins)]
  rfl

/-- A recording that succeeded. -/
theorem recordSystemAccount_ok {rows n : Nat} {pg' : Pg}
    (h : (recordSystemAccount code name category id).transact pg now uuid = (.ok rows, pg', n)) :
    Seeded pg code id pg' := by
  cases hfind : systemAccount? pg code with
  | some row =>
      rw [recordSystemAccount_found hfind] at h
      obtain rfl := (Prod.mk.inj (Prod.mk.inj h).2).1
      exact .found hfind
  | none =>
      obtain ⟨t, hx, rfl, -⟩ := Repo.transact_cases h
      unfold recordSystemAccount at hx
      rw [Repo.exec_bind_ok (Repo.exec_query_ok rfl)] at hx
      rcases Repo.exec_bind_cases hx with ⟨e, -, herr⟩ | ⟨m, t₁, hins, hx⟩
      · cases herr
      rcases Repo.exec_query_cases hins with ⟨e, -, herr⟩ | ⟨m', hins, -⟩
      · cases herr
      have hnone := systemAccount?_eq_none.mp hfind
      have hins : ((Tx.begin pg now uuid).asActor nilUuid).insertSystemAccount code name category id =
        (.ok m', t₁) := hins
      unfold Tx.insertSystemAccount at hins
      rw [if_neg (by rw [show ((Tx.begin pg now uuid).asActor nilUuid).pg = pg from rfl, hnone]
                     exact Bool.false_ne_true)] at hins
      rcases Tx.write_cases hins with ⟨e, herr, -⟩ | ⟨actor, -, -, -, rfl⟩
      · cases herr
      · obtain rfl := (Prod.mk.inj hx).2
        exact .added hfind rfl rfl rfl

/-- A repository call of a quiet process. -/
theorem dbEff_seeding {call : DbCall} {Q : Except RepoError call.Row → World → Prop}
    (h : Quiet pg l w) (hk : keep pg l)
    (hcall : ∀ now uuid r pg' n, call.body.transact pg now uuid = (r, pg', n) → keep pg' l)
    (hok : ∀ now uuid row pg' n t, call.body.transact pg now uuid = (.ok row, pg', n) →
      Quiet pg' l t → Q (.ok row) t)
    (herror : ∀ e t, Q (.error e) t) :
    (seeding env keep).Total Q (Prog.perform (Eff.db call)) w := by
  refine perform_seeding h hk (fun t ch r t' ht hx => ?_)
  have hx : t.dbExec ch call = some (r, t') := hx
  have hquiet : ∀ pg' issued, Quiet pg' l { t with pg := pg', issued := issued } := fun _ _ =>
    ⟨ht.queue, ht.unladen, ht.answered, rfl, ht.ledger_eq⟩
  cases r with
  | ok row =>
      obtain ⟨-, happly⟩ := World.dbExec_row hx
      obtain ⟨pg', n, htx, -, rfl⟩ := World.dbApply_cases happly
      rw [ht.pg_eq] at htx
      exact (hquiet pg' _).forever (hcall _ _ _ _ _ htx) (fun u hu => hok _ _ _ _ _ u htx hu)
  | error e =>
      rcases World.dbExec_cases hx with ⟨_, -, rfl⟩ | ⟨r', happly, -⟩
      · exact ht.forever hk (fun u _ => herror e u)
      · obtain ⟨pg', n, htx, -, rfl⟩ := World.dbApply_cases happly
        rw [ht.pg_eq] at htx
        exact (hquiet pg' _).forever (hcall _ _ _ _ _ htx) (fun u _ => herror e u)

/-! ### Seeds -/

/-- **One seed** that returns has asked the ledger for the account and recorded the id. -/
theorem seedSystemAccount_seeding {seed : SystemAccountSeed} {M : Unit → World → Prop}
    {post : Except String Unit → World → Prop} (h : Quiet pg l w) (hk : keep pg l)
    (hledger : ∀ id, env.parseUuid seed.ledgerAccountId = some id →
      keep pg (ledgerAfter env.tb l (systemLedgerAccount env id)))
    (hrow : ∀ id, env.parseUuid seed.ledgerAccountId = some id → ∀ now uuid r pg' n,
      (recordSystemAccount seed.code seed.name seed.category id).transact pg now uuid =
        (r, pg', n) → keep pg' (ledgerAfter env.tb l (systemLedgerAccount env id)))
    (hM : ∀ id pg' t, env.parseUuid seed.ledgerAccountId = some id →
      Seeded pg seed.code id pg' →
      Quiet pg' (ledgerAfter env.tb l (systemLedgerAccount env id)) t → M () t)
    (hpost : ∀ e t, post (.error e) t) :
    (seeding env keep).TotalE M post (seedSystemAccount env seed) w := by
  unfold seedSystemAccount
  split
  · exact Setting.TotalE.throw (h.forever hk (fun t _ => hpost _ t))
  · next id hid =>
      refine Setting.TotalE.bind (M := fun _ t =>
        Quiet pg (ledgerAfter env.tb l (systemLedgerAccount env id)) t) ?_ (fun _ t ht => ?_)
      · refine Setting.Total.bind (Q := fun r t => match r with
          | .ok _ => Quiet pg (ledgerAfter env.tb l (systemLedgerAccount env id)) t
          | .error _ => True) (createAccount_seeding h ?_ (fun rs t ht => ht)
            (fun _ _ _ _ _ => trivial)) (fun r t hr => ?_)
        · rintro l' (rfl | rfl)
          · exact hk
          · exact hledger id hid
        · cases r with
          | ok rs => exact hr
          | error e => exact fun u hu => ⟨(hr u hu).1, hpost _ u⟩
      · have hquiet := (ht t .refl).2
        refine Setting.TotalE.bind (M := fun (_ : Nat) t => M () t) ?_
          (fun _ u hu => Setting.TotalE.pure hu)
        refine Setting.Total.bind (Q := fun r t => match r with
          | .ok _ => M () t
          | .error _ => True) (dbEff_seeding hquiet (hledger id hid) (hrow id hid) ?_
            (fun _ _ => trivial)) (fun r u hr => ?_)
        · intro now uuid row pg' n t htx hquiet
          exact hM id pg' t hid (recordSystemAccount_ok htx) hquiet
        · cases r with
          | ok row => exact hr
          | error e => exact fun v hv => ⟨(hr v hv).1, hpost _ v⟩

end

/-! ### Convergence -/

/-- The ledger holds an account of the id with the configured ledger and code. -/
def HoldsSystemAccount (env : Env) (l : Ledger) (id : Uuid) : Prop :=
  ∃ a, l.account? id.asU128 = some a ∧ a.ledger = env.settings.tigerbeetle.ledgerId ∧
    a.code = env.settings.tigerbeetle.systemAccountCode

/-- The row of the code names the id. -/
def NamesSystemAccount (pg : Pg) (code : String) (id : Uuid) : Prop :=
  ∃ row, systemAccount? pg code = some row ∧ row.ledgerAccountId = id

/-- Both stores have the configured account of every seed. -/
def Converged (env : Env) (w : World) : Prop :=
  ∀ seed ∈ systemAccounts env.settings.tigerbeetle, ∃ id,
    env.parseUuid seed.ledgerAccountId = some id ∧ HoldsSystemAccount env w.worker.ledger id ∧
      NamesSystemAccount w.pg seed.code id

/-- The ledger holds the configured account already, or has none under the id and accepts
it. -/
def Obtains (env : Env) (l : Ledger) (id : Uuid) : Prop :=
  HoldsSystemAccount env l id ∨ l.account? id.asU128 = none ∧
    ∃ l', env.tb.createAccount l (toTbAccount (systemLedgerAccount env id)) = .ok l'

/-- No row of the code names another id. -/
def NoOther (pg : Pg) (code : String) (id : Uuid) : Prop :=
  ∀ row, systemAccount? pg code = some row → row.ledgerAccountId = id

/-- What a boot has to find: for each seed in turn, the account obtainable and no other id
recorded. -/
structure Ready (env : Env) (w : World) (platform cms : Uuid) : Prop where
  platformAccount : Obtains env w.worker.ledger platform
  platformRow : NoOther w.pg "PLATFORM_FEE_IRR" platform
  cmsAccount : Obtains env
    (ledgerAfter env.tb w.worker.ledger (systemLedgerAccount env platform)) cms
  cmsRow : NoOther w.pg "CMS_SETTLEMENT_IRR" cms

section

variable {env : Env} {pg pg' : Pg} {l : Ledger} {id id' : Uuid} {code code' : String}

/-- An account is stored under an id that was free, or nothing changes. -/
theorem ledgerAfter_cases (tb : TigerBeetle) (l : Ledger) (a : AppAccount) :
    ((∃ l', tb.createAccount l (toTbAccount a) = .ok l') ∧
      ledgerAfter tb l a = l.addAccount (toTbAccount a) ∧ l.account? a.id = none) ∨
    (¬ ∃ l', tb.createAccount l (toTbAccount a) = .ok l') ∧ ledgerAfter tb l a = l := by
  unfold ledgerAfter serveAccounts
  simp only [List.map_cons, List.map_nil, applyBatch]
  cases hx : tb.createAccount l (toTbAccount a) with
  | ok l' =>
      obtain ⟨rfl, hfree⟩ := tb.createAccount_ok hx
      exact Or.inl ⟨⟨_, rfl⟩, rfl, hfree⟩
  | error code =>
      refine Or.inr ⟨?_, rfl⟩
      rintro ⟨l', h⟩
      cases h

/-- After its creation was asked for, the account is there if it was obtainable. -/
theorem holdsSystemAccount_after :
    HoldsSystemAccount env (ledgerAfter env.tb l (systemLedgerAccount env id)) id ↔ Obtains env l id := by
  rcases ledgerAfter_cases env.tb l (systemLedgerAccount env id) with
    ⟨haccepted, hafter, hfree⟩ | ⟨hrejected, hafter⟩
  · have hnew : (l.addAccount (toTbAccount (systemLedgerAccount env id))).account? id.asU128 =
        some (toTbAccount (systemLedgerAccount env id)) := by
      have hfree : l.account? id.asU128 = none := hfree
      unfold Ledger.account? at hfree ⊢
      rw [Ledger.addAccount_accounts, List.find?_append, hfree, Option.none_or]
      exact List.find?_cons_of_pos (decide_eq_true rfl)
    rw [hafter]
    exact ⟨fun _ => Or.inr ⟨hfree, haccepted⟩, fun _ => ⟨_, hnew, rfl, rfl⟩⟩
  · rw [hafter]
    constructor
    · exact Or.inl
    · rintro (h | ⟨-, h⟩)
      · exact h
      · exact absurd h hrejected

/-- Other accounts are as they were. -/
theorem account?_ledgerAfter {a : AppAccount} {n : Nat} (h : a.id ≠ n) :
    (ledgerAfter env.tb l a).account? n = l.account? n := by
  rcases ledgerAfter_cases env.tb l a with ⟨-, hafter, -⟩ | ⟨-, hafter⟩
  · have hskip : [toTbAccount a].find? (fun b => b.id = n) = none := by
      simp [toTbAccount, h]
    rw [hafter]
    unfold Ledger.account?
    rw [Ledger.addAccount_accounts, List.find?_append, hskip, Option.or_none]
  · rw [hafter]

theorem holdsSystemAccount_after_ne (h : id' ≠ id) :
    HoldsSystemAccount env (ledgerAfter env.tb l (systemLedgerAccount env id')) id ↔
      HoldsSystemAccount env l id := by
  have hne : (systemLedgerAccount env id').id ≠ id.asU128 := fun heq => h (Uuid.asU128_inj.mp heq)
  unfold HoldsSystemAccount
  rw [account?_ledgerAfter hne]

/-- An account that is there is not created again. -/
theorem HoldsSystemAccount.ledgerAfter_eq (h : HoldsSystemAccount env l id) :
    ledgerAfter env.tb l (systemLedgerAccount env id) = l := by
  rcases ledgerAfter_cases env.tb l (systemLedgerAccount env id) with ⟨-, -, hfree⟩ | ⟨-, hafter⟩
  · obtain ⟨a, ha, -⟩ := h
    have hfree : l.account? id.asU128 = none := hfree
    rw [hfree] at ha
    cases ha
  · exact hafter

/-- After its recording, the code names the id unless it named another one. -/
theorem Seeded.names_iff (h : Seeded pg code id pg') :
    NamesSystemAccount pg' code id ↔ NoOther pg code id := by
  cases h with
  | @found row hrow =>
      constructor
      · rintro ⟨row', hrow', hid⟩ row'' hrow''
        rw [hrow'] at hrow''
        rw [← Option.some.inj hrow'']
        exact hid
      · exact fun h => ⟨row, hrow, h row hrow⟩
  | @added _ row hnone hcode hid hrows =>
      have hfound : systemAccount? pg' code = some row := by
        unfold systemAccount? at hnone ⊢
        rw [hrows, List.find?_append, hnone, Option.none_or]
        exact List.find?_cons_of_pos (decide_eq_true hcode)
      constructor
      · intro _ row' hrow'
        rw [hnone] at hrow'
        cases hrow'
      · exact fun _ => ⟨row, hfound, hid⟩

/-- Other codes have the rows they had. -/
theorem Seeded.systemAccount?_eq (h : Seeded pg code id pg') (hne : code ≠ code') :
    systemAccount? pg' code' = systemAccount? pg code' := by
  cases h with
  | found _ => rfl
  | @added _ row _ hcode _ hrows =>
      have hskip : [row].find? (fun a => a.code = code') = none := by
        simp [hcode, hne]
      unfold systemAccount?
      rw [hrows, List.find?_append, hskip, Option.or_none]

end

/-! ### Boots -/

/-- The seeding task alone, from a world on. -/
def Booting (env : Env) (w : World) (c : State) : Prop :=
  (machine env).Reach (fun _ l => l.Alone (fun _ => True) (fun _ => True) 0)
    ⟨w, [(machine env).newTask .seedSystemAccounts]⟩ c

/-- Run again, the seeding changes nothing in either store, however far it gets. -/
def Unchanging (env : Env) (w : World) : Prop :=
  ∀ c, Booting env w c → c.world.pg = w.pg ∧ c.world.worker.ledger = w.worker.ledger

/-- A new process on the stores of an earlier one. -/
def World.restarted (w : World) : World :=
  { w with worker := .start w.worker.ledger, queue := [], alive := true }

/-- What earlier processes left, each with a configuration of its own and stopped at any
point of any work. -/
inductive LeftBy (tb : TigerBeetle) : World → Prop
  | first (ids : List Uuid) (now : Timestamp) : LeftBy tb (World.boot ids now)
  | next {env : Env} {w : World} {c : State} : env.tb = tb → LeftBy tb w →
      (machine env).Reach (fun _ _ => True) ⟨w, []⟩ c → LeftBy tb c.world.restarted

/-- A process starts with nothing under way. -/
theorem LeftBy.quiet {tb : TigerBeetle} {w : World} (h : LeftBy tb w) :
    Quiet w.pg w.worker.ledger w := by
  cases h with
  | first ids now =>
      exact ⟨rfl, fun _ => ⟨rfl, rfl, rfl, rfl⟩, fun m hm => absurd hm List.not_mem_nil, rfl, rfl⟩
  | next _ _ _ =>
      exact ⟨rfl, fun _ => ⟨rfl, rfl, rfl, rfl⟩, fun m hm => absurd hm List.not_mem_nil, rfl, rfl⟩

/-! ### The seeds in turn -/

/-- What the seeds do to the stores when the boot returns `Ok`: each creation was put to the
ledger and each id was recorded, whatever came of it. -/
inductive SeedsTo (env : Env) : Pg → Ledger → List SystemAccountSeed → Pg → Ledger → Prop
  | nil {pg : Pg} {l : Ledger} : SeedsTo env pg l [] pg l
  | cons {pg pg₁ pg' : Pg} {l l' : Ledger} {seed : SystemAccountSeed}
      {seeds : List SystemAccountSeed} {id : Uuid} : env.parseUuid seed.ledgerAccountId = some id →
      Seeded pg seed.code id pg₁ →
      SeedsTo env pg₁ (ledgerAfter env.tb l (systemLedgerAccount env id)) seeds pg' l' →
      SeedsTo env pg l (seed :: seeds) pg' l'

section

variable {env : Env} {pg : Pg} {l : Ledger} {w : World} {seeds : List SystemAccountSeed}

theorem seedAll_seeding (h : Quiet pg l w) :
    (seeding env (fun _ _ => True)).TotalE
      (fun _ t => ∃ pg' l', SeedsTo env pg l seeds pg' l' ∧ Quiet pg' l' t)
      (fun (_ : Except String Unit) _ => True) (seedAll env seeds) w := by
  induction seeds generalizing pg l w with
  | nil => exact Setting.TotalE.pure (h.forever trivial (fun t ht => ⟨pg, l, .nil, ht⟩))
  | cons seed seeds ih =>
      refine Setting.TotalE.bind (M := fun _ t => ∃ id pg₁,
        env.parseUuid seed.ledgerAccountId = some id ∧ Seeded pg seed.code id pg₁ ∧
          Quiet pg₁ (ledgerAfter env.tb l (systemLedgerAccount env id)) t) ?_ (fun _ t ht => ?_)
      · refine seedSystemAccount_seeding h trivial (fun _ _ => trivial) ?_ ?_ (fun _ _ => trivial)
        · exact fun _ _ _ _ _ _ _ _ => trivial
        · exact fun id pg₁ t hid hrow ht => ⟨id, pg₁, hid, hrow, ht⟩
      · obtain ⟨-, id, pg₁, hid, hrow, hquiet⟩ := ht t .refl
        refine Setting.TotalE.weaken (ih hquiet) (fun _ u hu => ?_)
        obtain ⟨pg', l', hseeds, hend⟩ := hu
        exact ⟨pg', l', .cons hid hrow hseeds, hend⟩

/-- Where every account is held and named the seeds write nothing. -/
theorem seedAll_unchanged (h : Quiet pg l w)
    (hseeds : ∀ seed ∈ seeds, ∀ id, env.parseUuid seed.ledgerAccountId = some id →
      HoldsSystemAccount env l id ∧ NamesSystemAccount pg seed.code id) :
    (seeding env (fun pg' l' => pg' = pg ∧ l' = l)).TotalE (fun _ _ => True)
      (fun (_ : Except String Unit) _ => True) (seedAll env seeds) w := by
  induction seeds generalizing w with
  | nil => exact Setting.TotalE.pure (h.forever ⟨rfl, rfl⟩ (fun _ _ => trivial))
  | cons seed seeds ih =>
      have hfound := hseeds seed (List.mem_cons_self ..)
      refine Setting.TotalE.bind (M := fun _ t => Quiet pg l t) ?_ (fun _ t ht => ?_)
      · refine seedSystemAccount_seeding h ⟨rfl, rfl⟩ ?_ ?_ ?_ (fun _ _ => trivial)
        · exact fun id hid => ⟨rfl, (hfound id hid).1.ledgerAfter_eq⟩
        · intro id hid now uuid r pg' n htx
          obtain ⟨hheld, row, hrow, -⟩ := hfound id hid
          rw [recordSystemAccount_found hrow] at htx
          exact ⟨(Prod.mk.inj (Prod.mk.inj htx).2).1.symm, hheld.ledgerAfter_eq⟩
        · intro id pg' t hid hrow ht
          obtain ⟨hheld, row, hnamed, -⟩ := hfound id hid
          rw [hheld.ledgerAfter_eq] at ht
          cases hrow with
          | found _ => exact ht
          | added hnone _ _ _ =>
              rw [hnamed] at hnone
              cases hnone
      · exact ih (ht t .refl).2 (fun s hs => hseeds s (List.mem_cons_of_mem _ hs))

/-- A boot that returned `Ok` has put every seed to both stores. -/
theorem Booting.seedsTo {c : State} {t : Serving} (hboot : Booting env w c) (h : Quiet pg l w)
    (ht : c.tasks[0]? = some t) (hok : t.answer? = some (.ok (.ok, .seeded))) :
    ∃ pg' l', SeedsTo env pg l (systemAccounts env.settings.tigerbeetle) pg' l' ∧
      Quiet pg' l' c.world := by
  have htotal : (seeding env (fun _ _ => True)).Total
      (fun a t => a = .ok (.ok, .seeded) → ∃ pg' l',
        SeedsTo env pg l (systemAccounts env.settings.tigerbeetle) pg' l' ∧ Quiet pg' l' t)
      (serve env .seedSystemAccounts) w := by
    refine Setting.Total.bind (seedAll_seeding h) (fun r u hr v hv => ⟨(hr v hv).1, ?_⟩)
    cases r with
    | ok _ => exact fun _ => (hr v hv).2
    | error e => exact fun h => (by cases h)
  exact Setting.Total.answered (c := ⟨w, _⟩) rfl htotal hboot ht hok rfl

/-- **Idempotence.** From convergence a further boot leaves both stores as they are. -/
theorem Converged.unchanging (h : Converged env w) (hquiet : Quiet w.pg w.worker.ledger w) :
    Unchanging env w := by
  intro c hboot
  have htotal : (seeding env (fun pg l => pg = w.pg ∧ l = w.worker.ledger)).Total
      (fun _ _ => True) (serve env .seedSystemAccounts) w := by
    refine Setting.Total.bind (seedAll_unchanged hquiet (fun seed hseed id hid => ?_)) ?_
    · obtain ⟨id', hid', hheld⟩ := h seed hseed
      rw [hid] at hid'
      obtain rfl := Option.some.inj hid'
      exact hheld
    · exact fun r u hr v hv => ⟨(hr v hv).1, trivial⟩
  obtain ⟨hist, p, -, hrest⟩ := Setting.Total.run (c := ⟨w, _⟩) (i := 0) rfl htotal hboot
  exact hrest.during

end

/-! ### When a boot converges -/

/-- **A boot that returns `Ok` has converged exactly when what it found was ready for it.** -/
theorem seedSystemAccounts_converges_iff {env : Env} {w : World} {c : State} {t : Serving}
    {platform cms : Uuid} (hleft : LeftBy env.tb w)
    (hplatform : env.parseUuid env.settings.tigerbeetle.platformFeeAccountId = some platform)
    (hcms : env.parseUuid env.settings.tigerbeetle.cmsSettlementAccountId = some cms)
    (hne : platform ≠ cms) (hboot : Booting env w c) (ht : c.tasks[0]? = some t)
    (hok : t.answer? = some (.ok (.ok, .seeded))) :
    Converged env c.world ∧ Unchanging env c.world ↔ Ready env w platform cms := by
  obtain ⟨pg', l', hseeds, hquiet⟩ := hboot.seedsTo hleft.quiet ht hok
  have hconverged : Converged env c.world ↔ Ready env w platform cms := by
    unfold Converged
    rw [hquiet.pg_eq, hquiet.ledger_eq]
    clear hquiet
    unfold systemAccounts at hseeds ⊢
    cases hseeds with
    | @cons _ pg₁ _ _ _ _ _ id hid hrow hseeds =>
        rw [hplatform] at hid
        obtain rfl := Option.some.inj hid
        cases hseeds with
        | @cons _ _ _ _ _ _ _ id hid hrow' hseeds =>
            rw [hcms] at hid
            obtain rfl := Option.some.inj hid
            cases hseeds
            -- The second account's seed touches neither the row nor the ledger account of the first.
            have hcodes : "CMS_SETTLEMENT_IRR" ≠ "PLATFORM_FEE_IRR" := by decide
            have hplatformRow : NamesSystemAccount pg' "PLATFORM_FEE_IRR" platform ↔
                NoOther w.pg "PLATFORM_FEE_IRR" platform := by
              rw [← hrow.names_iff, NamesSystemAccount, NamesSystemAccount,
                hrow'.systemAccount?_eq hcodes]
            have hcmsRow : NamesSystemAccount pg' "CMS_SETTLEMENT_IRR" cms ↔
                NoOther w.pg "CMS_SETTLEMENT_IRR" cms := by
              rw [hrow'.names_iff, NoOther, NoOther, hrow.systemAccount?_eq hcodes.symm]
            have hplatformAccount : HoldsSystemAccount env (ledgerAfter env.tb
                (ledgerAfter env.tb w.worker.ledger (systemLedgerAccount env platform))
                (systemLedgerAccount env cms)) platform ↔
                Obtains env w.worker.ledger platform := by
              rw [holdsSystemAccount_after_ne hne.symm, holdsSystemAccount_after]
            simp only [List.forall_mem_cons, hplatform, hcms, Option.some.injEq,
              exists_eq_left', hplatformAccount, holdsSystemAccount_after, hplatformRow, hcmsRow]
            constructor
            · rintro ⟨⟨h₁, h₂⟩, ⟨h₃, h₄⟩, -⟩
              exact ⟨h₁, h₂, h₃, h₄⟩
            · rintro ⟨h₁, h₂, h₃, h₄⟩
              exact ⟨⟨h₁, h₂⟩, ⟨h₃, h₄⟩, fun _ h => absurd h List.not_mem_nil⟩
  constructor
  · exact fun h => hconverged.mp h.1
  · intro h
    have hconv := hconverged.mpr h
    refine ⟨hconv, hconv.unchanging ?_⟩
    rw [hquiet.pg_eq, hquiet.ledger_eq]
    exact hquiet

/-! ### Boots with other ids -/

/-- A boot that nothing disturbs. -/
def seeded (env : Env) (w : World) : State :=
  serveAlone env 0 60 ⟨w, [(machine env).newTask .seedSystemAccounts]⟩

theorem seeded_booting (env : Env) (w : World) : Booting env w (seeded env w) := by
  refine (serveAlone_reach env 0 60 _).mono (fun c l hl => ?_)
  cases l with
  | arrive q => exact hl
  | step j ch => exact ⟨hl.1, trivial⟩
  | drop j => exact hl
  | env v => trivial

theorem seeded_leftBy {env : Env} {w : World} (h : LeftBy env.tb w) :
    LeftBy env.tb (seeded env w).world.restarted := by
  have harrive := (machine env).step_arrive ⟨w, []⟩ .seedSystemAccounts
  exact .next rfl h ((Machine.Reach.tail .refl trivial harrive).trans
    ((seeded_booting env w).mono (fun _ _ _ => trivial)))

/-- The stores before the first start. -/
def blank : World := World.boot (systemIds defaultEnv) 0

theorem seeded_ok : (seeded defaultEnv blank).tasks[0]?.bind Task.answer? =
    some (.ok (.ok, .seeded)) := by
  decide +kernel

theorem seedSystemAccounts_converges_first :
    Converged defaultEnv (seeded defaultEnv blank).world ∧
      Unchanging defaultEnv (seeded defaultEnv blank).world := by
  obtain ⟨t, ht, hok⟩ := Option.bind_eq_some_iff.mp seeded_ok
  refine (@seedSystemAccounts_converges_iff defaultEnv blank _ t ⟨1⟩ ⟨2⟩ (.first _ _)
    (by decide +kernel) (by decide +kernel) (by decide) (seeded_booting _ _) ht hok).mpr ?_
  refine ⟨Or.inr ⟨rfl, _, rfl⟩, fun _ h => ?_, Or.inr ⟨rfl, _, rfl⟩, fun _ h => ?_⟩
  · cases h
  · cases h

/-- The default settings with the two ids exchanged. -/
def exchangedEnv : Env :=
  { defaultEnv with
    settings :=
      { defaultSettings with
        tigerbeetle :=
          { defaultSettings.tigerbeetle with
            platformFeeAccountId := "00000000-0000-0000-0000-000000000002"
            cmsSettlementAccountId := "00000000-0000-0000-0000-000000000001" } } }

/-- The next process, with the ids exchanged. -/
def exchanged : State := seeded exchangedEnv (seeded defaultEnv blank).world.restarted

theorem exchanged_boots :
    exchanged.tasks[0]?.bind Task.answer? = some (.ok (.ok, .seeded)) ∧
      (systemAccount? exchanged.world.pg "PLATFORM_FEE_IRR").map SystemAccount.ledgerAccountId =
        some ⟨1⟩ ∧
      exchangedEnv.parseUuid exchangedEnv.settings.tigerbeetle.platformFeeAccountId =
        some ⟨2⟩ ∧
      exchangedEnv.parseUuid exchangedEnv.settings.tigerbeetle.cmsSettlementAccountId =
        some ⟨1⟩ := by
  decide +kernel

/-- A row that names another id than the configured one is not converged. -/
theorem Converged.platformRow {env : Env} {w : World} {id : Uuid} (h : Converged env w)
    (hid : env.parseUuid env.settings.tigerbeetle.platformFeeAccountId = some id) :
    (systemAccount? w.pg "PLATFORM_FEE_IRR").map SystemAccount.ledgerAccountId = some id := by
  obtain ⟨id', hid', -, row, hrow, rfl⟩ := h _ (List.mem_cons_self ..)
  have hid' : env.parseUuid env.settings.tigerbeetle.platformFeeAccountId =
    some row.ledgerAccountId := hid'
  have hrow : systemAccount? w.pg "PLATFORM_FEE_IRR" = some row := hrow
  rw [hrow, ← hid, hid']
  rfl

/-- It returns `Ok` with the codes naming the ids they had. -/
theorem exchanged_not_converged :
    ∃ env w c t platform cms, LeftBy env.tb w ∧
      env.parseUuid env.settings.tigerbeetle.platformFeeAccountId = some platform ∧
      env.parseUuid env.settings.tigerbeetle.cmsSettlementAccountId = some cms ∧
      platform ≠ cms ∧ Booting env w c ∧ c.tasks[0]? = some t ∧
      t.answer? = some (.ok (.ok, .seeded)) ∧ ¬ (Converged env c.world ∧ Unchanging env c.world) := by
  obtain ⟨hanswer, hrow, hplatform, hcms⟩ := exchanged_boots
  obtain ⟨t, ht, hok⟩ := Option.bind_eq_some_iff.mp hanswer
  have hleft : LeftBy exchangedEnv.tb (seeded defaultEnv blank).world.restarted :=
    @seeded_leftBy defaultEnv blank (.first _ _)
  refine ⟨exchangedEnv, _, exchanged, t, ⟨2⟩, ⟨1⟩, hleft, hplatform, hcms, by decide,
    seeded_booting _ _, ht, hok, ?_⟩
  rintro ⟨hconverged, -⟩
  rw [hconverged.platformRow hplatform] at hrow
  exact absurd hrow (by decide)

end Wurzburg.System
