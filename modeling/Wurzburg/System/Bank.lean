import Wurzburg.TigerBeetle.LedgerBook
import Wurzburg.System.Provisioning
import Wurzburg.System.Balances

/-!
# Wurzburg.System.Bank

The service as a bank (`Wurzburg.Lib.Bank`) between its providers and their users.

The accounts of the bank are the providers and the users at a provider, the keys are the
idempotency keys, and a user's account is guarded. Whatever the service does, seen
through the tables (`Shows`) it is a run of that bank, in which every movement was asked for
by a `credit_user` or `debit_user` request that names both parties, the amount and the key
(`service_refines_bank`).
-/

namespace Wurzburg.System

open Wurzburg.Lib Wurzburg.Db Wurzburg.Tb Wurzburg.Api

/-! ### The bank -/

/-- Who holds an account. -/
inductive Party where
  | provider (id : Uuid)
  | user (userId providerId : Uuid)
  deriving DecidableEq, Repr

/-- Only a provider may owe. -/
def Party.isUser : Party → Prop
  | provider _ => False
  | user .. => True

/-- What a request asks the bank to move. -/
def movement (d : Direction) (providerId userId : Uuid) (payload : TransferRequest) :
    Bank.Movement Uuid Party where
  key := payload.idempotencyKey
  entry :=
    { debit := (d.accounts (.provider providerId) (.user userId providerId)).1
      credit := (d.accounts (.provider providerId) (.user userId providerId)).2
      amount := payload.amount.toNat }

/-- A request that has arrived asks for the movement. -/
def Asked (c : State) (m : Bank.Movement Uuid Party) : Prop :=
  ∃ t ∈ c.tasks, ∃ d p u payload, t.req = transferRequest d p u payload ∧
    m = movement d p u payload

/-- The ledger account of a party. -/
inductive Numbered (pg : Pg) : Party → Uuid → Prop
  | provider {p : Provider} : p ∈ pg.providers → Numbered pg (.provider p.id) p.ledgerAccountId
  | user {ua : UserAccount} : ua ∈ pg.userAccounts →
      Numbered pg (.user ua.userId ua.providerId) ua.ledgerAccountId

/-- The transfer carries out the movement. -/
structure CarriesOut (pg : Pg) (m : Bank.Movement Uuid Party) (t : Transfer) : Prop where
  key : t.id = m.key.asU128
  debit : ∃ x, Numbered pg m.entry.debit x ∧ t.debitAccountId = x.asU128
  credit : ∃ x, Numbered pg m.entry.credit x ∧ t.creditAccountId = x.asU128
  amount : t.amount = m.entry.amount

/-- The ledger holds the transfers of the book, and with them what the book says that the
parties hold. -/
structure Shows (w : World) (book : Bank.Book Uuid Party) : Prop where
  transfers : List.Forall₂ (CarriesOut w.pg) book w.worker.ledger.transfers
  balances : ∀ party x, Numbered w.pg party x →
    Bank.balance book party = netPosted w.worker.ledger x

section

variable {env : Env} {w : World} {pg pg' : Pg}

theorem Numbered.mono {party : Party} {x : Uuid} (h : Numbered pg party x)
    (hg : Pg.Grows pg pg') : Numbered pg' party x := by
  cases h with
  | provider hp => exact .provider (hg.providers.subset hp)
  | user hua => exact .user (hg.userAccounts.subset hua)

theorem CarriesOut.mono {m : Bank.Movement Uuid Party} {t : Transfer} (h : CarriesOut pg m t)
    (hg : Pg.Grows pg pg') : CarriesOut pg' m t := by
  obtain ⟨hkey, ⟨x, hx, hdebit⟩, ⟨y, hy, hcredit⟩, hamount⟩ := h
  exact ⟨hkey, ⟨x, hx.mono hg, hdebit⟩, ⟨y, hy.mono hg, hcredit⟩, hamount⟩

/-- Every party has its own account. -/
theorem Inv.numbered_inj (h : Inv env w) {a b : Party} {x y : Uuid} (ha : Numbered w.pg a x)
    (hb : Numbered w.pg b y) : a = b ↔ x.asU128 = y.asU128 := by
  cases ha with
  | @provider p hp =>
      cases hb with
      | @provider q hq =>
          constructor
          · intro heq
            rw [List.inj_on_of_nodup_map h.tables.providerIds hp hq (Party.provider.inj heq)]
          · intro heq
            rw [List.inj_on_of_nodup_map h.tables.providerLedgers hp hq (Uuid.asU128_inj.mp heq)]
      | @user ua hua =>
          have hne := h.asU128_ne (h.providerLedgers p hp) (h.userLedgers ua hua) (by decide)
          exact ⟨fun heq => (by cases heq), fun heq => absurd heq hne⟩
  | @user ua hua =>
      cases hb with
      | @provider q hq =>
          have hne := h.asU128_ne (h.userLedgers ua hua) (h.providerLedgers q hq) (by decide)
          exact ⟨fun heq => (by cases heq), fun heq => absurd heq hne⟩
      | @user ub hub =>
          constructor
          · intro heq
            obtain ⟨hu, hp⟩ := Party.user.inj heq
            rw [List.inj_on_of_nodup_map h.tables.accountPairs hua hub (Prod.ext hu hp)]
          · intro heq
            rw [List.inj_on_of_nodup_map h.tables.accountLedgers hua hub (Uuid.asU128_inj.mp heq)]

/-- A party's account stands for it in every transfer. -/
theorem Inv.stands (h : Inv env w) {party : Party} {x : Uuid} (hx : Numbered w.pg party x)
    {m : Bank.Movement Uuid Party} {t : Transfer} (ht : CarriesOut w.pg m t) :
    Bank.Stands party x.asU128 m.entry t.entry := by
  obtain ⟨-, ⟨y, hy, hdebit⟩, ⟨z, hz, hcredit⟩, hamount⟩ := ht
  refine ⟨?_, ?_, hamount.symm⟩
  · rw [h.numbered_inj hx hy, Transfer.entry, hdebit]
  · rw [h.numbered_inj hx hz, Transfer.entry, hcredit]

/-- A transfer carries out one movement only. -/
theorem Inv.carriesOut_inj (h : Inv env w) {m m' : Bank.Movement Uuid Party} {t : Transfer}
    (hm : CarriesOut w.pg m t) (hm' : CarriesOut w.pg m' t) : m = m' := by
  obtain ⟨key, debit, credit, amount⟩ := m
  obtain ⟨key', debit', credit', amount'⟩ := m'
  obtain ⟨hkey, ⟨x, hx, hdebit⟩, ⟨y, hy, hcredit⟩, hamount⟩ := hm
  obtain ⟨hkey', ⟨x', hx', hdebit'⟩, ⟨y', hy', hcredit'⟩, hamount'⟩ := hm'
  obtain rfl : key = key' := Uuid.asU128_inj.mp (hkey.symm.trans hkey')
  obtain rfl : debit = debit' := (h.numbered_inj hx hx').mpr (hdebit.symm.trans hdebit')
  obtain rfl : credit = credit' := (h.numbered_inj hy hy').mpr (hcredit.symm.trans hcredit')
  obtain rfl : amount = amount' := hamount.symm.trans hamount'
  rfl

/-- What a party holds after some of the transfers. -/
theorem Inv.balance_eq (h : Inv env w) {party : Party} {x : Uuid} (hx : Numbered w.pg party x)
    {book : Bank.Book Uuid Party} {ts : List Transfer}
    (hbook : List.Forall₂ (CarriesOut w.pg) book ts) :
    Bank.balance book party = Bank.balance (ts.map Transfer.movement) x.asU128 := by
  have hmoves : List.Forall₂ (fun m u => ∃ t, CarriesOut w.pg m t ∧ u = t.movement) book
      (ts.map Transfer.movement) :=
    List.forall₂_map_right_iff.mpr (hbook.imp fun m t ht => ⟨t, ht, rfl⟩)
  refine Bank.balance_renamed hmoves ?_
  rintro m _ ⟨t, ht, rfl⟩
  exact h.stands hx ht

/-- A book of transfers that carry out its movements shows the balances too. -/
theorem Inv.shows (h : Inv env w) {book : Bank.Book Uuid Party}
    (hbook : List.Forall₂ (CarriesOut w.pg) book w.worker.ledger.transfers) : Shows w book := by
  refine ⟨hbook, fun party x hx => ?_⟩
  rw [h.balance_eq hx hbook, Ledger.balance_movements]
  exact netPosted_eq h x

end

/-! ### What is under way to the ledger -/

/-- A request that has arrived hands the transfer over. -/
def AskedTransfer (env : Env) (c : State) (t : AppTransfer) : Prop :=
  ∃ task ∈ c.tasks, TransferOf env task.req c.world.pg t

/-- What is under way to the ledger was asked for, and the ledger has posted it like a bank. -/
structure Orderly (env : Env) (c : State) : Prop where
  sent : ∀ cmd ∈ c.world.sent, ∀ t, cmd.request = .createTransfer t → AskedTransfer env c t
  worker : Worker.Sound env.tb (AskedTransfer env c) (AccountFor env c.world.issued) c.world.worker
  posted : c.world.worker.ledger.Posted

section

variable {env : Env} {c c' : State}

theorem TransferOf.mono {q : Request} {pg pg' : Pg} {t : AppTransfer} (h : TransferOf env q pg t)
    (hg : Pg.Grows pg pg') : TransferOf env q pg' t := by
  obtain ⟨d, payload, p, hp, ua, hua, hlink, hq, ht⟩ := h
  exact ⟨d, payload, p, hg.providers.subset hp, ua, hg.userAccounts.subset hua, hlink, hq, ht⟩

/-- A task is still there, with its request. -/
theorem mem_req_of_reach {ok : State → Act → Prop} (h : (machine env).Reach ok c c')
    {t : Serving} (ht : t ∈ c.tasks) : ∃ t' ∈ c'.tasks, t'.req = t.req := by
  obtain ⟨i, hi⟩ := List.getElem?_of_mem ht
  obtain ⟨t', ht', hreq, -⟩ := h.hist_prefix hi
  exact ⟨t', List.mem_of_getElem? ht', hreq⟩

theorem AskedTransfer.step {l : Act} {t : AppTransfer} (h : AskedTransfer env c t)
    (hs : (machine env).step c l = some c') (hg : Grows c.world c'.world) :
    AskedTransfer env c' t := by
  obtain ⟨task, htask, hof⟩ := h
  have hreach : (machine env).Reach (fun _ _ => True) c c' := .tail .refl trivial hs
  obtain ⟨task', htask', hreq⟩ := mem_req_of_reach hreach htask
  refine ⟨task', htask', ?_⟩
  rw [hreq]
  exact hof.mono hg.pg

/-- What the world by itself does to the worker. -/
theorem World.move_worker {tb : TigerBeetle} {n : Nat} {w w' : World} {v : Move}
    (h : w.move tb n v = some w') :
    w'.worker = w.worker ∨
    (∃ e, w'.worker = w.worker.turn tb n e ∧ ∀ cmd o, e = .command cmd o → cmd ∈ w.queue) ∨
    w'.worker = .start w.worker.ledger := by
  cases v with
  | receive o =>
      obtain ⟨cmd, rest, hq, rfl⟩ := World.receive_cases h
      refine Or.inr (Or.inl ⟨.command cmd o, rfl, fun cmd' o' he => ?_⟩)
      obtain ⟨rfl, -⟩ := WorkerEvent.command.inj he
      rw [hq]
      exact List.mem_cons_self ..
  | tick o =>
      simp only [World.move] at h
      split at h
      · obtain rfl := Option.some.inj h
        exact Or.inr (Or.inl ⟨.tick o, rfl, fun cmd o' he => (by cases he)⟩)
      · cases h
  | restart =>
      obtain rfl := Option.some.inj h
      exact Or.inr (Or.inr rfl)
  | expire key =>
      simp only [World.move] at h
      split at h
      · obtain rfl := Option.some.inj h
        exact Or.inl rfl
      · cases h
  | stop | clock app db =>
      obtain rfl := Option.some.inj h
      exact Or.inl rfl

/-- What one act does to the worker. -/
theorem step_worker {l : Act} (hs : (machine env).step c l = some c') :
    c'.world.worker = c.world.worker ∨
    (∃ e, c'.world.worker =
        c.world.worker.turn env.tb env.settings.tigerbeetle.batchMaxSize e ∧
      ∀ cmd o, e = .command cmd o → cmd ∈ c.world.queue) ∨
    c'.world.worker = .start c.world.worker.ledger := by
  rcases (machine env).step_cases hs with ⟨q, rfl, rfl⟩ |
    ⟨i, ch, q, hist, e, k, r, w, rfl, -, hx, rfl⟩ | ⟨i, q, hist, e, k, rfl, -, rfl⟩ |
    ⟨v, w, rfl, hx, rfl⟩
  · exact Or.inl rfl
  · exact Or.inl (exec_frame hx).1
  · exact Or.inl rfl
  · exact World.move_worker hx

/-- What waits in the channel is what the service sends. -/
theorem Inv.permitted {w : World} (h : Inv env w) {e : WorkerEvent}
    (hqueued : ∀ cmd o, e = .command cmd o → cmd ∈ w.queue) :
    Worker.Permitted (TransferFor env w.pg) (AccountFor env w.issued) e := by
  intro cmd o he
  have hok := h.traffic.commands cmd
    (h.traffic.known cmd (List.mem_append_right _ (hqueued cmd o he)))
  refine ⟨fun t ht => ?_, fun a ha => ?_⟩
  · rw [ht] at hok
    exact hok
  · rw [ha] at hok
    exact hok

theorem faulty_sent {w w' : World} {f : Fault} {apply : World → World} {r : Except String Unit}
    (happly : (apply w).sent = w.sent) (h : w.faulty f apply = (r, w')) : w'.sent = w.sent := by
  unfold World.faulty at h
  split at h
  · obtain ⟨-, rfl⟩ := Prod.mk.inj h
    exact happly
  · next applied _ =>
      obtain ⟨-, rfl⟩ := Prod.mk.inj h
      cases applied
      · rfl
      · exact happly

/-- What an effect of a handler puts under way to the worker. -/
theorem exec_sent {w w' : World} {capacity : Nat} {ch : Choice} {e : Eff} {r : e.Resp}
    (hx : w.exec capacity ch e = some (r, w')) :
    w'.sent = w.sent ∨
      ∃ request, e = .tbSend request ∧ w'.sent = w.sent ++ [⟨request, w.sent.length⟩] := by
  cases e with
  | now =>
      obtain ⟨-, rfl⟩ := Prod.mk.inj (Option.some.inj hx)
      exact Or.inl rfl
  | newV4 use =>
      simp only [World.exec] at hx
      split at hx
      · obtain ⟨-, rfl⟩ := Prod.mk.inj (Option.some.inj hx)
        exact Or.inl rfl
      · cases hx
  | db call =>
      rcases World.dbExec_cases hx with ⟨e, -, rfl⟩ | ⟨r', happly, -⟩
      · exact Or.inl rfl
      · obtain ⟨pg, n, -, -, rfl⟩ := World.dbApply_cases happly
        exact Or.inl rfl
  | redis cmd => exact Or.inl (faulty_sent (by cases cmd <;> rfl) (Option.some.inj hx))
  | kafka cmd => exact Or.inl (faulty_sent (by cases cmd <;> rfl) (Option.some.inj hx))
  | tbSend request =>
      rcases World.tbSend_cases hx with ⟨-, rfl⟩ | ⟨-, rfl⟩
      · exact Or.inl rfl
      · exact Or.inr ⟨request, rfl, rfl⟩
  | tbRecv i =>
      obtain ⟨rfl, -⟩ := World.tbRecv_cases hx
      exact Or.inl rfl

theorem Orderly.boot (env : Env) (now : Timestamp) : Orderly env (boot env now) where
  sent := fun _ hcmd => absurd hcmd List.not_mem_nil
  worker := .start .empty
  posted := .empty

theorem Orderly.step {l : Act} (h : Orderly env c) (hc : Reachable env c)
    (hs : (machine env).step c l = some c') : Orderly env c' := by
  obtain ⟨hc', hg⟩ := hc.step hs
  have hstep : ∀ t, AskedTransfer env c t → AskedTransfer env c' t := fun t ht => ht.step hs hg
  have hold : ∀ cmd ∈ c.world.sent, ∀ t, cmd.request = .createTransfer t → AskedTransfer env c' t :=
    fun cmd hcmd t ht => hstep t (h.sent cmd hcmd t ht)
  have hworker := h.worker.mono hstep (fun a ha => ha.mono hg.issued)
  -- the worker stands still while handlers work
  have hstill : c'.world.worker = c.world.worker →
      Worker.Sound env.tb (AskedTransfer env c') (AccountFor env c'.world.issued) c'.world.worker ∧
        c'.world.worker.ledger.Posted := by
    intro hw
    rw [hw]
    exact ⟨hworker, h.posted⟩
  rcases (machine env).step_cases hs with ⟨q, rfl, rfl⟩ |
    ⟨i, ch, q, hist, e, k, r, w, rfl, ht, hx, rfl⟩ | ⟨i, q, hist, e, k, rfl, ht, rfl⟩ |
    ⟨v, w, rfl, hx, rfl⟩
  · obtain ⟨hsound, hposted⟩ := hstill rfl
    exact ⟨hold, hsound, hposted⟩
  · obtain ⟨hsound, hposted⟩ := hstill (exec_frame hx).1
    refine ⟨?_, hsound, hposted⟩
    rcases exec_sent hx with hsent | ⟨request, rfl, hsent⟩
    · show ∀ cmd ∈ w.sent, _
      rw [hsent]
      exact hold
    · show ∀ cmd ∈ w.sent, _
      rw [hsent]
      intro cmd hcmd t hreq
      rcases List.mem_append.mp hcmd with hcmd | hcmd
      · exact hold cmd hcmd t hreq
      · -- a handler hands over only what its request asks for
        obtain rfl := List.mem_singleton.mp hcmd
        obtain rfl : request = .createTransfer t := hreq
        have hof := hc.holds.pending (List.mem_of_getElem? ht) rfl
        exact hstep t ⟨_, List.mem_of_getElem? ht, hof⟩
  · obtain ⟨hsound, hposted⟩ := hstill rfl
    exact ⟨hold, hsound, hposted⟩
  · have hsent : w.sent = c.world.sent := (World.move_frame hx).2
    suffices hrest : Worker.Sound env.tb (AskedTransfer env { c with world := w })
        (AccountFor env w.issued) w.worker ∧ w.worker.ledger.Posted by
      refine ⟨?_, hrest.1, hrest.2⟩
      show ∀ cmd ∈ w.sent, _
      rw [hsent]
      exact hold
    rcases World.move_worker hx with hw | ⟨e, hw, hqueued⟩ | hw
    · exact hstill hw
    · have hplain : Worker.Plain (AskedTransfer env { c with world := w })
          (AccountFor env w.issued) :=
        ⟨fun t ⟨task, _, hof⟩ => (plain env w.pg w.issued).transfer t hof.transferFor,
          fun a ha => (plain env w.pg w.issued).account a ha⟩
      have hpermitted : Worker.Permitted (AskedTransfer env { c with world := w })
          (AccountFor env w.issued) e := by
        intro cmd o he
        have hmem := hc.inv.traffic.known cmd (List.mem_append_right _ (hqueued cmd o he))
        refine ⟨fun t ht => hold cmd hmem t ht, fun a ha => ?_⟩
        have hok := hc.inv.traffic.commands cmd hmem
        rw [ha] at hok
        exact AccountFor.mono hok hg.issued
      rw [hw]
      exact ⟨(hworker.turn hplain hpermitted).1, hworker.turn_posted hplain hpermitted h.posted⟩
    · rw [hw]
      exact ⟨.start hworker.ledger, h.posted⟩

theorem Reachable.orderly (h : Reachable env c) : Orderly env c := by
  obtain ⟨now, hreach⟩ := h
  have hboth : Reachable env c ∧ Orderly env c := by
    refine hreach.invariant (P := fun c => Reachable env c ∧ Orderly env c)
      ⟨⟨now, .refl⟩, .boot env now⟩ ?_
    exact fun c l c' ⟨hc, ho⟩ _ hs => ⟨(hc.step hs).1, ho.step hc hs⟩
  exact hboth.2

end

/-! ### The service as a run of the bank -/

section

variable {env : Env} {c c' : State}

/-- The transfer that a request hands over carries out what the request asks for. -/
theorem TransferOf.carriesOut {q : Request} {pg : Pg} {t : AppTransfer}
    (h : TransferOf env q pg t) : ∃ d p u payload, q = transferRequest d p u payload ∧
      CarriesOut pg (movement d p u payload) (toTbTransfer t) := by
  obtain ⟨d, payload, p, hp, ua, hua, hlink, rfl, rfl⟩ := h
  have hprovider : Numbered pg (.provider p.id) p.ledgerAccountId := .provider hp
  have huser : Numbered pg (.user ua.userId p.id) ua.ledgerAccountId := hlink ▸ .user hua
  refine ⟨d, p.id, ua.userId, payload, rfl, ?_⟩
  cases d with
  | credit => exact ⟨rfl, ⟨_, hprovider, rfl⟩, ⟨_, huser, rfl⟩, rfl⟩
  | debit => exact ⟨rfl, ⟨_, huser, rfl⟩, ⟨_, hprovider, rfl⟩, rfl⟩

/-- A transfer that was asked for carries out a movement that was asked for. -/
theorem AskedTransfer.movement {t : AppTransfer} (h : AskedTransfer env c t) :
    ∃ m, Asked c m ∧ CarriesOut c.world.pg m (toTbTransfer t) := by
  obtain ⟨task, htask, hof⟩ := h
  obtain ⟨d, p, u, payload, hreq, hcarries⟩ := hof.carriesOut
  exact ⟨_, ⟨task, htask, d, p, u, payload, hreq, rfl⟩, hcarries⟩

/-- A book for transfers that were all asked for. -/
theorem exists_book {ts : List Transfer}
    (h : ∀ t ∈ ts, ∃ m, Asked c m ∧ CarriesOut c.world.pg m t) :
    ∃ book, (∀ m ∈ book, Asked c m) ∧ List.Forall₂ (CarriesOut c.world.pg) book ts := by
  induction ts with
  | nil => exact ⟨[], fun m hm => absurd hm List.not_mem_nil, .nil⟩
  | cons t ts ih =>
      obtain ⟨m, hm, ht⟩ := h t (List.mem_cons_self ..)
      obtain ⟨book, hbook, hts⟩ := ih (fun u hu => h u (List.mem_cons_of_mem _ hu))
      exact ⟨m :: book, List.forall_mem_cons.mpr ⟨hm, hbook⟩, .cons ht hts⟩

theorem forall₂_append_cons {α β : Type} {R : α → β → Prop} {pre post : List α} {a : α}
    {bs : List β} (h : List.Forall₂ R (pre ++ a :: post) bs) :
    ∃ pre' b post', bs = pre' ++ b :: post' ∧ List.Forall₂ R pre pre' ∧ R a b := by
  induction pre generalizing bs with
  | nil =>
      cases h with
      | cons hab _ => exact ⟨[], _, _, rfl, .nil, hab⟩
  | cons x pre ih =>
      cases h with
      | cons hx hrest =>
          obtain ⟨pre', b, post', rfl, hpre, hab⟩ := ih hrest
          exact ⟨_ :: pre', b, post', rfl, .cons hx hpre, hab⟩

theorem keys_eq {pg : Pg} {book : Bank.Book Uuid Party} {ts : List Transfer}
    (h : List.Forall₂ (CarriesOut pg) book ts) :
    (ts.map Transfer.movement).map Bank.Movement.key =
      (book.map Bank.Movement.key).map Uuid.asU128 := by
  induction h with
  | nil => rfl
  | cons ht _ ih => exact congrArg₂ List.cons ht.key ih

/-- The ledger account of a user, once it exists, is limited by its credits. -/
theorem Inv.guards {w : World} (h : Inv env w) {party : Party} {x : Uuid}
    (hx : Numbered w.pg party x) (huser : party.isUser)
    (hsome : (w.worker.ledger.account? x.asU128).isSome = true) :
    w.worker.ledger.Guards x.asU128 := by
  cases hx with
  | provider _ => exact huser.elim
  | user hua =>
      obtain ⟨a, ha, -, -, hflags⟩ := h.holdsAccount hua hsome
      refine ⟨a, Ledger.account?_mem ha, Ledger.account?_id ha, ?_⟩
      rw [Account.creditLimited, hflags]
      rfl

/-- Every movement of the book was postable when it was posted. -/
theorem Reachable.postable (hc : Reachable env c) {pre post : Bank.Book Uuid Party}
    {m : Bank.Movement Uuid Party}
    (hbook : List.Forall₂ (CarriesOut c.world.pg) (pre ++ m :: post)
      c.world.worker.ledger.transfers) : Bank.Postable Party.isUser pre m := by
  obtain ⟨ts, t, ts', hsplit, hpre, hm⟩ := forall₂_append_cons hbook
  obtain ⟨hkey, hapart, hcovered⟩ := hc.orderly.posted ts t ts' hsplit
  obtain ⟨x, hx, hdebit⟩ := hm.debit
  obtain ⟨y, hy, hcredit⟩ := hm.credit
  refine ⟨fun hmem => hkey ?_, fun heq => hapart ?_, fun huser => ?_⟩
  · rw [keys_eq hpre, show t.movement.key = m.key.asU128 from hm.key]
    exact List.mem_map_of_mem hmem
  · show t.debitAccountId = t.creditAccountId
    rw [hdebit, hcredit]
    exact (hc.inv.numbered_inj hx hy).mp heq
  · have ht : t ∈ c.world.worker.ledger.transfers := by
      rw [hsplit]
      exact List.mem_append_right _ (List.mem_cons_self ..)
    have hexists := (hc.inv.worker.ledger.endpoints t ht).1
    have hguards := hc.inv.guards hx huser (hdebit ▸ hexists)
    have hle := hcovered (show c.world.worker.ledger.Guards t.debitAccountId from hdebit ▸ hguards)
    rw [hc.inv.balance_eq hx hpre, ← hdebit, ← hm.amount]
    exact hle

theorem Reachable.grows {ok : State → Act → Prop} (hc : Reachable env c)
    (hreach : (machine env).Reach ok c c') : Grows c.world c'.world :=
  (Contract.reach service_sound hc.holds (hreach.mono (fun _ _ _ => trivial))).2

/-- A book of movements that were asked for is a run of the bank. -/
theorem Reachable.run (hc : Reachable env c) {asked : Bank.Movement Uuid Party → Prop}
    {book more : Bank.Book Uuid Party} (hasked : ∀ m ∈ more, asked m)
    (hbook : List.Forall₂ (CarriesOut c.world.pg) (book ++ more)
      c.world.worker.ledger.transfers) : Bank.Run Party.isUser asked book (book ++ more) := by
  refine Bank.run_append (fun pre m post heq => ⟨hasked m ?_, ?_⟩)
  · rw [heq]
    exact List.mem_append_right _ (List.mem_cons_self ..)
  · rw [heq, ← List.append_assoc] at hbook
    exact hc.postable hbook

/-- A book for what was posted since an earlier state. -/
theorem Reachable.posts_more (hc : Reachable env c)
    (hreach : (machine env).Reach (fun _ _ => True) c c') {book : Bank.Book Uuid Party}
    (hbook : List.Forall₂ (CarriesOut c.world.pg) book c.world.worker.ledger.transfers) :
    ∃ more, Bank.Run Party.isUser (Asked c') book (book ++ more) ∧ Shows c'.world (book ++ more) := by
  have hc' := hc.extend hreach
  have hg := hc.grows hreach
  obtain ⟨new, hnew⟩ := hg.transfers
  have hasked : ∀ t ∈ new, ∃ m, Asked c' m ∧ CarriesOut c'.world.pg m t := by
    intro t ht
    have hmem : t ∈ c'.world.worker.ledger.transfers := hnew ▸ List.mem_append_right _ ht
    obtain ⟨app, hof, rfl⟩ := hc'.orderly.worker.ledger.transfers t hmem
    exact hof.movement
  obtain ⟨more, hmore, htransfers⟩ := exists_book hasked
  have hall : List.Forall₂ (CarriesOut c'.world.pg) (book ++ more)
      c'.world.worker.ledger.transfers := by
    rw [← hnew]
    exact List.rel_append (hbook.imp fun m t ht => ht.mono hg.pg) htransfers
  exact ⟨more, hc'.run hmore hall, hc'.inv.shows hall⟩

/-- Some run of the bank leads to what the ledger holds. -/
theorem Reachable.exists_run (hc : Reachable env c) :
    ∃ book, Bank.Run Party.isUser (Asked c) [] book ∧ Shows c.world book := by
  have hasked : ∀ t ∈ c.world.worker.ledger.transfers,
      ∃ m, Asked c m ∧ CarriesOut c.world.pg m t := by
    intro t ht
    obtain ⟨app, hof, rfl⟩ := hc.orderly.worker.ledger.transfers t ht
    exact hof.movement
  obtain ⟨book, hbook, hall⟩ := exists_book hasked
  exact ⟨book, @Reachable.run env c hc _ [] book hbook hall, hc.inv.shows hall⟩

/-- **The service is a bank.** In every reachable state, some run of the bank leads to what
the ledger holds; every book that shows it moves nothing twice and leaves no user below
zero; and whatever happens next, the bank goes on from there, by movements that requests
have asked for. -/
theorem service_refines_bank (hc : Reachable env c) :
    (∃ book, Bank.Run Party.isUser (Asked c) [] book ∧ Shows c.world book) ∧
    ∀ book, Shows c.world book →
      (book.map Bank.Movement.key).Nodup ∧
      (∀ userId providerId, 0 ≤ Bank.balance book (.user userId providerId)) ∧
      ∀ c', (machine env).Reach (fun _ _ => True) c c' →
        ∃ more, Bank.Run Party.isUser (Asked c') book (book ++ more) ∧
          Shows c'.world (book ++ more) := by
  refine ⟨hc.exists_run, ?_⟩
  intro book hshows
  have hrun : Bank.Run Party.isUser (fun _ => True) [] book :=
    @Reachable.run env c hc _ [] book (fun _ _ => trivial) hshows.transfers
  exact ⟨hrun.keys_nodup, fun u p => hrun.solvent trivial,
    fun c' hreach => hc.posts_more hreach hshows.transfers⟩

end

/-- After a credit of 500 the bank says that the user holds 500. -/
theorem service_refines_bank_oneCredit :
    ∃ book, Bank.Run Party.isUser (Asked oneCredit) [] book ∧ Shows oneCredit.world book ∧
      Bank.balance book (.user ⟨1008⟩ ⟨1002⟩) = 500 := by
  obtain ⟨⟨book, hrun, hshows⟩, -⟩ := service_refines_bank oneCredit_reachable
  have haccount : ∃ ua ∈ oneCredit.world.pg.userAccounts, ua.userId = ⟨1008⟩ ∧
      ua.providerId = ⟨1002⟩ ∧ netPosted oneCredit.world.worker.ledger ua.ledgerAccountId = 500 := by
    decide +kernel
  obtain ⟨ua, hua, hu, hp, hnet⟩ := haccount
  refine ⟨book, hrun, hshows, ?_⟩
  rw [← hu, ← hp, hshows.balances _ _ (.user hua), hnet]

end Wurzburg.System
