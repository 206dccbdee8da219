import Wurzburg.System.Recovery

/-!
# Wurzburg.System.Duplicates

Identical credits or debits that run concurrently. As long as none of them makes
its idempotency check while another one is between its check and its end, one
of them moves the money and all of them are answered with success
(`duplicates_succeed`). While that one is at work, the others have not passed
their checks, so they leave the world alone: it runs as if by itself, and what
`Wurzburg.System.Settle` says of a lone request applies.
-/

namespace Wurzburg.System

open Wurzburg.Lib Wurzburg.Db Wurzburg.Tb Wurzburg.Api

/-! ### The group -/

/-- The check of the key has found nothing. -/
def PassedCheck (key : Uuid) (t : Serving) : Prop :=
  (⟨.db (.getTransactionByIdempotencyKey key.toString), .ok none⟩ : Event Eff Eff.Resp) ∈ t.hist

/-- The act is a check of the key only if the key has a row by now, or no other
request of the group is still at work with its check passed. -/
def ChecksApart (n : Nat) (key : Uuid) (c : State) : Act → Prop
  | .step i _ => ∀ q hist k,
      c.tasks[i]? = some ⟨q, hist,
        some (.call (.db (.getTransactionByIdempotencyKey key.toString)) k)⟩ →
      rowsFor c.world key ≠ [] ∨
      ∀ j t, n ≤ j → j ≠ i → c.tasks[j]? = some t → PassedCheck key t → t.Stopped
  | _ => True

/-! ### How a request opens -/

/-- The first two effects of a transfer request: it looks its user up, and then
checks its key. -/
structure Opening (env : Env) (d : Direction) (p u : Uuid) (payload : TransferRequest)
    (k : Except RepoError (Option UserProviderDetails) → Io Answer)
    (k' : UserProviderDetails → Except RepoError (Option Transaction) → Io Answer) : Prop where
  start : serve env (transferRequest d p u payload) = .call (.db (.getUserProviderDetails u p)) k
  unlinked : k (.ok none) = .ret (.error (.notFound, "User account not found"))
  check : ∀ ud, k (.ok (some ud)) =
    .call (.db (.getTransactionByIdempotencyKey payload.idempotencyKey.toString)) (k' ud)
  known : ∀ ud row, k' ud (.ok (some row)) =
    .ret (.ok (.ok, .transaction ⟨row.id, "ALREADY_PROCESSED", none⟩))

theorem exists_opening (env : Env) (d : Direction) (p u : Uuid) (payload : TransferRequest) :
    ∃ k k', Opening env d p u payload k k' := by
  cases d with
  | credit => exact ⟨_, _, rfl, rfl, fun _ => rfl, fun _ _ => rfl⟩
  | debit => exact ⟨_, _, rfl, rfl, fun _ => rfl, fun _ _ => rfl⟩

/-! ### The states of the group -/

/-- A group of identical requests of a linked user, from position `first` on,
with the ledger it starts from. -/
structure Group where
  env : Env
  d : Direction
  p : Uuid
  u : Uuid
  payload : TransferRequest
  ud : UserProviderDetails
  pd : Provider
  ledger : Ledger
  first : Nat

namespace Group

variable (G : Group)

def request : Request := transferRequest G.d G.p G.u G.payload

def key : Uuid := G.payload.idempotencyKey

def transfer : Transfer :=
  toTbTransfer (ledgerTransfer G.env G.d G.payload G.pd.ledgerAccountId G.ud.userLedgerAccountId)

/-- What an answer of the group goes with: a success with a row, anything else
with a ledger that rejected the transfer from the start. -/
def Told (w : World) (a : Answer) : Prop :=
  a.status = .ok ∧ rowsFor w G.key ≠ [] ∨
  ∃ code, G.env.tb.createTransfer G.ledger G.transfer = .error code

/-- A request of the group that is not at work: it has not passed its check, or
it has been answered. -/
inductive Idle (w : World) : Serving → Prop
  | fresh : Idle w ⟨G.request, [], some (serve G.env G.request)⟩
  | checking {hist : History} {k k'} : Opening G.env G.d G.p G.u G.payload k k' →
      Idle w ⟨G.request, hist, some (k (.ok (some G.ud)))⟩
  | told {hist : History} {a : Answer} : G.Told w a → Idle w ⟨G.request, hist, some (.ret a)⟩

/-- What is left of a request at work settles it, from the ledger of the start
and a journal without its row. -/
def AtWork (pg : Pg) (prog : Io Answer) (w : World) : Prop :=
  (alone G.env (Resolves G.p G.u G.ud G.pd) False).Total
    (fun a t => ∃ r, a = r.map (fun x => (x.1, Body.transaction x.2)) ∧
      SettledFrom G.env G.d G.p G.u G.payload G.ud G.pd pg G.ledger r t) prog w

/-- All requests of the group but the one at `j` are idle. -/
def IdleBut (c : State) (j : Option Nat) : Prop :=
  From G.first (fun i t => some i ≠ j → G.Idle c.world t) c.tasks

/-- Where the group stands. -/
inductive Phase (c : State) : Prop
  /-- Nothing was accepted yet. -/
  | undecided : AtRest c.world.pg G.ledger c.world.issued c.world →
      Resolves G.p G.u G.ud G.pd c.world.pg → rowsFor c.world G.key = [] →
      G.IdleBut c none → Phase c
  /-- One request moved the money and has recorded it. -/
  | settled {l l' : Ledger} : AtRest c.world.pg l c.world.issued c.world →
      Resolves G.p G.u G.ud G.pd c.world.pg → rowsFor c.world G.key ≠ [] →
      G.env.tb.createTransfer G.ledger G.transfer = .ok l' → G.IdleBut c none → Phase c
  /-- One request is at work. -/
  | busy {j : Nat} {hist : History} {e : Eff} {k : e.Resp → Io Answer} {pg : Pg} :
      c.tasks[j]? = some ⟨G.request, hist, some (.call e k)⟩ →
      PassedCheck G.key ⟨G.request, hist, some (.call e k)⟩ → G.first ≤ j →
      pg.transactionByKey? G.key.toString = none → G.AtWork pg (.call e k) c.world →
      G.IdleBut c (some j) → Phase c

variable {G} {c c' : State} {w w' : World}

theorem Told.mono {a : Answer} (h : G.Told w a) (hg : Grows w w') : G.Told w' a := by
  rcases h with ⟨hok, hrow⟩ | hrejected
  · refine Or.inl ⟨hok, fun hnil => hrow ?_⟩
    unfold rowsFor at hnil ⊢
    rw [List.filter_eq_nil_iff] at hnil ⊢
    exact fun row hmem => hnil row (hg.pg.transactions.subset hmem)
  · exact Or.inr hrejected

theorem Idle.mono {t : Serving} (h : G.Idle w t) (hg : Grows w w') : G.Idle w' t := by
  cases h with
  | fresh => exact .fresh
  | checking ho => exact .checking ho
  | told ht => exact .told (ht.mono hg)

/-- What an idle request does next leaves the world alone: it stays idle, or its
check finds nothing and it goes to work. -/
theorem Idle.step {t : Serving} {e : Eff} {k : e.Resp → Io Answer} {ch : Choice} {r : e.Resp}
    {capacity : Nat} (h : G.Idle w t) (ht : t.rest = some (.call e k))
    (hres : Resolves G.p G.u G.ud G.pd w.pg) (hch : ch.fault = .none)
    (hx : w.exec capacity ch e = some (r, w')) :
    w' = w ∧ (G.Idle w ⟨t.req, t.hist ++ [⟨e, r⟩], some (k r)⟩ ∨
      t.req = G.request ∧
      (∃ k', t.rest = some (.call (.db (.getTransactionByIdempotencyKey G.key.toString)) k')) ∧
      PassedCheck G.key ⟨t.req, t.hist ++ [⟨e, r⟩], some (k r)⟩ ∧ rowsFor w G.key = [] ∧
      ∀ issued, AtRest w.pg G.ledger issued w →
        (∀ row ∈ w.pg.transactions, row.id ∈ issued.map Prod.fst) → G.AtWork w.pg (k r) w) := by
  have hdetails : w.dbExec ch (.getUserProviderDetails G.u G.p) = some (.ok (some G.ud), w) := by
    rw [← hres.details]
    exact dbExec_read hch (getUserProviderDetails_transact G.u G.p w.pg)
  have hcheck : w.dbExec ch (.getTransactionByIdempotencyKey G.key.toString) =
      some (.ok (w.pg.transactionByKey? G.key.toString), w) :=
    dbExec_read hch (getTransactionByIdempotencyKey_transact _ w.pg)
  cases h with
  | fresh =>
      obtain ⟨k₀, k₁, ho⟩ := exists_opening G.env G.d G.p G.u G.payload
      simp only [Group.request, ho.start] at ht
      cases ht
      obtain ⟨hr, rfl⟩ := Prod.mk.inj (Option.some.inj (hx.symm.trans hdetails))
      refine ⟨rfl, Or.inl ?_⟩
      rw [hr]
      exact .checking ho
  | @checking _ k₀ k₁ ho =>
      simp only [ho.check] at ht
      cases ht
      obtain ⟨hr, rfl⟩ := Prod.mk.inj (Option.some.inj (hx.symm.trans hcheck))
      refine ⟨rfl, ?_⟩
      cases hrow : w'.pg.transactionByKey? G.key.toString with
      | some row =>
          refine Or.inl ?_
          rw [hr, hrow]
          show G.Idle w' ⟨G.request, _, some (k₁ G.ud (.ok (some row)))⟩
          rw [ho.known]
          refine .told (Or.inl ⟨rfl, fun hnil => ?_⟩)
          rw [rowsFor_eq_nil, hrow] at hnil
          cases hnil
      | none =>
          rw [hrow] at hr
          refine Or.inr ⟨rfl, ⟨_, congrArg some (ho.check G.ud)⟩, ?_, rowsFor_eq_nil.mpr hrow, ?_⟩
          · rw [hr]
            exact List.mem_append_right _ (List.mem_singleton_self _)
          · intro issued hrest hids
            -- follow the whole request through its first two effects
            have htotal := @serve_transferRequest_total G.env False G.d G.p G.u G.payload G.ud G.pd
              _ _ _ _ hrest hres hids False.elim
            rw [ho.start] at htotal
            have hfirst : (alone G.env (Resolves G.p G.u G.ud G.pd) False).Total _
                (k₀ (.ok (some G.ud))) w' := (htotal w' .refl).2.2 ch _ w' hch hdetails
            rw [ho.check] at hfirst
            have hsecond := (hfirst w' .refl).2.2 ch _ w' hch hcheck
            rw [hrow] at hsecond
            rw [hr]
            refine hsecond.weaken (fun a t ⟨r', ha, hends⟩ => ⟨r', ha, ?_⟩)
            unfold EndsFrom at hends
            rw [show G.payload.idempotencyKey = G.key from rfl, hrow] at hends
            exact hends
  | told ht' => cases ht

/-- Replacing one task, under growth of the world. -/
theorem IdleBut.set {i : Nat} {j j' : Option Nat} {t : Serving} (h : G.IdleBut c j)
    (hg : Grows c.world w) (ht : some i ≠ j' → G.Idle w t)
    (hj : ∀ m, some m ≠ j' → m ≠ i → some m ≠ j) :
    G.IdleBut { world := w, tasks := c.tasks.set i t } j' :=
  From.set h ht (fun m _ hmi hidle hmj => (hidle (hj m hmj hmi)).mono hg)

theorem IdleBut.mono {j : Option Nat} (h : G.IdleBut c j) (hg : Grows c.world w) :
    G.IdleBut { c with world := w } j :=
  From.mono h (fun _ _ hidle hne => (hidle hne).mono hg)

theorem IdleBut.arrive {j : Option Nat} (h : G.IdleBut c j) :
    G.IdleBut { c with tasks := c.tasks ++ [(machine G.env).newTask G.request] } j :=
  From.append h (fun _ => .fresh)

/-- Once the one at work has been answered, all are idle. -/
theorem IdleBut.all {j : Nat} {t : Serving} (h : G.IdleBut c (some j))
    (hj : c.tasks[j]? = some t) (ht : G.Idle c.world t) : G.IdleBut c none := by
  intro m t' hm hget _
  by_cases hmj : m = j
  · subst hmj
    rw [hj] at hget
    rw [← Option.some.inj hget]
    exact ht
  · exact h m t' hm hget (fun heq => hmj (Option.some.inj heq))

/-- A request that has gone to work is at work still, or it has been answered
and all are idle. -/
theorem Phase.lead {j : Nat} {hist : History} {prog : Io Answer} {pg : Pg}
    (hs : Storable G.payload) (hj : c.tasks[j]? = some ⟨G.request, hist, some prog⟩)
    (hfirst : G.first ≤ j) (hpassed : PassedCheck G.key ⟨G.request, hist, some prog⟩)
    (hnone : pg.transactionByKey? G.key.toString = none) (hwork : G.AtWork pg prog c.world)
    (hidle : G.IdleBut c (some j)) : G.Phase c := by
  cases prog with
  | call e k => exact .busy hj hpassed hfirst hnone hwork hidle
  | ret a =>
      have hres : Resolves G.p G.u G.ud G.pd c.world.pg := hwork.during
      obtain ⟨r, rfl, pg', l', issued', hrest, hsettled⟩ := hwork.answer
      cases hsettled with
      | rejected hv hsame =>
          refine .undecided hrest.own hres ?_ (hidle.all hj (.told (Or.inr ⟨_, hv⟩)))
          rw [rowsFor_eq_nil, hrest.pg_eq]
          unfold Pg.transactionByKey? at hnone ⊢
          rw [hsame.transactions]
          exact hnone
      | lost _ hlost _ => exact absurd hs hlost
      | @recorded _ _ row _ hv _ _ hrec =>
          have hrow : rowsFor c.world G.key ≠ [] := by
            intro hnil
            rw [rowsFor, hrest.pg_eq] at hnil
            refine List.filter_eq_nil_iff.mp hnil row ?_ (decide_eq_true hrec.key)
            exact List.mem_append_right _ (List.mem_singleton_self _)
          exact .settled hrest.own hres hrow hv (hidle.all hj (.told (Or.inl ⟨rfl, hrow⟩)))

/-- The acts of the group, with its checks apart. -/
def Permits (c : State) (l : Act) : Prop :=
  Together G.first (· = G.request) l ∧ ChecksApart G.first G.key c l

/-- What a move of the world keeps. -/
theorem Phase.move {v : Move} {w : World} (h : G.Phase c) (hsmooth : v.isSmooth)
    (hw : c.world.move G.env.tb G.env.settings.tigerbeetle.batchMaxSize v = some w)
    (hgrows : Grows c.world w) : G.Phase { c with world := w } := by
  cases h with
  | undecided hrest hres hrow hidle =>
      have hrest' := hrest.move hsmooth hw
      refine .undecided hrest'.own ?_ ?_ (hidle.mono hgrows)
      · show Resolves _ _ _ _ w.pg
        rw [hrest'.pg_eq]
        exact hres
      · rw [rowsFor, hrest'.pg_eq]
        exact hrow
  | settled hrest hres hrow hv hidle =>
      have hrest' := hrest.move hsmooth hw
      refine .settled hrest'.own ?_ ?_ hv (hidle.mono hgrows)
      · show Resolves _ _ _ _ w.pg
        rw [hrest'.pg_eq]
        exact hres
      · rw [rowsFor, hrest'.pg_eq]
        exact hrow
  | busy hj hpassed hfirst hnone hwork hidle =>
      exact .busy hj hpassed hfirst hnone (hwork.moves (.single ⟨v, hsmooth, hw⟩))
        (hidle.mono hgrows)

/-- What one act keeps. -/
theorem Phase.step {l : Act} (hs : Storable G.payload) (hreach : Reachable G.env c)
    (h : G.Phase c) (hok : G.Permits c l) (hstep : (machine G.env).step c l = some c') :
    G.Phase c' := by
  have hgrows : Grows c.world c'.world := (hreach.step hstep).2
  rcases (machine G.env).step_cases hstep with ⟨q, rfl, rfl⟩ |
    ⟨i, ch, q, hist, e, k, r, w, rfl, ht, hx, rfl⟩ | ⟨i, q, hist, e, k, rfl, -, -⟩ |
    ⟨v, w, rfl, hw, rfl⟩
  -- one more duplicate arrives, and is idle
  · obtain rfl : q = G.request := hok.1
    cases h with
    | undecided hrest hres hrow hidle => exact .undecided hrest hres hrow hidle.arrive
    | settled hrest hres hrow hv hidle => exact .settled hrest hres hrow hv hidle.arrive
    | busy hj hpassed hfirst hnone hwork hidle =>
        refine .busy ?_ hpassed hfirst hnone hwork hidle.arrive
        rw [← hj]
        exact List.getElem?_append_left (List.getElem?_eq_some_iff.mp hj).1
  · obtain ⟨⟨hi, hch⟩, hapart⟩ := hok
    have hlt : i < c.tasks.length := (List.getElem?_eq_some_iff.mp ht).1
    cases h with
    -- the first check that finds no row makes its task the leader
    | undecided hrest hres hrow hidle =>
        have hown := hidle i _ hi ht (Option.some_ne_none i)
        obtain ⟨rfl, hnext | ⟨rfl, -, hpassed, -, hwork⟩⟩ := hown.step rfl hres hch hx
        · refine .undecided hrest hres hrow (hidle.set hgrows (fun _ => hnext) (fun _ h _ => h))
        · refine Phase.lead hs (List.getElem?_set_self hlt) hi hpassed (rowsFor_eq_nil.mp hrow)
            (hwork _ hrest hreach.inv.rowIds) ?_
          exact hidle.set hgrows (fun hne => absurd rfl hne) (fun m _ _ => Option.some_ne_none m)
    | settled hrest hres hrow hv hidle =>
        have hown := hidle i _ hi ht (Option.some_ne_none i)
        obtain ⟨rfl, hnext | ⟨-, -, -, hnone, -⟩⟩ := hown.step rfl hres hch hx
        · refine .settled hrest hres hrow hv (hidle.set hgrows (fun _ => hnext) (fun _ h _ => h))
        · exact absurd hnone hrow
    | @busy j histj ej kj pg hj hpassed hfirst hnone hwork hidle =>
        -- the leader goes on, or another task checks meanwhile
        by_cases hij : i = j
        · subst hij
          rw [hj] at ht
          obtain ⟨rfl, rfl, hp⟩ := Task.mk.inj (Option.some.inj ht)
          cases Option.some.inj hp
          obtain ⟨-, -, hk⟩ := hwork c.world .refl
          refine Phase.lead hs (List.getElem?_set_self hlt) hi (List.mem_append_left _ hpassed) hnone
            (hk ch r w hch hx) ?_
          exact hidle.set hgrows (fun hne => absurd rfl hne) (fun _ h _ => h)
        · have hne : some i ≠ some j := fun heq => hij (Option.some.inj heq)
          obtain ⟨rfl, hnext | ⟨rfl, ⟨k', hk'⟩, -, hrow, -⟩⟩ :=
            (hidle i _ hi ht hne).step rfl hwork.during hch hx
          · refine .busy ?_ hpassed hfirst hnone hwork
              (hidle.set hgrows (fun _ => hnext) (fun _ h _ => h))
            rw [← hj]
            exact List.getElem?_set_ne hij
          · -- a second check that finds nothing is not permitted
            cases Option.some.inj hk'
            rcases hapart _ _ _ ht with hrow' | hstopped
            · exact absurd hrow hrow'
            · rcases hstopped j _ hfirst (Ne.symm hij) hj hpassed with hrest | ⟨a, hrest⟩
              · cases hrest
              · cases hrest
  · exact hok.1.elim
  · exact h.move hok.1 hw hgrows

/-- A request of the group that is not yet at work has no answer. -/
theorem Idle.told_of_answer {t : Serving} (h : G.Idle w t) (ha : t.answer? ≠ none) :
    ∃ a, t.answer? = some a ∧ G.Told w a := by
  cases h with
  | fresh =>
      obtain ⟨k, k', ho⟩ := exists_opening G.env G.d G.p G.u G.payload
      simp [Task.answer?, Group.request, ho.start] at ha
  | checking ho => simp [Task.answer?, ho.check] at ha
  | told ht => exact ⟨_, rfl, ht⟩

end Group

/-! ### Users that are not linked -/

/-- A group whose user is not linked to the provider is refused, and the ledger
stays as it is. -/
theorem unlinked_ledger {env : Env} {c₀ c : State} {d : Direction} {p u : Uuid}
    {payload : TransferRequest} (h₀ : AtRest c₀.world.pg c₀.world.worker.ledger c₀.world.issued c₀.world)
    (hunlinked : c₀.world.pg.userProviderDetails u p = [])
    (hrun : (machine env).Reach
      (fun _ l => Together c₀.tasks.length (· = transferRequest d p u payload) l) c₀ c) :
    c.world.worker.ledger = c₀.world.worker.ledger := by
  obtain ⟨k, k', ho⟩ := exists_opening env d p u payload
  have hinv : AtRest c₀.world.pg c₀.world.worker.ledger c₀.world.issued c.world ∧
      From c₀.tasks.length (fun _ t => t.rest = some (serve env (transferRequest d p u payload)) ∨
        ∃ a, t.rest = some (.ret a)) c.tasks := by
    refine hrun.invariant
      (P := fun c => AtRest c₀.world.pg c₀.world.worker.ledger c₀.world.issued c.world ∧
        From c₀.tasks.length (fun _ t => t.rest = some (serve env (transferRequest d p u payload)) ∨
          ∃ a, t.rest = some (.ret a)) c.tasks)
      ⟨h₀, .of_length_le (Nat.le_refl _)⟩ ?_
    rintro c l c' ⟨hrest, htasks⟩ hok hs
    rcases (machine env).step_cases hs with ⟨q, rfl, rfl⟩ |
      ⟨i, ch, q, hist, e, kt, r, w, rfl, ht, hx, rfl⟩ | ⟨i, q, hist, e, k, rfl, -, -⟩ |
      ⟨v, w, rfl, hw, rfl⟩
    · obtain rfl : q = transferRequest d p u payload := hok
      exact ⟨hrest, htasks.append (Or.inl rfl)⟩
    · obtain ⟨hi, hch⟩ := hok
      rcases htasks i _ hi ht with hstart | ⟨a, hret⟩
      · simp only [ho.start] at hstart
        cases hstart
        have hread : c.world.dbExec ch (.getUserProviderDetails u p) =
            some (.ok (c.world.pg.userProviderDetails u p).head?, c.world) :=
          dbExec_read hch (getUserProviderDetails_transact u p c.world.pg)
        rw [hrest.pg_eq, hunlinked] at hread
        obtain ⟨rfl, rfl⟩ := Prod.mk.inj (Option.some.inj (hx.symm.trans hread))
        refine ⟨hrest, htasks.set (Or.inr ⟨_, congrArg some ho.unlinked⟩) (fun _ _ _ h => h)⟩
      · cases hret
    · exact hok.elim
    · exact ⟨hrest.move hok hw, htasks⟩
  exact hinv.1.ledger_eq

/-! ### One success -/

/-- If the ledger has accepted the transfer since `c₀`, then once all requests
from position `n` on are answered the key has exactly one row, and every answer
is a success. -/
def OneSuccess (n : Nat) (key : Uuid) (c₀ c : State) : Prop :=
  transfersFor c₀.world key = [] → transfersFor c.world key ≠ [] →
    (∀ t ∈ c.tasks.drop n, t.answer? ≠ none) →
    (rowsFor c.world key).length = 1 ∧
      ∀ t ∈ c.tasks.drop n, ∃ a, t.answer? = some a ∧ a.status = .ok

/-- **Concurrent duplicates.** In every run of identical requests in which no
request checks the key while another one is at work past its check, an accepted
transfer gets one row and all requests are answered with success. -/
theorem duplicates_succeed {env : Env} {c₀ c : State} {d : Direction} {p u : Uuid}
    {payload : TransferRequest} (h₀ : Reachable env c₀) (hcalm : Calm c₀.world)
    (hpositive : 0 < payload.amount.toNat) (hfits : payload.amount.toNat < 2 ^ 63)
    (htext : payload.description.all textOk = true)
    (hrun : (machine env).Reach (fun c l =>
      Together c₀.tasks.length (· = transferRequest d p u payload) l ∧
        ChecksApart c₀.tasks.length payload.idempotencyKey c l) c₀ c) :
    OneSuccess c₀.tasks.length payload.idempotencyKey c₀ c := by
  intro hnew haccepted hdone
  have hrest₀ := h₀.inv.atRest hcalm
  by_cases hlinked : c₀.world.pg.userProviderDetails u p = []
  · have hsame := unlinked_ledger hrest₀ hlinked (hrun.mono (fun _ _ h => h.1))
    rw [transfersFor, hsame] at haccepted
    exact absurd hnew haccepted
  · obtain ⟨ud, pd, hres⟩ := exists_resolves hlinked
    let G : Group := ⟨env, d, p, u, payload, ud, pd, c₀.world.worker.ledger, c₀.tasks.length⟩
    have hnorow : rowsFor c₀.world G.key = [] := by
      by_contra hrow
      have hone := (h₀.inv.one_each hrow).1
      rw [show transfersFor c₀.world G.key = [] from hnew] at hone
      cases hone
    have hphase : Reachable env c ∧ G.Phase c := by
      refine hrun.invariant (P := fun c => Reachable env c ∧ G.Phase c)
        ⟨h₀, .undecided hrest₀ hres hnorow (.of_length_le (Nat.le_refl _))⟩ ?_
      rintro c l c' ⟨hreach, hphase⟩ hok hs
      exact ⟨(hreach.step hs).1, hphase.step ⟨hpositive, hfits, htext⟩ hreach hok hs⟩
    obtain ⟨hreach, hphase⟩ := hphase
    cases hphase with
    | undecided hrest _ _ _ =>
        rw [transfersFor, hrest.ledger_eq] at haccepted
        exact absurd hnew haccepted
    | settled _ _ hrow hv hidle =>
        refine ⟨(hreach.inv.one_each hrow).2, fun t ht => ?_⟩
        obtain ⟨i, -, -, hi⟩ := From.of_mem_drop hidle ht
        obtain ⟨a, ha, hok | ⟨code, hcode⟩⟩ := (hi (Option.some_ne_none i)).told_of_answer (hdone t ht)
        · exact ⟨a, ha, hok.1⟩
        · rw [hv] at hcode
          cases hcode
    | @busy j hist e k _ hj _ hfirst _ _ _ =>
        have hmem : (⟨G.request, hist, some (.call e k)⟩ : Serving) ∈
            c.tasks.drop c₀.tasks.length := by
          refine List.mem_of_getElem? (i := j - c₀.tasks.length) ?_
          rw [List.getElem?_drop, Nat.add_sub_cancel' hfirst]
          exact hj
        exact absurd rfl (hdone _ hmem)

/-! ### Two credits -/

/-- A credit of 500 under the key 7. -/
def creditSeven : Request := .creditUser ⟨1002⟩ ⟨1008⟩ ⟨⟨7⟩, 500, none⟩

/-- Two of them have arrived, and each has made its first two effects: both have
checked the key. -/
def bothChecked : State :=
  serveAlone defaultEnv 3 2 (serveAlone defaultEnv 2 2
    (arrived defaultEnv (arrived defaultEnv oneUser creditSeven) creditSeven))

/-- The first runs to its end, and then the second. -/
def overlapping : State := serveAlone defaultEnv 3 60 (serveAlone defaultEnv 2 60 bothChecked)

/-- The second is answered 400, although the money was moved and recorded. -/
theorem overlapping_rejected :
    ¬ ∀ (env : Env) (c₀ c : State) (d : Direction) (p u : Uuid) (payload : TransferRequest),
      Reachable env c₀ → Calm c₀.world → 0 < payload.amount.toNat →
      payload.amount.toNat < 2 ^ 63 →
      (machine env).Reach
        (fun _ l => Together c₀.tasks.length (· = transferRequest d p u payload) l) c₀ c →
      OneSuccess c₀.tasks.length payload.idempotencyKey c₀ c := by
  intro hall
  have hlen : oneUser.tasks.length = 2 := by decide +kernel
  have hrun : (machine defaultEnv).Reach
      (fun _ l => Together oneUser.tasks.length (· = creditSeven) l) oneUser overlapping := by
    rw [hlen]
    have harrived : (machine defaultEnv).Reach (fun _ l => Together 2 (· = creditSeven) l) oneUser
        (arrived defaultEnv oneUser creditSeven) := arrived_together defaultEnv oneUser rfl
    have harrive := harrived.trans (arrived_together defaultEnv _ (rfl : creditSeven = creditSeven))
    have hchecked := (harrive.trans (serveAlone_together (Nat.le_refl 2) defaultEnv 2 _)).trans
      (serveAlone_together (by decide : 2 ≤ 3) defaultEnv 2 _)
    exact (hchecked.trans (serveAlone_together (Nat.le_refl 2) defaultEnv 60 _)).trans
      (serveAlone_together (by decide : 2 ≤ 3) defaultEnv 60 _)
  obtain ⟨hcalm, -, hnew, -⟩ := oneUser_free
  have hend : transfersFor overlapping.world ⟨7⟩ ≠ [] ∧
      (∀ t ∈ overlapping.tasks.drop 2, t.answer? ≠ none) ∧
      (overlapping.tasks.drop 2).map (fun t => t.answer?.map Answer.status) =
        [some .ok, some .badRequest] := by
    decide +kernel
  obtain ⟨haccepted, hdone, hstatus⟩ := hend
  have hone := hall defaultEnv oneUser overlapping .credit ⟨1002⟩ ⟨1008⟩ ⟨⟨7⟩, 500, none⟩
    oneUser_reachable hcalm (by decide) (by decide) hrun hnew haccepted
  rw [hlen] at hone
  obtain ⟨-, hok⟩ := hone hdone
  have hbad : some StatusCode.badRequest ∈
      (overlapping.tasks.drop 2).map (fun t => t.answer?.map Answer.status) := by
    rw [hstatus]
    exact List.mem_cons_of_mem _ (List.mem_singleton_self _)
  obtain ⟨t, ht, hbad⟩ := List.mem_map.mp hbad
  obtain ⟨a, ha, hstatus⟩ := hok t ht
  rw [ha, Option.map_some, hstatus] at hbad
  cases hbad

/-- In one batch, both are told of the rejection of the second. -/
example : ((serveAlone defaultEnv 3 60 (serveAlone defaultEnv 2 60 (serveAlone defaultEnv 3 2
    (serveAlone defaultEnv 2 2 bothChecked)))).tasks.drop 2).map
      (fun t => t.answer?.map Answer.status) = [some .badRequest, some .badRequest] := by
  decide +kernel

/-- The event is no check of a key. -/
def noCheck : Event Eff Eff.Resp → Bool
  | ⟨.db (.getTransactionByIdempotencyKey _), _⟩ => false
  | _ => true

/-- The key has a row, or every other task is answered or has made no check yet. -/
def othersApart (key : Uuid) (c : State) : Act → Bool
  | .step i _ => !(rowsFor c.world key).isEmpty ||
      c.tasks.zipIdx.all (fun t => t.2 = i || t.1.answer?.isSome || t.1.hist.all noCheck)
  | _ => true

theorem checksApart_of_others {n : Nat} {key : Uuid} {c : State} {l : Act}
    (h : othersApart key c l = true) : ChecksApart n key c l := by
  cases l with
  | step i ch =>
      intro q hist k _
      rcases Bool.or_eq_true_iff.mp h with hrow | hothers
      · left
        rintro hnone
        simp [hnone] at hrow
      · right
        intro j t _ hji hj hpassed
        have hmem : (t, j) ∈ c.tasks.zipIdx := List.mem_zipIdx_iff_getElem?.mpr hj
        have hother := List.all_eq_true.mp hothers _ hmem
        simp only [hji, decide_false, Bool.false_or, Bool.or_eq_true] at hother
        rcases hother with hanswered | hnone
        · unfold Task.Stopped
          unfold Task.answer? at hanswered
          split at hanswered
          · exact Or.inr ⟨_, by assumption⟩
          · cases hanswered
        · -- a check would stand in its history
          have hno := List.all_eq_true.mp hnone _ hpassed
          cases hno
  | _ => trivial

/-- Of two credits that overlap, the first has been recorded when the second checks the key,
and is still reading its balance when the second is answered. -/
def recordedFirst : List Turn :=
  [.arrive creditSeven, .arrive creditSeven, .serve 3 1, .serve 2 8, .serve 3 60, .serve 2 60]

theorem duplicates_succeed_oneCredit :
    (rowsFor (inTurns defaultEnv recordedFirst oneUser).world ⟨7⟩).length = 1 ∧
      ∀ t ∈ (inTurns defaultEnv recordedFirst oneUser).tasks.drop 2,
        ∃ a, t.answer? = some a ∧ a.status = .ok := by
  obtain ⟨hcalm, -, hnew, -⟩ := oneUser_free
  have hscene : oneUser.tasks.length = 2 ∧
      ((machine defaultEnv).trace (turnsPlan defaultEnv recordedFirst oneUser) oneUser).all
        (fun v => othersApart ⟨7⟩ v.1 v.2) = true ∧
      transfersFor (inTurns defaultEnv recordedFirst oneUser).world ⟨7⟩ ≠ [] ∧
      ∀ t ∈ (inTurns defaultEnv recordedFirst oneUser).tasks.drop 2, t.answer? ≠ none := by
    decide +kernel
  obtain ⟨hlen, hapart, haccepted, hdone⟩ := hscene
  have hgroup : ∀ l ∈ turnsPlan defaultEnv recordedFirst oneUser,
      Together oneUser.tasks.length (· = creditSeven) l := by
    rw [hlen]
    refine turnsPlan_together (fun q hq => ?_) (fun i acts hi => ?_)
    · simpa [recordedFirst] using hq
    · simp only [recordedFirst, List.mem_cons, Turn.serve.injEq, reduceCtorEq, false_or,
        List.not_mem_nil, or_false] at hi
      omega
  have hone := @duplicates_succeed defaultEnv oneUser _ .credit ⟨1002⟩ ⟨1008⟩ ⟨⟨7⟩, 500, none⟩
    oneUser_reachable hcalm (by decide) (by decide) rfl (inTurns_reach (fun v hv =>
      ⟨hgroup v.2 (Machine.mem_of_mem_trace hv),
        checksApart_of_others (List.all_eq_true.mp hapart v hv)⟩))
  rw [hlen] at hone
  exact hone hnew haccepted hdone

end Wurzburg.System
