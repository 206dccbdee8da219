import Wurzburg.System.PriorityReplay
import Wurzburg.System.Recovery

/-!
# Wurzburg.System.RefusedDebit

What a debit that is answered with an error leaves behind, when it runs alone.

A debit cancels the active priority of its user before it asks the ledger, so
that the two decisions are independent: whether the priority is gone depends on
what it names, whether the ledger changes on what the ledger says. The two are
proved by one pass over the handler, the priorities by the frame rule for all
of it but the cancellation.
-/

namespace Wurzburg.System

open Wurzburg.Lib Wurzburg.Db Wurzburg.Tb Wurzburg.Api

/-! ### Holding a priority -/

/-- These are the configurations and items, and this is what the user's key holds; a key
with an expiry may have disappeared since. -/
structure PriorityHeld (u : Uuid) (configs : List UserPriorityConfig)
    (items : List PriorityItemRow) (key : Option RedisValue) (w : World) : Prop where
  configs : w.pg.configs = configs
  items : w.pg.items = items
  key : w.redisGet (priorityKey u) = key ∨
    w.redisGet (priorityKey u) = none ∧ ∃ v, key = some v ∧ v.ex.isSome = true

section

variable {u : Uuid} {configs : List UserPriorityConfig} {items : List PriorityItemRow}
  {key : Option RedisValue} {w w' : World}

theorem PriorityHeld.own : PriorityHeld u w.pg.configs w.pg.items (w.redisGet (priorityKey u)) w :=
  ⟨rfl, rfl, Or.inl rfl⟩

theorem PriorityHeld.of_same (h : PriorityHeld u configs items key w)
    (hsame : Pg.SamePriorities w.pg w'.pg) (hredis : w'.redis = w.redis) :
    PriorityHeld u configs items key w' := by
  refine ⟨hsame.configs.trans h.configs, hsame.items.trans h.items, ?_⟩
  rw [redisGet_congr hredis]
  exact h.key

/-- The world by itself takes nothing but an expired key. -/
theorem PriorityHeld.move {tb : TigerBeetle} {n : Nat} {v : Move}
    (h : PriorityHeld u configs items key w) (hm : w.move tb n v = some w') :
    PriorityHeld u configs items key w' := by
  by_cases hv : ∀ k, v ≠ .expire k
  · obtain ⟨hpg, hredis⟩ := World.move_sparesPriorities hm hv
    exact h.of_same (hpg ▸ .refl _) hredis
  · obtain ⟨k, hk⟩ := not_forall.mp hv
    obtain rfl := not_not.mp hk
    simp only [World.move] at hm
    split at hm
    · next value ex hget =>
        obtain rfl := Option.some.inj hm
        refine ⟨h.configs, h.items, ?_⟩
        by_cases hkey : priorityKey u = k
        · subst hkey
          refine Or.inr ⟨World.redisGet_redisDel w _, ?_⟩
          rcases h.key with heq | ⟨-, hex⟩
          · exact ⟨_, heq.symm.trans hget, rfl⟩
          · exact hex
        · rw [World.redisGet_redisDel_of_ne w hkey]
          exact h.key
    · cases hm

theorem PriorityHeld.moves {env : Env} {keeps : Pg → Prop} {live : Prop}
    (h : PriorityHeld u configs items key w) (hm : (alone env keeps live).Moves w w') :
    PriorityHeld u configs items key w' := by
  induction hm with
  | refl => exact h
  | tail _ hstep ih =>
      obtain ⟨v, -, hm⟩ := hstep
      exact ih.move hm

/-- The frame rule for the priorities. -/
theorem priorityHeld_frame {env : Env} {keeps : Pg → Prop} {live : Prop} {γ δ : Type}
    {M : γ → World → Prop} {post : Except HttpError δ → World → Prop} {x : Handler γ}
    (hx : Prog.UsesE Eff.sparesPriorities x) (h : (alone env keeps live).TotalE M post x w)
    (hw : PriorityHeld u configs items key w) :
    (alone env keeps live).TotalE (fun a t => M a t ∧ PriorityHeld u configs items key t)
      (fun r t => post r t ∧ PriorityHeld u configs items key t) x w := by
  refine Setting.TotalE.frame hx (fun v s s' _ hm hs => hs.move hm)
    (fun ch e r s s' he hch hx hs => ?_) h hw
  obtain ⟨hsame, hredis⟩ := he.exec (fun _ _ => hch) hx
  exact hs.of_same hsame hredis

/-- The same for a computation that never fails. -/
theorem priorityHeld_frame_sure {env : Env} {keeps : Pg → Prop} {live : Prop} {γ δ : Type}
    {M : γ → World → Prop} {post : Except HttpError δ → World → Prop} {x : Handler γ}
    (hx : Prog.UsesE Eff.sparesPriorities x)
    (h : (alone env keeps live).TotalE M (fun (_ : Except HttpError δ) _ => False) x w)
    (hw : PriorityHeld u configs items key w) :
    (alone env keeps live).TotalE (fun a t => M a t ∧ PriorityHeld u configs items key t) post
      x w := by
  refine Setting.Total.weaken (priorityHeld_frame hx h hw) (fun r t hr => ?_)
  cases r with
  | ok a => exact hr
  | error e => exact hr.1.elim

end

/-! ### A debit alone -/

/-- The user's active priority names the provider. -/
def priorityNames (pg : Pg) (p u : Uuid) : Bool :=
  (pg.activeDetails? u).any (fun active => active.items.any (fun item => item.providerId = p))

/-- What a debit that passed its checks has made of the priority of its user, given what it
found: cancelled if it names the provider. -/
def Prepared (p u : Uuid) (pg : Pg) (key : Option RedisValue) (w : World) : Prop :=
  if priorityNames pg p u then
    ∃ now, PriorityHeld u (pg.cancelActive u u now).configs pg.items none w
  else PriorityHeld u pg.configs pg.items key w

theorem Prepared.held {p u : Uuid} {pg : Pg} {key : Option RedisValue} {w : World}
    (h : Prepared p u pg key w) : ∃ configs key', PriorityHeld u configs pg.items key' w ∧
      ∀ w', PriorityHeld u configs pg.items key' w' → Prepared p u pg key w' := by
  unfold Prepared at h ⊢
  split at h
  · next hnames =>
      obtain ⟨now, hheld⟩ := h
      exact ⟨_, _, hheld, fun w' hw' => by rw [if_pos hnames]; exact ⟨now, hw'⟩⟩
  · next hnames => exact ⟨_, _, h, fun w' hw' => by rw [if_neg hnames]; exact hw'⟩

section

variable {env : Env} {live : Prop} {p u : Uuid} {payload : TransferRequest}
  {ud : UserProviderDetails} {pd : Provider} {pg : Pg} {l : Ledger} {issued : List (Uuid × IdUse)}
  {w : World} {δ : Type} {post : Except HttpError δ → World → Prop} {key : Option RedisValue}

/-- Deleting the key, from rest. -/
theorem tryRedis_del_total {keeps : Pg → Prop} (h : AtRest pg l issued w) (hk : keeps pg) :
    (alone env keeps live).TotalE (fun _ t => AtRest pg l issued t ∧
      PriorityHeld u pg.configs pg.items none t) post (tryRedis (.del (priorityKey u))) w := by
  refine attempt_total (perform_total h hk (fun _ t _ => ?_) (fun t ch r t' ht hch hx => ?_))
  · exact ⟨⟨.none, fun _ => ⟨0⟩⟩, _, rfl, rfl⟩
  · have hx : some (t.faulty ch.fault (·.redisApply (.del (priorityKey u)))) = some (r, t') := hx
    rw [hch] at hx
    obtain ⟨rfl, rfl⟩ := Prod.mk.inj (Option.some.inj hx)
    have hrest : AtRest pg l issued (t.redisDel (priorityKey u)) :=
      ⟨ht.alive, ht.queue, ht.unladen, ht.answered, ht.pg_eq, ht.ledger_eq, ht.issued_eq⟩
    have hheld : PriorityHeld u pg.configs pg.items none (t.redisDel (priorityKey u)) :=
      ⟨congrArg Pg.configs ht.pg_eq, congrArg Pg.items ht.pg_eq,
        Or.inl (World.redisGet_redisDel t _)⟩
    intro t' hmoves
    exact ⟨(hrest.forever (P := fun _ => True) hk (fun _ _ => trivial) t' hmoves).1,
      hrest.moves hmoves, hheld.moves hmoves⟩

/-- The cancellation before the transfer, from rest. -/
theorem cancelPriorityNaming_total (h : AtRest pg l issued w) (hres : Resolves p u ud pd pg)
    (hheld : PriorityHeld u pg.configs pg.items key w) :
    (alone env (Resolves p u ud pd) live).TotalE
      (fun _ t => ∃ pg', Pg.SameCore pg pg' ∧ AtRest pg' l issued t ∧ Prepared p u pg key t) post
      (cancelPriorityNaming p u) w := by
  have hread : (alone env (Resolves p u ud pd) live).TotalE
      (fun (found : DbCall.Row (.getActivePriorityConfig u)) t =>
        found = pg.activeDetails? u ∧ AtRest pg l issued t)
      (fun (_ : Except HttpError δ) _ => False) (db (.getActivePriorityConfig u)) w :=
    db_read_total h hres (getActivePriorityConfig_transact u pg) (fun t ht => ⟨rfl, ht⟩)
  refine Setting.TotalE.bind (priorityHeld_frame_sure (db_uses trivial) hread hheld)
    (fun found t hfound => ?_)
  obtain ⟨-, ⟨rfl, hrest⟩, hheld⟩ := hfound t .refl
  -- what is in force is cancelled only if it names the provider
  by_cases hnames : priorityNames pg p u = true
  · obtain ⟨active, hactive, hany⟩ := (Option.any_eq_true _ _).mp hnames
    have hcancelled : ∀ now, Pg.SameCore pg (pg.cancelActive u u now) :=
      fun now => Pg.cancelActive_sameCore pg u u now
    rw [hactive]
    show (alone env _ live).TotalE _ post (ite _ _ _) t
    rw [if_pos hany]
    refine Setting.TotalE.bind (M := fun _ t => ∃ now, AtRest (pg.cancelActive u u now) l issued t)
      (db_sure_total hrest hres (cancelActivePriorityConfig_transact u u pg)
        (fun now => hres.sameCore (hcancelled now)) (fun now t' ht' => ⟨now, ht'⟩))
      (fun _ t hcancel => ?_)
    obtain ⟨-, now, hrest⟩ := hcancel t .refl
    have hres' := hres.sameCore (hcancelled now)
    refine Setting.TotalE.bind (M := fun r t => r = .ok () ∧
      AtRest (pg.cancelActive u u now) l issued t)
      (tryRedis_total hrest hres' (fun t' ht' => ⟨rfl, ht'⟩)) (fun r t hr => ?_)
    obtain ⟨-, rfl, hrest⟩ := hr t .refl
    refine Setting.TotalE.bind (tryRedis_del_total hrest hres') (fun r t hr => ?_)
    refine Setting.TotalE.pure (fun t' hm => ?_)
    obtain ⟨hduring, hrest, hheld⟩ := hr t' hm
    refine ⟨hduring, _, hcancelled now, hrest, ?_⟩
    rw [Prepared, if_pos hnames]
    rw [Pg.cancelActive_items] at hheld
    exact ⟨now, hheld⟩
  · have hprepared : ∀ t', (alone env (Resolves p u ud pd) live).Moves t t' →
        (alone env (Resolves p u ud pd) live).during t' ∧
          ∃ pg', Pg.SameCore pg pg' ∧ AtRest pg' l issued t' ∧ Prepared p u pg key t' := by
      intro t' hm
      refine ⟨(hrest.forever (P := fun _ => True) hres (fun _ _ => trivial) t' hm).1, pg, .refl pg,
        hrest.moves hm, ?_⟩
      rw [Prepared, if_neg hnames]
      exact hheld.moves hm
    cases hactive : pg.activeDetails? u with
    | none => exact Setting.TotalE.pure hprepared
    | some active =>
        rw [priorityNames, hactive, Option.any_some] at hnames
        show (alone env _ live).TotalE _ post (ite _ _ _) t
        rw [if_neg hnames]
        exact Setting.TotalE.pure hprepared

/-- What an error answer tells about the ledger: it rejected the transfer, or it is the one
after the transfer. -/
def LedgerAfterError (env : Env) (payload : TransferRequest) (ud : UserProviderDetails)
    (pd : Provider) (l l' : Ledger) : Prop :=
  l' = l ∨ env.tb.createTransfer l (toTbTransfer (ledgerTransfer env .debit payload
    pd.ledgerAccountId ud.userLedgerAccountId)) = .ok l'

/-- A debit of a linked user that is answered with an error. -/
theorem debitUser_linked_total (h : AtRest pg l issued w) (hres : Resolves p u ud pd pg)
    (hrows : ∀ row ∈ pg.transactions, row.id ∈ issued.map Prod.fst)
    (hheld : PriorityHeld u pg.configs pg.items key w) :
    (alone env (Resolves p u ud pd) False).Total
      (fun r t => ∀ e, r = .error e → Prepared p u pg key t ∧
        LedgerAfterError env payload ud pd l t.worker.ledger)
      (debitUser env p u payload).run w := by
  refine Setting.TotalE.total (Setting.TotalE.bind (priorityHeld_frame_sure
    ((admission_uses p u payload).mono (fun _ he => he.sparesPriorities))
    (admission_total h hres) hheld) (fun a t ha => ?_))
  obtain ⟨-, ⟨hrest, rfl⟩, hheld⟩ := ha t .refl
  cases hkey : pg.transactionByKey? payload.idempotencyKey.toString with
  | some row =>
      exact Setting.TotalE.pure (hrest.forever hres (fun _ _ e he => by cases he))
  | none =>
  refine Setting.TotalE.bind (cancelPriorityNaming_total hrest hres hheld) (fun _ t ht => ?_)
  obtain ⟨-, pg', hsame, hrest, hprepared⟩ := ht t .refl
  have hunused := ne_of_transactionByKey?_eq_none hkey
  have hsettle : (alone env (Resolves p u ud pd) False).TotalE _ _
      (settle env .debit p u payload ud pd) t :=
    settle_total hsame hrest (hres.sameCore hsame) (hsame.transactions ▸ hunused)
      (hsame.transactions ▸ hrows) False.elim
  obtain ⟨configs, key', hheld, hback⟩ := hprepared.held
  refine Setting.Total.weaken (priorityHeld_frame (settle_uses ..) hsettle hheld)
    (fun r t hr => ?_)
  cases r with
  | ok answer => exact fun e he => by cases he
  | error e =>
      obtain ⟨⟨pg'', l', issued', hrest, hsettled⟩, hheld⟩ := hr
      refine fun e' _ => ⟨hback t hheld, ?_⟩
      rw [hrest.ledger_eq]
      cases hsettled with
      | rejected _ _ => exact Or.inl rfl
      | lost hv _ _ => exact Or.inr hv

/-- A debit of a user without an account at the provider is turned away at once. -/
theorem debitUser_unlinked_total (h : AtRest pg l issued w) (hno : pg.userProviderDetails u p = [])
    (hheld : PriorityHeld u pg.configs pg.items key w) :
    (alone env (fun _ => True) False).Total
      (fun _ t => PriorityHeld u pg.configs pg.items key t ∧ t.worker.ledger = l)
      (debitUser env p u payload).run w := by
  have hread : (alone env (fun _ => True) False).TotalE
      (fun (found : DbCall.Row (.getUserProviderDetails u p)) t =>
        found = none ∧ AtRest pg l issued t)
      (fun (_ : Except HttpError (StatusCode × TransactionResponse)) _ => False)
      (db (.getUserProviderDetails u p)) w :=
    db_read_total h trivial (getUserProviderDetails_transact u p pg)
      (fun t ht => ⟨by rw [hno]; rfl, ht⟩)
  refine Setting.TotalE.total (Setting.TotalE.bind (M := fun _ _ => False) ?_
    (fun _ t ht => (ht t .refl).2.elim))
  refine Setting.TotalE.bind (priorityHeld_frame_sure (db_uses trivial) hread hheld)
    (fun found t hfound => ?_)
  obtain ⟨-, ⟨rfl, hrest⟩, hheld⟩ := hfound t .refl
  refine Setting.TotalE.throw (fun t' hm => ⟨trivial, hheld.moves hm, ?_⟩)
  exact (hrest.moves hm).ledger_eq

/-- From a program's run to the answer of the request. -/
theorem answerWith_total {γ : Type} (wrap : γ → Body) {x : Handler (StatusCode × γ)}
    {keeps : Pg → Prop} {P : World → Prop}
    (h : (alone env keeps live).Total (fun r t => ∀ e, r = .error e → P t) x.run w) :
    (alone env keeps live).Total (fun a t => ∀ e, a = .error e → P t) (answerWith wrap x) w := by
  refine Setting.Total.weaken (answerWith_mapped_total wrap h) ?_
  rintro a t ⟨r, rfl, hr⟩ e he
  cases r with
  | ok out => cases he
  | error e' => exact hr e' rfl

end

/-- The debit gets as far as looking at the priority, and what it finds names the provider. -/
def DisablesPriority (p u : Uuid) (pg : Pg) : Prop :=
  pg.userProviderDetails u p ≠ [] ∧ priorityNames pg p u = true

/-- The ledger takes the transfer of the debit. -/
def LedgerTakes (env : Env) (p u : Uuid) (payload : TransferRequest) (w : World) (l' : Ledger) :
    Prop :=
  ∃ ud pd, Resolves p u ud pd w.pg ∧ env.tb.createTransfer w.worker.ledger (toTbTransfer
    (ledgerTransfer env .debit payload pd.ledgerAccountId ud.userLedgerAccountId)) = .ok l'

/-- **A debit that is answered with an error**, alone, leaves the priority of its user and the
ledger as they were, but for two things: a priority that names the provider is cancelled and
its key deleted, and a transfer that the ledger has taken stays. -/
theorem refusedDebit_leaves {env : Env} {c c' : State} {p u : Uuid} {payload : TransferRequest}
    {e : HttpError} (h : Reachable env c) (hcalm : Calm c.world)
    (hrun : (machine env).Reach (fun _ l => Alone c.tasks.length l)
      (arrived env c (.debitUser p u payload)) c')
    (ha : c'.tasks[c.tasks.length]?.bind Task.answer? = some (.error e)) :
    (¬ DisablesPriority p u c.world.pg →
      PriorityHeld u c.world.pg.configs c.world.pg.items (c.world.redisGet (priorityKey u))
        c'.world) ∧
    (DisablesPriority p u c.world.pg → ∃ now,
      PriorityHeld u (c.world.pg.cancelActive u u now).configs c.world.pg.items none c'.world) ∧
    (c'.world.worker.ledger = c.world.worker.ledger ∨
      LedgerTakes env p u payload c.world c'.world.worker.ledger) := by
  obtain ⟨t, ht, hanswer⟩ := Option.bind_eq_some_iff.mp ha
  have hrest := h.inv.atRest hcalm
  have htask := arrived_task env c (.debitUser p u payload)
  by_cases hlinked : c.world.pg.userProviderDetails u p = []
  · have hhandler : (alone env (fun _ => True) False).Total _ (debitUser env p u payload).run
        c.world := debitUser_unlinked_total hrest hlinked .own
    have htotal := answerWith_total .transaction (hhandler.weaken (fun r t hr e he => hr))
    obtain ⟨hheld, hledger⟩ := htotal.answered htask hrun ht hanswer e rfl
    exact ⟨fun _ => hheld, fun hd => absurd hlinked hd.1, Or.inl hledger⟩
  · obtain ⟨ud, pd, hres⟩ := exists_resolves hlinked
    have hhandler : (alone env (Resolves p u ud pd) False).Total _ (debitUser env p u payload).run
        c.world := debitUser_linked_total hrest hres h.inv.rowIds .own
    have htotal := answerWith_total .transaction hhandler
    obtain ⟨hprepared, hledger⟩ := htotal.answered htask hrun ht hanswer e rfl
    unfold Prepared at hprepared
    refine ⟨fun hd => ?_, fun hd => ?_, hledger.imp_right (fun hok => ⟨ud, pd, hres, hok⟩)⟩
    · have hnames : ¬ priorityNames c.world.pg p u = true := fun hn => hd ⟨hlinked, hn⟩
      rwa [if_neg hnames] at hprepared
    · rwa [if_pos hd.2] at hprepared

/-! ### A refused debit -/

/-- A debit of 1000 at the provider that the active priority names, from an account with 500. -/
def overdraft : Request := .debitUser ⟨1002⟩ ⟨1008⟩ ⟨⟨8⟩, 1000, none⟩

/-- It was served. -/
def afterOverdraft : State := request defaultEnv onePriority overdraft

/-- The ledger rejects it, after the priority was cancelled. -/
theorem overdraft_scene : (Calm onePriority.world ∧
    onePriority.world.pg.userProviderDetails ⟨1008⟩ ⟨1002⟩ ≠ [] ∧
    priorityNames onePriority.world.pg ⟨1002⟩ ⟨1008⟩ = true) ∧
    afterOverdraft.tasks[onePriority.tasks.length]?.bind Task.answer? = some (.error (.badRequest,
      "Ledger rejected the debit: [AppCreateTransfersResult \x7b index: 0, result: 66 \x7d]")) ∧
    afterOverdraft.world.pg.configs ≠ onePriority.world.pg.configs ∧
    onePriority.world.redisGet (priorityKey ⟨1008⟩) ≠ none ∧
    afterOverdraft.world.redisGet (priorityKey ⟨1008⟩) = none ∧
    afterOverdraft.world.worker.ledger = onePriority.world.worker.ledger := by
  decide +kernel

/-- A debit refused for insufficient funds has cancelled the priority of its user. -/
theorem overdraft_cancels :
    ¬ ∀ (env : Env) (c c' : State) (p u : Uuid) (payload : TransferRequest) (e : HttpError),
      Reachable env c → Calm c.world →
      (machine env).Reach (fun _ l => Alone c.tasks.length l)
        (arrived env c (.debitUser p u payload)) c' →
      c'.tasks[c.tasks.length]?.bind Task.answer? = some (.error e) →
      PriorityHeld u c.world.pg.configs c.world.pg.items (c.world.redisGet (priorityKey u))
        c'.world ∧ c'.world.worker.ledger = c.world.worker.ledger := by
  intro hall
  obtain ⟨⟨hcalm, -, -⟩, hanswer, hconfigs, -⟩ := overdraft_scene
  obtain ⟨hheld, -⟩ := hall defaultEnv onePriority afterOverdraft ⟨1002⟩ ⟨1008⟩ _ _
    onePriority_reachable hcalm (request_reach defaultEnv onePriority overdraft) hanswer
  exact hconfigs hheld.configs

theorem refusedDebit_leaves_overdraft :
    ∃ now, PriorityHeld ⟨1008⟩ (onePriority.world.pg.cancelActive ⟨1008⟩ ⟨1008⟩ now).configs
      onePriority.world.pg.items none afterOverdraft.world := by
  obtain ⟨⟨hcalm, hlinked, hnames⟩, hanswer, -⟩ := overdraft_scene
  exact (refusedDebit_leaves onePriority_reachable hcalm
    (request_reach defaultEnv onePriority overdraft) hanswer).2.1 ⟨hlinked, hnames⟩

end Wurzburg.System
