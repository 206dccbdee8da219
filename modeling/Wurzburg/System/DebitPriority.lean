import Wurzburg.Lib.Protocol
import Wurzburg.System.PriorityReplay
import Wurzburg.System.Provisioning

/-!
# Wurzburg.System.DebitPriority

What a debit does to the priority of its user, among other debits at the same
provider and creations and cancellations of the user's priorities.

A debit looks at the configuration in force, cancels whatever is in force if
what it saw names the provider, and hands its transfer over. A creation can come
between any two of these. If it brings a configuration without the provider
between the look and the cancellation, the debit cancels that one; if it brings
one with the provider after the look or the cancellation and before the ledger
applies the transfer, the transfer is applied under it. In runs without such a
creation the debits cancel what they must and nothing else (`debits_disable`).
-/

namespace Wurzburg.System

open Wurzburg.Lib Wurzburg.Db Wurzburg.Tb Wurzburg.Api

/-! ### The phases of a debit -/

/-- How far a debit has come. -/
inductive DebitPhase where
  /-- The configuration in force was not looked at. -/
  | checking
  /-- It named the provider, and what is in force is about to be cancelled. -/
  | found
  /-- No configuration stands in the way of the transfer. -/
  | passed
  /-- The transfer was handed to the worker. -/
  | sent (responder : ResponderId)
  /-- The debit ends without a transfer. -/
  | over
  deriving DecidableEq

namespace DebitPhase

/-- The phase after an effect and its reply. -/
def next (p : Uuid) : DebitPhase → (e : Eff) → e.Resp → DebitPhase
  | checking, .db (.getActivePriorityConfig _), .ok none => passed
  | checking, .db (.getActivePriorityConfig _), .ok (some active) =>
      if active.items.any (fun item => item.providerId = p) then found else passed
  | found, .db (.cancelActivePriorityConfig ..), .ok _ => passed
  | found, .db (.cancelActivePriorityConfig ..), .error _ => .over
  | passed, .tbSend _, some r => sent r
  | passed, .tbSend _, none => .over
  | φ, _, _ => φ

/-- The lookups before the configuration in force is looked at. -/
def isLookup : Eff → Prop
  | .db (.getUserProviderDetails ..) | .db (.getTransactionByIdempotencyKey _) => True
  | .db (.getProviderById _) => True
  | _ => False

/-- What a debit of the user does in each phase. -/
def allowed (u : Uuid) : DebitPhase → Eff → Prop
  | checking, .db (.getActivePriorityConfig userId) => userId = u
  | checking, e => isLookup e
  | found, .db (.cancelActivePriorityConfig userId _) => userId = u
  | passed, .redis _ => True
  | passed, .tbSend (.createTransfer _) => True
  | sent _, .tbSend (.createTransfer _) => False
  | sent _, e => e.sparesPriorities
  | _, _ => False

/-- The transfer is still to be applied, and nothing stops it any more. -/
def UnderWay (w : World) : DebitPhase → Prop
  | passed => True
  | sent r => w.isPending r = true
  | _ => False

instance (w : World) : DecidablePred (UnderWay w)
  | passed => .isTrue trivial
  | sent r => inferInstanceAs (Decidable (w.isPending r = true))
  | checking => .isFalse id
  | found => .isFalse id
  | .over => .isFalse id

end DebitPhase

/-- The protocol of the debits at a provider. -/
def debitProtocol (p u : Uuid) : Protocol Eff Eff.Resp where
  Phase := DebitPhase
  allowed := DebitPhase.allowed u
  next := DebitPhase.next p

/-- The phase of a debit with this history. -/
def debitPhase (p u : Uuid) (hist : History) : DebitPhase :=
  (debitProtocol p u).phase DebitPhase.checking hist

/-! ### The debits keep to it -/

section

variable {env : Env} {p u : Uuid}

/-- Where a debit may stop. -/
abbrev anyPhase {β : Type} (_ : DebitPhase) (_ : β) : Prop := True

/-- A part of a debit that leads from one phase to phases with `mid`. -/
abbrev Leads {α : Type} (p u : Uuid) (φ : DebitPhase) (mid : DebitPhase → Prop)
    (x : Handler α) : Prop :=
  Prog.FollowsE (debitProtocol p u) (fun φ _ => mid φ)
    (anyPhase (β := Except HttpError (StatusCode × TransactionResponse))) φ x

theorem admission_lookups (payload : TransferRequest) :
    Prog.UsesE DebitPhase.isLookup (admission p u payload) := by
  refine .bind (db_uses trivial) (fun found => .bind orElse_uses (fun ud => ?_))
  refine .bind (tryDb_uses trivial) (fun known => ?_)
  split
  · exact .pure _
  · exact .bind (db_uses trivial) (fun found => .bind orElse_uses (fun pd => .pure _))

theorem admission_leads (payload : TransferRequest) :
    Leads p u .checking (· = .checking) (admission p u payload) := by
  refine (admission_lookups payload).follows (fun φ e hφ he => ?_) (fun φ e r hφ he => ?_)
    (fun _ _ _ => trivial) rfl
  · subst hφ
    cases e with
    | db call => cases call <;> first | exact he.elim | trivial
    | _ => exact he.elim
  · subst hφ
    cases e with
    | db call => cases call <;> first | exact he.elim | rfl
    | _ => exact he.elim

theorem cancelPriorityNaming_leads :
    Leads p u .checking (· = .passed) (cancelPriorityNaming p u) := by
  refine ⟨rfl, fun found => ?_⟩
  cases found with
  | error e => trivial
  | ok found =>
      cases found with
      | none => exact rfl
      | some active =>
          by_cases hnames : active.items.any (fun item => item.providerId = p) = true
          · have hphase : DebitPhase.next p .checking (.db (.getActivePriorityConfig u))
                (.ok (some active)) = .found := if_pos hnames
            show Leads p u (DebitPhase.next p .checking (.db (.getActivePriorityConfig u))
              (.ok (some active))) _ (if _ then _ else _)
            rw [hphase, if_pos hnames]
            refine ⟨rfl, fun r => ?_⟩
            cases r with
            | error e => trivial
            | ok _ =>
                refine ⟨trivial, fun r => ?_⟩
                cases r with
                | error e => exact rfl
                | ok _ => exact ⟨trivial, fun _ => rfl⟩
          · have hphase : DebitPhase.next p .checking (.db (.getActivePriorityConfig u))
                (.ok (some active)) = .passed := if_neg hnames
            show Leads p u (DebitPhase.next p .checking (.db (.getActivePriorityConfig u))
              (.ok (some active))) _ (if _ then _ else _)
            rw [hphase, if_neg hnames]
            exact rfl

/-- The transfer was handed over. -/
def DebitPhase.IsSent : DebitPhase → Prop
  | .sent _ => True
  | _ => False

theorem createTransfer_leads (t : AppTransfer) (f : String → HttpError) :
    Leads p u .passed DebitPhase.IsSent (orFail (createTransfer t) f) := by
  have hlast : ∀ (r : ResponderId) (x : Except String (List AppCreateTransfersResult)),
      Leads p u (.sent r) DebitPhase.IsSent (orFail (Prog.ret x) f) := by
    intro r x
    cases x <;> trivial
  refine ⟨trivial, fun sent => ?_⟩
  cases sent with
  | none => trivial
  | some r =>
      refine ⟨trivial, fun reply => ?_⟩
      cases reply with
      | none => exact hlast r _
      | some reply => exact hlast r _

/-- What a debit does after its transfer. -/
theorem sent_leads {α : Type} {x : Handler α}
    (h : Prog.UsesE (fun e => e.sparesPriorities ∧ ∀ t, e ≠ .tbSend (.createTransfer t)) x)
    {φ : DebitPhase} (hφ : φ.IsSent) : Leads p u φ DebitPhase.IsSent x := by
  refine h.follows (fun φ e hφ he => ?_) (fun φ e r hφ he => ?_) (fun _ _ _ => trivial) hφ
  · obtain ⟨hspares, hnot⟩ := he
    cases φ with
    | sent r =>
        cases e with
        | tbSend request =>
            cases request with
            | createTransfer t => exact absurd rfl (hnot t)
            | _ => exact hspares
        | _ => exact hspares
    | _ => exact hφ.elim
  · cases φ with
    | sent r => exact hφ
    | _ => exact hφ.elim

theorem settle_leads (payload : TransferRequest) (ud : UserProviderDetails) (pd : Provider) :
    Leads p u .passed DebitPhase.IsSent (settle env .debit p u payload ud pd) := by
  refine (createTransfer_leads _ _).bind (fun φ rs hφ => ?_)
  refine sent_leads ?_ hφ
  split
  · refine .bind (db_uses ⟨trivial, fun _ h => by cases h⟩) (fun row => ?_)
    exact .bind (orFail_uses (submit_uses ⟨trivial, fun _ h => by cases h⟩
      (fun _ => ⟨trivial, fun _ h => by cases h⟩))) (fun _ => .pure _)
  · exact .throw _

/-- **A debit keeps to the protocol.** -/
theorem debit_follows (env : Env) (p u : Uuid) (payload : TransferRequest) :
    (serve env (.debitUser p u payload)).Follows (debitProtocol p u) anyPhase
      DebitPhase.checking := by
  have hdebit : Leads p u .checking (fun _ => True) (debitUser env p u payload) := by
    refine (admission_leads payload).bind (fun φ a hφ => ?_)
    subst hφ
    cases a with
    | answered response => trivial
    | admitted ud pd =>
        refine cancelPriorityNaming_leads.bind (fun φ _ hφ => ?_)
        subst hφ
        exact (settle_leads payload ud pd).weaken (fun φ r _ => by cases r <;> trivial)
  refine Prog.Follows.bind hdebit (fun φ r _ => ?_)
  cases r <;> trivial

end

/-! ### Transfers on their way -/

/-- The transfers that a request has handed over, with their responders. -/
def handedOver (hist : History) : List (AppTransfer × ResponderId) :=
  hist.filterMap fun
    | ⟨.tbSend (.createTransfer t), some r⟩ => some (t, r)
    | _ => none

/-- The transfers that the worker has submitted between two states. -/
def submitted (c c' : State) : List (AppTransfer × ResponderId) :=
  (c'.world.worker.transferLog.drop c.world.worker.transferLog.length).flatMap Submitted.pairs

/-- The transfer is applied to the ledger between two states. -/
def Applied (c c' : State) (x : AppTransfer × ResponderId) : Prop :=
  x ∈ submitted c c' ∧ toTbTransfer x.1 ∉ c.world.worker.ledger.transfers ∧
    toTbTransfer x.1 ∈ c'.world.worker.ledger.transfers

instance (c c' : State) : DecidablePred (Applied c c') := fun _ =>
  inferInstanceAs (Decidable (_ ∧ _ ∧ _))

section

variable {w w' : World} {capacity : Nat} {ch : Choice} {e : Eff} {rep : e.Resp} {r : ResponderId}

theorem isPending_iff : w.isPending r = true ↔
    w.alive = true ∧ (r ∈ w.queue.map TbCommand.responder ∨ r ∈ w.worker.waiting) := by
  simp only [World.isPending, Worker.waiting, Bool.and_eq_true, Bool.or_eq_true,
    decide_eq_true_eq, List.mem_append, or_assoc]

theorem faulty_alive {f : Fault} {apply : World → World} {rep : Except String Unit}
    (happly : (apply w).alive = w.alive) (h : w.faulty f apply = (rep, w')) :
    w'.alive = w.alive := by
  unfold World.faulty at h
  split at h
  · obtain ⟨-, rfl⟩ := Prod.mk.inj h
    exact happly
  · next applied _ =>
      obtain ⟨-, rfl⟩ := Prod.mk.inj h
      cases applied
      · rfl
      · exact happly

/-- An effect makes nothing wait but the command it sends. -/
theorem exec_pending (hx : w.exec capacity ch e = some (rep, w')) (hr : r < w.sent.length)
    (hpending : w'.isPending r = true) : w.isPending r = true := by
  have same : SameBooks w w' → w'.alive = w.alive → w.isPending r = true := by
    intro hsame halive
    rw [isPending_iff] at hpending ⊢
    rwa [← halive, ← hsame.queue, ← hsame.worker]
  cases e with
  | now =>
      obtain ⟨-, rfl⟩ := Prod.mk.inj (Option.some.inj hx)
      exact hpending
  | newV4 use =>
      simp only [World.exec] at hx
      split at hx
      · obtain ⟨-, rfl⟩ := Prod.mk.inj (Option.some.inj hx)
        exact hpending
      · cases hx
  | db call =>
      rcases World.dbExec_cases hx with ⟨_, -, rfl⟩ | ⟨r', happly, -⟩
      · exact hpending
      · obtain ⟨pg, n, -, -, rfl⟩ := World.dbApply_cases happly
        exact hpending
  | redis cmd =>
      have halive : w'.alive = w.alive :=
        faulty_alive (by cases cmd <;> rfl) (Option.some.inj hx)
      exact same (faulty_sameBooks (redisApply_sameBooks w cmd) (Option.some.inj hx)) halive
  | kafka cmd =>
      have halive : w'.alive = w.alive :=
        faulty_alive (by cases cmd <;> rfl) (Option.some.inj hx)
      exact same (faulty_sameBooks (kafkaApply_sameBooks w cmd) (Option.some.inj hx)) halive
  | tbSend request =>
      rcases World.tbSend_cases hx with ⟨-, rfl⟩ | ⟨-, rfl⟩
      · exact hpending
      · rw [isPending_iff] at hpending ⊢
        simp only [List.map_append, List.mem_append, List.map_cons, List.map_nil,
          List.mem_singleton] at hpending
        refine ⟨hpending.1, ?_⟩
        rcases hpending.2 with (hq | hnew) | hw
        · exact Or.inl hq
        · exact absurd hnew (Nat.ne_of_lt hr)
        · exact Or.inr hw
  | tbRecv i =>
      obtain ⟨rfl, -⟩ := World.tbRecv_cases hx
      exact hpending

/-- A turn of the worker's loop submits what was waiting, and makes nothing wait. -/
theorem turn_pending {tb : TigerBeetle} {n : Nat} {e : WorkerEvent} {queue : List TbCommand}
    (halive : w.alive = true) (hqueue : queue ⊆ w.queue)
    (hcommand : ∀ c ∈ e.command?, c ∈ w.queue) :
    (({ w with worker := w.worker.turn tb n e, queue := queue } : World).isPending r = true →
        w.isPending r = true) ∧
      ∃ new, (w.worker.turn tb n e).transferLog = w.worker.transferLog ++ new ∧
        ∀ s ∈ new, r ∈ s.responders → w.isPending r = true := by
  have hhandles : Worker.Handles _ w.worker (w.worker.turn tb n e) := Worker.turn_handles _
  have hknown : (r ∈ w.worker.waiting ∨ ∃ c ∈ e.command?, r = c.responder) →
      w.isPending r = true := by
    intro h
    refine isPending_iff.mpr ⟨halive, ?_⟩
    rcases h with h | ⟨c, hc, rfl⟩
    · exact Or.inr h
    · exact Or.inl (List.mem_map_of_mem (hcommand c hc))
  obtain ⟨hwaiting, new, hlog, hnew⟩ := hhandles
  refine ⟨fun hp => ?_, new, hlog, fun s hs hr => hknown (hnew s hs r hr)⟩
  obtain ⟨-, hp⟩ := isPending_iff.mp hp
  rcases hp with hp | hp
  · exact isPending_iff.mpr ⟨halive, Or.inl (List.map_subset _ hqueue hp)⟩
  · exact hknown (hwaiting r hp)

/-- The worker submits what was waiting, and makes nothing wait. -/
theorem move_pending {tb : TigerBeetle} {n : Nat} {v : Move} (hv : v.isSmooth)
    (hx : w.move tb n v = some w') :
    (w'.isPending r = true → w.isPending r = true) ∧
      ∃ new, w'.worker.transferLog = w.worker.transferLog ++ new ∧
        ∀ s ∈ new, r ∈ s.responders → w.isPending r = true := by
  cases v with
  | receive o =>
      have halive : w.alive = true := by
        simp only [World.move] at hx
        split at hx
        · next h _ => exact h
        · cases hx
      obtain ⟨cmd, rest, hq, rfl⟩ := World.receive_cases hx
      refine turn_pending halive ?_ (fun c hc => ?_)
      · rw [hq]
        exact List.subset_cons_self _ _
      · obtain rfl : cmd = c := Option.some.inj hc
        rw [hq]
        exact List.mem_cons_self ..
  | tick o =>
      simp only [World.move] at hx
      split at hx
      · next halive =>
          obtain rfl := Option.some.inj hx
          exact turn_pending halive (List.Subset.refl _) (fun c hc => (by cases hc))
      · cases hx
  | stop => exact hv.elim
  | restart => exact hv.elim
  | clock app db =>
      obtain rfl := Option.some.inj hx
      exact ⟨id, [], by simp, by simp⟩
  | expire key =>
      simp only [World.move] at hx
      split at hx
      · obtain rfl := Option.some.inj hx
        exact ⟨id, [], by simp [World.redisDel], by simp⟩
      · cases hx

end

/-! ### What a phase says of the configurations -/

/-- What holds of the configurations in force in each phase. -/
def DebitPhase.Means (p u : Uuid) (w : World) : DebitPhase → Prop
  | found => w.pg.OnlyNaming u p
  | passed => w.pg.NoneNaming u p
  | sent r => r < w.sent.length ∧ (w.isPending r = true → w.pg.NoneNaming u p)
  | _ => True

/-- The creations that commit come when no debit stands in their way: with an item
for the provider, when no transfer is under way; without one, when no debit is
about to cancel. -/
def CreatesInOrder (n : Nat) (p u : Uuid) (c : State) : Act → Prop
  | .step i ch => ∀ q hist key items expiresAt actor k,
      c.tasks[i]? =
        some ⟨q, hist, some (.call (.db (.createPriorityConfig key u items expiresAt actor)) k)⟩ →
      ((createPriorityConfig key u items expiresAt actor).transact c.world.pg c.world.dbNow
        ch.uuid).1.toOption ≠ none →
      ∀ j payload past rest, n ≤ j → c.tasks[j]? = some ⟨.debitUser p u payload, past, rest⟩ →
        if items.any (fun item => item.providerId = p) = true
        then ¬ (debitPhase p u past).UnderWay c.world else debitPhase p u past ≠ .found
  | _ => True

section

variable {p u : Uuid} {w w' : World} {capacity : Nat} {ch : Choice} {e : Eff} {rep : e.Resp}
  {φ : DebitPhase}

/-- What a phase says stays true while nothing changes for it. -/
theorem DebitPhase.Means.mono (h : φ.Means p u w) (hsent : w.sent <+: w'.sent)
    (hpending : ∀ r < w.sent.length, w'.isPending r = true → w.isPending r = true)
    (honly : φ = .found → w.pg.OnlyNaming u p → w'.pg.OnlyNaming u p)
    (hnone : φ.UnderWay w → w.pg.NoneNaming u p → w'.pg.NoneNaming u p) : φ.Means p u w' := by
  cases φ with
  | found => exact honly rfl h
  | passed => exact hnone trivial h
  | sent r =>
      refine ⟨Nat.lt_of_lt_of_le h.1 hsent.length_le, fun hp => ?_⟩
      have hp := hpending r h.1 hp
      exact hnone hp (h.2 hp)
  | checking => trivial
  | _ => trivial

theorem changesPriority_unique {q : Request} {v : Uuid} (hu : q.changesPriority u)
    (hv : q.changesPriority v) : u = v := by
  cases q with
  | createUserPriority | cancelActiveUserPriority | debitUser =>
      exact Eq.trans (Eq.symm hu) hv
  | _ => exact hu.elim

/-- What an effect of the group does to the configurations of the user. -/
theorem exec_naming {q : Request} {hist : History} (hw : Priorities w.pg)
    (hq : q.changesPriority u) (hown : OwnPriority q hist e) (hch : ch.fault = .none)
    (hx : w.exec capacity ch e = some (rep, w')) :
    (w'.pg.configs = w.pg.configs ∧ w'.pg.items = w.pg.items) ∨
    (∀ c ∈ w'.pg.configs, c.userId = u → c.status ≠ .active) ∨
    ∃ key items expiresAt actor, e = .db (.createPriorityConfig key u items expiresAt actor) ∧
      ((createPriorityConfig key u items expiresAt actor).transact w.pg w.dbNow
        ch.uuid).1.toOption ≠ none ∧
      if items.any (fun item => item.providerId = p) = true then w'.pg.OnlyNaming u p
      else w'.pg.NoneNaming u p := by
  rcases exec_pg hx with heq | ⟨call, rfl, -⟩
  · exact Or.inl ⟨by rw [heq], by rw [heq]⟩
  · obtain ⟨m, htx, -⟩ := dbExec_ok hch hx
    rcases priorities_cases htx with hkeep | ⟨userId, actor, rfl, hpg⟩ |
      ⟨key, userId, items, expiresAt, actor, rfl, hadm, hpg⟩
    · exact Or.inl ⟨hkeep.configs, hkeep.items⟩
    · obtain rfl : userId = u := changesPriority_unique hown hq
      refine Or.inr (Or.inl ?_)
      rw [hpg]
      exact hw.noActive
    · obtain ⟨header, payload, rfl, -⟩ := hown
      obtain rfl : userId = u := hq
      refine Or.inr (Or.inr ⟨key, items, expiresAt, actor, rfl, ?_, ?_⟩)
      · rcases createPriorityConfig_cases with ⟨-, hcreate⟩ | ⟨err, k, hrefused, -⟩
        · rw [hcreate]
          simp [Except.toOption]
        · exact absurd hadm hrefused.not_admits
      · rw [hpg]
        exact hw.naming_of_addPriority hadm

/-- What is found in force leads to the phase that says so of it. -/
theorem DebitPhase.means_ofFound {userId : Uuid} (hw : Priorities w.pg)
    (hids : (w.pg.providers.map (·.id)).Nodup) (hpg : w.pg = w'.pg) :
    (DebitPhase.checking.next p (.db (.getActivePriorityConfig userId))
      (.ok (w.pg.activeDetails? userId))).Means p userId w' := by
  cases hactive : w.pg.activeDetails? userId with
  | none =>
      show w'.pg.NoneNaming userId p
      rw [← hpg]
      exact hw.noneNaming_of_activeDetails hactive
  | some active =>
      have hnaming : if active.items.any (fun item => item.providerId = p) = true
          then w.pg.OnlyNaming userId p else w.pg.NoneNaming userId p :=
        hw.naming_of_activeDetails hids hactive
      show (if _ then DebitPhase.found else DebitPhase.passed).Means p userId w'
      split
      · next hany =>
          rw [if_pos hany] at hnaming
          show w'.pg.OnlyNaming userId p
          rwa [← hpg]
      · next hany =>
          rw [if_neg hany] at hnaming
          show w'.pg.NoneNaming userId p
          rwa [← hpg]

/-- The next effect of a debit leads to what the next phase says. -/
theorem DebitPhase.Means.effect (h : φ.Means p u w) (hallowed : φ.allowed u e)
    (hw : Priorities w.pg) (hids : (w.pg.providers.map (·.id)).Nodup) (hsent : w.sent <+: w'.sent)
    (hch : ch.fault = .none) (hx : w.exec capacity ch e = some (rep, w')) :
    (φ.next p e rep).Means p u w' := by
  cases φ with
  | checking =>
      cases e with
      | db call =>
          cases call with
          | getActivePriorityConfig userId =>
              obtain rfl : userId = u := hallowed
              obtain ⟨m, htx, -⟩ := dbExec_ok hch hx
              obtain ⟨rfl, hpg⟩ :=
                Prod.mk.inj ((getActivePriorityConfig_transact userId _ _ _).symm.trans htx)
              exact DebitPhase.means_ofFound hw hids (Prod.mk.inj hpg).1
          | _ => trivial
      | _ => trivial
  | found =>
      cases e with
      | db call =>
          cases call with
          | cancelActivePriorityConfig userId actor =>
              obtain rfl : userId = u := hallowed
              obtain ⟨m, htx, -⟩ := dbExec_ok hch hx
              obtain ⟨rfl, hpg⟩ :=
                Prod.mk.inj ((cancelActivePriorityConfig_transact userId actor _ _ _).symm.trans htx)
              show w'.pg.NoneNaming userId p
              rw [← (Prod.mk.inj hpg).1]
              exact Pg.noneNaming_of_idle hw.noActive
          | _ => exact hallowed.elim
      | _ => exact hallowed.elim
  | passed =>
      -- what is still allowed before the transfer is sent leaves the tables alone
      have hsame : (∀ call, e ≠ .db call) → w'.pg.NoneNaming u p := by
        intro hnot
        rcases exec_pg hx with heq | ⟨call, rfl, -⟩
        · rw [heq]
          exact h
        · exact absurd rfl (hnot call)
      cases e with
      | redis cmd => exact hsame (fun _ hcall => by cases hcall)
      | tbSend request =>
          have hnone := hsame (fun _ hcall => by cases hcall)
          rcases World.tbSend_cases hx with ⟨rfl, -⟩ | ⟨rfl, hw'⟩
          · trivial
          · refine ⟨?_, fun _ => hnone⟩
            rw [hw', List.length_append]
            exact Nat.lt_succ_self _
      | db call => exact hallowed.elim
      | _ => exact hallowed.elim
  | sent r =>
      have hspares : e.sparesPriorities := by
        cases e with
        | tbSend request => trivial
        | _ => exact hallowed
      obtain ⟨hsame, -⟩ := hspares.exec (fun _ _ => hch) hx
      have hmeans : (DebitPhase.sent r).Means p u w' :=
        h.mono hsent (fun _ hr => exec_pending hx hr)
          (fun _ honly => honly.congr hsame.configs hsame.items)
          (fun _ hnone => hnone.congr hsame.configs hsame.items)
      exact hmeans
  | _ => exact hallowed.elim

end

/-! ### The run -/

/-- The debits of a user at a provider, and the requests that create and cancel the
user's priorities. -/
def Request.sharesPriority (p u : Uuid) : Request → Prop
  | .createUserPriority userId _ _ => userId = u
  | .cancelActiveUserPriority userId => userId = u
  | .debitUser providerId userId _ => providerId = p ∧ userId = u
  | _ => False

theorem Request.sharesPriority.changesPriority {p u : Uuid} {q : Request}
    (h : q.sharesPriority p u) : q.changesPriority u := by
  cases q with
  | createUserPriority | cancelActiveUserPriority => exact h
  | debitUser => exact h.2
  | _ => exact h.elim

/-- From position `n` on, these requests arrive and run, and nothing fails. -/
def DebitTraffic (n : Nat) (p u : Uuid) : Act → Prop := Together n (Request.sharesPriority p u)

/-- What a debit at the provider does and what is done with its transfer are right: a
configuration that a step of the debit cancels names the provider, and when its
transfer is applied no configuration in force names the provider. -/
structure DebitsDisable (n : Nat) (p u : Uuid) (c : State) (l : Act) (c' : State) : Prop where
  cancels : ∀ i ch payload hist rest, n ≤ i → l = .step i ch →
    c.tasks[i]? = some ⟨.debitUser p u payload, hist, rest⟩ →
    ∀ config ∈ c.world.pg.configs, config.status = .active →
      ∀ config' ∈ c'.world.pg.configs, config'.id = config.id → config'.status = .cancelled →
        c.world.pg.Names config p
  applies : ∀ i payload hist rest, n ≤ i →
    c.tasks[i]? = some ⟨.debitUser p u payload, hist, rest⟩ →
    ∀ x ∈ handedOver hist, Applied c c' x → c.world.pg.NoneNaming u p

/-- What is known of a debit with this history and this rest. -/
structure DebitKnown (p u : Uuid) (w : World) (hist : History) (rest : Option (Io Answer)) :
    Prop where
  follows : ∀ prog, rest = some prog →
    prog.Follows (debitProtocol p u) anyPhase (debitPhase p u hist)
  handed : ∀ x ∈ handedOver hist, debitPhase p u hist = .sent x.2
  means : (debitPhase p u hist).Means p u w

/-- What is known of a request of the group. -/
structure TaskKnown (p u : Uuid) (w : World) (t : Serving) : Prop where
  group : t.req.sharesPriority p u
  debit : ∀ payload, t.req = .debitUser p u payload → DebitKnown p u w t.hist t.rest

section

variable {env : Env} {n : Nat} {p u : Uuid} {w w' : World} {capacity : Nat} {ch : Choice} {e : Eff}
  {rep : e.Resp} {k : e.Resp → Io Answer} {hist : History} {c c' : State} {l : Act}

theorem debitPhase_concat :
    debitPhase p u (hist ++ [⟨e, rep⟩]) = (debitPhase p u hist).next p e rep :=
  Protocol.phase_concat ..

/-- A transfer is handed over once. -/
theorem DebitKnown.handed_next {rest : Option (Io Answer)} (h : DebitKnown p u w hist rest)
    (hallowed : (debitPhase p u hist).allowed u e) :
    ∀ x ∈ handedOver (hist ++ [⟨e, rep⟩]), debitPhase p u (hist ++ [⟨e, rep⟩]) = .sent x.2 := by
  intro x hx
  rw [debitPhase_concat]
  unfold handedOver at hx
  rw [List.filterMap_append] at hx
  rcases List.mem_append.mp hx with hx | hx
  · rw [h.handed x hx]
    rfl
  · obtain ⟨ev, hev, hsome⟩ := List.mem_filterMap.mp hx
    rw [List.mem_singleton.mp hev] at hsome
    cases e with
    | tbSend request =>
        cases request with
        | createTransfer t =>
            cases rep with
            | none => cases hsome
            | some r =>
                obtain rfl : (t, r) = x := Option.some.inj hsome
                cases hphase : debitPhase p u hist with
                | passed => rfl
                | _ =>
                    rw [hphase] at hallowed
                    exact hallowed.elim
        | _ => cases hsome
    | _ => cases hsome

/-- The debit's own next effect. -/
theorem DebitKnown.next (h : DebitKnown p u w hist (some (.call e k))) (hw : Priorities w.pg)
    (hids : (w.pg.providers.map (·.id)).Nodup) (hsent : w.sent <+: w'.sent)
    (hch : ch.fault = .none) (hx : w.exec capacity ch e = some (rep, w')) :
    DebitKnown p u w' (hist ++ [⟨e, rep⟩]) (some (k rep)) := by
  obtain ⟨hallowed, hnext⟩ := h.follows _ rfl
  refine ⟨fun prog hprog => ?_, h.handed_next hallowed, ?_⟩
  · obtain rfl := Option.some.inj hprog
    rw [debitPhase_concat]
    exact hnext rep
  · rw [debitPhase_concat]
    exact h.means.effect hallowed hw hids hsent hch hx

/-- What another request does in order leaves a debit what it knows. -/
theorem DebitKnown.other {q : Request} {past : History} {rest : Option (Io Answer)}
    (h : DebitKnown p u w past rest) (hw : Priorities w.pg) (hq : q.changesPriority u)
    (hown : OwnPriority q hist e) (hsent : w.sent <+: w'.sent) (hch : ch.fault = .none)
    (hx : w.exec capacity ch e = some (rep, w'))
    (horder : ∀ key items expiresAt actor,
      e = .db (.createPriorityConfig key u items expiresAt actor) →
      ((createPriorityConfig key u items expiresAt actor).transact w.pg w.dbNow
        ch.uuid).1.toOption ≠ none →
      if items.any (fun item => item.providerId = p) = true
      then ¬ (debitPhase p u past).UnderWay w else debitPhase p u past ≠ .found) :
    DebitKnown p u w' past rest := by
  refine ⟨h.follows, h.handed, ?_⟩
  rcases exec_naming (p := p) hw hq hown hch hx with ⟨hconfigs, hitems⟩ | hidle |
    ⟨key, items, expiresAt, actor, heq, hcommits, hnaming⟩
  · exact h.means.mono hsent (fun _ hr => exec_pending hx hr)
      (fun _ honly => honly.congr hconfigs hitems) (fun _ hnone => hnone.congr hconfigs hitems)
  · exact h.means.mono hsent (fun _ hr => exec_pending hx hr)
      (fun _ _ => Pg.onlyNaming_of_idle hidle) (fun _ _ => Pg.noneNaming_of_idle hidle)
  · have horder := horder key items expiresAt actor heq hcommits
    refine h.means.mono hsent (fun _ hr => exec_pending hx hr) (fun hfound _ => ?_)
      (fun hway _ => ?_)
    · split at hnaming
      · exact hnaming
      · next hany =>
          rw [if_neg hany] at horder
          exact absurd hfound horder
    · split at hnaming
      · next hany =>
          rw [if_pos hany] at horder
          exact absurd hway horder
      · exact hnaming

theorem TaskKnown.arrived {q : Request} (hq : q.sharesPriority p u) :
    TaskKnown p u w ⟨q, [], some (serve env q)⟩ := by
  refine ⟨hq, fun payload heq => ?_⟩
  obtain rfl : q = _ := heq
  refine ⟨fun prog hprog => ?_, fun x hx => (by cases hx), trivial⟩
  obtain rfl := Option.some.inj hprog
  exact debit_follows env p u payload

/-- One act keeps what is known. -/
theorem known_step (h : From n (fun _ => TaskKnown p u c.world) c.tasks) (hc : Reachable env c)
    (hok : DebitTraffic n p u l) (horder : CreatesInOrder n p u c l)
    (hs : (machine env).step c l = some c') :
    From n (fun _ => TaskKnown p u c'.world) c'.tasks := by
  have hsent : c.world.sent <+: c'.world.sent := (hc.step hs).2.sent
  rcases (machine env).step_cases hs with ⟨q, rfl, rfl⟩ |
    ⟨i, ch, q, hist, e, k, r, w, rfl, ht, hx, rfl⟩ | ⟨i, q, hist, e, k, rfl, -, -⟩ |
    ⟨v, w, rfl, hw, rfl⟩
  · exact h.append (.arrived hok)
  · obtain ⟨hi, hch⟩ := hok
    have hknown : TaskKnown p u c.world ⟨q, hist, some (.call e k)⟩ := h i _ hi ht
    have ⟨now, hrun⟩ := hc
    have hown : OwnPriority q hist e := hrun.issues (serve_ownPriority env) rfl ht
    have hplaced : From n (fun j t => n ≤ j ∧ c.tasks[j]? = some t ∧ TaskKnown p u c.world t)
        c.tasks := fun j t hj htask => ⟨hj, htask, h j t hj htask⟩
    refine hplaced.set ⟨hknown.group, fun payload heq => ?_⟩ (fun j t _ hother => ?_)
    · exact (hknown.debit payload heq).next hc.priorities hc.inv.tables.providerIds hsent hch hx
    · obtain ⟨hj, htask, hgroup, hdebit⟩ := hother
      refine ⟨hgroup, fun payload heq => ?_⟩
      refine (hdebit payload heq).other hc.priorities hknown.group.changesPriority hown hsent hch hx
        (fun key items expiresAt actor hcreate hcommits => ?_)
      subst hcreate
      obtain ⟨req, past, rest⟩ := t
      obtain rfl : req = _ := heq
      exact horder q hist key items expiresAt actor k ht hcommits j payload past rest hj htask
  · exact hok.elim
  · refine h.mono (fun j t htask => ⟨htask.group, fun payload heq => ?_⟩)
    obtain ⟨hfollows, hhanded, hmeans⟩ := htask.debit payload heq
    have hpg : w.pg = c.world.pg := move_pg hw
    refine ⟨hfollows, hhanded, hmeans.mono hsent (fun r _ => (move_pending hok hw).1) ?_ ?_⟩
    · exact fun _ honly => honly.congr (by rw [hpg]) (by rw [hpg])
    · exact fun _ hnone => hnone.congr (by rw [hpg]) (by rw [hpg])

/-- Only a debit that found the provider named cancels. -/
theorem DebitPhase.of_cancel {φ : DebitPhase} {userId actor : Uuid}
    (h : φ.allowed u (.db (.cancelActivePriorityConfig userId actor))) :
    φ = .found ∧ userId = u := by
  cases φ with
  | found => exact ⟨rfl, h⟩
  | _ => exact h.elim

/-- What a debit cancels names the provider. -/
theorem DebitKnown.cancels (h : DebitKnown p u w hist (some (.call e k))) (hw : Priorities w.pg)
    (hch : ch.fault = .none) (hx : w.exec capacity ch e = some (rep, w'))
    {config config' : UserPriorityConfig} (hconfig : config ∈ w.pg.configs)
    (hactive : config.status = .active) (hconfig' : config' ∈ w'.pg.configs)
    (hid : config'.id = config.id) (hcancelled : config'.status = .cancelled) :
    w.pg.Names config p := by
  obtain ⟨hallowed, -⟩ := h.follows _ rfl
  have hunique : ∀ d ∈ w.pg.configs, d.id = config.id → d = config :=
    fun d hd heq => List.inj_on_of_nodup_map hw.ids hd hconfig heq
  have hsame : w'.pg.configs = w.pg.configs → w.pg.Names config p := by
    intro heq
    rw [hunique config' (heq ▸ hconfig') hid, hactive] at hcancelled
    cases hcancelled
  rcases exec_pg hx with heq | ⟨call, rfl, -⟩
  · exact hsame (by rw [heq])
  · obtain ⟨m, htx, -⟩ := dbExec_ok hch hx
    rcases priorities_cases htx with hkeep | ⟨userId, actor, rfl, hpg⟩ |
      ⟨key, userId, items, expiresAt, actor, rfl, -, -⟩
    · exact hsame hkeep.configs
    · obtain ⟨hphase, rfl⟩ := DebitPhase.of_cancel hallowed
      have honly : w.pg.OnlyNaming userId p := by
        have hmeans := h.means
        rw [hphase] at hmeans
        exact hmeans
      rw [hpg, Pg.cancelActive_configs] at hconfig'
      obtain ⟨d, hd, rfl⟩ := List.mem_map.mp hconfig'
      obtain rfl := hunique d hd ((d.later_afterCancel userId w.dbNow).id_eq.symm.trans hid)
      by_cases hcurrent : Pg.isCurrent userId d = true
      · obtain ⟨huser, -, hkept⟩ : d.userId = userId ∧ d.status = .active ∧ d.isDeleted = false := by
          simpa [Pg.isCurrent] using hcurrent
        exact honly d hd huser hactive hkept
      · rw [UserPriorityConfig.afterCancel, if_neg hcurrent, hactive] at hcancelled
        cases hcancelled
    · cases hphase : debitPhase p u hist <;> rw [hphase] at hallowed <;> exact hallowed.elim

/-- What was submitted was appended to the log. -/
theorem mem_submitted {new : List (Submitted AppTransfer)} {x : AppTransfer × ResponderId}
    (hlog : c'.world.worker.transferLog = c.world.worker.transferLog ++ new)
    (hx : x ∈ submitted c c') : ∃ s ∈ new, x.2 ∈ s.responders := by
  unfold submitted at hx
  rw [hlog, List.drop_left] at hx
  obtain ⟨s, hs, hpair⟩ := List.mem_flatMap.mp hx
  exact ⟨s, hs, (List.of_mem_zip hpair).2⟩

/-- What is known suffices for the next act. -/
theorem DebitsDisable.of_known (h : From n (fun _ => TaskKnown p u c.world) c.tasks)
    (hc : Reachable env c) (hok : DebitTraffic n p u l)
    (hs : (machine env).step c l = some c') : DebitsDisable n p u c l c' := by
  constructor
  · intro i ch payload hist rest hi hl htask config hconfig hactive config' hconfig' hid hcancelled
    subst hl
    rcases (machine env).step_cases hs with ⟨q, heq, -⟩ |
      ⟨i', ch', q, hist', e, k, r, w, heq, ht, hx, rfl⟩ | ⟨i', q, hist', e, k, heq, -, -⟩ |
      ⟨v, w, heq, -, -⟩
    · cases heq
    · obtain ⟨rfl, rfl⟩ := Label.step.inj heq
      obtain ⟨rfl, rfl, rfl⟩ := Task.mk.inj (Option.some.inj (htask.symm.trans ht))
      exact ((h i _ hi htask).debit payload rfl).cancels hc.priorities hok.2 hx hconfig hactive
        hconfig' hid hcancelled
    · cases heq
    · cases heq
  · intro i payload hist rest hi htask x hx happlied
    have hknown := (h i _ hi htask).debit payload rfl
    have hmeans := hknown.means
    rw [hknown.handed x hx] at hmeans
    have hnothing : c'.world.worker.transferLog = c.world.worker.transferLog →
        c.world.pg.NoneNaming u p := by
      intro hlog
      obtain ⟨s, hs, -⟩ := mem_submitted (hlog.trans (List.append_nil _).symm) happlied.1
      cases hs
    rcases (machine env).step_cases hs with ⟨q, -, rfl⟩ |
      ⟨i', ch', q, hist', e, k, r, w, -, -, hexec, rfl⟩ | ⟨i', q, hist', e, k, -, -, rfl⟩ |
      ⟨v, w, rfl, hw, rfl⟩
    · exact hnothing rfl
    · exact hnothing (congrArg Worker.transferLog (exec_frame hexec).1)
    · exact hnothing rfl
    · obtain ⟨-, new, hlog, hnew⟩ := move_pending (r := x.2) hok hw
      obtain ⟨s, hs, hr⟩ := mem_submitted hlog happlied.1
      exact hmeans.2 (hnew s hs hr)

end

/-- The state an act leads to, if it can be taken. -/
def followed (env : Env) (c : State) (l : Act) : State := ((machine env).step c l).getD c

theorem step_followed {env : Env} {c : State} {l : Act}
    (h : ((machine env).step c l).isSome = true) :
    (machine env).step c l = some (followed env c l) := by
  obtain ⟨c', hc'⟩ := Option.isSome_iff_exists.mp h
  unfold followed
  rw [hc']
  rfl

/-- The act is not a creation. -/
def createsNothing (v : State × Act) : Bool :=
  match v.2 with
  | .step i _ =>
      match v.1.tasks[i]? with
      | some ⟨_, _, some (.call (.db (.createPriorityConfig ..)) _)⟩ => false
      | _ => true
  | _ => true

theorem createsNothing_inOrder {n : Nat} {p u : Uuid} {c : State} {l : Act}
    (h : createsNothing (c, l) = true) : CreatesInOrder n p u c l := by
  cases l with
  | step i ch =>
      intro q hist key items expiresAt actor k ht
      simp only [createsNothing, ht] at h
      cases h
  | _ => trivial

/-- A debit of 50 by the user of the examples. -/
def debitFifty : Request := .debitUser ⟨1002⟩ ⟨1008⟩ ⟨⟨8⟩, 50, none⟩

/-- The debit has found the priority, which names the provider. -/
def debitFound : State := serveAlone defaultEnv 4 4 (arrived defaultEnv onePriority debitFifty)

/-- The debit has found no priority and has not handed its transfer over yet. -/
def debitChecked : State := serveAlone defaultEnv 3 4 (arrived defaultEnv oneCredit debitFifty)

/-- A priority naming the provider is created before the worker submits the transfer. -/
def debitOvertaken : State :=
  serveAlone defaultEnv 3 2
    (serveAlone defaultEnv 4 60 (arrived defaultEnv debitChecked createPriority))

end Wurzburg.System
