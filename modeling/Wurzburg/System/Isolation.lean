import Wurzburg.Db.UserView
import Wurzburg.System.Bank
import Wurzburg.System.Footprint

/-!
# Wurzburg.System.Isolation

Users are isolated from one another. Rows, cache keys and ledger accounts of all users lie in
the same stores, told apart only by the arguments of each call. In a run that serves no
request about a user, the database keeps its view of the user, the cache at most expires,
and the ledger posts nothing on the user's accounts but what was under way
(`users_isolated`); reading requests, about whomever, may be served all the while.
-/

namespace Wurzburg.System

open Wurzburg.Lib Wurzburg.Db Wurzburg.Tb Wurzburg.Api

/-! ### About whom a request is -/

/-- The request is to change something of the user. -/
def Request.concerns (pg : Pg) (u : Uuid) : Request → Prop
  | .creditUser _ userId _ | .debitUser _ userId _ => userId = u
  | .createUserPriority userId _ _ | .cancelActiveUserPriority userId => userId = u
  | .createOrLink payload => ∃ x ∈ pg.users, x.id = u ∧ x.nid = payload.nid
  | _ => False

instance (pg : Pg) (u : Uuid) : (q : Request) → Decidable (q.concerns pg u)
  | .creditUser _ v _ | .debitUser _ v _ => inferInstanceAs (Decidable (v = u))
  | .createUserPriority v _ _ | .cancelActiveUserPriority v => inferInstanceAs (Decidable (v = u))
  | .createOrLink payload =>
      inferInstanceAs (Decidable (∃ x ∈ pg.users, x.id = u ∧ x.nid = payload.nid))
  | .seedSystemAccounts | .createProvider _ | .getProvider _ | .getUser .. | .getUserBalance _
  | .getActiveUserPriority _ | .getAllUserPriorities _ => inferInstanceAs (Decidable False)

/-- The act serves no request about the user. -/
def Elsewhere (u : Uuid) (c : State) : Act → Prop
  | .step i _ => ∀ t ∈ c.tasks[i]?, ¬ t.req.concerns c.world.pg u
  | _ => True

instance (u : Uuid) (c : State) : (l : Act) → Decidable (Elsewhere u c l)
  | .step i _ => inferInstanceAs (Decidable (∀ t ∈ c.tasks[i]?, ¬ t.req.concerns c.world.pg u))
  | .arrive _ | .drop _ | .env _ => inferInstanceAs (Decidable True)

/-- The transfer names an account of the user. -/
def Touches (pg : Pg) (u : Uuid) (t : Transfer) : Prop :=
  ∃ ua ∈ pg.userAccounts, ua.userId = u ∧
    (t.debitAccountId = ua.ledgerAccountId.asU128 ∨ t.creditAccountId = ua.ledgerAccountId.asU128)

/-- The transfers on their way to the ledger. -/
def World.underWay (w : World) : List Transfer :=
  w.worker.transferBuf.batch.map toTbTransfer ++
    (w.queue.filterMap TbCommand.transfer?).map (fun x => toTbTransfer x.1)

/-- What the ledger holds, and what is under way to it. -/
def World.transfers (w : World) : List Transfer := w.worker.ledger.transfers ++ w.underWay

section

variable {env : Env} {w w' : World} {pg : Pg} {u : Uuid} {q : Request} {ch : Choice}

theorem Request.changesPriority.concerns (h : q.changesPriority u) : q.concerns pg u := by
  cases q <;> first | exact h | exact h.elim

theorem concerns_transferRequest {d : Direction} {p : Uuid} {payload : TransferRequest} :
    (transferRequest d p u payload).concerns pg u := by
  cases d <;> exact rfl

/-! ### The database -/

/-- A call for another user leaves the view of this one alone. -/
theorem dbApply_view {call : DbCall} {r : Except RepoError call.Row} (htables : Tables w.pg)
    (hu : ∃ x ∈ w.pg.users, x.id = u) (hallows : q.Allows (.db call)) (hq : ¬ q.concerns w.pg u)
    (h : w.dbApply ch call = some (r, w')) : w'.pg.viewOf u = w.pg.viewOf u := by
  obtain ⟨pg, n, htx, -, rfl⟩ := World.dbApply_cases h
  show pg.viewOf u = _
  rcases priorities_cases htx with hkeep | ⟨v, actor, rfl, rfl⟩ |
    ⟨key, v, items, expiresAt, actor, rfl, hadm, rfl⟩
  · rcases transact_cases htx with hs | ⟨p, actor, rfl, -, rfl⟩ |
      ⟨nid, p, im, em, lid, actor, user, account, rfl, -⟩ |
      ⟨d, key, amount, p, v, pl, ul, actor, description, hcall, -, new, rfl, -, rfl⟩
    · exact Pg.viewOf_same hs hkeep
    · rfl
    · obtain ⟨payload, rfl, rfl, -⟩ := hallows
      obtain ⟨x, hx, hid⟩ := hu
      have hnid : x.nid ≠ payload.nid := fun heq => hq ⟨x, hx, hid, heq⟩
      exact viewOf_createOrLinkUser htables ⟨x, hx, hid, hnid⟩ htx hkeep
    · refine Pg.viewOf_record (fun heq => hq ?_)
      obtain rfl : v = u := Option.some.inj heq
      rcases hcall with ⟨rfl, -⟩ | ⟨rfl, -⟩
      · obtain ⟨payload, rfl, -⟩ := hallows
        exact rfl
      · obtain ⟨payload, rfl, -⟩ := hallows
        exact rfl
  · refine Pg.viewOf_cancelActive (fun heq => hq ?_)
    exact heq ▸ Request.changesPriority.concerns hallows.1
  · rcases transact_cases htx with hs | ⟨_, _, hcall, -⟩ | ⟨_, _, _, _, _, _, _, _, hcall, -⟩ |
      ⟨_, _, _, _, _, _, _, _, _, hcall, -⟩
    · refine Pg.viewOf_addPriority (fun heq => hq ?_) hs hadm
      obtain ⟨header, payload, rfl, -⟩ := hallows
      exact heq
    · cases hcall
    · cases hcall
    · rcases hcall with ⟨hcall, -⟩ | ⟨hcall, -⟩ <;> cases hcall

/-! ### The cache -/

theorem priorityKey_inj {v : Uuid} (h : priorityKey v = priorityKey u) : v = u := by
  have huuids := (String.append_right_inj _).mp ((String.append_left_inj _).mp h)
  exact Uuid.toString_inj.mp huuids

theorem redisGet_redisSet_of_ne {key key' : String} (value : RedisValue) (h : key ≠ key') :
    (w.redisSet key' value).redisGet key = w.redisGet key := by
  rw [← World.redisGet_redisDel_of_ne w h]
  unfold World.redisGet World.redisSet
  rw [List.find?_cons_of_neg (by simpa using h.symm)]
  rfl

/-- A command on another user's key. -/
theorem redisApply_key {cmd : RedisCmd} (hallows : q.Allows (.redis cmd))
    (hq : ¬ q.concerns w.pg u) :
    (w.redisApply cmd).redisGet (priorityKey u) = w.redisGet (priorityKey u) := by
  cases cmd with
  | acquire => rfl
  | del key =>
      obtain ⟨v, hv, rfl⟩ := hallows
      refine World.redisGet_redisDel_of_ne w (fun heq => hq ?_)
      exact priorityKey_inj heq ▸ hv.concerns
  | set key value ex =>
      obtain ⟨v, header, payload, rfl, rfl⟩ := hallows
      exact redisGet_redisSet_of_ne _ (fun heq => hq (priorityKey_inj heq.symm))

/-! ### The ledger -/

theorem World.mem_transfers {t : Transfer} :
    t ∈ w.transfers ↔ t ∈ w.worker.transfers ∨
      ∃ app r, (⟨.createTransfer app, r⟩ : TbCommand) ∈ w.queue ∧ t = toTbTransfer app := by
  unfold World.transfers World.underWay Worker.transfers
  rw [← List.append_assoc, List.mem_append]
  refine or_congr_right ⟨fun h => ?_, ?_⟩
  · obtain ⟨⟨app, r⟩, hx, rfl⟩ := List.mem_map.mp h
    obtain ⟨cmd, hcmd, hsome⟩ := List.mem_filterMap.mp hx
    obtain rfl := TbCommand.transfer?_eq_some.mp hsome
    exact ⟨app, r, hcmd, rfl⟩
  · rintro ⟨app, r, hcmd, rfl⟩
    exact List.mem_map.mpr ⟨(app, r), List.mem_filterMap.mpr
      ⟨_, hcmd, TbCommand.transfer?_eq_some.mpr rfl⟩, rfl⟩

/-- An effect brings a transfer only by sending it. -/
theorem exec_transfers {capacity : Nat} {e : Eff} {r : e.Resp} {t : Transfer}
    (hx : w.exec capacity ch e = some (r, w')) (ht : t ∈ w'.transfers) :
    t ∈ w.transfers ∨ ∃ app, e = .tbSend (.createTransfer app) ∧ t = toTbTransfer app := by
  have same : w'.worker = w.worker → w'.queue = w.queue → t ∈ w.transfers := by
    intro hworker hqueue
    unfold World.transfers World.underWay at ht ⊢
    rwa [hworker, hqueue] at ht
  cases exec_did hx with
  | nothing => exact Or.inl ht
  | drew use ids => exact Or.inl (same rfl rfl)
  | db happly =>
      obtain ⟨pg, n, -, -, rfl⟩ := World.dbApply_cases happly
      exact Or.inl (same rfl rfl)
  | redis cmd => exact Or.inl (by cases cmd <;> exact same rfl rfl)
  | kafka cmd => exact Or.inl (by cases cmd <;> exact same rfl rfl)
  | sent request =>
      rcases World.mem_transfers.mp ht with ht | ⟨app, r, hcmd, rfl⟩
      · exact Or.inl (World.mem_transfers.mpr (Or.inl ht))
      · rcases List.mem_append.mp hcmd with hcmd | hcmd
        · exact Or.inl (World.mem_transfers.mpr (Or.inr ⟨app, r, hcmd, rfl⟩))
        · obtain ⟨rfl, -⟩ := TbCommand.mk.inj (List.mem_singleton.mp hcmd)
          exact Or.inr ⟨app, rfl, rfl⟩

/-- The world by itself brings no transfer. -/
theorem Inv.move_transfers {v : Move} {t : Transfer} (h : Inv env w)
    (hx : w.move env.tb env.settings.tigerbeetle.batchMaxSize v = some w')
    (ht : t ∈ w'.transfers) : t ∈ w.transfers := by
  have turned : ∀ e : WorkerEvent, (∀ cmd o, e = .command cmd o → cmd ∈ w.queue) →
      t ∈ (w.worker.turn env.tb env.settings.tigerbeetle.batchMaxSize e).transfers →
      t ∈ w.transfers := by
    intro e hqueued ht
    rcases h.worker.turn_transfers (plain env w.pg w.issued) (h.permitted hqueued) ht with
      ht | ⟨⟨request, r⟩, o, app, he, rfl, rfl⟩
    · exact World.mem_transfers.mpr (Or.inl ht)
    · exact World.mem_transfers.mpr (Or.inr ⟨app, r, hqueued _ _ he, rfl⟩)
  cases v with
  | receive o =>
      obtain ⟨cmd, rest, hq, rfl⟩ := World.receive_cases hx
      rcases World.mem_transfers.mp ht with ht | ⟨app, r, hcmd, rfl⟩
      · refine turned (.command cmd o) (fun cmd' o' he => ?_) ht
        obtain ⟨rfl, -⟩ := WorkerEvent.command.inj he
        rw [hq]
        exact List.mem_cons_self ..
      · refine World.mem_transfers.mpr (Or.inr ⟨app, r, ?_, rfl⟩)
        rw [hq]
        exact List.mem_cons_of_mem _ hcmd
  | tick o =>
      simp only [World.move] at hx
      split at hx
      · obtain rfl := Option.some.inj hx
        rcases World.mem_transfers.mp ht with ht | hqueue
        · exact turned (.tick o) (fun cmd o' he => (by cases he)) ht
        · exact World.mem_transfers.mpr (Or.inr hqueue)
      · cases hx
  -- the commands in the channel are dropped, and with a new worker those in the buffers too
  | stop =>
      obtain rfl := Option.some.inj hx
      rcases World.mem_transfers.mp ht with ht | ⟨app, r, hcmd, -⟩
      · exact World.mem_transfers.mpr (Or.inl ht)
      · cases hcmd
  | restart =>
      obtain rfl := Option.some.inj hx
      rcases World.mem_transfers.mp ht with ht | ⟨app, r, hcmd, -⟩
      · rcases List.mem_append.mp ht with ht | ht
        · exact List.mem_append_left _ ht
        · cases ht
      · cases hcmd
  | clock app db =>
      obtain rfl := Option.some.inj hx
      exact ht
  | expire key =>
      simp only [World.move] at hx
      split at hx
      · obtain rfl := Option.some.inj hx
        exact ht
      · cases hx

/-- A transfer that a request asks for names accounts of its own user only. -/
theorem TransferOf.not_touches {app : AppTransfer} (hinv : Inv env w)
    (h : TransferOf env q w.pg app) (hq : ¬ q.concerns w.pg u) :
    ¬ Touches w.pg u (toTbTransfer app) := by
  obtain ⟨d, payload, p, hp, ua, hua, -, rfl, rfl⟩ := h
  rintro ⟨ub, hub, rfl, htouch⟩
  have hprovider : p.ledgerAccountId.asU128 ≠ ub.ledgerAccountId.asU128 :=
    hinv.asU128_ne (hinv.providerLedgers p hp) (hinv.userLedgers ub hub) (by decide)
  have huser : ua.ledgerAccountId.asU128 ≠ ub.ledgerAccountId.asU128 := by
    intro heq
    obtain rfl := List.inj_on_of_nodup_map hinv.tables.accountLedgers hua hub
      (Uuid.asU128_inj.mp heq)
    exact hq concerns_transferRequest
  cases d <;> rcases htouch with htouch | htouch
  · exact hprovider htouch
  · exact huser htouch
  · exact huser htouch
  · exact hprovider htouch

/-! ### One step -/

/-- What a run elsewhere leaves of a user. -/
structure LeftAlone (u : Uuid) (w w' : World) : Prop where
  view : w'.pg.viewOf u = w.pg.viewOf u
  /-- The cached priority may expire. -/
  cached : w'.redisGet (priorityKey u) = w.redisGet (priorityKey u) ∨
    w'.redisGet (priorityKey u) = none
  transfers : ∀ t ∈ w'.transfers, Touches w.pg u t → t ∈ w.transfers

theorem LeftAlone.refl (u : Uuid) (w : World) : LeftAlone u w w :=
  ⟨rfl, Or.inl rfl, fun _ ht _ => ht⟩

/-- Whose accounts they are is in the view. -/
theorem touches_iff {pg pg' : Pg} (h : pg'.viewOf u = pg.viewOf u) {t : Transfer} :
    Touches pg' u t ↔ Touches pg u t := by
  have hmem : ∀ ua : UserAccount, ua ∈ pg'.userAccounts ∧ ua.userId = u ↔
      ua ∈ pg.userAccounts ∧ ua.userId = u := by
    intro ua
    have hrows := congrArg UserView.accounts h
    have hin : ua ∈ (pg'.viewOf u).accounts ↔ ua ∈ (pg.viewOf u).accounts := by rw [hrows]
    simpa [Pg.viewOf] using hin
  constructor
  · rintro ⟨ua, hua, hu, ht⟩
    obtain ⟨hua, hu⟩ := (hmem ua).mp ⟨hua, hu⟩
    exact ⟨ua, hua, hu, ht⟩
  · rintro ⟨ua, hua, hu, ht⟩
    obtain ⟨hua, hu⟩ := (hmem ua).mpr ⟨hua, hu⟩
    exact ⟨ua, hua, hu, ht⟩

theorem LeftAlone.trans {w₁ w₂ w₃ : World} (h : LeftAlone u w₁ w₂) (h' : LeftAlone u w₂ w₃) :
    LeftAlone u w₁ w₃ where
  view := h'.view.trans h.view
  cached := by
    rcases h'.cached with heq | hnone
    · rw [heq]
      exact h.cached
    · exact Or.inr hnone
  transfers := fun t ht htouch =>
    h.transfers t (h'.transfers t ht ((touches_iff h.view).mpr htouch)) htouch

/-- An effect of a request about another user. -/
theorem exec_leftAlone {capacity : Nat} {e : Eff} {r : e.Resp} (hinv : Inv env w)
    (hpre : Pre env q e w) (hu : ∃ x ∈ w.pg.users, x.id = u) (hallows : q.Allows e)
    (hq : ¬ q.concerns w.pg u) (hx : w.exec capacity ch e = some (r, w')) :
    LeftAlone u w w' := by
  have htransfers : ∀ t ∈ w'.transfers, Touches w.pg u t → t ∈ w.transfers := by
    intro t ht htouch
    rcases exec_transfers hx ht with ht | ⟨app, rfl, rfl⟩
    · exact ht
    · exact absurd htouch (TransferOf.not_touches hinv hpre hq)
  cases exec_did hx with
  | nothing => exact .refl u w
  | drew use ids => exact ⟨rfl, Or.inl rfl, htransfers⟩
  | db happly =>
      refine ⟨dbApply_view hinv.tables hu hallows hq happly, Or.inl ?_, htransfers⟩
      obtain ⟨pg, n, -, -, rfl⟩ := World.dbApply_cases happly
      rfl
  | redis cmd =>
      have hpg : (w.redisApply cmd).pg = w.pg := by cases cmd <;> rfl
      refine ⟨?_, Or.inl (redisApply_key hallows hq), htransfers⟩
      rw [hpg]
  | kafka cmd => exact ⟨by cases cmd <;> rfl, Or.inl (by cases cmd <;> rfl), htransfers⟩
  | sent request => exact ⟨rfl, Or.inl rfl, htransfers⟩

/-- The world by itself. -/
theorem Inv.move_leftAlone {v : Move} (h : Inv env w)
    (hx : w.move env.tb env.settings.tigerbeetle.batchMaxSize v = some w') :
    LeftAlone u w w' := by
  refine ⟨?_, ?_, fun t ht _ => h.move_transfers hx ht⟩
  · rw [(World.move_frame hx).1]
  · by_cases hv : ∃ key, v = .expire key
    · obtain ⟨key, rfl⟩ := hv
      simp only [World.move] at hx
      split at hx
      · obtain rfl := Option.some.inj hx
        by_cases hkey : priorityKey u = key
        · subst hkey
          exact Or.inr (World.redisGet_redisDel w _)
        · exact Or.inl (World.redisGet_redisDel_of_ne w hkey)
      · cases hx
    · obtain ⟨-, hredis⟩ := World.move_sparesPriorities hx (fun key heq => hv ⟨key, heq⟩)
      exact Or.inl (redisGet_congr hredis _)

end

section

variable {env : Env} {c c' : State} {u : Uuid}

theorem Reachable.step_leftAlone {l : Act} (hc : Reachable env c)
    (hu : ∃ x ∈ c.world.pg.users, x.id = u) (hl : Elsewhere u c l)
    (hs : (machine env).step c l = some c') : LeftAlone u c.world c'.world := by
  rcases (machine env).step_cases hs with ⟨q, rfl, rfl⟩ |
    ⟨i, ch, q, hist, e, k, r, w, rfl, ht, hx, rfl⟩ | ⟨i, q, hist, e, k, rfl, ht, rfl⟩ |
    ⟨v, w, rfl, hx, rfl⟩
  · exact .refl u _
  · exact exec_leftAlone hc.inv (hc.holds.pending (List.mem_of_getElem? ht) rfl) hu (hc.allows ht)
      (hl _ ht) hx
  · exact .refl u _
  · exact hc.inv.move_leftAlone hx

theorem Reachable.leftAlone (hc : Reachable env c) (hu : ∃ x ∈ c.world.pg.users, x.id = u)
    (h : (machine env).Reach (Elsewhere u) c c') : LeftAlone u c.world c'.world := by
  have hall : Reachable env c' ∧ LeftAlone u c.world c'.world := by
    refine h.invariant (P := fun c' => Reachable env c' ∧ LeftAlone u c.world c'.world)
      ⟨hc, .refl u _⟩ ?_
    rintro c₁ l c₂ ⟨hc₁, h₁⟩ hl hs
    refine ⟨(hc₁.step hs).1, h₁.trans (hc₁.step_leftAlone ?_ hl hs)⟩
    obtain ⟨x, hx, rfl⟩ := hu
    have hmem : x ∈ (c.world.pg.viewOf x.id).user := List.mem_filter.mpr ⟨hx, decide_eq_true rfl⟩
    rw [← h₁.view] at hmem
    exact ⟨x, (List.mem_filter.mp hmem).1, rfl⟩
  exact hall.2

/-- What the ledger posts of a user in a run elsewhere was under way before it. -/
theorem Reachable.posted_elsewhere (hc : Reachable env c)
    (hu : ∃ x ∈ c.world.pg.users, x.id = u) (h : (machine env).Reach (Elsewhere u) c c') :
    ∃ new, c'.world.worker.ledger.transfers = c.world.worker.ledger.transfers ++ new ∧
      ∀ t ∈ new, Touches c.world.pg u t → t ∈ c.world.underWay := by
  have hany : (machine env).Reach (fun _ _ => True) c c' := h.mono (fun _ _ _ => trivial)
  obtain ⟨new, hnew⟩ := (hc.grows hany).transfers
  refine ⟨new, hnew.symm, fun t ht htouch => ?_⟩
  have hmem : t ∈ c'.world.transfers := by
    refine List.mem_append_left _ ?_
    rw [← hnew]
    exact List.mem_append_right _ ht
  rcases List.mem_append.mp ((hc.leftAlone hu h).transfers t hmem htouch) with hold | hway
  · -- no transfer is posted twice
    have hnodup := (hc.extend hany).inv.worker.ledger.transferIds
    rw [← hnew, List.map_append, List.nodup_append] at hnodup
    exact absurd rfl (hnodup.2.2 _ (List.mem_map_of_mem hold) _ (List.mem_map_of_mem ht))
  · exact hway

/-- **Users are isolated.** In a run that serves no request about a user, the database keeps
what it holds about the user, the cached priority at most expires, and what the ledger posts
on the user's accounts was on its way before the run. Where nothing was, the user's balances
stand still. -/
theorem users_isolated (hc : Reachable env c) (hu : ∃ x ∈ c.world.pg.users, x.id = u)
    (h : (machine env).Reach (Elsewhere u) c c') :
    c'.world.pg.viewOf u = c.world.pg.viewOf u ∧
    (c'.world.redisGet (priorityKey u) = c.world.redisGet (priorityKey u) ∨
      c'.world.redisGet (priorityKey u) = none) ∧
    (∃ new, c'.world.worker.ledger.transfers = c.world.worker.ledger.transfers ++ new ∧
      ∀ t ∈ new, Touches c.world.pg u t → t ∈ c.world.underWay) ∧
    ((∀ t ∈ c.world.underWay, ¬ Touches c.world.pg u t) →
      ∀ ua ∈ c.world.pg.userAccounts, ua.userId = u →
        netPosted c'.world.worker.ledger ua.ledgerAccountId =
          netPosted c.world.worker.ledger ua.ledgerAccountId) := by
  obtain ⟨hview, hcached, -⟩ := hc.leftAlone hu h
  obtain ⟨new, hnew, hway⟩ := hc.posted_elsewhere hu h
  refine ⟨hview, hcached, ⟨new, hnew, hway⟩, fun hnone ua hua hid => ?_⟩
  have hc' := hc.extend (h.mono (fun _ _ _ => trivial))
  rw [← netPosted_eq hc.inv, ← netPosted_eq hc'.inv]
  unfold Ledger.entries
  rw [hnew, List.map_append, DoubleEntry.net_append]
  have hzero : DoubleEntry.net (new.map Transfer.entry) ua.ledgerAccountId.asU128 = 0 := by
    refine DoubleEntry.net_eq_zero (fun e he => ?_)
    obtain ⟨t, ht, rfl⟩ := List.mem_map.mp he
    have htouch := fun hhit => hnone t (hway t ht ⟨ua, hua, hid, hhit⟩) ⟨ua, hua, hid, hhit⟩
    exact ⟨fun hdebit => htouch (Or.inl hdebit), fun hcredit => htouch (Or.inr hcredit)⟩
  rw [hzero, add_zero]

end

/-- A second user, beside the one with a credit of 500. -/
def twoUsers : State :=
  request defaultEnv oneCredit (.createOrLink ⟨"0087654321", ⟨1002⟩, none, none⟩)

/-- The second user is credited 300. -/
def secondCredit : Request := .creditUser ⟨1002⟩ ⟨1014⟩ ⟨⟨9⟩, 300, none⟩

/-- Crediting one user leaves the other alone. -/
theorem users_isolated_twoUsers :
    (request defaultEnv twoUsers secondCredit).world.worker.ledger.transfers.map Transfer.amount =
      [500, 300] ∧
    (request defaultEnv twoUsers secondCredit).world.pg.viewOf ⟨1008⟩ =
      twoUsers.world.pg.viewOf ⟨1008⟩ ∧
    netPosted (request defaultEnv twoUsers secondCredit).world.worker.ledger ⟨1006⟩ =
      netPosted twoUsers.world.worker.ledger ⟨1006⟩ := by
  have hrun : ((machine defaultEnv).trace (requestPlan defaultEnv twoUsers secondCredit)
        twoUsers).all (fun v => decide (Elsewhere ⟨1008⟩ v.1 v.2)) = true ∧
      (request defaultEnv twoUsers secondCredit).world.worker.ledger.transfers.map
        Transfer.amount = [500, 300] ∧
      (∃ x ∈ twoUsers.world.pg.users, x.id = ⟨1008⟩) ∧ twoUsers.world.underWay = [] ∧
      ∃ ua ∈ twoUsers.world.pg.userAccounts, ua.userId = ⟨1008⟩ ∧ ua.ledgerAccountId = ⟨1006⟩ := by
    decide +kernel
  obtain ⟨hall, hposted, huser, hquiet, ua, hua, hid, hlid⟩ := hrun
  have hreach : (machine defaultEnv).Reach (Elsewhere ⟨1008⟩) twoUsers
      (request defaultEnv twoUsers secondCredit) :=
    Machine.reach_of_runAll (runAll_requestPlan defaultEnv twoUsers secondCredit)
      (fun v hv => of_decide_eq_true (List.all_eq_true.mp hall v hv))
  have hreachable : Reachable defaultEnv twoUsers := request_reachable oneCredit_reachable _
  obtain ⟨hview, -, -, hstill⟩ := users_isolated hreachable huser hreach
  refine ⟨hposted, hview, ?_⟩
  rw [← hlid]
  refine hstill (fun t ht => ?_) ua hua hid
  rw [hquiet] at ht
  cases ht

end Wurzburg.System
