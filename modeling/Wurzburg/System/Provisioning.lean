import Wurzburg.System.Linking
import Wurzburg.TigerBeetle.ReadYourWrites

/-!
# Wurzburg.System.Provisioning

The ledger account behind a link. `create_or_link` commits the account row
first and asks for the ledger account afterwards, only where the row looks new,
and without looking at the rejections. So an answer of 201 promises a ledger
account exactly as far as old rows have theirs and rejected accounts exist
(`LinksBacked`): in every run that keeps to this, `linked_holds_account`.
-/

namespace Wurzburg.System

open Wurzburg.Lib Wurzburg.Db Wurzburg.Tb Wurzburg.Api

/-! ### Accounts of the ledger -/

/-- The ledger holds the account of a user under this id. -/
def HoldsAccount (env : Env) (w : World) (ledgerAccountId : Uuid) : Prop :=
  ∃ a, w.worker.ledger.account? ledgerAccountId.asU128 = some a ∧
    a.ledger = env.settings.tigerbeetle.ledgerId ∧
    a.code = env.settings.tigerbeetle.userAccountCode ∧ a.flags = debitsMustNotExceedCredits

/-- An account under the ledger id of a user is the account of a user. -/
theorem Inv.holdsAccount {env : Env} {w : World} {ua : UserAccount} (h : Inv env w)
    (hua : ua ∈ w.pg.userAccounts)
    (hsome : (w.worker.ledger.account? ua.ledgerAccountId.asU128).isSome = true) :
    HoldsAccount env w ua.ledgerAccountId := by
  obtain ⟨a, ha⟩ := Option.isSome_iff_exists.mp hsome
  obtain ⟨app, ⟨q, hof⟩, hid, hflags, hledger, hcode, -, -⟩ :=
    h.worker.ledger.accounts a (Ledger.account?_mem ha)
  refine ⟨a, ha, ?_⟩
  rw [hflags, hledger, hcode]
  -- the id was generated for a user's account, so only a user's account can be under it
  have huse := h.userLedgers ua hua
  have hsame : ∀ id : Uuid, app.id = id.asU128 → id = ua.ledgerAccountId := fun id heq =>
    Uuid.asU128_inj.mp ((heq.symm.trans hid.symm).trans (Ledger.account?_id ha))
  cases hof with
  | user payload id owner _ => exact ⟨rfl, rfl, rfl⟩
  | provider payload id owner hissued =>
      rw [hsame id rfl] at hissued
      cases h.issuedOnce _ _ _ huse hissued
  | system id hissued =>
      rw [hsame id rfl] at hissued
      cases h.issuedOnce _ _ _ huse hissued

/-- An account answered with the empty list is in the ledger. -/
theorem Inv.account_accepted {env : Env} {w : World} {i : ResponderId} {a : AppAccount}
    {reply : TbReply} (h : Inv env w) (htold : Worker.Told env.tb (fun t => t.flags = 0) w.worker)
    (hsent : w.sent[i]? = some ⟨.createAccount a, i⟩) (hreply : (i, reply) ∈ w.worker.replies)
    (hext : createAccountsReply reply = some (.ok [])) :
    (w.worker.ledger.account? a.id).isSome = true := by
  obtain ⟨c, hc, hci, -⟩ := (h.worker.answers.sound _ hreply).request h.worker.history
  obtain ⟨j, hj⟩ := List.getElem?_of_mem (h.traffic.known c (List.mem_append_left _ hc))
  obtain rfl : j = i := (h.traffic.numbered j c hj).symm.trans hci
  obtain rfl : c = ⟨.createAccount a, j⟩ := Option.some.inj (hj.symm.trans hsent)
  have hdist : w.worker.Distinct :=
    h.traffic.distinct.sublist ((List.sublist_append_left _ _).map _)
  obtain ⟨s, hs, k, hk, -, rfl⟩ :=
    Worker.account_answer h.worker.history h.worker.answers hdist hc hreply
  obtain ⟨b, hb⟩ := (htold.accounts s hs (Option.some.inj hext) a
    (List.mem_of_getElem? hk)).found (fun _ ht => ht)
  exact Option.isSome_iff_exists.mpr ⟨b, hb⟩

/-! ### Runs that keep to the condition -/

/-- The accounts that `create_or_link` of this payload finds. -/
def Found (pg : Pg) (payload : CreateUserRequest) (account : UserAccount) : Prop :=
  account ∈ pg.userAccounts ∧
    ∃ user ∈ pg.users, user.nid = payload.nid ∧ account.pair = (user.id, payload.providerId)

/-- The two clocks move together, and `create_or_link` takes up no account
without its ledger account: one older than a second when it finds the row, a
rejected one when it is told of the rejections. -/
def LinksBacked (c : State) : Act → Prop
  | .env (.clock app db) => app = db
  | .step i ch => ∀ payload hist, ∀ e : Eff, ∀ k,
      c.tasks[i]? = some ⟨.createOrLink payload, hist, some (.call e k)⟩ →
      match e with
      | .db (.createOrLinkUser ..) => ch.fault = .none →
          ∀ requestTime : Timestamp, (⟨.now, requestTime⟩ : Event Eff Eff.Resp) ∈ hist →
          ∀ account, Found c.world.pg payload account →
          account.createdAt < requestTime - seconds 1 →
          (c.world.worker.ledger.account? account.ledgerAccountId.asU128).isSome = true
      | .tbRecv r => ∀ a,
          (⟨.tbSend (.createAccount a), some r⟩ : Event Eff Eff.Resp) ∈ hist →
          ∀ reply rejection rejections, c.world.reply? r = some reply →
          createAccountsReply reply = some (.ok (rejection :: rejections)) →
          (c.world.worker.ledger.account? a.id).isSome = true
      | _ => True
  | _ => True

/-- What such a run keeps true of the world. -/
structure Timely (env : Env) (w : World) : Prop where
  clocks : w.appNow = w.dbNow
  told : Worker.Told env.tb (fun t => t.flags = 0) w.worker

/-- And how its worlds move on. -/
structure Forward (env : Env) (w w' : World) : Prop where
  grows : Grows w w'
  clock : w.appNow ≤ w'.appNow
  ledger : w.worker.ledger.Later env.tb (fun t => t.flags = 0) w'.worker.ledger

theorem Forward.account {env : Env} {w w' : World} {id : Nat} (h : Forward env w w')
    (hsome : (w.worker.ledger.account? id).isSome = true) :
    (w'.worker.ledger.account? id).isSome = true := by
  obtain ⟨a, ha⟩ := Option.isSome_iff_exists.mp hsome
  obtain ⟨b, hb, -⟩ := (h.ledger.grows (fun _ ht => ht)).2 id a ha
  exact Option.isSome_iff_exists.mpr ⟨b, hb⟩

theorem faulty_frame {w w' : World} {f : Fault} {apply : World → World}
    {r : Except String Unit} (happly : (apply w).worker = w.worker ∧ (apply w).appNow = w.appNow ∧
      (apply w).dbNow = w.dbNow) (h : w.faulty f apply = (r, w')) :
    w'.worker = w.worker ∧ w'.appNow = w.appNow ∧ w'.dbNow = w.dbNow := by
  unfold World.faulty at h
  split at h
  · obtain ⟨-, rfl⟩ := Prod.mk.inj h
    exact happly
  · next applied _ =>
      obtain ⟨-, rfl⟩ := Prod.mk.inj h
      cases applied
      · exact ⟨rfl, rfl, rfl⟩
      · exact happly

/-- No effect of a handler touches the worker or the clocks. -/
theorem exec_frame {w w' : World} {capacity : Nat} {ch : Choice} {e : Eff} {r : e.Resp}
    (hx : w.exec capacity ch e = some (r, w')) :
    w'.worker = w.worker ∧ w'.appNow = w.appNow ∧ w'.dbNow = w.dbNow := by
  cases e with
  | now =>
      obtain ⟨-, rfl⟩ := Prod.mk.inj (Option.some.inj hx)
      exact ⟨rfl, rfl, rfl⟩
  | newV4 use =>
      simp only [World.exec] at hx
      split at hx
      · obtain ⟨-, rfl⟩ := Prod.mk.inj (Option.some.inj hx)
        exact ⟨rfl, rfl, rfl⟩
      · cases hx
  | db call =>
      rcases World.dbExec_cases hx with ⟨e, -, rfl⟩ | ⟨r', happly, -⟩
      · exact ⟨rfl, rfl, rfl⟩
      · obtain ⟨pg, n, -, -, rfl⟩ := World.dbApply_cases happly
        exact ⟨rfl, rfl, rfl⟩
  | redis cmd => exact faulty_frame (by cases cmd <;> exact ⟨rfl, rfl, rfl⟩) (Option.some.inj hx)
  | kafka cmd => exact faulty_frame (by cases cmd <;> exact ⟨rfl, rfl, rfl⟩) (Option.some.inj hx)
  | tbSend request =>
      rcases World.tbSend_cases hx with ⟨-, rfl⟩ | ⟨-, rfl⟩ <;> exact ⟨rfl, rfl, rfl⟩
  | tbRecv i =>
      obtain ⟨rfl, -⟩ := World.tbRecv_cases hx
      exact ⟨rfl, rfl, rfl⟩

theorem Timely.frame {env : Env} {w w' : World} (h : Timely env w) (hg : Grows w w')
    (hw : w'.worker = w.worker) (happ : w'.appNow = w.appNow) (hdb : w'.dbNow = w.dbNow) :
    Timely env w' ∧ Forward env w w' := by
  refine ⟨⟨?_, ?_⟩, hg, Int.le_of_eq happ.symm, ?_⟩
  · rw [happ, hdb]
    exact h.clocks
  · rw [hw]
    exact h.told
  · rw [hw]
    exact .refl _

/-- One turn of the worker, in a reachable state. -/
theorem Timely.turn {env : Env} {w : World} {queue : List TbCommand} {e : WorkerEvent}
    (h : Timely env w) (hinv : Inv env w)
    (hinv' : Inv env { w with
      worker := w.worker.turn env.tb env.settings.tigerbeetle.batchMaxSize e
      queue := queue })
    (hg : Grows w { w with
      worker := w.worker.turn env.tb env.settings.tigerbeetle.batchMaxSize e
      queue := queue }) :
    Timely env { w with
      worker := w.worker.turn env.tb env.settings.tigerbeetle.batchMaxSize e
      queue := queue } ∧
    Forward env w { w with
      worker := w.worker.turn env.tb env.settings.tigerbeetle.batchMaxSize e
      queue := queue } := by
  have hahead := Worker.ahead_turn hinv.worker.history h.told
    (fun t r ht => (plain env w.pg w.issued).transfer t (hinv'.worker.transfers t r ht))
  exact ⟨⟨h.clocks, hahead.told⟩, hg, Int.le_refl _, hahead.ledger⟩

theorem Timely.step {env : Env} {c c' : State} {l : Act} (hc : Reachable env c)
    (h : Timely env c.world) (hok : LinksBacked c l) (hs : (machine env).step c l = some c') :
    Timely env c'.world ∧ Forward env c.world c'.world := by
  obtain ⟨hc', hg⟩ := hc.step hs
  rcases (machine env).step_cases hs with ⟨q, rfl, rfl⟩ |
    ⟨i, ch, q, hist, e, k, r, w, rfl, ht, hx, rfl⟩ | ⟨i, q, hist, e, k, rfl, ht, rfl⟩ |
    ⟨v, w, rfl, hx, rfl⟩
  · exact h.frame hg rfl rfl rfl
  · obtain ⟨hw, happ, hdb⟩ := exec_frame hx
    exact h.frame hg hw happ hdb
  · exact h.frame hg rfl rfl rfl
  · cases v with
    | receive o =>
        obtain ⟨cmd, rest, -, rfl⟩ := World.receive_cases hx
        exact h.turn hc.inv hc'.inv hg
    | tick o =>
        simp only [machine, World.move] at hx
        split at hx
        · obtain rfl := Option.some.inj hx
          exact h.turn hc.inv hc'.inv hg
        · cases hx
    | stop =>
        obtain rfl := Option.some.inj hx
        exact h.frame hg rfl rfl rfl
    | restart =>
        obtain rfl := Option.some.inj hx
        exact ⟨⟨h.clocks, .start _⟩, hg, Int.le_refl _, .refl _⟩
    | clock app db =>
        obtain rfl := Option.some.inj hx
        obtain rfl : app = db := hok
        refine ⟨⟨?_, h.told⟩, hg, ?_, .refl _⟩
        · rw [h.clocks]
        · exact Int.le_add_of_nonneg_right (Int.natCast_nonneg _)
    | expire key =>
        simp only [machine, World.move] at hx
        split at hx
        · obtain rfl := Option.some.inj hx
          exact h.frame hg rfl rfl rfl
        · cases hx

theorem linksBacked_timely {env : Env} {now : Timestamp} {c : State}
    (h : (machine env).Reach LinksBacked (boot env now) c) :
    Reachable env c ∧ Timely env c.world := by
  refine h.invariant (P := fun c => Reachable env c ∧ Timely env c.world)
    ⟨boot_reachable env now, rfl, .start _⟩ ?_
  intro c l c' ⟨hc, ht⟩ hok hs
  exact ⟨(hc.step hs).1, (ht.step hc hok hs).1⟩

/-- Facts about histories, in runs that keep to the condition. -/
theorem linksBacked_facts {env : Env} {now : Timestamp} {c : State}
    {fact : Request → History → Event Eff Eff.Resp → World → Prop}
    (hmono : ∀ q past ev w w', Forward env w w' → fact q past ev w → fact q past ev w')
    (hnew : ∀ c c' i ch q hist e k r, (machine env).Reach LinksBacked (boot env now) c →
      Reachable env c' → LinksBacked c (.step i ch) →
      c.tasks[i]? = some ⟨q, hist, some (.call e k)⟩ →
      c.world.exec env.settings.tigerbeetle.channelCapacity ch e = some (r, c'.world) →
      fact q hist ⟨e, r⟩ c'.world)
    (h : (machine env).Reach LinksBacked (boot env now) c) :
    ∀ t ∈ c.tasks, Machine.Remembers (fact t.req) t.hist c.world := by
  refine Machine.Reach.facts (P := (machine env).Reach LinksBacked (boot env now)) ?_ hmono ?_
    .refl rfl h
  · intro c l c' hc hok hs
    obtain ⟨hreach, htimely⟩ := linksBacked_timely hc
    exact ⟨hc.tail hok hs, (htimely.step hreach hok hs).2⟩
  · intro c c' i ch q hist e k r hc hc' hok ht hx
    exact hnew c c' i ch q hist e k r hc (linksBacked_timely hc').1 hok ht hx

/-- The time that was read is not ahead of the clock, and the command that was
sent is the one under its number. -/
def SentFact (ev : Event Eff Eff.Resp) (w : World) : Prop :=
  (∀ t : Timestamp, ev = ⟨.now, t⟩ → t ≤ w.appNow) ∧
  ∀ request i, ev = ⟨.tbSend request, some i⟩ → w.sent[i]? = some ⟨request, i⟩

theorem SentFact.mono {env : Env} {ev : Event Eff Eff.Resp} {w w' : World}
    (hf : Forward env w w') (h : SentFact ev w) : SentFact ev w' :=
  ⟨fun t hev => Int.le_trans (h.1 t hev) hf.clock,
    fun request i hev => hf.grows.sent_getElem? (h.2 request i hev)⟩

theorem exec_sentFact {w w' : World} {capacity : Nat} {ch : Choice} {e : Eff} {r : e.Resp}
    (hx : w.exec capacity ch e = some (r, w')) : SentFact ⟨e, r⟩ w' := by
  refine ⟨fun t hev => ?_, fun request i hev => ?_⟩
  · obtain ⟨rfl, hr⟩ := Event.mk.inj hev
    obtain ⟨hnow, rfl⟩ := Prod.mk.inj (Option.some.inj hx)
    exact Int.le_of_eq ((eq_of_heq hr).symm.trans hnow.symm)
  · obtain ⟨rfl, hr⟩ := Event.mk.inj hev
    obtain rfl := eq_of_heq hr
    rcases World.tbSend_cases hx with ⟨hnone, -⟩ | ⟨hsome, rfl⟩
    · cases hnone
    · rw [Option.some.inj hsome]
      exact List.getElem?_concat_length

theorem linksBacked_sent {env : Env} {now : Timestamp} {c : State}
    (h : (machine env).Reach LinksBacked (boot env now) c) {t : Serving} (ht : t ∈ c.tasks)
    {ev : Event Eff Eff.Resp} (hev : ev ∈ t.hist) : SentFact ev c.world := by
  have hfacts : ∀ t ∈ c.tasks, Machine.Remembers (fun _ ev w => SentFact ev w) t.hist c.world :=
    linksBacked_facts (fun _ _ _ _ _ hf hfact => hfact.mono hf)
      (fun _ _ _ _ _ _ _ _ _ _ _ _ _ hx => exec_sentFact hx) h
  obtain ⟨past, rest, heq⟩ := List.append_of_mem hev
  exact hfacts t ht past ev rest heq

/-! ### What a 201 promises -/

/-- An account row that is taken up without asking, and one whose creation was
answered, has its ledger account. -/
def ProvisionFact (q : Request) (past : History) (ev : Event Eff Eff.Resp) (w : World) : Prop :=
  ∀ payload, q = .createOrLink payload →
    (∀ requestTime : Timestamp, ∀ user account, (⟨.now, requestTime⟩ : Event Eff Eff.Resp) ∈ past →
      LinkedTo payload ev user account → account.createdAt < requestTime - seconds 1 →
      (w.worker.ledger.account? account.ledgerAccountId.asU128).isSome = true) ∧
    (∀ a i reply rejections, ev = ⟨.tbRecv i, some reply⟩ →
      (⟨.tbSend (.createAccount a), some i⟩ : Event Eff Eff.Resp) ∈ past →
      createAccountsReply reply = some (.ok rejections) →
      (w.worker.ledger.account? a.id).isSome = true)

theorem ProvisionFact.mono {env : Env} {q : Request} {past : History} {ev : Event Eff Eff.Resp}
    {w w' : World} (hf : Forward env w w') (h : ProvisionFact q past ev w) :
    ProvisionFact q past ev w' := by
  intro payload hq
  obtain ⟨hold, hanswered⟩ := h payload hq
  exact ⟨fun t user account hnow hlink hlt => hf.account (hold t user account hnow hlink hlt),
    fun a i reply rs hev hsent hext => hf.account (hanswered a i reply rs hev hsent hext)⟩

/-- An account that `create_or_link_user` returns was found, or is of now. -/
theorem Linked.found {pg pg' : Pg} {payload : CreateUserRequest} {lid : Uuid} {now : Timestamp}
    {user : User} {account : UserAccount} (htables : Tables pg)
    (hl : Linked pg pg' payload.nid payload.providerId lid now user account) :
    Found pg payload account ∨ account.createdAt = now := by
  obtain ⟨pg₁, pg₂, huser, hlink, haccount⟩ := hl.steps
  cases haccount with
  | new _ _ _ _ _ _ hnow _ => exact Or.inr hnow
  | old hmem hpair _ =>
      have h₂ : pg₂.userAccounts = pg₁.userAccounts := by
        cases hlink with
        | old links logs _ _ heq => rw [heq]; rfl
        | new row logs _ _ _ _ heq => rw [heq]; rfl
      rw [h₂] at hmem
      cases huser with
      | old huser hnid heq =>
          subst heq
          exact Or.inl ⟨hmem, user, huser, hnid, hpair⟩
      | new logs hfree _ _ _ heq =>
          -- a user that is new has no account
          rw [heq] at hmem
          obtain ⟨u, hu, hid⟩ := htables.accountUser account hmem
          exact absurd (hid.trans (Prod.mk.inj hpair).1) (hfree u hu).1

theorem not_lt_sub_second {requestTime now : Int} (h : requestTime ≤ now) :
    ¬ now < requestTime - seconds 1 := by
  unfold seconds
  omega

theorem linksBacked_provision {env : Env} {now : Timestamp} {c : State}
    (h : (machine env).Reach LinksBacked (boot env now) c) :
    ∀ t ∈ c.tasks, Machine.Remembers (ProvisionFact t.req) t.hist c.world := by
  refine linksBacked_facts (fun _ _ _ _ _ hf hfact => hfact.mono hf) ?_ h
  rintro c c' i ch q hist e k r hc hc' hok ht hx payload rfl
  obtain ⟨hreach, htimely⟩ := linksBacked_timely hc
  have hworker := (exec_frame hx).1
  rw [hworker]
  refine ⟨?_, ?_⟩
  · rintro requestTime user account hnow ⟨im, em, lid, actor, hev⟩ hlt
    obtain ⟨rfl, hr⟩ := Event.mk.inj hev
    obtain rfl := eq_of_heq hr
    obtain ⟨hfault, happly⟩ := World.dbExec_row hx
    obtain ⟨pg, n, htx, -, -⟩ := World.dbApply_cases happly
    rcases createOrLinkUser_spec htx with ⟨_, he, -⟩ | ⟨user', account', hsome, hl⟩
    · cases he
    · obtain ⟨rfl, rfl⟩ := Prod.mk.inj (Except.ok.inj hsome)
      rcases Linked.found hreach.inv.tables hl with hfound | hnew
      · exact hok payload hist _ k ht hfault requestTime hnow account hfound hlt
      · have hsent := linksBacked_sent hc (List.mem_of_getElem? ht) hnow
        rw [hnew] at hlt
        exact absurd hlt (not_lt_sub_second (htimely.clocks ▸ hsent.1 requestTime rfl))
  · intro a j reply rejections hev hsent hext
    obtain ⟨rfl, hr⟩ := Event.mk.inj hev
    obtain rfl := eq_of_heq hr
    cases rejections with
    | nil =>
        obtain ⟨-, hreply⟩ := World.tbRecv_cases hx
        exact hreach.inv.account_accepted htimely.told
          ((linksBacked_sent hc (List.mem_of_getElem? ht) hsent).2 _ _ rfl) (hreply reply rfl) hext
    | cons rejection rejections =>
        exact hok payload hist _ k ht a hsent reply rejection rejections (World.tbRecv_reply hx) hext

/-- **A linked user has a ledger account**, in every run in which `create_or_link`
takes up no account without its ledger account. -/
theorem linked_holds_account {env : Env} {now : Timestamp} {c : State}
    (h : (machine env).Reach LinksBacked (boot env now) c) :
    ∀ t ∈ c.tasks, ∀ payload r, t.req = .createOrLink payload →
      t.answer? = some (.ok (.created, .createUser r)) →
      HoldsAccount env c.world r.ledgerAccountId := by
  intro t ht payload r hq ha
  have hreach := (linksBacked_timely h).1
  obtain ⟨user, account, hanswer⟩ :=
    h.answer_ends (serve_linkPost env) rfl ht ha payload r hq rfl
  obtain ⟨requestTime, past, ev, rest, hhist, hnow, hlink, hasked⟩ := hanswer.linked
  have hfacts := linksBacked_provision h t ht
  obtain ⟨-, -, haccount, -⟩ := hreach.linkedRows ht hhist hlink
  rw [hanswer.ledgerAccountId]
  refine hreach.inv.holdsAccount haccount ?_
  by_cases hold : account.createdAt < requestTime - seconds 1
  · exact (hfacts past ev rest hhist payload hq).1 requestTime user account hnow hlink hold
  · obtain ⟨before, i, reply, rejections, heq, hext⟩ := hasked (Int.not_lt.mp hold)
    rw [List.append_cons] at heq
    exact (hfacts _ _ [] heq payload hq).2 _ i reply rejections rfl
      (List.mem_append_right _ (List.mem_singleton_self _)) hext

/-- A step that finds no user and is told of no rejection. -/
def linksAnew (c : State) : Act → Bool
  | .env (.clock app db) => app = db
  | .step i _ =>
      match c.tasks[i]? with
      | some ⟨.createOrLink payload, _, some (.call (.db (.createOrLinkUser ..)) _)⟩ =>
          c.world.pg.users.all (fun u => u.nid ≠ payload.nid)
      | some ⟨_, _, some (.call (.tbRecv r) _)⟩ =>
          match (c.world.reply? r).bind createAccountsReply with
          | some (.ok (_ :: _)) => false
          | _ => true
      | _ => true
  | _ => true

theorem linksBacked_of_anew {c : State} {l : Act} (h : linksAnew c l = true) : LinksBacked c l := by
  cases l with
  | step i ch =>
      intro payload hist e k ht
      simp only [linksAnew, ht] at h
      cases e with
      | db call =>
          cases call with
          | createOrLinkUser nid p im em lid actor =>
              intro _ requestTime _ account ⟨_, user, huser, hnid, _⟩
              exact absurd hnid (by simpa using List.all_eq_true.mp h user huser)
          | _ => trivial
      | tbRecv r =>
          intro a _ reply rejection rejections hreply hext
          simp [hreply, hext] at h
      | _ => trivial
  | env v =>
      cases v with
      | clock app db => exact (of_decide_eq_true h : app = db)
      | _ => trivial
  | _ => trivial

theorem request_linksBacked {env : Env} {c : State} {q : Request}
    (h : ((machine env).trace (requestPlan env c q) c).all (fun v => linksAnew v.1 v.2) = true) :
    (machine env).Reach LinksBacked c (request env c q) :=
  Machine.reach_of_runAll (runAll_requestPlan env c q)
    (fun v hv => linksBacked_of_anew (List.all_eq_true.mp h v hv))

theorem linked_holds_account_oneUser :
    (oneUser.tasks[1]?.bind Task.answer? = some (.ok (.created, .createUser
      ⟨⟨1008⟩, "0012345678", ⟨1002⟩, ⟨1006⟩, false, 0, 0⟩))) ∧
    ∀ t ∈ oneUser.tasks, ∀ payload r, t.req = .createOrLink payload →
      t.answer? = some (.ok (.created, .createUser r)) →
      HoldsAccount defaultEnv oneUser.world r.ledgerAccountId := by
  refine ⟨by decide +kernel, @linked_holds_account defaultEnv 0 _ ?_⟩
  have h₁ : (machine defaultEnv).Reach LinksBacked (boot defaultEnv 0) oneProvider :=
    request_linksBacked (by decide +kernel)
  have h₂ : (machine defaultEnv).Reach LinksBacked oneProvider oneUser :=
    request_linksBacked (by decide +kernel)
  exact h₁.trans h₂

/-! ### A link without its ledger account -/

/-- The clocks move together. -/
def ClocksAgree (_ : State) : Act → Prop
  | .env (.clock app db) => app = db
  | _ => True

theorem nextAct_clocksAgree (env : Env) (i : Nat) (c : State) : ClocksAgree c (nextAct env i c) := by
  unfold nextAct
  split
  · trivial
  · split
    · trivial
    · trivial

/-- A request that arrives and runs alone for a while. -/
theorem serveAlone_clocksAgree (env : Env) (fuel : Nat) (c : State) (q : Request) :
    (machine env).Reach ClocksAgree c (serveAlone env c.tasks.length fuel (arrived env c q)) := by
  have harrive : (machine env).Reach ClocksAgree c (arrived env c q) :=
    .tail (l := .arrive q) .refl trivial ((machine env).step_arrive c q)
  refine harrive.trans ((serveAlone_scheduled env _ fuel _).mono (fun c' l hl => ?_))
  rw [hl]
  exact nextAct_clocksAgree env _ c'

/-- A first request for a user, up to where the account row is committed. -/
def rowOnly : State :=
  serveAlone defaultEnv oneProvider.tasks.length 4
    (arrived defaultEnv oneProvider (.createOrLink ⟨"0012345678", ⟨1002⟩, none, none⟩))

/-- The request is cut off there. -/
def cutOff : State := ((machine defaultEnv).step rowOnly (.drop 1)).get (by decide +kernel)

/-- Two seconds later. -/
def secondsLater : State :=
  { cutOff with world := { cutOff.world with
      appNow := cutOff.world.appNow + (2000000 : Nat)
      dbNow := cutOff.world.dbNow + (2000000 : Nat) } }

/-- The same request again. -/
def retriedLink : State :=
  request defaultEnv secondsLater (.createOrLink ⟨"0012345678", ⟨1002⟩, none, none⟩)

theorem retriedLink_clocksAgree :
    (machine defaultEnv).Reach ClocksAgree (boot defaultEnv 0) retriedLink := by
  have hrow : (machine defaultEnv).Reach ClocksAgree (boot defaultEnv 0) rowOnly :=
    (serveAlone_clocksAgree defaultEnv 60 (boot defaultEnv 0) (.createProvider sampleProvider)).trans
      (serveAlone_clocksAgree defaultEnv 4 oneProvider _)
  have hcut : (machine defaultEnv).Reach ClocksAgree (boot defaultEnv 0) cutOff :=
    hrow.tail (l := .drop 1) trivial (Option.some_get _).symm
  have hlater : (machine defaultEnv).Reach ClocksAgree (boot defaultEnv 0) secondsLater :=
    hcut.tail (l := .env (.clock 2000000 2000000)) rfl rfl
  exact hlater.trans (serveAlone_clocksAgree defaultEnv 60 secondsLater
    (.createOrLink ⟨"0012345678", ⟨1002⟩, none, none⟩))

/-- The retry is answered 201, and the ledger holds no such account. -/
theorem retriedLink_unprovisioned :
    ¬ ∀ (env : Env) (now : Timestamp) (c : State),
      (machine env).Reach ClocksAgree (boot env now) c →
      ∀ t ∈ c.tasks, ∀ payload r, t.req = .createOrLink payload →
        t.answer? = some (.ok (.created, .createUser r)) →
        HoldsAccount env c.world r.ledgerAccountId := by
  intro hall
  have hlast : retriedLink.tasks[2]?.map Task.req =
        some (.createOrLink ⟨"0012345678", ⟨1002⟩, none, none⟩) ∧
      retriedLink.tasks[2]?.bind Task.answer? = some (.ok (.created, .createUser
        ⟨⟨1008⟩, "0012345678", ⟨1002⟩, ⟨1006⟩, true, 0, 0⟩)) ∧
      retriedLink.world.worker.ledger.account? (⟨1006⟩ : Uuid).asU128 = none := by
    decide +kernel
  obtain ⟨t, ht, hq, ha⟩ := exists_task hlast.1 hlast.2.1
  obtain ⟨a, ha, -⟩ := hall defaultEnv 0 retriedLink retriedLink_clocksAgree t ht _ _ hq ha
  rw [hlast.2.2] at ha
  cases ha

end Wurzburg.System
