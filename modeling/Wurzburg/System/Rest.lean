import Wurzburg.Lib.Alone
import Wurzburg.TigerBeetle.OneCommand
import Wurzburg.Db.RepositorySpec
import Wurzburg.System.Service

/-!
# Wurzburg.System.Rest

A request served alone. `Smooth` singles out the acts in which no store fails
and nothing is cut off; `Alone i` those in which, besides, only task `i` runs.

`AtRest` is the state between two effects of such a request: nothing is under
way to the ledger, and the stores hold what they are said to hold. The rules
below take each effect from one such state to the next; a command to the worker
passes through the channel and the buffers in between (`Awaiting`).
-/

namespace Wurzburg.System

open Wurzburg.Lib Wurzburg.Db Wurzburg.Tb Wurzburg.Api

/-! ### Runs without failures -/

/-- A move of the world in which no call fails and the worker keeps running. -/
def Move.isSmooth : Move → Prop
  | .receive o => o = .ok
  | .tick o => o = .allOk
  | .stop | .restart => False
  | .clock .. | .expire _ => True

/-- Nothing fails and nothing is cut off. -/
def Smooth : Act → Prop
  | .arrive _ => True
  | .step _ ch => ch.fault = .none
  | .drop _ => False
  | .env v => v.isSmooth

/-- Only task `i` and the world move, and nothing fails. -/
def Alone (i : Nat) : Act → Prop := Label.Alone (fun ch => ch.fault = .none) Move.isSmooth i

/-- From position `n` on, only requests of a group arrive and run, and nothing fails. -/
def Together (n : Nat) (ofGroup : Request → Prop) : Act → Prop
  | .arrive q => ofGroup q
  | .step i ch => n ≤ i ∧ ch.fault = .none
  | .drop _ => False
  | .env v => v.isSmooth

theorem Alone.together {n i : Nat} {ofGroup : Request → Prop} {l : Act} (hi : n ≤ i)
    (h : Alone i l) : Together n ofGroup l := by
  cases l with
  | arrive q => exact h.elim
  | step j ch => exact ⟨h.1 ▸ hi, h.2⟩
  | drop j => exact h.elim
  | env v => exact h

/-- A request that runs alone while `keeps` holds of the database. -/
def alone (env : Env) (keeps : Pg → Prop) (live : Prop) : Setting (machine env) where
  choice ch := ch.fault = .none
  move := Move.isSmooth
  during w := keeps w.pg
  live := live

/-! ### The service at rest -/

/-- Nothing is under way to the ledger, and the stores hold this. -/
structure AtRest (pg : Pg) (l : Ledger) (issued : List (Uuid × IdUse)) (w : World) : Prop where
  alive : w.alive = true
  queue : w.queue = []
  unladen : w.worker.Unladen
  answered : ∀ m ∈ w.worker.replies, m.1 < w.sent.length
  pg_eq : w.pg = pg
  ledger_eq : w.worker.ledger = l
  issued_eq : w.issued = issued

section

variable {env : Env} {keeps : Pg → Prop} {live : Prop} {pg : Pg} {l : Ledger}
  {issued : List (Uuid × IdUse)} {w w' : World}

theorem AtRest.own (h : AtRest pg l issued w) : AtRest w.pg l w.issued w :=
  ⟨h.alive, h.queue, h.unladen, h.answered, rfl, h.ledger_eq, rfl⟩

theorem AtRest.move {v : Move} (h : AtRest pg l issued w) (hv : v.isSmooth)
    (hm : w.move env.tb env.settings.tigerbeetle.batchMaxSize v = some w') :
    AtRest pg l issued w' := by
  cases v with
  | receive o =>
      obtain ⟨cmd, rest, hq, -⟩ := World.receive_cases hm
      rw [h.queue] at hq
      cases hq
  | tick o =>
      rw [World.move_tick h.alive, Worker.turn, h.unladen.tick] at hm
      obtain rfl := Option.some.inj hm
      exact h
  | stop => exact hv.elim
  | restart => exact hv.elim
  | clock app db =>
      obtain rfl := Option.some.inj hm
      exact ⟨h.alive, h.queue, h.unladen, h.answered, h.pg_eq, h.ledger_eq, h.issued_eq⟩
  | expire key =>
      simp only [World.move] at hm
      split at hm
      · obtain rfl := Option.some.inj hm
        exact ⟨h.alive, h.queue, h.unladen, h.answered, h.pg_eq, h.ledger_eq, h.issued_eq⟩
      · simp at hm

theorem AtRest.moves (h : AtRest pg l issued w) (hm : (alone env keeps live).Moves w w') :
    AtRest pg l issued w' := by
  induction hm with
  | refl => exact h
  | tail _ hstep ih =>
      obtain ⟨v, hv, hw⟩ := hstep
      exact ih.move hv hw

/-- What the world does to a state at rest keeps what holds at rest. -/
theorem AtRest.forever {P : World → Prop} (h : AtRest pg l issued w) (hk : keeps pg)
    (hP : ∀ t, AtRest pg l issued t → P t) :
    ∀ t, (alone env keeps live).Moves w t → (alone env keeps live).during t ∧ P t := by
  intro t ht
  have hrest := h.moves ht
  refine ⟨?_, hP t hrest⟩
  show keeps t.pg
  rw [hrest.pg_eq]
  exact hk

/-- One effect, from rest. -/
theorem perform_total {e : Eff} {Q : e.Resp → World → Prop} (h : AtRest pg l issued w)
    (hk : keeps pg)
    (hlive : live → ∀ t, AtRest pg l issued t →
      ∃ ch out, ch.fault = .none ∧ t.exec env.settings.tigerbeetle.channelCapacity ch e = some out)
    (hexec : ∀ t ch r t', AtRest pg l issued t → ch.fault = .none →
      t.exec env.settings.tigerbeetle.channelCapacity ch e = some (r, t') →
      (alone env keeps live).Total Q (.ret r) t') :
    (alone env keeps live).Total Q (Prog.perform e) w := by
  intro t ht
  have hrest := h.moves ht
  refine ⟨(h.forever (P := fun _ => True) hk (fun _ _ => trivial) t ht).1, fun hl => ?_, ?_⟩
  · obtain ⟨ch, out, hch, hx⟩ := hlive hl t hrest
    exact ⟨t, ch, out, .refl, hch, hx⟩
  · exact fun ch r t' hch hx => hexec t ch r t' hrest hch hx

/-! ### Awaiting the worker -/

/-- Where a command is that was sent to the worker at rest: in the channel, in
its buffer, or served. -/
inductive Underway (tb : TigerBeetle) (w₀ : Worker) (cmd : TbCommand) (w : World) : Prop
  | sent : w.queue = [cmd] → w.worker = w₀ → Underway tb w₀ cmd w
  | buffered : w.queue = [] → w.worker = w₀.arrive cmd .ok → Underway tb w₀ cmd w
  | served : w.queue = [] → Worker.Done tb w₀ cmd w.worker → Underway tb w₀ cmd w

/-- A request at rest but for one command it has sent. -/
structure Awaiting (tb : TigerBeetle) (pg : Pg) (issued : List (Uuid × IdUse)) (w₀ : Worker)
    (cmd : TbCommand) (w : World) : Prop where
  alive : w.alive = true
  pg_eq : w.pg = pg
  issued_eq : w.issued = issued
  sent : w.sent.length = cmd.responder + 1
  unladen : w₀.Unladen
  answered : ∀ m ∈ w₀.replies, m.1 < cmd.responder
  underway : Underway tb w₀ cmd w

variable {w₀ : Worker} {cmd : TbCommand}

theorem Awaiting.move {v : Move} (h : Awaiting env.tb pg issued w₀ cmd w) (hv : v.isSmooth)
    (hm : w.move env.tb env.settings.tigerbeetle.batchMaxSize v = some w') :
    Awaiting env.tb pg issued w₀ cmd w' := by
  obtain ⟨halive, hpg, hissued, hsent, hunladen, hanswered, hway⟩ := h
  cases v with
  | receive o =>
      obtain rfl : o = .ok := hv
      obtain ⟨cmd', rest, hq', rfl⟩ := World.receive_cases hm
      refine ⟨halive, hpg, hissued, hsent, hunladen, hanswered, ?_⟩
      cases hway with
      | sent hq hw =>
          rw [hq] at hq'
          obtain ⟨rfl, rfl⟩ := List.cons.inj hq'
          -- an unladen worker keeps the command for its batch, or answers it at once
          rcases hunladen.handle cmd with hh | hh
          · exact .buffered rfl (by rw [hw]; exact hh)
          · exact .served rfl (by rw [hw]; exact hh)
      | buffered hq hw =>
          rw [hq] at hq'
          cases hq'
      | served hq hd =>
          rw [hq] at hq'
          cases hq'
  | tick o =>
      obtain rfl : o = .allOk := hv
      rw [World.move_tick halive, Worker.turn] at hm
      obtain rfl := Option.some.inj hm
      refine ⟨halive, hpg, hissued, hsent, hunladen, hanswered, ?_⟩
      cases hway with
      | sent hq hw => exact .sent hq (by rw [hw]; exact hunladen.tick _)
      | buffered hq hw => exact .served hq (by rw [hw]; exact hunladen.tick_arrive cmd)
      | served hq hd => exact .served hq (by rw [hd.unladen.tick]; exact hd)
  | stop => exact hv.elim
  | restart => exact hv.elim
  | clock app db =>
      obtain rfl := Option.some.inj hm
      refine ⟨halive, hpg, hissued, hsent, hunladen, hanswered, ?_⟩
      cases hway with
      | sent hq hw => exact .sent hq hw
      | buffered hq hw => exact .buffered hq hw
      | served hq hd => exact .served hq hd
  | expire key =>
      simp only [World.move] at hm
      split at hm
      · obtain rfl := Option.some.inj hm
        refine ⟨halive, hpg, hissued, hsent, hunladen, hanswered, ?_⟩
        cases hway with
        | sent hq hw => exact .sent hq hw
        | buffered hq hw => exact .buffered hq hw
        | served hq hd => exact .served hq hd
      · simp at hm

/-- Sending from rest. -/
theorem AtRest.tbSend {request : TbRequest} {capacity : Nat} {r : Option ResponderId}
    (h : AtRest pg l issued w) (hx : w.tbSend capacity request = some (r, w')) :
    r = some w.sent.length ∧
      Awaiting env.tb pg issued w.worker ⟨request, w.sent.length⟩ w' := by
  unfold World.tbSend at hx
  rw [if_pos h.alive] at hx
  split at hx
  · obtain ⟨rfl, rfl⟩ := Prod.mk.inj (Option.some.inj hx)
    refine ⟨rfl, ⟨h.alive, h.pg_eq, h.issued_eq, ?_, h.unladen, h.answered, .sent ?_ rfl⟩⟩
    · simp
    · show w.queue ++ [_] = [_]
      rw [h.queue, List.nil_append]
  · simp at hx

/-- No one else is answered under the responder of a command under way. -/
theorem Awaiting.reply?_eq_none (h : Awaiting env.tb pg issued w₀ cmd w)
    (hr : w.worker.replies = w₀.replies) : w.reply? cmd.responder = none := by
  unfold World.reply?
  rw [hr, List.find?_eq_none.mpr, Option.map_none]
  intro m hm
  simpa using Nat.ne_of_lt (h.answered m hm)

/-- A command that was served has its answer waiting. -/
theorem Awaiting.reply?_eq_some (h : Awaiting env.tb pg issued w₀ cmd w)
    (hd : Worker.Done env.tb w₀ cmd w.worker) :
    w.reply? cmd.responder = some (cmd.request.replyTo env.tb w₀.ledger) := by
  have hold : w₀.replies.find? (fun m => m.1 = cmd.responder) = none := by
    rw [List.find?_eq_none]
    intro m hm
    simpa using Nat.ne_of_lt (h.answered m hm)
  unfold World.reply?
  rw [hd.replies, List.find?_append, hold, Option.none_or]
  simp

/-- Receiving returns the answer of a batch of one, and the service is at rest
again. -/
theorem Awaiting.tbRecv {reply : Option TbReply} (h : Awaiting env.tb pg issued w₀ cmd w)
    (hx : w.tbRecv cmd.responder = some (reply, w')) :
    reply = some (cmd.request.replyTo env.tb w₀.ledger) ∧
      AtRest pg (cmd.request.ledgerAfter env.tb w₀.ledger) issued w' := by
  have hserved : Worker.Done env.tb w₀ cmd w.worker → w.queue = [] →
      reply = some (cmd.request.replyTo env.tb w₀.ledger) ∧
        AtRest pg (cmd.request.ledgerAfter env.tb w₀.ledger) issued w' := by
    intro hd hq
    unfold World.tbRecv at hx
    rw [h.reply?_eq_some hd] at hx
    obtain ⟨rfl, rfl⟩ := Prod.mk.inj (Option.some.inj hx)
    refine ⟨rfl, ⟨h.alive, hq, hd.unladen, fun m hm => ?_, h.pg_eq, hd.ledger, h.issued_eq⟩⟩
    rw [hd.replies] at hm
    rw [h.sent]
    rcases List.mem_append.mp hm with hm | hm
    · exact Nat.lt_succ_of_lt (h.answered m hm)
    · rw [List.mem_singleton.mp hm]
      exact Nat.lt_succ_self _
  have hpending : w.worker.replies = w₀.replies → w.isPending cmd.responder = true → False := by
    intro hr hp
    unfold World.tbRecv at hx
    rw [h.reply?_eq_none hr, hp] at hx
    simp at hx
  cases h.underway with
  | sent hq hw =>
      refine (hpending (by rw [hw]) ?_).elim
      simp [World.isPending, h.alive, hq]
  | buffered hq hw =>
      have harrive : Worker.Done env.tb w₀ cmd (w₀.arrive cmd .ok) ∨ _ := h.unladen.arrive cmd
      rcases harrive with hd | ⟨hr, hwait⟩
      · rw [← hw] at hd
        exact hserved hd hq
      · rw [← hw] at hr hwait
        refine (hpending hr ?_).elim
        simp only [Worker.waiting, List.mem_append] at hwait
        simp only [World.isPending, h.alive, Bool.true_and, Bool.or_eq_true, decide_eq_true_eq]
        tauto
  | served hq hd => exact hserved hd hq

/-- Two turns of the worker serve a command. -/
theorem Awaiting.answered_soon (h : Awaiting env.tb pg issued w₀ cmd w) :
    ∃ w' out, (alone env keeps live).Moves w w' ∧ w'.tbRecv cmd.responder = some out := by
  have hdone : ∀ w, Awaiting env.tb pg issued w₀ cmd w → Worker.Done env.tb w₀ cmd w.worker →
      ∃ out, w.tbRecv cmd.responder = some out := by
    intro w h hd
    unfold World.tbRecv
    rw [h.reply?_eq_some hd]
    exact ⟨_, rfl⟩
  have hticked : ∀ w, Awaiting env.tb pg issued w₀ cmd w → w.queue = [] →
      ∃ w' out, (alone env keeps live).Moves w w' ∧ w'.tbRecv cmd.responder = some out := by
    intro w h hq
    have hsmooth : Move.isSmooth (.tick .allOk) := rfl
    have hm := @World.move_tick env.tb env.settings.tigerbeetle.batchMaxSize .allOk w h.alive
    have hnext := h.move hsmooth hm
    have hd : Worker.Done env.tb w₀ cmd (w.worker.tick env.tb .allOk) := by
      cases h.underway with
      | sent hq' hw =>
          rw [hq] at hq'
          cases hq'
      | buffered _ hw =>
          rw [hw]
          exact h.unladen.tick_arrive cmd
      | served _ hd =>
          rw [hd.unladen.tick]
          exact hd
    obtain ⟨out, hout⟩ := hdone _ hnext hd
    exact ⟨_, out, .single ⟨.tick .allOk, hsmooth, hm⟩, hout⟩
  cases h.underway with
  | sent hq hw =>
      have hsmooth : Move.isSmooth (.receive .ok) := rfl
      have hm := @World.move_receive env.tb env.settings.tigerbeetle.batchMaxSize .ok w _ _ h.alive hq
      obtain ⟨w', out, hmoves, hout⟩ := hticked _ (h.move hsmooth hm) rfl
      exact ⟨w', out, .head ⟨.receive .ok, hsmooth, hm⟩ hmoves, hout⟩
  | buffered hq hw => exact hticked w h hq
  | served hq hd => exact hticked w h hq

theorem Awaiting.moves (h : Awaiting env.tb pg issued w₀ cmd w)
    (hm : (alone env keeps live).Moves w w') : Awaiting env.tb pg issued w₀ cmd w' := by
  induction hm with
  | refl => exact h
  | tail _ hstep ih =>
      obtain ⟨v, hv, hw⟩ := hstep
      exact ih.move hv hw

/-- A command and its answer, from rest to rest. -/
theorem submit_total {γ : Type} {request : TbRequest} {sendError recvError : String}
    {extract : TbReply → Option (Except String γ)} {Q : Except String γ → World → Prop}
    (h : AtRest pg l issued w) (hk : keeps pg)
    (hlive : live → 0 < env.settings.tigerbeetle.channelCapacity)
    (hQ : ∀ t, AtRest pg (request.ledgerAfter env.tb l) issued t →
      Q ((extract (request.replyTo env.tb l)).getD (.error recvError)) t) :
    (alone env keeps live).Total Q (submit request sendError recvError extract) w := by
  refine Setting.Total.bind (Q := fun r t => ∃ w₀ i, r = some i ∧ w₀.ledger = l ∧
    Awaiting env.tb pg issued w₀ ⟨request, i⟩ t) (perform_total h hk ?_ ?_) ?_
  · intro hl t ht
    have hroom : t.queue.length < env.settings.tigerbeetle.channelCapacity := by
      rw [ht.queue]
      exact hlive hl
    have hx : ∃ out, t.tbSend env.settings.tigerbeetle.channelCapacity request = some out := by
      rw [World.tbSend, if_pos ht.alive, if_pos hroom]
      exact ⟨_, rfl⟩
    obtain ⟨out, hout⟩ := hx
    exact ⟨⟨.none, fun _ => ⟨0⟩⟩, out, rfl, hout⟩
  · intro t ch r t' ht _ hx u hu
    have hsent : _ ∧ Awaiting env.tb pg issued t.worker ⟨request, t.sent.length⟩ t' := ht.tbSend hx
    obtain ⟨rfl, hw⟩ := hsent
    have hw := hw.moves hu
    refine ⟨?_, t.worker, t.sent.length, rfl, ht.ledger_eq, hw⟩
    show keeps u.pg
    rw [hw.pg_eq]
    exact hk
  · intro r t hr
    obtain ⟨w₀, i, rfl, hl₀, hw⟩ := hr.answer
    show (alone env keeps live).Total Q (.call (.tbRecv i) _) t
    intro u hu
    have hw := hw.moves hu
    refine ⟨?_, fun _ => ?_, fun ch r u' _ hx => ?_⟩
    · show keeps u.pg
      rw [hw.pg_eq]
      exact hk
    · obtain ⟨w', out, hm, hout⟩ : ∃ w' out, (alone env keeps live).Moves u w' ∧
          w'.tbRecv i = some out := hw.answered_soon
      exact ⟨w', ⟨.none, fun _ => ⟨0⟩⟩, out, hm, rfl, hout⟩
    · obtain ⟨rfl, hrest⟩ := hw.tbRecv hx
      rw [hl₀] at hrest ⊢
      exact hrest.forever hk (fun v hv => hQ v hv)

/-! ### The stores -/

variable {γ δ : Type} {M : γ → World → Prop} {post : Except HttpError δ → World → Prop}

/-- `.await.map_err(f)?` -/
theorem orFail_total {ε : Type} {p : Io (Except ε γ)} {f : ε → HttpError}
    (h : (alone env keeps live).Total (fun r t =>
      match r with
      | .ok a => M a t
      | .error e => post (.error (f e)) t) p w) :
    (alone env keeps live).TotalE M post (orFail p f) w := by
  refine Setting.Total.bind h (fun r t hr => ?_)
  cases r with
  | ok a => exact hr
  | error e => exact hr

/-- `.await` with the error kept. -/
theorem attempt_total {ε : Type} {p : Io (Except ε γ)} {M : Except ε γ → World → Prop}
    (h : (alone env keeps live).Total M p w) :
    (alone env keeps live).TotalE M post (attempt p) w :=
  Setting.Total.bind h (fun _ _ hr => hr)

/-- UUIDs that are new, also among themselves. -/
def Unissued (issued : List (Uuid × IdUse)) (ids : List Uuid) : Prop :=
  ids.Nodup ∧ ∀ id ∈ ids, id ∉ issued.map Prod.fst

theorem isFresh_iff {ids : List Uuid} : w.isFresh ids = true ↔ Unissued w.issued ids := by
  unfold World.isFresh Unissued
  rw [decide_eq_true_eq]

/-- A call that does not fail is applied. -/
theorem dbExec_ok {w w' : World} {ch : Choice} {call : DbCall} {r : Except RepoError call.Row}
    (hch : ch.fault = .none) (hx : w.dbExec ch call = some (r, w')) :
    ∃ n, call.body.transact w.pg w.dbNow ch.uuid = (r, w'.pg, n) ∧
      w' = { w with pg := w'.pg, issued := w'.issued } := by
  unfold World.dbExec at hx
  rw [hch] at hx
  obtain ⟨pg, n, htx, -, rfl⟩ := World.dbApply_cases hx
  exact ⟨n, htx, rfl⟩

/-- A call that generates no UUIDs is applied. -/
theorem dbApply_of_transact {w : World} {ch : Choice} {call : DbCall}
    {r : Except RepoError call.Row} {pg' : Pg}
    (htx : call.body.transact w.pg w.dbNow ch.uuid = (r, pg', 0)) :
    w.dbApply ch call = some (r, { w with pg := pg' }) := by
  have hfresh : w.isFresh [] = true :=
    isFresh_iff.mpr ⟨List.nodup_nil, fun _ hid => absurd hid List.not_mem_nil⟩
  unfold World.dbApply
  simp only [htx, List.range_zero, List.map_nil, List.append_nil, hfresh, if_true]

/-- A read that does not fail returns what it reads, and changes nothing. -/
theorem dbExec_read {w : World} {ch : Choice} {call : DbCall} {row : call.Row}
    (hch : ch.fault = .none)
    (hread : ∀ now uuid, call.body.transact w.pg now uuid = (.ok row, w.pg, 0)) :
    w.dbExec ch call = some (.ok row, w) := by
  unfold World.dbExec
  rw [hch]
  exact dbApply_of_transact (hread _ _)

/-- A repository call, from rest to rest. -/
theorem dbEff_total {call : DbCall} {Q : Except RepoError call.Row → World → Prop}
    (h : AtRest pg l issued w) (hk : keeps pg)
    (hlive : live → ∀ now, ∃ uuid r pg' n, call.body.transact pg now uuid = (r, pg', n) ∧
      Unissued issued ((List.range n).map uuid))
    (hcall : ∀ now uuid r pg' n, call.body.transact pg now uuid = (r, pg', n) →
      Unissued issued ((List.range n).map uuid) → keeps pg' ∧
        ∀ t, AtRest pg' l (issued ++ ((List.range n).map uuid).map (fun u => (u, .other))) t →
          Q r t) :
    (alone env keeps live).Total Q (Prog.perform (Eff.db call)) w := by
  refine perform_total h hk (fun hl t ht => ?_) (fun t ch r t' ht hch hx => ?_)
  · obtain ⟨uuid, r, pg', n, htx, hfresh⟩ := hlive hl t.dbNow
    rw [← ht.issued_eq] at hfresh
    rw [← ht.pg_eq] at htx
    have hx : ∃ out, t.dbApply ⟨.none, uuid⟩ call = some out := by
      unfold World.dbApply
      rw [htx]
      exact ⟨_, if_pos (isFresh_iff.mpr hfresh)⟩
    obtain ⟨out, hout⟩ := hx
    exact ⟨⟨.none, uuid⟩, out, rfl, hout⟩
  · have hx : t.dbExec ch call = some (r, t') := hx
    unfold World.dbExec at hx
    rw [hch] at hx
    obtain ⟨pg', n, htx, hfresh, rfl⟩ := World.dbApply_cases hx
    rw [ht.pg_eq] at htx
    rw [isFresh_iff, ht.issued_eq] at hfresh
    obtain ⟨hk', hQ⟩ := hcall _ _ _ _ _ htx hfresh
    have hrest : AtRest pg' l (issued ++ ((List.range n).map ch.uuid).map (fun u => (u, .other)))
        { t with
          pg := pg'
          issued := t.issued ++ ((List.range n).map ch.uuid).map (fun u => (u, .other)) } :=
      ⟨ht.alive, ht.queue, ht.unladen, ht.answered, rfl, ht.ledger_eq, by rw [ht.issued_eq]⟩
    exact hrest.forever hk' hQ

theorem db_total {call : DbCall} {M : call.Row → World → Prop} (h : AtRest pg l issued w)
    (hk : keeps pg)
    (hlive : live → ∀ now, ∃ uuid r pg' n, call.body.transact pg now uuid = (r, pg', n) ∧
      Unissued issued ((List.range n).map uuid))
    (hcall : ∀ now uuid r pg' n, call.body.transact pg now uuid = (r, pg', n) →
      Unissued issued ((List.range n).map uuid) → keeps pg' ∧
        ∀ t, AtRest pg' l (issued ++ ((List.range n).map uuid).map (fun u => (u, .other))) t →
          (∀ row, r = .ok row → M row t) ∧ ∀ e, r = .error e → post (.error internalError) t) :
    (alone env keeps live).TotalE M post (db call) w := by
  refine orFail_total (dbEff_total h hk hlive (fun now uuid r pg' n htx hfresh => ?_))
  obtain ⟨hk', hrest⟩ := hcall now uuid r pg' n htx hfresh
  refine ⟨hk', fun t ht => ?_⟩
  cases r with
  | ok row => exact (hrest t ht).1 row rfl
  | error e => exact (hrest t ht).2 e rfl

/-- A call that succeeds for certain and generates no UUID. -/
theorem sureEff_total {call : DbCall} {row : Timestamp → call.Row} {pg' : Timestamp → Pg}
    {Q : Except RepoError call.Row → World → Prop} (h : AtRest pg l issued w) (hk : keeps pg)
    (hsure : ∀ now uuid, call.body.transact pg now uuid = (.ok (row now), pg' now, 0))
    (hk' : ∀ now, keeps (pg' now))
    (hQ : ∀ now t, AtRest (pg' now) l issued t → Q (.ok (row now)) t) :
    (alone env keeps live).Total Q (Prog.perform (Eff.db call)) w := by
  refine dbEff_total h hk (fun _ now => ⟨fun _ => ⟨0⟩, _, _, _, hsure _ _, ?_⟩) ?_
  · exact ⟨List.nodup_nil, fun _ hid => absurd hid List.not_mem_nil⟩
  · intro now uuid r pg₁ n htx _
    rw [hsure] at htx
    obtain ⟨hr, hrest⟩ := Prod.mk.inj htx
    obtain ⟨rfl, rfl⟩ := Prod.mk.inj hrest
    rw [← hr]
    simp only [List.range_zero, List.map_nil, List.append_nil]
    exact ⟨hk' now, hQ now⟩

theorem db_sure_total {call : DbCall} {row : Timestamp → call.Row} {pg' : Timestamp → Pg}
    {M : call.Row → World → Prop} (h : AtRest pg l issued w) (hk : keeps pg)
    (hsure : ∀ now uuid, call.body.transact pg now uuid = (.ok (row now), pg' now, 0))
    (hk' : ∀ now, keeps (pg' now))
    (hM : ∀ now t, AtRest (pg' now) l issued t → M (row now) t) :
    (alone env keeps live).TotalE M post (db call) w :=
  orFail_total (sureEff_total h hk hsure hk' hM)

theorem db_read_total {call : DbCall} {row : call.Row} {M : call.Row → World → Prop}
    (h : AtRest pg l issued w) (hk : keeps pg)
    (hread : ∀ now uuid, call.body.transact pg now uuid = (.ok row, pg, 0))
    (hM : ∀ t, AtRest pg l issued t → M row t) :
    (alone env keeps live).TotalE M post (db call) w :=
  db_sure_total h hk hread (fun _ => hk) (fun _ => hM)

theorem tryDb_read_total {call : DbCall} {row : call.Row}
    {M : Except RepoError call.Row → World → Prop} (h : AtRest pg l issued w) (hk : keeps pg)
    (hread : ∀ now uuid, call.body.transact pg now uuid = (.ok row, pg, 0))
    (hM : ∀ t, AtRest pg l issued t → M (.ok row) t) :
    (alone env keeps live).TotalE M post (tryDb call) w :=
  attempt_total (sureEff_total h hk hread (fun _ => hk) (fun _ => hM))

/-- A Redis command succeeds and leaves the books alone. -/
theorem performRedis_total {cmd : RedisCmd} {Q : Except String Unit → World → Prop}
    (h : AtRest pg l issued w) (hk : keeps pg)
    (hQ : ∀ t, AtRest pg l issued t → (alone env keeps live).Total Q (.ret (.ok ())) t) :
    (alone env keeps live).Total Q (Prog.perform (Eff.redis cmd)) w := by
  refine perform_total h hk (fun _ t _ => ?_) (fun t ch r t' ht hch hx => ?_)
  · exact ⟨⟨.none, fun _ => ⟨0⟩⟩, _, rfl, rfl⟩
  · have hx : some (t.faulty ch.fault (·.redisApply cmd)) = some (r, t') := hx
    rw [hch] at hx
    obtain ⟨rfl, rfl⟩ := Prod.mk.inj (Option.some.inj hx)
    have hrest : AtRest pg l issued (t.redisApply cmd) := by
      cases cmd <;> exact ⟨ht.alive, ht.queue, ht.unladen, ht.answered, ht.pg_eq, ht.ledger_eq,
        ht.issued_eq⟩
    exact hQ _ hrest

theorem tryRedis_total {cmd : RedisCmd} {M : Except String Unit → World → Prop}
    (h : AtRest pg l issued w) (hk : keeps pg) (hM : ∀ t, AtRest pg l issued t → M (.ok ()) t) :
    (alone env keeps live).TotalE M post (tryRedis cmd) w :=
  attempt_total (performRedis_total h hk (fun _ ht => ht.forever hk hM))

/-- One that must succeed. -/
theorem redis_total {cmd : RedisCmd} {M : Unit → World → Prop} (h : AtRest pg l issued w)
    (hk : keeps pg) (hM : ∀ t, AtRest pg l issued t → M () t) :
    (alone env keeps live).TotalE M post (redis cmd) w :=
  orFail_total (performRedis_total h hk (fun _ ht => ht.forever hk hM))

/-- From a handler to the answer of its request. -/
theorem answerWith_mapped_total (wrap : γ → Body) {x : Handler (StatusCode × γ)}
    {Q : Except HttpError (StatusCode × γ) → World → Prop}
    (h : (alone env keeps live).Total Q x.run w) :
    (alone env keeps live).Total (fun a t => ∃ r, a = r.map (fun out => (out.1, wrap out.2)) ∧ Q r t)
      (answerWith wrap x) w := by
  refine Setting.Total.bind h (fun r t hr t' ht' => ?_)
  obtain ⟨hd, hq⟩ := hr t' ht'
  exact ⟨hd, r, rfl, hq⟩

end

end Wurzburg.System
