import Wurzburg.System.Handlers
import Wurzburg.System.Rest

/-!
# Wurzburg.System.Schedule

A scheduler that computes runs without failures. `serveAlone` is one schedule of
a task alone, as a function: it takes the task's next step when it can, and lets
the worker receive or tick when it cannot. What it computes is a run
(`serveAlone_reach`), so it produces concrete reachable states. `inTurns` lets
several requests overlap: it serves each for some acts, and then another.
-/

namespace Wurzburg.System

open Wurzburg.Lib Wurzburg.Db Wurzburg.Tb Wurzburg.Api

/-! ### A scheduler -/

/-- The choice without a fault that generates UUIDs by counting. -/
def counting (w : World) : Choice :=
  ⟨.none, fun i => ⟨BitVec.ofNat 128 (1000 + w.issued.length + i)⟩⟩

/-- The next act on the way of task `i` to its end. -/
def nextAct (env : Env) (i : Nat) (c : State) : Act :=
  if ((machine env).step c (.step i (counting c.world))).isSome then .step i (counting c.world)
  else if c.world.queue.isEmpty then .env (.tick .allOk)
  else .env (.receive .ok)

theorem nextAct_alone (env : Env) (i : Nat) (c : State) : Alone i (nextAct env i c) := by
  unfold nextAct
  split
  · exact ⟨rfl, rfl⟩
  · split
    · exact rfl
    · exact rfl

/-- The acts that run task `i` alone until it stops, at most so many. -/
def plan (env : Env) (i : Nat) : Nat → State → List Act
  | 0, _ => []
  | fuel + 1, c =>
      match c.tasks[i]? with
      | some ⟨_, _, some (.call _ _)⟩ =>
          match (machine env).step c (nextAct env i c) with
          | some c' => nextAct env i c :: plan env i fuel c'
          | none => []
      | _ => []

theorem plan_alone (env : Env) (i fuel : Nat) (c : State) : ∀ l ∈ plan env i fuel c, Alone i l := by
  induction fuel generalizing c with
  | zero => simp [plan]
  | succ fuel ih =>
      intro l hl
      rw [plan] at hl
      split at hl
      · split at hl
        · next c' _ =>
            rcases List.mem_cons.mp hl with rfl | hl
            · exact nextAct_alone env i c
            · exact ih c' l hl
        · simp at hl
      · simp at hl

/-- What a task alone comes to. -/
def serveAlone (env : Env) (i : Nat) : Nat → State → State
  | 0, c => c
  | fuel + 1, c =>
      match c.tasks[i]? with
      | some ⟨_, _, some (.call _ _)⟩ =>
          match (machine env).step c (nextAct env i c) with
          | some c' => serveAlone env i fuel c'
          | none => c
      | _ => c

/-- The plan leads there. -/
theorem runAll_plan (env : Env) (i fuel : Nat) (c : State) :
    (machine env).runAll (plan env i fuel c) c = some (serveAlone env i fuel c) := by
  induction fuel generalizing c with
  | zero => rfl
  | succ fuel ih =>
      rw [plan, serveAlone]
      split
      · split
        · next c' hs => rw [Machine.runAll, hs, Option.bind_some, ih c']
        · rfl
      · rfl

/-- What the scheduler computes is a run, each act of which is the next one. -/
theorem serveAlone_scheduled (env : Env) (i fuel : Nat) (c : State) :
    (machine env).Reach (fun c l => l = nextAct env i c) c (serveAlone env i fuel c) := by
  induction fuel generalizing c with
  | zero => exact .refl
  | succ fuel ih =>
      rw [serveAlone]
      split
      · split
        · next c' hs => exact (Machine.Reach.tail .refl rfl hs).trans (ih c')
        · exact .refl
      · exact .refl

theorem serveAlone_reach (env : Env) (i fuel : Nat) (c : State) :
    (machine env).Reach (fun _ l => Alone i l) c (serveAlone env i fuel c) := by
  refine (serveAlone_scheduled env i fuel c).mono (fun c' l hl => ?_)
  rw [hl]
  exact nextAct_alone env i c'

/-- A request has arrived. -/
def arrived (env : Env) (c : State) (q : Request) : State :=
  { c with tasks := c.tasks ++ [(machine env).newTask q] }

theorem arrived_task (env : Env) (c : State) (q : Request) :
    (arrived env c q).tasks[c.tasks.length]? = some ⟨q, [], some (serve env q)⟩ := by
  show (c.tasks ++ [_])[c.tasks.length]? = _
  rw [List.getElem?_append_right (Nat.le_refl _), Nat.sub_self]
  rfl

/-- Both are runs of a group the task belongs to. -/
theorem serveAlone_together {n i : Nat} {ofGroup : Request → Prop} (hi : n ≤ i) (env : Env)
    (fuel : Nat) (c : State) :
    (machine env).Reach (fun _ l => Together n ofGroup l) c (serveAlone env i fuel c) :=
  (serveAlone_reach env i fuel c).mono (fun _ _ hl => hl.together hi)

theorem arrived_together {n : Nat} {ofGroup : Request → Prop} (env : Env) (c : State) {q : Request}
    (hq : ofGroup q) : (machine env).Reach (fun _ l => Together n ofGroup l) c (arrived env c q) :=
  .tail (l := .arrive q) .refl hq ((machine env).step_arrive c q)

/-- The acts of a request that arrives and is served alone. -/
def requestPlan (env : Env) (c : State) (q : Request) : List Act :=
  .arrive q :: plan env c.tasks.length 60 (arrived env c q)

/-- A request arrives and is served alone. -/
def request (env : Env) (c : State) (q : Request) : State :=
  serveAlone env c.tasks.length 60 (arrived env c q)

/-- Serving a request alone is a run from its arrival. -/
theorem request_reach (env : Env) (c : State) (q : Request) :
    (machine env).Reach (fun _ l => Alone c.tasks.length l) (arrived env c q) (request env c q) :=
  serveAlone_reach env _ _ _

theorem runAll_requestPlan (env : Env) (c : State) (q : Request) :
    (machine env).runAll (requestPlan env c q) c = some (request env c q) := by
  rw [requestPlan, Machine.runAll, Machine.step_arrive, Option.bind_some]
  exact runAll_plan env _ _ (arrived env c q)

/-! ### Requests at the same time -/

/-- A turn of a schedule: a request arrives, or a task is served for so many acts. -/
inductive Turn where
  | arrive (q : Request)
  | serve (i acts : Nat)

/-- The acts of the turns. -/
def turnsPlan (env : Env) : List Turn → State → List Act
  | [], _ => []
  | .arrive q :: turns, c => .arrive q :: turnsPlan env turns (arrived env c q)
  | .serve i acts :: turns, c =>
      plan env i acts c ++ turnsPlan env turns (serveAlone env i acts c)

/-- What the turns come to. -/
def inTurns (env : Env) : List Turn → State → State
  | [], c => c
  | .arrive q :: turns, c => inTurns env turns (arrived env c q)
  | .serve i acts :: turns, c => inTurns env turns (serveAlone env i acts c)

theorem runAll_turnsPlan (env : Env) (turns : List Turn) (c : State) :
    (machine env).runAll (turnsPlan env turns c) c = some (inTurns env turns c) := by
  induction turns generalizing c with
  | nil => rfl
  | cons turn turns ih =>
      cases turn with
      | arrive q =>
          rw [turnsPlan, Machine.runAll, Machine.step_arrive, Option.bind_some]
          exact ih (arrived env c q)
      | serve i acts =>
          rw [turnsPlan, Machine.runAll_append, runAll_plan, Option.bind_some]
          exact ih (serveAlone env i acts c)

/-- An act of the turns: an arrival, or the next act of a task that is served. -/
theorem mem_turnsPlan {env : Env} {turns : List Turn} {c : State} {l : Act}
    (h : l ∈ turnsPlan env turns c) :
    (∃ q, Turn.arrive q ∈ turns ∧ l = .arrive q) ∨
      ∃ i acts c', Turn.serve i acts ∈ turns ∧ l ∈ plan env i acts c' := by
  induction turns generalizing c with
  | nil => simp [turnsPlan] at h
  | cons turn turns ih =>
      have hlater : ∀ {c₁}, l ∈ turnsPlan env turns c₁ →
          (∃ q, Turn.arrive q ∈ turn :: turns ∧ l = .arrive q) ∨
            ∃ i acts c', Turn.serve i acts ∈ turn :: turns ∧ l ∈ plan env i acts c' := by
        intro c₁ h
        rcases ih h with ⟨q, hq, hl⟩ | ⟨i, acts, c', hi, hl⟩
        · exact Or.inl ⟨q, List.mem_cons_of_mem _ hq, hl⟩
        · exact Or.inr ⟨i, acts, c', List.mem_cons_of_mem _ hi, hl⟩
      cases turn with
      | arrive q =>
          rcases List.mem_cons.mp h with rfl | h
          · exact Or.inl ⟨q, List.mem_cons_self .., rfl⟩
          · exact hlater h
      | serve i acts =>
          rcases List.mem_append.mp h with h | h
          · exact Or.inr ⟨i, acts, c, List.mem_cons_self .., h⟩
          · exact hlater h

/-- Turns of tasks from position `n` on, whose requests are of a group. -/
theorem turnsPlan_together {env : Env} {n : Nat} {ofGroup : Request → Prop} {turns : List Turn}
    {c : State} (harrive : ∀ q, Turn.arrive q ∈ turns → ofGroup q)
    (hserve : ∀ i acts, Turn.serve i acts ∈ turns → n ≤ i) :
    ∀ l ∈ turnsPlan env turns c, Together n ofGroup l := by
  intro l hl
  rcases mem_turnsPlan hl with ⟨q, hq, rfl⟩ | ⟨i, acts, c', hi, hl⟩
  · exact harrive q hq
  · exact (plan_alone env i acts c' l hl).together (hserve i acts hi)

/-- What the turns come to is a run, under what holds along the plan. -/
theorem inTurns_reach {env : Env} {ok : State → Act → Prop} {turns : List Turn} {c : State}
    (hok : ∀ v ∈ (machine env).trace (turnsPlan env turns c) c, ok v.1 v.2) :
    (machine env).Reach ok c (inTurns env turns c) :=
  Machine.reach_of_runAll (runAll_turnsPlan env turns c) hok

/-- A run from a reachable state stays reachable. -/
theorem Reachable.extend {env : Env} {ok : State → Act → Prop} {c c' : State}
    (h : Reachable env c) (hrun : (machine env).Reach ok c c') : Reachable env c' := by
  obtain ⟨now, hreach⟩ := h
  exact ⟨now, hreach.trans (hrun.mono (fun _ _ _ => trivial))⟩

theorem arrived_reachable {env : Env} {c : State} (h : Reachable env c) (q : Request) :
    Reachable env (arrived env c q) := by
  obtain ⟨now, hreach⟩ := h
  exact ⟨now, hreach.tail trivial ((machine env).step_arrive c q)⟩

theorem request_reachable {env : Env} {c : State} (h : Reachable env c) (q : Request) :
    Reachable env (request env c q) :=
  (arrived_reachable h q).extend (request_reach env c q)

/-- A task found by its position, its request and its answer. -/
theorem exists_task {c : State} {i : Nat} {q : Request} {a : Answer}
    (hq : c.tasks[i]?.map Task.req = some q) (ha : c.tasks[i]?.bind Task.answer? = some a) :
    ∃ t ∈ c.tasks, t.req = q ∧ t.answer? = some a := by
  obtain ⟨t, ht, hreq⟩ := Option.map_eq_some_iff.mp hq
  rw [ht] at ha
  exact ⟨t, List.mem_of_getElem? ht, hreq, ha⟩

theorem boot_reachable (env : Env) (now : Timestamp) : Reachable env (boot env now) :=
  ⟨now, .refl⟩

/-! ### The service with its default settings -/

/-- `config/default.toml`, as far as the handlers read it. -/
def defaultSettings : Settings where
  tigerbeetle :=
    { batchMaxSize := 8190
      channelCapacity := 65536
      ledgerId := 1
      providerAccountCode := 100
      userAccountCode := 200
      systemAccountCode := 300
      transferCode := 1
      platformFeeAccountId := "00000000-0000-0000-0000-000000000001"
      cmsSettlementAccountId := "00000000-0000-0000-0000-000000000002" }
  provider :=
    { legalNameMin := 2
      legalNameMsg := "Legal name must be at least \x7bmin\x7d characters long."
      tradeNameMin := 2
      tradeNameMsg := "Trade name must be at least \x7bmin\x7d characters long."
      taxIdMin := 5
      taxIdMsg := "Tax ID must be at least \x7bmin\x7d characters long."
      emailRegex := "^[a-zA-Z0-9_.+-]+@[a-zA-Z0-9-]+\\.[a-zA-Z0-9-.]+$"
      emailMsg := "Invalid email format provided." }
  bootstrapServers := "localhost:9093"
  securityProtocol := "SASL_SSL"

/-- The default settings over the reference ledger, with libraries that know the
few inputs the examples use. -/
def defaultEnv : Env where
  settings := defaultSettings
  tb := .reference
  parseUuid s := [(⟨1⟩ : Uuid), ⟨2⟩].find? (fun u => u.toString = s)
  regex _ := some (fun s => s.toList.contains '@')
  certificate := none
  kafkaToJson k := "\x7b\"topic\":\"" ++ k.topic ++ "\"\x7d"
  kafkaFromJson _ := none
  priorityToJson d := "\x7b\"id\":\"" ++ d.config.id.toString ++ "\"\x7d"

/-- A request to create a provider that passes the validation. -/
def sampleProvider : CreateProviderRequest where
  isCore := none
  legalName := "Hotel Franziskaner"
  tradeName := "Franziskaner"
  taxId := "DE2571"
  emailAddress := "desk@hotel.de"
  officePhone := "0931"
  websiteUrl := none
  mailingAddress := "Franziskanerplatz 2"
  alertPhoneNumbers := none
  feeRateBps := none
  fixedFeeAmount := none

/-- The service after one provider was created, under the id 1002. -/
def oneProvider : State := request defaultEnv (boot defaultEnv 0) (.createProvider sampleProvider)

/-- And after a user, under the id 1008, was linked to it. -/
def oneUser : State :=
  request defaultEnv oneProvider (.createOrLink ⟨"0012345678", ⟨1002⟩, none, none⟩)

theorem oneUser_reachable : Reachable defaultEnv oneUser :=
  request_reachable (request_reachable (boot_reachable _ _) _) _

end Wurzburg.System
