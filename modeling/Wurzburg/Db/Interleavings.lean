import Wurzburg.Db.Statements

/-!
# Wurzburg.Db.Interleavings

The priorities in every state that calls of `create_priority_config`,
`cancel_active_priority_config` and `soft_delete_priority_config` reach, however
their statements are interleaved (`priorities_lifecycle`).

The invariant (`Store.Sound`) says of every transaction how far it has come
and what it has written by then; a move takes one transaction to its next stage,
and the others' stages stand.
-/

namespace Wurzburg.Db

open Wurzburg.Lib

/-- A database and the priority transactions on it. -/
abbrev PriorityStore := Store PriorityCall Unit

/-- What holds in every state of the store. -/
structure Store.Sound (st : PriorityStore) : Prop where
  priorities : Priorities st.pg
  providerIds : (st.pg.providers.map (·.id)).Nodup
  apart : st.sessions.Pairwise (fun s o => s.own.Apart o.own)
  stages : ∀ s ∈ st.sessions, ∃ φ : Stage, φ.Holds st.pg s ∧ s.call.Keeps φ s.rest
  created : ∀ c ∈ st.pg.configs, ∃ s ∈ st.sessions, s.Records st.pg c

/-! ### One move -/

/-- A move of a session: what is committed is the same, or it is what the session has
written; and the session goes on to another stage of the same call. -/
structure Session.Progress (s : PrioritySession) (pg : Pg) (s' : PrioritySession) (pg' : Pg) :
    Prop where
  tables : pg' = pg ∨ pg' = s.view pg ∧ s.Commits pg
  records : ∀ {pg₁ : Pg} {c : UserPriorityConfig}, s.Records pg₁ c → s'.Records pg₁ c
  stage : ∃ φ : Stage, φ.Holds pg' s' ∧ s'.call.Keeps φ s'.rest

theorem Session.Moves.progress {s s' : PrioritySession} {pg pg' : Pg} {m : Session.Move}
    {φ : Stage} (h : s.Moves pg m s' pg') (hp : Priorities pg) (hφ : φ.Holds pg s)
    (hkeeps : s.call.Keeps φ s.rest) : s.Progress pg s' pg' := by
  -- a transaction that ends with an error is undone
  have hundone : ∀ {e : Sql} {k : e.Resp → Prog Sql Sql.Resp (Except RepoError Unit)}
      {error : SqlError}, s.rest = .call e k →
        s.Progress pg (s.ended.goingOn (k (.error error))) pg := by
    intro e k error hrest
    rw [hrest] at hkeeps
    have hnext := hkeeps.2 (.error error)
    rw [show s.call.protocol.next φ e (.error error) = .undone from φ.next_error e error] at hnext
    exact ⟨Or.inl rfl, fun hrec => hrec, .undone, .undone (Session.has_empty rfl), hnext⟩
  cases h with
  | find =>
      refine ⟨Or.inl rfl, fun hrec => hrec, φ, ?_, hkeeps⟩
      exact hφ.of_same rfl rfl rfl rfl rfl (fun _ _ hhas => ⟨hhas.1, hhas.2, hhas.3, hhas.4⟩)
  | ran hrest hgoing hsight hexec =>
      rw [hrest] at hkeeps
      refine ⟨Or.inl rfl, fun hrec => hrec, _, ?_, hkeeps.2 _⟩
      refine (hφ.wrote hp hkeeps.1 hgoing hsight hexec).of_same rfl rfl rfl rfl rfl ?_
      exact fun _ _ hhas => ⟨hhas.1, hhas.2, hhas.3, hhas.4⟩
  | refused hrest hsight hexec => exact hundone hrest
  | committed hrest =>
      rw [hrest] at hkeeps
      have hcommits := hφ.commits hp hkeeps.1
      have hnext : φ.next .commit (.ok ()) = .committed := by cases φ <;> rfl
      have hrest' := hkeeps.2 (.ok ())
      rw [show s.call.protocol.next φ .commit (.ok ()) = .committed from hnext] at hrest'
      exact ⟨Or.inr ⟨rfl, hcommits⟩, fun hrec => hrec, .committed,
        .committed (Session.has_empty rfl) hcommits.records, hrest'⟩
  | rolledBack hrest =>
      rw [hrest] at hkeeps
      have hnext : φ.next .rollback (.ok ()) = .undone := by cases φ <;> rfl
      have hrest' := hkeeps.2 (.ok ())
      rw [show s.call.protocol.next φ .rollback (.ok ()) = .undone from hnext] at hrest'
      exact ⟨Or.inl rfl, fun hrec => hrec, .undone, .undone (Session.has_empty rfl), hrest'⟩
  | failed hrest => exact hundone hrest

/-! ### Every state -/

namespace Store.Sound

variable {st st' : PriorityStore}

/-- A database without priorities, whose providers have different ids. -/
theorem start {pg : Pg} (hconfigs : pg.configs = []) (hitems : pg.items = [])
    (hids : (pg.providers.map (·.id)).Nodup) : Sound (.start pg) where
  priorities := Priorities.empty.congr hconfigs hitems (fun _ h => absurd h List.not_mem_nil)
  providerIds := hids
  apart := .nil
  stages := fun s hs => absurd hs List.not_mem_nil
  created := fun c hc => by
    have hc : c ∈ pg.configs := hc
    rw [hconfigs] at hc
    cases hc

theorem begin (h : Sound st) (call : PriorityCall) (now : Timestamp) (uuid : Nat → Uuid) :
    Sound { st with sessions := st.sessions ++ [.begin call call.body now uuid] } where
  priorities := h.priorities
  providerIds := h.providerIds
  apart := by
    refine List.pairwise_append.mpr ⟨h.apart, List.pairwise_singleton _ _, ?_⟩
    intro s _ o ho
    rw [List.mem_singleton.mp ho]
    exact (Pg.apart_empty _).symm
  stages := fun s hs => by
    rcases List.mem_append.mp hs with hs | hs
    · exact h.stages s hs
    · rw [List.mem_singleton.mp hs]
      exact ⟨.opened, .opened rfl rfl (Session.has_empty rfl), call.body_keeps⟩
  created := fun c hc => by
    obtain ⟨s, hs, hrec⟩ := h.created c hc
    exact ⟨s, List.mem_append_left _ hs, hrec⟩

/-- The tables after a step. -/
theorem step (h : Sound st) {act : Store.Act PriorityCall}
    (hstep : st.step PriorityCall.body act = some st') :
    Sound st' ∧ Pg.Continues st.pg st'.pg := by
  cases act with
  | begin call now uuid =>
      obtain rfl := Option.some.inj hstep
      exact ⟨h.begin call now uuid, .refl _⟩
  | move i m =>
      have hmoved : ∀ s ∈ st.sessions, ∀ s', s.Moves st.pg m s' st'.pg →
          s.Progress st.pg s' st'.pg := by
        intro s hs s' hmoves
        obtain ⟨φ, hφ, hkeeps⟩ := h.stages s hs
        exact hmoves.progress h.priorities hφ hkeeps
      have helse : ∀ s s' o, s ∈ st.sessions → s.Moves st.pg m s' st'.pg →
          (∃ φ : Stage, φ.Holds st.pg o ∧ o.call.Keeps φ o.rest) → s.own.Apart o.own →
          ∃ φ : Stage, φ.Holds st'.pg o ∧ o.call.Keeps φ o.rest := by
        rintro s s' o hs hmoves ⟨ψ, hψ, hkeeps⟩ hso
        rcases (hmoved s hs s' hmoves).tables with hsame | ⟨hview, hcommits⟩
        · exact ⟨ψ, hsame ▸ hψ, hkeeps⟩
        · exact ⟨ψ, hview ▸ hψ.elsewhere hso hcommits, hkeeps⟩
      obtain ⟨hapart, hstages⟩ := Store.move_keeps
        (I := fun pg s => ∃ φ : Stage, φ.Holds pg s ∧ s.call.Keeps φ s.rest) hstep h.apart h.stages
        (fun s s' hs hmoves => (hmoved s (List.mem_of_getElem? hs) s' hmoves).stage) helse
      obtain ⟨s, s', others, hmoves, hperm, hperm', -⟩ := Store.step_move hstep
      have hmem : s ∈ st.sessions := hperm.mem_iff.mpr (List.mem_cons_self ..)
      have hprog := hmoved s hmem s' hmoves
      -- whoever recorded a configuration is still there
      have hcreator : ∀ {pg : Pg} {c : UserPriorityConfig}, (∃ o ∈ st.sessions, o.Records pg c) →
          ∃ o ∈ st'.sessions, o.Records pg c := by
        rintro pg c ⟨o, ho, hrec⟩
        rcases List.mem_cons.mp (hperm.mem_iff.mp ho) with rfl | ho
        · exact ⟨s', hperm'.mem_iff.mpr (List.mem_cons_self ..), hprog.records hrec⟩
        · exact ⟨o, hperm'.mem_iff.mpr (List.mem_cons_of_mem _ ho), hrec⟩
      rcases hprog.tables with hsame | ⟨hview, hcommits⟩
      · refine ⟨⟨hsame ▸ h.priorities, hsame ▸ h.providerIds, hapart, hstages, fun c hc => ?_⟩,
          hsame ▸ .refl _⟩
        rw [hsame] at hc ⊢
        exact hcreator (h.created c hc)
      · refine ⟨⟨hview ▸ hcommits.priorities, ?_, hapart, hstages, fun c' hc' => ?_⟩,
          hview ▸ hcommits.continues⟩
        · rw [hview, hcommits.providers]
          exact h.providerIds
        · rw [hview] at hc' ⊢
          rcases hcommits.fromOld c' hc' with ⟨c, hc, hlater⟩ | hrec
          · obtain ⟨o, ho, hrec⟩ := h.created c hc
            exact hcreator ⟨o, ho, hrec.later hc hlater hcommits.continues⟩
          · exact hcreator ⟨s, hmem, hrec⟩

/-- Every run. -/
theorem leads (h : Sound st) (hl : Store.Leads PriorityCall.body st st') :
    Sound st' ∧ Pg.Continues st.pg st'.pg := by
  induction hl with
  | refl => exact ⟨h, .refl _⟩
  | step act _ hstep ih =>
      obtain ⟨hsound, hc⟩ := ih
      obtain ⟨hsound', hc'⟩ := hsound.step hstep
      exact ⟨hsound', hc.trans hc'⟩

end Store.Sound

/-! ### The lifecycle -/

/-- What holds of the priorities in a state and in a later one. -/
structure Store.Lifecycle (st st' : PriorityStore) : Prop where
  oneActive : ∀ userId : Uuid,
    (st.pg.configs.filter (fun c => c.userId = userId ∧ c.status = .active)).length ≤ 1
  /-- A status changes only from `ACTIVE` to `CANCELLED`. -/
  configs : ∀ c ∈ st.pg.configs, ∃ c' ∈ st'.pg.configs, c.Later c'
  /-- Items change only in their deletion marks. -/
  items : ∀ c ∈ st.pg.configs, (st'.pg.rowsOf c.id).map PriorityItemRow.unmarked =
    (st.pg.rowsOf c.id).map PriorityItemRow.unmarked
  /-- They are the items of the call, numbered from 1. -/
  created : ∀ c ∈ st.pg.configs, ∃ s ∈ st.sessions, ∃ key items expiresAt actor,
    s.call = .create key c.userId items expiresAt actor ∧
      (st.pg.rowsOf c.id).map PriorityItemRow.unmarked = itemRows c.id s.now s.uuid 0 items ∧
      (st.pg.rowsOf c.id).map (·.priorityOrder) =
        (List.range items.length).map (fun i : Nat => (i : Int) + 1) ∧
      ((st.pg.rowsOf c.id).map (·.providerId)).Nodup
  /-- A creation that has succeeded has left its configuration. -/
  succeeded : ∀ s ∈ st.sessions, s.rest = .ret (.ok ()) →
    ∀ key userId items expiresAt actor, s.call = .create key userId items expiresAt actor →
      ∃ c ∈ st.pg.configs, s.Records st.pg c
  /-- `get_all_priority_configs` lists what was ever committed and is not deleted. -/
  listed : ∀ (userId : Uuid) (now : Timestamp) (uuid : Nat → Uuid), ∃ details,
    (getAllPriorityConfigs userId).transact st'.pg now uuid = (.ok details, st'.pg, 0) ∧
      (details.map (·.config)).Perm
        (st'.pg.configs.filter (fun c => c.userId = userId ∧ c.isDeleted = false)) ∧
      (∀ d ∈ details, st'.pg.ReadAs (st'.pg.liveRows d.config.id) d.items ∧
        d.items.Pairwise (fun i j => i.priorityOrder < j.priorityOrder)) ∧
      ∀ c ∈ st.pg.configs, c.userId = userId → ∃ c' ∈ st'.pg.configs, c.Later c' ∧
        (c'.isDeleted = false → ∃ d ∈ details, d.config = c')

theorem Priorities.active_le_one {pg : Pg} (h : Priorities pg) (userId : Uuid) :
    (pg.configs.filter (fun c => c.userId = userId ∧ c.status = .active)).length ≤ 1 := by
  have hrows : ∀ c ∈ pg.configs, (decide (c.userId = userId ∧ c.status = .active)) =
      Pg.isCurrent userId c := by
    intro c hc
    simp [Pg.isCurrent, h.kept c hc]
  rw [List.filter_congr hrows, h.current_eq (List.Sublist.refl _)]
  cases (pg.configs.filter (Pg.isCurrent userId)).head? <;> simp

/-- What `get_all_priority_configs` returns. -/
theorem Priorities.listed {pg : Pg} (h : Priorities pg)
    (hids : (pg.providers.map (·.id)).Nodup) (userId : Uuid) :
    (((pg.configsOf userId).map (fun c => (⟨c, pg.itemsOf c.id⟩ : UserPriorityDetails))).map
        (·.config)).Perm
      (pg.configs.filter (fun c => c.userId = userId ∧ c.isDeleted = false)) ∧
    ∀ d ∈ (pg.configsOf userId).map (fun c => (⟨c, pg.itemsOf c.id⟩ : UserPriorityDetails)),
      pg.ReadAs (pg.liveRows d.config.id) d.items ∧
        d.items.Pairwise (fun i j => i.priorityOrder < j.priorityOrder) := by
  have hperm : (pg.configsOf userId).Perm
      (pg.configs.filter (fun c => c.userId = userId ∧ c.isDeleted = false)) :=
    List.perm_insertionSort _ _
  constructor
  · rw [List.map_map]
    refine (List.map_id _).symm ▸ hperm
  · intro d hd
    obtain ⟨c, hc, rfl⟩ := List.mem_map.mp hd
    exact h.readAs_itemsOf hids (List.mem_of_mem_filter (hperm.mem_iff.mp hc))

/-- **The lifecycle of priorities.** From a database without priorities, whatever calls
are made and however their statements are interleaved. -/
theorem priorities_lifecycle {pg : Pg} {st st' : PriorityStore} (hconfigs : pg.configs = [])
    (hitems : pg.items = []) (hids : (pg.providers.map (·.id)).Nodup)
    (h : Store.Leads PriorityCall.body (.start pg) st)
    (h' : Store.Leads PriorityCall.body st st') : Store.Lifecycle st st' := by
  obtain ⟨hsound, -⟩ := (Store.Sound.start hconfigs hitems hids).leads h
  obtain ⟨hsound', hc⟩ := hsound.leads h'
  have hp := hsound.priorities
  refine ⟨hp.active_le_one, fun c hmem => hc.mem hmem, hc.items, fun c hmem => ?_,
    fun s hs hrest key u items expiresAt a hcall => ?_, fun u now uuid => ?_⟩
  · obtain ⟨s, hs, key, u, items, expiresAt, a, hcall, hlater, hrows⟩ := hsound.created c hmem
    have hid : c.id = s.uuid 0 := hlater.id_eq
    have huser : c.userId = u := by
      rw [hlater.row]
      rfl
    have hnum := hp.numbered c hmem
    have hlength : (st.pg.rowsOf c.id).length = items.length := by
      have hmap := congrArg List.length hrows
      rwa [List.length_map, itemRows_length] at hmap
    refine ⟨s, hs, key, items, expiresAt, a, huser ▸ hcall, hid ▸ hrows, ?_, hnum.providers⟩
    rw [← hlength]
    exact hnum.orders
  · obtain ⟨φ, hφ, hkeeps⟩ := hsound.stages s hs
    rw [hrest] at hkeeps
    have hends : s.call.ends φ (.ok ()) := hkeeps
    rw [hcall] at hends
    obtain rfl : φ = .committed := hends.2 trivial rfl
    cases hφ with
    | committed has records => exact records key u items expiresAt a hcall
  · obtain ⟨hperm, hread⟩ := hsound'.priorities.listed hsound'.providerIds u
    refine ⟨_, getAllPriorityConfigs_transact u st'.pg now uuid, hperm, hread, ?_⟩
    intro c hmem huser
    obtain ⟨c', hmem', hlater⟩ := hc.mem hmem
    refine ⟨c', hmem', hlater, fun hkept => ?_⟩
    have huser' : c'.userId = u := by
      rw [hlater.row]
      exact huser
    have hlisted : c' ∈ st'.pg.configs.filter (fun c => c.userId = u ∧ c.isDeleted = false) :=
      List.mem_filter.mpr ⟨hmem', by simp [huser', hkept]⟩
    obtain ⟨d, hd, hdc⟩ := List.mem_map.mp (hperm.mem_iff.mpr hlisted)
    exact ⟨d, hd, hdc⟩

/-! ### Two creations at once -/

/-- A provider with these ids. -/
def namedProvider (id ledgerAccountId : Uuid) : Provider where
  id := id
  isCore := false
  legalName := "Hotel Franziskaner"
  tradeName := "Franziskaner"
  taxId := "DE2571"
  emailAddress := "desk@hotel.de"
  officePhone := "0931"
  websiteUrl := none
  mailingAddress := "Franziskanerplatz 2"
  alertPhoneNumbers := []
  bannerImageId := none
  profileImageId := none
  isActive := true
  feeRateBps := 0
  fixedFeeAmount := 0
  kafkaConfig := "{}"
  ledgerAccountId := ledgerAccountId
  createdAt := 0
  updatedAt := 0

/-- Two providers and a user. -/
def twoProviders : Pg :=
  { Pg.empty with
    providers := [namedProvider ⟨1⟩ ⟨11⟩, namedProvider ⟨2⟩ ⟨12⟩]
    users := [⟨⟨7⟩, "0012345678", "{}", 0, 0⟩] }

def createFor (k : Nat) (providers : List Uuid) : Store.Act PriorityCall :=
  .begin
    (.create ("key" ++ toString k) ⟨7⟩
      (providers.map (fun p => ⟨p, .multiUse, 50, ⟨21⟩, ⟨11⟩⟩)) none ⟨9⟩)
    k (fun n => ⟨BitVec.ofNat 128 (100 * k + n)⟩)

/-- The second creation looks for a configuration in force before the first commits one. -/
def raceActs : List (Store.Act PriorityCall) :=
  [createFor 1 [⟨1⟩, ⟨2⟩], createFor 2 [⟨2⟩], .move 0 .run, .move 1 .run, .move 0 .find,
   .move 1 .find, .move 0 .run, .move 1 .run, .move 0 .run, .move 1 .run, .move 0 .run,
   .move 0 .run, .move 0 .run, .move 0 .commit, .move 1 .run]

/-- Another creation, a deletion and a cancellation follow. -/
def laterActs : List (Store.Act PriorityCall) :=
  [createFor 3 [⟨2⟩, ⟨1⟩], .move 2 .run, .move 2 .find, .move 2 .run, .move 2 .run, .move 2 .run,
   .move 2 .run, .move 2 .run, .move 2 .commit,
   .begin (.softDelete ⟨300⟩) 4 (fun _ => ⟨400⟩), .move 3 .find, .move 3 .run,
   .begin (.cancel ⟨7⟩ ⟨9⟩) 5 (fun _ => ⟨500⟩), .move 4 .run, .move 4 .find, .move 4 .run,
   .move 4 .run, .move 4 .commit]

def afterRace : PriorityStore := Store.run PriorityCall.body (.start twoProviders) raceActs

def afterAll : PriorityStore := Store.run PriorityCall.body afterRace laterActs

theorem priorities_lifecycle_race :
    (afterRace.pg.configs.map (·.status) = [.active] ∧
      afterAll.pg.configs.map (·.status) = [.cancelled, .cancelled] ∧
      afterAll.pg.items.map (·.priorityOrder) = [1, 2, 1, 2]) ∧
    Store.Lifecycle afterRace afterAll :=
  ⟨by decide +kernel,
    priorities_lifecycle rfl rfl (by decide) (.run (.start twoProviders) raceActs)
      (.run afterRace laterActs)⟩

end Wurzburg.Db
