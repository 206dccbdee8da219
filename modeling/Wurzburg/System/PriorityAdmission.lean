import Wurzburg.Db.Admission
import Wurzburg.System.PriorityReplacement
import Wurzburg.System.ReportedBalances

/-!
# Wurzburg.System.PriorityAdmission

Which priority requests are created, when they run alone.

What a request may ask for is stated twice in the source: by the checks of the
handler (`PassesChecks`) and by the constraints of the tables (`Insertable`).
The checks come before the first write and are answered with 400 or 422; what
passes them and is refused by the tables fails only after the earlier priority
is gone. The two together are compared with what the request is about
(`Admissible`).

The balances of the whole list are asked for in one lookup. The client refuses one
with more ids than a call may carry, as many as a full batch (`batch_max_size`), and
the request is then answered 500; that is a call that fails, and no run without
failures contains it.
-/

namespace Wurzburg.System

open Wurzburg.Lib Wurzburg.Db Wurzburg.Tb Wurzburg.Api

/-! ### Three statements of what is admissible -/

/-- The user is linked to the provider. -/
def IsLinked (pg : Pg) (u p : Uuid) : Prop := ∃ ua ∈ pg.userAccounts, ua.pair = (u, p)

/-- The ledger account of the user at the provider. -/
def LedgerAccount (pg : Pg) (l : Ledger) (u p : Uuid) (a : Account) : Prop :=
  ∃ ua ∈ pg.userAccounts, ua.pair = (u, p) ∧ l.account? ua.ledgerAccountId.asU128 = some a

/-- What a priority request is about: a key, and different linked providers whose accounts
cover what is asked for. -/
structure Admissible (pg : Pg) (l : Ledger) (u : Uuid) (header : Option String)
    (priorities : List PriorityItemRequest) : Prop where
  listed : priorities ≠ []
  key : ∃ key, usableKey header = some key ∧ key.length ≤ 255
  providers : (priorities.map (·.providerId)).Nodup
  linked : ∀ item ∈ priorities, IsLinked pg u item.providerId
  funded : ∀ item ∈ priorities, ∃ a, LedgerAccount pg l u item.providerId a ∧
    0 ≤ item.maxAmount ∧ item.maxAmount ≤ (a.creditsPosted : Int) - a.debitsPosted

/-- The account covers the item, as the handler computes it: the difference is saturating, and
it is narrowed to `i64`. -/
def Covered (pg : Pg) (l : Ledger) (u : Uuid) (item : PriorityItemRequest) : Prop :=
  ∃ a, LedgerAccount pg l u item.providerId a ∧
    item.maxAmount ≤ asI64 (a.creditsPosted - a.debitsPosted)

/-- What the handler checks before it writes. -/
structure PassesChecks (pg : Pg) (l : Ledger) (u : Uuid) (header : Option String)
    (priorities : List PriorityItemRequest) : Prop where
  listed : priorities ≠ []
  key : ∃ key, usableKey header = some key
  linked : ∀ item ∈ priorities, IsLinked pg u item.providerId
  covered : ∀ item ∈ priorities, Covered pg l u item

/-- What the tables check, apart from what the handler has made sure of. -/
structure Insertable (header : Option String) (priorities : List PriorityItemRequest)
    (expiresAt : Option Timestamp) : Prop where
  expiry : expiresAt.all timestampOk = true
  key : ∀ key, header = some key → key.length ≤ 255
  amounts : ∀ item ∈ priorities, 0 ≤ item.maxAmount
  providers : (priorities.map (·.providerId)).Nodup
  count : priorities.length < 2 ^ 31

/-- How a request under an unused key is answered. -/
inductive Outcome (pg : Pg) (l : Ledger) (u : Uuid) (header : Option String)
    (priorities : List PriorityItemRequest) (expiresAt : Option Timestamp) (status : StatusCode) :
    Prop
  | refused : ¬ PassesChecks pg l u header priorities →
      status = .badRequest ∨ status = .unprocessableEntity →
      Outcome pg l u header priorities expiresAt status
  | created : PassesChecks pg l u header priorities → Insertable header priorities expiresAt →
      status = .created → Outcome pg l u header priorities expiresAt status
  | failed : PassesChecks pg l u header priorities → ¬ Insertable header priorities expiresAt →
      status = .conflict ∨ status = .internalServerError →
      Outcome pg l u header priorities expiresAt status

/-! ### The lookups -/

/-- A linked user is found with the account the tables have. -/
theorem linked_details {pg : Pg} (h : Tables pg) {u p : Uuid} {ua : UserAccount}
    (hua : ua ∈ pg.userAccounts) (hpair : ua.pair = (u, p)) :
    ∃ d, (pg.userProviderDetails u p).head? = some d ∧
      d.userLedgerAccountId = ua.ledgerAccountId := by
  obtain ⟨hu, hp⟩ := Prod.mk.inj hpair
  obtain ⟨user, huser, huid⟩ := h.accountUser ua hua
  obtain ⟨provider, hprovider, hpid⟩ := h.accountProvider ua hua
  have hlink : (u, p) ∈ pg.userProviders.map UserProvider.pair := by
    rw [h.links, ← hpair]
    exact List.mem_map_of_mem hua
  obtain ⟨up, hup, hlinked⟩ := List.mem_map.mp hlink
  obtain ⟨hup₁, hup₂⟩ := Prod.mk.inj hlinked
  obtain ⟨d, hmem⟩ : ∃ d, d ∈ pg.userProviderDetails u p := by
    simp only [Pg.userProviderDetails, List.mem_flatMap, List.mem_map, List.mem_filter,
      decide_eq_true_eq]
    exact ⟨_, user, ⟨huser, huid.trans hu⟩, up, ⟨hup, (huid.trans hu).trans hup₁.symm, hup₂⟩,
      ua, ⟨hua, huid, hp⟩, provider, ⟨hprovider, (hpid.trans hp).trans hup₂.symm⟩, rfl⟩
  obtain ⟨d, ds, hcons⟩ := List.exists_cons_of_ne_nil (List.ne_nil_of_mem hmem)
  have hmem : d ∈ pg.userProviderDetails u p := by
    rw [hcons]
    exact List.mem_cons_self ..
  obtain ⟨-, -, ua', hua', hpair', hid⟩ := Pg.mem_userProviderDetails hmem
  obtain rfl : ua' = ua := List.inj_on_of_nodup_map h.accountPairs hua' hua (hpair'.trans hpair.symm)
  exact ⟨d, by rw [hcons]; rfl, hid.symm⟩

/-- An item with the account that its lookup returned. -/
def ResolvedFrom (pg : Pg) (u : Uuid) (r : ResolvedItem) : Prop :=
  ∃ d, (pg.userProviderDetails u r.item.providerId).head? = some d ∧
    r.userLedgerId = d.userLedgerAccountId

theorem ResolvedFrom.linked {pg : Pg} {u : Uuid} {r : ResolvedItem} (h : ResolvedFrom pg u r) :
    ∃ ua ∈ pg.userAccounts, ua.pair = (u, r.item.providerId) ∧
      ua.ledgerAccountId = r.userLedgerId := by
  obtain ⟨d, hd, hid⟩ := h
  obtain ⟨-, -, ua, hua, hpair, hledger⟩ := Pg.mem_userProviderDetails (List.mem_of_head? hd)
  exact ⟨ua, hua, hpair, hledger.trans hid.symm⟩

/-- The funds test of an item, on the accounts that were looked up. -/
theorem fundsError_eq_none {l : Ledger} {resolved : List ResolvedItem} {r : ResolvedItem}
    (hr : r ∈ resolved) :
    fundsError (l.lookupAccounts (resolved.map (·.userLedgerId.asU128))) r = none ↔
      ∃ a, l.account? r.userLedgerId.asU128 = some a ∧
        r.item.maxAmount ≤ asI64 (a.creditsPosted - a.debitsPosted) := by
  have hid : r.userLedgerId.asU128 ∈ resolved.map (·.userLedgerId.asU128) :=
    List.mem_map_of_mem hr
  unfold fundsError
  rw [find?_reverse_lookupAccounts hid]
  cases l.account? r.userLedgerId.asU128 with
  | none => simp
  | some a =>
      by_cases hless : asI64 (a.creditsPosted - a.debitsPosted) < r.item.maxAmount
      · simp [hless]
      · simp only [hless, if_false, true_iff]
        exact ⟨a, rfl, Int.not_lt.mp hless⟩

/-- An item is covered exactly when its resolution passes the funds test. -/
theorem covered_iff {pg : Pg} (h : Tables pg) {l : Ledger} {u : Uuid} {r : ResolvedItem}
    (hr : ResolvedFrom pg u r) : Covered pg l u r.item ↔
      ∃ a, l.account? r.userLedgerId.asU128 = some a ∧
        r.item.maxAmount ≤ asI64 (a.creditsPosted - a.debitsPosted) := by
  obtain ⟨ua, hua, hpair, hledger⟩ := hr.linked
  rw [← hledger]
  constructor
  · rintro ⟨a, ⟨ua', hua', hpair', hacc⟩, hle⟩
    obtain rfl : ua' = ua :=
      List.inj_on_of_nodup_map h.accountPairs hua' hua (hpair'.trans hpair.symm)
    exact ⟨a, hacc, hle⟩
  · rintro ⟨a, hacc, hle⟩
    exact ⟨a, ⟨ua, hua, hpair, hacc⟩, hle⟩

/-! ### The checks, from rest -/

section

variable {env : Env} {live : Prop} {pg : Pg} {l : Ledger} {issued : List (Uuid × IdUse)}
  {w : World} {u : Uuid} {γ : Type} {post : Except HttpError γ → World → Prop}

/-- The lookups find an account for every item, or leave an error for one that has none. -/
theorem resolveAccounts_total (htables : Tables pg) (priorities : List PriorityItemRequest)
    (h : AtRest pg l issued w) :
    (alone env (fun _ => True) live).TotalE (fun out t => AtRest pg l issued t ∧
        (out.2 = [] ∧ out.1.map (·.item) = priorities ∧ (∀ r ∈ out.1, ResolvedFrom pg u r) ∨
          out.2 ≠ [] ∧ ¬ ∀ item ∈ priorities, IsLinked pg u item.providerId)) post
      (resolveAccounts u priorities) w := by
  induction priorities generalizing w with
  | nil =>
      refine Setting.TotalE.pure (h.forever trivial (fun t ht => ⟨ht, Or.inl ⟨rfl, rfl, ?_⟩⟩))
      exact fun r hr => absurd hr List.not_mem_nil
  | cons item items ih =>
      refine Setting.TotalE.bind
        (M := fun (found : Except RepoError (Option UserProviderDetails)) t =>
          found = .ok (pg.userProviderDetails u item.providerId).head? ∧ AtRest pg l issued t)
        (tryDb_read_total h trivial (getUserProviderDetails_transact u item.providerId pg)
          (fun t ht => ⟨rfl, ht⟩)) (fun found t hfound => ?_)
      obtain ⟨-, rfl, hrest⟩ := hfound t .refl
      refine Setting.TotalE.bind (ih hrest) (fun out t hout => ?_)
      obtain ⟨-, hrest, hcases⟩ := hout t .refl
      obtain ⟨resolved, errors⟩ := out
      cases hdetails : (pg.userProviderDetails u item.providerId).head? with
      | none =>
          refine Setting.TotalE.pure (hrest.forever trivial (fun t ht => ⟨ht, Or.inr ⟨?_, ?_⟩⟩))
          · exact List.cons_ne_nil _ _
          · intro hall
            obtain ⟨ua, hua, hpair⟩ := hall item (List.mem_cons_self ..)
            obtain ⟨d, hd, -⟩ := linked_details htables hua hpair
            rw [hdetails] at hd
            cases hd
      | some details =>
          refine Setting.TotalE.pure (hrest.forever trivial (fun t ht => ⟨ht, ?_⟩))
          rcases hcases with ⟨herrors, hitems, hall⟩ | ⟨herrors, hnot⟩
          · refine Or.inl ⟨herrors, congrArg (item :: ·) hitems, ?_⟩
            exact List.forall_mem_cons.mpr ⟨⟨details, hdetails, rfl⟩, hall⟩
          · exact Or.inr ⟨herrors, fun hall => hnot (fun i hi => hall i (List.mem_cons_of_mem _ hi))⟩

/-- All the funds tests of resolved items pass exactly when all items are covered. -/
theorem fundsErrors_isEmpty (htables : Tables pg) {resolved : List ResolvedItem}
    (hall : ∀ r ∈ resolved, ResolvedFrom pg u r) :
    (resolved.filterMap (fundsError (l.lookupAccounts
      (resolved.map (·.userLedgerId.asU128))))).isEmpty = true ↔
      ∀ item ∈ resolved.map (·.item), Covered pg l u item := by
  rw [List.isEmpty_iff, List.filterMap_eq_nil_iff, List.forall_mem_map]
  refine forall₂_congr (fun r hr => ?_)
  rw [fundsError_eq_none hr, covered_iff htables (hall r hr)]

/-- The checks let the items pass exactly when all are linked and covered. -/
theorem checkItems_total (htables : Tables pg) (priorities : List PriorityItemRequest)
    (h : AtRest pg l issued w) (hlive : live → 0 < env.settings.tigerbeetle.channelCapacity)
    (hpost : ¬ ((∀ item ∈ priorities, IsLinked pg u item.providerId) ∧
      ∀ item ∈ priorities, Covered pg l u item) →
      ∀ text t, post (.error (.unprocessableEntity, text)) t) :
    (alone env (fun _ => True) live).TotalE (fun resolved t => AtRest pg l issued t ∧
        resolved.map (·.item) = priorities ∧ (∀ r ∈ resolved, ResolvedFrom pg u r) ∧
        ∀ item ∈ priorities, Covered pg l u item) post (checkItems u priorities) w := by
  refine Setting.TotalE.bind (resolveAccounts_total htables priorities h) (fun out t hout => ?_)
  obtain ⟨-, hrest, hcases⟩ := hout t .refl
  obtain ⟨resolved, errors⟩ := out
  rcases hcases with ⟨herrors, hitems, hresolved⟩ | ⟨herrors, hnot⟩
  · obtain rfl : errors = [] := herrors
    obtain rfl : resolved.map (·.item) = priorities := hitems
    refine Setting.TotalE.bind
      (M := fun rs t => rs = l.lookupAccounts (resolved.map (·.userLedgerId.asU128)) ∧
        AtRest pg l issued t)
      (orFail_total (submit_total hrest trivial hlive (fun t ht => ⟨rfl, ht⟩))) (fun rs t hrs => ?_)
    obtain ⟨-, rfl, hrest⟩ := hrs t .refl
    by_cases hfunds : (resolved.filterMap (fundsError (l.lookupAccounts
        (resolved.map (·.userLedgerId.asU128))))).isEmpty = true
    · show (alone env _ live).TotalE _ post (ite _ _ _) t
      rw [if_pos hfunds]
      refine Setting.TotalE.pure (hrest.forever trivial (fun t ht => ⟨ht, rfl, hresolved, ?_⟩))
      exact (fundsErrors_isEmpty htables hresolved).mp hfunds
    · show (alone env _ live).TotalE _ post (ite _ _ _) t
      rw [if_neg hfunds]
      refine Setting.TotalE.throw (fun t' _ => ⟨trivial, hpost (fun hall => ?_) _ t'⟩)
      exact hfunds ((fundsErrors_isEmpty htables hresolved).mpr hall.2)
  · have hnonempty : ¬ errors.isEmpty = true := fun h => herrors (List.isEmpty_iff.mp h)
    show (alone env _ live).TotalE _ post (ite _ _ _) t
    rw [if_neg hnonempty]
    exact Setting.TotalE.throw (fun t' _ => ⟨trivial, hpost (fun hall => hnot hall.1) _ t'⟩)

/-! ### The writes, from rest -/

theorem ttlNow_total {keeps : Pg → Prop} (expiresAt : Option Timestamp)
    (h : AtRest pg l issued w) (hk : keeps pg) :
    (alone env keeps live).TotalE (fun _ t => AtRest pg l issued t) post (ttlNow expiresAt) w := by
  cases expiresAt with
  | none => exact Setting.TotalE.pure (h.forever hk (fun _ ht => ht))
  | some e =>
      refine Setting.Total.bind (perform_total (Q := fun _ t => AtRest pg l issued t) h hk
        (fun _ t _ => ?_) (fun t ch r t' ht hch hx => ?_)) (fun at_ t ht => ht)
      · exact ⟨⟨.none, fun _ => ⟨0⟩⟩, _, rfl, rfl⟩
      · obtain ⟨-, rfl⟩ := Prod.mk.inj (Option.some.inj hx)
        exact ht.forever hk (fun _ ht => ht)

/-- What a lone creation needs to make progress: room in the channel, and UUIDs that were not
generated before. -/
def CanCreate (env : Env) (issued : List (Uuid × IdUse)) (n : Nat) : Prop :=
  0 < env.settings.tigerbeetle.channelCapacity ∧
    ∃ uuid : Nat → Uuid, Unissued issued ((List.range (n + 1)).map uuid)

/-- The tables take the expiry, the key and the items. -/
def Fits (key : String) (resolved : List ResolvedItem) (expiresAt : Option Timestamp) : Prop :=
  expiresAt.all timestampOk = true ∧ varcharOk 255 key = true ∧
    SoundItems (resolved.map ResolvedItem.data)

theorem createError_status (e : RepoError) :
    (createError e).1 = .conflict ∨ (createError e).1 = .internalServerError := by
  unfold createError
  split
  · exact Or.inl rfl
  · exact Or.inr rfl

variable {key : String} {resolved : List ResolvedItem}

/-- The creation succeeds exactly when the tables take it. -/
theorem publishPriority_total (expiresAt : Option Timestamp) (h : AtRest pg l issued w)
    (hready : pg.Ready key u (resolved.map ResolvedItem.data))
    (hnew : ∀ ids, Unissued issued ids → pg.NewIds ids)
    (hlive : live → CanCreate env issued resolved.length)
    (hpost : ¬ Fits key resolved expiresAt → ∀ e t, e.1 = .conflict ∨ e.1 = .internalServerError →
      post (.error e) t) :
    (alone env (fun _ => True) live).TotalE
      (fun out _ => out.1 = .created ∧ Fits key resolved expiresAt) post
      (publishPriority env u key resolved expiresAt) w := by
  refine Setting.TotalE.bind
    (M := fun _ t => Fits key resolved expiresAt ∧ ∃ pg' issued', AtRest pg' l issued' t)
    (orFail_total (dbEff_total h trivial (fun hl now => ?_)
      (fun now uuid r pg' n htx hfresh => ⟨trivial, fun t ht => ?_⟩))) (fun d t hd => ?_)
  · obtain ⟨-, uuid, hids⟩ := hlive hl
    cases htx : (createPriorityConfig key u (resolved.map ResolvedItem.data) expiresAt u).transact
        pg now uuid with
    | mk r out =>
        obtain ⟨pg', n⟩ := out
        refine ⟨uuid, r, pg', n, htx, ?_⟩
        have hle := createPriorityConfig_drawn htx
        rw [List.length_map] at hle
        have hsub : ((List.range n).map uuid).Sublist ((List.range (resolved.length + 1)).map uuid) :=
          (List.range_sublist.mpr hle).map uuid
        exact ⟨hids.1.sublist hsub, fun id hid => hids.2 id (hsub.subset hid)⟩
  · have hiff := hready.creates_iff htx (hnew _ hfresh)
    cases r with
    | ok d => exact ⟨hiff.mp ⟨d, rfl⟩, _, _, ht⟩
    | error e =>
        refine hpost (fun hfits => ?_) _ t (createError_status e)
        obtain ⟨d, hd⟩ := hiff.mpr hfits
        cases hd
  · obtain ⟨-, hfits, pg', issued', hrest⟩ := hd t .refl
    refine Setting.TotalE.bind (ttlNow_total expiresAt hrest trivial) (fun at_ t hat => ?_)
    obtain ⟨-, hrest⟩ := hat t .refl
    refine Setting.TotalE.bind (M := fun _ t => AtRest pg' l issued' t)
      (redis_total hrest trivial (fun _ ht => ht)) (fun _ t _ => ?_)
    exact Setting.TotalE.pure (fun t' _ => ⟨trivial, rfl, hfits⟩)

theorem replacePriority_total (expiresAt : Option Timestamp) (h : AtRest pg l issued w)
    (hready : pg.Ready key u (resolved.map ResolvedItem.data))
    (hnew : ∀ ids, Unissued issued ids → pg.NewIds ids)
    (hlive : live → CanCreate env issued resolved.length)
    (hpost : ¬ Fits key resolved expiresAt → ∀ e t, e.1 = .conflict ∨ e.1 = .internalServerError →
      post (.error e) t) :
    (alone env (fun _ => True) live).TotalE
      (fun out _ => out.1 = .created ∧ Fits key resolved expiresAt) post
      (replacePriority env u key resolved expiresAt) w := by
  refine Setting.TotalE.bind (M := fun _ t => AtRest pg l issued t)
    (redis_total h trivial (fun _ ht => ht)) (fun _ t ht => ?_)
  obtain ⟨-, hrest⟩ := ht t .refl
  refine Setting.TotalE.bind (M := fun _ t => AtRest pg l issued t)
    (redis_total hrest trivial (fun _ ht => ht)) (fun _ t ht => ?_)
  obtain ⟨-, hrest⟩ := ht t .refl
  refine Setting.TotalE.bind
    (M := fun (found : DbCall.Row (.getActivePriorityConfig u)) t =>
      found = pg.activeDetails? u ∧ AtRest pg l issued t)
    (db_read_total hrest trivial (getActivePriorityConfig_transact u pg) (fun t ht => ⟨rfl, ht⟩))
    (fun found t hfound => ?_)
  obtain ⟨-, rfl, hrest⟩ := hfound t .refl
  by_cases hactive : (pg.activeDetails? u).isSome = true
  · show (alone env _ live).TotalE _ post (ite _ _ _) t
    rw [if_pos hactive]
    refine Setting.TotalE.bind (M := fun _ t => ∃ now, AtRest (pg.cancelActive u u now) l issued t)
      (db_sure_total hrest trivial (cancelActivePriorityConfig_transact u u pg)
        (fun now => trivial) (fun now t' ht' => ⟨now, ht'⟩)) (fun _ t hcancel => ?_)
    obtain ⟨-, now, hrest⟩ := hcancel t .refl
    exact publishPriority_total expiresAt hrest (hready.cancelActive u u now)
      (fun ids hids => (hnew ids hids).cancelActive u u now) hlive hpost
  · show (alone env _ live).TotalE _ post (ite _ _ _) t
    rw [if_neg hactive]
    exact publishPriority_total expiresAt hrest hready hnew hlive hpost

/-! ### A request, from rest -/

/-- What the tables take of the resolved items is what they take of the request. -/
theorem fits_iff {header : Option String} {priorities : List PriorityItemRequest}
    {expiresAt : Option Timestamp}
    (hkey : usableKey header = some key) (htext : textOk key = true)
    (hitems : resolved.map (·.item) = priorities) :
    Fits key resolved expiresAt ↔ Insertable header priorities expiresAt := by
  have hheader : header = some key := (Option.filter_eq_some_iff.mp hkey).1
  have hproviders : (resolved.map ResolvedItem.data).map (·.providerId) =
      priorities.map (·.providerId) := by
    rw [← hitems, List.map_map, List.map_map]
    rfl
  have hcount : (resolved.map ResolvedItem.data).length = priorities.length := by
    rw [← hitems, List.length_map, List.length_map]
  have hamounts : (∀ item ∈ resolved.map ResolvedItem.data, 0 ≤ item.maxAmount) ↔
      ∀ item ∈ priorities, 0 ≤ item.maxAmount := by
    rw [← hitems, List.forall_mem_map, List.forall_mem_map]
    rfl
  unfold Fits varcharOk
  rw [htext, Bool.true_and, decide_eq_true_eq]
  constructor
  · rintro ⟨hexpiry, hlength, hsound⟩
    refine ⟨hexpiry, fun k hk => ?_, hamounts.mp hsound.amounts, hproviders ▸ hsound.providers,
      hcount ▸ hsound.count⟩
    rw [hheader] at hk
    rwa [← Option.some.inj hk]
  · intro h
    exact ⟨h.expiry, h.key key hheader, hamounts.mpr h.amounts, hproviders ▸ h.providers, hcount ▸ h.count⟩

/-- What is resolved and under a new key can be created. -/
theorem ready_of_resolved (htables : Tables pg) (hpriorities : Priorities pg)
    (hunused : ∀ c ∈ pg.configs, c.idempotencyKey ≠ key) (hlisted : resolved ≠ [])
    (hall : ∀ r ∈ resolved, ResolvedFrom pg u r) :
    pg.Ready key u (resolved.map ResolvedItem.data) := by
  refine ⟨hpriorities, hunused, ?_, fun item hitem => ?_⟩
  · obtain ⟨r, rs, rfl⟩ := List.exists_cons_of_ne_nil hlisted
    obtain ⟨ua, hua, hpair, -⟩ := (hall r (List.mem_cons_self ..)).linked
    obtain ⟨user, huser, hid⟩ := htables.accountUser ua hua
    exact ⟨user, huser, hid.trans (Prod.mk.inj hpair).1⟩
  · obtain ⟨r, hr, rfl⟩ := List.mem_map.mp hitem
    obtain ⟨ua, hua, hpair, -⟩ := (hall r hr).linked
    obtain ⟨p, hp, hid⟩ := htables.accountProvider ua hua
    exact ⟨p, hp, hid.trans (Prod.mk.inj hpair).2⟩

/-- The status that a result is answered with. -/
def resultStatus : Except HttpError (StatusCode × PriorityConfigResponse) → StatusCode
  | .ok (status, _) => status
  | .error (status, _) => status

theorem status_mapped (r : Except HttpError (StatusCode × PriorityConfigResponse)) :
    Answer.status (r.map (fun out => (out.1, Body.priority out.2))) = resultStatus r := by
  cases r <;> rfl

variable {header : Option String} {payload : CreatePriorityRequest}

/-- The checks of the items and the writes, for a usable key that was not used. -/
theorem checked_total (htables : Tables pg) (hpriorities : Priorities pg)
    (hkey : usableKey header = some key) (htext : textOk key = true)
    (hunused : ∀ c ∈ pg.configs, c.idempotencyKey ≠ key) (hlisted : payload.priorities ≠ [])
    (hnew : ∀ ids, Unissued issued ids → pg.NewIds ids)
    (hlive : live → CanCreate env issued payload.priorities.length) (h : AtRest pg l issued w) :
    (alone env (fun _ => True) live).TotalE
      (fun out _ =>
        Outcome pg l u header payload.priorities payload.expiresAt (resultStatus (.ok out)))
      (fun r _ => Outcome pg l u header payload.priorities payload.expiresAt (resultStatus r))
      (checkItems u payload.priorities >>= fun resolved =>
        replacePriority env u key resolved payload.expiresAt) w := by
  refine Setting.TotalE.bind (checkItems_total htables payload.priorities h
    (fun hl => (hlive hl).1) (fun hfail text t => ?_)) (fun resolved t hresolved => ?_)
  · exact .refused (fun hc => hfail ⟨hc.linked, hc.covered⟩) (Or.inr rfl)
  · obtain ⟨-, hrest, hitems, hall, hcovered⟩ := hresolved t .refl
    have hpasses : PassesChecks pg l u header payload.priorities := by
      refine ⟨hlisted, ⟨key, hkey⟩, fun item hitem => ?_, hcovered⟩
      rw [← hitems] at hitem
      obtain ⟨r, hr, rfl⟩ := List.mem_map.mp hitem
      obtain ⟨ua, hua, hpair, -⟩ := (hall r hr).linked
      exact ⟨ua, hua, hpair⟩
    have hfits : Fits key resolved payload.expiresAt ↔
        Insertable header payload.priorities payload.expiresAt :=
      fits_iff hkey htext hitems
    have hnonempty : resolved ≠ [] := fun hnil => hlisted (by rw [← hitems, hnil]; rfl)
    have hcount : resolved.length = payload.priorities.length := by rw [← hitems, List.length_map]
    refine (replacePriority_total payload.expiresAt hrest
      (ready_of_resolved htables hpriorities hunused hnonempty hall) hnew
      (fun hl => hcount ▸ hlive hl) (fun hnot e t he => ?_)).weaken (fun out t hout => ?_)
    · exact .failed hpasses (fun hi => hnot (hfits.mpr hi)) he
    · exact .created hpasses (hfits.mp hout.2) hout.1

/-- **How a priority request under an unused key ends.** -/
theorem createUserPriority_total (htables : Tables pg) (hpriorities : Priorities pg)
    (htext : ∀ key, header = some key → textOk key = true)
    (hunused : ∀ key, usableKey header = some key → ∀ c ∈ pg.configs, c.idempotencyKey ≠ key)
    (hnew : ∀ ids, Unissued issued ids → pg.NewIds ids)
    (hlive : live → CanCreate env issued payload.priorities.length) (h : AtRest pg l issued w) :
    (alone env (fun _ => True) live).Total
      (fun r _ => Outcome pg l u header payload.priorities payload.expiresAt (resultStatus r))
      (createUserPriority env u header payload).run w := by
  unfold createUserPriority
  by_cases hempty : payload.priorities.isEmpty = true
  · rw [if_pos hempty]
    refine Setting.TotalE.total (Setting.TotalE.throw (fun t _ => ⟨trivial, ?_⟩))
    exact .refused (fun hc => hc.listed (List.isEmpty_iff.mp hempty)) (Or.inl rfl)
  rw [if_neg hempty]
  have hlisted : payload.priorities ≠ [] := fun hnil => hempty (List.isEmpty_iff.mpr hnil)
  cases hkey : usableKey header with
  | none =>
      refine Setting.TotalE.total (Setting.TotalE.throw (fun t _ => ⟨trivial, ?_⟩))
      refine .refused (fun hc => ?_) (Or.inl rfl)
      obtain ⟨key, hsome⟩ := hc.key
      rw [hkey] at hsome
      cases hsome
  | some key =>
      have hheader : header = some key := (Option.filter_eq_some_iff.mp hkey).1
      have hnone : pg.configByKey? key = none :=
        List.find?_eq_none.mpr (fun c hc => by simp [hunused key hkey c hc])
      rw [orElse_some_bind]
      refine Setting.TotalE.total (Setting.TotalE.bind
        (M := fun (found : Except RepoError (Option UserPriorityDetails)) t =>
          found = .ok none ∧ AtRest pg l issued t)
        (tryDb_read_total h trivial (getPriorityConfigByIdempotencyKey_transact key pg)
          (fun t ht => ⟨by rw [hnone]; rfl, ht⟩)) (fun found t hfound => ?_))
      obtain ⟨-, rfl, hrest⟩ := hfound t .refl
      exact checked_total htables hpriorities hkey (htext key hheader) (hunused key hkey) hlisted
        hnew hlive hrest

end

/-! ### What a refused request has done -/

/-- Nothing was written. -/
def ReadsOnly (hist : History) : Prop := ∀ ev ∈ hist, ev.eff.isRead

/-- A result with status 400 or 422 comes before the first write. -/
def RefusedEarly {γ : Type} (hist : History) (r : Except HttpError γ) : Prop :=
  ∀ e, r = .error e → e.1 = .badRequest ∨ e.1 = .unprocessableEntity → ReadsOnly hist

/-- The statuses of a request that succeeded. -/
def Succeeds (status : StatusCode) : Prop := status = .created ∨ status = .ok

section

variable {env : Env} {u : Uuid} {γ δ : Type} {hist : History} {key : String}
  {resolved : List ResolvedItem}

theorem refusedEarly_of_status {e : HttpError} (h : e.1 = .conflict ∨ e.1 = .internalServerError) :
    RefusedEarly hist (.error e : Except HttpError γ) := by
  intro e' he hstatus
  obtain rfl := Except.error.inj he
  rcases h with h | h <;> simp [h] at hstatus

/-- A part that only reads. -/
theorem reads_ends {x : Handler δ} (hx : Prog.UsesE Eff.isRead x) (h : ReadsOnly hist) :
    Prog.EndsE (fun hist _ => ReadsOnly hist)
      (fun hist (r : Except HttpError γ) => RefusedEarly hist r) hist x := by
  have hends := Prog.Ends.of_uses (P := ReadsOnly) (fun hist e r he hall ev hev => by
    rcases List.mem_append.mp hev with hev | hev
    · exact hall ev hev
    · rw [List.mem_singleton.mp hev]
      exact he) hx h
  refine hends.weaken (fun hist r hreads => ?_)
  cases r with
  | ok a => exact hreads
  | error e => exact fun _ _ _ => hreads

theorem publishPriority_refusedEarly (expiresAt : Option Timestamp) :
    Prog.EndsE (fun _ out => Succeeds out.1)
      (fun hist (r : Except HttpError γ) => RefusedEarly hist r) hist
      (publishPriority env u key resolved expiresAt) := by
  intro r
  cases r with
  | error e => exact refusedEarly_of_status (createError_status e)
  | ok d =>
      cases expiresAt with
      | none =>
          intro r
          cases r with
          | error e => exact refusedEarly_of_status (Or.inr rfl)
          | ok _ => exact Or.inl rfl
      | some t =>
          intro at_ r
          cases r with
          | error e => exact refusedEarly_of_status (Or.inr rfl)
          | ok _ => exact Or.inl rfl

theorem replacePriority_refusedEarly (expiresAt : Option Timestamp) :
    Prog.EndsE (fun _ out => Succeeds out.1)
      (fun hist (r : Except HttpError γ) => RefusedEarly hist r) hist
      (replacePriority env u key resolved expiresAt) := by
  intro r
  cases r with
  | error e => exact refusedEarly_of_status (Or.inr rfl)
  | ok _ =>
      intro r
      cases r with
      | error e => exact refusedEarly_of_status (Or.inr rfl)
      | ok _ =>
          intro r
          cases r with
          | error e => exact refusedEarly_of_status (Or.inr rfl)
          | ok found =>
              cases found with
              | none => exact publishPriority_refusedEarly expiresAt
              | some d =>
                  intro r
                  cases r with
                  | error e => exact refusedEarly_of_status (Or.inr rfl)
                  | ok _ => exact publishPriority_refusedEarly expiresAt

theorem createUserPriority_refusedEarly (header : Option String) (payload : CreatePriorityRequest)
    (h : ReadsOnly hist) :
    Prog.EndsE (fun _ out => Succeeds out.1)
      (fun hist (r : Except HttpError γ) => RefusedEarly hist r) hist
      (createUserPriority env u header payload) := by
  unfold createUserPriority
  split
  · exact fun _ _ _ => h
  · refine (reads_ends orElse_uses h).bind (fun h₁ key hread => ?_)
    have hknown : Prog.UsesE Eff.isRead (tryDb (.getPriorityConfigByIdempotencyKey key)) :=
      tryDb_uses trivial
    refine (reads_ends hknown hread).bind (fun h₂ known hread => ?_)
    split
    · exact Or.inr rfl
    · exact (reads_ends (checkItems_uses ..) hread).bind (fun h₃ resolved _ =>
        replacePriority_refusedEarly payload.expiresAt)

end

/-- Every answer of 400 or 422 to a priority request comes before the first write. -/
theorem serve_refusedEarly (env : Env) (q : Request) :
    (serve env q).Ends (fun hist a => ∀ u header payload,
      q = .createUserPriority u header payload →
      a.status = .badRequest ∨ a.status = .unprocessableEntity → ReadsOnly hist) [] := by
  cases q with
  | createUserPriority u header payload =>
      have hnothing : ReadsOnly [] := fun ev hev => absurd hev List.not_mem_nil
      have hends : Prog.EndsE (fun _ out => Succeeds out.1)
          (fun hist (r : Except HttpError (StatusCode × PriorityConfigResponse)) =>
            RefusedEarly hist r) [] (createUserPriority env u header payload) :=
        createUserPriority_refusedEarly header payload hnothing
      refine answerWith_ends hends ?_ ?_
      · rintro hist ⟨status, body⟩ hout _ _ _ _ hstatus
        obtain rfl | rfl := hout <;> rcases hstatus with h | h <;> cases h
      · intro hist e hearly _ _ _ _ hstatus
        exact hearly e rfl hstatus
  | _ => exact Prog.Ends.of_forall (fun _ _ _ _ _ hq => by cases hq) _

/-! ### Where the statements agree -/

/-- A balance narrowed to `i64` is not more than the balance, from zero on. -/
theorem wrap64_le {b : Int} (h : 0 ≤ b) : wrap64 b ≤ b := by
  unfold wrap64
  by_cases hfits : b < 2 ^ 63
  · rw [Int.bmod_eq_of_le_mul_two] <;> omega
  · have hlt : Int.bmod b (2 ^ 64) < ((2 ^ 64 : Nat) + 1) / 2 := Int.bmod_lt (by decide)
    omega

/-- The difference of the handler, where the debits do not exceed the credits. -/
theorem asI64_sub {c d : Nat} (h : d ≤ c) : asI64 (c - d) = wrap64 ((c : Int) - d) := by
  rw [asI64, Int.natCast_sub h]

section

variable {env : Env} {c : State} {u : Uuid} {header : Option String}
  {priorities : List PriorityItemRequest} {expiresAt : Option Timestamp}

/-- Accounts of users are not overdrawn. -/
theorem LedgerAccount.solvent (h : Reachable env c) {p : Uuid} {a : Account}
    (ha : LedgerAccount c.world.pg c.world.worker.ledger u p a) :
    a.debitsPosted ≤ a.creditsPosted := by
  obtain ⟨ua, hua, -, hacc⟩ := ha
  obtain ⟨hsolvent, -, -⟩ := users_solvent h ua hua
  exact (hsolvent a (List.mem_of_find?_eq_some hacc) (Ledger.account?_id hacc)).2.1

/-- What passes the checks and fits the tables is admissible. -/
theorem PassesChecks.admissible (h : Reachable env c)
    (hc : PassesChecks c.world.pg c.world.worker.ledger u header priorities)
    (hi : Insertable header priorities expiresAt) :
    Admissible c.world.pg c.world.worker.ledger u header priorities := by
  obtain ⟨key, hkey⟩ := hc.key
  have hheader : header = some key := (Option.filter_eq_some_iff.mp hkey).1
  refine ⟨hc.listed, ⟨key, hkey, hi.key key hheader⟩, hi.providers, hc.linked, fun item hitem => ?_⟩
  obtain ⟨a, ha, hle⟩ := hc.covered item hitem
  have hsolvent : a.debitsPosted ≤ a.creditsPosted := ha.solvent h
  rw [asI64_sub hsolvent] at hle
  exact ⟨a, ha, hi.amounts item hitem, hle.trans (wrap64_le (by omega))⟩

/-- The answer is what the request is about: 201 exactly for what is admissible, and anything
else is refused before a write. -/
def AdmitsExactly (pg : Pg) (l : Ledger) (u : Uuid) (header : Option String)
    (priorities : List PriorityItemRequest) (hist : History) (a : Answer) : Prop :=
  (a.status = .created ↔ Admissible pg l u header priorities) ∧
    (¬ Admissible pg l u header priorities →
      (a.status = .badRequest ∨ a.status = .unprocessableEntity) ∧ ReadsOnly hist)

/-- What passes the checks of the handler fits the tables, and nothing admissible fails them:
no balance, narrowed to `i64`, falls short of what the exact one covers. -/
structure ChecksExact (pg : Pg) (l : Ledger) (u : Uuid) (header : Option String)
    (priorities : List PriorityItemRequest) (expiresAt : Option Timestamp) : Prop where
  insertable : PassesChecks pg l u header priorities → Insertable header priorities expiresAt
  narrowed : Admissible pg l u header priorities → ∀ item ∈ priorities, ∀ a,
    LedgerAccount pg l u item.providerId a →
      item.maxAmount ≤ wrap64 ((a.creditsPosted : Int) - a.debitsPosted)

theorem LedgerAccount.unique {pg : Pg} {l : Ledger} (htables : Tables pg) {p : Uuid} {a b : Account}
    (ha : LedgerAccount pg l u p a) (hb : LedgerAccount pg l u p b) : a = b := by
  obtain ⟨ua, hua, hpair, hacc⟩ := ha
  obtain ⟨ub, hub, hpair', hacc'⟩ := hb
  obtain rfl : ua = ub :=
    List.inj_on_of_nodup_map htables.accountPairs hua hub (hpair.trans hpair'.symm)
  exact Option.some.inj (hacc.symm.trans hacc')

/-- An admissible request passes the checks unless a balance is narrowed below the item. -/
theorem Admissible.passesChecks (h : Reachable env c)
    (hadm : Admissible c.world.pg c.world.worker.ledger u header priorities)
    (hexact : ChecksExact c.world.pg c.world.worker.ledger u header priorities expiresAt) :
    PassesChecks c.world.pg c.world.worker.ledger u header priorities := by
  obtain ⟨key, hkey, -⟩ := hadm.key
  refine ⟨hadm.listed, ⟨key, hkey⟩, hadm.linked, fun item hitem => ?_⟩
  obtain ⟨a, ha, -⟩ := hadm.funded item hitem
  refine ⟨a, ha, ?_⟩
  rw [asI64_sub (ha.solvent h)]
  exact hexact.narrowed hadm item hitem a ha

section

variable {pg : Pg} {l : Ledger} {status : StatusCode}

theorem Outcome.created_iff (h : Outcome pg l u header priorities expiresAt status) :
    status = .created ↔ PassesChecks pg l u header priorities ∧
      Insertable header priorities expiresAt := by
  cases h with
  | refused hnot hstatus =>
      refine ⟨fun heq => ?_, fun hc => absurd hc.1 hnot⟩
      rcases hstatus with h | h <;> rw [h] at heq <;> cases heq
  | created hc hi hstatus => exact ⟨fun _ => ⟨hc, hi⟩, fun _ => hstatus⟩
  | failed _ hnot hstatus =>
      refine ⟨fun heq => ?_, fun hc => absurd hc.2 hnot⟩
      rcases hstatus with h | h <;> rw [h] at heq <;> cases heq

theorem Outcome.refused_iff (h : Outcome pg l u header priorities expiresAt status) :
    status = .badRequest ∨ status = .unprocessableEntity ↔ ¬ PassesChecks pg l u header priorities := by
  cases h with
  | refused hnot hstatus => exact ⟨fun _ => hnot, fun _ => hstatus⟩
  | created hc _ hstatus =>
      refine ⟨fun heq => ?_, fun hnot => absurd hc hnot⟩
      rw [hstatus] at heq
      rcases heq with h | h <;> cases h
  | failed hc _ hstatus =>
      refine ⟨fun heq => ?_, fun hnot => absurd hc hnot⟩
      rcases hstatus with h | h <;> rw [h] at heq <;> rcases heq with h' | h' <;> cases h'

end

/-- An outcome is what the request is about exactly where the checks are exact. -/
theorem Outcome.exact_iff (h : Reachable env c) {hist : History} {a : Answer}
    (hout : Outcome c.world.pg c.world.worker.ledger u header priorities expiresAt a.status)
    (hreads : a.status = .badRequest ∨ a.status = .unprocessableEntity → ReadsOnly hist) :
    AdmitsExactly c.world.pg c.world.worker.ledger u header priorities hist a ↔
      ChecksExact c.world.pg c.world.worker.ledger u header priorities expiresAt := by
  constructor
  · rintro ⟨hiff, hrefused⟩
    rw [hout.created_iff] at hiff
    refine ⟨fun hc => ?_, fun hadm item hitem a ha => ?_⟩
    · by_cases hadm : Admissible c.world.pg c.world.worker.ledger u header priorities
      · exact (hiff.mpr hadm).2
      · exact absurd hc (hout.refused_iff.mp (hrefused hadm).1)
    · obtain ⟨b, hb, hle⟩ := (hiff.mpr hadm).1.covered item hitem
      obtain rfl := hb.unique h.inv.tables ha
      rwa [asI64_sub (hb.solvent h)] at hle
  · intro hexact
    refine ⟨hout.created_iff.trans ⟨fun ⟨hc, hi⟩ => hc.admissible h hi, fun hadm => ?_⟩,
      fun hnot => ?_⟩
    · have hc := hadm.passesChecks h hexact
      exact ⟨hc, hexact.insertable hc⟩
    · have hstatus := hout.refused_iff.mpr (fun hc => hnot (hc.admissible h (hexact.insertable hc)))
      exact ⟨hstatus, hreads hstatus⟩

end

/-- **Admission of a priority request** under an unused key, alone and without failures: with a
list that one lookup may carry it can always be brought to its answer, and the answer is what
the request is about exactly where the checks of the handler are exact. -/
theorem admitsExactly_iff {env : Env} {c : State} {u : Uuid} {header : Option String}
    {payload : CreatePriorityRequest} (h : Reachable env c) (hcalm : Calm c.world)
    (htext : ∀ key, header = some key → textOk key = true)
    (hunused : ∀ key, usableKey header = some key →
      ∀ config ∈ c.world.pg.configs, config.idempotencyKey ≠ key) :
    (payload.priorities.length ≤ env.settings.tigerbeetle.batchMaxSize →
      CanCreate env c.world.issued payload.priorities.length → ∃ c' t a,
      (machine env).Reach (fun _ l => Alone c.tasks.length l)
        (arrived env c (.createUserPriority u header payload)) c' ∧
      c'.tasks[c.tasks.length]? = some t ∧ t.answer? = some a) ∧
    ∀ c' t a, (machine env).Reach (fun _ l => Alone c.tasks.length l)
        (arrived env c (.createUserPriority u header payload)) c' →
      c'.tasks[c.tasks.length]? = some t → t.answer? = some a →
      (AdmitsExactly c.world.pg c.world.worker.ledger u header payload.priorities t.hist a ↔
        ChecksExact c.world.pg c.world.worker.ledger u header payload.priorities
          payload.expiresAt) := by
  have hids := h.idsIssued
  have hnew : ∀ ids, Unissued c.world.issued ids → c.world.pg.NewIds ids :=
    fun ids hfresh => ⟨hfresh.1, fun config hc hid => hfresh.2 _ hid (hids.configs config hc),
      fun i hi hid => hfresh.2 _ hid (hids.items i hi)⟩
  have hserve : ∀ live : Prop,
      (live → CanCreate env c.world.issued payload.priorities.length) →
      (alone env (fun _ => True) live).Total
        (fun a _ => Outcome c.world.pg c.world.worker.ledger u header payload.priorities
          payload.expiresAt a.status)
        (serve env (.createUserPriority u header payload)) c.world := by
    intro live hlive
    refine Setting.Total.weaken (answerWith_mapped_total Body.priority
      (createUserPriority_total h.inv.tables h.priorities htext hunused hnew hlive
        (h.inv.atRest hcalm))) ?_
    rintro a t ⟨r, rfl, hr⟩
    rw [status_mapped]
    exact hr
  have htask := arrived_task env c (.createUserPriority u header payload)
  refine ⟨fun _ hcan => ?_, fun c' t a hrun ht ha => ?_⟩
  · exact Setting.Total.finishes (S := alone env (fun _ => True) True) trivial htask
      (hserve True (fun _ => hcan))
  · obtain ⟨hist, p, ht', htotal⟩ := (hserve False False.elim).run htask hrun
    have hout := (hserve False False.elim).answered htask hrun ht ha
    obtain rfl := Option.some.inj (ht.symm.trans ht')
    obtain ⟨now, hreach⟩ := (arrived_reachable h _).extend hrun
    exact hout.exact_iff h (hreach.answer_ends (serve_refusedEarly env) rfl
      (List.mem_of_getElem? ht) ha u header payload rfl)

/-- The priority of the example is admitted. -/
theorem admitsExactly_createPriority :
    ∃ t a, (request defaultEnv oneCredit createPriority).tasks[oneCredit.tasks.length]? = some t ∧
      t.answer? = some a ∧ AdmitsExactly oneCredit.world.pg oneCredit.world.worker.ledger ⟨1008⟩
        (some "k1") [⟨⟨1002⟩, 100, .multiUse⟩] t.hist a := by
  have hscene : (Calm oneCredit.world ∧ oneCredit.world.pg.configs = []) ∧
      ((request defaultEnv oneCredit createPriority).tasks[oneCredit.tasks.length]?.bind
        Task.answer?).isSome = true ∧
      ∀ ua ∈ oneCredit.world.pg.userAccounts,
        (oneCredit.world.worker.ledger.account? ua.ledgerAccountId.asU128).map
          (fun a => (a.creditsPosted, a.debitsPosted)) = some (500, 0) := by
    decide +kernel
  obtain ⟨⟨hcalm, hnone⟩, hanswered, haccounts⟩ := hscene
  obtain ⟨a, ha⟩ := Option.isSome_iff_exists.mp hanswered
  obtain ⟨t, ht, ha⟩ := Option.bind_eq_some_iff.mp ha
  have hexact : ChecksExact oneCredit.world.pg oneCredit.world.worker.ledger ⟨1008⟩ (some "k1")
      [⟨⟨1002⟩, 100, .multiUse⟩] none := by
    refine ⟨fun _ => ⟨rfl, fun key hkey => ?_, by decide, by decide, by decide⟩,
      fun _ item hitem a ha => ?_⟩
    · rw [← Option.some.inj hkey]
      decide
    · obtain ⟨ua, hua, -, hacc⟩ := ha
      have hposted := haccounts ua hua
      rw [hacc] at hposted
      obtain ⟨hcredits, hdebits⟩ := Prod.mk.inj (Option.some.inj hposted)
      rw [List.mem_singleton.mp hitem, hcredits, hdebits]
      decide
  refine ⟨t, a, ht, ha, ((admitsExactly_iff oneCredit_reachable hcalm ?_ ?_).2 _ t a
    (request_reach defaultEnv oneCredit createPriority) ht ha).mpr hexact⟩
  · intro key hkey
    rw [← Option.some.inj hkey]
    decide
  · intro key _ config hconfig
    rw [hnone] at hconfig
    cases hconfig

/-- A list with a provider twice is answered 500, after the earlier priority was cancelled. -/
theorem listedTwice_not_refused :
    ¬ ∀ (env : Env) (c : State) (u : Uuid) (header : Option String)
      (payload : CreatePriorityRequest), Reachable env c → Calm c.world →
      (∀ key, header = some key → textOk key = true) →
      (∀ key, usableKey header = some key →
        ∀ config ∈ c.world.pg.configs, config.idempotencyKey ≠ key) →
      ∀ c' t a, (machine env).Reach (fun _ l => Alone c.tasks.length l)
          (arrived env c (.createUserPriority u header payload)) c' →
        c'.tasks[c.tasks.length]? = some t → t.answer? = some a →
        AdmitsExactly c.world.pg c.world.worker.ledger u header payload.priorities t.hist a := by
  intro hall
  have hscene : Calm onePriority.world ∧
      (failedWith (request defaultEnv onePriority listedTwice) onePriority.tasks.length).map
        Prod.fst = some .internalServerError ∧
      onePriority.world.pg.configs.map (·.idempotencyKey) = ["k1"] := by
    decide +kernel
  obtain ⟨hcalm, hfailed, hkeys⟩ := hscene
  obtain ⟨⟨status, text⟩, he, hstatus⟩ := Option.map_eq_some_iff.mp hfailed
  obtain rfl : status = .internalServerError := hstatus
  obtain ⟨t, ht, ha⟩ := exists_failed he
  have htext : ∀ key, some "k2" = some key → textOk key = true := by
    intro key hkey
    rw [← Option.some.inj hkey]
    decide
  have hunused : ∀ key, usableKey (some "k2") = some key →
      ∀ config ∈ onePriority.world.pg.configs, config.idempotencyKey ≠ key := by
    intro key hkey config hconfig heq
    have hheader : some "k2" = some key := (Option.filter_eq_some_iff.mp hkey).1
    have hmem : config.idempotencyKey ∈ onePriority.world.pg.configs.map (·.idempotencyKey) :=
      List.mem_map_of_mem hconfig
    rw [hkeys, List.mem_singleton, heq, ← Option.some.inj hheader] at hmem
    exact absurd hmem (by decide)
  obtain ⟨-, hrefused⟩ := hall defaultEnv onePriority ⟨1008⟩ (some "k2")
    ⟨[⟨⟨1002⟩, 100, .multiUse⟩, ⟨⟨1002⟩, 50, .multiUse⟩], none⟩ onePriority_reachable hcalm htext
    hunused _ t _ (request_reach defaultEnv onePriority listedTwice) ht ha
  obtain ⟨hstatus, -⟩ := hrefused (fun hadm => absurd hadm.providers (by decide))
  rcases hstatus with h | h <;> cases h

end Wurzburg.System
