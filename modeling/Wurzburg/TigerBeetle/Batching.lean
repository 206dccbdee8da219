import Wurzburg.TigerBeetle.WorkerInv

/-!
# Wurzburg.TigerBeetle.Batching

Who gets whose result. Every responder of a batch is sent the batch's whole
result list, so what a caller learns depends on the company its command had.

`KindHistory.own_iff` is the common argument: whatever "an answer that is about
the item at this position" means, all answers of a run are of that sort exactly
when every answered batch is. What that asks of one batch is worked out for
creations (`Submitted.ownResult_iff`) and for lookups (`oneFound_iff`).
-/

namespace Wurzburg.Tb

/-! ### From batches to runs -/

/-- All answers of a kind are about the item they are sent for exactly when
every batch answered with `Ok` is good, where `Good` is what the property asks
of a batch. `Sent r rs` says that `r` was sent `Ok(rs)`. -/
theorem KindHistory.own_iff {α γ : Type} {received : List (α × ResponderId)} {buf : Buffer α}
    {log : List (Submitted α)} (hk : KindHistory received buf log)
    (hnodup : (received.map Prod.snd).Nodup) {serve : Ledger → List α → List γ × Ledger}
    {Sent : ResponderId → List γ → Prop} {Own : Submitted α → Nat → α → List γ → Prop}
    {Good : Submitted α → Prop}
    (hsent : ∀ r rs, Sent r rs ↔
      ∃ s ∈ log, r ∈ s.responders ∧ s.outcome = .ok ∧ rs = (serve s.before s.items).1)
    (hbatch : ∀ s : Submitted α,
      (∀ i x, s.items[i]? = some x → Own s i x (serve s.before s.items).1) ↔ Good s) :
    (∀ x r rs, (x, r) ∈ received → Sent r rs →
      ∃ s ∈ log, ∃ i : Nat, s.items[i]? = some x ∧ s.responders[i]? = some r ∧ Own s i x rs) ↔
    ∀ s ∈ log, s.outcome = .ok → Good s := by
  constructor
  · intro hown s hs hok
    refine (hbatch s).mp (fun i x hx => ?_)
    have hir : i < s.responders.length := by
      have := hk.submitted s hs
      have := (List.getElem?_eq_some_iff.mp hx).1
      omega
    have hr := List.getElem?_eq_getElem hir
    have hmem := List.mem_of_getElem? hr
    obtain ⟨s', hs', i', hx', hr', hown'⟩ := hown _ _ _ (hk.mem_received hs hx hr)
      ((hsent _ _).mpr ⟨s, hs, hmem, hok, rfl⟩)
    -- the answer sent to this responder can only be the one of its own batch
    obtain rfl := hk.batch_unique hnodup hs hs' hmem (List.mem_of_getElem? hr')
    obtain rfl := hk.position_unique hnodup hs hr hr'
    exact hown'
  · intro hgood x r rs hx hr
    obtain ⟨s, hs, hrs, hok, rfl⟩ := (hsent r rs).mp hr
    obtain ⟨i, hxi, hri⟩ := hk.position hnodup hx hs hrs
    exact ⟨s, hs, i, hxi, hri, (hbatch s).mpr (hgood s hs hok) i x hxi⟩

namespace Worker

variable {tb : TigerBeetle} {w : Worker} {r : ResponderId}

theorem Answers.transfers_iff (ha : Answers tb w) {rs : List AppCreateTransfersResult} :
    (r, .createTransfers (.ok rs)) ∈ w.replies ↔ ∃ s ∈ w.transferLog, r ∈ s.responders ∧
      s.outcome = .ok ∧ rs = (serveTransfers tb s.before s.items).1 := by
  constructor
  · intro h
    generalize hreply : TbReply.createTransfers (.ok rs) = reply at h
    cases ha.sound _ h with
    | transfers hs hr =>
        exact ⟨_, hs, hr, Submitted.results_eq_ok.mp (TbReply.createTransfers.inj hreply).symm⟩
    | _ => simp at hreply
  · rintro ⟨s, hs, hr, hok⟩
    have h := ha.transfers s hs r hr
    rwa [show transferResults tb s = .ok rs from Submitted.results_eq_ok.mpr hok] at h

theorem Answers.accounts_iff (ha : Answers tb w) {rs : List AppCreateAccountsResult} :
    (r, .createAccounts (.ok rs)) ∈ w.replies ↔ ∃ s ∈ w.accountLog, r ∈ s.responders ∧
      s.outcome = .ok ∧ rs = (serveAccounts tb s.before s.items).1 := by
  constructor
  · intro h
    generalize hreply : TbReply.createAccounts (.ok rs) = reply at h
    cases ha.sound _ h with
    | accounts hs hr =>
        exact ⟨_, hs, hr, Submitted.results_eq_ok.mp (TbReply.createAccounts.inj hreply).symm⟩
    | _ => simp at hreply
  · rintro ⟨s, hs, hr, hok⟩
    have h := ha.accounts s hs r hr
    rwa [show accountResults tb s = .ok rs from Submitted.results_eq_ok.mpr hok] at h

theorem Answers.lookupAccs_iff (ha : Answers tb w) {rs : List AppAccount} :
    (r, .accounts (.ok rs)) ∈ w.replies ↔ ∃ s ∈ w.lookupAccLog, r ∈ s.responders ∧
      s.outcome = .ok ∧ rs = (serveLookupAccounts s.before s.items).1 := by
  constructor
  · intro h
    generalize hreply : TbReply.accounts (.ok rs) = reply at h
    cases ha.sound _ h with
    | lookupAcc hs hr =>
        exact ⟨_, hs, hr, Submitted.results_eq_ok.mp (TbReply.accounts.inj hreply).symm⟩
    | _ => simp at hreply
  · rintro ⟨s, hs, hr, hok⟩
    have h := ha.lookupAccs s hs r hr
    rwa [show lookupAccResults s = .ok rs from Submitted.results_eq_ok.mpr hok] at h

theorem Answers.lookupTxs_iff (ha : Answers tb w) {rs : List AppTransfer} :
    (r, .transfers (.ok rs)) ∈ w.replies ↔ ∃ s ∈ w.lookupTxLog, r ∈ s.responders ∧
      s.outcome = .ok ∧ rs = (serveLookupTransfers s.before s.items).1 := by
  constructor
  · intro h
    generalize hreply : TbReply.transfers (.ok rs) = reply at h
    cases ha.sound _ h with
    | lookupTx hs hr =>
        exact ⟨_, hs, hr, Submitted.results_eq_ok.mp (TbReply.transfers.inj hreply).symm⟩
    | _ => simp at hreply
  · rintro ⟨s, hs, hr, hok⟩
    have h := ha.lookupTxs s hs r hr
    rwa [show lookupTxResults s = .ok rs from Submitted.results_eq_ok.mpr hok] at h

end Worker

/-! ### Creations -/

section Creation

variable {α β : Type} (create : Ledger → β → Except Nat Ledger) (toTb : α → β)

/-- The server's verdict on the item at a position of a submitted batch: `none`
inside for an accepted one. -/
def Submitted.verdict (s : Submitted α) (i : Nat) : Option (Option Nat) :=
  (verdicts create s.before (s.items.map toTb))[i]?

/-- A result list is about the item at position `i` alone: it is empty exactly
when the item was accepted, and lists nothing but the item's own rejection. -/
structure Submitted.OwnResult (s : Submitted α) (i : Nat) (rs : List AppCreateResult) : Prop where
  empty_iff : rs = [] ↔ s.verdict create toTb i = some none
  own : ∀ x ∈ rs, ∃ code, s.verdict create toTb i = some (some code) ∧ x = fromTbResult ⟨i, code⟩

/-- A batch whose callers cannot confuse each other: it holds one item, or the
server rejects none of its items. -/
def Submitted.Unmixed (s : Submitted α) : Prop :=
  s.items.length ≤ 1 ∨ ∀ i < s.items.length, s.verdict create toTb i = some none

variable {create toTb}

private theorem Submitted.verdict_lt {s : Submitted α} {i : Nat} {v : Option Nat}
    (h : s.verdict create toTb i = some v) : i < s.items.length := by
  simpa using (List.getElem?_eq_some_iff.mp h).1

private theorem Submitted.verdict_of_lt (s : Submitted α) {i : Nat} (h : i < s.items.length) :
    ∃ v, s.verdict create toTb i = some v :=
  ⟨_, List.getElem?_eq_getElem (by simpa using h)⟩

/-- What the caller sees of a batch: the rejected positions with their codes. -/
theorem Submitted.mem_results {s : Submitted α} {x : AppCreateResult} :
    x ∈ (applyBatch create s.before 0 (s.items.map toTb)).1.map fromTbResult ↔
      ∃ i code, s.verdict create toTb i = some (some code) ∧ x = fromTbResult ⟨i, code⟩ := by
  constructor
  · intro h
    obtain ⟨⟨j, code⟩, hmem, rfl⟩ := List.mem_map.mp h
    obtain ⟨i, hi, hv⟩ := (mem_applyBatch create).mp hmem
    obtain rfl : j = i := by simpa using hi
    exact ⟨j, code, hv, rfl⟩
  · rintro ⟨i, code, hv, rfl⟩
    exact List.mem_map_of_mem ((mem_applyBatch create).mpr ⟨i, by simp, hv⟩)

/-- The shared list of a batch tells every caller about its own item, and about
nothing else, exactly when the batch is unmixed. -/
theorem Submitted.ownResult_iff (s : Submitted α) :
    (∀ i x, s.items[i]? = some x → s.OwnResult create toTb i
      ((applyBatch create s.before 0 (s.items.map toTb)).1.map fromTbResult)) ↔
    s.Unmixed create toTb := by
  constructor
  · intro hown
    by_cases hlen : s.items.length ≤ 1
    · exact Or.inl hlen
    refine Or.inr (fun j hj => ?_)
    obtain ⟨v, hv⟩ : ∃ v, s.verdict create toTb j = some v := s.verdict_of_lt hj
    cases v with
    | none => exact hv
    | some code =>
        exfalso
        have hmem := Submitted.mem_results.mpr ⟨j, code, hv, rfl⟩
        -- both of the first two callers would have to find their own index in it
        obtain ⟨c₀, -, h₀⟩ := (hown 0 _ (List.getElem?_eq_getElem (by omega))).own _ hmem
        obtain ⟨c₁, -, h₁⟩ := (hown 1 _ (List.getElem?_eq_getElem (by omega))).own _ hmem
        have hindex := congrArg AppCreateResult.index (h₀.symm.trans h₁)
        simp [fromTbResult, asU32] at hindex
  · rintro hgood i x hx
    have hi := (List.getElem?_eq_some_iff.mp hx).1
    obtain ⟨v, hv⟩ : ∃ v, s.verdict create toTb i = some v := s.verdict_of_lt hi
    have honly : ∀ j code, s.verdict create toTb j = some (some code) → j = i := by
      intro j code hj
      have hjlt := Submitted.verdict_lt hj
      rcases hgood with hlen | hall
      · omega
      · simp [hall j hjlt] at hj
    refine ⟨⟨fun hnil => ?_, fun hacc => List.eq_nil_iff_forall_not_mem.mpr (fun e he => ?_)⟩,
      fun e he => ?_⟩
    · cases v with
      | none => exact hv
      | some code =>
          have hmem := Submitted.mem_results.mpr ⟨i, code, hv, rfl⟩
          rw [hnil] at hmem
          simp at hmem
    · obtain ⟨j, code, hj, -⟩ := Submitted.mem_results.mp he
      obtain rfl := honly j code hj
      simp [hacc] at hj
    · obtain ⟨j, code, hj, rfl⟩ := Submitted.mem_results.mp he
      obtain rfl := honly j code hj
      exact ⟨code, hj, rfl⟩

end Creation

namespace Worker

/-- Every creator of a transfer that was answered `Ok` was answered about its
own transfer. -/
def OwnTransferResults (tb : TigerBeetle) (w : Worker) : Prop :=
  ∀ t r rs, ⟨.createTransfer t, r⟩ ∈ w.received → (r, .createTransfers (.ok rs)) ∈ w.replies →
    ∃ s ∈ w.transferLog, ∃ i : Nat, s.items[i]? = some t ∧ s.responders[i]? = some r ∧
      s.OwnResult tb.createTransfer toTbTransfer i rs

/-- Every creator of an account that was answered `Ok` was answered about its
own account. -/
def OwnAccountResults (tb : TigerBeetle) (w : Worker) : Prop :=
  ∀ a r rs, ⟨.createAccount a, r⟩ ∈ w.received → (r, .createAccounts (.ok rs)) ∈ w.replies →
    ∃ s ∈ w.accountLog, ∃ i : Nat, s.items[i]? = some a ∧ s.responders[i]? = some r ∧
      s.OwnResult tb.createAccount toTbAccount i rs

variable {tb : TigerBeetle} {w : Worker}

theorem ownTransferResults_iff (hh : History w) (ha : Answers tb w) (hd : w.Distinct) :
    OwnTransferResults tb w ↔ ∀ s ∈ w.transferLog, s.outcome = .ok →
      s.Unmixed tb.createTransfer toTbTransfer := by
  rw [← hh.transfers.own_iff hd.transfers (fun _ _ => ha.transfers_iff)
    Submitted.ownResult_iff]
  refine forall_congr' fun t => forall_congr' fun r => forall_congr' fun rs => ?_
  simp only [List.mem_filterMap, TbCommand.transfer?_eq_some, exists_eq_right]

theorem ownAccountResults_iff (hh : History w) (ha : Answers tb w) (hd : w.Distinct) :
    OwnAccountResults tb w ↔ ∀ s ∈ w.accountLog, s.outcome = .ok →
      s.Unmixed tb.createAccount toTbAccount := by
  rw [← hh.accounts.own_iff hd.accounts (fun _ _ => ha.accounts_iff)
    Submitted.ownResult_iff]
  refine forall_congr' fun t => forall_congr' fun r => forall_congr' fun rs => ?_
  simp only [List.mem_filterMap, TbCommand.account?_eq_some, exists_eq_right]

theorem distinct_run {n : Nat} {l : Ledger} {es : List WorkerEvent}
    (hd : ((es.filterMap WorkerEvent.command?).map TbCommand.responder).Nodup) :
    ((start l).run tb n es).Distinct := by
  unfold Distinct
  rw [received_run]
  exact hd

/-- **Creations.** Over every sequence of commands, each with its own response
channel, and ticks: every answered creator is answered about its own item
exactly when every batch that was answered `Ok` held a single item or no item
that the server rejected. -/
theorem creators_answered_own_iff (tb : TigerBeetle) (n : Nat) (l : Ledger)
    (es : List WorkerEvent)
    (hd : ((es.filterMap WorkerEvent.command?).map TbCommand.responder).Nodup) :
    (OwnTransferResults tb ((start l).run tb n es) ∧
      OwnAccountResults tb ((start l).run tb n es)) ↔
    (∀ s ∈ ((start l).run tb n es).transferLog, s.outcome = .ok →
      s.Unmixed tb.createTransfer toTbTransfer) ∧
    (∀ s ∈ ((start l).run tb n es).accountLog, s.outcome = .ok →
      s.Unmixed tb.createAccount toTbAccount) := by
  have hh : History ((start l).run tb n es) := (History.start l).run es
  have ha : Answers tb ((start l).run tb n es) := (Answers.start l).run es
  exact and_congr (ownTransferResults_iff hh ha (distinct_run hd))
    (ownAccountResults_iff hh ha (distinct_run hd))

/-- A plain transfer of `amount` from account 1 to account `cr`. -/
def sampleTransfer (id cr amount : Nat) : AppTransfer :=
  ⟨id, 1, cr, amount, 0, 0, 0, 0, 0, 1, 1, 0, 0⟩

/-- A ledger with a provider account 1 and a user account 2. -/
def sampleLedger : Ledger :=
  ⟨[⟨1, 0, 0, 0, 0, 0, 0, 0, 1, 100, 0, 0⟩, ⟨2, 0, 0, 0, 0, 0, 0, 0, 1, 200, 2, 0⟩], []⟩

/-- Two credits in one batch: the second names an account that does not exist. -/
def mixedBatch : List WorkerEvent :=
  [.command ⟨.createTransfer (sampleTransfer 10 2 50), 0⟩ .ok,
   .command ⟨.createTransfer (sampleTransfer 11 9 50), 1⟩ .ok,
   .tick .allOk]

theorem creators_answered_own_mixedBatch :
    (OwnTransferResults .reference ((start sampleLedger).run .reference 8 mixedBatch) ∧
      OwnAccountResults .reference ((start sampleLedger).run .reference 8 mixedBatch)) ↔
    (∀ s ∈ ((start sampleLedger).run .reference 8 mixedBatch).transferLog, s.outcome = .ok →
      s.Unmixed TigerBeetle.reference.createTransfer toTbTransfer) ∧
    (∀ s ∈ ((start sampleLedger).run .reference 8 mixedBatch).accountLog, s.outcome = .ok →
      s.Unmixed TigerBeetle.reference.createAccount toTbAccount) :=
  creators_answered_own_iff .reference 8 sampleLedger mixedBatch (by decide)

/-- The first credit of the mixed batch is accepted and moves the money, and its
caller is told that a transfer was rejected. -/
theorem mixedBatch_blames_accepted :
    ¬ (OwnTransferResults .reference ((start sampleLedger).run .reference 8 mixedBatch) ∧
      OwnAccountResults .reference ((start sampleLedger).run .reference 8 mixedBatch)) := by
  rintro ⟨h, -⟩
  obtain ⟨s, hs, i, hi, -, hown⟩ := h (sampleTransfer 10 2 50) 0 [⟨1, 39⟩] (by decide) (by decide)
  have hlog : ((start sampleLedger).run .reference 8 mixedBatch).transferLog =
      [⟨[sampleTransfer 10 2 50, sampleTransfer 11 9 50], [0, 1], sampleLedger, .ok⟩] := rfl
  rw [hlog, List.mem_singleton] at hs
  subst hs
  obtain ⟨code, hv, hx⟩ := hown.own ⟨1, 39⟩ (by simp)
  have hi0 : i = 0 := by
    have hlt := (List.getElem?_eq_some_iff.mp hi).1
    match i, hlt with
    | 0, _ => rfl
    | 1, _ => simp [sampleTransfer] at hi
  subst hi0
  simp [fromTbResult, asU32] at hx

end Worker

/-! ### Lookups -/

section Lookup

variable {γ : Type}

/-- What a lookup of one id should return: at most one object, which has that
id, and the one the server holds. -/
structure OneFound (find : Nat → Option γ) (idOf : γ → Nat) (id : Nat) (rs : List γ) : Prop where
  atMostOne : rs.length ≤ 1
  named : ∀ x ∈ rs, idOf x = id
  first : rs.head? = find id

/-- The shared list of a batch of lookups gives every caller just the object it
named exactly when the batch holds one id, or none of its ids is found. -/
theorem oneFound_iff {find : Nat → Option γ} {idOf : γ → Nat}
    (hid : ∀ id x, find id = some x → idOf x = id) (ids : List Nat) :
    (∀ id ∈ ids, OneFound find idOf id (ids.filterMap find)) ↔
      ids.length ≤ 1 ∨ ∀ id ∈ ids, find id = none := by
  constructor
  · intro hone
    by_cases hnone : ∀ id ∈ ids, find id = none
    · exact Or.inr hnone
    obtain ⟨id, hmem, hfind⟩ : ∃ id ∈ ids, find id ≠ none := by simpa using hnone
    obtain ⟨x, hx⟩ := Option.ne_none_iff_exists'.mp hfind
    have hin : x ∈ ids.filterMap find := List.mem_filterMap.mpr ⟨id, hmem, hx⟩
    -- every id of the batch is the one that was found
    have hsame : ∀ j ∈ ids, find j = some x := by
      intro j hj
      have h₁ := (hone j hj).named x hin
      rw [← h₁, hid id x hx]
      exact hx
    refine Or.inl ?_
    have hlen : (ids.filterMap find).length = ids.length := by
      rw [List.filterMap_congr hsame, List.filterMap_eq_map', List.length_map]
    rw [← hlen]
    exact (hone id hmem).atMostOne
  · rintro (hlen | hnone) id hmem
    · have hids : ids = [id] := by
        match ids, hlen, hmem with
        | [j], _, hj => rw [List.mem_singleton.mp hj]
      subst hids
      cases hx : find id with
      | none => exact ⟨by simp [hx], by simp [hx], by simp [hx]⟩
      | some x => exact ⟨by simp [hx], by simp [hx, hid id x hx], by simp [hx]⟩
    · have hnil : ids.filterMap find = [] := by simpa using hnone
      rw [hnil]
      exact ⟨by simp, by simp, by simp [hnone id hmem]⟩

end Lookup

/-- The account a ledger holds under an id, as the service sees it. -/
def Ledger.appAccount? (l : Ledger) (id : Nat) : Option AppAccount :=
  (l.account? id).map fromTbAccount

/-- The transfer a ledger holds under an id, as the service sees it. -/
def Ledger.appTransfer? (l : Ledger) (id : Nat) : Option AppTransfer :=
  (l.transfer? id).map fromTbTransfer

theorem Ledger.appAccount?_id {l : Ledger} {id : Nat} {a : AppAccount}
    (h : l.appAccount? id = some a) : a.id = id := by
  obtain ⟨b, hb, rfl⟩ := Option.map_eq_some_iff.mp h
  exact Ledger.account?_id hb

theorem Ledger.appTransfer?_id {l : Ledger} {id : Nat} {t : AppTransfer}
    (h : l.appTransfer? id = some t) : t.id = id := by
  obtain ⟨b, hb, rfl⟩ := Option.map_eq_some_iff.mp h
  exact Ledger.transfer?_id hb

theorem serveLookupAccounts_eq (l : Ledger) (ids : List Nat) :
    (serveLookupAccounts l ids).1 = ids.filterMap l.appAccount? :=
  List.map_filterMap

theorem serveLookupTransfers_eq (l : Ledger) (ids : List Nat) :
    (serveLookupTransfers l ids).1 = ids.filterMap l.appTransfer? :=
  List.map_filterMap

namespace Worker

variable {tb : TigerBeetle} {w : Worker}

/-- Every account lookup that was answered `Ok` was answered with just the
account it named, as the ledger then stood. -/
def OwnAccountLookups (w : Worker) : Prop :=
  ∀ id r rs, ⟨.lookupAccount id, r⟩ ∈ w.received → (r, .accounts (.ok rs)) ∈ w.replies →
    ∃ s ∈ w.lookupAccLog, ∃ i : Nat, s.items[i]? = some id ∧ s.responders[i]? = some r ∧
      OneFound s.before.appAccount? AppAccount.id id rs

/-- The same for transfer lookups. -/
def OwnTransferLookups (w : Worker) : Prop :=
  ∀ id r rs, ⟨.lookupTransfer id, r⟩ ∈ w.received → (r, .transfers (.ok rs)) ∈ w.replies →
    ∃ s ∈ w.lookupTxLog, ∃ i : Nat, s.items[i]? = some id ∧ s.responders[i]? = some r ∧
      OneFound s.before.appTransfer? AppTransfer.id id rs

/-- Quantifying over the positions of a list is quantifying over its members. -/
private theorem forall_position {ids : List Nat} {P : Nat → Prop} :
    (∀ (i id : Nat), ids[i]? = some id → P id) ↔ ∀ id ∈ ids, P id := by
  constructor
  · intro h id hid
    obtain ⟨i, hi⟩ := List.getElem?_of_mem hid
    exact h i id hi
  · exact fun h i id hi => h id (List.mem_of_getElem? hi)

theorem ownAccountLookups_iff (hh : History w) (ha : Answers tb w) (hd : w.Distinct) :
    OwnAccountLookups w ↔ ∀ s ∈ w.lookupAccLog, s.outcome = .ok →
      s.items.length ≤ 1 ∨ ∀ id ∈ s.items, s.before.account? id = none := by
  have hbatch : ∀ s : Submitted Nat, (∀ (i id : Nat), s.items[i]? = some id →
      OneFound s.before.appAccount? AppAccount.id id (serveLookupAccounts s.before s.items).1) ↔
      (s.items.length ≤ 1 ∨ ∀ id ∈ s.items, s.before.account? id = none) := by
    intro s
    rw [forall_position, serveLookupAccounts_eq,
      oneFound_iff (fun _ _ h => Ledger.appAccount?_id h)]
    simp only [Ledger.appAccount?, Option.map_eq_none_iff]
  rw [← hh.lookupAccs.own_iff hd.lookupAccs (fun _ _ => ha.lookupAccs_iff) hbatch]
  refine forall_congr' fun id => forall_congr' fun r => forall_congr' fun rs => ?_
  simp only [List.mem_filterMap, TbCommand.lookupAcc?_eq_some, exists_eq_right]

theorem ownTransferLookups_iff (hh : History w) (ha : Answers tb w) (hd : w.Distinct) :
    OwnTransferLookups w ↔ ∀ s ∈ w.lookupTxLog, s.outcome = .ok →
      s.items.length ≤ 1 ∨ ∀ id ∈ s.items, s.before.transfer? id = none := by
  have hbatch : ∀ s : Submitted Nat, (∀ (i id : Nat), s.items[i]? = some id →
      OneFound s.before.appTransfer? AppTransfer.id id (serveLookupTransfers s.before s.items).1) ↔
      (s.items.length ≤ 1 ∨ ∀ id ∈ s.items, s.before.transfer? id = none) := by
    intro s
    rw [forall_position, serveLookupTransfers_eq,
      oneFound_iff (fun _ _ h => Ledger.appTransfer?_id h)]
    simp only [Ledger.appTransfer?, Option.map_eq_none_iff]
  rw [← hh.lookupTxs.own_iff hd.lookupTxs (fun _ _ => ha.lookupTxs_iff) hbatch]
  refine forall_congr' fun id => forall_congr' fun r => forall_congr' fun rs => ?_
  simp only [List.mem_filterMap, TbCommand.lookupTx?_eq_some, exists_eq_right]

end Worker

end Wurzburg.Tb
