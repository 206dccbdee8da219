import Wurzburg.Db.PrioritySpec
import Wurzburg.System.Handlers
import Wurzburg.System.Rest

/-!
# Wurzburg.System.Settle

A credit or debit served alone. From a state at rest in which its user is
linked, a request ends in one of a few ways, and which one is decided by the
state it starts from: its key is known, the ledger rejects the transfer, the
journal cannot hold the row, or both stores take it (`Settlement`).
-/

namespace Wurzburg.System

open Wurzburg.Lib Wurzburg.Db Wurzburg.Tb Wurzburg.Api

/-! ### The rows a request finds -/

/-- What the reads of a transfer request return for a linked user. -/
structure Resolves (p u : Uuid) (ud : UserProviderDetails) (pd : Provider) (pg : Pg) : Prop where
  details : (pg.userProviderDetails u p).head? = some ud
  provider : pg.provider? p = some pd

section

variable {p u : Uuid} {ud : UserProviderDetails} {pd : Provider} {pg pg' : Pg}

/-- The reads of a linked user's request succeed. -/
theorem exists_resolves (h : pg.userProviderDetails u p ≠ []) : ∃ ud pd, Resolves p u ud pd pg := by
  obtain ⟨ud, uds, hcons⟩ := List.exists_cons_of_ne_nil h
  have hmem : ud ∈ pg.userProviderDetails u p := by
    rw [hcons]
    exact List.mem_cons_self ..
  obtain ⟨-, ⟨pd, hpd, hid⟩, -⟩ := Pg.mem_userProviderDetails hmem
  cases hfind : pg.provider? p with
  | none =>
      have := List.find?_eq_none.mp hfind pd hpd
      simp [hid] at this
  | some pd' =>
      refine ⟨ud, pd', ⟨?_, hfind⟩⟩
      rw [hcons]
      rfl

theorem Resolves.sameCore (h : Resolves p u ud pd pg) (hs : Pg.SameCore pg pg') :
    Resolves p u ud pd pg' := by
  obtain ⟨hd, hp⟩ := h
  constructor
  · rw [← hd]
    unfold Pg.userProviderDetails
    rw [hs.users, hs.userProviders, hs.userAccounts, hs.providers]
  · rw [← hp]
    unfold Pg.provider?
    rw [hs.providers]

theorem Resolves.record (h : Resolves p u ud pd pg) (actor : Uuid) (row : Transaction) :
    Resolves p u ud pd (pg.record actor row) :=
  ⟨h.details, h.provider⟩

theorem Resolves.user (h : Resolves p u ud pd pg) : ∃ x ∈ pg.users, x.id = u :=
  (Pg.mem_userProviderDetails (List.mem_of_head? h.details)).1

theorem Resolves.providerRow (h : Resolves p u ud pd pg) : ∃ x ∈ pg.providers, x.id = p :=
  (Pg.mem_userProviderDetails (List.mem_of_head? h.details)).2.1

end

/-! ### How a request ends -/

/-- The journal can hold a row for the request: the amount is one of a positive
`BIGINT`, and the description a text of PostgreSQL. -/
structure Storable (payload : TransferRequest) : Prop where
  positive : 0 < payload.amount.toNat
  fits : payload.amount.toNat < 2 ^ 63
  text : payload.description.all textOk = true

/-- How a request that passed its checks ends, alone, from given stores. -/
inductive Settlement (env : Env) (d : Direction) (p u : Uuid) (payload : TransferRequest)
    (t : AppTransfer) (pg : Pg) (l : Ledger) :
    Except HttpError (StatusCode × TransactionResponse) → Pg → Ledger → Prop
  | rejected {code : Nat} {text : String} {pg' : Pg} :
      env.tb.createTransfer l (toTbTransfer t) = .error code → Pg.SameCore pg pg' →
      Settlement env d p u payload t pg l (.error (.badRequest, text)) pg' l
  | lost {l' : Ledger} {pg' : Pg} :
      env.tb.createTransfer l (toTbTransfer t) = .ok l' → ¬ Storable payload →
      Pg.SameCore pg pg' → Settlement env d p u payload t pg l (.error internalError) pg' l'
  | recorded {l' : Ledger} {pg' : Pg} {row : Transaction} {balance : Option Int} :
      env.tb.createTransfer l (toTbTransfer t) = .ok l' → Storable payload →
      Pg.SameCore pg pg' → Records row d p u payload →
      Settlement env d p u payload t pg l (.ok (.ok, ⟨row.id, "SUCCESS", balance⟩))
        (pg'.record p row) l'

section

variable {env : Env} {live : Prop} {d : Direction} {p u : Uuid} {payload : TransferRequest}
  {ud : UserProviderDetails} {pd : Provider} {pg : Pg} {l : Ledger} {issued : List (Uuid × IdUse)}
  {w : World} {γ δ : Type} {post : Except HttpError δ → World → Prop}

/-- The journal's checks on the row of a request. -/
theorem Resolves.admits (h : Resolves p u ud pd pg) {id : Uuid} (dr cr : Uuid)
    (hid : ∀ row ∈ pg.transactions, row.id ≠ id)
    (hkey : ∀ row ∈ pg.transactions, row.idempotencyKey ≠ payload.idempotencyKey.toString) :
    pg.Admits (newTransaction id payload.idempotencyKey.toString d.transactionType
      (asI64 payload.amount.toNat) p u dr cr payload.description) ↔ Storable payload := by
  have hlt : payload.amount.toNat < 2 ^ 64 := payload.amount.toNat_lt
  constructor
  · rintro ⟨-, hdesc, hamount, -, -, -, -⟩
    simp only [newTransaction] at hdesc hamount
    obtain ⟨hpos, hfits⟩ := (asI64_pos_iff hlt).mp hamount
    exact ⟨hpos, hfits, hdesc⟩
  · intro hs
    have hamount : 0 < asI64 payload.amount.toNat := (asI64_pos_iff hlt).mpr ⟨hs.positive, hs.fits⟩
    constructor <;> simp only [newTransaction]
    · exact Uuid.varcharOk_toString _ (by decide)
    · exact hs.text
    · exact hamount
    · exact hid
    · exact hkey
    · exact h.user
    · exact h.providerRow

/-- Recording, from rest. -/
theorem recordTransfer_total {pl ul : Uuid} {M : Transaction → World → Prop}
    (h : AtRest pg l issued w) (hres : Resolves p u ud pd pg)
    (hkey : ∀ row ∈ pg.transactions, row.idempotencyKey ≠ payload.idempotencyKey.toString)
    (hrows : ∀ row ∈ pg.transactions, row.id ∈ issued.map Prod.fst)
    (hlive : live → ∃ id, id ∉ issued.map Prod.fst)
    (hM : Storable payload → ∀ row issued' t, Records row d p u payload →
      AtRest (pg.record p row) l issued' t → M row t)
    (hpost : ¬ Storable payload → ∀ issued' t, AtRest pg l issued' t →
      post (.error internalError) t) :
    (alone env (Resolves p u ud pd) live).TotalE M post (recordTransfer d p u payload pl ul) w := by
  have hcall : ∀ (now : Timestamp) (uuid : Nat → Uuid) r pg' n,
      (executeTransfer d.transactionType payload.idempotencyKey.toString
        (asI64 payload.amount.toNat) p u (d.accounts pl ul).1 (d.accounts pl ul).2 p
        payload.description).transact pg now uuid = (r, pg', n) →
      Unissued issued ((List.range n).map uuid) → Resolves p u ud pd pg' ∧
        ∀ t, AtRest pg' l (issued ++ ((List.range n).map uuid).map (fun u => (u, .other))) t →
          (∀ row, r = .ok row → M row t) ∧ ∀ e, r = .error e → post (.error internalError) t := by
    intro now uuid r pg' n htx hfresh
    obtain ⟨rfl, hspec⟩ := executeTransfer_spec htx
    have hid : ∀ row ∈ pg.transactions, row.id ≠ uuid 0 := by
      intro row hrow heq
      refine hfresh.2 (uuid 0) (by simp) ?_
      rw [← heq]
      exact hrows row hrow
    have hadmits := hres.admits (d := d) (d.accounts pl ul).1 (d.accounts pl ul).2 hid hkey
    -- the tables are at rest, so the row is refused only for its own values
    rcases hspec with ⟨e, rfl, rfl⟩ | ⟨new, rfl, ha, rfl, rfl⟩
    · refine ⟨hres, fun t ht => ⟨fun row hok => ?_, fun _ _ => hpost (fun hs => ?_) _ t ht⟩⟩
      · cases hok
      · rw [executeTransfer_ok (hadmits.mpr hs)] at htx
        exact absurd (Prod.mk.inj htx).1 (by simp)
    · have hamount : asI64 payload.amount.toNat = payload.amount.toNat :=
        asI64_of_lt (hadmits.mp ha).fits
      refine ⟨hres.record _ _, fun t ht => ⟨fun row hok => ?_, fun e herr => ?_⟩⟩
      · obtain rfl := Except.ok.inj hok
        refine hM (hadmits.mp ha) _ _ t ?_ ht
        constructor <;> simp only [newTransaction, Tx.transactionRow]
        exact hamount
      · cases herr
  have hfree : live → ∀ now : Timestamp, ∃ (uuid : Nat → Uuid) (r : _) (pg' : Pg) (n : Nat),
      (executeTransfer d.transactionType payload.idempotencyKey.toString
        (asI64 payload.amount.toNat) p u (d.accounts pl ul).1 (d.accounts pl ul).2 p
        payload.description).transact pg now uuid = (r, pg', n) ∧
      Unissued issued ((List.range n).map uuid) := by
    intro hl now
    obtain ⟨id, hid⟩ := hlive hl
    cases htx : (executeTransfer d.transactionType payload.idempotencyKey.toString
        (asI64 payload.amount.toNat) p u (d.accounts pl ul).1 (d.accounts pl ul).2 p
        payload.description).transact pg now (fun _ => id) with
    | mk r out =>
        obtain ⟨hn, -⟩ := executeTransfer_spec htx
        refine ⟨fun _ => id, r, out.1, out.2, htx, ?_⟩
        rw [hn]
        exact ⟨List.nodup_singleton _, fun x hx => by rw [List.mem_singleton.mp hx]; exact hid⟩
  -- both directions are one method with the accounts exchanged
  cases d with
  | credit =>
      show (alone env _ live).TotalE M post (db (.executeCreditTransfer ..)) w
      exact db_total h hres hfree hcall
  | debit =>
      show (alone env _ live).TotalE M post (db (.executeDebitTransfer ..)) w
      exact db_total h hres hfree hcall

/-- What a lone request needs to make progress: room in the channel, and a UUID
that was not generated before. -/
def CanProceed (env : Env) (issued : List (Uuid × IdUse)) : Prop :=
  0 < env.settings.tigerbeetle.channelCapacity ∧ ∃ id, id ∉ issued.map Prod.fst

/-- At rest again, with the request settled. -/
def SettledFrom (env : Env) (d : Direction) (p u : Uuid) (payload : TransferRequest)
    (ud : UserProviderDetails) (pd : Provider) (pg : Pg) (l : Ledger)
    (r : Except HttpError (StatusCode × TransactionResponse)) (w : World) : Prop :=
  ∃ pg' l' issued', AtRest pg' l' issued' w ∧
    Settlement env d p u payload
      (ledgerTransfer env d payload pd.ledgerAccountId ud.userLedgerAccountId) pg l r pg' l'

/-- The last steps of a request, from rest. -/
theorem settle_total {pg₀ : Pg} (hsame : Pg.SameCore pg₀ pg) (h : AtRest pg l issued w)
    (hres : Resolves p u ud pd pg)
    (hkey : ∀ row ∈ pg.transactions, row.idempotencyKey ≠ payload.idempotencyKey.toString)
    (hrows : ∀ row ∈ pg.transactions, row.id ∈ issued.map Prod.fst)
    (hlive : live → CanProceed env issued) :
    (alone env (Resolves p u ud pd) live).TotalE
      (fun a => SettledFrom env d p u payload ud pd pg₀ l (.ok a))
      (SettledFrom env d p u payload ud pd pg₀ l) (settle env d p u payload ud pd) w := by
  cases hv : env.tb.createTransfer l
      (toTbTransfer (ledgerTransfer env d payload pd.ledgerAccountId ud.userLedgerAccountId)) with
  | error code =>
      refine Setting.TotalE.bind (M := fun rs t => rs.isEmpty = false ∧ AtRest pg l issued t)
        (orFail_total (submit_total h hres (fun hl => (hlive hl).1) (fun t ht => ?_)))
        (fun rs t hrs => ?_)
      · show (serveTransfers env.tb l [_]).1.isEmpty = false ∧ _
        simp only [TbRequest.ledgerAfter, serveTransfers_error hv] at ht ⊢
        exact ⟨rfl, ht⟩
      · obtain ⟨-, hrs, hrest⟩ := hrs t .refl
        rw [if_neg (by simp [hrs])]
        refine Setting.TotalE.throw (hrest.forever hres (fun t' ht' => ?_))
        exact ⟨pg, l, issued, ht', .rejected hv hsame⟩
  | ok l' =>
      refine Setting.TotalE.bind (M := fun rs t => rs = [] ∧ AtRest pg l' issued t)
        (orFail_total (submit_total h hres (fun hl => (hlive hl).1) (fun t ht => ?_)))
        (fun rs t hrs => ?_)
      · show (serveTransfers env.tb l [_]).1 = [] ∧ _
        simp only [TbRequest.ledgerAfter, serveTransfers_ok hv] at ht ⊢
        exact ⟨trivial, ht⟩
      · obtain ⟨-, rfl, hrest⟩ := hrs t .refl
        show (alone env _ live).TotalE _ _ (recordTransfer d p u payload pd.ledgerAccountId
          ud.userLedgerAccountId >>= _) t
        refine Setting.TotalE.bind (M := fun row t => Storable payload ∧ Records row d p u payload ∧
          ∃ issued', AtRest (pg.record p row) l' issued' t)
          (recordTransfer_total hrest hres hkey hrows (fun hl => (hlive hl).2) ?_ ?_)
          (fun row t hrow => ?_)
        · exact fun hs row issued' t hrec ht => ⟨hs, hrec, issued', ht⟩
        · exact fun hs issued' t ht => ⟨pg, l', issued', ht, .lost hv hs hsame⟩
        · obtain ⟨-, hs, hrec, issued', hrest⟩ := hrow t .refl
          have hres' := hres.record p row
          refine Setting.TotalE.bind (M := fun _ t => AtRest (pg.record p row) l' issued' t)
            (orFail_total (submit_total hrest hres' (fun hl => (hlive hl).1) (fun t ht => ?_)))
            (fun accounts t hacc => ?_)
          · exact ht
          · obtain ⟨-, hrest⟩ := hacc t .refl
            refine Setting.TotalE.pure (hrest.forever hres' (fun t' ht' => ?_))
            exact ⟨_, l', issued', ht', .recorded hv hs hsame hrec⟩

/-- What a debit does before its ledger call touches no account and no row. -/
theorem prepare_total {M : Unit → World → Prop} (h : AtRest pg l issued w)
    (hres : Resolves p u ud pd pg)
    (hM : ∀ pg' t, Pg.SameCore pg pg' → Resolves p u ud pd pg' → AtRest pg' l issued t → M () t) :
    (alone env (Resolves p u ud pd) live).TotalE M post (prepare d p u) w := by
  cases d with
  | credit =>
      refine Setting.TotalE.pure (h.forever hres (fun t ht => ?_))
      exact hM pg t (.refl pg) hres ht
  | debit =>
      refine Setting.TotalE.bind (M := fun _ t => AtRest pg l issued t)
        (db_read_total h hres (getActivePriorityConfig_transact u pg) (fun t ht => ht))
        (fun found t hfound => ?_)
      obtain ⟨-, hrest⟩ := hfound t .refl
      have hnothing : (alone env (Resolves p u ud pd) live).TotalE M post (pure ()) t :=
        Setting.TotalE.pure (hrest.forever hres (fun t' ht' => hM pg t' (.refl pg) hres ht'))
      cases found with
      | none => exact hnothing
      | some active =>
          show (alone env _ live).TotalE M post (ite _ _ _) t
          split
          · have hcancelled : ∀ now, Pg.SameCore pg (pg.cancelActive u u now) := fun now =>
              Repo.transact_sparesCore (cancelActivePriorityConfig_spares u u)
                (cancelActivePriorityConfig_transact u u pg now (fun _ => ⟨0⟩))
            refine Setting.TotalE.bind (M := fun _ t => ∃ pg', Pg.SameCore pg pg' ∧
              AtRest pg' l issued t)
              (db_sure_total hrest hres (cancelActivePriorityConfig_transact u u pg)
                (fun now => hres.sameCore (hcancelled now))
                (fun now t' ht' => ⟨_, hcancelled now, ht'⟩)) (fun _ t hcancel => ?_)
            obtain ⟨-, pg', hsame, hrest⟩ := hcancel t .refl
            have hres' := hres.sameCore hsame
            refine Setting.TotalE.bind (M := fun r t => r = .ok () ∧ AtRest pg' l issued t)
              (tryRedis_total hrest hres' (fun t' ht' => ⟨rfl, ht'⟩)) (fun r t hr => ?_)
            obtain ⟨-, rfl, hrest⟩ := hr t .refl
            refine Setting.TotalE.bind (M := fun _ t => AtRest pg' l issued t)
              (tryRedis_total hrest hres' (fun t' ht' => ht')) (fun r t hr => ?_)
            obtain ⟨-, hrest⟩ := hr t .refl
            exact Setting.TotalE.pure (hrest.forever hres' (fun t' ht' => hM pg' t' hsame hres' ht'))
          · exact hnothing

/-- **What becomes of a request that has passed its checks.** -/
theorem prepare_settle_total (h : AtRest pg l issued w) (hres : Resolves p u ud pd pg)
    (hkey : ∀ row ∈ pg.transactions, row.idempotencyKey ≠ payload.idempotencyKey.toString)
    (hrows : ∀ row ∈ pg.transactions, row.id ∈ issued.map Prod.fst)
    (hlive : live → CanProceed env issued) :
    (alone env (Resolves p u ud pd) live).TotalE
      (fun a => SettledFrom env d p u payload ud pd pg l (.ok a))
      (SettledFrom env d p u payload ud pd pg l)
      (prepare d p u >>= fun _ => settle env d p u payload ud pd) w := by
  refine Setting.TotalE.bind (M := fun _ t => ∃ pg', Pg.SameCore pg pg' ∧
    Resolves p u ud pd pg' ∧ AtRest pg' l issued t)
    (prepare_total h hres (fun pg' t hsame hres' ht => ⟨pg', hsame, hres', ht⟩))
    (fun _ t ht => ?_)
  obtain ⟨-, pg', hsame, hres', hrest⟩ := ht t .refl
  refine settle_total hsame hrest hres' ?_ ?_ hlive
  · rw [hsame.transactions]
    exact hkey
  · rw [hsame.transactions]
    exact hrows

/-- How a whole request ends, alone, from given stores: a known key is answered
from the journal. -/
def EndsFrom (env : Env) (d : Direction) (p u : Uuid) (payload : TransferRequest)
    (ud : UserProviderDetails) (pd : Provider) (pg : Pg) (l : Ledger)
    (issued : List (Uuid × IdUse)) (r : Except HttpError (StatusCode × TransactionResponse))
    (w : World) : Prop :=
  match pg.transactionByKey? payload.idempotencyKey.toString with
  | some row => r = .ok (.ok, ⟨row.id, "ALREADY_PROCESSED", none⟩) ∧ AtRest pg l issued w
  | none => SettledFrom env d p u payload ud pd pg l r w

/-- The checks of a linked user's request do not fail. -/
theorem admission_total (h : AtRest pg l issued w) (hres : Resolves p u ud pd pg) :
    (alone env (Resolves p u ud pd) live).TotalE
      (fun a t => AtRest pg l issued t ∧
        a = match pg.transactionByKey? payload.idempotencyKey.toString with
          | some row => .answered ⟨row.id, "ALREADY_PROCESSED", none⟩
          | none => .admitted ud pd) post (admission p u payload) w := by
  refine Setting.TotalE.bind (M := fun found t => found = some ud ∧ AtRest pg l issued t)
    (db_read_total h hres (getUserProviderDetails_transact u p pg)
      (fun t ht => ⟨hres.details, ht⟩)) (fun found t hfound => ?_)
  obtain ⟨-, rfl, hrest⟩ := hfound t .refl
  rw [orElse_some_bind]
  refine Setting.TotalE.bind (M := fun r t =>
    r = .ok (pg.transactionByKey? payload.idempotencyKey.toString) ∧ AtRest pg l issued t)
    (tryDb_read_total hrest hres (getTransactionByIdempotencyKey_transact _ pg)
      (fun t ht => ⟨rfl, ht⟩)) (fun r t hr => ?_)
  obtain ⟨-, rfl, hrest⟩ := hr t .refl
  cases hkey : pg.transactionByKey? payload.idempotencyKey.toString with
  | some row => exact Setting.TotalE.pure (hrest.forever hres (fun t' ht' => ⟨ht', rfl⟩))
  | none =>
      refine Setting.TotalE.bind (M := fun found t => found = some pd ∧ AtRest pg l issued t)
        (db_read_total hrest hres (getProviderById_transact p pg)
          (fun t ht => ⟨hres.provider, ht⟩)) (fun found t hfound => ?_)
      obtain ⟨-, rfl, hrest⟩ := hfound t .refl
      rw [orElse_some_bind]
      exact Setting.TotalE.pure (hrest.forever hres (fun t' ht' => ⟨ht', rfl⟩))

theorem ne_of_transactionByKey?_eq_none {key : String} (h : pg.transactionByKey? key = none) :
    ∀ row ∈ pg.transactions, row.idempotencyKey ≠ key := by
  intro row hrow heq
  have := List.find?_eq_none.mp h row hrow
  simp [heq] at this

/-- **What becomes of a request of a linked user.** -/
theorem transferHandler_total (h : AtRest pg l issued w) (hres : Resolves p u ud pd pg)
    (hrows : ∀ row ∈ pg.transactions, row.id ∈ issued.map Prod.fst)
    (hlive : live → CanProceed env issued) :
    (alone env (Resolves p u ud pd) live).TotalE
      (fun a => EndsFrom env d p u payload ud pd pg l issued (.ok a))
      (EndsFrom env d p u payload ud pd pg l issued) (transferHandler env d p u payload) w := by
  refine Setting.TotalE.bind (admission_total h hres) (fun a t ha => ?_)
  obtain ⟨-, hrest, rfl⟩ := ha t .refl
  unfold EndsFrom
  cases hkey : pg.transactionByKey? payload.idempotencyKey.toString with
  | some row => exact Setting.TotalE.pure (hrest.forever hres (fun t' ht' => ⟨rfl, ht'⟩))
  | none => exact prepare_settle_total hrest hres (ne_of_transactionByKey?_eq_none hkey) hrows hlive

/-- The same of the program that serves the request. -/
theorem serve_transferRequest_total (h : AtRest pg l issued w) (hres : Resolves p u ud pd pg)
    (hrows : ∀ row ∈ pg.transactions, row.id ∈ issued.map Prod.fst)
    (hlive : live → CanProceed env issued) :
    (alone env (Resolves p u ud pd) live).Total
      (fun a t => ∃ r, a = r.map (fun x => (x.1, Body.transaction x.2)) ∧
        EndsFrom env d p u payload ud pd pg l issued r t)
      (serve env (transferRequest d p u payload)) w := by
  rw [serve_transferRequest]
  refine Setting.Total.bind (Q := EndsFrom env d p u payload ud pd pg l issued)
    (Setting.TotalE.total (transferHandler_total h hres hrows hlive)) (fun r t hr t' ht' => ?_)
  obtain ⟨hd, hq⟩ := hr t' ht'
  exact ⟨hd, r, rfl, hq⟩

end

end Wurzburg.System
