import Wurzburg.System.Bank

/-!
# Wurzburg.System.Reconciliation

The figures of the ledger against the journal, account by account.

Between the ledger call and the row a request can stop, so the ledger may hold transfers that
have no row (`unrecorded`). These are the whole difference (`figures_reconcile`): every
account shows what its rows add up to and what the unrecorded transfers add up to, and an
unrecorded transfer is always one of a request that was not answered with 200.
-/

namespace Wurzburg.System

open Wurzburg.Lib Wurzburg.Db Wurzburg.Tb Wurzburg.Api

/-! ### What has no row -/

/-- The idempotency key of a transfer. -/
def keyOf (t : Transfer) : String := (⟨BitVec.ofNat 128 t.id⟩ : Uuid).toString

/-- The transfers that the journal does not show. -/
def unrecorded (w : World) : List Transfer :=
  w.worker.ledger.transfers.filter (fun t => keyOf t ∉ w.pg.transactions.map (·.idempotencyKey))

/-- What a row says was moved. -/
def rowEntry (row : Transaction) : DoubleEntry.Entry Nat :=
  ⟨row.drAccountId.asU128, row.crAccountId.asU128, row.amount.toNat⟩

/-- The request asks for a transfer under the id. -/
def AsksUnder (t : Serving) (id : Nat) : Prop :=
  ∃ d p u payload, t.req = transferRequest d p u payload ∧ payload.idempotencyKey.asU128 = id

/-- The request asks for the transfer, with its key, its amount and its accounts. -/
def AsksForTransfer (pg : Pg) (task : Serving) (t : Transfer) : Prop :=
  ∃ d p u payload, task.req = transferRequest d p u payload ∧
    CarriesOut pg (movement d p u payload) t

section

variable {env : Env} {w : World}

theorem keyOf_eq {t : Transfer} {key : Uuid} (h : t.id = key.asU128) : keyOf t = key.toString := by
  unfold keyOf
  rw [h, Uuid.asU128, BitVec.ofNat_toNat, BitVec.setWidth_eq]

theorem BackedBy.entry {pg : Pg} {row : Transaction} {key : Uuid} {t : Transfer}
    (h : BackedBy pg row key t) : t.entry = rowEntry row := by
  have hamount : t.amount = row.amount.toNat := by
    rw [← h.amount, Int.toNat_natCast]
  rw [Transfer.entry, rowEntry, h.debit, h.credit, hamount]

/-- The id of a transfer of the service is the key of a request. -/
theorem Inv.transfer_key (h : Inv env w) {t : Transfer} (ht : t ∈ w.worker.ledger.transfers) :
    ∃ key : Uuid, t.id = key.asU128 := by
  obtain ⟨app, ⟨d, payload, p, -, ua, -, -, rfl⟩, rfl⟩ := h.worker.ledger.transfers t ht
  exact ⟨payload.idempotencyKey, rfl⟩

theorem Inv.keyOf_inj (h : Inv env w) {t u : Transfer} (ht : t ∈ w.worker.ledger.transfers)
    (hu : u ∈ w.worker.ledger.transfers) (heq : keyOf t = keyOf u) : t = u := by
  obtain ⟨key, hkey⟩ := h.transfer_key ht
  obtain ⟨key', hkey'⟩ := h.transfer_key hu
  rw [keyOf_eq hkey, keyOf_eq hkey'] at heq
  refine List.inj_on_of_nodup_map h.worker.ledger.transferIds ht hu ?_
  rw [hkey, hkey', Uuid.toString_inj.mp heq]

/-- The transfer behind a row. -/
theorem Inv.row_transfer (h : Inv env w) {row : Transaction} (hrow : row ∈ w.pg.transactions) :
    ∃ t ∈ w.worker.ledger.transfers, keyOf t = row.idempotencyKey ∧ t.entry = rowEntry row := by
  obtain ⟨d, p, u, pl, ul, ⟨payload, _, _, _, _, _, _, _, _, _, hkey, -⟩, -⟩ := h.journal row hrow
  obtain ⟨t, ht, hbacked⟩ := (h.journal row hrow).backedBy hkey
  exact ⟨t, ht, (keyOf_eq hbacked.id).trans hkey.symm, hbacked.entry⟩

/-- The rows are the recorded transfers. -/
theorem Inv.rows_perm (h : Inv env w) :
    (w.pg.transactions.map rowEntry ++ (unrecorded w).map Transfer.entry).Perm
      w.worker.ledger.entries := by
  let recorded := w.worker.ledger.transfers.filter
    (fun t => keyOf t ∈ w.pg.transactions.map (·.idempotencyKey))
  -- both sides under their keys, of which there are no two alike
  have hperm : (w.pg.transactions.map (fun row => (row.idempotencyKey, rowEntry row))).Perm
      (recorded.map (fun t => (keyOf t, t.entry))) := by
    have hrows : (w.pg.transactions.map (fun row => (row.idempotencyKey, rowEntry row))).Nodup := by
      refine List.Nodup.of_map Prod.fst ?_
      rw [List.map_map]
      exact h.tables.keys
    have hrecorded : (recorded.map (fun t => (keyOf t, t.entry))).Nodup := by
      refine List.Nodup.map_on (fun t ht u hu heq => ?_)
        (List.Nodup.of_map _ h.worker.ledger.transferIds |>.filter _)
      exact h.keyOf_inj (List.mem_filter.mp ht).1 (List.mem_filter.mp hu).1 (Prod.mk.inj heq).1
    refine (List.perm_ext_iff_of_nodup hrows hrecorded).mpr (fun e => ?_)
    constructor
    · intro he
      obtain ⟨row, hrow, rfl⟩ := List.mem_map.mp he
      obtain ⟨t, ht, hkey, hentry⟩ := h.row_transfer hrow
      rw [← hkey, ← hentry]
      refine List.mem_map_of_mem (List.mem_filter.mpr ⟨ht, decide_eq_true ?_⟩)
      rw [hkey]
      exact List.mem_map_of_mem hrow
    · intro he
      obtain ⟨t, ht, rfl⟩ := List.mem_map.mp he
      obtain ⟨ht, hmem⟩ := List.mem_filter.mp ht
      obtain ⟨row, hrow, hkey⟩ := List.mem_map.mp (of_decide_eq_true hmem)
      obtain ⟨u, hu, hkey', hentry⟩ := h.row_transfer hrow
      obtain rfl := h.keyOf_inj ht hu (hkey.symm.trans hkey'.symm)
      rw [hentry, ← hkey]
      exact List.mem_map_of_mem hrow
  have hentries := hperm.map Prod.snd
  rw [List.map_map, List.map_map] at hentries
  refine (hentries.append_right _).trans ?_
  have hsplit := List.filter_append_perm
    (fun t => decide (keyOf t ∈ w.pg.transactions.map (·.idempotencyKey)))
    w.worker.ledger.transfers
  have hunrecorded : unrecorded w = w.worker.ledger.transfers.filter
      (fun t => !decide (keyOf t ∈ w.pg.transactions.map (·.idempotencyKey))) :=
    List.filter_congr (fun t _ => decide_not)
  rw [hunrecorded]
  have hmap := hsplit.map Transfer.entry
  rw [List.map_append] at hmap
  exact hmap

/-- An answer of 200 leaves a row under the key. -/
theorem Reachable.answered_row {c : State} (h : Reachable env c) {task : Serving}
    (htask : task ∈ c.tasks) {d : Direction} {p u : Uuid} {payload : TransferRequest}
    (hreq : task.req = transferRequest d p u payload) {a : Answer} (ha : task.answer? = some a)
    (hok : a.status = .ok) :
    payload.idempotencyKey.toString ∈ c.world.pg.transactions.map (·.idempotencyKey) := by
  obtain ⟨response, -, row, hrow, -, hkey, -⟩ :=
    h.holds.answered htask ha d p u payload hreq hok
  rw [← hkey]
  exact List.mem_map_of_mem hrow

end

/-- **The figures reconcile.** In every reachable state: what an account of the ledger has
been debited and credited with is what its rows and the unrecorded transfers add up to; for
every unrecorded transfer a request has arrived that asks for it, and no request under its key
was answered with 200; and rows of the journal are never changed or taken away. -/
theorem figures_reconcile {env : Env} {c : State} (h : Reachable env c) :
    (∀ a ∈ c.world.worker.ledger.accounts,
      a.debitsPosted = DoubleEntry.debits (c.world.pg.transactions.map rowEntry) a.id +
        DoubleEntry.debits ((unrecorded c.world).map Transfer.entry) a.id ∧
      a.creditsPosted = DoubleEntry.credits (c.world.pg.transactions.map rowEntry) a.id +
        DoubleEntry.credits ((unrecorded c.world).map Transfer.entry) a.id) ∧
    (∀ t ∈ unrecorded c.world, (∃ task ∈ c.tasks, AsksForTransfer c.world.pg task t) ∧
      ∀ task ∈ c.tasks, AsksUnder task t.id → ∀ a, task.answer? = some a → a.status ≠ .ok) ∧
    ∀ c', (machine env).Reach (fun _ _ => True) c c' →
      c.world.pg.transactions <+: c'.world.pg.transactions := by
  refine ⟨fun a ha => ?_, fun t ht => ⟨?_, ?_⟩, fun c' hreach => (h.grows hreach).pg.transactions⟩
  · obtain ⟨hd, hc⟩ := h.inv.worker.ledger.posted a ha
    rw [← DoubleEntry.debits_append, ← DoubleEntry.credits_append,
      DoubleEntry.debits_perm h.inv.rows_perm, DoubleEntry.credits_perm h.inv.rows_perm]
    exact ⟨hd, hc⟩
  · obtain ⟨app, ⟨task, htask, hof⟩, rfl⟩ :=
      h.orderly.worker.ledger.transfers t (List.mem_filter.mp ht).1
    exact ⟨task, htask, hof.carriesOut⟩
  · rintro task htask ⟨d, p, u, payload, hreq, hid⟩ a ha hok
    have hrow := h.answered_row htask hreq ha hok
    rw [← keyOf_eq hid.symm] at hrow
    exact of_decide_eq_true (List.mem_filter.mp ht).2 hrow

/-- A debit of 200 that the ledger has taken, before its row is written. -/
def halfDebit : State :=
  serveAlone defaultEnv oneCredit.tasks.length 8
    (arrived defaultEnv oneCredit (.debitUser ⟨1002⟩ ⟨1008⟩ ⟨⟨9⟩, 200, none⟩))

theorem figures_reconcile_halfDebit :
    (unrecorded halfDebit.world).map Transfer.amount = [200] ∧
    (∀ a ∈ halfDebit.world.worker.ledger.accounts,
      a.debitsPosted = DoubleEntry.debits (halfDebit.world.pg.transactions.map rowEntry) a.id +
        DoubleEntry.debits ((unrecorded halfDebit.world).map Transfer.entry) a.id ∧
      a.creditsPosted = DoubleEntry.credits (halfDebit.world.pg.transactions.map rowEntry) a.id +
        DoubleEntry.credits ((unrecorded halfDebit.world).map Transfer.entry) a.id) ∧
    ∀ t ∈ unrecorded halfDebit.world, ∃ task ∈ halfDebit.tasks,
      AsksForTransfer halfDebit.world.pg task t := by
  have hreachable : Reachable defaultEnv halfDebit :=
    (arrived_reachable oneCredit_reachable _).extend (serveAlone_reach _ _ _ _)
  obtain ⟨hfigures, hasked, -⟩ := figures_reconcile hreachable
  exact ⟨by decide +kernel, hfigures, fun t ht => (hasked t ht).1⟩

end Wurzburg.System
