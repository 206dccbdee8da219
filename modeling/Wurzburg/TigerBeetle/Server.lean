import Wurzburg.TigerBeetle.Models

/-!
# Wurzburg.TigerBeetle.Server

The ledger server, as far as the service relies on it.

TigerBeetle itself is not part of the repository, so it is a parameter: a
`TigerBeetle` says, for one account or one single-phase transfer, whether the
server accepts it and what the ledger is afterwards, and its law fields are the
documented behaviour the service counts on. `TigerBeetle.reference` is a
concrete server, for running schedules.

A creation call hands over a batch. The server applies it item by item, in
order, and returns one entry for every rejected item and none for an accepted
one (`applyBatch`); the entry's index is the item's position in the batch.
-/

namespace Wurzburg.Tb

/-- What the ledger holds. -/
structure Ledger where
  accounts : List Account
  transfers : List Transfer
  deriving DecidableEq, Repr

namespace Ledger

/-- The ledger before anything was created. -/
def empty : Ledger := ⟨[], []⟩

def account? (l : Ledger) (id : Nat) : Option Account := l.accounts.find? (fun a => a.id = id)

def transfer? (l : Ledger) (id : Nat) : Option Transfer :=
  l.transfers.find? (fun t => t.id = id)

/-- Store a new account. -/
def addAccount (l : Ledger) (a : Account) : Ledger := { l with accounts := l.accounts ++ [a] }

end Ledger

/-- The effect of a posted transfer on one account. -/
def Account.post (t : Transfer) (a : Account) : Account :=
  { a with
    debitsPosted := a.debitsPosted + if a.id = t.debitAccountId then t.amount else 0
    creditsPosted := a.creditsPosted + if a.id = t.creditAccountId then t.amount else 0 }

@[simp] theorem Account.post_id (t : Transfer) (a : Account) : (a.post t).id = a.id := rfl

@[simp] theorem Account.post_flags (t : Transfer) (a : Account) : (a.post t).flags = a.flags := rfl

@[simp] theorem Account.post_debitsPending (t : Transfer) (a : Account) :
    (a.post t).debitsPending = a.debitsPending := rfl

@[simp] theorem Account.post_debitsPosted (t : Transfer) (a : Account) :
    (a.post t).debitsPosted = a.debitsPosted + if a.id = t.debitAccountId then t.amount else 0 :=
  rfl

@[simp] theorem Account.post_creditsPosted (t : Transfer) (a : Account) :
    (a.post t).creditsPosted =
      a.creditsPosted + if a.id = t.creditAccountId then t.amount else 0 := rfl

@[simp] theorem Account.post_creditLimited (t : Transfer) (a : Account) :
    (a.post t).creditLimited = a.creditLimited := rfl

namespace Ledger

/-- Store an accepted single-phase transfer and move its amount. -/
def post (l : Ledger) (t : Transfer) : Ledger where
  accounts := l.accounts.map (Account.post t)
  transfers := l.transfers ++ [t]

/-- `lookup_accounts`: the accounts found, in request order. -/
def lookupAccounts (l : Ledger) (ids : List Nat) : List Account := ids.filterMap l.account?

/-- `lookup_transfers`: the transfers found, in request order. -/
def lookupTransfers (l : Ledger) (ids : List Nat) : List Transfer := ids.filterMap l.transfer?

theorem account?_id {l : Ledger} {id : Nat} {a : Account} (h : l.account? id = some a) :
    a.id = id := by
  simpa using List.find?_some h

theorem account?_mem {l : Ledger} {id : Nat} {a : Account} (h : l.account? id = some a) :
    a ∈ l.accounts :=
  List.mem_of_find?_eq_some h

theorem transfer?_id {l : Ledger} {id : Nat} {t : Transfer} (h : l.transfer? id = some t) :
    t.id = id := by
  simpa using List.find?_some h

theorem account?_eq_none {l : Ledger} {id : Nat} :
    l.account? id = none ↔ ∀ a ∈ l.accounts, a.id ≠ id := by
  simp [account?]

theorem transfer?_eq_none {l : Ledger} {id : Nat} :
    l.transfer? id = none ↔ ∀ t ∈ l.transfers, t.id ≠ id := by
  simp [transfer?]

@[simp] theorem post_transfers (l : Ledger) (t : Transfer) :
    (l.post t).transfers = l.transfers ++ [t] := rfl

@[simp] theorem post_accounts (l : Ledger) (t : Transfer) :
    (l.post t).accounts = l.accounts.map (Account.post t) := rfl

@[simp] theorem addAccount_transfers (l : Ledger) (a : Account) :
    (l.addAccount a).transfers = l.transfers := rfl

@[simp] theorem addAccount_accounts (l : Ledger) (a : Account) :
    (l.addAccount a).accounts = l.accounts ++ [a] := rfl

/-- A transfer changes the two accounts it names and finds all others as they
were. -/
theorem post_account? (l : Ledger) (t : Transfer) (id : Nat) :
    (l.post t).account? id = (l.account? id).map (Account.post t) := by
  simp only [account?, post_accounts, List.find?_map]
  rfl

end Ledger

/-- The ledger server: its verdict on one item, with the documented behaviour
the service relies on. -/
structure TigerBeetle where
  /-- Create one account: the new ledger, or the reason it was rejected. -/
  createAccount : Ledger → Account → Except Nat Ledger
  /-- Create one transfer: the new ledger, or the reason it was rejected. -/
  createTransfer : Ledger → Transfer → Except Nat Ledger
  /-- An accepted account is stored under an id that was free. -/
  createAccount_ok : ∀ {l a l'}, createAccount l a = .ok l' →
    l' = l.addAccount a ∧ l.account? a.id = none
  /-- An id that is already taken is rejected. -/
  createTransfer_fresh : ∀ {l t l'}, createTransfer l t = .ok l' → l.transfer? t.id = none
  /-- An accepted transfer without flags is posted at once. -/
  createTransfer_post : ∀ {l t l'}, createTransfer l t = .ok l' → t.flags = 0 → l' = l.post t
  /-- Both accounts of an accepted transfer without flags exist and differ. -/
  createTransfer_accounts : ∀ {l t l'}, createTransfer l t = .ok l' → t.flags = 0 →
    (l.account? t.debitAccountId).isSome ∧ (l.account? t.creditAccountId).isSome ∧
      t.debitAccountId ≠ t.creditAccountId
  /-- By one without flags, a credit-limited account is never debited beyond its credits. -/
  createTransfer_limited : ∀ {l t l' a}, createTransfer l t = .ok l' → t.flags = 0 →
    l.account? t.debitAccountId = some a → a.creditLimited →
      a.debitsPending + a.debitsPosted + t.amount ≤ a.creditsPosted

/-! ### Batches -/

section Batch

variable {β : Type} (create : Ledger → β → Except Nat Ledger)

/-- Apply a batch in order, from position `i` on. -/
def applyBatch (l : Ledger) (i : Nat) : List β → List CreateResult × Ledger
  | [] => ([], l)
  | x :: xs =>
      match create l x with
      | .ok l' => applyBatch l' (i + 1) xs
      | .error code =>
          (⟨i, code⟩ :: (applyBatch l (i + 1) xs).1, (applyBatch l (i + 1) xs).2)

/-- The verdict on each item of a batch: `none` for an accepted one. -/
def verdicts (l : Ledger) : List β → List (Option Nat)
  | [] => []
  | x :: xs =>
      match create l x with
      | .ok l' => none :: verdicts l' xs
      | .error code => some code :: verdicts l xs

@[simp] theorem verdicts_length (l : Ledger) (xs : List β) :
    (verdicts create l xs).length = xs.length := by
  induction xs generalizing l with
  | nil => rfl
  | cons x xs ih =>
      rw [verdicts]
      split <;> simp [ih]

/-- The entries returned are exactly the rejected positions, with their codes. -/
theorem mem_applyBatch {l : Ledger} {i : Nat} {xs : List β} {r : CreateResult} :
    r ∈ (applyBatch create l i xs).1 ↔
      ∃ j, r.index = i + j ∧ (verdicts create l xs)[j]? = some (some r.result) := by
  induction xs generalizing l i with
  | nil => simp [applyBatch, verdicts]
  | cons x xs ih =>
      rw [applyBatch, verdicts]
      cases create l x with
      | ok l' =>
          simp only [ih]
          constructor
          · rintro ⟨j, hj, hv⟩
            exact ⟨j + 1, by omega, by simpa using hv⟩
          · rintro ⟨j, hj, hv⟩
            cases j with
            | zero => simp at hv
            | succ j => exact ⟨j, by omega, by simpa using hv⟩
      | error code =>
          simp only [List.mem_cons, ih]
          constructor
          · rintro (rfl | ⟨j, hj, hv⟩)
            · exact ⟨0, by simp, by simp⟩
            · exact ⟨j + 1, by omega, by simpa using hv⟩
          · rintro ⟨j, hj, hv⟩
            cases j with
            | zero =>
                refine Or.inl ?_
                cases r
                simp_all
            | succ j => exact Or.inr ⟨j, by omega, by simpa using hv⟩

/-- A property of the ledger that accepting one item keeps is kept by a batch. -/
theorem applyBatch_induction {motive : Ledger → Prop} {l : Ledger} {i : Nat} {xs : List β}
    (step : ∀ x ∈ xs, ∀ l l', motive l → create l x = .ok l' → motive l') (hl : motive l) :
    motive (applyBatch create l i xs).2 := by
  induction xs generalizing l i with
  | nil => exact hl
  | cons x xs ih =>
      have hrest := fun y hy => step y (List.mem_cons_of_mem x hy)
      rw [applyBatch]
      cases hx : create l x with
      | ok l' => exact ih hrest (step x (List.mem_cons_self ..) l l' hl hx)
      | error code => exact ih hrest hl

/-- A batch none of whose items is rejected passes through an accepting state
for each of them. -/
theorem applyBatch_accepts {P : β → Ledger → Prop} {l : Ledger} {i : Nat} {xs : List β}
    (hnew : ∀ x ∈ xs, ∀ l l', create l x = .ok l' → P x l')
    (hkeep : ∀ x, ∀ y ∈ xs, ∀ l l', P x l → create l y = .ok l' → P x l')
    (h : (applyBatch create l i xs).1 = []) :
    ∀ x ∈ xs, P x (applyBatch create l i xs).2 := by
  induction xs generalizing l i with
  | nil => simp
  | cons x xs ih =>
      have hnew' := fun y hy => hnew y (List.mem_cons_of_mem x hy)
      have hkeep' := fun z y hy => hkeep z y (List.mem_cons_of_mem x hy)
      rw [applyBatch] at h ⊢
      cases hx : create l x with
      | error code => simp [hx] at h
      | ok l' =>
          simp only [hx] at h ⊢
          intro y hy
          rcases List.mem_cons.mp hy with rfl | hy
          · refine applyBatch_induction create (motive := P y) (fun z hz l₁ l₂ hP hok => ?_) ?_
            · exact hkeep' y z hz l₁ l₂ hP hok
            · exact hnew y (List.mem_cons_self ..) l l' hx
          · exact ih hnew' hkeep' h y hy

end Batch

/-! ### A concrete server -/

/-- The checks on a new account. The numbers are those of the client's results, in the order of
its enumeration, as `tb.result as u32` reads them; an id that is taken counts as `Exists`. -/
def accountChecks (l : Ledger) (a : Account) : List (Bool × Nat) :=
  [(a.id = 0, 10), (a.id = 2 ^ 128 - 1, 11), ((l.account? a.id).isSome, 18),
   (a.debitsPending ≠ 0, 20), (a.debitsPosted ≠ 0, 21), (a.creditsPending ≠ 0, 22),
   (a.creditsPosted ≠ 0, 23), (a.ledger = 0, 24), (a.code = 0, 25)]

/-- The debit would take a credit-limited account below zero. -/
def exceedsCredits (l : Ledger) (t : Transfer) : Bool :=
  match l.account? t.debitAccountId with
  | some a => a.creditLimited && decide (a.creditsPosted < a.debitsPending + a.debitsPosted + t.amount)
  | none => false

/-- The checks on a new single-phase transfer, numbered like those on an account. -/
def transferChecks (l : Ledger) (t : Transfer) : List (Bool × Nat) :=
  [(t.flags ≠ 0, 8), (t.id = 0, 9), (t.id = 2 ^ 128 - 1, 10), ((l.transfer? t.id).isSome, 22),
   (t.debitAccountId = t.creditAccountId, 29), (t.ledger = 0, 36), (t.code = 0, 37),
   ((l.account? t.debitAccountId).isNone, 38), ((l.account? t.creditAccountId).isNone, 39),
   (exceedsCredits l t, 66)]

/-- A concrete server that makes the checks above. -/
def TigerBeetle.reference : TigerBeetle where
  createAccount l a :=
    match firstFailure (accountChecks l a) with
    | some code => .error code
    | none => .ok (l.addAccount a)
  createTransfer l t :=
    match firstFailure (transferChecks l t) with
    | some code => .error code
    | none => .ok (l.post t)
  createAccount_ok := by
    intro l a l' h
    split at h
    · simp at h
    · next hf =>
        have hfree := firstFailure_eq_none.mp hf ((l.account? a.id).isSome, 18) (by simp [accountChecks])
        exact ⟨(Except.ok.inj h).symm, by simpa using hfree⟩
  createTransfer_fresh := by
    intro l t l' h
    split at h
    · simp at h
    · next hf =>
        have hfree := firstFailure_eq_none.mp hf ((l.transfer? t.id).isSome, 22) (by simp [transferChecks])
        simpa using hfree
  createTransfer_post := by
    intro l t l' h _
    split at h
    · simp at h
    · exact (Except.ok.inj h).symm
  createTransfer_accounts := by
    intro l t l' h _
    split at h
    · simp at h
    · next hf =>
        have hall := firstFailure_eq_none.mp hf
        have hd := hall ((l.account? t.debitAccountId).isNone, 38) (by simp [transferChecks])
        have hc := hall ((l.account? t.creditAccountId).isNone, 39) (by simp [transferChecks])
        have hne := hall (t.debitAccountId = t.creditAccountId, 29) (by simp [transferChecks])
        refine ⟨?_, ?_, by simpa using hne⟩
        · cases hx : l.account? t.debitAccountId <;> simp_all
        · cases hx : l.account? t.creditAccountId <;> simp_all
  createTransfer_limited := by
    intro l t l' a h _ ha hlim
    split at h
    · simp at h
    · next hf =>
        have hex := firstFailure_eq_none.mp hf (exceedsCredits l t, 66) (by simp [transferChecks])
        simp only [exceedsCredits, ha, hlim, Bool.true_and, decide_eq_false_iff_not] at hex
        omega

end Wurzburg.Tb
