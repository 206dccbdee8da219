import Wurzburg.Lib.DoubleEntry

/-!
# Wurzburg.Lib.Bank

**A bank.** Movements between accounts, each asked for under a key. A bank posts a
movement when nothing was posted under its key before and when the account it debits, if
that one is guarded, has the amount (`Postable`). So whatever it is asked for, it moves
nothing twice (`Run.keys_nodup`) and overdraws no guarded account (`Run.solvent`).

A book can be kept under other names for the accounts; what is postable does not depend on
them (`balance_renamed`).
-/

namespace Wurzburg.Lib.Bank

open Wurzburg.Lib.DoubleEntry

/-- A movement between accounts `ι`, under a key. -/
structure Movement (κ ι : Type) where
  key : κ
  entry : Entry ι

/-- What was posted, in order. -/
abbrev Book (κ ι : Type) := List (Movement κ ι)

section

variable {κ ι : Type} [DecidableEq ι]

/-- What an account holds. -/
def balance (book : Book κ ι) (a : ι) : Int := net (book.map Movement.entry) a

/-- The bank posts the movement. -/
structure Postable (guarded : ι → Prop) (book : Book κ ι) (m : Movement κ ι) : Prop where
  newKey : m.key ∉ book.map Movement.key
  apart : m.entry.debit ≠ m.entry.credit
  covered : guarded m.entry.debit → (m.entry.amount : Int) ≤ balance book m.entry.debit

/-- From one book to a later one, by movements that were asked for. -/
inductive Run (guarded : ι → Prop) (asked : Movement κ ι → Prop) (book₀ : Book κ ι) :
    Book κ ι → Prop
  | refl : Run guarded asked book₀ book₀
  | post {book : Book κ ι} {m : Movement κ ι} : Run guarded asked book₀ book → asked m →
      Postable guarded book m → Run guarded asked book₀ (book ++ [m])

variable {guarded : ι → Prop} {asked asked' : Movement κ ι → Prop} {book₀ book : Book κ ι}

theorem Run.mono (h : Run guarded asked book₀ book) (hasked : ∀ m, asked m → asked' m) :
    Run guarded asked' book₀ book := by
  induction h with
  | refl => exact .refl
  | post _ hm hpost ih => exact ih.post (hasked _ hm) hpost

theorem Run.trans {book₁ : Book κ ι} (h : Run guarded asked book₀ book₁)
    (h' : Run guarded asked book₁ book) : Run guarded asked book₀ book := by
  induction h' with
  | refl => exact h
  | post _ hm hpost ih => exact ih.post hm hpost

/-- Movements that are all asked for, each postable after those before it. -/
theorem run_append {more : Book κ ι}
    (h : ∀ pre m post, more = pre ++ m :: post → asked m ∧ Postable guarded (book₀ ++ pre) m) :
    Run guarded asked book₀ (book₀ ++ more) := by
  induction more using List.reverseRecOn with
  | nil =>
      rw [List.append_nil]
      exact .refl
  | append_singleton more m ih =>
      obtain ⟨hm, hpost⟩ := h more m [] rfl
      rw [← List.append_assoc]
      refine Run.post (ih (fun pre m' post heq => h pre m' (post ++ [m]) ?_)) hm hpost
      rw [heq, List.append_assoc, List.cons_append]

/-- Nothing is moved twice. -/
theorem Run.keys_nodup (h : Run guarded asked [] book) : (book.map Movement.key).Nodup := by
  induction h with
  | refl => exact List.nodup_nil
  | @post book m _ _ hpost ih =>
      rw [List.map_append]
      refine List.nodup_append.mpr ⟨ih, List.nodup_singleton _, fun k hk k' hk' => ?_⟩
      obtain rfl := List.mem_singleton.mp hk'
      rintro rfl
      exact hpost.newKey hk

/-- One movement takes from the account it debits, and from no other. -/
theorem balance_le_concat {m : Movement κ ι} (hapart : m.entry.debit ≠ m.entry.credit) (a : ι) :
    balance book a - (if a = m.entry.debit then (m.entry.amount : Int) else 0) ≤
      balance (book ++ [m]) a := by
  unfold balance
  rw [List.map_append, List.map_singleton, net_append, net.eq_def [m.entry], credits_singleton,
    debits_singleton]
  by_cases hdebit : a = m.entry.debit
  · have hcredit : a ≠ m.entry.credit := fun h => hapart (hdebit.symm.trans h)
    rw [if_pos hdebit, if_pos hdebit, if_neg hcredit]
    omega
  · rw [if_neg hdebit, if_neg hdebit]
    omega

/-- No guarded account is overdrawn. -/
theorem Run.solvent (h : Run guarded asked [] book) {a : ι} (ha : guarded a) :
    0 ≤ balance book a := by
  induction h with
  | refl => exact Int.le_refl _
  | @post book m _ _ hpost ih =>
      have hle : balance book a - _ ≤ _ := balance_le_concat hpost.apart a
      by_cases hdebit : a = m.entry.debit
      · subst hdebit
        have hcovered := hpost.covered ha
        rw [if_pos rfl] at hle
        omega
      · rw [if_neg hdebit] at hle
        omega

end

/-! ### Other names for the accounts -/

section

variable {κ κ' ι ι' : Type} [DecidableEq ι] [DecidableEq ι']

/-- `a'` stands for `a` in an entry. -/
structure Stands (a : ι) (a' : ι') (e : Entry ι) (e' : Entry ι') : Prop where
  debit : a = e.debit ↔ a' = e'.debit
  credit : a = e.credit ↔ a' = e'.credit
  amount : e.amount = e'.amount

/-- An account holds the same in both books. -/
theorem balance_renamed {a : ι} {a' : ι'} {book : Book κ ι} {book' : Book κ' ι'}
    {R : Movement κ ι → Movement κ' ι' → Prop} (h : List.Forall₂ R book book')
    (hR : ∀ m m', R m m' → Stands a a' m.entry m'.entry) :
    balance book a = balance book' a' := by
  unfold balance
  induction h with
  | nil => rfl
  | @cons m m' book book' hm _ ih =>
      obtain ⟨hdebit, hcredit, hamount⟩ := hR m m' hm
      have hsplit : net ((m :: book).map Movement.entry) a =
          net [m.entry] a + net (book.map Movement.entry) a := net_append [m.entry] _ a
      have hsplit' : net ((m' :: book').map Movement.entry) a' =
          net [m'.entry] a' + net (book'.map Movement.entry) a' := net_append [m'.entry] _ a'
      rw [hsplit, hsplit', ih, net.eq_def [m.entry], net.eq_def [m'.entry], credits_singleton,
        debits_singleton, credits_singleton, debits_singleton, hamount]
      simp only [hdebit, hcredit]

end

end Wurzburg.Lib.Bank
