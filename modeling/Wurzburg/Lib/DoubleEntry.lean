import Mathlib.Algebra.BigOperators.Group.Finset.Basic
import Mathlib.Algebra.BigOperators.Ring.Finset
import Mathlib.Data.Int.Order.Basic

/-!
# Wurzburg.Lib.DoubleEntry

**Double-entry bookkeeping.** A journal is a list of entries, each moving an
amount from the account it debits to the account it credits. What an account
has been debited and credited with are sums over the journal, and over any
group of accounts that no entry crosses the credits and debits cancel
(`net_sum_closed`).
-/

namespace Wurzburg.Lib.DoubleEntry

/-- One entry of a journal over accounts `ι`. -/
structure Entry (ι : Type) where
  debit : ι
  credit : ι
  amount : Nat

section

variable {ι : Type} [DecidableEq ι]

/-- Everything an account has been debited with. -/
def debits (es : List (Entry ι)) (a : ι) : Nat :=
  (es.map (fun e => if a = e.debit then e.amount else 0)).sum

/-- Everything an account has been credited with. -/
def credits (es : List (Entry ι)) (a : ι) : Nat :=
  (es.map (fun e => if a = e.credit then e.amount else 0)).sum

/-- Credits less debits. -/
def net (es : List (Entry ι)) (a : ι) : Int := (credits es a : Int) - debits es a

theorem debits_append (es fs : List (Entry ι)) (a : ι) :
    debits (es ++ fs) a = debits es a + debits fs a := by
  simp [debits]

theorem credits_append (es fs : List (Entry ι)) (a : ι) :
    credits (es ++ fs) a = credits es a + credits fs a := by
  simp [credits]

@[simp] theorem debits_singleton (e : Entry ι) (a : ι) :
    debits [e] a = if a = e.debit then e.amount else 0 := by
  simp [debits]

@[simp] theorem credits_singleton (e : Entry ι) (a : ι) :
    credits [e] a = if a = e.credit then e.amount else 0 := by
  simp [credits]

@[simp] theorem debits_nil (a : ι) : debits ([] : List (Entry ι)) a = 0 := rfl

@[simp] theorem credits_nil (a : ι) : credits ([] : List (Entry ι)) a = 0 := rfl

theorem net_append (es fs : List (Entry ι)) (a : ι) :
    net (es ++ fs) a = net es a + net fs a := by
  simp only [net, debits_append, credits_append]
  omega

theorem debits_perm {es fs : List (Entry ι)} (h : es.Perm fs) (a : ι) : debits es a = debits fs a :=
  (h.map _).sum_eq

theorem credits_perm {es fs : List (Entry ι)} (h : es.Perm fs) (a : ι) :
    credits es a = credits fs a :=
  (h.map _).sum_eq

/-- An account no entry debits. -/
theorem debits_eq_zero {es : List (Entry ι)} {a : ι} (h : ∀ e ∈ es, e.debit ≠ a) :
    debits es a = 0 := by
  induction es with
  | nil => rfl
  | cons e es ih =>
      have hne : a ≠ e.debit := fun hae => h e (List.mem_cons_self ..) hae.symm
      have hrest := ih fun e he => h e (List.mem_cons_of_mem _ he)
      simpa [debits, hne] using hrest

/-- An account no entry credits. -/
theorem credits_eq_zero {es : List (Entry ι)} {a : ι} (h : ∀ e ∈ es, e.credit ≠ a) :
    credits es a = 0 := by
  induction es with
  | nil => rfl
  | cons e es ih =>
      have hne : a ≠ e.credit := fun hae => h e (List.mem_cons_self ..) hae.symm
      have hrest := ih fun e he => h e (List.mem_cons_of_mem _ he)
      simpa [credits, hne] using hrest

/-- An account no entry touches nets to zero. -/
theorem net_eq_zero {es : List (Entry ι)} {a : ι} (h : ∀ e ∈ es, e.debit ≠ a ∧ e.credit ≠ a) :
    net es a = 0 := by
  rw [net, debits_eq_zero fun e he => (h e he).1, credits_eq_zero fun e he => (h e he).2]
  rfl

/-- What one entry adds to the net of a group that it does not cross. -/
private theorem net_sum_entry {G : Finset ι} {e : Entry ι} (h : e.debit ∈ G ↔ e.credit ∈ G) :
    ∑ a ∈ G, net [e] a = 0 := by
  simp only [net, credits_singleton, debits_singleton, Finset.sum_sub_distrib, Nat.cast_ite,
    Nat.cast_zero, Finset.sum_ite_eq']
  by_cases hd : e.debit ∈ G
  · simp [hd, h.mp hd]
  · simp [hd, mt h.mpr hd]

/-- **Conservation.** Over a group of accounts that no entry crosses, credits
and debits cancel. -/
theorem net_sum_closed {G : Finset ι} {es : List (Entry ι)}
    (h : ∀ e ∈ es, e.debit ∈ G ↔ e.credit ∈ G) : ∑ a ∈ G, net es a = 0 := by
  induction es with
  | nil => simp [net]
  | cons e es ih =>
      have hhead := net_sum_entry (h e (List.mem_cons_self ..))
      have htail := ih fun e he => h e (List.mem_cons_of_mem _ he)
      have hsplit : ∀ a, net (e :: es) a = net [e] a + net es a := net_append [e] es
      simp only [hsplit, Finset.sum_add_distrib, hhead, htail, add_zero]

/-- The hub-and-spokes form: what the hub has paid out, net, is what the spokes
have received, net. -/
theorem net_hub {hub : ι} {spokes : List ι} (hnodup : (hub :: spokes).Nodup)
    {es : List (Entry ι)}
    (h : ∀ e ∈ es, e.debit ∈ hub :: spokes ↔ e.credit ∈ hub :: spokes) :
    - net es hub = (spokes.map (net es)).sum := by
  have hclosed : ∑ a ∈ (hub :: spokes).toFinset, net es a = 0 :=
    net_sum_closed (by simpa only [List.mem_toFinset] using h)
  rw [List.sum_toFinset _ hnodup] at hclosed
  replace hclosed : net es hub + (spokes.map (net es)).sum = 0 := hclosed
  omega

/-- What an account is credited with comes out of the account that all its credits debit. -/
theorem credits_le_debits {es : List (Entry ι)} {a b : ι}
    (h : ∀ e ∈ es, e.credit = a → e.debit = b) : credits es a ≤ debits es b := by
  induction es with
  | nil => exact Nat.le_refl _
  | cons e es ih =>
      have hrest := ih fun e he => h e (List.mem_cons_of_mem _ he)
      have hsplit := credits_append [e] es a
      have hsplit' := debits_append [e] es b
      rw [List.singleton_append] at hsplit hsplit'
      rw [hsplit, hsplit', credits_singleton, debits_singleton]
      by_cases hcredit : a = e.credit
      · have hdebit := h e (List.mem_cons_self ..) hcredit.symm
        rw [if_pos hcredit, if_pos hdebit.symm]
        omega
      · rw [if_neg hcredit]
        omega

/-- One entry adds at most its amount to the net of a group, and that only if it credits one of
them. -/
theorem net_sum_concat_le {group : List ι} (hnodup : group.Nodup) (es : List (Entry ι))
    (e : Entry ι) :
    (group.map (net (es ++ [e]))).sum ≤
      (group.map (net es)).sum + if e.credit ∈ group then (e.amount : Int) else 0 := by
  induction group with
  | nil => simp
  | cons a group ih =>
      obtain ⟨hout, hnodup⟩ := List.nodup_cons.mp hnodup
      have hrest := ih hnodup
      have hhead : net (es ++ [e]) a ≤ net es a + if e.credit = a then (e.amount : Int) else 0 := by
        rw [net_append, net.eq_def [e], credits_singleton, debits_singleton]
        by_cases hcredit : e.credit = a
        · rw [if_pos hcredit, if_pos hcredit.symm]
          omega
        · rw [if_neg hcredit, if_neg (fun h => hcredit h.symm)]
          omega
      simp only [List.map_cons, List.sum_cons, List.mem_cons]
      by_cases hcredit : e.credit = a
      · -- the other accounts of the group are not credited
        rw [if_pos hcredit] at hhead
        rw [if_pos (Or.inl hcredit)]
        rw [if_neg (hcredit ▸ hout)] at hrest
        omega
      · rw [if_neg hcredit] at hhead
        simp only [hcredit, false_or]
        omega
end

end Wurzburg.Lib.DoubleEntry
