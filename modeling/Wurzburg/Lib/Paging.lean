import Mathlib.Data.List.Count
import Mathlib.Data.List.Nodup
import Mathlib.Data.List.Sort

/-!
# Wurzburg.Lib.Paging

**Reading a list page by page.** A query orders its rows by a key that need not be
unique, so its result is fixed only up to ties: `DescendingBy key` is one such
order, and two queries can use different ones. `pages` reads page after page, each
with the order of its own query.

The pages are a permutation of the rows, whatever the orders, exactly when no
boundary between two pages `Splits` rows of one key (`pages_perm`,
`exists_not_nodup`).
-/

namespace Wurzburg.Lib.Paging

variable {α κ : Type} [LinearOrder κ]

/-- `ORDER BY key DESC`: some order of any rows, fixed up to ties. -/
structure DescendingBy (key : α → κ) where
  sort : List α → List α
  perm : ∀ rows, (sort rows).Perm rows
  sorted : ∀ rows, (sort rows).Pairwise (fun a b => key b ≤ key a)

/-- `LIMIT limit OFFSET offset` -/
def slice (limit offset : Nat) (rows : List α) : List α := (rows.drop offset).take limit

/-- Page after page, each with the order of its own query. -/
def pages {key : α → κ} (orders : Nat → DescendingBy key) (limit count : Nat) (rows : List α) :
    List α :=
  (List.range count).flatMap (fun k => slice limit (k * limit) ((orders k).sort rows))

/-- How many rows come before those of a key. -/
def above (key : α → κ) (rows : List α) (t : κ) : Nat := rows.countP (fun a => t < key a)

/-- How many rows there are up to those of a key, these included. -/
def upTo (key : α → κ) (rows : List α) (t : κ) : Nat := rows.countP (fun a => t ≤ key a)

/-- Position `n` lies within the rows of one key. -/
def Splits (key : α → κ) (rows : List α) (n : Nat) : Prop :=
  ∃ a ∈ rows, above key rows (key a) < n ∧ n < upTo key rows (key a)

instance (key : α → κ) (rows : List α) (n : Nat) : Decidable (Splits key rows n) :=
  inferInstanceAs (Decidable (∃ a ∈ rows, _))

/-! ### Orders -/

namespace DescendingBy

variable {key : α → κ}

/-- The stable order. -/
def stable (key : α → κ) : DescendingBy key where
  sort rows := rows.insertionSort (fun a b => key b ≤ key a)
  perm rows := List.perm_insertionSort _ rows
  sorted rows := by
    have htotal : Std.Total (fun a b : α => key b ≤ key a) := ⟨fun a b => le_total (key b) (key a)⟩
    have htrans : IsTrans α (fun a b => key b ≤ key a) := ⟨fun _ _ _ hab hbc => hbc.trans hab⟩
    exact List.pairwise_insertionSort _ rows

/-- The order that puts ties the other way round. -/
def backwards (o : DescendingBy key) : DescendingBy key where
  sort rows := o.sort rows.reverse
  perm rows := (o.perm rows.reverse).trans rows.reverse_perm
  sorted rows := o.sorted rows.reverse

/-- An order that differs on one list. -/
def replace [DecidableEq α] (o : DescendingBy key) {rows xs : List α} (hperm : xs.Perm rows)
    (hsorted : xs.Pairwise (fun a b => key b ≤ key a)) : DescendingBy key where
  sort r := if r = rows then xs else o.sort r
  perm r := by
    split
    · next h => exact h ▸ hperm
    · exact o.perm r
  sorted r := by
    split
    · exact hsorted
    · exact o.sorted r

@[simp] theorem replace_sort [DecidableEq α] (o : DescendingBy key) {rows xs : List α}
    (hperm : xs.Perm rows) (hsorted : xs.Pairwise (fun a b => key b ≤ key a)) :
    (o.replace hperm hsorted).sort rows = xs := if_pos rfl

end DescendingBy

/-! ### Positions in a sorted list -/

section

variable {key : α → κ} {rows xs : List α} {n i : Nat} {a : α}

theorem above_perm (h : xs.Perm rows) (t : κ) : above key xs t = above key rows t :=
  h.countP_eq _

theorem upTo_perm (h : xs.Perm rows) (t : κ) : upTo key xs t = upTo key rows t :=
  h.countP_eq _

/-- A row stands after those of greater keys and within those of its own. -/
theorem position (hs : xs.Pairwise (fun a b => key b ≤ key a)) (h : xs[i]? = some a) :
    above key xs (key a) ≤ i ∧ i < upTo key xs (key a) := by
  obtain ⟨hi, hget⟩ := List.getElem?_eq_some_iff.mp h
  have hsplit : xs = xs.take i ++ a :: xs.drop (i + 1) := by
    rw [← hget, List.getElem_cons_drop, List.take_append_drop]
  rw [hsplit, List.pairwise_append, List.pairwise_cons] at hs
  obtain ⟨-, ⟨hafter, -⟩, hbefore⟩ := hs
  have hlen : (xs.take i).length = i := by rw [List.length_take]; omega
  constructor
  · have hnone : (a :: xs.drop (i + 1)).countP (fun b => key a < key b) = 0 := by
      rw [List.countP_eq_zero]
      intro b hb
      rcases List.mem_cons.mp hb with rfl | hb
      · simp
      · simpa using hafter b hb
    have hle : (xs.take i).countP (fun b => key a < key b) ≤ (xs.take i).length :=
      List.countP_le_length
    unfold above
    rw [hsplit, List.countP_append, hnone]
    omega
  · have hall : (xs.take i).countP (fun b => key a ≤ key b) = (xs.take i).length := by
      rw [List.countP_eq_length]
      exact fun b hb => by simpa using hbefore b hb a (List.mem_cons_self ..)
    unfold upTo
    rw [hsplit, List.countP_append, hall, List.countP_cons_of_pos (by simp)]
    omega

/-- Rows of a smaller key come after all those of a greater one. -/
theorem upTo_le_above (key : α → κ) (rows : List α) {t t' : κ} (h : t < t') : upTo key rows t' ≤ above key rows t := by
  refine List.countP_mono_left (fun b _ hb => ?_)
  simp only [decide_eq_true_eq] at hb ⊢
  exact h.trans_le hb

theorem upTo_le_length (key : α → κ) (rows : List α) (t : κ) : upTo key rows t ≤ rows.length := List.countP_le_length

/-- In a split, the rows next to the position have one key. -/
theorem key_eq_of_position (hs : xs.Pairwise (fun a b => key b ≤ key a)) {t : κ}
    (hlo : above key xs t ≤ i) (hhi : i < upTo key xs t) (h : xs[i]? = some a) : key a = t := by
  obtain ⟨hlo', hhi'⟩ := position hs h
  rcases lt_trichotomy (key a) t with hlt | heq | hgt
  · have := upTo_le_above key xs hlt
    omega
  · exact heq
  · have := upTo_le_above key xs hgt
    omega

/-! ### Pages without splits -/

/-- Up to a position that splits nothing, every order has the same rows. -/
theorem take_eq_filter (hp : xs.Perm rows) (hs : xs.Pairwise (fun a b => key b ≤ key a))
    (hn : ¬ Splits key rows n) :
    xs.take n = xs.filter (fun a => above key rows (key a) < n) := by
  have hpos : ∀ i a, xs[i]? = some a → (above key rows (key a) < n ↔ i < n) := by
    intro i a h
    obtain ⟨hlo, hhi⟩ := position hs h
    rw [above_perm hp] at hlo
    rw [upTo_perm hp] at hhi
    constructor
    · intro hlt
      by_contra hge
      exact hn ⟨a, hp.subset (List.mem_of_getElem? h), hlt, by omega⟩
    · omega
  have htake : (xs.take n).filter (fun a => above key rows (key a) < n) = xs.take n := by
    rw [List.filter_eq_self]
    intro a ha
    obtain ⟨i, hi⟩ := List.getElem?_of_mem ha
    rw [List.getElem?_take] at hi
    split at hi
    · next hlt => simpa using (hpos i a hi).mpr hlt
    · cases hi
  have hdrop : (xs.drop n).filter (fun a => above key rows (key a) < n) = [] := by
    rw [List.filter_eq_nil_iff]
    intro a ha
    obtain ⟨i, hi⟩ := List.getElem?_of_mem ha
    rw [List.getElem?_drop] at hi
    intro hlt
    have := (hpos _ a hi).mp (by simpa using hlt)
    omega
  conv_rhs => rw [← List.take_append_drop n xs]
  rw [List.filter_append, htake, hdrop, List.append_nil]

theorem take_succ_page (limit k : Nat) (xs : List α) :
    xs.take ((k + 1) * limit) = xs.take (k * limit) ++ slice limit (k * limit) xs := by
  rw [Nat.succ_mul, List.take_add]
  rfl

/-- The first pages are the first rows, whatever the orders. -/
theorem pages_perm_filter (orders : Nat → DescendingBy key) {limit : Nat} (count : Nat)
    (h : ∀ k, ¬ Splits key rows (k * limit)) :
    (pages orders limit count rows).Perm
      (rows.filter (fun a => above key rows (key a) < count * limit)) := by
  induction count with
  | zero => simp [pages]
  | succ count ih =>
      obtain ⟨o, ho⟩ : ∃ o, orders count = o := ⟨_, rfl⟩
      have htake := fun n hn => take_eq_filter (n := n) (o.perm rows) (o.sorted rows) hn
      have hfirst : (rows.filter (fun a => above key rows (key a) < count * limit)).Perm
          ((o.sort rows).take (count * limit)) := by
        rw [htake _ (h count)]
        exact ((o.perm rows).filter _).symm
      have hnext : pages orders limit (count + 1) rows =
          pages orders limit count rows ++ slice limit (count * limit) (o.sort rows) := by
        unfold pages
        rw [List.range_succ, List.flatMap_append, List.flatMap_singleton, ho]
      rw [hnext]
      refine ((ih.trans hfirst).append_right _).trans ?_
      rw [← take_succ_page, htake _ (h (count + 1))]
      exact (o.perm rows).filter _

/-- All pages are all rows. -/
theorem pages_perm (orders : Nat → DescendingBy key) {limit count : Nat}
    (hlen : rows.length ≤ count * limit) (h : ∀ k, ¬ Splits key rows (k * limit)) :
    (pages orders limit count rows).Perm rows := by
  have hall : rows.filter (fun a => above key rows (key a) < count * limit) = rows := by
    rw [List.filter_eq_self]
    intro a ha
    have hlt : above key rows (key a) < rows.length :=
      List.countP_lt_length_iff.mpr ⟨a, ha, by simp⟩
    exact decide_eq_true (by omega)
  have hfirst := pages_perm_filter orders count h
  rw [hall] at hfirst
  exact hfirst

/-! ### Splits -/

/-- Neighbours of one key can be exchanged. -/
theorem exists_swapped [DecidableEq α] (o : DescendingBy key) {a b : α} {before after : List α}
    (hsort : o.sort rows = before ++ a :: b :: after) (hkey : key a = key b) :
    ∃ o' : DescendingBy key, o'.sort rows = before ++ b :: a :: after := by
  have hperm := o.perm rows
  have hsorted := o.sorted rows
  rw [hsort] at hperm hsorted
  have hperm' : (before ++ b :: a :: after).Perm rows :=
    ((List.Perm.swap a b after).append_left before).trans hperm
  have hsorted' : (before ++ b :: a :: after).Pairwise (fun a b => key b ≤ key a) := by
    simp only [List.pairwise_append, List.pairwise_cons, List.forall_mem_cons] at hsorted ⊢
    obtain ⟨hbefore, ⟨⟨-, ha⟩, hb, hafter⟩, hbetween⟩ := hsorted
    refine ⟨hbefore, ⟨⟨hkey.le, hb⟩, ha, hafter⟩, fun c hc => ?_⟩
    obtain ⟨hca, hcb, hrest⟩ := hbetween c hc
    exact ⟨hcb, hca, hrest⟩
  exact ⟨o.replace hperm' hsorted', o.replace_sort hperm' hsorted'⟩

/-- A row on two pages is read twice. -/
theorem not_nodup_pages {orders : Nat → DescendingBy key} {limit count k l : Nat} (hk : k < l)
    (hl : l < count) (h : a ∈ slice limit (k * limit) ((orders k).sort rows))
    (h' : a ∈ slice limit (l * limit) ((orders l).sort rows)) :
    ¬ (pages orders limit count rows).Nodup := by
  intro hnodup
  unfold pages at hnodup
  rw [List.nodup_flatMap] at hnodup
  have hdisjoint := List.pairwise_iff_getElem.mp hnodup.2 k l (by simp; omega) (by simpa) hk
  simp only [List.getElem_range] at hdisjoint
  exact hdisjoint h h'

/-- **Where a boundary splits rows of one key**, some orders of two queries put one row on
the page before it and on the page after it. -/
theorem exists_not_nodup [DecidableEq α] {limit count k : Nat} (hlimit : 0 < limit)
    (hlen : rows.length ≤ count * limit) (h : Splits key rows (k * limit)) :
    ∃ orders : Nat → DescendingBy key, ¬ (pages orders limit count rows).Nodup := by
  obtain ⟨c, -, hlo, hhi⟩ := h
  obtain ⟨o, ho⟩ : ∃ o, DescendingBy.stable key = o := ⟨_, rfl⟩
  have hlength : (o.sort rows).length = rows.length := (o.perm rows).length_eq
  have hmax := upTo_le_length key rows (key c)
  -- the boundary is inside the list, so there is a page before it and a page after it
  have hk : k < count := by
    by_contra hge
    have := Nat.mul_le_mul_right limit (Nat.le_of_not_lt hge)
    omega
  obtain ⟨m, rfl⟩ : ∃ m, k = m + 1 := by
    cases k with
    | zero => omega
    | succ m => exact ⟨m, rfl⟩
  obtain ⟨j, hj⟩ : ∃ j, (m + 1) * limit = j + 1 := ⟨m * limit + (limit - 1), by
    rw [Nat.succ_mul]; omega⟩
  rw [hj] at hlo hhi
  have hj₀ : j < (o.sort rows).length := by omega
  have hj₁ : j + 1 < (o.sort rows).length := by omega
  obtain ⟨a, ha⟩ : ∃ a, (o.sort rows)[j]? = some a := ⟨_, List.getElem?_eq_getElem hj₀⟩
  obtain ⟨b, hb⟩ : ∃ b, (o.sort rows)[j + 1]? = some b := ⟨_, List.getElem?_eq_getElem hj₁⟩
  have hkey : ∀ i x, (o.sort rows)[i]? = some x → above key rows (key c) ≤ i →
      i < upTo key rows (key c) → key x = key c := by
    intro i x hx hle hlt
    refine key_eq_of_position (o.sorted rows) ?_ ?_ hx
    · rw [above_perm (o.perm rows)]
      exact hle
    · rw [upTo_perm (o.perm rows)]
      exact hlt
  have hkeys : key a = key b :=
    (hkey j a ha (by omega) (by omega)).trans (hkey (j + 1) b hb (by omega) hhi).symm
  obtain ⟨before, hbefore⟩ : ∃ before, (o.sort rows).take j = before := ⟨_, rfl⟩
  obtain ⟨after, hafter⟩ : ∃ after, (o.sort rows).drop (j + 2) = after := ⟨_, rfl⟩
  have hlenj : before.length = j := by rw [← hbefore, List.length_take]; omega
  have hsort : o.sort rows = before ++ a :: b :: after := by
    have ha' := (List.getElem?_eq_some_iff.mp ha).2
    have hb' := (List.getElem?_eq_some_iff.mp hb).2
    rw [← hbefore, ← hafter, ← ha', ← hb', List.getElem_cons_drop, List.getElem_cons_drop,
      List.take_append_drop]
  obtain ⟨o', ho'⟩ := exists_swapped o hsort hkeys
  refine ⟨fun l => if l = m then o else o', not_nodup_pages (a := a) (Nat.lt_succ_self m) hk ?_ ?_⟩
  · -- the last row of the page before the boundary
    rw [if_pos rfl]
    refine List.mem_of_getElem? (i := limit - 1) ?_
    unfold slice
    rw [List.getElem?_take_of_lt (by omega), List.getElem?_drop, ← ha]
    congr 1
    rw [Nat.succ_mul] at hj
    omega
  · -- with the two rows exchanged, the first one of the page after it
    rw [if_neg (by omega), ho', hj]
    refine List.mem_of_getElem? (i := 0) ?_
    unfold slice
    rw [List.getElem?_take_of_lt hlimit, List.getElem?_drop, List.getElem?_append_right (by omega),
      hlenj]
    simp

/-! ### Rows that come while one reads -/

/-- A row between two boundaries is on the page between them. -/
theorem mem_slice (o : DescendingBy key) {limit k : Nat} (ha : a ∈ rows)
    (hlo : k * limit ≤ above key rows (key a)) (hhi : upTo key rows (key a) ≤ (k + 1) * limit) :
    a ∈ slice limit (k * limit) (o.sort rows) := by
  obtain ⟨i, hi⟩ := List.getElem?_of_mem ((o.perm rows).mem_iff.mpr ha)
  obtain ⟨habove, hupTo⟩ := position (o.sorted rows) hi
  rw [above_perm (o.perm rows)] at habove
  rw [upTo_perm (o.perm rows)] at hupTo
  rw [Nat.succ_mul] at hhi
  refine List.mem_of_getElem? (i := i - k * limit) ?_
  unfold slice
  rw [List.getElem?_take_of_lt (by omega), List.getElem?_drop, ← hi]
  congr 1
  omega

theorem mem_later {now : Nat → List α} (hgrows : ∀ k, (now k).Sublist (now (k + 1)))
    (ha : a ∈ now 0) (k : Nat) : a ∈ now k := by
  induction k with
  | zero => exact ha
  | succ k ih => exact (hgrows k).subset ih

/-- After `n` pages a row of the first one's query has been on one of them, or is still to
come. -/
theorem read_or_ahead {limit n : Nat} (orders : Nat → DescendingBy key) {now : Nat → List α}
    (hgrows : ∀ k, (now k).Sublist (now (k + 1)))
    (hsplits : ∀ k < n, ¬ Splits key (now k) ((k + 1) * limit)) (ha : a ∈ now 0) :
    (∃ k < n, a ∈ slice limit (k * limit) ((orders k).sort (now k))) ∨
      n * limit ≤ above key (now n) (key a) := by
  induction n with
  | zero => exact .inr (by omega)
  | succ n ih =>
      have hmem := mem_later hgrows ha n
      rcases ih (fun k hk => hsplits k (Nat.lt_succ_of_lt hk)) with ⟨k, hk, hread⟩ | hahead
      · exact .inl ⟨k, Nat.lt_succ_of_lt hk, hread⟩
      · by_cases hupTo : upTo key (now n) (key a) ≤ (n + 1) * limit
        · exact .inl ⟨n, Nat.lt_succ_self n, mem_slice (orders n) hmem hahead hupTo⟩
        · -- the row is past the boundary, and new rows only put it further back
          refine .inr (le_trans ?_ (hgrows n).countP_le)
          by_contra hlt
          exact hsplits n (Nat.lt_succ_self n) ⟨a, hmem, not_le.mp hlt, not_le.mp hupTo⟩

/-- **Reading until a page is short misses nothing** that was there at the first query,
however many rows have come since. -/
theorem read_of_short {limit n : Nat} (orders : Nat → DescendingBy key) {now : Nat → List α}
    (hgrows : ∀ k, (now k).Sublist (now (k + 1)))
    (hsplits : ∀ k < n, ¬ Splits key (now k) ((k + 1) * limit))
    (hshort : (slice limit (n * limit) ((orders n).sort (now n))).length < limit)
    (ha : a ∈ now 0) :
    ∃ k < n + 1, a ∈ slice limit (k * limit) ((orders k).sort (now k)) := by
  rcases read_or_ahead orders hgrows hsplits ha with ⟨k, hk, hread⟩ | hahead
  · exact ⟨k, Nat.lt_succ_of_lt hk, hread⟩
  · refine ⟨n, Nat.lt_succ_self n, mem_slice (orders n) (mem_later hgrows ha n) hahead ?_⟩
    -- a short page is the last one
    have hlen := upTo_le_length key (now n) (key a)
    unfold slice at hshort
    rw [List.length_take, List.length_drop, ((orders n).perm (now n)).length_eq] at hshort
    rw [Nat.succ_mul]
    omega

end

end Wurzburg.Lib.Paging
