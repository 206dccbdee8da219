import Mathlib.Algebra.BigOperators.Group.List.Basic
import Mathlib.Algebra.Order.BigOperators.Group.List
import Mathlib.Algebra.Order.Ring.Int

/-!
# Wurzburg.Lib.Wrapping

**Sums in wrapped arithmetic.** `Int.bmod z m` is the value a signed machine
integer with `m` values holds after an operation whose exact result is `z`.
Wrapping commutes with addition, so a sum that is wrapped at every step is the
wrapped sum (`foldl_bmod_add`); it is exact at every step when its terms have
one sign and the whole sum fits (`foldl_exact`).
-/

namespace Wurzburg.Lib.Wrapping

variable {α : Type} {m : Nat}

/-- A value is held exactly when it is in range. -/
theorem bmod_eq_self_iff (hm : 0 < m) {z : Int} :
    Int.bmod z m = z ↔ -((m : Int) / 2) ≤ z ∧ z < ((m : Int) + 1) / 2 := by
  rw [Int.bmod_eq_iff hm, Int.sub_self]
  exact ⟨fun h => ⟨h.1, h.2.1⟩, fun h => ⟨h.1, h.2, Int.dvd_zero _⟩⟩

/-- Wrapping at every step wraps the sum. -/
theorem foldl_bmod_add (f : α → Int) (xs : List α) (z : Int) :
    xs.foldl (fun total x => Int.bmod (total + f x) m) (Int.bmod z m) =
      Int.bmod (z + (xs.map f).sum) m := by
  induction xs generalizing z with
  | nil => simp
  | cons x xs ih =>
      rw [List.foldl_cons, Int.bmod_add_bmod, ih, List.map_cons, List.sum_cons, add_assoc]

/-- It does not matter whether the terms were wrapped before. -/
theorem sum_bmod_bmod (xs : List Int) :
    Int.bmod (xs.map (fun x => Int.bmod x m)).sum m = Int.bmod xs.sum m := by
  induction xs with
  | nil => rfl
  | cons x xs ih =>
      rw [List.map_cons, List.sum_cons, List.sum_cons, Int.bmod_add_bmod, Int.add_bmod, ih,
        ← Int.add_bmod]

/-- The sums of non-negative terms grow. -/
theorem sum_le_of_prefix {xs ys : List Int} (h : xs <+: ys) (hy : ∀ y ∈ ys, 0 ≤ y) :
    xs.sum ≤ ys.sum := by
  obtain ⟨zs, rfl⟩ := h
  have hz : 0 ≤ zs.sum := List.sum_nonneg (fun z hz => hy z (List.mem_append_right _ hz))
  rw [List.sum_append]
  omega

/-- Non-negative terms whose sum is in range are added exactly, step by step. -/
theorem foldl_exact (hm : 0 < m) {f : α → Int} {xs ys : List α} (h : xs <+: ys)
    (hf : ∀ y ∈ ys, 0 ≤ f y) (hsum : (ys.map f).sum < ((m : Int) + 1) / 2) :
    xs.foldl (fun total x => Int.bmod (total + f x) m) 0 = (xs.map f).sum := by
  have hle : (xs.map f).sum ≤ (ys.map f).sum :=
    sum_le_of_prefix (h.map f) (List.forall_mem_map.mpr hf)
  have hnonneg : 0 ≤ (xs.map f).sum :=
    List.sum_nonneg (List.forall_mem_map.mpr (fun x hx => hf x (h.subset hx)))
  have hfold := @foldl_bmod_add α m f xs 0
  rw [Int.zero_bmod, zero_add] at hfold
  rw [hfold, bmod_eq_self_iff hm]
  omega

end Wurzburg.Lib.Wrapping
