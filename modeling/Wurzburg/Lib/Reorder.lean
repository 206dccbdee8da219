import Mathlib.Data.List.Perm.Basic
import Mathlib.Data.List.Nodup

/-!
# Wurzburg.Lib.Reorder

Running the same steps in another order. Two orders of the same steps lead to
the same state when every pair of steps that does not commute keeps its order.
-/

namespace Wurzburg.Lib

variable {α σ : Type}

/-- `x` comes before `y`. -/
def Before (xs : List α) (x y : α) : Prop := [x, y].Sublist xs

namespace Before

variable {xs ys : List α} {x y z : α}

theorem cons (h : Before xs x y) : Before (z :: xs) x y := List.Sublist.cons z h

theorem of_mem (h : y ∈ xs) : Before (x :: xs) x y :=
  List.Sublist.cons_cons x (List.singleton_sublist.mpr h)

theorem mem_left (h : Before xs x y) : x ∈ xs := h.subset (by simp)

theorem mem_right (h : Before xs x y) : y ∈ xs := h.subset (by simp)

/-- In a list without repetition, of two members only one comes first. -/
theorem asymm (hnd : xs.Nodup) (h : Before xs x y) : ¬ Before xs y x := by
  induction xs with
  | nil => exact absurd h.mem_left (by simp)
  | cons a xs ih =>
      intro h'
      obtain ⟨ha, hnd⟩ := List.nodup_cons.mp hnd
      rcases List.sublist_cons_iff.mp h with hin | ⟨r, hr, hsub⟩
      · rcases List.sublist_cons_iff.mp h' with hin' | ⟨r, hr, hsub⟩
        · exact ih hnd hin hin'
        · obtain ⟨rfl, rfl⟩ := List.cons.inj hr
          exact ha (mem_right hin)
      · obtain ⟨rfl, rfl⟩ := List.cons.inj hr
        rcases List.sublist_cons_iff.mp h' with hin' | ⟨r, hr, hsub'⟩
        · exact ha (mem_right hin')
        · obtain ⟨rfl, rfl⟩ := List.cons.inj hr
          exact ha (List.singleton_sublist.mp hsub)

/-- Taking out a third element leaves the order of two. -/
theorem remove {p q : List α} (h : Before (p ++ z :: q) x y) (hx : x ≠ z) (hy : y ≠ z) :
    Before (p ++ q) x y := by
  classical
  have hf : [x, y].Sublist ((p ++ z :: q).filter (fun a => a ≠ z)) := by
    have := List.Sublist.filter (fun a => decide (a ≠ z)) h
    simpa [hx, hy] using this
  refine hf.trans ?_
  rw [List.filter_append, List.filter_cons_of_neg (by simp)]
  exact List.Sublist.append List.filter_sublist List.filter_sublist

end Before

/-- A step that commutes with all steps before it can be taken first. -/
theorem foldl_move_front {f : σ → α → σ} {x : α} {p : List α}
    (hcomm : ∀ y ∈ p, ∀ s, f (f s y) x = f (f s x) y) (q : List α) (s : σ) :
    (p ++ x :: q).foldl f s = (x :: (p ++ q)).foldl f s := by
  induction p generalizing s with
  | nil => rfl
  | cons y p ih =>
      have hrest := ih (fun z hz => hcomm z (List.mem_cons_of_mem y hz)) (f s y)
      simp only [List.cons_append, List.foldl_cons] at hrest ⊢
      rw [hrest, hcomm y (List.mem_cons_self ..)]

/-- Two orders of the same steps lead to the same state when the steps that do
not commute come in the same order. -/
theorem foldl_reorder {f : σ → α → σ} {u v : List α} (hp : u.Perm v) (hnd : u.Nodup)
    (h : ∀ x y, Before u x y → Before v x y ∨ ∀ s, f (f s y) x = f (f s x) y) (s : σ) :
    u.foldl f s = v.foldl f s := by
  induction u generalizing v s with
  | nil => rw [hp.nil_eq]
  | cons x u ih =>
      obtain ⟨p, q, rfl⟩ := List.append_of_mem (hp.subset (List.mem_cons_self ..))
      have hnd' := hp.nodup_iff.mp hnd
      obtain ⟨hx, hndu⟩ := List.nodup_cons.mp hnd
      have hrest : u.Perm (p ++ q) := (hp.trans List.perm_middle).cons_inv
      -- what stands before `x` on the right comes after it on the left
      have hcomm : ∀ y ∈ p, ∀ s, f (f s y) x = f (f s x) y := by
        intro y hy
        have hyu : y ∈ u := hrest.mem_iff.mpr (List.mem_append_left _ hy)
        rcases h x y (.of_mem hyu) with hbefore | hcomm
        · have hyx : Before (p ++ x :: q) y x := by
            have h₁ : [y].Sublist p := List.singleton_sublist.mpr hy
            exact h₁.append (List.singleton_sublist.mpr (List.mem_cons_self ..))
          exact absurd hbefore (hyx.asymm hnd')
        · exact hcomm
      rw [foldl_move_front hcomm, List.foldl_cons, List.foldl_cons]
      refine ih hrest hndu (fun y z hyz => ?_) (f s x)
      rcases h y z hyz.cons with hbefore | hcomm
      · have hy : y ≠ x := fun he => hx (he ▸ hyz.mem_left)
        have hz : z ≠ x := fun he => hx (he ▸ hyz.mem_right)
        exact Or.inl (hbefore.remove hy hz)
      · exact Or.inr hcomm

end Wurzburg.Lib
