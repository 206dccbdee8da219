import Mathlib.Data.List.Nodup

/-!
# Wurzburg.Lib.Overlay

**A table that several transactions write at once.** A transaction keeps its own
versions of the rows it has written; it sees the committed rows with these in
place of the ones they supersede (`overlay`). What a statement does to the rows
it sees (`changed`) becomes new versions (`supersede`), and committing makes the
overlay the table.

The lemmas say what the overlay is for the two things a statement does, to add
rows and to rewrite some, and which rows of a table survive the commit of
another transaction.
-/

namespace Wurzburg.Lib

section

variable {ρ κ : Type} [DecidableEq κ] (key : ρ → κ)

/-- The committed rows as a transaction sees them that has these own versions. -/
def overlay (base own : List ρ) : List ρ :=
  base.map (fun r => (own.find? (fun v => key v = key r)).getD r) ++
    own.filter (fun v => key v ∉ base.map key)

/-- Own versions after newer ones were written. -/
def supersede (own new : List ρ) : List ρ :=
  own.filter (fun v => key v ∉ new.map key) ++ new

variable {key} {base own new : List ρ} {r : ρ} {P : ρ → Bool} {f : ρ → ρ}

/-! ### What is seen -/

theorem overlay_nil : overlay key base [] = base := by
  simp [overlay]

/-- Added rows come last. -/
theorem overlay_append (hnew : ∀ v ∈ new, key v ∉ base.map key) :
    overlay key base (own ++ new) = overlay key base own ++ new := by
  have hfind : ∀ r ∈ base, (own ++ new).find? (fun v => key v = key r) =
      own.find? (fun v => key v = key r) := by
    intro r hr
    have hnone : new.find? (fun v => key v = key r) = none := by
      refine List.find?_eq_none.mpr (fun v hv heq => hnew v hv ?_)
      rw [of_decide_eq_true heq]
      exact List.mem_map_of_mem hr
    rw [List.find?_append, hnone, Option.or_none]
  have hmap : base.map (fun r => ((own ++ new).find? (fun v => key v = key r)).getD r) =
      base.map (fun r => (own.find? (fun v => key v = key r)).getD r) :=
    List.map_congr_left (fun r hr => by rw [hfind r hr])
  have hall : new.filter (fun v => key v ∉ base.map key) = new :=
    List.filter_eq_self.mpr (fun v hv => decide_eq_true (hnew v hv))
  unfold overlay
  rw [hmap, List.filter_append, hall, List.append_assoc]

/-- The version of a rewritten row. -/
theorem find_rewritten (hkeys : (base.map key).Nodup) (hf : ∀ r, key (f r) = key r)
    (hr : r ∈ base) :
    ((base.filter P).map f).find? (fun v => key v = key r) = if P r then some (f r) else none := by
  have hsame : ∀ r' ∈ base, key r' = key r → r' = r :=
    fun r' hr' heq => List.inj_on_of_nodup_map hkeys hr' hr heq
  split
  · next hP =>
      have hmem : f r ∈ (base.filter P).map f :=
        List.mem_map_of_mem (List.mem_filter.mpr ⟨hr, hP⟩)
      obtain ⟨v, hv⟩ : ∃ v, ((base.filter P).map f).find? (fun v => key v = key r) = some v := by
        refine Option.isSome_iff_exists.mp (List.find?_isSome.mpr ⟨f r, hmem, ?_⟩)
        exact decide_eq_true (hf r)
      obtain ⟨r', hr', rfl⟩ := List.mem_map.mp (List.mem_of_find?_eq_some hv)
      have heq : key (f r') = key r := by simpa using List.find?_some hv
      rw [hv, hsame r' (List.mem_of_mem_filter hr') ((hf r').symm.trans heq)]
  · next hP =>
      refine List.find?_eq_none.mpr (fun v hv heq => ?_)
      obtain ⟨r', hr', rfl⟩ := List.mem_map.mp hv
      obtain ⟨hmem, hP'⟩ := List.mem_filter.mp hr'
      rw [hsame r' hmem ((hf r').symm.trans (of_decide_eq_true heq))] at hP'
      exact hP hP'

/-- Rewritten rows stay in place. -/
theorem overlay_rewritten (hkeys : (base.map key).Nodup) (hf : ∀ r, key (f r) = key r) :
    overlay key base ((base.filter P).map f) = base.map (fun r => if P r then f r else r) := by
  have hmap : base.map (fun r =>
      (((base.filter P).map f).find? (fun v => key v = key r)).getD r) =
      base.map (fun r => if P r then f r else r) := by
    refine List.map_congr_left (fun r hr => ?_)
    rw [find_rewritten hkeys hf hr]
    split <;> rfl
  have hnone : ((base.filter P).map f).filter (fun v => key v ∉ base.map key) = [] := by
    refine List.filter_eq_nil_iff.mpr (fun v hv hout => of_decide_eq_true hout ?_)
    obtain ⟨r, hr, rfl⟩ := List.mem_map.mp hv
    rw [hf r]
    exact List.mem_map_of_mem (List.mem_of_mem_filter hr)
  unfold overlay
  rw [hmap, hnone, List.append_nil]

/-- A row that is seen is a committed one or an own version. -/
theorem mem_overlay (h : r ∈ overlay key base own) : r ∈ base ∨ r ∈ own := by
  rcases List.mem_append.mp h with h | h
  · obtain ⟨r', hr', rfl⟩ := List.mem_map.mp h
    cases hv : own.find? (fun v => key v = key r') with
    | none => exact Or.inl hr'
    | some v => exact Or.inr (List.mem_of_find?_eq_some hv)
  · exact Or.inr (List.mem_of_mem_filter h)

/-- A committed row without an own version is seen. -/
theorem mem_overlay_of_base (hr : r ∈ base) (hout : ∀ v ∈ own, key v ≠ key r) :
    r ∈ overlay key base own := by
  refine List.mem_append_left _ (List.mem_map.mpr ⟨r, hr, ?_⟩)
  have hnone : own.find? (fun v => key v = key r) = none :=
    List.find?_eq_none.mpr (fun v hv heq => hout v hv (of_decide_eq_true heq))
  rw [hnone]
  rfl

/-- Every committed row is seen in some version. -/
theorem exists_mem_overlay (hr : r ∈ base) : ∃ v ∈ overlay key base own, key v = key r := by
  cases hv : own.find? (fun v => key v = key r) with
  | none =>
      refine ⟨r, mem_overlay_of_base hr (fun v hmem heq => ?_), rfl⟩
      exact List.find?_eq_none.mp hv v hmem (decide_eq_true heq)
  | some v =>
      refine ⟨v, List.mem_append_left _ (List.mem_map.mpr ⟨r, hr, ?_⟩),
        by simpa using List.find?_some hv⟩
      rw [hv]
      rfl

/-- Rows that another transaction neither wrote nor adds to are the same after it. -/
theorem filter_overlay (hown : ∀ v ∈ own, P v = false)
    (hbase : ∀ r ∈ base, P r = true → ∀ v ∈ own, key v ≠ key r) :
    (overlay key base own).filter P = base.filter P := by
  have hnew : (own.filter (fun v => key v ∉ base.map key)).filter P = [] :=
    List.filter_eq_nil_iff.mpr (fun v hv hP => by
      rw [hown v (List.mem_of_mem_filter hv)] at hP
      cases hP)
  have hold : ∀ rows : List ρ, rows ⊆ base →
      (rows.map (fun r => (own.find? (fun v => key v = key r)).getD r)).filter P =
        rows.filter P := by
    intro rows hsub
    induction rows with
    | nil => rfl
    | cons r rows ih =>
        have hrows := ih (fun x hx => hsub (List.mem_cons_of_mem _ hx))
        have hr : r ∈ base := hsub (List.mem_cons_self ..)
        rw [List.map_cons]
        cases hv : own.find? (fun v => key v = key r) with
        | none =>
            show (r :: _).filter P = _
            rw [List.filter_cons, List.filter_cons, hrows]
        | some v =>
            have hmem := List.mem_of_find?_eq_some hv
            have hkey : key v = key r := by simpa using List.find?_some hv
            have hr' : P r = false := by
              cases hP : P r with
              | false => rfl
              | true => exact absurd hkey (hbase r hr hP v hmem)
            show (v :: _).filter P = _
            rw [List.filter_cons, List.filter_cons, hown v hmem, hr', hrows]
            rfl
  unfold overlay
  rw [List.filter_append, hnew, List.append_nil]
  exact hold base (List.Subset.refl _)

/-- An own version is seen, up to what all versions of a row share. -/
theorem exists_overlay_of_own {φ : Type} {g : ρ → φ}
    (hsame : ∀ v ∈ own, ∀ r ∈ base, key v = key r → g v = g r) {v : ρ} (hv : v ∈ own) :
    ∃ w ∈ overlay key base own, g w = g v := by
  by_cases hmem : key v ∈ base.map key
  · obtain ⟨r, hr, hkey⟩ := List.mem_map.mp hmem
    obtain ⟨w, hw, hwkey⟩ : ∃ w, own.find? (fun v => key v = key r) = some w ∧ key w = key r := by
      cases hfind : own.find? (fun v => key v = key r) with
      | none => exact absurd (decide_eq_true hkey.symm) (List.find?_eq_none.mp hfind v hv)
      | some w => exact ⟨w, rfl, by simpa using List.find?_some hfind⟩
    refine ⟨w, List.mem_append_left _ (List.mem_map.mpr ⟨r, hr, by rw [hw]; rfl⟩), ?_⟩
    rw [hsame w (List.mem_of_find?_eq_some hw) r hr hwkey, hsame v hv r hr hkey.symm]
  · exact ⟨v, List.mem_append_right _ (List.mem_filter.mpr ⟨hv, decide_eq_true hmem⟩), rfl⟩

/-- A committed row is seen, up to what all versions of a row share. -/
theorem exists_overlay_of_base {φ : Type} {g : ρ → φ}
    (hsame : ∀ v ∈ own, ∀ r ∈ base, key v = key r → g v = g r) (hr : r ∈ base) :
    ∃ w ∈ overlay key base own, g w = g r := by
  cases hfind : own.find? (fun v => key v = key r) with
  | none =>
      refine ⟨r, mem_overlay_of_base hr (fun v hv heq => ?_), rfl⟩
      exact List.find?_eq_none.mp hfind v hv (decide_eq_true heq)
  | some w =>
      have hkey : key w = key r := by simpa using List.find?_some hfind
      refine ⟨w, List.mem_append_left _ (List.mem_map.mpr ⟨r, hr, by rw [hfind]; rfl⟩), ?_⟩
      exact hsame w (List.mem_of_find?_eq_some hfind) r hr hkey

/-- The keys stay different. -/
theorem nodup_overlay (hbase : (base.map key).Nodup) (hown : (own.map key).Nodup) :
    ((overlay key base own).map key).Nodup := by
  have hold : (base.map (fun r => (own.find? (fun v => key v = key r)).getD r)).map key =
      base.map key := by
    rw [List.map_map]
    refine List.map_congr_left (fun r _ => ?_)
    show key ((own.find? (fun v => key v = key r)).getD r) = key r
    cases hfind : own.find? (fun v => key v = key r) with
    | none => rfl
    | some v => simpa using List.find?_some hfind
  unfold overlay
  rw [List.map_append, hold]
  refine List.nodup_append.mpr ⟨hbase, (List.filter_sublist.map key).nodup hown, ?_⟩
  rintro k hk k' hk' rfl
  obtain ⟨v, hv, rfl⟩ := List.mem_map.mp hk'
  exact of_decide_eq_true (List.mem_filter.mp hv).2 hk

theorem supersede_nil : supersede key own [] = own := by
  simp [supersede]

theorem supersede_append (h : ∀ v ∈ own, key v ∉ new.map key) :
    supersede key own new = own ++ new := by
  unfold supersede
  rw [List.filter_eq_self.mpr (fun v hv => decide_eq_true (h v hv))]

/-- Newer versions of every row. -/
theorem supersede_of_subset (h : own ⊆ new) : supersede key own new = new := by
  have hnone : own.filter (fun v => key v ∉ new.map key) = [] :=
    List.filter_eq_nil_iff.mpr (fun v hv hout =>
      of_decide_eq_true hout (List.mem_map_of_mem (h hv)))
  unfold supersede
  rw [hnone, List.nil_append]

end

/-! ### Finding a row or adding it -/

/-- The row is the first with the property, or the transaction has added it because there
was none. -/
inductive FoundOrAdded {ρ κ : Type} (key : ρ → κ) (P : ρ → Bool) (base : List ρ) (row : ρ) :
    List ρ → Prop where
  | found (hfind : base.find? P = some row) : FoundOrAdded key P base row []
  | added (hnone : base.find? P = none) (hrow : P row = true) (hkey : key row ∉ base.map key) :
      FoundOrAdded key P base row [row]

namespace FoundOrAdded

variable {ρ κ : Type} {key : ρ → κ} {P : ρ → Bool} {base own : List ρ} {row : ρ}

theorem overlay_eq [DecidableEq κ] (h : FoundOrAdded key P base row own) :
    overlay key base own = base ++ own := by
  cases h with
  | found hfind => rw [overlay_nil, List.append_nil]
  | added hnone hrow hkey =>
      have happend : overlay key base ([] ++ [row]) = overlay key base [] ++ [row] :=
        overlay_append (fun v hv => by rwa [List.mem_singleton.mp hv])
      rwa [List.nil_append, overlay_nil] at happend

/-- An added row has the property. -/
theorem property (h : FoundOrAdded key P base row own) {r : ρ} (hr : r ∈ own) : P r = true := by
  cases h with
  | found hfind => cases hr
  | added hnone hrow hkey => rwa [List.mem_singleton.mp hr]

/-- The transaction finds the row. -/
theorem find_eq (h : FoundOrAdded key P base row own) : (base ++ own).find? P = some row := by
  cases h with
  | found hfind => rw [List.append_nil, hfind]
  | added hnone hrow hkey => simp [List.find?_append, hnone, hrow]

/-- Rows that another transaction adds leave it so. -/
theorem append (h : FoundOrAdded key P base row own) {news : List ρ}
    (hnews : ∀ v ∈ news, ∀ r ∈ own, key v ≠ key r ∧ P v = false) :
    FoundOrAdded key P (base ++ news) row own := by
  cases h with
  | found hfind => exact .found (by rw [List.find?_append, hfind, Option.some_or])
  | added hnone hrow hkey =>
      have hnews : ∀ v ∈ news, key v ≠ key row ∧ P v = false := fun v hv =>
        hnews v hv row (List.mem_singleton_self _)
      refine .added ?_ hrow ?_
      · rw [List.find?_append, hnone, Option.none_or]
        exact List.find?_eq_none.mpr (fun v hv hP => by
          rw [(hnews v hv).2] at hP
          cases hP)
      · rw [List.map_append, List.mem_append]
        rintro (hold | hnew)
        · exact hkey hold
        · obtain ⟨v, hv, hvkey⟩ := List.mem_map.mp hnew
          exact (hnews v hv).1 hvkey

end FoundOrAdded

/-! ### What a statement writes -/

section

variable {ρ κ : Type} [DecidableEq ρ] {base new : List ρ} {P : ρ → Bool}

/-- The rows that a statement has changed or added. -/
def changed (before after : List ρ) : List ρ := after.filter (fun r => r ∉ before)

theorem changed_self : changed base base = [] :=
  List.filter_eq_nil_iff.mpr (fun _ hr hout => of_decide_eq_true hout hr)

theorem changed_append (hnew : ∀ v ∈ new, v ∉ base) : changed base (base ++ new) = new := by
  have hself : base.filter (fun r => r ∉ base) = [] := changed_self
  unfold changed
  rw [List.filter_append, hself, List.nil_append]
  exact List.filter_eq_self.mpr (fun v hv => decide_eq_true (hnew v hv))

theorem changed_rewritten {key : ρ → κ} {f : ρ → ρ} (hkeys : (base.map key).Nodup)
    (hf : ∀ r, key (f r) = key r)
    (hne : ∀ r ∈ base, P r = true → f r ≠ r) :
    changed base (base.map (fun r => if P r then f r else r)) = (base.filter P).map f := by
  have hout : ∀ r ∈ base, P r = true → f r ∉ base := fun r hr hP hmem =>
    hne r hr hP (List.inj_on_of_nodup_map hkeys hmem hr (hf r))
  have hall : ∀ rows : List ρ, rows ⊆ base →
      (rows.map (fun r => if P r then f r else r)).filter (fun r => r ∉ base) =
        (rows.filter P).map f := by
    intro rows hsub
    induction rows with
    | nil => rfl
    | cons r rows ih =>
        have hrows := ih (fun x hx => hsub (List.mem_cons_of_mem _ hx))
        have hr : r ∈ base := hsub (List.mem_cons_self ..)
        rw [List.map_cons, List.filter_cons, List.filter_cons, hrows]
        by_cases hP : P r = true
        · rw [if_pos hP, if_pos hP, if_pos (decide_eq_true (hout r hr hP)), List.map_cons]
        · rw [if_neg hP, if_neg hP, if_neg (by simpa using hr)]
  exact hall base (List.Subset.refl _)

end

end Wurzburg.Lib
