import Mathlib.Data.List.Perm.Basic
import RecordQuery.Sorting
set_option autoImplicit false

/-!
# Sorting: the order of a stable sort

Where the comparison of the items at hand reads the same from both sides and is transitive (`Orders`), the sort
puts them in ascending order, and those that tie in the order in which they stood before (`pairwise_sortBy`).  A
list of which no two items are out of order in both ways is the only one of its permutations
(`List.Perm.eq_of_pairwise`).  So the positions of a sorted list in the list before are determined
(`exists_sortedPositions`), and where nothing ties, the opposite comparison gives the opposite list
(`sortBy_swap`).
-/

namespace RecordQuery.Sorting

variable {α : Type} {cmp : α → α → Ordering} {items : α → Prop} {before : α → α → Prop}

/-- A comparison of some items that reads the same from both sides and is transitive. -/
structure Orders (cmp : α → α → Ordering) (items : α → Prop) : Prop where
  swap : ∀ x y, cmp y x = (cmp x y).swap
  trans : ∀ {x y z}, items x → items y → items z → (cmp x y).isLE = true → (cmp y z).isLE = true →
    (cmp x z).isLE = true

/-- The first item is smaller, or they tie and the first one stood before the other. -/
def Stable (cmp : α → α → Ordering) (before : α → α → Prop) (x y : α) : Prop :=
  cmp x y = .lt ∨ cmp x y = .eq ∧ before x y

theorem Stable.isLE {x y : α} (h : Stable cmp before x y) : (cmp x y).isLE = true := by
  rcases h with h | ⟨h, -⟩
  · exact Ordering.isLE_of_eq_lt h
  · exact Ordering.isLE_of_eq_eq h

theorem stable_of_isLE {x y : α} (h : (cmp x y).isLE = true) (hbefore : before x y) : Stable cmp before x y :=
  (Ordering.isLE_iff_eq_lt_or_eq_eq.mp h).imp_right fun htie => ⟨htie, hbefore⟩

/-! ## One insertion -/

theorem mem_insertFromEnd {x y : α} {sorted : List α} :
    y ∈ insertFromEnd cmp x sorted ↔ y = x ∨ y ∈ sorted := by
  rw [(perm_insertFromEnd cmp x sorted).mem_iff, List.mem_cons]

/-- An insertion keeps the order, if the item stood behind all that are sorted already. -/
theorem pairwise_insertFromEnd (h : Orders cmp items) {x : α} {sorted : List α} (hx : items x)
    (hsorted : ∀ y ∈ sorted, items y) (hbefore : ∀ y ∈ sorted, before y x)
    (hpairwise : sorted.Pairwise fun y z => Stable cmp before z y) :
    (insertFromEnd cmp x sorted).Pairwise fun y z => Stable cmp before z y := by
  induction sorted with
  | nil => exact List.pairwise_singleton _ _
  | cons y rest ih =>
    obtain ⟨hy, hrest⟩ := List.forall_mem_cons.mp hsorted
    obtain ⟨hybefore, hrestbefore⟩ := List.forall_mem_cons.mp hbefore
    obtain ⟨hfirst, hpairwise'⟩ := List.pairwise_cons.mp hpairwise
    rw [insertFromEnd]
    split
    · rename_i hlt
      refine List.pairwise_cons.mpr ⟨fun z hz => ?_, ih hrest hrestbefore hpairwise'⟩
      rcases mem_insertFromEnd.mp hz with rfl | hz
      · exact .inl hlt
      · exact hfirst z hz
    · rename_i hlt
      have hle : (cmp y x).isLE = true := by
        rw [h.swap x y, Ordering.isLE_swap, Ordering.isGE_iff_ne_lt]
        exact hlt
      refine List.pairwise_cons.mpr ⟨List.forall_mem_cons.mpr ⟨stable_of_isLE hle hybefore, ?_⟩, hpairwise⟩
      exact fun z hz => stable_of_isLE (h.trans (hrest z hz) hy hx (hfirst z hz).isLE hle) (hrestbefore z hz)

/-! ## The sort -/

/-- The invariant of the sort: what is sorted already is in order, and stood before all that is not. -/
theorem pairwise_foldl_insertFromEnd (h : Orders cmp items) {xs sorted : List α}
    (hxs : ∀ x ∈ xs, items x) (hsorted : ∀ y ∈ sorted, items y) (hstood : xs.Pairwise before)
    (hbefore : ∀ y ∈ sorted, ∀ x ∈ xs, before y x)
    (hpairwise : sorted.Pairwise fun y z => Stable cmp before z y) :
    (xs.foldl (fun sorted x => insertFromEnd cmp x sorted) sorted).Pairwise
      fun y z => Stable cmp before z y := by
  induction xs generalizing sorted with
  | nil => exact hpairwise
  | cons x rest ih =>
    obtain ⟨hx, hrest⟩ := List.forall_mem_cons.mp hxs
    obtain ⟨hfirst, hstood⟩ := List.pairwise_cons.mp hstood
    refine ih hrest ?_ hstood ?_ ?_
    · intro y hy
      rcases mem_insertFromEnd.mp hy with rfl | hy
      · exact hx
      · exact hsorted y hy
    · intro y hy z hz
      rcases mem_insertFromEnd.mp hy with rfl | hy
      · exact hfirst z hz
      · exact hbefore y hy z (List.mem_cons_of_mem x hz)
    · exact pairwise_insertFromEnd h hx hsorted (fun y hy => hbefore y hy x List.mem_cons_self) hpairwise

/-- The sort is ascending and stable. -/
theorem pairwise_sortBy (h : Orders cmp items) {xs : List α} (hxs : ∀ x ∈ xs, items x)
    (hstood : xs.Pairwise before) : (sortBy cmp xs).Pairwise (Stable cmp before) :=
  List.pairwise_reverse.mpr (pairwise_foldl_insertFromEnd h hxs (List.forall_mem_nil _) hstood
    (List.forall_mem_nil _) List.Pairwise.nil)

theorem Orders.swapped (h : Orders cmp items) : Orders (fun x y => cmp y x) items where
  swap x y := h.swap y x
  trans hx hy hz hxy hyz := h.trans hz hy hx hyz hxy

/-- Where nothing ties, the opposite comparison gives the opposite list. -/
theorem sortBy_swap (h : Orders cmp items) {xs : List α} (hxs : ∀ x ∈ xs, items x)
    (hapart : xs.Pairwise fun x y => cmp x y ≠ .eq) :
    sortBy (fun x y => cmp y x) xs = (sortBy cmp xs).reverse := by
  have hswap : ∀ {x y : α}, cmp x y ≠ .eq → cmp y x ≠ .eq := fun hne heq => hne (by rw [h.swap, heq]; rfl)
  have hascending : (sortBy cmp xs).Pairwise fun x y => cmp x y = .lt :=
    (pairwise_sortBy h hxs hapart).imp fun hxy => hxy.resolve_right fun htie => htie.2 htie.1
  have hdescending : (sortBy (fun x y => cmp y x) xs).Pairwise fun x y => cmp y x = .lt :=
    (pairwise_sortBy h.swapped hxs (hapart.imp hswap)).imp fun hxy => hxy.resolve_right fun htie => htie.2 htie.1
  refine List.Perm.eq_of_pairwise ?_ hdescending (List.pairwise_reverse.mpr hascending) ?_
  · intro x y _ _ hyx hxy
    rw [h.swap, hxy] at hyx
    cases hyx
  · exact (perm_sortBy _ xs).trans ((perm_sortBy cmp xs).symm.trans (List.reverse_perm _).symm)

/-! ## Positions -/

/-- The positions of the items of a list in ascending order of the items, those of items that tie in their own
order. -/
structure SortedPositions (cmp : α → α → Ordering) (xs : List α) (positions : List Nat) : Prop where
  perm : positions.Perm (List.range xs.length)
  ascending : positions.Pairwise fun i j => ∃ x y, xs[i]? = some x ∧ xs[j]? = some y ∧
    (cmp x y = .lt ∨ cmp x y = .eq ∧ i < j)

/-- There is only one such order of the positions. -/
theorem SortedPositions.unique {xs : List α} {positions positions' : List Nat}
    (hswap : ∀ x y, cmp y x = (cmp x y).swap) (h : SortedPositions cmp xs positions)
    (h' : SortedPositions cmp xs positions') : positions' = positions := by
  refine List.Perm.eq_of_pairwise ?_ h'.ascending h.ascending (h'.perm.trans h.perm.symm)
  rintro i j - - ⟨x, y, hx, hy, hxy⟩ ⟨y', x', hy', hx', hyx⟩
  obtain rfl : y = y' := Option.some.inj (hy.symm.trans hy')
  obtain rfl : x = x' := Option.some.inj (hx.symm.trans hx')
  rw [hswap x y] at hyx
  rcases hxy with hlt | ⟨htie, hij⟩
  · rw [hlt] at hyx
    rcases hyx with hyx | ⟨hyx, -⟩ <;> cases hyx
  · rw [htie] at hyx
    rcases hyx with hyx | ⟨-, hji⟩
    · cases hyx
    · omega

/-- The sort takes the items from their positions in ascending order. -/
theorem exists_sortedPositions (h : Orders cmp items) {xs : List α} (hxs : ∀ x ∈ xs, items x) :
    ∃ positions, SortedPositions cmp xs positions ∧ (sortBy cmp xs).map some = positions.map (xs[·]?) := by
  -- the items are sorted along with their positions, which do not count for the comparison
  let cmp' : α × Nat → α × Nat → Ordering := fun p q => cmp p.1 q.1
  have horders : Orders cmp' fun p => items p.1 :=
    ⟨fun p q => h.swap p.1 q.1, fun hx hy hz hxy hyz => h.trans hx hy hz hxy hyz⟩
  have hfst : (sortBy cmp' xs.zipIdx).map Prod.fst = sortBy cmp xs := by
    rw [← sortBy_map (fun _ _ => rfl), List.zipIdx_map_fst]
  have hperm : (sortBy cmp' xs.zipIdx).Perm xs.zipIdx := perm_sortBy cmp' xs.zipIdx
  have hmem : ∀ p ∈ sortBy cmp' xs.zipIdx, xs[p.2]? = some p.1 := fun p hp =>
    List.mem_zipIdx_iff_getElem?.mp (hperm.mem_iff.mp hp)
  have hstood : xs.zipIdx.Pairwise fun p q => p.2 < q.2 := by
    rw [← List.pairwise_map (f := Prod.snd), List.zipIdx_map_snd, ← List.range_eq_range']
    exact List.pairwise_lt_range
  have hitems : ∀ p ∈ xs.zipIdx, items p.1 := fun p hp =>
    hxs p.1 (List.mem_of_getElem? (List.mem_zipIdx_iff_getElem?.mp hp))
  refine ⟨(sortBy cmp' xs.zipIdx).map Prod.snd, ⟨?_, ?_⟩, ?_⟩
  · rw [List.range_eq_range', ← List.zipIdx_map_snd 0 xs]
    exact hperm.map Prod.snd
  · refine List.pairwise_map.mpr ((pairwise_sortBy horders hitems hstood).imp_of_mem ?_)
    intro p q hp hq hpq
    exact ⟨p.1, q.1, hmem p hp, hmem q hq, hpq⟩
  · rw [← hfst, List.map_map, List.map_map]
    exact List.map_congr_left fun p hp => (hmem p hp).symm

end RecordQuery.Sorting
