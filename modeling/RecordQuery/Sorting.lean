set_option autoImplicit false

/-!
# Sorting: a stable sort

Insertion sort from the left: each item moves left past those it is smaller than and stops at the first it
is not smaller than.  Items that compare equal keep their order, whatever the comparison.
-/

namespace RecordQuery.Sorting

variable {α : Type}

/-- Put an item into a list that is kept from its last item to its first. -/
def insertFromEnd (cmp : α → α → Ordering) (x : α) : List α → List α
  | [] => [x]
  | y :: rest => if cmp x y = .lt then y :: insertFromEnd cmp x rest else x :: y :: rest

/-- The items in ascending order. -/
def sortBy (cmp : α → α → Ordering) (xs : List α) : List α :=
  (xs.foldl (fun sorted x => insertFromEnd cmp x sorted) []).reverse

theorem perm_insertFromEnd (cmp : α → α → Ordering) (x : α) (xs : List α) :
    (insertFromEnd cmp x xs).Perm (x :: xs) := by
  induction xs with
  | nil => exact .refl _
  | cons y rest ih =>
    rw [insertFromEnd]
    split
    · exact (ih.cons y).trans (.swap x y rest)
    · exact .refl _

theorem perm_foldl_insertFromEnd (cmp : α → α → Ordering) (xs sorted : List α) :
    (xs.foldl (fun sorted x => insertFromEnd cmp x sorted) sorted).Perm (xs ++ sorted) := by
  induction xs generalizing sorted with
  | nil => exact .refl _
  | cons x rest ih =>
    rw [List.foldl_cons]
    exact (ih _).trans (((perm_insertFromEnd cmp x sorted).append_left rest).trans List.perm_middle)

theorem perm_sortBy (cmp : α → α → Ordering) (xs : List α) : (sortBy cmp xs).Perm xs := by
  have h := perm_foldl_insertFromEnd cmp xs []
  rw [List.append_nil] at h
  exact (List.reverse_perm _).trans h

theorem foldl_insertFromEnd_of_not_lt {cmp : α → α → Ordering} (h : ∀ x y, cmp x y ≠ .lt)
    (xs sorted : List α) :
    xs.foldl (fun sorted x => insertFromEnd cmp x sorted) sorted = xs.reverse ++ sorted := by
  induction xs generalizing sorted with
  | nil => rfl
  | cons x rest ih =>
    have hinsert : insertFromEnd cmp x sorted = x :: sorted := by
      cases sorted with
      | nil => rfl
      | cons y sorted => exact if_neg (h x y)
    rw [List.foldl_cons, hinsert, ih, List.reverse_cons, List.append_assoc, List.singleton_append]

/-- Where no item is smaller than another, all keep their place. -/
theorem sortBy_of_not_lt {cmp : α → α → Ordering} (h : ∀ x y, cmp x y ≠ .lt) (xs : List α) :
    sortBy cmp xs = xs := by
  rw [sortBy, foldl_insertFromEnd_of_not_lt h, List.append_nil, List.reverse_reverse]

section Images

variable {β : Type} {cmp : α → α → Ordering} {cmp' : β → β → Ordering} {f : α → β}

theorem insertFromEnd_map (h : ∀ x y, cmp' (f x) (f y) = cmp x y) (x : α) (xs : List α) :
    insertFromEnd cmp' (f x) (xs.map f) = (insertFromEnd cmp x xs).map f := by
  induction xs with
  | nil => rfl
  | cons y rest ih =>
    rw [List.map_cons, insertFromEnd, insertFromEnd, h x y, ih]
    split <;> rfl

theorem foldl_insertFromEnd_map (h : ∀ x y, cmp' (f x) (f y) = cmp x y) (xs sorted : List α) :
    (xs.map f).foldl (fun sorted x => insertFromEnd cmp' x sorted) (sorted.map f) =
      (xs.foldl (fun sorted x => insertFromEnd cmp x sorted) sorted).map f := by
  induction xs generalizing sorted with
  | nil => rfl
  | cons x rest ih => rw [List.map_cons, List.foldl_cons, List.foldl_cons, insertFromEnd_map h, ih]

/-- Images that compare as their originals do are sorted as they are. -/
theorem sortBy_map (h : ∀ x y, cmp' (f x) (f y) = cmp x y) (xs : List α) :
    sortBy cmp' (xs.map f) = (sortBy cmp xs).map f := by
  rw [sortBy, sortBy, List.map_reverse, ← foldl_insertFromEnd_map h, List.map_nil]

end Images

end RecordQuery.Sorting
