import RecordQuery.Text.Pieces
set_option autoImplicit false

/-!
# Entries: ordered maps from names

A map from names is a list of pairs in ascending order of the names (by code points).  `insert` keeps the
order and replaces the value of a name that is present; `find?` answers the value of a name.
-/

namespace RecordQuery

/-- Named values in ascending order of their names. -/
abbrev Entries (α : Type) := List (String × α)

namespace Entries

variable {α : Type}

/-- The value of a name. -/
def find? : Entries α → String → Option α
  | [], _ => none
  | (k, v) :: rest, name => if k = name then some v else find? rest name

/-- The name has a value. -/
def contains (es : Entries α) (name : String) : Bool := (find? es name).isSome

/-- Give a name a value, in place if it is present. -/
def insert : Entries α → String → α → Entries α
  | [], name, value => [(name, value)]
  | (k, v) :: rest, name, value =>
    if k = name then (name, value) :: rest
    else if Text.compareText name k = .lt then (name, value) :: (k, v) :: rest
    else (k, v) :: insert rest name value

/-- Insert several pairs, the later ones over the earlier ones. -/
def insertAll (es : Entries α) (pairs : List (String × α)) : Entries α :=
  pairs.foldl (fun acc p => insert acc p.1 p.2) es

/-- The map of some pairs, the later ones over the earlier ones. -/
def ofPairs (pairs : List (String × α)) : Entries α := insertAll [] pairs

/-- The names in order. -/
def names (es : Entries α) : List String := es.map Prod.fst

/-- Names ascend strictly. -/
def Sorted (es : Entries α) : Prop :=
  es.Pairwise fun a b => Text.compareText a.1 b.1 = .lt

@[simp] theorem find?_nil (name : String) : find? ([] : Entries α) name = none := rfl

theorem find?_insert (es : Entries α) (name : String) (value : α) (other : String) :
    find? (insert es name value) other = if name = other then some value else find? es other := by
  induction es with
  | nil => simp [insert, find?]
  | cons e rest ih =>
    obtain ⟨k, v⟩ := e
    simp only [insert]
    split
    · subst_vars; simp only [find?]; split <;> simp_all
    · split
      · simp only [find?]
      · simp only [find?, ih]
        split
        · rename_i h1 _ h2
          subst h2
          simp [Ne.symm h1]
        · rfl

@[simp] theorem find?_insert_self (es : Entries α) (name : String) (value : α) :
    find? (insert es name value) name = some value := by simp [find?_insert]

/-- The value of a name after several insertions is the one that they give it, else the one it had. -/
theorem find?_insertAll (es : Entries α) (pairs : List (String × α)) (name : String) :
    find? (insertAll es pairs) name = (find? (ofPairs pairs) name).or (find? es name) := by
  induction pairs generalizing es with
  | nil => rfl
  | cons p rest ih =>
    have hes : find? (insertAll es (p :: rest)) name =
        (find? (ofPairs rest) name).or (find? (insert es p.1 p.2) name) := ih (insert es p.1 p.2)
    have hnil : find? (ofPairs (p :: rest)) name =
        (find? (ofPairs rest) name).or (find? (insert [] p.1 p.2) name) := ih (insert [] p.1 p.2)
    rw [hes, hnil, find?_insert, find?_insert, Option.or_assoc]
    by_cases h : p.1 = name <;> simp [h]

/-- A value of a name is that of a pair with the name. -/
theorem mem_of_find? {es : Entries α} {name : String} {value : α} (h : find? es name = some value) :
    (name, value) ∈ es := by
  induction es with
  | nil => cases h
  | cons e rest ih =>
    obtain ⟨k, v⟩ := e
    rw [find?] at h
    split at h
    · rename_i hname
      cases h
      rw [hname]
      exact List.mem_cons_self
    · exact List.mem_cons_of_mem _ (ih h)

/-- The value that some pairs give a name is the one of the last pair with the name. -/
theorem find?_ofPairs_cons (p : String × α) (rest : List (String × α)) (name : String) :
    find? (ofPairs (p :: rest)) name =
      (find? (ofPairs rest) name).or (if p.1 = name then some p.2 else none) := by
  have hcons : find? (ofPairs (p :: rest)) name =
      (find? (ofPairs rest) name).or (find? (insert [] p.1 p.2) name) := find?_insertAll _ rest name
  rw [hcons, find?_insert, find?_nil]

/-- Some pairs give a name a value exactly when one of them has that name. -/
theorem find?_ofPairs_eq_none {pairs : List (String × α)} {name : String} :
    find? (ofPairs pairs) name = none ↔ name ∉ pairs.map Prod.fst := by
  induction pairs with
  | nil => simp [ofPairs, insertAll]
  | cons p rest ih =>
    rw [find?_ofPairs_cons, Option.or_eq_none_iff, ih, List.map_cons, List.mem_cons, not_or]
    by_cases h : p.1 = name
    · simp [h]
    · simp [h, Ne.symm h]

end Entries

end RecordQuery
