import Mathlib.Data.List.Nodup
import RecordQuery.Entries
set_option autoImplicit false

/-!
# Entries: names ascend

Names are ordered by their code points, strictly and totally.  Insertion keeps the names of a map in
ascending order, so a map is the only one with its pairs: inserting them again, in any map that is built
that way, gives the same list.  Values of different names may be inserted in any order.
-/

namespace RecordQuery

namespace Text

instance lawfulEqCmp_toNat : Std.LawfulEqCmp (compareOn Char.toNat) where
  eq_of_compare h := Char.toNat_inj.mp (Nat.compare_eq_eq.mp h)

instance : Std.TransCmp compareText where
  eq_swap {a b} := show List.compareLex (compareOn Char.toNat) a.toList b.toList = _ from
    Std.OrientedCmp.eq_swap
  isLE_trans {a _ c} hab hbc := show (List.compareLex (compareOn Char.toNat) a.toList c.toList).isLE = true from
    Std.TransCmp.isLE_trans hab hbc

instance : Std.LawfulEqCmp compareText where
  eq_of_compare {a b} h := String.toList_inj.mp
    (Std.LawfulEqCmp.eq_of_compare (show List.compareLex (compareOn Char.toNat) a.toList b.toList = .eq from h))

/-- Of two different names one stands before the other. -/
theorem compareText_eq_lt {a b : String} (hne : a ≠ b) (hlt : compareText b a ≠ .lt) :
    compareText a b = .lt := by
  cases h : compareText a b with
  | lt => rfl
  | eq => exact absurd (Std.LawfulEqCmp.eq_of_compare h) hne
  | gt => exact absurd (Std.OrientedCmp.lt_of_gt h) hlt

end Text

namespace Entries

variable {α : Type}

theorem mem_insert {es : Entries α} {name : String} {value : α} {e : String × α}
    (h : e ∈ insert es name value) : e = (name, value) ∨ e ∈ es := by
  induction es with
  | nil => exact .inl (List.mem_singleton.mp h)
  | cons first rest ih =>
    obtain ⟨k, v⟩ := first
    rw [insert] at h
    split at h
    · exact (List.mem_cons.mp h).imp_right (List.mem_cons_of_mem _)
    split at h
    · exact List.mem_cons.mp h
    · rcases List.mem_cons.mp h with rfl | h
      · exact .inr List.mem_cons_self
      · exact (ih h).imp_right (List.mem_cons_of_mem _)

/-- Insertion keeps the order of names. -/
theorem Sorted.insert {es : Entries α} (h : Sorted es) (name : String) (value : α) :
    Sorted (Entries.insert es name value) := by
  induction es with
  | nil => exact List.pairwise_singleton _ _
  | cons first rest ih =>
    obtain ⟨k, v⟩ := first
    obtain ⟨hfirst, hrest⟩ := List.pairwise_cons.mp h
    rw [Entries.insert]
    split
    · rename_i hname
      subst hname
      exact List.pairwise_cons.mpr ⟨hfirst, hrest⟩
    split
    · rename_i hname hlt
      refine List.pairwise_cons.mpr ⟨fun e he => ?_, h⟩
      rcases List.mem_cons.mp he with rfl | he
      · exact hlt
      · exact Std.TransCmp.lt_trans hlt (hfirst e he)
    · rename_i hname hlt
      refine List.pairwise_cons.mpr ⟨fun e he => ?_, ih hrest⟩
      rcases mem_insert he with rfl | he
      · exact Text.compareText_eq_lt hname hlt
      · exact hfirst e he

theorem sorted_insertAll {es : Entries α} (h : Sorted es) (pairs : List (String × α)) :
    Sorted (insertAll es pairs) := by
  induction pairs generalizing es with
  | nil => exact h
  | cons p rest ih => exact ih (h.insert p.1 p.2)

theorem mem_insertAll {es : Entries α} {pairs : List (String × α)} {e : String × α}
    (h : e ∈ insertAll es pairs) : e ∈ pairs ∨ e ∈ es := by
  induction pairs generalizing es with
  | nil => exact .inr h
  | cons p rest ih =>
    rcases ih h with h | h
    · exact .inl (List.mem_cons_of_mem p h)
    · rcases mem_insert h with rfl | h
      · exact .inl List.mem_cons_self
      · exact .inr h

/-- The value that some pairs give a name is that of a pair with the name. -/
theorem mem_of_find?_ofPairs {pairs : List (String × α)} {name : String} {value : α}
    (h : find? (ofPairs pairs) name = some value) : (name, value) ∈ pairs :=
  (mem_insertAll (mem_of_find? h)).resolve_right List.not_mem_nil

/-- Pairs with different names give each name its value. -/
theorem find?_ofPairs_of_nodup {pairs : List (String × α)} (hnodup : (pairs.map Prod.fst).Nodup) {p : String × α}
    (hp : p ∈ pairs) : find? (ofPairs pairs) p.1 = some p.2 := by
  have hsome : find? (ofPairs pairs) p.1 ≠ none := fun hnone =>
    find?_ofPairs_eq_none.mp hnone (List.mem_map_of_mem hp)
  obtain ⟨v, hv⟩ := Option.ne_none_iff_exists'.mp hsome
  have hsame : (p.1, v) = p := List.inj_on_of_nodup_map hnodup (mem_of_find?_ofPairs hv) hp rfl
  rw [hv, ← hsame]

/-- A search by a name that occurs once finds its pair. -/
theorem find?_name_of_nodup {pairs : List (String × α)} (hnodup : (pairs.map Prod.fst).Nodup) {p : String × α}
    (hp : p ∈ pairs) : (pairs.find? fun q => q.1 == p.1) = some p := by
  induction pairs with
  | nil => exact absurd hp List.not_mem_nil
  | cons first rest ih =>
    rw [List.map_cons, List.nodup_cons] at hnodup
    rcases List.mem_cons.mp hp with rfl | hp
    · exact List.find?_cons_of_pos (beq_self_eq_true p.1)
    · have hne : first.1 ≠ p.1 := fun h => hnodup.1 (h ▸ List.mem_map_of_mem hp)
      rw [List.find?_cons_of_neg (by simpa using hne)]
      exact ih hnodup.2 hp

/-- The order is one of the names alone. -/
theorem sorted_iff_of_names {β : Type} {es : Entries α} {es' : Entries β}
    (h : es.map Prod.fst = es'.map Prod.fst) : Sorted es ↔ Sorted es' := by
  have hmap : ∀ {γ : Type} (es : Entries γ),
      (es.map Prod.fst).Pairwise (fun a b => Text.compareText a b = .lt) ↔ Sorted es :=
    fun _ => List.pairwise_map
  rw [← hmap, ← hmap, h]

/-- A name after all others is inserted at the end. -/
theorem insert_last {es : Entries α} {name : String} (value : α)
    (h : ∀ e ∈ es, Text.compareText e.1 name = .lt) : insert es name value = es ++ [(name, value)] := by
  induction es with
  | nil => rfl
  | cons first rest ih =>
    obtain ⟨k, v⟩ := first
    have hlt : Text.compareText k name = .lt := h _ List.mem_cons_self
    have hne : k ≠ name := by
      rintro rfl
      have heq : Text.compareText k k = .eq := Std.ReflCmp.compare_self
      rw [heq] at hlt
      cases hlt
    have hgt : Text.compareText name k = .gt := Std.OrientedCmp.gt_of_lt hlt
    rw [insert, if_neg hne, hgt, if_neg (by decide), ih fun e he => h e (List.mem_cons_of_mem _ he),
      List.cons_append]

theorem insertAll_of_sorted {es pairs : Entries α} (h : Sorted (es ++ pairs)) :
    insertAll es pairs = es ++ pairs := by
  induction pairs generalizing es with
  | nil => exact (List.append_nil es).symm
  | cons p rest ih =>
    obtain ⟨-, -, hlast⟩ := List.pairwise_append.mp h
    have hinsert := insert_last p.2 fun e he => hlast e he p List.mem_cons_self
    rw [← List.singleton_append, ← List.append_assoc] at h ⊢
    rw [← ih h, ← hinsert]
    rfl

/-- The pairs of a sorted map, inserted one after the other, are the map again. -/
theorem Sorted.ofPairs_eq {es : Entries α} (h : Sorted es) : ofPairs es = es := insertAll_of_sorted h

theorem Sorted.nodup_names {es : Entries α} (h : Sorted es) : (names es).Nodup := by
  refine List.pairwise_map.mpr (h.imp fun {a b} hlt heq => ?_)
  have hself : Text.compareText b.1 b.1 = .eq := Std.ReflCmp.compare_self
  rw [heq, hself] at hlt
  cases hlt

theorem Sorted.contains_iff {es : Entries α} (h : Sorted es) (name : String) :
    contains es name = true ↔ name ∈ names es := by
  have hnone : find? (ofPairs es) name = none ↔ name ∉ names es := find?_ofPairs_eq_none
  rw [h.ofPairs_eq] at hnone
  rw [contains, Option.isSome_iff_ne_none, Ne, hnone, not_not]

theorem Sorted.find?_of_mem {es : Entries α} (h : Sorted es) {e : String × α} (he : e ∈ es) :
    find? es e.1 = some e.2 := by
  have hfind := find?_ofPairs_of_nodup h.nodup_names he
  rwa [h.ofPairs_eq] at hfind

/-! ## Insertions in another order -/

/-- Of two values of one name the later one stays. -/
theorem insert_insert (es : Entries α) (name : String) (first second : α) :
    insert (insert es name first) name second = insert es name second := by
  induction es with
  | nil => simp [insert]
  | cons e rest ih =>
    obtain ⟨k, v⟩ := e
    simp only [insert]
    split
    · simp [insert]
    · split
      · simp [insert]
      · simp [insert, *]

private theorem insert_comm_of_lt {a b : String} (hlt : Text.compareText a b = .lt) (x y : α) (es : Entries α) :
    insert (insert es a x) b y = insert (insert es b y) a x := by
  have hself : Text.compareText a a = .eq := Std.ReflCmp.compare_self
  have hne : a ≠ b := by
    rintro rfl
    rw [hself] at hlt
    cases hlt
  have hgt : Text.compareText b a = .gt := Std.OrientedCmp.gt_of_lt hlt
  induction es with
  | nil => simp [insert, hne, hne.symm, hlt, hgt]
  | cons e rest ih =>
    obtain ⟨k, v⟩ := e
    by_cases hka : k = a
    · subst hka
      simp [insert, hne, hgt]
    by_cases hak : Text.compareText a k = .lt
    · by_cases hkb : k = b
      · subst hkb
        simp [insert, hka, hlt, hne, hgt]
      · by_cases hbk : Text.compareText b k = .lt
        · simp [insert, hka, hak, hkb, hbk, hne, hgt, hlt, hne.symm]
        · simp [insert, hka, hak, hkb, hbk, hne, hgt]
    · -- the first name stands before both
      have hkb : Text.compareText k b = .lt :=
        Std.TransCmp.lt_trans (Text.compareText_eq_lt hka hak) hlt
      have hkne : k ≠ b := by
        rintro rfl
        rw [Text.compareText_eq_lt hka hak] at hgt
        cases hgt
      have hbk : Text.compareText b k = .gt := Std.OrientedCmp.gt_of_lt hkb
      simp [insert, hka, hak, hkne, hbk, ih]

/-- Values of different names may be inserted in any order. -/
theorem insert_comm {a b : String} (hne : a ≠ b) (x y : α) (es : Entries α) :
    insert (insert es a x) b y = insert (insert es b y) a x := by
  by_cases hlt : Text.compareText a b = .lt
  · exact insert_comm_of_lt hlt x y es
  · exact (insert_comm_of_lt (Text.compareText_eq_lt hne.symm hlt) y x es).symm

/-- Pairs with different names may be inserted in any order. -/
theorem insertAll_perm {pairs pairs' : List (String × α)} (hperm : pairs.Perm pairs')
    (hnodup : (pairs.map Prod.fst).Nodup) (es : Entries α) : insertAll es pairs = insertAll es pairs' := by
  refine hperm.foldl_eq' ?_ es
  intro p hp q hq acc
  by_cases hname : p.1 = q.1
  · rw [List.inj_on_of_nodup_map hnodup hp hq hname]
  · exact insert_comm hname p.2 q.2 acc

end Entries

end RecordQuery
