import Mathlib.Data.List.Nodup
import RecordQuery.Proofs.Store.Stored
import RecordQuery.Proofs.Value.Comparison
set_option autoImplicit false

/-!
# Store: primary keys stay apart

Rows are well keyed when the values under their primary key are integers or null and no two of them are
equal.  What each operation does to these values is said once, as a fact about the list of them:

  * an insert appends a value that equals none of them, or leaves them as they are (`insertRow_wellKeyed`);
  * a delete leaves out some of them (`without_sublist`);
  * an update replaces the values of the rows that it touches, if it assigns the key at all
    (`keyAfter`).

An update checks nothing.  The rows stay well keyed exactly when it assigns the rows that it touches keys that
differ from one another and from those of the other rows, `KeepsKeysApart`.
-/

namespace RecordQuery

/-! ## Key values -/

/-- The value of a record under its key; a missing one counts as null. -/
def Record.keyValue (key : String) (r : Record) : Value := (Entries.find? r key).getD .null

/-- An integer or null. -/
def Value.IsKey (v : Value) : Prop := v = .null ∨ ∃ n, v = .int n

namespace Value

theorem sqlEq_int (a b : Int64) : sqlEq (.int a) (.int b) = (a == b) := by
  simp [sqlEq, identical]

/-- Keys are equal in a filter when they are the same integer. -/
theorem IsKey.sqlEq_eq_true {v w : Value} (hv : v.IsKey) (hw : w.IsKey) (h : sqlEq v w = true) : v = w := by
  obtain rfl | ⟨a, rfl⟩ := hv
  · rw [sqlEq_null_left] at h
    cases h
  · obtain rfl | ⟨b, rfl⟩ := hw
    · rw [sqlEq_null_right] at h
      cases h
    · rw [sqlEq_int, beq_iff_eq] at h
      rw [h]

end Value

namespace Store

/-- The key values of some rows. -/
def keys (key : String) (rows : List Record) : List Value := rows.map (Record.keyValue key)

/-- No two values are equal in a filter; null equals nothing. -/
def Apart (values : List Value) : Prop := values.Pairwise fun v w => Value.sqlEq v w = false

/-- Integers and nulls, no two of them equal. -/
structure WellKeyed (values : List Value) : Prop where
  keys : ∀ v ∈ values, v.IsKey
  apart : Apart values

theorem WellKeyed.sublist {values some : List Value} (h : WellKeyed values) (hs : some.Sublist values) :
    WellKeyed some :=
  ⟨fun v hv => h.keys v (hs.subset hv), h.apart.sublist hs⟩

theorem WellKeyed.append {values : List Value} {v : Value} (h : WellKeyed values) (hv : v.IsKey)
    (hnew : ∀ w ∈ values, Value.sqlEq w v = false) : WellKeyed (values ++ [v]) := by
  refine ⟨?_, List.pairwise_append.mpr ⟨h.apart, List.pairwise_singleton _ _, ?_⟩⟩
  · intro w hw
    rcases List.mem_append.mp hw with hw | hw
    · exact h.keys w hw
    · rw [List.mem_singleton.mp hw]
      exact hv
  · intro w hw u hu
    rw [List.mem_singleton.mp hu]
    exact hnew w hw

/-! ## Values under a declared integer field -/

section Declared

variable {m : Model} {key : String} {signed serial : Bool} {width : IntWidth}

/-- A value brought into an integer type is an integer or null. -/
theorem isKey_of_decode {v w : Value} (h : (DataType.integer signed width serial).decode v = .ok w) :
    w.IsKey := by
  unfold DataType.decode at h
  split at h
  · cases h
    exact .inl rfl
  · obtain ⟨n, -, h⟩ := Outcome.bind_eq_ok.mp h
    cases h
    exact .inr ⟨n, rfl⟩

/-- What an integer field holds is an integer or null. -/
theorem isKey_of_holds (htype : m.fieldType? key = some (.integer signed width serial)) {v : Value}
    (h : m.Holds (key, v)) : v.IsKey := by
  obtain ⟨type, w, hfield, hw⟩ := h
  have htypes := htype.symm.trans hfield
  cases htypes
  exact isKey_of_decode hw

/-- The key of a stored record is an integer or null. -/
theorem IsStored.isKey (htype : m.fieldType? key = some (.integer signed width serial)) {r : Record}
    (h : IsStored m r) : (r.keyValue key).IsKey := by
  rw [Record.keyValue]
  cases hv : Entries.find? r key with
  | none => exact .inl rfl
  | some v => exact isKey_of_holds htype (h.holds _ (Entries.mem_of_find? hv))

/-! ## Insert -/

theorem keyValue_insert (r : Record) (name : String) (v : Value) :
    Record.keyValue key (Entries.insert r name v) = if name = key then v else r.keyValue key := by
  rw [Record.keyValue, Entries.find?_insert]
  split <;> rfl

theorem isKey_fillKey {rows : List Record} {row filled : Record} {generated : Option Int64}
    (hrow : (row.keyValue key).IsKey) (h : fillKey m rows row = .ok (filled, generated)) :
    (filled.keyValue key).IsKey := by
  rcases fillKey_cases h with ⟨rfl, -⟩ | ⟨serial, n, -, -, rfl, -⟩
  · exact hrow
  · rw [keyValue_insert]
    split
    · exact .inr ⟨n, rfl⟩
    · exact hrow

/-- A row without a partner has a key that no row has. -/
theorem sqlEq_of_sameKey?_eq_none (hkey : m.primaryKey = some key) {rows : List Record} {row : Record}
    (h : sameKey? m rows row = none) :
    ∀ v ∈ keys key rows, Value.sqlEq v (row.keyValue key) = false := by
  intro v hv
  obtain ⟨r, hr, rfl⟩ := List.mem_map.mp hv
  rw [sameKey?, hkey, Option.bind_some] at h
  cases hrow : Entries.find? row key with
  | none => rw [Record.keyValue, Record.keyValue, hrow, Option.getD_none, Value.sqlEq_null_right]
  | some w =>
    rw [hrow, Option.bind_some] at h
    rw [Record.keyValue, Record.keyValue, hrow, Option.getD_some]
    split at h
    · rename_i hnull
      rw [(Value.isNull_iff w).mp hnull, Value.sqlEq_null_right]
    · have hr := List.findIdx?_eq_none_iff.mp h r hr
      split at hr
      · rename_i other hother
        rw [hother, Option.getD_some]
        exact hr
      · rename_i hother
        rw [hother, Option.getD_none, Value.sqlEq_null_left]

/-- The partner of a row has an equal key. -/
theorem sqlEq_of_sameKey?_eq_some (hkey : m.primaryKey = some key) {rows : List Record} {row : Record}
    {index : Nat} (h : sameKey? m rows row = some index) :
    ∃ r, rows[index]? = some r ∧ Value.sqlEq (r.keyValue key) (row.keyValue key) = true := by
  rw [sameKey?, hkey, Option.bind_some] at h
  obtain ⟨w, hw, h⟩ := Option.bind_eq_some_iff.mp h
  split at h
  · cases h
  · obtain ⟨hi, hp, -⟩ := List.findIdx?_eq_some_iff_getElem.mp h
    refine ⟨rows[index], List.getElem?_eq_getElem hi, ?_⟩
    split at hp
    · rename_i other hother
      rw [Record.keyValue, Record.keyValue, hother, hw]
      exact hp
    · cases hp

/-- The row that is replaced has the same key, so that the keys stay what they are. -/
theorem keys_set_sameKey (hkey : m.primaryKey = some key) {rows : List Record} {row : Record} {index : Nat}
    (hrows : ∀ v ∈ keys key rows, v.IsKey) (hrow : (row.keyValue key).IsKey)
    (h : sameKey? m rows row = some index) : keys key (rows.set index row) = keys key rows := by
  obtain ⟨r, hr, heq⟩ := sqlEq_of_sameKey?_eq_some hkey h
  have hrkey : (r.keyValue key).IsKey := hrows _ (List.mem_map_of_mem (List.mem_of_getElem? hr))
  have hget : (keys key rows)[index]? = some (row.keyValue key) := by
    rw [keys, List.getElem?_map, hr, ← hrkey.sqlEq_eq_true hrow heq]
    rfl
  obtain ⟨hlt, hget⟩ := List.getElem?_eq_some_iff.mp hget
  rw [keys, List.map_set, ← hget]
  exact List.set_getElem_self hlt

/-- Putting one row into well keyed rows leaves them well keyed. -/
theorem insertRow_wellKeyed (hkey : m.primaryKey = some key) {replace : Bool} {rows rows' : List Record}
    {row : Record} {generated : Option Int64} (hrows : WellKeyed (keys key rows))
    (hrow : (row.keyValue key).IsKey) (h : insertRow m replace rows row = .ok (rows', generated)) :
    WellKeyed (keys key rows') := by
  obtain ⟨filled, hfill, hcases⟩ := insertRow_cases h
  have hfilled : (filled.keyValue key).IsKey := isKey_fillKey hrow hfill
  rcases hcases with ⟨hnone, rfl⟩ | ⟨index, hindex, -, rfl⟩
  · rw [keys, List.map_append]
    exact hrows.append hfilled (sqlEq_of_sameKey?_eq_none hkey hnone)
  · rw [keys_set_sameKey hkey hrows.keys hfilled hindex]
    exact hrows

/-- Putting rows into well keyed rows, one after the other, leaves them well keyed. -/
theorem insertRows_wellKeyed (hkey : m.primaryKey = some key) {replace : Bool} {prepared : List Record}
    {rows rows' : List Record} {generated last : Option Int64} (hrows : WellKeyed (keys key rows))
    (hprepared : ∀ row ∈ prepared, (row.keyValue key).IsKey)
    (h : insertRows m replace prepared generated rows = .ok (rows', last)) :
    WellKeyed (keys key rows') := by
  refine insertRows_keeps (P := fun rows => WellKeyed (keys key rows)) ?_ hrows h
  intro row hrow _ _ _ hwell hinserted
  exact insertRow_wellKeyed hkey hwell (hprepared row hrow) hinserted

end Declared

/-! ## Update -/

theorem hits_indices {st : Store} {owner : Source} {s : Shape} {index : Nat} {rows : List Record}
    {found : List (List Value × Nat)} (h : st.hits owner s index rows = .ok found) :
    (found.map Prod.snd).Pairwise (· < ·) ∧
      ∀ i ∈ found.map Prod.snd, index ≤ i ∧ i < index + rows.length := by
  induction rows generalizing index found with
  | nil =>
    cases h
    exact ⟨List.Pairwise.nil, fun i hi => absurd hi List.not_mem_nil⟩
  | cons base rest ih =>
    rw [hits] at h
    obtain ⟨passes, -, h⟩ := Outcome.bind_eq_ok.mp h
    split at h
    · obtain ⟨ks, -, h⟩ := Outcome.bind_eq_ok.mp h
      obtain ⟨more, hmore, h⟩ := Outcome.bind_eq_ok.mp h
      cases h
      obtain ⟨hlt, hrange⟩ := ih hmore
      rw [List.map_cons, List.length_cons]
      refine ⟨List.pairwise_cons.mpr ⟨?_, hlt⟩, ?_⟩
      · intro i hi
        have := hrange i hi
        omega
      · intro i hi
        rcases List.mem_cons.mp hi with rfl | hi
        · omega
        · have := hrange i hi
          omega
    · obtain ⟨hlt, hrange⟩ := ih h
      refine ⟨hlt, ?_⟩
      intro i hi
      have := hrange i hi
      rw [List.length_cons]
      omega

theorem bounded_sublist {α : Type} (s : Shape) (items : List α) : (bounded s items).Sublist items := by
  unfold bounded
  split
  · exact (List.take_sublist _ _).trans (List.drop_sublist _ _)
  · exact List.drop_sublist _ _

/-- A mutation touches every row once. -/
theorem picked_nodup {st : Store} {owner : Source} {s : Shape} {rows : List Record} {indices : List Nat}
    (htable : st.table owner.name = .ok rows) (h : st.picked owner s = .ok indices) :
    indices.Nodup ∧ ∀ i ∈ indices, i < rows.length := by
  obtain ⟨rows', hrows', h⟩ := Outcome.bind_eq_ok.mp h
  rw [htable] at hrows'
  cases hrows'
  obtain ⟨found, hfound, h⟩ := Outcome.bind_eq_ok.mp h
  cases h
  obtain ⟨hlt, hrange⟩ := hits_indices hfound
  have hperm : ((sortKeyed s.ordering found).map Prod.snd).Perm (found.map Prod.snd) :=
    (Sorting.perm_sortBy _ found).map Prod.snd
  have hsub := bounded_sublist s ((sortKeyed s.ordering found).map Prod.snd)
  refine ⟨?_, ?_⟩
  · have hnodup : (found.map Prod.snd).Nodup := hlt.imp fun h => Nat.ne_of_lt h
    exact (hperm.nodup_iff.mpr hnodup).sublist hsub
  · intro i hi
    have hi' := (hrange i (hperm.mem_iff.mp (hsub.subset hi))).2
    omega

/-- The value that some assignments give the key, if they assign it. -/
def assignedKey? (key : String) (pairs : List (String × Value)) : Option Value :=
  Entries.find? (Entries.ofPairs pairs) key

theorem keyValue_insertAll (key : String) (r : Record) (pairs : List (String × Value)) :
    Record.keyValue key (Entries.insertAll r pairs) = (assignedKey? key pairs).getD (r.keyValue key) := by
  rw [Record.keyValue, Entries.find?_insertAll, ← assignedKey?]
  cases assignedKey? key pairs <;> rfl

/-- The keys that an update assigns are integers or null. -/
theorem isKey_of_assigned {st : Store} {owner : Source} {u : UpdateSelection} {key : String}
    {signed serial : Bool} {width : IntWidth}
    (htype : owner.model.fieldType? key = some (.integer signed width serial)) {base : Record}
    {pairs : List (String × Value)} (h : st.assignments owner u base = .ok pairs) {v : Value}
    (hv : assignedKey? key pairs = some v) : v.IsKey :=
  isKey_of_holds htype (holds_of_assignments h _ (Entries.mem_of_find?_ofPairs hv))

theorem getElem?_applyChanges_of_not_mem {rows : List Record} {changes : List (Nat × List (String × Value))}
    {i : Nat} (h : ∀ c ∈ changes, c.1 ≠ i) : (applyChanges rows changes)[i]? = rows[i]? := by
  induction changes generalizing rows with
  | nil => rfl
  | cons c rest ih =>
    have hc := h c List.mem_cons_self
    refine (ih fun c' hc' => h c' (List.mem_cons_of_mem c hc')).trans ?_
    simp [hc]

theorem getElem?_applyChanges_of_mem {rows : List Record} {changes : List (Nat × List (String × Value))}
    (hnodup : (changes.map Prod.fst).Nodup) {c : Nat × List (String × Value)} (hc : c ∈ changes) :
    (applyChanges rows changes)[c.1]? = rows[c.1]?.map fun r => Entries.insertAll r c.2 := by
  induction changes generalizing rows with
  | nil => exact absurd hc List.not_mem_nil
  | cons c' rest ih =>
    rw [List.map_cons, List.nodup_cons] at hnodup
    rcases List.mem_cons.mp hc with rfl | hc
    · have hrest : ∀ c' ∈ rest, c'.1 ≠ c.1 :=
        fun c' hc' heq => hnodup.1 (heq ▸ List.mem_map_of_mem hc')
      refine (getElem?_applyChanges_of_not_mem hrest).trans ?_
      simp
    · have hne : c'.1 ≠ c.1 := fun heq => hnodup.1 (heq ▸ List.mem_map_of_mem hc)
      refine (ih hnodup.2 hc).trans ?_
      simp [hne]

/-- The keys that some changes assign differ from one another and from those of the rows without a change. -/
structure KeepsKeysApart (key : String) (rows : List Record)
    (changes : List (Nat × List (String × Value))) : Prop where
  assigned : ∀ c ∈ changes, ∀ c' ∈ changes, c.1 ≠ c'.1 → ∀ v w, assignedKey? key c.2 = some v →
    assignedKey? key c'.2 = some w → Value.sqlEq v w = false
  untouched : ∀ c ∈ changes, ∀ v, assignedKey? key c.2 = some v → ∀ (i : Nat) (r : Record),
    rows[i]? = some r → (∀ c' ∈ changes, c'.1 ≠ i) → Value.sqlEq v (r.keyValue key) = false

/-- Keys are apart when those of any two rows are. -/
theorem apart_keys_iff {key : String} {rows : List Record} :
    Apart (keys key rows) ↔ ∀ (i j : Nat) (r s : Record), i ≠ j → rows[i]? = some r → rows[j]? = some s →
      Value.sqlEq (r.keyValue key) (s.keyValue key) = false := by
  rw [Apart, keys, List.pairwise_map, List.pairwise_iff_getElem]
  constructor
  · intro hlt i j r s hij hr hs
    obtain ⟨hi, hri⟩ := List.getElem?_eq_some_iff.mp hr
    obtain ⟨hj, hsj⟩ := List.getElem?_eq_some_iff.mp hs
    rcases Nat.lt_or_gt_of_ne hij with hij | hij
    · rw [← hri, ← hsj]
      exact hlt i j hi hj hij
    · rw [Value.sqlEq_comm, ← hri, ← hsj]
      exact hlt j i hj hi hij
  · intro hne i j hi hj hij
    exact hne i j _ _ (Nat.ne_of_lt hij) (List.getElem?_eq_getElem hi) (List.getElem?_eq_getElem hj)

section Changes

variable {rows : List Record} {changes : List (Nat × List (String × Value))}

/-- A row after some changes has the key that one of them assigns, or it has the key that it had. -/
theorem keyAfter (key : String) (hnodup : (changes.map Prod.fst).Nodup) {i : Nat} {r' : Record}
    (h : (applyChanges rows changes)[i]? = some r') :
    (∃ c ∈ changes, c.1 = i ∧ assignedKey? key c.2 = some (r'.keyValue key)) ∨
      ((∀ c ∈ changes, c.1 = i → assignedKey? key c.2 = none) ∧
        ∃ r, rows[i]? = some r ∧ r'.keyValue key = r.keyValue key) := by
  by_cases hi : ∃ c ∈ changes, c.1 = i
  · obtain ⟨c, hc, rfl⟩ := hi
    rw [getElem?_applyChanges_of_mem hnodup hc] at h
    obtain ⟨r, hr, rfl⟩ := Option.map_eq_some_iff.mp h
    rw [keyValue_insertAll]
    cases hassigned : assignedKey? key c.2 with
    | some v => exact .inl ⟨c, hc, rfl, by rw [hassigned]; rfl⟩
    | none =>
      refine .inr ⟨?_, r, hr, rfl⟩
      intro c' hc' heq
      rw [List.inj_on_of_nodup_map hnodup hc' hc heq]
      exact hassigned
  · have hnone : ∀ c ∈ changes, c.1 ≠ i := fun c hc heq => hi ⟨c, hc, heq⟩
    rw [getElem?_applyChanges_of_not_mem hnone] at h
    exact .inr ⟨fun c hc heq => absurd heq (hnone c hc), r', h, rfl⟩

/-- A row that is assigned a key has it after the changes. -/
theorem exists_keyAfter {key : String} (hnodup : (changes.map Prod.fst).Nodup)
    (hrange : ∀ c ∈ changes, c.1 < rows.length) {c : Nat × List (String × Value)} (hc : c ∈ changes) {v : Value}
    (hv : assignedKey? key c.2 = some v) :
    ∃ r', (applyChanges rows changes)[c.1]? = some r' ∧ r'.keyValue key = v := by
  have hi := hrange c hc
  refine ⟨Entries.insertAll rows[c.1] c.2, ?_, by rw [keyValue_insertAll, hv]; rfl⟩
  rw [getElem?_applyChanges_of_mem hnodup hc, List.getElem?_eq_getElem hi]
  rfl

/-- Changes that assign integers and nulls to a key leave such keys. -/
theorem isKey_applyChanges {key : String} (hrows : ∀ v ∈ keys key rows, v.IsKey)
    (hnodup : (changes.map Prod.fst).Nodup)
    (hkeys : ∀ c ∈ changes, ∀ v, assignedKey? key c.2 = some v → v.IsKey) :
    ∀ v ∈ keys key (applyChanges rows changes), v.IsKey := by
  intro v hv
  obtain ⟨r', hr', rfl⟩ := List.mem_map.mp hv
  obtain ⟨i, hi⟩ := List.getElem?_of_mem hr'
  rcases keyAfter key hnodup hi with ⟨c, hc, -, hassigned⟩ | ⟨-, r, hr, heq⟩
  · exact hkeys c hc _ hassigned
  · rw [heq]
    exact hrows _ (List.mem_map_of_mem (List.mem_of_getElem? hr))

/-- Changes of well keyed rows, all of which assign the key or none, leave integers and nulls, and they leave
them apart exactly when the keys that they assign are. -/
theorem apart_applyChanges_iff {key : String} (hrows : WellKeyed (keys key rows))
    (hnodup : (changes.map Prod.fst).Nodup) (hrange : ∀ c ∈ changes, c.1 < rows.length)
    (hkeys : ∀ c ∈ changes, ∀ v, assignedKey? key c.2 = some v → v.IsKey)
    (huniform : ∀ c ∈ changes, ∀ c' ∈ changes, assignedKey? key c.2 = none →
      assignedKey? key c'.2 = none) :
    (∀ v ∈ keys key (applyChanges rows changes), v.IsKey) ∧
      (Apart (keys key (applyChanges rows changes)) ↔ KeepsKeysApart key rows changes) := by
  refine ⟨isKey_applyChanges hrows.keys hnodup hkeys, ?_, ?_⟩
  · intro h
    have hapart := apart_keys_iff.mp h
    refine ⟨?_, ?_⟩
    · intro c hc c' hc' hne v w hv hw
      obtain ⟨r, hr, rfl⟩ := exists_keyAfter hnodup hrange hc hv
      obtain ⟨s, hs, rfl⟩ := exists_keyAfter hnodup hrange hc' hw
      exact hapart c.1 c'.1 r s hne hr hs
    · intro c hc v hv i r hr hi
      obtain ⟨r', hr', rfl⟩ := exists_keyAfter hnodup hrange hc hv
      have hri : (applyChanges rows changes)[i]? = some r := by
        rw [getElem?_applyChanges_of_not_mem hi, hr]
      exact hapart c.1 i r' r (hi c hc) hr' hri
  · intro h
    refine apart_keys_iff.mpr ?_
    -- a row that is not assigned a key beside one that is assigned a key is not touched at all
    have huntouched : ∀ c ∈ changes, ∀ v, assignedKey? key c.2 = some v → ∀ {j : Nat},
        (∀ c' ∈ changes, c'.1 = j → assignedKey? key c'.2 = none) → ∀ c' ∈ changes, c'.1 ≠ j := by
      intro c hc v hv j hj c' hc' heq
      rw [huniform c' hc' c hc (hj c' hc' heq)] at hv
      cases hv
    intro i j r' s' hij hr' hs'
    rcases keyAfter key hnodup hr' with ⟨c, hc, rfl, hv⟩ | ⟨hi, r, hr, hrkey⟩
    · rcases keyAfter key hnodup hs' with ⟨c', hc', rfl, hw⟩ | ⟨hj, s, hs, hskey⟩
      · exact h.assigned c hc c' hc' hij _ _ hv hw
      · rw [hskey]
        exact h.untouched c hc _ hv j s hs (huntouched c hc _ hv hj)
    · rcases keyAfter key hnodup hs' with ⟨c', hc', rfl, hw⟩ | ⟨hj, s, hs, hskey⟩
      · rw [hrkey, Value.sqlEq_comm]
        exact h.untouched c' hc' _ hw i r hr (huntouched c' hc' _ hw hi)
      · rw [hrkey, hskey]
        exact apart_keys_iff.mp hrows.apart i j r s hij hr hs

end Changes

end Store

end RecordQuery
