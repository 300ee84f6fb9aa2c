import RecordQuery.Proofs.Entries
import RecordQuery.Store.Write
set_option autoImplicit false

/-!
# Store: stored records

Inserts and updates store values that are decoded for the declared types of their fields, in records whose
names ascend.  `IsStored` says so of one record; it is kept by the preparation of a record for an insert, by
the keys that an insert fills in, and by the changes of an update.
-/

namespace RecordQuery

/-! ## Stored records -/

namespace Model

variable {m : Model}

/-- The name is that of a declared field, and the value is decoded for its type. -/
def Holds (m : Model) (column : String × Value) : Prop :=
  ∃ type v, m.fieldType? column.1 = some type ∧ type.decode v = .ok column.2

theorem findField?_eq_some {name declared : String} {type : DataType}
    (h : m.findField? name true = some (declared, type)) :
    declared = name ∧ m.fieldType? name = some type := by
  have hfind : m.fields.find? (fun f => f.1 == name) = some (declared, type) := by
    simpa [findField?] using h
  refine ⟨by simpa using List.find?_some hfind, ?_⟩
  rw [fieldType?, hfind]
  rfl

theorem findField?_of_fieldType? {name : String} {type : DataType} (h : m.fieldType? name = some type) :
    m.findField? name true = some (name, type) := by
  obtain ⟨⟨declared, type'⟩, hfind, rfl⟩ := Option.map_eq_some_iff.mp h
  have hname : declared = name := by simpa using List.find?_some hfind
  subst hname
  simpa [findField?] using hfind

/-- Null is held by every declared field. -/
theorem holds_null {name : String} {type : DataType} (h : (name, type) ∈ m.fields) :
    m.Holds (name, .null) := by
  have hsome : (m.fields.find? fun f => f.1 == name).isSome = true :=
    List.find?_isSome.mpr ⟨_, h, by simp⟩
  obtain ⟨f, hf⟩ := Option.isSome_iff_exists.mp hsome
  have htype : m.fieldType? name = some f.2 := by rw [fieldType?, hf]; rfl
  exact ⟨f.2, .null, htype, rfl⟩

end Model

namespace Store

variable {m : Model}

/-- The record is one that a store of this model holds. -/
structure IsStored (m : Model) (r : Record) : Prop where
  sorted : Entries.Sorted r
  holds : ∀ column ∈ r, m.Holds column

theorem IsStored.insert {r : Record} (h : IsStored m r) {column : String × Value} (hc : m.Holds column) :
    IsStored m (Entries.insert r column.1 column.2) := by
  refine ⟨h.sorted.insert _ _, fun c hmem => ?_⟩
  rcases Entries.mem_insert hmem with rfl | hmem
  · exact hc
  · exact h.holds c hmem

theorem IsStored.insertAll {r : Record} (h : IsStored m r) {columns : List (String × Value)}
    (hc : ∀ column ∈ columns, m.Holds column) : IsStored m (Entries.insertAll r columns) := by
  refine ⟨Entries.sorted_insertAll h.sorted _, fun c hmem => ?_⟩
  exact (Entries.mem_insertAll hmem).elim (hc c) (h.holds c)

theorem isStored_blankRecord (m : Model) : IsStored m m.blankRecord := by
  refine IsStored.insertAll ⟨List.Pairwise.nil, nofun⟩ ?_
  intro column hmem
  obtain ⟨f, hf, rfl⟩ := List.mem_map.mp hmem
  exact Model.holds_null hf

/-- A value for a field is under the name of the field. -/
theorem coerce_name {name : String} {v : Value} {column : String × Value}
    (h : coerce m name v = .ok column) : column.1 = name := by
  unfold coerce at h
  split at h
  · rename_i declared type hfind
    obtain ⟨w, -, h⟩ := Outcome.bind_eq_ok.mp h
    cases h
    exact (Model.findField?_eq_some hfind).1
  · cases h

/-- A value brought into the type of its field is held by the field. -/
theorem holds_of_coerce {name : String} {v : Value} {column : String × Value}
    (h : coerce m name v = .ok column) : m.Holds column := by
  unfold coerce at h
  split at h
  · rename_i declared type hfind
    obtain ⟨w, hw, h⟩ := Outcome.bind_eq_ok.mp h
    cases h
    obtain ⟨rfl, htype⟩ := Model.findField?_eq_some hfind
    exact ⟨type, v, htype, hw⟩
  · cases h

/-! ## Insert -/

/-- Values that are brought into their types, one after the other, make a stored record. -/
theorem isStored_of_coerced {fields start row : Record} (hstart : IsStored m start)
    (h : fields.foldlM (fun row field => do
      let pair ← coerce m field.1 field.2
      return Entries.insert row pair.1 pair.2) start = .ok row) : IsStored m row := by
  induction fields generalizing start with
  | nil =>
    cases h
    exact hstart
  | cons field rest ih =>
    rw [List.foldlM_cons] at h
    obtain ⟨next, hnext, h⟩ := Outcome.bind_eq_ok.mp h
    obtain ⟨pair, hpair, hnext⟩ := Outcome.bind_eq_ok.mp hnext
    cases hnext
    exact ih (hstart.insert (holds_of_coerce hpair)) h

theorem isStored_prepare {r row : Record} (h : prepare m r = .ok row) : IsStored m row :=
  isStored_of_coerced (isStored_blankRecord m) h

/-- A row is filled up with the next key where it has none, and left as it is otherwise. -/
theorem fillKey_cases {rows : List Record} {row filled : Record} {generated : Option Int64}
    (h : fillKey m rows row = .ok (filled, generated)) :
    (filled = row ∧ generated = none) ∨
      ∃ key n, m.serialKey? = some key ∧ nextKey key rows = .ok n ∧
        filled = Entries.insert row key (.int n) ∧ generated = some n := by
  unfold fillKey at h
  split at h
  · cases h
    exact .inl ⟨rfl, rfl⟩
  · rename_i key hkey
    split at h
    · obtain ⟨n, hn, h⟩ := Outcome.bind_eq_ok.mp h
      cases h
      exact .inr ⟨key, n, hkey, hn, rfl, rfl⟩
    · cases h
      exact .inl ⟨rfl, rfl⟩

theorem isStored_fillKey {rows : List Record} {row filled : Record} {generated : Option Int64}
    (h : IsStored m row) (hfilled : fillKey m rows row = .ok (filled, generated)) : IsStored m filled := by
  rcases fillKey_cases hfilled with ⟨rfl, -⟩ | ⟨key, n, hkey, -, rfl, -⟩
  · exact h
  · obtain ⟨key', -, hserial⟩ := Option.bind_eq_some_iff.mp hkey
    split at hserial
    · rename_i signed width htype
      cases hserial
      have hholds : m.Holds (key, .int n) := ⟨_, .int n, htype, rfl⟩
      exact h.insert hholds
    · cases hserial

/-- A row is put at the end, or in the place of the row with its key, once its own key is filled in. -/
theorem insertRow_cases {replace : Bool} {rows rows' : List Record} {row : Record}
    {generated : Option Int64} (h : insertRow m replace rows row = .ok (rows', generated)) :
    ∃ filled, fillKey m rows row = .ok (filled, generated) ∧
      ((sameKey? m rows filled = none ∧ rows' = rows ++ [filled]) ∨
        ∃ index, sameKey? m rows filled = some index ∧ replace = true ∧ rows' = rows.set index filled) := by
  obtain ⟨⟨filled, key⟩, hfilled, h⟩ := Outcome.bind_eq_ok.mp h
  simp only at h
  split at h
  · rename_i index hindex
    split at h
    · rename_i hreplace
      cases h
      exact ⟨filled, hfilled, .inr ⟨index, hindex, hreplace, rfl⟩⟩
    · cases h
  · rename_i hnone
    cases h
    exact ⟨filled, hfilled, .inl ⟨hnone, rfl⟩⟩

/-- What every row keeps that is put into a table is kept by all of them. -/
theorem insertRows_keeps {P : List Record → Prop} {replace : Bool} {prepared rows rows' : List Record}
    {generated last : Option Int64}
    (hstep : ∀ row ∈ prepared, ∀ {rows rows' key}, P rows →
      insertRow m replace rows row = .ok (rows', key) → P rows')
    (hrows : P rows) (h : insertRows m replace prepared generated rows = .ok (rows', last)) : P rows' := by
  induction prepared generalizing rows generated with
  | nil =>
    cases h
    exact hrows
  | cons row rest ih =>
    rw [insertRows] at h
    obtain ⟨⟨mid, filled⟩, hmid, h⟩ := Outcome.bind_eq_ok.mp h
    obtain ⟨hrow, hrest⟩ := List.forall_mem_cons.mp hstep
    exact ih hrest (hrow hrows hmid) h

theorem insertRow_stored {replace : Bool} {rows rows' : List Record} {row : Record}
    {generated : Option Int64} (hrows : ∀ r ∈ rows, IsStored m r) (hrow : IsStored m row)
    (h : insertRow m replace rows row = .ok (rows', generated)) : ∀ r ∈ rows', IsStored m r := by
  obtain ⟨filled, hfill, hcases⟩ := insertRow_cases h
  have hfilled : IsStored m filled := isStored_fillKey hrow hfill
  intro r hr
  rcases hcases with ⟨-, rfl⟩ | ⟨index, -, -, rfl⟩
  · rcases List.mem_append.mp hr with hr | hr
    · exact hrows r hr
    · rw [List.mem_singleton.mp hr]
      exact hfilled
  · rcases List.mem_or_eq_of_mem_set hr with hr | rfl
    · exact hrows r hr
    · exact hfilled

theorem insertRows_stored {replace : Bool} {prepared rows rows' : List Record}
    {generated last : Option Int64} (hrows : ∀ r ∈ rows, IsStored m r)
    (hprepared : ∀ r ∈ prepared, IsStored m r)
    (h : insertRows m replace prepared generated rows = .ok (rows', last)) : ∀ r ∈ rows', IsStored m r := by
  refine insertRows_keeps (P := fun rows => ∀ r ∈ rows, IsStored m r) ?_ hrows h
  intro row hrow _ _ _ hrows hinserted
  exact insertRow_stored hrows (hprepared row hrow) hinserted

/-- A successful insert prepared its records and put them into the rows of the table. -/
theorem insert_eq_ok {st st' : Store} {owner : Source} {records : List Record} {replace : Bool}
    {key : Option Int64} :
    st.insert owner records replace = .ok (st', key) ↔
      ∃ prepared rows rows', records.mapM (prepare owner.model) = .ok prepared ∧
        st.table owner.name = .ok rows ∧
        insertRows owner.model replace prepared none rows = .ok (rows', key) ∧
        st' = st.withTable owner.name rows' := by
  constructor
  · intro h
    obtain ⟨prepared, hprepared, h⟩ := Outcome.bind_eq_ok.mp h
    obtain ⟨rows, htable, h⟩ := Outcome.bind_eq_ok.mp h
    obtain ⟨⟨rows', last⟩, hrows', h⟩ := Outcome.bind_eq_ok.mp h
    cases h
    exact ⟨prepared, rows, rows', hprepared, htable, hrows', rfl⟩
  · rintro ⟨prepared, rows, rows', hprepared, htable, hrows', rfl⟩
    rw [insert, hprepared, Outcome.ok_bind, htable, Outcome.ok_bind, hrows']
    rfl

/-! ## Delete -/

theorem without_sublist (indices : List Nat) (index : Nat) (rows : List Record) :
    (without indices index rows).Sublist rows := by
  induction rows generalizing index with
  | nil => exact List.Sublist.slnil
  | cons r rest ih =>
    rw [without]
    split
    · exact (ih _).cons r
    · exact (ih _).cons_cons r

/-! ## Update -/

/-- What a field is assigned is a value brought into its type. -/
theorem assignment_eq_ok {st : Store} {m : Model} {row : Joined} {set : String × Assigned}
    {pair : String × Value} (h : (do
      let v ← match set.2 with
        | .value v => pure v
        | .computed fragment => Joined.fragmentValue st.registry row fragment
      coerce m set.1 v) = .ok pair) : ∃ v, coerce m set.1 v = .ok pair := by
  simp only at h
  split at h
  · exact ⟨_, h⟩
  · obtain ⟨v, -, h⟩ := Outcome.bind_eq_ok.mp h
    exact ⟨v, h⟩

theorem isStored_applyChanges {rows : List Record} {changes : List (Nat × List (String × Value))}
    (hrows : ∀ r ∈ rows, IsStored m r)
    (hchanges : ∀ change ∈ changes, ∀ column ∈ change.2, m.Holds column) :
    ∀ r ∈ applyChanges rows changes, IsStored m r := by
  induction changes generalizing rows with
  | nil => exact hrows
  | cons change rest ih =>
    obtain ⟨hchange, hrest⟩ := List.forall_mem_cons.mp hchanges
    refine ih ?_ hrest
    intro r hr
    obtain ⟨i, hi⟩ := List.getElem?_of_mem hr
    rw [List.getElem?_modify] at hi
    obtain ⟨old, hold, rfl⟩ := Option.map_eq_some_iff.mp hi
    have hstored := hrows old (List.mem_of_getElem? hold)
    split
    · exact hstored.insertAll hchange
    · exact hstored

/-- An update assigns its fields, in their order. -/
theorem assignments_names {st : Store} {owner : Source} {u : UpdateSelection} {base : Record}
    {pairs : List (String × Value)} (h : st.assignments owner u base = .ok pairs) :
    pairs.map Prod.fst = u.sets.map Prod.fst := by
  refine Outcome.map_of_mapM ?_ h
  intro set pair hpair
  obtain ⟨v, hv⟩ := assignment_eq_ok hpair
  exact coerce_name hv

theorem holds_of_assignments {st : Store} {owner : Source} {u : UpdateSelection} {base : Record}
    {pairs : List (String × Value)} (h : st.assignments owner u base = .ok pairs) :
    ∀ pair ∈ pairs, owner.model.Holds pair := by
  refine Outcome.forall_of_mapM ?_ h
  intro set pair hpair
  obtain ⟨v, hv⟩ := assignment_eq_ok hpair
  exact holds_of_coerce hv

theorem holds_of_changes {st : Store} {owner : Source} {u : UpdateSelection} {rows : List Record}
    {indices : List Nat} {changes : List (Nat × List (String × Value))}
    (h : st.changes owner u rows indices = .ok changes) :
    ∀ change ∈ changes, ∀ pair ∈ change.2, owner.model.Holds pair := by
  refine Outcome.forall_of_mapM ?_ h
  intro index change hchange
  obtain ⟨pairs, hpairs, hchange⟩ := Outcome.bind_eq_ok.mp hchange
  cases hchange
  exact holds_of_assignments hpairs

end Store

end RecordQuery
