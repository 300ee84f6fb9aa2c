import RecordQuery.Proofs.Row.SubRecords
set_option autoImplicit false

/-!
# Row: the places of columns

Every column of a row has a place in the record that it is gathered into: a field of a sub-record, a computed field, a
declared field, or a field of its own name (`Place`).  Names are matched in three ways and perhaps up to case, but an
entry of the record is never of two places (`place_eq_of_ownName?`).  So columns of different places make entries of
different names, in the record itself (`nodup_ownEntries`) and in each sub-record (`nodup_nestedEntries`).
-/

namespace RecordQuery

/-- The place of a column in the record that its row is gathered into. -/
inductive Place where
  /-- a field of the sub-record with this index among the additional fields -/
  | nested (index : Nat) (field : String)
  | computed (label : String)
  | declared (name : String)
  | plain (name : String)
  deriving DecidableEq, Repr

/-- The name of the entry of a place, if it is one of the record itself. -/
def Place.ownName? : Place → Option String
  | .nested _ _ => none
  | .computed label => some label
  | .declared name => some name
  | .plain name => some name

/-- The field of a place, if it is one of the sub-record with an index. -/
def Place.nestedName? (index : Nat) : Place → Option String
  | .nested i field => if i = index then some field else none
  | _ => none

theorem Place.eq_of_nestedName? {place : Place} {index : Nat} {field : String}
    (h : place.nestedName? index = some field) : place = .nested index field := by
  cases place with
  | nested i name =>
    obtain ⟨rfl, hname⟩ := Option.ite_none_right_eq_some.mp h
    rw [Option.some.inj hname]
  | computed label => cases h
  | declared name => cases h
  | plain name => cases h

/-- An entry of a record with the outcome of decoding its value. -/
abbrev Pending := String × Outcome Value

namespace Gatherer

/-- The model of the sub-record with an index. -/
def nestedModel? (g : Gatherer) (index : Nat) : Option Model := g.additional[index]?.bind ExtraField.record

/-- The name under which a record of a model has a column: as its field is declared, else the name of the column. -/
def fieldName (g : Gatherer) (m : Model) (column : String) : String :=
  ((m.findField? column g.caseSensitive).map Prod.fst).getD column

/-- The value that a record of a model has for a column: decoded for its field, if there is one. -/
def fieldValue (g : Gatherer) (m : Model) (column : String × Value) : Outcome Value :=
  match m.findField? column.1 g.caseSensitive with
  | some (_, type) => type.decode column.2
  | none => .ok column.2

/-- The place of a column. -/
def place (g : Gatherer) (column : String) : Place :=
  match g.route column with
  | .nested index field => .nested index (((g.nestedModel? index).map fun m => g.fieldName m field).getD field)
  | .computed f => .computed f.label
  | .declared name _ => .declared name
  | .plain name => .plain name

/-- The value of a column at its place. -/
def decoded (g : Gatherer) (column : String × Value) : Outcome Value :=
  match g.route column.1 with
  | .nested index field => ((g.nestedModel? index).map fun m => g.fieldValue m (field, column.2)).getD (.ok column.2)
  | .computed f => decodeComputed f column.2
  | .declared _ type => type.decode column.2
  | .plain _ => .ok column.2

/-- The entry that a column makes in the record itself. -/
def ownEntry (g : Gatherer) (column : String × Value) : Option Pending :=
  (g.place column.1).ownName?.map fun name => (name, g.decoded column)

/-- The entry that a column of a sub-record makes in it. -/
def nestedEntry (g : Gatherer) (m : Model) (column : String × Value) : Pending :=
  (g.fieldName m column.1, g.fieldValue m column)

/-- The place of the entry of a name in the record itself. -/
def placeNamed (g : Gatherer) (name : String) : Place :=
  if (g.computed? name).isSome then .computed name
  else if (g.model.findField? name g.caseSensitive).isSome then .declared name
  else .plain name

section

variable (g : Gatherer)

/-! ## Names -/

theorem sameName_self (name : String) : g.sameName name name = true := by
  unfold sameName Text.equalIgnoringCase
  split <;> exact beq_self_eq_true _

/-- Names that are the same are not told apart by a third one. -/
theorem sameName_congr {a b : String} (h : g.sameName a b = true) (name : String) :
    g.sameName name a = g.sameName name b := by
  unfold sameName Text.equalIgnoringCase at h ⊢
  by_cases hcase : g.caseSensitive = true
  · rw [if_pos hcase] at h
    rw [eq_of_beq h]
  · rw [if_neg hcase] at h
    rw [if_neg hcase, if_neg hcase, eq_of_beq h]

theorem findField?_eq (m : Model) (column : String) :
    m.findField? column g.caseSensitive = m.fields.find? fun f => g.sameName f.1 column := rfl

theorem sameName_of_findField? {m : Model} {column name : String} {type : DataType}
    (h : m.findField? column g.caseSensitive = some (name, type)) : g.sameName name column = true := by
  rw [findField?_eq] at h
  exact List.find?_some (p := fun f : String × DataType => g.sameName f.1 column) h

theorem isSome_findField?_declared {m : Model} {column name : String} {type : DataType}
    (h : m.findField? column g.caseSensitive = some (name, type)) :
    (m.findField? name g.caseSensitive).isSome = true := by
  have hmem : (name, type) ∈ m.fields := List.mem_of_find?_eq_some h
  rw [findField?_eq, List.find?_isSome]
  exact ⟨(name, type), hmem, g.sameName_self name⟩

/-- What is computed under a name is computed under its own label. -/
theorem isSome_computed?_label {column : String} {f : ExtraField} (h : g.computed? column = some f) :
    (g.computed? f.label).isSome = true := by
  have hmem : f ∈ g.additional := List.mem_of_find?_eq_some h
  have hfound := List.find?_some h
  rw [Bool.and_eq_true] at hfound
  rw [computed?, List.find?_isSome]
  exact ⟨f, hmem, by rw [hfound.1, sameName_self]; rfl⟩

/-- Names that are the same are computed by the same field. -/
theorem computed?_congr {a b : String} (h : g.sameName a b = true) : g.computed? a = g.computed? b := by
  unfold computed?
  simp only [g.sameName_congr h]

/-! ## Sub-records -/

theorem route_eq_nested {column field : String} {index : Nat} :
    g.route column = .nested index field ↔ g.nested? column = some (index, field) := by
  rw [route]
  cases g.nested? column with
  | some found => simp [Prod.ext_iff]
  | none =>
    cases g.computed? column with
    | some f => simp
    | none => cases g.model.findField? column g.caseSensitive <;> simp

/-- A column of a sub-record belongs to the first one of its label. -/
theorem nested?_eq_some {column field : String} {index : Nat} (h : g.nested? column = some (index, field)) :
    ∃ f m, g.additional[index]? = some f ∧ f.record = some m ∧
      ∀ i < index, ∀ e, g.additional[i]? = some e → e.record.isSome = true → e.label ≠ f.label := by
  obtain ⟨⟨label, rest⟩, -, h⟩ := Option.bind_eq_some_iff.mp h
  obtain ⟨i, hfound, hi⟩ := Option.map_eq_some_iff.mp h
  cases hi
  obtain ⟨hlt, hmatch, hbefore⟩ := List.findIdx?_eq_some_iff_getElem.mp hfound
  obtain ⟨hrecord, hlabel⟩ := Bool.and_eq_true_iff.mp hmatch
  obtain ⟨m, hm⟩ := Option.isSome_iff_exists.mp hrecord
  refine ⟨g.additional[index], m, List.getElem?_eq_getElem hlt, hm, fun j hj e he hesome hsame => ?_⟩
  obtain ⟨hjlt, rfl⟩ := List.getElem?_eq_some_iff.mp he
  exact hbefore j hj (Bool.and_eq_true_iff.mpr ⟨hesome, hsame ▸ hlabel⟩)

theorem nestedModel?_eq_some {index : Nat} {m : Model} :
    g.nestedModel? index = some m ↔ ∃ f, g.additional[index]? = some f ∧ f.record = some m :=
  Option.bind_eq_some_iff

/-- A column of a sub-record is of its model. -/
theorem decoded_nested {column : String × Value} {index : Nat} {field : String}
    (h : g.route column.1 = .nested index field) :
    ∃ m, g.nestedModel? index = some m ∧ g.decoded column = g.fieldValue m (field, column.2) := by
  obtain ⟨f, m, hf, hrecord, -⟩ := g.nested?_eq_some (g.route_eq_nested.mp h)
  have hmodel : g.nestedModel? index = some m := g.nestedModel?_eq_some.mpr ⟨f, hf, hrecord⟩
  refine ⟨m, hmodel, ?_⟩
  rw [decoded, h]
  simp only [hmodel, Option.map_some, Option.getD_some]

theorem nestedColumn_eq_some {index : Nat} {column c : String × Value} :
    g.nestedColumn index column = some c ↔ g.route column.1 = .nested index c.1 ∧ c.2 = column.2 := by
  rw [nestedColumn]
  cases g.route column.1 with
  | nested i field =>
    rw [Option.ite_none_right_eq_some, Route.nested.injEq, and_assoc, Option.some.injEq, Prod.ext_iff]
    exact and_congr_right fun _ => and_congr_right fun _ => eq_comm
  | computed f => simp
  | declared name type => simp
  | plain name => simp

theorem exists_nestedColumn {row : Row} {index : Nat} (h : g.nestedColumns row index ≠ []) :
    ∃ column ∈ row, ∃ c, g.nestedColumn index column = some c := by
  obtain ⟨c, hc⟩ := List.exists_mem_of_ne_nil _ h
  obtain ⟨column, hcolumn, hnested⟩ := List.mem_filterMap.mp hc
  exact ⟨column, hcolumn, c, hnested⟩

/-- Sub-records that have columns have different labels. -/
theorem label_ne {row : Row} {i j : Nat} (hij : i < j) {e f : ExtraField} (he : g.additional[i]? = some e)
    (hrecord : e.record.isSome = true) (hf : g.additional[j]? = some f) (hcolumns : g.nestedColumns row j ≠ []) :
    e.label ≠ f.label := by
  obtain ⟨column, -, c, hnested⟩ := g.exists_nestedColumn hcolumns
  obtain ⟨f', m, hf', -, hbefore⟩ := g.nested?_eq_some (g.route_eq_nested.mp (g.nestedColumn_eq_some.mp hnested).1)
  rw [hf, Option.some.injEq] at hf'
  exact hf' ▸ hbefore i hij e he hrecord

/-! ## The place of an entry -/

/-- An entry of the record itself is of one place only. -/
theorem place_eq_of_ownName? {column name : String} (h : (g.place column).ownName? = some name) :
    g.place column = g.placeNamed name := by
  rw [place, route] at h ⊢
  cases hnested : g.nested? column with
  | some found =>
    rw [hnested] at h
    cases h
  | none =>
    rw [hnested] at h
    cases hcomputed : g.computed? column with
    | some f =>
      rw [hcomputed] at h
      cases h
      rw [placeNamed, if_pos (g.isSome_computed?_label hcomputed)]
    | none =>
      rw [hcomputed] at h
      cases hfield : g.model.findField? column g.caseSensitive with
      | some field =>
        rw [hfield] at h
        cases h
        -- the declared name is the same as the column, so it is not computed either
        have hnone : g.computed? field.1 = none := by
          rw [g.computed?_congr (g.sameName_of_findField? hfield), hcomputed]
        rw [placeNamed, hnone, if_pos (g.isSome_findField?_declared hfield)]
        rfl
      | none =>
        rw [hfield] at h
        cases h
        rw [placeNamed, hcomputed, hfield]
        rfl

theorem exists_route_of_ownName? {column : String} (h : (g.place column).ownName? = none) :
    ∃ index field, g.route column = .nested index field := by
  rw [place] at h
  cases hroute : g.route column with
  | nested index field => exact ⟨index, field, rfl⟩
  | computed f => rw [hroute] at h; cases h
  | declared name type => rw [hroute] at h; cases h
  | plain name => rw [hroute] at h; cases h

theorem ownName?_of_nestedColumn {index : Nat} {column c : String × Value}
    (h : g.nestedColumn index column = some c) : (g.place column.1).ownName? = none := by
  rw [place, (g.nestedColumn_eq_some.mp h).1]
  rfl

theorem ownEntry_of_ownName? {column : String × Value} {name : String}
    (h : (g.place column.1).ownName? = some name) : g.ownEntry column = some (name, g.decoded column) := by
  rw [ownEntry, h]
  rfl

/-- Where a name is of one place only, columns of different places have different names. -/
theorem nodup_filterMap_place {name? : Place → Option String}
    (hplace : ∀ a b name, name? (g.place a) = some name → name? (g.place b) = some name → g.place a = g.place b)
    {row : Row} (hplaces : (row.map fun column => g.place column.1).Nodup) :
    (row.filterMap fun column => name? (g.place column.1)).Nodup := by
  rw [List.Nodup, List.pairwise_map] at hplaces
  rw [List.Nodup, List.pairwise_filterMap]
  refine hplaces.imp fun {a b} hne name ha name' hb hsame => hne ?_
  subst hsame
  exact hplace a.1 b.1 name ha hb

/-- Columns of different places make entries of different names in the record itself. -/
theorem nodup_ownEntries {row : Row} (hplaces : (row.map fun column => g.place column.1).Nodup) :
    ((row.filterMap g.ownEntry).map Prod.fst).Nodup := by
  have hname : ∀ column, (g.ownEntry column).map Prod.fst = (g.place column.1).ownName? := fun column => by
    rw [ownEntry, Option.map_map]
    exact Option.map_id'
  rw [List.map_filterMap]
  simp only [hname]
  exact g.nodup_filterMap_place
    (fun a b name ha hb => (g.place_eq_of_ownName? ha).trans (g.place_eq_of_ownName? hb).symm) hplaces

/-- The place of a column of a sub-record is that of the entry that it makes. -/
theorem nestedColumn_place {index : Nat} {m : Model} (hmodel : g.nestedModel? index = some m)
    (column : String × Value) :
    (g.nestedColumn index column).map (fun c => (g.nestedEntry m c).1) = (g.place column.1).nestedName? index := by
  rw [nestedColumn, place]
  cases g.route column.1 with
  | nested i field =>
    by_cases hindex : i = index
    · subst hindex
      simp [Place.nestedName?, nestedEntry, hmodel]
    · simp [Place.nestedName?, hindex]
  | computed f => rfl
  | declared name type => rfl
  | plain name => rfl

/-- Columns of different places make entries of different names in a sub-record. -/
theorem nodup_nestedEntries {index : Nat} {m : Model} (hmodel : g.nestedModel? index = some m) {row : Row}
    (hplaces : (row.map fun column => g.place column.1).Nodup) :
    (((g.nestedColumns row index).map (g.nestedEntry m)).map Prod.fst).Nodup := by
  rw [List.map_map, nestedColumns_eq, List.map_filterMap]
  simp only [Function.comp_def, g.nestedColumn_place hmodel]
  refine g.nodup_filterMap_place (fun a b name ha hb => ?_) hplaces
  rw [Place.eq_of_nestedName? ha, Place.eq_of_nestedName? hb]

end

end Gatherer

end RecordQuery
