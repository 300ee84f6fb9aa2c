import RecordQuery.Proofs.Store.Stored
set_option autoImplicit false

/-!
# Row: sub-records come back

What is attached to a row under a label is spread over columns `label.field`, and gathering cuts their names at the
first dot to put it together again.  Where no label and no column of the row itself has a dot, every column is given
back to the sub-record that it was made of (`nestedColumns_spread`), and columns of the row itself stay by themselves
(`foldlM_putColumn_own`).  So a gathered row is the record of its own columns with one value for each label
(`gather_spread`): a record of all fields of the model, or null (`IsSubRecord`).
-/

namespace RecordQuery

/-! ## Sub-records -/

/-- The value that an attached record shows of a field: null where there is none. -/
def attachedValue (attached : Option Record) (name : String) : Value :=
  (attached.bind fun r => Entries.find? r name).getD .null

/-- The value that a record of a model has for what is attached under a label. -/
inductive IsSubRecord (m : Model) : Option Record → Value → Prop where
  /-- nothing is attached -/
  | detached : IsSubRecord m none .null
  /-- all fields of the attached record are null or absent -/
  | blank {record : Record} (hblank : ∀ f ∈ m.fields, attachedValue (some record) f.1 = .null) :
      IsSubRecord m (some record) .null
  /-- every field of the model, and no other, has its value in the attached record, null where it is absent -/
  | present {record sub : Record} (hsome : ∃ f ∈ m.fields, attachedValue (some record) f.1 ≠ .null)
      (hsorted : Entries.Sorted sub)
      (hfields : ∀ name, Entries.find? sub name =
        if name ∈ m.fields.map Prod.fst then some (attachedValue (some record) name) else none) :
      IsSubRecord m (some record) (.object sub)

/-- Every field of the model that an attached record has is decoded. -/
def IsDecodedBy (m : Model) (record : Record) : Prop :=
  ∀ f ∈ m.fields, ∀ v, Entries.find? record f.1 = some v → f.2.decode v = .ok v

/-- The fields of a model with their values in an attached record. -/
def fieldColumns (m : Model) (attached : Option Record) : Row := m.fields.map fun f => (f.1, attachedValue attached f.1)

/-- The value that these columns are gathered into. -/
def gatheredValue (m : Model) (attached : Option Record) : Value :=
  if (fieldColumns m attached).all fun column => column.2.isNull then .null
  else .object (Entries.ofPairs (fieldColumns m attached))

section

variable {m : Model} {attached : Option Record}

theorem map_fst_fieldColumns (m : Model) (attached : Option Record) :
    (fieldColumns m attached).map Prod.fst = m.fields.map Prod.fst := by
  rw [fieldColumns, List.map_map]
  rfl

theorem fieldColumns_all_isNull :
    ((fieldColumns m attached).all fun column => column.2.isNull) = true ↔
      ∀ f ∈ m.fields, attachedValue attached f.1 = .null := by
  rw [fieldColumns, List.all_map, List.all_eq_true]
  exact forall₂_congr fun f _ => Value.isNull_iff _

theorem find?_ofPairs_fieldColumns (hnames : (m.fields.map Prod.fst).Nodup) (name : String) :
    Entries.find? (Entries.ofPairs (fieldColumns m attached)) name =
      if name ∈ m.fields.map Prod.fst then some (attachedValue attached name) else none := by
  split
  · rename_i hname
    obtain ⟨f, hf, rfl⟩ := List.mem_map.mp hname
    rw [← map_fst_fieldColumns m attached] at hnames
    exact Entries.find?_ofPairs_of_nodup hnames (List.mem_map_of_mem hf)
  · rename_i hname
    rwa [Entries.find?_ofPairs_eq_none, map_fst_fieldColumns]

theorem isSubRecord_gatheredValue (hnames : (m.fields.map Prod.fst).Nodup) :
    IsSubRecord m attached (gatheredValue m attached) := by
  unfold gatheredValue
  split
  · rename_i hnull
    cases attached with
    | none => exact .detached
    | some record => exact .blank (fieldColumns_all_isNull.mp hnull)
  · rename_i hnull
    rw [fieldColumns_all_isNull] at hnull
    cases attached with
    | none => exact absurd (fun _ _ => rfl) hnull
    | some record =>
      have hsome : ∃ f ∈ m.fields, attachedValue (some record) f.1 ≠ .null := by
        simpa only [not_forall, exists_prop] using hnull
      exact .present hsome (Entries.sorted_insertAll List.Pairwise.nil _) (find?_ofPairs_fieldColumns hnames)

theorem decode_attachedValue (hdecoded : ∀ record ∈ attached, IsDecodedBy m record) {f : String × DataType}
    (hf : f ∈ m.fields) : f.2.decode (attachedValue attached f.1) = .ok (attachedValue attached f.1) := by
  cases attached with
  | none => exact DataType.decode_null f.2
  | some record =>
    rw [attachedValue, Option.bind_some]
    cases hv : Entries.find? record f.1 with
    | none => exact DataType.decode_null f.2
    | some v => exact hdecoded record rfl f hf v hv

end

/-! ## Columns -/

/-- The additional field for the records of a model under a label. -/
def recordField (s : String × Model) : ExtraField := ⟨s.1, none, none, some s.2⟩

/-- Labels with the models of their records, such that their columns can be told apart. -/
structure AreSubRecords (subs : List (String × Model)) : Prop where
  nodup : (subs.map Prod.fst).Nodup
  undotted : ∀ s ∈ subs, '.' ∉ s.1.toList
  fields : ∀ s ∈ subs, s.2.fields ≠ []
  names : ∀ s ∈ subs, (s.2.fields.map Prod.fst).Nodup

/-- A column of a row itself: it is no column of a sub-record and no label, and it is decoded for its field. -/
structure IsOwnColumn (m : Model) (labels : List String) (column : String × Value) : Prop where
  undotted : '.' ∉ column.1.toList
  unlabelled : column.1 ∉ labels
  decoded : ∀ type, m.fieldType? column.1 = some type → type.decode column.2 = .ok column.2

/-- A record of columns of a row itself. -/
structure IsOwnRecord (m : Model) (labels : List String) (record : Record) : Prop where
  sorted : Entries.Sorted record
  own : ∀ column ∈ record, IsOwnColumn m labels column

/-- The columns of a blank record are its own where the names of the fields are. -/
theorem isOwnRecord_blankRecord {m : Model} {labels : List String}
    (h : ∀ f ∈ m.fields, '.' ∉ f.1.toList ∧ f.1 ∉ labels) : IsOwnRecord m labels m.blankRecord := by
  refine ⟨(Store.isStored_blankRecord m).sorted, fun column hcolumn => ?_⟩
  obtain ⟨f, hf, rfl⟩ := List.mem_map.mp ((Entries.mem_insertAll hcolumn).resolve_right List.not_mem_nil)
  obtain ⟨hundotted, hunlabelled⟩ := h f hf
  exact ⟨hundotted, hunlabelled, fun type _ => DataType.decode_null type⟩

/-- The columns of what is attached under a label. -/
def spreadColumns (attached : String → Option Record) (s : String × Model) : Row :=
  (fieldColumns s.2 (attached s.1)).map fun column => (s.1 ++ "." ++ column.1, column.2)

theorem flatMap_of_only {α β : Type} {f : α → List β} {items before after : List α} {x : α}
    (hitems : items = before ++ x :: after) (h : ∀ y ∈ before ++ after, f y = []) : items.flatMap f = f x := by
  obtain ⟨hbefore, hafter⟩ := List.forall_mem_append.mp h
  rw [hitems, List.flatMap_append, List.flatMap_cons, List.flatMap_eq_nil_iff.mpr hbefore,
    List.flatMap_eq_nil_iff.mpr hafter, List.nil_append, List.append_nil]

/-- Steps that insert columns, one after the other, insert them all. -/
theorem foldlM_of_insert {step : Record → String × Value → Outcome Record} {columns : Row}
    (h : ∀ column ∈ columns, ∀ r, step r column = .ok (Entries.insert r column.1 column.2)) (r : Record) :
    columns.foldlM step r = .ok (Entries.insertAll r columns) := by
  induction columns generalizing r with
  | nil => rfl
  | cons column rest ih =>
    obtain ⟨hcolumn, hrest⟩ := List.forall_mem_cons.mp h
    rw [List.foldlM_cons, hcolumn]
    exact ih hrest _

namespace Gatherer

/-- The gatherer of records of a model with sub-records. -/
def ofRecords (m : Model) (subs : List (String × Model)) : Gatherer := ⟨m, subs.map recordField, true⟩

/-- The column of a sub-record that a column is. -/
def nestedColumn (g : Gatherer) (index : Nat) (column : String × Value) : Option (String × Value) :=
  match g.route column.1 with
  | .nested i field => if i = index then some (field, column.2) else none
  | _ => none

section

variable {m : Model} {subs : List (String × Model)} {s : String × Model} {base row : Row}
  {attached : String → Option Record}

theorem nestedColumns_eq (g : Gatherer) (row : Row) (index : Nat) :
    g.nestedColumns row index = row.filterMap (g.nestedColumn index) := rfl

/-! ### Where columns go -/

theorem nested?_of_undotted (g : Gatherer) {name : String} (h : '.' ∉ name.toList) : g.nested? name = none := by
  rw [nested?, Text.cutFirst_of_not_mem h, Option.bind_none]

theorem computed?_ofRecords (name : String) : (ofRecords m subs).computed? name = none := by
  refine List.find?_eq_none.mpr fun f hf => ?_
  obtain ⟨s, -, rfl⟩ := List.mem_map.mp hf
  exact Bool.false_ne_true

/-- A column without a dot goes to the row itself. -/
theorem route_of_undotted {name : String} (h : '.' ∉ name.toList) :
    (ofRecords m subs).route name = match m.findField? name true with
      | some (declared, type) => .declared declared type
      | none => .plain name := by
  rw [route, nested?_of_undotted _ h, computed?_ofRecords]
  rfl

theorem findIdx?_recordField (hs : s ∈ subs) :
    ((subs.map recordField).findIdx? fun f => f.record.isSome && (ofRecords m subs).sameName f.label s.1) =
      some ((subs.map Prod.fst).idxOf s.1) := by
  have hfound : (subs.map Prod.fst).findIdx? (· == s.1) = some ((subs.map Prod.fst).idxOf s.1) :=
    List.findIdx?_eq_some_of_exists ⟨s.1, List.mem_map_of_mem hs, beq_self_eq_true s.1⟩
  rw [List.findIdx?_map] at hfound ⊢
  exact hfound

/-- A column `label.field` goes to the sub-record of the label. -/
theorem route_spread (hs : s ∈ subs) (hundotted : '.' ∉ s.1.toList) (name : String) :
    (ofRecords m subs).route (s.1 ++ "." ++ name) = .nested ((subs.map Prod.fst).idxOf s.1) name := by
  have hcut : Text.cutFirst '.' (s.1 ++ "." ++ name).toList = some (s.1.toList, name.toList) := by
    have htext : (s.1 ++ "." ++ name).toList = s.1.toList ++ '.' :: name.toList := by
      rw [String.toList_append, String.toList_append, List.append_assoc]
      rfl
    rw [htext, Text.cutFirst_append hundotted]
  have hnested : (ofRecords m subs).nested? (s.1 ++ "." ++ name) = some ((subs.map Prod.fst).idxOf s.1, name) := by
    rw [nested?, hcut, Option.bind_some]
    show ((subs.map recordField).findIdx? _).map _ = _
    simp only [String.ofList_toList, findIdx?_recordField hs, Option.map_some]
  rw [route, hnested]

/-! ### The row itself -/

theorem putColumn_own {column : String × Value} (h : IsOwnColumn m (subs.map Prod.fst) column) (r : Record) :
    (ofRecords m subs).putColumn r column = .ok (Entries.insert r column.1 column.2) := by
  rw [putColumn, route_of_undotted h.undotted]
  cases hfield : m.findField? column.1 true with
  | none => rfl
  | some field =>
    obtain ⟨declared, type⟩ := field
    obtain ⟨rfl, htype⟩ := Model.findField?_eq_some hfield
    simp only [h.decoded type htype]
    rfl

theorem foldlM_putColumn_own (h : ∀ column ∈ base, IsOwnColumn m (subs.map Prod.fst) column) (r : Record) :
    base.foldlM (ofRecords m subs).putColumn r = .ok (Entries.insertAll r base) :=
  foldlM_of_insert (fun column hcolumn => putColumn_own (h column hcolumn)) r

/-- Columns of sub-records are left for later. -/
theorem foldlM_putColumn_spread (h : AreSubRecords subs)
    (hrow : ∀ column ∈ row, ∃ s ∈ subs, column ∈ spreadColumns attached s) (r : Record) :
    row.foldlM (ofRecords m subs).putColumn r = .ok r := by
  induction row with
  | nil => rfl
  | cons column rest ih =>
    obtain ⟨⟨s, hs, hcolumn⟩, hrest⟩ := List.forall_mem_cons.mp hrow
    obtain ⟨c, -, rfl⟩ := List.mem_map.mp hcolumn
    rw [List.foldlM_cons, putColumn, route_spread hs (h.undotted s hs)]
    exact ih hrest

/-! ### The columns of a sub-record -/

theorem nestedColumns_own (h : ∀ column ∈ base, IsOwnColumn m (subs.map Prod.fst) column) (index : Nat) :
    (ofRecords m subs).nestedColumns base index = [] := by
  rw [nestedColumns_eq]
  refine List.filterMap_eq_nil_iff.mpr fun column hcolumn => ?_
  rw [nestedColumn, route_of_undotted (h column hcolumn).undotted]
  cases m.findField? column.1 true <;> rfl

/-- The columns of a label are those of its own sub-record, and of no other. -/
theorem nestedColumns_spreadColumns (hs : s ∈ subs) (hundotted : '.' ∉ s.1.toList) (index : Nat) :
    (ofRecords m subs).nestedColumns (spreadColumns attached s) index =
      if (subs.map Prod.fst).idxOf s.1 = index then fieldColumns s.2 (attached s.1) else [] := by
  have hstep : ∀ column : String × Value, (ofRecords m subs).nestedColumn index (s.1 ++ "." ++ column.1, column.2) =
      if (subs.map Prod.fst).idxOf s.1 = index then some column else none := by
    intro column
    rw [nestedColumn, route_spread hs hundotted]
  rw [nestedColumns_eq, spreadColumns, List.filterMap_map]
  simp only [Function.comp_def, hstep]
  split
  · exact List.filterMap_some
  · exact List.filterMap_none _

/-- Labels have the places of their sub-records. -/
theorem idxOf_label (hnodup : (subs.map Prod.fst).Nodup) {before after : List (String × Model)}
    (hsubs : subs = before ++ s :: after) :
    (subs.map Prod.fst).idxOf s.1 = before.length ∧
      ∀ t ∈ before ++ after, (subs.map Prod.fst).idxOf t.1 ≠ before.length := by
  subst hsubs
  rw [List.map_append, List.map_cons] at hnodup ⊢
  obtain ⟨hnew, -⟩ := List.nodup_cons.mp (List.nodup_middle.mp hnodup)
  have hindex : (before.map Prod.fst ++ s.1 :: after.map Prod.fst).idxOf s.1 = before.length := by
    rw [List.idxOf_append_of_notMem fun h => hnew (List.mem_append_left _ h), List.idxOf_cons_self, List.length_map,
      Nat.add_zero]
  refine ⟨hindex, fun t ht hsame => ?_⟩
  rw [← List.map_append] at hnew
  have hmem : s.1 ∈ before.map Prod.fst ++ s.1 :: after.map Prod.fst :=
    List.mem_append_right _ List.mem_cons_self
  rw [← hindex] at hsame
  have hlabel : s.1 = t.1 := (List.idxOf_inj hmem).mp hsame.symm
  exact hnew (hlabel ▸ List.mem_map_of_mem ht)

/-- Of all columns a sub-record gets those that were made of it. -/
theorem nestedColumns_spread (h : AreSubRecords subs)
    (hbase : ∀ column ∈ base, IsOwnColumn m (subs.map Prod.fst) column) {before after : List (String × Model)}
    (hsubs : subs = before ++ s :: after) :
    (ofRecords m subs).nestedColumns (base ++ subs.flatMap (spreadColumns attached)) before.length =
      fieldColumns s.2 (attached s.1) := by
  obtain ⟨hindex, hothers⟩ := idxOf_label h.nodup hsubs
  have hcolumns : ∀ t ∈ subs, (ofRecords m subs).nestedColumns (spreadColumns attached t) before.length =
      if (subs.map Prod.fst).idxOf t.1 = before.length then fieldColumns t.2 (attached t.1) else [] :=
    fun t ht => nestedColumns_spreadColumns ht (h.undotted t ht) before.length
  have hnone : ∀ t ∈ before ++ after,
      (ofRecords m subs).nestedColumns (spreadColumns attached t) before.length = [] := by
    intro t ht
    have hmem : t ∈ subs := by
      rw [hsubs]
      exact (List.perm_middle.mem_iff).mpr (List.mem_cons_of_mem s ht)
    rw [hcolumns t hmem, if_neg (hothers t ht)]
  have hself := hcolumns s (by rw [hsubs]; exact List.mem_append_right _ List.mem_cons_self)
  rw [if_pos hindex] at hself
  rw [nestedColumns_eq, List.filterMap_append, ← nestedColumns_eq, nestedColumns_own hbase, List.nil_append,
    List.filterMap_flatMap, ← hself]
  exact flatMap_of_only hsubs hnone

/-! ### The value of a sub-record -/

theorem putNested_field (hnames : (s.2.fields.map Prod.fst).Nodup) {f : String × DataType} (hf : f ∈ s.2.fields)
    {v : Value} (hv : f.2.decode v = .ok v) (r : Record) :
    (ofRecords m subs).putNested s.2 r (f.1, v) = .ok (Entries.insert r f.1 v) := by
  have hfield : s.2.findField? f.1 (ofRecords m subs).caseSensitive = some f :=
    Entries.find?_name_of_nodup hnames hf
  rw [putNested, hfield]
  simp only [hv]
  rfl

theorem subRecord_fieldColumns (hnames : (s.2.fields.map Prod.fst).Nodup)
    (hdecoded : ∀ record ∈ attached s.1, IsDecodedBy s.2 record) :
    (ofRecords m subs).subRecord s.2 (fieldColumns s.2 (attached s.1)) = .ok (gatheredValue s.2 (attached s.1)) := by
  have hput : ∀ column ∈ fieldColumns s.2 (attached s.1), ∀ r,
      (ofRecords m subs).putNested s.2 r column = .ok (Entries.insert r column.1 column.2) := by
    intro column hcolumn r
    obtain ⟨f, hf, rfl⟩ := List.mem_map.mp hcolumn
    exact putNested_field hnames hf (decode_attachedValue hdecoded hf) r
  rw [subRecord, gatheredValue]
  split
  · rfl
  · rw [foldlM_of_insert hput]
    rfl

/-- The values of the sub-records, under their labels. -/
def gatheredValues (attached : String → Option Record) (subs : List (String × Model)) : Row :=
  subs.map fun s => (s.1, gatheredValue s.2 (attached s.1))

/-- The sub-records are put in one after the other; those before are done. -/
theorem putSubRecords_spread (h : AreSubRecords subs)
    (hbase : ∀ column ∈ base, IsOwnColumn m (subs.map Prod.fst) column)
    (hdecoded : ∀ s ∈ subs, ∀ record ∈ attached s.1, IsDecodedBy s.2 record) {before rest : List (String × Model)}
    (hsubs : subs = before ++ rest) (r : Record) :
    (ofRecords m subs).putSubRecords (base ++ subs.flatMap (spreadColumns attached)) before.length
      (rest.map recordField) r = .ok (Entries.insertAll r (gatheredValues attached rest)) := by
  induction rest generalizing before r with
  | nil => rfl
  | cons s rest ih =>
    have hs : s ∈ subs := by
      rw [hsubs]
      exact List.mem_append_right _ List.mem_cons_self
    have hcolumns : (ofRecords m subs).nestedColumns (base ++ subs.flatMap (spreadColumns attached)) before.length =
        fieldColumns s.2 (attached s.1) := nestedColumns_spread h hbase hsubs
    obtain ⟨c, columns, hcons⟩ : ∃ c columns, fieldColumns s.2 (attached s.1) = c :: columns :=
      List.exists_cons_of_ne_nil (List.map_eq_nil_iff.not.mpr (h.fields s hs))
    have hvalue : (ofRecords m subs).subRecord s.2 (fieldColumns s.2 (attached s.1)) = _ :=
      subRecord_fieldColumns (h.names s hs) (hdecoded s hs)
    have hdone : subs = (before ++ [s]) ++ rest := by
      rw [hsubs, List.append_assoc]
      rfl
    have hrest := ih hdone (Entries.insert r s.1 (gatheredValue s.2 (attached s.1)))
    rw [List.length_append] at hrest
    rw [hcons] at hcolumns hvalue
    rw [List.map_cons, putSubRecords, hcolumns]
    simp only [recordField, hvalue, Outcome.ok_bind]
    exact hrest

/-- A row with the columns of its sub-records is gathered into the record of its own columns and one value for each
label. -/
theorem gather_spread (h : AreSubRecords subs) (hbase : IsOwnRecord m (subs.map Prod.fst) base)
    (hdecoded : ∀ s ∈ subs, ∀ record ∈ attached s.1, IsDecodedBy s.2 record) :
    (ofRecords m subs).gather (base ++ subs.flatMap (spreadColumns attached)) =
      .ok (Entries.insertAll base (gatheredValues attached subs)) := by
  have hspread : ∀ column ∈ subs.flatMap (spreadColumns attached), ∃ s ∈ subs, column ∈ spreadColumns attached s :=
    fun column hcolumn => List.mem_flatMap.mp hcolumn
  have hown : Entries.insertAll [] base = base := hbase.sorted.ofPairs_eq
  rw [gather, List.foldlM_append, foldlM_putColumn_own hbase.own, hown, Outcome.ok_bind,
    foldlM_putColumn_spread h hspread, Outcome.ok_bind]
  exact putSubRecords_spread h hbase.own hdecoded (List.nil_append subs).symm base

end

end Gatherer

/-! ## The gathered record -/

/-- The record that a row is gathered into: its own columns, and one entry for each label with what is attached under
it, but nothing else. -/
structure IsRecordOf (subs : List (String × Model)) (base : Record) (attached : String → Option Record)
    (record : Record) : Prop where
  sorted : Entries.Sorted record
  own : ∀ column ∈ base, Entries.find? record column.1 = some column.2
  rest : ∀ column ∈ record, column ∈ base ∨ column.1 ∈ subs.map Prod.fst
  nested : ∀ s ∈ subs, ∃ v, Entries.find? record s.1 = some v ∧ IsSubRecord s.2 (attached s.1) v

section

variable {m : Model} {subs : List (String × Model)} {base : Record} {attached : String → Option Record}

theorem map_fst_gatheredValues (attached : String → Option Record) (subs : List (String × Model)) :
    (Gatherer.gatheredValues attached subs).map Prod.fst = subs.map Prod.fst := by
  rw [Gatherer.gatheredValues, List.map_map]
  rfl

theorem isRecordOf_gatheredValues (h : AreSubRecords subs) (hbase : IsOwnRecord m (subs.map Prod.fst) base) :
    IsRecordOf subs base attached (Entries.insertAll base (Gatherer.gatheredValues attached subs)) := by
  refine ⟨Entries.sorted_insertAll hbase.sorted _, ?_, ?_, ?_⟩
  · intro column hcolumn
    have hname := (hbase.own column hcolumn).unlabelled
    rw [← map_fst_gatheredValues attached subs] at hname
    rw [Entries.find?_insertAll, Entries.find?_ofPairs_eq_none.mpr hname, Option.none_or,
      hbase.sorted.find?_of_mem hcolumn]
  · intro column hcolumn
    refine (Entries.mem_insertAll hcolumn).symm.imp_right fun hvalue => ?_
    rw [← map_fst_gatheredValues attached subs]
    exact List.mem_map_of_mem hvalue
  · intro s hs
    have hnodup := h.nodup
    rw [← map_fst_gatheredValues attached subs] at hnodup
    have hfind := Entries.find?_ofPairs_of_nodup hnodup
      (List.mem_map_of_mem (f := fun s : String × Model => (s.1, gatheredValue s.2 (attached s.1))) hs)
    refine ⟨gatheredValue s.2 (attached s.1), ?_, isSubRecord_gatheredValue (h.names s hs)⟩
    rw [Entries.find?_insertAll, hfind, Option.some_or]

end

end RecordQuery
