import RecordQuery.Proofs.Row.Places
set_option autoImplicit false

/-!
# Row: what a row is gathered into

Gathering puts entries into a record one after the other, those of the columns of the row itself and then one for each
sub-record that has columns; each of them is decoded first (`gather_eq`).  So a row is gathered when all its columns are
decoded (`exists_gather_iff`).  If they have different places, then the record has every column at its place and nothing
else (`isMadeOf_of_gather`).
-/

namespace RecordQuery

/-- The value that a value has under a name: null where it is no record or has no such field. -/
def Value.memberValue : Value → String → Value
  | .object record, name => (Entries.find? record name).getD .null
  | _, _ => .null

/-! ## Entries to be decoded -/

namespace Pending

/-- The entry, if its value is decoded. -/
def settle (p : Pending) : Outcome (String × Value) := do return (p.1, ← p.2)

/-- Put the entry into a record, if its value is decoded. -/
def enter (r : Record) (p : Pending) : Outcome Record := do return Entries.insert r p.1 (← p.2)

theorem settle_eq_ok {p : Pending} {entry : String × Value} :
    p.settle = .ok entry ↔ entry.1 = p.1 ∧ p.2 = .ok entry.2 := by
  rw [settle, Outcome.bind_eq_ok]
  constructor
  · rintro ⟨v, hv, h⟩
    cases h
    exact ⟨rfl, hv⟩
  · rintro ⟨hname, hv⟩
    exact ⟨entry.2, hv, by rw [← hname]; rfl⟩

/-- Entries put in one after the other are decoded and inserted all. -/
theorem foldlM_enter (pending : List Pending) (r : Record) :
    pending.foldlM enter r = do return Entries.insertAll r (← pending.mapM settle) := by
  induction pending generalizing r with
  | nil => rfl
  | cons p rest ih =>
    obtain ⟨name, value⟩ := p
    rw [List.foldlM_cons, List.mapM_cons]
    cases value with
    | error fault => rfl
    | ok v =>
      show rest.foldlM enter (Entries.insert r name v) = _
      rw [ih]
      cases rest.mapM settle <;> rfl

/-- The entries that items make are put in item by item. -/
theorem foldlM_elim_enter {α : Type} (entry : α → Option Pending) (items : List α) (r : Record) :
    items.foldlM (fun r a => (entry a).elim (.ok r) (enter r)) r = (items.filterMap entry).foldlM enter r := by
  induction items generalizing r with
  | nil => rfl
  | cons a rest ih =>
    rw [List.foldlM_cons]
    cases hentry : entry a with
    | none =>
      rw [List.filterMap_cons_none hentry, ← ih]
      rfl
    | some p =>
      rw [List.filterMap_cons_some hentry, List.foldlM_cons]
      exact congrArg _ (funext ih)

variable {pending : List Pending} {r record : Record}

theorem foldlM_enter_eq_ok :
    pending.foldlM enter r = .ok record ↔
      ∃ entries, pending.mapM settle = .ok entries ∧ record = Entries.insertAll r entries := by
  rw [foldlM_enter, Outcome.bind_eq_ok]
  exact exists_congr fun entries => and_congr_right fun _ => ⟨fun h => (Except.ok.inj h).symm, fun h => h ▸ rfl⟩

theorem names_of_mapM_settle {entries : Record} (h : pending.mapM settle = .ok entries) :
    entries.map Prod.fst = pending.map Prod.fst :=
  Outcome.map_of_mapM (fun _ _ hentry => (settle_eq_ok.mp hentry).1) h

/-- Entries can be put in when all of them are decoded. -/
theorem exists_foldlM_enter_iff :
    (∃ record, pending.foldlM enter r = .ok record) ↔ ∀ p ∈ pending, ∃ v, p.2 = .ok v := by
  simp only [foldlM_enter_eq_ok]
  constructor
  · rintro ⟨record, entries, hentries, -⟩ p hp
    obtain ⟨entry, hentry⟩ := Outcome.ok_of_mapM hentries hp
    exact ⟨entry.2, (settle_eq_ok.mp hentry).2⟩
  · intro h
    obtain ⟨entries, hentries⟩ := Outcome.exists_mapM fun p hp =>
      (h p hp).imp' (Prod.mk p.1) fun v hv => settle_eq_ok.mpr ⟨rfl, hv⟩
    exact ⟨_, entries, hentries, rfl⟩

/-- Entries of different names are all found in the end. -/
theorem find?_of_foldlM_enter (hnames : (pending.map Prod.fst).Nodup) (h : pending.foldlM enter [] = .ok record)
    {p : Pending} (hp : p ∈ pending) : ∃ v, p.2 = .ok v ∧ Entries.find? record p.1 = some v := by
  obtain ⟨entries, hentries, rfl⟩ := foldlM_enter_eq_ok.mp h
  obtain ⟨entry, hmem, hentry⟩ := Outcome.mem_of_mapM hentries hp
  obtain ⟨hname, hvalue⟩ := settle_eq_ok.mp hentry
  rw [← names_of_mapM_settle hentries] at hnames
  exact ⟨entry.2, hvalue, hname ▸ Entries.find?_ofPairs_of_nodup hnames hmem⟩

/-- Nothing else is found. -/
theorem exists_of_foldlM_enter (h : pending.foldlM enter [] = .ok record) {entry : String × Value}
    (hentry : entry ∈ record) : ∃ p ∈ pending, p.1 = entry.1 := by
  obtain ⟨entries, hentries, rfl⟩ := foldlM_enter_eq_ok.mp h
  have hmem : entry ∈ entries := (Entries.mem_insertAll hentry).resolve_right List.not_mem_nil
  obtain ⟨p, hp, hsettled⟩ := Outcome.exists_of_mapM hentries hmem
  exact ⟨p, hp, (settle_eq_ok.mp hsettled).1.symm⟩

theorem sorted_of_foldlM_enter (h : pending.foldlM enter [] = .ok record) : Entries.Sorted record := by
  obtain ⟨entries, -, rfl⟩ := foldlM_enter_eq_ok.mp h
  exact Entries.sorted_insertAll .nil entries

end Pending

/-! ## The entries of a row -/

namespace Gatherer

/-- The entry that an additional field and its index make: the sub-record, if the row has columns of it. -/
def subEntry (g : Gatherer) (row : Row) (p : ExtraField × Nat) : Option Pending :=
  match p.1.record, g.nestedColumns row p.2 with
  | some m, c :: columns => some (p.1.label, g.subRecord m (c :: columns))
  | _, _ => none

/-- The entries of a row, those of its own columns first. -/
def entries (g : Gatherer) (row : Row) : List Pending :=
  row.filterMap g.ownEntry ++ g.additional.zipIdx.filterMap (g.subEntry row)

section

variable (g : Gatherer) {row : Row}

theorem putColumn_eq (r : Record) (column : String × Value) :
    g.putColumn r column = (g.ownEntry column).elim (.ok r) (Pending.enter r) := by
  rw [putColumn, ownEntry, place, decoded]
  cases g.route column.1 <;> rfl

theorem foldlM_putColumn (row : Row) (r : Record) :
    row.foldlM g.putColumn r = (row.filterMap g.ownEntry).foldlM Pending.enter r := by
  rw [← Pending.foldlM_elim_enter]
  exact congrArg (fun step => row.foldlM step r) (funext₂ g.putColumn_eq)

theorem putSubRecords_eq (row : Row) (index : Nat) (rest : List ExtraField) (r : Record) :
    g.putSubRecords row index rest r = ((rest.zipIdx index).filterMap (g.subEntry row)).foldlM Pending.enter r := by
  induction rest generalizing index r with
  | nil => rfl
  | cons f rest ih =>
    rw [putSubRecords, List.zipIdx_cons, List.filterMap_cons, subEntry]
    cases f.record with
    | none => exact ih (index + 1) r
    | some m =>
      cases g.nestedColumns row index with
      | nil => exact ih (index + 1) r
      | cons c columns =>
        simp only [List.foldlM_cons, ih, Pending.enter]
        cases g.subRecord m (c :: columns) <;> rfl

/-- A row is gathered by putting in its entries. -/
theorem gather_eq (row : Row) : g.gather row = (g.entries row).foldlM Pending.enter [] := by
  rw [gather, entries, List.foldlM_append, foldlM_putColumn]
  exact congrArg _ (funext fun r => g.putSubRecords_eq row 0 g.additional r)

/-! ## Sub-records -/

theorem putNested_eq (m : Model) (r : Record) (column : String × Value) :
    g.putNested m r column = (g.nestedEntry m column).enter r := by
  rw [putNested, nestedEntry, fieldName, fieldValue]
  cases m.findField? column.1 g.caseSensitive <;> rfl

theorem foldlM_putNested (m : Model) (columns : Row) (r : Record) :
    columns.foldlM (g.putNested m) r = (columns.map (g.nestedEntry m)).foldlM Pending.enter r := by
  rw [List.foldlM_map]
  exact congrArg (fun step => columns.foldlM step r) (funext₂ (g.putNested_eq m))

/-- A sub-record is null where its columns are; else its columns are put in. -/
theorem subRecord_eq_ok {m : Model} {columns : Row} {v : Value} :
    g.subRecord m columns = .ok v ↔
      ((∀ column ∈ columns, column.2 = .null) ∧ v = .null) ∨
      (¬ (∀ column ∈ columns, column.2 = .null) ∧
        ∃ record, (columns.map (g.nestedEntry m)).foldlM Pending.enter [] = .ok record ∧ v = .object record) := by
  have hnull : (columns.all fun column => column.2.isNull) = true ↔ ∀ column ∈ columns, column.2 = .null :=
    List.all_eq_true.trans (forall₂_congr fun column _ => Value.isNull_iff column.2)
  rw [subRecord, ← hnull]
  split
  · rename_i h
    simp [h, eq_comm]
  · rename_i h
    rw [foldlM_putNested, Outcome.bind_eq_ok]
    simp [h, pure, Except.pure, eq_comm]

/-- Null is decoded for every field. -/
theorem fieldValue_null (m : Model) (column : String) : g.fieldValue m (column, .null) = .ok .null := by
  rw [fieldValue]
  cases m.findField? column g.caseSensitive with
  | none => rfl
  | some field => exact DataType.decode_null field.2

theorem fieldValue_of_null {m : Model} {column : String × Value} (h : column.2 = .null) :
    g.fieldValue m column = .ok .null := by
  rw [show column = (column.1, .null) from Prod.ext rfl h, fieldValue_null]

/-- A sub-record is made when all its columns are decoded, as nulls always are. -/
theorem exists_subRecord_iff {m : Model} {columns : Row} :
    (∃ v, g.subRecord m columns = .ok v) ↔ ∀ column ∈ columns, ∃ v, g.fieldValue m column = .ok v := by
  simp only [subRecord_eq_ok]
  by_cases hnull : ∀ column ∈ columns, column.2 = .null
  · exact iff_of_true ⟨.null, .inl ⟨hnull, rfl⟩⟩ fun column hcolumn =>
      ⟨.null, g.fieldValue_of_null (hnull column hcolumn)⟩
  · have hentries : (∃ record, (columns.map (g.nestedEntry m)).foldlM Pending.enter [] = .ok record) ↔
        ∀ column ∈ columns, ∃ v, g.fieldValue m column = .ok v := by
      rw [Pending.exists_foldlM_enter_iff, List.forall_mem_map]
      rfl
    rw [← hentries]
    refine ⟨fun ⟨v, h⟩ => ?_, fun ⟨record, h⟩ => ⟨.object record, .inr ⟨hnull, record, h, rfl⟩⟩⟩
    obtain ⟨-, record, h, -⟩ := h.resolve_left fun h => hnull h.1
    exact ⟨record, h⟩

/-- A sub-record has each of its columns. -/
theorem memberValue_of_subRecord {m : Model} {columns : Row}
    (hnames : ((columns.map (g.nestedEntry m)).map Prod.fst).Nodup) {w : Value} (h : g.subRecord m columns = .ok w)
    {column : String × Value} (hcolumn : column ∈ columns) :
    ∃ v, g.fieldValue m column = .ok v ∧ w.memberValue (g.fieldName m column.1) = v := by
  rcases g.subRecord_eq_ok.mp h with ⟨hnull, rfl⟩ | ⟨-, record, hrecord, rfl⟩
  · exact ⟨.null, g.fieldValue_of_null (hnull column hcolumn), rfl⟩
  · obtain ⟨v, hv, hfind⟩ := Pending.find?_of_foldlM_enter hnames hrecord (List.mem_map_of_mem hcolumn)
    refine ⟨v, hv, ?_⟩
    rw [Value.memberValue, show Entries.find? record (g.fieldName m column.1) = some v from hfind]
    rfl

theorem subEntry_eq_some {f : ExtraField} {index : Nat} {p : Pending} :
    g.subEntry row (f, index) = some p ↔
      ∃ m, f.record = some m ∧ g.nestedColumns row index ≠ [] ∧
        p = (f.label, g.subRecord m (g.nestedColumns row index)) := by
  rw [subEntry]
  cases f.record with
  | none => simp
  | some m =>
    cases g.nestedColumns row index with
    | nil => simp
    | cons c columns => simp [eq_comm]

theorem mem_subEntries {p : Pending} :
    p ∈ g.additional.zipIdx.filterMap (g.subEntry row) ↔
      ∃ index f m, g.additional[index]? = some f ∧ f.record = some m ∧ g.nestedColumns row index ≠ [] ∧
        p = (f.label, g.subRecord m (g.nestedColumns row index)) := by
  rw [List.mem_filterMap]
  constructor
  · rintro ⟨⟨f, index⟩, hf, hentry⟩
    obtain ⟨m, hrecord, hcolumns, hp⟩ := g.subEntry_eq_some.mp hentry
    exact ⟨index, f, m, List.mem_zipIdx_iff_getElem?.mp hf, hrecord, hcolumns, hp⟩
  · rintro ⟨index, f, m, hf, hrecord, hcolumns, hp⟩
    exact ⟨(f, index), List.mem_zipIdx_iff_getElem?.mpr hf, g.subEntry_eq_some.mpr ⟨m, hrecord, hcolumns, hp⟩⟩

/-! ## When a row is gathered -/

/-- The value of a column is decoded for its entry, in the record itself or in a sub-record. -/
theorem exists_decoded_iff (column : String × Value) :
    (∃ v, g.decoded column = .ok v) ↔ (∀ p, g.ownEntry column = some p → ∃ v, p.2 = .ok v) ∧
      ∀ i m c, g.nestedModel? i = some m → g.nestedColumn i column = some c → ∃ v, g.fieldValue m c = .ok v := by
  cases hname : (g.place column.1).ownName? with
  | some name =>
    rw [g.ownEntry_of_ownName? hname]
    refine ⟨fun h => ⟨fun p hp => ?_, fun i m c _ hc => ?_⟩, fun h => h.1 _ rfl⟩
    · cases hp
      exact h
    · rw [g.ownName?_of_nestedColumn hc] at hname
      cases hname
  | none =>
    obtain ⟨index, field, hroute⟩ := g.exists_route_of_ownName? hname
    obtain ⟨m, hmodel, hvalue⟩ := g.decoded_nested hroute
    rw [hvalue]
    refine ⟨fun h => ⟨fun p hp => ?_, fun i m' c hmodel' hc => ?_⟩, fun h => ?_⟩
    · rw [ownEntry, hname] at hp
      cases hp
    · obtain ⟨hroute', hsame⟩ := g.nestedColumn_eq_some.mp hc
      rw [hroute] at hroute'
      cases hroute'
      rw [hmodel] at hmodel'
      cases hmodel'
      rwa [show c = (c.1, column.2) from Prod.ext rfl hsame]
    · exact h.2 index m (field, column.2) hmodel (g.nestedColumn_eq_some.mpr ⟨hroute, rfl⟩)

/-- A row is gathered when all its columns are decoded. -/
theorem exists_gather_iff :
    (∃ record, g.gather row = .ok record) ↔ ∀ column ∈ row, ∃ v, g.decoded column = .ok v := by
  simp only [gather_eq, Pending.exists_foldlM_enter_iff, entries, List.forall_mem_append, exists_decoded_iff]
  rw [List.forall_mem_filterMap]
  constructor
  · rintro ⟨hown, hsub⟩ column hcolumn
    refine ⟨hown column hcolumn, fun i m c hmodel hc => ?_⟩
    obtain ⟨f, hf, hrecord⟩ := g.nestedModel?_eq_some.mp hmodel
    have hmem : c ∈ g.nestedColumns row i := List.mem_filterMap.mpr ⟨column, hcolumn, hc⟩
    have hentry := hsub _ (g.mem_subEntries.mpr ⟨i, f, m, hf, hrecord, List.ne_nil_of_mem hmem, rfl⟩)
    exact g.exists_subRecord_iff.mp hentry c hmem
  · intro h
    refine ⟨fun column hcolumn => (h column hcolumn).1, fun p hp => ?_⟩
    obtain ⟨i, f, m, hf, hrecord, -, rfl⟩ := g.mem_subEntries.mp hp
    refine g.exists_subRecord_iff.mpr fun c hc => ?_
    obtain ⟨column, hcolumn, hc⟩ := List.mem_filterMap.mp hc
    exact (h column hcolumn).2 i m c (g.nestedModel?_eq_some.mpr ⟨f, hf, hrecord⟩) hc

/-! ## What it is gathered into -/

theorem nodup_subEntries : ((g.additional.zipIdx.filterMap (g.subEntry row)).map Prod.fst).Nodup := by
  rw [List.Nodup, List.pairwise_map, List.pairwise_filterMap, List.pairwise_iff_getElem]
  intro i j hi hj hij p hp q hq
  rw [List.getElem_zipIdx, Nat.zero_add] at hp hq
  rw [List.length_zipIdx] at hi hj
  obtain ⟨m, hrecord, -, rfl⟩ := g.subEntry_eq_some.mp hp
  obtain ⟨-, -, hcolumns, rfl⟩ := g.subEntry_eq_some.mp hq
  exact g.label_ne hij (List.getElem?_eq_getElem hi) (by rw [hrecord]; rfl) (List.getElem?_eq_getElem hj) hcolumns

/-- The name of the entry of a place in the record itself: for a sub-record it is the label. -/
def entryName? : Place → Option String
  | .nested index _ => g.additional[index]?.map ExtraField.label
  | .computed label => some label
  | .declared name => some name
  | .plain name => some name

/-- The value that a record has at a place. -/
def valueAt? (record : Record) : Place → Option Value
  | .nested index field => (g.additional[index]?.bind fun f => Entries.find? record f.label).map (·.memberValue field)
  | .computed label => Entries.find? record label
  | .declared name => Entries.find? record name
  | .plain name => Entries.find? record name

/-- No column of the row itself has the label of a sub-record that has columns. -/
def LabelsApart (row : Row) : Prop :=
  ∀ a ∈ row, ∀ b ∈ row, (g.place b.1).ownName? = none → (g.place a.1).ownName? ≠ g.entryName? (g.place b.1)

/-- A record has every column of a row at its place, and nothing else. -/
structure IsMadeOf (row : Row) (record : Record) : Prop where
  sorted : Entries.Sorted record
  values : ∀ column ∈ row, ∃ v, g.decoded column = .ok v ∧ g.valueAt? record (g.place column.1) = some v
  names : ∀ entry ∈ record, ∃ column ∈ row, g.entryName? (g.place column.1) = some entry.1

variable {g}

theorem entryName?_of_ownName? {place : Place} {name : String} (h : place.ownName? = some name) :
    g.entryName? place = some name ∧ ∀ record, g.valueAt? record place = Entries.find? record name := by
  cases place with
  | nested index field => cases h
  | computed label => cases h; exact ⟨rfl, fun _ => rfl⟩
  | declared name => cases h; exact ⟨rfl, fun _ => rfl⟩
  | plain name => cases h; exact ⟨rfl, fun _ => rfl⟩

theorem entryName?_of_nestedColumn {index : Nat} {f : ExtraField} (hf : g.additional[index]? = some f)
    {column c : String × Value} (h : g.nestedColumn index column = some c) :
    (g.place column.1).ownName? = none ∧ g.entryName? (g.place column.1) = some f.label := by
  refine ⟨g.ownName?_of_nestedColumn h, ?_⟩
  rw [place, (g.nestedColumn_eq_some.mp h).1, entryName?, hf]
  rfl

/-- The entries of a row have different names. -/
theorem nodup_entries (hplaces : (row.map fun column => g.place column.1).Nodup) (hlabels : g.LabelsApart row) :
    ((g.entries row).map Prod.fst).Nodup := by
  rw [entries, List.map_append, List.nodup_append]
  refine ⟨g.nodup_ownEntries hplaces, g.nodup_subEntries, ?_⟩
  intro a ha b hb
  obtain ⟨p, hp, rfl⟩ := List.mem_map.mp ha
  obtain ⟨q, hq, rfl⟩ := List.mem_map.mp hb
  obtain ⟨column, hcolumn, hown⟩ := List.mem_filterMap.mp hp
  obtain ⟨name, hname, rfl⟩ := Option.map_eq_some_iff.mp hown
  obtain ⟨index, f, m, hf, -, hcolumns, rfl⟩ := g.mem_subEntries.mp hq
  obtain ⟨column', hcolumn', c, hnested⟩ := g.exists_nestedColumn hcolumns
  obtain ⟨hnone, hlabel⟩ := entryName?_of_nestedColumn hf hnested
  have hapart := hlabels column hcolumn column' hcolumn' hnone
  rw [hname, hlabel] at hapart
  exact fun hsame => hapart (congrArg some hsame)

section

variable {record : Record} {column : String × Value}

theorem value_of_ownName? (hfind : ∀ p ∈ g.entries row, ∃ v, p.2 = .ok v ∧ Entries.find? record p.1 = some v)
    (hcolumn : column ∈ row) {name : String} (hname : (g.place column.1).ownName? = some name) :
    ∃ v, g.decoded column = .ok v ∧ g.valueAt? record (g.place column.1) = some v := by
  have hown := g.ownEntry_of_ownName? hname
  obtain ⟨v, hv, hvalue⟩ := hfind _ (List.mem_append_left _ (List.mem_filterMap.mpr ⟨column, hcolumn, hown⟩))
  exact ⟨v, hv, by rw [(entryName?_of_ownName? hname).2, hvalue]⟩

theorem value_of_nested (hplaces : (row.map fun column => g.place column.1).Nodup)
    (hfind : ∀ p ∈ g.entries row, ∃ v, p.2 = .ok v ∧ Entries.find? record p.1 = some v)
    (hcolumn : column ∈ row) {index : Nat} {field : String} (hroute : g.route column.1 = .nested index field) :
    ∃ v, g.decoded column = .ok v ∧ g.valueAt? record (g.place column.1) = some v := by
  obtain ⟨m, hmodel, hdecoded⟩ := g.decoded_nested hroute
  obtain ⟨f, hf, hrecord⟩ := g.nestedModel?_eq_some.mp hmodel
  have hmem : (field, column.2) ∈ g.nestedColumns row index :=
    List.mem_filterMap.mpr ⟨column, hcolumn, g.nestedColumn_eq_some.mpr ⟨hroute, rfl⟩⟩
  obtain ⟨sub, hsub, hvalue⟩ := hfind _ (List.mem_append_right _
    (g.mem_subEntries.mpr ⟨index, f, m, hf, hrecord, List.ne_nil_of_mem hmem, rfl⟩))
  obtain ⟨v, hv, hmember⟩ := g.memberValue_of_subRecord (g.nodup_nestedEntries hmodel hplaces) hsub hmem
  refine ⟨v, hdecoded.trans hv, ?_⟩
  rw [place, hroute]
  simp only [valueAt?, hf, hmodel, Option.bind_some, Option.map_some, Option.getD_some]
  rw [show Entries.find? record f.label = some sub from hvalue, Option.map_some, hmember]

/-- A gathered row of columns with different places has every column at its place, and nothing else. -/
theorem isMadeOf_of_gather (hplaces : (row.map fun column => g.place column.1).Nodup) (hlabels : g.LabelsApart row)
    (h : g.gather row = .ok record) : g.IsMadeOf row record := by
  rw [gather_eq] at h
  have hfind : ∀ p ∈ g.entries row, ∃ v, p.2 = .ok v ∧ Entries.find? record p.1 = some v :=
    fun p hp => Pending.find?_of_foldlM_enter (nodup_entries hplaces hlabels) h hp
  refine ⟨Pending.sorted_of_foldlM_enter h, fun column hcolumn => ?_, fun entry hentry => ?_⟩
  · cases hname : (g.place column.1).ownName? with
    | some name => exact value_of_ownName? hfind hcolumn hname
    | none =>
      obtain ⟨index, field, hroute⟩ := g.exists_route_of_ownName? hname
      exact value_of_nested hplaces hfind hcolumn hroute
  · obtain ⟨p, hp, hname⟩ := Pending.exists_of_foldlM_enter h hentry
    rcases List.mem_append.mp hp with hp | hp
    · obtain ⟨column, hcolumn, hown⟩ := List.mem_filterMap.mp hp
      obtain ⟨name, hplace, rfl⟩ := Option.map_eq_some_iff.mp hown
      exact ⟨column, hcolumn, by rw [(entryName?_of_ownName? hplace).1, ← hname]⟩
    · obtain ⟨index, f, m, hf, -, hcolumns, rfl⟩ := g.mem_subEntries.mp hp
      obtain ⟨column, hcolumn, c, hnested⟩ := g.exists_nestedColumn hcolumns
      exact ⟨column, hcolumn, by rw [(entryName?_of_nestedColumn hf hnested).2, ← hname]⟩

end

end

end Gatherer

end RecordQuery
