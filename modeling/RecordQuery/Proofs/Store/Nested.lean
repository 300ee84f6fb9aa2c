import RecordQuery.Proofs.Row.SubRecords
import RecordQuery.Proofs.Store.Found
import RecordQuery.Proofs.Store.Qualified
set_option autoImplicit false

/-!
# Store: reads with sub-records

A row that a read builds has a stored record of the main source, or the blank one of a right join, and all that is
joined to it under a label are records of the source with that label; every step of a read keeps that
(`IsSupplied`).  So what the stored records say about columns and decoding holds of all rows, and a read whose
additional fields are records of models spreads every row into columns that are gathered again
(`fetch_nested`).
-/

namespace RecordQuery

/-- The sources of a read beside its main one, under their labels. -/
def ReadSelection.otherSources (r : ReadSelection) : List (String × Source) :=
  r.extraSources.map (fun e => (e.label, e.source)) ++ r.joins.map fun j => (j.label, j.source)

namespace Store

/-! ## Where rows come from -/

/-- The main records of the rows of a read. -/
inductive MainRecord (st : Store) (owner : Source) (r : ReadSelection) : Record → Prop where
  | stored {rows : List Record} {record : Record} (htable : st.table owner.name = .ok rows) (hrecord : record ∈ rows) :
      MainRecord st owner r record
  /-- the other side of a right join has no partner -/
  | blank (hright : ∃ j ∈ r.joins, j.kind = .right) : MainRecord st owner r owner.model.blankRecord

/-- The records that a read may attach under a label. -/
def Attaches (st : Store) (owner : Source) (r : ReadSelection) (label : String) (record : Record) : Prop :=
  ∃ source rows, (label, source) ∈ r.otherSources ∧ st.related owner source = .ok rows ∧ record ∈ rows

/-- The row has a main record of the read, and what is joined to it are records that the read attaches. -/
structure IsSupplied (st : Store) (owner : Source) (r : ReadSelection) (row : Joined) : Prop where
  base : st.MainRecord owner r row.base
  others : ∀ label record, (label, some record) ∈ row.others → st.Attaches owner r label record

section

variable {st : Store} {owner : Source} {r : ReadSelection} {s : Shape} {row : Joined} {rows answer : List Joined}

theorem IsSupplied.extend (h : st.IsSupplied owner r row) {label : String} {other : Option Record}
    (hother : ∀ record ∈ other, st.Attaches owner r label record) :
    st.IsSupplied owner r (row.extend label other) := by
  refine ⟨h.base, fun label' record hrecord => ?_⟩
  rcases List.mem_append.mp hrecord with hrecord | hrecord
  · exact h.others label' record hrecord
  · cases List.mem_singleton.mp hrecord
    exact hother record rfl

theorem single_isSupplied {reference : String} {record : Record} (h : st.MainRecord owner r record) :
    st.IsSupplied owner r (Joined.single reference owner.name record) :=
  ⟨h, fun _ _ hrecord => absurd hrecord List.not_mem_nil⟩

/-- Nothing is joined to a blank row. -/
theorem blank_isSupplied {reference : String} {labels : List String} (hright : ∃ j ∈ r.joins, j.kind = .right) :
    st.IsSupplied owner r (Joined.blank reference owner.name owner.model labels) := by
  refine ⟨.blank hright, fun label record hrecord => ?_⟩
  obtain ⟨_, -, heq⟩ := List.mem_map.mp hrecord
  cases heq

theorem combine_isSupplied {sources : List ExtraSource} (hsources : ∀ e ∈ sources, e ∈ r.extraSources)
    (h : sources.foldlM (fun rows e => do return Joined.combine rows (← st.related owner e.source) e.label) rows =
      .ok answer)
    (hrows : ∀ row ∈ rows, st.IsSupplied owner r row) : ∀ row ∈ answer, st.IsSupplied owner r row := by
  induction sources generalizing rows with
  | nil =>
    cases h
    exact hrows
  | cons e rest ih =>
    obtain ⟨he, hrest⟩ := List.forall_mem_cons.mp hsources
    rw [List.foldlM_cons] at h
    obtain ⟨next, hnext, h⟩ := Outcome.bind_eq_ok.mp h
    obtain ⟨others, hothers, hnext⟩ := Outcome.bind_eq_ok.mp hnext
    cases hnext
    refine ih hrest h fun row hrow => ?_
    obtain ⟨main, hmain, hrow⟩ := List.mem_flatMap.mp hrow
    obtain ⟨o, ho, rfl⟩ := List.mem_map.mp hrow
    refine (hrows main hmain).extend ?_
    rintro _ ⟨⟩
    exact ⟨e.source, others, List.mem_append_left _ (List.mem_map_of_mem he), hothers, ho⟩

theorem combined_isSupplied (h : st.combined owner s r.extraSources = .ok rows) :
    ∀ row ∈ rows, st.IsSupplied owner r row := by
  obtain ⟨base, htable, h⟩ := Outcome.bind_eq_ok.mp h
  have hsingle : ∀ row ∈ base.map (Joined.single s.reference owner.name), st.IsSupplied owner r row :=
    List.forall_mem_map.mpr fun _ hrecord => single_isSupplied (.stored htable hrecord)
  exact combine_isSupplied (fun _ he => he) h hsingle

/-- A join attaches records of its source; only a right join brings the blank row in. -/
theorem joined_isSupplied {joins : List Join} {labels : List String} (hjoins : ∀ j ∈ joins, j ∈ r.joins)
    (h : st.joined owner s joins labels rows = .ok answer) (hrows : ∀ row ∈ rows, st.IsSupplied owner r row) :
    ∀ row ∈ answer, st.IsSupplied owner r row := by
  induction joins generalizing rows labels with
  | nil =>
    cases h
    exact hrows
  | cons j rest ih =>
    obtain ⟨hj, hrest⟩ := List.forall_mem_cons.mp hjoins
    rw [joined] at h
    obtain ⟨others, hothers, h⟩ := Outcome.bind_eq_ok.mp h
    obtain ⟨next, hnext, h⟩ := Outcome.bind_eq_ok.mp h
    refine ih hrest h fun row hrow => ?_
    obtain ⟨main, other, hmain, hother, rfl⟩ := Joined.mem_join hnext hrow
    have hsupplied : st.IsSupplied owner r main := by
      rcases hmain with hmain | ⟨hright, rfl⟩
      · exact hrows main hmain
      · exact blank_isSupplied ⟨j, hj, hright⟩
    refine hsupplied.extend fun record hrecord => ?_
    exact ⟨j.source, others, List.mem_append_right _ (List.mem_map_of_mem hj), hothers, hother record hrecord⟩

theorem kept_isSupplied (h : st.kept owner r = .ok rows) : ∀ row ∈ rows, st.IsSupplied owner r row := by
  obtain ⟨combined, joined, hcombined, hjoined, hrows⟩ := kept_eq_ok h
  intro row hrow
  obtain ⟨main, hmain, computed, rfl⟩ := hrows row hrow
  obtain ⟨hbase, hothers⟩ := joined_isSupplied (fun _ hj => hj) hjoined (combined_isSupplied hcombined) main hmain
  exact ⟨hbase, hothers⟩

/-- Where labels occur once, what is found under a label is what is joined under it. -/
theorem other?_eq_some_iff (hnodup : row.labels.Nodup) {label : String} {record : Record} :
    row.other? label = some record ↔ (label, some record) ∈ row.others := by
  rw [Joined.other?, Option.bind_eq_some_iff]
  constructor
  · rintro ⟨⟨label', other⟩, hfound, rfl⟩
    obtain rfl : label' = label := by simpa using List.find?_some hfound
    exact List.mem_of_find?_eq_some hfound
  · intro hmem
    exact ⟨_, Entries.find?_name_of_nodup hnodup hmem, rfl⟩

end

/-! ## Reads with sub-records -/

/-- The read answers all columns of its main records, with the records of these models under their labels. -/
structure Nests (r : ReadSelection) (subs : List (String × Model)) : Prop where
  projection : r.projection = []
  additional : r.additional = subs.map recordField
  distinct : r.distinct = false
  labels : r.labels.Nodup
  subs : AreSubRecords subs

/-- A row with its ordering keys. -/
def keyedJoined (ordering : List OrderTerm) (row : Joined) : Outcome (List Value × Joined) := do
  return (← orderKeys row ordering, row)

/-- The columns of a row with sub-records. -/
def nestedRow (subs : List (String × Model)) (row : Joined) : Row :=
  row.base ++ subs.flatMap (spreadColumns row.other?)

/-- The record of a row with sub-records. -/
def nestedRecord (subs : List (String × Model)) (row : Joined) : Record :=
  Entries.insertAll row.base (Gatherer.gatheredValues row.other? subs)

section

variable {st : Store} {owner : Source} {r : ReadSelection} {subs : List (String × Model)} {rows : List Joined}

theorem extraColumns_recordField (row : Joined) (s : String × Model) :
    extraColumns row (recordField s) = spreadColumns row.other? s := by
  rw [spreadColumns, fieldColumns, List.map_map]
  rfl

theorem project_nested (hr : Nests r subs) (registry : Registry) (row : Joined) :
    project r registry row = .ok (nestedRow subs row) := by
  rw [project, hr.projection, hr.additional, List.flatMap_map]
  simp only [extraColumns_recordField]
  rfl

theorem keyedRow_nested (hr : Nests r subs) (registry : Registry) (row : Joined) :
    keyedRow r registry row = (do return (← orderKeys row r.shape.ordering, nestedRow subs row)) := by
  rw [keyedRow, project_nested hr]
  rfl

/-- The rows that are found have the keys of the rows that are kept. -/
theorem keyed_of_mapM_keyedRow (hr : Nests r subs) {registry : Registry} {items : List (List Value × Row)}
    (h : rows.mapM (keyedRow r registry) = .ok items) :
    ∃ keyed, rows.mapM (keyedJoined r.shape.ordering) = .ok keyed ∧
      items = keyed.map (Prod.map id (nestedRow subs)) := by
  induction rows generalizing items with
  | nil =>
    cases h
    exact ⟨[], rfl, rfl⟩
  | cons row rest ih =>
    obtain ⟨item, more, hitem, hmore, rfl⟩ := Outcome.mapM_cons_eq_ok.mp h
    obtain ⟨keyed, hkeyed, rfl⟩ := ih hmore
    rw [keyedRow_nested hr] at hitem
    obtain ⟨hkeys, hcolumns⟩ := Outcome.pair_eq_ok.mp hitem
    refine ⟨(item.1, row) :: keyed, Outcome.mapM_cons_eq_ok.mpr ⟨_, _, ?_, hkeyed, rfl⟩, ?_⟩
    · exact Outcome.pair_eq_ok.mpr ⟨hkeys, rfl⟩
    · rw [List.map_cons, Prod.map, ← hcolumns]
      rfl

theorem mem_of_mem_orderedWithin {s : Shape} {keyed : List (List Value × Joined)} {row : Joined}
    (hkeyed : rows.mapM (keyedJoined s.ordering) = .ok keyed) (h : row ∈ orderedWithin s keyed) : row ∈ rows := by
  obtain ⟨item, hitem, rfl⟩ := List.mem_map.mp ((bounded_sublist s _).subset h)
  obtain ⟨row, hrow, hitem⟩ :=
    Outcome.exists_of_mapM hkeyed ((Sorting.perm_sortBy _ keyed).mem_iff.mp hitem)
  obtain ⟨-, rfl⟩ := Outcome.pair_eq_ok.mp hitem
  exact hrow

/-- The columns of a row are gathered into its record. -/
theorem gather_nestedRow (hr : Nests r subs)
    (hmain : ∀ record, st.MainRecord owner r record → IsOwnRecord owner.model (subs.map Prod.fst) record)
    (hattached : ∀ s ∈ subs, ∀ record, st.Attaches owner r s.1 record → IsDecodedBy s.2 record) {row : Joined}
    (hrow : st.IsSupplied owner r row) (hlabels : row.labels = r.labels) :
    (Gatherer.mk owner.model r.additional true).gather (nestedRow subs row) = .ok (nestedRecord subs row) ∧
      IsRecordOf subs row.base row.other? (nestedRecord subs row) := by
  have hbase := hmain row.base hrow.base
  have hnodup : row.labels.Nodup := hlabels ▸ hr.labels
  have hdecoded : ∀ s ∈ subs, ∀ record ∈ row.other? s.1, IsDecodedBy s.2 record := by
    intro s hs record hrecord
    exact hattached s hs record (hrow.others s.1 record ((other?_eq_some_iff hnodup).mp hrecord))
  rw [hr.additional]
  exact ⟨Gatherer.gather_spread hr.subs hbase hdecoded, isRecordOf_gatheredValues hr.subs hbase⟩

/-- Where the columns of the main records have no dots and are no labels, and stored values are decoded, records are
fetched as they were stored: the main record of a kept row, and under each label of a model null where no record, or
only null, is attached, and otherwise the object of all fields of the model as the attached record has them. -/
theorem fetch_nested (hr : Nests r subs)
    (hstored : ∀ stored, st.table owner.name = .ok stored →
      ∀ record ∈ stored, IsOwnRecord owner.model (subs.map Prod.fst) record)
    (hdeclared : (∃ j ∈ r.joins, j.kind = .right) →
      ∀ f ∈ owner.model.fields, '.' ∉ f.1.toList ∧ f.1 ∉ subs.map Prod.fst)
    (hattached : ∀ s ∈ subs, ∀ record, st.Attaches owner r s.1 record → IsDecodedBy s.2 record)
    {records : List Record} (h : st.fetch owner r = .ok records) :
    ∃ kept keyed, st.kept owner r = .ok kept ∧ kept.mapM (keyedJoined r.shape.ordering) = .ok keyed ∧
      List.Forall₂ (fun row record => IsRecordOf subs row.base row.other? record) (orderedWithin r.shape keyed)
        records ∧
      ∀ row ∈ kept, st.IsSupplied owner r row ∧ row.labels = r.labels ∧
        ∀ label record, row.other? label = some record ↔ (label, some record) ∈ row.others := by
  obtain ⟨_, hread, hrecords⟩ := fetch_eq_ok.mp h
  obtain ⟨items, hitems, rfl⟩ := read_eq_ok.mp hread
  obtain ⟨kept, _, hkept, -, hall, hsources⟩ := exists_sources hitems
  obtain rfl := hall hr.distinct
  obtain ⟨keyed, hkeyed, rfl⟩ := keyed_of_mapM_keyedRow hr hsources
  have hmain : ∀ record, st.MainRecord owner r record → IsOwnRecord owner.model (subs.map Prod.fst) record := by
    rintro record (⟨htable, hrecord⟩ | ⟨hright⟩)
    · exact hstored _ htable record hrecord
    · exact isOwnRecord_blankRecord (hdeclared hright)
  have hsupplied := kept_isSupplied hkept
  have hlabels := fun row hrow => (kept_isNamed hkept row hrow).labels
  have hgather : ∀ row ∈ orderedWithin r.shape keyed,
      ((Gatherer.mk owner.model r.additional true).gather ∘ nestedRow subs) row = .ok (nestedRecord subs row) ∧
        IsRecordOf subs row.base row.other? (nestedRecord subs row) := by
    intro row hrow
    have hmem := mem_of_mem_orderedWithin hkeyed hrow
    exact gather_nestedRow hr hmain hattached (hsupplied row hmem) (hlabels row hmem)
  refine ⟨_, keyed, hkept, hkeyed, ?_, ?_⟩
  · rw [orderedWithin_map, List.mapM_map, Outcome.mapM_eq_ok fun row hrow => (hgather row hrow).1] at hrecords
    obtain rfl := Except.ok.inj hrecords
    rw [List.forall₂_map_right_iff, List.forall₂_same]
    exact fun row hrow => (hgather row hrow).2
  · intro row hrow
    have hnodup : row.labels.Nodup := hlabels row hrow ▸ hr.labels
    exact ⟨hsupplied row hrow, hlabels row hrow, fun _ _ => other?_eq_some_iff hnodup⟩

end

/-- Everybody with the record of somebody whose key is greater. -/
def withNext : ReadSelection := (withGreater .left "next").addRecord "next" people.model

/-- The second of two people is the next of the first one, and has no next. -/
theorem fetch_nested_next :
    twoPeople.fetch people withNext =
        .ok [[("id", .int 1), ("next", .object [("id", .int 2)])], [("id", .int 2), ("next", .null)]] ∧
      ∃ kept keyed, twoPeople.kept people withNext = .ok kept ∧
        kept.mapM (keyedJoined withNext.shape.ordering) = .ok keyed ∧
        List.Forall₂ (fun row record => IsRecordOf [("next", people.model)] row.base row.other? record)
          (orderedWithin withNext.shape keyed)
          [[("id", .int 1), ("next", .object [("id", .int 2)])], [("id", .int 2), ("next", .null)]] := by
  have hfetch : twoPeople.fetch people withNext =
      .ok [[("id", .int 1), ("next", .object [("id", .int 2)])], [("id", .int 2), ("next", .null)]] := rfl
  have hr : Nests withNext [("next", people.model)] :=
    ⟨rfl, rfl, rfl, by decide, by decide, by decide, by decide, by decide⟩
  have hid : ∀ n : Int64, IsOwnRecord people.model ["next"] [("id", .int n)] := by
    refine fun n => ⟨List.pairwise_singleton _ _, List.forall_mem_singleton.mpr ⟨?_, ?_, ?_⟩⟩
    · show '.' ∉ "id".toList
      decide
    · show "id" ∉ ["next"]
      decide
    · rintro _ ⟨⟩
      rfl
  have hstored : ∀ stored, twoPeople.table people.name = .ok stored →
      ∀ record ∈ stored, IsOwnRecord people.model ["next"] record := by
    intro stored htable record hrecord
    cases htable
    rcases List.mem_pair.mp hrecord with rfl | rfl
    · exact hid 1
    · exact hid 2
  have hattached : ∀ s ∈ [("next", people.model)], ∀ record,
      twoPeople.Attaches people withNext s.1 record → IsDecodedBy s.2 record := by
    rintro _ hs record ⟨source, rows, hsource, hrows, hrecord⟩ f hf v hv
    cases List.mem_singleton.mp hs
    cases List.mem_singleton.mp hsource
    cases List.mem_singleton.mp hf
    cases hrows
    rcases List.mem_pair.mp hrecord with rfl | rfl
    · cases hv
      rfl
    · cases hv
      rfl
  obtain ⟨kept, keyed, hkept, hkeyed, hrecords, -⟩ := fetch_nested hr hstored (fun _ => by decide) hattached hfetch
  exact ⟨hfetch, kept, keyed, hkept, hkeyed, hrecords⟩

end Store

end RecordQuery
