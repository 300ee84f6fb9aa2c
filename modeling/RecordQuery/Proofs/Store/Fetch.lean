import RecordQuery.Proofs.Coercion.Idempotence
import RecordQuery.Proofs.Store.Run
set_option autoImplicit false

/-!
# Store: what was stored is given back

Every operation keeps the records of a table stored (`yields_stored`), and so does every run (`run_stored`).
The plain selection answers the rows as they are, and gathering them into records decodes every value once
more (`fetch_plain`).  A table is therefore given back exactly when decoding leaves all its values as they
are, which fails for what an object field holds if it was JSON text of a boolean, a number or a string.
-/

namespace RecordQuery.Store

/-! ## Runs -/

/-- Every operation makes stored records of stored records. -/
theorem yields_stored {owner : Source} {st : Store} {op : Operation} {rows rows' : List Record}
    (hrows : ∀ r ∈ rows, IsStored owner.model r) (h : op.Yields owner st rows rows') :
    ∀ r ∈ rows', IsStored owner.model r := by
  cases op with
  | insert records replace =>
    obtain ⟨prepared, last, hprepared, hinserted⟩ := h
    have hnew := Outcome.forall_of_mapM (fun _ _ => isStored_prepare) hprepared
    exact insertRows_stored hrows hnew hinserted
  | update u =>
    obtain ⟨indices, changes, -, hchanges, rfl⟩ := h
    exact isStored_applyChanges hrows (holds_of_changes hchanges)
  | delete d =>
    obtain ⟨indices, -, rfl⟩ := h
    exact fun r hr => hrows r ((without_sublist indices 0 rows).subset hr)

/-- A run that starts from stored records ends with stored records. -/
theorem run_stored {owner : Source} {ops : List Operation} {st final : Store} {rows : List Record}
    (htable : st.table owner.name = .ok rows) (hrows : ∀ r ∈ rows, IsStored owner.model r)
    (hrun : run owner st ops = .ok final) :
    ∃ rows', final.table owner.name = .ok rows' ∧ ∀ r ∈ rows', IsStored owner.model r :=
  run_keeps (fun _ hrows hyields => yields_stored hrows hyields) htable hrows hrun

/-! ## The plain selection -/

/-- The selection of all records of a source. -/
def plain (owner : Source) : ReadSelection := .ofShape (.ofSource owner)

section Plain

variable {st : Store} {owner : Source} {rows : List Record}

theorem keyedRows_plain (owner : Source) (registry : Registry) (seen : List Row) (rows : List Record) :
    keyedRows (plain owner) registry seen (rows.map (Joined.single owner.name owner.name)) =
      .ok (rows.map fun r => ([], r)) := by
  induction rows generalizing seen with
  | nil => rfl
  | cons r rest ih =>
    have hkeys : orderKeys (Joined.single owner.name owner.name r) (Shape.ofSource owner).ordering = .ok [] := rfl
    rw [List.map_cons, plain, keyedRows_cons, hkeys, Outcome.ok_bind]
    exact congrArg (fun x : Outcome _ => (do return ([], r) :: (← x))) (ih (seen ++ [r]))

theorem kept_plain (htable : st.table owner.name = .ok rows) :
    st.kept owner (plain owner) = .ok (rows.map (Joined.single owner.name owner.name)) := by
  rw [plain, kept_ofShape htable]
  exact (Joined.keep_of_ok fun _ _ => rfl).trans (congrArg Except.ok (List.filter_true _))

/-- The plain selection answers the rows in their order. -/
theorem read_plain (htable : st.table owner.name = .ok rows) : st.read owner (plain owner) = .ok rows := by
  have howner : owner.checkOwner (plain owner).shape.source = .ok () := if_pos ⟨rfl, rfl⟩
  have hsorted : sortKeyed [] (rows.map fun r => (([] : List Value), r)) = rows.map fun r => ([], r) :=
    Sorting.sortBy_of_not_lt (fun _ _ => by simp [compareKeys]) _
  rw [read, howner, Outcome.ok_bind, kept_plain htable, Outcome.ok_bind, keyedRows_plain]
  show Except.ok (bounded (plain owner).shape ((sortKeyed [] _).map Prod.snd)) = _
  rw [hsorted, List.map_map]
  exact congrArg Except.ok (List.map_id rows)

/-! ## Gathering -/

/-- A column of a stored record, decoded for its field. -/
def recoerce (m : Model) (column : String × Value) : Outcome (String × Value) := coerce m column.1 column.2

theorem recoerce_eq {m : Model} {column : String × Value} {type : DataType}
    (h : m.fieldType? column.1 = some type) :
    recoerce m column = (do return (column.1, ← type.decode column.2)) := by
  rw [recoerce, coerce, Model.findField?_of_fieldType? h]

theorem putColumn_plain {m : Model} {column : String × Value} (h : m.Holds column) (r : Record) :
    (Gatherer.mk m [] true).putColumn r column =
      (do let c ← recoerce m column; return Entries.insert r c.1 c.2) := by
  obtain ⟨type, v, htype, -⟩ := h
  have hfind := Model.findField?_of_fieldType? htype
  have hroute : (Gatherer.mk m [] true).route column.1 = .declared column.1 type := by
    have hnested : (Gatherer.mk m [] true).nested? column.1 = none := by
      unfold Gatherer.nested?
      cases Text.cutFirst '.' column.1.toList <;> rfl
    have hcomputed : (Gatherer.mk m [] true).computed? column.1 = none := rfl
    rw [Gatherer.route, hnested, hcomputed]
    simp only [hfind]
  rw [Gatherer.putColumn, hroute, recoerce_eq htype]
  show (do return Entries.insert r column.1 (← type.decode column.2) : Outcome Record) = _
  cases type.decode column.2 <;> rfl

theorem foldlM_putColumn {m : Model} {columns : Row} (h : ∀ column ∈ columns, m.Holds column) (r : Record) :
    columns.foldlM (Gatherer.mk m [] true).putColumn r =
      (do return Entries.insertAll r (← columns.mapM (recoerce m))) := by
  induction columns generalizing r with
  | nil => rfl
  | cons column rest ih =>
    obtain ⟨hcolumn, hrest⟩ := List.forall_mem_cons.mp h
    rw [List.foldlM_cons, List.mapM_cons, putColumn_plain hcolumn]
    cases recoerce m column with
    | error fault => rfl
    | ok c =>
      show rest.foldlM _ (Entries.insert r c.1 c.2) = _
      rw [ih hrest]
      cases rest.mapM (recoerce m) <;> rfl

/-- Gathering a stored record decodes its values once more. -/
theorem gather_stored {m : Model} {r : Record} (h : IsStored m r) :
    (Gatherer.mk m [] true).gather r = r.mapM (recoerce m) := by
  rw [Gatherer.gather, foldlM_putColumn h.holds]
  cases hdecoded : r.mapM (recoerce m) with
  | error fault => rfl
  | ok columns =>
    have hnames : columns.map Prod.fst = r.map Prod.fst :=
      Outcome.map_of_mapM (fun _ _ => coerce_name) hdecoded
    have hsorted : Entries.Sorted columns := (Entries.sorted_iff_of_names hnames).mpr h.sorted
    show Except.ok (Entries.ofPairs columns) = _
    rw [hsorted.ofPairs_eq]

/-- Fetching the plain selection decodes every stored value once more. -/
theorem fetch_plain (htable : st.table owner.name = .ok rows) (hrows : ∀ r ∈ rows, IsStored owner.model r) :
    st.fetch owner (plain owner) = rows.mapM fun r => r.mapM (recoerce owner.model) := by
  rw [fetch, read_plain htable, Outcome.ok_bind]
  exact Outcome.mapM_congr fun r hr => gather_stored (hrows r hr)

/-- A stored column is decoded to itself, unless it is no list or record in an object field. -/
theorem recoerce_eq_self_iff {m : Model} {column : String × Value} (h : m.Holds column) :
    recoerce m column = .ok column ↔
      (m.fieldType? column.1 = some .object → column.2.isStructured = true) := by
  obtain ⟨type, v, htype, hdecode⟩ := h
  have hself : recoerce m column = .ok column ↔ type.decode column.2 = .ok column.2 := by
    rw [recoerce_eq htype]
    constructor
    · intro h
      obtain ⟨w, hw, h⟩ := Outcome.bind_eq_ok.mp h
      rw [hw, show w = column.2 from congrArg Prod.snd (Except.ok.inj h)]
    · intro h
      rw [h]
      rfl
  rw [hself, DataType.decode_idempotent_iff hdecode, htype, Option.some_inj]

end Plain

/-! ## What was accepted is given back -/

/-- A decoded value is decoded to itself, and the plain selection gives back what a run from an empty table
has stored, exactly as far as object fields hold lists, records and nulls. -/
theorem given_back_iff (owner : Source) (st final : Store) (ops : List Operation) :
    (∀ (t : DataType) (v w : Value), t.decode v = .ok w →
        (t.decode w = .ok w ↔ (t = .object → w.isStructured = true))) ∧
      (st.table owner.name = .ok [] → run owner st ops = .ok final →
        ∃ rows, final.table owner.name = .ok rows ∧
          (final.fetch owner (plain owner) = .ok rows ↔
            ∀ row ∈ rows, ∀ column ∈ row,
              owner.model.fieldType? column.1 = some .object → column.2.isStructured = true)) := by
  refine ⟨fun t v w h => DataType.decode_idempotent_iff h, ?_⟩
  intro hempty hrun
  obtain ⟨rows, htable, hrows⟩ := run_stored hempty (List.forall_mem_nil _) hrun
  refine ⟨rows, htable, ?_⟩
  rw [fetch_plain htable hrows, Outcome.mapM_eq_self_iff]
  refine forall₂_congr fun row hrow => ?_
  rw [Outcome.mapM_eq_self_iff]
  exact forall₂_congr fun column hcolumn => recoerce_eq_self_iff ((hrows row hrow).holds column hcolumn)

/-- A source of documents. -/
def notes : Source := ⟨0, ⟨"notes", [("doc", .object)], none⟩⟩

/-- No documents. -/
def noNotes : Store := (empty 0 []).attach notes.model []

/-- Insert a document that is spelled in JSON. -/
def write (text : String) : Operation := .insert [[("doc", .string text)]] false

/-- A list is given back. -/
theorem given_back_list :
    ∃ final, run notes noNotes [write "[5]"] = .ok final ∧
      final.table notes.name = .ok [[("doc", .array [.int 5])]] ∧
      final.fetch notes (plain notes) = .ok [[("doc", .array [.int 5])]] := by
  have hrun : run notes noNotes [write "[5]"] =
      .ok (noNotes.withTable "notes" [[("doc", .array [.int 5])]]) := rfl
  obtain ⟨rows, hrows, hiff⟩ := (given_back_iff notes noNotes _ _).2 rfl hrun
  cases hrows
  refine ⟨_, hrun, rfl, hiff.mpr ?_⟩
  intro row hrow column hcolumn _
  rw [List.mem_singleton.mp hrow] at hcolumn
  rw [List.mem_singleton.mp hcolumn]
  rfl

/-- A number is stored, and the table cannot be read from then on. -/
theorem stored_number_refused :
    DataType.object.decode (.string "5") = .ok (.int 5) ∧ DataType.object.decode (.int 5) ≠ .ok (.int 5) ∧
      ∃ final, run notes noNotes [write "5"] = .ok final ∧
        final.table notes.name = .ok [[("doc", .int 5)]] ∧
        final.fetch notes (plain notes) = .error (.invalid (.mismatch (.int 5) .object)) := by
  refine ⟨rfl, nofun, ?_⟩
  have hrun : run notes noNotes [write "5"] =
      .ok (noNotes.withTable "notes" [[("doc", .int 5)]]) := rfl
  exact ⟨_, hrun, rfl, rfl⟩

end RecordQuery.Store
