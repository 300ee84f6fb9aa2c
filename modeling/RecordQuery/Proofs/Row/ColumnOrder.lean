import RecordQuery.Proofs.Row.Gathered
set_option autoImplicit false

/-!
# Row: the order of columns

Entries of different names may be put into a record in any order (`foldlM_enter_perm`), whether they are those of the
record itself or of a sub-record.  The entries that are sub-records come in the order of their labels, each with the
value that its columns have in any order.  So a row whose columns have different places may list them in any order: the
record is the same, or some column is not decoded and there is none in either order (`gather_perm`).
-/

namespace RecordQuery

/-- Entries of different names may be put in in any order. -/
theorem Pending.foldlM_enter_perm {pending pending' : List Pending} (hperm : pending.Perm pending')
    (hnames : (pending.map Prod.fst).Nodup) {r record : Record} (h : pending.foldlM enter r = .ok record) :
    pending'.foldlM enter r = .ok record := by
  obtain ⟨entries, hentries, rfl⟩ := foldlM_enter_eq_ok.mp h
  obtain ⟨entries', hentries', hpermuted⟩ := Outcome.mapM_perm hperm hentries
  rw [← names_of_mapM_settle hentries] at hnames
  exact foldlM_enter_eq_ok.mpr ⟨entries', hentries', Entries.insertAll_perm hpermuted hnames r⟩

namespace Gatherer

section

variable (g : Gatherer) {row row' : Row}

/-- A sub-record is made of its columns in any order, null or not. -/
theorem subRecord_perm {m : Model} {columns columns' : Row} (hperm : columns.Perm columns')
    (hnames : ((columns.map (g.nestedEntry m)).map Prod.fst).Nodup) {v : Value}
    (h : g.subRecord m columns = .ok v) : g.subRecord m columns' = .ok v := by
  have hnull : (∀ column ∈ columns, column.2 = .null) ↔ ∀ column ∈ columns', column.2 = .null :=
    forall_congr' fun column => imp_congr_left hperm.mem_iff
  rw [subRecord_eq_ok] at h ⊢
  rw [← hnull]
  refine h.imp_right fun ⟨hsome, record, hrecord, hv⟩ => ⟨hsome, record, ?_, hv⟩
  exact Pending.foldlM_enter_perm (hperm.map (g.nestedEntry m)) hnames hrecord

/-- The entry that a sub-record makes does not depend on the order of the columns, if it is made. -/
theorem enter_subEntry_perm (hperm : row.Perm row') (hplaces : (row.map fun column => g.place column.1).Nodup)
    {f : ExtraField} {index : Nat} (hf : g.additional[index]? = some f) {r record : Record}
    (h : (g.subEntry row (f, index)).elim (.ok r) (Pending.enter r) = .ok record) :
    (g.subEntry row' (f, index)).elim (.ok r) (Pending.enter r) = .ok record := by
  have hcolumns : (g.nestedColumns row index).Perm (g.nestedColumns row' index) :=
    hperm.filterMap (g.nestedColumn index)
  cases hentry : g.subEntry row (f, index) with
  | none =>
    have hnone : g.subEntry row' (f, index) = none := by
      rw [Option.eq_none_iff_forall_ne_some] at hentry ⊢
      intro p hp
      obtain ⟨m, hrecord, hsome, -⟩ := g.subEntry_eq_some.mp hp
      exact hentry _ (g.subEntry_eq_some.mpr ⟨m, hrecord, fun hnil => hsome (hnil ▸ hcolumns).nil_eq.symm, rfl⟩)
    rwa [hnone, ← hentry]
  | some p =>
    obtain ⟨m, hrecord, hsome, rfl⟩ := g.subEntry_eq_some.mp hentry
    have hmodel : g.nestedModel? index = some m := g.nestedModel?_eq_some.mpr ⟨f, hf, hrecord⟩
    have hsome' : g.nestedColumns row' index ≠ [] := fun hnil => hsome (hnil ▸ hcolumns).eq_nil
    rw [hentry] at h
    rw [g.subEntry_eq_some.mpr ⟨m, hrecord, hsome', rfl⟩]
    obtain ⟨sub, hsub, h⟩ := Outcome.bind_eq_ok.mp h
    exact Outcome.bind_eq_ok.mpr
      ⟨sub, g.subRecord_perm hcolumns (g.nodup_nestedEntries hmodel hplaces) hsub, h⟩

theorem gather_of_perm (hperm : row.Perm row') (hplaces : (row.map fun column => g.place column.1).Nodup)
    {record : Record} (h : g.gather row = .ok record) : g.gather row' = .ok record := by
  rw [gather_eq, entries, List.foldlM_append] at h ⊢
  obtain ⟨r, hown, hsubs⟩ := Outcome.bind_eq_ok.mp h
  refine Outcome.bind_eq_ok.mpr ⟨r, ?_, ?_⟩
  · exact Pending.foldlM_enter_perm (hperm.filterMap g.ownEntry) (g.nodup_ownEntries hplaces) hown
  · rw [← Pending.foldlM_elim_enter] at hsubs ⊢
    refine Outcome.foldlM_imp (fun p hp r record => ?_) hsubs
    exact g.enter_subEntry_perm hperm hplaces (List.mem_zipIdx_iff_getElem?.mp hp)

end

/-- Columns of different places may stand in any order: the row is gathered into the same record, or fails in both
orders, which it does when a column is not decoded.  The record has every column at its place and nothing else, unless
a column of the row itself is hidden by a sub-record of that label. -/
theorem gather_perm (g : Gatherer) {row : Row} (hplaces : (row.map fun column => g.place column.1).Nodup) :
    (∀ row', row.Perm row' → ∀ record, g.gather row = .ok record ↔ g.gather row' = .ok record) ∧
      ((∃ record, g.gather row = .ok record) ↔ ∀ column ∈ row, ∃ v, g.decoded column = .ok v) ∧
      (g.LabelsApart row → ∀ record, g.gather row = .ok record → g.IsMadeOf row record) := by
  refine ⟨fun row' hperm record => ?_, g.exists_gather_iff, fun hlabels _ => isMadeOf_of_gather hplaces hlabels⟩
  have hplaces' : (row'.map fun column => g.place column.1).Nodup := (hperm.map _).nodup_iff.mp hplaces
  exact ⟨g.gather_of_perm hperm hplaces, g.gather_of_perm hperm.symm hplaces'⟩

/-- Posts with their authors, whose columns come in any case of letters. -/
def authoredPosts : Gatherer :=
  ⟨⟨"posts", [("id", .int), ("title", .string none)], some "id"⟩,
    [⟨"score", none, some .int, none⟩,
      ⟨"author", none, none, some ⟨"users", [("id", .int), ("active", .boolean)], some "id"⟩⟩], false⟩

/-- A row with columns of all four places, in reverse order. -/
theorem gather_perm_authored :
    let row : Row := [("author.ACTIVE", .int 1), ("TITLE", .string "t"), ("Score", .string "5"),
      ("Author.id", .int 3), ("rank", .null)]
    let record : Record := [("author", .object [("active", .bool true), ("id", .int 3)]),
      ("rank", .null), ("score", .int 5), ("title", .string "t")]
    (row.map fun column => authoredPosts.place column.1).Nodup ∧ authoredPosts.LabelsApart row ∧
      authoredPosts.gather row.reverse = .ok record ∧ authoredPosts.IsMadeOf row record := by
  intro row record
  have hplaces : (row.map fun column => authoredPosts.place column.1).Nodup := by decide
  have hlabels : authoredPosts.LabelsApart row := by
    unfold LabelsApart
    decide
  have hgather : authoredPosts.gather row = .ok record := rfl
  obtain ⟨hperm, -, hmade⟩ := gather_perm authoredPosts hplaces
  exact ⟨hplaces, hlabels, (hperm _ row.reverse_perm.symm record).mp hgather, hmade hlabels record hgather⟩

-- Of two columns that are not decoded the first one is reported, so the order does show in the fault.
example : authoredPosts.gather [("id", .string "x"), ("score", .string "y")] =
      .error (.invalid (.mismatch (.string "x") .int)) ∧
    authoredPosts.gather [("score", .string "y"), ("id", .string "x")] =
      .error (.invalid (.mismatch (.string "y") .int)) := ⟨rfl, rfl⟩

end Gatherer

end RecordQuery
