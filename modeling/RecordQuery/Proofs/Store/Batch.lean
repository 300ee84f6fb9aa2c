import RecordQuery.Proofs.Store.Call
set_option autoImplicit false

/-!
# Store: inserts of batches

A batch is put into a table row by row, and what becomes of a row depends on the table alone.  So a batch may
be cut anywhere: inserting its parts one after the other is inserting the batch (`insertRows_append`), except
that a batch that fails leaves nothing of its first part.
-/

namespace RecordQuery

namespace Store

theorem withTable_withTable (st : Store) (name : String) (rows rows' : List Record) :
    (st.withTable name rows).withTable name rows' = st.withTable name rows' := by
  rw [withTable, withTable, withTable, Entries.insert_insert]

/-! ## Rows -/

section

variable {m : Model} {replace : Bool}

/-- A key that was generated before a batch is the answer only where the batch generates none. -/
theorem insertRows_generated {prepared rows rows' : List Record} {generated last : Option Int64} :
    insertRows m replace prepared generated rows = .ok (rows', last) ↔
      ∃ own, insertRows m replace prepared none rows = .ok (rows', own) ∧ last = own.or generated := by
  induction prepared generalizing rows generated last with
  | nil =>
    constructor
    · intro h
      cases h
      exact ⟨none, rfl, rfl⟩
    · rintro ⟨own, h, rfl⟩
      cases h
      rfl
  | cons row rest ih =>
    simp only [insertRows]
    constructor
    · intro h
      obtain ⟨⟨mid, key⟩, hmid, h⟩ := Outcome.bind_eq_ok.mp h
      obtain ⟨own, hown, rfl⟩ := ih.mp h
      refine ⟨own.or key, Outcome.bind_eq_ok.mpr ⟨(mid, key), hmid, ih.mpr ⟨own, hown, ?_⟩⟩, ?_⟩
      · rw [Option.or_none]
      · rw [Option.or_assoc]
    · rintro ⟨own, h, rfl⟩
      obtain ⟨⟨mid, key⟩, hmid, h⟩ := Outcome.bind_eq_ok.mp h
      obtain ⟨own, hown, rfl⟩ := ih.mp h
      refine Outcome.bind_eq_ok.mpr ⟨(mid, key), hmid, ih.mpr ⟨own, hown, ?_⟩⟩
      rw [Option.or_none, Option.or_assoc]

/-- Rows are put into a table part by part. -/
theorem insertRows_append (first second rows : List Record) (generated : Option Int64) :
    insertRows m replace (first ++ second) generated rows = (do
      let (mid, key) ← insertRows m replace first generated rows
      insertRows m replace second key mid) := by
  induction first generalizing rows generated with
  | nil => rfl
  | cons row rest ih =>
    rw [List.cons_append, insertRows, insertRows]
    cases insertRow m replace rows row with
    | error fault => rfl
    | ok inserted => exact ih _ _

/-- A batch is put into a table exactly when its parts are, one after the other. -/
theorem insertRows_append_eq_ok {first second rows rows' : List Record} {last : Option Int64} :
    insertRows m replace (first ++ second) none rows = .ok (rows', last) ↔
      ∃ mid key own, insertRows m replace first none rows = .ok (mid, key) ∧
        insertRows m replace second none mid = .ok (rows', own) ∧ last = own.or key := by
  rw [insertRows_append, Outcome.bind_eq_ok]
  constructor
  · rintro ⟨⟨mid, key⟩, hmid, h⟩
    obtain ⟨own, hown, rfl⟩ := insertRows_generated.mp h
    exact ⟨mid, key, own, hmid, hown, rfl⟩
  · rintro ⟨mid, key, own, hmid, hown, rfl⟩
    exact ⟨(mid, key), hmid, insertRows_generated.mpr ⟨own, hown, rfl⟩⟩

end

/-! ## Stores -/

/-- Records are prepared part by part. -/
theorem mapM_prepare_append {m : Model} {xs ys prepared : List Record} :
    (xs ++ ys).mapM (prepare m) = .ok prepared ↔
      ∃ first second, xs.mapM (prepare m) = .ok first ∧ ys.mapM (prepare m) = .ok second ∧
        prepared = first ++ second := by
  rw [List.mapM_append, Outcome.bind_eq_ok]
  constructor
  · rintro ⟨first, hfirst, h⟩
    obtain ⟨second, hsecond, h⟩ := Outcome.bind_eq_ok.mp h
    cases h
    exact ⟨first, second, hfirst, hsecond, rfl⟩
  · rintro ⟨first, second, hfirst, hsecond, rfl⟩
    exact ⟨first, hfirst, Outcome.bind_eq_ok.mpr ⟨second, hsecond, rfl⟩⟩

/-- A batch is inserted exactly when its first part is inserted into the store and its second part into what
this leaves, with the same store at the end; the answer is the last key that was generated.  A batch that
fails leaves every table as it was, whatever its first part alone would have done. -/
theorem insert_append (st : Store) (owner : Source) (xs ys : List Record) (replace : Bool) :
    (∀ st' key, st.insert owner (xs ++ ys) replace = .ok (st', key) ↔
      ∃ mid first second, st.insert owner xs replace = .ok (mid, first) ∧
        mid.insert owner ys replace = .ok (st', second) ∧ key = second.or first) ∧
    (∀ st' key, st.insert owner (xs ++ ys) replace = .ok (st', key) →
      (Call.insert owner (xs ++ ys) replace).on st = (.ok key, st')) ∧
    ∀ fault, st.insert owner (xs ++ ys) replace = .error fault →
      ∃ left, (Call.insert owner (xs ++ ys) replace).on st = (.error fault, left) ∧
        ∀ name, left.table name = st.table name := by
  refine ⟨fun st' key => ?_, fun st' key => Call.insert_ok, fun fault => Call.insert_error⟩
  constructor
  · intro h
    obtain ⟨prepared, rows, rows', hprepared, htable, hrows', rfl⟩ := insert_eq_ok.mp h
    obtain ⟨first, second, hfirst, hsecond, rfl⟩ := mapM_prepare_append.mp hprepared
    obtain ⟨mid, keyX, keyY, hmid, hlast, rfl⟩ := insertRows_append_eq_ok.mp hrows'
    refine ⟨st.withTable owner.name mid, keyX, keyY, ?_, ?_, rfl⟩
    · exact insert_eq_ok.mpr ⟨first, rows, mid, hfirst, htable, hmid, rfl⟩
    · exact insert_eq_ok.mpr ⟨second, mid, rows', hsecond, table_withTable_self _ _ _, hlast,
        (withTable_withTable _ _ _ _).symm⟩
  · rintro ⟨left, keyX, keyY, hxs, hys, rfl⟩
    obtain ⟨first, rows, mid, hfirst, htable, hmid, rfl⟩ := insert_eq_ok.mp hxs
    obtain ⟨second, mid', rows', hsecond, htable', hlast, rfl⟩ := insert_eq_ok.mp hys
    rw [table_withTable_self] at htable'
    cases htable'
    rw [withTable_withTable]
    refine insert_eq_ok.mpr ⟨first ++ second, rows, rows', ?_, htable, ?_, rfl⟩
    · exact mapM_prepare_append.mpr ⟨first, second, hfirst, hsecond, rfl⟩
    · exact insertRows_append_eq_ok.mpr ⟨mid, keyX, keyY, hmid, hlast, rfl⟩

/-- The same new key in both parts of a batch: the first part alone is inserted, the batch is not.  Two parts
without keys are given the keys 3 and 4. -/
theorem insert_append_clash :
    let keyed : List Record := [[("id", .int 9)]]
    let fourPeople := twoPeople.withTable "people" ([1, 2, 3, 4].map fun n => [("id", .int n)])
    (∃ mid, twoPeople.insert people keyed false = .ok (mid, none)) ∧
      (∃ left, (Call.insert people (keyed ++ keyed) false).on twoPeople =
          (.error (.invalid (.duplicateKey "people")), left) ∧
        ∀ name, left.table name = twoPeople.table name) ∧
      (Call.insert people ([[]] ++ [[]]) false).on twoPeople = (.ok (some 4), fourPeople) := by
  intro keyed fourPeople
  obtain ⟨-, -, hfails⟩ := insert_append twoPeople people keyed keyed false
  obtain ⟨hparts, hsucceeds, -⟩ := insert_append twoPeople people [[]] [[]] false
  have hboth : twoPeople.insert people ([[]] ++ [[]]) false = .ok (fourPeople, some 4) :=
    (hparts _ _).mpr ⟨_, some 3, some 4, rfl, rfl, rfl⟩
  exact ⟨⟨_, rfl⟩, hfails _ rfl, hsucceeds _ _ hboth⟩

end Store

end RecordQuery
