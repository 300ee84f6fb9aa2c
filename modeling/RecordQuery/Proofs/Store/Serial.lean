import RecordQuery.Proofs.Format.Faults
import RecordQuery.Proofs.Statement.GeneratedKey
import RecordQuery.Proofs.Store.Batch
set_option autoImplicit false

/-!
# Store: serial keys

A serial key is filled in with the largest integer key so far plus one.  `generations` lists the keys that a batch
is given, each with the rows that it is generated beside; it is greater than every key of these (`nextKey_fresh`).
Beside the largest 64-bit key the addition overflows, which stops the program: in the batches in which a row
without a key comes up there (`RunsOut`), and in no others (`insert_eq_overflow_iff`).
-/

namespace RecordQuery

namespace Store

/-! ## The next key -/

theorem maximum?_eq_none {ns : List Int64} (h : maximum? ns = none) : ns = [] := by
  cases ns with
  | nil => rfl
  | cons n rest =>
    rw [maximum?] at h
    split at h <;> cases h

/-- The largest of some integers is one of them, and none is greater. -/
theorem maximum?_eq_some {ns : List Int64} {m : Int64} (h : maximum? ns = some m) :
    m ∈ ns ∧ ∀ k ∈ ns, k.toInt ≤ m.toInt := by
  induction ns generalizing m with
  | nil => cases h
  | cons n rest ih =>
    rw [maximum?] at h
    split at h
    · rename_i last hlast
      obtain ⟨hmem, hle⟩ := ih hlast
      split at h
      · rename_i hn
        cases h
        refine ⟨List.mem_cons_self, List.forall_mem_cons.mpr ⟨Int.le_refl _, ?_⟩⟩
        exact fun k hk => Int.le_trans (hle k hk) hn
      · rename_i hn
        cases h
        exact ⟨List.mem_cons_of_mem n hmem, List.forall_mem_cons.mpr ⟨by omega, hle⟩⟩
    · rename_i hnone
      cases h
      rw [maximum?_eq_none hnone]
      simp

section

variable {key : String} {rows : List Record}

/-- The next key follows the largest 64-bit key exactly where that is among the keys. -/
theorem getD_maximum?_eq_maxValue_iff :
    (maximum? (integerKeys key rows)).getD 0 = Int64.maxValue ↔ Int64.maxValue ∈ integerKeys key rows := by
  cases hmax : maximum? (integerKeys key rows) with
  | none =>
    rw [maximum?_eq_none hmax]
    decide
  | some m =>
    obtain ⟨hmem, hle⟩ := maximum?_eq_some hmax
    rw [Option.getD_some]
    constructor
    · rintro rfl
      exact hmem
    · exact fun h => Int64.le_antisymm (Int64.le_maxValue m) (Int64.le_iff_toInt_le.mpr (hle _ h))

/-- The next key is one more than the largest key, unless that is the largest 64-bit key: then the addition
overflows. -/
theorem nextKey_cases :
    (Int64.maxValue ∈ integerKeys key rows ∧ nextKey key rows = .error .overflow) ∨
      Int64.maxValue ∉ integerKeys key rows ∧ ∃ n, nextKey key rows = .ok n ∧
        n.toInt = ((maximum? (integerKeys key rows)).getD 0).toInt + 1 := by
  have hiff := @getD_maximum?_eq_maxValue_iff key rows
  unfold nextKey
  generalize (maximum? (integerKeys key rows)).getD 0 = last at hiff ⊢
  simp only
  split
  · rename_i hlast
    exact .inl ⟨hiff.mp hlast, rfl⟩
  · rename_i hlast
    refine .inr ⟨fun h => hlast (hiff.mpr h), last + 1, rfl, ?_⟩
    have hlt := Int64.lt_iff_toInt_lt.mp (Int64.lt_of_le_of_ne (Int64.le_maxValue last) hlast)
    have hmin := Int64.le_toInt last
    rw [Int64.toInt_maxValue] at hlt
    rw [Int64.toInt_add, Int64.toInt_one]
    exact Int.bmod_eq_of_le (by omega) (by omega)

theorem nextKey_eq_overflow_iff :
    nextKey key rows = .error .overflow ↔ Int64.maxValue ∈ integerKeys key rows := by
  rcases @nextKey_cases key rows with ⟨hmem, hnext⟩ | ⟨hmem, n, hnext, -⟩
  · exact ⟨fun _ => hmem, fun _ => hnext⟩
  · rw [hnext]
    exact ⟨nofun, fun h => absurd h hmem⟩

/-- The next key is greater than every key. -/
theorem nextKey_fresh {n : Int64} (h : nextKey key rows = .ok n) : ∀ k ∈ integerKeys key rows, k < n := by
  intro k hk
  rcases @nextKey_cases key rows with ⟨-, hnext⟩ | ⟨-, n', hnext, hsum⟩
  · rw [h] at hnext
    cases hnext
  rw [h] at hnext
  cases hnext
  rw [Int64.lt_iff_toInt_lt, hsum]
  cases hmax : maximum? (integerKeys key rows) with
  | none =>
    rw [maximum?_eq_none hmax] at hk
    cases hk
  | some m =>
    have hle := (maximum?_eq_some hmax).2 k hk
    rw [Option.getD_some]
    omega

end

/-! ## One row -/

theorem mem_integerKeys {key : String} {rows : List Record} {k : Int64} :
    k ∈ integerKeys key rows ↔ ∃ r ∈ rows, r.keyValue key = .int k := by
  rw [integerKeys, List.mem_filterMap]
  refine exists_congr fun r => and_congr_right fun _ => ?_
  rw [Record.keyValue]
  cases hv : Entries.find? r key with
  | none => simp
  | some v => cases v <;> simp [Value.asInt?]

section

variable {m : Model} {key : String} {replace : Bool} {rows : List Record} {row : Record}

/-- A row that is put into a table takes no integer key from it: what it replaces has its key. -/
theorem integerKeys_insertRow (hkey : m.primaryKey = some key) {rows' : List Record}
    {generated : Option Int64} (hrow : (row.keyValue key).IsKey)
    (h : insertRow m replace rows row = .ok (rows', generated)) :
    integerKeys key rows ⊆ integerKeys key rows' := by
  intro k hk
  obtain ⟨r, hr, hrk⟩ := mem_integerKeys.mp hk
  obtain ⟨filled, hfill, ⟨-, rfl⟩ | ⟨index, hindex, -, rfl⟩⟩ := insertRow_cases h
  · exact mem_integerKeys.mpr ⟨r, List.mem_append_left _ hr, hrk⟩
  · obtain ⟨old, hold, heq⟩ := sqlEq_of_sameKey?_eq_some hkey hindex
    obtain ⟨hlt, rfl⟩ := List.getElem?_eq_some_iff.mp hold
    obtain ⟨j, hj, rfl⟩ := List.getElem_of_mem hr
    by_cases hij : index = j
    · subst hij
      refine mem_integerKeys.mpr ⟨_, List.mem_set hlt _, ?_⟩
      rw [hrk] at heq
      exact (Value.IsKey.sqlEq_eq_true (.inr ⟨k, rfl⟩) (isKey_fillKey hrow hfill) heq).symm
    · refine mem_integerKeys.mpr ⟨rows[j], List.mem_of_getElem? (i := j) ?_, hrk⟩
      rw [List.getElem?_set_ne hij, List.getElem?_eq_getElem hj]

section

variable (hserial : m.serialKey? = some key)

include hserial

theorem primaryKey_of_serialKey? : m.primaryKey = some key := by
  obtain ⟨key', hkey, h⟩ := Option.bind_eq_some_iff.mp hserial
  split at h
  · cases h
    exact hkey
  · cases h

/-- Filling in a key fails only where the row has none, and the next one cannot be computed. -/
theorem fillKey_eq_error_iff {fault : Fault} :
    fillKey m rows row = .error fault ↔ (row.keyValue key).isNull = true ∧ nextKey key rows = .error fault := by
  rw [fillKey, hserial, Record.keyValue]
  simp only
  split
  · rename_i hnull
    rw [Outcome.bind_eq_error]
    constructor
    · intro h
      obtain h | ⟨n, -, h⟩ := h
      · exact ⟨hnull, h⟩
      · cases h
    · exact fun h => .inl h.2
  · rename_i hnull
    constructor
    · intro h
      cases h
    · exact fun h => absurd h.1 hnull

/-- A row stops the program when it has no key and the largest one is taken. -/
theorem insertRow_eq_overflow_iff :
    insertRow m replace rows row = .error .overflow ↔
      (row.keyValue key).isNull = true ∧ Int64.maxValue ∈ integerKeys key rows := by
  rw [← nextKey_eq_overflow_iff, ← fillKey_eq_error_iff hserial, insertRow, Outcome.bind_eq_error]
  refine ⟨?_, .inl⟩
  rintro (h | ⟨filled, -, h⟩)
  · exact h
  · -- a duplicate key is another fault
    simp only at h
    split at h
    · split at h <;> cases h
    · cases h

/-- A key that is generated is the next one. -/
theorem nextKey_of_insertRow {rows' : List Record} {n : Int64}
    (h : insertRow m replace rows row = .ok (rows', some n)) : nextKey key rows = .ok n := by
  obtain ⟨filled, hfill, -⟩ := insertRow_cases h
  rcases fillKey_cases hfill with ⟨-, hnone⟩ | ⟨key', n', hkey', hnext, -, hsome⟩
  · cases hnone
  · rw [hserial] at hkey'
    cases hkey'
    cases hsome
    exact hnext

end

end

/-! ## Batches -/

/-- The keys that are generated while prepared rows are put into a table, each with the rows that are stored or
staged by then. -/
def generations (m : Model) (replace : Bool) : List Record → List Record → List (List Record × Int64)
  | [], _ => []
  | row :: rest, rows =>
    match insertRow m replace rows row with
    | .ok (rows', key) => (key.map fun n => (rows, n)).toList ++ generations m replace rest rows'
    | .error _ => []

/-- A batch runs out of keys: a row without one comes up when the largest 64-bit key is stored or staged. -/
def RunsOut (m : Model) (key : String) (replace : Bool) (prepared rows : List Record) : Prop :=
  ∃ done row rest staged last, prepared = done ++ row :: rest ∧
    insertRows m replace done none rows = .ok (staged, last) ∧
    (Record.keyValue key row).isNull = true ∧ Int64.maxValue ∈ integerKeys key staged

/-- The answer of a batch is the last key that it is given. -/
theorem insertRows_last {m : Model} {replace : Bool} {prepared rows rows' : List Record}
    {generated last : Option Int64} (h : insertRows m replace prepared generated rows = .ok (rows', last)) :
    last = ((generations m replace prepared rows).map Prod.snd).getLast?.or generated := by
  induction prepared generalizing rows generated with
  | nil =>
    cases h
    rfl
  | cons row rest ih =>
    rw [insertRows] at h
    obtain ⟨⟨mid, key⟩, hmid, h⟩ := Outcome.bind_eq_ok.mp h
    rw [ih h, generations, hmid]
    simp only [List.map_append, List.getLast?_append, Option.or_assoc]
    cases key <;> rfl

/-- A key is generated for the first row of a batch, or after that was put in. -/
theorem mem_generations_cons {m : Model} {replace : Bool} {row : Record} {prepared rows : List Record}
    {g : List Record × Int64} : g ∈ generations m replace (row :: prepared) rows ↔
      ∃ p, insertRow m replace rows row = .ok p ∧
        (p.2 = some g.2 ∧ g.1 = rows ∨ g ∈ generations m replace prepared p.1) := by
  have hown : ∀ key : Option Int64, key.map (fun n => (rows, n)) = some g ↔ key = some g.2 ∧ g.1 = rows := by
    intro key
    rw [Option.map_eq_some_iff]
    constructor
    · rintro ⟨n, rfl, rfl⟩
      exact ⟨rfl, rfl⟩
    · rintro ⟨rfl, rfl⟩
      exact ⟨g.2, rfl, rfl⟩
  rw [generations]
  cases insertRow m replace rows row with
  | error fault => simp
  | ok p => simp [hown]

/-- A batch loses no integer key on the way. -/
theorem integerKeys_generations {m : Model} {key : String} (hkey : m.primaryKey = some key) {replace : Bool}
    {prepared rows : List Record} (hprepared : ∀ row ∈ prepared, (row.keyValue key).IsKey) :
    ∀ g ∈ generations m replace prepared rows, integerKeys key rows ⊆ integerKeys key g.1 := by
  induction prepared generalizing rows with
  | nil => exact fun g hg => absurd hg List.not_mem_nil
  | cons row rest ih =>
    obtain ⟨hrow, hrest⟩ := List.forall_mem_cons.mp hprepared
    intro g hg
    obtain ⟨p, hinserted, ⟨-, hrows⟩ | hg⟩ := mem_generations_cons.mp hg
    · rw [hrows]
      exact List.Subset.refl _
    · exact List.Subset.trans (integerKeys_insertRow hkey hrow hinserted) (ih hrest g hg)

section

variable {m : Model} {key : String} {replace : Bool} {prepared rows : List Record}

/-- A batch runs out of keys with its first row, or after that. -/
theorem runsOut_cons {row : Record} : RunsOut m key replace (row :: prepared) rows ↔
    ((row.keyValue key).isNull = true ∧ Int64.maxValue ∈ integerKeys key rows) ∨
      ∃ p, insertRow m replace rows row = .ok p ∧ RunsOut m key replace prepared p.1 := by
  constructor
  · rintro ⟨_ | ⟨first, done⟩, row', rest, staged, last, hsplit, hdone, hnull, hmax⟩
    · cases hsplit
      cases hdone
      exact .inl ⟨hnull, hmax⟩
    · cases hsplit
      obtain ⟨p, hp, hdone⟩ := Outcome.bind_eq_ok.mp hdone
      obtain ⟨own, hown, -⟩ := insertRows_generated.mp hdone
      exact .inr ⟨p, hp, done, row', rest, staged, own, rfl, hown, hnull, hmax⟩
  · rintro (⟨hnull, hmax⟩ | ⟨p, hp, done, row', rest, staged, last, rfl, hdone, hnull, hmax⟩)
    · exact ⟨[], row, prepared, rows, none, rfl, rfl, hnull, hmax⟩
    · refine ⟨row :: done, row', rest, staged, last.or (p.2.or none), rfl, ?_, hnull, hmax⟩
      exact Outcome.bind_eq_ok.mpr ⟨p, hp, insertRows_generated.mpr ⟨last, hdone, rfl⟩⟩

variable (hserial : m.serialKey? = some key)

include hserial

/-- Every key that a batch is given is the next one beside the rows so far. -/
theorem nextKey_of_mem_generations : ∀ g ∈ generations m replace prepared rows, nextKey key g.1 = .ok g.2 := by
  induction prepared generalizing rows with
  | nil => exact fun g hg => absurd hg List.not_mem_nil
  | cons row rest ih =>
    intro g hg
    obtain ⟨⟨rows', generated⟩, hrow, ⟨rfl, rfl⟩ | hg⟩ := mem_generations_cons.mp hg
    · exact nextKey_of_insertRow hserial hrow
    · exact ih g hg

/-- A batch stops the program exactly when it runs out of keys. -/
theorem insertRows_eq_overflow_iff {generated : Option Int64} :
    insertRows m replace prepared generated rows = .error .overflow ↔ RunsOut m key replace prepared rows := by
  induction prepared generalizing rows generated with
  | nil =>
    refine ⟨nofun, ?_⟩
    rintro ⟨done, row, rest, -, -, hsplit, -⟩
    simp at hsplit
  | cons row rest ih =>
    rw [insertRows, runsOut_cons, Outcome.bind_eq_error, insertRow_eq_overflow_iff hserial]
    exact or_congr_right (exists_congr fun p => and_congr_right fun _ => ih)

end

/-! ## Inserts -/

/-- A record is refused only because of its values. -/
theorem prepare_failsOnly (m : Model) (r : Record) : (prepare m r).FailsOnly DataType.Refuses := by
  refine .foldlM (fun row field => ?_) _
  refine .bind ?_ fun p => .ok _
  unfold coerce
  split
  · exact (DataType.decode_failsOnly _ _).bind fun _ => .ok _
  · exact .error ⟨_, rfl⟩

/-- An insert stops the program exactly when its records are prepared, its table is there and the batch runs out of
keys. -/
theorem insert_eq_overflow_iff {st : Store} {owner : Source} {key : String}
    (hserial : owner.model.serialKey? = some key) {records : List Record} {replace : Bool} :
    st.insert owner records replace = .error .overflow ↔
      ∃ prepared rows, records.mapM (prepare owner.model) = .ok prepared ∧ st.table owner.name = .ok rows ∧
        RunsOut owner.model key replace prepared rows := by
  have hprepare : records.mapM (prepare owner.model) ≠ .error .overflow := fun h => by
    obtain ⟨cause, heq⟩ := Outcome.FailsOnly.mapM (fun r _ => prepare_failsOnly owner.model r) _ h
    cases heq
  have htable : st.table owner.name ≠ .error .overflow := fun h => by
    unfold table at h
    split at h <;> cases h
  rw [insert, Outcome.bind_eq_error]
  constructor
  · rintro (h | ⟨prepared, hprepared, h⟩)
    · exact absurd h hprepare
    obtain h | ⟨rows, hrows, h⟩ := Outcome.bind_eq_error.mp h
    · exact absurd h htable
    obtain h | ⟨staged, -, h⟩ := Outcome.bind_eq_error.mp h
    · exact ⟨prepared, rows, hprepared, hrows, (insertRows_eq_overflow_iff hserial).mp h⟩
    · cases h
  · rintro ⟨prepared, rows, hprepared, hrows, h⟩
    refine .inr ⟨prepared, hprepared, Outcome.bind_eq_error.mpr (.inr ⟨rows, hrows, ?_⟩)⟩
    exact Outcome.bind_eq_error.mpr (.inl ((insertRows_eq_overflow_iff hserial).mpr h))

/-- In a batch that is inserted, every generated key is one more than the largest key that is stored or staged
before it, and so greater than all of them.  An insert that needs a key beside the largest 64-bit key stops the
program, and no other one does; whatever it fails with, every table is left as it was. -/
theorem generated_keys_fresh_iff (st : Store) {owner : Source} {key : String}
    (hserial : owner.model.serialKey? = some key) (records : List Record) (replace : Bool) :
    (∀ st' last, st.insert owner records replace = .ok (st', last) →
      ∃ prepared rows, records.mapM (prepare owner.model) = .ok prepared ∧ st.table owner.name = .ok rows ∧
        last = ((generations owner.model replace prepared rows).map Prod.snd).getLast? ∧
        ∀ g ∈ generations owner.model replace prepared rows,
          integerKeys key rows ⊆ integerKeys key g.1 ∧ (∀ k ∈ integerKeys key g.1, k < g.2) ∧
            g.2.toInt = ((maximum? (integerKeys key g.1)).getD 0).toInt + 1) ∧
    ((∃ fault, st.insert owner records replace = .error fault ∧ fault.kind? = none) ↔
      ∃ prepared rows, records.mapM (prepare owner.model) = .ok prepared ∧ st.table owner.name = .ok rows ∧
        RunsOut owner.model key replace prepared rows) ∧
    ∀ fault, st.insert owner records replace = .error fault →
      ∃ left, (Call.insert owner records replace).on st = (.error fault, left) ∧
        ∀ name, left.table name = st.table name := by
  refine ⟨?_, ?_, fun _ => Call.insert_error⟩
  · intro st' last h
    obtain ⟨prepared, rows, rows', hprepared, htable, hrows', rfl⟩ := insert_eq_ok.mp h
    obtain ⟨signed, width, htype⟩ := Model.fieldType?_of_serialKey? hserial
    have hkeys : ∀ row ∈ prepared, (row.keyValue key).IsKey :=
      Outcome.forall_of_mapM (fun _ _ hrow => (isStored_prepare hrow).isKey htype) hprepared
    refine ⟨prepared, rows, hprepared, htable, ?_, ?_⟩
    · rw [insertRows_last hrows', Option.or_none]
    · intro g hg
      have hnext := nextKey_of_mem_generations hserial g hg
      refine ⟨integerKeys_generations (primaryKey_of_serialKey? hserial) hkeys g hg, nextKey_fresh hnext, ?_⟩
      rcases @nextKey_cases key g.1 with ⟨-, hover⟩ | ⟨-, n, hn, hsum⟩
      · rw [hnext] at hover
        cases hover
      · rw [hnext] at hn
        cases hn
        exact hsum
  · rw [← insert_eq_overflow_iff hserial]
    constructor
    · rintro ⟨fault, h, hkind⟩
      cases fault <;> cases hkind
      exact h
    · exact fun h => ⟨.overflow, h, rfl⟩

/-- A record of `people`, by its key. -/
def person (key : Int64) : Record := [("id", .int key)]

/-- Beside the key before the largest one, a record without a key is given the largest key.  Two such records stop
the program. -/
theorem generated_keys_fresh_to_largest :
    let almost := twoPeople.withTable "people" [person (Int64.maxValue - 1)]
    (∃ st', almost.insert people [[]] false = .ok (st', some Int64.maxValue)) ∧
      (∀ k ∈ integerKeys "id" [person (Int64.maxValue - 1)], k < Int64.maxValue) ∧
      ∃ fault, almost.insert people [[], []] false = .error fault ∧ fault.kind? = none := by
  intro almost
  have hok : almost.insert people [[]] false =
      .ok (twoPeople.withTable "people" [person (Int64.maxValue - 1), person Int64.maxValue],
        some Int64.maxValue) := rfl
  have hgenerations : generations people.model false [[("id", .null)]] [person (Int64.maxValue - 1)] =
      [([person (Int64.maxValue - 1)], Int64.maxValue)] := rfl
  have hserial : people.model.serialKey? = some "id" := rfl
  obtain ⟨hinserted, -, -⟩ := generated_keys_fresh_iff almost hserial [[]] false
  obtain ⟨prepared, rows, hprepared, hrows, -, hkeys⟩ := hinserted _ _ hok
  obtain rfl : [[("id", .null)]] = prepared := Except.ok.inj hprepared
  obtain rfl : [person (Int64.maxValue - 1)] = rows := Except.ok.inj hrows
  rw [hgenerations] at hkeys
  obtain ⟨-, hfresh, -⟩ := hkeys _ List.mem_cons_self
  obtain ⟨-, hstops, -⟩ := generated_keys_fresh_iff almost hserial [[], []] false
  have hmax : Int64.maxValue ∈ integerKeys "id" [person (Int64.maxValue - 1), person Int64.maxValue] :=
    mem_integerKeys.mpr ⟨person Int64.maxValue, List.mem_cons_of_mem _ List.mem_cons_self, rfl⟩
  refine ⟨⟨_, hok⟩, hfresh, hstops.mpr ⟨_, _, rfl, rfl, ?_⟩⟩
  exact ⟨[[("id", .null)]], [("id", .null)], [], _, some Int64.maxValue, rfl, rfl, rfl, hmax⟩

/-- Beside the largest key an insert that leaves the key out is answered with no error that a caller is told: the
program stops. -/
theorem largest_key_stops :
    (twoPeople.withTable "people" [person Int64.maxValue]).insert people [[]] false = .error .overflow ∧
      Fault.overflow.kind? = none :=
  ⟨rfl, rfl⟩

end Store

end RecordQuery
