import Mathlib.Data.List.Perm.Subperm
import RecordQuery.Proofs.Store.Run
import RecordQuery.Statement.Insert
set_option autoImplicit false

/-!
# Statement: which inserts generate a key

A store looks at every record of a batch for its serial key, an INSERT at the columns of the whole batch.
A store generates a key exactly when some record has none or null (`insert_generates`), an INSERT exactly
when the records leave the column out (`generatedKey_isSome`).  The two differ on a record that gives its
key as null (`null_key_disagrees`), and on nothing else.
-/

namespace RecordQuery

/-! ## In a store -/

theorem Model.fieldType?_of_serialKey? {m : Model} {key : String} (h : m.serialKey? = some key) :
    ∃ signed width, m.fieldType? key = some (.integer signed width true) := by
  obtain ⟨key', -, h⟩ := Option.bind_eq_some_iff.mp h
  split at h
  · rename_i signed width htype
    cases h
    exact ⟨signed, width, htype⟩
  · cases h

namespace Store

variable {m : Model} {key : String}

/-- Nothing but null is null as an integer. -/
theorem isNull_of_coerce {signed serial : Bool} {width : IntWidth}
    (htype : m.fieldType? key = some (.integer signed width serial)) {v : Value} {pair : String × Value}
    (h : coerce m key v = .ok pair) : pair.2.isNull = v.isNull := by
  rw [coerce, Model.findField?_of_fieldType? htype] at h
  obtain ⟨w, hw, h⟩ := Outcome.bind_eq_ok.mp h
  cases h
  unfold DataType.decode at hw
  split at hw
  · rename_i hnull
    cases hw
    exact hnull.symm
  · rename_i hnull
    obtain ⟨n, -, hw⟩ := Outcome.bind_eq_ok.mp hw
    cases hw
    exact (Bool.eq_false_iff.mpr hnull).symm

/-- The key of a record that is prepared is null where the record gives null or nothing. -/
theorem isNull_of_coerced {signed serial : Bool} {width : IntWidth}
    (htype : m.fieldType? key = some (.integer signed width serial)) {fields start row : Record}
    (h : fields.foldlM (fun row field => do
      let pair ← coerce m field.1 field.2
      return Entries.insert row pair.1 pair.2) start = .ok row) :
    (row.keyValue key).isNull = ((Entries.find? (Entries.ofPairs fields) key).getD (start.keyValue key)).isNull := by
  induction fields generalizing start with
  | nil =>
    cases h
    rfl
  | cons field rest ih =>
    rw [List.foldlM_cons] at h
    obtain ⟨next, hnext, h⟩ := Outcome.bind_eq_ok.mp h
    obtain ⟨pair, hpair, hnext⟩ := Outcome.bind_eq_ok.mp hnext
    cases hnext
    rw [ih h, Entries.find?_ofPairs_cons, keyValue_insert, coerce_name hpair]
    cases Entries.find? (Entries.ofPairs rest) key with
    | some v => rfl
    | none =>
      rw [Option.none_or]
      split
      · rename_i hname
        rw [hname] at hpair
        exact isNull_of_coerce htype hpair
      · rfl

theorem keyValue_blankRecord (m : Model) (key : String) : m.blankRecord.keyValue key = .null := by
  rw [Record.keyValue]
  cases hv : Entries.find? m.blankRecord key with
  | none => rfl
  | some v =>
    obtain ⟨f, -, hf⟩ := List.mem_map.mp (Entries.mem_of_find?_ofPairs hv)
    cases hf
    rfl

theorem isNull_prepare {signed serial : Bool} {width : IntWidth}
    (htype : m.fieldType? key = some (.integer signed width serial)) {r row : Record}
    (h : prepare m r = .ok row) :
    (row.keyValue key).isNull = (Record.keyValue key (Entries.ofPairs r)).isNull := by
  rw [isNull_of_coerced htype h, keyValue_blankRecord]
  rfl

/-- A row is given a key exactly when it has none. -/
theorem fillKey_isSome (hserial : m.serialKey? = some key) {rows : List Record} {row filled : Record}
    {generated : Option Int64} (h : fillKey m rows row = .ok (filled, generated)) :
    generated.isSome = (row.keyValue key).isNull := by
  rw [fillKey, hserial] at h
  simp only at h
  split at h
  · rename_i hnull
    obtain ⟨n, -, h⟩ := Outcome.bind_eq_ok.mp h
    cases h
    exact hnull.symm
  · rename_i hnull
    cases h
    exact (Bool.eq_false_iff.mpr hnull).symm

/-- Prepared rows are given a key where one of them has none. -/
theorem insertRows_isSome (hserial : m.serialKey? = some key) {replace : Bool}
    {prepared rows rows' : List Record} {generated last : Option Int64}
    (h : insertRows m replace prepared generated rows = .ok (rows', last)) :
    last.isSome = (prepared.any (fun row => (row.keyValue key).isNull) || generated.isSome) := by
  induction prepared generalizing rows generated with
  | nil =>
    cases h
    rfl
  | cons row rest ih =>
    rw [insertRows] at h
    obtain ⟨⟨mid, filled⟩, hmid, h⟩ := Outcome.bind_eq_ok.mp h
    obtain ⟨_, hfill, -⟩ := insertRow_cases hmid
    have hfilled : filled.isSome = (row.keyValue key).isNull := fillKey_isSome hserial hfill
    rw [ih h, Option.isSome_or, hfilled, List.any_cons, ← Bool.or_assoc,
      Bool.or_comm (row.keyValue key).isNull]

/-- A store generates a key exactly when some record has none or null. -/
theorem insert_generates {st st' : Store} {owner : Source} {records : List Record} {replace : Bool}
    {generated : Option Int64} (hserial : owner.model.serialKey? = some key)
    (hsorted : ∀ r ∈ records, Entries.Sorted r)
    (h : st.insert owner records replace = .ok (st', generated)) :
    generated.isSome = records.any fun r => (r.keyValue key).isNull := by
  obtain ⟨signed, width, htype⟩ := Model.fieldType?_of_serialKey? hserial
  obtain ⟨prepared, rows, rows', hprepared, -, hrows', -⟩ := insert_eq_ok.mp h
  have hnulls : prepared.map (fun row => (row.keyValue key).isNull) =
      records.map fun r => (Record.keyValue key (Entries.ofPairs r)).isNull :=
    Outcome.map_of_mapM (fun _ _ => isNull_prepare htype) hprepared
  have hgiven : (records.map fun r => (Record.keyValue key (Entries.ofPairs r)).isNull) =
      records.map fun r => (r.keyValue key).isNull :=
    List.map_congr_left fun r hr => by rw [(hsorted r hr).ofPairs_eq]
  have hany := congrArg (List.any · id) (hnulls.trans hgiven)
  simp only [List.any_map] at hany
  rw [insertRows_isSome hserial hrows', Option.isSome_none, Bool.or_false]
  exact hany

end Store

/-! ## In a statement -/

namespace Target

/-- Records that set the same fields as the first one have a field exactly when that has it. -/
theorem contains_of_sameFields {first : Record} {records : List Record} (hfirst : Entries.Sorted first)
    (h : sameFields (Entries.names first) records = true) {r : Record} (hr : r ∈ records)
    (hsorted : Entries.Sorted r) (name : String) :
    Entries.contains r name = (Entries.names first).contains name := by
  obtain ⟨hlength, hall⟩ := Bool.and_eq_true_iff.mp (List.all_eq_true.mp h r hr)
  have hsubset : Entries.names first ⊆ Entries.names r :=
    fun c hc => (hsorted.contains_iff c).mp (List.all_eq_true.mp hall c hc)
  have hlength : (Entries.names r).length ≤ (Entries.names first).length := by
    rw [Entries.names, List.length_map]
    exact Nat.le_of_eq (beq_iff_eq.mp hlength)
  have hperm : (Entries.names first).Perm (Entries.names r) :=
    (List.subperm_of_subset hfirst.nodup_names hsubset).perm_of_length_le hlength
  rw [Bool.eq_iff_iff, hsorted.contains_iff, List.contains_iff_mem, hperm.mem_iff]

/-- An INSERT generates the key exactly when its columns leave it out. -/
theorem generatedKey_isSome {t : Target} {m : Model} {key : String} (hserial : m.serialKey? = some key)
    (columns : List String) : (t.generatedKey m columns).isSome = !columns.contains key := by
  rw [generatedKey, hserial, Option.bind_some]
  cases columns.contains key <;> rfl

/-- A successful INSERT takes its columns from the first record, and all records set them. -/
theorem insert_eq_ok {t : Target} {source : Source} {records : List Record} {replace : Bool}
    {statement : InsertStatement} (h : t.insert source records replace = .ok statement) :
    ∃ first rest, records = first :: rest ∧ sameFields (Entries.names first) records = true ∧
      statement.key = t.generatedKey source.model (Entries.names first) := by
  unfold insert at h
  simp only at h
  split at h
  · cases h
  · rename_i first rest
    split at h
    · cases h
    · rename_i hsame
      obtain ⟨verb, -, h⟩ := Outcome.bind_eq_ok.mp h
      obtain ⟨rows, -, h⟩ := Outcome.bind_eq_ok.mp h
      obtain ⟨conflict, -, h⟩ := Outcome.bind_eq_ok.mp h
      cases h
      exact ⟨first, rest, rfl, by simpa using hsame, rfl⟩

end Target

/-- A store and an INSERT of the same records agree on whether a key is generated exactly when no record gives
its key as null. -/
theorem generated_keys_agree_iff {st st' : Store} {owner : Source} {key : String} {records : List Record}
    {replace replace' : Bool} {generated : Option Int64} {t : Target} {statement : InsertStatement}
    (hserial : owner.model.serialKey? = some key) (hsorted : ∀ r ∈ records, Entries.Sorted r)
    (hstore : st.insert owner records replace = .ok (st', generated))
    (hstatement : t.insert owner records replace' = .ok statement) :
    (generated.isSome = true ↔ statement.key.isSome = true) ↔
      ∀ r ∈ records, Entries.find? r key ≠ some .null := by
  obtain ⟨first, rest, hrecords, hsame, hkey⟩ := Target.insert_eq_ok hstatement
  have hfirst : first ∈ records := hrecords ▸ List.mem_cons_self
  have hfield : ∀ r ∈ records, (Entries.find? r key).isSome = (Entries.names first).contains key :=
    fun r hr => Target.contains_of_sameFields (hsorted first hfirst) hsame hr (hsorted r hr) key
  rw [Store.insert_generates hserial hsorted hstore, hkey, Target.generatedKey_isSome hserial,
    List.any_eq_true]
  simp only [Value.isNull_iff]
  cases hcolumn : (Entries.names first).contains key with
  | false =>
    -- no record has the key: both sides generate one
    have hnone : ∀ r ∈ records, Entries.find? r key = none := by
      intro r hr
      have hr := hfield r hr
      rw [hcolumn, Option.isSome_eq_false_iff, Option.isNone_iff_eq_none] at hr
      exact hr
    have hgenerated : ∃ r ∈ records, r.keyValue key = .null :=
      ⟨first, hfirst, by rw [Record.keyValue, hnone first hfirst, Option.getD_none]⟩
    refine iff_of_true ⟨fun _ => rfl, fun _ => hgenerated⟩ ?_
    intro r hr
    rw [hnone r hr]
    exact (Option.some_ne_none _).symm
  | true =>
    -- every record has the key: the statement generates none
    have hvalue : ∀ r ∈ records, r.keyValue key = .null ↔ Entries.find? r key = some .null := by
      intro r hr
      obtain ⟨v, hv⟩ := Option.isSome_iff_exists.mp ((hfield r hr).trans hcolumn)
      rw [Record.keyValue, hv, Option.getD_some, Option.some_inj]
    constructor
    · intro hagree r hr hnull
      exact Bool.noConfusion (hagree.mp ⟨r, hr, (hvalue r hr).mpr hnull⟩)
    · intro hnull
      refine iff_of_false ?_ Bool.noConfusion
      rintro ⟨r, hr, hkey⟩
      exact hnull r hr ((hvalue r hr).mp hkey)

/-- A source of named records under a generated key. -/
def members : Source := ⟨0, ⟨"members", [("id", .serial), ("name", .plainText)], some "id"⟩⟩

/-- A member without a key. -/
def member (name : String) : Record := [("name", .string name)]

/-- Two members without keys: the store generates both, and the INSERT reads a key back. -/
theorem generated_keys_agree_omitted :
    let records := [member "a", member "b"]
    ∃ st' statement,
      ((Store.empty 0 []).attach members.model []).insert members records false = .ok (st', some 2) ∧
      (Target.ofDialect .postgres).insert members records false = .ok statement ∧
      statement.key = some ⟨"id", .returning⟩ ∧
      ((some (2 : Int64)).isSome = true ↔ statement.key.isSome = true) := by
  intro records
  have hrecord : ∀ r ∈ records, Entries.Sorted r ∧ Entries.find? r "id" = none := by
    intro r hr
    rcases List.mem_pair.mp hr with rfl | rfl <;> exact ⟨List.pairwise_singleton _ _, rfl⟩
  have hstatement : (Target.ofDialect .postgres).insert members records false =
      .ok ⟨"INSERT INTO \"members\" (\"name\") VALUES ('a'), ('b') RETURNING \"id\"",
        some ⟨"id", .returning⟩⟩ := by rfl
  have hstore : ((Store.empty 0 []).attach members.model []).insert members records false =
      .ok (((Store.empty 0 []).attach members.model []).withTable "members"
        [("id", .int 1) :: member "a", ("id", .int 2) :: member "b"], some 2) := by rfl
  refine ⟨_, _, hstore, hstatement, rfl, ?_⟩
  have hserial : members.model.serialKey? = some "id" := rfl
  refine (generated_keys_agree_iff hserial (fun r hr => (hrecord r hr).1) hstore hstatement).mpr ?_
  intro r hr
  rw [(hrecord r hr).2]
  exact (Option.some_ne_none _).symm

/-- A member that gives its key as null: the store generates one, and the INSERT does not read it back. -/
theorem null_key_disagrees :
    let records := [("id", .null) :: member "a"]
    ∃ st' statement, members.model.serialKey? = some "id" ∧
      ((Store.empty 0 []).attach members.model []).insert members records false = .ok (st', some 1) ∧
      (Target.ofDialect .postgres).insert members records false = .ok statement ∧ statement.key = none :=
  ⟨_, _, rfl, rfl, rfl, rfl⟩

end RecordQuery
