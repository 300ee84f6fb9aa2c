import RecordQuery.Proofs.Store.Selected
set_option autoImplicit false

/-!
# Store: runs of operations

An operation inserts into the table of a source, updates it or deletes from it, and a run is a sequence of
successful operations.  `Operation.Yields` says what each of them makes of the rows (`apply_eq_ok`), and what
all of them keep of the rows is kept by a run (`run_keeps`).

What one operation does to the keys of a table is `apply_apart_iff`; by induction, the keys stay apart
throughout a run exactly when every update of it keeps them apart (`keysApart_run_iff`).  Inserts and deletes
always do.  An update that does not set the key does too (`keepsKeysApart_of_not_set`), but one that sets it
may give two rows the same key (`update_repeats_key`).
-/

namespace RecordQuery.Store

/-- A call that changes the table of a source. -/
inductive Operation where
  | insert (records : List Record) (replace : Bool)
  | update (u : UpdateSelection)
  | delete (d : DeleteSelection)

namespace Operation

/-- The store after an operation on the table of a source. -/
def apply (owner : Source) (st : Store) : Operation → Outcome Store
  | .insert records replace => do return (← st.insert owner records replace).1
  | .update u => do return (← st.update owner u).1
  | .delete d => do return (← st.delete owner d).1

/-- The operation gives no row a key that another row has or gets.  Inserts check that, and deletes give no
keys. -/
def KeepsKeysApart (key : String) (owner : Source) (st : Store) : Operation → Prop
  | .insert _ _ => True
  | .update u => ∀ rows indices changes, st.table owner.name = .ok rows →
      st.picked owner u.shape = .ok indices → st.changes owner u rows indices = .ok changes →
      Store.KeepsKeysApart key rows changes
  | .delete _ => True

end Operation

/-- The store after some operations, one after the other. -/
def run (owner : Source) : Store → List Operation → Outcome Store
  | st, [] => .ok st
  | st, op :: rest => do run owner (← op.apply owner st) rest

theorem table_withTable_self (st : Store) (name : String) (rows : List Record) :
    (st.withTable name rows).table name = .ok rows := by
  rw [table_withTable, if_pos rfl]

/-! ## What an operation does to the rows -/

/-- What an operation makes of the rows of its table. -/
def Operation.Yields (owner : Source) (st : Store) (rows rows' : List Record) : Operation → Prop
  | .insert records replace => ∃ prepared last, records.mapM (prepare owner.model) = .ok prepared ∧
      insertRows owner.model replace prepared none rows = .ok (rows', last)
  | .update u => ∃ indices changes, st.picked owner u.shape = .ok indices ∧
      st.changes owner u rows indices = .ok changes ∧ rows' = applyChanges rows changes
  | .delete d => ∃ indices, st.picked owner d.shape = .ok indices ∧ rows' = without indices 0 rows

/-- A successful operation puts what it makes of the rows in their place. -/
theorem apply_eq_ok {owner : Source} {st st' : Store} {op : Operation} {rows : List Record}
    (htable : st.table owner.name = .ok rows) (h : op.apply owner st = .ok st') :
    ∃ rows', st' = st.withTable owner.name rows' ∧ op.Yields owner st rows rows' := by
  cases op with
  | insert records replace =>
    obtain ⟨⟨st₁, generated⟩, hinsert, h⟩ := Outcome.bind_eq_ok.mp h
    cases h
    obtain ⟨prepared, rows₀, rows', hprepared, hrows₀, hrows', rfl⟩ := insert_eq_ok.mp hinsert
    cases htable.symm.trans hrows₀
    exact ⟨rows', rfl, prepared, _, hprepared, hrows'⟩
  | update u =>
    obtain ⟨⟨st₁, count⟩, hupdate, h⟩ := Outcome.bind_eq_ok.mp h
    cases h
    obtain ⟨rows₀, indices, changes, -, hrows₀, hindices, hchanges, rfl, -⟩ := update_eq_ok hupdate
    cases htable.symm.trans hrows₀
    exact ⟨_, rfl, indices, changes, hindices, hchanges, rfl⟩
  | delete d =>
    obtain ⟨⟨st₁, count⟩, hdelete, h⟩ := Outcome.bind_eq_ok.mp h
    cases h
    obtain ⟨rows₀, indices, -, hrows₀, hindices, rfl, -⟩ := delete_eq_ok hdelete
    cases htable.symm.trans hrows₀
    exact ⟨_, rfl, indices, hindices, rfl⟩

/-- What every operation keeps of the rows of a table is kept by a run. -/
theorem run_keeps {owner : Source} {P : List Record → Prop}
    (hstep : ∀ {st op rows rows'}, st.table owner.name = .ok rows → P rows →
      Operation.Yields owner st rows rows' op → P rows')
    {ops : List Operation} {st final : Store} {rows : List Record}
    (htable : st.table owner.name = .ok rows) (hrows : P rows) (hrun : run owner st ops = .ok final) :
    ∃ rows', final.table owner.name = .ok rows' ∧ P rows' := by
  induction ops generalizing st rows with
  | nil =>
    cases hrun
    exact ⟨rows, htable, hrows⟩
  | cons op rest ih =>
    obtain ⟨mid, hmid, hrest⟩ := Outcome.bind_eq_ok.mp hrun
    obtain ⟨rows₁, rfl, hyields⟩ := apply_eq_ok htable hmid
    exact ih (table_withTable_self _ _ _) (hstep htable hrows hyields) hrest

/-! ## Keys -/

section

variable {owner : Source} {key : String} {signed serial : Bool} {width : IntWidth}

/-- The changes of an update assign the key to all rows that they touch or to none. -/
theorem changes_eq_ok (htype : owner.model.fieldType? key = some (.integer signed width serial))
    {st : Store} {u : UpdateSelection} {rows : List Record} {indices : List Nat}
    {changes : List (Nat × List (String × Value))} (h : st.changes owner u rows indices = .ok changes) :
    changes.map Prod.fst = indices ∧
      ∀ c ∈ changes, (∀ v, assignedKey? key c.2 = some v → v.IsKey) ∧
        (assignedKey? key c.2 = none ↔ key ∉ u.sets.map Prod.fst) := by
  obtain ⟨hindices, hassigned⟩ := changes_of_mem h
  refine ⟨hindices, fun c hc => ⟨fun v => isKey_of_assigned htype (hassigned c hc), ?_⟩⟩
  rw [← assignments_names (hassigned c hc)]
  exact Entries.find?_ofPairs_eq_none

/-- An update leaves integers and nulls under the key, and it leaves them apart exactly when its changes do. -/
theorem update_apart_iff (htype : owner.model.fieldType? key = some (.integer signed width serial))
    {st : Store} {u : UpdateSelection} {rows : List Record} {indices : List Nat}
    {changes : List (Nat × List (String × Value))} (htable : st.table owner.name = .ok rows)
    (hrows : WellKeyed (keys key rows)) (hindices : st.picked owner u.shape = .ok indices)
    (hchanges : st.changes owner u rows indices = .ok changes) :
    (∀ v ∈ keys key (applyChanges rows changes), v.IsKey) ∧
      (Apart (keys key (applyChanges rows changes)) ↔ (Operation.update u).KeepsKeysApart key owner st) := by
  obtain ⟨hnodup, hrange⟩ := picked_nodup htable hindices
  obtain ⟨rfl, hassigned⟩ := changes_eq_ok htype hchanges
  obtain ⟨hkeys, hiff⟩ := apart_applyChanges_iff hrows hnodup
    (fun c hc => hrange c.1 (List.mem_map_of_mem hc)) (fun c hc => (hassigned c hc).1)
    (fun c hc c' hc' hnone => (hassigned c' hc').2.mpr ((hassigned c hc).2.mp hnone))
  refine ⟨hkeys, ?_, ?_⟩
  · -- the rows, the picked indices and the changes are those of this update
    intro hapart rows₁ indices₁ changes₁ hrows₁ hindices₁ hchanges₁
    rw [htable] at hrows₁
    cases hrows₁
    rw [hindices] at hindices₁
    cases hindices₁
    rw [hchanges] at hchanges₁
    cases hchanges₁
    exact hiff.mp hapart
  · intro hkeeps
    exact hiff.mpr (hkeeps _ _ _ htable hindices hchanges)

/-- An operation on well keyed rows leaves integers and nulls under the key, and it leaves them apart exactly
when it keeps keys apart. -/
theorem apply_apart_iff (hkey : owner.model.primaryKey = some key)
    (htype : owner.model.fieldType? key = some (.integer signed width serial)) {st st' : Store}
    {op : Operation} {rows : List Record} (htable : st.table owner.name = .ok rows)
    (hrows : WellKeyed (keys key rows)) (h : op.apply owner st = .ok st') :
    ∃ rows', st'.table owner.name = .ok rows' ∧ (∀ v ∈ keys key rows', v.IsKey) ∧
      (Apart (keys key rows') ↔ op.KeepsKeysApart key owner st) := by
  obtain ⟨rows', rfl, hyields⟩ := apply_eq_ok htable h
  refine ⟨rows', table_withTable_self _ _ _, ?_⟩
  cases op with
  | insert records replace =>
    obtain ⟨prepared, last, hprepared, hinserted⟩ := hyields
    have hkeys : ∀ row ∈ prepared, (row.keyValue key).IsKey :=
      Outcome.forall_of_mapM (fun _ _ hrow => (isStored_prepare hrow).isKey htype) hprepared
    have hwell := insertRows_wellKeyed hkey hrows hkeys hinserted
    exact ⟨hwell.keys, fun _ => trivial, fun _ => hwell.apart⟩
  | update u =>
    obtain ⟨indices, changes, hindices, hchanges, rfl⟩ := hyields
    exact update_apart_iff htype htable hrows hindices hchanges
  | delete d =>
    obtain ⟨indices, -, rfl⟩ := hyields
    have hwell := hrows.sublist ((without_sublist indices 0 rows).map (Record.keyValue key))
    exact ⟨hwell.keys, fun _ => trivial, fun _ => hwell.apart⟩

/-- An update that does not set the key keeps keys apart. -/
theorem keepsKeysApart_of_not_set (htype : owner.model.fieldType? key = some (.integer signed width serial))
    (st : Store) {u : UpdateSelection} (h : key ∉ u.sets.map Prod.fst) :
    (Operation.update u).KeepsKeysApart key owner st := by
  intro rows indices changes _ _ hchanges
  obtain ⟨-, hassigned⟩ := changes_eq_ok htype hchanges
  have hnone : ∀ c ∈ changes, assignedKey? key c.2 = none := fun c hc => (hassigned c hc).2.mpr h
  refine ⟨?_, ?_⟩
  · intro c hc c' _ _ v w hv
    rw [hnone c hc] at hv
    cases hv
  · intro c hc v hv
    rw [hnone c hc] at hv
    cases hv

/-- A run goes on from the state after its first operation. -/
theorem run_cons_iff {st st₁ mid : Store} {op : Operation} {done : List Operation}
    (h : op.apply owner st = .ok st₁) : run owner st (op :: done) = .ok mid ↔ run owner st₁ done = .ok mid := by
  rw [run, h, Outcome.ok_bind]

/-- Throughout a run of successful operations the keys of a table stay apart exactly when every update of the
run gives the rows that it touches keys that differ from one another and from those of the other rows. -/
theorem keysApart_run_iff (hkey : owner.model.primaryKey = some key)
    (htype : owner.model.fieldType? key = some (.integer signed width serial)) {st final : Store}
    {ops : List Operation} {rows : List Record} (htable : st.table owner.name = .ok rows)
    (hrows : WellKeyed (keys key rows)) (hrun : run owner st ops = .ok final) :
    (∀ done mid rows', done <+: ops → run owner st done = .ok mid → mid.table owner.name = .ok rows' →
        Apart (keys key rows')) ↔
      ∀ done op mid, done ++ [op] <+: ops → run owner st done = .ok mid →
        op.KeepsKeysApart key owner mid := by
  induction ops generalizing st rows with
  | nil =>
    constructor
    · intro _ done op mid hprefix
      have hnil := List.prefix_nil.mp hprefix
      simp at hnil
    · intro _ done mid rows' hprefix hmid hrows'
      rw [List.prefix_nil.mp hprefix] at hmid
      cases hmid
      rw [htable] at hrows'
      cases hrows'
      exact hrows.apart
  | cons op rest ih =>
    obtain ⟨st₁, hst₁, hrest⟩ := Outcome.bind_eq_ok.mp hrun
    obtain ⟨rows₁, htable₁, hkeys₁, hstep⟩ := apply_apart_iff hkey htype htable hrows hst₁
    constructor
    · intro hall done op' mid hprefix hmid
      have hapart₁ : Apart (keys key rows₁) :=
        hall [op] st₁ rows₁ (by simp) ((run_cons_iff hst₁).mpr rfl) htable₁
      cases done with
      | nil =>
        obtain ⟨rfl, -⟩ := List.cons_prefix_cons.mp hprefix
        cases hmid
        exact hstep.mp hapart₁
      | cons first done =>
        obtain ⟨rfl, hrestPrefix⟩ := List.cons_prefix_cons.mp hprefix
        refine (ih htable₁ ⟨hkeys₁, hapart₁⟩ hrest).mp ?_ done op' mid hrestPrefix ((run_cons_iff hst₁).mp hmid)
        intro done' mid' rows' hprefix' hmid' hrows'
        exact hall (first :: done') mid' rows' (List.cons_prefix_cons.mpr ⟨rfl, hprefix'⟩)
          ((run_cons_iff hst₁).mpr hmid') hrows'
    · intro hall done mid rows' hprefix hmid hrows'
      have hkeeps : op.KeepsKeysApart key owner st := hall [] op st (by simp) rfl
      cases done with
      | nil =>
        cases hmid
        rw [htable] at hrows'
        cases hrows'
        exact hrows.apart
      | cons first done =>
        obtain ⟨rfl, hrestPrefix⟩ := List.cons_prefix_cons.mp hprefix
        refine (ih htable₁ ⟨hkeys₁, hstep.mpr hkeeps⟩ hrest).mpr ?_ done mid rows' hrestPrefix
          ((run_cons_iff hst₁).mp hmid) hrows'
        intro done' op' mid' hprefix' hmid'
        exact hall (first :: done') op' mid' (List.cons_prefix_cons.mpr ⟨rfl, hprefix'⟩) ((run_cons_iff hst₁).mpr hmid')

end

/-- A source of records under a generated integer key. -/
def people : Source := ⟨0, ⟨"people", [("id", .serial)], some "id"⟩⟩

/-- Two records, under the keys 1 and 2. -/
def twoPeople : Store := (empty 0 []).attach people.model [[("id", .int 1)], [("id", .int 2)]]

theorem twoPeople_wellKeyed : WellKeyed (keys "id" [[("id", .int 1)], [("id", .int 2)]]) := by
  refine ⟨?_, List.pairwise_pair.mpr rfl⟩
  intro v hv
  simp only [keys, List.map_cons, List.map_nil, List.mem_cons, List.not_mem_nil, or_false] at hv
  rcases hv with rfl | rfl
  · exact .inr ⟨1, rfl⟩
  · exact .inr ⟨2, rfl⟩

/-- The update of some records of `people` that sets their key. -/
def renumber (limit : Option Nat) (n : Int64) : UpdateSelection :=
  ⟨{ Shape.ofSource people with limit := limit }, [("id", .value (.int n))]⟩

/-- A record is inserted, the first one renumbered with a key that is free and then deleted, and another one is
replaced. -/
def mixedRun : List Operation :=
  [.insert [[]] false, .update (renumber (some 1) 7), .delete ⟨{ Shape.ofSource people with limit := some 1 }⟩,
    .insert [[("id", .int 3)]] true]

/-- The keys are apart after every operation of the run. -/
theorem keysApart_mixedRun :
    ∃ final, run people twoPeople mixedRun = .ok final ∧
      final.table people.name = .ok [[("id", .int 2)], [("id", .int 3)]] ∧
      ∀ done mid rows', done <+: mixedRun → run people twoPeople done = .ok mid →
        mid.table people.name = .ok rows' → Apart (keys "id" rows') := by
  have hrun : run people twoPeople mixedRun =
      .ok (twoPeople.withTable "people" [[("id", .int 2)], [("id", .int 3)]]) := rfl
  refine ⟨_, hrun, rfl, (keysApart_run_iff rfl rfl rfl twoPeople_wellKeyed hrun).mpr ?_⟩
  intro done op mid hprefix hmid
  cases op with
  | insert records replace => trivial
  | delete d => trivial
  | update u =>
    -- the one update comes second, when the keys are 1, 2 and 3
    have hdone : done = [.insert [[]] false] ∧ u = renumber (some 1) 7 := by
      obtain ⟨rest, hsplit⟩ := hprefix
      have hop : mixedRun[done.length]? = some (.update u) := by simp [← hsplit]
      have htake : done = mixedRun.take done.length := by simp [← hsplit]
      generalize done.length = k at hop htake
      match k with
      | 0 => cases hop
      | 1 =>
        cases hop
        exact ⟨htake, rfl⟩
      | 2 => cases hop
      | 3 => cases hop
      | k + 4 => cases hop
    obtain ⟨rfl, rfl⟩ := hdone
    cases hmid
    intro rows indices changes hrows hindices hchanges
    cases hrows
    cases hindices
    cases hchanges
    refine ⟨?_, ?_⟩
    · intro c hc c' hc' hne
      rw [List.mem_singleton.mp hc, List.mem_singleton.mp hc'] at hne
      exact absurd rfl hne
    · intro c hc v hv i r hr hi
      rw [List.mem_singleton.mp hc] at hv
      cases hv
      match i with
      | 0 => exact absurd rfl (hi _ List.mem_cons_self)
      | 1 =>
        cases hr
        rfl
      | 2 =>
        cases hr
        rfl
      | i + 3 => cases hr

/-- Renumbering all records succeeds, and both have the same key then. -/
theorem update_repeats_key :
    ∃ rows final rows', twoPeople.table people.name = .ok rows ∧ WellKeyed (keys "id" rows) ∧
      run people twoPeople [.update (renumber none 5)] = .ok final ∧
      final.table people.name = .ok rows' ∧ ¬ Apart (keys "id" rows') := by
  refine ⟨_, _, _, rfl, twoPeople_wellKeyed, rfl, rfl, ?_⟩
  intro hapart
  have hne := (List.pairwise_cons.mp hapart).1 (.int 5) List.mem_cons_self
  cases hne

end RecordQuery.Store
