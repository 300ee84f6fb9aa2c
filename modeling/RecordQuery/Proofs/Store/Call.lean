import RecordQuery.Proofs.Store.Run
set_option autoImplicit false

/-!
# Store: calls that write in place

An insert or update of a `Store` answers with a store or fails, so a failure cannot show a half-written
table.  Here both are calls that write into the tables of one store as they go: `Call.onTable` hands the rows
of a table to a computation and takes back what it leaves, whether it failed or not.  An insert stages its
rows beside the table; an update fails, if it does, before its first row is written.  So a call leaves the
store that `Store.insert` and `Store.update` answer with, and where these fail it leaves every table as it
was (`Call.insert_ok`, `Call.insert_error`, `Call.on_update`).
-/

namespace RecordQuery.Store

/-- A call on a store answers or fails, and leaves a store in either case. -/
abbrev Call (α : Type) := ExceptT Fault (StateM Store) α

namespace Call

variable {α β : Type}

/-- What a call answers on a store, and the store that it leaves. -/
def on (call : Call α) (st : Store) : Outcome α × Store := call.run.run st

/-- Let a computation work on the rows of a table; what it leaves of them is kept even if it fails. -/
def onTable (name : String) (work : ExceptT Fault (StateM (List Record)) α) : Call α := do
  let rows ← (← get).table name
  let (answer, rows) := work.run.run rows
  modify (·.withTable name rows)
  answer

/-- Write the changes of some rows in their places. -/
def writeChanges (changes : List (Nat × List (String × Value))) : ExceptT Fault (StateM (List Record)) Unit :=
  changes.forM fun change => modify fun rows => rows.modify change.1 fun r => Entries.insertAll r change.2

/-- Put prepared rows among the rows: they are staged beside them and replace them at the end. -/
def stageRows (m : Model) (replace : Bool) (prepared : List Record) :
    ExceptT Fault (StateM (List Record)) (Option Int64) := do
  let (staged, key) ← insertRows m replace prepared none (← get)
  set staged
  return key

/-- Insert records. -/
def insert (owner : Source) (records : List Record) (replace : Bool) : Call (Option Int64) := do
  let prepared ← (records.mapM (prepare owner.model) : Outcome _)
  onTable owner.name (stageRows owner.model replace prepared)

/-- Carry out an update: all changes are computed before the first row is written. -/
def update (owner : Source) (u : UpdateSelection) : Call Nat := do
  owner.checkOwner u.shape.source
  if u.sets.isEmpty then throw (.invalid .nothingToUpdate)
  else do
    let st ← get
    let indices ← st.picked owner u.shape
    let rows ← st.table owner.name
    let changes ← st.changes owner u rows indices
    onTable owner.name do
      writeChanges changes
      return indices.length

/-! ## Steps of a call -/

theorem on_get_bind (next : Store → Call β) (st : Store) : ((get : Call Store) >>= next).on st = (next st).on st :=
  rfl

/-- A call goes on where a step answers, and ends where it fails. -/
theorem on_lift_bind (x : Outcome α) (next : α → Call β) (st : Store) :
    ((liftM x : Call α) >>= next).on st =
      match x with
      | .ok a => (next a).on st
      | .error fault => (.error fault, st) := by
  cases x <;> rfl

/-- Writing changes does not fail. -/
theorem writeChanges_run (changes : List (Nat × List (String × Value))) (a : α) (rows : List Record) :
    (do writeChanges changes; return a : ExceptT Fault (StateM (List Record)) α).run.run rows =
      (.ok a, applyChanges rows changes) := by
  induction changes generalizing rows with
  | nil => rfl
  | cons change rest ih => exact ih _

theorem on_onTable (name : String) (work : ExceptT Fault (StateM (List Record)) α) (st : Store) :
    (onTable name work).on st =
      match st.table name with
      | .ok rows => ((work.run.run rows).1, st.withTable name (work.run.run rows).2)
      | .error fault => (.error fault, st) := by
  rw [onTable, on_get_bind, on_lift_bind]
  cases st.table name <;> rfl

/-- Putting rows back that are there changes no table. -/
theorem table_withTable_same {st : Store} {name : String} {rows : List Record} (h : st.table name = .ok rows)
    (other : String) : (st.withTable name rows).table other = st.table other := by
  rw [table_withTable]
  split
  · rename_i hname
    rw [← hname, h]
  · rfl

/-! ## Insert -/

/-- Nothing is written where staging fails. -/
theorem stageRows_run (m : Model) (replace : Bool) (prepared rows : List Record) :
    (stageRows m replace prepared).run.run rows =
      match insertRows m replace prepared none rows with
      | .ok staged => (.ok staged.2, staged.1)
      | .error fault => (.error fault, rows) := by
  show (do
    let (staged, key) ← (liftM (insertRows m replace prepared none rows) :
      ExceptT Fault (StateM (List Record)) _)
    set staged
    return key : ExceptT Fault (StateM (List Record)) _).run.run rows = _
  cases insertRows m replace prepared none rows <;> rfl

/-- A call inserts what `Store.insert` inserts. -/
theorem insert_ok {st st' : Store} {owner : Source} {records : List Record} {replace : Bool}
    {key : Option Int64} (h : st.insert owner records replace = .ok (st', key)) :
    (insert owner records replace).on st = (.ok key, st') := by
  obtain ⟨prepared, rows, staged, hprepared, htable, hstaged, rfl⟩ := insert_eq_ok.mp h
  rw [insert, on_lift_bind, hprepared]
  simp only [on_onTable, htable, stageRows_run, hstaged]

/-- Where `Store.insert` fails, the call fails with the same fault and leaves every table as it was. -/
theorem insert_error {st : Store} {owner : Source} {records : List Record} {replace : Bool} {fault : Fault}
    (h : st.insert owner records replace = .error fault) :
    ∃ left, (insert owner records replace).on st = (.error fault, left) ∧
      ∀ name, left.table name = st.table name := by
  rw [insert, on_lift_bind]
  rw [Store.insert] at h
  cases hprepared : records.mapM (prepare owner.model) with
  | error fault₁ =>
    rw [hprepared] at h
    cases h
    exact ⟨st, rfl, fun _ => rfl⟩
  | ok prepared =>
    rw [hprepared, Outcome.ok_bind] at h
    simp only [on_onTable]
    cases htable : st.table owner.name with
    | error fault₁ =>
      rw [htable] at h
      cases h
      exact ⟨st, rfl, fun _ => rfl⟩
    | ok rows =>
      rw [htable, Outcome.ok_bind] at h
      simp only [stageRows_run]
      cases hstaged : insertRows owner.model replace prepared none rows with
      | error fault₁ =>
        rw [hstaged] at h
        cases h
        exact ⟨_, rfl, table_withTable_same htable⟩
      | ok staged =>
        rw [hstaged] at h
        cases h

/-! ## Update -/

/-- A call updates what `Store.update` updates, and nothing where that fails. -/
theorem on_update {st : Store} {owner : Source} {u : UpdateSelection} :
    (update owner u).on st =
      match st.update owner u with
      | .ok (left, n) => (.ok n, left)
      | .error fault => (.error fault, st) := by
  rw [update, Store.update, on_lift_bind]
  cases owner.checkOwner u.shape.source with
  | error fault => rfl
  | ok _ =>
    rw [Outcome.ok_bind]
    dsimp only
    split
    · rfl
    rw [on_get_bind, on_lift_bind]
    cases st.picked owner u.shape with
    | error fault => rfl
    | ok indices =>
      rw [Outcome.ok_bind]
      dsimp only
      rw [on_lift_bind]
      cases htable : st.table owner.name with
      | error fault => rfl
      | ok rows =>
        rw [Outcome.ok_bind]
        dsimp only
        rw [on_lift_bind]
        cases st.changes owner u rows indices with
        | error fault => rfl
        | ok changes =>
          dsimp only
          rw [on_onTable, htable]
          dsimp only
          rw [writeChanges_run]
          rfl

end Call

end RecordQuery.Store
