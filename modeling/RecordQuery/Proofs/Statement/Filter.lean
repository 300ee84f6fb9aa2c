import RecordQuery.Proofs.Condition.Emptiness
import RecordQuery.Statement.Mutation
set_option autoImplicit false

/-!
# Statement: the filter of an UPDATE or DELETE

A mutation is a head, which names the table and what is assigned, and a tail, which says which rows are
touched.  The tail carries the predicate of the selection as a WHERE clause whatever way the bounds are
written, so a mutation loses its filter exactly where the predicate is written as the empty text.
-/

namespace RecordQuery

namespace Target

variable (t : Target)

/-- What a DELETE starts with. -/
def deleteHead (s : Shape) : String :=
  match t.labelInFrom s with
  | some label => "DELETE " ++ t.dialect.quoteModel label ++ " FROM " ++ t.sourceSql s
  | none => "DELETE FROM " ++ t.sourceSql s

/-- What an UPDATE starts with. -/
def updateHead (s : Shape) (sets : String) : String :=
  match t.labelInFrom s with
  | some label => "UPDATE " ++ t.dialect.quoteModel label ++ " SET " ++ sets ++ " FROM " ++ t.sourceSql s
  | none => "UPDATE " ++ t.sourceSql s ++ " SET " ++ sets

/-- What picks the rows whose keys are selected, before the filter of that selection and after its bounds. -/
def subsetFrame (s : Shape) (key : String) : String × String :=
  let keySql := t.dialect.quoteField key
  (" WHERE " ++ keySql ++ " IN (SELECT " ++ keySql ++ " FROM (" ++
      ("SELECT " ++ keySql ++ " FROM " ++ t.sourceSql s),
    ") AS " ++ t.dialect.quoteModel "subset" ++ ")")

/-- What stands before and after the filter of a mutation. -/
def filterFrame (s : Shape) : Outcome (String × String) :=
  if !s.isBounded then
    if t.dialect.boundsMutations then (t.orderSql s.ordering).map ("", ·) else .ok ("", "")
  else if t.dialect.boundsMutations && s.offset == 0 then
    (t.orderSql s.ordering).map fun order => ("", order ++ t.boundsSql s 0)
  else
    match s.source.model.primaryKey with
    | some key => (t.orderSql s.ordering).map fun order =>
      ((t.subsetFrame s key).1, order ++ t.boundsSql s s.offset ++ (t.subsetFrame s key).2)
    | none => .error (.unsupported (.boundedWithoutKey s.source.name t.dialect))

variable {t} {s : Shape}

theorem delete_eq (d : DeleteSelection) :
    t.delete d = (do return t.deleteHead d.shape ++ (← t.mutationTail d.shape)) := by
  rw [delete, deleteHead]
  cases t.labelInFrom d.shape <;> rfl

theorem update_eq {u : UpdateSelection} (hsets : u.sets ≠ []) :
    t.update u = (do
      let sets ← u.sets.mapM (t.assignmentSql u.shape.source.model)
      return t.updateHead u.shape (Text.joined ", " sets) ++ (← t.mutationTail u.shape)) := by
  rw [update, if_neg (by simpa using hsets)]
  simp only [updateHead]
  cases t.labelInFrom u.shape <;> rfl

/-- The tail of a mutation is the filter in its frame. -/
theorem mutationTail_eq_ok {tail : String} (h : t.mutationTail s = .ok tail) :
    ∃ filter before after, t.whereSql s.predicate = .ok filter ∧ t.filterFrame s = .ok (before, after) ∧
      tail = before ++ filter ++ after := by
  unfold mutationTail at h
  unfold filterFrame
  split at h
  · rename_i hbounded
    obtain ⟨filter, hfilter, h⟩ := Outcome.bind_eq_ok.mp h
    rw [if_pos hbounded]
    split at h
    · rename_i hbounds
      obtain ⟨order, horder, h⟩ := Outcome.bind_eq_ok.mp h
      cases h
      rw [if_pos hbounds, horder]
      exact ⟨filter, "", order, hfilter, rfl, by rw [String.empty_append]⟩
    · rename_i hbounds
      cases h
      rw [if_neg hbounds]
      exact ⟨filter, "", "", hfilter, rfl, by rw [String.empty_append]⟩
  rename_i hbounded
  rw [if_neg hbounded]
  split at h
  · rename_i hbounds
    obtain ⟨filter, hfilter, h⟩ := Outcome.bind_eq_ok.mp h
    obtain ⟨order, horder, h⟩ := Outcome.bind_eq_ok.mp h
    cases h
    rw [if_pos hbounds, horder]
    exact ⟨filter, "", _, hfilter, rfl, by rw [String.empty_append, String.append_assoc]⟩
  rename_i hbounds
  rw [if_neg hbounds]
  cases hkey : s.source.model.primaryKey with
  | none =>
    rw [hkey] at h
    cases h
  | some key =>
    rw [hkey] at h
    obtain ⟨filter, hfilter, h⟩ := Outcome.bind_eq_ok.mp h
    obtain ⟨order, horder, h⟩ := Outcome.bind_eq_ok.mp h
    cases h
    rw [horder]
    refine ⟨filter, _, _, hfilter, rfl, ?_⟩
    simp only [subsetFrame, String.append_assoc]

/-- The WHERE clause is there where the predicate is written as some text. -/
theorem whereSql_eq_ok {p : Predicate} {filter : String} (h : t.whereSql p = .ok filter) :
    ∃ condition, p.sql t.dialect t.registry = .ok condition ∧
      (p.isWritten = true → condition ≠ "") ∧
      filter = if p.isWritten then " WHERE " ++ condition else "" := by
  obtain ⟨condition, hcondition, h⟩ := Outcome.bind_eq_ok.mp h
  cases h
  have hempty := Predicate.sql_eq_empty_iff hcondition
  refine ⟨condition, hcondition, ?_⟩
  cases hwritten : p.isWritten with
  | true =>
    have hne : condition ≠ "" := fun h => by simp [hempty.mp h] at hwritten
    exact ⟨fun _ => hne, if_neg hne⟩
  | false => exact ⟨nofun, if_pos (hempty.mpr hwritten)⟩

/-- A mutation is its head and its filter in the frame, and the filter is there where the predicate is
written. -/
def IsFiltered (t : Target) (s : Shape) (head statement : String) : Prop :=
  ∃ condition before after, s.predicate.sql t.dialect t.registry = .ok condition ∧
    t.filterFrame s = .ok (before, after) ∧ (s.predicate.isWritten = true → condition ≠ "") ∧
    statement = head ++ (before ++ (if s.predicate.isWritten then " WHERE " ++ condition else "") ++ after)

theorem isFiltered_of_tail {head tail : String} (h : t.mutationTail s = .ok tail) :
    t.IsFiltered s head (head ++ tail) := by
  obtain ⟨filter, before, after, hfilter, hframe, rfl⟩ := mutationTail_eq_ok h
  obtain ⟨condition, hcondition, hne, rfl⟩ := whereSql_eq_ok hfilter
  exact ⟨condition, before, after, hcondition, hframe, hne, rfl⟩

/-- A predicate that demands something is written as a condition, and an UPDATE or DELETE carries it as its
WHERE clause, unless a field without a name is all that it demands. -/
theorem filter_lost_iff (t : Target) (s : Shape) :
    (∀ condition, s.predicate.sql t.dialect t.registry = .ok condition →
      (condition = "" ↔ s.predicate.hasClauses = false ∨ s.predicate.onlyEmptyName = true)) ∧
    (∀ statement, t.delete ⟨s⟩ = .ok statement → t.IsFiltered s (t.deleteHead s) statement) ∧
    ∀ sets statement, t.update ⟨s, sets⟩ = .ok statement →
      ∃ assigned, t.IsFiltered s (t.updateHead s assigned) statement := by
  refine ⟨fun condition h => ?_, fun statement h => ?_, fun sets statement h => ?_⟩
  · rw [Predicate.sql_eq_empty_iff h, Predicate.isWritten, Bool.and_eq_false_iff, Bool.not_eq_false']
  · rw [delete_eq] at h
    obtain ⟨tail, htail, h⟩ := Outcome.bind_eq_ok.mp h
    cases h
    exact isFiltered_of_tail htail
  · by_cases hsets : sets = []
    · subst hsets
      cases h
    · rw [update_eq hsets] at h
      obtain ⟨texts, -, h⟩ := Outcome.bind_eq_ok.mp h
      obtain ⟨tail, htail, h⟩ := Outcome.bind_eq_ok.mp h
      cases h
      exact ⟨_, isFiltered_of_tail htail⟩

/-- All people for which an expression holds, after a blank clause. -/
def peopleWhere (e : Expr) : Shape :=
  { Shape.ofSource ⟨0, .empty "people"⟩ with predicate := ⟨[(.and, .text " " []), (.or, .expr e)], false⟩ }

/-- A DELETE of the people named Ann carries its condition. -/
theorem filter_kept_name :
    let t := Target.ofDialect .postgres
    let s := peopleWhere (.binary (.named "name") .eq (.ofValue (.string "Ann")))
    ∃ statement, t.delete ⟨s⟩ = .ok statement ∧ s.predicate.isWritten = true ∧
      t.IsFiltered s (t.deleteHead s) statement := by
  intro t s
  have hdelete : t.delete ⟨s⟩ = .ok "DELETE FROM \"people\" WHERE \"name\" = 'Ann'" := by
    subst t s
    cbv
  exact ⟨_, hdelete, rfl, (filter_lost_iff t s).2.1 _ hdelete⟩

/-- A field without a name is a clause that counts, but the DELETE has no WHERE clause. -/
theorem filter_lost_empty_name :
    let t := Target.ofDialect .postgres
    let s := peopleWhere (.raw "")
    s.predicate.hasClauses = true ∧ s.predicate.sql t.dialect t.registry = .ok "" ∧
      t.delete ⟨s⟩ = .ok "DELETE FROM \"people\"" :=
  ⟨rfl, rfl, rfl⟩

end Target

end RecordQuery
