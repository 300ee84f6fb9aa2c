import RecordQuery.Proofs.Archive.Values
set_option autoImplicit false

/-!
# Archive: expressions and predicates are kept

The decoders of trees count how deep they may still go, and start with how deep the document nests.  A part of
a document nests less deep than the document, so the count is enough for every tree.
-/

namespace RecordQuery

/-- The values in an expression can be archived. -/
def Expr.Archivable : Expr → Prop
  | .literal type value => type.Archivable ∧ value.Archivable
  | .field _ => True
  | .binary left _ right => left.Archivable ∧ right.Archivable
  | .unary _ operand => operand.Archivable
  | .list type values => type.Archivable ∧ Value.AllArchivable values

mutual

/-- The values in a condition can be archived. -/
def Condition.Archivable : Condition → Prop
  | .expr e => e.Archivable
  | .text _ args => Value.AllArchivable args
  | .group clauses _ => ClausesArchivable clauses
termination_by structural c => c

/-- The values in some clauses can be archived. -/
def ClausesArchivable : List (Glue × Condition) → Prop
  | [] => True
  | (_, c) :: rest => c.Archivable ∧ ClausesArchivable rest
termination_by structural cs => cs

end

/-- The values in a predicate can be archived. -/
def Predicate.Archivable (p : Predicate) : Prop := ClausesArchivable p.clauses

namespace Archive

/-! ## Nesting -/

/-- A member nests no deeper than the members together. -/
theorem nesting_le_of_find? {members : Entries Json} {name : String} {json : Json}
    (h : Entries.find? members name = some json) : nesting json ≤ nestingMembers members := by
  have hmem := Entries.mem_of_find? h
  clear h
  induction members with
  | nil => cases hmem
  | cons m rest ih =>
    rw [nestingMembers]
    rcases List.mem_cons.mp hmem with rfl | hmem
    · exact Nat.le_max_left _ _
    · exact Nat.le_trans (ih hmem) (Nat.le_max_right _ _)

theorem nesting_le_of_mem {items : List Json} {json : Json} (h : json ∈ items) :
    nesting json ≤ nestingItems items := by
  induction items with
  | nil => cases h
  | cons first rest ih =>
    rw [nestingItems]
    rcases List.mem_cons.mp h with rfl | h
    · exact Nat.le_max_left _ _
    · exact Nat.le_trans (ih h) (Nat.le_max_right _ _)

theorem sorted_mem_sortedItems {items : List Json} {json : Json} (h : json ∈ items) :
    json.sorted ∈ Json.sortedItems items := by
  induction items with
  | nil => cases h
  | cons first rest ih =>
    rcases List.mem_cons.mp h with rfl | h
    · exact List.mem_cons_self
    · exact List.mem_cons_of_mem _ (ih h)

/-- What is enough for a document is not nothing. -/
theorem exists_of_nesting_le {json : Json} {fuel : Nat} (h : nesting json ≤ fuel) : ∃ less, fuel = less + 1 := by
  refine Nat.exists_eq_add_of_le' (Nat.le_trans ?_ h)
  cases json <;> exact Nat.succ_pos _

theorem nesting_tagged (tag : String) (content : Json) : nesting (tagged tag content) = nesting content + 1 := by
  simp [tagged, nesting, nestingMembers]

/-- A part of what an alternative carries nests less deep than the alternative. -/
theorem nesting_part (name : String) {tag : String} {members : List (String × Json)} {fuel : Nat} {json : Json}
    (hfuel : nesting (tagged tag (.object members)).sorted ≤ fuel + 1)
    (h : Entries.find? (Entries.ofPairs (Json.sortedMembers members)) name = some json) : nesting json ≤ fuel := by
  have hle := nesting_le_of_find? h
  rw [sorted_tagged, nesting_tagged, Json.sorted, nesting] at hfuel
  omega

/-! ## Expressions -/

theorem keeps_ofFieldRef (ref : FieldRef) :
    Keeps (fun json => (Parts.ofContent? (some json)).bind fieldRef?) (ofFieldRef ref) ref := by
  have hmodel := keeps_label ref.model
  exact ⟨by simp [ofFieldRef, hmodel.whole], by simp [ofFieldRef, fieldRef?, hmodel.read]⟩

theorem exprWithin_keeps : ∀ {e : Expr} {fuel : Nat}, e.Archivable → nesting (ofExpr e).sorted ≤ fuel →
    Keeps (exprWithin fuel) (ofExpr e) e
  | .literal type value, fuel, ⟨htype, hvalue⟩, hfuel => by
    obtain ⟨fuel, rfl⟩ := exists_of_nesting_le hfuel
    have htype := keeps_ofType htype
    have hvalue := keeps_ofValue hvalue
    exact ⟨by simp [ofExpr, htype.whole, hvalue.whole], by simp [ofExpr, exprWithin, htype.read, hvalue.read]⟩
  | .field ref, fuel, _, hfuel => by
    obtain ⟨fuel, rfl⟩ := exists_of_nesting_le hfuel
    obtain ⟨hwhole, hread⟩ := keeps_ofFieldRef ref
    obtain ⟨p, hp, hfield⟩ := Option.bind_eq_some_iff.mp hread
    exact ⟨by simp [ofExpr, hwhole], by simp [ofExpr, exprWithin, hp, hfield]⟩
  | .binary left op right, fuel, ⟨hleft, hright⟩, hfuel => by
    obtain ⟨fuel, rfl⟩ := exists_of_nesting_le hfuel
    have hleft := exprWithin_keeps hleft (nesting_part "left" hfuel (by simp))
    have hright := exprWithin_keeps hright (nesting_part "right" hfuel (by simp))
    exact ⟨by simp [ofExpr, hleft.whole, hright.whole], by simp [ofExpr, exprWithin, hleft.read, hright.read]⟩
  | .unary op operand, fuel, h, hfuel => by
    obtain ⟨fuel, rfl⟩ := exists_of_nesting_le hfuel
    have hoperand : Keeps (exprWithin fuel) (ofExpr operand) operand :=
      exprWithin_keeps h (nesting_part "operand" hfuel (by simp))
    exact ⟨by simp [ofExpr, hoperand.whole], by simp [ofExpr, exprWithin, hoperand.read]⟩
  | .list type values, fuel, ⟨htype, hvalues⟩, hfuel => by
    obtain ⟨fuel, rfl⟩ := exists_of_nesting_le hfuel
    have htype := keeps_ofType htype
    have hvalues := keeps_valueList hvalues
    exact ⟨by simp [ofExpr, htype.whole, hvalues.whole], by simp [ofExpr, exprWithin, htype.read, hvalues.read]⟩

/-- An expression whose values can be archived is kept. -/
theorem keeps_ofExpr {e : Expr} (h : e.Archivable) : Keeps expr? (ofExpr e) e :=
  have hkeeps := exprWithin_keeps h (Nat.le_refl _)
  ⟨hkeeps.whole, hkeeps.read⟩

/-! ## Predicates -/

/-- The form of a clause. -/
def ofClause (clause : Clause) : Json :=
  .object [("glue", .string (glueName clause.1)), ("body", ofCondition clause.2)]

/-- A clause whose condition is read by a decoder. -/
def clauseWith (decode : Json → Option Condition) (form : Json) : Option Clause := do
  let p ← Parts.of? ["glue", "body"] form
  return (← p.required "glue" glue?, ← p.required "body" decode)

theorem conditionWithin_group (fuel : Nat) (content : Json) :
    conditionWithin (fuel + 1) (tagged "Group" content) = (do
      let p ← Parts.of? ["clauses", "negated"] content
      let clauses ← p.required "clauses" (list? (clauseWith (conditionWithin fuel)))
      return .group clauses (← p.defaulted "negated" false bool?)) := rfl

theorem array_ofClauses (clauses : List Clause) : Json.array (ofClauses clauses) = listOf ofClause clauses := by
  have hmap : ofClauses clauses = clauses.map ofClause := by
    induction clauses with
    | nil => rfl
    | cons clause rest ih => rw [ofClauses, ih, List.map_cons, ofClause]
  rw [listOf, hmap]

theorem keeps_ofClause {decode : Json → Option Condition} {clause : Clause}
    (h : Keeps decode (ofCondition clause.2) clause.2) : Keeps (clauseWith decode) (ofClause clause) clause :=
  ⟨by simp [ofClause, h.whole], by simp [clauseWith, ofClause, h.read]⟩

/-- The condition of a clause nests less deep than a list with the clause. -/
theorem nesting_clause {clauses : List Clause} {clause : Clause} (h : clause ∈ clauses) :
    nesting (ofCondition clause.2).sorted ≤ nesting (listOf ofClause clauses).sorted := by
  have hmem : (ofClause clause).sorted ∈ Json.sortedItems (clauses.map ofClause) :=
    sorted_mem_sortedItems (List.mem_map_of_mem h)
  have hitem := nesting_le_of_mem hmem
  have hbody : Entries.find? (Entries.ofPairs (Json.sortedMembers
      [("glue", .string (glueName clause.1)), ("body", ofCondition clause.2)])) "body" =
      some (ofCondition clause.2).sorted := by simp
  have hle := nesting_le_of_find? hbody
  rw [ofClause, Json.sorted, nesting] at hitem
  rw [listOf, Json.sorted, nesting]
  omega

mutual

theorem conditionWithin_keeps : ∀ {c : Condition} {fuel : Nat}, c.Archivable →
    nesting (ofCondition c).sorted ≤ fuel → Keeps (conditionWithin fuel) (ofCondition c) c
  | .expr e, fuel, h, hfuel => by
    obtain ⟨fuel, rfl⟩ := exists_of_nesting_le hfuel
    have he : Keeps expr? (ofExpr e) e := keeps_ofExpr h
    exact ⟨by simp [ofCondition, he.whole], by simp [ofCondition, conditionWithin, he.read]⟩
  | .text format args, fuel, h, hfuel => by
    obtain ⟨fuel, rfl⟩ := exists_of_nesting_le hfuel
    have hargs : Keeps valueList? (.array (ofValues args)) args := keeps_valueList h
    exact ⟨by simp [ofCondition, ofText, hargs.whole],
      by simp [ofCondition, ofText, conditionWithin, text?, hargs.read]⟩
  | .group clauses negated, fuel, h, hfuel => by
    obtain ⟨fuel, rfl⟩ := exists_of_nesting_le hfuel
    rw [ofCondition, array_ofClauses] at hfuel ⊢
    have hdepth : nesting (listOf ofClause clauses).sorted ≤ fuel := nesting_part "clauses" hfuel (by simp)
    have hclauses : Keeps (list? (clauseWith (conditionWithin fuel))) (listOf ofClause clauses) clauses :=
      .listOf fun clause hclause =>
        keeps_ofClause (clauses_keep h clause hclause (Nat.le_trans (nesting_clause hclause) hdepth))
    exact ⟨by simp [hclauses.whole], by simp [conditionWithin_group, hclauses.read]⟩

theorem clauses_keep : ∀ {clauses : List (Glue × Condition)}, ClausesArchivable clauses →
    ∀ clause ∈ clauses, ∀ {fuel : Nat}, nesting (ofCondition clause.2).sorted ≤ fuel →
      Keeps (conditionWithin fuel) (ofCondition clause.2) clause.2
  | [], _, _, hmem, _, _ => by cases hmem
  | (_, c) :: rest, ⟨hc, hrest⟩, clause, hmem, fuel, hfuel => by
    rcases List.mem_cons.mp hmem with rfl | hmem
    · exact conditionWithin_keeps hc hfuel
    · exact clauses_keep hrest clause hmem hfuel

end

/-- A predicate whose values can be archived is kept. -/
theorem keeps_ofPredicate {p : Predicate} (h : p.Archivable) : Keeps predicate? (ofPredicate p) p := by
  have hclauses : Keeps (list? clause?) (listOf ofClause p.clauses) p.clauses := by
    refine .listOf fun clause hclause => ?_
    obtain ⟨hwhole, hread⟩ := clauses_keep h clause hclause (Nat.le_refl _)
    show Keeps (clauseWith fun body => conditionWithin (nesting body) body) _ _
    exact keeps_ofClause ⟨hwhole, hread⟩
  exact ⟨by simp [ofPredicate, array_ofClauses, hclauses.whole],
    by simp [ofPredicate, array_ofClauses, predicate?, hclauses.read]⟩

end Archive

end RecordQuery
