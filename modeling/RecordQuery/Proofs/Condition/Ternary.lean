import RecordQuery.Proofs.Condition.Runs
import RecordQuery.Proofs.Expr.Comparison
set_option autoImplicit false

/-!
# Condition: agreement with three-valued logic

In a WHERE clause a comparison with null is unknown, `and`, `or` and `not` carry that on, and a row is kept
where the whole is true.  Here a comparison with null is false from the start.  Truth is all that `and` and
`or` ask of their operands, so that without `not` both keep the same rows (`Predicate.holds_iff_sqlTruth`):
`isTrue` forgets what is false and what is unknown, and it commutes with both connectives.
-/

namespace RecordQuery

/-- A truth value of a WHERE clause. -/
inductive SqlTruth where
  | holds
  | fails
  | unknown
  deriving DecidableEq, Repr, Inhabited

namespace SqlTruth

/-! ## Connectives -/

def ofBool (b : Bool) : SqlTruth := if b then .holds else .fails

def not : SqlTruth → SqlTruth
  | .holds => .fails
  | .fails => .holds
  | .unknown => .unknown

def and : SqlTruth → SqlTruth → SqlTruth
  | .fails, _ => .fails
  | _, .fails => .fails
  | .holds, .holds => .holds
  | _, _ => .unknown

def or : SqlTruth → SqlTruth → SqlTruth
  | .holds, _ => .holds
  | _, .holds => .holds
  | .fails, .fails => .fails
  | _, _ => .unknown

/-- The conjunction of a run of clauses. -/
def ofRun (run : List SqlTruth) : SqlTruth := run.foldr and .holds

/-- The disjunction of the runs of a chain. -/
def ofRuns (truths : List (List SqlTruth)) : SqlTruth := (truths.map ofRun).foldr or .fails

/-- A row is kept. -/
def isTrue : SqlTruth → Bool
  | .holds => true
  | _ => false

theorem isTrue_iff (t : SqlTruth) : t.isTrue = true ↔ t = .holds := by
  cases t <;> simp [isTrue]

@[simp] theorem isTrue_ofBool (b : Bool) : (ofBool b).isTrue = b := by
  cases b <;> rfl

theorem isTrue_and (a b : SqlTruth) : (a.and b).isTrue = (a.isTrue && b.isTrue) := by
  cases a <;> cases b <;> rfl

theorem isTrue_or (a b : SqlTruth) : (a.or b).isTrue = (a.isTrue || b.isTrue) := by
  cases a <;> cases b <;> rfl

theorem isTrue_ofRun (run : List SqlTruth) : (ofRun run).isTrue = (run.map isTrue).all id := by
  induction run with
  | nil => rfl
  | cons t rest ih => rw [ofRun, List.foldr_cons, isTrue_and, ← ofRun, ih, List.map_cons, List.all_cons, id]

/-- A disjunction of runs is true where some run is true throughout. -/
theorem isTrue_ofRuns (truths : List (List SqlTruth)) :
    (ofRuns truths).isTrue = someRun (truths.map (List.map isTrue)) := by
  induction truths with
  | nil => rfl
  | cons run rest ih =>
    rw [ofRuns, List.map_cons, List.foldr_cons, isTrue_or, ← ofRuns, ih, isTrue_ofRun]
    rfl

/-! ## Values -/

/-- The truth of a value: null is unknown. -/
def ofValue (v : Value) : SqlTruth := if v.isNull then .unknown else ofBool v.truthy

/-- The elements of a list; any other value is its only element. -/
def elements : Value → List Value
  | .array items => items
  | v => [v]

/-- Membership is unknown where an element might be equal but for a null. -/
def member (v : Value) (items : List Value) : SqlTruth :=
  if items.any fun item => Value.sqlEq v item then .holds
  else if v.isNull || items.any Value.isNull then .unknown
  else .fails

/-- Both null, or neither of them and equal. -/
def same (a b : Value) : Bool := (a.isNull && b.isNull) || (!a.isNull && !b.isNull && Value.sqlEq a b)

def less (a b : Value) : Bool := Value.sqlCompare a b == some .lt

def greater (a b : Value) : Bool := Value.sqlCompare a b == some .gt

def atMost (a b : Value) : Bool := Value.sqlCompare a b == some .lt || Value.sqlCompare a b == some .eq

def atLeast (a b : Value) : Bool := Value.sqlCompare a b == some .gt || Value.sqlCompare a b == some .eq

/-- What an operator asks of two values that are not null. -/
def test? : Operator → Option (Value → Value → Bool)
  | .eq => some Value.sqlEq
  | .ne => some fun a b => !Value.sqlEq a b
  | .lt => some less
  | .gt => some greater
  | .le => some atMost
  | .notGt => some atMost
  | .ge => some atLeast
  | .notLt => some atLeast
  | .like => some fun a b => like a.matchText b.matchText
  | _ => none

/-- The truth of a comparison: `is` sees null as a value, `in` looks at the elements, and any other operator
knows nothing of null. -/
def compare? (op : Operator) (a b : Value) : Option SqlTruth :=
  match op with
  | .is => some (ofBool (same a b))
  | .isNot => some (ofBool (same a b)).not
  | .isIn => some (member a (elements b))
  | op => (test? op).map fun test => if a.isNull || b.isNull then .unknown else ofBool (test a b)

theorem isTrue_ofValue (v : Value) : (ofValue v).isTrue = v.truthy := by
  rw [ofValue]
  split
  · rename_i hnull
    rw [(Value.isNull_iff v).mp hnull]
    rfl
  · exact isTrue_ofBool _

theorem isTrue_member (v container : Value) :
    (member v (elements container)).isTrue = Expr.isMember v container := by
  have hmember : Expr.isMember v container = (elements container).any fun item => Value.sqlEq v item := by
    cases container <;> simp [Expr.isMember, elements]
  rw [hmember, member]
  split
  · rename_i hsome
    exact hsome.symm
  · rename_i hnone
    rw [Bool.eq_false_iff.mpr hnone]
    split <;> rfl

theorem same_eq (a b : Value) : same a b = Value.sameOrBothNull a b := by
  cases a <;> cases b <;> simp [same, Value.sameOrBothNull, Value.isNull]

/-- Unknown for null, and else the truth of a test: it is true where neither is null and the test is. -/
theorem isTrue_guarded (a b : Value) (truth : Bool) :
    (if a.isNull || b.isNull then .unknown else ofBool truth : SqlTruth).isTrue =
      (!a.isNull && !b.isNull && truth) := by
  rw [← Bool.not_or]
  split
  · rename_i hnull
    rw [hnull]
    rfl
  · rename_i hnull
    rw [isTrue_ofBool, Bool.eq_false_iff.mpr hnull]
    rfl

/-- What is false of null on either side says nothing about null. -/
theorem guarded_of_null {test : Value → Value → Bool} (hleft : ∀ v, test .null v = false)
    (hright : ∀ v, test v .null = false) (a b : Value) : test a b = (!a.isNull && !b.isNull && test a b) := by
  cases ha : a.isNull with
  | true => rw [(Value.isNull_iff a).mp ha, hleft, Bool.and_false]
  | false =>
    cases hb : b.isNull with
    | true => rw [(Value.isNull_iff b).mp hb, hright, Bool.and_false]
    | false => rfl

theorem sqlEq_guarded (a b : Value) : Value.sqlEq a b = (!a.isNull && !b.isNull && Value.sqlEq a b) :=
  guarded_of_null Value.sqlEq_null_left Value.sqlEq_null_right a b

theorem ordered_guarded {test : Ordering → Bool} {a b : Value} {truth : Bool}
    (h : Expr.ordered test a b = truth) : Expr.ordered test a b = (!a.isNull && !b.isNull && truth) := by
  rw [← h]
  refine guarded_of_null (fun v => ?_) (fun v => ?_) a b
  · rw [Expr.ordered, Value.sqlCompare_null_left]
  · rw [Expr.ordered, Value.sqlCompare_null_right]

theorem ordered_isLT (a b : Value) : Expr.ordered Ordering.isLT a b = less a b := by
  rw [Expr.ordered, less]
  rcases Value.sqlCompare a b with _ | _ | _ | _ <;> rfl

theorem ordered_isGT (a b : Value) : Expr.ordered Ordering.isGT a b = greater a b := by
  rw [Expr.ordered, greater]
  rcases Value.sqlCompare a b with _ | _ | _ | _ <;> rfl

theorem ordered_isLE (a b : Value) : Expr.ordered Ordering.isLE a b = atMost a b := by
  rw [Expr.ordered, atMost]
  rcases Value.sqlCompare a b with _ | _ | _ | _ <;> rfl

theorem ordered_isGE (a b : Value) : Expr.ordered Ordering.isGE a b = atLeast a b := by
  rw [Expr.ordered, atLeast]
  rcases Value.sqlCompare a b with _ | _ | _ | _ <;> rfl

/-- A comparison of values is true in both logics or in none. -/
theorem compareBy_of_compare? {op : Operator} {a b : Value} {t : SqlTruth} (h : compare? op a b = some t) :
    Expr.compareBy op a b = some t.isTrue := by
  cases op with
  | or => cases h
  | and => cases h
  | not => cases h
  | is =>
    cases h
    rw [isTrue_ofBool, same_eq]
    rfl
  | isNot =>
    cases h
    rw [same_eq, Expr.compareBy]
    cases Value.sameOrBothNull a b <;> rfl
  | isIn =>
    cases h
    rw [isTrue_member]
    rfl
  | eq =>
    cases h
    rw [isTrue_guarded]
    exact congrArg some (sqlEq_guarded a b)
  | lt =>
    cases h
    rw [isTrue_guarded]
    exact congrArg some (ordered_guarded (ordered_isLT a b))
  | gt =>
    cases h
    rw [isTrue_guarded]
    exact congrArg some (ordered_guarded (ordered_isGT a b))
  | le | notGt =>
    cases h
    rw [isTrue_guarded]
    exact congrArg some (ordered_guarded (ordered_isLE a b))
  | ge | notLt =>
    cases h
    rw [isTrue_guarded]
    exact congrArg some (ordered_guarded (ordered_isGE a b))
  | ne | like =>
    -- these look for null themselves
    cases h
    rw [isTrue_guarded]
    rfl

/-- Every operator between operands but `and` and `or` compares. -/
theorem exists_compare? {op : Operator} (hop : op.isBinary = true) (hand : op ≠ .and) (hor : op ≠ .or)
    (a b : Value) : ∃ t, compare? op a b = some t := by
  cases op with
  | and => exact absurd rfl hand
  | or => exact absurd rfl hor
  | not => cases hop
  | _ => exact ⟨_, rfl⟩

end SqlTruth

/-! ## Expressions -/

namespace Expr

variable {s : Scope}

/-- A constant or a field. -/
def isAtom : Expr → Bool
  | .literal _ _ => true
  | .field _ => true
  | _ => false

/-- A right operand: a constant, a field, or a list after `in`. -/
def isRightOperand (op : Operator) : Expr → Bool
  | .list _ _ => op == .isIn
  | e => e.isAtom

/-- An expression without `not`: constants and fields, comparisons of them, and `and` and `or` of such
expressions. -/
def isPositive : Expr → Bool
  | .literal _ _ => true
  | .field _ => true
  | .binary left op right =>
    match op with
    | .and => left.isPositive && right.isPositive
    | .or => left.isPositive && right.isPositive
    | op => op.isBinary && left.isAtom && right.isRightOperand op
  | _ => false

/-- The value of an operand of a comparison. -/
def operand? (s : Scope) : Expr → Option Value
  | .literal _ value => some value
  | .field ref => some (lookup s ref)
  | .list _ values => some (.array values)
  | _ => none

/-- The truth of an expression in a WHERE clause. -/
def sqlTruth? (s : Scope) : Expr → Option SqlTruth
  | .literal _ value => some (.ofValue value)
  | .field ref => some (.ofValue (lookup s ref))
  | .binary left op right =>
    match op with
    | .and => do return (← left.sqlTruth? s).and (← right.sqlTruth? s)
    | .or => do return (← left.sqlTruth? s).or (← right.sqlTruth? s)
    | op => do SqlTruth.compare? op (← left.operand? s) (← right.operand? s)
  | .unary op operand =>
    match op with
    | .not => (operand.sqlTruth? s).map SqlTruth.not
    | _ => none
  | .list _ _ => none

section

variable {left right : Expr} {a b : Value} {t u : SqlTruth}

theorem evaluate_of_operand? {e : Expr} (h : e.operand? s = some a) : e.evaluate s = .ok a := by
  cases e with
  | literal type value =>
    cases h
    rfl
  | field ref =>
    cases h
    rfl
  | list type values =>
    cases h
    rfl
  | binary left op right => cases h
  | unary op operand => cases h

theorem exists_operand? {e : Expr} (h : e.isAtom = true) : ∃ v, e.operand? s = some v := by
  cases e with
  | literal type value => exact ⟨_, rfl⟩
  | field ref => exact ⟨_, rfl⟩
  | _ => cases h

theorem exists_rightOperand? {op : Operator} {e : Expr} (h : e.isRightOperand op = true) :
    ∃ v, e.operand? s = some v := by
  cases e with
  | list type values => exact ⟨_, rfl⟩
  | _ => exact exists_operand? h

theorem sqlTruth?_comparison {op : Operator} (hand : op ≠ .and) (hor : op ≠ .or) :
    (Expr.binary left op right).sqlTruth? s =
      (do SqlTruth.compare? op (← left.operand? s) (← right.operand? s)) := by
  cases op with
  | and => exact absurd rfl hand
  | or => exact absurd rfl hor
  | _ => rfl

/-- A comparison holds where it is true in a WHERE clause. -/
theorem comparison_holds {op : Operator} (hop : op.isBinary = true) (hand : op ≠ .and) (hor : op ≠ .or)
    (ha : left.operand? s = some a) (hb : right.operand? s = some b) :
    ∃ t, (Expr.binary left op right).sqlTruth? s = some t ∧ (Expr.binary left op right).holds s = .ok t.isTrue := by
  obtain ⟨t, ht⟩ := SqlTruth.exists_compare? hop hand hor a b
  refine ⟨t, ?_, holds_eq_ok.mpr ⟨.bool t.isTrue, ?_, rfl⟩⟩
  · rw [sqlTruth?_comparison hand hor, ha, hb]
    exact ht
  · exact evaluate_comparison hand hor (evaluate_of_operand? ha) (evaluate_of_operand? hb)
      (SqlTruth.compareBy_of_compare? ht)

/-- A positive expression has a truth in both logics, and it holds where it is true in a WHERE clause. -/
theorem positive_holds {e : Expr} (h : e.isPositive = true) :
    ∃ t, e.sqlTruth? s = some t ∧ e.holds s = .ok t.isTrue := by
  induction e with
  | literal type value =>
    exact ⟨_, rfl, holds_eq_ok.mpr ⟨value, rfl, (SqlTruth.isTrue_ofValue value).symm⟩⟩
  | field ref =>
    exact ⟨_, rfl, holds_eq_ok.mpr ⟨lookup s ref, rfl, (SqlTruth.isTrue_ofValue _).symm⟩⟩
  | list type values => cases h
  | unary op operand => cases h
  | binary left op right hleft hright =>
    cases op with
    | not => cases h
    | and =>
      obtain ⟨hl, hr⟩ := Bool.and_eq_true_iff.mp h
      obtain ⟨t, ht, htholds⟩ := hleft hl
      obtain ⟨u, hu, huholds⟩ := hright hr
      refine ⟨t.and u, ?_, ?_⟩
      · rw [sqlTruth?, ht, hu]
        rfl
      · rw [SqlTruth.isTrue_and]
        exact holds_and htholds huholds
    | or =>
      obtain ⟨hl, hr⟩ := Bool.and_eq_true_iff.mp h
      obtain ⟨t, ht, htholds⟩ := hleft hl
      obtain ⟨u, hu, huholds⟩ := hright hr
      refine ⟨t.or u, ?_, ?_⟩
      · rw [sqlTruth?, ht, hu]
        rfl
      · rw [SqlTruth.isTrue_or]
        exact holds_or htholds huholds
    | _ =>
      obtain ⟨h, hr⟩ := Bool.and_eq_true_iff.mp h
      obtain ⟨hop, hl⟩ := Bool.and_eq_true_iff.mp h
      obtain ⟨a, ha⟩ := exists_operand? hl
      obtain ⟨b, hb⟩ := exists_rightOperand? hr
      exact comparison_holds hop (by decide) (by decide) ha hb

end

end Expr

/-! ## Predicates -/

mutual

/-- The truth of a condition in a WHERE clause. -/
def Condition.sqlTruth? (s : Scope) (registry : Registry) : Condition → Option SqlTruth
  | .expr e => e.sqlTruth? s
  | .text format args =>
    match Expr.parse format ⟨args, registry⟩ with
    | .ok e => e.sqlTruth? s
    | .error _ => none
  | .group clauses negated =>
    if !anyLive clauses then some .holds
    else do
      let truth := SqlTruth.ofRuns (runs (← clauseTruths? s registry clauses))
      return if negated then truth.not else truth
termination_by structural c => c

/-- The truths of the live clauses of a chain in a WHERE clause. -/
def clauseTruths? (s : Scope) (registry : Registry) :
    List (Glue × Condition) → Option (List (Glue × SqlTruth))
  | [] => some []
  | (glue, c) :: rest =>
    if c.isBlank then clauseTruths? s registry rest
    else do return (glue, ← c.sqlTruth? s registry) :: (← clauseTruths? s registry rest)
termination_by structural cs => cs

end

/-- The truth of a predicate in a WHERE clause. -/
def Predicate.sqlTruth? (p : Predicate) (s : Scope) (registry : Registry) : Option SqlTruth :=
  p.toCondition.sqlTruth? s registry

mutual

/-- Nothing in the condition is negated: its expressions are positive, and so are those that its formats are
parsed as, unless they are blank. -/
def Condition.IsPositive (registry : Registry) : Condition → Prop
  | .expr e => e.isPositive = true
  | .text format args =>
    Text.isAllBlank format.toList = true ∨
      ∃ e, Expr.parse format ⟨args, registry⟩ = .ok e ∧ e.isPositive = true
  | .group clauses negated => negated = false ∧ AllPositive registry clauses
termination_by structural c => c

/-- Nothing in the clauses is negated. -/
def AllPositive (registry : Registry) : List (Glue × Condition) → Prop
  | [] => True
  | (_, c) :: rest => c.IsPositive registry ∧ AllPositive registry rest
termination_by structural cs => cs

end

section

variable {s : Scope} {registry : Registry}

mutual

/-- A live positive condition holds where it is true in a WHERE clause. -/
theorem condition_holds : ∀ (c : Condition), c.IsPositive registry → c.isBlank = false →
    ∃ t, c.sqlTruth? s registry = some t ∧ c.holds s registry = .ok t.isTrue
  | .expr e, h, _ => Expr.positive_holds h
  | .text format args, h, hblank => by
    obtain hall | ⟨e, hparse, hpositive⟩ := h
    · exact absurd (hall.symm.trans hblank) (by decide)
    · obtain ⟨t, ht, hholds⟩ := Expr.positive_holds hpositive
      refine ⟨t, ?_, ?_⟩
      · rw [Condition.sqlTruth?, hparse]
        exact ht
      · rw [Condition.holds, hparse]
        exact hholds
  | .group clauses negated, h, hblank => by
    obtain ⟨rfl, h⟩ := h
    obtain ⟨truths, htruths, hlive⟩ := clauses_hold clauses h
    have hany : anyLive clauses = true := by
      rw [Condition.isBlank, Bool.not_eq_false'] at hblank
      exact hblank
    refine ⟨.ofRuns (runs truths), ?_, ?_⟩
    · rw [Condition.sqlTruth?, hany, htruths]
      rfl
    · have hempty := anyLive_eq hlive
      rw [hany, eq_comm, Bool.not_eq_true'] at hempty
      rw [group_holds_eq false hlive, hempty, Bool.false_or, Bool.bne_false, runs_map, ← SqlTruth.isTrue_ofRuns]
termination_by structural c => c

/-- The live clauses of a positive chain hold where they are true in a WHERE clause. -/
theorem clauses_hold : ∀ (clauses : List (Glue × Condition)), AllPositive registry clauses →
    ∃ truths, clauseTruths? s registry clauses = some truths ∧
      liveTruths s registry clauses = .ok (truths.map (Prod.map id SqlTruth.isTrue))
  | [], _ => ⟨[], rfl, rfl⟩
  | (glue, c) :: rest, h => by
    obtain ⟨truths, htruths, hrest⟩ := clauses_hold rest h.2
    cases hc : c.isBlank with
    | true =>
      refine ⟨truths, ?_, (liveTruths_blank hc).trans hrest⟩
      rw [clauseTruths?, if_pos hc]
      exact htruths
    | false =>
      obtain ⟨t, ht, hholds⟩ := condition_holds c h.1 hc
      refine ⟨(glue, t) :: truths, ?_, ?_⟩
      · rw [clauseTruths?, if_neg (by simp [hc]), ht, htruths]
        rfl
      · rw [liveTruths_cons hc, hholds, hrest]
        rfl
termination_by structural clauses => clauses

end

/-- Where nothing in a predicate is negated, it has a truth in both logics, and a row is kept by the one
exactly when it is kept by the other. -/
theorem Predicate.holds_iff_sqlTruth (p : Predicate) (registry : Registry)
    (h : p.toCondition.IsPositive registry) (s : Scope) :
    ∃ truth t, p.holds s registry = .ok truth ∧ p.sqlTruth? s registry = some t ∧
      (truth = true ↔ t = .holds) := by
  cases hlive : anyLive p.clauses with
  | true =>
    have hblank : p.toCondition.isBlank = false := by
      rw [Predicate.toCondition, Condition.isBlank, hlive]
      rfl
    obtain ⟨t, ht, hholds⟩ := condition_holds p.toCondition h hblank
    exact ⟨t.isTrue, t, hholds, ht, t.isTrue_iff⟩
  | false =>
    -- no clause counts, and both keep every row
    refine ⟨true, .holds, ?_, ?_, iff_of_true rfl rfl⟩
    · rw [Predicate.holds, Predicate.toCondition, Condition.holds, hlive]
      rfl
    · rw [Predicate.sqlTruth?, Predicate.toCondition, Condition.sqlTruth?, hlive]
      rfl

end

/-- A membership that is unknown, as long as the other runs are not true. -/
theorem Predicate.holds_iff_sqlTruth_unknown :
    let p : Predicate := ⟨[(.and, .text "a = 1 or b in ?()" [.array [.int 1, .null]]), (.or, .text " " []),
      (.and, .group [(.or, .expr (.binary (.raw "c") .isNot Expr.null))] false)], false⟩
    (∀ s : Scope, ∃ truth t, p.holds s [] = .ok truth ∧ p.sqlTruth? s [] = some t ∧
      (truth = true ↔ t = .holds)) ∧
    p.sqlTruth? (Record.scope [("a", .int 2), ("b", .int 3), ("c", .int 4)]) [] = some .unknown := by
  intro p
  have htokens : Format.tokenize "a = 1 or b in ?()" ⟨[.array [.int 1, .null]], []⟩ =
      .ok [⟨.field "a" false none, 0, 1, false⟩, ⟨.operator "=", 2, 3, false⟩,
        ⟨.literal .int (.int 1), 4, 5, false⟩, ⟨.operator "or", 6, 8, false⟩, ⟨.field "b" false none, 9, 10, false⟩,
        ⟨.operator "in", 11, 13, false⟩, ⟨.openList .int, 14, 17, true⟩, ⟨.literal .int (.int 1), 14, 17, true⟩,
        ⟨.literal .int .null, 14, 17, true⟩, ⟨.closeList, 14, 17, true⟩] := rfl
  have hparse : Expr.parse "a = 1 or b in ?()" ⟨[.array [.int 1, .null]], []⟩ =
      .ok (.binary (.binary (.raw "a") .eq (.literal .int (.int 1))) .or
        (.binary (.raw "b") .isIn (.list .int [.int 1, .null]))) := by
    rw [Expr.parse_eq_ofTokens htokens]
    rfl
  have hpositive : p.toCondition.IsPositive [] :=
    ⟨rfl, .inr ⟨_, hparse, rfl⟩, .inl rfl, ⟨rfl, rfl, trivial⟩, trivial⟩
  have htruths : clauseTruths? (Record.scope [("a", .int 2), ("b", .int 3), ("c", .int 4)]) [] p.clauses =
      some [(.and, .unknown), (.and, .holds)] := by
    simp only [p, clauseTruths?, Condition.sqlTruth?, hparse]
    rfl
  refine ⟨fun s => Predicate.holds_iff_sqlTruth p [] hpositive s, ?_⟩
  have hlive : anyLive p.clauses = true := rfl
  rw [Predicate.sqlTruth?, Predicate.toCondition, Condition.sqlTruth?, hlive, htruths]
  rfl

/-- Below `not`, what is unknown and what is false are no longer the same. -/
example :
    let e := Expr.negation (.binary (.raw "a") .eq (.literal .int (.int 1)))
    let s := Record.scope [("a", .null)]
    e.holds s = .ok true ∧ e.sqlTruth? s = some .unknown := ⟨rfl, rfl⟩

end RecordQuery
