import RecordQuery.Expr.Eval
import RecordQuery.Proofs.Value.Comparison
set_option autoImplicit false

/-!
# Expr: comparisons are one family

Nine operators compare two operands by their order or by their equality.  Since the two agree on what is equal, the
operators that allow equality are what they are called, no two of `<`, `=` and `>` hold at once, and operands that
change sides turn `<` into `>`.  `ComparisonLaws` lists this for two expressions, as statements about what they
evaluate to in a scope.
-/

namespace RecordQuery.Expr

variable {s : Scope} {left right : Expr} {a b : Value}

theorem evaluate_comparison {op : Operator} (hand : op ≠ .and) (hor : op ≠ .or) {truth : Bool}
    (ha : left.evaluate s = .ok a) (hb : right.evaluate s = .ok b) (h : compareBy op a b = some truth) :
    (Expr.binary left op right).evaluate s = .ok (.bool truth) := by
  cases op with
  | and => exact absurd rfl hand
  | or => exact absurd rfl hor
  | _ =>
    simp only [evaluate, ha, hb, Outcome.ok_bind, h]
    rfl

/-! ## Tests of values -/

/-- A test that allows what another one does, and equality, holds where that test does or the values are equal. -/
theorem ordered_or_eq_iff (test strict : Ordering → Bool) (h : ∀ o, test o = true ↔ strict o = true ∨ o = .eq)
    (a b : Value) : ordered test a b = true ↔ ordered strict a b = true ∨ Value.sqlCompare a b = some .eq := by
  unfold ordered
  cases Value.sqlCompare a b with
  | none => simp
  | some o =>
    rw [Option.some.injEq]
    exact h o

theorem ordered_of_eq (test : Ordering → Bool) (h : Value.sqlCompare a b = some .eq) :
    ordered test a b = test .eq := by
  rw [ordered, h]

theorem ordered_isGT_swap (a b : Value) : ordered Ordering.isGT b a = ordered Ordering.isLT a b := by
  rw [ordered, ordered, Value.sqlCompare_swap a b]
  rcases Value.sqlCompare a b with _ | _ | _ | _ <;> rfl

/-- Where there is an order, one of the three holds. -/
theorem ordered_trichotomy (a b : Value) :
    ordered Ordering.isLT a b = true ∨ Value.sqlCompare a b = some .eq ∨ ordered Ordering.isGT a b = true ↔
      Value.AreComparable a b := by
  rw [← Value.sqlCompare_isSome_iff, ordered, ordered]
  rcases Value.sqlCompare a b with _ | _ | _ | _ <;> decide

theorem not_isLT_and_isGT (a b : Value) :
    ¬ (ordered Ordering.isLT a b = true ∧ ordered Ordering.isGT a b = true) := by
  unfold ordered
  rcases Value.sqlCompare a b with _ | _ | _ | _ <;> decide

/-! ## Comparisons of expressions -/

/-- The comparison of two expressions is evaluated to the truth value true. -/
def Compares (s : Scope) (left : Expr) (op : Operator) (right : Expr) : Prop :=
  (Expr.binary left op right).evaluate s = .ok (.bool true)

/-- How the comparisons of two expressions with these values go together. -/
structure ComparisonLaws (s : Scope) (left right : Expr) (a b : Value) : Prop where
  /-- every comparison has a truth value -/
  decided : ∀ op : Operator, op.isComparison = true →
    ∃ truth, (Expr.binary left op right).evaluate s = .ok (.bool truth)
  le_iff : Compares s left .le right ↔ Compares s left .lt right ∨ Compares s left .eq right
  notGt_iff : Compares s left .notGt right ↔ Compares s left .lt right ∨ Compares s left .eq right
  ge_iff : Compares s left .ge right ↔ Compares s left .gt right ∨ Compares s left .eq right
  notLt_iff : Compares s left .notLt right ↔ Compares s left .gt right ∨ Compares s left .eq right
  not_lt_eq : ¬ (Compares s left .lt right ∧ Compares s left .eq right)
  not_lt_gt : ¬ (Compares s left .lt right ∧ Compares s left .gt right)
  not_eq_gt : ¬ (Compares s left .eq right ∧ Compares s left .gt right)
  /-- one of the three holds wherever there is an order -/
  comparable_iff : Compares s left .lt right ∨ Compares s left .eq right ∨ Compares s left .gt right ↔
    Value.AreComparable a b
  swap : Compares s left .lt right ↔ Compares s right .gt left
  ne_iff : Compares s left .ne right ↔ a ≠ .null ∧ b ≠ .null ∧ ¬ Compares s left .eq right

theorem exists_compareBy {op : Operator} (h : op.isComparison = true) (a b : Value) :
    op ≠ .and ∧ op ≠ .or ∧ ∃ truth, compareBy op a b = some truth := by
  cases op with
  | or => cases h
  | and => cases h
  | not => cases h
  | _ => exact ⟨nofun, nofun, _, rfl⟩

/-- A comparison holds where the test of the two values does. -/
theorem compares_iff {op : Operator} (hop : op.isComparison = true) (ha : left.evaluate s = .ok a)
    (hb : right.evaluate s = .ok b) : Compares s left op right ↔ compareBy op a b = some true := by
  obtain ⟨hand, hor, truth, htruth⟩ := exists_compareBy hop a b
  rw [Compares, evaluate_comparison hand hor ha hb htruth, htruth]
  cases truth <;> simp

/-- Where equality and order agree on two values, the comparisons of expressions with these values go together. -/
theorem comparisonLaws_of_agree (hagree : Value.sqlEq a b = true ↔ Value.sqlCompare a b = some .eq)
    (ha : left.evaluate s = .ok a) (hb : right.evaluate s = .ok b) : ComparisonLaws s left right a b := by
  have hholds : ∀ op : Operator, op.isComparison = true →
      (Compares s left op right ↔ compareBy op a b = some true) := fun _ hop => compares_iff hop ha hb
  have heq : Compares s left .eq right ↔ Value.sqlCompare a b = some .eq :=
    (hholds .eq rfl).trans (Option.some_inj.trans hagree)
  have hlt : Compares s left .lt right ↔ ordered Ordering.isLT a b = true :=
    (hholds .lt rfl).trans Option.some_inj
  have hgt : Compares s left .gt right ↔ ordered Ordering.isGT a b = true :=
    (hholds .gt rfl).trans Option.some_inj
  have hle := ordered_or_eq_iff Ordering.isLE Ordering.isLT (by decide) a b
  have hge := ordered_or_eq_iff Ordering.isGE Ordering.isGT (by decide) a b
  rw [← hlt, ← heq] at hle
  rw [← hgt, ← heq] at hge
  refine ⟨fun op hop => ?_, ?_, ?_, ?_, ?_, ?_, ?_, ?_, ?_, ?_, ?_⟩
  · obtain ⟨hand, hor, truth, htruth⟩ := exists_compareBy hop a b
    exact ⟨truth, evaluate_comparison hand hor ha hb htruth⟩
  · exact (hholds .le rfl).trans (Option.some_inj.trans hle)
  · exact (hholds .notGt rfl).trans (Option.some_inj.trans hle)
  · exact (hholds .ge rfl).trans (Option.some_inj.trans hge)
  · exact (hholds .notLt rfl).trans (Option.some_inj.trans hge)
  · rintro ⟨h, hsame⟩
    rw [hlt, ordered_of_eq Ordering.isLT (heq.mp hsame)] at h
    cases h
  · rintro ⟨h, h'⟩
    exact not_isLT_and_isGT a b ⟨hlt.mp h, hgt.mp h'⟩
  · rintro ⟨hsame, h⟩
    rw [hgt, ordered_of_eq Ordering.isGT (heq.mp hsame)] at h
    cases h
  · rw [hlt, heq, hgt]
    exact ordered_trichotomy a b
  · rw [hlt, compares_iff rfl hb ha, compareBy, Option.some_inj, ordered_isGT_swap]
  · rw [hholds .ne rfl, heq, ← hagree, compareBy, Option.some_inj]
    simp only [Bool.and_eq_true, Bool.not_eq_true', and_assoc, Bool.eq_false_iff, ne_eq, Value.isNull_iff]

/-- Equality and order of values in a filter read the same from both sides, up to the direction of the order, and it is
known which values have an order.  Unless both hold other values, the two agree on what is equal, and in every scope
the comparisons of expressions with these values go together. -/
theorem comparisons_cohere (a b : Value) :
    Value.sqlEq b a = Value.sqlEq a b ∧
      Value.sqlCompare b a = (Value.sqlCompare a b).map Ordering.swap ∧
      ((Value.sqlCompare a b).isSome = true ↔ Value.AreComparable a b) ∧
      (a.isNested = false ∨ b.isNested = false →
        (Value.sqlEq a b = true ↔ Value.sqlCompare a b = some .eq) ∧
          ∀ (s : Scope) (left right : Expr), left.evaluate s = .ok a → right.evaluate s = .ok b →
            ComparisonLaws s left right a b) := by
  refine ⟨Value.sqlEq_comm b a, Value.sqlCompare_swap a b, Value.sqlCompare_isSome_iff, fun hnested => ?_⟩
  have hagree : Value.sqlEq a b = true ↔ Value.sqlCompare a b = some .eq := by
    rcases hnested with ha | hb
    · exact Value.sqlEq_iff_sqlCompare ha
    · rw [Value.sqlEq_comm, Value.sqlEq_iff_sqlCompare hb, Value.sqlCompare_swap a b]
      rcases Value.sqlCompare a b with _ | _ | _ | _ <;> decide
  exact ⟨hagree, fun _ _ _ ha hb => comparisonLaws_of_agree hagree ha hb⟩

/-- A date in a field against its own midnight. -/
theorem comparisons_cohere_midnight :
    let day : Date := default
    let scope := Record.scope [("day", .date day)]
    let left := Expr.raw "day"
    let right := Expr.ofValue (.dateTime (.midnight day))
    (Value.date day).isNested = false ∧ left.evaluate scope = .ok (.date day) ∧
      right.evaluate scope = .ok (.dateTime (.midnight day)) ∧
      (Value.sqlEq (.date day) (.dateTime (.midnight day)) = true ↔
        Value.sqlCompare (.date day) (.dateTime (.midnight day)) = some .eq) ∧
      ComparisonLaws scope left right (.date day) (.dateTime (.midnight day)) ∧ Compares scope left .le right := by
  intro day scope left right
  have hleft : left.evaluate scope = .ok (.date day) := rfl
  have hright : right.evaluate scope = .ok (.dateTime (.midnight day)) := rfl
  obtain ⟨hagree, hlaws⟩ := (comparisons_cohere (.date day) (.dateTime (.midnight day))).2.2.2 (.inl rfl)
  have hle : Compares scope left .le right := rfl
  exact ⟨rfl, hleft, hright, hagree, hlaws scope left right hleft hright, hle⟩

end RecordQuery.Expr
