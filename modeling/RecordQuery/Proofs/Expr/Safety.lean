import RecordQuery.Proofs.Expr.Derived
import RecordQuery.Proofs.Expr.Reading
import RecordQuery.Proofs.Format.Faults
import RecordQuery.Expr.Render
set_option autoImplicit false

/-!
# Expr: what was parsed never fails

Evaluating and rendering refuse an operator in the wrong place: `not` between two operands, or any other
operator before a single one.  Parsing builds no such tree (`isWellPlaced_of_derives`), so an expression that
was parsed has a value wherever it is evaluated, and it is rendered by any quoter that writes its constants.
-/

namespace RecordQuery

/-- A way to write constants and names. -/
structure Quoter where
  literal : DataType → Value → Outcome String
  model : String → String
  field : String → String

/-- How a dialect writes constants and names. -/
def Dialect.quoter (d : Dialect) : Quoter := ⟨d.quoteLiteral, d.quoteModel, d.quoteField⟩

namespace Expr

/-! ## Rendering with any quoter -/

/-- A field reference as a quoter writes it. -/
def renderFieldWith (q : Quoter) (ref : FieldRef) : String :=
  let field := if ref.quoted then q.field ref.field else ref.field
  match ref.model with
  | some model => (if ref.modelQuoted then q.model model else model) ++ "." ++ field
  | none => field

/-- Constants of one type between parentheses, as a quoter writes them; `(NULL)` for none. -/
def renderListWith (q : Quoter) (type : DataType) (values : List Value) : Outcome String := do
  if values.isEmpty then return "(NULL)"
  else return "(" ++ Text.joined ", " (← values.mapM (q.literal type)) ++ ")"

/-- An expression as a quoter writes it. -/
def renderWith (q : Quoter) : Expr → Outcome String
  | .literal type value => q.literal type value
  | .field ref => .ok (renderFieldWith q ref)
  | .binary left op right =>
    if !op.isBinary then .error (.unsupportedOperator op.describe)
    else do
      let lhs := wrapOperand left (← left.renderWith q) op.precedence false
      let rhs ←
        if (op = .is ∨ op = .isNot) ∧ right.isNullLiteral = true then pure "NULL"
        else do pure (wrapRight op right (← right.renderWith q))
      return lhs ++ " " ++ op.sql ++ " " ++ rhs
  | .unary op operand =>
    if op ≠ .not then .error (.unsupportedOperator op.describe)
    else do
      let inner ← operand.renderWith q
      return if operand.isCompound then "NOT (" ++ inner ++ ")" else "NOT " ++ inner
  | .list type values => renderListWith q type values

/-- Rendering for a dialect is rendering with its quoter. -/
theorem renderWith_quoter (d : Dialect) (e : Expr) : e.renderWith d.quoter = e.render d := by
  induction e with
  | literal type value => rfl
  | field ref => rfl
  | binary left op right hleft hright => rw [renderWith, render, hleft, hright]
  | unary op operand h => rw [renderWith, render, h]
  | list type values => rfl

/-! ## Operators in their places -/

/-- Every operator stands where it can: `not` before one operand, the others between two. -/
def isWellPlaced : Expr → Bool
  | .binary left op right => op.isBinary && left.isWellPlaced && right.isWellPlaced
  | .unary op operand => op == .not && operand.isWellPlaced
  | _ => true

/-- The constants of an expression, with their types. -/
def constants : Expr → List (DataType × Value)
  | .literal type value => [(type, value)]
  | .field _ => []
  | .binary left _ right => left.constants ++ right.constants
  | .unary _ operand => operand.constants
  | .list type values => values.map fun v => (type, v)

section

variable {e l r : Expr}

theorem isWellPlaced_binary {op : Operator} (hop : op.isBinary = true) (hl : l.isWellPlaced = true)
    (hr : r.isWellPlaced = true) : (Expr.binary l op r).isWellPlaced = true := by
  rw [isWellPlaced, hop, hl, hr]
  rfl

theorem isWellPlaced_not (h : e.isWellPlaced = true) : (Expr.unary .not e).isWellPlaced = true := by
  rw [isWellPlaced, h]
  rfl

theorem isWellPlaced_listed (h : e.isWellPlaced = true) :
    (Grammar.Comparator.listed e).isWellPlaced = true := by
  cases e with
  | literal type value => rfl
  | _ => exact h

/-- A comparison is well placed if its operands are. -/
theorem isWellPlaced_combine (sign : Grammar.Comparator) (hl : l.isWellPlaced = true)
    (hr : r.isWellPlaced = true) : (sign.combine l r).isWellPlaced = true := by
  cases sign with
  | isIn => exact isWellPlaced_binary rfl hl (isWellPlaced_listed hr)
  | notIn => exact isWellPlaced_not (isWellPlaced_binary rfl hl (isWellPlaced_listed hr))
  | notLike => exact isWellPlaced_not (isWellPlaced_binary rfl hl hr)
  | _ => exact isWellPlaced_binary rfl hl hr

/-- Each way to build a tree puts operators in their places. -/
theorem isWellPlaced_closed : Closed (fun _ => True) fun e => e.isWellPlaced = true where
  or hl hr := isWellPlaced_binary rfl hl hr
  and hl hr := isWellPlaced_binary rfl hl hr
  not h := isWellPlaced_not h
  compare sign _ _ hl hr := isWellPlaced_combine sign hl hr
  literal _ := rfl
  null := rfl
  field _ := rfl
  list _ _ he := by
    obtain ⟨constants, -, hlist⟩ := Option.bind_eq_some_iff.mp he
    cases hlist
    rfl
  tuple _ := rfl

/-- What derives from the grammar has every operator in its place. -/
theorem isWellPlaced_of_derives {ts : List Format.Token} (h : Grammar.Derives ts e) : e.isWellPlaced = true :=
  isWellPlaced_closed.of_derives h fun _ _ => trivial

/-- The value of an operation is a boolean. -/
theorem isBool_of_evaluate (hcompound : e.isCompound = true) {s : Scope} {v : Value}
    (h : e.evaluate s = .ok v) : ∃ truth, v = .bool truth := by
  cases e with
  | binary left op right =>
    unfold evaluate at h
    split at h
    · obtain ⟨a, -, h⟩ := Outcome.bind_eq_ok.mp h
      split at h
      · obtain ⟨b, -, h⟩ := Outcome.bind_eq_ok.mp h
        cases h
        exact ⟨_, rfl⟩
      · cases h
        exact ⟨_, rfl⟩
    · obtain ⟨a, -, h⟩ := Outcome.bind_eq_ok.mp h
      split at h
      · cases h
        exact ⟨_, rfl⟩
      · obtain ⟨b, -, h⟩ := Outcome.bind_eq_ok.mp h
        cases h
        exact ⟨_, rfl⟩
    · obtain ⟨a, -, h⟩ := Outcome.bind_eq_ok.mp h
      obtain ⟨b, -, h⟩ := Outcome.bind_eq_ok.mp h
      split at h
      · cases h
        exact ⟨_, rfl⟩
      · cases h
  | unary op operand =>
    unfold evaluate at h
    split at h
    · obtain ⟨a, -, h⟩ := Outcome.bind_eq_ok.mp h
      cases h
      exact ⟨_, rfl⟩
    · cases h
  | _ => cases hcompound

end

/-! ## Faults of rendering -/

/-- The fault is that of a constant of the expression which the quoter does not write. -/
def UnwritableBy (q : Quoter) (e : Expr) (fault : Fault) : Prop :=
  ∃ c ∈ e.constants, q.literal c.1 c.2 = .error fault

open Outcome (FailsOnly)

theorem renderListWith_failsOnly (q : Quoter) (type : DataType) (values : List Value) :
    (renderListWith q type values).FailsOnly ((Expr.list type values).UnwritableBy q) := by
  unfold renderListWith
  split
  · exact .ok _
  · refine FailsOnly.bind (FailsOnly.mapM ?_) fun _ => .ok _
    intro v hv fault hfault
    exact ⟨(type, v), List.mem_map_of_mem hv, hfault⟩

/-- Where operators are in their places, rendering fails only at a constant that the quoter does not write. -/
theorem renderWith_failsOnly (q : Quoter) (e : Expr) (h : e.isWellPlaced = true) :
    (e.renderWith q).FailsOnly (e.UnwritableBy q) := by
  induction e with
  | literal type value => exact fun fault hfault => ⟨(type, value), List.mem_singleton_self _, hfault⟩
  | field ref => exact .ok _
  | binary left op right hleft hright =>
    simp only [isWellPlaced, Bool.and_eq_true] at h
    obtain ⟨⟨hop, hl⟩, hr⟩ := h
    have hleft : (left.renderWith q).FailsOnly ((Expr.binary left op right).UnwritableBy q) := by
      intro fault hfault
      obtain ⟨c, hc, heq⟩ := hleft hl fault hfault
      exact ⟨c, List.mem_append_left _ hc, heq⟩
    have hright : (right.renderWith q).FailsOnly ((Expr.binary left op right).UnwritableBy q) := by
      intro fault hfault
      obtain ⟨c, hc, heq⟩ := hright hr fault hfault
      exact ⟨c, List.mem_append_right _ hc, heq⟩
    rw [renderWith, hop]
    refine hleft.bind fun lhs => ?_
    show FailsOnly _ (if _ then _ else _)
    split
    · exact .ok _
    · exact hright.bind fun rhs => .ok _
  | unary op operand hoperand =>
    simp only [isWellPlaced, Bool.and_eq_true, beq_iff_eq] at h
    obtain ⟨rfl, h⟩ := h
    exact (hoperand h).bind fun _ => .ok _
  | list type values => exact renderListWith_failsOnly q type values

end Expr

/-! ## Faults of the dialects -/

namespace DataType

theorem toBoundedText_failsOnly (limit : Option Nat) (v : Value) :
    (toBoundedText limit v).FailsOnly Refuses := by
  unfold toBoundedText
  split
  · exact .ok _
  · split
    · exact .error ⟨_, rfl⟩
    · exact .ok _

/-- Encoding fails only by refusing the value. -/
theorem encode_failsOnly (t : DataType) (boolAsInt : Bool) (v : Value) :
    (t.encode boolAsInt v).FailsOnly Refuses := by
  unfold encode
  split
  · exact .ok _
  cases t with
  | boolean => exact (toBool_failsOnly _ v).bind fun _ => .ok _
  | integer signed width serial =>
    refine (toInt_failsOnly _ v).bind fun n => ?_
    split
    · exact .error ⟨_, rfl⟩
    · exact .ok _
  | float => exact (toFloat_failsOnly _ v).bind fun _ => .ok _
  | string limit => exact (toBoundedText_failsOnly limit v).bind fun _ => .ok _
  | text nullable => exact .ok _
  | date => exact (toDate_failsOnly _ v).bind fun _ => .ok _
  | dateTime => exact (toDateTime_failsOnly _ v).bind fun _ => .ok _
  | binary => exact (toBytes_failsOnly _ v).bind fun _ => .ok _
  | object => exact .ok _
  | enumeration e => exact (toVariant_failsOnly v e).bind fun _ => .ok _

end DataType

theorem Dialect.quoteLiteral_failsOnly (d : Dialect) (t : DataType) (v : Value) :
    (d.quoteLiteral t v).FailsOnly DataType.Refuses :=
  (t.encode_failsOnly d.boolAsInt v).bind fun _ => .ok _

/-! ## Parsed expressions -/

namespace Expr

/-- An expression that was parsed, whatever its placeholders were bound to, has a value wherever it is
evaluated, a boolean if it is an operation.  A quoter that does not render it fails at one of its constants,
with the fault that it has there; in the dialects that fault refuses a value. -/
theorem parsed_never_fails {format : String} {b : Format.Binding} {e : Expr} (h : parse format b = .ok e) :
    (∀ s : Scope, ∃ v, e.evaluate s = .ok v ∧ (e.isCompound = true → ∃ truth, v = .bool truth)) ∧
      (∀ q : Quoter, (e.renderWith q).FailsOnly fun fault =>
        ∃ c ∈ e.constants, q.literal c.1 c.2 = .error fault) ∧
      ∀ d : Dialect, e.renderWith d.quoter = e.render d ∧
        (e.render d).FailsOnly fun fault => ∃ cause, fault = .invalid cause := by
  obtain ⟨ts, -, hderives⟩ := exists_derives_of_parse h
  have hrender : ∀ q : Quoter, (e.renderWith q).FailsOnly (e.UnwritableBy q) :=
    fun q => renderWith_failsOnly q e (isWellPlaced_of_derives hderives)
  refine ⟨?_, hrender, ?_⟩
  · intro s
    obtain ⟨v, hv⟩ := Evaluates.of_derives hderives s
    exact ⟨v, hv, fun hcompound => isBool_of_evaluate hcompound hv⟩
  · intro d
    refine ⟨renderWith_quoter d e, ?_⟩
    intro fault hfault
    rw [← renderWith_quoter] at hfault
    obtain ⟨c, -, hc⟩ := hrender d.quoter fault hfault
    exact d.quoteLiteral_failsOnly c.1 c.2 fault hc

/-- A list that is bound to a placeholder, below a negation. -/
theorem parsed_never_fails_bound_list :
    let e := Expr.binary (.unary .not (.binary (.raw "a") .isIn (.list .int [.int 1, .null]))) .and
      (.binary (.raw "b") .lt (.literal .int (.int 2)))
    parse "a not in ?() and b < 2" ⟨[.array [.int 1, .null]], []⟩ = .ok e ∧
      (∀ s : Scope, ∃ truth, e.evaluate s = .ok (.bool truth)) ∧
      ∀ d : Dialect, (e.render d).FailsOnly fun fault => ∃ cause, fault = .invalid cause := by
  intro e
  have htokens : Format.tokenize "a not in ?() and b < 2" ⟨[.array [.int 1, .null]], []⟩ =
      .ok [⟨.field "a" false none, 0, 1, false⟩, ⟨.operator "not", 2, 5, false⟩,
        ⟨.operator "in", 6, 8, false⟩, ⟨.openList .int, 9, 12, true⟩, ⟨.literal .int (.int 1), 9, 12, true⟩,
        ⟨.literal .int .null, 9, 12, true⟩, ⟨.closeList, 9, 12, true⟩, ⟨.operator "and", 13, 16, false⟩,
        ⟨.field "b" false none, 17, 18, false⟩, ⟨.operator "<", 19, 20, false⟩,
        ⟨.literal .int (.int 2), 21, 22, false⟩] := rfl
  have hparse : parse "a not in ?() and b < 2" ⟨[.array [.int 1, .null]], []⟩ = .ok e := by
    rw [parse_eq_ofTokens htokens]
    rfl
  obtain ⟨hvalue, -, hrender⟩ := parsed_never_fails hparse
  refine ⟨hparse, ?_, fun d => (hrender d).2⟩
  intro s
  obtain ⟨v, hv, hbool⟩ := hvalue s
  obtain ⟨truth, rfl⟩ := hbool rfl
  exact ⟨truth, hv⟩

end Expr

end RecordQuery
