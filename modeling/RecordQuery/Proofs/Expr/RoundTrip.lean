import RecordQuery.Proofs.Expr.Derived
import RecordQuery.Proofs.Expr.Reading
import RecordQuery.Proofs.Expr.Rendering
set_option autoImplicit false

/-!
# Expr: the tokens of rendered text are read back

The parentheses of rendered text follow the levels of the grammar.  `ReadBack` says, level by level, what the
tokens of an expression are read as where the operator at the root binds tightly enough; one lemma for each
constructor puts it together, and `readBack` is the induction.  It needs that no comparison stands directly on
the left of a comparison: there an operand binds as strongly as its operator, and no parentheses are written.
-/

namespace RecordQuery.Expr

open Format (Token)
open Grammar

/-! ## Constants and lists -/

/-- What the token of a constant is read as. -/
def constantExpr : Value → Expr
  | .int n => .literal .int (.int n)
  | .string s => .literal .plainText (.string s)
  | _ => Expr.null

/-- The operand that the token of a constant is. -/
def constantOperand : Value → Operand
  | .int n => .literal .int (.int n)
  | .string s => .literal .plainText (.string s)
  | _ => .null

/-- An operand as an item of a list. -/
def Grammar.Operand.item (a : Operand) : Disjunction := .last (.last (.plain (.operand a)))

theorem constantOperand_tokens (v : Value) : (constantOperand v).tokens = [constantToken v] := by
  cases v <;> rfl

theorem constantOperand_tree? (v : Value) : (constantOperand v).tree? = some (constantExpr v) := by
  cases v <;> rfl

theorem constantExpr_native {type : DataType} {value : Value} (h : isNative type value = true) :
    ∃ type', constantExpr value = .literal type' value := by
  unfold isNative at h
  split at h
  · exact ⟨_, rfl⟩
  · exact ⟨_, rfl⟩
  · exact ⟨_, rfl⟩
  · cases h

theorem agrees_literal (type type' : DataType) (value : Value) :
    Agrees (.literal type' value) (.literal type value) := by
  refine ⟨fun _ => rfl, ?_⟩
  intro _ _ h
  cases h
  exact ⟨type, rfl⟩

/-- A native constant is read back. -/
theorem asOperand_constant {type : DataType} {value : Value} (h : isNative type value = true) :
    AsOperand [constantToken value] (.literal type value) := by
  obtain ⟨type', hconstant⟩ := constantExpr_native h
  refine ⟨constantOperand value, _, constantOperand_tokens value, constantOperand_tree? value, ?_⟩
  rw [hconstant]
  exact agrees_literal type type' value

/-- The items of a written list of constants. -/
theorem exists_items : ∀ (v : Value) (rest : List Value),
    ∃ i : Items, i.tokens = constantTokens (v :: rest) ∧ i.trees? = some ((v :: rest).map constantExpr)
  | v, [] => by
    refine ⟨.last (constantOperand v).item, constantOperand_tokens v, ?_⟩
    rw [Items.trees?, show (constantOperand v).item.tree? = _ from constantOperand_tree? v]
    rfl
  | v, w :: rest => by
    obtain ⟨i, htokens, htrees⟩ := exists_items w rest
    refine ⟨.join (constantOperand v).item i, ?_, ?_⟩
    · rw [Items.tokens, htokens, show (constantOperand v).item.tokens = _ from constantOperand_tokens v]
      rfl
    · rw [Items.trees?, htrees, show (constantOperand v).item.tree? = _ from constantOperand_tree? v]
      rfl

/-- Items that are native constants mean a list of their values. -/
theorem writtenList?_native {type : DataType} {values : List Value} (h : values.all (isNative type) = true) :
    ∃ type', writtenList? (values.map constantExpr) = some (.list type' values) := by
  have hconstants : ∃ cs, (values.map constantExpr).mapM constant? = some cs ∧ cs.map Prod.snd = values := by
    induction values with
    | nil => exact ⟨[], rfl, rfl⟩
    | cons v rest ih =>
      rw [List.all_cons, Bool.and_eq_true] at h
      obtain ⟨type', hv⟩ := constantExpr_native h.1
      obtain ⟨cs, hcs, hvalues⟩ := ih h.2
      refine ⟨(type', v) :: cs, ?_, by rw [List.map_cons, hvalues]⟩
      rw [List.map_cons, List.mapM_cons, hcs, hv]
      rfl
  obtain ⟨cs, hcs, hvalues⟩ := hconstants
  rw [writtenList?, hcs, Option.bind_eq_bind, Option.bind_some, hvalues]
  exact ⟨_, rfl⟩

theorem agrees_list (type type' : DataType) (values : List Value) :
    Agrees (.list type' values) (.list type values) :=
  ⟨fun _ => rfl, fun _ _ h => by cases h⟩

/-- A list of two native values or more is read back. -/
theorem asOperand_list {type : DataType} {values : List Value} (h : values.all (isNative type) = true)
    (hlength : 2 ≤ values.length) : AsOperand (sqlTokens (.list type values)) (.list type values) := by
  obtain ⟨v, w, rest, rfl⟩ : ∃ v w rest, values = v :: w :: rest := by
    cases values with
    | nil => exact absurd hlength (by decide)
    | cons v tail =>
      cases tail with
      | nil => exact absurd hlength (Nat.lt_irrefl 1)
      | cons w rest => exact ⟨v, w, rest, rfl⟩
  obtain ⟨i, htokens, htrees⟩ := exists_items w rest
  obtain ⟨type', hlist⟩ := writtenList?_native h
  refine ⟨.list (constantOperand v).item i, .list type' (v :: w :: rest), ?_, ?_, agrees_list _ _ _⟩
  · rw [Operand.tokens, htokens, show (constantOperand v).item.tokens = _ from constantOperand_tokens v]
    rfl
  · rw [Operand.tree?, htrees, show (constantOperand v).item.tree? = _ from constantOperand_tree? v]
    exact hlist

theorem sqlEq_null (v : Value) : Value.sqlEq v .null = false := by
  cases v <;> rfl

/-- On the right of `in`, a list of native values of any length is read as what has the same members. -/
theorem asOperand_nativeList {type : DataType} {values : List Value} (h : values.all (isNative type) = true) :
    ∃ r, AsOperand (sqlTokens (.list type values)) r ∧
      (∀ type' value, r = .literal type' value → ∀ items, value ≠ .array items) ∧
      ∀ l, Same (.binary l .isIn r) (.binary l .isIn (.list type values)) := by
  match values, h with
  | [], _ =>
    refine ⟨Expr.null, ?_, ?_, ?_⟩
    · have hnull : AsOperand [Token.null] Expr.null := ⟨.null, Expr.null, rfl, rfl, Agrees.refl _⟩
      exact hnull.comparison.negation.conjunction.disjunction.grouped
    · intro type' value heq items
      cases heq
      exact Value.noConfusion
    · exact fun l => Same.isIn_members l (fun _ => rfl) (fun _ => rfl) sqlEq_null
  | [v], h =>
    have hv : isNative type v = true := by
      rw [List.all_cons, Bool.and_eq_true] at h
      exact h.1
    have hitem : ∀ items, v ≠ .array items := by
      rintro items rfl
      cases type <;> cases hv
    refine ⟨.literal type v, ?_, ?_, ?_⟩
    · exact (asOperand_constant hv).comparison.negation.conjunction.disjunction.grouped
    · intro type' value heq
      cases heq
      exact hitem
    · exact fun l => Same.isIn_members l (fun _ => rfl) (fun _ => rfl)
        fun u => (Same.isMember_singleton hitem u).symm
  | v :: w :: rest, h =>
    refine ⟨.list type (v :: w :: rest), asOperand_list h (Nat.le_add_left 2 _), ?_, fun l => Same.refl _⟩
    intro type' value heq
    cases heq

/-! ## One level after the other -/

/-- The tokens of the expression are read back at every level that its root binds tightly enough for. -/
structure ReadBack (e : Expr) : Prop where
  disjunction : AsDisjunction e.sqlTokens e
  conjunction : 2 ≤ e.binding → AsConjunction e.sqlTokens e
  negation : 3 ≤ e.binding → AsNegation e.sqlTokens e
  comparison : 4 ≤ e.binding → AsComparison e.sqlTokens e
  operand : 5 ≤ e.binding → AsOperand e.sqlTokens e

namespace ReadBack

variable {e l r : Expr}

/-- Between parentheses anything is an operand. -/
theorem grouped (h : ReadBack e) : AsOperand (grouped e.sqlTokens) e := h.disjunction.grouped

theorem ofOperand (h : AsOperand e.sqlTokens e) : ReadBack e where
  disjunction := h.comparison.negation.conjunction.disjunction
  conjunction _ := h.comparison.negation.conjunction
  negation _ := h.comparison.negation
  comparison _ := h.comparison
  operand _ := h

theorem ofComparison (h : AsComparison e.sqlTokens e) (hb : e.binding = 4) : ReadBack e where
  disjunction := h.negation.conjunction.disjunction
  conjunction _ := h.negation.conjunction
  negation _ := h.negation
  comparison _ := h
  operand hge := by omega

theorem ofNegation (h : AsNegation e.sqlTokens e) (hb : e.binding = 3) : ReadBack e where
  disjunction := h.conjunction.disjunction
  conjunction _ := h.conjunction
  negation _ := h
  comparison hge := by omega
  operand hge := by omega

theorem ofConjunction (h : AsConjunction e.sqlTokens e) (hb : e.binding = 2) : ReadBack e where
  disjunction := h.disjunction
  conjunction _ := h
  negation hge := by omega
  comparison hge := by omega
  operand hge := by omega

theorem ofDisjunction (h : AsDisjunction e.sqlTokens e) (hb : e.binding = 1) : ReadBack e where
  disjunction := h
  conjunction hge := by omega
  negation hge := by omega
  comparison hge := by omega
  operand hge := by omega

/-! ## Operations -/

/-- Beside `or`, whatever binds weaker would stand between parentheses. -/
theorem besideOr (h : ReadBack e) : AsDisjunction (wrapTokens e e.sqlTokens 1 false) e := by
  unfold wrapTokens
  split
  · exact h.grouped.comparison.negation.conjunction.disjunction
  · exact h.disjunction

/-- Beside `and`, an `or` stands between parentheses. -/
theorem besideAnd (h : ReadBack e) : AsConjunction (wrapTokens e e.sqlTokens 2 false) e := by
  unfold wrapTokens
  split
  · exact h.grouped.comparison.negation.conjunction
  · rename_i hb
    refine h.conjunction ?_
    simp only [Bool.false_and, Bool.or_false, decide_eq_true_eq] at hb
    omega

/-- On the right of a comparison, an operation stands between parentheses. -/
theorem rightOfComparison (h : ReadBack e) : AsOperand (wrapTokens e e.sqlTokens 4 true) e := by
  unfold wrapTokens
  split
  · exact h.grouped
  · rename_i hb
    refine h.operand ?_
    simp only [Bool.true_and, Bool.or_eq_true, decide_eq_true_eq, beq_iff_eq] at hb
    omega

/-- On the left of a comparison, an operation that is no comparison stands between parentheses. -/
theorem leftOfComparison (h : ReadBack e) (hb : e.binding ≠ 4) :
    AsOperand (wrapTokens e e.sqlTokens 4 false) e := by
  unfold wrapTokens
  split
  · exact h.grouped
  · rename_i hlt
    refine h.operand ?_
    simp only [Bool.false_and, Bool.or_false, decide_eq_true_eq] at hlt
    omega

theorem or (hl : ReadBack l) (hr : ReadBack r) : ReadBack (.binary l .or r) :=
  .ofDisjunction (hl.besideOr.or hr.besideOr) rfl

theorem and (hl : ReadBack l) (hr : ReadBack r) : ReadBack (.binary l .and r) :=
  .ofConjunction (hl.besideAnd.and hr.besideAnd) rfl

theorem not (h : ReadBack e) (hplain : e.isCompound = false → 5 ≤ e.binding) : ReadBack (.unary .not e) := by
  refine .ofNegation ?_ rfl
  have hnegation : AsNegation (if e.isCompound then Expr.grouped e.sqlTokens else e.sqlTokens) e := by
    split
    · exact h.grouped.comparison.negation
    · rename_i hcompound
      exact (h.operand (hplain (by simpa using hcompound))).comparison.negation
  exact hnegation.not

end ReadBack

/-- What reads as an operation reads as any expression of its value. -/
theorem Reads.congr {δ : Type} {tokens : δ → List Token} {tree? : δ → Option Expr} {ts : List Token}
    {l r e : Expr} {op : Operator} (h : Reads tokens tree? ts (.binary l op r)) (hsame : Same (.binary l op r) e) :
    Reads tokens tree? ts e := by
  obtain ⟨d, e', hd, he', hagrees⟩ := h
  refine ⟨d, e', hd, he', hagrees.same.trans hsame, ?_⟩
  intro type value heq
  obtain ⟨_, h⟩ := hagrees.literal type value heq
  cases h

/-- The comparator that an operator is written with compares as the operator does. -/
theorem sign_same {op : Operator} (hop : op.isComparison = true) (l r : Expr) :
    Same (.binary l op.sign.operator r) (.binary l op r) := by
  cases op <;> first | exact Same.refl _ | exact fun _ => rfl | cases hop

theorem sqlTokens_comparison {op : Operator} (hop : op.isComparison = true) : op.sqlTokens = op.sign.tokens := by
  cases op <;> first | rfl | cases hop

theorem sign_plain {op : Operator} (hin : op ≠ .isIn) : op.sign.isNegated = false ∧ op.sign ≠ .isIn := by
  cases op <;> first | exact ⟨rfl, by decide⟩ | exact absurd rfl hin

theorem binding_of_isComparison {op : Operator} (hop : op.isComparison = true) (l r : Expr) :
    (Expr.binary l op r).binding = 4 :=
  beq_iff_eq.mp hop

/-- Only a comparison binds as strongly as one. -/
theorem binding_ne_four {e : Expr} (h : e.isPlain = true) (hcomparison : e.isComparison = false) :
    e.binding ≠ 4 := by
  cases e with
  | binary l op r => exact beq_eq_false_iff_ne.mp hcomparison
  | unary op operand =>
    rw [(isPlain_unary_iff.mp h).1]
    exact fun h => by cases h
  | _ => exact fun h => by cases h

theorem wrapRightTokens_eq {op : Operator} (hop : op.isComparison = true) (hin : op ≠ .isIn) (operand : Expr)
    (ts : List Token) : wrapRightTokens op operand ts = wrapTokens operand ts 4 true := by
  cases op <;> first | rfl | exact absurd rfl hin | cases hop

/-- A plain field is read back. -/
theorem asOperand_field {ref : FieldRef} (h : isPlainField ref = true) :
    AsOperand (sqlTokens (.field ref)) (.field ref) := by
  obtain ⟨field, quoted, model, modelQuoted⟩ := ref
  refine ⟨.field field false (model.map fun model => (model, false)), _, rfl, rfl, ?_, ?_⟩
  · intro s
    cases model <;> rfl
  · intro type value heq
    cases heq

/-- What stands on the right of `in` is read as what has the same members. -/
theorem rightOfIn {right : Expr} (h : right.isPlain = true ∨ right.isNativeList = true)
    (hread : right.isPlain = true → ReadBack right) :
    ∃ r, AsOperand (wrapRightTokens .isIn right right.sqlTokens) r ∧
      (∀ type value, r = .literal type value → ∀ items, value ≠ .array items) ∧
      ∀ l, Same (.binary l .isIn r) (.binary l .isIn right) := by
  cases right with
  | list type values =>
    refine asOperand_nativeList ?_
    rcases h with h | h
    · exact (isPlain_list_iff.mp h).1
    · exact h
  | literal type value =>
    have hplain := h.resolve_right (by simp [isNativeList])
    refine ⟨.literal type value, (hread hplain).grouped, ?_, fun l => Same.refl _⟩
    rintro type' value' heq items rfl
    cases heq
    cases type <;> cases hplain
  | _ =>
    have hplain := h.resolve_right (by simp [isNativeList])
    refine ⟨_, (hread hplain).grouped, ?_, fun l => Same.refl _⟩
    intro type value heq
    cases heq

/-- The tokens of a plain and flat expression are read as an expression of the same value. -/
theorem readBack : ∀ (e : Expr), e.isPlain = true → e.isFlat = true → ReadBack e
  | .literal type value, h, _ => .ofOperand (asOperand_constant h)
  | .field ref, h, _ => .ofOperand (asOperand_field h)
  | .list type values, h, _ => by
    obtain ⟨hnative, hlength⟩ := isPlain_list_iff.mp h
    exact .ofOperand (asOperand_list hnative hlength)
  | .unary op operand, h, hflat => by
    obtain ⟨rfl, hoperand⟩ := isPlain_unary_iff.mp h
    refine (readBack operand hoperand hflat).not ?_
    intro hcompound
    cases operand <;> first | exact Nat.le_refl 5 | cases hcompound
  | .binary left op right, h, hflat => by
    obtain ⟨hnot, hleft, hright⟩ := isPlain_binary_iff.mp h
    rw [isFlat, Bool.and_eq_true, Bool.and_eq_true, Bool.not_eq_true', Bool.and_eq_false_iff] at hflat
    obtain ⟨⟨hleftFlat, hrightFlat⟩, hcomparison⟩ := hflat
    have hl := readBack left hleft hleftFlat
    by_cases hop : op.isComparison = true
    · have hbinding := binding_ne_four hleft (hcomparison.resolve_left (by simp [hop]))
      have hleftOperand := hl.leftOfComparison hbinding
      refine .ofComparison ?_ (binding_of_isComparison hop left right)
      rw [sqlTokens, sqlTokens_comparison hop]
      by_cases hin : op = .isIn
      · subst hin
        have hread : right.isPlain = true → ReadBack right := fun h => readBack right h hrightFlat
        obtain ⟨r, hr, hitem, hsame⟩ := rightOfIn (hright.imp_right And.right) hread
        exact (hleftOperand.compareIn hr hitem).congr (hsame left)
      · have hr := (readBack right (hright.resolve_right fun h => hin h.1) hrightFlat).rightOfComparison
        rw [wrapRightTokens_eq hop hin, beq_iff_eq.mp hop]
        exact (hleftOperand.compare hr (sign_plain hin).1 (sign_plain hin).2).congr (sign_same hop left right)
    · have hr : right.isPlain = true := hright.resolve_right fun h => hop (by rw [h.1]; rfl)
      have hr := readBack right hr hrightFlat
      cases op with
      | or => exact hl.or hr
      | and => exact hl.and hr
      | not => exact absurd rfl hnot
      | _ => exact absurd rfl hop

/-! ## Whole texts -/

/-- A text that spells derivable tokens is parsed as an expression of the same value. -/
theorem parse_of_reads {text : String} {ts : List Token} {e : Expr} (h : Format.Spells text.toList ts)
    (hread : AsDisjunction ts e) (b : Format.Binding) : ∃ e', parse text b = .ok e' ∧ Agrees e' e := by
  obtain ⟨d, e', hd, he', hagrees⟩ := hread
  obtain ⟨us, htokens, hus, -⟩ := h.tokenize b
  rw [String.ofList_toList] at htokens
  refine ⟨e', ?_, hagrees⟩
  rw [parse_eq_ofTokens htokens]
  exact ofTokens_of_derives ⟨d, hd.trans hus.symm, he'⟩

/-- The tokens that a parsed text spells derive from the grammar. -/
theorem derives_of_parse {text : String} {ts : List Token} {e : Expr} {b : Format.Binding}
    (h : Format.Spells text.toList ts) (hparse : parse text b = .ok e) : Derives ts e := by
  obtain ⟨us, htokens, rfl, -⟩ := h.tokenize b
  rw [String.ofList_toList] at htokens
  rw [parse_eq_ofTokens htokens] at hparse
  exact derives_of_ofTokens (Format.lexical_of_tokenize htokens) hparse

/-! ## Evaluation -/

/-- A plain expression has a value wherever it is evaluated. -/
theorem evaluates_of_isPlain : ∀ (e : Expr), e.isPlain = true → Evaluates e
  | .literal _ value, _ => fun _ => ⟨value, rfl⟩
  | .field ref, _ => fun s => ⟨lookup s ref, rfl⟩
  | .list type values, _ => .list type values
  | .unary op operand, h => by
    obtain ⟨rfl, hoperand⟩ := isPlain_unary_iff.mp h
    exact (evaluates_of_isPlain operand hoperand).not
  | .binary left op right, h => by
    obtain ⟨hop, hleft, hright⟩ := isPlain_binary_iff.mp h
    have hr : Evaluates right := by
      rcases hright with hplain | ⟨-, hlist⟩
      · exact evaluates_of_isPlain right hplain
      · obtain ⟨type, values, rfl, -⟩ := isNativeList_iff.mp hlist
        exact .list type values
    exact (evaluates_of_isPlain left hleft).binary hr hop

end RecordQuery.Expr
