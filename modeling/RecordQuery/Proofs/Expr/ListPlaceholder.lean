import RecordQuery.Proofs.Dialect.Quoted
import RecordQuery.Proofs.Expr.RoundTrip
import RecordQuery.Proofs.Format.Literals
set_option autoImplicit false

/-!
# Expr: list placeholders and written lists

The right side of `in` is a list that is written out, or a list placeholder that takes its values from one
argument.  Both are read as the same list of values, under two rules for its type: a written list has the type
of its first value that is not null, a placeholder without a code the type of its first value.  So the two mean
the same, and are written as the same SQL unless null stands before the first integer or truth value.
-/

namespace RecordQuery

open Format (Token Binding IsLiteral Yields literalToken isName)

namespace Expr

open Grammar

/-! ## The two lists -/

/-- Whether a name has one of the values. -/
def membership (name : String) (type : DataType) (values : List Value) : Expr :=
  .binary (.raw name) .isIn (.list type values)

/-- The type of a constant that is written alone: null is a text that may be null. -/
def literalType : Value → DataType
  | .null => .text true
  | v => .infer v

/-- The type of a list that is written out. -/
def writtenType : List Value → DataType
  | [v] => literalType v
  | vs => ((vs.find? fun v => !v.isNull).map .infer).getD .plainText

/-! ## Reading them -/

/-- The operand that a constant is. -/
def literalOperand : Value → Operand
  | .null => .null
  | v => .literal (.infer v) v

theorem literalOperand_tokens (v : Value) : (literalOperand v).tokens = [literalToken v] := by
  cases v <;> rfl

theorem literalOperand_tree? (v : Value) : (literalOperand v).item.tree? = some (.literal (literalType v) v) := by
  cases v <;> rfl

/-- Constants after a comma are items of a list. -/
theorem exists_literalItems : ∀ (v : Value) (vs : List Value),
    ∃ i : Items, i.tokens = ((v :: vs).map literalToken).intersperse .comma ∧
      i.trees? = some ((v :: vs).map fun w => .literal (literalType w) w)
  | v, [] => by
    refine ⟨.last (literalOperand v).item, literalOperand_tokens v, ?_⟩
    rw [Items.trees?, literalOperand_tree?]
    rfl
  | v, w :: vs => by
    obtain ⟨i, htokens, htrees⟩ := exists_literalItems w vs
    refine ⟨.join (literalOperand v).item i, ?_, ?_⟩
    · rw [Items.tokens, htokens, show (literalOperand v).item.tokens = _ from literalOperand_tokens v]
      rfl
    · rw [Items.trees?, htrees, literalOperand_tree?]
      rfl

theorem constants_of_literals (vs : List Value) :
    (vs.map fun v => Expr.literal (literalType v) v).mapM constant? = some (vs.map fun v => (literalType v, v)) := by
  induction vs with
  | nil => rfl
  | cons v rest ih =>
    rw [List.map_cons, List.mapM_cons, ih]
    rfl

theorem types_of_literals (vs : List Value) :
    (((vs.map fun v => (literalType v, v)).filter fun c => !c.2.isNull).map Prod.fst).head? =
      (vs.find? fun v => !v.isNull).map .infer := by
  induction vs with
  | nil => rfl
  | cons v rest ih =>
    cases v with
    | null => exact ih
    | _ => rfl

/-- The constants between parentheses are a list of the type of the first one that is not null. -/
theorem writtenList?_literals (vs : List Value) : writtenList? (vs.map fun v => .literal (literalType v) v) =
    some (.list (((vs.find? fun v => !v.isNull).map .infer).getD .plainText) vs) := by
  rw [writtenList?, constants_of_literals, Option.bind_eq_bind, Option.bind_some]
  simp only [types_of_literals, List.map_map]
  exact congrArg (fun values => some (Expr.list _ values)) (List.map_id vs)

/-- Constants between parentheses on the right of `in` are read as a list. -/
theorem exists_writtenOperand : ∀ {vs : List Value}, vs ≠ [] →
    ∃ a : Operand, a.tokens = .openParen :: ((vs.map literalToken).intersperse .comma ++ [.closeParen]) ∧
      a.tree?.map Comparator.listed = some (.list (writtenType vs) vs)
  | [v], _ => by
    refine ⟨.group (literalOperand v).item, ?_, ?_⟩
    · rw [Operand.tokens, show (literalOperand v).item.tokens = _ from literalOperand_tokens v]
      rfl
    · rw [Operand.tree?, literalOperand_tree?]
      rfl
  | v :: w :: vs, _ => by
    obtain ⟨i, htokens, htrees⟩ := exists_literalItems w vs
    have hlist := writtenList?_literals (v :: w :: vs)
    rw [List.map_cons] at hlist
    refine ⟨.list (literalOperand v).item i, ?_, ?_⟩
    · rw [Operand.tokens, htokens, show (literalOperand v).item.tokens = _ from literalOperand_tokens v]
      rfl
    · rw [Operand.tree?, htrees, literalOperand_tree?, Option.bind_some, Option.bind_some, hlist]
      rfl

/-- A name, `in` and an operand are read as a comparison with the list that the operand is. -/
theorem parse_membership {name : String} (hname : isName name = true) {b : Binding} {text : String}
    {a : Operand} {type : DataType} {vs : List Value} (htext : Yields b text.toList 0 a.tokens)
    (ha : a.tree?.map Comparator.listed = some (.list type vs)) :
    parse (name ++ " in " ++ text) b = .ok (membership name type vs) := by
  obtain ⟨right, hright, hlisted⟩ := Option.map_eq_some_iff.mp ha
  have hkeyword : Format.isWord "in" = true := rfl
  have hin : Yields b ("in".toList ++ ' ' :: text.toList) 0 (.operator "in" :: a.tokens) :=
    .word hkeyword rfl (.inl rfl) (Format.breaks_cons rfl _) (htext.space rfl)
  have hyields : Yields b (name.toList ++ ' ' :: ("in".toList ++ ' ' :: text.toList)) 0
      (.field name false none :: .operator "in" :: a.tokens) := by
    refine .word (Format.isWord_of_isName hname) (Format.wordToken_of_isName hname) (.inr ?_)
      (Format.breaks_cons rfl _) (hin.space rfl)
    exact Format.throughDot_word hkeyword (Format.breaks_cons rfl _)
  obtain ⟨us, hus, htokens⟩ := hyields.tokenize
  have hformat : String.ofList (name.toList ++ ' ' :: ("in".toList ++ ' ' :: text.toList)) =
      name ++ " in " ++ text := by
    rw [← String.toList_inj, String.toList_ofList, String.toList_append, String.toList_append, List.append_assoc]
    rfl
  rw [hformat] at hus
  rw [parse_eq_ofTokens hus]
  refine ofTokens_of_derives ⟨.last (.last (.plain (.compare (.field name false none) .isIn a))), htokens.symm, ?_⟩
  show (Comparison.compare (.field name false none) .isIn a).tree? = _
  rw [Comparison.tree?, Operand.tree?, hright, Option.bind_some, Option.map_some, Comparator.combine, hlisted]
  rfl

/-! ## Writing them as SQL -/

/-- The literals of a list with commas between them; none where a value does not fit the type. -/
def literalsText (d : Dialect) (type : DataType) (values : List Value) : Option String :=
  (values.mapM (d.quoteLiteral type)).toOption.map (Text.joined ", ")

section

variable {d : Dialect} {t u : DataType} {v : Value} {vs : List Value}

theorem render_membership (name : String) (t : DataType) (hne : vs ≠ []) :
    ((membership name t vs).render d).toOption =
      (literalsText d t vs).map fun text =>
        name ++ " " ++ Operator.isIn.sql ++ " " ++ ("(" ++ text ++ ")") := by
  have hempty : vs.isEmpty = false := by
    rw [Bool.eq_false_iff]
    exact fun h => hne (List.isEmpty_iff.mp h)
  have hlist : renderList d t vs = (do return "(" ++ Text.joined ", " (← vs.mapM (d.quoteLiteral t)) ++ ")") := by
    rw [renderList, hempty]
    rfl
  have hrender : (membership name t vs).render d =
      (do return name ++ " " ++ Operator.isIn.sql ++ " " ++ (← renderList d t vs)) := by
    rw [membership, render, render]
    rfl
  rw [hrender, hlist, literalsText]
  cases vs.mapM (d.quoteLiteral t) with
  | error fault => rfl
  | ok texts => rfl

/-- Two lists are written alike when their literals are. -/
theorem render_membership_iff (name : String) (hne : vs ≠ []) :
    ((membership name t vs).render d).toOption = ((membership name u vs).render d).toOption ↔
      literalsText d t vs = literalsText d u vs := by
  rw [render_membership name t hne, render_membership name u hne]
  refine (Option.map_injective ?_).eq_iff
  intro x y h
  have htext := (String.append_left_inj ")").mp ((String.append_right_inj _).mp h)
  exact (String.append_right_inj "(").mp htext

/-- Null is written alike in all types. -/
theorem literalsText_null (hnull : ∀ v ∈ vs, v.isNull = true) : literalsText d t vs = literalsText d u vs := by
  have hquoted : ∀ v ∈ vs, d.quoteLiteral t v = d.quoteLiteral u v := by
    intro v hv
    have hv := hnull v hv
    cases v <;> first | rfl | cases hv
  rw [literalsText, literalsText, Outcome.mapM_congr hquoted]

/-- The texts are read as different literals. -/
def ReadApart (d : Dialect) (x y : String) : Prop :=
  ∃ l m, l ≠ m ∧ (∀ rest, Dialect.Delimits rest → d.readLiteral (x.toList ++ rest) = some (l, rest)) ∧
    ∀ rest, Dialect.Delimits rest → d.readLiteral (y.toList ++ rest) = some (m, rest)

/-- Different values that are stored are read apart. -/
theorem readApart_of_literal? {v w : Value} {l m : SqlLiteral} (hl : d.literal? v = some l)
    (hm : d.literal? w = some m) (hne : l ≠ m) : ReadApart d (d.quoteMarked v) (d.quoteMarked w) :=
  ⟨l, m, hne, fun _ => Dialect.readLiteral_quoteMarked hl, fun _ => Dialect.readLiteral_quoteMarked hm⟩

/-- What follows the first text of several delimits it. -/
theorem exists_joined_cons (text : String) (texts : List String) :
    ∃ rest, (Text.joined ", " (text :: texts)).toList = text.toList ++ rest ∧ Dialect.Delimits rest := by
  cases texts with
  | nil =>
    refine ⟨[], ?_, fun _ h => by cases h⟩
    rw [Text.joined, String.intercalate_singleton, List.append_nil]
  | cons next texts =>
    refine ⟨',' :: ' ' :: (Text.joined ", " (next :: texts)).toList, ?_, fun c hc => ?_⟩
    · rw [Text.joined, String.intercalate_cons_cons, String.toList_append, String.toList_append, List.append_assoc]
      rfl
    · cases hc
      exact .inr List.mem_cons_self

/-- Lists that begin with texts read apart are different texts. -/
theorem ReadApart.joined_ne {x y : String} (h : ReadApart d x y) (xs ys : List String) :
    Text.joined ", " (x :: xs) ≠ Text.joined ", " (y :: ys) := by
  intro heq
  obtain ⟨l, m, hne, hx, hy⟩ := h
  obtain ⟨rest, hxs, hrest⟩ := exists_joined_cons x xs
  obtain ⟨rest', hys, hrest'⟩ := exists_joined_cons y ys
  have hl := hx rest hrest
  have hm := hy rest' hrest'
  rw [← hxs, heq, hys, hm] at hl
  exact hne (congrArg Prod.fst (Option.some.inj hl)).symm

/-- Lists of two types differ where the first value that is not null is read apart. -/
theorem joined_ne_of_readApart {x y : String} (hv : (vs.find? fun v => !v.isNull) = some v)
    (hx : d.quoteLiteral t v = .ok x) (hy : d.quoteLiteral u v = .ok y) (hapart : ReadApart d x y)
    {xs ys : List String} (hxs : vs.mapM (d.quoteLiteral t) = .ok xs) (hys : vs.mapM (d.quoteLiteral u) = .ok ys) :
    Text.joined ", " xs ≠ Text.joined ", " ys := by
  induction vs generalizing xs ys with
  | nil => cases hv
  | cons w rest ih =>
    obtain ⟨x', xs', hx', hxs', rfl⟩ := Outcome.mapM_cons_eq_ok.mp hxs
    obtain ⟨y', ys', hy', hys', rfl⟩ := Outcome.mapM_cons_eq_ok.mp hys
    rw [List.find?_cons] at hv
    split at hv
    · cases hv
      rw [hx] at hx'
      rw [hy] at hy'
      cases hx'
      cases hy'
      exact hapart.joined_ne xs' ys'
    · rename_i hnull
      have hnull : w = .null := by simpa using hnull
      subst hnull
      cases hx'
      cases hy'
      have hmore := ih hv hxs' hys'
      -- null is not the last value, since one that is not null comes later
      cases rest with
      | nil => cases hv
      | cons next rest =>
        obtain ⟨_, _, -, -, rfl⟩ := Outcome.mapM_cons_eq_ok.mp hxs'
        obtain ⟨_, _, -, -, rfl⟩ := Outcome.mapM_cons_eq_ok.mp hys'
        rw [Text.joined, Text.joined, String.intercalate_cons_cons, String.intercalate_cons_cons, ne_eq,
          String.append_right_inj]
        exact hmore

/-- A text column takes every value. -/
theorem quoteLiteral_plainText (d : Dialect) (v : Value) :
    ∃ text, d.quoteLiteral .plainText v = .ok text := by
  cases v <;> exact ⟨_, rfl⟩

/-- An integer or truth value is written apart from its text. -/
theorem readApart_infer (d : Dialect) {v : Value} (h : (∃ n, v = .int n) ∨ ∃ b, v = .bool b) :
    ∃ x y, d.quoteLiteral (.infer v) v = .ok x ∧ d.quoteLiteral .plainText v = .ok y ∧ ReadApart d x y := by
  rcases h with ⟨n, rfl⟩ | ⟨b, rfl⟩
  · exact ⟨_, _, rfl, rfl, readApart_of_literal? (v := .int n) rfl (w := .string _) rfl nofun⟩
  · cases d with
    | postgres => exact ⟨_, _, rfl, rfl, readApart_of_literal? (v := .bool b) rfl (w := .string _) rfl nofun⟩
    | _ => exact ⟨_, _, rfl, rfl, readApart_of_literal? (v := .int _) rfl (w := .string _) rfl nofun⟩

/-- A list with an integer or truth value after null is written apart from its texts. -/
theorem literalsText_ne (hv : (vs.find? fun v => !v.isNull) = some v)
    (hkind : (∃ n, v = .int n) ∨ ∃ b, v = .bool b) :
    literalsText d (.infer v) vs ≠ literalsText d .plainText vs := by
  obtain ⟨x, y, hx, hy, hapart⟩ := readApart_infer d hkind
  obtain ⟨ys, hys⟩ : ∃ ys, vs.mapM (d.quoteLiteral .plainText) = .ok ys :=
    ⟨_, Outcome.mapM_eq_ok fun v _ => (quoteLiteral_plainText d v).choose_spec⟩
  rw [literalsText, literalsText, hys]
  intro heq
  cases hxs : vs.mapM (d.quoteLiteral (.infer v)) with
  | error fault =>
    rw [hxs] at heq
    cases heq
  | ok xs =>
    rw [hxs] at heq
    exact joined_ne_of_readApart hv hx hy hapart hxs hys (Option.some.inj heq)

end

/-! ## The two lists compared -/

theorem writtenType_of_present {v : Value} (hv : v ≠ .null) (vs : List Value) :
    writtenType (v :: vs) = .infer v := by
  cases v with
  | null => exact absurd rfl hv
  | _ => cases vs <;> rfl

theorem writtenType_of_null {w : Value} {vs : List Value} (hw : vs.find? (fun w => !w.isNull) = some w) :
    writtenType (.null :: vs) = .infer w := by
  cases vs with
  | nil => cases hw
  | cons v rest =>
    show (((v :: rest).find? fun w => !w.isNull).map DataType.infer).getD .plainText = .infer w
    rw [hw]
    rfl

/-- The two types of a list give the same text exactly when null does not stand first, or the first value that is
not null is a string, or all values are null. -/
theorem literalsText_eq_iff (d : Dialect) {v : Value} {vs : List Value}
    (hkinds : ∀ w ∈ v :: vs, ∃ text, IsLiteral w text) :
    literalsText d (writtenType (v :: vs)) (v :: vs) = literalsText d (.infer v) (v :: vs) ↔
      (v = .null → ∀ w, vs.find? (fun w => !w.isNull) = some w → ∃ s, w = .string s) := by
  by_cases hv : v = .null
  · subst hv
    cases hfind : vs.find? fun w => !w.isNull with
    | none =>
      have hnull : ∀ w ∈ Value.null :: vs, w.isNull = true :=
        List.forall_mem_cons.mpr ⟨rfl, fun w hw => by simpa using List.find?_eq_none.mp hfind w hw⟩
      exact iff_of_true (literalsText_null hnull) fun _ _ h => nomatch h
    | some w =>
      have hlist : (Value.null :: vs).find? (fun w => !w.isNull) = some w := hfind
      have hpresent := List.find?_some hfind
      obtain ⟨text, hw⟩ := hkinds w (List.mem_cons_of_mem _ (List.mem_of_find?_eq_some hfind))
      rw [writtenType_of_null hfind]
      cases hw with
      | null => cases hpresent
      | bool =>
        refine iff_of_false (literalsText_ne hlist (.inr ⟨_, rfl⟩)) fun h => ?_
        obtain ⟨s, hs⟩ := h rfl _ rfl
        cases hs
      | int =>
        refine iff_of_false (literalsText_ne hlist (.inl ⟨_, rfl⟩)) fun h => ?_
        obtain ⟨s, hs⟩ := h rfl _ rfl
        cases hs
      | quoted s => exact iff_of_true rfl fun _ u hu => ⟨s, (Option.some.inj hu).symm⟩
      | text s => exact iff_of_true rfl fun _ u hu => ⟨s, (Option.some.inj hu).symm⟩
  · rw [writtenType_of_present hv]
    exact iff_of_true rfl fun h => absurd h hv

theorem exists_isLiteral {vs : List Value} {texts : List String}
    (h : List.Forall₂ (fun v text => IsLiteral v text.toList) vs texts) : ∀ v ∈ vs, ∃ text, IsLiteral v text := by
  induction h with
  | nil => exact fun v hv => absurd hv List.not_mem_nil
  | cons hv _ ih => exact List.forall_mem_cons.mpr ⟨⟨_, hv⟩, ih⟩

/-- A list placeholder and the list written out, with constants in any spelling, are both read, and have the same
value wherever they are evaluated.  They are written as the same SQL, or both as none, in every dialect if null
is not the first value, or if the first value that is not null is a string, or if all are null; in all other
cases they differ in every dialect. -/
theorem list_placeholder_iff {name : String} (hname : isName name = true) {vs : List Value} {texts : List String}
    (hne : vs ≠ []) (htexts : List.Forall₂ (fun v text => IsLiteral v text.toList) vs texts)
    (registry : Registry) :
    ∃ written bound,
      parse (name ++ " in (" ++ Text.joined ", " texts ++ ")") ⟨[], registry⟩ = .ok written ∧
        parse (name ++ " in ?()") ⟨[.array vs], registry⟩ = .ok bound ∧
        (∀ s, written.evaluate s = bound.evaluate s) ∧
        ∀ d, (written.render d).toOption = (bound.render d).toOption ↔
          (vs.head? = some .null → ∀ v, vs.find? (fun v => !v.isNull) = some v → ∃ s, v = .string s) := by
  obtain ⟨v, vs, rfl⟩ := List.exists_cons_of_ne_nil hne
  obtain ⟨a, htokens, ha⟩ := exists_writtenOperand hne
  have hwritten : Yields ⟨[], registry⟩ ("(" ++ Text.joined ", " texts ++ ")").toList 0 a.tokens := by
    rw [htokens, toList_parens]
    exact Format.yields_openParen
      (Format.yields_literals htexts (Format.breaks_cons rfl []) (Format.yields_closeParen _ 0))
  have hbound : Yields ⟨[.array (v :: vs)], registry⟩ "?()".toList 0
      (Operand.tuple (.infer v) ((v :: vs).map (DataType.infer v, ·))).tokens := by
    rw [Operand.tokens, List.map_map]
    exact Format.yields_placeholder registry
  have hvalues : ((v :: vs).map (DataType.infer v, ·)).map Prod.snd = v :: vs := by
    rw [List.map_map]
    exact List.map_id _
  refine ⟨membership name (writtenType (v :: vs)) (v :: vs), membership name (.infer v) (v :: vs), ?_, ?_,
    fun _ => rfl, fun d => ?_⟩
  · have hformat : name ++ " in (" ++ Text.joined ", " texts ++ ")" =
        name ++ " in " ++ ("(" ++ Text.joined ", " texts ++ ")") := by
      have hin : " in (" = " in " ++ "(" := rfl
      simp only [hin, String.append_assoc]
    rw [hformat]
    exact parse_membership hname hwritten ha
  · have hformat : name ++ " in ?()" = name ++ " in " ++ "?()" := by
      rw [String.append_assoc]
      rfl
    rw [hformat]
    refine parse_membership hname hbound ?_
    rw [Operand.tree?, hvalues]
    rfl
  · rw [render_membership_iff name hne, literalsText_eq_iff d (exists_isLiteral htexts), List.head?_cons,
      Option.some_inj]
    refine imp_congr_right fun hnull => ?_
    subst hnull
    exact Iff.rfl

/-- In `x in ('it''s', Null, -07)` the string stands first, so that the written list and the placeholder are the
same SQL. -/
theorem list_placeholder_string_first :
    ∃ written bound, parse "x in ('it''s', Null, -07)" ⟨[], []⟩ = .ok written ∧
      parse "x in ?()" ⟨[.array [.string "it's", .null, .int (-7)]], []⟩ = .ok bound ∧
      written.evaluate (Record.scope [("x", .int (-7))]) = bound.evaluate (Record.scope [("x", .int (-7))]) ∧
      (written.render .mysql).toOption = (bound.render .mysql).toOption := by
  have hname : isName "x" = true := by decide
  have hwritten : "x" ++ " in (" ++ Text.joined ", " ["'it''s'", "Null", "-07"] ++ ")" =
      "x in ('it''s', Null, -07)" := by decide
  have hbound : "x" ++ " in ?()" = "x in ?()" := by decide
  have hseven : Text.readInt64 "-07".toList = some (-7) := by decide
  have htexts : List.Forall₂ (fun v (text : String) => IsLiteral v text.toList)
      [.string "it's", .null, .int (-7)] ["'it''s'", "Null", "-07"] :=
    .cons (.quoted "it's") (.cons (.null rfl) (.cons (.int (.negative (by decide) (by decide)) hseven) .nil))
  obtain ⟨written, bound, hparse, hparse', hvalue, hsql⟩ :=
    list_placeholder_iff hname (by decide) htexts []
  rw [hwritten] at hparse
  rw [hbound] at hparse'
  exact ⟨written, bound, hparse, hparse', hvalue _, (hsql .mysql).mpr fun h => by cases h⟩

/-- Where null stands before an integer, the written list compares with integers and the placeholder with texts. -/
theorem list_placeholder_null_first :
    ∃ written bound, parse "x in (null, 5)" ⟨[], []⟩ = .ok written ∧
      parse "x in ?()" ⟨[.array [.null, .int 5]], []⟩ = .ok bound ∧
      written.render .postgres = .ok "x IN (NULL, 5)" ∧ bound.render .postgres = .ok "x IN (NULL, '5')" := by
  have hwritten : Format.tokenize "x in (null, 5)" ⟨[], []⟩ =
      .ok [⟨.field "x" false none, 0, 1, false⟩, ⟨.operator "in", 2, 4, false⟩, ⟨.openParen, 5, 6, false⟩,
        ⟨.null, 6, 10, false⟩, ⟨.comma, 10, 11, false⟩, ⟨.literal .int (.int 5), 12, 13, false⟩,
        ⟨.closeParen, 13, 14, false⟩] := rfl
  have hbound : Format.tokenize "x in ?()" ⟨[.array [.null, .int 5]], []⟩ =
      .ok [⟨.field "x" false none, 0, 1, false⟩, ⟨.operator "in", 2, 4, false⟩,
        ⟨.openList .plainText, 5, 8, true⟩, ⟨.literal .plainText .null, 5, 8, true⟩,
        ⟨.literal .plainText (.int 5), 5, 8, true⟩, ⟨.closeList, 5, 8, true⟩] := rfl
  refine ⟨membership "x" .int [.null, .int 5], membership "x" .plainText [.null, .int 5], ?_, ?_, rfl, rfl⟩
  · rw [parse_eq_ofTokens hwritten]
    rfl
  · rw [parse_eq_ofTokens hbound]
    rfl

end Expr

end RecordQuery
