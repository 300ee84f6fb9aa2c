import RecordQuery.Proofs.Format.Literals
set_option autoImplicit false

/-!
# Format: every string can be quoted

A format has two notations for strings.  Between double quotes a backslash stands before every backslash and quote,
between single quotes every quote is doubled.  Both spell every string: whatever follows, the quoted text is one
piece (`scan_escaping`, `scan_doubling`) and makes one token.  What follows is tokenized as if it stood alone, except
that its bytes are counted from the end of the quoted text; for that, tokens are shown to depend on where a piece
stands only by their spans (`tokensFrom_shift`).
-/

namespace RecordQuery.Format

/-! ## Tokens elsewhere -/

/-- The token some bytes further on. -/
def Spanned.shift (n : Nat) (s : Spanned) : Spanned := { s with start := s.start + n, stop := s.stop + n }

section

variable (b : Binding) (index position position' : Nat)

/-! Where a piece stands is only for messages: apart from them it makes no difference. -/

theorem nameOf_elsewhere (v : Value) :
    (Binding.nameOf v position).toOption = (Binding.nameOf v position').toOption := by
  unfold Binding.nameOf
  cases v with
  | string s =>
    simp only
    split <;> rfl
  | object entries =>
    simp only
    split <;> rfl
  | _ => rfl

theorem takeName_elsewhere : (b.takeName index position).toOption = (b.takeName index position').toOption := by
  rw [Binding.takeName, Binding.takeName, Outcome.toOption_bind, Outcome.toOption_bind]
  simp only [nameOf_elsewhere position position']

theorem placeholderType_elsewhere (code : Option String) (tuple : Bool) :
    (b.placeholderType code tuple index position).toOption =
      (b.placeholderType code tuple index position').toOption := by
  unfold Binding.placeholderType
  split
  · rfl
  · rw [Outcome.toOption_bind, Outcome.toOption_bind]
    refine Option.bind_congr fun v _ => ?_
    cases v <;> rfl
  · rfl

theorem placeholder_elsewhere (code : Option String) (tuple : Bool) :
    (b.placeholder code tuple index position).toOption = (b.placeholder code tuple index position').toOption := by
  unfold Binding.placeholder
  split
  · rw [Outcome.toOption_bind, Outcome.toOption_bind, takeName_elsewhere b index position position']
  split
  · rw [Outcome.toOption_bind, Outcome.toOption_bind, takeName_elsewhere b index position position']
  · rw [Outcome.toOption_bind, Outcome.toOption_bind, placeholderType_elsewhere b index position position']
    refine Option.bind_congr fun typed _ => ?_
    obtain ⟨t, tuple, next⟩ := typed
    rw [Outcome.toOption_bind, Outcome.toOption_bind]
    refine Option.bind_congr fun v _ => ?_
    cases tuple with
    | true => cases v <;> rfl
    | false => rfl

theorem numberToken_elsewhere (text : List Char) :
    (Binding.numberToken text position).toOption = (Binding.numberToken text position').toOption := by
  unfold Binding.numberToken
  split
  · rfl
  · split <;> rfl

theorem pieceTokens_elsewhere (p : Piece) :
    (b.pieceTokens p index position).toOption = (b.pieceTokens p index position').toOption := by
  unfold Binding.pieceTokens
  cases p.lexeme with
  | placeholder code tuple =>
    simp only
    rw [Outcome.toOption_bind, Outcome.toOption_bind, placeholder_elsewhere b index position position']
  | number text =>
    simp only
    rw [Outcome.toOption_bind, Outcome.toOption_bind, numberToken_elsewhere position position']
  | _ => rfl

theorem fieldAfterDot_elsewhere (p : Piece) :
    (b.fieldAfterDot p index position).toOption = (b.fieldAfterDot p index position').toOption := by
  unfold Binding.fieldAfterDot
  split
  · rfl
  · rfl
  · split
    · rw [Outcome.toOption_bind, Outcome.toOption_bind, takeName_elsewhere b index position position']
    · rfl
  · rfl

end

/-- Tokens that are all moved, in front of tokens that are all moved. -/
theorem toOption_append_shift {n : Nat} {rest rest' : Outcome (List Spanned)} (ts : List Spanned)
    (h : rest'.toOption = rest.toOption.map (List.map (Spanned.shift n))) :
    (do return ts.map (Spanned.shift n) ++ (← rest') : Outcome (List Spanned)).toOption =
      (do return ts ++ (← rest) : Outcome (List Spanned)).toOption.map (List.map (Spanned.shift n)) := by
  rw [Outcome.toOption_bind, Outcome.toOption_bind, h, Option.bind_map, Option.map_bind]
  refine Option.bind_congr fun us _ => ?_
  exact congrArg some List.map_append.symm

/-- Pieces that stand some bytes further on make the same tokens, that much further on. -/
theorem tokensFrom_shift (b : Binding) (n skip : Nat) (ps : List Piece) (position index : Nat) :
    (b.tokensFrom skip ps (position + n) index).toOption =
      (b.tokensFrom skip ps position index).toOption.map (List.map (Spanned.shift n)) := by
  induction ps generalizing skip position index with
  | nil => cases skip <;> rfl
  | cons p rest ih =>
    cases skip with
    | succ skip =>
      rw [Binding.tokensFrom, Binding.tokensFrom, Nat.add_right_comm]
      exact ih skip _ index
    | zero =>
      rw [Binding.tokensFrom, Binding.tokensFrom, Outcome.toOption_bind, Outcome.toOption_bind,
        pieceTokens_elsewhere b index (position + n) position, Option.map_bind]
      refine Option.bind_congr fun made _ => ?_
      obtain ⟨tokens, substituted, next⟩ := made
      simp only [Function.comp_def, Nat.add_right_comm position n]
      have hrest := fun skip index => ih skip (position + Text.byteLength p.text) index
      -- every way out but one makes the tokens of this piece alone
      have halone := toOption_append_shift
        (tokens.map fun t => Spanned.mk t position (position + Text.byteLength p.text) substituted) (hrest 0 next)
      rw [List.map_map] at halone
      split
      · rename_i model dotted _ _
        split
        · exact halone
        · rename_i q more _
          rw [Outcome.toOption_bind, Outcome.toOption_bind,
            fieldAfterDot_elsewhere b next _ (position + Text.byteLength p.text + Binding.piecesLength dotted),
            Option.map_bind]
          refine Option.bind_congr fun found _ => ?_
          cases found with
          | none => exact halone
          | some found =>
            obtain ⟨name, quoted, next⟩ := found
            simp only [Nat.add_right_comm _ n]
            exact toOption_append_shift [Spanned.mk (.field name quoted (some model)) position
              (position + Text.byteLength p.text + Binding.piecesLength dotted + Text.byteLength q.text)
              (substituted || quoted)] (hrest (dotted.length + 1) next)
      · exact halone

/-! ## A string in front of a format -/

/-- A string between double quotes, with a backslash before every backslash and quote. -/
def doubleQuoted (s : String) : String := String.ofList ('\x22' :: (escaping s.toList ++ ['\x22']))

/-- A string between single quotes, with every quote doubled. -/
def singleQuoted (s : String) : String :=
  String.ofList ('\x27' :: (Text.doubling '\x27' s.toList ++ ['\x27']))

/-- The literal that a text at the start of a format is for a string; its span is the text. -/
def quotation (s text : String) (substituted : Bool) : Spanned :=
  ⟨.literal .plainText (.string s), 0, Text.byteLength text.toList, substituted⟩

/-- In front of some format a text is one literal with this string.  Tokenizing both succeeds exactly if tokenizing the
format does, with the same positional values; then it answers the literal, and the tokens of the format behind it. -/
def IsStringBefore (b : Binding) (s text : String) (substituted : Bool) (format : String) : Prop :=
  ∀ ts, tokenize (text ++ format) b = .ok ts ↔
    ∃ us, tokenize format b = .ok us ∧
      ts = quotation s text substituted :: us.map (Spanned.shift (Text.byteLength text.toList))

/-- With nothing behind it the text is the literal alone. -/
theorem IsStringBefore.alone {b : Binding} {s text : String} {substituted : Bool}
    (h : IsStringBefore b s text substituted "") : tokenize text b = .ok [quotation s text substituted] := by
  have hboth : tokenize (text ++ "") b = .ok [quotation s text substituted] := (h _).mpr ⟨[], rfl, rfl⟩
  rwa [String.append_empty] at hboth

/-- A piece that makes one literal, whatever is bound, stands before a format as that literal. -/
theorem isStringBefore_of_scan {b : Binding} {s format : String} {c : Char} {w : List Char} {l : Lexeme}
    {substituted : Bool} (hscan : scan c (w ++ format.toList) = (l, w.length + 1))
    (htokens : b.pieceTokens ⟨l, c :: w⟩ 0 0 = .ok ([.literal .plainText (.string s)], substituted, 0)) :
    IsStringBefore b s (String.ofList (c :: w)) substituted format := by
  intro ts
  have htext : (String.ofList (c :: w) ++ format).toList = c :: (w ++ format.toList) := by
    rw [String.toList_append, String.toList_ofList, List.cons_append]
  have hshift := tokensFrom_shift b (Text.byteLength (c :: w)) 0 (pieces format.toList) 0 0
  rw [quotation, tokenize, tokenize, htext, pieces_lexeme hscan, tokensFrom_piece htokens (.inl rfl),
    String.toList_ofList, ← Outcome.toOption_eq_some, Outcome.toOption_bind, hshift, Option.bind_map,
    Option.bind_eq_some_iff]
  refine exists_congr fun us => and_congr Outcome.toOption_eq_some ?_
  rw [Nat.zero_add]
  exact Option.some_inj.trans eq_comm

/-- Both notations spell every string: alone, and in front of any format, but single quotes not in front of one more,
the quoted string is one literal with that string, which is substituted between double quotes only. -/
theorem strings_quoted (b : Binding) (s : String) :
    (tokenize (doubleQuoted s) b = .ok [quotation s (doubleQuoted s) true] ∧
      ∀ format, IsStringBefore b s (doubleQuoted s) true format) ∧
    (tokenize (singleQuoted s) b = .ok [quotation s (singleQuoted s) false] ∧
      ∀ format : String, format.toList.head? ≠ some '\x27' → IsStringBefore b s (singleQuoted s) false format) := by
  have hcontent : Token.literal .plainText (.string (String.ofList s.toList)) = .literal .plainText (.string s) := by
    rw [String.ofList_toList]
  have hdouble : ∀ format, IsStringBefore b s (doubleQuoted s) true format := fun format =>
    isStringBefore_of_scan (scan_escaping s.toList _) (congrArg (fun t => Except.ok ([t], true, 0)) hcontent)
  have hsingle : ∀ format : String, format.toList.head? ≠ some '\x27' →
      IsStringBefore b s (singleQuoted s) false format := fun format hformat =>
    isStringBefore_of_scan (scan_doubling s.toList hformat) (congrArg (fun t => Except.ok ([t], false, 0)) hcontent)
  exact ⟨⟨(hdouble "").alone, hdouble⟩, (hsingle "" nofun).alone, hsingle⟩

/-- Quotes, backslashes and a placeholder in a string, in front of a placeholder that takes the only value. -/
theorem strings_quoted_placeholder :
    let b : Binding := ⟨[.int 5], []⟩
    let s := "'\\?\""
    " = ?".toList.head? ≠ some '\x27' ∧ IsStringBefore b s (singleQuoted s) false " = ?" ∧
      tokenize (singleQuoted s ++ " = ?") b =
        .ok [⟨.literal .plainText (.string s), 0, 7, false⟩, ⟨.operator "=", 8, 9, false⟩,
          ⟨.literal .int (.int 5), 10, 11, true⟩] := by
  intro b s
  have hhead : " = ?".toList.head? ≠ some '\x27' := by decide
  have hquoted : IsStringBefore b s (singleQuoted s) false " = ?" := (strings_quoted b s).2.2 " = ?" hhead
  have hlength : Text.byteLength (singleQuoted s).toList = 7 := by
    rw [singleQuoted, String.toList_ofList]
    decide
  have hformat : tokenize " = ?" b =
      .ok [⟨.operator "=", 1, 2, false⟩, ⟨.literal .int (.int 5), 3, 4, true⟩] := rfl
  refine ⟨hhead, hquoted, (hquoted _).mpr ⟨_, hformat, ?_⟩⟩
  rw [quotation, hlength]
  rfl

end RecordQuery.Format
