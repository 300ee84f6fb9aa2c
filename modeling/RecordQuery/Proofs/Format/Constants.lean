import RecordQuery.Dialect.Quoting
import RecordQuery.Proofs.Format.Spelling
set_option autoImplicit false

/-!
# Format: constants, names and operators in SQL text

What rendering writes for a constant, a name or an operator spells its token, before any text that cannot
continue it: the numeral of an integer is read back as that integer, a quoted string as its content, a word
as a field, an operator in upper case as its keyword.
-/

namespace RecordQuery

namespace Format

theorem signLength_digits {digits : List Char} (hne : digits ≠ []) (hdigits : digits.all Char.isDigit = true)
    (cs : List Char) : signLength (digits ++ cs) = 0 := by
  obtain ⟨c, rest, rfl, hdigit⟩ := Text.eq_cons_of_all_isDigit hne hdigits
  unfold signLength
  split
  · rename_i heq
    cases heq
    cases hdigit
  · rfl

/-- A number is scanned through all of its digits. -/
theorem scanNumber_digits (sign : List Char) {digits cs : List Char} (hne : digits ≠ [])
    (hdigits : digits.all Char.isDigit = true) (hsign : signLength (sign ++ (digits ++ cs)) = sign.length)
    (hcs : Breaks cs) : scanNumber (sign ++ (digits ++ cs)) = some (sign ++ digits).length := by
  have hrun : (digits ++ cs).takeWhile Char.isDigit = digits :=
    Text.takeWhile_append_of_all hdigits fun c hc => breaks_isDigit (hcs c hc)
  have hfraction : fractionLength cs = 0 := fractionLength_append [] hcs
  simp only [scanNumber, hsign, List.drop_left, hrun]
  rw [if_neg (mt List.length_eq_zero_iff.mp hne), ← List.drop_drop, List.drop_left, List.drop_left, hfraction,
    List.length_append, Nat.add_zero]

/-- Digits, perhaps after a minus sign. -/
inductive IsInteger : List Char → Prop where
  | natural {digits : List Char} (hne : digits ≠ []) (hdigits : digits.all Char.isDigit = true) : IsInteger digits
  | negative {digits : List Char} (hne : digits ≠ []) (hdigits : digits.all Char.isDigit = true) :
      IsInteger ('-' :: digits)

theorem isInteger_numeral (n : Int) : IsInteger (Text.numeral n) := by
  unfold Text.numeral
  split
  · exact .natural Nat.toDigits_ne_nil (Text.all_isDigit_toDigits _)
  · exact .negative Nat.toDigits_ne_nil (Text.all_isDigit_toDigits _)

namespace IsInteger

variable {text cs : List Char}

theorem scanNumber (h : IsInteger text) (hcs : Breaks cs) : scanNumber (text ++ cs) = some text.length := by
  cases h with
  | natural hne hdigits => exact scanNumber_digits [] hne hdigits (signLength_digits hne hdigits cs) hcs
  | negative hne hdigits => exact scanNumber_digits ['-'] hne hdigits rfl hcs

/-- An integer starts with no space and opens no other token. -/
theorem eq_cons (h : IsInteger text) : ∃ c rest, text = c :: rest ∧ isSpace c = false ∧ c ∉ openers := by
  cases h with
  | natural hne hdigits =>
    obtain ⟨c, rest, rfl, hdigit⟩ := Text.eq_cons_of_all_isDigit hne hdigits
    obtain ⟨hspace, hordinary⟩ := isWordChar_ordinary (isDigit_isWordChar hdigit)
    refine ⟨c, rest, rfl, hspace, fun hmem => hordinary ?_⟩
    exact List.mem_append_left ['-', '.'] hmem
  | @negative digits _ _ => exact ⟨'-', digits, rfl, rfl, by decide⟩

theorem contains_dot (h : IsInteger text) : text.contains '.' = false := by
  have hnone : ∀ digits : List Char, digits.all Char.isDigit = true → digits.contains '.' = false := by
    intro digits hdigits
    rw [Bool.eq_false_iff]
    intro hmem
    rw [List.contains_iff_mem] at hmem
    cases List.all_eq_true.mp hdigits '.' hmem
  cases h with
  | natural _ hdigits => exact hnone _ hdigits
  | negative _ hdigits =>
    rw [List.contains_cons, hnone _ hdigits]
    rfl

/-- An integer is one number. -/
theorem scan (h : IsInteger text) (hcs : Breaks cs) :
    ∃ c rest, text = c :: rest ∧ Format.scan c (rest ++ cs) = (.number text, rest.length + 1) := by
  have hnumber := h.scanNumber hcs
  obtain ⟨c, rest, rfl, hspace, hopen⟩ := h.eq_cons
  refine ⟨c, rest, rfl, ?_⟩
  rw [scan_eq_scanPlain hspace hopen, scanPlain, ← List.cons_append, hnumber]
  simp only [List.length_cons]
  rw [List.cons_append, List.take_succ_cons, List.take_left]

/-- An integer that fits into 64 bits is copied. -/
theorem copiedToken? {n : Int64} (h : IsInteger text) (hread : Text.readInt64 text = some n) :
    copiedToken? (.number text) = some (.literal .int (.int n)) := by
  simp only [Format.copiedToken?, Binding.numberToken, h.contains_dot, Bool.false_eq_true, if_false, hread]
  rfl

end IsInteger

/-! ## Spelled tokens -/

section

variable {cs : List Char} {ts : List Token}

/-- The numeral of an integer spells it. -/
theorem spells_int (n : Int64) (h : Spells cs ts) (hcs : Breaks cs) :
    Spells (Text.numeral n.toInt ++ cs) (.literal .int (.int n) :: ts) := by
  have hnumeral := isInteger_numeral n.toInt
  have htoken := hnumeral.copiedToken? (Text.readInt64_numeral n)
  obtain ⟨c, rest, heq, hscan⟩ := hnumeral.scan hcs
  rw [heq] at hscan htoken ⊢
  exact .lexeme hscan htoken h

theorem scanSqlString_doubling (s : List Char) (hcs : cs.head? ≠ some '\x27') :
    scanSqlString (Text.doubling '\x27' s ++ '\x27' :: cs) =
      some (s, (Text.doubling '\x27' s).length + 1) := by
  induction s with
  | nil =>
    rw [Text.doubling_nil, List.nil_append, scanSqlString]
    · rfl
    · rintro rest rfl
      exact hcs rfl
  | cons c rest ih =>
    rw [Text.doubling_cons]
    split
    · rename_i hc
      subst hc
      simp only [List.cons_append, List.nil_append, scanSqlString, ih, Option.map_some, List.length_cons]
    · rename_i hc
      rw [List.append_assoc, List.singleton_append, scanSqlString, ih]
      · rfl
      · exact fun _ h _ => hc h
      · exact hc

/-- A text between single quotes is one string. -/
theorem scan_doubling (s : List Char) (hcs : cs.head? ≠ some '\x27') :
    scan '\x27' (Text.doubling '\x27' s ++ ['\x27'] ++ cs) =
      (.sqlString s, (Text.doubling '\x27' s ++ ['\x27']).length + 1) := by
  rw [List.append_assoc, List.singleton_append, scan_quote (scanSqlString_doubling s hcs), List.length_append]
  rfl

/-- A quoted string spells its content. -/
theorem spells_string (s : String) (h : Spells cs ts) (hcs : Breaks cs) :
    Spells ((Dialect.postgres.quoteString s).toList ++ cs)
      (.literal .plainText (.string s) :: ts) := by
  have hspells := Spells.lexeme (scan_doubling s.toList hcs.head?_ne_quote) rfl h
  rw [String.ofList_toList] at hspells
  have htext : (Dialect.postgres.quoteString s).toList =
      '\x27' :: (Text.doubling '\x27' s.toList ++ ['\x27']) := String.toList_ofList
  rw [htext]
  exact hspells

end

/-! ## Names -/

/-- A word: word characters, the first of them no digit. -/
def isWord (name : String) : Bool :=
  match name.toList with
  | [] => false
  | c :: rest => !c.isDigit && (c :: rest).all Text.isWordChar

/-- A word with a meaning of its own: a keyword, or a constant. -/
def isReserved (name : String) : Bool :=
  let lower := String.ofList (name.toList.map Char.toLower)
  ["true", "false", "null"].contains lower || Binding.isKeyword lower

/-- A word that stands for a field. -/
def isName (name : String) : Bool := isWord name && !isReserved name

theorem isWord_of_isName {name : String} (h : isName name = true) : isWord name = true := by
  rw [isName, Bool.and_eq_true] at h
  exact h.1

theorem wordToken_of_isName {name : String} (h : isName name = true) :
    Binding.wordToken name.toList = (.field name false none, false) := by
  simp only [isName, isReserved, Bool.and_eq_true, Bool.not_eq_true', Bool.or_eq_false_iff] at h
  obtain ⟨-, hconstant, hkeyword⟩ := h
  simp only [List.contains_cons, List.contains_nil, Bool.or_eq_false_iff, beq_eq_false_iff_ne] at hconstant
  obtain ⟨htrue, hfalse, hnull, -⟩ := hconstant
  simp only [Binding.wordToken]
  rw [if_neg htrue, if_neg hfalse, if_neg hnull, if_neg (by simp [hkeyword]), String.ofList_toList]

section

variable {cs : List Char} {ts : List Token}

theorem scan_isWord {name : String} (h : isWord name = true) :
    ∃ c rest, name.toList = c :: rest ∧ ∀ g, (∀ d ∈ g.head?, Text.isWordChar d = false) →
      scan c (rest ++ g) = (.word (c :: rest), rest.length + 1) := by
  unfold isWord at h
  split at h
  · cases h
  · rename_i c rest hname
    rw [Bool.and_eq_true, Bool.not_eq_true', List.all_cons, Bool.and_eq_true] at h
    obtain ⟨hdigit, hc, hrest⟩ := h
    refine ⟨c, rest, hname, ?_⟩
    intro g hg
    obtain ⟨hspace, hordinary⟩ := isWordChar_ordinary hc
    have hopen : c ∉ openers := fun hmem => hordinary (List.mem_append_left ['-', '.'] hmem)
    have hsign : signLength (c :: (rest ++ g)) = 0 := by
      unfold signLength
      split
      · rename_i heq
        cases heq
        cases hc
      · rfl
    have hnumber : scanNumber (c :: (rest ++ g)) = none := by
      simp only [scanNumber, hsign, List.drop_zero]
      rw [List.takeWhile_cons_of_neg (by simp [hdigit])]
      rfl
    rw [scan_eq_scanPlain hspace hopen, scanPlain, hnumber]
    simp only [hc, if_true, Text.takeWhile_append_of_all hrest hg, List.length_cons]

/-- A word spells its token. -/
theorem spells_word {word : String} {t : Token} (hword : isWord word = true)
    (ht : copiedToken? (.word word.toList) = some t) (h : Spells cs ts) (hcs : Breaks cs) :
    Spells (word.toList ++ cs) (t :: ts) := by
  obtain ⟨c, rest, hlist, hscan⟩ := scan_isWord hword
  rw [hlist] at ht ⊢
  exact .lexeme (hscan cs fun d hd => breaks_isWordChar (hcs d hd)) ht h

/-- A name spells a field. -/
theorem spells_name {name : String} (hname : isName name = true) (h : Spells cs ts) (hcs : Breaks cs) :
    Spells (name.toList ++ cs) (.field name false none :: ts) := by
  refine spells_word (isWord_of_isName hname) ?_ h hcs
  rw [copiedToken?, wordToken_of_isName hname]
  rfl

/-- A name, a dot and a word spell a qualified field. -/
theorem spells_qualified {model name : String} (hmodel : isName model = true) (hname : isWord name = true)
    (h : Spells cs ts) (hcs : Breaks cs) :
    Spells (model.toList ++ '.' :: (name.toList ++ cs)) (.field name false (some (model, false)) :: ts) := by
  obtain ⟨c, rest, hlist, hscan⟩ := scan_isWord (isWord_of_isName hmodel)
  obtain ⟨d, rest', hlist', hscan'⟩ := scan_isWord hname
  have hword := wordToken_of_isName hmodel
  have hmodel' : String.ofList (c :: rest) = model := by rw [← hlist, String.ofList_toList]
  have hname' : String.ofList (d :: rest') = name := by rw [← hlist', String.ofList_toList]
  have hgap : ([] : List Char).all isSpace = true := rfl
  rw [hlist, ← hmodel'] at hword
  rw [hlist, hlist', ← hmodel', ← hname']
  exact .qualified (hscan _ fun e he => by cases he; rfl) hword hgap
    (hscan' cs fun e he => breaks_isWordChar (hcs e he)) h

/-! ## Symbols and punctuation -/

/-- A symbol spells its operator. -/
theorem spells_symbol {symbol : String} (hne : symbol ≠ "")
    (hsymbol : symbol.toList.all isSymbolChar = true) (h : Spells cs ts) (hcs : Breaks cs) :
    Spells (symbol.toList ++ cs) (.operator symbol :: ts) := by
  cases hlist : symbol.toList with
  | nil => exact absurd (String.toList_eq_nil_iff.mp hlist) hne
  | cons c rest =>
    rw [hlist, List.all_cons, Bool.and_eq_true] at hsymbol
    have hrun : (rest ++ cs).takeWhile isSymbolChar = rest :=
      Text.takeWhile_append_of_all hsymbol.2 fun d hd => breaks_isSymbolChar (hcs d hd)
    have hscan : scan c (rest ++ cs) =
        (.symbol (c :: (rest ++ cs).takeWhile isSymbolChar),
          ((rest ++ cs).takeWhile isSymbolChar).length + 1) := by
      have hc := hsymbol.1
      simp only [isSymbolChar, Bool.or_eq_true, beq_iff_eq] at hc
      rcases hc with ((rfl | rfl) | rfl) | rfl <;> rfl
    rw [hrun] at hscan
    have hname : String.ofList (c :: rest) = symbol := by rw [← hlist, String.ofList_toList]
    exact .lexeme hscan (by rw [copiedToken?, hname]) h

theorem spells_openParen (h : Spells cs ts) : Spells ('(' :: cs) (.openParen :: ts) := by
  have hscan : scan '(' ([] ++ cs) = (.openParen, 1) := rfl
  exact .lexeme hscan rfl h

theorem spells_closeParen (h : Spells cs ts) : Spells (')' :: cs) (.closeParen :: ts) := by
  have hscan : scan ')' ([] ++ cs) = (.closeParen, 1) := rfl
  exact .lexeme hscan rfl h

theorem spells_comma (h : Spells cs ts) : Spells (',' :: cs) (.comma :: ts) := by
  have hscan : scan ',' ([] ++ cs) = (.comma, 1) := rfl
  exact .lexeme hscan rfl h

/-- A text between parentheses spells its tokens between parentheses. -/
theorem spells_grouped (h : Spells cs ts) :
    Spells ('(' :: (cs ++ [')'])) (.openParen :: (ts ++ [.closeParen])) :=
  spells_openParen (h.append (spells_closeParen .nil) (breaks_cons rfl []))

end

end Format

end RecordQuery
