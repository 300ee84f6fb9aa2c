import RecordQuery.Proofs.Format.Spelling
set_option autoImplicit false

/-!
# Format: what copied tokens are written as

A token that is copied into SQL stands for the text of its piece, or of three pieces for a qualified field.
`Copied` lists the texts that a copied token can have: a quoted string up to its closing quote, a number, a
word, a symbol, a punctuation mark, or two words with a dot between them.
-/

namespace RecordQuery.Format

/-! ## Scanned pieces -/

/-- The piece is what scanning some text answers. -/
def Piece.Scanned (p : Piece) : Prop :=
  ∃ c rest, p.lexeme = (scan c rest).1 ∧ p.text = (c :: rest).take (scan c rest).2

theorem scanned_of_mem_pieces {cs : List Char} {p : Piece} (hp : p ∈ pieces cs) : p.Scanned := by
  have hfrom : ∀ (skip : Nat) (cs : List Char), p ∈ piecesFrom skip cs → p.Scanned := by
    intro skip cs
    induction cs generalizing skip with
    | nil =>
      intro hp
      cases skip <;> cases hp
    | cons c rest ih =>
      intro hp
      cases skip with
      | succ skip => exact ih skip hp
      | zero =>
        rcases List.mem_cons.mp hp with rfl | hp
        · exact ⟨c, rest, rfl, rfl⟩
        · exact ih _ hp
  exact hfrom 0 cs hp

theorem Piece.Scanned.text_ne_nil {p : Piece} (h : p.Scanned) : p.text ≠ [] := by
  obtain ⟨c, rest, -, htext⟩ := h
  obtain ⟨n, hn⟩ := Nat.exists_eq_succ_of_ne_zero (Nat.ne_of_gt (scan_pos c rest))
  rw [htext, hn]
  exact List.cons_ne_nil _ _

theorem Piece.Scanned.all_isSpace {p : Piece} (h : p.Scanned) (hspace : p.lexeme = .space) :
    p.text.all isSpace = true := by
  obtain ⟨c, rest, hlexeme, htext⟩ := h
  have hc : isSpace c = true := scan_eq_space (hlexeme.symm.trans hspace)
  rw [htext, scan_space hc, Nat.add_comm, List.take_succ_cons, take_length_takeWhile, List.all_cons, hc,
    all_takeWhile]
  rfl

/-! ## Texts of lexemes -/

/-- A character of a number. -/
def isNumberChar (c : Char) : Bool := c.isDigit || c == '-' || c == '.'

theorem all_isNumberChar_of_isDigit {cs : List Char} (h : cs.all Char.isDigit = true) :
    cs.all isNumberChar = true := by
  rw [List.all_eq_true] at h ⊢
  intro c hc
  rw [isNumberChar, h c hc]
  rfl

theorem all_isNumberChar_sign (cs : List Char) : (cs.take (signLength cs)).all isNumberChar = true := by
  unfold signLength
  split <;> rfl

theorem all_isNumberChar_fraction (cs : List Char) :
    (cs.take (fractionLength cs)).all isNumberChar = true := by
  unfold fractionLength
  split
  · rename_i rest
    simp only
    split
    · rfl
    · rw [List.take_succ_cons, List.all_cons, take_length_takeWhile,
        all_isNumberChar_of_isDigit (all_takeWhile Char.isDigit rest)]
      rfl
  · rfl

theorem all_isNumberChar_take {cs : List Char} {n : Nat} (h : scanNumber cs = some n) :
    (cs.take n).all isNumberChar = true := by
  simp only [scanNumber] at h
  split at h
  · cases h
  · cases h
    rw [List.take_add, List.take_add, List.all_append, List.all_append, take_length_takeWhile,
      all_isNumberChar_sign, all_isNumberChar_of_isDigit (all_takeWhile Char.isDigit _),
      all_isNumberChar_fraction]
    rfl

/-- What is scanned as a string is one on its own. -/
theorem scanSqlString_take {cs content : List Char} {n : Nat} (h : scanSqlString cs = some (content, n)) :
    scanSqlString (cs.take n) = some (content, n) := by
  fun_induction scanSqlString cs generalizing content n with
  | case1 rest ih =>
    obtain ⟨⟨s, k⟩, hs, heq⟩ := Option.map_eq_some_iff.mp h
    cases heq
    rw [List.take_succ_cons, List.take_succ_cons, scanSqlString, ih hs]
    rfl
  | case2 rest hrest =>
    cases h
    rfl
  | case3 c rest hne hc ih =>
    obtain ⟨⟨s, k⟩, hs, heq⟩ := Option.map_eq_some_iff.mp h
    cases heq
    rw [List.take_succ_cons, scanSqlString, ih hs]
    · rfl
    · exact fun rest' hcc _ => hc hcc
    · exact hc
  | case4 => cases h

/-- A piece of the lexeme may have this text; nothing is said of lexemes that are replaced or refused. -/
def Lexeme.Allows : Lexeme → List Char → Prop
  | .space, cs => cs.all isSpace = true
  | .sqlString content, cs => ∃ body, cs = '\x27' :: body ∧ scanSqlString body = some (content, body.length)
  | .number n, cs => cs = n ∧ n.all isNumberChar = true ∧ n ≠ []
  | .word w, cs => cs = w ∧ w.all Text.isWordChar = true ∧ w ≠ []
  | .symbol s, cs => cs = s ∧ s.all isSymbolChar = true
  | .dot, cs => cs = ['.']
  | .openParen, cs => cs = ['(']
  | .closeParen, cs => cs = [')']
  | .comma, cs => cs = [',']
  | _, _ => True

theorem Lexeme.allows_of_isOpened {l : Lexeme} (h : l.isOpened = true) (cs : List Char) : l.Allows cs := by
  cases l <;> trivial

theorem scanPlain_allows (c : Char) (rest : List Char) :
    (scanPlain c rest).1.Allows ((c :: rest).take (scanPlain c rest).2) := by
  unfold scanPlain
  split
  · rename_i n hn
    refine ⟨rfl, all_isNumberChar_take hn, ?_⟩
    obtain ⟨k, rfl⟩ := Nat.exists_eq_succ_of_ne_zero (Nat.ne_of_gt (scanNumber_pos hn))
    exact List.cons_ne_nil _ _
  have hrun : ∀ q : Char → Bool, (c :: rest).take (c :: rest.takeWhile q).length = c :: rest.takeWhile q := by
    intro q
    rw [List.length_cons, List.take_succ_cons, take_length_takeWhile]
  split
  · rename_i hc
    refine ⟨hrun _, ?_, List.cons_ne_nil _ _⟩
    rw [List.all_cons, hc, all_takeWhile]
    rfl
  split
  · rename_i hc
    refine ⟨hrun _, ?_⟩
    rw [List.all_cons, hc, all_takeWhile]
    rfl
  repeat'
    split
    · rename_i hc
      rw [hc]
      exact rfl
  trivial

/-- The lexeme of a piece allows the text of the piece. -/
theorem Piece.Scanned.allows {p : Piece} (h : p.Scanned) : p.lexeme.Allows p.text := by
  obtain ⟨c, rest, hlexeme, htext⟩ := h
  rw [hlexeme, htext]
  rcases scan_cases c rest with hc | ⟨rfl, content, n, hs⟩ | ho | ⟨hc, ho⟩
  · rw [scan_space hc, Nat.add_comm]
    show ((c :: rest).take _).all isSpace = true
    rw [List.take_succ_cons, take_length_takeWhile, List.all_cons, hc, all_takeWhile]
    rfl
  · rw [scan_quote hs]
    refine ⟨rest.take n, rfl, ?_⟩
    rw [scanSqlString_take hs, List.length_take, Nat.min_eq_left (scanSqlString_le hs)]
  · exact Lexeme.allows_of_isOpened ho _
  · rw [scan_eq_scanPlain hc ho]
    exact scanPlain_allows c rest

/-! ## Texts of copied tokens -/

/-- A copied token may have this text. -/
inductive Copied : Token → List Char → Prop where
  | lexeme {l : Lexeme} {t : Token} {text : List Char} (ht : copiedToken? l = some t) (h : l.Allows text) :
      Copied t text
  | qualified {owner gap name : List Char} (howner : (Lexeme.word owner).Allows owner)
      (hword : Binding.wordToken owner = (.field (String.ofList owner) false none, false))
      (hgap : gap.all isSpace = true) (hname : (Lexeme.word name).Allows name) :
      Copied (.field (String.ofList name) false (some (String.ofList owner, false))) (owner ++ (gap ++ '.' :: name))
  | outside (content : String) (text : List Char) : Copied (.raw content) text

/-- White space and a dot are the text of the pieces through the first dot. -/
theorem throughDot_text {ps dotted : List Piece} (h : Binding.throughDot ps = some dotted)
    (hps : ∀ p ∈ ps, p.Scanned) : ∃ gap, gap.all isSpace = true ∧ dotted.flatMap Piece.text = gap ++ ['.'] := by
  induction ps generalizing dotted with
  | nil => cases h
  | cons p rest ih =>
    obtain ⟨hp, hrest⟩ := List.forall_mem_cons.mp hps
    unfold Binding.throughDot at h
    split at h
    · rename_i heq
      cases heq
      cases h
      exact ⟨[], rfl, by rw [List.flatMap_singleton]; exact hp.allows⟩
    · rename_i heq
      cases heq
      obtain ⟨dotted', hdotted, rfl⟩ := Option.map_eq_some_iff.mp h
      obtain ⟨gap, hgap, htext⟩ := ih hdotted hrest
      refine ⟨_ ++ gap, ?_, by rw [List.flatMap_cons, htext, List.append_assoc]⟩
      rw [List.all_append, hp.all_isSpace rfl, hgap]
      rfl
    · cases h

/-- A word that is substituted is a constant. -/
theorem wordToken_substituted {word : List Char} (h : (Binding.wordToken word).2 = true) :
    ∃ type value, (Binding.wordToken word).1 = .literal type value := by
  simp only [Binding.wordToken] at h ⊢
  split
  · exact ⟨_, _, rfl⟩
  rename_i htrue
  rw [if_neg htrue] at h
  split
  · exact ⟨_, _, rfl⟩
  rename_i hfalse
  rw [if_neg hfalse] at h
  split at h
  · cases h
  split at h <;> cases h

/-- Where a placeholder stands for one name it is quoted. -/
theorem placeholder_qualifier {b : Binding} {code : Option String} {tuple : Bool} {index position next : Nat}
    {tokens : List Token} {owner : String × Bool}
    (h : b.placeholder code tuple index position = .ok (tokens, next))
    (howner : Binding.qualifier tokens = some owner) : owner.2 = true := by
  unfold Binding.placeholder at h
  split at h
  · obtain ⟨name, -, h⟩ := Outcome.bind_eq_ok.mp h
    cases h
    cases howner
    rfl
  split at h
  · obtain ⟨name, -, h⟩ := Outcome.bind_eq_ok.mp h
    cases h
    unfold Binding.fieldToken at howner
    split at howner <;> cases howner
    rfl
  · obtain ⟨⟨type, asTuple, index'⟩, -, h⟩ := Outcome.bind_eq_ok.mp h
    obtain ⟨v, -, h⟩ := Outcome.bind_eq_ok.mp h
    split at h
    · split at h
      · obtain ⟨us, hus, h⟩ := Outcome.bind_eq_ok.mp h
        obtain ⟨literals, -, hus⟩ := Outcome.bind_eq_ok.mp hus
        cases h
        cases hus
        cases howner
      · cases h
    · obtain ⟨w, -, h⟩ := Outcome.bind_eq_ok.mp h
      cases h
      cases howner

/-- What qualifies a field is quoted if it is substituted; else it is a word. -/
theorem pieceTokens_qualifier {b : Binding} {p : Piece} {index position next : Nat} {tokens : List Token}
    {substituted : Bool} {owner : String × Bool}
    (h : b.pieceTokens p index position = .ok (tokens, substituted, next))
    (howner : Binding.qualifier tokens = some owner) :
    owner.2 = substituted ∧ (substituted = false → ∃ word, p.lexeme = .word word ∧
      owner = (String.ofList word, false) ∧
      Binding.wordToken word = (.field (String.ofList word) false none, false)) := by
  unfold Binding.pieceTokens at h
  split at h
  case h_4 =>
    cases h
    cases howner
    exact ⟨rfl, nofun⟩
  case h_5 =>
    cases h
    cases howner
    exact ⟨rfl, nofun⟩
  case h_6 =>
    obtain ⟨⟨us, next'⟩, hus, h⟩ := Outcome.bind_eq_ok.mp h
    cases h
    exact ⟨placeholder_qualifier hus howner, nofun⟩
  case h_7 text hp =>
    obtain ⟨token, htoken, h⟩ := Outcome.bind_eq_ok.mp h
    cases h
    obtain ⟨word, hl, -⟩ := copiedToken?_qualifier (copiedToken?_number htoken) howner
    cases hl
  case h_8 word hp =>
    cases h
    cases hsubstituted : (Binding.wordToken word).2 with
    | true =>
      obtain ⟨type, value, htoken⟩ := wordToken_substituted hsubstituted
      rw [htoken] at howner
      cases howner
    | false =>
      obtain ⟨word', hl, rfl, hword⟩ := copiedToken?_qualifier (copiedToken?_word hsubstituted) howner
      cases hl
      exact ⟨rfl, fun _ => ⟨word, hp, rfl, hword⟩⟩
  all_goals
    cases h
    cases howner

end RecordQuery.Format
