import RecordQuery.Format.Token
import RecordQuery.Proofs.Format.Scanning
set_option autoImplicit false

/-!
# Format: what tokenizing yields

Tokens are made of the pieces of a format from left to right: a piece that stands on its own, or a
qualifier with a dot and a field after it.  `Tokenized` says so as a relation, without the count of pieces
to be skipped, and whatever tokenizing answers satisfies it.  From that it follows that operators are spelled
in one way only: as a keyword in lower case or with symbol characters.
-/

namespace RecordQuery.Format

/-! ## Tokens of pieces -/

/-- The tokens of some pieces from a byte position on, taking values from an index on. -/
inductive Tokenized (b : Binding) : List Piece → Nat → Nat → List Spanned → Prop where
  | nil (position index : Nat) : Tokenized b [] position index []
  | piece {p : Piece} {rest : List Piece} {position index next : Nat} {tokens : List Token}
      {substituted : Bool} {ts : List Spanned}
      (hp : b.pieceTokens p index position = .ok (tokens, substituted, next))
      (hrest : Tokenized b rest (position + Text.byteLength p.text) next ts) :
      Tokenized b (p :: rest) position index
        (tokens.map (fun t => ⟨t, position, position + Text.byteLength p.text, substituted⟩) ++ ts)
  | qualified {p q : Piece} {dotted rest : List Piece} {position index mid next : Nat}
      {tokens : List Token} {substituted quoted : Bool} {model : String × Bool} {name : String}
      {ts : List Spanned}
      (hp : b.pieceTokens p index position = .ok (tokens, substituted, mid))
      (hmodel : Binding.qualifier tokens = some model)
      (hdot : Binding.throughDot (dotted ++ q :: rest) = some dotted)
      (hfield : b.fieldAfterDot q mid
        (position + Text.byteLength p.text + Binding.piecesLength dotted) = .ok (some (name, quoted, next)))
      (hrest : Tokenized b rest (position + Text.byteLength p.text + Binding.piecesLength dotted
        + Text.byteLength q.text) next ts) :
      Tokenized b (p :: (dotted ++ q :: rest)) position index
        (⟨.field name quoted (some model), position, position + Text.byteLength p.text
            + Binding.piecesLength dotted + Text.byteLength q.text, substituted || quoted⟩ :: ts)

theorem throughDot_prefix {ps dotted : List Piece} (h : Binding.throughDot ps = some dotted) :
    dotted ++ ps.drop dotted.length = ps := by
  induction ps generalizing dotted with
  | nil => cases h
  | cons p rest ih =>
    unfold Binding.throughDot at h
    split at h
    · rename_i hps
      cases h
      cases hps
      rfl
    · rename_i hps
      obtain ⟨dotted', hd, rfl⟩ := Option.map_eq_some_iff.mp h
      cases hps
      rw [List.length_cons, List.drop_succ_cons, List.cons_append, ih hd]
    · cases h

theorem piecesLength_eq (ps : List Piece) :
    Binding.piecesLength ps = Text.byteLength (ps.flatMap Piece.text) := by
  induction ps with
  | nil => rfl
  | cons p rest ih => rw [Binding.piecesLength, List.flatMap_cons, Text.byteLength_append, ih]

theorem piecesLength_append (ps qs : List Piece) :
    Binding.piecesLength (ps ++ qs) = Binding.piecesLength ps + Binding.piecesLength qs := by
  rw [piecesLength_eq, piecesLength_eq, piecesLength_eq, List.flatMap_append, Text.byteLength_append]

/-- Tokenizing answers the tokens of the pieces that it does not skip. -/
theorem tokenized_of_tokensFrom {b : Binding} {skip : Nat} {ps : List Piece} {position index : Nat}
    {ts : List Spanned} (h : b.tokensFrom skip ps position index = .ok ts) :
    Tokenized b (ps.drop skip) (position + Binding.piecesLength (ps.take skip)) index ts := by
  induction ps generalizing skip position index ts with
  | nil =>
    unfold Binding.tokensFrom at h
    cases h
    rw [List.drop_nil]
    exact .nil _ _
  | cons p rest ih =>
    cases skip with
    | succ skip =>
      rw [Binding.tokensFrom] at h
      rw [List.drop_succ_cons, List.take_succ_cons, Binding.piecesLength, ← Nat.add_assoc]
      exact ih h
    | zero =>
      rw [Binding.tokensFrom] at h
      obtain ⟨⟨tokens, substituted, next⟩, hp, h⟩ := Outcome.bind_eq_ok.mp h
      rw [List.drop_zero, List.take_zero, Binding.piecesLength, Nat.add_zero]
      -- every way out but one makes the tokens of this piece alone
      have halone : (do
          let us ← b.tokensFrom 0 rest (position + Text.byteLength p.text) next
          return tokens.map (fun t =>
            Spanned.mk t position (position + Text.byteLength p.text) substituted) ++ us) = .ok ts →
          Tokenized b (p :: rest) position index ts := by
        intro hs
        obtain ⟨us, hus, hs⟩ := Outcome.bind_eq_ok.mp hs
        cases hs
        exact .piece hp (ih hus)
      simp only at h
      split at h
      · rename_i model dotted hmodel hdot
        split at h
        · exact halone h
        · rename_i q after hafter
          obtain ⟨found, hfield, h⟩ := Outcome.bind_eq_ok.mp h
          split at h
          · rename_i name quoted next'
            obtain ⟨us, hus, h⟩ := Outcome.bind_eq_ok.mp h
            cases h
            have hsplit : rest = dotted ++ q :: after := by rw [← hafter, throughDot_prefix hdot]
            have hrest := ih hus
            rw [hsplit] at hdot hrest ⊢
            rw [List.drop_length_add_append, List.drop_succ_cons, List.drop_zero,
              List.take_length_add_append, List.take_succ_cons, List.take_zero, piecesLength_append,
              Binding.piecesLength, Binding.piecesLength, Nat.add_zero, ← Nat.add_assoc] at hrest
            exact .qualified hp hmodel hdot hfield hrest
          · exact halone h
      · exact halone h

/-- The tokens of a format are those of its pieces. -/
theorem tokenized_of_tokenize {format : String} {b : Binding} {ts : List Spanned}
    (h : tokenize format b = .ok ts) : Tokenized b (pieces format.toList) 0 0 ts :=
  tokenized_of_tokensFrom h

/-- What holds of qualified fields and of the tokens of every single piece holds of all tokens. -/
theorem Tokenized.forall_token {b : Binding} {P : Token → Prop} {ps : List Piece} {position index : Nat}
    {ts : List Spanned} (h : Tokenized b ps position index ts)
    (hfield : ∀ name quoted model, P (.field name quoted (some model)))
    (hpiece : ∀ p ∈ ps, ∀ (position index next : Nat) (tokens : List Token) (substituted : Bool),
      b.pieceTokens p index position = .ok (tokens, substituted, next) → ∀ t ∈ tokens, P t) :
    ∀ s ∈ ts, P s.token := by
  induction h with
  | nil => exact fun s hs => absurd hs List.not_mem_nil
  | piece hp _ ih =>
    intro s hs
    rcases List.mem_append.mp hs with hs | hs
    · obtain ⟨t, ht, rfl⟩ := List.mem_map.mp hs
      exact hpiece _ List.mem_cons_self _ _ _ _ _ hp t ht
    · exact ih (fun q hq => hpiece q (List.mem_cons_of_mem _ hq)) s hs
  | qualified _ _ _ _ _ ih =>
    intro s hs
    rcases List.mem_cons.mp hs with rfl | hs
    · exact hfield _ _ _
    · refine ih (fun q hq => hpiece q (List.mem_cons_of_mem _ ?_)) s hs
      exact List.mem_append_right _ (List.mem_cons_of_mem _ hq)

/-! ## Operators as the lexer spells them -/

/-- An operator is one of the six keywords or consists of symbol characters. -/
def IsLexical : Token → Prop
  | .operator w => Binding.isKeyword w = true ∨ w.toList.all isSymbolChar = true
  | _ => True

/-- Every operator among the tokens is spelled as the lexer spells it. -/
def Lexical (ts : List Token) : Prop := ∀ t ∈ ts, IsLexical t

theorem Lexical.of_append {ts us : List Token} (h : Lexical (ts ++ us)) : Lexical us :=
  fun t ht => h t (List.mem_append_right ts ht)

theorem Lexical.tail {t : Token} {ts : List Token} (h : Lexical (t :: ts)) : Lexical ts :=
  fun u hu => h u (List.mem_cons_of_mem t hu)

/-- A symbol of a format consists of symbol characters. -/
theorem symbol_of_mem_pieces {cs text : List Char} {p : Piece} (hp : p ∈ pieces cs)
    (h : p.lexeme = .symbol text) : text.all isSymbolChar = true := by
  have hfrom : ∀ (skip : Nat) (cs : List Char), p ∈ piecesFrom skip cs → text.all isSymbolChar = true := by
    intro skip cs
    induction cs generalizing skip with
    | nil =>
      intro hp
      cases skip <;> cases hp
    | cons c rest ih =>
      intro hp
      cases skip with
      | succ skip => exact ih skip hp
      | zero =>
        rcases List.mem_cons.mp hp with rfl | hp
        · exact scan_symbol h
        · exact ih _ hp
  exact hfrom 0 cs hp

theorem wordToken_isLexical (word : List Char) : IsLexical (Binding.wordToken word).1 := by
  simp only [Binding.wordToken]
  split
  · trivial
  split
  · trivial
  split
  · trivial
  split
  · rename_i hk
    exact .inl hk
  · trivial

theorem fieldToken_isLexical (name : String) : IsLexical (Binding.fieldToken name) := by
  unfold Binding.fieldToken
  split <;> trivial

theorem listTokens_isLexical {t : Option DataType} {items : List Value} {tokens : List Token}
    (h : Binding.listTokens t items = .ok tokens) : Lexical tokens := by
  obtain ⟨literals, hl, h⟩ := Outcome.bind_eq_ok.mp h
  cases h
  intro u hu
  rw [List.cons_append, List.mem_cons, List.mem_append, List.mem_singleton] at hu
  rcases hu with rfl | hu | rfl
  · trivial
  · refine Outcome.forall_of_mapM ?_ hl u hu
    intro v w hw
    obtain ⟨v', -, hw⟩ := Outcome.bind_eq_ok.mp hw
    cases hw
    trivial
  · trivial

theorem placeholder_isLexical {b : Binding} {code : Option String} {tuple : Bool}
    {index position next : Nat} {tokens : List Token}
    (h : b.placeholder code tuple index position = .ok (tokens, next)) : Lexical tokens := by
  unfold Binding.placeholder at h
  split at h
  · obtain ⟨name, -, h⟩ := Outcome.bind_eq_ok.mp h
    cases h
    intro t ht
    rw [List.mem_singleton.mp ht]
    trivial
  split at h
  · obtain ⟨name, -, h⟩ := Outcome.bind_eq_ok.mp h
    cases h
    intro t ht
    rw [List.mem_singleton.mp ht]
    exact fieldToken_isLexical name
  · obtain ⟨⟨type, asTuple, index'⟩, -, h⟩ := Outcome.bind_eq_ok.mp h
    obtain ⟨v, -, h⟩ := Outcome.bind_eq_ok.mp h
    split at h
    · split at h
      · obtain ⟨us, hus, h⟩ := Outcome.bind_eq_ok.mp h
        cases h
        exact listTokens_isLexical hus
      · cases h
    · obtain ⟨v', -, h⟩ := Outcome.bind_eq_ok.mp h
      cases h
      intro t ht
      rw [List.mem_singleton.mp ht]
      trivial

theorem pieceTokens_isLexical {b : Binding} {p : Piece} {index position next : Nat}
    {tokens : List Token} {substituted : Bool}
    (hsymbol : ∀ text, p.lexeme = .symbol text → text.all isSymbolChar = true)
    (h : b.pieceTokens p index position = .ok (tokens, substituted, next)) : Lexical tokens := by
  intro t ht
  unfold Binding.pieceTokens at h
  split at h
  case h_6 =>
    obtain ⟨⟨us, next'⟩, hus, h⟩ := Outcome.bind_eq_ok.mp h
    cases h
    exact placeholder_isLexical hus t ht
  case h_7 text hp =>
    obtain ⟨u, hu, h⟩ := Outcome.bind_eq_ok.mp h
    cases h
    rw [List.mem_singleton.mp ht]
    unfold Binding.numberToken at hu
    split at hu
    · cases hu
      trivial
    · split at hu
      · cases hu
        trivial
      · cases hu
  case h_8 word hp =>
    cases h
    rw [List.mem_singleton.mp ht]
    exact wordToken_isLexical word
  case h_9 text hp =>
    cases h
    rw [List.mem_singleton.mp ht]
    exact .inr (by rw [String.toList_ofList]; exact hsymbol text hp)
  case h_1 =>
    cases h
    exact absurd ht List.not_mem_nil
  all_goals
    cases h
    rw [List.mem_singleton.mp ht]
    trivial

/-- The operators of a tokenized format are spelled as the lexer spells them. -/
theorem lexical_of_tokenize {format : String} {b : Binding} {ts : List Spanned}
    (h : tokenize format b = .ok ts) : Lexical (ts.map Spanned.token) := by
  intro t ht
  obtain ⟨s, hs, rfl⟩ := List.mem_map.mp ht
  refine (tokenized_of_tokenize h).forall_token (fun _ _ _ => trivial) ?_ s hs
  intro p hp position index next tokens substituted hpiece
  exact pieceTokens_isLexical (fun text htext => symbol_of_mem_pieces hp htext) hpiece

end RecordQuery.Format
