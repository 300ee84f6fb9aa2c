import RecordQuery.Proofs.Format.Tokens
import RecordQuery.Proofs.Text.Numerals
set_option autoImplicit false

/-!
# Format: texts that spell tokens

`Spells cs ts` says that a text without placeholders spells some tokens: white space counts for nothing, a
plain lexeme is one token, and a word before a dot and a word is one qualified field.  It is put together from
left to right, so that texts can be composed:

  * `Spells.append`: the texts of two token lists, one after the other, spell both;
  * `Spells.tokensFrom`: a text is tokenized to the tokens that it spells, whatever the placeholders are
    bound to;
  * `spells_of_tokenize`: a format whose tokens are all copied text spells them.
-/

namespace RecordQuery.Format

/-- The token of a plain lexeme that is copied text. -/
def copiedToken? : Lexeme → Option Token
  | .sqlString s => some (.literal .plainText (.string (String.ofList s)))
  | .number text => (Binding.numberToken text 0).toOption
  | .word word => if (Binding.wordToken word).2 then none else some (Binding.wordToken word).1
  | .symbol text => some (.operator (String.ofList text))
  | .openParen => some .openParen
  | .closeParen => some .closeParen
  | .comma => some .comma
  | _ => none

theorem isPlain_of_copiedToken? {l : Lexeme} {t : Token} (h : copiedToken? l = some t) :
    l.isPlain = true := by
  cases l <;> first | rfl | cases h

/-- The text spells the tokens, all of them copied text. -/
inductive Spells : List Char → List Token → Prop where
  | nil : Spells [] []
  | space {c : Char} {cs : List Char} {ts : List Token} (hc : isSpace c = true) (h : Spells cs ts) :
      Spells (c :: cs) ts
  | lexeme {c : Char} {w cs : List Char} {l : Lexeme} {t : Token} {ts : List Token}
      (hscan : scan c (w ++ cs) = (l, w.length + 1)) (ht : copiedToken? l = some t) (h : Spells cs ts) :
      Spells (c :: (w ++ cs)) (t :: ts)
  | qualified {c d : Char} {w gap v cs : List Char} {ts : List Token}
      (hmodel : scan c (w ++ (gap ++ '.' :: d :: (v ++ cs))) = (.word (c :: w), w.length + 1))
      (hword : Binding.wordToken (c :: w) = (.field (String.ofList (c :: w)) false none, false))
      (hgap : gap.all isSpace = true) (hfield : scan d (v ++ cs) = (.word (d :: v), v.length + 1))
      (h : Spells cs ts) :
      Spells (c :: (w ++ (gap ++ '.' :: d :: (v ++ cs))))
        (.field (String.ofList (d :: v)) false (some (String.ofList (c :: w), false)) :: ts)

theorem Spells.spaces {gap cs : List Char} {ts : List Token} (hgap : gap.all isSpace = true)
    (h : Spells cs ts) : Spells (gap ++ cs) ts := by
  induction gap with
  | nil => exact h
  | cons c rest ih =>
    rw [List.all_cons, Bool.and_eq_true] at hgap
    exact .space hgap.1 (ih hgap.2)

/-- Texts one after the other spell their tokens one after the other. -/
theorem Spells.append {cs ds : List Char} {ts us : List Token} (h : Spells cs ts) (hd : Spells ds us)
    (hbreaks : Breaks ds) : Spells (cs ++ ds) (ts ++ us) := by
  induction h with
  | nil => exact hd
  | space hc _ ih => exact .space hc ih
  | lexeme hscan ht _ ih =>
    rw [List.cons_append, List.append_assoc]
    refine .lexeme ?_ ht ih
    rw [← List.append_assoc, scan_append (by rw [hscan]; exact isPlain_of_copiedToken? ht) hbreaks, hscan]
  | qualified hmodel hword hgap hfield _ ih =>
    have hm := scan_append (by rw [hmodel]; rfl) hbreaks
    rw [hmodel, List.append_assoc, List.append_assoc, List.cons_append, List.cons_append,
      List.append_assoc] at hm
    have hf := scan_append (by rw [hfield]; rfl) hbreaks
    rw [hfield, List.append_assoc] at hf
    rw [List.cons_append, List.append_assoc, List.append_assoc, List.cons_append, List.cons_append,
      List.append_assoc]
    exact .qualified hm hword hgap hf ih

/-! ## Tokenizing a spelled text -/

/-- Skipping pieces is starting after them. -/
theorem tokensFrom_skip (b : Binding) (skip : Nat) (ps : List Piece) (position index : Nat) :
    b.tokensFrom skip ps position index =
      b.tokensFrom 0 (ps.drop skip) (position + Binding.piecesLength (ps.take skip)) index := by
  induction ps generalizing skip position with
  | nil => cases skip <;> simp [Binding.tokensFrom]
  | cons p rest ih =>
    cases skip with
    | zero => simp [Binding.piecesLength]
    | succ skip =>
      rw [Binding.tokensFrom, ih, List.drop_succ_cons, List.take_succ_cons, Binding.piecesLength,
        Nat.add_assoc]

/-- A piece that no dot and field follow makes its own tokens. -/
theorem tokensFrom_piece {b : Binding} {p : Piece} {rest : List Piece} {position index next : Nat}
    {tokens : List Token} {substituted : Bool}
    (hp : b.pieceTokens p index position = .ok (tokens, substituted, next))
    (halone : Binding.qualifier tokens = none ∨ Binding.throughDot rest = none) :
    b.tokensFrom 0 (p :: rest) position index = (do
      let us ← b.tokensFrom 0 rest (position + Text.byteLength p.text) next
      return tokens.map (fun t => ⟨t, position, position + Text.byteLength p.text, substituted⟩)
        ++ us) := by
  rw [Binding.tokensFrom, hp, Outcome.ok_bind]
  simp only
  split
  · rename_i hmodel hdot
    rcases halone with h | h
    · rw [h] at hmodel
      cases hmodel
    · rw [h] at hdot
      cases hdot
  · rfl

/-- White space is one piece, as long as it is. -/
theorem pieces_space {c : Char} (hc : isSpace c = true) (rest : List Char) :
    pieces (c :: rest) =
      ⟨.space, c :: rest.takeWhile isSpace⟩ :: pieces (rest.dropWhile isSpace) := by
  rw [pieces_cons, scan_space hc, Nat.add_sub_cancel_left, Text.drop_length_takeWhile, Nat.add_comm,
    List.take_succ_cons, take_length_takeWhile]

theorem pieceTokens_space (b : Binding) (text : List Char) (index position : Nat) :
    b.pieceTokens ⟨.space, text⟩ index position = .ok ([], false, index) := rfl

/-- White space in front moves the tokens, and nothing else. -/
theorem tokensFrom_dropWhile (b : Binding) (cs : List Char) (position index : Nat) :
    b.tokensFrom 0 (pieces cs) position index =
      b.tokensFrom 0 (pieces (cs.dropWhile isSpace))
        (position + Text.byteLength (cs.takeWhile isSpace)) index := by
  cases cs with
  | nil => rfl
  | cons c rest =>
    by_cases hc : isSpace c = true
    · rw [pieces_space hc, tokensFrom_piece (pieceTokens_space b _ index position) (.inl rfl),
        List.dropWhile_cons_of_pos hc, List.takeWhile_cons_of_pos hc]
      simp
    · rw [List.dropWhile_cons_of_neg hc, List.takeWhile_cons_of_neg hc, Text.byteLength_nil, Nat.add_zero]

theorem throughDot_dropWhile (cs : List Char) :
    Binding.throughDot (pieces cs) = none ↔ Binding.throughDot (pieces (cs.dropWhile isSpace)) = none := by
  cases cs with
  | nil => rfl
  | cons c rest =>
    by_cases hc : isSpace c = true
    · rw [pieces_space hc, List.dropWhile_cons_of_pos hc, Binding.throughDot, Option.map_eq_none_iff]
    · rw [List.dropWhile_cons_of_neg hc]

/-- A lexeme of some characters is one piece. -/
theorem pieces_lexeme {c : Char} {w cs : List Char} {l : Lexeme}
    (hscan : scan c (w ++ cs) = (l, w.length + 1)) : pieces (c :: (w ++ cs)) = ⟨l, c :: w⟩ :: pieces cs := by
  rw [pieces_cons, hscan, Nat.add_sub_cancel, List.take_succ_cons, List.take_left, List.drop_left]

/-- No dot follows what spells tokens. -/
theorem Spells.throughDot_eq_none {cs : List Char} {ts : List Token} (h : Spells cs ts) :
    Binding.throughDot (pieces cs) = none := by
  induction h with
  | nil => rfl
  | @space c cs ts hc _ ih =>
    rw [throughDot_dropWhile, List.dropWhile_cons_of_pos hc, ← throughDot_dropWhile]
    exact ih
  | @lexeme c w cs l t ts hscan ht _ _ =>
    rw [pieces_lexeme hscan]
    cases l <;> first | rfl | cases ht
  | qualified hmodel _ _ _ _ _ =>
    rw [pieces_lexeme hmodel]
    rfl

theorem pieceTokens_copied {l : Lexeme} {t : Token} (ht : copiedToken? l = some t) (b : Binding)
    (text : List Char) (index position : Nat) :
    b.pieceTokens ⟨l, text⟩ index position = .ok ([t], false, index) := by
  cases l with
  | sqlString s =>
    cases ht
    rfl
  | number text =>
    simp only [copiedToken?, Binding.numberToken] at ht
    simp only [Binding.pieceTokens, Binding.numberToken]
    split at ht
    · rename_i hdot
      cases ht
      rw [if_pos hdot]
      rfl
    · rename_i hdot
      rw [if_neg hdot]
      split at ht
      · rename_i n hn
        cases ht
        rfl
      · cases ht
  | word word =>
    simp only [copiedToken?] at ht
    split at ht
    · cases ht
    · rename_i hsubstituted
      cases ht
      simp only [Binding.pieceTokens]
      rw [Bool.not_eq_true] at hsubstituted
      rw [hsubstituted]
  | symbol text =>
    cases ht
    rfl
  | openParen =>
    cases ht
    rfl
  | closeParen =>
    cases ht
    rfl
  | comma =>
    cases ht
    rfl
  | _ => cases ht

/-- The pieces of a gap and a dot. -/
def dotPieces (gap : List Char) : List Piece :=
  if gap = [] then [⟨.dot, ['.']⟩] else [⟨.space, gap⟩, ⟨.dot, ['.']⟩]

theorem pieces_gap {gap : List Char} (hgap : gap.all isSpace = true) (rest : List Char) :
    pieces (gap ++ '.' :: rest) = dotPieces gap ++ pieces rest := by
  have hdot : pieces ('.' :: rest) = ⟨.dot, ['.']⟩ :: pieces rest := by
    rw [pieces_cons, scan_dot]
    rfl
  cases gap with
  | nil => exact hdot
  | cons c gap =>
    rw [List.all_cons, Bool.and_eq_true] at hgap
    have htake : (gap ++ '.' :: rest).takeWhile isSpace = gap :=
      Text.takeWhile_append_of_all hgap.2 fun d hd => by cases hd; rfl
    have hdrop : (gap ++ '.' :: rest).dropWhile isSpace = '.' :: rest := by
      rw [← Text.drop_length_takeWhile, htake, List.drop_left]
    rw [List.cons_append, pieces_space hgap.1, htake, hdrop, hdot]
    rfl

theorem throughDot_gap (gap : List Char) (rest : List Piece) :
    Binding.throughDot (dotPieces gap ++ rest) = some (dotPieces gap) := by
  unfold dotPieces
  split <;> rfl

/-- A text is tokenized to the tokens that it spells. -/
theorem Spells.tokensFrom {cs : List Char} {ts : List Token} (h : Spells cs ts) (b : Binding)
    (position index : Nat) :
    ∃ us, b.tokensFrom 0 (pieces cs) position index = .ok us ∧ us.map Spanned.token = ts ∧
      ∀ s ∈ us, s.substituted = false := by
  induction h generalizing position with
  | nil => exact ⟨[], rfl, rfl, fun s hs => absurd hs List.not_mem_nil⟩
  | @space c cs ts hc _ ih =>
    rw [tokensFrom_dropWhile, List.dropWhile_cons_of_pos hc, List.takeWhile_cons_of_pos hc,
      Text.byteLength_cons, ← Nat.add_assoc, ← tokensFrom_dropWhile]
    exact ih (position + c.utf8Size)
  | @lexeme c w cs l t ts hscan ht hrest ih =>
    obtain ⟨us, hus, hmap, hcopied⟩ := ih (position + Text.byteLength (c :: w))
    rw [pieces_lexeme hscan,
      tokensFrom_piece (pieceTokens_copied ht b _ index position) (.inr hrest.throughDot_eq_none), hus]
    refine ⟨_, rfl, ?_, ?_⟩
    · rw [List.map_append, hmap]
      rfl
    · intro s hs
      rcases List.mem_append.mp hs with hs | hs
      · rw [List.mem_singleton.mp hs]
      · exact hcopied s hs
  | @qualified c d w gap v cs ts hmodel hword hgap hfield hrest ih =>
    have hpieces : pieces (c :: (w ++ (gap ++ '.' :: d :: (v ++ cs)))) =
        ⟨.word (c :: w), c :: w⟩ :: (dotPieces gap ++ ⟨.word (d :: v), d :: v⟩ :: pieces cs) := by
      rw [pieces_lexeme hmodel, pieces_gap hgap, pieces_lexeme hfield]
    have hp : b.pieceTokens ⟨.word (c :: w), c :: w⟩ index position =
        .ok ([.field (String.ofList (c :: w)) false none], false, index) := by
      simp only [Binding.pieceTokens, hword]
    rw [hpieces, Binding.tokensFrom, hp, Outcome.ok_bind]
    simp only [Binding.qualifier, throughDot_gap, List.drop_left, Binding.fieldAfterDot, Outcome.ok_bind]
    rw [tokensFrom_skip, ← List.drop_drop, List.drop_left, List.drop_succ_cons, List.drop_zero]
    obtain ⟨us, hus, hmap, hcopied⟩ := ih _
    rw [hus]
    refine ⟨_, rfl, ?_, ?_⟩
    · rw [List.map_cons, hmap]
    · intro s hs
      rcases List.mem_cons.mp hs with rfl | hs
      · rfl
      · exact hcopied s hs

theorem Spells.tokenize {cs : List Char} {ts : List Token} (h : Spells cs ts) (b : Binding) :
    ∃ us, tokenize (String.ofList cs) b = .ok us ∧ us.map Spanned.token = ts ∧
      ∀ s ∈ us, s.substituted = false := by
  rw [Format.tokenize, String.toList_ofList]
  exact h.tokensFrom b 0 0

/-! ## Spelling a tokenized text -/

/-- A placeholder needs a value. -/
theorem placeholder_without_args {b : Binding} (hargs : b.args = []) {code : Option String} {tuple : Bool}
    {index position : Nat} {answer : List Token × Nat} :
    b.placeholder code tuple index position ≠ .ok answer := by
  intro h
  have htake : ∀ i v, b.take i ≠ .ok v := by
    intro i v hv
    rw [Binding.take, hargs] at hv
    cases hv
  unfold Binding.placeholder at h
  split at h
  · obtain ⟨name, hname, -⟩ := Outcome.bind_eq_ok.mp h
    obtain ⟨v, hv, -⟩ := Outcome.bind_eq_ok.mp hname
    exact htake _ _ hv
  split at h
  · obtain ⟨name, hname, -⟩ := Outcome.bind_eq_ok.mp h
    obtain ⟨v, hv, -⟩ := Outcome.bind_eq_ok.mp hname
    exact htake _ _ hv
  · obtain ⟨⟨type, asTuple, next⟩, -, h⟩ := Outcome.bind_eq_ok.mp h
    obtain ⟨v, hv, -⟩ := Outcome.bind_eq_ok.mp h
    exact htake _ _ hv

theorem numberToken_position {text : List Char} {position : Nat} {t : Token}
    (h : Binding.numberToken text position = .ok t) : Binding.numberToken text 0 = .ok t := by
  unfold Binding.numberToken at h ⊢
  split at h
  · rename_i hdot
    rw [if_pos hdot]
    exact h
  · rename_i hdot
    rw [if_neg hdot]
    split at h
    · exact h
    · cases h

theorem copiedToken?_number {text : List Char} {position : Nat} {t : Token}
    (h : Binding.numberToken text position = .ok t) : copiedToken? (.number text) = some t := by
  rw [copiedToken?, numberToken_position h]
  rfl

theorem copiedToken?_word {word : List Char} (h : (Binding.wordToken word).2 = false) :
    copiedToken? (.word word) = some (Binding.wordToken word).1 := by
  rw [copiedToken?, h]
  rfl

/-- Without values a piece that is not white space makes one token: a substituted one, a copied one, or text
outside the language. -/
theorem pieceTokens_cases {b : Binding} (hargs : b.args = []) {p : Piece} {index position next : Nat}
    {tokens : List Token} {substituted : Bool}
    (h : b.pieceTokens p index position = .ok (tokens, substituted, next)) :
    (p.lexeme = .space ∧ tokens = []) ∨
      ∃ t, tokens = [t] ∧
        (substituted = true ∨ copiedToken? p.lexeme = some t ∨ ∃ text, t = .raw text) := by
  unfold Binding.pieceTokens at h
  split at h
  case h_1 hp =>
    cases h
    exact .inl ⟨hp, rfl⟩
  case h_2 s hp =>
    cases h
    exact .inr ⟨_, rfl, .inr (.inl (by rw [hp]; rfl))⟩
  case h_6 code tuple hp =>
    obtain ⟨answer, hanswer, -⟩ := Outcome.bind_eq_ok.mp h
    exact absurd hanswer (placeholder_without_args hargs)
  case h_7 text hp =>
    obtain ⟨t, ht, h⟩ := Outcome.bind_eq_ok.mp h
    cases h
    exact .inr ⟨t, rfl, .inr (.inl (hp ▸ copiedToken?_number ht))⟩
  case h_8 word hp =>
    cases h
    refine .inr ⟨_, rfl, ?_⟩
    cases hsubstituted : (Binding.wordToken word).2 with
    | true => exact .inl rfl
    | false => exact .inr (.inl (hp ▸ copiedToken?_word hsubstituted))
  case h_10 =>
    cases h
    exact .inr ⟨_, rfl, .inr (.inr ⟨_, rfl⟩)⟩
  case h_14 =>
    cases h
    exact .inr ⟨_, rfl, .inr (.inr ⟨_, rfl⟩)⟩
  case h_9 text hp =>
    cases h
    exact .inr ⟨_, rfl, .inr (.inl (by rw [hp]; rfl))⟩
  case h_11 hp =>
    cases h
    exact .inr ⟨_, rfl, .inr (.inl (by rw [hp]; rfl))⟩
  case h_12 hp =>
    cases h
    exact .inr ⟨_, rfl, .inr (.inl (by rw [hp]; rfl))⟩
  case h_13 hp =>
    cases h
    exact .inr ⟨_, rfl, .inr (.inl (by rw [hp]; rfl))⟩
  all_goals
    cases h
    exact .inr ⟨_, rfl, .inl rfl⟩

/-- A word that is copied text is null, an operator or a field. -/
theorem wordToken_copied {word : List Char} (h : (Binding.wordToken word).2 = false) :
    (Binding.wordToken word).1 = .null ∨ (∃ k, (Binding.wordToken word).1 = .operator k) ∨
      (Binding.wordToken word).1 = .field (String.ofList word) false none := by
  simp only [Binding.wordToken] at h ⊢
  split at h
  · cases h
  rename_i htrue
  rw [if_neg htrue]
  split at h
  · cases h
  rename_i hfalse
  rw [if_neg hfalse]
  split at h
  · rename_i hnull
    rw [if_pos hnull]
    exact .inl rfl
  rename_i hnull
  rw [if_neg hnull]
  split at h
  · rename_i hkeyword
    rw [if_pos hkeyword]
    exact .inr (.inl ⟨_, rfl⟩)
  · rename_i hkeyword
    rw [if_neg hkeyword]
    exact .inr (.inr rfl)

/-- What qualifies a field and is copied text is a word. -/
theorem copiedToken?_qualifier {l : Lexeme} {t : Token} {model : String × Bool}
    (ht : copiedToken? l = some t) (hmodel : Binding.qualifier [t] = some model) :
    ∃ word, l = .word word ∧ model = (String.ofList word, false) ∧
      Binding.wordToken word = (.field (String.ofList word) false none, false) := by
  cases l with
  | word word =>
    simp only [copiedToken?] at ht
    split at ht
    · cases ht
    · rename_i hsubstituted
      rw [Bool.not_eq_true] at hsubstituted
      cases ht
      rcases wordToken_copied hsubstituted with hnull | ⟨k, hk⟩ | hfield
      · rw [hnull] at hmodel
        cases hmodel
      · rw [hk] at hmodel
        cases hmodel
      · rw [hfield] at hmodel
        cases hmodel
        exact ⟨word, rfl, rfl, Prod.ext hfield hsubstituted⟩
  | number text =>
    simp only [copiedToken?, Binding.numberToken] at ht
    split at ht
    · cases ht
      cases hmodel
    · split at ht
      · cases ht
        cases hmodel
      · cases ht
  | _ => first | cases ht; cases hmodel | cases ht

/-- What stands after a dot and is copied text is a word. -/
theorem fieldAfterDot_copied {b : Binding} {q : Piece} {index position next : Nat} {name : String}
    (h : b.fieldAfterDot q index position = .ok (some (name, false, next))) :
    ∃ word, q.lexeme = .word word ∧ name = String.ofList word ∧ next = index := by
  unfold Binding.fieldAfterDot at h
  split at h
  · rename_i word hq
    cases h
    exact ⟨word, hq, rfl, rfl⟩
  · cases h
  · split at h
    · obtain ⟨found, -, h⟩ := Outcome.bind_eq_ok.mp h
      cases h
    · cases h
  · cases h

/-- The pieces through a dot are those of a gap and a dot. -/
theorem throughDot_pieces {cs : List Char} {dotted : List Piece}
    (h : Binding.throughDot (pieces cs) = some dotted) :
    ∃ gap rest, gap.all isSpace = true ∧ cs = gap ++ '.' :: rest ∧ dotted = dotPieces gap := by
  have hhead : ∀ (d : Char) (rest : List Char), isSpace d = false →
      ∀ {dots}, Binding.throughDot (pieces (d :: rest)) = some dots → d = '.' ∧ dots = [⟨.dot, ['.']⟩] := by
    intro d rest hd dots hdots
    rw [pieces_cons] at hdots
    unfold Binding.throughDot at hdots
    split at hdots
    · rename_i heq
      have hdot : d = '.' := scan_eq_dot (congrArg Piece.lexeme (List.cons.inj heq).1)
      subst hdot
      rw [scan_dot] at heq
      cases heq
      cases hdots
      exact ⟨rfl, rfl⟩
    · rename_i heq
      rw [scan_eq_space (congrArg Piece.lexeme (List.cons.inj heq).1)] at hd
      cases hd
    · cases hdots
  cases cs with
  | nil => cases h
  | cons c rest =>
    by_cases hc : isSpace c = true
    · rw [pieces_space hc, Binding.throughDot] at h
      obtain ⟨dots, hdots, rfl⟩ := Option.map_eq_some_iff.mp h
      cases hrest : rest.dropWhile isSpace with
      | nil =>
        rw [hrest] at hdots
        cases hdots
      | cons d after =>
        have hd : isSpace d = false := by
          have hne : rest.dropWhile isSpace ≠ [] := by
            rw [hrest]
            exact List.cons_ne_nil _ _
          simpa [hrest] using List.head_dropWhile_not isSpace hne
        rw [hrest] at hdots
        obtain ⟨rfl, rfl⟩ := hhead d after hd hdots
        refine ⟨c :: rest.takeWhile isSpace, after, ?_, ?_, rfl⟩
        · rw [List.all_cons, hc, all_takeWhile]
          rfl
        · rw [List.cons_append, ← hrest, List.takeWhile_append_dropWhile]
    · rw [Bool.not_eq_true] at hc
      obtain ⟨rfl, rfl⟩ := hhead c rest hc h
      exact ⟨[], rest, rfl, rfl, rfl⟩

/-- The first lexeme of a text, as a part of it. -/
theorem scan_split {c : Char} {rest : List Char} {l : Lexeme} {n : Nat} (h : scan c rest = (l, n))
    (hl : l.isPlain = true) : ∃ w cs, rest = w ++ cs ∧ n = w.length + 1 := by
  have hle : n ≤ rest.length + 1 := by
    have hscanned : (scan c rest).1.isPlain = true := by rwa [h]
    have hle := scan_le hscanned
    rwa [h] at hle
  have hpos : 0 < n := by
    have := scan_pos c rest
    rwa [h] at this
  refine ⟨rest.take (n - 1), rest.drop (n - 1), (List.take_append_drop _ _).symm, ?_⟩
  rw [List.length_take]
  omega

/-- A word at the front of a text, as a part of it. -/
theorem scan_split_word {c : Char} {rest word : List Char} {n : Nat} (h : scan c rest = (.word word, n)) :
    ∃ w cs, rest = w ++ cs ∧ word = c :: w ∧ n = w.length + 1 := by
  obtain ⟨hword, hn, -, -⟩ := scan_word h
  refine ⟨rest.takeWhile Text.isWordChar, rest.dropWhile Text.isWordChar, ?_, hword, ?_⟩
  · exact List.takeWhile_append_dropWhile.symm
  · rw [hn, hword, List.length_cons]

/-- A qualified field that is copied text is a word, white space, a dot and a word. -/
theorem qualified_split {b : Binding} (hargs : b.args = []) {c : Char} {rest : List Char} {p q : Piece}
    {dotted after : List Piece} {position place index mid next : Nat} {tokens : List Token}
    {model : String × Bool} {name : String} (hpieces : pieces (c :: rest) = p :: (dotted ++ q :: after))
    (hp : b.pieceTokens p index position = .ok (tokens, false, mid))
    (hmodel : Binding.qualifier tokens = some model)
    (hdot : Binding.throughDot (dotted ++ q :: after) = some dotted)
    (hfield : b.fieldAfterDot q mid place = .ok (some (name, false, next))) :
    ∃ w gap d v cs, rest = w ++ (gap ++ '.' :: d :: (v ++ cs)) ∧
      scan c rest = (.word (c :: w), w.length + 1) ∧
      Binding.wordToken (c :: w) = (.field (String.ofList (c :: w)) false none, false) ∧
      gap.all isSpace = true ∧ scan d (v ++ cs) = (.word (d :: v), v.length + 1) ∧
      model = (String.ofList (c :: w), false) ∧ name = String.ofList (d :: v) ∧ after = pieces cs := by
  cases hscan : scan c rest with
  | mk l n =>
    rw [pieces_cons, hscan] at hpieces
    obtain ⟨hpl, hafter⟩ := List.cons.inj hpieces
    subst hpl
    rcases pieceTokens_cases hargs hp with ⟨-, rfl⟩ | ⟨t, rfl, hsub | ht | ⟨text, rfl⟩⟩
    · cases hmodel
    · cases hsub
    · obtain ⟨word, hl, rfl, hword⟩ := copiedToken?_qualifier ht hmodel
      simp only at hl
      subst hl
      obtain ⟨w, cs, rfl, rfl, rfl⟩ := scan_split_word hscan
      rw [Nat.add_sub_cancel, List.drop_left] at hafter
      rw [← hafter] at hdot
      obtain ⟨gap, more, hgap, rfl, rfl⟩ := throughDot_pieces hdot
      rw [pieces_gap hgap, List.append_cancel_left_eq] at hafter
      cases more with
      | nil => cases hafter
      | cons d more =>
        cases hscan' : scan d more with
        | mk l' n' =>
          rw [pieces_cons, hscan'] at hafter
          obtain ⟨hq, hmore⟩ := List.cons.inj hafter
          subst hq
          obtain ⟨word', hl', rfl, rfl⟩ := fieldAfterDot_copied hfield
          simp only at hl'
          subst hl'
          obtain ⟨v, cs, rfl, rfl, rfl⟩ := scan_split_word hscan'
          rw [Nat.add_sub_cancel, List.drop_left] at hmore
          exact ⟨w, gap, d, v, cs, rfl, rfl, hword, hgap, hscan', rfl, rfl, hmore.symm⟩
    · cases hmodel

/-- The pieces of a text whose tokens are all copied text, and none of them outside the language, spell its
tokens. -/
theorem spells_of_tokenized {b : Binding} (hargs : b.args = []) {cs : List Char} {position index : Nat}
    {ts : List Spanned} (h : Tokenized b (pieces cs) position index ts)
    (hcopied : ∀ s ∈ ts, s.substituted = false) (hraw : ∀ s ∈ ts, ∀ text, s.token ≠ .raw text) :
    Spells cs (ts.map Spanned.token) := by
  -- the induction is on the length of the text, since a step may use up several characters
  induction hlen : cs.length using Nat.strongRecOn generalizing cs position index ts with
  | ind k ih =>
    subst hlen
    cases cs with
    | nil =>
      cases h
      exact .nil
    | cons c rest =>
      generalize hps : pieces (c :: rest) = ps at h
      cases h with
      | nil =>
        rw [pieces_cons] at hps
        cases hps
      | @piece p after _ _ next tokens substituted us hp hrest =>
        cases hscan : scan c rest with
        | mk l n =>
          rw [pieces_cons, hscan] at hps
          obtain ⟨hpl, hafter⟩ := List.cons.inj hps
          subst hpl hafter
          rcases pieceTokens_cases hargs hp with ⟨hspace, rfl⟩ | ⟨t, rfl, hsub | ht | ⟨text, rfl⟩⟩
          · have hc : isSpace c = true := scan_eq_space (by rw [hscan]; exact hspace)
            rw [scan_space hc] at hscan
            cases hscan
            rw [Nat.add_sub_cancel_left, Text.drop_length_takeWhile] at hrest
            have hlt : (rest.dropWhile isSpace).length < (c :: rest).length :=
              Nat.lt_succ_of_le (List.dropWhile_sublist isSpace).length_le
            have hspells := ih _ hlt hrest hcopied hraw rfl
            have hgap := Spells.spaces (all_takeWhile isSpace rest) hspells
            rw [List.takeWhile_append_dropWhile] at hgap
            exact .space hc hgap
          · have hfalse := hcopied _ (List.mem_append_left us List.mem_cons_self)
            rw [hsub] at hfalse
            cases hfalse
          · obtain ⟨w, cs, rfl, rfl⟩ := scan_split hscan (isPlain_of_copiedToken? ht)
            rw [Nat.add_sub_cancel, List.drop_left] at hrest
            refine .lexeme hscan ht (ih cs.length ?_ hrest ?_ ?_ rfl)
            · simp only [List.length_cons, List.length_append]
              omega
            · exact fun s hs => hcopied s (List.mem_append_right _ hs)
            · exact fun s hs => hraw s (List.mem_append_right _ hs)
          · exact absurd rfl (hraw _ (List.mem_append_left us List.mem_cons_self) text)
      | @qualified p q dotted after _ _ mid next tokens substituted quoted model name us hp hmodel hdot
          hfield hrest =>
        have hsub : (substituted || quoted) = false := hcopied _ List.mem_cons_self
        rw [Bool.or_eq_false_iff] at hsub
        obtain ⟨rfl, rfl⟩ := hsub
        obtain ⟨w, gap, d, v, cs, rfl, hscan, hword, hgap, hscan', rfl, rfl, rfl⟩ :=
          qualified_split hargs hps hp hmodel hdot hfield
        refine .qualified hscan hword hgap hscan' (ih cs.length ?_ hrest ?_ ?_ rfl)
        · simp only [List.length_cons, List.length_append]
          omega
        · exact fun s hs => hcopied s (List.mem_cons_of_mem _ hs)
        · exact fun s hs => hraw s (List.mem_cons_of_mem _ hs)

/-- A format without values whose tokens are all copied text, and none of them outside the language, spells
its tokens. -/
theorem spells_of_tokenize {format : String} {b : Binding} (hargs : b.args = []) {ts : List Spanned}
    (h : tokenize format b = .ok ts) (hcopied : ∀ s ∈ ts, s.substituted = false)
    (hraw : ∀ s ∈ ts, ∀ text, s.token ≠ .raw text) : Spells format.toList (ts.map Spanned.token) :=
  spells_of_tokenized hargs (tokenized_of_tokenize h) hcopied hraw

end RecordQuery.Format
