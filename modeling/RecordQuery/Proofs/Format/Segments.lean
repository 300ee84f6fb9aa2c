import RecordQuery.Format.Interpolation
import RecordQuery.Proofs.Format.Copied
import Mathlib.Data.Set.List
set_option autoImplicit false

/-!
# Format: segments

What tokenizing and interpolating do to a format is described without byte positions: the format is a
sequence of segments, each white space and a text after it, with white space at the end.  Every segment
stands for one part: text that is copied, a value, a name, or the list of a tuple placeholder.  The tokens
of a part all carry the bytes of its text (`Tiling`), and the part alone says what replaces the text.
-/

namespace RecordQuery.Format

/-! ## Parts -/

/-- What one place of a format stands for. -/
inductive Part where
  | copied (token : Token)
  | value (type : DataType) (v : Value)
  | model (name : String)
  | field (name : String)
  /-- a field with its model; either name may be unquoted, but not both -/
  | qualified (name : String) (quoted : Bool) (owner : String × Bool)
  | list (type : DataType) (items : List Value)

namespace Part

/-- The tokens of a part: one, or those of a list between its brackets. -/
def tokens : Part → List Token
  | .copied token => [token]
  | .value type v => [.literal type v]
  | .model name => [.model name true]
  | .field name => [.field name true none]
  | .qualified name quoted owner => [.field name quoted (some owner)]
  | .list type items => .openList type :: (items.map (Token.literal type) ++ [.closeList])

/-- The part is replaced. -/
def substituted : Part → Bool
  | .copied _ => false
  | _ => true

/-- The part is a list. -/
def isList : Part → Bool
  | .list _ _ => true
  | _ => false

/-- What stands for a part of this text in SQL. -/
def sql (d : Dialect) (text : List Char) : Part → Outcome String
  | .copied _ => .ok (String.ofList text)
  | .value type v => d.quoteLiteral type v
  | .model name => .ok (d.quoteModel name)
  | .field name => .ok (d.quoteField name)
  | .qualified name quoted owner =>
    .ok (quotePart d.quoteModel owner.1 owner.2 ++ "." ++ quotePart d.quoteField name quoted)
  | .list type items => do
    let texts ← items.mapM (d.quoteLiteral type)
    return if texts.isEmpty then "(NULL)" else "(" ++ Text.joined ", " texts ++ ")"

/-- The part may stand in the place of this text; names that are not quoted are words. -/
def Allows : Part → List Char → Prop
  | .copied token, text => Copied token text
  | .qualified name quoted owner, _ =>
    (quoted = false → ∃ word, name = String.ofList word ∧ (Lexeme.word word).Allows word) ∧
      (owner.2 = false → ∃ word, owner.1 = String.ofList word ∧ (Lexeme.word word).Allows word ∧
        Binding.wordToken word = (.field (String.ofList word) false none, false))
  | _, _ => True

/-- The tokens of a part with the bytes that they come from. -/
def spans (part : Part) (start stop : Nat) : List Spanned :=
  part.tokens.map fun t => ⟨t, start, stop, part.substituted⟩

theorem tokens_ne_nil (part : Part) : part.tokens ≠ [] := by
  cases part <;> exact List.cons_ne_nil _ _

theorem mem_spans {part : Part} {start stop : Nat} {s : Spanned} (h : s ∈ part.spans start stop) :
    s.start = start ∧ s.stop = stop ∧ s.substituted = part.substituted := by
  obtain ⟨t, -, rfl⟩ := List.mem_map.mp h
  exact ⟨rfl, rfl, rfl⟩

theorem spans_ne_nil (part : Part) (start stop : Nat) : part.spans start stop ≠ [] := by
  simpa [spans] using part.tokens_ne_nil

/-- A field with its model, which is replaced if one of the names is. -/
def ofQualified (name : String) (quoted : Bool) (owner : String × Bool) (substituted : Bool) : Part :=
  if substituted then .qualified name quoted owner else .copied (.field name quoted (some owner))

theorem spans_ofQualified (name : String) (quoted : Bool) (owner : String × Bool) (substituted : Bool)
    (start stop : Nat) :
    (ofQualified name quoted owner substituted).spans start stop =
      [⟨.field name quoted (some owner), start, stop, substituted⟩] := by
  cases substituted <;> rfl

theorem isList_ofQualified (name : String) (quoted : Bool) (owner : String × Bool) (substituted : Bool) :
    (ofQualified name quoted owner substituted).isList = false := by
  cases substituted <;> rfl

end Part

/-! ## Segments -/

/-- White space, and a text that stands for a part; a list stands in the place of a placeholder. -/
structure Segment where
  gap : List Char
  text : List Char
  part : Part
  gap_space : gap.all isSpace = true
  text_ne_nil : text ≠ []
  list_text : part.isList = true → ∃ code tuple, Piece.Scanned ⟨.placeholder code tuple, text⟩

namespace Segment

/-- The characters of a segment. -/
def chars (s : Segment) : List Char := s.gap ++ s.text

/-- The tokens of a segment that starts at a byte. -/
def spans (s : Segment) (position : Nat) : List Spanned :=
  s.part.spans (position + Text.byteLength s.gap) (position + Text.byteLength s.gap + Text.byteLength s.text)

end Segment

/-- The tokens of segments from a byte on. -/
def spansFrom (position : Nat) : List Segment → List Spanned
  | [] => []
  | s :: rest => s.spans position ++ spansFrom (position + Text.byteLength s.chars) rest

/-- Segments and white space at the end as SQL. -/
def segmentsSql (d : Dialect) (after : List Char) : List Segment → Outcome String
  | [] => .ok (String.ofList after)
  | s :: rest => do
    return String.ofList s.gap ++ (← s.part.sql d s.text) ++ (← segmentsSql d after rest)

/-- The cut of a format into segments that some tokens come from. -/
structure Tiling (format : List Char) (ts : List Spanned) where
  segments : List Segment
  after : List Char
  after_space : after.all isSpace = true
  covers : segments.flatMap Segment.chars ++ after = format
  spans_eq : spansFrom 0 segments = ts

/-- The format with the text of each segment replaced by what stands for its part. -/
def Tiling.sql {format : List Char} {ts : List Spanned} (tiling : Tiling format ts) (d : Dialect) :
    Outcome String := segmentsSql d tiling.after tiling.segments

/-! ## Tokens of a piece -/

theorem literals_eq_map {t : Option DataType} {type : DataType} {items : List Value} {literals : List Token}
    (h : (items.mapM fun v => do return Token.literal type (← Binding.coerce t v)) = .ok literals) :
    ∃ vs : List Value, vs.map (Token.literal type) = literals := by
  have hliterals : literals ∈ Set.range (List.map (Token.literal type)) := by
    rw [Set.range_list_map]
    refine Outcome.forall_of_mapM ?_ h
    intro v token htoken
    obtain ⟨w, -, htoken⟩ := Outcome.bind_eq_ok.mp htoken
    cases htoken
    exact ⟨w, rfl⟩
  exact hliterals

theorem listTokens_eq_part {t : Option DataType} {items : List Value} {tokens : List Token}
    (h : Binding.listTokens t items = .ok tokens) : ∃ type vs, (Part.list type vs).tokens = tokens := by
  obtain ⟨literals, hl, h⟩ := Outcome.bind_eq_ok.mp h
  cases h
  obtain ⟨vs, rfl⟩ := literals_eq_map hl
  exact ⟨_, vs, rfl⟩

theorem fieldToken_eq_part (name : String) :
    ∃ part : Part, part.tokens = [Binding.fieldToken name] ∧ part.substituted = true ∧
      ∀ text, part.Allows text := by
  unfold Binding.fieldToken
  split
  · exact ⟨.qualified _ true (_, true), rfl, rfl, fun _ => ⟨nofun, nofun⟩⟩
  · exact ⟨.field name, rfl, rfl, fun _ => trivial⟩

/-- The tokens of a placeholder are those of a value, a name or a list. -/
theorem placeholder_eq_part {b : Binding} {code : Option String} {tuple : Bool}
    {index position next : Nat} {tokens : List Token}
    (h : b.placeholder code tuple index position = .ok (tokens, next)) :
    ∃ part : Part, part.tokens = tokens ∧ part.substituted = true ∧ ∀ text, part.Allows text := by
  unfold Binding.placeholder at h
  split at h
  · obtain ⟨name, -, h⟩ := Outcome.bind_eq_ok.mp h
    cases h
    exact ⟨.model name, rfl, rfl, fun _ => trivial⟩
  split at h
  · obtain ⟨name, -, h⟩ := Outcome.bind_eq_ok.mp h
    cases h
    exact fieldToken_eq_part name
  · obtain ⟨⟨type, asTuple, index'⟩, -, h⟩ := Outcome.bind_eq_ok.mp h
    obtain ⟨v, -, h⟩ := Outcome.bind_eq_ok.mp h
    split at h
    · split at h
      · obtain ⟨us, hus, h⟩ := Outcome.bind_eq_ok.mp h
        cases h
        obtain ⟨t, vs, rfl⟩ := listTokens_eq_part hus
        exact ⟨.list t vs, rfl, rfl, fun _ => trivial⟩
      · cases h
    · obtain ⟨w, -, h⟩ := Outcome.bind_eq_ok.mp h
      cases h
      exact ⟨.value _ w, rfl, rfl, fun _ => trivial⟩

/-- A word is copied, or it is a boolean. -/
theorem wordToken_eq_part {word text : List Char} (hword : (Lexeme.word word).Allows text) :
    ∃ part : Part, part.tokens = [(Binding.wordToken word).1] ∧
      part.substituted = (Binding.wordToken word).2 ∧ part.isList = false ∧ part.Allows text := by
  cases hsubstituted : (Binding.wordToken word).2 with
  | true =>
    obtain ⟨type, value, htoken⟩ := wordToken_substituted hsubstituted
    exact ⟨.value type value, by rw [htoken]; rfl, rfl, rfl, trivial⟩
  | false => exact ⟨.copied _, rfl, rfl, rfl, .lexeme (copiedToken?_word hsubstituted) hword⟩

/-- A piece that is not white space stands for one part, and only a placeholder for a list. -/
theorem pieceTokens_eq_part {b : Binding} {p : Piece} (hscanned : p.Scanned) {index position next : Nat}
    {tokens : List Token} {substituted : Bool}
    (h : b.pieceTokens p index position = .ok (tokens, substituted, next)) :
    (p.lexeme = .space ∧ tokens = []) ∨
      ∃ part : Part, part.tokens = tokens ∧ part.substituted = substituted ∧
        (part.isList = true → ∃ code tuple, p.lexeme = .placeholder code tuple) ∧ part.Allows p.text := by
  have hallows := hscanned.allows
  unfold Binding.pieceTokens at h
  split at h
  case h_1 hp =>
    cases h
    exact .inl ⟨hp, rfl⟩
  case h_3 =>
    cases h
    exact .inr ⟨.value _ _, rfl, rfl, nofun, trivial⟩
  case h_4 =>
    cases h
    exact .inr ⟨.model _, rfl, rfl, nofun, trivial⟩
  case h_5 =>
    cases h
    exact .inr ⟨.field _, rfl, rfl, nofun, trivial⟩
  case h_6 code tuple hp =>
    obtain ⟨⟨us, next'⟩, hus, h⟩ := Outcome.bind_eq_ok.mp h
    cases h
    obtain ⟨part, hpart, hsub, hpartAllows⟩ := placeholder_eq_part hus
    exact .inr ⟨part, hpart, hsub, fun _ => ⟨code, tuple, hp⟩, hpartAllows p.text⟩
  case h_7 text hp =>
    obtain ⟨token, htoken, h⟩ := Outcome.bind_eq_ok.mp h
    cases h
    exact .inr ⟨.copied token, rfl, rfl, nofun, .lexeme (copiedToken?_number htoken) (hp ▸ hallows)⟩
  case h_8 word hp =>
    cases h
    obtain ⟨part, hpart, hsub, hlist, hpartAllows⟩ := wordToken_eq_part (hp ▸ hallows)
    refine .inr ⟨part, hpart, hsub, ?_, hpartAllows⟩
    rw [hlist]
    nofun
  case h_10 =>
    cases h
    exact .inr ⟨.copied _, rfl, rfl, nofun, .outside _ _⟩
  case h_14 =>
    cases h
    exact .inr ⟨.copied _, rfl, rfl, nofun, .outside _ _⟩
  all_goals
    rename_i hp
    cases h
    exact .inr ⟨.copied _, rfl, rfl, nofun, .lexeme rfl (hp ▸ hallows)⟩

/-- Two names with a dot between them stand for a qualified field. -/
theorem qualified_allows {b : Binding} {p q : Piece} {dotted rest : List Piece} {index position place mid next : Nat}
    {tokens : List Token} {substituted quoted : Bool} {owner : String × Bool} {name : String}
    (hps : ∀ r ∈ p :: (dotted ++ q :: rest), r.Scanned)
    (hp : b.pieceTokens p index position = .ok (tokens, substituted, mid))
    (howner : Binding.qualifier tokens = some owner)
    (hdot : Binding.throughDot (dotted ++ q :: rest) = some dotted)
    (hfield : b.fieldAfterDot q mid place = .ok (some (name, quoted, next))) :
    (Part.ofQualified name quoted owner (substituted || quoted)).Allows
      (p.text ++ (dotted.flatMap Piece.text ++ q.text)) := by
  obtain ⟨hpScanned, hps⟩ := List.forall_mem_cons.mp hps
  have hqScanned := hps q (List.mem_append_right _ List.mem_cons_self)
  obtain ⟨hquoted, hword⟩ := pieceTokens_qualifier hp howner
  have hnameWord : quoted = false → ∃ word, name = String.ofList word ∧ q.text = word ∧
      (Lexeme.word word).Allows word := by
    rintro rfl
    obtain ⟨word, hq, rfl, -⟩ := fieldAfterDot_copied hfield
    have hallows := hqScanned.allows
    rw [hq] at hallows
    exact ⟨word, rfl, hallows.1, hallows.1 ▸ hallows⟩
  have hownerWord : substituted = false → ∃ word, owner = (String.ofList word, false) ∧ p.text = word ∧
      (Lexeme.word word).Allows word ∧ Binding.wordToken word = (.field (String.ofList word) false none, false) := by
    intro hsubstituted
    obtain ⟨word, hl, rfl, htoken⟩ := hword hsubstituted
    have hallows := hpScanned.allows
    rw [hl] at hallows
    exact ⟨word, rfl, hallows.1, hallows.1 ▸ hallows, htoken⟩
  cases hboth : substituted || quoted with
  | true =>
    refine ⟨fun h => ?_, fun h => ?_⟩
    · obtain ⟨word, hname, -, hallows⟩ := hnameWord h
      exact ⟨word, hname, hallows⟩
    · obtain ⟨word, rfl, -, hallows, htoken⟩ := hownerWord (hquoted.symm.trans h)
      exact ⟨word, rfl, hallows, htoken⟩
  | false =>
    rw [Bool.or_eq_false_iff] at hboth
    obtain ⟨word, rfl, hname, hnameAllows⟩ := hnameWord hboth.2
    obtain ⟨word', rfl, howner, hownerAllows, htoken⟩ := hownerWord hboth.1
    obtain ⟨gap, hgap, htext⟩ := throughDot_text hdot hps
    obtain rfl := hboth.2
    rw [htext, hname, howner, List.append_assoc]
    exact .qualified hownerAllows htoken hgap hnameAllows

/-! ## Cutting into segments -/

/-- White space before some pieces, and the pieces, are cut into segments that their tokens come from. -/
theorem segments_of_tokenized {b : Binding} {ps : List Piece} {position index : Nat} {ts : List Spanned}
    (h : Tokenized b ps position index ts) (hps : ∀ p ∈ ps, p.Scanned) (start : Nat) (gap : List Char)
    (hgap : gap.all isSpace = true) (hposition : position = start + Text.byteLength gap) :
    ∃ segments after, after.all isSpace = true ∧ spansFrom start segments = ts ∧
      segments.flatMap Segment.chars ++ after = gap ++ ps.flatMap Piece.text ∧
      ∀ s ∈ segments, s.part.Allows s.text := by
  induction h generalizing start gap with
  | nil => exact ⟨[], gap, hgap, rfl, (List.append_nil gap).symm, nofun⟩
  | @piece p rest position index next tokens substituted ts hp hrest ih =>
    subst hposition
    obtain ⟨hscanned, hrestScanned⟩ := List.forall_mem_cons.mp hps
    rcases pieceTokens_eq_part hscanned hp with ⟨hspace, rfl⟩ | ⟨part, rfl, rfl, hlist, hallows⟩
    · have hgap' : (gap ++ p.text).all isSpace = true := by
        rw [List.all_append, hgap, hscanned.all_isSpace hspace]
        rfl
      obtain ⟨segments, after, hafter, hspans, hchars, hparts⟩ := ih hrestScanned _ _ hgap'
        (by rw [Text.byteLength_append, Nat.add_assoc])
      refine ⟨segments, after, hafter, hspans, ?_, hparts⟩
      rw [hchars, List.flatMap_cons, List.append_assoc]
    · obtain ⟨segments, after, hafter, hspans, hchars, hparts⟩ := ih hrestScanned _ [] rfl
        (Nat.add_zero _).symm
      let segment : Segment := ⟨gap, p.text, part, hgap, hscanned.text_ne_nil, fun h => by
        obtain ⟨code, tuple, hcode⟩ := hlist h
        exact ⟨code, tuple, hcode ▸ hscanned⟩⟩
      refine ⟨segment :: segments, after, hafter, ?_, ?_, List.forall_mem_cons.mpr ⟨hallows, hparts⟩⟩
      · rw [spansFrom, ← hspans, Segment.chars, Text.byteLength_append, ← Nat.add_assoc]
        rfl
      · rw [List.flatMap_cons, List.append_assoc, hchars, List.flatMap_cons, Segment.chars,
          List.append_assoc]
        rfl
  | @qualified p q dotted rest position index mid next tokens substituted quoted model name ts hp hmodel
      hdot hfield hrest ih =>
    subst hposition
    have hallows := qualified_allows hps hp hmodel hdot hfield
    obtain ⟨hscanned, hrestScanned⟩ := List.forall_mem_cons.mp hps
    obtain ⟨segments, after, hafter, hspans, hchars, hparts⟩ :=
      ih (fun r hr => hrestScanned r (List.mem_append_right _ (List.mem_cons_of_mem _ hr))) _ []
        rfl (Nat.add_zero _).symm
    let segment : Segment := ⟨gap, p.text ++ (dotted.flatMap Piece.text ++ q.text),
      .ofQualified name quoted model (substituted || quoted), hgap,
      List.append_ne_nil_of_left_ne_nil hscanned.text_ne_nil _, fun h => by
        rw [Part.isList_ofQualified] at h
        cases h⟩
    refine ⟨segment :: segments, after, hafter, ?_, ?_, List.forall_mem_cons.mpr ⟨hallows, hparts⟩⟩
    · rw [spansFrom, Segment.spans, Part.spans_ofQualified, ← hspans]
      simp only [segment, Segment.chars, Text.byteLength_append, piecesLength_eq, Nat.add_assoc,
        List.singleton_append]
    · simp only [segment, List.flatMap_cons, List.flatMap_append, Segment.chars, List.append_assoc, hchars]
      rfl

/-- The tokens of a format come from a cut of it into segments whose parts allow their texts. -/
theorem exists_allowed_tiling {format : String} {b : Binding} {ts : List Spanned}
    (h : tokenize format b = .ok ts) :
    ∃ tiling : Tiling format.toList ts, ∀ s ∈ tiling.segments, s.part.Allows s.text := by
  obtain ⟨segments, after, hafter, hspans, hchars, hparts⟩ :=
    segments_of_tokenized (tokenized_of_tokenize h) (fun _ => scanned_of_mem_pieces) 0 [] rfl rfl
  rw [List.nil_append, flatMap_text_pieces] at hchars
  exact ⟨⟨segments, after, hafter, hchars, hspans⟩, hparts⟩

theorem exists_tiling {format : String} {b : Binding} {ts : List Spanned}
    (h : tokenize format b = .ok ts) : Nonempty (Tiling format.toList ts) := by
  obtain ⟨tiling, -⟩ := exists_allowed_tiling h
  exact ⟨tiling⟩

end RecordQuery.Format
