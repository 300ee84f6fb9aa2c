import RecordQuery.Proofs.Format.Constants
set_option autoImplicit false

/-!
# Format: literals

How a format spells the constants of the language: null and truth values as words, integers in digits, strings
between quotes of either kind.  Unlike the texts of `Spells`, some of them do not stand for themselves in SQL.
`Yields` says which tokens a text has wherever it stands, and with which positional values it goes on; it is
put together from right to left, one lexeme at a time.
-/

namespace RecordQuery.Format

/-! ## The texts of constants -/

/-- The content of a text between double quotes: a backslash before every backslash and quote. -/
def escaping (cs : List Char) : List Char :=
  cs.flatMap fun c => if c = '\\' ∨ c = '\x22' then ['\\', c] else [c]

/-- The text is how a format writes the value: null and truth values as words in any case, an integer in digits,
perhaps after a minus sign and with zeros in front, a string between single quotes, doubled inside, or between
double quotes. -/
inductive IsLiteral : Value → List Char → Prop where
  | null {word : List Char} (hword : word.map Char.toLower = "null".toList) : IsLiteral .null word
  | bool {b : Bool} {word : List Char}
      (hword : word.map Char.toLower = (if b then "true" else "false").toList) : IsLiteral (.bool b) word
  | int {n : Int64} {digits : List Char} (hdigits : IsInteger digits)
      (hread : Text.readInt64 digits = some n) : IsLiteral (.int n) digits
  | quoted (s : String) : IsLiteral (.string s) ('\x27' :: (Text.doubling '\x27' s.toList ++ ['\x27']))
  | text (s : String) : IsLiteral (.string s) ('\x22' :: (escaping s.toList ++ ['\x22']))

/-- The token of a constant. -/
def literalToken : Value → Token
  | .null => .null
  | v => .literal (.infer v) v

/-! ## Tokens wherever a text stands -/

/-- With the values from `index` on, the text has these tokens, wherever it stands in a format. -/
def Yields (b : Binding) (cs : List Char) (index : Nat) (ts : List Token) : Prop :=
  ∀ position, ∃ us, b.tokensFrom 0 (pieces cs) position index = .ok us ∧ us.map Spanned.token = ts

section

variable {b : Binding} {cs : List Char} {index : Nat} {ts : List Token}

namespace Yields

theorem nil (b : Binding) (index : Nat) : Yields b [] index [] := fun _ => ⟨[], rfl, rfl⟩

theorem space {c : Char} (hc : isSpace c = true) (h : Yields b cs index ts) : Yields b (c :: cs) index ts := by
  intro position
  rw [tokensFrom_dropWhile, List.dropWhile_cons_of_pos hc, List.takeWhile_cons_of_pos hc, Text.byteLength_cons,
    ← Nat.add_assoc, ← tokensFrom_dropWhile]
  exact h (position + c.utf8Size)

/-- A lexeme that is not the first part of a qualified field has its own tokens. -/
theorem lexeme {c : Char} {w : List Char} {l : Lexeme} {tokens : List Token} {substituted : Bool} {next : Nat}
    (hscan : scan c (w ++ cs) = (l, w.length + 1))
    (htokens : ∀ position, b.pieceTokens ⟨l, c :: w⟩ index position = .ok (tokens, substituted, next))
    (halone : Binding.qualifier tokens = none ∨ Binding.throughDot (pieces cs) = none)
    (h : Yields b cs next ts) : Yields b (c :: (w ++ cs)) index (tokens ++ ts) := by
  intro position
  obtain ⟨us, hus, hmap⟩ := h (position + Text.byteLength (c :: w))
  rw [pieces_lexeme hscan, tokensFrom_piece (htokens position) halone, hus]
  refine ⟨_, rfl, ?_⟩
  rw [List.map_append, List.map_map, hmap]
  exact congrArg (· ++ ts) (List.map_id tokens)

theorem tokenize (h : Yields b cs 0 ts) :
    ∃ us, Format.tokenize (String.ofList cs) b = .ok us ∧ us.map Spanned.token = ts := by
  rw [Format.tokenize, String.toList_ofList]
  exact h 0

/-- A word that no dot follows has its own token. -/
theorem word {word : String} {t : Token} {substituted : Bool} (hword : isWord word = true)
    (ht : Binding.wordToken word.toList = (t, substituted))
    (halone : Binding.qualifier [t] = none ∨ Binding.throughDot (pieces cs) = none) (hcs : Breaks cs)
    (h : Yields b cs index ts) : Yields b (word.toList ++ cs) index (t :: ts) := by
  obtain ⟨c, rest, hlist, hscan⟩ := scan_isWord hword
  have htokens : ∀ position, b.pieceTokens ⟨.word word.toList, word.toList⟩ index position =
      .ok ([t], substituted, index) := by
    intro position
    simp only [Binding.pieceTokens, ht]
  rw [hlist] at htokens ⊢
  exact lexeme (hscan cs fun d hd => breaks_isWordChar (hcs d hd)) htokens halone h

end Yields

/-- No dot follows where a word stands after a blank. -/
theorem throughDot_word {word : String} (hword : isWord word = true) (hcs : Breaks cs) :
    Binding.throughDot (pieces (' ' :: (word.toList ++ cs))) = none := by
  obtain ⟨c, rest, hlist, hscan⟩ := scan_isWord hword
  have hword' := hscan cs fun d hd => breaks_isWordChar (hcs d hd)
  have hspace : isSpace c = false := by
    rw [Bool.eq_false_iff]
    intro hc
    rw [scan_space hc] at hword'
    cases hword'
  rw [throughDot_dropWhile, hlist, List.cons_append, List.dropWhile_cons_of_pos rfl,
    List.dropWhile_cons_of_neg (Bool.not_eq_true _ ▸ hspace), pieces_lexeme hword']
  rfl

/-! ## The tokens of constants -/

theorem isAlpha_of_isAlpha_toLower {c : Char} (h : c.toLower.isAlpha = true) : c.isAlpha = true := by
  unfold Char.toLower at h
  split at h
  · rename_i hupper
    exact Bool.or_eq_true_iff.mpr (.inl (decide_eq_true hupper))
  · exact h

theorem not_isDigit_of_isAlpha {c : Char} (h : c.isAlpha = true) : c.isDigit = false := by
  rw [Bool.eq_false_iff]
  intro hdigit
  have hlast : c.val ≤ '9'.val := of_decide_eq_true (Bool.and_eq_true_iff.mp hdigit).2
  rcases Bool.or_eq_true_iff.mp h with hupper | hlower
  · have hfirst : 'A'.val ≤ c.val := (of_decide_eq_true hupper).1
    exact absurd (UInt32.le_trans hfirst hlast) (by decide)
  · have hfirst : 'a'.val ≤ c.val := of_decide_eq_true (Bool.and_eq_true_iff.mp hlower).1
    exact absurd (UInt32.le_trans hfirst hlast) (by decide)

/-- What is a word of letters in lower case is a word. -/
theorem isWord_of_map_toLower {word letters : List Char} (hne : letters ≠ [])
    (hletters : letters.all Char.isAlpha = true) (h : word.map Char.toLower = letters) :
    isWord (String.ofList word) = true := by
  subst h
  have hall : ∀ c ∈ word, c.isAlpha = true := fun c hc =>
    isAlpha_of_isAlpha_toLower (List.all_eq_true.mp hletters _ (List.mem_map_of_mem hc))
  have hchars : word.all Text.isWordChar = true := List.all_eq_true.mpr fun c hc =>
    Text.isWordChar_of_isAlphanum (by simp [Char.isAlphanum, hall c hc])
  unfold isWord
  rw [String.toList_ofList]
  cases word with
  | nil => exact absurd rfl hne
  | cons c rest =>
    simp only [not_isDigit_of_isAlpha (hall c List.mem_cons_self), hchars]
    rfl

theorem scanText_escaping (s cs : List Char) :
    scanText (escaping s ++ '\x22' :: cs) = some (s, (escaping s).length + 1) := by
  induction s with
  | nil => rfl
  | cons c rest ih =>
    have hcons : escaping (c :: rest) =
        (if c = '\\' ∨ c = '\x22' then ['\\', c] else [c]) ++ escaping rest := by simp [escaping]
    rw [hcons]
    split
    · rename_i hc
      rcases hc with rfl | rfl
      all_goals
        simp only [List.cons_append, List.nil_append, scanText, ih, Option.map_some, List.length_cons]
    · rename_i hc
      rw [not_or] at hc
      rw [List.append_assoc, List.singleton_append, scanText, ih]
      · rfl
      · exact fun h => hc.2 h
      · exact fun _ h _ => hc.1 h
      · exact fun _ h _ => hc.1 h
      · exact fun h => hc.1 h

/-- A text between double quotes is one text. -/
theorem scan_escaping (s cs : List Char) :
    scan '\x22' (escaping s ++ ['\x22'] ++ cs) = (.text s, (escaping s ++ ['\x22']).length + 1) := by
  rw [List.append_assoc, List.singleton_append, scan, if_neg (by decide), if_neg (by decide), if_pos rfl,
    scanText_escaping, List.length_append]
  rfl

/-- A word of letters that is no field has its own token. -/
theorem yields_letters {text letters : List Char} {t : Token} {substituted : Bool} (hne : letters ≠ [])
    (hletters : letters.all Char.isAlpha = true) (hlower : text.map Char.toLower = letters)
    (ht : Binding.wordToken text = (t, substituted)) (halone : Binding.qualifier [t] = none) (hcs : Breaks cs)
    (h : Yields b cs index ts) : Yields b (text ++ cs) index (t :: ts) := by
  have hword := isWord_of_map_toLower hne hletters hlower
  rw [← String.toList_ofList (l := text)] at ht ⊢
  exact .word hword ht (.inl halone) hcs h

/-- A constant has its token, before any text that cannot continue it. -/
theorem yields_literal {v : Value} {text : List Char} (hv : IsLiteral v text) (hcs : Breaks cs)
    (h : Yields b cs index ts) : Yields b (text ++ cs) index (literalToken v :: ts) := by
  cases hv with
  | null hlower =>
    have hread : Binding.wordToken text = (.null, false) := by
      rw [Binding.wordToken, hlower]
      rfl
    exact yields_letters (by decide) (by decide) hlower hread rfl hcs h
  | @bool truth _ hlower =>
    have hread : Binding.wordToken text = (.literal .boolean (.bool truth), true) := by
      rw [Binding.wordToken, hlower]
      cases truth <;> rfl
    exact yields_letters (by cases truth <;> decide) (by cases truth <;> decide) hlower hread rfl hcs h
  | int hdigits hread =>
    have htoken := hdigits.copiedToken? hread
    obtain ⟨c, rest, rfl, hscan⟩ := hdigits.scan hcs
    exact .lexeme hscan (pieceTokens_copied htoken b _ index) (.inl rfl) h
  | quoted s =>
    have hyields := Yields.lexeme (scan_doubling s.toList hcs.head?_ne_quote) (fun _ => rfl) (.inl rfl) h
    rw [String.ofList_toList] at hyields
    exact hyields
  | text s =>
    have hyields := Yields.lexeme (scan_escaping s.toList cs) (fun _ => rfl) (.inl rfl) h
    rw [String.ofList_toList] at hyields
    exact hyields

/-- Constants between commas have their tokens between commas. -/
theorem yields_literals : ∀ {vs : List Value} {texts : List String},
    List.Forall₂ (fun v text => IsLiteral v text.toList) vs texts → Breaks cs → Yields b cs index ts →
      Yields b ((Text.joined ", " texts).toList ++ cs) index ((vs.map literalToken).intersperse .comma ++ ts)
  | _, _, .nil, _, h => h
  | [v], [text], .cons hv .nil, hcs, h => by
    rw [Text.joined, String.intercalate_singleton]
    exact yields_literal hv hcs h
  | v :: w :: vs, text :: next :: texts, .cons hv (.cons hw hrest), hcs, h => by
    have hmore := yields_literals (.cons hw hrest) hcs h
    have hscan : scan ',' ([] ++ ' ' :: ((Text.joined ", " (next :: texts)).toList ++ cs)) = (.comma, 1) := rfl
    have hcomma := Yields.lexeme hscan (fun _ => rfl) (.inl rfl) (hmore.space rfl)
    have hyields := yields_literal hv (breaks_cons rfl _) hcomma
    rw [Text.joined, String.intercalate_cons_cons, String.toList_append, String.toList_append, List.append_assoc,
      List.append_assoc]
    exact hyields

theorem yields_openParen (h : Yields b cs index ts) : Yields b ('(' :: cs) index (.openParen :: ts) := by
  have hscan : scan '(' ([] ++ cs) = (.openParen, 1) := rfl
  exact .lexeme hscan (fun _ => rfl) (.inl rfl) h

theorem yields_closeParen (b : Binding) (index : Nat) : Yields b [')'] index [.closeParen] := by
  have hscan : scan ')' ([] ++ []) = (.closeParen, 1) := rfl
  exact .lexeme hscan (fun _ => rfl) (.inl rfl) (.nil b index)

end

/-! ## A list placeholder -/

/-- Values bound without a type are literals of the type that the first one is inferred to have. -/
theorem yields_placeholder {v : Value} {vs : List Value} (registry : Registry) :
    Yields ⟨[.array (v :: vs)], registry⟩ "?()".toList 0
      (.openList (.infer v) :: (v :: vs).map (.literal (.infer v)) ++ [.closeList]) := by
  have hscan : scan '?' (['(', ')'] ++ []) = (.placeholder none true, 3) := rfl
  have hliterals : (v :: vs).mapM (fun w => do return Token.literal (.infer v) (← Binding.coerce none w)) =
      Except.ok ((v :: vs).map (.literal (.infer v))) := Outcome.mapM_eq_ok fun _ _ => rfl
  have hlist : Binding.listTokens none (v :: vs) =
      .ok (.openList (.infer v) :: (v :: vs).map (.literal (.infer v)) ++ [.closeList]) := by
    rw [Binding.listTokens]
    simp only [Option.getD_none]
    rw [hliterals]
    rfl
  have htokens : ∀ position, Binding.pieceTokens ⟨[.array (v :: vs)], registry⟩
      ⟨.placeholder none true, ['?', '(', ')']⟩ 0 position =
        .ok (.openList (.infer v) :: (v :: vs).map (.literal (.infer v)) ++ [.closeList], true, 1) := by
    intro position
    have hplaceholder : Binding.placeholder ⟨[.array (v :: vs)], registry⟩ none true 0 position =
        .ok (.openList (.infer v) :: (v :: vs).map (.literal (.infer v)) ++ [.closeList], 1) := by
      show (do return (← Binding.listTokens none (v :: vs), 1)) = _
      rw [hlist]
      rfl
    show (Binding.placeholder _ none true 0 position >>= _) = _
    rw [hplaceholder]
    rfl
  have hyields := Yields.lexeme hscan htokens (.inl rfl) (.nil _ 1)
  rw [List.append_nil, List.append_nil] at hyields
  exact hyields

end RecordQuery.Format
