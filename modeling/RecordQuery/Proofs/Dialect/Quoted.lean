import Mathlib.Tactic.IntervalCases
import RecordQuery.Proofs.Dialect.Lexer
import RecordQuery.Proofs.Format.Constants
set_option autoImplicit false

/-!
# Dialect: quoting cannot be escaped from

What quoting writes is read back by the lexical rules of its dialect as exactly one literal or identifier,
whatever the value or name and whatever text follows that does not continue it.
-/

namespace RecordQuery

namespace Text

/-- A character that doubling does not meet leaves the text as it is. -/
theorem doubling_eq_self {c : Char} {cs : List Char} (h : c ∉ cs) : doubling c cs = cs := by
  induction cs with
  | nil => rfl
  | cons x rest ih =>
    rw [List.mem_cons, not_or] at h
    rw [doubling_cons, if_neg (Ne.symm h.1), ih h.2]
    rfl

/-! ## Word characters -/

theorem isWordChar_of_hexValue? {c : Char} {n : Nat} (h : hexValue? c = some n) : isWordChar c = true := by
  refine isWordChar_of_isAlphanum ?_
  unfold hexValue? at h
  split at h
  · rename_i hc
    simp [Char.isAlphanum, hc]
  split at h
  · rename_i hc
    have hlower : c.isLower = true := by
      show (decide _ && decide _) = true
      rw [Bool.and_eq_true, decide_eq_true_eq, decide_eq_true_eq]
      exact ⟨hc.1, Char.le_trans hc.2 (by decide)⟩
    have halpha : c.isAlpha = true := by
      show (c.isUpper || c.isLower) = true
      rw [hlower, Bool.or_true]
    simp [Char.isAlphanum, halpha]
  split at h
  · rename_i hc
    have hupper : c.isUpper = true := by
      show decide _ = true
      rw [decide_eq_true_eq]
      exact ⟨hc.1, Char.le_trans hc.2 (by decide)⟩
    have halpha : c.isAlpha = true := by
      show (c.isUpper || c.isLower) = true
      rw [hupper, Bool.true_or]
    simp [Char.isAlphanum, halpha]
  · cases h

/-- White space is no word character. -/
theorem isWordChar_of_isBlank {c : Char} (h : isBlank c = true) : isWordChar c = false := by
  rw [← Char.ofNat_toNat c]
  simp only [isBlank, Bool.or_eq_true, Bool.and_eq_true, decide_eq_true_eq, beq_iff_eq] at h
  generalize c.toNat = n at h ⊢
  rcases h with (((((((((⟨h₁, h₂⟩ | rfl) | rfl) | rfl) | rfl) | ⟨h₁, h₂⟩) | rfl) | rfl) | rfl) | rfl) | rfl
  case inl.inl.inl.inl.inl.inl.inl.inl.inl.inl => interval_cases n <;> decide +kernel
  case inl.inl.inl.inl.inl.inr => interval_cases n <;> decide +kernel
  all_goals decide +kernel

end Text

namespace Dialect

/-! ## What may follow -/

/-- A text that may follow a literal: nothing, or white space, a comma or a parenthesis first. -/
def Delimits (cs : List Char) : Prop := ∀ c ∈ cs.head?, Text.isBlank c = true ∨ c ∈ [',', '(', ')']

section Delimits

variable {rest : List Char}

theorem Delimits.isWordPart (h : Delimits rest) : ∀ c ∈ rest.head?, isWordPart c = false := by
  intro c hc
  rcases h c hc with hblank | hmem
  · rw [Dialect.isWordPart, Text.isWordChar_of_isBlank hblank, Bool.false_or, Bool.eq_false_iff]
    intro hmark
    simp only [List.contains_iff_mem, List.mem_cons, List.not_mem_nil, or_false] at hmark
    rcases hmark with rfl | rfl | rfl <;> cases hblank
  · simp only [List.mem_cons, List.not_mem_nil, or_false] at hmem
    rcases hmem with rfl | rfl | rfl <;> rfl

theorem Delimits.endsWord (h : Delimits rest) : endsWord rest = true := by
  cases rest with
  | nil => rfl
  | cons c rest => rw [Dialect.endsWord, h.isWordPart c rfl, Bool.not_false]

/-- A character that is neither white space nor a comma or parenthesis does not stand first. -/
theorem Delimits.head?_ne (h : Delimits rest) {c : Char} (hblank : Text.isBlank c = false)
    (hmem : c ∉ [',', '(', ')']) : rest.head? ≠ some c := by
  intro hc
  rcases h c hc with hb | hm
  · rw [hblank] at hb
    cases hb
  · exact hmem hm

end Delimits

/-! ## Delimited text -/

section

variable {rest : List Char}

/-- A delimiter that is not doubled ends the text. -/
theorem readDelimited_close {close : Char} (escapes : Bool) (h : rest.head? ≠ some close) :
    readDelimited close escapes (close :: rest) = some ([], rest) := by
  cases rest with
  | nil => simp [readDelimited]
  | cons c rest =>
    have hc : c ≠ close := fun heq => h (congrArg some heq)
    simp [readDelimited, hc]

/-- Any other character stands for itself. -/
theorem readDelimited_plain {close c : Char} {escapes : Bool} (hclose : c ≠ close)
    (hescape : (escapes && c == '\\') = false) (cs : List Char) :
    readDelimited close escapes (c :: cs) =
      (readDelimited close escapes cs).map fun (s, after) => (c :: s, after) := by
  rw [readDelimited.eq_def]
  simp only [if_neg hclose, hescape, Bool.false_eq_true, if_false]

theorem readDelimited_doubling {close : Char} (s : List Char) (h : rest.head? ≠ some close) :
    readDelimited close false (Text.doubling close s ++ close :: rest) = some (s, rest) := by
  induction s with
  | nil => exact readDelimited_close false h
  | cons c s ih =>
    rw [Text.doubling_cons]
    split
    · rename_i hc
      subst hc
      simp [readDelimited, ih]
    · rename_i hc
      rw [List.append_assoc, List.singleton_append, readDelimited_plain hc rfl, ih]
      rfl

/-- Where backslashes escape, doubling them as well makes the text whole again. -/
theorem readDelimited_escaped (s : List Char) (h : rest.head? ≠ some '\x27') :
    readDelimited '\x27' true (Text.doubling '\\' (Text.doubling '\x27' s) ++ '\x27' :: rest) =
      some (s, rest) := by
  induction s with
  | nil => exact readDelimited_close true h
  | cons c s ih =>
    by_cases hquote : c = '\x27'
    · subst hquote
      simp [readDelimited, Text.doubling_cons, ih]
    · by_cases hslash : c = '\\'
      · subst hslash
        simp [readDelimited, Text.doubling_cons, unescaped, ih]
      · rw [Text.doubling_cons, if_neg hquote, List.singleton_append, Text.doubling_cons, if_neg hslash,
          List.append_assoc, List.singleton_append, readDelimited_plain hquote (by simp [hslash]), ih]
        rfl

theorem readIdentifier_quoteName (d : Dialect) (name : List Char) (h : rest.head? ≠ some d.closeDelimiter) :
    d.readIdentifier (d.quoteName name ++ rest) = some (name, rest) := by
  rw [quoteName, List.cons_append, List.cons_append, readIdentifier, if_pos rfl, List.append_assoc,
    List.singleton_append, readDelimited_doubling name h]

theorem readDotted_dot {d : Dialect} {cs name : List Char} (h : d.readIdentifier cs = some (name, '.' :: rest)) :
    d.readDotted cs = (d.readDotted rest).map fun (names, after) => (name :: names, after) := by
  rw [readDotted]
  split
  · rename_i hnone
    rw [h] at hnone
    cases hnone
  · rename_i hsome
    rw [h] at hsome
    cases hsome
    rfl
  · rename_i hne hsome
    rw [h] at hsome
    cases hsome
    exact absurd rfl (hne _)

theorem readDotted_last {d : Dialect} {cs name : List Char} (h : d.readIdentifier cs = some (name, rest))
    (hdot : rest.head? ≠ some '.') : d.readDotted cs = some ([name], rest) := by
  rw [readDotted]
  split
  · rename_i hnone
    rw [h] at hnone
    cases hnone
  · rename_i hsome
    rw [h] at hsome
    cases hsome
    exact absurd rfl hdot
  · rename_i hsome
    rw [h] at hsome
    cases hsome
    rfl

/-- Identifiers with dots between them are read back, if no dot follows. -/
theorem readDotted_quoteNames (d : Dialect) {names : List (List Char)} (hnames : names ≠ [])
    (hclose : rest.head? ≠ some d.closeDelimiter) (hdot : rest.head? ≠ some '.') :
    d.readDotted (['.'].intercalate (names.map d.quoteName) ++ rest) = some (names, rest) := by
  induction names with
  | nil => exact absurd rfl hnames
  | cons name names ih =>
    cases names with
    | nil =>
      rw [List.map_singleton, List.intercalate_singleton]
      exact readDotted_last (readIdentifier_quoteName d name hclose) hdot
    | cons next names =>
      have hread : d.readIdentifier (d.quoteName name ++
          '.' :: (['.'].intercalate ((next :: names).map d.quoteName) ++ rest)) = some (name, _) :=
        readIdentifier_quoteName d name (by cases d <;> simp [closeDelimiter])
      rw [List.map_cons, List.map_cons, List.intercalate_cons_cons, List.append_assoc, List.append_assoc,
        List.singleton_append, ← List.map_cons, readDotted_dot hread, ih (List.cons_ne_nil _ _)]
      rfl

/-! ## Numbers, words and bytes -/

theorem takeSign_append (n : Nat) : Text.takeSign (Nat.toDigits 10 n ++ rest) = (false, Nat.toDigits 10 n ++ rest) := by
  have hall := Text.all_isDigit_toDigits n
  cases hd : Nat.toDigits 10 n with
  | nil => exact absurd hd Nat.toDigits_ne_nil
  | cons c digits =>
    rw [hd, List.all_cons, Bool.and_eq_true] at hall
    rw [List.cons_append]
    unfold Text.takeSign
    split
    · rename_i heq
      cases heq
      cases hall.1
    · rename_i heq
      cases heq
      cases hall.1
    · rfl

/-- Digits are read as far as they go, with the sign before them. -/
theorem readInteger_digits {cs : List Char} {negative : Bool} {n : Nat} (h : Delimits rest)
    (hsign : Text.takeSign cs = (negative, Nat.toDigits 10 n ++ rest)) :
    readInteger cs = some (.integer (if negative then -(n : Int) else n), rest) := by
  have hdigit : ∀ c ∈ rest.head?, c.isDigit = false := by
    intro c hc
    rw [Bool.eq_false_iff]
    intro hd
    have hpart := h.isWordPart c hc
    rw [isWordPart, Format.isDigit_isWordChar hd] at hpart
    cases hpart
  have hdot : rest.head? ≠ some '.' := h.head?_ne (by decide) (by decide)
  rw [readInteger, hsign]
  simp only [Text.takeWhile_append_of_all (Text.all_isDigit_toDigits n) hdigit,
    Text.dropWhile_append_of_all (Text.all_isDigit_toDigits n) hdigit, h.endsWord, Text.readNat_toDigits]
  simp [hdot]

theorem readInteger_numeral (n : Int) (h : Delimits rest) :
    readInteger (Text.numeral n ++ rest) = some (.integer n, rest) := by
  unfold Text.numeral
  split
  · rename_i hn
    rw [readInteger_digits h (takeSign_append n.toNat), if_neg Bool.false_ne_true, Int.toNat_of_nonneg hn]
  · rename_i hn
    have hsign : Text.takeSign ('-' :: Nat.toDigits 10 (-n).toNat ++ rest) = (true, _) := rfl
    rw [readInteger_digits h hsign, if_pos rfl, Int.toNat_of_nonneg (by omega), Int.neg_neg]

/-- A keyword that is a literal is read as far as it goes. -/
theorem readKeyword_append (d : Dialect) {word : List Char} (hword : word.all isWordPart = true) (h : Delimits rest) :
    d.readKeyword (word ++ rest) = (d.readKeyword word).map fun (l, _) => (l, rest) := by
  have htake := Text.takeWhile_append_of_all hword h.isWordPart
  have hdrop := Text.dropWhile_append_of_all hword h.isWordPart
  have hself := Text.takeWhile_append_of_all (g := []) hword (fun _ h => by cases h)
  rw [List.append_nil] at hself
  rw [readKeyword, readKeyword, htake, hdrop, hself]
  split
  · rfl
  · split <;> rfl
  · split <;> rfl
  · rfl

theorem readHexBytes_hex (bs : List UInt8) (h : ∀ c ∈ rest.head?, Text.hexValue? c = none) :
    readHexBytes (bs.flatMap Text.hexByte ++ rest) = (bs, rest) := by
  induction bs with
  | nil =>
    match rest, h with
    | [], _ => rfl
    | [_], _ => rfl
    | a :: b :: rest, h => simp [readHexBytes, h a rfl]
  | cons b bs ih =>
    have hlow : b.toNat % 16 < 16 := Nat.mod_lt _ (by decide)
    have hhigh : b.toNat / 16 < 16 := Nat.div_lt_of_lt_mul b.toNat_lt
    have hbyte : UInt8.ofNat (16 * (b.toNat / 16) + b.toNat % 16) = b := by
      rw [Nat.div_add_mod, UInt8.ofNat_toNat]
    simp [Text.hexByte, readHexBytes, Text.hexValue?_digitChar hlow, Text.hexValue?_digitChar hhigh, ih, hbyte]

theorem Delimits.hexValue? (h : Delimits rest) : ∀ c ∈ rest.head?, Text.hexValue? c = none := by
  intro c hc
  rw [Option.eq_none_iff_forall_ne_some]
  intro n hn
  have hpart := h.isWordPart c hc
  rw [Dialect.isWordPart, Text.isWordChar_of_hexValue? hn] at hpart
  cases hpart

/-! ## Literals -/

/-- A string literal without its opening quote. -/
theorem readString_quoteString (d : Dialect) (s : String) (h : rest.head? ≠ some '\x27') :
    ∃ cs, (d.quoteString s).toList ++ rest = '\x27' :: cs ∧ d.readString cs = some (s.toList, rest) := by
  unfold quoteString readString
  rw [String.toList_ofList, List.cons_append, List.cons_append, List.append_assoc, List.singleton_append]
  refine ⟨_, rfl, ?_⟩
  cases hd : d.backslashEscapes with
  | false => exact readDelimited_doubling s.toList h
  | true => exact readDelimited_escaped s.toList h

/-- A string that no cast follows stays one. -/
theorem readCast_delimits (content : List Char) (h : Delimits rest) :
    readCast content rest = some (.string false (String.ofList content), rest) := by
  have hcolon : rest.head? ≠ some ':' := h.head?_ne (by decide) (by decide)
  unfold readCast
  split
  · exact absurd rfl hcolon
  · rfl

/-- The literal that an encoded value is.  Floats are left out, and other values are never encoded. -/
def literal? (d : Dialect) : Value → Option SqlLiteral
  | .null => some .null
  | .bool b => if d.boolAsInt then none else some (.bool b)
  | .int n => some (.integer n.toInt)
  | .string s => some (.string (d = .sqlserver) s)
  | .bytes bs => some (.bytes bs)
  | _ => none

/-- An encoded value is a float or a literal. -/
theorem encode_cases {d : Dialect} {t : DataType} {v w : Value} (h : d.encode t v = .ok w) :
    (∃ x, w = .float x) ∨ ∃ l, d.literal? w = some l := by
  unfold encode DataType.encode at h
  split at h
  · cases h
    exact .inr ⟨_, rfl⟩
  unfold DataType.encodePresent at h
  split at h
  · obtain ⟨b, -, h⟩ := Outcome.bind_eq_ok.mp h
    cases h
    refine .inr ?_
    cases hd : d.boolAsInt with
    | false => exact ⟨.bool b, by simp [literal?, hd]⟩
    | true => exact ⟨_, rfl⟩
  · obtain ⟨n, -, h⟩ := Outcome.bind_eq_ok.mp h
    split at h
    · cases h
    · cases h
      exact .inr ⟨_, rfl⟩
  · obtain ⟨x, -, h⟩ := Outcome.bind_eq_ok.mp h
    cases h
    exact .inl ⟨x, rfl⟩
  case h_8 =>
    obtain ⟨bs, -, h⟩ := Outcome.bind_eq_ok.mp h
    cases h
    exact .inr ⟨_, rfl⟩
  case h_5 =>
    cases h
    exact .inr ⟨_, rfl⟩
  case h_9 =>
    cases h
    exact .inr ⟨_, rfl⟩
  all_goals
    obtain ⟨s, -, h⟩ := Outcome.bind_eq_ok.mp h
    cases h
    exact .inr ⟨_, rfl⟩

theorem readLiteral_null (d : Dialect) (h : Delimits rest) :
    d.readLiteral ("NULL".toList ++ rest) = some (.null, rest) := by
  have hread : d.readLiteral ("NULL".toList ++ rest) = d.readKeyword ("NULL".toList ++ rest) := by
    cases d <;> rfl
  rw [hread, readKeyword_append d (by decide) h]
  rfl

theorem readLiteral_bool (b : Bool) (h : Delimits rest) :
    postgres.readLiteral ((if b then "TRUE" else "FALSE").toList ++ rest) = some (.bool b, rest) := by
  cases b with
  | false =>
    have hread : postgres.readLiteral ("FALSE".toList ++ rest) = postgres.readKeyword ("FALSE".toList ++ rest) := rfl
    refine hread.trans ?_
    rw [readKeyword_append postgres (by decide) h]
    rfl
  | true =>
    have hread : postgres.readLiteral ("TRUE".toList ++ rest) = postgres.readKeyword ("TRUE".toList ++ rest) := rfl
    refine hread.trans ?_
    rw [readKeyword_append postgres (by decide) h]
    rfl

theorem readLiteral_string (d : Dialect) (s : String) (h : Delimits rest) :
    d.readLiteral ((d.quoteMarked (.string s)).toList ++ rest) =
      some (.string (d = .sqlserver) s, rest) := by
  have hquote : rest.head? ≠ some '\x27' := h.head?_ne (by decide) (by decide)
  obtain ⟨cs, hcs, hread⟩ := d.readString_quoteString s hquote
  rw [quoteMarked, String.toList_append, List.append_assoc, hcs]
  cases d with
  | postgres =>
    show (postgres.readString cs).bind _ = _
    rw [hread]
    show readCast s.toList rest = _
    rw [readCast_delimits _ h, String.ofList_toList]
    rfl
  | mysql =>
    show (mysql.readString cs).map _ = _
    simp only [hread, Option.map_some, String.ofList_toList]
    rfl
  | sqlite =>
    show (sqlite.readString cs).map _ = _
    simp only [hread, Option.map_some, String.ofList_toList]
    rfl
  | sqlserver =>
    show (sqlserver.readString cs).map _ = _
    simp only [hread, Option.map_some, String.ofList_toList]
    rfl

theorem toList_hex (bs : List UInt8) : (Text.hex bs).toList = bs.flatMap Text.hexByte := String.toList_ofList

theorem readHexString_hex (bs : List UInt8) :
    readHexString (bs.flatMap Text.hexByte ++ '\x27' :: rest) = some (.bytes bs, rest) := by
  have hquote : ∀ cs, ∀ c ∈ ('\x27' :: cs).head?, Text.hexValue? c = none := Text.forall_head?_cons rfl
  rw [readHexString, readHexBytes_hex bs (hquote rest)]
  rfl

theorem hexValue?_of_mem_hex {bs : List UInt8} {c : Char} (h : c ∈ bs.flatMap Text.hexByte) :
    (Text.hexValue? c).isSome = true := by
  obtain ⟨b, -, hb⟩ := List.mem_flatMap.mp h
  simp only [Text.hexByte, List.mem_cons, List.not_mem_nil, or_false] at hb
  rcases hb with rfl | rfl
  · rw [Text.hexValue?_digitChar (Nat.div_lt_of_lt_mul b.toNat_lt)]
    rfl
  · rw [Text.hexValue?_digitChar (Nat.mod_lt _ (by decide))]
    rfl

/-- A hexadecimal digit is no quote. -/
theorem quote_not_mem_hex (bs : List UInt8) : '\x27' ∉ bs.flatMap Text.hexByte :=
  fun hmem => nomatch hexValue?_of_mem_hex hmem

/-- A string of hexadecimal digits is read as bytes where a cast to `bytea` follows. -/
theorem readLiteral_bytea (bs : List UInt8) (h : Delimits rest) :
    postgres.readLiteral ((postgres.quoteBytes bs).toList ++ rest) = some (.bytes bs, rest) := by
  have htext : (postgres.quoteBytes bs).toList ++ rest =
      '\x27' :: (('\\' :: 'x' :: bs.flatMap Text.hexByte) ++ '\x27' :: ("::bytea".toList ++ rest)) := by
    simp only [quoteBytes, String.toList_append, toList_hex, List.append_assoc]
    rfl
  have hcontent : '\x27' ∉ '\\' :: 'x' :: bs.flatMap Text.hexByte := by
    simp [quote_not_mem_hex bs]
  have hread : postgres.readString (('\\' :: 'x' :: bs.flatMap Text.hexByte) ++ '\x27' :: ("::bytea".toList ++ rest)) =
      some ('\\' :: 'x' :: bs.flatMap Text.hexByte, "::bytea".toList ++ rest) := by
    have hdoubling : readDelimited '\x27' false (Text.doubling '\x27' ('\\' :: 'x' :: bs.flatMap Text.hexByte) ++
        '\x27' :: ("::bytea".toList ++ rest)) = some (_, _) := readDelimited_doubling _ (by simp)
    rw [Text.doubling_eq_self hcontent] at hdoubling
    exact hdoubling
  have hbytes : readHexBytes (bs.flatMap Text.hexByte ++ []) = (bs, []) :=
    readHexBytes_hex bs (fun _ hc => by cases hc)
  rw [List.append_nil] at hbytes
  rw [htext]
  show (postgres.readString _).bind _ = _
  rw [hread]
  show readCast ('\\' :: 'x' :: bs.flatMap Text.hexByte) (':' :: ':' :: 'b' :: 'y' :: 't' :: 'e' :: 'a' :: rest) = _
  simp [readCast, h.endsWord, hbytes]

theorem readLiteral_bytes (d : Dialect) (bs : List UInt8) (h : Delimits rest) :
    d.readLiteral ((d.quoteBytes bs).toList ++ rest) = some (.bytes bs, rest) := by
  cases d with
  | postgres => exact readLiteral_bytea bs h
  | mysql =>
    simp only [quoteBytes, String.toList_append, toList_hex, List.append_assoc]
    exact readHexString_hex bs
  | sqlite =>
    simp only [quoteBytes, String.toList_append, toList_hex, List.append_assoc]
    exact readHexString_hex bs
  | sqlserver =>
    have hhex : readHexNumber (bs.flatMap Text.hexByte ++ rest) = some (.bytes bs, rest) := by
      rw [readHexNumber, readHexBytes_hex bs h.hexValue?]
      simp only [h.endsWord, if_true]
    simp only [quoteBytes, String.toList_append, toList_hex, List.append_assoc]
    exact hhex

/-- An encoded value is read back as its literal. -/
theorem readLiteral_quoteMarked {d : Dialect} {w : Value} {l : SqlLiteral} (hl : d.literal? w = some l)
    (h : Delimits rest) : d.readLiteral ((d.quoteMarked w).toList ++ rest) = some (l, rest) := by
  unfold literal? at hl
  split at hl
  case h_1 =>
    cases hl
    exact readLiteral_null d h
  case h_2 b =>
    split at hl
    · cases hl
    · cases hl
      rename_i hbool
      cases d with
      | postgres => exact readLiteral_bool b h
      | _ => exact absurd rfl hbool
  case h_3 n =>
    cases hl
    show d.readLiteral ((toString n.toInt).toList ++ rest) = _
    rw [Text.toList_toString, readLiteral, readInteger_numeral n.toInt h]
  case h_4 s =>
    cases hl
    exact readLiteral_string d s h
  case h_5 bs =>
    cases hl
    exact readLiteral_bytes d bs h
  case h_6 => cases hl

end

/-- Quoting cannot be escaped from.  Whatever text follows that starts with white space, a comma or a
parenthesis, the literal of an encoded value other than a float is read back as that value.  Whatever text
follows that does not start with the closing delimiter, a quoted column name is read back as that name, and a
quoted table name, if no dot follows either, as the parts of the name between its dots. -/
theorem quoted_reads_back (d : Dialect) (rest : List Char) :
    (∀ t v text, Delimits rest → d.quoteLiteral t v = .ok text → ∃ w, d.encode t v = .ok w ∧
      ((∃ x, w = .float x) ∨ ∃ l, d.literal? w = some l ∧ d.readLiteral (text.toList ++ rest) = some (l, rest))) ∧
    (∀ name : String, rest.head? ≠ some d.closeDelimiter →
      d.readIdentifier ((d.quoteField name).toList ++ rest) = some (name.toList, rest)) ∧
    (∀ name : String, rest.head? ≠ some d.closeDelimiter → rest.head? ≠ some '.' →
      ∃ parts, d.readDotted ((d.quoteModel name).toList ++ rest) = some (parts, rest) ∧
        ['.'].intercalate parts = name.toList ∧ ∀ part ∈ parts, '.' ∉ part) := by
  refine ⟨?_, ?_, ?_⟩
  · intro t v text hrest htext
    obtain ⟨w, hw, htext⟩ := Outcome.bind_eq_ok.mp htext
    cases htext
    refine ⟨w, hw, ?_⟩
    rcases encode_cases hw with hfloat | ⟨l, hl⟩
    · exact .inl hfloat
    · exact .inr ⟨l, hl, readLiteral_quoteMarked hl hrest⟩
  · intro name hclose
    rw [quoteField, String.toList_ofList]
    exact readIdentifier_quoteName d name.toList hclose
  · intro name hclose hdot
    refine ⟨Text.pieces '.' name.toList, ?_, Text.intercalate_pieces _ _, Text.not_mem_of_mem_pieces⟩
    rw [quoteModel, String.toList_ofList]
    exact readDotted_quoteNames d (Text.pieces_ne_nil _ _) hclose hdot

/-- A string that ends in a backslash and a quote, a column with a backtick and a dotted table name, in MySQL and
before more text. -/
theorem quoted_reads_back_hostile :
    let rest := ", (\x60 OR 1".toList
    (∃ text, mysql.quoteLiteral .plainText (.string "O\x27Neil\\\x27") = .ok text ∧
      mysql.readLiteral (text.toList ++ rest) = some (.string false "O\x27Neil\\\x27", rest)) ∧
    mysql.readIdentifier ((mysql.quoteField "a\x60.b").toList ++ rest) = some ("a\x60.b".toList, rest) ∧
    ∃ parts, mysql.readDotted ((mysql.quoteModel "db..t\x60").toList ++ rest) = some (parts, rest) ∧
      ['.'].intercalate parts = "db..t\x60".toList := by
  intro rest
  have hrest : Delimits rest := by
    intro c hc
    cases hc
    exact .inr (by decide)
  obtain ⟨hliteral, hfield, hmodel⟩ := quoted_reads_back mysql rest
  refine ⟨⟨_, rfl, ?_⟩, hfield "a\x60.b" (by decide), ?_⟩
  · obtain ⟨w, hw, ⟨x, rfl⟩ | ⟨l, hl, hread⟩⟩ :=
      hliteral .plainText (.string "O\x27Neil\\\x27") _ hrest rfl
    · cases hw
    · cases hw
      cases hl
      exact hread
  · obtain ⟨parts, hread, hparts, -⟩ := hmodel "db..t\x60" (by decide) (by decide)
    exact ⟨parts, hread, hparts⟩

end Dialect

end RecordQuery
