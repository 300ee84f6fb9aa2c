import RecordQuery.Proofs.Dialect.Units
set_option autoImplicit false

/-!
# Dialect: what literals are written with

Numerals, floats and bytes are written with a few plain characters, everything else between quotes.  A text is
`Bare` if it is inert and starts with a character that is neither white space nor an opening parenthesis; quoted
names and the literals of all values are bare, and so they are never empty.
-/

namespace RecordQuery

namespace Layout

theorem positional_ne_nil (digits : List Char) (point : Int) (pointZero : Bool) :
    positional digits point pointZero ≠ [] := by
  unfold positional
  simp only
  split
  · simp
  split
  · simp
  · rename_i hpos hcount
    intro hnil
    simp only [List.append_eq_nil_iff, List.replicate_eq_nil_iff] at hnil
    obtain ⟨⟨rfl, hzeros⟩, -⟩ := hnil
    simp only [List.length_nil] at hcount hzeros
    omega

theorem exponential_ne_nil (digits : List Char) (exponent : Int) (plusSign : Bool) :
    exponential digits exponent plusSign ≠ [] := by
  simp [exponential]

end Layout

theorem Binary64.render_ne_empty {x : Binary64} (layout : Layout) (h : x.isFinite = true) :
    x.render layout ≠ "" := by
  have hpositional := Layout.positional_ne_nil
  have hexponential := Layout.exponential_ne_nil
  rw [Binary64.render, Binary64.isNaN_of_isFinite h, h]
  simp only [Bool.false_eq_true, Bool.not_true, if_false]
  split
  · simp
  · rw [ne_eq, String.ofList_eq_empty_iff, List.append_eq_nil_iff, not_and]
    intro _
    split
    · exact hpositional _ _ _
    · exact hexponential _ _ _

namespace Dialect

/-! ## Bare text -/

/-- The text starts with neither white space nor an opening parenthesis. -/
def startsBare : List Char → Bool
  | [] => false
  | c :: _ => !Format.isSpace c && c != '('

/-- An inert character that a bare text may start with. -/
def isBare (c : Char) : Bool := isInert c && startsBare [c]

/-- An inert text that starts with neither white space nor an opening parenthesis. -/
structure Bare (d : Dialect) (text : List Char) : Prop where
  inert : Inert d text
  starts : startsBare text = true

theorem startsBare_append {text : List Char} (h : startsBare text = true) (rest : List Char) :
    startsBare (text ++ rest) = true := by
  cases text with
  | nil => cases h
  | cons c text => exact h

theorem isInert_of_all_isBare {text : List Char} (h : text.all isBare = true) : text.all isInert = true := by
  rw [List.all_eq_true] at h ⊢
  exact fun c hc => (Bool.and_eq_true_iff.mp (h c hc)).1

namespace Bare

variable {d : Dialect} {text : List Char}

theorem plain (d : Dialect) (hne : text ≠ []) (h : text.all isBare = true) : Bare d text := by
  refine ⟨.plain d (isInert_of_all_isBare h), ?_⟩
  obtain ⟨c, rest, rfl⟩ := List.exists_cons_of_ne_nil hne
  exact (Bool.and_eq_true_iff.mp (List.all_eq_true.mp h c List.mem_cons_self)).2

theorem ne_empty {s : String} (h : Bare d s.toList) : s ≠ "" := by
  rintro rfl
  exact Bool.false_ne_true h.starts

theorem quoteField (d : Dialect) (name : String) : Bare d (d.quoteField name).toList := by
  refine ⟨.quoteField d name, ?_⟩
  rw [Dialect.quoteField, String.toList_ofList]
  cases d <;> rfl

theorem quoteModel (d : Dialect) (name : String) : Bare d (d.quoteModel name).toList := by
  refine ⟨.quoteModel d name, ?_⟩
  obtain ⟨part, parts, hparts⟩ := List.exists_cons_of_ne_nil (Text.pieces_ne_nil '.' name.toList)
  rw [Dialect.quoteModel, hparts, String.toList_ofList, List.map_cons]
  cases d <;> cases parts <;> rfl

end Bare

/-! ## Characters of numbers and bytes -/

theorem isBare_of_isDigit {c : Char} (h : c.isDigit = true) : isBare c = true := by
  rw [← Char.ofNat_toNat c]
  have hrange : 48 ≤ c.toNat ∧ c.toNat ≤ 57 := by
    simp only [Char.isDigit, Bool.and_eq_true, decide_eq_true_eq, ge_iff_le, UInt32.le_iff_toNat_le] at h
    exact h
  generalize c.toNat = n at hrange
  obtain ⟨h₁, h₂⟩ := hrange
  interval_cases n <;> rfl

theorem isBare_digitChar {n : Nat} (h : n < 16) : isBare (Nat.digitChar n) = true := by
  interval_cases n <;> rfl

theorem all_isBare_digits (n : Nat) : (Nat.toDigits 10 n).all isBare = true :=
  List.all_eq_true.mpr fun c hc => isBare_of_isDigit (List.all_eq_true.mp (Text.all_isDigit_toDigits n) c hc)

theorem all_isBare_numeral (n : Int) : (Text.numeral n).all isBare = true := by
  unfold Text.numeral
  split
  · exact all_isBare_digits _
  · rw [List.all_cons, all_isBare_digits]
    rfl

theorem all_isBare_hex (bs : List UInt8) : (Text.hex bs).toList.all isBare = true := by
  rw [toList_hex, List.all_flatMap, List.all_eq_true]
  intro b _
  have hlow : b.toNat % 16 < 16 := Nat.mod_lt _ (by decide)
  have hhigh : b.toNat / 16 < 16 := Nat.div_lt_of_lt_mul b.toNat_lt
  simp [Text.hexByte, isBare_digitChar hlow, isBare_digitChar hhigh]

theorem all_isBare_replicate (n : Nat) : (List.replicate n '0').all isBare = true := by
  rw [List.all_eq_true]
  intro c hc
  rw [List.eq_of_mem_replicate hc]
  rfl

section

variable {digits : List Char}

theorem all_isBare_positional (h : digits.all isBare = true) (point : Int) (pointZero : Bool) :
    (Layout.positional digits point pointZero).all isBare = true := by
  have hzeros := all_isBare_replicate
  have htake : ∀ n, (digits.take n).all isBare = true := fun n =>
    List.all_eq_true.mpr fun c hc => List.all_eq_true.mp h c (List.mem_of_mem_take hc)
  have hdrop : ∀ n, (digits.drop n).all isBare = true := fun n =>
    List.all_eq_true.mpr fun c hc => List.all_eq_true.mp h c (List.mem_of_mem_drop hc)
  unfold Layout.positional
  simp only
  split
  · rw [List.cons_append, List.cons_append, List.all_cons, List.all_cons, List.all_append, hzeros, h]
    rfl
  split
  · rw [List.all_append, htake, List.all_cons, hdrop]
    rfl
  · rw [List.all_append, List.all_append, h, hzeros]
    cases pointZero <;> rfl

theorem all_isBare_exponential (h : digits.all isBare = true) (exponent : Int) (plusSign : Bool) :
    (Layout.exponential digits exponent plusSign).all isBare = true := by
  unfold Layout.exponential
  simp only
  have hplus : (if plusSign && 0 < exponent then ['+'] else []).all isBare = true := by
    split <;> rfl
  rw [List.all_append, List.all_append, List.all_cons, hplus, Text.toList_toString, all_isBare_numeral]
  split
  · rfl
  · rw [h]
    rfl
  · rw [List.all_cons, Bool.and_eq_true] at h
    rw [List.all_cons, List.all_cons, h.1, h.2]
    rfl

end

theorem all_isBare_render {x : Binary64} (layout : Layout) (h : x.isFinite = true) :
    (x.render layout).toList.all isBare = true := by
  have hdigits := all_isBare_digits (x.shortest layout.tie).coefficient
  have hsign : (if x.isNegative then ['-'] else []).all isBare = true := by
    split <;> rfl
  rw [Binary64.render, Binary64.isNaN_of_isFinite h, h]
  simp only [Bool.false_eq_true, Bool.not_true, if_false]
  split
  · rw [String.toList_ofList, List.all_append, hsign]
    cases layout.pointZero <;> rfl
  · rw [String.toList_ofList, List.all_append, hsign]
    split
    · exact all_isBare_positional hdigits _ _
    · exact all_isBare_exponential hdigits _ _

/-! ## Literals -/

/-- A string with nothing to escape is written as it is. -/
theorem toList_quoteString {d : Dialect} {s : String} (hquote : '\x27' ∉ s.toList)
    (hslash : d.backslashEscapes = true → '\\' ∉ s.toList) :
    (d.quoteString s).toList = '\x27' :: (s.toList ++ ['\x27']) := by
  have hbody : (if d.backslashEscapes then Text.doubling '\\' s.toList else s.toList) = s.toList := by
    split
    · rename_i hescapes
      exact Text.doubling_eq_self (hslash hescapes)
    · rfl
  rw [Dialect.quoteString, Text.doubling_eq_self hquote, hbody, String.toList_ofList]
  rfl

namespace Bare

variable {d : Dialect}

theorem quoteMarked_string (d : Dialect) (s : String) : Bare d (d.quoteMarked (.string s)).toList := by
  rw [quoteMarked, String.toList_append]
  refine ⟨.plain_append ?_ (.quoteString d s), ?_⟩
  · cases d <;> rfl
  · rw [quoteString, String.toList_ofList]
    cases d <;> rfl

/-- A string with nothing to escape may have inert text before and after it. -/
theorem quoted (before after : List Char) {s : String} (hquote : '\x27' ∉ s.toList)
    (hslash : d.backslashEscapes = true → '\\' ∉ s.toList) (hbefore : before.all isBare = true)
    (hafter : after.all isInert = true) : Bare d (before ++ ('\x27' :: (s.toList ++ ['\x27']) ++ after)) := by
  refine ⟨?_, ?_⟩
  · have hstring := Inert.quoteString d s
    rw [toList_quoteString hquote hslash] at hstring
    exact .plain_append (isInert_of_all_isBare hbefore) (hstring.append (.plain d hafter) (apart_of_all hafter))
  · cases before with
    | nil => rfl
    | cons c before => exact (plain d (List.cons_ne_nil c before) hbefore).starts

theorem quoteBytes (d : Dialect) (bs : List UInt8) : Bare d (d.quoteBytes bs).toList := by
  have hquote : '\x27' ∉ (Text.hex bs).toList := by
    rw [toList_hex]
    exact quote_not_mem_hex bs
  have hslash : '\\' ∉ (Text.hex bs).toList := by
    rw [toList_hex]
    exact fun h => Bool.false_ne_true (hexValue?_of_mem_hex h)
  have hmarked : ∀ d, Bare d ("X'" ++ Text.hex bs ++ "'").toList := by
    intro d
    have hquoted := quoted (d := d) ['X'] [] hquote (fun _ => hslash) (by decide) rfl
    simpa using hquoted
  cases d with
  | postgres =>
    have hcontent : '\x27' ∉ ("\\x" ++ Text.hex bs).toList := by simp [hquote]
    have hcast := quoted (d := .postgres) [] "::bytea".toList hcontent nofun rfl (by decide)
    simpa [Dialect.quoteBytes] using hcast
  | mysql => exact hmarked _
  | sqlite => exact hmarked _
  | sqlserver =>
    rw [Dialect.quoteBytes, String.toList_append]
    refine plain _ (by simp) ?_
    rw [List.all_append, all_isBare_hex]
    rfl

/-- Whatever a value is encoded to, its literal is bare. -/
theorem quoteLiteral {t : DataType} {v : Value} {text : String} (h : d.quoteLiteral t v = .ok text) :
    Bare d text.toList := by
  obtain ⟨w, hw, h⟩ := Outcome.bind_eq_ok.mp h
  cases h
  have hnull : Bare d "NULL".toList := plain d (by decide) (by decide)
  rcases encode_cases hw with ⟨x, rfl⟩ | ⟨l, hl⟩
  · show Bare d (if x.isFinite then x.render .exact else "NULL").toList
    split
    · rename_i hfinite
      refine plain d ?_ (all_isBare_render _ hfinite)
      rw [ne_eq, String.toList_eq_nil_iff]
      exact x.render_ne_empty _ hfinite
    · exact hnull
  · cases w with
    | null => exact hnull
    | bool b =>
      show Bare d (if b then "TRUE" else "FALSE").toList
      cases b <;> exact plain d (by decide) (by decide)
    | int n =>
      show Bare d (toString n.toInt).toList
      obtain ⟨c, rest, hn, -⟩ := Text.numeral_eq_cons n.toInt
      rw [Text.toList_toString]
      refine plain d ?_ (all_isBare_numeral n.toInt)
      rw [hn]
      exact List.cons_ne_nil c rest
    | string s => exact quoteMarked_string d s
    | bytes bs => exact quoteBytes d bs
    | _ => cases hl

end Bare

end Dialect

end RecordQuery
