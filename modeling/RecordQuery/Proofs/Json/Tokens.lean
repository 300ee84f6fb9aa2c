import RecordQuery.Json.Printer
import RecordQuery.Json.Reader
import RecordQuery.Proofs.Text.Numerals
set_option autoImplicit false

/-!
# Json: numbers and strings are read back

An integer of 64 bits is read back from its text before the end, a comma or the end of a container; a string
is read back from its text whatever follows.
-/

namespace RecordQuery.Json

/-! ## Numbers -/

/-- What may follow a document: nothing, a comma or the end of a container. -/
def Follows (cs : List Char) : Prop := ∀ c ∈ cs.head?, c = ',' ∨ c = ']' ∨ c = '\x7d'

theorem Follows.noDigit {cs : List Char} (h : Follows cs) : ∀ c ∈ cs.head?, c.isDigit = false := by
  intro c hc
  rcases h c hc with rfl | rfl | rfl <;> rfl

/-- Digits whose value fits are all taken into the significand. -/
theorem accumulate_of_le {cs : List Char} (hdigits : cs.all Char.isDigit = true) {n : Nat}
    (h : Nat.ofDigitChars 10 cs n ≤ maxSignificand) :
    accumulate n cs = (Nat.ofDigitChars 10 cs n, []) := by
  induction cs generalizing n with
  | nil => rfl
  | cons c rest ih =>
    rw [List.all_cons, Bool.and_eq_true] at hdigits
    rw [Nat.ofDigitChars_cons] at h ⊢
    have hstep : 10 * n + digitValue c ≤ maxSignificand := Nat.le_trans (Text.le_ofDigitChars rest _) h
    rw [accumulate, if_pos ⟨hdigits.1, hstep⟩]
    exact ih hdigits.2 h

/-- The digits of a number are read after a minus sign or none. -/
theorem readNumber_digits {n : Nat} (hn : n ≤ maxSignificand) {rest : List Char} (hrest : Follows rest) :
    readNumber (Nat.toDigits 10 n ++ rest) = some (ofWhole false n, rest) ∧
      readNumber ('-' :: (Nat.toDigits 10 n ++ rest)) = some (ofWhole true n, rest) := by
  have hdigits := Text.all_isDigit_toDigits n
  have hrun : (Nat.toDigits 10 n ++ rest).takeWhile Char.isDigit = Nat.toDigits 10 n :=
    Text.takeWhile_append_of_all hdigits hrest.noDigit
  have hafter : (Nat.toDigits 10 n ++ rest).dropWhile Char.isDigit = rest :=
    Text.dropWhile_append_of_all hdigits hrest.noDigit
  have hvalue : accumulate 0 (Nat.toDigits 10 n) = (n, []) := by
    have h := accumulate_of_le hdigits (n := 0) (by rwa [Nat.ofDigitChars_ten_toDigits])
    rwa [Nat.ofDigitChars_ten_toDigits] at h
  have hlead : ¬ (Nat.toDigits 10 n = [] ∨
      ((Nat.toDigits 10 n).head? = some '0' ∧ 1 < (Nat.toDigits 10 n).length)) := by
    rintro (hnil | ⟨hzero, hlength⟩)
    · exact Nat.toDigits_ne_nil hnil
    · rw [Text.eq_zero_of_head?_toDigits hzero] at hlength
      exact absurd hlength (by decide)
  have hsign : ∀ cs, Nat.toDigits 10 n ++ rest ≠ '-' :: cs := by
    intro cs heq
    obtain ⟨c, ds, hcons, hdigit⟩ := Text.toDigits_eq_cons n
    rw [hcons] at heq
    cases heq
    cases hdigit
  simp only [readNumber, hrun, hafter, if_neg hlead, hvalue]
  cases rest with
  | nil => exact ⟨rfl, rfl⟩
  | cons c rest =>
    rcases hrest c rfl with rfl | rfl | rfl <;> exact ⟨rfl, rfl⟩

/-- An integer that JSON text keeps: a signed or an unsigned word of 64 bits. -/
def isWord (n : Int) : Bool := -9223372036854775808 ≤ n ∧ n < 18446744073709551616

theorem isWord_iff {n : Int} : isWord n = true ↔ -9223372036854775808 ≤ n ∧ n < 18446744073709551616 :=
  decide_eq_true_iff

/-- The integers that values hold are such numbers. -/
theorem isWord_toInt (n : Int64) : isWord n.toInt = true := by
  have hlow := n.le_toInt
  have hhigh := n.toInt_lt
  exact isWord_iff.mpr ⟨by omega, by omega⟩

/-- The numeral of a word is read as the word. -/
theorem readNumber_numeral {n : Int} (hn : isWord n = true) {rest : List Char} (hrest : Follows rest) :
    readNumber (Text.numeral n ++ rest) = some (.integer n, rest) := by
  obtain ⟨hlow, hhigh⟩ := isWord_iff.mp hn
  unfold Text.numeral
  split
  · rename_i hpos
    have hle : n.toNat ≤ maxSignificand := by
      unfold maxSignificand
      omega
    rw [(readNumber_digits hle hrest).1, ofWhole, if_neg (by decide), Int.toNat_of_nonneg hpos]
  · have hle : (-n).toNat ≤ maxSignificand := by
      unfold maxSignificand
      omega
    have hrange : ¬ ((-n).toNat = 0 ∨ 9223372036854775808 < (-n).toNat) := by omega
    have hvalue : -((-n).toNat : Int) = n := by omega
    rw [List.cons_append, (readNumber_digits hle hrest).2, ofWhole, if_pos rfl, if_neg hrange, hvalue]

/-! ## Strings -/

theorem readHex4_control {n : Nat} (hn : n < 32) (rest : List Char) :
    readHex4 ('0' :: '0' :: hexDigit (n / 16) :: hexDigit n :: rest) = some (n, rest) := by
  have hzero : Text.hexValue? '0' = some 0 := rfl
  have hhigh : Text.hexValue? (hexDigit (n / 16)) = some (n / 16 % 16) :=
    Text.hexValue?_digitChar (Nat.mod_lt _ (by decide))
  have hlow : Text.hexValue? (hexDigit n) = some (n % 16) := Text.hexValue?_digitChar (Nat.mod_lt _ (by decide))
  have hvalue : ((0 * 16 + 0) * 16 + n / 16 % 16) * 16 + n % 16 = n := by omega
  simp only [readHex4, hzero, hhigh, hlow, hvalue]

/-- A character is read back from how it stands inside a string. -/
theorem readChar_escapeChar (c : Char) (rest : List Char) : readChar (escapeChar c ++ rest) = some (c, rest) := by
  unfold escapeChar
  split <;> try rfl
  rename_i hquote hbackslash _ _ _ _ _
  split
  · rename_i hcontrol
    have hlow : ¬ (0xDC00 ≤ c.toNat ∧ c.toNat ≤ 0xDFFF) := by omega
    have hhigh : ¬ (0xD800 ≤ c.toNat ∧ c.toNat ≤ 0xDBFF) := by omega
    simp only [List.cons_append, List.nil_append, readChar, readUnicode, readHex4_control hcontrol,
      if_neg hlow, if_neg hhigh, Char.ofNat_toNat]
  · rename_i hcontrol
    have hplain : ¬ (c = '\\' ∨ c = '\x22' ∨ c.toNat < 0x20) := by
      rintro (h | h | h)
      · exact hbackslash h
      · exact hquote h
      · exact hcontrol h
    have hhead : ∀ rest', c :: rest ≠ '\\' :: rest' := fun rest' h => hbackslash (List.cons.inj h).1
    simp only [List.cons_append, List.nil_append]
    unfold readChar
    split
    case h_10 heq =>
      cases heq
      rw [if_neg hplain]
    case h_11 heq => cases heq
    all_goals
      rename_i heq
      exact absurd heq (hhead _)

/-- A character inside a string does not start with the closing quote. -/
theorem escapeChar_eq_cons (c : Char) : ∃ d ds, escapeChar c = d :: ds ∧ d ≠ '\x22' := by
  unfold escapeChar
  split
  case h_1 => exact ⟨_, _, rfl, by decide⟩
  case h_8 hquote _ _ _ _ _ _ =>
    split
    · exact ⟨_, _, rfl, by decide⟩
    · exact ⟨_, _, rfl, hquote⟩
  all_goals exact ⟨_, _, rfl, by decide⟩

theorem readChars_escaped {s : List Char} {fuel : Nat} (hfuel : s.length < fuel) (rest : List Char) :
    readChars fuel (s.flatMap escapeChar ++ '\x22' :: rest) = some (s, rest) := by
  induction s generalizing fuel with
  | nil =>
    obtain ⟨fuel, rfl⟩ := Nat.exists_eq_succ_of_ne_zero (Nat.ne_of_gt hfuel)
    rfl
  | cons c s ih =>
    obtain ⟨fuel, rfl⟩ := Nat.exists_eq_succ_of_ne_zero (Nat.ne_of_gt (Nat.zero_lt_of_lt hfuel))
    have hread := readChar_escapeChar c (s.flatMap escapeChar ++ '\x22' :: rest)
    obtain ⟨d, ds, hcons, hquote⟩ := escapeChar_eq_cons c
    rw [hcons] at hread
    rw [List.flatMap_cons, List.append_assoc, hcons]
    unfold readChars
    split
    · rename_i heq
      exact absurd (List.cons.inj heq).1 hquote
    · rw [hread]
      simp only [ih (Nat.lt_of_succ_lt_succ hfuel), Option.map_some]

theorem length_le_escaped (s : List Char) : s.length ≤ (s.flatMap escapeChar).length := by
  induction s with
  | nil => exact Nat.le_refl 0
  | cons c s ih =>
    obtain ⟨d, ds, hcons, -⟩ := escapeChar_eq_cons c
    simp only [List.flatMap_cons, List.length_append, hcons, List.length_cons]
    omega

/-- A string is read back from its text after the opening quote. -/
theorem readString_escaped (s : String) (rest : List Char) :
    readString (s.toList.flatMap escapeChar ++ '\x22' :: rest) = some (s, rest) := by
  have hfuel : s.toList.length < (s.toList.flatMap escapeChar ++ '\x22' :: rest).length + 1 := by
    have := length_le_escaped s.toList
    rw [List.length_append]
    omega
  rw [readString, readChars_escaped hfuel]
  exact congrArg (fun s => some (s, rest)) (String.ofList_toList)

end RecordQuery.Json
