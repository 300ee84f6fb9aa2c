import RecordQuery.Coercion
set_option autoImplicit false

/-!
# Coercion: decoding twice

A decoded value is of the kind that its type stores, and decoding it again leaves it as it is, for every type
but one.  An object may be decoded from JSON text, and the text may spell a boolean, a number or a string,
which is no list or record and is not decoded to itself.
-/

namespace RecordQuery

namespace Json

/-! ## Strings are shorter than the text that spells them -/

theorem length_skipSpace_le (cs : List Char) : (skipSpace cs).length ≤ cs.length :=
  (List.dropWhile_sublist isSpace).length_le

theorem readHex4_length {cs rest : List Char} {n : Nat} (h : readHex4 cs = some (n, rest)) :
    rest.length < cs.length := by
  unfold readHex4 at h
  split at h
  · split at h
    · cases h
      simp only [List.length_cons]
      omega
    · cases h
  · cases h

theorem readUnicode_length {cs rest : List Char} {c : Char} (h : readUnicode cs = some (c, rest)) :
    rest.length < cs.length := by
  unfold readUnicode at h
  split at h
  · cases h
  · rename_i unit after hunit
    have hlt := readHex4_length hunit
    split at h
    · cases h
    split at h
    · split at h
      · split at h
        · rename_i low rest' hlow
          have hlow := readHex4_length hlow
          split at h
          · simp only [Option.some.injEq, Prod.mk.injEq] at h
            obtain ⟨-, rfl⟩ := h
            simp only [List.length_cons] at hlt
            omega
          · cases h
        · cases h
      · cases h
    · cases h
      exact hlt

theorem readChar_length {cs rest : List Char} {c : Char} (h : readChar cs = some (c, rest)) :
    rest.length < cs.length := by
  unfold readChar at h
  split at h
  case h_9 rest' =>
    have hlt := readUnicode_length h
    simp only [List.length_cons]
    omega
  case h_10 =>
    split at h
    · cases h
    · cases h
      exact Nat.lt_succ_self _
  case h_11 => cases h
  all_goals
    cases h
    simp only [List.length_cons]
    omega

/-- A string and its closing quote take at least as many characters as the string has. -/
theorem readChars_length {fuel : Nat} {cs s rest : List Char} (h : readChars fuel cs = some (s, rest)) :
    s.length < cs.length := by
  induction fuel generalizing cs s with
  | zero => cases h
  | succ fuel ih =>
    unfold readChars at h
    split at h
    · cases h
      exact Nat.succ_pos _
    · split at h
      · rename_i c after hc
        obtain ⟨⟨s', rest'⟩, hs, heq⟩ := Option.map_eq_some_iff.mp h
        cases heq
        have hlt := readChar_length hc
        have := ih hs
        simp only [List.length_cons]
        omega
      · cases h

/-! ## Numbers are no strings -/

/-- The document is a number. -/
def isNumber : Json → Bool
  | .integer _ => true
  | .float _ => true
  | _ => false

section Number

variable {negative : Bool} {significand : Nat} {exponent : Int} {cs rest : List Char} {json : Json}

theorem ofParts_isNumber (h : ofParts negative significand exponent = some json) :
    json.isNumber = true := by
  obtain ⟨x, -, rfl⟩ := Option.map_eq_some_iff.mp h
  rfl

theorem map_ofParts_isNumber
    (h : (ofParts negative significand exponent).map (·, cs) = some (json, rest)) :
    json.isNumber = true := by
  obtain ⟨json', hjson, heq⟩ := Option.map_eq_some_iff.mp h
  cases heq
  exact ofParts_isNumber hjson

theorem readExponent_isNumber (h : readExponent negative significand exponent cs = some (json, rest)) :
    json.isNumber = true := by
  simp only [readExponent] at h
  split at h
  · cases h
  split at h
  · split at h
    · cases h
    · cases h
      rfl
  · exact map_ofParts_isNumber h

theorem finish_isNumber (h : finish negative significand exponent cs = some (json, rest)) :
    json.isNumber = true := by
  unfold finish at h
  split at h
  · exact readExponent_isNumber h
  · exact readExponent_isNumber h
  · exact map_ofParts_isNumber h

theorem readFraction_isNumber (h : readFraction negative significand exponent cs = some (json, rest)) :
    json.isNumber = true := by
  simp only [readFraction] at h
  split at h
  · cases h
  · exact finish_isNumber h

theorem ofWhole_isNumber (negative : Bool) (n : Nat) : (ofWhole negative n).isNumber = true := by
  unfold ofWhole
  split
  · split <;> rfl
  · rfl

theorem readNumber_isNumber (h : readNumber cs = some (json, rest)) : json.isNumber = true := by
  simp only [readNumber] at h
  -- the sign plays no part
  split at h
  all_goals
    split at h
    · cases h
    split at h
    · exact readFraction_isNumber h
    · exact readExponent_isNumber h
    · exact readExponent_isNumber h
    · cases h
      exact ofWhole_isNumber _ _
    · exact readFraction_isNumber h
    · exact finish_isNumber h

end Number

/-! ## Values that are strings -/

/-- A string at the front of a text is shorter than the text. -/
theorem readValue_string_length {fuel depth : Nat} {cs rest : List Char} {s : String}
    (h : readValue fuel depth cs = some (.string s, rest)) : s.length < cs.length := by
  cases fuel with
  | zero => cases h
  | succ fuel =>
    have hle := length_skipSpace_le cs
    rw [readValue] at h
    split at h
    case h_1 => cases h
    case h_2 => cases h
    case h_3 => cases h
    case h_4 after hcs =>
      obtain ⟨⟨t, rest'⟩, ht, heq⟩ := Option.map_eq_some_iff.mp h
      cases heq
      obtain ⟨⟨t', rest''⟩, ht', heq'⟩ := Option.map_eq_some_iff.mp ht
      cases heq'
      have hlt := readChars_length ht'
      rw [hcs, List.length_cons] at hle
      rw [String.length_ofList]
      omega
    case h_5 =>
      split at h
      · cases h
      split at h
      · cases h
      · obtain ⟨items, -, heq⟩ := Option.map_eq_some_iff.mp h
        cases heq
    case h_6 =>
      split at h
      · cases h
      split at h
      · cases h
      · obtain ⟨members, -, heq⟩ := Option.map_eq_some_iff.mp h
        cases heq
    case h_7 =>
      have hnumber := readNumber_isNumber h
      cases hnumber

/-- No text spells itself as a string. -/
theorem read?_ne_string (s : String) : read? s ≠ some (.string s) := by
  intro h
  unfold read? at h
  simp only at h
  split at h
  · rename_i json rest hvalue
    split at h
    · cases h
      have hlt := readValue_string_length hvalue
      rw [String.length_toList] at hlt
      exact Nat.lt_irrefl _ hlt
    · cases h
  · cases h

end Json

namespace Value

/-- Null, a list or a record. -/
def isStructured : Value → Bool
  | .null => true
  | .array _ => true
  | .object _ => true
  | _ => false

/-- Only a string document is a string value. -/
theorem ofJson_eq_string {json : Json} {s : String} (h : ofJson json = .string s) : json = .string s := by
  cases json with
  | string t =>
    cases h
    rfl
  | integer n =>
    rw [ofJson, ofInteger] at h
    split at h <;> cases h
  | _ => cases h

end Value

namespace DataType

theorem toObject_eq_self_iff {v : Value} (hnull : v.isNull = false) :
    object.toObject v = .ok v ↔ v.isStructured = true := by
  cases v with
  | null => cases hnull
  | string s =>
    simp only [toObject, Value.isStructured, Bool.false_eq_true, iff_false]
    split
    · rename_i json hjson
      intro h
      have hvalue : Value.ofJson json = .string s := Except.ok.inj h
      rw [Value.ofJson_eq_string hvalue] at hjson
      exact Json.read?_ne_string s hjson
    · nofun
  | array items => exact iff_of_true rfl rfl
  | object entries => exact iff_of_true rfl rfl
  | _ => exact iff_of_false nofun nofun

/-- Only lists, records and null are objects that are decoded to themselves. -/
theorem decode_object_eq_self_iff {v : Value} : object.decode v = .ok v ↔ v.isStructured = true := by
  unfold decode
  split
  · rename_i hnull
    rw [(Value.isNull_iff v).mp hnull]
    exact iff_of_true rfl rfl
  · rename_i hnull
    exact toObject_eq_self_iff ((Bool.not_eq_true _).mp hnull)

/-- A text that was taken for a variant is one. -/
theorem toVariant_string {e : EnumType} {v : Value} {s : String} (h : toVariant e v = .ok s) :
    toVariant e (.string s) = .ok s := by
  unfold toVariant at h
  split at h
  · split at h
    · rename_i hvariant
      cases h
      exact if_pos hvariant
    · cases h
  · cases h

/-- A decoded value of another type than object is decoded to itself. -/
theorem decode_eq_self {t : DataType} {v w : Value} (ht : t ≠ .object) (h : t.decode v = .ok w) :
    t.decode w = .ok w := by
  unfold decode at h
  split at h
  · cases h
    rfl
  cases t with
  | object => exact absurd rfl ht
  | string maxLength =>
    cases h
    rfl
  | text nullable =>
    cases h
    rfl
  | enumeration e =>
    obtain ⟨s, hs, h⟩ := Outcome.bind_eq_ok.mp h
    cases h
    show (do return Value.string (← toVariant e (.string s)) : Outcome Value) = _
    rw [toVariant_string hs]
    rfl
  -- the other types have values of their own, which they take as they are
  | _ =>
    obtain ⟨x, -, h⟩ := Outcome.bind_eq_ok.mp h
    cases h
    rfl

/-- Decoding twice is decoding once, if an object is not decoded from JSON text that spells no list or
record. -/
theorem decode_idempotent_iff {t : DataType} {v w : Value} (h : t.decode v = .ok w) :
    t.decode w = .ok w ↔ (t = .object → w.isStructured = true) := by
  by_cases ht : t = .object
  · subst ht
    rw [decode_object_eq_self_iff]
    exact ⟨fun h _ => h, fun h => h rfl⟩
  · exact iff_of_true (decode_eq_self ht h) fun h => absurd h ht

end DataType

end RecordQuery
