import RecordQuery.Proofs.Expr.Chaining
import RecordQuery.Proofs.Expr.Derived
import RecordQuery.Proofs.Expr.Reading
set_option autoImplicit false

/-!
# Expr: copied text is read as a plain expression

The tokens of copied text are constants, unquoted fields, operators and punctuation (`Spells.isPlainToken`).
Where none of the constants is a number with a decimal point and no written list has both integers and texts,
an expression that derives from such tokens is plain, so that it can be rendered and read back
(`isPlain_of_derives`).
-/

namespace RecordQuery.Expr

open Format (Token Spanned Spells tokenize isWord isReserved isName)
open Grammar

/-! ## Plain tokens -/

/-- A token of plain expressions. -/
def isPlainToken : Token → Bool
  | .literal type value => isNative type value
  | .null => true
  | .operator _ => true
  | .field name quoted model =>
    isPlainField ⟨name, quoted, model.map Prod.fst, (model.map Prod.snd).getD false⟩
  | .openParen => true
  | .closeParen => true
  | .comma => true
  | _ => false

/-- A number with a decimal point. -/
def isFraction : Token → Bool
  | .literal .float _ => true
  | _ => false

/-- A word that is a lexeme is a word of names. -/
theorem isWord_of_scan {c : Char} {rest text : List Char} {n : Nat}
    (h : Format.scan c rest = (.word text, n)) : isWord (String.ofList text) = true := by
  obtain ⟨rfl, -, hc, hdigit⟩ := Format.scan_word h
  rw [isWord, String.toList_ofList]
  simp only [hdigit, List.all_cons, hc, Format.all_takeWhile, Bool.not_false, Bool.and_self]

/-- A word that is read as a field is a name. -/
theorem isName_of_wordToken {word : List Char} (hword : isWord (String.ofList word) = true)
    (h : Format.Binding.wordToken word = (.field (String.ofList word) false none, false)) :
    isName (String.ofList word) = true := by
  simp only [Format.Binding.wordToken] at h
  split at h
  · cases h
  rename_i htrue
  split at h
  · cases h
  rename_i hfalse
  split at h
  · cases h
  rename_i hnull
  split at h
  · cases h
  rename_i hkeyword
  rw [Bool.not_eq_true] at hkeyword
  have hreserved : isReserved (String.ofList word) = false := by
    simp only [isReserved, String.toList_ofList, hkeyword, Bool.or_false, List.contains_cons, List.contains_nil,
      beq_eq_false_iff_ne.mpr htrue, beq_eq_false_iff_ne.mpr hfalse, beq_eq_false_iff_ne.mpr hnull]
  rw [isName, hword, hreserved]
  rfl

/-- A word that is copied text makes a plain token. -/
theorem isPlainToken_word {word : List Char} {t : Token} (hword : isWord (String.ofList word) = true)
    (ht : Format.copiedToken? (.word word) = some t) : isPlainToken t = true := by
  simp only [Format.copiedToken?] at ht
  split at ht
  · cases ht
  · rename_i hsubstituted
    rw [Bool.not_eq_true] at hsubstituted
    cases ht
    rcases Format.wordToken_copied hsubstituted with hnull | ⟨k, hk⟩ | hfield
    · rw [hnull]
      rfl
    · rw [hk]
      rfl
    · rw [hfield]
      exact isName_of_wordToken hword (Prod.ext hfield hsubstituted)

/-- The tokens of copied text without fractions are plain. -/
theorem isPlainToken_of_spells {cs : List Char} {ts : List Token} (h : Spells cs ts)
    (hfraction : ts.all (fun t => !isFraction t) = true) : ts.all isPlainToken = true := by
  induction h with
  | nil => rfl
  | space _ _ ih => exact ih hfraction
  | @lexeme c w cs l t ts hscan ht _ ih =>
    rw [List.all_cons, Bool.and_eq_true] at hfraction ⊢
    refine ⟨?_, ih hfraction.2⟩
    cases l with
    | word word => exact isPlainToken_word (isWord_of_scan hscan) ht
    | number text =>
      simp only [Format.copiedToken?, Format.Binding.numberToken] at ht
      split at ht
      · cases ht
        cases hfraction.1
      · split at ht <;> cases ht
        rfl
    | _ => first | cases ht; rfl | cases ht
  | @qualified c d w gap v cs ts hmodel hword hgap hfield _ ih =>
    rw [List.all_cons, Bool.and_eq_true] at hfraction ⊢
    refine ⟨?_, ih hfraction.2⟩
    have hname := isName_of_wordToken (isWord_of_scan hmodel) hword
    simp only [isPlainToken, isPlainField, Option.map_some, Option.getD_some, hname, isWord_of_scan hfield,
      Bool.not_false, Bool.and_self]

/-! ## Plain expressions -/

/-- An integer. -/
def isInt : Value → Bool
  | .int _ => true
  | _ => false

/-- A text. -/
def isString : Value → Bool
  | .string _ => true
  | _ => false

/-- No list has both integers and texts. -/
def isUnmixed : Expr → Bool
  | .binary left _ right => left.isUnmixed && right.isUnmixed
  | .unary _ operand => operand.isUnmixed
  | .list _ values => !(values.any isInt && values.any isString)
  | _ => true

/-- The expression is plain unless a list in it has both integers and texts. -/
def IsPlainIfUnmixed (e : Expr) : Prop := e.isUnmixed = true → e.isPlain = true

theorem IsPlainIfUnmixed.binary {left right : Expr} {op : Operator} (hop : op ≠ .not)
    (hl : IsPlainIfUnmixed left) (hr : IsPlainIfUnmixed right) :
    IsPlainIfUnmixed (.binary left op right) := by
  intro h
  rw [isUnmixed, Bool.and_eq_true] at h
  exact isPlain_binary_iff.mpr ⟨hop, hl h.1, .inl (hr h.2)⟩

theorem IsPlainIfUnmixed.not {e : Expr} (h : IsPlainIfUnmixed e) : IsPlainIfUnmixed (.unary .not e) := h

/-- On the right of `in`, a constant is a list of one. -/
theorem IsPlainIfUnmixed.isIn {left right : Expr} (hl : IsPlainIfUnmixed left) (hr : IsPlainIfUnmixed right) :
    IsPlainIfUnmixed (.binary left .isIn (Comparator.listed right)) := by
  cases right with
  | literal type value =>
    intro h
    rw [isUnmixed, Bool.and_eq_true] at h
    have hvalue : isNative type value = true := hr rfl
    have hlist : isNativeList (.list type [value]) = true := by
      rw [isNativeList, List.all_cons, hvalue]
      rfl
    exact isPlain_binary_iff.mpr ⟨by decide, hl h.1, .inr ⟨rfl, hlist⟩⟩
  | _ => exact hl.binary (by decide) hr

theorem IsPlainIfUnmixed.combine {left right : Expr} (sign : Comparator) (hl : IsPlainIfUnmixed left)
    (hr : IsPlainIfUnmixed right) : IsPlainIfUnmixed (sign.combine left right) := by
  cases sign with
  | isIn => exact hl.isIn hr
  | notIn => exact (hl.isIn hr).not
  | notLike => exact (hl.binary (by decide) hr).not
  | _ => exact hl.binary (by decide) hr

/-! ## Written lists -/

/-- A native value of the kind of another one fits the type of that one. -/
theorem isNative_alike {type type' : DataType} {v w : Value} (hw : isNative type w = true)
    (hnull : w.isNull = false) (hv : isNative type' v = true) (hint : (isInt w && isString v) = false)
    (hstring : (isInt v && isString w) = false) : isNative type v = true := by
  unfold isNative at hw
  split at hw
  · cases hnull
  · unfold isNative at hv
    split at hv
    · rfl
    · rfl
    · cases hint
    · cases hv
  · unfold isNative at hv
    split at hv
    · rfl
    · cases hstring
    · rfl
    · cases hv
  · cases hw

theorem any_and_any {values : List Value} (h : (values.any isInt && values.any isString) = false) {v w : Value}
    (hv : v ∈ values) (hw : w ∈ values) : (isInt v && isString w) = false := by
  rw [Bool.eq_false_iff]
  intro hboth
  rw [Bool.and_eq_true] at hboth
  rw [List.any_eq_true.mpr ⟨v, hv, hboth.1⟩, List.any_eq_true.mpr ⟨w, hw, hboth.2⟩] at h
  cases h

/-- The type of the first item that is not null fits all items, unless there are integers and texts. -/
theorem isNative_head {constants : List (DataType × Value)} (hnative : ∀ c ∈ constants, isNative c.1 c.2 = true)
    (hunmixed : ((constants.map Prod.snd).any isInt && (constants.map Prod.snd).any isString) = false) :
    (constants.map Prod.snd).all (isNative
      ((((constants.filter fun c => !c.2.isNull).map Prod.fst).head?).getD .plainText)) = true := by
  rw [List.all_eq_true]
  intro v hv
  obtain ⟨c, hc, rfl⟩ := List.mem_map.mp hv
  cases hfilter : constants.filter fun c => !c.2.isNull with
  | nil =>
    have hnull : c.2.isNull = true := by
      have := List.filter_eq_nil_iff.mp hfilter c hc
      simpa using this
    cases hvalue : c.2 with
    | null => rfl
    | _ =>
      rw [hvalue] at hnull
      cases hnull
  | cons first rest =>
    have hfirst : first ∈ constants.filter fun c => !c.2.isNull := by
      rw [hfilter]
      exact List.mem_cons_self
    obtain ⟨hmem, hnull⟩ := List.mem_filter.mp hfirst
    have hmem' := List.mem_map_of_mem (f := Prod.snd) hmem
    rw [Bool.not_eq_true'] at hnull
    exact isNative_alike (hnative first hmem) hnull (hnative c hc) (any_and_any hunmixed hmem' hv)
      (any_and_any hunmixed hv hmem')

theorem mapM_constant? {es : List Expr} {constants : List (DataType × Value)}
    (hplain : ∀ x ∈ es, IsPlainIfUnmixed x) (h : es.mapM constant? = some constants) :
    constants.length = es.length ∧ ∀ c ∈ constants, isNative c.1 c.2 = true := by
  induction es generalizing constants with
  | nil =>
    cases h
    exact ⟨rfl, fun _ hc => nomatch hc⟩
  | cons e rest ih =>
    rw [List.mapM_cons] at h
    obtain ⟨c, hc, h⟩ := Option.bind_eq_some_iff.mp h
    obtain ⟨more, hmore, h⟩ := Option.bind_eq_some_iff.mp h
    cases h
    obtain ⟨hlength, hnative⟩ := ih (fun x hx => hplain x (List.mem_cons_of_mem e hx)) hmore
    refine ⟨by rw [List.length_cons, List.length_cons, hlength], ?_⟩
    intro x hx
    rcases List.mem_cons.mp hx with rfl | hx
    · cases e with
      | literal type value =>
        cases hc
        exact hplain _ List.mem_cons_self rfl
      | _ => cases hc
    · exact hnative x hx

/-- A written list of plain constants is plain. -/
theorem isPlain_of_writtenList? {es : List Expr} {e : Expr} (h : ∀ x ∈ es, IsPlainIfUnmixed x)
    (hlength : 2 ≤ es.length) (he : writtenList? es = some e) : IsPlainIfUnmixed e := by
  obtain ⟨constants, hconstants, hlist⟩ := Option.bind_eq_some_iff.mp he
  cases hlist
  obtain ⟨hsame, hnative⟩ := mapM_constant? h hconstants
  intro hunmixed
  rw [isUnmixed, Bool.not_eq_true'] at hunmixed
  refine isPlain_list_iff.mpr ⟨isNative_head hnative hunmixed, ?_⟩
  rw [List.length_map, hsame]
  exact hlength

/-! ## Derivations -/

theorem IsPlainIfUnmixed.closed : Closed (fun t => isPlainToken t = true) IsPlainIfUnmixed where
  or hl hr := hl.binary (by decide) hr
  and hl hr := hl.binary (by decide) hr
  not h := h.not
  compare sign _ _ hl hr := combine sign hl hr
  literal h := fun _ => h
  null := fun _ => rfl
  field h := fun _ => h
  list h hlength he := isPlain_of_writtenList? h hlength he
  tuple h := nomatch h

/-- An expression of plain tokens without mixed lists is plain. -/
theorem isPlain_of_derives {ts : List Token} {e : Expr} (h : Derives ts e) (hplain : ts.all isPlainToken = true)
    (hunmixed : e.isUnmixed = true) : e.isPlain = true := by
  have hclosed := IsPlainIfUnmixed.closed.of_derives h (List.all_eq_true.mp hplain)
  exact hclosed hunmixed

/-! ## Copied text -/

/-- A format without values that is read as an expression and whose tokens are all copied text spells tokens
from which the expression derives. -/
theorem spells_of_parse {format : String} {registry : Registry} {ts : List Spanned} {e : Expr}
    (htokens : tokenize format ⟨[], registry⟩ = .ok ts) (hcopied : ∀ s ∈ ts, s.substituted = false)
    (hparse : parse format ⟨[], registry⟩ = .ok e) :
    Spells format.toList (ts.map Spanned.token) ∧ Derives (ts.map Spanned.token) e := by
  rw [parse_eq_ofTokens htokens] at hparse
  have hderives := derives_of_ofTokens (Format.lexical_of_tokenize htokens) hparse
  refine ⟨Format.spells_of_tokenize rfl htokens hcopied ?_, hderives⟩
  intro s hs text htext
  refine not_raw_of_derives hderives text ?_
  rw [← htext]
  exact List.mem_map_of_mem hs

/-- Such an expression is plain if no number in the format has a decimal point and no list in it is mixed. -/
theorem isPlain_of_parse {format : String} {registry : Registry} {ts : List Spanned} {e : Expr}
    (htokens : tokenize format ⟨[], registry⟩ = .ok ts) (hcopied : ∀ s ∈ ts, s.substituted = false)
    (hfraction : ∀ s ∈ ts, isFraction s.token = false) (hparse : parse format ⟨[], registry⟩ = .ok e)
    (hunmixed : e.isUnmixed = true) : e.isPlain = true := by
  obtain ⟨hspells, hderives⟩ := spells_of_parse htokens hcopied hparse
  refine isPlain_of_derives hderives (isPlainToken_of_spells hspells ?_) hunmixed
  rw [List.all_map, List.all_eq_true]
  intro s hs
  show (!isFraction s.token) = true
  rw [hfraction s hs]
  rfl

end RecordQuery.Expr
