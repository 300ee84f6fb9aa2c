import RecordQuery.Proofs.Expr.Grammar
import RecordQuery.Proofs.Format.Tokens
set_option autoImplicit false

/-!
# Expr: reading agrees with the grammar

Reading tokens answers an expression exactly when the tokens derive from the grammar, and then the
expression that the derivation means.

  * Soundness, by induction on the fuel: what a reader takes off the front of the tokens derives from the
    level of the grammar it reads.
  * Completeness, by induction on the derivation: a reader takes exactly the tokens of a derivation off the
    front, whatever follows that cannot continue it.  Seven units of fuel a token are enough.

Both need that operators are spelled as the lexer spells them, which every tokenized format satisfies.
-/

namespace RecordQuery.Expr

open Format (Token Spanned Binding IsLexical Lexical tokenize)
open Grammar

/-! ## Operators by their spelling -/

theorem toLower_of_isSymbolChar {c : Char} (h : Format.isSymbolChar c = true) : c.toLower = c := by
  simp only [Format.isSymbolChar, Bool.or_eq_true, beq_iff_eq] at h
  rcases h with ((rfl | rfl) | rfl) | rfl <;> rfl

theorem asciiLower_of_isLexical {w : String} (h : IsLexical (.operator w)) : Text.asciiLower w = w := by
  rcases h with h | h
  · simp only [Binding.isKeyword, List.contains_iff_mem, List.mem_cons, List.not_mem_nil, or_false] at h
    rcases h with rfl | rfl | rfl | rfl | rfl | rfl <;> decide
  · have hmap : w.toList.map Char.toLower = w.toList.map id :=
      List.map_congr_left fun c hc => toLower_of_isSymbolChar (List.all_eq_true.mp h c hc)
    rw [Text.asciiLower, hmap, List.map_id, String.ofList_toList]

/-- An operator that is looked up by its spelling is a comparator of one word. -/
theorem operatorOf_eq_ok {w : String} (hl : IsLexical (.operator w)) {op : Operator}
    (h : operatorOf w = .ok op) (hw : w ∉ ["and", "or", "not", "is"]) :
    ∃ sign : Comparator, sign.words = [w] ∧ sign.operator = op ∧ sign.isNegated = false := by
  rw [operatorOf, asciiLower_of_isLexical hl] at h
  split at h
  · rename_i op' hop
    cases h
    unfold Operator.ofLower? at hop
    split at hop
    case h_1 => simp at hw
    case h_2 => simp at hw
    case h_3 => simp at hw
    case h_13 => simp at hw
    case h_14 =>
      -- a spelling with a blank inside is no lexeme
      exact absurd hl (by unfold IsLexical; decide)
    case h_17 => cases hop
    case h_4 => cases hop; exact ⟨.eq, rfl, rfl, rfl⟩
    case h_5 => cases hop; exact ⟨.ne, rfl, rfl, rfl⟩
    case h_6 => cases hop; exact ⟨.diamond, rfl, rfl, rfl⟩
    case h_7 => cases hop; exact ⟨.lt, rfl, rfl, rfl⟩
    case h_8 => cases hop; exact ⟨.gt, rfl, rfl, rfl⟩
    case h_9 => cases hop; exact ⟨.le, rfl, rfl, rfl⟩
    case h_10 => cases hop; exact ⟨.ge, rfl, rfl, rfl⟩
    case h_11 => cases hop; exact ⟨.notLt, rfl, rfl, rfl⟩
    case h_12 => cases hop; exact ⟨.notGt, rfl, rfl, rfl⟩
    case h_15 => cases hop; exact ⟨.like, rfl, rfl, rfl⟩
    case h_16 => cases hop; exact ⟨.isIn, rfl, rfl, rfl⟩
  · cases h

theorem startsWith_eq_true {w : String} {ts : List Spanned} :
    startsWith w ts = true ↔ ∃ s rest, ts = s :: rest ∧ s.token = .operator w := by
  constructor
  · intro h
    unfold startsWith at h
    split at h
    · rw [beq_iff_eq] at h
      subst h
      exact ⟨_, _, rfl, rfl⟩
    · cases h
  · rintro ⟨⟨token, start, stop, substituted⟩, rest, rfl, rfl⟩
    exact beq_self_eq_true w

theorem startsWith_eq_false {w : String} {ts : List Spanned}
    (h : ∀ rest, ts.map Spanned.token ≠ .operator w :: rest) : startsWith w ts = false := by
  rw [← Bool.not_eq_true, startsWith_eq_true]
  rintro ⟨s, rest, rfl, hs⟩
  exact h (rest.map Spanned.token) (by rw [List.map_cons, hs])

/-! ## Comparators and lists -/

/-- A negated comparator is the negation of its positive form. -/
theorem combine_eq (sign : Comparator) (left right : Expr) :
    sign.combine left right =
      (if sign.isNegated then negation (.binary left sign.operator (rightOperand sign.operator right))
        else .binary left sign.operator (rightOperand sign.operator right)) := by
  cases sign <;> cases right <;> rfl

theorem readComparator_sound {format : List Char} {ts rest : List Spanned} {op : Operator}
    {negated : Bool} (hl : Lexical (ts.map Spanned.token))
    (h : readComparator format ts = .ok (some (op, negated, rest))) :
    ∃ sign : Comparator, ts.map Spanned.token = sign.tokens ++ rest.map Spanned.token ∧
      sign.operator = op ∧ sign.isNegated = negated := by
  unfold readComparator at h
  split at h
  · rename_i s rest₀
    split at h
    · rename_i w hw
      rw [List.map_cons, hw] at hl ⊢
      split at h
      · cases h
      split at h
      · rename_i hnot
        split at h
        · rename_i hlike
          obtain ⟨s', rest', rfl, hs'⟩ := startsWith_eq_true.mp hlike
          cases h
          exact ⟨.notLike, by simp [hnot, hs', Comparator.tokens, Comparator.words], rfl, rfl⟩
        · split at h
          · rename_i hin
            obtain ⟨s', rest', rfl, hs'⟩ := startsWith_eq_true.mp hin
            cases h
            exact ⟨.notIn, by simp [hnot, hs', Comparator.tokens, Comparator.words], rfl, rfl⟩
          · cases h
      · split at h
        · rename_i his
          split at h
          · rename_i hnot
            obtain ⟨s', rest', rfl, hs'⟩ := startsWith_eq_true.mp hnot
            cases h
            exact ⟨.isNot, by simp [his, hs', Comparator.tokens, Comparator.words], rfl, rfl⟩
          · cases h
            exact ⟨.is, by simp [his, Comparator.tokens, Comparator.words], rfl, rfl⟩
        · rename_i hao hn hi
          obtain ⟨op', hop, hr⟩ := Outcome.bind_eq_ok.mp h
          cases hr
          have hw : w ∉ ["and", "or", "not", "is"] := by simp_all
          obtain ⟨sign, hwords, ho, hneg⟩ := operatorOf_eq_ok (hl _ List.mem_cons_self) hop hw
          exact ⟨sign, by simp [Comparator.tokens, hwords], ho, hneg⟩
    · cases h
  · cases h

theorem readComparator_complete (format : List Char) (sign : Comparator) {ss rest : List Spanned}
    (hs : ss.map Spanned.token = sign.tokens) (hrest : StartsOperand (rest.map Spanned.token)) :
    readComparator format (ss ++ rest) = .ok (some (sign.operator, sign.isNegated, rest)) := by
  have hnot : startsWith "not" rest = false :=
    startsWith_eq_false fun us hus => by rw [hus] at hrest; exact hrest
  cases sign
  case isNot =>
    obtain ⟨s₁, ss₁, rfl, h₁, hs₁⟩ := List.map_eq_cons_iff.mp hs
    obtain ⟨s₂, ss₂, rfl, h₂, hs₂⟩ := List.map_eq_cons_iff.mp hs₁
    rw [List.map_eq_nil_iff.mp hs₂]
    have hn : startsWith "not" (s₂ :: rest) = true := startsWith_eq_true.mpr ⟨s₂, rest, rfl, h₂⟩
    simp [readComparator, h₁, hn, Comparator.operator, Comparator.isNegated]
  case notLike =>
    obtain ⟨s₁, ss₁, rfl, h₁, hs₁⟩ := List.map_eq_cons_iff.mp hs
    obtain ⟨s₂, ss₂, rfl, h₂, hs₂⟩ := List.map_eq_cons_iff.mp hs₁
    rw [List.map_eq_nil_iff.mp hs₂]
    have hn : startsWith "like" (s₂ :: rest) = true := startsWith_eq_true.mpr ⟨s₂, rest, rfl, h₂⟩
    simp [readComparator, h₁, hn, Comparator.operator, Comparator.isNegated]
  case notIn =>
    obtain ⟨s₁, ss₁, rfl, h₁, hs₁⟩ := List.map_eq_cons_iff.mp hs
    obtain ⟨s₂, ss₂, rfl, h₂, hs₂⟩ := List.map_eq_cons_iff.mp hs₁
    rw [List.map_eq_nil_iff.mp hs₂]
    have hl : startsWith "like" (s₂ :: rest) = false := startsWith_eq_false (by simp [h₂])
    have hn : startsWith "in" (s₂ :: rest) = true := startsWith_eq_true.mpr ⟨s₂, rest, rfl, h₂⟩
    simp [readComparator, h₁, hl, hn, Comparator.operator, Comparator.isNegated]
  case is =>
    obtain ⟨s₁, ss₁, rfl, h₁, hs₁⟩ := List.map_eq_cons_iff.mp hs
    rw [List.map_eq_nil_iff.mp hs₁]
    simp [readComparator, h₁, hnot, Comparator.operator, Comparator.isNegated]
  all_goals
    obtain ⟨s₁, ss₁, rfl, h₁, hs₁⟩ := List.map_eq_cons_iff.mp hs
    rw [List.map_eq_nil_iff.mp hs₁]
    simp [readComparator, h₁, Comparator.operator, Comparator.isNegated]
    rfl

/-- No comparator stands where a construct ends. -/
theorem readComparator_none (format : List Char) {ts : List Spanned}
    (h : Follows ["or", "and"] (ts.map Spanned.token)) : readComparator format ts = .ok none := by
  cases ts with
  | nil => rfl
  | cons s rest =>
    rw [List.map_cons] at h
    simp only [readComparator]
    split
    · rename_i w hw
      rw [hw] at h
      rw [if_pos]
      simpa [Follows, or_comm] using h
    · rfl

theorem checkUnchained_complete (format : List Char) {ts : List Spanned}
    (h : Follows ["or", "and"] (ts.map Spanned.token)) : checkUnchained format ts = .ok () := by
  cases ts with
  | nil => rfl
  | cons s rest =>
    rw [List.map_cons] at h
    simp only [checkUnchained]
    split
    · rename_i w hw
      rw [hw] at h
      rw [if_pos]
      simpa [Follows, or_comm] using h
    · rfl

theorem literals?_eq_mapM (items : List Expr) : literals? items = items.mapM constant? := by
  induction items with
  | nil => rfl
  | cons e rest ih =>
    rw [List.mapM_cons]
    cases e with
    | literal type value =>
      rw [literals?, ih]
      cases rest.mapM constant? <;> rfl
    | _ => rfl

theorem listType_eq (constants : List (DataType × Value)) :
    listType constants =
      ((constants.filter fun c => !c.2.isNull).map Prod.fst).head?.getD .plainText := by
  rw [listType, ← List.head?_filter, List.head?_map]
  cases (constants.filter fun c => !c.2.isNull).head? <;> rfl

/-- Several items between parentheses are the written list of the grammar. -/
theorem ofItems_eq_ok {format : List Char} {s : Spanned} {e₁ e₂ : Expr} {es : List Expr} {e : Expr} :
    ofItems format s (e₁ :: e₂ :: es) = .ok e ↔ writtenList? (e₁ :: e₂ :: es) = some e := by
  rw [ofItems, literals?_eq_mapM, writtenList?]
  · cases (e₁ :: e₂ :: es).mapM constant? with
    | none => simp [refuse]
    | some constants => simp [listType_eq]
  · simp

/-! ## Soundness -/

/-- What a reader with this fuel takes off the front of the tokens derives from the grammar. -/
structure ReadsSoundly (format : List Char) (fuel : Nat) : Prop where
  disjunction : ∀ {ts rest : List Spanned} {e : Expr}, Lexical (ts.map Spanned.token) →
    readOr format fuel ts = .ok (e, rest) →
    ∃ d : Disjunction, ts.map Spanned.token = d.tokens ++ rest.map Spanned.token ∧ d.tree? = some e
  disjunctionTail : ∀ {ts rest : List Spanned} {left e : Expr}, Lexical (ts.map Spanned.token) →
    readOrTail format fuel left ts = .ok (e, rest) →
    (e = left ∧ rest = ts) ∨
      ∃ d : Disjunction, ts.map Spanned.token = .operator "or" :: (d.tokens ++ rest.map Spanned.token) ∧
        d.after? left = some e
  conjunction : ∀ {ts rest : List Spanned} {e : Expr}, Lexical (ts.map Spanned.token) →
    readAnd format fuel ts = .ok (e, rest) →
    ∃ c : Conjunction, ts.map Spanned.token = c.tokens ++ rest.map Spanned.token ∧ c.tree? = some e
  conjunctionTail : ∀ {ts rest : List Spanned} {left e : Expr}, Lexical (ts.map Spanned.token) →
    readAndTail format fuel left ts = .ok (e, rest) →
    (e = left ∧ rest = ts) ∨
      ∃ c : Conjunction, ts.map Spanned.token = .operator "and" :: (c.tokens ++ rest.map Spanned.token) ∧
        c.after? left = some e
  negation : ∀ {ts rest : List Spanned} {e : Expr}, Lexical (ts.map Spanned.token) →
    readNot format fuel ts = .ok (e, rest) →
    ∃ n : Negation, ts.map Spanned.token = n.tokens ++ rest.map Spanned.token ∧ n.tree? = some e
  comparison : ∀ {ts rest : List Spanned} {e : Expr}, Lexical (ts.map Spanned.token) →
    readComparison format fuel ts = .ok (e, rest) →
    ∃ c : Comparison, ts.map Spanned.token = c.tokens ++ rest.map Spanned.token ∧ c.tree? = some e
  operand : ∀ {ts rest : List Spanned} {e : Expr}, Lexical (ts.map Spanned.token) →
    readOperand format fuel ts = .ok (e, rest) →
    ∃ a : Operand, ts.map Spanned.token = a.tokens ++ rest.map Spanned.token ∧ a.tree? = some e
  items : ∀ {opening : Spanned} {ts rest : List Spanned} {es : List Expr},
    Lexical (ts.map Spanned.token) → readItems format fuel opening ts = .ok (es, rest) →
    ∃ i : Items, ts.map Spanned.token = i.tokens ++ .closeParen :: rest.map Spanned.token ∧
      i.trees? = some es

theorem readValues_sound {format : List Char} {ts rest : List Spanned} {values : List Value}
    (h : readValues format ts = .ok (values, rest)) :
    ∃ items : List (DataType × Value), items.map Prod.snd = values ∧
      ts.map Spanned.token =
        items.map (fun i => Token.literal i.1 i.2) ++ .closeList :: rest.map Spanned.token := by
  induction ts generalizing values with
  | nil => cases h
  | cons s ts ih =>
    rw [readValues] at h
    split at h
    · rename_i type value hs
      obtain ⟨⟨values', rest'⟩, h₁, h₂⟩ := Outcome.bind_eq_ok.mp h
      cases h₂
      obtain ⟨items, rfl, hts⟩ := ih h₁
      exact ⟨(type, value) :: items, rfl, by rw [List.map_cons, hts, hs]; rfl⟩
    · rename_i hs
      cases h
      exact ⟨[], rfl, by rw [List.map_cons, hs]; rfl⟩
    · cases h

theorem readOrTail_sound {format : List Char} {fuel : Nat} (ih : ReadsSoundly format fuel)
    {ts rest : List Spanned} {left e : Expr} (hl : Lexical (ts.map Spanned.token))
    (h : readOrTail format (fuel + 1) left ts = .ok (e, rest)) :
    (e = left ∧ rest = ts) ∨
      ∃ d : Disjunction, ts.map Spanned.token = .operator "or" :: (d.tokens ++ rest.map Spanned.token) ∧
        d.after? left = some e := by
  rw [readOrTail] at h
  split at h
  · rename_i hor
    obtain ⟨s, ts', rfl, hs⟩ := startsWith_eq_true.mp hor
    obtain ⟨⟨right, mid⟩, h₁, h₂⟩ := Outcome.bind_eq_ok.mp h
    obtain ⟨c, hc, hct⟩ := ih.conjunction hl.tail h₁
    have hmid : Lexical (mid.map Spanned.token) := (hc ▸ hl.tail : Lexical (_ ++ _)).of_append
    rw [List.map_cons, hs, hc]
    obtain ⟨rfl, rfl⟩ | ⟨d, hd, hdt⟩ := ih.disjunctionTail hmid h₂
    · exact .inr ⟨.last c, rfl, by rw [Disjunction.after?, hct]; rfl⟩
    · refine .inr ⟨.join c d, ?_, by rw [Disjunction.after?, hct]; exact hdt⟩
      rw [hd, Disjunction.tokens, List.append_assoc, List.cons_append]
  · cases h
    exact .inl ⟨rfl, rfl⟩

theorem readOr_sound {format : List Char} {fuel : Nat} (ih : ReadsSoundly format fuel)
    {ts rest : List Spanned} {e : Expr} (hl : Lexical (ts.map Spanned.token))
    (h : readOr format (fuel + 1) ts = .ok (e, rest)) :
    ∃ d : Disjunction, ts.map Spanned.token = d.tokens ++ rest.map Spanned.token ∧ d.tree? = some e := by
  obtain ⟨⟨left, mid⟩, h₁, h₂⟩ := Outcome.bind_eq_ok.mp h
  obtain ⟨c, hc, hct⟩ := ih.conjunction hl h₁
  have hmid : Lexical (mid.map Spanned.token) := (hc ▸ hl : Lexical (_ ++ _)).of_append
  obtain ⟨rfl, rfl⟩ | ⟨d, hd, hdt⟩ := ih.disjunctionTail hmid h₂
  · exact ⟨.last c, hc, hct⟩
  · refine ⟨.join c d, ?_, by rw [Disjunction.tree?, hct]; exact hdt⟩
    rw [hc, hd, Disjunction.tokens, List.append_assoc, List.cons_append]

theorem readAndTail_sound {format : List Char} {fuel : Nat} (ih : ReadsSoundly format fuel)
    {ts rest : List Spanned} {left e : Expr} (hl : Lexical (ts.map Spanned.token))
    (h : readAndTail format (fuel + 1) left ts = .ok (e, rest)) :
    (e = left ∧ rest = ts) ∨
      ∃ c : Conjunction, ts.map Spanned.token = .operator "and" :: (c.tokens ++ rest.map Spanned.token) ∧
        c.after? left = some e := by
  rw [readAndTail] at h
  split at h
  · rename_i hand
    obtain ⟨s, ts', rfl, hs⟩ := startsWith_eq_true.mp hand
    obtain ⟨⟨right, mid⟩, h₁, h₂⟩ := Outcome.bind_eq_ok.mp h
    obtain ⟨n, hn, hnt⟩ := ih.negation hl.tail h₁
    have hmid : Lexical (mid.map Spanned.token) := (hn ▸ hl.tail : Lexical (_ ++ _)).of_append
    rw [List.map_cons, hs, hn]
    obtain ⟨rfl, rfl⟩ | ⟨c, hc, hct⟩ := ih.conjunctionTail hmid h₂
    · exact .inr ⟨.last n, rfl, by rw [Conjunction.after?, hnt]; rfl⟩
    · refine .inr ⟨.join n c, ?_, by rw [Conjunction.after?, hnt]; exact hct⟩
      rw [hc, Conjunction.tokens, List.append_assoc, List.cons_append]
  · cases h
    exact .inl ⟨rfl, rfl⟩

theorem readAnd_sound {format : List Char} {fuel : Nat} (ih : ReadsSoundly format fuel)
    {ts rest : List Spanned} {e : Expr} (hl : Lexical (ts.map Spanned.token))
    (h : readAnd format (fuel + 1) ts = .ok (e, rest)) :
    ∃ c : Conjunction, ts.map Spanned.token = c.tokens ++ rest.map Spanned.token ∧ c.tree? = some e := by
  obtain ⟨⟨left, mid⟩, h₁, h₂⟩ := Outcome.bind_eq_ok.mp h
  obtain ⟨n, hn, hnt⟩ := ih.negation hl h₁
  have hmid : Lexical (mid.map Spanned.token) := (hn ▸ hl : Lexical (_ ++ _)).of_append
  obtain ⟨rfl, rfl⟩ | ⟨c, hc, hct⟩ := ih.conjunctionTail hmid h₂
  · exact ⟨.last n, hn, hnt⟩
  · refine ⟨.join n c, ?_, by rw [Conjunction.tree?, hnt]; exact hct⟩
    rw [hn, hc, Conjunction.tokens, List.append_assoc, List.cons_append]

theorem readNot_sound {format : List Char} {fuel : Nat} (ih : ReadsSoundly format fuel)
    {ts rest : List Spanned} {e : Expr} (hl : Lexical (ts.map Spanned.token))
    (h : readNot format (fuel + 1) ts = .ok (e, rest)) :
    ∃ n : Negation, ts.map Spanned.token = n.tokens ++ rest.map Spanned.token ∧ n.tree? = some e := by
  rw [readNot] at h
  split at h
  · rename_i hnot
    obtain ⟨s, ts', rfl, hs⟩ := startsWith_eq_true.mp hnot
    obtain ⟨⟨e', rest'⟩, h₁, h₂⟩ := Outcome.bind_eq_ok.mp h
    cases h₂
    obtain ⟨n, hn, hnt⟩ := ih.negation hl.tail h₁
    exact ⟨.not n, by rw [List.map_cons, hs, hn]; rfl, by rw [Negation.tree?, hnt]; rfl⟩
  · obtain ⟨c, hc, hct⟩ := ih.comparison hl h
    exact ⟨.plain c, hc, hct⟩

theorem readComparison_sound {format : List Char} {fuel : Nat} (ih : ReadsSoundly format fuel)
    {ts rest : List Spanned} {e : Expr} (hl : Lexical (ts.map Spanned.token))
    (h : readComparison format (fuel + 1) ts = .ok (e, rest)) :
    ∃ c : Comparison, ts.map Spanned.token = c.tokens ++ rest.map Spanned.token ∧ c.tree? = some e := by
  obtain ⟨⟨left, mid⟩, h₁, h₂⟩ := Outcome.bind_eq_ok.mp h
  obtain ⟨found, h₃, h₄⟩ := Outcome.bind_eq_ok.mp h₂
  obtain ⟨a, ha, hat⟩ := ih.operand hl h₁
  have hmid : Lexical (mid.map Spanned.token) := (ha ▸ hl : Lexical (_ ++ _)).of_append
  cases found with
  | none =>
    cases h₄
    exact ⟨.operand a, ha, hat⟩
  | some found =>
    obtain ⟨op, negated, after⟩ := found
    obtain ⟨sign, hsign, rfl, rfl⟩ := readComparator_sound hmid h₃
    have hafter : Lexical (after.map Spanned.token) := (hsign ▸ hmid : Lexical (_ ++ _)).of_append
    obtain ⟨⟨right, rest'⟩, h₅, h₆⟩ := Outcome.bind_eq_ok.mp h₄
    obtain ⟨b, hb, hbt⟩ := ih.operand hafter h₅
    obtain ⟨-, -, h₇⟩ := Outcome.bind_eq_ok.mp h₆
    cases h₇
    refine ⟨.compare a sign b, ?_, ?_⟩
    · rw [ha, hsign, hb, Comparison.tokens, List.append_assoc, List.append_assoc]
    · rw [Comparison.tree?, hat, hbt, ← combine_eq]
      rfl

theorem readItems_sound {format : List Char} {fuel : Nat} (ih : ReadsSoundly format fuel)
    {opening : Spanned} {ts rest : List Spanned} {es : List Expr} (hl : Lexical (ts.map Spanned.token))
    (h : readItems format (fuel + 1) opening ts = .ok (es, rest)) :
    ∃ i : Items, ts.map Spanned.token = i.tokens ++ .closeParen :: rest.map Spanned.token ∧
      i.trees? = some es := by
  obtain ⟨⟨item, mid⟩, h₁, h₂⟩ := Outcome.bind_eq_ok.mp h
  obtain ⟨d, hd, hdt⟩ := ih.disjunction hl h₁
  have hmid : Lexical (mid.map Spanned.token) := (hd ▸ hl : Lexical (_ ++ _)).of_append
  cases mid with
  | nil => cases h₂
  | cons s after =>
    simp only at h₂
    split at h₂
    · rename_i hs
      cases h₂
      exact ⟨.last d, by rw [hd, List.map_cons, hs]; rfl, by rw [Items.trees?, hdt]; rfl⟩
    · rename_i hs
      obtain ⟨⟨items, rest'⟩, h₃, h₄⟩ := Outcome.bind_eq_ok.mp h₂
      cases h₄
      obtain ⟨i, hi, hit⟩ := ih.items hmid.tail h₃
      refine ⟨.join d i, ?_, by rw [Items.trees?, hdt, hit]; rfl⟩
      rw [hd, List.map_cons, hs, hi, Items.tokens, List.append_assoc, List.cons_append]
    · cases h₂

theorem readOperand_sound {format : List Char} {fuel : Nat} (ih : ReadsSoundly format fuel)
    {ts rest : List Spanned} {e : Expr} (hl : Lexical (ts.map Spanned.token))
    (h : readOperand format (fuel + 1) ts = .ok (e, rest)) :
    ∃ a : Operand, ts.map Spanned.token = a.tokens ++ rest.map Spanned.token ∧ a.tree? = some e := by
  cases ts with
  | nil => cases h
  | cons s after =>
    rw [readOperand] at h
    rw [List.map_cons]
    split at h
    case h_1 type value hs =>
      cases h
      exact ⟨.literal type value, by rw [hs]; rfl, rfl⟩
    case h_2 hs =>
      cases h
      exact ⟨.null, by rw [hs]; rfl, rfl⟩
    case h_3 name quoted model hs =>
      split at h
      · cases h
      · cases h
        exact ⟨.field name quoted model, by rw [hs]; rfl, rfl⟩
    case h_4 hs =>
      obtain ⟨⟨items, rest'⟩, h₁, h₂⟩ := Outcome.bind_eq_ok.mp h
      obtain ⟨e', h₃, h₄⟩ := Outcome.bind_eq_ok.mp h₂
      cases h₄
      obtain ⟨i, hi, hit⟩ := ih.items hl.tail h₁
      rw [hs, hi]
      cases i with
      | last d =>
        -- a single item is the expression itself
        obtain ⟨e₁, hd, rfl⟩ := Option.map_eq_some_iff.mp hit
        cases h₃
        exact ⟨.group d, by simp [Operand.tokens, Items.tokens], hd⟩
      | join d more =>
        obtain ⟨e₁, hd, hmore⟩ := Option.bind_eq_some_iff.mp hit
        obtain ⟨es, hes, rfl⟩ := Option.map_eq_some_iff.mp hmore
        refine ⟨.list d more, by simp [Operand.tokens, Items.tokens], ?_⟩
        rw [Operand.tree?, hd, hes]
        obtain ⟨e₂, es', rfl⟩ := Items.trees?_eq_cons hes
        exact ofItems_eq_ok.mp h₃
    case h_5 type hs =>
      obtain ⟨⟨values, rest'⟩, h₁, h₂⟩ := Outcome.bind_eq_ok.mp h
      cases h₂
      obtain ⟨items, rfl, hitems⟩ := readValues_sound h₁
      exact ⟨.tuple type items, by rw [hs, hitems]; simp [Operand.tokens], rfl⟩
    case h_6 symbol hs =>
      unfold refuseOperator at h
      split at h
      · cases h
      · obtain ⟨-, -, h₁⟩ := Outcome.bind_eq_ok.mp h
        cases h₁
    all_goals cases h

/-- What the readers take off the front of tokens derives from the grammar. -/
theorem readsSoundly (format : List Char) (fuel : Nat) : ReadsSoundly format fuel := by
  induction fuel with
  | zero =>
    constructor
    all_goals
      intros
      contradiction
  | succ fuel ih =>
    exact ⟨readOr_sound ih, readOrTail_sound ih, readAnd_sound ih, readAndTail_sound ih, readNot_sound ih,
      readComparison_sound ih, readOperand_sound ih, readItems_sound ih⟩

/-! ## Completeness -/

theorem startsWith_or_of_follows {ts : List Spanned} (h : Follows [] (ts.map Spanned.token)) :
    startsWith "or" ts = false :=
  startsWith_eq_false fun us hus => by rw [hus] at h; exact absurd h List.not_mem_nil

theorem startsWith_and_of_follows {ts : List Spanned} (h : Follows ["or"] (ts.map Spanned.token)) :
    startsWith "and" ts = false :=
  startsWith_eq_false fun us hus => by rw [hus] at h; simp [Follows] at h

theorem startsWith_not_of_startsOperand {ts : List Spanned} (h : StartsOperand (ts.map Spanned.token)) :
    startsWith "not" ts = false :=
  startsWith_eq_false fun us hus => by rw [hus] at h; exact h

/-- A chain of `or` ends where something else stands. -/
theorem readOrTail_end {format : List Char} {fuel : Nat} {e : Expr} {rest : List Spanned}
    (hr : Follows [] (rest.map Spanned.token)) (hf : 0 < fuel) :
    readOrTail format fuel e rest = .ok (e, rest) := by
  obtain ⟨fuel, rfl⟩ := Nat.exists_eq_succ_of_ne_zero (Nat.ne_of_gt hf)
  rw [readOrTail, startsWith_or_of_follows hr]
  rfl

/-- A chain of `and` ends where something else stands. -/
theorem readAndTail_end {format : List Char} {fuel : Nat} {e : Expr} {rest : List Spanned}
    (hr : Follows ["or"] (rest.map Spanned.token)) (hf : 0 < fuel) :
    readAndTail format fuel e rest = .ok (e, rest) := by
  obtain ⟨fuel, rfl⟩ := Nat.exists_eq_succ_of_ne_zero (Nat.ne_of_gt hf)
  rw [readAndTail, startsWith_and_of_follows hr]
  rfl

theorem readValues_complete (format : List Char) {items : List (DataType × Value)} {ss : List Spanned}
    {s : Spanned} (rest : List Spanned)
    (hs : ss.map Spanned.token = items.map fun i => Token.literal i.1 i.2) (hc : s.token = .closeList) :
    readValues format (ss ++ s :: rest) = .ok (items.map Prod.snd, rest) := by
  induction items generalizing ss with
  | nil =>
    rw [List.map_eq_nil_iff.mp hs, List.nil_append, readValues, hc]
    rfl
  | cons i items ih =>
    obtain ⟨s', ss', rfl, hs', hss'⟩ := List.map_eq_cons_iff.mp hs
    rw [List.cons_append, readValues, hs']
    simp only [ih hss', Outcome.ok_bind]
    rfl

mutual

theorem readOr_complete (format : List Char) : ∀ (d : Disjunction) {fuel : Nat} {ss rest : List Spanned}
    {e : Expr}, ss.map Spanned.token = d.tokens → d.tree? = some e →
    Follows [] (rest.map Spanned.token) → 7 * ss.length + 5 ≤ fuel →
    readOr format fuel (ss ++ rest) = .ok (e, rest)
  | _, 0, ss, rest, e, _, _, _, hf => absurd hf (by omega)
  | .last c, fuel + 1, ss, rest, e, hs, ht, hr, hf => by
    rw [readOr, readAnd_complete format c hs ht (hr.weaken _) (by omega)]
    exact readOrTail_end hr (by omega)
  | .join c more, fuel + 1, ss, rest, e, hs, ht, hr, hf => by
    obtain ⟨ss₁, us, rfl, hs₁, hus⟩ := List.map_eq_append_iff.mp hs
    obtain ⟨s, ss₂, rfl, hor, hs₂⟩ := List.map_eq_cons_iff.mp hus
    obtain ⟨left, hleft, hmore⟩ := Option.bind_eq_some_iff.mp ht
    rw [List.length_append, List.length_cons] at hf
    have hfollow : Follows ["or"] ((s :: (ss₂ ++ rest)).map Spanned.token) := by
      rw [List.map_cons, hor]
      exact follows_operator (by simp) _
    rw [readOr, List.append_assoc, List.cons_append,
      readAnd_complete format c hs₁ hleft hfollow (by omega)]
    exact readOrTail_complete format more hor hs₂ hmore hr (by omega)

theorem readOrTail_complete (format : List Char) : ∀ (d : Disjunction) {fuel : Nat} {s : Spanned}
    {ss rest : List Spanned} {left e : Expr}, s.token = .operator "or" →
    ss.map Spanned.token = d.tokens → d.after? left = some e → Follows [] (rest.map Spanned.token) →
    7 * ss.length + 6 ≤ fuel → readOrTail format fuel left (s :: (ss ++ rest)) = .ok (e, rest)
  | _, 0, s, ss, rest, left, e, _, _, _, _, hf => absurd hf (by omega)
  | .last c, fuel + 1, s, ss, rest, left, e, hor, hs, ht, hr, hf => by
    obtain ⟨right, hright, he⟩ := Option.bind_eq_some_iff.mp ht
    cases he
    rw [readOrTail, if_pos (startsWith_eq_true.mpr ⟨s, ss ++ rest, rfl, hor⟩), List.tail_cons,
      readAnd_complete format c hs hright (hr.weaken _) (by omega)]
    exact readOrTail_end hr (by omega)
  | .join c more, fuel + 1, s, ss, rest, left, e, hor, hs, ht, hr, hf => by
    obtain ⟨ss₁, us, rfl, hs₁, hus⟩ := List.map_eq_append_iff.mp hs
    obtain ⟨s', ss₂, rfl, hor', hs₂⟩ := List.map_eq_cons_iff.mp hus
    obtain ⟨right, hright, hmore⟩ := Option.bind_eq_some_iff.mp ht
    rw [List.length_append, List.length_cons] at hf
    have hfollow : Follows ["or"] ((s' :: (ss₂ ++ rest)).map Spanned.token) := by
      rw [List.map_cons, hor']
      exact follows_operator (by simp) _
    rw [readOrTail, if_pos (startsWith_eq_true.mpr ⟨s, _, rfl, hor⟩), List.tail_cons, List.append_assoc,
      List.cons_append, readAnd_complete format c hs₁ hright hfollow (by omega)]
    exact readOrTail_complete format more hor' hs₂ hmore hr (by omega)

theorem readAnd_complete (format : List Char) : ∀ (c : Conjunction) {fuel : Nat}
    {ss rest : List Spanned} {e : Expr}, ss.map Spanned.token = c.tokens → c.tree? = some e →
    Follows ["or"] (rest.map Spanned.token) → 7 * ss.length + 4 ≤ fuel →
    readAnd format fuel (ss ++ rest) = .ok (e, rest)
  | _, 0, ss, rest, e, _, _, _, hf => absurd hf (by omega)
  | .last n, fuel + 1, ss, rest, e, hs, ht, hr, hf => by
    rw [readAnd, readNot_complete format n hs ht hr.weakenOr (by omega)]
    exact readAndTail_end hr (by omega)
  | .join n more, fuel + 1, ss, rest, e, hs, ht, hr, hf => by
    obtain ⟨ss₁, us, rfl, hs₁, hus⟩ := List.map_eq_append_iff.mp hs
    obtain ⟨s, ss₂, rfl, hand, hs₂⟩ := List.map_eq_cons_iff.mp hus
    obtain ⟨left, hleft, hmore⟩ := Option.bind_eq_some_iff.mp ht
    rw [List.length_append, List.length_cons] at hf
    have hfollow : Follows ["or", "and"] ((s :: (ss₂ ++ rest)).map Spanned.token) := by
      rw [List.map_cons, hand]
      exact follows_operator (by simp) _
    rw [readAnd, List.append_assoc, List.cons_append,
      readNot_complete format n hs₁ hleft hfollow (by omega)]
    exact readAndTail_complete format more hand hs₂ hmore hr (by omega)

theorem readAndTail_complete (format : List Char) : ∀ (c : Conjunction) {fuel : Nat} {s : Spanned}
    {ss rest : List Spanned} {left e : Expr}, s.token = .operator "and" →
    ss.map Spanned.token = c.tokens → c.after? left = some e → Follows ["or"] (rest.map Spanned.token) →
    7 * ss.length + 5 ≤ fuel → readAndTail format fuel left (s :: (ss ++ rest)) = .ok (e, rest)
  | _, 0, s, ss, rest, left, e, _, _, _, _, hf => absurd hf (by omega)
  | .last n, fuel + 1, s, ss, rest, left, e, hand, hs, ht, hr, hf => by
    obtain ⟨right, hright, he⟩ := Option.bind_eq_some_iff.mp ht
    cases he
    rw [readAndTail, if_pos (startsWith_eq_true.mpr ⟨s, ss ++ rest, rfl, hand⟩), List.tail_cons,
      readNot_complete format n hs hright hr.weakenOr (by omega)]
    exact readAndTail_end hr (by omega)
  | .join n more, fuel + 1, s, ss, rest, left, e, hand, hs, ht, hr, hf => by
    obtain ⟨ss₁, us, rfl, hs₁, hus⟩ := List.map_eq_append_iff.mp hs
    obtain ⟨s', ss₂, rfl, hand', hs₂⟩ := List.map_eq_cons_iff.mp hus
    obtain ⟨right, hright, hmore⟩ := Option.bind_eq_some_iff.mp ht
    rw [List.length_append, List.length_cons] at hf
    have hfollow : Follows ["or", "and"] ((s' :: (ss₂ ++ rest)).map Spanned.token) := by
      rw [List.map_cons, hand']
      exact follows_operator (by simp) _
    rw [readAndTail, if_pos (startsWith_eq_true.mpr ⟨s, _, rfl, hand⟩), List.tail_cons, List.append_assoc,
      List.cons_append, readNot_complete format n hs₁ hright hfollow (by omega)]
    exact readAndTail_complete format more hand' hs₂ hmore hr (by omega)

theorem readNot_complete (format : List Char) : ∀ (n : Negation) {fuel : Nat} {ss rest : List Spanned}
    {e : Expr}, ss.map Spanned.token = n.tokens → n.tree? = some e →
    Follows ["or", "and"] (rest.map Spanned.token) → 7 * ss.length + 3 ≤ fuel →
    readNot format fuel (ss ++ rest) = .ok (e, rest)
  | _, 0, ss, rest, e, _, _, _, hf => absurd hf (by omega)
  | .not n, fuel + 1, ss, rest, e, hs, ht, hr, hf => by
    obtain ⟨s, ss', rfl, hnot, hs'⟩ := List.map_eq_cons_iff.mp hs
    obtain ⟨e', he', rfl⟩ := Option.map_eq_some_iff.mp ht
    rw [List.length_cons] at hf
    rw [readNot, List.cons_append, if_pos (startsWith_eq_true.mpr ⟨s, ss' ++ rest, rfl, hnot⟩),
      List.tail_cons, readNot_complete format n hs' he' hr (by omega)]
    rfl
  | .plain c, fuel + 1, ss, rest, e, hs, ht, hr, hf => by
    have hstart : StartsOperand ((ss ++ rest).map Spanned.token) := by
      rw [List.map_append, hs]
      exact c.startsOperand _
    rw [readNot, startsWith_not_of_startsOperand hstart]
    exact readComparison_complete format c hs ht hr (by omega)

theorem readComparison_complete (format : List Char) : ∀ (c : Comparison) {fuel : Nat}
    {ss rest : List Spanned} {e : Expr}, ss.map Spanned.token = c.tokens → c.tree? = some e →
    Follows ["or", "and"] (rest.map Spanned.token) → 7 * ss.length + 2 ≤ fuel →
    readComparison format fuel (ss ++ rest) = .ok (e, rest)
  | _, 0, ss, rest, e, _, _, _, hf => absurd hf (by omega)
  | .operand a, fuel + 1, ss, rest, e, hs, ht, hr, hf => by
    rw [readComparison, readOperand_complete format a hs ht hr.not_openParen (by omega), Outcome.ok_bind]
    simp only [readComparator_none format hr]
    rfl
  | .compare left sign right, fuel + 1, ss, rest, e, hs, ht, hr, hf => by
    obtain ⟨ss₁, us, rfl, hs₁, hus⟩ := List.map_eq_append_iff.mp hs
    obtain ⟨ss₂, ss₃, rfl, hs₂, hs₃⟩ := List.map_eq_append_iff.mp hus
    obtain ⟨l, hl, hmore⟩ := Option.bind_eq_some_iff.mp ht
    obtain ⟨r, hright, rfl⟩ := Option.map_eq_some_iff.mp hmore
    rw [List.length_append, List.length_append] at hf
    have hafter : ∀ us, (ss₂ ++ (ss₃ ++ rest)).map Spanned.token ≠ .openParen :: us := by
      rw [List.map_append, hs₂]
      exact sign.not_openParen _
    have hstart : StartsOperand ((ss₃ ++ rest).map Spanned.token) := by
      rw [List.map_append, hs₃]
      exact right.startsOperand _
    have hread : readOperand format fuel (ss₃ ++ rest) = .ok (r, rest) :=
      readOperand_complete format right hs₃ hright hr.not_openParen (by omega)
    rw [readComparison, List.append_assoc, List.append_assoc,
      readOperand_complete format left hs₁ hl hafter (by omega), Outcome.ok_bind]
    simp only [readComparator_complete format sign hs₂ hstart, Outcome.ok_bind, hread,
      checkUnchained_complete format hr]
    rw [combine_eq]
    rfl

theorem readOperand_complete (format : List Char) : ∀ (a : Operand) {fuel : Nat}
    {ss rest : List Spanned} {e : Expr}, ss.map Spanned.token = a.tokens → a.tree? = some e →
    (∀ us, rest.map Spanned.token ≠ .openParen :: us) → 7 * ss.length + 1 ≤ fuel →
    readOperand format fuel (ss ++ rest) = .ok (e, rest)
  | _, 0, ss, rest, e, _, _, _, hf => absurd hf (by omega)
  | .literal type value, fuel + 1, ss, rest, e, hs, ht, _, _ => by
    obtain ⟨s, ss', rfl, hlit, hs'⟩ := List.map_eq_cons_iff.mp hs
    cases ht
    rw [List.map_eq_nil_iff.mp hs', List.cons_append, List.nil_append, readOperand, hlit]
  | .null, fuel + 1, ss, rest, e, hs, ht, _, _ => by
    obtain ⟨s, ss', rfl, hnull, hs'⟩ := List.map_eq_cons_iff.mp hs
    cases ht
    rw [List.map_eq_nil_iff.mp hs', List.cons_append, List.nil_append, readOperand, hnull]
  | .field name quoted model, fuel + 1, ss, rest, e, hs, ht, hr, _ => by
    obtain ⟨s, ss', rfl, hfield, hs'⟩ := List.map_eq_cons_iff.mp hs
    cases ht
    rw [List.map_eq_nil_iff.mp hs', List.cons_append, List.nil_append, readOperand, hfield]
    simp only
    split
    · exact absurd rfl (hr _)
    · rfl
  | .group d, fuel + 1, ss, rest, e, hs, ht, _, hf => by
    obtain ⟨s, us, rfl, hopen, hus⟩ := List.map_eq_cons_iff.mp hs
    obtain ⟨ss₁, vs, rfl, hs₁, hvs⟩ := List.map_eq_append_iff.mp hus
    obtain ⟨s', ws, rfl, hclose, hws⟩ := List.map_eq_cons_iff.mp hvs
    rw [List.map_eq_nil_iff.mp hws] at hf ⊢
    rw [List.length_cons, List.length_append] at hf
    have hitems : (Items.last d).trees? = some [e] := congrArg (Option.map fun e => [e]) ht
    rw [List.cons_append, readOperand, hopen, List.append_assoc, List.cons_append, List.nil_append]
    simp only
    rw [readItems_complete format (.last d) hs₁ hitems hclose (by omega)]
    rfl
  | .list first more, fuel + 1, ss, rest, e, hs, ht, _, hf => by
    obtain ⟨s, us, rfl, hopen, hus⟩ := List.map_eq_cons_iff.mp hs
    have hus' : us.map Spanned.token = (Items.join first more).tokens ++ [.closeParen] := by
      rw [hus, Items.tokens, List.append_assoc, List.cons_append]
    obtain ⟨ss₁, vs, rfl, hs₁, hvs⟩ := List.map_eq_append_iff.mp hus'
    obtain ⟨s', ws, rfl, hclose, hws⟩ := List.map_eq_cons_iff.mp hvs
    rw [List.map_eq_nil_iff.mp hws] at hf ⊢
    rw [List.length_cons, List.length_append] at hf
    obtain ⟨e₁, he₁, hmore⟩ := Option.bind_eq_some_iff.mp ht
    obtain ⟨es, hes, hlist⟩ := Option.bind_eq_some_iff.mp hmore
    obtain ⟨e₂, es', rfl⟩ := Items.trees?_eq_cons hes
    have hitems : (Items.join first more).trees? = some (e₁ :: e₂ :: es') := by
      rw [Items.trees?, he₁, hes]
      rfl
    rw [List.cons_append, readOperand, hopen, List.append_assoc, List.cons_append, List.nil_append]
    simp only
    rw [readItems_complete format (.join first more) hs₁ hitems hclose (by omega), Outcome.ok_bind]
    simp only
    rw [ofItems_eq_ok.mpr hlist]
    rfl
  | .tuple type items, fuel + 1, ss, rest, e, hs, ht, _, hf => by
    obtain ⟨s, us, rfl, hopen, hus⟩ := List.map_eq_cons_iff.mp hs
    obtain ⟨ss₁, vs, rfl, hs₁, hvs⟩ := List.map_eq_append_iff.mp hus
    obtain ⟨s', ws, rfl, hclose, hws⟩ := List.map_eq_cons_iff.mp hvs
    cases ht
    rw [List.map_eq_nil_iff.mp hws, List.cons_append, readOperand, hopen, List.append_assoc,
      List.cons_append, List.nil_append]
    simp only
    rw [readValues_complete format rest hs₁ hclose]
    rfl

theorem readItems_complete (format : List Char) : ∀ (i : Items) {fuel : Nat} {opening s : Spanned}
    {ss rest : List Spanned} {es : List Expr}, ss.map Spanned.token = i.tokens → i.trees? = some es →
    s.token = .closeParen → 7 * ss.length + 6 ≤ fuel →
    readItems format fuel opening (ss ++ s :: rest) = .ok (es, rest)
  | _, 0, opening, s, ss, rest, es, _, _, _, hf => absurd hf (by omega)
  | .last d, fuel + 1, opening, s, ss, rest, es, hs, ht, hclose, hf => by
    obtain ⟨e, he, rfl⟩ := Option.map_eq_some_iff.mp ht
    have hfollow : Follows [] ((s :: rest).map Spanned.token) := by
      rw [List.map_cons, hclose]
      exact follows_closeParen _ _
    rw [readItems, readOr_complete format d hs he hfollow (by omega), Outcome.ok_bind]
    simp only [hclose]
    rfl
  | .join d more, fuel + 1, opening, s, ss, rest, es, hs, ht, hclose, hf => by
    obtain ⟨ss₁, us, rfl, hs₁, hus⟩ := List.map_eq_append_iff.mp hs
    obtain ⟨s', ss₂, rfl, hcomma, hs₂⟩ := List.map_eq_cons_iff.mp hus
    obtain ⟨e, he, hmore⟩ := Option.bind_eq_some_iff.mp ht
    obtain ⟨es', hes', rfl⟩ := Option.map_eq_some_iff.mp hmore
    rw [List.length_append, List.length_cons] at hf
    have hfollow : Follows [] ((s' :: (ss₂ ++ s :: rest)).map Spanned.token) := by
      rw [List.map_cons, hcomma]
      exact follows_comma _ _
    rw [readItems, List.append_assoc, List.cons_append,
      readOr_complete format d hs₁ he hfollow (by omega), Outcome.ok_bind]
    simp only [hcomma]
    rw [readItems_complete format more hs₂ hes' hclose (by omega)]
    rfl

end

/-! ## Whole formats -/

/-- Parsing reads the tokens of the format. -/
theorem parse_eq_ofTokens {format : String} {b : Binding} {ts : List Spanned}
    (h : tokenize format b = .ok ts) : parse format b = ofTokens format ts := by
  rw [parse, h, Outcome.ok_bind]

theorem derives_of_ofTokens {format : String} {ts : List Spanned} {e : Expr}
    (hl : Lexical (ts.map Spanned.token)) (h : ofTokens format ts = .ok e) :
    Derives (ts.map Spanned.token) e := by
  simp only [ofTokens] at h
  split at h
  · cases h
  · obtain ⟨⟨e', rest⟩, hread, h⟩ := Outcome.bind_eq_ok.mp h
    simp only at h
    split at h
    · cases h
      obtain ⟨d, hd, hdt⟩ := (readsSoundly format.toList _).disjunction hl hread
      rw [List.map_nil, List.append_nil] at hd
      exact ⟨d, hd.symm, hdt⟩
    · split at h <;> cases h

/-- What was parsed derives from the tokens of its format. -/
theorem exists_derives_of_parse {format : String} {b : Binding} {e : Expr} (h : parse format b = .ok e) :
    ∃ ts, tokenize format b = .ok ts ∧ Derives (ts.map Spanned.token) e := by
  obtain ⟨ts, hts, h⟩ := Outcome.bind_eq_ok.mp h
  exact ⟨ts, hts, derives_of_ofTokens (Format.lexical_of_tokenize hts) h⟩

theorem ofTokens_of_derives {format : String} {ts : List Spanned} {e : Expr}
    (h : Derives (ts.map Spanned.token) e) : ofTokens format ts = .ok e := by
  obtain ⟨d, hd, hdt⟩ := h
  have hne : ts ≠ [] := by
    rintro rfl
    exact d.tokens_ne_nil hd
  have hread : readOr format.toList (7 * ts.length + 7) (ts ++ []) = .ok (e, []) :=
    readOr_complete format.toList d hd.symm hdt trivial (by omega)
  rw [List.append_nil] at hread
  rw [ofTokens, if_neg (by rwa [List.isEmpty_iff]), hread]
  rfl

/-- The tokens of a format are an expression exactly when they derive from the grammar, by one derivation
only, and the expression is what that derivation means; all other tokens are refused. -/
theorem ofTokens_eq_ok_iff_derives {format : String} {b : Binding} {ts : List Spanned}
    (h : tokenize format b = .ok ts) :
    (∀ e, ofTokens format ts = .ok e ↔ Derives (ts.map Spanned.token) e) ∧
      (∀ d d' : Disjunction, d.tokens = ts.map Spanned.token → d'.tokens = ts.map Spanned.token →
        d = d') ∧
      ((¬ ∃ e, Derives (ts.map Spanned.token) e) → ∃ fault, ofTokens format ts = .error fault) := by
  have hexact : ∀ e, ofTokens format ts = .ok e ↔ Derives (ts.map Spanned.token) e :=
    fun e => ⟨derives_of_ofTokens (Format.lexical_of_tokenize h), ofTokens_of_derives⟩
  refine ⟨hexact, ?_, ?_⟩
  · intro d d' hd hd'
    exact Disjunction.tokens_injective (hd.trans hd'.symm)
  · intro hnone
    cases hread : ofTokens format ts with
    | error fault => exact ⟨fault, rfl⟩
    | ok e => exact absurd ⟨e, (hexact e).mp hread⟩ hnone

/-- The tokens of `not a not in (1, null)` derive from the grammar, so that they are an expression. -/
theorem ofTokens_not_notIn :
    ∃ ts, tokenize "not a not in (1, null)" ⟨[], []⟩ = .ok ts ∧
      ofTokens "not a not in (1, null)" ts =
        .ok (.unary .not (.unary .not
          (.binary (.field ⟨"a", false, none, false⟩) .isIn (.list .int [.int 1, .null])))) := by
  have htokens : tokenize "not a not in (1, null)" ⟨[], []⟩ = .ok [⟨.operator "not", 0, 3, false⟩,
      ⟨.field "a" false none, 4, 5, false⟩, ⟨.operator "not", 6, 9, false⟩,
      ⟨.operator "in", 10, 12, false⟩, ⟨.openParen, 13, 14, false⟩,
      ⟨.literal .int (.int 1), 14, 15, false⟩, ⟨.comma, 15, 16, false⟩, ⟨.null, 17, 21, false⟩,
      ⟨.closeParen, 21, 22, false⟩] := rfl
  refine ⟨_, htokens, ((ofTokens_eq_ok_iff_derives htokens).1 _).mpr ?_⟩
  exact ⟨.last (.last (.not (.plain (.compare (.field "a" false none) .notIn
    (.list (.last (.last (.plain (.operand (.literal .int (.int 1))))))
      (.last (.last (.last (.plain (.operand .null)))))))))), rfl, rfl⟩

end RecordQuery.Expr
