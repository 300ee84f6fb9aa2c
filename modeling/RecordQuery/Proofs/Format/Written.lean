import RecordQuery.Proofs.Dialect.Operators
import RecordQuery.Proofs.Expr.Alternation
import RecordQuery.Proofs.Format.Tiling
set_option autoImplicit false

/-!
# Format: operators in interpolated SQL

Interpolation copies operators as the format spells them.  `Written` says which SQL text is written for some
tokens: operators and punctuation as they are, and for each operand a text that no operator comes from.  By
induction on it, with the stage of the grammar for what may stand side by side, the operators of the text are
those of the tokens (`Written.operators`), so that

  * `!<` and `!>` are in the SQL of every dialect exactly if the format has them;
  * each `in` of the SQL is one of the format, with a parenthesis after it exactly if a parenthesis or a list
    stands after that one.
-/

namespace RecordQuery.Format

open Dialect (Reads Inert Solid Apart)
open SqlUnit (hasNegated afterIns opensList endsIn)
open RecordQuery.Expr (Stage)

/-! ## Tokens -/

namespace Token

/-- The comparisons `!<` and `!>`. -/
def isNegated : Token → Bool
  | .operator w => w == "!<" || w == "!>"
  | _ => false

/-- A constant or a field. -/
def isOperand : Token → Bool
  | .literal _ _ => true
  | .null => true
  | .field _ _ _ => true
  | _ => false

/-- The character of a punctuation mark. -/
def mark? : Token → Option Char
  | .openParen => some '('
  | .closeParen => some ')'
  | .comma => some ','
  | _ => none

/-- Text outside the language, or a model on its own. -/
def isOutside : Token → Bool
  | .raw _ => true
  | .model _ _ => true
  | _ => false

end Token

/-- A parenthesis or a list placeholder stands first. -/
def startsList : List Token → Bool
  | .openParen :: _ => true
  | .openList _ :: _ => true
  | _ => false

/-- For each operator `in`, whether a parenthesis or a list placeholder stands after it. -/
def insOpened : List Token → List Bool
  | [] => []
  | .operator w :: rest => if w = "in" then startsList rest :: insOpened rest else insOpened rest
  | _ :: rest => insOpened rest

/-! ## Texts written for tokens -/

/-- The text is SQL for the tokens, with white space between them. -/
inductive Written (d : Dialect) : List Token → List Char → Prop where
  | nil : Written d [] []
  | space {c : Char} {ts : List Token} {cs : List Char} (hc : isSpace c = true) (h : Written d ts cs) :
      Written d ts (c :: cs)
  | keyword {w : String} {word : List Char} {ts : List Token} {cs : List Char} (hw : Binding.isKeyword w = true)
      (hlower : word.map Char.toLower = w.toList) (hword : word.all Text.isWordChar = true) (h : Written d ts cs) :
      Written d (.operator w :: ts) (word ++ cs)
  | symbol {text : List Char} {ts : List Token} {cs : List Char} (htext : text.all isSymbolChar = true)
      (h : Written d ts cs) : Written d (.operator (String.ofList text) :: ts) (text ++ cs)
  | mark {t : Token} {c : Char} {ts : List Token} {cs : List Char} (ht : t.mark? = some c) (h : Written d ts cs) :
      Written d (t :: ts) (c :: cs)
  | operand {t : Token} {text : List Char} {ts : List Token} {cs : List Char} (ht : t.isOperand = true)
      (htext : Solid d text) (h : Written d ts cs) : Written d (t :: ts) (text ++ cs)
  | list {type : DataType} {items : List (DataType × Value)} {text : List Char} {ts : List Token} {cs : List Char}
      (htext : Inert d ('(' :: text)) (h : Written d ts cs) :
      Written d (.openList type :: (items.map (fun i => Token.literal i.1 i.2) ++ .closeList :: ts))
        ('(' :: (text ++ cs))
  | outside {t : Token} {text : List Char} {ts : List Token} {cs : List Char} (ht : t.isOutside = true)
      (h : Written d ts cs) : Written d (t :: ts) (text ++ cs)

/-! ## Operators of written text -/

/-- The operators of a text are those of some tokens; an `in` beside a word may be part of it, which is no
operator. -/
structure OperatorsOf (ts : List Token) (us : List SqlUnit) : Prop where
  negated : hasNegated us = ts.any Token.isNegated
  ins : ∀ free, ((afterIns free us).map opensList).Sublist (insOpened ts)
  opens : opensList us = startsList ts

/-- After an operand the text goes on with neither a delimiter nor the rest of a word. -/
def Separated (d : Dialect) (cs : List Char) : Prop := Apart cs ∧ endsIn (d.units cs) = false

section

variable {d : Dialect} {ts : List Token} {us : List SqlUnit} {cs : List Char}

theorem OperatorsOf.nil : OperatorsOf [] [] := ⟨rfl, fun _ => .refl [], rfl⟩

theorem OperatorsOf.space (h : OperatorsOf ts us) {c : Char} (hc : isSpace c = true) :
    OperatorsOf ts (.char c :: us) := by
  have hinert : [SqlUnit.char c].all SqlUnit.isInert = true :=
    Dialect.all_isInert_units (List.all_eq_true.mpr fun c' hc' =>
      Dialect.isInert_of_isSpace (List.mem_singleton.mp hc' ▸ hc))
  refine ⟨?_, fun free => ?_, ?_⟩
  · exact (SqlUnit.hasNegated_append (SqlUnit.not_mem_of_isInert hinert) us).trans h.negated
  · have hafter := SqlUnit.afterIns_inert hinert free us
    rw [List.singleton_append] at hafter
    rw [hafter]
    exact h.ins _
  · rw [← h.opens, opensList, List.dropWhile_cons_of_pos (show (SqlUnit.char c).isSpace = true from hc)]
    rfl

/-- A text without an exclamation mark and without the word `in` adds no operator, if none stands for it. -/
theorem OperatorsOf.plain (h : OperatorsOf ts us) {t : Token} {vs : List SqlUnit} (ht : t.isNegated = false)
    (hins : insOpened (t :: ts) = insOpened ts) (hopens : opensList (vs ++ us) = startsList (t :: ts))
    (hmark : .char '!' ∉ vs) (hpass : ∀ free, ∃ free', afterIns free (vs ++ us) = afterIns free' us) :
    OperatorsOf (t :: ts) (vs ++ us) := by
  refine ⟨?_, fun free => ?_, hopens⟩
  · rw [SqlUnit.hasNegated_append hmark, h.negated, List.any_cons, ht, Bool.false_or]
  · obtain ⟨free', hfree'⟩ := hpass free
    rw [hfree', hins]
    exact h.ins free'

theorem all_isWordPart {word : List Char} (h : word.all Text.isWordChar = true) :
    word.all Dialect.isWordPart = true := by
  rw [List.all_eq_true] at h ⊢
  intro c hc
  rw [Dialect.isWordPart, h c hc, Bool.true_or]

/-- The word `in` is an operator unless it is part of a longer word, and what follows it is what follows its
token. -/
theorem OperatorsOf.isIn (h : OperatorsOf ts us) {word : List Char} (hword : word.all Dialect.isWordPart = true)
    (hin : word.map Char.toLower = ['i', 'n']) (hopens : opensList (word.map .char ++ us) = false) :
    OperatorsOf (.operator "in" :: ts) (word.map .char ++ us) := by
  refine ⟨?_, fun free => ?_, hopens⟩
  · rw [SqlUnit.hasNegated_append (SqlUnit.not_mem_of_isWordPart hword), h.negated]
    rfl
  · have hafter : insOpened (.operator "in" :: ts) = startsList ts :: insOpened ts := rfl
    rw [SqlUnit.afterIns_in hword hin, hafter, List.map_append]
    split
    · rw [List.map_singleton, h.opens]
      exact (h.ins false).cons_cons _
    · exact (h.ins false).cons _

theorem keyword_cases {w : String} (hw : Binding.isKeyword w = true) :
    w = "and" ∨ w = "or" ∨ w = "not" ∨ w = "is" ∨ w = "like" ∨ w = "in" := by
  simpa only [Binding.isKeyword, List.contains_iff_mem, List.mem_cons, List.not_mem_nil, or_false] using hw

/-- A keyword is an operator if it is `in`. -/
theorem OperatorsOf.keyword (h : OperatorsOf ts us) {w : String} {word : List Char}
    (hw : Binding.isKeyword w = true) (hlower : word.map Char.toLower = w.toList)
    (hword : word.all Text.isWordChar = true) (hopens : opensList (word.map .char ++ us) = false) :
    OperatorsOf (.operator w :: ts) (word.map .char ++ us) := by
  have hall := all_isWordPart hword
  by_cases hin : w = "in"
  · subst hin
    exact h.isIn hall hlower hopens
  · have hplain : (Token.operator w).isNegated = false ∧ insOpened (.operator w :: ts) = insOpened ts ∧
        w.toList ≠ ['i', 'n'] ∧ w.toList ≠ ['i'] ∧ w.toList ≠ [] := by
      rcases keyword_cases hw with rfl | rfl | rfl | rfl | rfl | rfl
      all_goals first | exact ⟨rfl, rfl, by decide, by decide, by decide⟩ | exact absurd rfl hin
    obtain ⟨hnegated, hins, hne, hi, hnil⟩ := hplain
    rw [← hlower] at hne hi hnil
    refine h.plain hnegated hins hopens (SqlUnit.not_mem_of_isWordPart hall) fun free => ⟨false, ?_⟩
    exact SqlUnit.afterIns_word hall (fun h => hnil (by rw [h]; rfl)) hne (fun h => absurd h hi) free

/-- The signs of comparisons. -/
def signs : List (List Char) :=
  [['='], ['!', '='], ['<', '>'], ['<'], ['>'], ['<', '='], ['>', '='], ['!', '<'], ['!', '>']]

theorem mem_signs {text : List Char} (htext : text.all isSymbolChar = true)
    (hw : String.ofList text ∈ Stage.words) : text ∈ signs := by
  obtain ⟨w, hw', rfl⟩ : ∃ w ∈ Stage.words, text = w.toList := ⟨_, hw, String.toList_ofList.symm⟩
  simp only [Stage.words, List.mem_cons, List.not_mem_nil, or_false] at hw'
  rcases hw' with rfl | rfl | rfl | rfl | rfl | rfl | rfl | rfl | rfl | rfl | rfl | rfl | rfl | rfl | rfl
  all_goals first | decide | cases htext

/-- A sign is `!<` or `!>`, or it is no part of them. -/
theorem OperatorsOf.sign (h : OperatorsOf ts us) {text : List Char} (htext : text ∈ signs)
    (hopens : opensList (text.map .char ++ us) = false) :
    OperatorsOf (.operator (String.ofList text) :: ts) (text.map .char ++ us) := by
  refine ⟨?_, fun free => ?_, hopens⟩
  · simp only [signs, List.mem_cons, List.not_mem_nil, or_false] at htext
    rcases htext with rfl | rfl | rfl | rfl | rfl | rfl | rfl | rfl | rfl
    all_goals simp [hasNegated, Token.isNegated, h.negated]
  · have hins : insOpened (.operator (String.ofList text) :: ts) = insOpened ts := by
      simp only [signs, List.mem_cons, List.not_mem_nil, or_false] at htext
      rcases htext with rfl | rfl | rfl | rfl | rfl | rfl | rfl | rfl | rfl <;> rfl
    have hletter : ∀ text' ∈ signs, ∀ c ∈ text', c.toLower ≠ 'i' := by simp [signs]
    have hunits : ∀ c, .char c ∈ text.map SqlUnit.char → c.toLower ≠ 'i' := by
      intro c hc
      obtain ⟨c', hc', heq⟩ := List.mem_map.mp hc
      cases heq
      exact hletter text htext c hc'
    rw [SqlUnit.afterIns_append hunits, hins]
    exact h.ins _

/-- A parenthesis or comma. -/
theorem OperatorsOf.mark (h : OperatorsOf ts us) {t : Token} {c : Char} (ht : t.mark? = some c) :
    OperatorsOf (t :: ts) (.char c :: us) := by
  have hplain : (SqlUnit.char c).isInert = true ∧ t.isNegated = false ∧ insOpened (t :: ts) = insOpened ts ∧
      opensList (.char c :: us) = startsList (t :: ts) := by
    unfold Token.mark? at ht
    split at ht <;> cases ht <;> exact ⟨rfl, rfl, rfl, rfl⟩
  obtain ⟨hinert, hnegated, hins, hopens⟩ := hplain
  have hunits : [SqlUnit.char c].all SqlUnit.isInert = true := by rw [List.all_cons, hinert]; rfl
  exact h.plain hnegated hins hopens (SqlUnit.not_mem_of_isInert hunits) fun free =>
    ⟨_, SqlUnit.afterIns_inert hunits free us⟩

end

/-! ## What follows an operand -/

section

variable {d : Dialect} {cs : List Char}

theorem Separated.cons {c : Char} (hmark : c ∉ Dialect.marks) (h : endsIn (.char c :: d.units cs) = false) :
    Separated d (c :: cs) := by
  refine ⟨fun c' hc' => ?_, ?_⟩
  · cases hc'
    exact hmark
  · rw [Dialect.units_char hmark]
    exact h

theorem keyword_ne_nil {w : String} {word : List Char} (hw : Binding.isKeyword w = true)
    (hlower : word.map Char.toLower = w.toList) : word ≠ [] := by
  rintro rfl
  rcases keyword_cases hw with rfl | rfl | rfl | rfl | rfl | rfl <;> cases hlower

theorem Separated.keyword (d : Dialect) {w : String} {word : List Char} (hw : Binding.isKeyword w = true)
    (hlower : word.map Char.toLower = w.toList) (hword : word.all Text.isWordChar = true) (cs : List Char) :
    Separated d (word ++ cs) := by
  have hall := all_isWordPart hword
  have htwo : 2 ≤ word.length := by
    rw [← List.length_map Char.toLower, hlower]
    rcases keyword_cases hw with rfl | rfl | rfl | rfl | rfl | rfl <;> decide
  match word with
  | [] => cases htwo
  | [_] => exact absurd htwo (Nat.not_succ_le_self 1)
  | a :: b :: rest =>
    rw [List.all_cons, List.all_cons, Bool.and_eq_true, Bool.and_eq_true] at hall
    refine .cons (Dialect.not_mem_marks_of_isWordPart hall.1) ?_
    rw [List.append_eq, List.cons_append, Dialect.units_char (Dialect.not_mem_marks_of_isWordPart hall.2.1)]
    show (a.toLower == 'n' && !Dialect.isWordPart b) = false
    rw [hall.2.1, Bool.not_true, Bool.and_false]

theorem Separated.sign (d : Dialect) {text : List Char} (htext : text ∈ signs) (cs : List Char) :
    Separated d (text ++ cs) := by
  simp only [signs, List.mem_cons, List.not_mem_nil, or_false] at htext
  rcases htext with rfl | rfl | rfl | rfl | rfl | rfl | rfl | rfl | rfl
  all_goals exact .cons (by decide) rfl

theorem Separated.mark (d : Dialect) {t : Token} {c : Char} (ht : t.mark? = some c) (cs : List Char) :
    Separated d (c :: cs) := by
  unfold Token.mark? at ht
  split at ht <;> cases ht
  all_goals exact .cons (by decide) rfl

end

/-! ## Whole texts -/

theorem step_operand {t : Token} (ht : t.isOperand = true) {stage next : Stage} (h : Stage.step t stage = some next)
    (hstage : stage ≠ .listed) : stage = .wanted ∧ next = .given := by
  cases stage with
  | wanted => cases t <;> simp_all [Token.isOperand, Stage.step]
  | given => cases t <;> simp_all [Token.isOperand, Stage.step]
  | listed => exact absurd rfl hstage

theorem any_isNegated_list (type : DataType) (items : List (DataType × Value)) (ts : List Token) :
    (Token.openList type :: (items.map (fun i => Token.literal i.1 i.2) ++ .closeList :: ts)).any Token.isNegated =
      ts.any Token.isNegated := by
  induction items with
  | nil => rfl
  | cons i rest ih => exact ih

theorem insOpened_list (type : DataType) (items : List (DataType × Value)) (ts : List Token) :
    insOpened (.openList type :: (items.map (fun i => Token.literal i.1 i.2) ++ .closeList :: ts)) = insOpened ts := by
  induction items with
  | nil => rfl
  | cons i rest ih => exact ih

/-- The operators of a text are those of the tokens it is written for, and where an operand has just ended the
text goes on with something else. -/
theorem Written.operators {d : Dialect} {ts : List Token} {cs : List Char} (h : Written d ts cs) {stage : Stage}
    (hstage : stage ≠ .listed) (hrun : Stage.after ts stage = some .given) :
    OperatorsOf ts (d.units cs) ∧ (stage = .given → Separated d cs) := by
  induction h generalizing stage with
  | nil =>
    rw [Dialect.units_nil]
    exact ⟨.nil, fun _ => ⟨nofun, by rw [Dialect.units_nil]; rfl⟩⟩
  | @space c ts cs hc h ih =>
    have hmark := Dialect.not_mem_marks_of_isInert (Dialect.isInert_of_isSpace hc)
    rw [Dialect.units_char hmark]
    exact ⟨(ih hstage hrun).1.space hc, fun _ => .cons hmark (SqlUnit.endsIn_of_isSpace hc _)⟩
  | @keyword w word ts cs hw hlower hword h ih =>
    obtain ⟨next, hstep, hrest⟩ := Option.bind_eq_some_iff.mp hrun
    have hall := all_isWordPart hword
    have hopens := Dialect.opensList_units (d := d) (Dialect.startsBare_append
      (Dialect.startsBare_word hall (keyword_ne_nil hw hlower)) cs)
    rw [Dialect.units_append_of_plain (Dialect.forall_not_mem_marks hall)] at hopens ⊢
    exact ⟨(ih (Stage.step_ne_listed hstep hstage fun _ h => by cases h) hrest).1.keyword hw hlower hword hopens,
      fun _ => .keyword d hw hlower hword cs⟩
  | @symbol text ts cs htext h ih =>
    obtain ⟨next, hstep, hrest⟩ := Option.bind_eq_some_iff.mp hrun
    have hsign := mem_signs htext (Stage.mem_words_of_step hstep)
    have hplain : ∀ text ∈ signs, ∀ c ∈ text, c ∉ Dialect.marks := by simp [signs, Dialect.marks]
    have hbare : ∀ text ∈ signs, Dialect.startsBare text = true := by decide
    have hopens := Dialect.opensList_units (d := d) (Dialect.startsBare_append (hbare text hsign) cs)
    rw [Dialect.units_append_of_plain (hplain text hsign)] at hopens ⊢
    exact ⟨(ih (Stage.step_ne_listed hstep hstage fun _ h => by cases h) hrest).1.sign hsign hopens, fun _ => .sign d hsign cs⟩
  | @mark t c ts cs ht h ih =>
    obtain ⟨next, hstep, hrest⟩ := Option.bind_eq_some_iff.mp hrun
    have hnext : next ≠ .listed := by
      refine Stage.step_ne_listed hstep hstage fun type heq => ?_
      rw [heq] at ht
      cases ht
    have hsep := Separated.mark d ht cs
    rw [Dialect.units_char (hsep.1 c rfl)]
    exact ⟨(ih hnext hrest).1.mark ht, fun _ => hsep⟩
  | @operand t text ts cs ht htext h ih =>
    obtain ⟨next, hstep, hrest⟩ := Option.bind_eq_some_iff.mp hrun
    -- After an operand none may follow, so the text goes on with what ends this one.
    obtain ⟨rfl, rfl⟩ := step_operand ht hstep hstage
    obtain ⟨hops, hsep⟩ := ih (show Stage.given ≠ .listed by decide) hrest
    obtain ⟨hapart, hends⟩ := hsep rfl
    obtain ⟨hstarts, us, hus, hmark, hpass⟩ := htext
    have hopens := Dialect.opensList_units (d := d) (Dialect.startsBare_append hstarts cs)
    rw [hus cs hapart] at hopens ⊢
    have hplain : t.isNegated = false ∧ insOpened (t :: ts) = insOpened ts ∧ startsList (t :: ts) = false := by
      cases t <;> first | exact ⟨rfl, rfl, rfl⟩ | cases ht
    obtain ⟨hnegated, hins, hlist⟩ := hplain
    exact ⟨hops.plain hnegated hins (hopens.trans hlist.symm) hmark (hpass _ hends), fun h => absurd h (by decide)⟩
  | @list type items text ts cs htext h ih =>
    cases stage with
    | listed => exact absurd rfl hstage
    | given => cases hrun
    | wanted =>
      -- The items have no operators between them and are passed over as a whole.
      rw [Stage.after_list] at hrun
      obtain ⟨hops, hsep⟩ := ih (show Stage.given ≠ .listed by decide) hrun
      obtain ⟨us, hus, hinert⟩ := htext
      have hunits := hus cs (hsep rfl).1
      have hopens : opensList (d.units ('(' :: (text ++ cs))) = true := by
        rw [Dialect.units_char (by decide)]
        rfl
      rw [List.cons_append] at hunits
      rw [hunits] at hopens ⊢
      refine ⟨⟨?_, fun free => ?_, hopens⟩, fun h => absurd h (by decide)⟩
      · rw [SqlUnit.hasNegated_append (SqlUnit.not_mem_of_isInert hinert), hops.negated, any_isNegated_list]
      · rw [insOpened_list, SqlUnit.afterIns_inert hinert]
        exact hops.ins _
  | @outside t text ts cs ht h ih =>
    -- The grammar has no place for such a token.
    obtain ⟨next, hstep, -⟩ := Option.bind_eq_some_iff.mp hrun
    have hnone : Stage.step t stage = none := by
      cases t <;> simp_all [Token.isOutside, Stage.step]
    rw [hnone] at hstep
    cases hstep

end RecordQuery.Format
