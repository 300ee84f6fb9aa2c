import RecordQuery.Proofs.Condition.Chain
import RecordQuery.Proofs.Dialect.Literals
import RecordQuery.Proofs.Format.Tiling
set_option autoImplicit false

/-!
# Condition: when a predicate is the empty text

Statements leave a filter out where a predicate is the empty text.  Literals, quoted names, formats that are
not blank and nested chains are all written with some characters; the only expression without any is a field
whose name is empty and stands without quotes or model.  A predicate that demands something is therefore
empty text in one case: that field is all that it demands.
-/

namespace RecordQuery

/-! ## Formats -/

namespace Format

theorem Part.sql_ne_empty {d : Dialect} {text : List Char} {part : Part} {sql : String} (htext : text ≠ [])
    (h : part.sql d text = .ok sql) : sql ≠ "" := by
  cases part with
  | copied token =>
    cases h
    simpa using htext
  | value type v => exact (Dialect.Bare.quoteLiteral h).ne_empty
  | model name =>
    cases h
    exact (Dialect.Bare.quoteModel d name).ne_empty
  | field name =>
    cases h
    exact (Dialect.Bare.quoteField d name).ne_empty
  | qualified name quoted owner =>
    cases h
    simp
  | list type items =>
    obtain ⟨texts, -, h⟩ := Outcome.bind_eq_ok.mp h
    cases h
    split <;> simp

theorem isBlank_of_isSpace {c : Char} (h : isSpace c = true) : Text.isBlank c = true := by
  simp only [isSpace, Bool.or_eq_true, beq_iff_eq] at h
  rcases h with ((rfl | rfl) | rfl) | rfl <;> decide

theorem segmentsSql_ne_empty {d : Dialect} {after : List Char} {segments : List Segment} {text : String}
    (hsegments : segments ≠ []) (h : segmentsSql d after segments = .ok text) : text ≠ "" := by
  obtain ⟨segment, rest, rfl⟩ := List.exists_cons_of_ne_nil hsegments
  obtain ⟨part, hpart, h⟩ := Outcome.bind_eq_ok.mp h
  obtain ⟨tail, -, h⟩ := Outcome.bind_eq_ok.mp h
  cases h
  simp [Part.sql_ne_empty segment.text_ne_nil hpart]

/-- A format that is not blank has a segment. -/
theorem Tiling.segments_ne_nil {format : List Char} {ts : List Spanned} (tiling : Tiling format ts)
    (h : Text.isAllBlank format = false) : tiling.segments ≠ [] := by
  intro hnil
  have hspace : format.all isSpace = true := by
    rw [← tiling.covers, hnil]
    exact tiling.after_space
  have hblank : Text.isAllBlank format = true :=
    List.all_eq_true.mpr fun c hc => isBlank_of_isSpace (List.all_eq_true.mp hspace c hc)
  rw [hblank] at h
  cases h

/-- A format that is not blank is written with some characters. -/
theorem interpolate_ne_empty {d : Dialect} {format : String} {b : Binding} {text : String}
    (hblank : Text.isAllBlank format.toList = false) (h : interpolate d format b = .ok text) : text ≠ "" := by
  obtain ⟨ts, hts, -⟩ := Outcome.bind_eq_ok.mp h
  obtain ⟨tiling⟩ := exists_tiling hts
  rw [tiling.interpolate_eq d hts] at h
  exact segmentsSql_ne_empty (tiling.segments_ne_nil hblank) h

end Format

/-! ## Expressions -/

namespace Expr

/-- A field whose name is empty and stands without quotes or model. -/
def isEmptyName : Expr → Bool
  | .field ref => ref.field == "" && !ref.quoted && ref.model.isNone
  | _ => false

theorem renderField_eq_empty_iff (d : Dialect) (ref : FieldRef) :
    renderField d ref = "" ↔ (Expr.field ref).isEmptyName = true := by
  obtain ⟨field, quoted, model, modelQuoted⟩ := ref
  cases model with
  | some model => simp [renderField, isEmptyName]
  | none => cases quoted <;> simp [renderField, isEmptyName, (Dialect.Bare.quoteField d _).ne_empty]

/-- Only a field without a name is written without any character. -/
theorem render_eq_empty_iff {d : Dialect} {e : Expr} {text : String} (h : e.render d = .ok text) :
    text = "" ↔ e.isEmptyName = true := by
  cases e with
  | literal type value => simp [isEmptyName, (Dialect.Bare.quoteLiteral h).ne_empty]
  | field ref =>
    cases h
    exact renderField_eq_empty_iff d ref
  | binary left op right =>
    rw [render] at h
    split at h
    · cases h
    obtain ⟨lhs, -, h⟩ := Outcome.bind_eq_ok.mp h
    simp only at h
    split at h
    · obtain ⟨rhs, -, h⟩ := Outcome.bind_eq_ok.mp h
      cases h
      simp [isEmptyName]
    · obtain ⟨rhs, -, h⟩ := Outcome.bind_eq_ok.mp h
      cases h
      simp [isEmptyName]
  | unary op operand =>
    rw [render] at h
    split at h
    · cases h
    obtain ⟨inner, -, h⟩ := Outcome.bind_eq_ok.mp h
    cases h
    split <;> simp [isEmptyName]
  | list type values =>
    rw [render, renderList] at h
    split at h
    · cases h
      simp [isEmptyName]
    · obtain ⟨texts, -, h⟩ := Outcome.bind_eq_ok.mp h
      cases h
      simp [isEmptyName]

end Expr

/-! ## Chains -/

/-- The condition is a field without a name. -/
def Condition.isEmptyName : Condition → Bool
  | .expr e => e.isEmptyName
  | _ => false

/-- A field without a name is all that the predicate demands. -/
def Predicate.onlyEmptyName (p : Predicate) : Bool :=
  match p.clauses.filter fun clause => !clause.2.isBlank with
  | [(_, c)] => c.isEmptyName
  | _ => false

/-- The predicate demands something, and not a field without a name alone. -/
def Predicate.isWritten (p : Predicate) : Bool := p.hasClauses && !p.onlyEmptyName

variable {d : Dialect} {registry : Registry} {several : Bool}

theorem wrapped_eq_empty_iff {needed : Bool} {text : String} :
    wrapped needed text = "" ↔ needed = false ∧ text = "" := by
  cases needed <;> simp [wrapped]

theorem Condition.sql_eq_empty_iff {c : Condition} {text : String} (hc : c.isBlank = false)
    (h : c.sql d registry several = .ok text) : text = "" ↔ c.isEmptyName = true := by
  cases c with
  | expr e =>
    obtain ⟨rendered, hrendered, h⟩ := Outcome.bind_eq_ok.mp h
    cases h
    rw [wrapped_eq_empty_iff, Expr.render_eq_empty_iff hrendered, Condition.isEmptyName,
      and_iff_right_of_imp]
    intro hname
    cases e with
    | field ref => simp [Expr.isLogical]
    | _ => cases hname
  | text format args =>
    obtain ⟨rendered, hrendered, h⟩ := Outcome.bind_eq_ok.mp h
    cases h
    simp [wrapped_eq_empty_iff, Format.interpolate_ne_empty hc hrendered, Condition.isEmptyName]
  | group clauses negated =>
    obtain ⟨inner, -, h⟩ := Outcome.bind_eq_ok.mp h
    cases h
    simp [Condition.isEmptyName]

/-- After the first clause, a chain is empty text when nothing more counts. -/
theorem chainSql_rest_eq_empty_iff {clauses : List Clause} {text : String}
    (h : chainSql d registry several false clauses = .ok text) :
    text = "" ↔ clauses.filter (fun clause => !clause.2.isBlank) = [] := by
  induction clauses generalizing text with
  | nil =>
    cases h
    simp
  | cons clause rest ih =>
    obtain ⟨glue, c⟩ := clause
    rw [chainSql] at h
    split at h
    · rename_i hc
      rw [List.filter_cons_of_neg (by simp [hc])]
      exact ih h
    · rename_i hc
      obtain ⟨part, -, h⟩ := Outcome.bind_eq_ok.mp h
      obtain ⟨tail, -, h⟩ := Outcome.bind_eq_ok.mp h
      cases h
      rw [List.filter_cons_of_pos (by simpa using hc)]
      simp

/-- A chain is empty text when nothing counts, or a field without a name alone. -/
theorem chainSql_eq_empty_iff {clauses : List Clause} (negated : Bool) {text : String}
    (h : chainSql d registry several true clauses = .ok text) :
    text = "" ↔ anyLive clauses = false ∨ (Predicate.mk clauses negated).onlyEmptyName = true := by
  induction clauses generalizing text with
  | nil =>
    cases h
    simp [anyLive]
  | cons clause rest ih =>
    obtain ⟨glue, c⟩ := clause
    rw [chainSql] at h
    split at h
    · rename_i hc
      rw [ih h, anyLive, Predicate.onlyEmptyName, Predicate.onlyEmptyName, hc,
        List.filter_cons_of_neg (by simp [hc])]
      rfl
    · rename_i hc
      rw [Bool.not_eq_true] at hc
      obtain ⟨part, hpart, h⟩ := Outcome.bind_eq_ok.mp h
      obtain ⟨tail, htail, h⟩ := Outcome.bind_eq_ok.mp h
      cases h
      have hpart := Condition.sql_eq_empty_iff hc hpart
      have htail := chainSql_rest_eq_empty_iff htail
      rw [Predicate.onlyEmptyName, List.filter_cons_of_pos (by simpa using hc)]
      cases hlive : rest.filter fun clause => !clause.2.isBlank with
      | nil =>
        rw [hlive] at htail
        simp [anyLive, hc, hpart, htail]
      | cons next more =>
        rw [hlive] at htail
        simp [anyLive, hc, htail]

/-- A predicate is the empty text when it demands nothing, or a field without a name alone. -/
theorem Predicate.sql_eq_empty_iff {p : Predicate} {text : String} (h : p.sql d registry = .ok text) :
    text = "" ↔ p.isWritten = false := by
  obtain ⟨inner, hinner, h⟩ := Outcome.bind_eq_ok.mp h
  cases h
  have hwritten : inner = "" ↔ p.isWritten = false := by
    rw [chainSql_eq_empty_iff p.negated hinner, Predicate.isWritten, Predicate.hasClauses,
      Bool.and_eq_false_iff, Bool.not_eq_false']
  rw [← hwritten]
  split
  · exact Iff.rfl
  · rename_i hne
    rw [not_or] at hne
    simp [hne.1]

end RecordQuery
