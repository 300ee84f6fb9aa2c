import RecordQuery.Proofs.Condition.Chain
import RecordQuery.Proofs.Expr.Plain
import RecordQuery.Proofs.Format.Tiling
set_option autoImplicit false

/-!
# Condition: the text of a predicate means the predicate

A readable predicate is written as a text that is parsed as an expression which holds wherever the predicate
does.  Expressions go through rendering and reading (`Expr.readBack`), formats are copied, and groups and glue
are put around them; the induction is on the nesting of groups.
-/

namespace RecordQuery

open Format (Token Spanned Spells tokenize)
open RecordQuery.Expr (AsNegation AsDisjunction)

/-! ## Readable conditions -/

mutual

/-- The condition is a plain and flat expression, such as `and`, `or` and `not` over constants, fields and
comparisons between them; or a format without values that is read as an expression and whose tokens are all
copied text; or a group of such conditions. -/
def Condition.Readable (registry : Registry) : Condition → Prop
  | .expr e => e.isPlain = true ∧ e.isFlat = true
  | .text format args =>
    args = [] ∧ ∃ ts e, tokenize format ⟨[], registry⟩ = .ok ts ∧ (∀ s ∈ ts, s.substituted = false) ∧
      Expr.parse format ⟨[], registry⟩ = .ok e
  | .group clauses _ => AllReadable registry clauses
termination_by structural c => c

/-- Every clause that counts for something is readable. -/
def AllReadable (registry : Registry) : List (Glue × Condition) → Prop
  | [] => True
  | (_, c) :: rest => (c.isBlank = true ∨ c.Readable registry) ∧ AllReadable registry rest
termination_by structural cs => cs

end

section

variable {registry : Registry}

theorem reads_wrapped {needed : Bool} {text : String} {truth : Scope → Bool} (h : ReadsAs AsDisjunction text truth)
    (hneeded : needed = false → ReadsAs AsNegation text truth) :
    ReadsAs AsNegation (wrapped needed text) truth := by
  unfold wrapped
  split
  · exact h.parens
  · rename_i hnot
    exact hneeded (by simpa using hnot)

/-- Without `and` or `or` at its root, a plain expression binds as strongly as `not`. -/
theorem three_le_binding {e : Expr} (h : e.isPlain = true) (hlogical : e.isLogical = false) :
    3 ≤ e.binding := by
  cases e with
  | binary left op right => cases op <;> first | exact Nat.le_refl 3 | exact Nat.le_succ 3 | cases hlogical
  | unary op operand =>
    rw [(Expr.isPlain_unary_iff.mp h).1]
    exact Nat.le_refl 3
  | _ => exact Nat.le_add_right 3 2

/-- A plain and flat expression is written as a text with its truth. -/
theorem compiles_expr {e : Expr} (hplain : e.isPlain = true) (hflat : e.isFlat = true) :
    (Condition.expr e).Compiles registry := by
  obtain ⟨text, htext, hspells⟩ := Expr.render_spells e hplain
  have hread := Expr.readBack e hplain hflat
  obtain ⟨truth, htruth⟩ := (Expr.evaluates_of_isPlain e hplain).holds
  have hdisjunction : ReadsAs AsDisjunction text truth := ⟨_, e, hspells, hread.disjunction, htruth⟩
  refine ⟨truth, htruth, ?_⟩
  intro several
  refine ⟨wrapped (several && e.isLogical) text, by rw [Condition.sql, htext]; rfl, ?_⟩
  cases several with
  | false => exact hdisjunction
  | true =>
    refine reads_wrapped hdisjunction ?_
    intro hlogical
    exact ⟨_, e, hspells, hread.negation (three_le_binding hplain hlogical), htruth⟩

/-- A format of copied text is its own text. -/
theorem compiles_text {format : String} {ts : List Spanned} {e : Expr}
    (htokens : tokenize format ⟨[], registry⟩ = .ok ts) (hcopied : ∀ s ∈ ts, s.substituted = false)
    (hparse : Expr.parse format ⟨[], registry⟩ = .ok e) : (Condition.text format []).Compiles registry := by
  obtain ⟨hspells, hderives⟩ := Expr.spells_of_parse htokens hcopied hparse
  obtain ⟨truth, htruth⟩ := (Expr.Evaluates.of_derives hderives).holds
  have hdisjunction : ReadsAs AsDisjunction format truth :=
    ⟨_, e, hspells, Expr.asDisjunction_of_derives hderives, htruth⟩
  have hbare : isBareFormat registry format [] = !e.isLogical := by
    rw [isBareFormat, hparse]
  refine ⟨truth, ?_, ?_⟩
  · intro s
    rw [Condition.holds, hparse]
    exact htruth s
  · intro several
    refine ⟨wrapped (several && !isBareFormat registry format []) format, ?_, ?_⟩
    · rw [Condition.sql, Format.interpolate_copied .postgres htokens hcopied]
      rfl
    · rw [hbare, Bool.not_not]
      cases several with
      | false => exact hdisjunction
      | true =>
        refine reads_wrapped hdisjunction ?_
        intro hlogical
        exact ⟨_, e, hspells, Expr.asNegation_of_derives hderives hlogical, htruth⟩

/-- A group of conditions with texts is written between parentheses. -/
theorem compiles_group {clauses : List (Glue × Condition)} (negated : Bool) (hlive : anyLive clauses = true)
    (h : ∀ clause ∈ clauses, clause.2.isBlank = false → clause.2.Compiles registry) :
    (Condition.group clauses negated).Compiles registry := by
  obtain ⟨inner, truth, hinner, hholds, hreads⟩ := chain_compiles clauses hlive h
  have hsql : ∀ several, (Condition.group clauses negated).sql .postgres registry several =
      .ok ((if negated then "NOT (" else "(") ++ inner ++ ")") := by
    intro several
    rw [Condition.sql, hinner]
    rfl
  have hnegation : ReadsAs AsNegation ((if negated then "NOT (" else "(") ++ inner ++ ")")
      fun s => truth s != negated := by
    cases negated with
    | true =>
      have hnot := hreads.not
      simpa using hnot
    | false =>
      have hparens := hreads.parens
      simpa using hparens
  refine ⟨fun s => truth s != negated, ?_, ?_⟩
  · intro s
    rw [Condition.holds, hlive, hholds s]
    rfl
  · intro several
    refine ⟨_, hsql several, ?_⟩
    cases several with
    | false => exact hnegation.conjunction.disjunction
    | true => exact hnegation

mutual

/-- A readable condition that counts for something is written as a text with its truth. -/
theorem Condition.compiles : ∀ (c : Condition), c.Readable registry → c.isBlank = false → c.Compiles registry
  | .expr e, h, _ => compiles_expr h.1 h.2
  | .text format args, h, _ => by
    obtain ⟨rfl, ts, e, htokens, hcopied, hparse⟩ := h
    exact compiles_text htokens hcopied hparse
  | .group clauses negated, h, hblank => by
    rw [Condition.isBlank, Bool.not_eq_false'] at hblank
    exact compiles_group negated hblank (clauses_compile clauses h)
termination_by structural c => c

theorem clauses_compile : ∀ (clauses : List (Glue × Condition)), AllReadable registry clauses →
    ∀ clause ∈ clauses, clause.2.isBlank = false → clause.2.Compiles registry
  | [], _ => fun _ hmem => nomatch hmem
  | (glue, c) :: rest, h => by
    intro clause hmem hblank
    rcases List.mem_cons.mp hmem with rfl | hmem
    · exact c.compiles (h.1.resolve_left (by simp [hblank])) hblank
    · exact clauses_compile rest h.2 clause hmem hblank
termination_by structural clauses => clauses

end

end

/-- Rendering a readable predicate for Postgres succeeds.  If some clause counts for something, the text is
parsed, whatever placeholders are bound to, as an expression that holds exactly where the predicate does. -/
theorem Predicate.parse_sql_holds (p : Predicate) (registry : Registry) (h : AllReadable registry p.clauses) :
    ∃ text, p.sql .postgres registry = .ok text ∧
      (p.hasClauses = true → ∀ b : Format.Binding, ∃ e, Expr.parse text b = .ok e ∧
        ∀ s : Scope, ∃ truth, e.holds s = .ok truth ∧ p.holds s registry = .ok truth) := by
  cases hlive : anyLive p.clauses with
  | false =>
    refine ⟨"", ?_, ?_⟩
    · rw [Predicate.sql, (chain_dead registry p.clauses hlive).1]
      rfl
    · intro hclauses
      rw [Predicate.hasClauses, hlive] at hclauses
      cases hclauses
  | true =>
    obtain ⟨inner, truth, hinner, hholds, hreads⟩ :=
      chain_compiles p.clauses hlive (clauses_compile p.clauses h)
    have hp : ∀ s, p.holds s registry = .ok (truth s != p.negated) := by
      intro s
      rw [Predicate.holds, Predicate.toCondition, Condition.holds, hlive, hholds s]
      rfl
    have hsql : p.sql .postgres registry = .ok (if p.negated = false then inner else "NOT (" ++ inner ++ ")") := by
      rw [Predicate.sql, hinner]
      show Except.ok _ = _
      simp only [hreads.ne_empty, false_or]
    have hwhole : ReadsAs AsDisjunction (if p.negated = false then inner else "NOT (" ++ inner ++ ")")
        fun s => truth s != p.negated := by
      cases p.negated with
      | true => simpa using hreads.not.conjunction.disjunction
      | false => simpa using hreads
    refine ⟨_, hsql, ?_⟩
    intro _ b
    obtain ⟨e, hparse, he⟩ := hwhole.parse b
    exact ⟨e, hparse, fun s => ⟨_, he s, hp s⟩⟩

/-- A blank clause, a format with `or` at its root and a negated group, negated as a whole. -/
theorem Predicate.parse_sql_holds_nested :
    let p : Predicate := ⟨[(.and, .text " " []), (.or, .text "a or b = 1" []),
      (.and, .group [(.and, .expr (.binary (.raw "c") .isIn (.list .int [])))] true)], true⟩
    ∃ text e, p.sql .postgres [] = .ok text ∧ Expr.parse text ⟨[], []⟩ = .ok e ∧
      ∀ s : Scope, ∃ truth, e.holds s = .ok truth ∧ p.holds s [] = .ok truth := by
  intro p
  have htokens : tokenize "a or b = 1" ⟨[], []⟩ = .ok [⟨.field "a" false none, 0, 1, false⟩,
      ⟨.operator "or", 2, 4, false⟩, ⟨.field "b" false none, 5, 6, false⟩, ⟨.operator "=", 7, 8, false⟩,
      ⟨.literal .int (.int 1), 9, 10, false⟩] := rfl
  have hparse : Expr.parse "a or b = 1" ⟨[], []⟩ =
      .ok (.binary (.raw "a") .or (.binary (.raw "b") .eq (.literal .int (.int 1)))) := by
    rw [Expr.parse_eq_ofTokens htokens]
    rfl
  have hreadable : AllReadable [] p.clauses :=
    ⟨.inl rfl, .inr ⟨rfl, _, _, htokens, by decide, hparse⟩, .inr ⟨.inr ⟨rfl, rfl⟩, trivial⟩, trivial⟩
  obtain ⟨text, htext, hread⟩ := Predicate.parse_sql_holds p [] hreadable
  obtain ⟨e, he, hholds⟩ := hread rfl ⟨[], []⟩
  exact ⟨text, e, htext, he, hholds⟩

end RecordQuery
