import RecordQuery.Proofs.Expr.Chaining
import RecordQuery.Proofs.Expr.Plain
import RecordQuery.Proofs.Expr.RoundTrip
set_option autoImplicit false

/-!
# Expr: rendering and grouping

An expression that was read from copied text is rendered, and the rendered text is read again.  It is read
exactly when no comparison stands directly on the left of a comparison, and then the value is the same
everywhere.  Otherwise the parentheses of `(a = b) = c` are lost, and `a = b = c` is refused.
-/

namespace RecordQuery.Expr

open Format (Token Spanned tokenize)

/-- A plain expression is rendered; the text is read exactly if the expression is flat, and then as one of the
same value. -/
theorem parse_render_of_isPlain {e : Expr} (h : e.isPlain = true) :
    ∃ text, e.render .postgres = .ok text ∧
      ∀ b : Format.Binding, ((∃ e', parse text b = .ok e') ↔ e.isFlat = true) ∧
        ∀ e', parse text b = .ok e' → Same e' e := by
  obtain ⟨text, htext, hspells⟩ := render_spells e h
  refine ⟨text, htext, ?_⟩
  intro b
  have hflat : ∀ e', parse text b = .ok e' → e.isFlat = true := fun e' hparse =>
    isFlat_of_derives h (derives_of_parse hspells hparse)
  refine ⟨⟨?_, ?_⟩, ?_⟩
  · rintro ⟨e', hparse⟩
    exact hflat e' hparse
  · intro hflat
    obtain ⟨e', hparse, -⟩ := parse_of_reads hspells (readBack e h hflat).disjunction b
    exact ⟨e', hparse⟩
  · intro e' hparse
    obtain ⟨e'', hparse', hagrees⟩ := parse_of_reads hspells (readBack e h (hflat e' hparse)).disjunction b
    rw [hparse] at hparse'
    cases hparse'
    exact hagrees.same

/-- An expression that a format spells without values, where every token is copied text, none is a number
with a decimal point and no list has both integers and texts, is rendered for Postgres; the text is read again
exactly if no comparison stands directly on the left of a comparison, and what is read has the same value as
the expression wherever they are evaluated. -/
theorem parse_render_iff_isFlat {format : String} {registry : Registry} {ts : List Spanned} {e : Expr}
    (htokens : tokenize format ⟨[], registry⟩ = .ok ts) (hcopied : ∀ s ∈ ts, s.substituted = false)
    (hfraction : ∀ s ∈ ts, isFraction s.token = false) (hparse : parse format ⟨[], registry⟩ = .ok e)
    (hunmixed : e.isUnmixed = true) :
    ∃ text, e.render .postgres = .ok text ∧
      ((∃ e', parse text ⟨[], registry⟩ = .ok e') ↔ e.isFlat = true) ∧
      ∀ e', parse text ⟨[], registry⟩ = .ok e' →
        ∀ s : Scope, ∃ v, e.evaluate s = .ok v ∧ e'.evaluate s = .ok v := by
  have hplain := isPlain_of_parse htokens hcopied hfraction hparse hunmixed
  obtain ⟨text, htext, hread⟩ := parse_render_of_isPlain hplain
  obtain ⟨hiff, hsame⟩ := hread ⟨[], registry⟩
  refine ⟨text, htext, hiff, ?_⟩
  intro e' hparse' s
  obtain ⟨v, hv⟩ := evaluates_of_isPlain e hplain s
  exact ⟨v, hv, (hsame e' hparse' s).trans hv⟩

/-- The comparison on the right of `b = (c = d)` keeps its parentheses, and the text is read again. -/
theorem parse_render_rightComparison :
    ∃ text, (Expr.binary (.raw "b") .eq (.binary (.raw "c") .eq (.raw "d"))).render .postgres = .ok text ∧
      ∃ e', parse text ⟨[], []⟩ = .ok e' := by
  have htokens : tokenize "b = (c = d)" ⟨[], []⟩ = .ok [⟨.field "b" false none, 0, 1, false⟩,
      ⟨.operator "=", 2, 3, false⟩, ⟨.openParen, 4, 5, false⟩, ⟨.field "c" false none, 5, 6, false⟩,
      ⟨.operator "=", 7, 8, false⟩, ⟨.field "d" false none, 9, 10, false⟩,
      ⟨.closeParen, 10, 11, false⟩] := rfl
  have hparse : parse "b = (c = d)" ⟨[], []⟩ = .ok (.binary (.raw "b") .eq (.binary (.raw "c") .eq (.raw "d"))) := by
    rw [parse_eq_ofTokens htokens]
    rfl
  obtain ⟨text, htext, hiff, -⟩ := parse_render_iff_isFlat htokens (by decide) (by decide) hparse rfl
  exact ⟨text, htext, hiff.mpr rfl⟩

/-- The comparison on the left of `(a = b) = c` loses its parentheses, and the text is refused. -/
theorem parse_render_leftComparison :
    parse "(a = b) = c" ⟨[], []⟩ = .ok (.binary (.binary (.raw "a") .eq (.raw "b")) .eq (.raw "c")) ∧
      (Expr.binary (.binary (.raw "a") .eq (.raw "b")) .eq (.raw "c")).render .postgres = .ok "a = b = c" ∧
      parse "a = b = c" ⟨[], []⟩ = .error (.parse 6 "=" .chainedComparison) := by
  have htokens : tokenize "(a = b) = c" ⟨[], []⟩ = .ok [⟨.openParen, 0, 1, false⟩,
      ⟨.field "a" false none, 1, 2, false⟩, ⟨.operator "=", 3, 4, false⟩, ⟨.field "b" false none, 5, 6, false⟩,
      ⟨.closeParen, 6, 7, false⟩, ⟨.operator "=", 8, 9, false⟩, ⟨.field "c" false none, 10, 11, false⟩] := rfl
  have htokens' : tokenize "a = b = c" ⟨[], []⟩ = .ok [⟨.field "a" false none, 0, 1, false⟩,
      ⟨.operator "=", 2, 3, false⟩, ⟨.field "b" false none, 4, 5, false⟩, ⟨.operator "=", 6, 7, false⟩,
      ⟨.field "c" false none, 8, 9, false⟩] := rfl
  refine ⟨?_, rfl, ?_⟩
  · rw [parse_eq_ofTokens htokens]
    rfl
  · rw [parse_eq_ofTokens htokens']
    rfl

end RecordQuery.Expr
