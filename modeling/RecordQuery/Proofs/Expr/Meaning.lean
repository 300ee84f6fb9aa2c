import RecordQuery.Expr.Eval
import RecordQuery.Proofs.Expr.Grammar
set_option autoImplicit false

/-!
# Expr: tokens read as an expression

Rendering may group a chain of `and` or `or` to the other side, and it writes a list of one as its item, so
that tokens are read as an expression only up to its value.  `Agrees` is that relation.  At each level of the
grammar, `Reads` says that tokens derive from that level and mean what an expression means; the lemmas build
such derivations from those of the parts, one for each way to write an expression.
-/

namespace RecordQuery.Expr

open Format (Token)
open Grammar

/-! ## The same value -/

/-- The expressions have the same value, or fail alike, wherever they are evaluated. -/
def Same (a b : Expr) : Prop := ∀ s : Scope, a.evaluate s = b.evaluate s

namespace Same

variable {a b c l l' r r' : Expr}

theorem refl (a : Expr) : Same a a := fun _ => rfl

theorem symm (h : Same a b) : Same b a := fun s => (h s).symm

theorem trans (h : Same a b) (h' : Same b c) : Same a c := fun s => (h s).trans (h' s)

theorem binary (hl : Same l l') (op : Operator) (hr : Same r r') :
    Same (.binary l op r) (.binary l' op r') := by
  intro s
  unfold evaluate
  rw [hl s, hr s]

theorem unary (op : Operator) (h : Same a b) : Same (.unary op a) (.unary op b) := by
  intro s
  unfold evaluate
  rw [h s]

/-- A chain of `and` may be grouped either way. -/
theorem and_assoc (a b c : Expr) :
    Same (.binary (.binary a .and b) .and c) (.binary a .and (.binary b .and c)) := by
  intro s
  simp only [evaluate]
  cases a.evaluate s with
  | error fault => rfl
  | ok va =>
    simp only [Outcome.ok_bind]
    cases hva : va.truthy with
    | false => rfl
    | true =>
      simp only [if_true]
      cases b.evaluate s with
      | error fault => rfl
      | ok vb =>
        simp only [Outcome.ok_bind]
        cases hvb : vb.truthy with
        | false => rfl
        | true => cases c.evaluate s <;> rfl

/-- A chain of `or` may be grouped either way. -/
theorem or_assoc (a b c : Expr) :
    Same (.binary (.binary a .or b) .or c) (.binary a .or (.binary b .or c)) := by
  intro s
  simp only [evaluate]
  cases a.evaluate s with
  | error fault => rfl
  | ok va =>
    simp only [Outcome.ok_bind]
    cases hva : va.truthy with
    | true => rfl
    | false =>
      simp only [Bool.false_eq_true, if_false]
      cases b.evaluate s with
      | error fault => rfl
      | ok vb =>
        simp only [Outcome.ok_bind]
        cases hvb : vb.truthy with
        | true => rfl
        | false => cases c.evaluate s <;> rfl

/-- What has the same members may stand on the right of `in`. -/
theorem isIn_members (l : Expr) {v v' : Value} (hr : ∀ s, r.evaluate s = .ok v)
    (hr' : ∀ s, r'.evaluate s = .ok v') (h : ∀ u, isMember u v = isMember u v') :
    Same (.binary l .isIn r) (.binary l .isIn r') := by
  intro s
  simp only [evaluate, hr s, hr' s, Outcome.ok_bind, compareBy, h]

/-- A list of one has the members of its item, unless that is a list. -/
theorem isMember_singleton {v : Value} (h : ∀ items, v ≠ .array items) (u : Value) :
    isMember u (.array [v]) = isMember u v := by
  cases v with
  | array items => exact absurd rfl (h items)
  | _ => simp [isMember]

/-- Membership in a list of one is membership in its item, unless that is a list. -/
theorem isIn_listed (hl : Same l l') (hr : Same r r')
    (hitem : ∀ type value, r = .literal type value → ∀ items, value ≠ .array items) :
    Same (.binary l .isIn (Comparator.listed r)) (.binary l' .isIn r') := by
  refine Same.trans ?_ (hl.binary .isIn hr)
  cases r with
  | literal type value =>
    exact isIn_members l (fun _ => rfl) (fun _ => rfl) (isMember_singleton (hitem type value rfl))
  | _ => exact Same.refl _

end Same

/-- The expression means what another one means, and it is a constant only if that one is. -/
structure Agrees (e' e : Expr) : Prop where
  same : Same e' e
  literal : ∀ type value, e' = .literal type value → ∃ type', e = .literal type' value

theorem Agrees.refl (e : Expr) : Agrees e e := ⟨Same.refl e, fun type _ h => ⟨type, h⟩⟩

theorem Agrees.binary {l r e : Expr} {op : Operator} (h : Same (.binary l op r) e) :
    Agrees (.binary l op r) e :=
  ⟨h, fun _ _ heq => by cases heq⟩

theorem Agrees.unary {a e : Expr} {op : Operator} (h : Same (.unary op a) e) : Agrees (.unary op a) e :=
  ⟨h, fun _ _ heq => by cases heq⟩

/-! ## Chains, one after the other -/

namespace Grammar

/-- Two chains of `and` as one. -/
def Conjunction.append : Conjunction → Conjunction → Conjunction
  | .last n, c => .join n c
  | .join n rest, c => .join n (rest.append c)

/-- Two chains of `or` as one. -/
def Disjunction.append : Disjunction → Disjunction → Disjunction
  | .last c, d => .join c d
  | .join c rest, d => .join c (rest.append d)

theorem Conjunction.tokens_append : ∀ (c c' : Conjunction),
    (c.append c').tokens = c.tokens ++ .operator "and" :: c'.tokens
  | .last _, _ => rfl
  | .join n rest, c' => by
    rw [append, tokens, tokens_append rest c', tokens, List.append_assoc, List.cons_append]

theorem Disjunction.tokens_append : ∀ (d d' : Disjunction),
    (d.append d').tokens = d.tokens ++ .operator "or" :: d'.tokens
  | .last _, _ => rfl
  | .join c rest, d' => by
    rw [append, tokens, tokens_append rest d', tokens, List.append_assoc, List.cons_append]

theorem Conjunction.after?_append : ∀ (c c' : Conjunction) (left : Expr),
    (c.append c').after? left = (c.after? left).bind c'.after?
  | .last n, c', left => by
    rw [append, after?, after?]
    cases n.tree? <;> rfl
  | .join n rest, c', left => by
    rw [append, after?, after?]
    cases n.tree? with
    | none => rfl
    | some t => exact after?_append rest c' _

theorem Disjunction.after?_append : ∀ (d d' : Disjunction) (left : Expr),
    (d.append d').after? left = (d.after? left).bind d'.after?
  | .last c, d', left => by
    rw [append, after?, after?]
    cases c.tree? <;> rfl
  | .join c rest, d', left => by
    rw [append, after?, after?]
    cases c.tree? with
    | none => rfl
    | some t => exact after?_append rest d' _

theorem Conjunction.tree?_append (c c' : Conjunction) :
    (c.append c').tree? = c.tree?.bind c'.after? := by
  cases c with
  | last n => rfl
  | join n rest =>
    rw [append, tree?, tree?]
    cases n.tree? with
    | none => rfl
    | some t => exact after?_append rest c' t

theorem Disjunction.tree?_append (d d' : Disjunction) :
    (d.append d').tree? = d.tree?.bind d'.after? := by
  cases d with
  | last c => rfl
  | join c rest =>
    rw [append, tree?, tree?]
    cases c.tree? with
    | none => rfl
    | some t => exact after?_append rest d' t

/-- A chain of `and` continued from a left side means `and` of both. -/
theorem Conjunction.after?_same : ∀ (c : Conjunction),
    (∀ left x, c.after? left = some x → ∃ r, c.tree? = some r) ∧
      ∀ left r, c.tree? = some r → ∃ x, c.after? left = some x ∧ Agrees x (.binary left .and r)
  | .last n => by
    refine ⟨?_, ?_⟩
    · intro left x hx
      obtain ⟨r, hr, -⟩ := Option.bind_eq_some_iff.mp hx
      exact ⟨r, hr⟩
    · intro left r hr
      have hn : n.tree? = some r := hr
      exact ⟨.binary left .and r, by rw [after?, hn]; rfl, Agrees.refl _⟩
  | .join n rest => by
    obtain ⟨hsome, hsame⟩ := after?_same rest
    refine ⟨?_, ?_⟩
    · intro left x hx
      obtain ⟨t, ht, hx⟩ := Option.bind_eq_some_iff.mp hx
      obtain ⟨q, hq⟩ := hsome _ _ hx
      obtain ⟨y, hy, -⟩ := hsame t q hq
      exact ⟨y, by rw [tree?, ht]; exact hy⟩
    · intro left r hr
      obtain ⟨t, ht, hr⟩ := Option.bind_eq_some_iff.mp hr
      obtain ⟨q, hq⟩ := hsome _ _ hr
      obtain ⟨y, hy, hyq⟩ := hsame t q hq
      rw [hr, Option.some.injEq] at hy
      subst hy
      obtain ⟨x, hx, hxq⟩ := hsame (.binary left .and t) q hq
      refine ⟨x, by rw [after?, ht]; exact hx, ?_, ?_⟩
      · exact (hxq.same.trans (Same.and_assoc left t q)).trans
          ((Same.refl left).binary .and hyq.same.symm)
      · intro type value heq
        obtain ⟨_, h⟩ := hxq.literal type value heq
        cases h

/-- A chain of `or` continued from a left side means `or` of both. -/
theorem Disjunction.after?_same : ∀ (d : Disjunction),
    (∀ left x, d.after? left = some x → ∃ r, d.tree? = some r) ∧
      ∀ left r, d.tree? = some r → ∃ x, d.after? left = some x ∧ Agrees x (.binary left .or r)
  | .last c => by
    refine ⟨?_, ?_⟩
    · intro left x hx
      obtain ⟨r, hr, -⟩ := Option.bind_eq_some_iff.mp hx
      exact ⟨r, hr⟩
    · intro left r hr
      have hc : c.tree? = some r := hr
      exact ⟨.binary left .or r, by rw [after?, hc]; rfl, Agrees.refl _⟩
  | .join c rest => by
    obtain ⟨hsome, hsame⟩ := after?_same rest
    refine ⟨?_, ?_⟩
    · intro left x hx
      obtain ⟨t, ht, hx⟩ := Option.bind_eq_some_iff.mp hx
      obtain ⟨q, hq⟩ := hsome _ _ hx
      obtain ⟨y, hy, -⟩ := hsame t q hq
      exact ⟨y, by rw [tree?, ht]; exact hy⟩
    · intro left r hr
      obtain ⟨t, ht, hr⟩ := Option.bind_eq_some_iff.mp hr
      obtain ⟨q, hq⟩ := hsome _ _ hr
      obtain ⟨y, hy, hyq⟩ := hsame t q hq
      rw [hr, Option.some.injEq] at hy
      subst hy
      obtain ⟨x, hx, hxq⟩ := hsame (.binary left .or t) q hq
      refine ⟨x, by rw [after?, ht]; exact hx, ?_, ?_⟩
      · exact (hxq.same.trans (Same.or_assoc left t q)).trans
          ((Same.refl left).binary .or hyq.same.symm)
      · intro type value heq
        obtain ⟨_, h⟩ := hxq.literal type value heq
        cases h

end Grammar

/-! ## Tokens that are read as an expression -/

/-- The tokens derive from a level of the grammar, and the derivation means what the expression means. -/
def Reads {δ : Type} (tokens : δ → List Token) (tree? : δ → Option Expr) (ts : List Token) (e : Expr) :
    Prop :=
  ∃ d e', tokens d = ts ∧ tree? d = some e' ∧ Agrees e' e

/-- The tokens are an operand. -/
abbrev AsOperand : List Token → Expr → Prop := Reads Operand.tokens Operand.tree?

/-- The tokens are a comparison. -/
abbrev AsComparison : List Token → Expr → Prop := Reads Comparison.tokens Comparison.tree?

/-- The tokens are a negation. -/
abbrev AsNegation : List Token → Expr → Prop := Reads Negation.tokens Negation.tree?

/-- The tokens are a conjunction. -/
abbrev AsConjunction : List Token → Expr → Prop := Reads Conjunction.tokens Conjunction.tree?

/-- The tokens are a disjunction. -/
abbrev AsDisjunction : List Token → Expr → Prop := Reads Disjunction.tokens Disjunction.tree?

section Levels

variable {ts ts₁ ts₂ : List Token} {e l r : Expr}

theorem AsOperand.comparison (h : AsOperand ts e) : AsComparison ts e := by
  obtain ⟨a, e', ha, he', hagrees⟩ := h
  exact ⟨.operand a, e', ha, he', hagrees⟩

theorem AsComparison.negation (h : AsComparison ts e) : AsNegation ts e := by
  obtain ⟨c, e', hc, he', hagrees⟩ := h
  exact ⟨.plain c, e', hc, he', hagrees⟩

theorem AsNegation.conjunction (h : AsNegation ts e) : AsConjunction ts e := by
  obtain ⟨n, e', hn, he', hagrees⟩ := h
  exact ⟨.last n, e', hn, he', hagrees⟩

theorem AsConjunction.disjunction (h : AsConjunction ts e) : AsDisjunction ts e := by
  obtain ⟨c, e', hc, he', hagrees⟩ := h
  exact ⟨.last c, e', hc, he', hagrees⟩

/-- Some tokens between parentheses. -/
def grouped (ts : List Token) : List Token := .openParen :: (ts ++ [.closeParen])

theorem AsDisjunction.grouped (h : AsDisjunction ts e) : AsOperand (grouped ts) e := by
  obtain ⟨d, e', rfl, he', hagrees⟩ := h
  exact ⟨.group d, e', rfl, he', hagrees⟩

theorem AsNegation.not (h : AsNegation ts e) : AsNegation (.operator "not" :: ts) (.unary .not e) := by
  obtain ⟨n, e', rfl, he', hagrees⟩ := h
  exact ⟨.not n, .unary .not e', rfl, by rw [Negation.tree?, he']; rfl, .unary (hagrees.same.unary .not)⟩

theorem AsConjunction.and (hl : AsConjunction ts₁ l) (hr : AsConjunction ts₂ r) :
    AsConjunction (ts₁ ++ .operator "and" :: ts₂) (.binary l .and r) := by
  obtain ⟨c, l', rfl, hl', hl⟩ := hl
  obtain ⟨c', r', rfl, hr', hr⟩ := hr
  obtain ⟨x, hx, hagrees⟩ := (Conjunction.after?_same c').2 l' r' hr'
  refine ⟨c.append c', x, c.tokens_append c', ?_, ?_, ?_⟩
  · rw [Conjunction.tree?_append, hl']
    exact hx
  · exact hagrees.same.trans (hl.same.binary .and hr.same)
  · intro type value heq
    obtain ⟨_, h⟩ := hagrees.literal type value heq
    cases h

theorem AsDisjunction.or (hl : AsDisjunction ts₁ l) (hr : AsDisjunction ts₂ r) :
    AsDisjunction (ts₁ ++ .operator "or" :: ts₂) (.binary l .or r) := by
  obtain ⟨d, l', rfl, hl', hl⟩ := hl
  obtain ⟨d', r', rfl, hr', hr⟩ := hr
  obtain ⟨x, hx, hagrees⟩ := (Disjunction.after?_same d').2 l' r' hr'
  refine ⟨d.append d', x, d.tokens_append d', ?_, ?_, ?_⟩
  · rw [Disjunction.tree?_append, hl']
    exact hx
  · exact hagrees.same.trans (hl.same.binary .or hr.same)
  · intro type value heq
    obtain ⟨_, h⟩ := hagrees.literal type value heq
    cases h

/-- Two operands with a comparator that is neither negated nor `in`. -/
theorem AsOperand.compare (hl : AsOperand ts₁ l) (hr : AsOperand ts₂ r) {sign : Comparator}
    (hsign : sign.isNegated = false) (hin : sign ≠ .isIn) :
    AsComparison (ts₁ ++ (sign.tokens ++ ts₂)) (.binary l sign.operator r) := by
  obtain ⟨a, l', rfl, hl', hl⟩ := hl
  obtain ⟨b, r', rfl, hr', hr⟩ := hr
  have hcombine : sign.combine l' r' = .binary l' sign.operator r' := by
    cases sign <;> first | exact absurd rfl hin | rfl | cases hsign
  refine ⟨.compare a sign b, sign.combine l' r', rfl, ?_, ?_⟩
  · rw [Comparison.tree?, hl', hr']
    rfl
  · rw [hcombine]
    exact .binary (hl.same.binary _ hr.same)

/-- Two operands with `in` between them. -/
theorem AsOperand.compareIn (hl : AsOperand ts₁ l) (hr : AsOperand ts₂ r)
    (hitem : ∀ type value, r = .literal type value → ∀ items, value ≠ .array items) :
    AsComparison (ts₁ ++ (Comparator.isIn.tokens ++ ts₂)) (.binary l .isIn r) := by
  obtain ⟨a, l', rfl, hl', hl⟩ := hl
  obtain ⟨b, r', rfl, hr', hr⟩ := hr
  refine ⟨.compare a .isIn b, Comparator.isIn.combine l' r', rfl, ?_, .binary ?_⟩
  · rw [Comparison.tree?, hl', hr']
    rfl
  · refine hl.same.isIn_listed hr.same ?_
    intro type value heq
    obtain ⟨type', h⟩ := hr.literal type value heq
    exact hitem type' value h

end Levels

end RecordQuery.Expr
