import RecordQuery.Proofs.Expr.Rendering
set_option autoImplicit false

/-!
# Expr: comparisons do not chain

The grammar has one comparator between two operands, and no second one after them.  `run` checks no more than
that, with a flag for each open parenthesis that tells whether a comparator stood there since the last `and`,
`or` or comma; it also stops at text outside the language.  What derives from the grammar passes the check
(`Grammar.Disjunction.run_tokens`).  The tokens of a rendered expression pass it only if no comparison stands
directly on the left of a comparison (`isFlat_of_derives`).
-/

namespace RecordQuery.Expr

open Format (Token)
open Grammar

namespace Chaining

/-- One token: the flags after it, innermost first; none at a second comparator and at text outside the
language. -/
def step : Token → List Bool → Option (List Bool)
  | .raw _, _ => none
  | .openParen, flags => some (false :: flags)
  | .openList _, flags => some (false :: flags)
  | .closeParen, _ :: flags => some flags
  | .closeList, _ :: flags => some flags
  | .comma, _ :: flags => some (false :: flags)
  | .operator w, compared :: flags =>
    if w = "and" ∨ w = "or" then some (false :: flags)
    else if w = "not" then some (compared :: flags)
    else if compared then none
    else some (true :: flags)
  | _, flags => some flags

/-- The flags after some tokens. -/
def run : List Token → List Bool → Option (List Bool)
  | [], flags => some flags
  | t :: ts, flags => (step t flags).bind (run ts)

variable {flags : List Bool} {ts : List Token}

theorem run_append (ts us : List Token) (flags : List Bool) :
    run (ts ++ us) flags = (run ts flags).bind (run us) := by
  induction ts generalizing flags with
  | nil => rfl
  | cons t rest ih =>
    rw [List.cons_append, run, run]
    cases step t flags with
    | none => rfl
    | some after => exact ih after

/-- Between parentheses a chain of its own starts. -/
theorem run_grouped (ts : List Token) (flags : List Bool) :
    run (grouped ts) flags = (run ts (false :: flags)).bind (step .closeParen) := by
  show run (ts ++ [.closeParen]) (false :: flags) = _
  rw [run_append]
  congr 1
  funext after
  show (step .closeParen after).bind (run []) = _
  cases step .closeParen after <;> rfl

/-- What leaves one flag between parentheses leaves none. -/
theorem run_grouped_of_run {b : Bool} (h : run ts (false :: flags) = some (b :: flags)) :
    run (grouped ts) flags = some flags := by
  rw [run_grouped, h]
  rfl

/-- A comparator is the first one of its chain. -/
theorem run_sign (sign : Comparator) (compared : Bool) (flags : List Bool) :
    run sign.tokens (compared :: flags) = if compared then none else some (true :: flags) := by
  cases sign <;> cases compared <;> rfl

/-- Nothing that passes is outside the language. -/
theorem not_raw_of_run {after : List Bool} (h : run ts flags = some after) :
    ∀ text, Token.raw text ∉ ts := by
  induction ts generalizing flags with
  | nil => exact fun _ hmem => nomatch hmem
  | cons t rest ih =>
    obtain ⟨between, hstep, hrest⟩ := Option.bind_eq_some_iff.mp h
    intro text hmem
    rcases List.mem_cons.mp hmem with rfl | hmem
    · cases hstep
    · exact ih hrest text hmem

theorem run_literals (items : List (DataType × Value)) (flags : List Bool) :
    run (items.map fun i => Token.literal i.1 i.2) flags = some flags := by
  induction items with
  | nil => rfl
  | cons i rest ih => exact ih

end Chaining

open Chaining

/-! ## Derivations pass -/

namespace Grammar

mutual

theorem Disjunction.run_tokens : ∀ (d : Disjunction) (flags : List Bool),
    ∃ b, run d.tokens (false :: flags) = some (b :: flags)
  | .last c, flags => c.run_tokens flags
  | .join c rest, flags => by
    obtain ⟨b, hc⟩ := c.run_tokens flags
    obtain ⟨b', hrest⟩ := rest.run_tokens flags
    refine ⟨b', ?_⟩
    rw [Disjunction.tokens, run_append, hc]
    exact hrest

theorem Conjunction.run_tokens : ∀ (c : Conjunction) (flags : List Bool),
    ∃ b, run c.tokens (false :: flags) = some (b :: flags)
  | .last n, flags => n.run_tokens flags
  | .join n rest, flags => by
    obtain ⟨b, hn⟩ := n.run_tokens flags
    obtain ⟨b', hrest⟩ := rest.run_tokens flags
    refine ⟨b', ?_⟩
    rw [Conjunction.tokens, run_append, hn]
    exact hrest

theorem Negation.run_tokens : ∀ (n : Negation) (flags : List Bool),
    ∃ b, run n.tokens (false :: flags) = some (b :: flags)
  | .not n, flags => n.run_tokens flags
  | .plain c, flags => c.run_tokens flags

theorem Comparison.run_tokens : ∀ (c : Comparison) (flags : List Bool),
    ∃ b, run c.tokens (false :: flags) = some (b :: flags)
  | .operand a, flags => ⟨false, a.run_tokens (false :: flags)⟩
  | .compare left sign right, flags => by
    refine ⟨true, ?_⟩
    rw [Comparison.tokens, run_append, left.run_tokens, Option.bind_some, run_append, run_sign]
    exact right.run_tokens (true :: flags)

/-- An operand leaves the flags as they are. -/
theorem Operand.run_tokens : ∀ (a : Operand) (flags : List Bool), run a.tokens flags = some flags
  | .literal _ _, _ => rfl
  | .null, _ => rfl
  | .field _ _ _, _ => rfl
  | .group d, flags => by
    obtain ⟨b, hd⟩ := d.run_tokens flags
    exact run_grouped_of_run hd
  | .list first rest, flags => by
    obtain ⟨b, hfirst⟩ := first.run_tokens flags
    obtain ⟨b', hrest⟩ := rest.run_tokens flags
    have hitems : run (first.tokens ++ .comma :: rest.tokens) (false :: flags) = some (b' :: flags) := by
      rw [run_append, hfirst]
      exact hrest
    have hgrouped := run_grouped_of_run hitems
    rw [grouped, List.append_assoc, List.cons_append] at hgrouped
    exact hgrouped
  | .tuple type items, flags => by
    show run (_ ++ [.closeList]) (false :: flags) = _
    rw [run_append, run_literals]
    rfl

theorem Items.run_tokens : ∀ (i : Items) (flags : List Bool),
    ∃ b, run i.tokens (false :: flags) = some (b :: flags)
  | .last d, flags => d.run_tokens flags
  | .join d rest, flags => by
    obtain ⟨b, hd⟩ := d.run_tokens flags
    obtain ⟨b', hrest⟩ := rest.run_tokens flags
    refine ⟨b', ?_⟩
    rw [Items.tokens, run_append, hd]
    exact hrest

end

end Grammar

/-! ## Rendered expressions that pass are flat -/

theorem run_constantToken (v : Value) (ts : List Token) (flags : List Bool) :
    run (constantToken v :: ts) flags = run ts flags := by
  cases v <;> rfl

theorem run_constantTokens : ∀ (values : List Value) (flags : List Bool),
    run (constantTokens values) (false :: flags) = some (false :: flags)
  | [], _ => rfl
  | [v], flags => run_constantToken v [] _
  | v :: w :: rest, flags => by
    show run (constantToken v :: .comma :: constantTokens (w :: rest)) (false :: flags) = _
    rw [run_constantToken]
    exact run_constantTokens (w :: rest) flags

theorem run_list (type : DataType) (values : List Value) (flags : List Bool) :
    run (sqlTokens (.list type values)) flags = some flags := by
  refine run_grouped_of_run (b := false) ?_
  split
  · rfl
  · exact run_constantTokens values flags

/-- What has no operator at its root leaves the flags as they are. -/
theorem run_atom {e : Expr} (h : e.precedence? = none) (flags : List Bool) :
    run e.sqlTokens flags = some flags := by
  cases e with
  | literal type value => exact run_constantToken value [] flags
  | field ref => rfl
  | list type values => exact run_list type values flags
  | binary left op right => cases h
  | unary op operand => cases h

/-- What binds tighter than a comparison has no operator. -/
theorem precedence?_of_binding {e : Expr} (h : 4 < e.binding) : e.precedence? = none := by
  cases e with
  | binary left op right => exact absurd h (Nat.not_lt_of_le (precedence_le op))
  | unary op operand => exact absurd h (Nat.not_lt_of_le (precedence_le op))
  | _ => rfl

/-- Without an operator at its root, an expression leaves the flags, whatever they are. -/
theorem run_atom_flat {e : Expr} (h : e.precedence? = none) {flags after : List Bool}
    (hrun : run e.sqlTokens flags = some after) : e.isFlat = true ∧ after = flags := by
  rw [run_atom h, Option.some.injEq] at hrun
  cases e with
  | binary left op right => cases h
  | unary op operand => cases h
  | _ => exact ⟨rfl, hrun.symm⟩

/-- An operator that joins starts a chain; a comparator is the first one of its chain. -/
theorem run_operator {op : Operator} (hop : op ≠ .not) (compared : Bool) (flags : List Bool) :
    run op.sqlTokens (compared :: flags) =
      if op.isComparison then (if compared then none else some (true :: flags)) else some (false :: flags) := by
  cases op with
  | not => exact absurd rfl hop
  | or => rfl
  | and => rfl
  | _ => exact run_sign _ compared flags

/-- The tokens pass only for a flat expression, and a comparison leaves its flag. -/
def PassesFlat (e : Expr) : Prop :=
  ∀ flags after, run e.sqlTokens (false :: flags) = some after →
    e.isFlat = true ∧ ∃ b, after = b :: flags ∧ (e.isComparison = true → b = true)

theorem PassesFlat.of_atom {e : Expr} (h : e.precedence? = none) : PassesFlat e := by
  intro flags after hrun
  obtain ⟨hflat, rfl⟩ := run_atom_flat h hrun
  refine ⟨hflat, false, rfl, ?_⟩
  intro hcomparison
  cases e with
  | binary left op right => cases h
  | _ => cases hcomparison

theorem PassesFlat.grouped {e : Expr} (h : PassesFlat e) {flags after : List Bool}
    (hrun : run (grouped e.sqlTokens) flags = some after) : e.isFlat = true ∧ after = flags := by
  rw [run_grouped] at hrun
  obtain ⟨inner, hinner, hclose⟩ := Option.bind_eq_some_iff.mp hrun
  obtain ⟨hflat, b, rfl, -⟩ := h flags inner hinner
  exact ⟨hflat, (Option.some.inj hclose).symm⟩

/-- An operand beside an operator passes only if it is flat. -/
theorem PassesFlat.wrapped {e : Expr} (h : PassesFlat e) {parent : Nat} {strict : Bool}
    {flags after : List Bool} (hrun : run (wrapTokens e e.sqlTokens parent strict) (false :: flags) = some after) :
    e.isFlat = true ∧ ∃ b, after = b :: flags := by
  unfold wrapTokens at hrun
  split at hrun
  · obtain ⟨hflat, rfl⟩ := h.grouped hrun
    exact ⟨hflat, false, rfl⟩
  · obtain ⟨hflat, b, hafter, -⟩ := h flags after hrun
    exact ⟨hflat, b, hafter⟩

/-- A comparison on the left of a comparison has no parentheses, so that its flag stands before the second
comparator. -/
theorem PassesFlat.wrapped_left {e : Expr} (h : PassesFlat e) {flags after : List Bool}
    (hrun : run (wrapTokens e e.sqlTokens 4 false) (false :: flags) = some after)
    (hcomparison : e.isComparison = true) : after = true :: flags := by
  have hbinding : e.binding = 4 := by
    cases e with
    | binary left op right => exact beq_iff_eq.mp hcomparison
    | _ => cases hcomparison
  rw [wrapTokens, hbinding] at hrun
  obtain ⟨-, b, rfl, hb⟩ := h flags after hrun
  rw [hb hcomparison]

/-- The right side of a comparison passes only if it is flat, and it leaves the flags as they are. -/
theorem PassesFlat.wrapped_right {e : Expr} (h : PassesFlat e) {op : Operator} (hop : op.isComparison = true)
    {flags after : List Bool} (hrun : run (wrapRightTokens op e e.sqlTokens) flags = some after) :
    e.isFlat = true ∧ after = flags := by
  unfold wrapRightTokens at hrun
  split at hrun
  · split at hrun
    · rename_i hlist
      refine run_atom_flat ?_ hrun
      cases e <;> first | rfl | cases hlist
    · exact h.grouped hrun
  · rw [hop, beq_iff_eq.mp hop] at hrun
    unfold wrapTokens at hrun
    split at hrun
    · exact h.grouped hrun
    · rename_i hbinding
      refine run_atom_flat (precedence?_of_binding ?_) hrun
      simp only [Bool.true_and, Bool.or_eq_true, decide_eq_true_eq, beq_iff_eq] at hbinding
      omega

theorem PassesFlat.comparison {left right : Expr} {op : Operator} (hl : PassesFlat left)
    (hr : PassesFlat right) (hop : op.isComparison = true) : PassesFlat (.binary left op right) := by
  intro flags after hrun
  have hnot : op ≠ .not := by
    rintro rfl
    cases hop
  rw [sqlTokens, run_append, beq_iff_eq.mp hop] at hrun
  obtain ⟨between, hleft, hrun⟩ := Option.bind_eq_some_iff.mp hrun
  rw [run_append] at hrun
  obtain ⟨inside, hoperator, hright⟩ := Option.bind_eq_some_iff.mp hrun
  obtain ⟨hleftFlat, b, rfl⟩ := hl.wrapped hleft
  rw [run_operator hnot, if_pos hop] at hoperator
  cases b with
  | true => cases hoperator
  | false =>
    cases hoperator
    obtain ⟨hrightFlat, rfl⟩ := hr.wrapped_right hop hright
    have hleftComparison : left.isComparison = false := by
      rw [Bool.eq_false_iff]
      intro hcomparison
      cases hl.wrapped_left hleft hcomparison
    refine ⟨?_, true, rfl, fun _ => rfl⟩
    rw [isFlat, hleftFlat, hrightFlat, hleftComparison, Bool.and_false]
    rfl

theorem PassesFlat.joined {left right : Expr} {op : Operator} (hl : PassesFlat left) (hr : PassesFlat right)
    (hop : op = .and ∨ op = .or) : PassesFlat (.binary left op right) := by
  intro flags after hrun
  have hnot : op ≠ .not ∧ op.isComparison = false ∧
      wrapRightTokens op right right.sqlTokens = wrapTokens right right.sqlTokens op.precedence false := by
    rcases hop with rfl | rfl <;> exact ⟨by decide, rfl, rfl⟩
  obtain ⟨hnot, hcomparison, hwrap⟩ := hnot
  rw [sqlTokens, run_append, hwrap] at hrun
  obtain ⟨between, hleft, hrun⟩ := Option.bind_eq_some_iff.mp hrun
  rw [run_append] at hrun
  obtain ⟨inside, hoperator, hright⟩ := Option.bind_eq_some_iff.mp hrun
  obtain ⟨hleftFlat, b, rfl⟩ := hl.wrapped hleft
  rw [run_operator hnot, hcomparison] at hoperator
  cases hoperator
  obtain ⟨hrightFlat, b', rfl⟩ := hr.wrapped hright
  refine ⟨?_, b', rfl, ?_⟩
  · rw [isFlat, hleftFlat, hrightFlat, hcomparison]
    rfl
  · intro h
    rw [isComparison, hcomparison] at h
    cases h

theorem PassesFlat.not {e : Expr} (h : PassesFlat e) : PassesFlat (.unary .not e) := by
  intro flags after hrun
  have hoperand : run (if e.isCompound then Expr.grouped e.sqlTokens else e.sqlTokens) (false :: flags) =
      some after := hrun
  split at hoperand
  · obtain ⟨hflat, rfl⟩ := h.grouped hoperand
    exact ⟨hflat, false, rfl, fun hc => by cases hc⟩
  · obtain ⟨hflat, b, rfl, -⟩ := h flags after hoperand
    exact ⟨hflat, b, rfl, fun hc => by cases hc⟩

/-- The tokens of an expression pass only if no comparison stands directly on the left of a comparison. -/
theorem passesFlat : ∀ (e : Expr), e.isPlain = true → PassesFlat e
  | .literal _ _, _ => .of_atom rfl
  | .field _, _ => .of_atom rfl
  | .list _ _, _ => .of_atom rfl
  | .unary op operand, h => by
    obtain ⟨rfl, hoperand⟩ := isPlain_unary_iff.mp h
    exact (passesFlat operand hoperand).not
  | .binary left op right, h => by
    obtain ⟨hop, hleft, hright⟩ := isPlain_binary_iff.mp h
    have hl := passesFlat left hleft
    have hr : PassesFlat right := by
      rcases hright with hplain | ⟨-, hlist⟩
      · exact passesFlat right hplain
      · obtain ⟨type, values, rfl, -⟩ := isNativeList_iff.mp hlist
        exact .of_atom rfl
    cases op with
    | not => exact absurd rfl hop
    | and => exact hl.joined hr (.inl rfl)
    | or => exact hl.joined hr (.inr rfl)
    | _ => exact hl.comparison hr rfl

/-- Nothing outside the language derives from the grammar. -/
theorem not_raw_of_derives {ts : List Token} {e : Expr} (h : Derives ts e) (text : String) :
    Token.raw text ∉ ts := by
  obtain ⟨d, rfl, -⟩ := h
  obtain ⟨b, hrun⟩ := d.run_tokens []
  exact not_raw_of_run hrun text

/-- The tokens of a plain expression derive from the grammar only if it is flat. -/
theorem isFlat_of_derives {e e' : Expr} (h : e.isPlain = true) (hderives : Derives e.sqlTokens e') :
    e.isFlat = true := by
  obtain ⟨d, htokens, -⟩ := hderives
  obtain ⟨b, hrun⟩ := d.run_tokens []
  rw [htokens] at hrun
  exact (passesFlat e h [] _ hrun).1

end RecordQuery.Expr
