import RecordQuery.Proofs.Expr.Reading
set_option autoImplicit false

/-!
# Expr: operands and operators alternate

Where an operand may stand and where one has just ended is known from the tokens before: `Stage.after` reads
them from left to right and stops at anything out of turn, at unknown operators and at text outside the
language.  Whatever derives from the grammar takes it from one stage to the other (`Disjunction.stage_tokens`),
so that no two operands stand side by side in a format that is parsed (`alternates_of_parse`).
-/

namespace RecordQuery.Expr

open Format (Token Binding tokenize)
open Grammar

/-- What may come next. -/
inductive Stage where
  /-- an operand -/
  | wanted
  /-- an operator, a comma or a closing parenthesis, after an operand -/
  | given
  /-- a literal of a list placeholder, or its end -/
  | listed
  deriving DecidableEq, Repr, Inhabited

namespace Stage

/-- The words of operators, each on its own. -/
def words : List String :=
  ["or", "and", "not", "=", "!=", "<>", "<", ">", "<=", ">=", "!<", "!>", "like", "in", "is"]

/-- One token; none if it is out of turn. -/
def step : Token → Stage → Option Stage
  | .literal _ _, .listed => some .listed
  | .closeList, .listed => some .given
  | .literal _ _, .wanted => some .given
  | .null, .wanted => some .given
  | .field _ _ _, .wanted => some .given
  | .openParen, .wanted => some .wanted
  | .openList _, .wanted => some .listed
  | .closeParen, .given => some .given
  | .comma, .given => some .wanted
  | .operator "not", .listed => none
  | .operator "not", stage => some stage
  | .operator w, .given => if w ∈ words then some .wanted else none
  | _, _ => none

/-- The stage after some tokens. -/
def after : List Token → Stage → Option Stage
  | [], stage => some stage
  | t :: ts, stage => (step t stage).bind (after ts)

/-- Outside of a list placeholder only its opening token leads into one. -/
theorem step_ne_listed {t : Token} {stage next : Stage} (h : step t stage = some next) (hstage : stage ≠ .listed)
    (ht : ∀ type, t ≠ .openList type) : next ≠ .listed := by
  rintro rfl
  unfold step at h
  split at h <;> simp_all

/-- An operator that is in turn is one of the grammar. -/
theorem mem_words_of_step {w : String} {stage next : Stage} (h : step (.operator w) stage = some next) :
    w ∈ words := by
  unfold step at h
  split at h <;> simp_all [words]

/-- The tokens of a list placeholder are one operand. -/
theorem after_list (type : DataType) (items : List (DataType × Value)) (ts : List Token) :
    after (.openList type :: (items.map (fun i => Token.literal i.1 i.2) ++ .closeList :: ts)) .wanted =
      after ts .given := by
  have hitems : after (items.map (fun i => Token.literal i.1 i.2) ++ .closeList :: ts) .listed = after ts .given := by
    induction items with
    | nil => rfl
    | cons i rest ih => exact ih
  exact hitems

/-- A comparator wants its right side. -/
theorem after_sign (sign : Comparator) (ts : List Token) :
    after (sign.tokens ++ ts) .given = after ts .wanted := by
  cases sign <;> rfl

end Stage

open Stage

namespace Grammar

mutual

theorem Disjunction.stage_tokens : ∀ (d : Disjunction) (ts : List Token),
    after (d.tokens ++ ts) .wanted = after ts .given
  | .last c, ts => c.stage_tokens ts
  | .join c rest, ts => by
    rw [Disjunction.tokens, List.append_assoc, c.stage_tokens]
    exact rest.stage_tokens ts

theorem Conjunction.stage_tokens : ∀ (c : Conjunction) (ts : List Token),
    after (c.tokens ++ ts) .wanted = after ts .given
  | .last n, ts => n.stage_tokens ts
  | .join n rest, ts => by
    rw [Conjunction.tokens, List.append_assoc, n.stage_tokens]
    exact rest.stage_tokens ts

theorem Negation.stage_tokens : ∀ (n : Negation) (ts : List Token),
    after (n.tokens ++ ts) .wanted = after ts .given
  | .not n, ts => n.stage_tokens ts
  | .plain c, ts => c.stage_tokens ts

theorem Comparison.stage_tokens : ∀ (c : Comparison) (ts : List Token),
    after (c.tokens ++ ts) .wanted = after ts .given
  | .operand a, ts => a.stage_tokens ts
  | .compare left sign right, ts => by
    rw [Comparison.tokens, List.append_assoc, left.stage_tokens, List.append_assoc, after_sign]
    exact right.stage_tokens ts

theorem Operand.stage_tokens : ∀ (a : Operand) (ts : List Token),
    after (a.tokens ++ ts) .wanted = after ts .given
  | .literal _ _, _ => rfl
  | .null, _ => rfl
  | .field _ _ _, _ => rfl
  | .group d, ts => by
    show after (d.tokens ++ [.closeParen] ++ ts) .wanted = _
    rw [List.append_assoc, d.stage_tokens]
    rfl
  | .list first rest, ts => by
    show after ((first.tokens ++ .comma :: (rest.tokens ++ [.closeParen])) ++ ts) .wanted = _
    rw [List.append_assoc, first.stage_tokens]
    show after ((rest.tokens ++ [.closeParen]) ++ ts) .wanted = _
    rw [List.append_assoc, rest.stage_tokens]
    rfl
  | .tuple type items, ts => by
    rw [Operand.tokens, List.cons_append, List.append_assoc]
    exact after_list type items ts

theorem Items.stage_tokens : ∀ (i : Items) (ts : List Token),
    after (i.tokens ++ ts) .wanted = after ts .given
  | .last d, ts => d.stage_tokens ts
  | .join d rest, ts => by
    rw [Items.tokens, List.append_assoc, d.stage_tokens]
    exact rest.stage_tokens ts

end

end Grammar

/-- The tokens of a format that is parsed are read to the end, with an operand given. -/
theorem stage_of_parse {format : String} {b : Binding} {e : Expr} (h : parse format b = .ok e) :
    ∃ ts, tokenize format b = .ok ts ∧ after (ts.map Format.Spanned.token) .wanted = some .given := by
  obtain ⟨ts, hts, d, hd, -⟩ := exists_derives_of_parse h
  refine ⟨ts, hts, ?_⟩
  rw [← hd, ← List.append_nil d.tokens, d.stage_tokens]
  rfl

end RecordQuery.Expr
