import RecordQuery.Condition.Basic
import RecordQuery.Expr.Render
import RecordQuery.Format.Interpolation
set_option autoImplicit false

/-!
# Condition: predicates as SQL

A chain is written clause after clause with its glue between.  Beside other clauses, a clause that is itself
an `and` or `or` stands between parentheses, and so does a format that is SQL but no expression; a nested
chain always does.  A predicate without live clauses is the empty text.
-/

namespace RecordQuery

/-- Text between parentheses where needed. -/
def wrapped (needed : Bool) (text : String) : String := if needed then "(" ++ text ++ ")" else text

/-- Number of clauses that count for something. -/
def liveCount : List Clause → Nat
  | [] => 0
  | (_, c) :: rest => (if c.isBlank then 0 else 1) + liveCount rest

/-- The format is an expression without `and` or `or` at its root. -/
def isBareFormat (registry : Registry) (format : String) (args : List Value) : Bool :=
  match Expr.parse format ⟨args, registry⟩ with
  | .ok e => !e.isLogical
  | .error _ => false

mutual

/-- A condition as SQL; `several` tells whether other clauses stand beside it. -/
def Condition.sql (d : Dialect) (registry : Registry) (several : Bool) : Condition → Outcome String
  | .expr e => do return wrapped (several && e.isLogical) (← e.render d)
  | .text format args => do
    let text ← Format.interpolate d format ⟨args, registry⟩
    return wrapped (several && !isBareFormat registry format args) text
  | .group clauses negated => do
    let inner ← chainSql d registry (1 < liveCount clauses) true clauses
    return (if negated then "NOT (" else "(") ++ inner ++ ")"
termination_by structural c => c

/-- A chain as SQL; no glue stands before the first live clause. -/
def chainSql (d : Dialect) (registry : Registry) (several : Bool) :
    Bool → List (Glue × Condition) → Outcome String
  | _, [] => .ok ""
  | first, (glue, c) :: rest =>
    if c.isBlank then chainSql d registry several first rest
    else do
      let part ← c.sql d registry several
      let tail ← chainSql d registry several false rest
      return (if first then "" else " " ++ glue.sql ++ " ") ++ part ++ tail
termination_by structural _ cs => cs

end

/-- A predicate as SQL, the empty text where nothing is demanded. -/
def Predicate.sql (p : Predicate) (d : Dialect) (registry : Registry) : Outcome String := do
  let inner ← chainSql d registry (1 < liveCount p.clauses) true p.clauses
  return if inner = "" ∨ p.negated = false then inner else "NOT (" ++ inner ++ ")"

end RecordQuery
