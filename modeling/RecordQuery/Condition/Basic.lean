import RecordQuery.Expr.Eval
import RecordQuery.Expr.OfTokens
set_option autoImplicit false

/-!
# Condition: clauses and predicates

A predicate is a chain of clauses glued by `and` and `or`, perhaps negated as a whole.  A clause is an
expression, a placeholder format with its values, or a nested chain.  Blank formats and chains without live
clauses count for nothing.  `and` binds tighter than `or`, and a chain without live clauses accepts
everything.
-/

namespace RecordQuery

/-- What a clause demands. -/
inductive Condition where
  | expr (e : Expr)
  /-- a placeholder format and its positional values -/
  | text (format : String) (args : List Value)
  | group (clauses : List (Glue × Condition)) (negated : Bool)
  deriving Inhabited

/-- A glued condition. -/
abbrev Clause := Glue × Condition

/-- A chain of clauses, perhaps negated. -/
structure Predicate where
  clauses : List Clause
  negated : Bool
  deriving Inhabited

mutual

/-- The condition counts for nothing. -/
def Condition.isBlank : Condition → Bool
  | .expr _ => false
  | .text format _ => Text.isAllBlank format.toList
  | .group clauses _ => !anyLive clauses
termination_by structural c => c

/-- Some clause counts for something. -/
def anyLive : List (Glue × Condition) → Bool
  | [] => false
  | (_, c) :: rest => !c.isBlank || anyLive rest
termination_by structural cs => cs

end

mutual

/-- Whether a condition holds. -/
def Condition.holds (s : Scope) (registry : Registry) : Condition → Outcome Bool
  | .expr e => e.holds s
  | .text format args => do (← Expr.parse format ⟨args, registry⟩).holds s
  | .group clauses negated =>
    if !anyLive clauses then .ok true
    else do return (← chainHolds s registry clauses true false true) != negated
termination_by structural c => c

/-- Whether a chain holds.  `first` until a live clause was seen, `any` when an earlier run of `and` was
true, `run` while the current run is true; a clause is looked at only while its run is true. -/
def chainHolds (s : Scope) (registry : Registry) :
    List (Glue × Condition) → Bool → Bool → Bool → Outcome Bool
  | [], _, any, run => .ok (any || run)
  | (glue, c) :: rest, first, any, run =>
    if c.isBlank then chainHolds s registry rest first any run
    else
      let newRun := !first && glue == .or
      let any := if newRun then any || run else any
      if newRun || run then do
        let run ← c.holds s registry
        chainHolds s registry rest false any run
      else chainHolds s registry rest false any false
termination_by structural cs => cs

end

namespace Predicate

/-- The predicate without clauses. -/
def empty : Predicate := ⟨[], false⟩

/-- The opposite of a predicate. -/
def negate (p : Predicate) : Predicate := { p with negated := !p.negated }

/-- Some clause counts for something. -/
def hasClauses (p : Predicate) : Bool := anyLive p.clauses

/-- The predicate with one more clause. -/
def push (p : Predicate) (glue : Glue) (c : Condition) : Predicate :=
  { p with clauses := p.clauses ++ [(glue, c)] }

/-- The predicate as a nested condition. -/
def toCondition (p : Predicate) : Condition := .group p.clauses p.negated

/-- Whether a predicate holds. -/
def holds (p : Predicate) (s : Scope) (registry : Registry) : Outcome Bool :=
  p.toCondition.holds s registry

end Predicate

/-- The expression of a condition, none for a nested chain. -/
def Condition.expr? (registry : Registry) : Condition → Outcome (Option Expr)
  | .expr e => .ok (some e)
  | .text format args => do return some (← Expr.parse format ⟨args, registry⟩)
  | .group _ _ => .ok none

end RecordQuery
