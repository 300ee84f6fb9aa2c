import RecordQuery.Proofs.Condition.Runs
set_option autoImplicit false

/-!
# Condition: which clauses are evaluated

Of each run a chain evaluates the clauses up to the first one that is not true (`evaluated`), one run after the
other, whatever earlier runs have shown.  The first of these evaluations that fails decides the outcome, and
without a fault some run has to be true throughout (`chainHolds_live`).
-/

namespace RecordQuery

section

variable (s : Scope) (registry : Registry)

/-- The condition holds, without a fault. -/
def Condition.isTrue (c : Condition) : Bool :=
  match c.holds s registry with
  | .ok truth => truth
  | .error _ => false

/-- The fault of a condition. -/
def Condition.fault? (c : Condition) : Option Fault :=
  match c.holds s registry with
  | .ok _ => none
  | .error fault => some fault

/-- The clauses of a run that are evaluated: none follows a clause that is not true. -/
def evaluated : List Condition → List Condition
  | [] => []
  | c :: rest => c :: if c.isTrue s registry then evaluated rest else []

/-- The outcome of runs: the first fault of an evaluation, else whether some run is true throughout. -/
def runsHold (any : Bool) (rs : List (List Condition)) : Outcome Bool :=
  match (rs.flatMap (evaluated s registry)).findSome? (Condition.fault? s registry) with
  | some fault => .error fault
  | none => .ok (any || rs.any fun run => run.all (Condition.isTrue s registry))

end

section

variable {s : Scope} {registry : Registry} {c : Condition} {truth : Bool} {fault : Fault}

theorem isTrue_of_ok (h : c.holds s registry = .ok truth) : c.isTrue s registry = truth := by
  rw [Condition.isTrue, h]

theorem isTrue_iff_ok : c.isTrue s registry = true ↔ c.holds s registry = .ok true := by
  rw [Condition.isTrue]
  cases c.holds s registry with
  | error => exact ⟨nofun, nofun⟩
  | ok truth => exact ⟨fun h => congrArg Except.ok h, Except.ok.inj⟩

theorem fault?_of_ok (h : c.holds s registry = .ok truth) : c.fault? s registry = none := by
  rw [Condition.fault?, h]

theorem fault?_eq_none : c.fault? s registry = none ↔ ∃ truth, c.holds s registry = .ok truth := by
  rw [Condition.fault?]
  cases c.holds s registry with
  | error => exact ⟨nofun, nofun⟩
  | ok truth => exact ⟨fun _ => ⟨truth, rfl⟩, fun _ => rfl⟩

theorem fault?_eq_some : c.fault? s registry = some fault ↔ c.holds s registry = .error fault := by
  rw [Condition.fault?]
  cases c.holds s registry with
  | error => exact ⟨fun h => congrArg Except.error (Option.some.inj h), fun h => congrArg some (Except.error.inj h)⟩
  | ok => exact ⟨nofun, nofun⟩

/-! ## Evaluated clauses -/

theorem flatten_runsAfter {α : Type} (run : List α) (items : List (Glue × α)) :
    (runsAfter run items).flatten = run ++ items.map Prod.snd := by
  induction items generalizing run with
  | nil => rw [runsAfter, List.flatten_singleton, List.map_nil, List.append_nil]
  | cons item rest ih =>
    obtain ⟨glue, a⟩ := item
    cases glue with
    | and => rw [runsAfter, ih, List.append_assoc]; rfl
    | or => rw [runsAfter, List.flatten_cons, ih]; rfl

/-- Runs are cut without loss. -/
theorem flatten_runs {α : Type} (items : List (Glue × α)) : (runs items).flatten = items.map Prod.snd := by
  cases items with
  | nil => rfl
  | cons item rest => exact flatten_runsAfter [item.2] rest

theorem evaluated_isPrefix (run : List Condition) : evaluated s registry run <+: run := by
  induction run with
  | nil => exact List.prefix_rfl
  | cons c rest ih =>
    rw [evaluated, List.cons_prefix_cons]
    refine ⟨rfl, ?_⟩
    split
    · exact ih
    · exact List.nil_prefix

/-- A run that goes on has its later clauses evaluated if the earlier ones are true. -/
theorem evaluated_append (run more : List Condition) :
    evaluated s registry (run ++ more) =
      evaluated s registry run ++ if run.all (Condition.isTrue s registry) then evaluated s registry more else [] := by
  induction run with
  | nil => rfl
  | cons c rest ih =>
    rw [List.cons_append, evaluated, evaluated, List.all_cons]
    cases c.isTrue s registry with
    | true => rw [if_pos rfl, if_pos rfl, ih, Bool.true_and, List.cons_append]
    | false => rfl

theorem evaluated_singleton (c : Condition) : evaluated s registry [c] = [c] := by
  rw [evaluated, evaluated, ite_self]

theorem evaluated_of_all {run : List Condition} (h : run.all (Condition.isTrue s registry) = true) :
    evaluated s registry run = run := by
  induction run with
  | nil => rfl
  | cons c rest ih =>
    rw [List.all_cons, Bool.and_eq_true] at h
    rw [evaluated, if_pos h.1, ih h.2]

/-- A clause is evaluated exactly where all the clauses of its run in front of it are true. -/
theorem evaluated_iff (before : List Condition) (c : Condition) (after : List Condition) :
    before ++ [c] <+: evaluated s registry (before ++ c :: after) ↔
      ∀ d ∈ before, d.holds s registry = .ok true := by
  have hall : (∀ d ∈ before, d.holds s registry = .ok true) ↔
      before.all (Condition.isTrue s registry) = true := by
    rw [List.all_eq_true]
    exact forall₂_congr fun d _ => isTrue_iff_ok.symm
  rw [hall, evaluated_append]
  constructor
  · intro h
    by_contra hfalse
    rw [if_neg hfalse, List.append_nil] at h
    have hlength := (h.trans (evaluated_isPrefix before)).length_le
    rw [List.length_append, List.length_singleton] at hlength
    omega
  · intro htrue
    rw [if_pos htrue, evaluated_of_all htrue, List.prefix_append_right_inj, evaluated, List.cons_prefix_cons]
    exact ⟨rfl, List.nil_prefix⟩

/-- What an open run has evaluated comes first, however the run goes on. -/
theorem evaluated_runsAfter (run : List Condition) (items : List (Glue × Condition)) :
    evaluated s registry run <+: (runsAfter run items).flatMap (evaluated s registry) := by
  induction items generalizing run with
  | nil => exact ⟨[], by rw [runsAfter, List.flatMap_singleton, List.append_nil]⟩
  | cons item rest ih =>
    obtain ⟨glue, c⟩ := item
    cases glue with
    | and =>
      have hrun : evaluated s registry run <+: evaluated s registry (run ++ [c]) := by
        rw [evaluated_append]
        exact List.prefix_append _ _
      exact hrun.trans (ih (run ++ [c]))
    | or =>
      rw [runsAfter, List.flatMap_cons]
      exact List.prefix_append _ _

/-! ## Faults of open runs -/

theorem findSome?_evaluated_singleton (c : Condition) :
    (evaluated s registry [c]).findSome? (Condition.fault? s registry) = c.fault? s registry := by
  rw [evaluated_singleton, List.findSome?_singleton]

/-- A clause can fail only where the run in front of it is true. -/
theorem findSome?_evaluated_concat {run : List Condition} (c : Condition)
    (hrun : (evaluated s registry run).findSome? (Condition.fault? s registry) = none) :
    (evaluated s registry (run ++ [c])).findSome? (Condition.fault? s registry) =
      if run.all (Condition.isTrue s registry) then c.fault? s registry else none := by
  rw [evaluated_append, List.findSome?_append, hrun, Option.none_or]
  split
  · exact findSome?_evaluated_singleton c
  · rfl

theorem all_concat (run : List Condition) (c : Condition) :
    (run ++ [c]).all (Condition.isTrue s registry) =
      (run.all (Condition.isTrue s registry) && c.isTrue s registry) := by
  rw [List.all_append, List.all_cons, List.all_nil, Bool.and_true]

theorem all_singleton_isTrue (hholds : c.holds s registry = .ok truth) :
    [c].all (Condition.isTrue s registry) = truth := by
  rw [List.all_cons, List.all_nil, Bool.and_true, isTrue_of_ok hholds]

/-! ## Outcomes of runs -/

/-- A closed run without a fault counts by its truth. -/
theorem runsHold_cons (any : Bool) {run : List Condition} (rs : List (List Condition))
    (hrun : (evaluated s registry run).findSome? (Condition.fault? s registry) = none) :
    runsHold s registry any (run :: rs) =
      runsHold s registry (any || run.all (Condition.isTrue s registry)) rs := by
  rw [runsHold, runsHold, List.flatMap_cons, List.findSome?_append, hrun, Option.none_or, List.any_cons,
    Bool.or_assoc]

/-- The fault of an open run is the outcome, however the run goes on. -/
theorem runsHold_error (any : Bool) {run : List Condition} (items : List (Glue × Condition))
    (hfault : (evaluated s registry run).findSome? (Condition.fault? s registry) = some fault) :
    runsHold s registry any (runsAfter run items) = .error fault := by
  obtain ⟨more, hmore⟩ : evaluated s registry run <+: _ := evaluated_runsAfter run items
  rw [runsHold, ← hmore, List.findSome?_append, hfault, Option.some_or]

section

variable {clauses rest : List (Glue × Condition)} {any : Bool}

/-- A run that is not true is not evaluated further. -/
theorem chainHolds_skip (hc : c.isBlank = false) :
    chainHolds s registry ((.and, c) :: rest) false any false = chainHolds s registry rest false any false := by
  rw [chainHolds, if_neg (by simp [hc])]
  rfl

theorem chainHolds_and_error (hc : c.isBlank = false) (hfault : c.holds s registry = .error fault) :
    chainHolds s registry ((.and, c) :: rest) false any true = .error fault := by
  rw [chainHolds, if_neg (by simp [hc]), hfault]
  rfl

theorem chainHolds_or_error (run : Bool) (hc : c.isBlank = false) (hfault : c.holds s registry = .error fault) :
    chainHolds s registry ((.or, c) :: rest) false any run = .error fault := by
  rw [chainHolds, if_neg (by simp [hc]), hfault]
  rfl

theorem chainHolds_first_error (glue : Glue) (hc : c.isBlank = false) (hfault : c.holds s registry = .error fault) :
    chainHolds s registry ((glue, c) :: rest) true false true = .error fault := by
  rw [chainHolds, if_neg (by simp [hc]), hfault]
  rfl

/-- The clauses that count. -/
def live (clauses : List (Glue × Condition)) : List (Glue × Condition) :=
  clauses.filter fun clause => !clause.2.isBlank

theorem live_blank (glue : Glue) (hc : c.isBlank = true) : live ((glue, c) :: rest) = live rest :=
  List.filter_cons_of_neg (by simp [hc])

theorem live_cons (glue : Glue) (hc : c.isBlank = false) : live ((glue, c) :: rest) = (glue, c) :: live rest :=
  List.filter_cons_of_pos (by simp [hc])

/-- A chain goes on with the truth `any` of its closed runs and with its open run, in which nothing failed. -/
theorem chainHolds_open (any : Bool) {run : List Condition} (clauses : List (Glue × Condition))
    (hrun : (evaluated s registry run).findSome? (Condition.fault? s registry) = none) :
    chainHolds s registry clauses false any (run.all (Condition.isTrue s registry)) =
      runsHold s registry any (runsAfter run (live clauses)) := by
  induction clauses generalizing any run with
  | nil =>
    show _ = runsHold s registry any [run]
    rw [runsHold_cons any [] hrun]
    show Except.ok _ = Except.ok _
    rw [List.any_nil, Bool.or_false]
  | cons clause rest ih =>
    obtain ⟨glue, c⟩ := clause
    cases hc : c.isBlank with
    | true =>
      rw [chainHolds_blank hc, live_blank glue hc]
      exact ih any hrun
    | false =>
      rw [live_cons glue hc]
      cases glue with
      | and =>
        show _ = runsHold s registry any (runsAfter (run ++ [c]) (live rest))
        have hconcat := findSome?_evaluated_concat c hrun
        have htruth : _ = (run.all (Condition.isTrue s registry) && _) := all_concat run c
        cases hall : run.all (Condition.isTrue s registry) with
        | false =>
          rw [hall, if_neg Bool.false_ne_true] at hconcat
          rw [hall, Bool.false_and] at htruth
          rw [chainHolds_skip hc, ← ih any hconcat, htruth]
        | true =>
          rw [hall, if_pos rfl] at hconcat
          rw [hall, Bool.true_and] at htruth
          cases hholds : c.holds s registry with
          | error fault =>
            rw [chainHolds_and_error hc hholds, runsHold_error any _ (hconcat.trans (fault?_eq_some.mpr hholds))]
          | ok truth =>
            rw [chainHolds_and hc hholds, Bool.true_and, ← ih any (hconcat.trans (fault?_of_ok hholds)), htruth,
              isTrue_of_ok hholds]
      | or =>
        show _ = runsHold s registry any (run :: runsAfter [c] (live rest))
        have hsingle : (evaluated s registry [c]).findSome? _ = _ := findSome?_evaluated_singleton c
        rw [runsHold_cons any _ hrun]
        cases hholds : c.holds s registry with
        | error fault =>
          rw [chainHolds_or_error _ hc hholds, runsHold_error _ _ (hsingle.trans (fault?_eq_some.mpr hholds))]
        | ok truth =>
          rw [chainHolds_or hc hholds, ← ih _ (hsingle.trans (fault?_of_ok hholds)), all_singleton_isTrue hholds]

/-- A chain with live clauses has the outcome of their runs. -/
theorem chainHolds_live (clauses : List (Glue × Condition)) (hlive : live clauses ≠ []) :
    chainHolds s registry clauses true false true = runsHold s registry false (runs (live clauses)) := by
  induction clauses with
  | nil => exact absurd rfl hlive
  | cons clause rest ih =>
    obtain ⟨glue, c⟩ := clause
    cases hc : c.isBlank with
    | true =>
      rw [live_blank glue hc] at hlive
      rw [chainHolds_blank hc, live_blank glue hc]
      exact ih hlive
    | false =>
      have hsingle : (evaluated s registry [c]).findSome? _ = _ := findSome?_evaluated_singleton c
      rw [live_cons glue hc]
      show _ = runsHold s registry false (runsAfter [c] (live rest))
      cases hholds : c.holds s registry with
      | error fault =>
        rw [chainHolds_first_error glue hc hholds,
          runsHold_error _ _ (hsingle.trans (fault?_eq_some.mpr hholds))]
      | ok truth =>
        rw [chainHolds_first hc hholds, ← chainHolds_open false rest (hsingle.trans (fault?_of_ok hholds)),
          all_singleton_isTrue hholds]

theorem anyLive_eq_false_iff (clauses : List (Glue × Condition)) : anyLive clauses = false ↔ live clauses = [] := by
  induction clauses with
  | nil => exact ⟨fun _ => rfl, fun _ => rfl⟩
  | cons clause rest ih =>
    obtain ⟨glue, c⟩ := clause
    rw [anyLive]
    cases hc : c.isBlank with
    | true => rw [live_blank glue hc, ← ih]; rfl
    | false => rw [live_cons glue hc]; exact iff_of_false (by simp) (List.cons_ne_nil _ _)

end

end

/-! ## Predicates -/

namespace Predicate

variable (p : Predicate) (s : Scope) (registry : Registry)

/-- The clauses of a predicate that are evaluated, in their order. -/
def evaluations : List Condition := (runs (live p.clauses)).flatMap (evaluated s registry)

/-- Some run of the live clauses is true throughout. -/
def someRunTrue : Bool := (runs (live p.clauses)).any fun run => run.all (Condition.isTrue s registry)

variable {p s registry}

theorem holds_of_live (hlive : live p.clauses ≠ []) :
    p.holds s registry =
      match (p.evaluations s registry).findSome? (Condition.fault? s registry) with
      | some fault => .error fault
      | none => .ok (p.someRunTrue s registry != p.negated) := by
  have hany : ¬ (!anyLive p.clauses) = true := by
    rw [Bool.not_eq_true', anyLive_eq_false_iff]
    exact hlive
  rw [holds, toCondition, Condition.holds, if_neg hany, chainHolds_live p.clauses hlive, runsHold, ← evaluations]
  cases (p.evaluations s registry).findSome? (Condition.fault? s registry) <;> rfl

theorem holds_of_not_live (hlive : live p.clauses = []) : p.holds s registry = .ok true := by
  rw [holds, toCondition, Condition.holds, (anyLive_eq_false_iff p.clauses).mpr hlive]
  rfl

/-- A predicate has an answer exactly where no evaluation fails. -/
theorem holds_eq_ok_iff (hlive : live p.clauses ≠ []) (truth : Bool) :
    p.holds s registry = .ok truth ↔
      (∀ c ∈ p.evaluations s registry, ∃ t, c.holds s registry = .ok t) ∧
        truth = (p.someRunTrue s registry != p.negated) := by
  have hnone : (p.evaluations s registry).findSome? (Condition.fault? s registry) = none ↔
      ∀ c ∈ p.evaluations s registry, ∃ t, c.holds s registry = .ok t :=
    List.findSome?_eq_none_iff.trans (forall₂_congr fun c _ => fault?_eq_none)
  rw [holds_of_live hlive, ← hnone]
  cases (p.evaluations s registry).findSome? (Condition.fault? s registry) with
  | some fault => exact ⟨nofun, nofun⟩
  | none => exact ⟨fun h => ⟨rfl, (Except.ok.inj h).symm⟩, fun h => congrArg Except.ok h.2.symm⟩

/-- A predicate fails with the fault of the first evaluation that fails. -/
theorem holds_eq_error_iff (hlive : live p.clauses ≠ []) (fault : Fault) :
    p.holds s registry = .error fault ↔
      ∃ before c after, p.evaluations s registry = before ++ c :: after ∧
        (∀ d ∈ before, ∃ t, d.holds s registry = .ok t) ∧ c.holds s registry = .error fault := by
  have hsome : (p.evaluations s registry).findSome? (Condition.fault? s registry) = some fault ↔
      ∃ before c after, p.evaluations s registry = before ++ c :: after ∧
        (∀ d ∈ before, ∃ t, d.holds s registry = .ok t) ∧ c.holds s registry = .error fault := by
    rw [List.findSome?_eq_some_iff]
    simp only [fault?_eq_none, fault?_eq_some]
    exact exists₃_congr fun _ _ _ => and_congr_right fun _ => and_comm
  rw [holds_of_live hlive, ← hsome]
  cases (p.evaluations s registry).findSome? (Condition.fault? s registry) with
  | some other => exact ⟨fun h => congrArg some (Except.error.inj h), fun h => congrArg Except.error (Option.some.inj h)⟩
  | none => exact ⟨nofun, nofun⟩

/-- Only live clauses are evaluated. -/
theorem exists_of_mem_evaluations {c : Condition} (hc : c ∈ p.evaluations s registry) :
    ∃ clause ∈ live p.clauses, clause.2 = c := by
  obtain ⟨run, hrun, hc⟩ := List.mem_flatMap.mp hc
  have hmem : c ∈ (runs (live p.clauses)).flatten :=
    List.mem_flatten.mpr ⟨run, hrun, (evaluated_isPrefix run).subset hc⟩
  rw [flatten_runs] at hmem
  exact List.mem_map.mp hmem

/-- A predicate without live clauses holds, negated or not.  With live clauses it holds if one of their runs is
true throughout, or if none is and it is negated, provided that no evaluation fails; else it fails with the
fault of the first one that does.  A clause is evaluated exactly where all clauses of its run in front of it are
true, and a nested chain is evaluated as a predicate. -/
theorem holds_by_runs (p : Predicate) (s : Scope) (registry : Registry) :
    (live p.clauses = [] → p.holds s registry = .ok true) ∧
      (live p.clauses ≠ [] →
        ((∀ clause ∈ live p.clauses, ∃ t, clause.2.holds s registry = .ok t) →
          p.holds s registry = .ok (p.someRunTrue s registry != p.negated)) ∧
        (∀ truth, p.holds s registry = .ok truth ↔
          (∀ c ∈ p.evaluations s registry, ∃ t, c.holds s registry = .ok t) ∧
            truth = (p.someRunTrue s registry != p.negated)) ∧
        ∀ fault, p.holds s registry = .error fault ↔
          ∃ before c after, p.evaluations s registry = before ++ c :: after ∧
            (∀ d ∈ before, ∃ t, d.holds s registry = .ok t) ∧ c.holds s registry = .error fault) ∧
      (∀ run ∈ runs (live p.clauses), evaluated s registry run <+: run ∧
        ∀ before c after, run = before ++ c :: after →
          (before ++ [c] <+: evaluated s registry run ↔ ∀ d ∈ before, d.holds s registry = .ok true)) ∧
      ∀ clauses negated,
        (Condition.group clauses negated).holds s registry = Predicate.holds ⟨clauses, negated⟩ s registry ∧
          ((Condition.group clauses negated).isBlank = true ↔ live clauses = []) := by
  refine ⟨holds_of_not_live, ?_, ?_, ?_⟩
  · intro hlive
    refine ⟨?_, holds_eq_ok_iff hlive, holds_eq_error_iff hlive⟩
    intro hclauses
    refine (holds_eq_ok_iff hlive _).mpr ⟨?_, rfl⟩
    intro c hc
    obtain ⟨clause, hmem, rfl⟩ := exists_of_mem_evaluations hc
    exact hclauses clause hmem
  · intro run _
    refine ⟨evaluated_isPrefix run, ?_⟩
    rintro before c after rfl
    exact evaluated_iff before c after
  · intro clauses negated
    refine ⟨rfl, ?_⟩
    rw [Condition.isBlank, Bool.not_eq_true', anyLive_eq_false_iff]

/-- A fault behind a false clause is not met; one at the start of a later run is, although an earlier run is
true. -/
theorem holds_by_runs_late_fault :
    let truth : Bool → Condition := fun b => .expr (.ofValue (.bool b))
    let failing : Operator → Condition := fun op => .expr (.unary op .null)
    let p : Predicate := ⟨[(.and, truth true), (.or, truth false), (.and, failing .eq), (.or, failing .like)], false⟩
    let s : Scope := Record.scope []
    live p.clauses ≠ [] ∧
      p.evaluations s [] = [truth true, truth false, failing .like] ∧
      p.holds s [] = .error (.unsupportedOperator Operator.like.describe) := by
  intro truth failing p s
  have hlive : live p.clauses ≠ [] := nofun
  have hbefore : ∀ d ∈ [truth true, truth false], ∃ t, d.holds s [] = .ok t :=
    List.forall_mem_cons.mpr ⟨⟨true, rfl⟩, List.forall_mem_cons.mpr ⟨⟨false, rfl⟩, List.forall_mem_nil _⟩⟩
  exact ⟨hlive, rfl, (((holds_by_runs p s []).2.1 hlive).2.2 _).mpr ⟨_, failing .like, [], rfl, hbefore, rfl⟩⟩

end Predicate

end RecordQuery
