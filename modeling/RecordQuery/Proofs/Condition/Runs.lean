import RecordQuery.Proofs.Condition.Chain
set_option autoImplicit false

/-!
# Condition: the runs of a chain

`and` binds tighter than `or`: glued clauses fall into runs, and a new one starts at every clause but the
first that is glued by `or`.  The loop that decides whether a chain holds carries the truth of the runs it has
closed and of the one that is open (`chainHolds_after`), so a chain holds if some run of its live clauses
holds throughout (`chainHolds_eq`).
-/

namespace RecordQuery

section

variable {α β : Type}

/-- The runs of glued items that follow an open run. -/
def runsAfter (run : List α) : List (Glue × α) → List (List α)
  | [] => [run]
  | (.and, a) :: rest => runsAfter (run ++ [a]) rest
  | (.or, a) :: rest => run :: runsAfter [a] rest

/-- The runs of glued items; the glue of the first item counts for nothing. -/
def runs : List (Glue × α) → List (List α)
  | [] => []
  | (_, a) :: rest => runsAfter [a] rest

theorem runsAfter_map (f : α → β) (items : List (Glue × α)) (run : List α) :
    runsAfter (run.map f) (items.map (Prod.map id f)) = (runsAfter run items).map (List.map f) := by
  induction items generalizing run with
  | nil => rfl
  | cons item rest ih =>
    obtain ⟨glue, a⟩ := item
    cases glue with
    | and =>
      have hopen := ih (run ++ [a])
      rw [List.map_append] at hopen
      exact hopen
    | or => exact congrArg (run.map f :: ·) (ih [a])

/-- Runs are cut at the glue, whatever is glued. -/
theorem runs_map (f : α → β) (items : List (Glue × α)) :
    runs (items.map (Prod.map id f)) = (runs items).map (List.map f) := by
  cases items with
  | nil => rfl
  | cons item rest => exact runsAfter_map f rest [item.2]

end

/-- Some run is true throughout. -/
def someRun (truths : List (List Bool)) : Bool := truths.any fun run => run.all id

theorem all_singleton (truth : Bool) : [truth].all id = truth := Bool.and_true truth

/-- The truths of the live clauses of a chain. -/
def liveTruths (s : Scope) (registry : Registry) (clauses : List Clause) : Outcome (List (Glue × Bool)) :=
  (clauses.filter fun clause => !clause.2.isBlank).mapM fun clause => do
    return (clause.1, ← clause.2.holds s registry)

section

variable {s : Scope} {registry : Registry} {glue : Glue} {c : Condition} {rest : List (Glue × Condition)}

theorem liveTruths_blank (hc : c.isBlank = true) :
    liveTruths s registry ((glue, c) :: rest) = liveTruths s registry rest := by
  rw [liveTruths, List.filter_cons_of_neg (by simp [hc])]
  rfl

theorem liveTruths_cons (hc : c.isBlank = false) :
    liveTruths s registry ((glue, c) :: rest) = (do
      let truth ← c.holds s registry
      return (glue, truth) :: (← liveTruths s registry rest)) := by
  rw [liveTruths, List.filter_cons_of_pos (by simp [hc]), List.mapM_cons, bind_assoc]
  rfl

/-- The truths of a chain with a live clause in front are that of the clause and those of the others. -/
theorem liveTruths_live (hc : c.isBlank = false) {truths : List (Glue × Bool)}
    (h : liveTruths s registry ((glue, c) :: rest) = .ok truths) :
    ∃ truth more, c.holds s registry = .ok truth ∧ liveTruths s registry rest = .ok more ∧
      truths = (glue, truth) :: more := by
  rw [liveTruths_cons hc] at h
  obtain ⟨truth, htruth, h⟩ := Outcome.bind_eq_ok.mp h
  obtain ⟨more, hmore, h⟩ := Outcome.bind_eq_ok.mp h
  cases h
  exact ⟨truth, more, htruth, hmore, rfl⟩

/-- A chain goes on with the truth `any` of its closed runs and with its open run. -/
theorem chainHolds_after (any : Bool) (run : List Bool) {clauses : List (Glue × Condition)}
    {truths : List (Glue × Bool)} (h : liveTruths s registry clauses = .ok truths) :
    chainHolds s registry clauses false any (run.all id) = .ok (any || someRun (runsAfter run truths)) := by
  induction clauses generalizing any run truths with
  | nil =>
    cases h
    show Except.ok _ = Except.ok (any || (run.all id || false))
    rw [Bool.or_false]
  | cons clause rest ih =>
    obtain ⟨glue, c⟩ := clause
    cases hc : c.isBlank with
    | true =>
      rw [liveTruths_blank hc] at h
      rw [chainHolds_blank hc]
      exact ih any run h
    | false =>
      obtain ⟨truth, more, htruth, hmore, rfl⟩ := liveTruths_live hc h
      cases glue with
      | and =>
        have hopen : (run ++ [truth]).all id = (run.all id && truth) := by simp
        rw [chainHolds_and hc htruth, ← hopen]
        exact ih any (run ++ [truth]) hmore
      | or =>
        have hrest := ih (any || run.all id) [truth] hmore
        rw [all_singleton, Bool.or_assoc] at hrest
        rw [chainHolds_or hc htruth]
        exact hrest

/-- A chain with live clauses holds if some run of them does; without, it holds. -/
theorem chainHolds_eq {clauses : List (Glue × Condition)} {truths : List (Glue × Bool)}
    (h : liveTruths s registry clauses = .ok truths) :
    chainHolds s registry clauses true false true = .ok (truths.isEmpty || someRun (runs truths)) := by
  induction clauses generalizing truths with
  | nil =>
    cases h
    rfl
  | cons clause rest ih =>
    obtain ⟨glue, c⟩ := clause
    cases hc : c.isBlank with
    | true =>
      rw [liveTruths_blank hc] at h
      rw [chainHolds_blank hc]
      exact ih h
    | false =>
      obtain ⟨truth, more, htruth, hmore, rfl⟩ := liveTruths_live hc h
      have hrest := chainHolds_after false [truth] hmore
      rw [all_singleton] at hrest
      rw [chainHolds_first hc htruth]
      exact hrest.trans (congrArg Except.ok (Bool.false_or _))

/-- The chain has live clauses exactly when it has truths of such. -/
theorem anyLive_eq {clauses : List (Glue × Condition)} {truths : List (Glue × Bool)}
    (h : liveTruths s registry clauses = .ok truths) : anyLive clauses = !truths.isEmpty := by
  induction clauses generalizing truths with
  | nil =>
    cases h
    rfl
  | cons clause rest ih =>
    obtain ⟨glue, c⟩ := clause
    cases hc : c.isBlank with
    | true =>
      rw [liveTruths_blank hc] at h
      rw [anyLive, hc]
      exact ih h
    | false =>
      obtain ⟨truth, more, -, -, rfl⟩ := liveTruths_live hc h
      rw [anyLive, hc]
      rfl

/-- A nested chain holds if some run of its live clauses does, or if none of its clauses is live; the
negation counts only where some clause is live. -/
theorem group_holds_eq {clauses : List (Glue × Condition)} {truths : List (Glue × Bool)} (negated : Bool)
    (h : liveTruths s registry clauses = .ok truths) :
    (Condition.group clauses negated).holds s registry =
      .ok (truths.isEmpty || (someRun (runs truths) != negated)) := by
  rw [Condition.holds, anyLive_eq h, chainHolds_eq h, Bool.not_not]
  cases truths.isEmpty with
  | true => rfl
  | false => rfl

end

end RecordQuery
