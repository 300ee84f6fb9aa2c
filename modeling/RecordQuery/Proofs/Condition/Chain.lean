import RecordQuery.Condition.Render
import RecordQuery.Proofs.Expr.RoundTrip
set_option autoImplicit false

/-!
# Condition: chains of clauses as text

`ReadsAs` says that a text is read at a level of the grammar as an expression with a given truth.  A chain of
clauses is written from left to right, and so is the loop that decides whether it holds: `Chained` is the
state that both are in after some clauses.  One lemma for each glue takes it a clause further, and
`chain_rest` goes through all of them.
-/

namespace RecordQuery

open Format (Token Spells)
open RecordQuery.Expr (AsNegation AsConjunction AsDisjunction)

/-! ## Truth of operations -/

namespace Expr

variable {e f : Expr} {s : Scope} {a b : Bool}

theorem holds_eq_ok : e.holds s = .ok a ↔ ∃ v, e.evaluate s = .ok v ∧ v.truthy = a := by
  constructor
  · intro h
    obtain ⟨v, hv, h⟩ := Outcome.bind_eq_ok.mp h
    cases h
    exact ⟨v, hv, rfl⟩
  · rintro ⟨v, hv, rfl⟩
    rw [holds, hv]
    rfl

theorem Same.holds (h : Same e f) (s : Scope) : e.holds s = f.holds s := by
  rw [Expr.holds, Expr.holds, h s]

/-- What has a value everywhere has a truth everywhere. -/
theorem Evaluates.holds (h : Evaluates e) : ∃ truth : Scope → Bool, ∀ s, e.holds s = .ok (truth s) := by
  refine ⟨fun s => (e.holds s).toOption.getD false, ?_⟩
  intro s
  obtain ⟨v, hv⟩ := h s
  have hholds : e.holds s = .ok v.truthy := holds_eq_ok.mpr ⟨v, hv, rfl⟩
  show e.holds s = .ok ((e.holds s).toOption.getD false)
  rw [hholds]
  rfl

theorem holds_and (he : e.holds s = .ok a) (hf : f.holds s = .ok b) :
    (Expr.binary e .and f).holds s = .ok (a && b) := by
  obtain ⟨v, hv, rfl⟩ := holds_eq_ok.mp he
  obtain ⟨w, hw, rfl⟩ := holds_eq_ok.mp hf
  rw [holds_eq_ok]
  simp only [evaluate, hv, hw, Outcome.ok_bind]
  cases v.truthy <;> exact ⟨_, rfl, rfl⟩

theorem holds_or (he : e.holds s = .ok a) (hf : f.holds s = .ok b) :
    (Expr.binary e .or f).holds s = .ok (a || b) := by
  obtain ⟨v, hv, rfl⟩ := holds_eq_ok.mp he
  obtain ⟨w, hw, rfl⟩ := holds_eq_ok.mp hf
  rw [holds_eq_ok]
  simp only [evaluate, hv, hw, Outcome.ok_bind]
  cases v.truthy <;> exact ⟨_, rfl, rfl⟩

theorem holds_not (he : e.holds s = .ok a) : (Expr.unary .not e).holds s = .ok (!a) := by
  obtain ⟨v, hv, rfl⟩ := holds_eq_ok.mp he
  refine holds_eq_ok.mpr ⟨.bool (!v.truthy), ?_, rfl⟩
  rw [evaluate, hv]
  rfl

end Expr

/-! ## Texts with a truth -/

/-- The text is read at a level of the grammar as an expression with this truth. -/
def ReadsAs (level : List Token → Expr → Prop) (text : String) (truth : Scope → Bool) : Prop :=
  ∃ ts e, Spells text.toList ts ∧ level ts e ∧ ∀ s, e.holds s = .ok (truth s)

namespace ReadsAs

variable {text : String} {truth : Scope → Bool}

theorem conjunction (h : ReadsAs AsNegation text truth) : ReadsAs AsConjunction text truth := by
  obtain ⟨ts, e, hspells, hread, hholds⟩ := h
  exact ⟨ts, e, hspells, hread.conjunction, hholds⟩

theorem disjunction (h : ReadsAs AsConjunction text truth) : ReadsAs AsDisjunction text truth := by
  obtain ⟨ts, e, hspells, hread, hholds⟩ := h
  exact ⟨ts, e, hspells, hread.disjunction, hholds⟩

theorem parens (h : ReadsAs AsDisjunction text truth) : ReadsAs AsNegation ("(" ++ text ++ ")") truth := by
  obtain ⟨ts, e, hspells, hread, hholds⟩ := h
  exact ⟨Expr.grouped ts, e, Expr.spells_parens hspells, hread.grouped.comparison.negation, hholds⟩

theorem not (h : ReadsAs AsDisjunction text truth) :
    ReadsAs AsNegation ("NOT (" ++ text ++ ")") fun s => !truth s := by
  obtain ⟨ts, e, hspells, hread, hholds⟩ := h
  exact ⟨_, .unary .not e, Expr.spells_not_parens hspells, hread.grouped.comparison.negation.not,
    fun s => Expr.holds_not (hholds s)⟩

/-- Parsing such a text gives an expression with its truth. -/
theorem parse (h : ReadsAs AsDisjunction text truth) (b : Format.Binding) :
    ∃ e, Expr.parse text b = .ok e ∧ ∀ s, e.holds s = .ok (truth s) := by
  obtain ⟨ts, e, hspells, hread, hholds⟩ := h
  obtain ⟨e', hparse, hagrees⟩ := Expr.parse_of_reads hspells hread b
  exact ⟨e', hparse, fun s => (hagrees.same.holds s).trans (hholds s)⟩

theorem ne_empty (h : ReadsAs AsDisjunction text truth) : text ≠ "" := by
  obtain ⟨ts, e, hspells, ⟨d, e', htokens, -⟩, -⟩ := h
  rintro rfl
  cases hspells
  exact d.tokens_ne_nil htokens

end ReadsAs

/-! ## Clause after clause -/

/-- What is written of a chain so far: a run of `and` that is open, with the runs before it that `or` closed.
`any` is the truth of those, `run` that of the open one. -/
def Chained (text : String) (any run : Scope → Bool) : Prop :=
  (ReadsAs AsConjunction text run ∧ ∀ s, any s = false) ∨
    ∃ ts us e f, Spells text.toList (ts ++ .operator "or" :: us) ∧ AsDisjunction ts e ∧ AsConjunction us f ∧
      (∀ s, e.holds s = .ok (any s)) ∧ ∀ s, f.holds s = .ok (run s)

namespace Chained

variable {text part : String} {any run truth : Scope → Bool}

/-- A chain starts with a part of its own. -/
theorem start (h : ReadsAs AsNegation part truth) : Chained part (fun _ => false) truth :=
  .inl ⟨h.conjunction, fun _ => rfl⟩

/-- The whole chain holds if an earlier run or the open one does. -/
theorem reads (h : Chained text any run) : ReadsAs AsDisjunction text fun s => any s || run s := by
  rcases h with ⟨⟨ts, e, hspells, hread, hholds⟩, hany⟩ | ⟨ts, us, e, f, hspells, he, hf, hany, hrun⟩
  · refine ⟨ts, e, hspells, hread.disjunction, ?_⟩
    intro s
    show e.holds s = .ok (any s || run s)
    rw [hany, Bool.false_or]
    exact hholds s
  · exact ⟨_, _, hspells, he.or hf.disjunction, fun s => Expr.holds_or (hany s) (hrun s)⟩

/-- After `and`, the open run goes on. -/
theorem and (h : Chained text any run) (hpart : ReadsAs AsNegation part truth) :
    Chained (text ++ (" " ++ Glue.and.sql ++ " ") ++ part) any fun s => run s && truth s := by
  obtain ⟨vs, g, hpartSpells, hg, hpartHolds⟩ := hpart
  rcases h with ⟨⟨ts, e, hspells, hread, hholds⟩, hany⟩ | ⟨ts, us, e, f, hspells, he, hf, hany, hrun⟩
  · refine .inl ⟨⟨_, _, Expr.spells_operation .and hspells hpartSpells, hread.and hg.conjunction, ?_⟩, hany⟩
    exact fun s => Expr.holds_and (hholds s) (hpartHolds s)
  · have hjoined := Expr.spells_operation .and hspells hpartSpells
    rw [List.append_assoc, List.cons_append] at hjoined
    exact .inr ⟨ts, _, e, _, hjoined, he, hf.and hg.conjunction, hany,
      fun s => Expr.holds_and (hrun s) (hpartHolds s)⟩

/-- After `or`, the open run is closed and another one starts. -/
theorem or (h : Chained text any run) (hpart : ReadsAs AsNegation part truth) :
    Chained (text ++ (" " ++ Glue.or.sql ++ " ") ++ part) (fun s => any s || run s) truth := by
  obtain ⟨ts, e, hspells, hread, hholds⟩ := h.reads
  obtain ⟨us, f, hpartSpells, hf, hpartHolds⟩ := hpart
  exact .inr ⟨ts, us, e, f, Expr.spells_operation .or hspells hpartSpells, hread, hf.conjunction, hholds,
    hpartHolds⟩

end Chained

section

variable {s : Scope} {registry : Registry} {glue : Glue} {c : Condition} {rest : List (Glue × Condition)}
variable {first any run truth : Bool}

theorem chainHolds_blank (hc : c.isBlank = true) :
    chainHolds s registry ((glue, c) :: rest) first any run = chainHolds s registry rest first any run := by
  rw [chainHolds, if_pos hc]

/-- The glue of the first clause counts for nothing. -/
theorem chainHolds_first (hc : c.isBlank = false) (hholds : c.holds s registry = .ok truth) :
    chainHolds s registry ((glue, c) :: rest) true false true = chainHolds s registry rest false false truth := by
  rw [chainHolds, if_neg (by simp [hc]), hholds]
  rfl

theorem chainHolds_and (hc : c.isBlank = false) (hholds : c.holds s registry = .ok truth) :
    chainHolds s registry ((.and, c) :: rest) false any run =
      chainHolds s registry rest false any (run && truth) := by
  rw [chainHolds, if_neg (by simp [hc]), hholds]
  cases run <;> rfl

theorem chainHolds_or (hc : c.isBlank = false) (hholds : c.holds s registry = .ok truth) :
    chainHolds s registry ((.or, c) :: rest) false any run =
      chainHolds s registry rest false (any || run) truth := by
  rw [chainHolds, if_neg (by simp [hc]), hholds]
  rfl

end

/-- A condition has a truth everywhere, and it is written as a text with that truth; beside other clauses the
text may stand between `and` and `or`. -/
def Condition.Compiles (registry : Registry) (c : Condition) : Prop :=
  ∃ truth : Scope → Bool, (∀ s, c.holds s registry = .ok (truth s)) ∧
    ∀ several, ∃ text, c.sql .postgres registry several = .ok text ∧
      ReadsAs (if several then AsNegation else AsDisjunction) text truth

section

variable {registry : Registry}

/-- The clauses after the first one take a chain further. -/
theorem chain_rest : ∀ (clauses : List (Glue × Condition)),
    (∀ clause ∈ clauses, clause.2.isBlank = false → clause.2.Compiles registry) →
    ∃ tail, chainSql .postgres registry true false clauses = .ok tail ∧
      ∀ {text : String} {any run : Scope → Bool}, Chained text any run →
        ∃ truth : Scope → Bool, (∀ s, chainHolds s registry clauses false (any s) (run s) = .ok (truth s)) ∧
          ReadsAs AsDisjunction (text ++ tail) truth
  | [], _ => by
    refine ⟨"", rfl, ?_⟩
    intro text any run hchained
    rw [String.append_empty]
    exact ⟨_, fun _ => rfl, hchained.reads⟩
  | (glue, c) :: rest, h => by
    obtain ⟨tail, htail, hrest⟩ := chain_rest rest fun clause hmem => h clause (List.mem_cons_of_mem _ hmem)
    cases hc : c.isBlank with
    | true =>
      refine ⟨tail, by rw [chainSql, if_pos hc]; exact htail, ?_⟩
      intro text any run hchained
      obtain ⟨truth, hholds, hreads⟩ := hrest hchained
      exact ⟨truth, fun s => (chainHolds_blank hc).trans (hholds s), hreads⟩
    | false =>
      obtain ⟨truth, hholds, hsql⟩ := h _ List.mem_cons_self hc
      obtain ⟨part, hpart, hread⟩ := hsql true
      have hread : ReadsAs AsNegation part truth := hread
      refine ⟨" " ++ glue.sql ++ " " ++ part ++ tail, ?_, ?_⟩
      · rw [chainSql, if_neg (by simp [hc]), hpart, htail]
        rfl
      · intro text any run hchained
        have htext : text ++ (" " ++ glue.sql ++ " " ++ part ++ tail) =
            text ++ (" " ++ glue.sql ++ " ") ++ part ++ tail := by
          simp only [String.append_assoc]
        rw [htext]
        cases glue with
        | and =>
          obtain ⟨whole, hwhole, hreads⟩ := hrest (hchained.and hread)
          exact ⟨whole, fun s => (chainHolds_and hc (hholds s)).trans (hwhole s), hreads⟩
        | or =>
          obtain ⟨whole, hwhole, hreads⟩ := hrest (hchained.or hread)
          exact ⟨whole, fun s => (chainHolds_or hc (hholds s)).trans (hwhole s), hreads⟩

/-- Clauses that count for nothing are not written, and they decide nothing. -/
theorem chain_dead (registry : Registry) : ∀ (clauses : List (Glue × Condition)), anyLive clauses = false →
    (∀ several first, chainSql .postgres registry several first clauses = .ok "") ∧
      ∀ s first any run, chainHolds s registry clauses first any run = .ok (any || run)
  | [], _ => ⟨fun _ _ => rfl, fun _ _ _ _ => rfl⟩
  | (glue, c) :: rest, h => by
    rw [anyLive, Bool.or_eq_false_iff, Bool.not_eq_false'] at h
    obtain ⟨hsql, hholds⟩ := chain_dead registry rest h.2
    refine ⟨?_, ?_⟩
    · intro several first
      rw [chainSql, if_pos h.1]
      exact hsql several first
    · intro s first any run
      exact (chainHolds_blank h.1).trans (hholds s first any run)

theorem anyLive_eq_decide : ∀ (clauses : List (Glue × Condition)), anyLive clauses = decide (0 < liveCount clauses)
  | [] => rfl
  | (glue, c) :: rest => by
    rw [anyLive, liveCount, anyLive_eq_decide rest]
    cases c.isBlank with
    | true => simp
    | false => simp [Nat.add_comm 1]

/-- The clauses are written as a text with the truth of their chain. -/
def ChainCompiles (registry : Registry) (clauses : List (Glue × Condition)) : Prop :=
  ∃ text truth, chainSql .postgres registry (1 < liveCount clauses) true clauses = .ok text ∧
    (∀ s, chainHolds s registry clauses true false true = .ok (truth s)) ∧ ReadsAs AsDisjunction text truth

variable {glue : Glue} {c : Condition} {rest : List (Glue × Condition)}

theorem chain_blank (hc : c.isBlank = true) (h : ChainCompiles registry rest) :
    ChainCompiles registry ((glue, c) :: rest) := by
  obtain ⟨text, truth, hsql, hholds, hreads⟩ := h
  refine ⟨text, truth, ?_, fun s => (chainHolds_blank hc).trans (hholds s), hreads⟩
  rw [liveCount, if_pos hc, Nat.zero_add, chainSql, if_pos hc]
  exact hsql

/-- The only clause that counts is the whole chain. -/
theorem chain_only (hc : c.isBlank = false) (hrest : anyLive rest = false) (h : c.Compiles registry) :
    ChainCompiles registry ((glue, c) :: rest) := by
  have hsingle : decide (1 < liveCount ((glue, c) :: rest)) = false := by
    rw [anyLive_eq_decide, decide_eq_false_iff_not] at hrest
    rw [liveCount, if_neg (by simp [hc])]
    exact decide_eq_false (by omega)
  obtain ⟨truth, hholds, hsql⟩ := h
  obtain ⟨hnothing, hsame⟩ := chain_dead registry rest hrest
  obtain ⟨part, hpart, hread⟩ := hsql false
  refine ⟨part, truth, ?_, ?_, hread⟩
  · rw [hsingle, chainSql, if_neg (by simp [hc]), hpart, hnothing]
    show Except.ok _ = _
    simp
  · intro s
    rw [chainHolds_first hc (hholds s), hsame, Bool.false_or]

/-- Where more clauses count, the first one starts the chain. -/
theorem chain_several (hc : c.isBlank = false) (hrest : anyLive rest = true) (h : c.Compiles registry)
    (hclauses : ∀ clause ∈ rest, clause.2.isBlank = false → clause.2.Compiles registry) :
    ChainCompiles registry ((glue, c) :: rest) := by
  have hseveral : decide (1 < liveCount ((glue, c) :: rest)) = true := by
    rw [anyLive_eq_decide, decide_eq_true_eq] at hrest
    rw [liveCount, if_neg (by simp [hc])]
    exact decide_eq_true (by omega)
  obtain ⟨truth, hholds, hsql⟩ := h
  obtain ⟨tail, htail, hchain⟩ := chain_rest rest hclauses
  obtain ⟨part, hpart, hread⟩ := hsql true
  obtain ⟨whole, hwhole, hreads⟩ := hchain (Chained.start hread)
  refine ⟨part ++ tail, whole, ?_, ?_, hreads⟩
  · rw [hseveral, chainSql, if_neg (by simp [hc]), hpart, htail]
    show Except.ok _ = _
    simp
  · intro s
    rw [chainHolds_first hc (hholds s)]
    exact hwhole s

/-- A chain of clauses with texts is written as a text with its truth. -/
theorem chain_compiles : ∀ (clauses : List (Glue × Condition)), anyLive clauses = true →
    (∀ clause ∈ clauses, clause.2.isBlank = false → clause.2.Compiles registry) →
    ChainCompiles registry clauses
  | [], hlive, _ => by cases hlive
  | (glue, c) :: rest, hlive, h => by
    have hrest : ∀ clause ∈ rest, clause.2.isBlank = false → clause.2.Compiles registry :=
      fun clause hmem => h clause (List.mem_cons_of_mem _ hmem)
    cases hc : c.isBlank with
    | true =>
      rw [anyLive, hc] at hlive
      exact chain_blank hc (chain_compiles rest hlive hrest)
    | false =>
      have hcompiles : c.Compiles registry := h _ List.mem_cons_self hc
      cases hmore : anyLive rest with
      | false => exact chain_only hc hmore hcompiles
      | true => exact chain_several hc hmore hcompiles hrest

end

end RecordQuery
