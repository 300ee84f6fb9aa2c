import Mathlib.Data.List.Perm.Basic
import RecordQuery.Proofs.Condition.Evaluation
import RecordQuery.Proofs.Store.Labels
import RecordQuery.Proofs.Store.Run
set_option autoImplicit false

/-!
# Store: what joins answer

Whatever its kind, a join tests its condition on every row extended with every record, and fails if a test fails.
Else the inner join answers the candidates that pass (`matched`).  A left join adds the rows without a partner,
each extended with none, and a right join the blank row extended with each record that no row claims.  The right
join goes over the records first, so that its answer is in another order.
-/

namespace RecordQuery

/-! ## Lists -/

section

variable {α β γ : Type}

theorem isEmpty_filter_map (p : β → Bool) (f : α → β) (items : List α) :
    ((items.map f).filter p).isEmpty = items.all fun x => !p (f x) := by
  rw [Bool.eq_iff_iff, List.isEmpty_iff, List.filter_eq_nil_iff, List.forall_mem_map, List.all_eq_true]
  simp only [Bool.not_eq_true, Bool.not_eq_true']

/-- An entry for each item that gives nothing may as well stand behind what the items give. -/
theorem flatMap_orElse_perm (f : α → List β) (g : α → β) (items : List α) :
    (items.flatMap fun x => if (f x).isEmpty then [g x] else f x).Perm
      (items.flatMap f ++ (items.filter fun x => (f x).isEmpty).map g) := by
  induction items with
  | nil => exact List.Perm.refl _
  | cons x rest ih =>
    cases hx : (f x).isEmpty with
    | true =>
      simp only [List.flatMap_cons, List.filter_cons, List.isEmpty_iff.mp hx]
      exact (ih.cons (g x)).trans List.perm_middle.symm
    | false =>
      simp only [List.flatMap_cons, List.filter_cons, hx, Bool.false_eq_true, if_false, List.append_assoc]
      exact ih.append_left (f x)

/-- Pairs may be listed by their second component. -/
theorem flatMap_map_perm (pair : α → β → γ) (xs : List α) (ys : List β) :
    (ys.flatMap fun y => xs.map fun x => pair x y).Perm (xs.flatMap fun x => ys.map fun y => pair x y) := by
  induction xs with
  | nil => simp
  | cons x rest ih =>
    simp only [List.map_cons]
    exact (List.map_append_flatMap_perm ys (pair x) _).symm.trans (ih.append_left _)

end

namespace Joined

/-! ## Candidates -/

section

variable (j : Join) (registry : Registry) (rows : List Joined) (others : List Record)

/-- The condition of a join holds for a row, without a fault. -/
def accepts (row : Joined) : Bool := j.condition.toCondition.isTrue row.scope registry

/-- The condition of a join holds or not, without a fault, for every row extended with every record. -/
def Decided : Prop :=
  ∀ row ∈ combine rows others j.label, ∃ truth, j.condition.holds row.scope registry = .ok truth

/-- The rows extended with records for which the condition of a join holds. -/
def matched : List Joined := (combine rows others j.label).filter (accepts j registry)

/-- The rows without a partner. -/
def unpartnered : List Joined :=
  rows.filter fun row => others.all fun o => !accepts j registry (row.extend j.label (some o))

/-- The records that no row claims. -/
def unclaimed : List Record :=
  others.filter fun o => rows.all fun row => !accepts j registry (row.extend j.label (some o))

end

section

variable {j : Join} {registry : Registry} {rows : List Joined} {others : List Record} {blank : Joined}

theorem mem_combine {row : Joined} (hrow : row ∈ rows) {o : Record} (ho : o ∈ others) :
    row.extend j.label (some o) ∈ combine rows others j.label :=
  List.mem_flatMap.mpr ⟨row, hrow, List.mem_map_of_mem ho⟩

theorem Decided.holds (h : Decided j registry rows others) {row : Joined} (hrow : row ∈ rows) {o : Record}
    (ho : o ∈ others) :
    j.condition.holds (row.extend j.label (some o)).scope registry =
      .ok (accepts j registry (row.extend j.label (some o))) := by
  obtain ⟨truth, htruth⟩ := h _ (mem_combine hrow ho)
  rw [htruth, accepts, isTrue_of_ok htruth]

theorem Decided.partners (h : Decided j registry rows others) (outer : Bool) {row : Joined} (hrow : row ∈ rows) :
    partners j registry others outer row =
      .ok (let found := (others.map fun o => row.extend j.label (some o)).filter (accepts j registry)
        if found.isEmpty && outer then [row.extend j.label none] else found) := by
  have hfound : filter j.condition registry (others.map fun o => row.extend j.label (some o)) =
      .ok ((others.map fun o => row.extend j.label (some o)).filter (accepts j registry)) :=
    keep_of_ok (List.forall_mem_map.mpr fun o ho => h.holds hrow ho)
  rw [Joined.partners, hfound]
  rfl

theorem Decided.reversePartners (h : Decided j registry rows others) (blank : Joined) {o : Record}
    (ho : o ∈ others) :
    reversePartners j registry rows blank o =
      .ok (let found := (rows.map fun row => row.extend j.label (some o)).filter (accepts j registry)
        if found.isEmpty then [blank.extend j.label (some o)] else found) := by
  have hfound : filter j.condition registry (rows.map fun row => row.extend j.label (some o)) =
      .ok ((rows.map fun row => row.extend j.label (some o)).filter (accepts j registry)) :=
    keep_of_ok (List.forall_mem_map.mpr fun row hrow => h.holds hrow ho)
  rw [Joined.reversePartners, hfound]
  rfl

/-! ## Joins of each kind -/

theorem filter_combine (rows : List Joined) (others : List Record) :
    rows.flatMap (fun row => (others.map fun o => row.extend j.label (some o)).filter (accepts j registry)) =
      matched j registry rows others := by
  rw [matched, combine, List.filter_flatMap]

theorem Decided.join_inner (h : Decided j registry rows others) (hkind : j.kind = .inner) (blank : Joined) :
    join j registry rows others blank = .ok (matched j registry rows others) := by
  rw [Joined.join_inner hkind, Outcome.mapM_eq_ok fun row hrow => h.partners false hrow, Outcome.ok_bind,
    ← List.flatMap_def, ← filter_combine]
  simp only [Bool.and_false, Bool.false_eq_true, if_false]
  rfl

theorem Decided.join_left (h : Decided j registry rows others) (hkind : j.kind = .left) (blank : Joined) :
    ∃ answer, join j registry rows others blank = .ok answer ∧
      answer.Perm (matched j registry rows others ++
        (unpartnered j registry rows others).map fun row => row.extend j.label none) := by
  have hperm := flatMap_orElse_perm
    (fun row : Joined => (others.map fun o => row.extend j.label (some o)).filter (accepts j registry))
    (fun row => row.extend j.label none) rows
  simp only [isEmpty_filter_map] at hperm
  rw [filter_combine] at hperm
  refine ⟨_, ?_, hperm⟩
  rw [Joined.join_left hkind, Outcome.mapM_eq_ok fun row hrow => h.partners true hrow, Outcome.ok_bind,
    ← List.flatMap_def]
  simp only [Bool.and_true, isEmpty_filter_map]
  rfl

theorem Decided.join_right (h : Decided j registry rows others) (hkind : j.kind = .right) (blank : Joined) :
    ∃ answer, join j registry rows others blank = .ok answer ∧
      answer.Perm (matched j registry rows others ++
        (unclaimed j registry rows others).map fun o => blank.extend j.label (some o)) := by
  have hperm := flatMap_orElse_perm
    (fun o => (rows.map fun row => row.extend j.label (some o)).filter (accepts j registry))
    (fun o => blank.extend j.label (some o)) others
  have hmatched := (flatMap_map_perm (fun row o => row.extend j.label (some o)) rows others).filter
    (accepts j registry)
  rw [List.filter_flatMap] at hmatched
  simp only [isEmpty_filter_map] at hperm
  refine ⟨_, ?_, hperm.trans (hmatched.append_right _)⟩
  rw [Joined.join_right hkind, Outcome.mapM_eq_ok fun o ho => h.reversePartners blank ho, Outcome.ok_bind,
    ← List.flatMap_def]
  simp only [isEmpty_filter_map]
  rfl

theorem tested_of_partners {outer : Bool} {row : Joined} {found : List Joined}
    (h : Joined.partners j registry others outer row = .ok found) :
    ∀ o ∈ others, ∃ truth, j.condition.holds (row.extend j.label (some o)).scope registry = .ok truth := by
  obtain ⟨kept, hkept, -⟩ := Outcome.bind_eq_ok.mp h
  exact fun o ho => ok_of_keep hkept _ (List.mem_map_of_mem ho)

theorem tested_of_reversePartners {o : Record} {found : List Joined}
    (h : Joined.reversePartners j registry rows blank o = .ok found) :
    ∀ row ∈ rows, ∃ truth, j.condition.holds (row.extend j.label (some o)).scope registry = .ok truth := by
  obtain ⟨kept, hkept, -⟩ := Outcome.bind_eq_ok.mp h
  exact fun row hrow => ok_of_keep hkept _ (List.mem_map_of_mem hrow)

/-- A join that succeeds has tested all candidates. -/
theorem decided_of_join {answer : List Joined} (h : join j registry rows others blank = .ok answer) :
    Decided j registry rows others := by
  refine List.forall_mem_flatMap.mpr fun row hrow => List.forall_mem_map.mpr fun o ho => ?_
  cases hkind : j.kind with
  | inner =>
    rw [Joined.join_inner hkind] at h
    obtain ⟨parts, hparts, -⟩ := Outcome.bind_eq_ok.mp h
    obtain ⟨found, hfound⟩ := Outcome.ok_of_mapM hparts hrow
    exact tested_of_partners hfound o ho
  | left =>
    rw [Joined.join_left hkind] at h
    obtain ⟨parts, hparts, -⟩ := Outcome.bind_eq_ok.mp h
    obtain ⟨found, hfound⟩ := Outcome.ok_of_mapM hparts hrow
    exact tested_of_partners hfound o ho
  | right =>
    rw [Joined.join_right hkind] at h
    obtain ⟨parts, hparts, -⟩ := Outcome.bind_eq_ok.mp h
    obtain ⟨found, hfound⟩ := Outcome.ok_of_mapM hparts ho
    exact tested_of_reversePartners hfound row hrow

end

end Joined

/-! ## Chains of joins -/

namespace Store

/-- Outer joins lose and invent nothing.  The joins of all kinds succeed where the condition is decided for all
candidates, and fail together elsewhere.  Where they succeed, the inner join answers the matched candidates, the
left join these and each row without a partner once, extended with none, and the right join these and the blank
row extended once with each record that no row claims.  However many sources are combined and joined, and in
whatever ways, all rows carry their labels, in their order. -/
theorem joins_lose_nothing :
    (∀ (j : Join) (registry : Registry) (rows : List Joined) (others : List Record) (blank : Joined),
      let ofKind (kind : JoinKind) := Joined.join { j with kind := kind } registry rows others blank
      let matched := Joined.matched j registry rows others
      (Joined.Decided j registry rows others ∧ ofKind .inner = .ok matched ∧
        (∃ answer, ofKind .left = .ok answer ∧ answer.Perm (matched ++
          (Joined.unpartnered j registry rows others).map fun row => row.extend j.label none)) ∧
        ∃ answer, ofKind .right = .ok answer ∧ answer.Perm (matched ++
          (Joined.unclaimed j registry rows others).map fun o => blank.extend j.label (some o))) ∨
      (¬ Joined.Decided j registry rows others ∧ ∀ kind, ∃ fault, ofKind kind = .error fault)) ∧
    (∀ (st : Store) (owner : Source) (s : Shape) (sources : List ExtraSource) (joins : List Join)
        (combined joined : List Joined),
      st.combined owner s sources = .ok combined →
      st.joined owner s joins (sources.map ExtraSource.label) combined = .ok joined →
      ∀ row ∈ joined, row.labels = sources.map ExtraSource.label ++ joins.map Join.label) ∧
    ∀ (st : Store) (owner : Source) (r : ReadSelection) (kept : List Joined), st.kept owner r = .ok kept →
      ∀ row ∈ kept, row.labels = r.labels := by
  refine ⟨?_, ?_, ?_⟩
  · intro j registry rows others blank ofKind matched
    by_cases h : Joined.Decided j registry rows others
    · refine .inl ⟨h, ?_, ?_, ?_⟩
      · exact Joined.Decided.join_inner (j := { j with kind := .inner }) h rfl blank
      · exact Joined.Decided.join_left (j := { j with kind := .left }) h rfl blank
      · exact Joined.Decided.join_right (j := { j with kind := .right }) h rfl blank
    · refine .inr ⟨h, ?_⟩
      intro kind
      cases hjoin : ofKind kind with
      | error fault => exact ⟨fault, rfl⟩
      | ok answer => exact absurd (Joined.decided_of_join hjoin) h
  · intro st owner s sources joins combined joined hcombined hjoined row hrow
    exact (joined_isNamed hjoined (combined_isNamed hcombined) row hrow).labels
  · intro st owner r kept hkept row hrow
    exact (kept_isNamed hkept row hrow).labels

/-- Nobody follows the second of two people, and nobody precedes the first one, who is then joined to the blank
row; it has the labels of the others. -/
theorem joins_lose_nothing_chain :
    let compare (op : Operator) (a b : String) : Predicate :=
      ⟨[(.and, .expr (.binary (.qualified a "id") op (.qualified b "id")))], false⟩
    let twin : ExtraSource := ⟨people, "twin"⟩
    let next : Join := ⟨people, .left, "next", compare .lt "people" "next"⟩
    let last : Join := ⟨people, .right, "last", compare .eq "next" "last"⟩
    let r : ReadSelection := ⟨.ofSource people, [], [], [twin], [next, last], none, false⟩
    ∃ combined joined kept, twoPeople.combined people r.shape [twin] = .ok combined ∧
      twoPeople.joined people r.shape [next, last] ["twin"] combined = .ok joined ∧
      twoPeople.kept people r = .ok kept ∧
      joined.map Joined.base = [[("id", .null)], [("id", .int 1)], [("id", .int 1)]] ∧
      (∀ row ∈ joined, row.labels = ["twin", "next", "last"]) ∧ ∀ row ∈ kept, row.labels = ["twin", "next", "last"] := by
  intro compare twin next last r
  obtain ⟨-, hjoined, hkept⟩ := joins_lose_nothing
  exact ⟨_, _, _, rfl, rfl, rfl, rfl, hjoined twoPeople people r.shape [twin] [next, last] _ _ rfl rfl,
    hkept twoPeople people r _ rfl⟩

end Store

end RecordQuery
