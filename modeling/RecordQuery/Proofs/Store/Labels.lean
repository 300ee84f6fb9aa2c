import RecordQuery.Store.Read
set_option autoImplicit false

/-!
# Store: what is joined to a row

A row knows the names of its main source and carries what is joined to it, each under its label (`IsNamed`).
Every step of a read keeps the names of its rows, or adds one label to all of them: combining them with an extra
source, joining them in whatever way, filtering, grouping and computing.  So all rows of a read carry the labels
of its extra sources and joins, in their order.
-/

namespace RecordQuery

/-- The labels of the extra sources and the joins of a read, in the order in which rows get them. -/
def ReadSelection.labels (r : ReadSelection) : List String :=
  r.extraSources.map ExtraSource.label ++ r.joins.map Join.label

namespace Joined

/-- The labels of what is joined to a row. -/
def labels (row : Joined) : List String := row.others.map Prod.fst

/-- The row goes by these names, and something, or the lack of it, is joined under each of these labels. -/
structure IsNamed (reference table : String) (labels : List String) (row : Joined) : Prop where
  reference : row.reference = reference
  table : row.table = table
  labels : row.labels = labels

section

variable {reference table : String} {labels : List String} {row : Joined} {rows : List Joined}

/-! ## Rows -/

theorem single_isNamed (reference table : String) (base : Record) :
    (single reference table base).IsNamed reference table [] := ⟨rfl, rfl, rfl⟩

/-- The blank row carries the labels of the rows that it stands beside. -/
theorem blank_isNamed (reference table : String) (m : Model) (labels : List String) :
    (blank reference table m labels).IsNamed reference table labels := by
  refine ⟨rfl, rfl, ?_⟩
  rw [Joined.labels, blank, List.map_map]
  exact List.map_id labels

theorem IsNamed.extend (h : row.IsNamed reference table labels) (label : String) (other : Option Record) :
    (row.extend label other).IsNamed reference table (labels ++ [label]) := by
  refine ⟨h.reference, h.table, ?_⟩
  rw [Joined.labels, Joined.extend, List.map_append, ← Joined.labels, h.labels]
  rfl

theorem IsNamed.withComputed (h : row.IsNamed reference table labels) (computed : Record) :
    { row with computed := computed }.IsNamed reference table labels := ⟨h.reference, h.table, h.labels⟩

/-! ## Steps -/

theorem mem_of_filter {p : Predicate} {registry : Registry} {kept : List Joined}
    (h : filter p registry rows = .ok kept) (hrow : row ∈ kept) : row ∈ rows :=
  (keep_sublist h).subset hrow

section

variable {j : Join} {registry : Registry} {others : List Record} {blank : Joined}

theorem join_inner (hkind : j.kind = .inner) :
    join j registry rows others blank = (do return (← rows.mapM (partners j registry others false)).flatten) := by
  rw [join, hkind]

theorem join_left (hkind : j.kind = .left) :
    join j registry rows others blank = (do return (← rows.mapM (partners j registry others true)).flatten) := by
  rw [join, hkind]

theorem join_right (hkind : j.kind = .right) :
    join j registry rows others blank =
      (do return (← others.mapM (reversePartners j registry rows blank)).flatten) := by
  rw [join, hkind]

theorem mem_partners {outer : Bool} {found : List Joined} {main : Joined}
    (h : partners j registry others outer main = .ok found) (hrow : row ∈ found) :
    ∃ other, (∀ o ∈ other, o ∈ others) ∧ row = main.extend j.label other := by
  obtain ⟨matched, hmatched, h⟩ := Outcome.bind_eq_ok.mp h
  cases h
  split at hrow
  · exact ⟨none, nofun, List.mem_singleton.mp hrow⟩
  · obtain ⟨o, ho, rfl⟩ := List.mem_map.mp (mem_of_filter hmatched hrow)
    refine ⟨some o, ?_, rfl⟩
    rintro _ ⟨⟩
    exact ho

theorem mem_reversePartners {found : List Joined} {other : Record}
    (h : reversePartners j registry rows blank other = .ok found) (hrow : row ∈ found) :
    ∃ main, (main ∈ rows ∨ main = blank) ∧ row = main.extend j.label (some other) := by
  obtain ⟨matched, hmatched, h⟩ := Outcome.bind_eq_ok.mp h
  cases h
  split at hrow
  · exact ⟨blank, .inr rfl, List.mem_singleton.mp hrow⟩
  · obtain ⟨main, hmain, rfl⟩ := List.mem_map.mp (mem_of_filter hmatched hrow)
    exact ⟨main, .inl hmain, rfl⟩

/-- Every row found by a step over a list is found for one of its items. -/
theorem exists_part {α : Type} {step : α → Outcome (List Joined)} {items : List α} {answer : List Joined}
    (h : (do return (← items.mapM step).flatten) = Except.ok answer) (hrow : row ∈ answer) :
    ∃ item ∈ items, ∃ found, step item = .ok found ∧ row ∈ found := by
  obtain ⟨parts, hparts, h⟩ := Outcome.bind_eq_ok.mp h
  cases h
  obtain ⟨found, hfound, hrow⟩ := List.mem_flatten.mp hrow
  obtain ⟨item, hitem, hstep⟩ := Outcome.exists_of_mapM hparts hfound
  exact ⟨item, hitem, found, hstep, hrow⟩

/-- Every row of a join is one of the rows, or the blank one in a right join, with one of the others or the lack of
one joined to it. -/
theorem mem_join {answer : List Joined} (h : join j registry rows others blank = .ok answer) (hrow : row ∈ answer) :
    ∃ main other, (main ∈ rows ∨ j.kind = .right ∧ main = blank) ∧ (∀ o ∈ other, o ∈ others) ∧
      row = main.extend j.label other := by
  cases hkind : j.kind with
  | inner =>
    rw [join_inner hkind] at h
    obtain ⟨main, hmain, found, hfound, hrow⟩ := exists_part h hrow
    obtain ⟨other, hother, hrow⟩ := mem_partners hfound hrow
    exact ⟨main, other, .inl hmain, hother, hrow⟩
  | left =>
    rw [join_left hkind] at h
    obtain ⟨main, hmain, found, hfound, hrow⟩ := exists_part h hrow
    obtain ⟨other, hother, hrow⟩ := mem_partners hfound hrow
    exact ⟨main, other, .inl hmain, hother, hrow⟩
  | right =>
    rw [join_right hkind] at h
    obtain ⟨other, hother, found, hfound, hrow⟩ := exists_part h hrow
    obtain ⟨main, hmain, hrow⟩ := mem_reversePartners hfound hrow
    refine ⟨main, some other, hmain.imp_right fun heq => ⟨rfl, heq⟩, ?_, hrow⟩
    rintro _ ⟨⟩
    exact hother

end

theorem firstByKey_sublist {κ α : Type} (same : κ → κ → Bool) (seen : List κ) (items : List (κ × α)) :
    (firstByKey same seen items).Sublist items := by
  induction items generalizing seen with
  | nil => exact List.Sublist.refl _
  | cons item rest ih =>
    obtain ⟨k, x⟩ := item
    rw [firstByKey]
    split
    · exact (ih seen).cons (k, x)
    · exact (ih (seen ++ [k])).cons_cons (k, x)

theorem mem_of_group {g : Grouping} {registry : Registry} {kept : List Joined}
    (h : group g registry rows = .ok kept) (hrow : row ∈ kept) : row ∈ rows := by
  obtain ⟨keyed, hkeyed, h⟩ := Outcome.bind_eq_ok.mp h
  have hsnd : keyed.map Prod.snd = rows.map id := by
    refine Outcome.map_of_mapM (fun main item hitem => ?_) hkeyed
    obtain ⟨key, -, hitem⟩ := Outcome.bind_eq_ok.mp hitem
    cases hitem
    rfl
  rw [List.map_id] at hsnd
  rw [← hsnd]
  exact ((firstByKey_sublist _ [] keyed).map Prod.snd).subset (mem_of_filter h hrow)

/-- Computing changes nothing but the computed fields. -/
theorem exists_computed {registry : Registry} {fields : List ExtraField} {main : Joined}
    (h : compute registry fields main = .ok row) : ∃ computed, row = { main with computed := computed } := by
  rw [compute] at h
  induction fields generalizing main with
  | nil =>
    cases h
    exact ⟨row.computed, rfl⟩
  | cons f rest ih =>
    rw [List.foldlM_cons] at h
    obtain ⟨next, hnext, h⟩ := Outcome.bind_eq_ok.mp h
    obtain ⟨computed, rfl⟩ := ih h
    split at hnext
    · obtain ⟨v, -, hnext⟩ := Outcome.bind_eq_ok.mp hnext
      cases hnext
      exact ⟨computed, rfl⟩
    · cases hnext
      exact ⟨computed, rfl⟩

end

end Joined

/-! ## Runs -/

namespace Store

variable {st : Store} {owner : Source} {s : Shape} {labels : List String} {rows answer : List Joined}

theorem combine_isNamed {sources : List ExtraSource}
    (h : sources.foldlM (fun rows e => do return Joined.combine rows (← st.related owner e.source) e.label) rows =
      .ok answer)
    (hrows : ∀ row ∈ rows, row.IsNamed s.reference owner.name labels) :
    ∀ row ∈ answer, row.IsNamed s.reference owner.name (labels ++ sources.map ExtraSource.label) := by
  induction sources generalizing rows labels with
  | nil =>
    cases h
    rw [List.map_nil, List.append_nil]
    exact hrows
  | cons e rest ih =>
    rw [List.foldlM_cons] at h
    obtain ⟨next, hnext, h⟩ := Outcome.bind_eq_ok.mp h
    obtain ⟨others, -, hnext⟩ := Outcome.bind_eq_ok.mp hnext
    cases hnext
    rw [List.map_cons, List.append_cons]
    refine ih h ?_
    intro row hrow
    obtain ⟨main, hmain, hrow⟩ := List.mem_flatMap.mp hrow
    obtain ⟨o, -, rfl⟩ := List.mem_map.mp hrow
    exact (hrows main hmain).extend e.label (some o)

theorem combined_isNamed {sources : List ExtraSource} (h : st.combined owner s sources = .ok rows) :
    ∀ row ∈ rows, row.IsNamed s.reference owner.name (sources.map ExtraSource.label) := by
  obtain ⟨base, -, h⟩ := Outcome.bind_eq_ok.mp h
  have hsingle : ∀ row ∈ base.map (Joined.single s.reference owner.name),
      row.IsNamed s.reference owner.name [] :=
    List.forall_mem_map.mpr fun b _ => Joined.single_isNamed s.reference owner.name b
  exact combine_isNamed h hsingle

/-- Each join adds its label, to the blank row too. -/
theorem joined_isNamed {joins : List Join} (h : st.joined owner s joins labels rows = .ok answer)
    (hrows : ∀ row ∈ rows, row.IsNamed s.reference owner.name labels) :
    ∀ row ∈ answer, row.IsNamed s.reference owner.name (labels ++ joins.map Join.label) := by
  induction joins generalizing rows labels with
  | nil =>
    cases h
    rw [List.map_nil, List.append_nil]
    exact hrows
  | cons j rest ih =>
    rw [joined] at h
    obtain ⟨others, -, h⟩ := Outcome.bind_eq_ok.mp h
    obtain ⟨next, hnext, h⟩ := Outcome.bind_eq_ok.mp h
    rw [List.map_cons, List.append_cons]
    refine ih h ?_
    intro row hrow
    obtain ⟨main, other, hmain, -, rfl⟩ := Joined.mem_join hnext hrow
    refine Joined.IsNamed.extend ?_ j.label other
    obtain hmain | ⟨-, rfl⟩ := hmain
    · exact hrows main hmain
    · exact Joined.blank_isNamed s.reference owner.name owner.model labels

theorem kept_eq_ok {r : ReadSelection} (h : st.kept owner r = .ok rows) :
    ∃ combined joined, st.combined owner r.shape r.extraSources = .ok combined ∧
      st.joined owner r.shape r.joins (r.extraSources.map ExtraSource.label) combined = .ok joined ∧
      ∀ row ∈ rows, ∃ main ∈ joined, ∃ computed, row = { main with computed := computed } := by
  rw [kept] at h
  obtain ⟨combined, hcombined, h⟩ := Outcome.bind_eq_ok.mp h
  obtain ⟨joined, hjoined, h⟩ := Outcome.bind_eq_ok.mp h
  obtain ⟨filtered, hfiltered, h⟩ := Outcome.bind_eq_ok.mp h
  refine ⟨combined, joined, hcombined, hjoined, ?_⟩
  intro row hrow
  split at h
  · obtain ⟨grouped, hgrouped, h⟩ := Outcome.bind_eq_ok.mp h
    obtain ⟨main, hmain, hrow⟩ := Outcome.exists_of_mapM h hrow
    exact ⟨main, Joined.mem_of_filter hfiltered (Joined.mem_of_group hgrouped hmain), Joined.exists_computed hrow⟩
  · obtain ⟨main, hmain, hrow⟩ := Outcome.exists_of_mapM h hrow
    exact ⟨main, Joined.mem_of_filter hfiltered hmain, Joined.exists_computed hrow⟩

/-- The rows that a read keeps carry the labels of its extra sources and joins. -/
theorem kept_isNamed {r : ReadSelection} (h : st.kept owner r = .ok rows) :
    ∀ row ∈ rows, row.IsNamed r.shape.reference owner.name r.labels := by
  obtain ⟨combined, joined, hcombined, hjoined, hrows⟩ := kept_eq_ok h
  intro row hrow
  obtain ⟨main, hmain, computed, rfl⟩ := hrows row hrow
  exact (joined_isNamed hjoined (combined_isNamed hcombined) main hmain).withComputed computed

end Store

end RecordQuery
