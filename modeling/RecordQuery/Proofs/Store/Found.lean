import Mathlib.Data.List.Forall2
import RecordQuery.Proofs.Store.Labels
set_option autoImplicit false

/-!
# Store: what a read finds

Before it sorts and cuts, a read has found rows with their ordering keys (`Store.found`).  Where it succeeds, all
the rows that it keeps have columns, a distinct read retains the first row of each projection, and the retained rows
have keys (`keyedRows_eq_ok`).  So every found row has the columns and the keys of one kept row (`exists_sources`).
What is found depends on the shape only by its source, predicate, label and ordering terms: not on its bounds, and
not on the directions of the terms (`found_of_sameRows`).
-/

namespace RecordQuery

namespace Outcome

/-- A step answers a list where it answers item for item. -/
theorem mapM_eq_ok_iff_forall₂ {α β : Type} {f : α → Outcome β} {items : List α} {answers : List β} :
    items.mapM f = .ok answers ↔ List.Forall₂ (fun a b => f a = .ok b) items answers := by
  induction items generalizing answers with
  | nil =>
    rw [List.forall₂_nil_left_iff]
    exact ⟨fun h => (Except.ok.inj h).symm, fun h => congrArg Except.ok h.symm⟩
  | cons a rest ih =>
    rw [mapM_cons_eq_ok, List.forall₂_cons_left_iff]
    simp only [ih, exists_and_left]

end Outcome

/-! ## Keys of projected rows -/

/-- The columns that are selected of a row, beside the row. -/
def projected (r : ReadSelection) (registry : Registry) (row : Joined) : Outcome (Row × Joined) := do
  return (← project r registry row, row)

/-- Columns with the ordering keys of the row that they are selected of. -/
def keyed (ordering : List OrderTerm) (p : Row × Joined) : Outcome (List Value × Row) := do
  return (← orderKeys p.2 ordering, p.1)

/-- A row that is read, as its columns with its ordering keys. -/
def keyedRow (r : ReadSelection) (registry : Registry) (row : Joined) : Outcome (List Value × Row) := do
  let columns ← project r registry row
  return (← orderKeys row r.shape.ordering, columns)

/-- What a read retains of projected rows: all of them, or if it is distinct the first one of each projection. -/
def retained (distinct : Bool) (seen : List Row) (pairs : List (Row × Joined)) : List (Row × Joined) :=
  if distinct then Joined.firstByKey Value.identicalRows seen pairs else pairs

section

variable {r : ReadSelection} {registry : Registry} {distinct : Bool} {seen : List Row} {pairs : List (Row × Joined)}

theorem projected_eq_ok {row : Joined} {p : Row × Joined} :
    projected r registry row = .ok p ↔ project r registry row = .ok p.1 ∧ p.2 = row := Outcome.pair_eq_ok

theorem keyed_eq_ok {ordering : List OrderTerm} {p : Row × Joined} {item : List Value × Row} :
    keyed ordering p = .ok item ↔ orderKeys p.2 ordering = .ok item.1 ∧ item.2 = p.1 := Outcome.pair_eq_ok

theorem retained_nil : retained distinct seen [] = [] := by cases distinct <;> rfl

theorem retained_cons (p : Row × Joined) :
    retained distinct seen (p :: pairs) =
      if distinct && seen.any (Value.identicalRows · p.1) then retained distinct seen pairs
      else p :: retained distinct (seen ++ [p.1]) pairs := by
  cases distinct <;> rfl

theorem retained_sublist : (retained distinct seen pairs).Sublist pairs := by
  rw [retained]
  split
  · exact Joined.firstByKey_sublist _ seen pairs
  · exact List.Sublist.refl pairs

/-- The first row is projected; if it is retained its keys are computed; then comes the rest. -/
theorem keyedRows_cons_eq_ok {row : Joined} {rest : List Joined} {found : List (List Value × Row)} :
    keyedRows r registry seen (row :: rest) = .ok found ↔ ∃ columns, project r registry row = .ok columns ∧
      if r.distinct && seen.any (Value.identicalRows · columns) then keyedRows r registry seen rest = .ok found
      else ∃ keys more, orderKeys row r.shape.ordering = .ok keys ∧
        keyedRows r registry (seen ++ [columns]) rest = .ok more ∧ (keys, columns) :: more = found := by
  rw [keyedRows, Outcome.bind_eq_ok]
  refine exists_congr fun columns => and_congr_right fun _ => ?_
  split
  · exact Iff.rfl
  · simp only [Outcome.bind_eq_ok, exists_and_left, pure, Except.pure, Except.ok.injEq]

/-- Where there is no fault, it makes no difference to project all rows first and to compute the keys of those that
are retained afterwards. -/
theorem keyedRows_eq_ok {rows : List Joined} {found : List (List Value × Row)} :
    keyedRows r registry seen rows = .ok found ↔ ∃ pairs, rows.mapM (projected r registry) = .ok pairs ∧
      (retained r.distinct seen pairs).mapM (keyed r.shape.ordering) = .ok found := by
  induction rows generalizing seen found with
  | nil =>
    constructor
    · intro h
      cases h
      exact ⟨[], rfl, by rw [retained_nil]; rfl⟩
    · rintro ⟨pairs, hpairs, hfound⟩
      obtain rfl : [] = pairs := Except.ok.inj hpairs
      rw [retained_nil] at hfound
      exact hfound
  | cons row rest ih =>
    rw [keyedRows_cons_eq_ok]
    simp only [ih]
    constructor
    · rintro ⟨columns, hcolumns, h⟩
      have hfirst : projected r registry row = .ok (columns, row) := projected_eq_ok.mpr ⟨hcolumns, rfl⟩
      split at h
      · obtain ⟨pairs, hpairs, hfound⟩ := h
        refine ⟨_, Outcome.mapM_cons_eq_ok.mpr ⟨_, pairs, hfirst, hpairs, rfl⟩, ?_⟩
        rwa [retained_cons, if_pos ‹_›]
      · obtain ⟨keys, more, hkeys, ⟨pairs, hpairs, hmore⟩, rfl⟩ := h
        refine ⟨_, Outcome.mapM_cons_eq_ok.mpr ⟨_, pairs, hfirst, hpairs, rfl⟩, ?_⟩
        rw [retained_cons, if_neg ‹_›]
        exact Outcome.mapM_cons_eq_ok.mpr ⟨_, more, keyed_eq_ok.mpr ⟨hkeys, rfl⟩, hmore, rfl⟩
    · rintro ⟨pairs, hpairs, h⟩
      obtain ⟨⟨columns, _⟩, more, hp, hmore, rfl⟩ := Outcome.mapM_cons_eq_ok.mp hpairs
      obtain ⟨hcolumns, rfl⟩ := projected_eq_ok.mp hp
      refine ⟨columns, hcolumns, ?_⟩
      rw [retained_cons] at h
      split at h
      · rw [if_pos ‹_›]
        exact ⟨more, hmore, h⟩
      · obtain ⟨item, items, hitem, hitems, rfl⟩ := Outcome.mapM_cons_eq_ok.mp h
        obtain ⟨hkeys, hsame⟩ := keyed_eq_ok.mp hitem
        rw [if_neg ‹_›]
        exact ⟨item.1, items, hkeys, ⟨more, hmore, hitems⟩, congrArg (· :: items) (Prod.ext rfl hsame.symm)⟩

end

theorem bounded_of_unbounded {α : Type} {s : Shape} (hlimit : s.limit = none) (hoffset : s.offset = 0)
    (items : List α) : bounded s items = items := by
  rw [bounded, hlimit, hoffset]
  exact List.drop_zero

namespace Store

/-- The rows that a read finds with their ordering keys, before they are sorted and cut to the bounds. -/
def found (st : Store) (owner : Source) (r : ReadSelection) : Outcome (List (List Value × Row)) := do
  owner.checkOwner r.shape.source
  keyedRows r st.registry [] (← st.kept owner r)

section

variable {st : Store} {owner : Source} {r : ReadSelection} {rows : List Row} {items : List (List Value × Row)}

theorem found_eq_ok : st.found owner r = .ok items ↔
    owner.checkOwner r.shape.source = .ok () ∧ ∃ kept pairs, st.kept owner r = .ok kept ∧
      kept.mapM (projected r st.registry) = .ok pairs ∧
      (retained r.distinct [] pairs).mapM (keyed r.shape.ordering) = .ok items := by
  rw [found, Outcome.bind_eq_ok]
  constructor
  · rintro ⟨_, howner, h⟩
    obtain ⟨kept, hkept, h⟩ := Outcome.bind_eq_ok.mp h
    obtain ⟨pairs, hpairs, hitems⟩ := keyedRows_eq_ok.mp h
    exact ⟨howner, kept, pairs, hkept, hpairs, hitems⟩
  · rintro ⟨howner, kept, pairs, hkept, hpairs, hitems⟩
    exact ⟨(), howner, Outcome.bind_eq_ok.mpr ⟨kept, hkept, keyedRows_eq_ok.mpr ⟨pairs, hpairs, hitems⟩⟩⟩

/-- A read sorts and cuts what it finds. -/
theorem read_eq_ok : st.read owner r = .ok rows ↔
    ∃ items, st.found owner r = .ok items ∧ rows = orderedWithin r.shape items := by
  have hread : st.read owner r = (do return orderedWithin r.shape (← st.found owner r)) := by
    rw [read, found, bind_assoc]
    simp only [bind_assoc]
  rw [hread, Outcome.bind_eq_ok]
  refine exists_congr fun items => and_congr_right fun _ => ?_
  exact ⟨fun h => (Except.ok.inj h).symm, fun h => congrArg Except.ok h.symm⟩

/-- A read without bounds sorts what it finds. -/
theorem read_of_unbounded (hlimit : r.shape.limit = none) (hoffset : r.shape.offset = 0) :
    st.read owner r = .ok rows ↔
      ∃ items, st.found owner r = .ok items ∧ rows = (sortKeyed r.shape.ordering items).map Prod.snd := by
  simp only [read_eq_ok, orderedWithin, bounded_of_unbounded hlimit hoffset]

/-- A fetch gathers each row of a read into a record. -/
theorem fetch_eq_ok {records : List Record} : st.fetch owner r = .ok records ↔
    ∃ rows, st.read owner r = .ok rows ∧
      rows.mapM (Gatherer.mk owner.model r.additional true).gather = .ok records := by
  rw [fetch, Outcome.bind_eq_ok]

theorem count_of_read (h : st.read owner r = .ok rows) : st.count owner r = .ok rows.length := by
  rw [count, h]
  rfl

/-- A count is the number of the records that a fetch answers, if it answers any. -/
theorem count_of_fetch {records : List Record} (h : st.fetch owner r = .ok records) :
    st.count owner r = .ok records.length := by
  obtain ⟨rows, hrows, hrecords⟩ := fetch_eq_ok.mp h
  rw [count_of_read hrows, Outcome.length_of_mapM hrecords]

/-! ## Where found rows come from -/

/-- What is found are the kept rows, or some of them if the read is distinct, in their order, each with its own
columns and keys. -/
theorem exists_sources (h : st.found owner r = .ok items) :
    ∃ kept sources, st.kept owner r = .ok kept ∧ sources.Sublist kept ∧ (r.distinct = false → sources = kept) ∧
      sources.mapM (keyedRow r st.registry) = .ok items := by
  obtain ⟨-, kept, pairs, hkept, hpairs, hitems⟩ := found_eq_ok.mp h
  have hsnd : pairs.map Prod.snd = kept := by
    have hsame := Outcome.map_of_mapM (g := Prod.snd) (k := id) (fun _ _ hp => (projected_eq_ok.mp hp).2) hpairs
    rwa [List.map_id] at hsame
  have hcolumns : ∀ p ∈ retained r.distinct [] pairs, project r st.registry p.2 = .ok p.1 := by
    intro p hp
    obtain ⟨row, -, hrow⟩ := Outcome.exists_of_mapM hpairs (retained_sublist.subset hp)
    obtain ⟨hproject, rfl⟩ := projected_eq_ok.mp hrow
    exact hproject
  refine ⟨kept, (retained r.distinct [] pairs).map Prod.snd, hkept, ?_, ?_, ?_⟩
  · rw [← hsnd]
    exact retained_sublist.map Prod.snd
  · intro hdistinct
    rw [hdistinct, ← hsnd]
    rfl
  · rw [List.mapM_map, ← hitems]
    refine Outcome.mapM_congr fun p hp => ?_
    rw [Function.comp_apply, keyedRow, hcolumns p hp]
    rfl

theorem length_keys_of_found (h : st.found owner r = .ok items) :
    ∀ item ∈ items, item.1.length = r.shape.ordering.length := by
  obtain ⟨-, kept, pairs, -, -, hitems⟩ := found_eq_ok.mp h
  intro item hitem
  obtain ⟨p, -, hp⟩ := Outcome.exists_of_mapM hitems hitem
  have hlength := Outcome.length_of_mapM (keyed_eq_ok.mp hp).1
  rwa [List.length_map] at hlength

end

/-! ## What the shape has to do with it -/

/-- Two shapes mean the same rows of the same source. -/
structure SameRows (s t : Shape) : Prop where
  source : s.source = t.source
  predicate : s.predicate = t.predicate
  label : s.label = t.label

section

variable {st : Store} {owner : Source} {r : ReadSelection} {s : Shape} {items : List (List Value × Row)}

theorem SameRows.reference {t : Shape} (h : SameRows s t) : s.reference = t.reference := by
  rw [Shape.reference, Shape.reference, h.source, h.label]

theorem joined_of_sameRows {t : Shape} (h : SameRows s t) (joins : List Join) (labels : List String)
    (rows : List Joined) : st.joined owner s joins labels rows = st.joined owner t joins labels rows := by
  induction joins generalizing labels rows with
  | nil => rfl
  | cons j rest ih =>
    rw [joined, joined, h.reference]
    simp only [ih]

theorem kept_of_sameRows (h : SameRows s r.shape) : st.kept owner { r with shape := s } = st.kept owner r := by
  simp only [kept, combined, joined_of_sameRows h, h.reference, h.predicate]

theorem keyedRows_of_terms {registry : Registry}
    (h : s.ordering.map OrderTerm.expr = r.shape.ordering.map OrderTerm.expr) (seen : List Row)
    (rows : List Joined) : keyedRows { r with shape := s } registry seen rows = keyedRows r registry seen rows := by
  induction rows generalizing seen with
  | nil => rfl
  | cons row rest ih =>
    simp only [keyedRows, ih, orderKeys, h]
    rfl

/-- Shapes that mean the same rows, by the same terms whatever their directions, find the same. -/
theorem found_of_sameRows (h : SameRows s r.shape)
    (hterms : s.ordering.map OrderTerm.expr = r.shape.ordering.map OrderTerm.expr) :
    st.found owner { r with shape := s } = st.found owner r := by
  simp only [found, h.source, kept_of_sameRows h, keyedRows_of_terms hterms]

/-- Without an ordering the same rows are found, without keys. -/
theorem found_clearOrder (h : st.found owner r = .ok items) :
    st.found owner (r.mapShape Shape.clearOrder) = .ok (items.map fun item => ([], item.2)) := by
  obtain ⟨howner, kept, pairs, hkept, hpairs, hitems⟩ := found_eq_ok.mp h
  have hcleared : SameRows r.shape.clearOrder r.shape := ⟨rfl, rfl, rfl⟩
  refine found_eq_ok.mpr ⟨howner, kept, pairs, (kept_of_sameRows hcleared).trans hkept, hpairs, ?_⟩
  have hcolumns : items.map Prod.snd = (retained r.distinct [] pairs).map Prod.fst :=
    Outcome.map_of_mapM (fun _ _ hp => (keyed_eq_ok.mp hp).2) hitems
  have hanswer : (items.map fun item => (([] : List Value), item.2)) =
      (retained r.distinct [] pairs).map fun p => ([], p.1) := by
    have hwrapped := congrArg (List.map fun columns => (([] : List Value), columns)) hcolumns
    rwa [List.map_map, List.map_map] at hwrapped
  rw [hanswer]
  exact Outcome.mapM_eq_ok fun p _ => rfl

end

end Store

end RecordQuery
