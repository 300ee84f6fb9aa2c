import RecordQuery.Proofs.Store.Keys
set_option autoImplicit false

/-!
# Store: reads and mutations pick the same rows

A read of a shape and a mutation of it go over the table on their own: the read filters joined rows, computes
their ordering keys and carries the columns along, the mutation interleaves both and carries indices along.
One of them succeeds exactly when the other does (`keyedRows_of_hits`, `hits_of_keyedRows`), with the same
rows under the same keys.  Sorting and bounds see nothing but keys and places, so that they keep that
(`orderedWithin_map`).
-/

namespace RecordQuery

/-! ## Ordering and bounds -/

theorem bounded_map {α β : Type} (s : Shape) (f : α → β) (items : List α) :
    bounded s (items.map f) = (bounded s items).map f := by
  unfold bounded
  split
  · rw [List.map_take, List.map_drop]
  · rw [List.map_drop]

/-- What stands under the keys has no part in the ordering and the bounds. -/
theorem orderedWithin_map {α β : Type} (s : Shape) (f : α → β) (items : List (List Value × α)) :
    orderedWithin s (items.map (Prod.map id f)) = (orderedWithin s items).map f := by
  have hsorted : sortKeyed s.ordering (items.map (Prod.map id f)) =
      (sortKeyed s.ordering items).map (Prod.map id f) := Sorting.sortBy_map (fun _ _ => rfl) items
  rw [orderedWithin, orderedWithin, hsorted, ← bounded_map, List.map_map, List.map_map]
  rfl

namespace Store

section

variable {st : Store} {owner : Source} {s : Shape}

/-! ## Rows with their keys -/

theorem project_ofShape (s : Shape) (registry : Registry) (row : Joined) :
    project (.ofShape s) registry row = .ok row.base :=
  congrArg Except.ok (List.append_nil row.base)

/-- A read of a shape drops no row when it computes the keys. -/
theorem keyedRows_cons (s : Shape) (registry : Registry) (seen : List Row) (row : Joined) (rest : List Joined) :
    keyedRows (.ofShape s) registry seen (row :: rest) = (do
      let keys ← orderKeys row s.ordering
      return (keys, row.base) :: (← keyedRows (.ofShape s) registry (seen ++ [row.base]) rest)) := by
  rw [keyedRows, project_ofShape, Outcome.ok_bind]
  rfl

/-- What a mutation hits, the read keeps, under the same keys; `base` finds the row of an index. -/
theorem keyedRows_of_hits (base : Nat → Record) {index : Nat} {rows : List Record}
    {found : List (List Value × Nat)} (hbase : ∀ p ∈ rows.zipIdx index, base p.2 = p.1)
    (h : st.hits owner s index rows = .ok found) :
    ∃ kept, Joined.filter s.predicate st.registry (rows.map (.single s.reference owner.name)) = .ok kept ∧
      ∀ seen, keyedRows (.ofShape s) st.registry seen kept = .ok (found.map (Prod.map id base)) := by
  induction rows generalizing index found with
  | nil =>
    cases h
    exact ⟨[], rfl, fun _ => rfl⟩
  | cons r rest ih =>
    rw [List.zipIdx_cons, List.forall_mem_cons] at hbase
    obtain ⟨hr, hrest⟩ := hbase
    rw [hits] at h
    obtain ⟨passes, hpasses, h⟩ := Outcome.bind_eq_ok.mp h
    rw [List.map_cons, Joined.filter, Joined.keep, hpasses, Outcome.ok_bind]
    split at h
    · rename_i hpass
      obtain ⟨keys, hkeys, h⟩ := Outcome.bind_eq_ok.mp h
      obtain ⟨more, hmore, h⟩ := Outcome.bind_eq_ok.mp h
      cases h
      obtain ⟨kept, hkept, hkeyed⟩ := ih hrest hmore
      refine ⟨.single s.reference owner.name r :: kept, ?_, fun seen => ?_⟩
      · rw [← Joined.filter, hkept, hpass]
        rfl
      · rw [keyedRows_cons, hkeys, Outcome.ok_bind, hkeyed, List.map_cons, Prod.map, hr]
        rfl
    · rename_i hpass
      obtain ⟨kept, hkept, hkeyed⟩ := ih hrest h
      refine ⟨kept, ?_, hkeyed⟩
      rw [← Joined.filter, hkept, Bool.eq_false_iff.mpr hpass]
      rfl

/-- Where the read has keys for all that it keeps, the mutation has hits. -/
theorem hits_of_keyedRows (index : Nat) {rows : List Record} {seen : List Row} {kept : List Joined}
    {keyed : List (List Value × Row)}
    (hkept : Joined.filter s.predicate st.registry (rows.map (.single s.reference owner.name)) = .ok kept)
    (hkeyed : keyedRows (.ofShape s) st.registry seen kept = .ok keyed) :
    ∃ found, st.hits owner s index rows = .ok found := by
  induction rows generalizing index seen kept keyed with
  | nil => exact ⟨[], rfl⟩
  | cons r rest ih =>
    obtain ⟨passes, hpasses, hkept⟩ := Outcome.bind_eq_ok.mp hkept
    obtain ⟨more, hmore, hkept⟩ := Outcome.bind_eq_ok.mp hkept
    cases hkept
    simp only at hpasses
    rw [hits, hpasses, Outcome.ok_bind]
    cases passes with
    | true =>
      rw [if_pos rfl, keyedRows_cons] at hkeyed
      obtain ⟨keys, hkeys, hkeyed⟩ := Outcome.bind_eq_ok.mp hkeyed
      obtain ⟨keyed, hkeyed, -⟩ := Outcome.bind_eq_ok.mp hkeyed
      obtain ⟨found, hfound⟩ := ih (index + 1) hmore hkeyed
      exact ⟨(keys, index) :: found, by rw [if_pos rfl, hkeys, Outcome.ok_bind, hfound]; rfl⟩
    | false => exact ih (index + 1) hmore hkeyed

/-! ## The read of a shape -/

/-- A read of a shape keeps the rows of the table that its predicate accepts. -/
theorem kept_ofShape {rows : List Record} (htable : st.table owner.name = .ok rows) :
    st.kept owner (.ofShape s) =
      Joined.filter s.predicate st.registry (rows.map (.single s.reference owner.name)) := by
  have hcompute : ∀ kept : List Joined, kept.mapM (Joined.compute st.registry []) = .ok kept :=
    fun kept => Outcome.mapM_eq_self_iff.mpr fun _ _ => rfl
  rw [kept, combined, htable]
  show (do
    let kept ← Joined.filter s.predicate st.registry (rows.map (.single s.reference owner.name))
    kept.mapM (Joined.compute st.registry []) : Outcome _) = _
  simp only [hcompute]
  exact bind_pure _

/-- A read of a shape answers the rows of the indices that a mutation of it picks, in their order. -/
theorem read_of_picked {rows : List Record} {indices : List Nat}
    (howner : owner.checkOwner s.source = .ok ()) (htable : st.table owner.name = .ok rows)
    (hpicked : st.picked owner s = .ok indices) :
    st.read owner (.ofShape s) = .ok (indices.map fun i => rows[i]?.getD []) := by
  rw [picked, htable, Outcome.ok_bind] at hpicked
  obtain ⟨found, hfound, hindices⟩ := Outcome.bind_eq_ok.mp hpicked
  cases hindices
  have hbase : ∀ p ∈ rows.zipIdx 0, rows[p.2]?.getD [] = p.1 := by
    intro p hp
    rw [List.mem_zipIdx_iff_getElem?.mp hp, Option.getD_some]
  obtain ⟨kept, hkept, hkeyed⟩ := keyedRows_of_hits (fun i => rows[i]?.getD []) hbase hfound
  rw [read]
  show (do
    owner.checkOwner s.source
    let rows ← st.kept owner (.ofShape s)
    return orderedWithin s (← keyedRows (.ofShape s) st.registry [] rows) : Outcome _) = _
  rw [howner, Outcome.ok_bind, kept_ofShape htable, hkept, Outcome.ok_bind, hkeyed, Outcome.ok_bind]
  exact congrArg Except.ok (orderedWithin_map s _ found)

/-- Where the read of a shape succeeds, a mutation of it picks some rows. -/
theorem picked_of_read {found : List Row} (h : st.read owner (.ofShape s) = .ok found) :
    ∃ rows indices, owner.checkOwner s.source = .ok () ∧ st.table owner.name = .ok rows ∧
      st.picked owner s = .ok indices := by
  obtain ⟨_, howner, h⟩ := Outcome.bind_eq_ok.mp h
  obtain ⟨kept, hkept, h⟩ := Outcome.bind_eq_ok.mp h
  obtain ⟨keyed, hkeyed, -⟩ := Outcome.bind_eq_ok.mp h
  obtain ⟨combined, hcombined, -⟩ := Outcome.bind_eq_ok.mp hkept
  obtain ⟨rows, htable, -⟩ := Outcome.bind_eq_ok.mp hcombined
  rw [kept_ofShape htable] at hkept
  obtain ⟨hits, hhits⟩ := hits_of_keyedRows 0 hkept hkeyed
  refine ⟨rows, orderedWithin s hits, howner, htable, ?_⟩
  rw [picked, htable, Outcome.ok_bind, hhits]
  rfl

/-! ## Mutations of a shape -/

/-- A delete leaves the rows of the other indices, in their order. -/
theorem without_eq (indices : List Nat) (index : Nat) (rows : List Record) :
    without indices index rows = ((rows.zipIdx index).filter fun p => p.2 ∉ indices).map Prod.fst := by
  induction rows generalizing index with
  | nil => rfl
  | cons r rest ih =>
    rw [without, ih, List.zipIdx_cons, List.filter_cons]
    by_cases h : index ∈ indices
    · simp [h]
    · simp [h]

theorem length_applyChanges (rows : List Record) (changes : List (Nat × List (String × Value))) :
    (applyChanges rows changes).length = rows.length := by
  induction changes generalizing rows with
  | nil => rfl
  | cons change rest ih => exact (ih _).trans (List.length_modify _ _ _)

/-- Every picked row has a change, which is computed from it as it was. -/
theorem changes_of_mem {u : UpdateSelection} {rows : List Record} {indices : List Nat}
    {changes : List (Nat × List (String × Value))} (h : st.changes owner u rows indices = .ok changes) :
    changes.map Prod.fst = indices ∧
      ∀ c ∈ changes, st.assignments owner u (rows[c.1]?.getD []) = .ok c.2 := by
  refine ⟨?_, Outcome.forall_of_mapM ?_ h⟩
  · rw [← List.map_id indices]
    refine Outcome.map_of_mapM ?_ h
    intro index c hc
    obtain ⟨pairs, -, hc⟩ := Outcome.bind_eq_ok.mp hc
    cases hc
    rfl
  · intro index c hc
    obtain ⟨pairs, hpairs, hc⟩ := Outcome.bind_eq_ok.mp hc
    cases hc
    exact hpairs

/-- These are the indices of the rows that a shape means: a read of it answers them, in this order. -/
structure Picks (st : Store) (owner : Source) (s : Shape) (rows : List Record) (indices : List Nat) : Prop where
  table : st.table owner.name = .ok rows
  nodup : indices.Nodup
  read : ∃ found, st.read owner (.ofShape s) = .ok found ∧ indices.map (rows[·]?) = found.map some

/-- What an update makes of the rows: it assigns those of the given indices, and leaves the others. -/
structure Rewrites (st : Store) (owner : Source) (u : UpdateSelection) (indices : List Nat)
    (rows rows' : List Record) : Prop where
  length : rows'.length = rows.length
  others : ∀ i, i ∉ indices → rows'[i]? = rows[i]?
  picked : ∀ i ∈ indices, ∃ r pairs, rows[i]? = some r ∧ st.assignments owner u r = .ok pairs ∧
    rows'[i]? = some (Entries.insertAll r pairs)

theorem picks_of_picked {rows : List Record} {indices : List Nat}
    (howner : owner.checkOwner s.source = .ok ()) (htable : st.table owner.name = .ok rows)
    (hpicked : st.picked owner s = .ok indices) : Picks st owner s rows indices := by
  obtain ⟨hnodup, hrange⟩ := picked_nodup htable hpicked
  refine ⟨htable, hnodup, _, read_of_picked howner htable hpicked, ?_⟩
  rw [List.map_map]
  refine List.map_congr_left fun i hi => ?_
  rw [Function.comp_apply, List.getElem?_eq_getElem (hrange i hi), Option.getD_some]

/-- The changes of an update rewrite the picked rows. -/
theorem rewrites_of_changes {u : UpdateSelection} {rows : List Record} {indices : List Nat}
    {changes : List (Nat × List (String × Value))} (hnodup : indices.Nodup)
    (hrange : ∀ i ∈ indices, i < rows.length) (h : st.changes owner u rows indices = .ok changes) :
    Rewrites st owner u indices rows (applyChanges rows changes) := by
  obtain ⟨rfl, hassigned⟩ := changes_of_mem h
  refine ⟨length_applyChanges rows changes, ?_, ?_⟩
  · intro i hi
    exact getElem?_applyChanges_of_not_mem fun c hc heq => hi (heq ▸ List.mem_map_of_mem hc)
  · intro i hi
    obtain ⟨c, hc, rfl⟩ := List.mem_map.mp hi
    obtain ⟨r, hrow⟩ : ∃ r, rows[c.1]? = some r := ⟨_, List.getElem?_eq_getElem (hrange _ hi)⟩
    have hpairs := hassigned c hc
    rw [hrow, Option.getD_some] at hpairs
    refine ⟨r, c.2, hrow, hpairs, ?_⟩
    rw [getElem?_applyChanges_of_mem hnodup hc, hrow, Option.map_some]

/-- A delete removes the picked rows and answers their number. -/
theorem delete_of_picked {rows : List Record} {indices : List Nat}
    (howner : owner.checkOwner s.source = .ok ()) (htable : st.table owner.name = .ok rows)
    (hpicked : st.picked owner s = .ok indices) :
    st.delete owner ⟨s⟩ = .ok (st.withTable owner.name (without indices 0 rows), indices.length) := by
  rw [delete, howner, Outcome.ok_bind, hpicked, Outcome.ok_bind, htable]
  rfl

theorem count_of_picks {rows : List Record} {indices : List Nat} (h : Picks st owner s rows indices) :
    st.count owner (.ofShape s) = .ok indices.length := by
  obtain ⟨found, hfound, hrows⟩ := h.read
  have hlength := congrArg List.length hrows
  rw [List.length_map, List.length_map] at hlength
  rw [count, hfound, hlength]
  rfl

/-- A successful delete picked the rows that it removed. -/
theorem delete_eq_ok {st' : Store} {n : Nat} (h : st.delete owner ⟨s⟩ = .ok (st', n)) :
    ∃ rows indices, owner.checkOwner s.source = .ok () ∧ st.table owner.name = .ok rows ∧
      st.picked owner s = .ok indices ∧ st' = st.withTable owner.name (without indices 0 rows) ∧
      n = indices.length := by
  obtain ⟨_, howner, h⟩ := Outcome.bind_eq_ok.mp h
  obtain ⟨indices, hpicked, h⟩ := Outcome.bind_eq_ok.mp h
  obtain ⟨rows, htable, h⟩ := Outcome.bind_eq_ok.mp h
  cases h
  exact ⟨rows, indices, howner, htable, hpicked, rfl, rfl⟩

/-- A successful update picked the rows that it changed. -/
theorem update_eq_ok {u : UpdateSelection} {st' : Store} {n : Nat} (h : st.update owner u = .ok (st', n)) :
    ∃ rows indices changes, owner.checkOwner u.shape.source = .ok () ∧ st.table owner.name = .ok rows ∧
      st.picked owner u.shape = .ok indices ∧ st.changes owner u rows indices = .ok changes ∧
      st' = st.withTable owner.name (applyChanges rows changes) ∧ n = indices.length := by
  obtain ⟨_, howner, h⟩ := Outcome.bind_eq_ok.mp h
  split at h
  · cases h
  obtain ⟨indices, hpicked, h⟩ := Outcome.bind_eq_ok.mp h
  obtain ⟨rows, htable, h⟩ := Outcome.bind_eq_ok.mp h
  obtain ⟨changes, hchanges, h⟩ := Outcome.bind_eq_ok.mp h
  cases h
  exact ⟨rows, indices, changes, howner, htable, hpicked, hchanges, rfl, rfl⟩

end

/-- Counting an undecided selection succeeds exactly when deleting it does.  Then there are the indices of
the rows that a read of it answers, as many as both count; the delete leaves the rows of the other indices,
and every update of the selection that succeeds counts the same rows and rewrites them.  An update succeeds
only where counting does. -/
theorem count_delete_update_agree (st : Store) (owner : Source) (s : Shape) :
    ((∃ n, st.count owner (.ofShape s) = .ok n) ↔ ∃ st' n, st.delete owner ⟨s⟩ = .ok (st', n)) ∧
      (∀ n, st.count owner (.ofShape s) = .ok n → ∃ rows indices, Picks st owner s rows indices ∧
        indices.length = n ∧
        st.delete owner ⟨s⟩ = .ok (st.withTable owner.name
          ((rows.zipIdx.filter fun p => p.2 ∉ indices).map Prod.fst), n) ∧
        ∀ (u : UpdateSelection) (st' : Store) (m : Nat), u.shape = s → st.update owner u = .ok (st', m) →
          m = n ∧ ∃ rows', st' = st.withTable owner.name rows' ∧ Rewrites st owner u indices rows rows') ∧
      ∀ (u : UpdateSelection) (st' : Store) (m : Nat), u.shape = s → st.update owner u = .ok (st', m) →
        st.count owner (.ofShape s) = .ok m := by
  refine ⟨⟨?_, ?_⟩, ?_, ?_⟩
  · rintro ⟨n, hcount⟩
    obtain ⟨found, hfound, -⟩ := Outcome.bind_eq_ok.mp hcount
    obtain ⟨rows, indices, howner, htable, hpicked⟩ := picked_of_read hfound
    exact ⟨_, _, delete_of_picked howner htable hpicked⟩
  · rintro ⟨st', n, hdelete⟩
    obtain ⟨rows, indices, howner, htable, hpicked, -, -⟩ := delete_eq_ok hdelete
    exact ⟨_, count_of_picks (picks_of_picked howner htable hpicked)⟩
  · intro n hcount
    obtain ⟨found, hfound, -⟩ := Outcome.bind_eq_ok.mp hcount
    obtain ⟨rows, indices, howner, htable, hpicked⟩ := picked_of_read hfound
    have hpicks := picks_of_picked howner htable hpicked
    have hlength : n = indices.length := Except.ok.inj (hcount.symm.trans (count_of_picks hpicks))
    refine ⟨rows, indices, hpicks, hlength.symm, ?_, ?_⟩
    · rw [← without_eq, hlength]
      exact delete_of_picked howner htable hpicked
    · rintro u st' m rfl hupdate
      obtain ⟨rows₁, indices₁, changes, -, htable₁, hpicked₁, hchanges, rfl, rfl⟩ := update_eq_ok hupdate
      -- the update sees the rows and the indices that the read sees
      cases htable.symm.trans htable₁
      cases hpicked.symm.trans hpicked₁
      obtain ⟨hnodup, hrange⟩ := picked_nodup htable hpicked
      exact ⟨hlength.symm, _, rfl, rewrites_of_changes hnodup hrange hchanges⟩
  · rintro u st' m rfl hupdate
    obtain ⟨rows, indices, changes, howner, htable, hpicked, -, -, rfl⟩ := update_eq_ok hupdate
    exact count_of_picks (picks_of_picked howner htable hpicked)

/-- A source of ranked records. -/
def ranks : Source := ⟨0, ⟨"ranks", [("name", .plainText), ("rank", .int)], none⟩⟩

/-- A ranked record. -/
def ranked (name : String) (rank : Int64) : Record := [("name", .string name), ("rank", .int rank)]

/-- The second of the records of the highest rank. -/
theorem count_delete_update_agree_second :
    let st := (empty 0 []).attach ranks.model [ranked "a" 2, ranked "b" 1, ranked "c" 2]
    let s := (((Shape.ofSource ranks).orderBy (.raw "rank") true).withLimit 1).withOffset 1
    st.count ranks (.ofShape s) = .ok 1 ∧
      (∃ rows indices, Picks st ranks s rows indices ∧ indices.length = 1 ∧
        st.delete ranks ⟨s⟩ = .ok (st.withTable "ranks"
          ((rows.zipIdx.filter fun p => p.2 ∉ indices).map Prod.fst), 1)) ∧
      st.delete ranks ⟨s⟩ = .ok (st.withTable "ranks" [ranked "a" 2, ranked "b" 1], 1) := by
  intro st s
  have hcount : st.count ranks (.ofShape s) = .ok 1 := rfl
  obtain ⟨-, hagree, -⟩ := count_delete_update_agree st ranks s
  obtain ⟨rows, indices, hpicks, hlength, hdelete, -⟩ := hagree 1 hcount
  exact ⟨hcount, ⟨rows, indices, hpicks, hlength, hdelete⟩, rfl⟩

end Store

end RecordQuery
