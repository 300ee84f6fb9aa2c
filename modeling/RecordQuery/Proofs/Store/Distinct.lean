import Mathlib.Data.List.Sort
import Mathlib.Data.Set.Card
import RecordQuery.Proofs.Condition.Evaluation
import RecordQuery.Proofs.Store.Found
import RecordQuery.Proofs.Store.Run
import RecordQuery.Proofs.Value.Sameness
set_option autoImplicit false

/-!
# Store: one row of each key

Grouping keeps the rows at the positions before which their key does not occur, in their order, and a distinct read
does so with the columns of the rows for keys (`FirstOfEach`).  They are the only ones: none is lost, for each key
that occurs is among those of the first rows, and none is kept twice, for these keys differ.  Both compare keys for
sameness, which is equality where there are no floats.
-/

namespace RecordQuery

/-! ## First items -/

section

variable {κ α : Type}

/-- The positions of the items whose key is not among the seen ones and does not occur before them. -/
structure FirstPositions (seen : List κ) (items : List (κ × α)) (positions : List Nat) : Prop where
  ascending : positions.Pairwise (· < ·)
  mem_iff : ∀ i, i ∈ positions ↔ ∃ item, items[i]? = some item ∧ item.1 ∉ seen ∧
    ∀ j other, j < i → items[j]? = some other → other.1 ≠ item.1

/-- The first item of each key, in the order of the items. -/
def FirstOfEach (items firsts : List (κ × α)) : Prop :=
  ∃ positions, FirstPositions [] items positions ∧ firsts.map some = positions.map (items[·]?)

variable {seen : List κ} {items firsts : List (κ × α)} {positions : List Nat}

theorem firstPositions_nil : FirstPositions seen ([] : List (κ × α)) [] :=
  ⟨List.Pairwise.nil, fun i => by simp⟩

theorem ascending_shift (h : positions.Pairwise (· < ·)) : (positions.map (· + 1)).Pairwise (· < ·) :=
  h.map _ fun _ _ => Nat.succ_lt_succ

theorem mem_shift {i : Nat} : i + 1 ∈ positions.map (· + 1) ↔ i ∈ positions := by simp

/-- A key that is seen hides the item in front. -/
theorem FirstPositions.skip {item : κ × α} (h : FirstPositions seen items positions) (hseen : item.1 ∈ seen) :
    FirstPositions seen (item :: items) (positions.map (· + 1)) := by
  refine ⟨ascending_shift h.ascending, fun i => ?_⟩
  cases i with
  | zero =>
    constructor
    · simp
    · rintro ⟨found, hfound, hnot, -⟩
      obtain rfl : item = found := Option.some.inj hfound
      exact absurd hseen hnot
  | succ i =>
    rw [mem_shift, h.mem_iff]
    refine exists_congr fun found => and_congr_right fun _ => and_congr_right fun hnot => ?_
    constructor
    · intro hbefore j other hj hother
      cases j with
      | zero =>
        obtain rfl : item = other := Option.some.inj hother
        exact fun heq => hnot (heq ▸ hseen)
      | succ j => exact hbefore j other (Nat.lt_of_succ_lt_succ hj) hother
    · exact fun hbefore j other hj hother => hbefore (j + 1) other (Nat.succ_lt_succ hj) hother

/-- An item with a new key stands first, and its key is seen from then on. -/
theorem FirstPositions.take {item : κ × α} (h : FirstPositions (seen ++ [item.1]) items positions)
    (hnew : item.1 ∉ seen) : FirstPositions seen (item :: items) (0 :: positions.map (· + 1)) := by
  refine ⟨List.pairwise_cons.mpr ⟨by simp, ascending_shift h.ascending⟩, fun i => ?_⟩
  cases i with
  | zero => exact ⟨fun _ => ⟨item, rfl, hnew, fun j other hj => absurd hj (Nat.not_lt_zero j)⟩, fun _ => List.mem_cons_self⟩
  | succ i =>
    have hshift : i + 1 ∈ 0 :: positions.map (· + 1) ↔ i ∈ positions := by simp
    rw [hshift, h.mem_iff]
    refine exists_congr fun found => and_congr_right fun _ => ?_
    rw [List.mem_append, not_or, List.mem_singleton, and_assoc]
    refine and_congr_right fun _ => ?_
    constructor
    · rintro ⟨hne, hbefore⟩ j other hj hother
      cases j with
      | zero =>
        obtain rfl : item = other := Option.some.inj hother
        exact Ne.symm hne
      | succ j => exact hbefore j other (Nat.lt_of_succ_lt_succ hj) hother
    · intro hbefore
      refine ⟨(hbefore 0 item (Nat.succ_pos i) rfl).symm, fun j other hj hother => ?_⟩
      exact hbefore (j + 1) other (Nat.succ_lt_succ hj) hother

/-- Where sameness of the keys is equality, the items that are kept are the first ones of the keys that are not
seen. -/
theorem firstByKey_positions {same : κ → κ → Bool}
    (hsame : ∀ k ∈ seen ++ items.map Prod.fst, ∀ l, same k l = true ↔ k = l) :
    ∃ positions, FirstPositions seen items positions ∧
      (Joined.firstByKey same seen items).map some = positions.map (items[·]?) := by
  induction items generalizing seen with
  | nil => exact ⟨[], firstPositions_nil, rfl⟩
  | cons item rest ih =>
    obtain ⟨k, x⟩ := item
    have hseen : seen.any (same · k) = true ↔ k ∈ seen := by
      rw [List.any_eq_true]
      constructor
      · rintro ⟨l, hl, hlk⟩
        rwa [← (hsame l (List.mem_append_left _ hl) k).mp hlk]
      · exact fun hk => ⟨k, hk, (hsame k (List.mem_append_left _ hk) k).mpr rfl⟩
    rw [Joined.firstByKey]
    by_cases hk : k ∈ seen
    · rw [if_pos (hseen.mpr hk)]
      obtain ⟨positions, hpositions, hrest⟩ :=
        @ih seen fun l hl =>
          hsame l (List.mem_append.mpr ((List.mem_append.mp hl).imp_right (List.mem_cons_of_mem k)))
      refine ⟨_, hpositions.skip hk, ?_⟩
      rw [hrest, List.map_map]
      rfl
    · rw [if_neg (mt hseen.mp hk)]
      obtain ⟨positions, hpositions, hrest⟩ :=
        @ih (seen ++ [k]) fun l hl => hsame l (by rw [List.append_assoc] at hl; exact hl)
      refine ⟨_, hpositions.take hk, ?_⟩
      rw [List.map_cons, List.map_cons, hrest, List.map_map]
      rfl

theorem firstOfEach_firstByKey {same : κ → κ → Bool}
    (hsame : ∀ item ∈ items, ∀ l, same item.1 l = true ↔ item.1 = l) :
    FirstOfEach items (Joined.firstByKey same [] items) :=
  firstByKey_positions (List.forall_mem_map.mpr hsame)

/-- There is only one list of first items. -/
theorem FirstOfEach.unique {firsts' : List (κ × α)} (h : FirstOfEach items firsts)
    (h' : FirstOfEach items firsts') : firsts = firsts' := by
  obtain ⟨positions, hpositions, hfirsts⟩ := h
  obtain ⟨positions', hpositions', hfirsts'⟩ := h'
  have heq : positions = positions' := hpositions.ascending.eq_of_mem_iff hpositions'.ascending fun i => by
    rw [hpositions.mem_iff, hpositions'.mem_iff]
  rw [← heq, ← hfirsts] at hfirsts'
  exact (List.map_injective_iff.mpr (Option.some_injective _) hfirsts').symm

theorem FirstOfEach.mem (h : FirstOfEach items firsts) {first : κ × α} (hfirst : first ∈ firsts) :
    first ∈ items := by
  obtain ⟨positions, -, hfirsts⟩ := h
  have hmem : some first ∈ positions.map (items[·]?) := hfirsts ▸ List.mem_map_of_mem hfirst
  obtain ⟨i, -, hi⟩ := List.mem_map.mp hmem
  exact List.mem_of_getElem? hi

/-- The keys of first items differ. -/
theorem FirstOfEach.nodup (h : FirstOfEach items firsts) : (firsts.map Prod.fst).Nodup := by
  obtain ⟨positions, hpositions, hfirsts⟩ := h
  have hpairs : (positions.map (items[·]?)).Pairwise fun x y => x.map Prod.fst ≠ y.map Prod.fst := by
    refine List.pairwise_map.mpr (hpositions.ascending.imp_of_mem ?_)
    intro i j hi hj hij heq
    obtain ⟨earlier, hearlier, -⟩ := (hpositions.mem_iff i).mp hi
    obtain ⟨later, hlater, -, hbefore⟩ := (hpositions.mem_iff j).mp hj
    rw [hearlier, hlater] at heq
    exact hbefore i earlier hij hearlier (Option.some.inj heq)
  rw [← hfirsts, List.pairwise_map] at hpairs
  exact List.pairwise_map.mpr (hpairs.imp fun hne heq => hne (congrArg some heq))

/-- Every key that occurs is that of a first item. -/
theorem FirstOfEach.covers (h : FirstOfEach items firsts) {item : κ × α} (hitem : item ∈ items) :
    item.1 ∈ firsts.map Prod.fst := by
  obtain ⟨positions, hpositions, hfirsts⟩ := h
  obtain ⟨i, hi⟩ := List.mem_iff_getElem?.mp hitem
  -- the first position of the key
  induction i using Nat.strongRecOn generalizing item with
  | ind i ih =>
    by_cases hfirst : i ∈ positions
    · have hmem : some item ∈ firsts.map some := by
        rw [hfirsts, ← hi]
        exact List.mem_map_of_mem hfirst
      exact List.mem_map_of_mem ((List.mem_map_of_injective (Option.some_injective _)).mp hmem)
    · rw [hpositions.mem_iff] at hfirst
      push Not at hfirst
      obtain ⟨j, other, hj, hother, hkey⟩ := hfirst item hi List.not_mem_nil
      rw [← hkey]
      exact ih j hj (List.mem_of_getElem? hother) hother

/-- First items have the keys that occur, and no others. -/
theorem FirstOfEach.mem_keys (h : FirstOfEach items firsts) {key : κ} :
    key ∈ firsts.map Prod.fst ↔ key ∈ items.map Prod.fst := by
  constructor
  · intro hkey
    obtain ⟨first, hfirst, rfl⟩ := List.mem_map.mp hkey
    exact List.mem_map_of_mem (h.mem hfirst)
  · intro hkey
    obtain ⟨item, hitem, rfl⟩ := List.mem_map.mp hkey
    exact h.covers hitem

end

/-! ## Groups -/

namespace Joined

variable {registry : Registry} {g : Grouping} {rows kept : List Joined}

/-- A row under the values of the columns of a grouping. -/
def groupKey (g : Grouping) (row : Joined) : Outcome (List Value × Joined) := do
  return (← row.values g.columns, row)

theorem groupKey_eq_ok {row : Joined} {item : List Value × Joined} :
    groupKey g row = .ok item ↔ row.values g.columns = .ok item.1 ∧ item.2 = row := Outcome.pair_eq_ok

/-- A filter tests all rows and keeps those that pass. -/
theorem filter_eq_ok {p : Predicate} : filter p registry rows = .ok kept ↔
    (∀ row ∈ rows, ∃ truth, p.holds row.scope registry = .ok truth) ∧
      kept = rows.filter fun row => p.toCondition.isTrue row.scope registry := by
  have hok : (∀ row ∈ rows, ∃ truth, p.holds row.scope registry = .ok truth) →
      filter p registry rows = .ok (rows.filter fun row => p.toCondition.isTrue row.scope registry) := by
    intro h
    refine keep_of_ok fun row hrow => ?_
    obtain ⟨truth, htruth⟩ := h row hrow
    have htrue : p.toCondition.isTrue row.scope registry = truth := isTrue_of_ok htruth
    rw [htruth, htrue]
  constructor
  · intro h
    have hall := ok_of_keep h
    exact ⟨hall, Except.ok.inj (h.symm.trans (hok hall))⟩
  · rintro ⟨hall, rfl⟩
    exact hok hall

/-- A grouping by keys without floats keeps the first row of each key, and of these the ones for which its predicate
holds. -/
theorem group_eq_ok
    (hfree : ∀ row ∈ rows, ∀ key, row.values g.columns = .ok key → Value.itemsFloatFree key = true) :
    group g registry rows = .ok kept ↔ ∃ items firsts, rows.mapM (groupKey g) = .ok items ∧
      FirstOfEach items firsts ∧ filter g.having registry (firsts.map Prod.snd) = .ok kept := by
  have hfirsts : ∀ items, rows.mapM (groupKey g) = .ok items →
      FirstOfEach items (firstByKey Value.identicalItems [] items) := by
    intro items hitems
    refine firstOfEach_firstByKey fun item hitem l => ?_
    obtain ⟨row, hrow, hkey⟩ := Outcome.exists_of_mapM hitems hitem
    exact Value.identicalItems_iff (hfree row hrow item.1 (groupKey_eq_ok.mp hkey).1)
  show (rows.mapM (groupKey g) >>= _) = _ ↔ _
  rw [Outcome.bind_eq_ok]
  refine exists_congr fun items => ?_
  constructor
  · rintro ⟨hitems, hkept⟩
    exact ⟨_, hitems, hfirsts items hitems, hkept⟩
  · rintro ⟨firsts, hitems, hfirst, hkept⟩
    rw [hfirst.unique (hfirsts items hitems)] at hkept
    exact ⟨hitems, hkept⟩

end Joined

/-! ## Distinct reads -/

/-- A list without repetition counts a set. -/
theorem ncard_of_nodup {α : Type} {items : List α} (h : items.Nodup) {s : Set α} (hs : ∀ x, x ∈ s ↔ x ∈ items) :
    s.ncard = items.length := by
  classical
  have hset : s = ↑items.toFinset := Set.ext fun x => by rw [hs, List.coe_toFinset]; rfl
  rw [hset, Set.ncard_coe_finset, List.toFinset_card_of_nodup h]

namespace Store

section

variable {st : Store} {owner : Source} {r : ReadSelection} {rows : List Row}

/-- No column of a row that a read projects holds a float. -/
def ColumnsFloatFree (st : Store) (owner : Source) (r : ReadSelection) : Prop :=
  ∀ kept, st.kept owner r = .ok kept → ∀ row ∈ kept, ∀ columns, project r st.registry row = .ok columns →
    Value.entriesFloatFree columns = true

/-- The read that keeps repeated rows. -/
def repeating (r : ReadSelection) : ReadSelection := { r with distinct := false }

/-- A distinct read finds the first row of each projection. -/
theorem found_of_distinct {items : List (List Value × Row)} (hdistinct : r.distinct = true)
    (hfree : st.ColumnsFloatFree owner r) (h : st.found owner r = .ok items) :
    ∃ kept pairs firsts, st.kept owner r = .ok kept ∧ kept.mapM (projected r st.registry) = .ok pairs ∧
      FirstOfEach pairs firsts ∧ firsts.mapM (keyed r.shape.ordering) = .ok items := by
  obtain ⟨-, kept, pairs, hkept, hpairs, hitems⟩ := found_eq_ok.mp h
  rw [retained, if_pos hdistinct] at hitems
  refine ⟨kept, pairs, _, hkept, hpairs, firstOfEach_firstByKey fun p hp l => ?_, hitems⟩
  obtain ⟨row, hrow, hp⟩ := Outcome.exists_of_mapM hpairs hp
  exact Value.identicalRows_iff (hfree kept hkept row hrow p.1 (projected_eq_ok.mp hp).1)

/-- The read that keeps repeated rows answers all projections. -/
theorem read_repeating {kept : List Joined} {pairs : List (Row × Joined)} (hlimit : r.shape.limit = none)
    (hoffset : r.shape.offset = 0) (hkept : st.kept owner r = .ok kept)
    (hpairs : kept.mapM (projected r st.registry) = .ok pairs) (h : st.read owner (repeating r) = .ok rows) :
    rows.Perm (pairs.map Prod.fst) := by
  obtain ⟨items, hitems, rfl⟩ := (read_of_unbounded (r := repeating r) hlimit hoffset).mp h
  obtain ⟨-, kept', pairs', hkept', hpairs', hitems⟩ := found_eq_ok.mp hitems
  obtain rfl : kept = kept' := Except.ok.inj (hkept.symm.trans hkept')
  obtain rfl : pairs = pairs' := Except.ok.inj (hpairs.symm.trans hpairs')
  have hcolumns : items.map Prod.snd = pairs.map Prod.fst :=
    Outcome.map_of_mapM (fun _ _ hp => (keyed_eq_ok.mp hp).2) hitems
  rw [← hcolumns]
  exact (Sorting.perm_sortBy _ items).map Prod.snd

/-- Where the read that keeps repeated rows succeeds, so does the distinct one, which computes fewer keys. -/
theorem ok_of_repeating (h : st.read owner (repeating r) = .ok rows) : ∃ distinct, st.read owner r = .ok distinct := by
  obtain ⟨items, hitems, -⟩ := read_eq_ok.mp h
  obtain ⟨howner, kept, pairs, hkept, hpairs, hitems⟩ := found_eq_ok.mp hitems
  have hkeyed : ∀ p ∈ retained r.distinct [] pairs, ∃ item, keyed r.shape.ordering p = .ok item := fun p hp =>
    Outcome.ok_of_mapM hitems (retained_sublist.subset hp)
  choose! item hitem using hkeyed
  have hfound := (found_eq_ok (r := r)).mpr ⟨howner, kept, pairs, hkept, hpairs, Outcome.mapM_eq_ok hitem⟩
  exact ⟨_, read_eq_ok.mpr ⟨_, hfound, rfl⟩⟩

end

/-- Grouping and distinct reads keep one row of each key, the first one.  A grouping by keys without floats succeeds
where the keys of all rows have values and its predicate has one for the first row of each key; it answers those of
them for which the predicate holds.  A distinct read whose columns are without floats answers each projection of a
kept row once, under the ordering keys of the first row with this projection, and counts the different projections.
It succeeds wherever the read that keeps repeated rows does. -/
theorem one_row_of_each_key :
    (∀ (g : Grouping) (registry : Registry) (rows kept : List Joined),
      (∀ row ∈ rows, ∀ key, row.values g.columns = .ok key → Value.itemsFloatFree key = true) →
      (Joined.group g registry rows = .ok kept ↔ ∃ items firsts, rows.mapM (Joined.groupKey g) = .ok items ∧
        FirstOfEach items firsts ∧ (firsts.map Prod.fst).Nodup ∧
        (∀ item ∈ items, item.1 ∈ firsts.map Prod.fst) ∧
        (∀ row ∈ firsts.map Prod.snd, ∃ truth, g.having.holds row.scope registry = .ok truth) ∧
        kept = (firsts.map Prod.snd).filter fun row => g.having.toCondition.isTrue row.scope registry)) ∧
    (∀ (st : Store) (owner : Source) (r : ReadSelection) (rows : List Row), r.distinct = true →
      r.shape.limit = none → r.shape.offset = 0 → st.ColumnsFloatFree owner r → st.read owner r = .ok rows →
      ∃ kept pairs firsts items, st.kept owner (repeating r) = .ok kept ∧
        kept.mapM (projected (repeating r) st.registry) = .ok pairs ∧ FirstOfEach pairs firsts ∧
        firsts.mapM (keyed r.shape.ordering) = .ok items ∧
        rows = (sortKeyed r.shape.ordering items).map Prod.snd ∧ rows.Nodup ∧
        (∀ columns, columns ∈ rows ↔ columns ∈ pairs.map Prod.fst) ∧
        st.count owner r = .ok {columns | columns ∈ pairs.map Prod.fst}.ncard ∧
        ∀ all, st.read owner (repeating r) = .ok all → all.Perm (pairs.map Prod.fst)) ∧
    ∀ (st : Store) (owner : Source) (r : ReadSelection) (all : List Row),
      st.read owner (repeating r) = .ok all → ∃ rows, st.read owner r = .ok rows := by
  refine ⟨?_, ?_, fun st owner r all h => ok_of_repeating h⟩
  · intro g registry rows kept hfree
    rw [Joined.group_eq_ok hfree]
    refine exists₂_congr fun items firsts => and_congr_right fun _ => ?_
    rw [Joined.filter_eq_ok]
    exact ⟨fun h => ⟨h.1, h.1.nodup, fun _ hitem => h.1.covers hitem, h.2⟩, fun h => ⟨h.1, h.2.2.2⟩⟩
  · intro st owner r rows hdistinct hlimit hoffset hfree hread
    obtain ⟨items, hitems, rfl⟩ := (read_of_unbounded hlimit hoffset).mp hread
    obtain ⟨kept, pairs, firsts, hkept, hpairs, hfirsts, hkeyed⟩ := found_of_distinct hdistinct hfree hitems
    have hcolumns : items.map Prod.snd = firsts.map Prod.fst :=
      Outcome.map_of_mapM (fun _ _ hp => (keyed_eq_ok.mp hp).2) hkeyed
    have hperm : ((sortKeyed r.shape.ordering items).map Prod.snd).Perm (firsts.map Prod.fst) :=
      hcolumns ▸ (Sorting.perm_sortBy _ items).map Prod.snd
    have hnodup := hperm.nodup_iff.mpr hfirsts.nodup
    have hmem : ∀ columns, columns ∈ (sortKeyed r.shape.ordering items).map Prod.snd ↔
        columns ∈ pairs.map Prod.fst := fun _ => hperm.mem_iff.trans hfirsts.mem_keys
    refine ⟨kept, pairs, firsts, items, hkept, hpairs, hfirsts, hkeyed, rfl, hnodup, hmem, ?_, ?_⟩
    · have hcount : {columns | columns ∈ pairs.map Prod.fst}.ncard = _ :=
        ncard_of_nodup hnodup fun columns => (hmem columns).symm
      rw [count_of_read hread, hcount]
    · exact fun all => read_repeating hlimit hoffset hkept hpairs

/-- A source of records with a mark of any kind. -/
def marks : Source := ⟨0, ⟨"marks", [("name", .plainText), ("mark", .plainText)], none⟩⟩

/-- A record with a mark. -/
def marked (name : String) (mark : Value) : Record := [("mark", mark), ("name", .string name)]

/-- The records without a mark are one group, one and the text of one are two. -/
theorem one_row_of_each_key_null :
    let records := [marked "a" .null, marked "b" (.int 1), marked "c" (.string "1"), marked "d" .null]
    let rows := records.map (Joined.single "marks" "marks")
    let unmarked : Grouping := ⟨[.raw "mark"], ⟨[(.and, .expr (.binary (.raw "mark") .is Expr.null))], false⟩⟩
    let st := (empty 0 []).attach marks.model records
    let r := ((ReadSelection.ofShape ((Shape.ofSource marks).orderBy (.raw "name") true)).select ["mark"]).asDistinct
    let found := [[("mark", .string "1")], [("mark", .int 1)], [("mark", .null)]]
    (∀ row ∈ rows, ∀ key, row.values unmarked.columns = .ok key → Value.itemsFloatFree key = true) ∧
      Joined.group unmarked [] rows = .ok [.single "marks" "marks" (marked "a" .null)] ∧
      (∃ items firsts, rows.mapM (Joined.groupKey unmarked) = .ok items ∧ FirstOfEach items firsts) ∧
      r.distinct = true ∧ r.shape.limit = none ∧ r.shape.offset = 0 ∧ st.ColumnsFloatFree marks r ∧
      st.read marks r = .ok found ∧ (∀ columns, columns ∈ found ↔ columns ∈ records.map fun x => x.take 1) ∧
      (∃ all, st.read marks (repeating r) = .ok all) ∧ ∃ rows, st.read marks r = .ok rows := by
  intro records rows unmarked st r found
  obtain ⟨hgroup, hdistinct, hrepeating⟩ := one_row_of_each_key
  have hmarks : ∀ row ∈ rows, Value.isFloatFree ((row.field? "mark").getD .null) = true := by decide
  have hfree : ∀ row ∈ rows, ∀ key, row.values unmarked.columns = .ok key → Value.itemsFloatFree key = true := by
    intro row hrow key hkey
    obtain rfl : [(row.field? "mark").getD .null] = key := Except.ok.inj hkey
    rw [Value.itemsFloatFree, hmarks row hrow]
    rfl
  have hcolumns : st.ColumnsFloatFree marks r := by
    intro kept hkept row hrow columns hproject
    obtain rfl : rows = kept := Except.ok.inj hkept
    obtain rfl : [("mark", (row.field? "mark").getD .null)] = columns := Except.ok.inj hproject
    rw [Value.entriesFloatFree, hmarks row hrow]
    rfl
  have hkept : Joined.group unmarked [] rows = .ok [.single "marks" "marks" (marked "a" .null)] := rfl
  have hread : st.read marks r = .ok found := rfl
  have hall : st.read marks (repeating r) =
      .ok [[("mark", .null)], [("mark", .string "1")], [("mark", .int 1)], [("mark", .null)]] := rfl
  obtain ⟨items, firsts, hitems, hfirsts, -⟩ := (hgroup unmarked [] rows _ hfree).mp hkept
  obtain ⟨kept, pairs, -, -, hbase, hpairs, -, -, -, -, hmem, -⟩ :=
    hdistinct st marks r found rfl rfl rfl hcolumns hread
  obtain rfl : rows = kept := Except.ok.inj hbase
  have hprojected : pairs.map Prod.fst = records.map fun x => x.take 1 :=
    congrArg (List.map Prod.fst) (Except.ok.inj hpairs).symm
  exact ⟨hfree, hkept, ⟨items, firsts, hitems, hfirsts⟩, rfl, rfl, rfl, hcolumns, hread,
    fun columns => hprojected ▸ hmem columns, ⟨_, hall⟩, hrepeating st marks r _ hall⟩

end Store

end RecordQuery
