import RecordQuery.Proofs.Store.Call
set_option autoImplicit false

/-!
# Store: updates assign at once

An update picks rows, computes what it assigns to each of them from the row as it was, and only then writes.
So the fields that it sets see no other assignment of the same update, rows that are not picked stay as they
are, and the order of assignments to different fields does not matter (`update_simultaneous`).
-/

namespace RecordQuery.Store

/-! ## What an update means -/

section

variable (st : Store) (owner : Source)

/-- The predicate of a shape accepts a row of a source. -/
def Accepts (s : Shape) (r : Record) : Prop :=
  s.predicate.holds (Joined.single s.reference owner.name r).scope st.registry = .ok true

/-- The indices of the rows that the predicate of a shape accepts, in their order, each under its ordering
keys. -/
structure Matches (s : Shape) (rows : List Record) (found : List (List Value × Nat)) : Prop where
  ascending : (found.map Prod.snd).Pairwise (· < ·)
  accepted : ∀ i r, rows[i]? = some r → (i ∈ found.map Prod.snd ↔ Accepts st owner s r)
  keys : ∀ p ∈ found, ∃ r, rows[p.2]? = some r ∧
    orderKeys (Joined.single s.reference owner.name r) s.ordering = .ok p.1

/-- What a field is set to, computed in a row. -/
def assignedValue (s : Shape) (old : Record) : Assigned → Outcome Value
  | .value v => .ok v
  | .computed fragment => Joined.fragmentValue st.registry (Joined.single s.reference owner.name old) fragment

/-- A row as an update leaves it: a field has the last value that the update sets it to, computed in the old
row and brought into its type; a field that is not set has its old value; the names stay in order. -/
structure Reassigned (u : UpdateSelection) (old new : Record) : Prop where
  set : ∀ name a, Entries.find? (Entries.ofPairs u.sets) name = some a → ∃ v w,
    assignedValue st owner u.shape old a = .ok v ∧ coerce owner.model name v = .ok (name, w) ∧
      Entries.find? new name = some w
  kept : ∀ name, name ∉ u.sets.map Prod.fst → Entries.find? new name = Entries.find? old name
  sorted : Entries.Sorted old → Entries.Sorted new

/-- What an update makes of a store: it reassigns the rows that the predicate, ordering and bounds of its
shape pick, and nothing else. -/
structure Updates (u : UpdateSelection) (n : Nat) (st' : Store) : Prop where
  rows : ∃ rows rows' found, st.table owner.name = .ok rows ∧ st'.table owner.name = .ok rows' ∧
    Matches st owner u.shape rows found ∧ (orderedWithin u.shape found).Nodup ∧
    (orderedWithin u.shape found).length = n ∧ rows'.length = rows.length ∧
    (∀ i, i ∉ orderedWithin u.shape found → rows'[i]? = rows[i]?) ∧
    ∀ i ∈ orderedWithin u.shape found, ∃ old new, rows[i]? = some old ∧ rows'[i]? = some new ∧
      Reassigned st owner u old new
  tables : ∀ name, name ≠ owner.name → st'.table name = st.table name

end

/-! ## Picking -/

section

variable {st : Store} {owner : Source}

theorem hits_zipIdx {s : Shape} {index : Nat} {rows : List Record} {found : List (List Value × Nat)}
    (h : st.hits owner s index rows = .ok found) :
    (∀ p ∈ rows.zipIdx index, p.2 ∈ found.map Prod.snd ↔ Accepts st owner s p.1) ∧
      ∀ p ∈ found, ∃ r, (r, p.2) ∈ rows.zipIdx index ∧
        orderKeys (Joined.single s.reference owner.name r) s.ordering = .ok p.1 := by
  induction rows generalizing index found with
  | nil =>
    cases h
    exact ⟨nofun, nofun⟩
  | cons base rest ih =>
    rw [hits] at h
    obtain ⟨passes, hpasses, h⟩ := Outcome.bind_eq_ok.mp h
    have hbase : Accepts st owner s base ↔ passes = true := by
      rw [Accepts, hpasses, Except.ok.injEq]
    have hlater : ∀ p ∈ rest.zipIdx (index + 1), p.2 ≠ index := fun p hp => by
      have := List.le_snd_of_mem_zipIdx hp
      omega
    rw [List.zipIdx_cons, List.forall_mem_cons]
    simp only [List.mem_cons]
    split at h
    · rename_i hpass
      obtain ⟨keys, hkeys, h⟩ := Outcome.bind_eq_ok.mp h
      obtain ⟨more, hmore, h⟩ := Outcome.bind_eq_ok.mp h
      cases h
      obtain ⟨haccepted, hrest⟩ := ih hmore
      refine ⟨⟨iff_of_true List.mem_cons_self (hbase.mpr hpass), fun p hp => ?_⟩, fun p hp => ?_⟩
      · rw [List.map_cons, List.mem_cons, or_iff_right (hlater p hp)]
        exact haccepted p hp
      · rcases List.mem_cons.mp hp with rfl | hp
        · exact ⟨base, .inl rfl, hkeys⟩
        · obtain ⟨r, hr, hkeys⟩ := hrest p hp
          exact ⟨r, .inr hr, hkeys⟩
    · rename_i hpass
      obtain ⟨haccepted, hrest⟩ := ih h
      have hskipped : index ∉ found.map Prod.snd := fun hmem => by
        have := ((hits_indices h).2 index hmem).1
        omega
      refine ⟨⟨iff_of_false hskipped fun haccept => hpass (hbase.mp haccept), haccepted⟩, fun p hp => ?_⟩
      obtain ⟨r, hr, hkeys⟩ := hrest p hp
      exact ⟨r, .inr hr, hkeys⟩

theorem matches_of_hits {s : Shape} {rows : List Record} {found : List (List Value × Nat)}
    (h : st.hits owner s 0 rows = .ok found) : Matches st owner s rows found := by
  obtain ⟨haccepted, hkeys⟩ := hits_zipIdx h
  refine ⟨(hits_indices h).1, fun i r hr => haccepted (r, i) (List.mem_zipIdx_iff_getElem?.mpr hr), ?_⟩
  intro p hp
  obtain ⟨r, hr, hkeys⟩ := hkeys p hp
  exact ⟨r, List.mem_zipIdx_iff_getElem?.mp hr, hkeys⟩

/-! ## Assigning -/

/-- An assignment computes its value in the old row and brings it into the type of the field. -/
theorem assignments_eq (u : UpdateSelection) (old : Record) :
    st.assignments owner u old = u.sets.mapM (fun set => do
      let v ← assignedValue st owner u.shape old set.2
      coerce owner.model set.1 v) := by
  refine Outcome.mapM_congr ?_
  rintro ⟨name, a⟩ -
  cases a <;> rfl

/-- A step that keeps names gives each name what it makes of the last value of that name. -/
theorem find?_ofPairs_of_mapM {α β : Type} {f : String × α → Outcome (String × β)}
    (hname : ∀ p q, f p = .ok q → q.1 = p.1) {pairs : List (String × α)} {answers : List (String × β)}
    (h : pairs.mapM f = .ok answers) {name : String} {a : α}
    (ha : Entries.find? (Entries.ofPairs pairs) name = some a) :
    ∃ b, f (name, a) = .ok (name, b) ∧ Entries.find? (Entries.ofPairs answers) name = some b := by
  induction pairs generalizing answers with
  | nil => cases ha
  | cons p rest ih =>
    obtain ⟨q, more, hq, hmore, rfl⟩ := Outcome.mapM_cons_eq_ok.mp h
    rw [Entries.find?_ofPairs_cons] at ha ⊢
    have hnames : more.map Prod.fst = rest.map Prod.fst := Outcome.map_of_mapM hname hmore
    cases hrest : Entries.find? (Entries.ofPairs rest) name with
    | some a' =>
      rw [hrest] at ha
      cases ha
      obtain ⟨b, hb, hmore⟩ := ih hmore hrest
      exact ⟨b, hb, by rw [hmore]; rfl⟩
    | none =>
      have hnone : Entries.find? (Entries.ofPairs more) name = none := by
        rw [Entries.find?_ofPairs_eq_none, hnames, ← Entries.find?_ofPairs_eq_none, hrest]
      rw [hrest, Option.none_or, Option.ite_none_right_eq_some] at ha
      obtain ⟨rfl, ha⟩ := ha
      cases ha
      have hq' := hname p q hq
      refine ⟨q.2, hq.trans (by rw [← hq']), ?_⟩
      rw [hnone, Option.none_or, if_pos hq']

/-- The assignments of an update make of a row what the update means. -/
theorem reassigned_of_assignments {u : UpdateSelection} {old : Record} {pairs : List (String × Value)}
    (h : st.assignments owner u old = .ok pairs) :
    Reassigned st owner u old (Entries.insertAll old pairs) := by
  have hnames := assignments_names h
  rw [assignments_eq] at h
  refine ⟨?_, ?_, fun hold => Entries.sorted_insertAll hold pairs⟩
  · intro name a ha
    have hname : ∀ (p : String × Assigned) (q : String × Value), (do
        let v ← assignedValue st owner u.shape old p.2
        coerce owner.model p.1 v) = .ok q → q.1 = p.1 := by
      intro p q hq
      obtain ⟨v, -, hq⟩ := Outcome.bind_eq_ok.mp hq
      exact coerce_name hq
    obtain ⟨w, hw, hfind⟩ := find?_ofPairs_of_mapM hname h ha
    obtain ⟨v, hv, hw⟩ := Outcome.bind_eq_ok.mp hw
    refine ⟨v, w, hv, hw, ?_⟩
    rw [Entries.find?_insertAll, hfind]
    rfl
  · intro name hname
    rw [← hnames, ← Entries.find?_ofPairs_eq_none] at hname
    rw [Entries.find?_insertAll, hname]
    rfl

/-- A successful update does what it means. -/
theorem updates_of_update {u : UpdateSelection} {st' : Store} {n : Nat} (h : st.update owner u = .ok (st', n)) :
    Updates st owner u n st' := by
  obtain ⟨rows, indices, changes, -, htable, hpicked, hchanges, rfl, rfl⟩ := update_eq_ok h
  obtain ⟨hnodup, hrange⟩ := picked_nodup htable hpicked
  obtain ⟨hlength, hothers, hassigned⟩ := rewrites_of_changes hnodup hrange hchanges
  rw [picked, htable, Outcome.ok_bind] at hpicked
  obtain ⟨found, hfound, hindices⟩ := Outcome.bind_eq_ok.mp hpicked
  cases hindices
  refine ⟨⟨rows, applyChanges rows changes, found, htable, table_withTable_self _ _ _, matches_of_hits hfound,
    hnodup, rfl, hlength, hothers, ?_⟩, ?_⟩
  · intro i hi
    obtain ⟨old, pairs, hold, hpairs, hnew⟩ := hassigned i hi
    exact ⟨old, _, hold, hnew, reassigned_of_assignments hpairs⟩
  · intro name hname
    rw [table_withTable, if_neg hname.symm]

/-! ## Assignments in another order -/

/-- The changes of an update with the assignments in another order make the same of the rows. -/
theorem changes_perm {u : UpdateSelection} {sets : List (String × Assigned)} (hperm : u.sets.Perm sets)
    (hnodup : (u.sets.map Prod.fst).Nodup) {rows : List Record} {indices : List Nat}
    {changes : List (Nat × List (String × Value))} (h : st.changes owner u rows indices = .ok changes) :
    ∃ changes', st.changes owner { u with sets := sets } rows indices = .ok changes' ∧
      ∀ acc, applyChanges acc changes' = applyChanges acc changes := by
  induction indices generalizing changes with
  | nil =>
    cases h
    exact ⟨[], rfl, fun _ => rfl⟩
  | cons index rest ih =>
    obtain ⟨change, more, hchange, hmore, rfl⟩ := Outcome.mapM_cons_eq_ok.mp h
    obtain ⟨pairs, hpairs, hchange⟩ := Outcome.bind_eq_ok.mp hchange
    cases hchange
    obtain ⟨more', hmore', hrest⟩ := ih hmore
    have hnames := assignments_names hpairs
    obtain ⟨pairs', hpairs', hpairsPerm⟩ := Outcome.mapM_perm hperm hpairs
    have hsame : (fun r => Entries.insertAll r pairs') = fun r => Entries.insertAll r pairs :=
      funext fun r => (Entries.insertAll_perm hpairsPerm (hnames ▸ hnodup) r).symm
    refine ⟨(index, pairs') :: more', ?_, fun acc => ?_⟩
    · rw [Store.changes] at hmore' ⊢
      rw [List.mapM_cons, assignments, hpairs', Outcome.ok_bind, hmore']
      rfl
    · show applyChanges (acc.modify index fun r => Entries.insertAll r pairs') more' = _
      rw [hsame, hrest]
      rfl

/-- The assignments of an update to different fields may be made in any order. -/
theorem update_of_perm {u : UpdateSelection} {st' : Store} {n : Nat} (h : st.update owner u = .ok (st', n))
    {sets : List (String × Assigned)} (hperm : u.sets.Perm sets) (hnodup : (u.sets.map Prod.fst).Nodup) :
    st.update owner { u with sets := sets } = .ok (st', n) := by
  obtain ⟨_, howner, h⟩ := Outcome.bind_eq_ok.mp h
  split at h
  · cases h
  rename_i hsets
  obtain ⟨indices, hpicked, h⟩ := Outcome.bind_eq_ok.mp h
  obtain ⟨rows, htable, h⟩ := Outcome.bind_eq_ok.mp h
  obtain ⟨changes, hchanges, h⟩ := Outcome.bind_eq_ok.mp h
  cases h
  obtain ⟨changes', hchanges', happly⟩ := changes_perm hperm hnodup hchanges
  rw [hperm.isEmpty_eq] at hsets
  rw [update, howner, Outcome.ok_bind, if_neg hsets, hpicked, Outcome.ok_bind, htable, Outcome.ok_bind,
    hchanges', Outcome.ok_bind, happly]
  rfl

end

/-- An update that succeeds reassigns the rows that its predicate, ordering and bounds pick, each from its old
content, and leaves all other rows and tables; so does the call that writes row by row.  Assignments to
different fields may be made in any order.  An update that fails leaves the store as it was. -/
theorem update_simultaneous (st : Store) (owner : Source) (u : UpdateSelection) :
    (∀ st' n, st.update owner u = .ok (st', n) →
      Updates st owner u n st' ∧ (Call.update owner u).on st = (.ok n, st') ∧
        ∀ sets, u.sets.Perm sets → (u.sets.map Prod.fst).Nodup →
          st.update owner { u with sets := sets } = .ok (st', n)) ∧
      ∀ fault, st.update owner u = .error fault → (Call.update owner u).on st = (.error fault, st) := by
  refine ⟨fun st' n h => ⟨updates_of_update h, ?_, fun sets => update_of_perm h⟩, fun fault h => ?_⟩
  · rw [Call.on_update, h]
  · rw [Call.on_update, h]

/-- A source of points. -/
def points : Source := ⟨0, ⟨"points", [("x", .int), ("y", .int)], none⟩⟩

/-- A point. -/
def point (x y : Int64) : Record := [("x", .int x), ("y", .int y)]

/-- The point of the greatest `x` has its fields exchanged, in either order of the two assignments; an update
of a field that is not declared leaves the store as it was. -/
theorem update_exchanges :
    let st := (empty 0 []).attach points.model [point 1 2, point 3 4]
    let s := ((Shape.ofSource points).orderBy (.named "x") true).withLimit 1
    let u : UpdateSelection := ⟨s, [("x", .computed (.text "[y]" [])), ("y", .computed (.expr (.named "x")))]⟩
    let st' := st.withTable "points" [point 1 2, point 4 3]
    Updates st points u 1 st' ∧ (Call.update points u).on st = (.ok 1, st') ∧
      st.update points { u with sets := u.sets.reverse } = .ok (st', 1) ∧
      (Call.update points ⟨s, [("z", .value .null)]⟩).on st =
        (.error (.invalid (.unknownField "points" "z")), st) := by
  intro st s u st'
  obtain ⟨hupdates, hcall, hperm⟩ := (update_simultaneous st points u).1 st' 1 rfl
  have hreversed := hperm _ (List.reverse_perm _).symm (by decide)
  exact ⟨hupdates, hcall, hreversed, (update_simultaneous st points _).2 _ rfl⟩

end RecordQuery.Store
