import RecordQuery.Proofs.Sorting
import RecordQuery.Proofs.Value.Order
import RecordQuery.Proofs.Store.Pages
set_option autoImplicit false

/-!
# Store: the order of a read

Keys are compared term by term, and the first term that tells them apart decides (`KeysBefore`).  Where no key is a
float this is an order of the found rows (`orders_compareKeys`), so that a read without bounds answers them in one
order that is determined by their keys and their places (`ordered_stably`).  Turning all terms turns the comparison
(`compareKeys_reverseOrder`), so that where no two rows tie the last one is the first one of the opposite order
(`last_of_fetch`).
-/

namespace RecordQuery

/-! ## Keys without floats -/

namespace Value

/-- A float, which may tie with two integers that differ. -/
def isFloat : Value → Bool
  | .float _ => true
  | _ => false

theorem sortCompare_trans {a b c : Value} (hb : b.isFloat = false) (hab : (sortCompare a b).isLE = true)
    (hbc : (sortCompare b c).isLE = true) : (sortCompare a c).isLE = true := by
  refine (sortCompare_isLE_iff hab hbc).mpr fun h => ?_
  cases h <;> cases hb

/-- Null comes before all other values. -/
theorem sortCompare_null_left {v : Value} (h : v ≠ .null) : sortCompare .null v = .lt := by
  cases v <;> first | rfl | exact absurd rfl h

end Value

namespace OrderTerm

variable {a b c : Value}

/-- The order of two values under a term: as for sorting, the other way round where the term descends. -/
def compare (t : OrderTerm) (a b : Value) : Ordering :=
  if t.descending then (Value.sortCompare a b).swap else Value.sortCompare a b

theorem compare_swap (t : OrderTerm) (a b : Value) : t.compare b a = (t.compare a b).swap := by
  rw [compare, compare, Value.sortCompare_swap a b]
  split <;> rfl

theorem compare_eq_eq_iff (t : OrderTerm) : t.compare a b = .eq ↔ Value.sortCompare a b = .eq := by
  rw [compare]
  split
  · exact Ordering.swap_eq_eq
  · exact Iff.rfl

theorem compare_trans (t : OrderTerm) (hb : b.isFloat = false) (hab : (t.compare a b).isLE = true)
    (hbc : (t.compare b c).isLE = true) : (t.compare a c).isLE = true := by
  unfold compare at hab hbc ⊢
  split at hab
  · rw [if_pos ‹_›, ← Value.sortCompare_swap] at hbc ⊢
    rw [← Value.sortCompare_swap] at hab
    exact Value.sortCompare_trans hb hbc hab
  · rw [if_neg ‹_›] at hbc ⊢
    exact Value.sortCompare_trans hb hab hbc

/-- What stands between two values that tie ties with both. -/
theorem compare_eq_of_between (t : OrderTerm) (ha : a.isFloat = false) (hc : c.isFloat = false)
    (hab : (t.compare a b).isLE = true) (hbc : (t.compare b c).isLE = true) (hac : t.compare a c = .eq) :
    t.compare a b = .eq ∧ t.compare b c = .eq := by
  have hca : (t.compare c a).isLE = true := by rw [t.compare_swap a c, hac]; rfl
  have hba := t.compare_trans hc hbc hca
  have hcb := t.compare_trans ha hca hab
  rw [t.compare_swap a b, Ordering.isLE_swap] at hba
  rw [t.compare_swap b c, Ordering.isLE_swap] at hcb
  exact ⟨Ordering.eq_eq_iff_isLE_and_isGE.mpr ⟨hab, hba⟩, Ordering.eq_eq_iff_isLE_and_isGE.mpr ⟨hbc, hcb⟩⟩

end OrderTerm

/-! ## The order of keys -/

/-- One list of keys comes before another: the terms tie up to one that puts the first list first. -/
inductive KeysBefore : List OrderTerm → List Value → List Value → Prop
  | first {t : OrderTerm} {a b : Value} (terms : List OrderTerm) (as bs : List Value) (h : t.compare a b = .lt) :
      KeysBefore (t :: terms) (a :: as) (b :: bs)
  | later {t : OrderTerm} {a b : Value} {terms : List OrderTerm} {as bs : List Value} (htie : t.compare a b = .eq)
      (h : KeysBefore terms as bs) : KeysBefore (t :: terms) (a :: as) (b :: bs)

/-- Two lists of keys are equal on all terms. -/
def KeysTie (ordering : List OrderTerm) (as bs : List Value) : Prop :=
  ∀ i : Nat, i < ordering.length → ∀ a b, as[i]? = some a → bs[i]? = some b → Value.sortCompare a b = .eq

/-- The keys of a row for an ordering, one for each term and none of them a float. -/
structure ExactKeys (ordering : List OrderTerm) (keys : List Value) : Prop where
  length : keys.length = ordering.length
  exact : ∀ key ∈ keys, key.isFloat = false

section

variable {ordering : List OrderTerm} {as bs cs : List Value}

theorem compareKeys_cons (t : OrderTerm) (terms : List OrderTerm) (a b : Value) (as bs : List Value) :
    compareKeys (t :: terms) (a :: as) (b :: bs) = (t.compare a b).then (compareKeys terms as bs) := rfl

theorem compareKeys_nil_left (ordering : List OrderTerm) (bs : List Value) : compareKeys ordering [] bs = .eq := by
  cases ordering <;> rfl

theorem compareKeys_nil_right (ordering : List OrderTerm) (as : List Value) : compareKeys ordering as [] = .eq := by
  cases ordering <;> cases as <;> rfl

theorem keysTie_cons {t : OrderTerm} {terms : List OrderTerm} {a b : Value} :
    KeysTie (t :: terms) (a :: as) (b :: bs) ↔ Value.sortCompare a b = .eq ∧ KeysTie terms as bs := by
  constructor
  · intro h
    refine ⟨h 0 (Nat.zero_lt_succ _) a b rfl rfl, fun i hi x y hx hy => ?_⟩
    exact h (i + 1) (Nat.succ_lt_succ hi) x y hx hy
  · rintro ⟨hfirst, hrest⟩ i hi x y hx hy
    cases i with
    | zero =>
      obtain rfl : a = x := Option.some.inj hx
      obtain rfl : b = y := Option.some.inj hy
      exact hfirst
    | succ i => exact hrest i (Nat.lt_of_succ_lt_succ hi) x y hx hy

theorem compareKeys_eq_lt_iff : compareKeys ordering as bs = .lt ↔ KeysBefore ordering as bs := by
  induction ordering generalizing as bs with
  | nil => exact ⟨nofun, nofun⟩
  | cons t terms ih =>
    cases as with
    | nil => exact ⟨nofun, nofun⟩
    | cons a as =>
      cases bs with
      | nil => exact ⟨nofun, nofun⟩
      | cons b bs =>
        rw [compareKeys_cons, Ordering.then_eq_lt, ih]
        constructor
        · rintro (h | ⟨htie, h⟩)
          · exact .first terms as bs h
          · exact .later htie h
        · rintro (⟨_, _, _, h⟩ | ⟨htie, h⟩)
          · exact .inl h
          · exact .inr ⟨htie, h⟩

theorem compareKeys_eq_eq_iff : compareKeys ordering as bs = .eq ↔ KeysTie ordering as bs := by
  induction ordering generalizing as bs with
  | nil => exact ⟨fun _ i hi => absurd hi (Nat.not_lt_zero i), fun _ => rfl⟩
  | cons t terms ih =>
    cases as with
    | nil => exact ⟨fun _ _ _ _ _ => nofun, fun _ => compareKeys_nil_left _ _⟩
    | cons a as =>
      cases bs with
      | nil => exact ⟨fun _ _ _ _ _ _ => nofun, fun _ => compareKeys_nil_right _ _⟩
      | cons b bs => rw [compareKeys_cons, Ordering.then_eq_eq, t.compare_eq_eq_iff, ih, keysTie_cons]

theorem compareKeys_swap (ordering : List OrderTerm) (as bs : List Value) :
    compareKeys ordering bs as = (compareKeys ordering as bs).swap := by
  induction ordering generalizing as bs with
  | nil => rfl
  | cons t terms ih =>
    cases as with
    | nil => rw [compareKeys_nil_left, compareKeys_nil_right]; rfl
    | cons a as =>
      cases bs with
      | nil => rw [compareKeys_nil_left, compareKeys_nil_right]; rfl
      | cons b bs => rw [compareKeys_cons, compareKeys_cons, Ordering.swap_then, ← t.compare_swap, ← ih]

theorem ExactKeys.uncons {t : OrderTerm} {terms : List OrderTerm} {keys : List Value}
    (h : ExactKeys (t :: terms) keys) :
    ∃ key rest, keys = key :: rest ∧ key.isFloat = false ∧ ExactKeys terms rest := by
  cases keys with
  | nil => cases h.length
  | cons key rest =>
    obtain ⟨hkey, hrest⟩ := List.forall_mem_cons.mp h.exact
    exact ⟨key, rest, rfl, hkey, Nat.succ.inj h.length, hrest⟩

/-- Between keys without floats the order of keys is transitive.  Where the first terms of the outer two tie, so do
those in the middle, and the other terms decide. -/
theorem compareKeys_trans (ha : ExactKeys ordering as) (hb : ExactKeys ordering bs) (hc : ExactKeys ordering cs)
    (hab : (compareKeys ordering as bs).isLE = true) (hbc : (compareKeys ordering bs cs).isLE = true) :
    (compareKeys ordering as cs).isLE = true := by
  induction ordering generalizing as bs cs with
  | nil => rfl
  | cons t terms ih =>
    obtain ⟨a, as, rfl, ha, has⟩ := ha.uncons
    obtain ⟨b, bs, rfl, hb, hbs⟩ := hb.uncons
    obtain ⟨c, cs, rfl, hc, hcs⟩ := hc.uncons
    rw [compareKeys_cons, Ordering.isLE_then_iff_or] at hab hbc ⊢
    have hab' : (t.compare a b).isLE = true := Ordering.isLE_iff_eq_lt_or_eq_eq.mpr (hab.imp_right And.left)
    have hbc' : (t.compare b c).isLE = true := Ordering.isLE_iff_eq_lt_or_eq_eq.mpr (hbc.imp_right And.left)
    rcases Ordering.isLE_iff_eq_lt_or_eq_eq.mp (t.compare_trans hb hab' hbc') with hac | hac
    · exact .inl hac
    · obtain ⟨htieab, htiebc⟩ := t.compare_eq_of_between ha hc hab' hbc' hac
      rw [htieab] at hab
      rw [htiebc] at hbc
      exact .inr ⟨hac, ih has hbs hcs (hab.resolve_left nofun).2 (hbc.resolve_left nofun).2⟩

/-- Turning all terms turns the order of keys. -/
theorem compareKeys_reverseOrder (s : Shape) (as bs : List Value) :
    compareKeys s.reverseOrder.ordering as bs = compareKeys s.ordering bs as := by
  have hturned : ∀ (t : OrderTerm) (a b : Value), OrderTerm.compare { t with descending := !t.descending } a b =
      t.compare b a := by
    intro t a b
    rw [OrderTerm.compare, OrderTerm.compare, Value.sortCompare_swap a b]
    cases t.descending <;> simp
  show compareKeys (s.ordering.map _) as bs = _
  induction s.ordering generalizing as bs with
  | nil => rfl
  | cons t terms ih =>
    cases as with
    | nil => rw [compareKeys_nil_left, compareKeys_nil_right]
    | cons a as =>
      cases bs with
      | nil => rw [compareKeys_nil_left, compareKeys_nil_right]
      | cons b bs => rw [List.map_cons, compareKeys_cons, compareKeys_cons, hturned, ih]

end

/-- Found rows whose keys are without floats are in an order. -/
theorem orders_compareKeys {α : Type} (ordering : List OrderTerm) :
    Sorting.Orders (fun a b : List Value × α => compareKeys ordering a.1 b.1)
      fun item => ExactKeys ordering item.1 :=
  ⟨fun a b => compareKeys_swap ordering a.1 b.1, compareKeys_trans⟩

/-- The positions of found rows in the order in which they are answered: by their keys, and those whose keys are
equal on all terms by their places. -/
structure OrderedPositions (ordering : List OrderTerm) (items : List (List Value × Row)) (positions : List Nat) :
    Prop where
  perm : positions.Perm (List.range items.length)
  ascending : positions.Pairwise fun i j => ∃ a b, items[i]? = some a ∧ items[j]? = some b ∧
    (KeysBefore ordering a.1 b.1 ∨ KeysTie ordering a.1 b.1 ∧ i < j)

theorem orderedPositions_iff {ordering : List OrderTerm} {items : List (List Value × Row)} {positions : List Nat} :
    OrderedPositions ordering items positions ↔
      Sorting.SortedPositions (fun a b => compareKeys ordering a.1 b.1) items positions := by
  have hpair : ∀ i j : Nat, (∃ a b, items[i]? = some a ∧ items[j]? = some b ∧
      (KeysBefore ordering a.1 b.1 ∨ KeysTie ordering a.1 b.1 ∧ i < j)) ↔
      ∃ a b, items[i]? = some a ∧ items[j]? = some b ∧
        (compareKeys ordering a.1 b.1 = .lt ∨ compareKeys ordering a.1 b.1 = .eq ∧ i < j) := by
    intro i j
    simp only [compareKeys_eq_lt_iff, compareKeys_eq_eq_iff]
  constructor
  · exact fun h => ⟨h.perm, h.ascending.imp (hpair _ _).mp⟩
  · exact fun h => ⟨h.perm, h.ascending.imp (hpair _ _).mpr⟩

namespace Store

/-! ## Reads -/

/-- No ordering key of a row that a read finds is a float. -/
def KeysExact (st : Store) (owner : Source) (r : ReadSelection) : Prop :=
  ∀ items, st.found owner r = .ok items → ∀ item ∈ items, ∀ key ∈ item.1, key.isFloat = false

section

variable {st : Store} {owner : Source} {r : ReadSelection} {rows : List Row} {items : List (List Value × Row)}

theorem exactKeys_of_found (h : st.KeysExact owner r) (hitems : st.found owner r = .ok items) :
    ∀ item ∈ items, ExactKeys r.shape.ordering item.1 := fun item hitem =>
  ⟨length_keys_of_found hitems item hitem, h items hitems item hitem⟩

theorem sortKeyed_nil {α : Type} (items : List (List Value × α)) : sortKeyed [] items = items :=
  Sorting.sortBy_of_not_lt (fun _ _ => by simp [compareKeys]) items

/-- Without its ordering a read answers the rows as it finds them. -/
theorem read_clearOrder (hlimit : r.shape.limit = none) (hoffset : r.shape.offset = 0)
    (h : st.found owner r = .ok items) :
    st.read owner (r.mapShape Shape.clearOrder) = .ok (items.map Prod.snd) := by
  have hlimit' : (r.mapShape Shape.clearOrder).shape.limit = none := hlimit
  refine (read_of_unbounded hlimit' hoffset).mpr ⟨_, found_clearOrder h, ?_⟩
  show _ = (sortKeyed [] _).map Prod.snd
  rw [sortKeyed_nil, List.map_map]
  rfl

end

/-- A read without bounds whose ordering keys are no floats answers what it answers without its ordering, in another
order: by the keys, and where they are equal on all terms as before.  There is only one such order.  The keys of a
row are those of the joined row that its columns are selected of, and null is the lowest of them. -/
theorem ordered_stably (st : Store) (owner : Source) (r : ReadSelection) (rows : List Row)
    (hlimit : r.shape.limit = none) (hoffset : r.shape.offset = 0) (hread : st.read owner r = .ok rows)
    (hexact : st.KeysExact owner r) :
    ∃ items, st.found owner r = .ok items ∧
      (∃ kept sources, st.kept owner r = .ok kept ∧ sources.Sublist kept ∧ (r.distinct = false → sources = kept) ∧
        sources.mapM (keyedRow r st.registry) = .ok items) ∧
      st.read owner (r.mapShape Shape.clearOrder) = .ok (items.map Prod.snd) ∧
      rows.Perm (items.map Prod.snd) ∧
      (∃ positions, OrderedPositions r.shape.ordering items positions ∧
        rows.map some = positions.map (fun i => (items.map Prod.snd)[i]?) ∧
        ∀ others, OrderedPositions r.shape.ordering items others → others = positions) ∧
      ∀ v, v ≠ .null → Value.sortCompare .null v = .lt := by
  obtain ⟨items, hitems, rfl⟩ := (read_of_unbounded hlimit hoffset).mp hread
  have horders := orders_compareKeys (α := Row) r.shape.ordering
  obtain ⟨positions, hpositions, hsorted⟩ := Sorting.exists_sortedPositions horders (exactKeys_of_found hexact hitems)
  refine ⟨items, hitems, exists_sources hitems, read_clearOrder hlimit hoffset hitems,
    (Sorting.perm_sortBy _ items).map Prod.snd, ⟨positions, orderedPositions_iff.mpr hpositions, ?_, ?_⟩,
    fun v => Value.sortCompare_null_left⟩
  · have hrows := congrArg (List.map (Option.map Prod.snd)) hsorted
    simpa only [sortKeyed, List.map_map, Function.comp_def, Option.map_some, List.getElem?_map] using hrows
  · exact fun others hothers => hpositions.unique horders.swap (orderedPositions_iff.mp hothers)

/-- Four records, of which two have the same rank and one has none. -/
def fourRanks : Store :=
  (empty 0 []).attach ranks.model
    [ranked "a" 2, [("name", .string "b"), ("rank", .null)], ranked "c" 2, ranked "d" 1]

/-- The names of ranked records in the order of some terms. -/
def namesBy (ordering : List OrderTerm) : ReadSelection :=
  (ReadSelection.ofShape { Shape.ofSource ranks with ordering := ordering }).select ["name"]

/-- A row with a name. -/
def named (name : String) : Row := [("name", .string name)]

/-- Of the records of the highest rank the one that stood first comes first, and the one without a rank comes last;
the rank is not among the columns. -/
theorem ordered_stably_descending :
    let r := namesBy [⟨.raw "rank", true⟩]
    r.shape.limit = none ∧ r.shape.offset = 0 ∧
      fourRanks.read ranks r = .ok [named "a", named "c", named "d", named "b"] ∧ fourRanks.KeysExact ranks r ∧
      ∃ items, fourRanks.found ranks r = .ok items ∧
        fourRanks.read ranks (r.mapShape Shape.clearOrder) = .ok (items.map Prod.snd) ∧
        ∃ positions, OrderedPositions r.shape.ordering items positions ∧
          [named "a", named "c", named "d", named "b"].map some =
            positions.map (fun i => (items.map Prod.snd)[i]?) := by
  intro r
  have hread : fourRanks.read ranks r = .ok [named "a", named "c", named "d", named "b"] := rfl
  have hfound : fourRanks.found ranks r = .ok [([.int 2], named "a"), ([.null], named "b"),
      ([.int 2], named "c"), ([.int 1], named "d")] := rfl
  have hexact : fourRanks.KeysExact ranks r := by
    intro items hitems
    rw [hfound] at hitems
    cases hitems
    decide
  obtain ⟨items, hitems, -, hcleared, -, ⟨positions, hpositions, hrows, -⟩, -⟩ :=
    ordered_stably fourRanks ranks r _ rfl rfl hread hexact
  exact ⟨rfl, rfl, hread, hexact, items, hitems, hcleared, positions, hpositions, hrows⟩

/-! ## The last record -/

theorem last_of_ordered {s : Shape} (h : s.ordering ≠ []) : s.last = s.reverseOrder.withLimit 1 := by
  rw [Shape.last]
  split
  · exact absurd ‹_› h
  · rfl

section

variable {st : Store} {owner : Source} {r : ReadSelection}

theorem sortKeyed_reverseOrder {α : Type} {s : Shape} {items : List (List Value × α)}
    (hexact : ∀ item ∈ items, ExactKeys s.ordering item.1)
    (hapart : items.Pairwise fun a b => ¬ KeysTie s.ordering a.1 b.1) :
    sortKeyed s.reverseOrder.ordering items = (sortKeyed s.ordering items).reverse := by
  simp only [sortKeyed, compareKeys_reverseOrder]
  refine Sorting.sortBy_swap (orders_compareKeys s.ordering) hexact (hapart.imp fun hne => ?_)
  exact fun htie => hne (compareKeys_eq_eq_iff.mp htie)

/-- Where no two rows tie, the last row is the first one of the opposite order. -/
theorem read_last {rows : List Row} (hordering : r.shape.ordering ≠ []) (hlimit : r.shape.limit = none)
    (hoffset : r.shape.offset = 0) (hread : st.read owner r = .ok rows) (hexact : st.KeysExact owner r)
    (hapart : ∀ items, st.found owner r = .ok items →
      items.Pairwise fun a b => ¬ KeysTie r.shape.ordering a.1 b.1) :
    st.read owner (r.mapShape Shape.last) = .ok (rows.reverse.take 1) := by
  obtain ⟨items, hitems, rfl⟩ := (read_of_unbounded hlimit hoffset).mp hread
  have hlast : r.mapShape Shape.last = { r with shape := r.shape.reverseOrder.withLimit 1 } :=
    congrArg (fun s => ({ r with shape := s } : ReadSelection)) (last_of_ordered hordering)
  have hterms : (r.shape.reverseOrder.withLimit 1).ordering.map OrderTerm.expr =
      r.shape.ordering.map OrderTerm.expr := List.map_map
  have hsame : SameRows (r.shape.reverseOrder.withLimit 1) r.shape := ⟨rfl, rfl, rfl⟩
  rw [hlast]
  refine read_eq_ok.mpr ⟨items, (found_of_sameRows hsame hterms).trans hitems, ?_⟩
  have hsorted := sortKeyed_reverseOrder (exactKeys_of_found hexact hitems) (hapart items hitems)
  show _ = (((sortKeyed r.shape.reverseOrder.ordering items).map Prod.snd).drop r.shape.offset).take 1
  rw [hsorted, hoffset, List.drop_zero, List.map_reverse]

end

/-- Of a fetch that is ordered by keys which are no floats and of which no two rows have the same, the last fetch is
its last record. -/
theorem last_of_fetch (st : Store) (owner : Source) (r : ReadSelection) (records : List Record)
    (hordering : r.shape.ordering ≠ []) (hlimit : r.shape.limit = none) (hoffset : r.shape.offset = 0)
    (hfetch : st.fetch owner r = .ok records) (hexact : st.KeysExact owner r)
    (hapart : ∀ items, st.found owner r = .ok items →
      items.Pairwise fun a b => ¬ KeysTie r.shape.ordering a.1 b.1) :
    st.fetch owner (r.mapShape Shape.last) = .ok records.getLast?.toList := by
  obtain ⟨rows, hrows, hrecords⟩ := fetch_eq_ok.mp hfetch
  refine fetch_eq_ok.mpr ⟨_, read_last hordering hlimit hoffset hrows hexact hapart, ?_⟩
  rw [← List.head?_reverse, ← List.take_one]
  rw [Outcome.mapM_eq_ok_iff_forall₂] at hrecords ⊢
  exact List.forall₂_take 1 (List.rel_reverse hrecords)

/-- Names tell the records of the same rank apart, and the last one is the one without a rank. -/
theorem last_of_fetch_null :
    let r := namesBy [⟨.raw "rank", true⟩, ⟨.raw "name", false⟩]
    let records := [named "a", named "c", named "d", named "b"]
    r.shape.ordering ≠ [] ∧ r.shape.limit = none ∧ r.shape.offset = 0 ∧
      fourRanks.fetch ranks r = .ok records ∧ fourRanks.KeysExact ranks r ∧
      (∀ items, fourRanks.found ranks r = .ok items →
        items.Pairwise fun a b => ¬ KeysTie r.shape.ordering a.1 b.1) ∧
      fourRanks.fetch ranks (r.mapShape Shape.last) = .ok [named "b"] := by
  intro r records
  have hordering : r.shape.ordering ≠ [] := List.cons_ne_nil _ _
  have hfetch : fourRanks.fetch ranks r = .ok records := by cbv
  have hfound : fourRanks.found ranks r = .ok [([.int 2, .string "a"], named "a"),
      ([.null, .string "b"], named "b"), ([.int 2, .string "c"], named "c"),
      ([.int 1, .string "d"], named "d")] := rfl
  have hexact : fourRanks.KeysExact ranks r := by
    intro items hitems
    rw [hfound] at hitems
    cases hitems
    decide
  have hapart : ∀ items, fourRanks.found ranks r = .ok items →
      items.Pairwise fun a b => ¬ KeysTie r.shape.ordering a.1 b.1 := by
    intro items hitems
    rw [hfound] at hitems
    cases hitems
    simp only [← compareKeys_eq_eq_iff]
    decide
  exact ⟨hordering, rfl, rfl, hfetch, hexact, hapart,
    last_of_fetch fourRanks ranks r records hordering rfl rfl hfetch hexact hapart⟩

end Store

end RecordQuery
