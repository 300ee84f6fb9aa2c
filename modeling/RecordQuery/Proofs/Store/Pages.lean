import Mathlib
import RecordQuery.Proofs.Store.Found
import RecordQuery.Proofs.Store.Selected
set_option autoImplicit false

/-!
# Store: pages of a read

A page is cut out of what a read answers when all else is done (`read_page`), and its records are gathered one by
one.  So the pages of a read that succeeds succeed too, and put one behind the other they are what it answers
(`pages_tile`).
-/

namespace RecordQuery

/-- The read of so many records from a position on. -/
def ReadSelection.page (r : ReadSelection) (start size : Nat) : ReadSelection :=
  (r.mapShape (·.withOffset start)).mapShape (·.withLimit size)

/-- The first pages of a list are its first items. -/
theorem flatten_pages {α : Type} (items : List α) (pages size : Nat) :
    ((List.range pages).map fun i => (items.drop (i * size)).take size).flatten = items.take (pages * size) := by
  induction pages with
  | zero => simp
  | succ pages ih =>
    rw [List.range_succ, List.map_append, List.flatten_append, ih, Nat.succ_mul, List.take_add]
    simp

namespace Store

variable {st : Store} {owner : Source} {r : ReadSelection}

/-- The bounds act on what the read answers without them. -/
theorem read_page {rows : List Row} (hlimit : r.shape.limit = none) (hoffset : r.shape.offset = 0)
    (h : st.read owner r = .ok rows) (start size : Nat) :
    st.read owner (r.page start size) = .ok ((rows.drop start).take size) := by
  obtain ⟨items, hitems, rfl⟩ := read_eq_ok.mp h
  have hsame : SameRows (r.page start size).shape r.shape := ⟨rfl, rfl, rfl⟩
  refine read_eq_ok.mpr ⟨items, (found_of_sameRows hsame rfl).trans hitems, ?_⟩
  rw [orderedWithin, bounded_of_unbounded hlimit hoffset]
  rfl

theorem fetch_page {records : List Record} (hlimit : r.shape.limit = none) (hoffset : r.shape.offset = 0)
    (h : st.fetch owner r = .ok records) (start size : Nat) :
    st.fetch owner (r.page start size) = .ok ((records.drop start).take size) := by
  obtain ⟨rows, hrows, hrecords⟩ := fetch_eq_ok.mp h
  refine fetch_eq_ok.mpr ⟨_, read_page hlimit hoffset hrows start size, ?_⟩
  rw [Outcome.mapM_eq_ok_iff_forall₂] at hrecords ⊢
  exact List.forall₂_take size (List.forall₂_drop start hrecords)

/-- The records of a read from any position on, as many as asked for, are those that it answers there without
bounds, and they are counted alike.  Pages of one size, as many as reach its end, are all that it answers, in the
same order. -/
theorem pages_tile (st : Store) (owner : Source) (r : ReadSelection) (records : List Record)
    (hlimit : r.shape.limit = none) (hoffset : r.shape.offset = 0) (hfetch : st.fetch owner r = .ok records) :
    (∀ start size, st.fetch owner (r.page start size) = .ok ((records.drop start).take size) ∧
      st.count owner (r.page start size) = .ok ((records.drop start).take size).length) ∧
    ∀ pages size, records.length ≤ pages * size →
      ∃ parts, (List.range pages).mapM (fun i => st.fetch owner (r.page (i * size) size)) = .ok parts ∧
        parts.flatten = records := by
  have hpage := fetch_page hlimit hoffset hfetch
  refine ⟨fun start size => ⟨hpage start size, count_of_fetch (hpage start size)⟩, ?_⟩
  intro pages size hall
  refine ⟨_, Outcome.mapM_eq_ok fun i _ => hpage (i * size) size, ?_⟩
  rw [flatten_pages, List.take_of_length_le hall]

/-- Three ranked records. -/
def threeRanks : Store := (empty 0 []).attach ranks.model [ranked "a" 1, ranked "b" 3, ranked "c" 1]

/-- Every ranked record once with a better one, if there is one, those of the highest rank first. -/
def besideBetter : ReadSelection :=
  let better : Expr := .binary (.qualified "better" "rank") .gt (.qualified "ranks" "rank")
  let ordered := ReadSelection.ofShape ((Shape.ofSource ranks).orderBy (.qualified "ranks" "rank") true)
  let joined := (ordered.join .left ranks "better" (.expr better)).addRecord "better" ranks.model
  (joined.groupBy ["ranks.name"]).asDistinct

/-- Three records on two pages of two. -/
theorem pages_tile_better :
    let records : List Record := [("better", .null) :: ranked "b" 3,
      ("better", .object (ranked "b" 3)) :: ranked "a" 1, ("better", .object (ranked "b" 3)) :: ranked "c" 1]
    besideBetter.shape.limit = none ∧ besideBetter.shape.offset = 0 ∧
      threeRanks.fetch ranks besideBetter = .ok records ∧
      threeRanks.fetch ranks (besideBetter.page 2 2) = .ok ((records.drop 2).take 2) ∧
      threeRanks.count ranks (besideBetter.page 2 2) = .ok 1 ∧ records.length ≤ 2 * 2 ∧
      ∃ parts, (List.range 2).mapM (fun i => threeRanks.fetch ranks (besideBetter.page (i * 2) 2)) = .ok parts ∧
        parts.flatten = records := by
  intro records
  have hfetch : threeRanks.fetch ranks besideBetter = .ok records := by cbv
  obtain ⟨hpage, htile⟩ := pages_tile threeRanks ranks besideBetter records rfl rfl hfetch
  have hlength : records.length ≤ 2 * 2 := by decide
  exact ⟨rfl, rfl, hfetch, (hpage 2 2).1, (hpage 2 2).2, hlength, htile 2 2 hlength⟩

end Store

end RecordQuery
