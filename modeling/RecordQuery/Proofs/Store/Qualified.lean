import RecordQuery.Proofs.Entries
import RecordQuery.Proofs.Store.Labels
import RecordQuery.Proofs.Store.Run
set_option autoImplicit false

/-!
# Store: what qualified names denote

`Builds` are the rows that a read builds on its way, candidates of joins included.  Where the labels of a read
differ from the name of its main source and from one another, that name denotes the main record in all of them,
and a label denotes what is joined under it (`IsNamed.qualified?_other`).  The name of the main table stays a name
of the main record, though, where a label stands for the main source, and hides a label that is spelled like it.
-/

namespace RecordQuery

/-! ## Names of a row -/

namespace Joined

variable {reference table : String} {labels : List String} {row : Joined}

theorem IsNamed.qualified?_reference (h : row.IsNamed reference table labels) (name : String) :
    row.qualified? reference name = Entries.find? row.base name :=
  if_pos (.inl h.reference.symm)

/-- A label denotes what is joined under it, unless it is the name of the main table. -/
theorem IsNamed.qualified?_other (h : row.IsNamed reference table labels) (hnodup : (reference :: labels).Nodup)
    {other : String × Option Record} (hother : other ∈ row.others) (name : String) :
    row.qualified? other.1 name =
      if other.1 = table then Entries.find? row.base name else other.2.bind fun r => Entries.find? r name := by
  obtain ⟨hreference, hlabels⟩ := List.nodup_cons.mp hnodup
  rw [← h.labels] at hreference hlabels
  have hne : other.1 ≠ row.reference := by
    intro heq
    rw [← h.reference, ← heq] at hreference
    exact hreference (List.mem_map_of_mem hother)
  rw [Joined.qualified?, Entries.find?_name_of_nodup hlabels hother, h.table]
  by_cases htable : other.1 = table
  · rw [if_pos (.inr htable), if_pos htable]
  · rw [if_neg (not_or.mpr ⟨hne, htable⟩), if_neg htable]

end Joined

/-! ## Rows of a read -/

namespace Store

/-- The rows that a read builds. -/
inductive Builds (st : Store) (owner : Source) (r : ReadSelection) : Joined → Prop where
  /-- a row of the main source, combined with the first extra sources -/
  | combined {sources : List ExtraSource} {rows : List Joined} {row : Joined} (hsources : sources <+: r.extraSources)
      (hrows : st.combined owner r.shape sources = .ok rows) (hrow : row ∈ rows) : Builds st owner r row
  /-- a row after the first joins -/
  | joined {joins : List Join} {combined rows : List Joined} {row : Joined} (hjoins : joins <+: r.joins)
      (hcombined : st.combined owner r.shape r.extraSources = .ok combined)
      (hrows : st.joined owner r.shape joins (r.extraSources.map ExtraSource.label) combined = .ok rows)
      (hrow : row ∈ rows) : Builds st owner r row
  /-- a candidate of the join that follows -/
  | candidate {joins : List Join} {j : Join} {combined rows : List Joined} {row : Joined} {others : List Record}
      {o : Record} (hjoins : joins ++ [j] <+: r.joins)
      (hcombined : st.combined owner r.shape r.extraSources = .ok combined)
      (hrows : st.joined owner r.shape joins (r.extraSources.map ExtraSource.label) combined = .ok rows)
      (hrow : row ∈ rows) (hothers : st.related owner j.source = .ok others) (ho : o ∈ others) :
      Builds st owner r (row.extend j.label (some o))
  /-- a row with more computed fields -/
  | computed {row : Joined} (h : Builds st owner r row) (computed : Record) :
      Builds st owner r { row with computed := computed }

variable {st : Store} {owner : Source} {r : ReadSelection} {row : Joined}

/-- Every row is built with some first labels. -/
theorem Builds.isNamed (h : st.Builds owner r row) :
    ∃ labels, labels <+: r.labels ∧ row.IsNamed r.shape.reference owner.name labels := by
  induction h with
  | combined hsources hrows hrow =>
    exact ⟨_, (hsources.map _).trans (List.prefix_append _ _), combined_isNamed hrows _ hrow⟩
  | joined hjoins hcombined hrows hrow =>
    exact ⟨_, (List.prefix_append_right_inj _).mpr (hjoins.map _),
      joined_isNamed hrows (combined_isNamed hcombined) _ hrow⟩
  | @candidate joins j _ _ _ _ o hjoins hcombined hrows hrow _ _ =>
    refine ⟨_, ?_, (joined_isNamed hrows (combined_isNamed hcombined) _ hrow).extend j.label (some o)⟩
    rw [List.append_assoc]
    refine (List.prefix_append_right_inj _).mpr ?_
    have hlabels := hjoins.map Join.label
    rwa [List.map_append] at hlabels
  | computed _ computed ih =>
    obtain ⟨labels, hlabels, hrow⟩ := ih
    exact ⟨labels, hlabels, hrow.withComputed computed⟩

theorem Builds.of_kept {kept : List Joined} (h : st.kept owner r = .ok kept) (hrow : row ∈ kept) :
    st.Builds owner r row := by
  obtain ⟨combined, joined, hcombined, hjoined, hrows⟩ := kept_eq_ok h
  obtain ⟨main, hmain, computed, rfl⟩ := hrows row hrow
  exact .computed (.joined (List.prefix_refl _) hcombined hjoined hmain) computed

/-- Where the name of the main source and the labels of what is joined to it differ from one another, in every row
that a read builds the name of the main source denotes the main record, and a label what is joined under it,
unless it is the name of the main table, which denotes the main record.  The rows that a read keeps are built,
and have something, or the lack of it, joined under every label. -/
theorem qualified_names (st : Store) (owner : Source) (r : ReadSelection)
    (hnodup : (r.shape.reference :: r.labels).Nodup) :
    (∀ row, st.Builds owner r row → row.labels <+: r.labels ∧
      (∀ name, row.qualified? r.shape.reference name = Entries.find? row.base name) ∧
      ∀ other ∈ row.others, ∀ name, row.qualified? other.1 name =
        if other.1 = owner.name then Entries.find? row.base name
        else other.2.bind fun record => Entries.find? record name) ∧
    ∀ kept, st.kept owner r = .ok kept → ∀ row ∈ kept, st.Builds owner r row ∧ row.labels = r.labels := by
  constructor
  · intro row hrow
    obtain ⟨labels, hlabels, hnamed⟩ := hrow.isNamed
    have hfirst : (r.shape.reference :: labels).Nodup :=
      hnodup.sublist (hlabels.sublist.cons_cons r.shape.reference)
    refine ⟨hnamed.labels ▸ hlabels, hnamed.qualified?_reference, ?_⟩
    intro other hother
    exact hnamed.qualified?_other hfirst hother
  · intro kept hkept row hrow
    exact ⟨.of_kept hkept hrow, (kept_isNamed hkept row hrow).labels⟩

/-- The read of the people as `m` with those joined under a label whose key is greater. -/
def withGreater (kind : JoinKind) (label : String) : ReadSelection :=
  let greater : Expr := .binary (.qualified label "id") .gt (.qualified "m" "id")
  ⟨{ Shape.ofSource people with label := some "m" }, [], [], [],
    [⟨people, kind, label, ⟨[(.and, .expr greater)], false⟩⟩], none, false⟩

/-- In a self-join both names denote their records; nobody has a greater key than the second one. -/
theorem qualified_names_self_join :
    ((withGreater .left "next").shape.reference :: (withGreater .left "next").labels).Nodup ∧
      ∃ first second, twoPeople.kept people (withGreater .left "next") = .ok [first, second] ∧
        first.qualified? "m" "id" = some (.int 1) ∧ first.qualified? "next" "id" = some (.int 2) ∧
        second.qualified? "m" "id" = some (.int 2) ∧ second.qualified? "next" "id" = none := by
  have hnodup : ((withGreater .left "next").shape.reference :: (withGreater .left "next").labels).Nodup := by
    decide
  obtain ⟨hnames, hbuilt⟩ := qualified_names twoPeople people (withGreater .left "next") hnodup
  refine ⟨hnodup, _, _, rfl, ?_⟩
  obtain ⟨hfirst, -⟩ := hbuilt _ rfl _ List.mem_cons_self
  obtain ⟨hsecond, -⟩ := hbuilt _ rfl _ (List.mem_cons_of_mem _ List.mem_cons_self)
  obtain ⟨-, hreference₁, hother₁⟩ := hnames _ hfirst
  obtain ⟨-, hreference₂, hother₂⟩ := hnames _ hsecond
  exact ⟨hreference₁ "id", hother₁ _ List.mem_cons_self "id", hreference₂ "id", hother₂ _ List.mem_cons_self "id"⟩

/-- All names differ, but a label that is spelled like the main table denotes the main record, which has no
greater key than itself: nobody is joined to the first one, and still the label has a key. -/
theorem table_name_hides_label :
    ((withGreater .left "people").shape.reference :: (withGreater .left "people").labels).Nodup ∧
      (∃ row, twoPeople.Builds people (withGreater .left "people") row ∧ row.others = [("people", none)] ∧
        row.qualified? "people" "id" = some (.int 1)) ∧
      twoPeople.count people (withGreater .inner "people") = .ok 0 ∧
      twoPeople.count people (withGreater .inner "next") = .ok 1 := by
  exact ⟨by decide, ⟨_, .of_kept rfl List.mem_cons_self, rfl, rfl⟩, rfl, rfl⟩

end Store

end RecordQuery
