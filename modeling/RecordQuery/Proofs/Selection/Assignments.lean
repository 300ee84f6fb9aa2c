import Mathlib.Data.List.Basic
import Mathlib.Data.List.Induction
import RecordQuery.Selection.Refine
set_option autoImplicit false

/-!
# Selection: assignments are an ordered map

An update keeps its assignments in a list that is searched at every call: a field that is set again gets its new
value where it stands, any other field is set at the end.  `AreFinal` says what is left of a sequence of calls without
following them one by one.  It holds of no calls and no assignments, and one more call keeps it (`AreFinal.concat`).
-/

namespace RecordQuery

/-! ## One call -/

section

variable {sets : List (String × Assigned)} {name : String} {a : Assigned}

/-- The fields that are set: those before, and the new one behind them. -/
theorem map_fst_assign (sets : List (String × Assigned)) (name : String) (a : Assigned) :
    (assign sets name a).map Prod.fst =
      if name ∈ sets.map Prod.fst then sets.map Prod.fst else sets.map Prod.fst ++ [name] := by
  induction sets with
  | nil => rfl
  | cons s rest ih =>
    obtain ⟨k, b⟩ := s
    rw [assign, List.map_cons]
    by_cases hname : k = name
    · rw [if_pos hname, if_pos (hname ▸ List.mem_cons_self), List.map_cons]
    · have hmem : name ∈ k :: rest.map Prod.fst ↔ name ∈ rest.map Prod.fst :=
        List.mem_cons.trans (or_iff_right (Ne.symm hname))
      rw [if_neg hname, List.map_cons, ih, if_congr hmem rfl rfl]
      split <;> rfl

/-- What is assigned after a call is what it assigns, or was assigned to another field. -/
theorem mem_assign {s : String × Assigned} (hnodup : (sets.map Prod.fst).Nodup) (h : s ∈ assign sets name a) :
    s = (name, a) ∨ s ∈ sets ∧ s.1 ≠ name := by
  induction sets with
  | nil => exact .inl (List.mem_singleton.mp h)
  | cons first rest ih =>
    obtain ⟨k, b⟩ := first
    rw [List.map_cons, List.nodup_cons] at hnodup
    obtain ⟨hk, hrest⟩ := hnodup
    rw [assign] at h
    split at h
    · rename_i hname
      rcases List.mem_cons.mp h with rfl | hs
      · exact .inl (by rw [hname])
      · refine .inr ⟨List.mem_cons_of_mem _ hs, fun hsame => hk ?_⟩
        exact List.mem_map.mpr ⟨s, hs, hsame.trans hname.symm⟩
    · rename_i hname
      rcases List.mem_cons.mp h with rfl | hs
      · exact .inr ⟨List.mem_cons_self, hname⟩
      · exact (ih hrest hs).imp_right fun ⟨hmem, hne⟩ => ⟨List.mem_cons_of_mem _ hmem, hne⟩

end

/-! ## A sequence of calls -/

/-- What some assignments, made one after the other, leave: every field that one of them sets, once, in the order of
their first assignments, with what the last one gives it. -/
structure AreFinal (calls sets : List (String × Assigned)) : Prop where
  nodup : (sets.map Prod.fst).Nodup
  mem_iff : ∀ name, name ∈ sets.map Prod.fst ↔ name ∈ calls.map Prod.fst
  inOrder : (sets.map Prod.fst).Pairwise fun a b =>
    (calls.map Prod.fst).idxOf a < (calls.map Prod.fst).idxOf b
  last : ∀ s ∈ sets, ∃ before after, calls = before ++ s :: after ∧ s.1 ∉ after.map Prod.fst

namespace AreFinal

theorem nil : AreFinal [] [] := ⟨List.nodup_nil, fun _ => .rfl, .nil, fun _ hs => absurd hs List.not_mem_nil⟩

variable {calls sets : List (String × Assigned)}

/-- The fields that were set keep the order of their first assignments, and a new one comes after them. -/
theorem inOrder_concat (h : AreFinal calls sets) (call : String × Assigned) :
    ((assign sets call.1 call.2).map Prod.fst).Pairwise fun a b =>
      ((calls ++ [call]).map Prod.fst).idxOf a < ((calls ++ [call]).map Prod.fst).idxOf b := by
  have hold : ∀ name ∈ sets.map Prod.fst,
      ((calls ++ [call]).map Prod.fst).idxOf name = (calls.map Prod.fst).idxOf name := by
    intro name hname
    rw [List.map_append, List.idxOf_append_of_mem ((h.mem_iff name).mp hname)]
  have hkept : (sets.map Prod.fst).Pairwise fun a b =>
      ((calls ++ [call]).map Prod.fst).idxOf a < ((calls ++ [call]).map Prod.fst).idxOf b :=
    h.inOrder.imp_of_mem fun ha hb hlt => by rwa [hold _ ha, hold _ hb]
  rw [map_fst_assign]
  split
  · exact hkept
  · rename_i hnew
    refine List.pairwise_append.mpr ⟨hkept, List.pairwise_singleton _ _, fun a ha b hb => ?_⟩
    rw [List.mem_singleton.mp hb, hold a ha, List.map_append,
      List.idxOf_append_of_notMem fun hmem => hnew ((h.mem_iff call.1).mpr hmem)]
    exact Nat.lt_add_right _ (List.idxOf_lt_length_iff.mpr ((h.mem_iff a).mp ha))

/-- One more call. -/
theorem concat (h : AreFinal calls sets) (call : String × Assigned) :
    AreFinal (calls ++ [call]) (assign sets call.1 call.2) := by
  have hnames : ∀ name, name ∈ (assign sets call.1 call.2).map Prod.fst ↔
      name ∈ sets.map Prod.fst ∨ name = call.1 := by
    intro name
    rw [map_fst_assign]
    split
    · rename_i hmem
      exact ⟨.inl, fun hname => hname.elim id fun hsame => hsame ▸ hmem⟩
    · exact List.mem_append.trans (or_congr_right List.mem_singleton)
  refine ⟨?_, fun name => ?_, h.inOrder_concat call, fun s hs => ?_⟩
  · refine (h.inOrder_concat call).imp fun hlt heq => ?_
    exact absurd hlt (heq ▸ Nat.lt_irrefl _)
  · rw [hnames, h.mem_iff, List.map_append]
    exact (List.mem_append.trans (or_congr_right List.mem_singleton)).symm
  · rcases mem_assign h.nodup hs with rfl | ⟨hold, hne⟩
    · exact ⟨calls, [], rfl, List.not_mem_nil⟩
    · obtain ⟨before, after, rfl, hafter⟩ := h.last s hold
      refine ⟨before, after ++ [call], by rw [List.append_assoc, List.cons_append], ?_⟩
      rw [List.map_append, List.mem_append, not_or]
      exact ⟨hafter, fun hmem => hne (List.mem_singleton.mp hmem)⟩

end AreFinal

namespace UpdateSelection

/-- Set a field to a value or to a computed fragment. -/
def put (u : UpdateSelection) (call : String × Assigned) : UpdateSelection :=
  match call.2 with
  | .value v => u.set call.1 v
  | .computed fragment => u.setComputed call.1 fragment

/-- Set fields one after the other. -/
def putAll (u : UpdateSelection) (calls : List (String × Assigned)) : UpdateSelection := calls.foldl put u

theorem put_eq (u : UpdateSelection) (call : String × Assigned) :
    u.put call = ⟨u.shape, assign u.sets call.1 call.2⟩ := by
  obtain ⟨name, _ | _⟩ := call <;> rfl

theorem shape_putAll (u : UpdateSelection) (calls : List (String × Assigned)) :
    (u.putAll calls).shape = u.shape := by
  induction calls generalizing u with
  | nil => rfl
  | cons call rest ih =>
    have hfirst : (u.put call).shape = u.shape := by rw [put_eq]
    rw [← hfirst]
    exact ih (u.put call)

/-- Calls on an update without assignments leave the final ones. -/
theorem areFinal_putAll (s : Shape) (calls : List (String × Assigned)) :
    AreFinal calls ((ofShape s).putAll calls).sets := by
  induction calls using List.reverseRecOn with
  | nil => exact .nil
  | append_singleton calls call ih =>
    rw [putAll, List.foldl_concat, put_eq]
    exact ih.concat call

end UpdateSelection

/-- An undecided selection in which fields are set one after the other becomes an update of its shape with the final
assignments. -/
theorem Selection.assignments_ordered (s : Shape) (calls : List (String × Assigned)) :
    ∃ u, ((Selection.undecided s).asUpdate?.map fun u => u.putAll calls) = some u ∧
      u.shape = s ∧ AreFinal calls u.sets := by
  refine ⟨(UpdateSelection.ofShape s).putAll calls, rfl, ?_, ?_⟩
  · exact UpdateSelection.shape_putAll _ calls
  · exact UpdateSelection.areFinal_putAll s calls

/-- A field that is set again keeps its place. -/
example (s : Shape) :
    ((UpdateSelection.ofShape s).putAll
      [("a", .value (.int 1)), ("b", .value (.int 2)), ("a", .value (.int 3))]).sets =
        [("a", .value (.int 3)), ("b", .value (.int 2))] := rfl

end RecordQuery
