import RecordQuery.Selection.Basic
set_option autoImplicit false

/-!
# Store: joined rows

A joined row is a record of the main source with the records joined to it, each under its label; an outer
join may have found none.  Joining, grouping and the drop of repeated rows are functions on lists of them.
-/

namespace RecordQuery

/-- A record of the main source and what is joined to it. -/
structure Joined where
  /-- the name that rows of the main source go by -/
  reference : String
  /-- the table of the main source -/
  table : String
  base : Record
  /-- joined records by label, none where an outer join found no partner -/
  others : List (String × Option Record)
  computed : Record
  deriving Inhabited

namespace Joined

/-- A record with nothing joined to it. -/
def single (reference table : String) (base : Record) : Joined := ⟨reference, table, base, [], []⟩

/-- The main side of a row without a partner there: every declared field is null. -/
def blank (reference table : String) (m : Model) (labels : List String) : Joined :=
  ⟨reference, table, m.blankRecord, labels.map fun label => (label, none), []⟩

/-- Join a record, or the lack of one, under a label. -/
def extend (row : Joined) (label : String) (other : Option Record) : Joined :=
  { row with others := row.others ++ [(label, other)] }

/-- The record joined under a label. -/
def other? (row : Joined) (label : String) : Option Record :=
  (row.others.find? fun o => o.1 == label).bind Prod.snd

/-- The value of a plain field: computed, of the main record, or of the first joined record that has it. -/
def field? (row : Joined) (name : String) : Option Value :=
  match Entries.find? row.computed name with
  | some v => some v
  | none =>
    match Entries.find? row.base name with
    | some v => some v
    | none => row.others.findSome? fun o => o.2.bind fun r => Entries.find? r name

/-- The value of a field of the main source, of a joined record, or of a nested record. -/
def qualified? (row : Joined) (model name : String) : Option Value :=
  if model = row.reference ∨ model = row.table then Entries.find? row.base name
  else
    match row.others.find? fun o => o.1 == model with
    | some (_, other) => other.bind fun r => Entries.find? r name
    | none => Record.qualified? row.base model name

/-- The names of a joined row. -/
def scope (row : Joined) : Scope := ⟨row.field?, row.qualified?⟩

/-! ## Lists of joined rows -/

/-- The rows that pass a test, up to the first fault. -/
def keep {α : Type} (test : α → Outcome Bool) : List α → Outcome (List α)
  | [] => .ok []
  | x :: rest => do
    let passes ← test x
    let kept ← keep test rest
    return if passes then x :: kept else kept

section

variable {α : Type} {test : α → Outcome Bool} {items kept : List α}

theorem keep_of_ok {passes : α → Bool} (h : ∀ x ∈ items, test x = .ok (passes x)) :
    keep test items = .ok (items.filter passes) := by
  induction items with
  | nil => rfl
  | cons x rest ih =>
    rw [keep, h x List.mem_cons_self, ih fun y hy => h y (List.mem_cons_of_mem x hy), List.filter_cons]
    rfl

theorem ok_of_keep (h : keep test items = .ok kept) : ∀ x ∈ items, ∃ passes, test x = .ok passes := by
  induction items generalizing kept with
  | nil => exact fun x hx => absurd hx List.not_mem_nil
  | cons y rest ih =>
    rw [keep] at h
    obtain ⟨passes, hpasses, h⟩ := Outcome.bind_eq_ok.mp h
    obtain ⟨more, hmore, -⟩ := Outcome.bind_eq_ok.mp h
    exact List.forall_mem_cons.mpr ⟨⟨passes, hpasses⟩, ih hmore⟩

theorem keep_sublist (h : keep test items = .ok kept) : kept.Sublist items := by
  induction items generalizing kept with
  | nil =>
    cases h
    exact List.Sublist.refl _
  | cons x rest ih =>
    rw [keep] at h
    obtain ⟨passes, -, h⟩ := Outcome.bind_eq_ok.mp h
    obtain ⟨more, hmore, h⟩ := Outcome.bind_eq_ok.mp h
    cases h
    split
    · exact (ih hmore).cons_cons x
    · exact (ih hmore).cons x

end

/-- The rows for which a predicate holds. -/
def filter (p : Predicate) (registry : Registry) (rows : List Joined) : Outcome (List Joined) :=
  keep (fun row => p.holds row.scope registry) rows

/-- Every row with every record. -/
def combine (rows : List Joined) (others : List Record) (label : String) : List Joined :=
  rows.flatMap fun row => others.map fun o => row.extend label (some o)

/-- A row with its partners; without one, and if `outer`, with none. -/
def partners (j : Join) (registry : Registry) (others : List Record) (outer : Bool) (row : Joined) :
    Outcome (List Joined) := do
  let found ← filter j.condition registry (others.map fun o => row.extend j.label (some o))
  return if found.isEmpty && outer then [row.extend j.label none] else found

/-- A record with the rows that it joins; without one, with the blank row. -/
def reversePartners (j : Join) (registry : Registry) (rows : List Joined) (blank : Joined) (other : Record) :
    Outcome (List Joined) := do
  let found ← filter j.condition registry (rows.map fun row => row.extend j.label (some other))
  return if found.isEmpty then [blank.extend j.label (some other)] else found

/-- Join records to rows. -/
def join (j : Join) (registry : Registry) (rows : List Joined) (others : List Record) (blank : Joined) :
    Outcome (List Joined) := do
  let found ← match j.kind with
    | .inner => rows.mapM (partners j registry others false)
    | .left => rows.mapM (partners j registry others true)
    | .right => others.mapM (reversePartners j registry rows blank)
  return found.flatten

/-- The values of some expressions in a row. -/
def values (row : Joined) (es : List Expr) : Outcome (List Value) := es.mapM fun e => e.evaluate row.scope

/-- The items whose key no earlier item has, keys compared by sameness. -/
def firstByKey {κ α : Type} (same : κ → κ → Bool) : List κ → List (κ × α) → List (κ × α)
  | _, [] => []
  | seen, (k, x) :: rest =>
    if seen.any (same · k) then firstByKey same seen rest
    else (k, x) :: firstByKey same (seen ++ [k]) rest

/-- One row of each group, the first, if the grouping's predicate holds for it. -/
def group (g : Grouping) (registry : Registry) (rows : List Joined) : Outcome (List Joined) := do
  let keyed ← rows.mapM fun row => do return (← row.values g.columns, row)
  filter g.having registry ((firstByKey Value.identicalItems [] keyed).map Prod.snd)

/-- The value of a fragment in a row. -/
def fragmentValue (registry : Registry) (row : Joined) : Fragment → Outcome Value
  | .expr e => e.evaluate row.scope
  | .text format args =>
    match Expr.parse format ⟨args, registry⟩ with
    | .ok e => e.evaluate row.scope
    | .error fault => .error (.notEvaluable format fault)

/-- The row with the computed additional fields; later ones see the earlier ones. -/
def compute (registry : Registry) (fields : List ExtraField) (row : Joined) : Outcome Joined :=
  fields.foldlM (fun row f =>
    match f.fragment with
    | some fragment => do
      let v ← fragmentValue registry row fragment
      return { row with computed := Entries.insert row.computed f.label v }
    | none => .ok row) row

end Joined

end RecordQuery
