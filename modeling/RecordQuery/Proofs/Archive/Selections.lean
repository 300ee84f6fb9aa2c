import RecordQuery.Proofs.Archive.Conditions
set_option autoImplicit false

/-!
# Archive: selections are kept

The form of a selection of any kind whose values can be archived is kept, and so is the text of the form if that
is not nested too deep (`selections_survive`).
-/

namespace RecordQuery

/-- The bounds of the types of a model fit into 64 bits. -/
def Model.Archivable (m : Model) : Prop := ∀ f ∈ m.fields, f.2.Archivable

/-- The numbers of a source fit into 64 bits. -/
structure Source.Archivable (s : Source) : Prop where
  backend : s.backend < Text.wordLimit
  model : s.model.Archivable

/-- The values in a fragment can be archived. -/
def Fragment.Archivable : Fragment → Prop
  | .expr e => e.Archivable
  | .text _ args => Value.AllArchivable args

/-- The values in a shape can be archived, and its bounds fit into 64 bits. -/
structure Shape.Archivable (s : Shape) : Prop where
  source : s.source.Archivable
  predicate : s.predicate.Archivable
  ordering : ∀ t ∈ s.ordering, t.expr.Archivable
  limit : ∀ n ∈ s.limit, n < Text.wordLimit
  offset : s.offset < Text.wordLimit

/-- The values in an additional field can be archived. -/
structure ExtraField.Archivable (f : ExtraField) : Prop where
  fragment : ∀ fragment ∈ f.fragment, fragment.Archivable
  type : ∀ t ∈ f.type, t.Archivable
  record : ∀ m ∈ f.record, m.Archivable

/-- The values in a join can be archived. -/
structure Join.Archivable (j : Join) : Prop where
  source : j.source.Archivable
  condition : j.condition.Archivable

/-- The values in a grouping can be archived. -/
structure Grouping.Archivable (g : Grouping) : Prop where
  columns : ∀ e ∈ g.columns, e.Archivable
  having : g.having.Archivable

/-- The values in a read can be archived. -/
structure ReadSelection.Archivable (r : ReadSelection) : Prop where
  shape : r.shape.Archivable
  projection : ∀ p ∈ r.projection, p.fragment.Archivable
  additional : ∀ f ∈ r.additional, f.Archivable
  extraSources : ∀ e ∈ r.extraSources, e.source.Archivable
  joins : ∀ j ∈ r.joins, j.Archivable
  grouping : ∀ g ∈ r.grouping, g.Archivable

/-- The values in what a field is set to can be archived. -/
def Assigned.Archivable : Assigned → Prop
  | .value v => v.Archivable
  | .computed fragment => fragment.Archivable

/-- The values in an update can be archived. -/
structure UpdateSelection.Archivable (u : UpdateSelection) : Prop where
  shape : u.shape.Archivable
  sets : ∀ set ∈ u.sets, set.2.Archivable

namespace Archive

theorem keeps_ofFragment : ∀ {f : Fragment}, f.Archivable → Keeps fragment? (ofFragment f) f
  | .expr e, h => by
    have he : Keeps expr? (ofExpr e) e := keeps_ofExpr h
    exact ⟨by simp [ofFragment, he.whole], by simp [ofFragment, fragment?, he.read]⟩
  | .text format args, h => by
    have hargs : Keeps valueList? (.array (ofValues args)) args := keeps_valueList h
    exact ⟨by simp [ofFragment, ofText, hargs.whole], by simp [ofFragment, ofText, fragment?, text?, hargs.read]⟩

/-! ## Models -/

theorem keeps_ofField {f : String × DataType} (h : f.2.Archivable) : Keeps (pair? type?) (ofField f) f :=
  (keeps_ofType h).pair

theorem keeps_ofModel {m : Model} (h : m.Archivable) : Keeps model? (ofModel m) m := by
  have hfields : Keeps (list? (pair? type?)) (listOf ofField m.fields) m.fields :=
    .listOf fun f hf => keeps_ofField (h f hf)
  have hkey := keeps_label m.primaryKey
  exact ⟨by simp [ofModel, hfields.whole, hkey.whole], by simp [ofModel, model?, hfields.read, hkey.read]⟩

theorem keeps_ofSource {s : Source} (h : s.Archivable) : Keeps source? (ofSource s) s := by
  have hbackend := keeps_ofNat h.backend
  have hmodel := keeps_ofModel h.model
  exact ⟨by simp [ofSource, hbackend.whole, hmodel.whole],
    by simp -implicitDefEqProofs [ofSource, source?, hbackend.read, hmodel.read]⟩

/-! ## Parts of selections -/

theorem keeps_ofOrderTerm {t : OrderTerm} (h : t.expr.Archivable) : Keeps orderTerm? (ofOrderTerm t) t := by
  have hexpr := keeps_ofExpr h
  exact ⟨by simp [ofOrderTerm, hexpr.whole], by simp [ofOrderTerm, orderTerm?, hexpr.read]⟩

theorem keeps_ofShape {s : Shape} (h : s.Archivable) : Keeps shape? (ofShape s) s := by
  have hsource := keeps_ofSource h.source
  have hpredicate := keeps_ofPredicate h.predicate
  have hordering : Keeps (list? orderTerm?) (listOf ofOrderTerm s.ordering) s.ordering :=
    .listOf fun t ht => keeps_ofOrderTerm (h.ordering t ht)
  have hlimit := keeps_count h.limit
  have hoffset := keeps_ofNat h.offset
  have hlabel := keeps_label s.label
  constructor
  · simp [ofShape, hsource.whole, hpredicate.whole, hordering.whole, hlimit.whole, hoffset.whole, hlabel.whole]
  · simp -implicitDefEqProofs [ofShape, shape?, hsource.read, hpredicate.read, hordering.read, hlimit.read,
      hoffset.read, hlabel.read]

theorem keeps_ofProjection {p : Projection} (h : p.fragment.Archivable) :
    Keeps projection? (ofProjection p) p := by
  have hfragment := keeps_ofFragment h
  have hlabel := keeps_label p.label
  exact ⟨by simp [ofProjection, hfragment.whole, hlabel.whole],
    by simp [ofProjection, projection?, hfragment.read, hlabel.read]⟩

theorem keeps_ofExtraField {f : ExtraField} (h : f.Archivable) : Keeps extraField? (ofExtraField f) f := by
  have hfragment : Keeps (orNull fragment?) (optional ofFragment f.fragment) f.fragment :=
    .optional rfl fun g hg => keeps_ofFragment (h.fragment g hg)
  have htype : Keeps (orNull type?) (optional ofType f.type) f.type :=
    .optional rfl fun t ht => keeps_ofType (h.type t ht)
  have hrecord : Keeps (orNull model?) (optional ofModel f.record) f.record :=
    .optional rfl fun m hm => keeps_ofModel (h.record m hm)
  constructor
  · simp [ofExtraField, hfragment.whole, htype.whole, hrecord.whole]
  · simp -implicitDefEqProofs [ofExtraField, extraField?, hfragment.read, htype.read, hrecord.read]

theorem keeps_ofExtraSource {e : ExtraSource} (h : e.source.Archivable) :
    Keeps extraSource? (ofExtraSource e) e := by
  have hsource := keeps_ofSource h
  exact ⟨by simp [ofExtraSource, hsource.whole],
    by simp -implicitDefEqProofs [ofExtraSource, extraSource?, hsource.read]⟩

theorem keeps_ofJoin {j : Join} (h : j.Archivable) : Keeps join? (ofJoin j) j := by
  have hsource := keeps_ofSource h.source
  have hcondition := keeps_ofPredicate h.condition
  exact ⟨by simp [ofJoin, hsource.whole, hcondition.whole],
    by simp -implicitDefEqProofs [ofJoin, join?, hsource.read, hcondition.read]⟩

theorem keeps_ofGrouping {g : Grouping} (h : g.Archivable) : Keeps grouping? (ofGrouping g) g := by
  have hcolumns : Keeps (list? expr?) (listOf ofExpr g.columns) g.columns :=
    .listOf fun e he => keeps_ofExpr (h.columns e he)
  have hhaving := keeps_ofPredicate h.having
  exact ⟨by simp [ofGrouping, hcolumns.whole, hhaving.whole],
    by simp [ofGrouping, grouping?, hcolumns.read, hhaving.read]⟩

/-! ## Selections -/

theorem keeps_ofRead {r : ReadSelection} (h : r.Archivable) : Keeps read? (ofRead r) r := by
  have hshape := keeps_ofShape h.shape
  have hprojection : Keeps (list? projection?) (listOf ofProjection r.projection) r.projection :=
    .listOf fun p hp => keeps_ofProjection (h.projection p hp)
  have hadditional : Keeps (list? extraField?) (listOf ofExtraField r.additional) r.additional :=
    .listOf fun f hf => keeps_ofExtraField (h.additional f hf)
  have hextra : Keeps (list? extraSource?) (listOf ofExtraSource r.extraSources) r.extraSources :=
    .listOf fun e he => keeps_ofExtraSource (h.extraSources e he)
  have hjoins : Keeps (list? join?) (listOf ofJoin r.joins) r.joins :=
    .listOf fun j hj => keeps_ofJoin (h.joins j hj)
  have hgrouping : Keeps (orNull grouping?) (optional ofGrouping r.grouping) r.grouping :=
    .optional rfl fun g hg => keeps_ofGrouping (h.grouping g hg)
  constructor
  · simp [ofRead, hshape.whole, hprojection.whole, hadditional.whole, hextra.whole, hjoins.whole, hgrouping.whole]
  · simp -implicitDefEqProofs [ofRead, read?, hshape.read, hprojection.read, hadditional.read, hextra.read,
      hjoins.read, hgrouping.read]

theorem keeps_ofAssigned : ∀ {a : Assigned}, a.Archivable → Keeps assigned? (ofAssigned a) a
  | .value v, h => by
    have hv : Keeps value? (ofValue v) v := keeps_ofValue h
    exact ⟨by simp [ofAssigned, hv.whole], by simp [ofAssigned, assigned?, hv.read]⟩
  | .computed fragment, h => by
    have hfragment : Keeps fragment? (ofFragment fragment) fragment := keeps_ofFragment h
    exact ⟨by simp [ofAssigned, hfragment.whole], by simp [ofAssigned, assigned?, hfragment.read]⟩

theorem keeps_ofUpdate {u : UpdateSelection} (h : u.Archivable) : Keeps update? (ofUpdate u) u := by
  have hshape := keeps_ofShape h.shape
  have hsets : Keeps (list? (pair? assigned?)) (listOf ofSet u.sets) u.sets :=
    .listOf fun set hset => (keeps_ofAssigned (h.sets set hset)).pair
  exact ⟨by simp [ofUpdate, hshape.whole, hsets.whole],
    by simp -implicitDefEqProofs [ofUpdate, update?, hshape.read, hsets.read]⟩

theorem keeps_ofDelete {d : DeleteSelection} (h : d.shape.Archivable) : Keeps delete? (ofDelete d) d := by
  have hshape := keeps_ofShape h
  exact ⟨by simp [ofDelete, hshape.whole], by simp -implicitDefEqProofs [ofDelete, delete?, hshape.read]⟩

/-! ## Through text -/

/-- What a text of a form is read as. -/
def fromText {α : Type} (decode : Json → Option α) (text : String) : Option α := (Json.read? text).bind decode

/-- A form that keeps something and nests no deeper than a reader allows is kept by its text. -/
theorem Keeps.fromText {α : Type} {decode : Json → Option α} {form : Json} {a : α} (h : Keeps decode form a)
    (hdepth : form.depth ≤ Json.maxDepth) : fromText decode form.compactText = some a := by
  rw [Archive.fromText, Json.read?_compactText h.whole hdepth, Option.bind_some, h.read]

/-- Reads, updates and deletes in which no float and no leap second within a minute stands are the same after they
were written as JSON text and read back, so they compile to the same SQL; so are values, types, expressions and
predicates.  A moment is read back as what it is taken for, which is another one for such a leap second alone. -/
theorem selections_survive :
    (∀ r : ReadSelection, r.Archivable → (ofRead r).depth ≤ Json.maxDepth →
        fromText read? (ofRead r).compactText = some r) ∧
      (∀ u : UpdateSelection, u.Archivable → (ofUpdate u).depth ≤ Json.maxDepth →
        fromText update? (ofUpdate u).compactText = some u) ∧
      (∀ d : DeleteSelection, d.shape.Archivable → (ofDelete d).depth ≤ Json.maxDepth →
        fromText delete? (ofDelete d).compactText = some d) ∧
      (∀ v : Value, v.Archivable → (ofValue v).depth ≤ Json.maxDepth →
        fromText value? (ofValue v).compactText = some v) ∧
      (∀ t : DataType, t.Archivable → (ofType t).depth ≤ Json.maxDepth →
        fromText type? (ofType t).compactText = some t) ∧
      (∀ e : Expr, e.Archivable → (ofExpr e).depth ≤ Json.maxDepth →
        fromText expr? (ofExpr e).compactText = some e) ∧
      (∀ p : Predicate, p.Archivable → (ofPredicate p).depth ≤ Json.maxDepth →
        fromText predicate? (ofPredicate p).compactText = some p) ∧
      ∀ t : DateTime, fromText value? (ofValue (.dateTime t)).compactText = some (.dateTime t.asShown) ∧
        (t.asShown = t ↔ t.time.HasOwnText) :=
  ⟨fun _ h => (keeps_ofRead h).fromText, fun _ h => (keeps_ofUpdate h).fromText,
    fun _ h => (keeps_ofDelete h).fromText, fun _ h => (keeps_ofValue h).fromText,
    fun _ h => (keeps_ofType h).fromText, fun _ h => (keeps_ofExpr h).fromText,
    fun _ h => (keeps_ofPredicate h).fromText,
    fun t => ⟨(keeps_moment t).fromText (Nat.le_of_ble_eq_true rfl), DateTime.asShown_eq_self_iff⟩⟩

/-- The last second of the year before the year zero, a leap second, half over. -/
def leapSecond : DateTime :=
  ⟨(Date.of? (-1) 12 31).get rfl, (TimeOfDay.of? 23 59 59 1500000000).get rfl⟩

/-- Orders of the largest backend number. -/
def orders : Source :=
  ⟨18446744073709551615, ⟨"orders",
    [("id", .serial), ("state", .enumeration ⟨"State", ["open"]⟩), ("note", .string (some 80))], some "id"⟩⟩

/-- A read of orders whose parts nest, with values that their texts must escape, pad or sign. -/
def lateOrders : ReadSelection where
  shape :=
    { source := orders
      predicate := ⟨[(.and, .group
        [(.or, .expr (.binary (.named "at") .notLt (.literal .dateTime (.dateTime leapSecond)))),
          (.and, .text "note = %object"
            [.object [("\x01\"", .bytes [0, 255]), ("\\", .array [.null, .int Int64.minValue])]])]
        true)], true⟩
      ordering := [⟨.named "id", true⟩]
      limit := none
      offset := 18446744073709551615
      label := some "" }
  projection := [⟨.text "count(id)" [], none⟩]
  additional := [⟨"customer", none, some .float, some orders.model⟩]
  extraSources := [⟨orders, "other"⟩]
  joins := [⟨orders, .left, "next", ⟨[(.or, .group [] false)], false⟩⟩]
  grouping := some ⟨[.named "state"], .empty⟩
  distinct := true

/-- The read of orders is the same after it was written and read back. -/
theorem selections_survive_nested : lateOrders.Archivable ∧ (ofRead lateOrders).depth = 17 ∧
    fromText read? (ofRead lateOrders).compactText = some lateOrders := by
  have horders : orders.Archivable := by
    refine ⟨by decide, ?_⟩
    simp [Model.Archivable, DataType.Archivable, orders, DataType.serial, Text.wordLimit]
  have hnames : Text.compareText "\x01\"" "\\" = .lt := by decide
  have hsome : ∀ {α : Type} {P : α → Prop} {a : α}, P a → ∀ b ∈ some a, P b := by
    rintro _ _ _ h _ ⟨⟩
    exact h
  have hleap : leapSecond.time.HasOwnText := .inr rfl
  have hpredicate : lateOrders.shape.predicate.Archivable := by
    simp [lateOrders, Predicate.Archivable, ClausesArchivable, Condition.Archivable, Expr.Archivable, Expr.named,
      DataType.Archivable, Value.Archivable, Value.AllArchivable, Value.EntriesArchivable, Entries.Sorted, hnames,
      hleap]
  have harchivable : lateOrders.Archivable :=
    { shape := ⟨horders, hpredicate, List.forall_mem_singleton.mpr trivial, nofun, by decide⟩
      projection := List.forall_mem_singleton.mpr trivial
      additional := List.forall_mem_singleton.mpr ⟨nofun, hsome trivial, hsome horders.model⟩
      extraSources := List.forall_mem_singleton.mpr horders
      joins := List.forall_mem_singleton.mpr ⟨horders, trivial, trivial⟩
      grouping := hsome ⟨List.forall_mem_singleton.mpr trivial, trivial⟩ }
  have hdepth : (ofRead lateOrders).depth = 17 := by decide +kernel
  refine ⟨harchivable, hdepth, selections_survive.1 lateOrders harchivable ?_⟩
  rw [hdepth]
  decide

/-- A leap second within a minute is another moment after it was written and read back. -/
theorem leapWithin_not_kept :
    fromText value? (ofValue (.dateTime .leapWithin)).compactText = some (.dateTime DateTime.leapWithin.asShown) ∧
      DateTime.leapWithin.asShown ≠ .leapWithin :=
  ⟨(keeps_moment .leapWithin).fromText (Nat.le_of_ble_eq_true rfl), by decide⟩

end Archive

end RecordQuery
