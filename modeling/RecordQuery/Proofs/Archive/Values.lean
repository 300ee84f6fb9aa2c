import RecordQuery.Proofs.Archive.Parts
import RecordQuery.Proofs.Calendar.RoundTrip
set_option autoImplicit false

/-!
# Archive: types and values are kept

Every type whose bound fits into 64 bits is kept, and every value in which no float and no leap second within a
minute stands.  A float need not be: one that is not finite is written as null.  Such a leap second never is: it is
written as the second after it.
-/

namespace RecordQuery

/-- The bound of a type fits into 64 bits. -/
def DataType.Archivable : DataType → Prop
  | .string limit => ∀ n ∈ limit, n < Text.wordLimit
  | _ => True

namespace Value

mutual

/-- A value can be archived: no float and no leap second within a minute stands in it, and the names in its records
ascend, as those of a map do. -/
def Archivable : Value → Prop
  | .float _ => False
  | .array items => AllArchivable items
  | .object entries => Entries.Sorted entries ∧ EntriesArchivable entries
  | .null => True
  | .bool _ => True
  | .int _ => True
  | .string _ => True
  | .bytes _ => True
  | .date _ => True
  | .dateTime t => t.time.HasOwnText
termination_by structural v => v

/-- All values can be archived. -/
def AllArchivable : List Value → Prop
  | [] => True
  | v :: vs => Archivable v ∧ AllArchivable vs
termination_by structural vs => vs

/-- All named values can be archived. -/
def EntriesArchivable : List (String × Value) → Prop
  | [] => True
  | (_, v) :: es => Archivable v ∧ EntriesArchivable es
termination_by structural es => es

end

end Value

namespace Archive

/-! ## Types -/

theorem keeps_ofEnum (e : EnumType) : Keeps enum? (ofEnum e) e := by
  have hvariants : Keeps (list? string?) (listOf .string e.variants) e.variants :=
    .listOf fun s _ => keeps_string s
  exact ⟨by simp [ofEnum, hvariants.whole], by simp [enum?, ofEnum, hvariants.read]⟩

theorem keeps_ofType : ∀ {t : DataType}, t.Archivable → Keeps type? (ofType t) t
  | .boolean, _ => ⟨rfl, rfl⟩
  | .float, _ => ⟨rfl, rfl⟩
  | .date, _ => ⟨rfl, rfl⟩
  | .dateTime, _ => ⟨rfl, rfl⟩
  | .binary, _ => ⟨rfl, rfl⟩
  | .object, _ => ⟨rfl, rfl⟩
  | .text _, _ => ⟨rfl, rfl⟩
  | .integer signed width serial, _ => ⟨by simp [ofType], by simp [type?, ofType]⟩
  | .string limit, h => by
    have hlimit := keeps_count h
    exact ⟨by simp [ofType, hlimit.whole], by simp -implicitDefEqProofs [type?, ofType, hlimit.read]⟩
  | .enumeration e, _ => by
    have he := keeps_ofEnum e
    exact ⟨by simp [ofType, he.whole], by simp [type?, ofType, he.read]⟩

/-! ## Values -/

theorem keeps_int (n : Int64) : Keeps int64? (.integer n.toInt) n := by
  refine ⟨Json.isWord_toInt n, ?_⟩
  show int64? (.integer n.toInt) = some n
  rw [int64?, Text.toInt64?_toInt]

theorem keeps_byte (b : UInt8) : Keeps byte? (.integer b.toNat) b := by
  have hlt := b.toNat_lt
  have hrange : 0 ≤ (b.toNat : Int) ∧ (b.toNat : Int) < 256 := by omega
  refine ⟨Json.isWord_iff.mpr ⟨by omega, by omega⟩, ?_⟩
  show byte? (.integer b.toNat) = some b
  rw [byte?, if_pos hrange, Int.toNat_natCast, UInt8.ofNat_toNat]

theorem keeps_date (d : Date) : Keeps date? (.string d.text) d := ⟨rfl, Calendar.readDate_text d⟩

/-- The text of a moment keeps what it is taken for. -/
theorem keeps_dateTime (t : DateTime) : Keeps dateTime? (.string t.isoText) t.asShown :=
  ⟨rfl, Calendar.readDateTime_isoText t⟩

/-- The names of a record are not changed, so they stay in order. -/
theorem sorted_ofEntries {es : List (String × Value)} (h : Entries.Sorted es) :
    Entries.Sorted (Json.sortedMembers (ofEntries es)) := by
  have hnames : ∀ es : List (String × Value),
      (Json.sortedMembers (ofEntries es)).map Prod.fst = es.map Prod.fst := by
    intro es
    induction es with
    | nil => rfl
    | cons e es ih => exact congrArg (e.1 :: ·) ih
  exact (Entries.sorted_iff_of_names (hnames es)).mpr h

/-- A kind of value that carries something is kept with it. -/
theorem keeps_tagged {α : Type} {decode : Json → Option α} {form : Json} {a : α} (h : Keeps decode form a)
    {tag : String} {make : α → Value}
    (hvalue : ∀ json, value? (tagged tag json) = (decode json).bind fun a => some (make a)) :
    Keeps value? (tagged tag form) (make a) := by
  refine ⟨by rw [isWhole_tagged, h.whole], ?_⟩
  rw [sorted_tagged, hvalue, h.read, Option.bind_some]

theorem keeps_moment (t : DateTime) : Keeps value? (ofValue (.dateTime t)) (.dateTime t.asShown) :=
  keeps_tagged (keeps_dateTime t) fun _ => rfl

mutual

/-- A value that can be archived is kept. -/
theorem keeps_ofValue : ∀ {v : Value}, v.Archivable → Keeps value? (ofValue v) v
  | .null, _ => ⟨rfl, rfl⟩
  | .bool _, _ => ⟨rfl, rfl⟩
  | .int n, _ => keeps_tagged (keeps_int n) fun _ => rfl
  | .float _, h => h.elim
  | .string _, _ => ⟨rfl, rfl⟩
  | .bytes bs, _ => by
    have hbytes : Keeps (list? byte?) (listOf (fun b : UInt8 => .integer b.toNat) bs) bs :=
      .listOf fun b _ => keeps_byte b
    exact keeps_tagged hbytes fun _ => rfl
  | .date d, _ => keeps_tagged (keeps_date d) fun _ => rfl
  | .dateTime t, h => by
    have hself : t.asShown = t := DateTime.asShown_eq_self_iff.mpr h
    have hmoment := keeps_moment t
    rwa [hself] at hmoment
  | .array items, h => by
    obtain ⟨hwhole, hread⟩ := keeps_ofValues h
    refine ⟨(isWhole_tagged _ _).trans hwhole, ?_⟩
    show (values? (Json.sortedItems (ofValues items))).map Value.array = _
    rw [hread, Option.map_some]
  | .object entries, ⟨hsorted, h⟩ => by
    obtain ⟨hwhole, hread⟩ := keeps_ofEntries h
    refine ⟨(isWhole_tagged _ _).trans hwhole, ?_⟩
    show (entries? (Entries.ofPairs (Json.sortedMembers (ofEntries entries)))).map Value.object = _
    rw [(sorted_ofEntries hsorted).ofPairs_eq, hread, Option.map_some]

theorem keeps_ofValues : ∀ {vs : List Value}, Value.AllArchivable vs →
    Json.isWholeItems (ofValues vs) = true ∧ values? (Json.sortedItems (ofValues vs)) = some vs
  | [], _ => ⟨rfl, rfl⟩
  | v :: vs, ⟨hv, hvs⟩ => by
    have hv := keeps_ofValue hv
    obtain ⟨hwhole, hread⟩ := keeps_ofValues hvs
    exact ⟨by simp [ofValues, Json.isWholeItems, hv.whole, hwhole],
      by simp [ofValues, Json.sortedItems, values?, hv.read, hread]⟩

theorem keeps_ofEntries : ∀ {es : List (String × Value)}, Value.EntriesArchivable es →
    Json.isWholeMembers (ofEntries es) = true ∧ entries? (Json.sortedMembers (ofEntries es)) = some es
  | [], _ => ⟨rfl, rfl⟩
  | (k, v) :: es, ⟨hv, hes⟩ => by
    have hv := keeps_ofValue hv
    obtain ⟨hwhole, hread⟩ := keeps_ofEntries hes
    exact ⟨by simp [ofEntries, hv.whole, hwhole], by simp [ofEntries, entries?, hv.read, hread]⟩

end

example : value? (ofValue (.float Binary64.nan)).sorted = none := by rfl

/-- A list of values that can be archived is kept. -/
theorem keeps_valueList {vs : List Value} (h : Value.AllArchivable vs) :
    Keeps valueList? (.array (ofValues vs)) vs := by
  have hmapM : ∀ items : List Json, items.mapM value? = values? items := by
    intro items
    induction items with
    | nil => rfl
    | cons json rest ih =>
      rw [List.mapM_cons, ih]
      rfl
  obtain ⟨hwhole, hread⟩ := keeps_ofValues h
  exact ⟨hwhole, (hmapM _).trans hread⟩

end Archive

end RecordQuery
