import RecordQuery.Coercion
import RecordQuery.Proofs.Calendar.RoundTrip
import RecordQuery.Proofs.Json.RoundTrip
set_option autoImplicit false

/-!
# Coercion: what was encoded is decoded

A value of the kind that its type stores is decoded from what a backend was given for it, for every type but dates
(`decode_encode`): moments from their text, as long as no part of a second would be lost in it, and documents
from JSON text, as long as the reader follows their nesting.  The exception are leap seconds within a minute, which
have no text of their own.
-/

namespace RecordQuery

/-! ## Moments -/

/-- The text of a moment without part of a second is read as the moment that it is taken for, in every year. -/
theorem readDateTime?_text {t : DateTime} (ht : t.time.shownNanosecond = 0) :
    readDateTime? t.text = some t.asShown := by
  rw [readDateTime?, Calendar.readDateTime_text ht]

/-! ## Documents -/

namespace Value

mutual

/-- A value that JSON has a form of its own for: a tree of nulls, booleans, integers, strings, lists and records
whose names ascend, as those of a map do. -/
def IsDocument : Value → Prop
  | .array items => AreDocuments items
  | .object entries => Entries.Sorted entries ∧ HoldDocuments entries
  | .null => True
  | .bool _ => True
  | .int _ => True
  | .string _ => True
  | .float _ => False
  | .bytes _ => False
  | .date _ => False
  | .dateTime _ => False
termination_by structural v => v

/-- All values are documents. -/
def AreDocuments : List Value → Prop
  | [] => True
  | v :: vs => IsDocument v ∧ AreDocuments vs
termination_by structural vs => vs

/-- All named values are documents. -/
def HoldDocuments : List (String × Value) → Prop
  | [] => True
  | (_, v) :: es => IsDocument v ∧ HoldDocuments es
termination_by structural es => es

end

theorem names_entriesToJson (es : List (String × Value)) :
    (Json.sortedMembers (entriesToJson es)).map Prod.fst = es.map Prod.fst := by
  induction es with
  | nil => rfl
  | cons e es ih => exact congrArg (e.1 :: ·) ih

mutual

/-- A document has a JSON form that a reader gives back, and the form means the document. -/
theorem ofJson_toJson : ∀ {v : Value}, v.IsDocument →
    v.toJson.isWhole = true ∧ ofJson v.toJson.sorted = v
  | .null, _ => ⟨rfl, rfl⟩
  | .bool _, _ => ⟨rfl, rfl⟩
  | .string _, _ => ⟨rfl, rfl⟩
  | .float _, h => h.elim
  | .bytes _, h => h.elim
  | .date _, h => h.elim
  | .dateTime _, h => h.elim
  | .int n, _ => by
    refine ⟨Json.isWord_toInt n, ?_⟩
    show ofInteger n.toInt = .int n
    rw [ofInteger, Text.toInt64?_toInt]
  | .array items, h => by
    obtain ⟨hwhole, hread⟩ := itemsOfJson_itemsToJson h
    exact ⟨hwhole, congrArg Value.array hread⟩
  | .object entries, ⟨hsorted, h⟩ => by
    obtain ⟨hwhole, hread⟩ := entriesOfJson_entriesToJson h
    have hmembers : Entries.Sorted (Json.sortedMembers (entriesToJson entries)) :=
      (Entries.sorted_iff_of_names (names_entriesToJson entries)).mpr hsorted
    refine ⟨hwhole, ?_⟩
    show Value.object (entriesOfJson (Entries.ofPairs _)) = _
    rw [hmembers.ofPairs_eq, hread]

/-- Documents have JSON forms that a reader gives back. -/
theorem itemsOfJson_itemsToJson : ∀ {vs : List Value}, AreDocuments vs →
    Json.isWholeItems (itemsToJson vs) = true ∧ itemsOfJson (Json.sortedItems (itemsToJson vs)) = vs
  | [], _ => ⟨rfl, rfl⟩
  | _ :: _, ⟨hv, hvs⟩ => by
    obtain ⟨hwhole, hread⟩ := ofJson_toJson hv
    obtain ⟨hwholes, hreads⟩ := itemsOfJson_itemsToJson hvs
    exact ⟨Bool.and_eq_true_iff.mpr ⟨hwhole, hwholes⟩, congrArg₂ List.cons hread hreads⟩

/-- Named documents have JSON forms that a reader gives back. -/
theorem entriesOfJson_entriesToJson : ∀ {es : List (String × Value)}, HoldDocuments es →
    Json.isWholeMembers (entriesToJson es) = true ∧ entriesOfJson (Json.sortedMembers (entriesToJson es)) = es
  | [], _ => ⟨rfl, rfl⟩
  | (name, _) :: _, ⟨hv, hes⟩ => by
    obtain ⟨hwhole, hread⟩ := ofJson_toJson hv
    obtain ⟨hwholes, hreads⟩ := entriesOfJson_entriesToJson hes
    exact ⟨Bool.and_eq_true_iff.mpr ⟨hwhole, hwholes⟩,
      congrArg₂ (fun v es => (name, v) :: es) hread hreads⟩

end

/-- The value that its text is taken for. -/
def asShown : Value → Value
  | .dateTime t => .dateTime t.asShown
  | v => v

theorem asShown_eq_self_iff {v : Value} : v.asShown = v ↔ ∀ t, v = .dateTime t → t.time.HasOwnText := by
  cases v with
  | dateTime t =>
    rw [asShown, Value.dateTime.injEq, DateTime.asShown_eq_self_iff]
    constructor
    · rintro hown _ ⟨⟩
      exact hown
    · exact fun h => h t rfl
  | _ => exact ⟨fun _ _ => nofun, fun _ => rfl⟩

theorem IsDocument.asShown_eq {v : Value} (h : v.IsDocument) : v.asShown = v := by
  refine asShown_eq_self_iff.mpr ?_
  rintro t rfl
  exact h.elim

/-- A document is read from its JSON text. -/
theorem IsDocument.read?_compactText {v : Value} (h : v.IsDocument) (hdepth : v.toJson.depth ≤ Json.maxDepth) :
    (Json.read? v.toJson.compactText).map ofJson = some v := by
  obtain ⟨hwhole, hread⟩ := ofJson_toJson h
  rw [Json.read?_compactText hwhole hdepth, Option.map_some, hread]

end Value

/-! ## All types -/

namespace DataType

/-- The value is of the kind that the type stores: null in every type, a moment without part of a second, and an
object no deeper than JSON is read. -/
inductive IsNative : DataType → Value → Prop where
  | null (t : DataType) : IsNative t .null
  | bool (b : Bool) : IsNative .boolean (.bool b)
  | int (signed : Bool) (width : IntWidth) (serial : Bool) (n : Int64) :
      IsNative (.integer signed width serial) (.int n)
  | float (x : Binary64) : IsNative .float (.float x)
  | string (limit : Option Nat) (s : String) : IsNative (.string limit) (.string s)
  | text (nullable : Bool) (s : String) : IsNative (.text nullable) (.string s)
  | variant (e : EnumType) (s : String) : IsNative (.enumeration e) (.string s)
  | date (d : Date) : IsNative .date (.date d)
  | dateTime {t : DateTime} (ht : t.time.shownNanosecond = 0) : IsNative .dateTime (.dateTime t)
  | bytes (bs : List UInt8) : IsNative .binary (.bytes bs)
  | object {v : Value} (hv : v.IsDocument) (hdepth : v.toJson.depth ≤ Json.maxDepth) : IsNative .object v

section

variable {boolAsInt : Bool} {v w : Value}

theorem decode_encode_bool {b : Bool} (h : boolean.encode boolAsInt (.bool b) = .ok w) :
    boolean.decode w = .ok (.bool b) := by
  cases boolAsInt <;> cases b <;> cases h <;> rfl

theorem decode_encode_int {signed serial : Bool} {width : IntWidth} {n : Int64}
    (h : (integer signed width serial).encode boolAsInt (.int n) = .ok w) :
    (integer signed width serial).decode w = .ok (.int n) := by
  change (if !signed && n.toInt < 0 then _ else _) = _ at h
  split at h
  · cases h
  · cases h
    rfl

theorem decode_encode_string {limit : Option Nat} {s : String}
    (h : (string limit).encode boolAsInt (.string s) = .ok w) : (string limit).decode w = .ok (.string s) := by
  obtain ⟨s', hs', h⟩ := Outcome.bind_eq_ok.mp h
  cases h
  unfold toBoundedText at hs'
  split at hs'
  · cases hs'
    rfl
  · split at hs'
    · cases hs'
    · cases hs'
      rfl

theorem decode_encode_variant {e : EnumType} {s : String}
    (h : (enumeration e).encode boolAsInt (.string s) = .ok w) : (enumeration e).decode w = .ok (.string s) := by
  obtain ⟨s', hs', h⟩ := Outcome.bind_eq_ok.mp h
  cases h
  have heq : s = s' := by
    unfold toVariant at hs'
    simp only at hs'
    split at hs'
    · exact Except.ok.inj hs'
    · cases hs'
  subst heq
  show (do return Value.string (← toVariant e (.string s)) : Outcome Value) = _
  rw [hs']
  rfl

theorem decode_encode_dateTime {t : DateTime} (ht : t.time.shownNanosecond = 0)
    (h : dateTime.encode boolAsInt (.dateTime t) = .ok w) : dateTime.decode w = .ok (.dateTime t.asShown) := by
  cases h
  show (do return Value.dateTime (← dateTime.orMismatch (.string t.text) (readDateTime? t.text)) : Outcome Value) = _
  rw [readDateTime?_text ht]
  rfl

theorem decode_encode_object (hv : v.IsDocument) (hdepth : v.toJson.depth ≤ Json.maxDepth)
    (h : object.encode boolAsInt v = .ok w) : object.decode w = .ok v := by
  rw [encode] at h
  split at h
  · rename_i hnull
    cases h
    rw [(Value.isNull_iff v).mp hnull]
    rfl
  · cases h
    obtain ⟨json, hjson, hvalue⟩ := Option.map_eq_some_iff.mp (hv.read?_compactText hdepth)
    show object.toObject (.string v.toJson.compactText) = _
    rw [toObject, hjson]
    exact congrArg Except.ok hvalue

/-- What was encoded of a value that its type stores is decoded to what the value is taken for. -/
theorem decode_encode_asShown {t : DataType} (ht : t ≠ .date) (hv : t.IsNative v)
    (h : t.encode boolAsInt v = .ok w) : t.decode w = .ok v.asShown := by
  cases hv with
  | null =>
    cases h
    rfl
  | bool b => exact decode_encode_bool h
  | int signed width serial n => exact decode_encode_int h
  | float x =>
    cases h
    rfl
  | string limit s => exact decode_encode_string h
  | text nullable s =>
    cases h
    rfl
  | variant e s => exact decode_encode_variant h
  | date d => exact absurd rfl ht
  | dateTime htime => exact decode_encode_dateTime htime h
  | bytes bs =>
    cases h
    rfl
  | object hdocument hdepth =>
    rw [hdocument.asShown_eq]
    exact decode_encode_object hdocument hdepth h

/-- For every type but dates, what was encoded of a value that the type stores is decoded to the value, unless that
is a leap second within a minute: this one is decoded to the second after it. -/
theorem decode_encode {t : DataType} (boolAsInt : Bool) {v w : Value} (ht : t ≠ .date) (hv : t.IsNative v)
    (h : t.encode boolAsInt v = .ok w) :
    t.decode w = .ok v.asShown ∧ (t.decode w = .ok v ↔ ∀ m, v = .dateTime m → m.time.HasOwnText) := by
  have hdecode := decode_encode_asShown ht hv h
  refine ⟨hdecode, ?_⟩
  rw [hdecode, Except.ok.injEq, Value.asShown_eq_self_iff]

end

/-- A leap second of a year with five digits. -/
def farLeapSecond : DateTime := ⟨(Date.of? 10000 12 31).get rfl, (TimeOfDay.of? 23 59 59 1000000000).get rfl⟩

/-- A record with a list and a record in it. -/
def nestedRecord : Value :=
  .object [("a", .array [.int (-1), .null]), ("b", .object [("", .string "\\\x22")])]

/-- A leap second is decoded from a text with a sign, and a nested record from JSON text. -/
theorem decode_encode_nested :
    (dateTime.encode false (.dateTime farLeapSecond) = .ok (.string "+10000-12-31 23:59:60") ∧
      dateTime.decode (.string "+10000-12-31 23:59:60") = .ok (.dateTime farLeapSecond)) ∧
    ∃ text, object.encode true nestedRecord = .ok (.string text) ∧ object.decode (.string text) = .ok nestedRecord := by
  have htext : dateTime.encode false (.dateTime farLeapSecond) = .ok (.string "+10000-12-31 23:59:60") := rfl
  have hnames : Entries.Sorted [("a", Value.array [.int (-1), .null]), ("b", .object [("", .string "\\\x22")])] :=
    List.pairwise_pair.mpr rfl
  have hrecord : nestedRecord.IsDocument :=
    ⟨hnames, ⟨trivial, trivial, trivial⟩, ⟨List.pairwise_singleton _ _, trivial, trivial⟩, trivial⟩
  obtain ⟨hleap, -⟩ := decode_encode false (by decide) (.dateTime rfl) htext
  obtain ⟨hobject, -⟩ := decode_encode true (by decide) (.object hrecord (by decide)) rfl
  exact ⟨⟨htext, hleap⟩, _, rfl, hobject⟩

/-- A leap second within a minute has no part of a second, and is decoded to another moment. -/
theorem leapWithin_not_decoded :
    dateTime.IsNative (.dateTime .leapWithin) ∧
      dateTime.encode false (.dateTime .leapWithin) = .ok (.string "2024-01-01 23:56:05") ∧
      dateTime.decode (.string "2024-01-01 23:56:05") = .ok (.dateTime DateTime.leapWithin.asShown) ∧
      DateTime.leapWithin.asShown ≠ .leapWithin :=
  ⟨.dateTime rfl, rfl, rfl, by decide⟩

end DataType

end RecordQuery
