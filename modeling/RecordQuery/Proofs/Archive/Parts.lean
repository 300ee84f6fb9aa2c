import RecordQuery.Archive.Decode
import RecordQuery.Proofs.Json.RoundTrip
set_option autoImplicit false

/-!
# Archive: parts are read back

A form keeps what it is a form of if JSON text keeps its numbers and a decoder reads it back although its
members come in another order (`Keeps`).  A form keeps its content as soon as its parts do: a part is found by
its name, and a part that may be null is told from null because no decoder accepts null.
-/

namespace RecordQuery.Archive

/-- A form keeps what a decoder reads in it: its numbers are integers of 64 bits, and it is read back as a
reader of JSON gives it. -/
structure Keeps {α : Type} (decode : Json → Option α) (form : Json) (a : α) : Prop where
  whole : form.isWhole = true
  read : decode form.sorted = some a

/-! ## Alternatives -/

@[simp] theorem sorted_tagged (tag : String) (content : Json) :
    (tagged tag content).sorted = tagged tag content.sorted := rfl

@[simp] theorem isWhole_tagged (tag : String) (content : Json) :
    (tagged tag content).isWhole = content.isWhole := Bool.and_true _

@[simp] theorem tagged?_tagged (tag : String) (content : Json) :
    tagged? (tagged tag content) = some (tag, some content) := rfl

/-! ## Parts by name -/

attribute [simp] Json.sortedMembers Json.isWholeMembers Entries.find?_ofPairs_cons

@[simp] theorem sorted_object (members : List (String × Json)) :
    (Json.object members).sorted = .object (Entries.ofPairs (Json.sortedMembers members)) := rfl

@[simp] theorem isWhole_object (members : List (String × Json)) :
    (Json.object members).isWhole = Json.isWholeMembers members := rfl

@[simp] theorem sorted_string (s : String) : (Json.string s).sorted = .string s := rfl

@[simp] theorem sorted_bool (b : Bool) : (Json.bool b).sorted = .bool b := rfl

@[simp] theorem isWhole_string (s : String) : (Json.string s).isWhole = true := rfl

@[simp] theorem isWhole_bool (b : Bool) : (Json.bool b).isWhole = true := rfl

@[simp] theorem string?_string (s : String) : string? (.string s) = some s := rfl

@[simp] theorem bool?_bool (b : Bool) : bool? (.bool b) = some b := rfl

@[simp] theorem ofPairs_nil {α : Type} : Entries.ofPairs ([] : List (String × α)) = [] := rfl

section

variable {α : Type} (members : Entries Json) (name : String) (decode : Json → Option α)

@[simp] theorem of?_object (names : List String) :
    Parts.of? names (.object members) = some ⟨members, false⟩ := rfl

@[simp] theorem ofContent?_object : Parts.ofContent? (some (.object members)) = some ⟨members, false⟩ := rfl

@[simp] theorem required_mk :
    (Parts.mk members false).required name decode = (Entries.find? members name).bind decode := rfl

/-- What a decoder reads, or nothing for null. -/
def orNull : Json → Option (Option α)
  | .null => some none
  | json => (decode json).map some

@[simp] theorem nullable_mk : (Parts.mk members false).nullable name decode =
    (Entries.find? members name).elim (some none) (orNull decode) := by
  unfold Parts.nullable
  cases Entries.find? members name with
  | none => rfl
  | some json => cases json <;> rfl

@[simp] theorem lenient_mk : (Parts.mk members false).lenient name decode =
    (Entries.find? members name).elim (some none) (orNull decode) := by
  unfold Parts.lenient
  cases Entries.find? members name with
  | none => rfl
  | some json => cases json <;> rfl

@[simp] theorem defaulted_mk (default : α) : (Parts.mk members false).defaulted name default decode =
    (Entries.find? members name).elim (some default) decode := by
  unfold Parts.defaulted
  cases Entries.find? members name <;> rfl

end

/-! ## Kinds of parts -/

namespace Keeps

variable {α : Type} {decode : Json → Option α} {encode : α → Json}

/-- Something or null is kept, because null alone is not read. -/
theorem optional {o : Option α} (hnull : decode .null = none) (h : ∀ a ∈ o, Keeps decode (encode a) a) :
    Keeps (orNull decode) (Archive.optional encode o) o := by
  cases o with
  | none => exact ⟨rfl, rfl⟩
  | some a =>
    obtain ⟨hwhole, hread⟩ := h a rfl
    refine ⟨hwhole, ?_⟩
    show orNull decode (encode a).sorted = some (some a)
    unfold orNull
    split
    · rename_i heq
      rw [heq, hnull] at hread
      cases hread
    · rw [hread, Option.map_some]

theorem listOf {items : List α} (h : ∀ a ∈ items, Keeps decode (encode a) a) :
    Keeps (list? decode) (Archive.listOf encode items) items := by
  induction items with
  | nil => exact ⟨rfl, rfl⟩
  | cons a rest ih =>
    obtain ⟨ha, hrest⟩ := List.forall_mem_cons.mp h
    have hitems : (Json.sortedItems (rest.map encode)).mapM decode = some rest := (ih hrest).read
    refine ⟨Bool.and_eq_true_iff.mpr ⟨ha.whole, (ih hrest).whole⟩, ?_⟩
    show ((encode a).sorted :: Json.sortedItems (rest.map encode)).mapM decode = some (a :: rest)
    rw [List.mapM_cons, ha.read, hitems]
    rfl

theorem pair {name : String} {a : α} {form : Json} (h : Keeps decode form a) :
    Keeps (pair? decode) (.array [.string name, form]) (name, a) := by
  refine ⟨by simp [Json.isWhole, Json.isWholeItems, h.whole], ?_⟩
  show (do return (name, ← decode form.sorted)) = some (name, a)
  rw [h.read]
  rfl

end Keeps

theorem keeps_string (s : String) : Keeps string? (.string s) s := ⟨rfl, rfl⟩

-- Forms with such numbers are read by explicit steps (`simp -implicitDefEqProofs`): two terms that are compared
-- by evaluation count the bound of `nat?` down.
theorem keeps_ofNat {n : Nat} (h : n < Text.wordLimit) : Keeps nat? (ofNat n) n := by
  unfold Text.wordLimit at h
  have hword : Json.isWord n = true := Json.isWord_iff.mpr ⟨by omega, by omega⟩
  have hrange : 0 ≤ (n : Int) ∧ (n : Int) < Text.wordLimit := by
    unfold Text.wordLimit
    omega
  refine ⟨hword, ?_⟩
  show nat? (.integer n) = some n
  rw [nat?, if_pos hrange, Int.toNat_natCast]

/-- A text or null is kept. -/
theorem keeps_label (label : Option String) : Keeps (orNull string?) (optional .string label) label :=
  .optional rfl fun s _ => keeps_string s

theorem keeps_count {count : Option Nat} (h : ∀ n ∈ count, n < Text.wordLimit) :
    Keeps (orNull nat?) (optional ofNat count) count :=
  .optional rfl fun n hn => keeps_ofNat (h n hn)

/-! ## Names -/

@[simp] theorem width?_widthName (w : IntWidth) : width? (.string (widthName w)) = some w := by
  cases w <;> rfl

@[simp] theorem operator?_operatorName (op : Operator) : operator? (.string (operatorName op)) = some op := by
  cases op <;> rfl

@[simp] theorem glue?_glueName (g : Glue) : glue? (.string (glueName g)) = some g := by
  cases g <;> rfl

@[simp] theorem joinKind?_joinName (k : JoinKind) : joinKind? (.string (joinName k)) = some k := by
  cases k <;> rfl

end RecordQuery.Archive
