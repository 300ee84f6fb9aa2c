set_option autoImplicit false

/-!
# Text: cutting names into pieces

Dotted names are cut at their first or last dot, or at every dot.  The pieces between all dots hold no dot, and
with the dots between them they are the name again (`intercalate_pieces`).
-/

namespace RecordQuery.Text

/-- The pieces around the first `c`, if there is one. -/
def cutFirst (c : Char) : List Char → Option (List Char × List Char)
  | [] => none
  | x :: rest =>
    if x = c then some ([], rest) else (cutFirst c rest).map fun (a, b) => (x :: a, b)

/-- The pieces around the last `c`, if there is one. -/
def cutLast (c : Char) : List Char → Option (List Char × List Char)
  | [] => none
  | x :: rest =>
    match cutLast c rest with
    | some (a, b) => some (x :: a, b)
    | none => if x = c then some ([], rest) else none

/-- The pieces between all occurrences of `c`; a text without `c` is one piece. -/
def pieces (c : Char) : List Char → List (List Char)
  | [] => [[]]
  | x :: rest =>
    if x = c then [] :: pieces c rest
    else
      match pieces c rest with
      | [] => [[x]]
      | p :: ps => (x :: p) :: ps

/-- A text without the separator is not cut. -/
theorem cutFirst_of_not_mem {c : Char} {cs : List Char} (h : c ∉ cs) : cutFirst c cs = none := by
  induction cs with
  | nil => rfl
  | cons x rest ih =>
    rw [List.mem_cons, not_or] at h
    rw [cutFirst, if_neg (Ne.symm h.1), ih h.2, Option.map_none]

/-- A text is cut behind a first piece without the separator. -/
theorem cutFirst_append {c : Char} {cs : List Char} (h : c ∉ cs) (rest : List Char) :
    cutFirst c (cs ++ c :: rest) = some (cs, rest) := by
  induction cs with
  | nil => rw [List.nil_append, cutFirst, if_pos rfl]
  | cons x more ih =>
    rw [List.mem_cons, not_or] at h
    rw [List.cons_append, cutFirst, if_neg (Ne.symm h.1), ih h.2, Option.map_some]

theorem pieces_ne_nil (c : Char) (cs : List Char) : pieces c cs ≠ [] := by
  cases cs with
  | nil => simp [pieces]
  | cons x rest =>
    rw [pieces]
    split
    · simp
    · split <;> simp

/-- No piece has the separator in it. -/
theorem not_mem_of_mem_pieces {c : Char} {cs : List Char} : ∀ p ∈ pieces c cs, c ∉ p := by
  induction cs with
  | nil => simp [pieces]
  | cons x rest ih =>
    rw [pieces]
    split
    · intro p hp
      rcases List.mem_cons.mp hp with rfl | hp
      · exact List.not_mem_nil
      · exact ih p hp
    · rename_i hx
      split
      · simpa using Ne.symm hx
      · rename_i q qs hqs
        rw [hqs, List.forall_mem_cons] at ih
        intro p hp
        rcases List.mem_cons.mp hp with rfl | hp
        · rw [List.mem_cons, not_or]
          exact ⟨Ne.symm hx, ih.1⟩
        · exact ih.2 p hp

/-- The pieces with the separator between them are the text. -/
theorem intercalate_pieces (c : Char) (cs : List Char) : [c].intercalate (pieces c cs) = cs := by
  induction cs with
  | nil => rfl
  | cons x rest ih =>
    rw [pieces]
    cases hps : pieces c rest with
    | nil => exact absurd hps (pieces_ne_nil c rest)
    | cons p ps =>
      rw [hps] at ih
      split
      · rename_i hx
        rw [List.intercalate_cons_cons, ih, hx]
        rfl
      · simp only
        cases ps with
        | nil =>
          rw [List.intercalate_singleton] at ih ⊢
          rw [ih]
        | cons q qs =>
          rw [List.intercalate_cons_cons] at ih ⊢
          rw [List.cons_append, List.cons_append, ih]

/-- The text with ASCII letters in lower case. -/
def asciiLower (s : String) : String := String.ofList (s.toList.map Char.toLower)

/-- Equality up to the case of ASCII letters. -/
def equalIgnoringCase (a b : String) : Bool :=
  a.toList.map Char.toLower == b.toList.map Char.toLower

/-- Order by code points. -/
def compareText (a b : String) : Ordering :=
  List.compareLex (fun x y => compare x.toNat y.toNat) a.toList b.toList

/-- Number of bytes of the UTF-8 form. -/
def byteLength : List Char → Nat
  | [] => 0
  | c :: cs => c.utf8Size + byteLength cs

@[simp] theorem byteLength_nil : byteLength [] = 0 := rfl

@[simp] theorem byteLength_cons (c : Char) (cs : List Char) :
    byteLength (c :: cs) = c.utf8Size + byteLength cs := rfl

@[simp] theorem byteLength_append (a b : List Char) :
    byteLength (a ++ b) = byteLength a + byteLength b := by
  induction a with
  | nil => rw [List.nil_append, byteLength_nil, Nat.zero_add]
  | cons c rest ih => rw [List.cons_append, byteLength_cons, ih, byteLength_cons, Nat.add_assoc]

/-- The bytes of the UTF-8 form. -/
def utf8 (s : String) : List UInt8 := s.toUTF8.data.toList

/-- Texts joined with a separator between them. -/
def joined (separator : String) (parts : List String) : String := separator.intercalate parts

end RecordQuery.Text
