import RecordQuery.Text.Pieces
set_option autoImplicit false

/-!
# Text: cutting by bytes

Positions in a format are byte offsets of its UTF-8 form.  A cut answers only where a character ends at
the offset.
-/

namespace RecordQuery.Text

/-- The text up to a number of bytes, if a character ends there. -/
def takeBytes : Nat → List Char → Option (List Char)
  | 0, _ => some []
  | _ + 1, [] => none
  | n + 1, c :: rest =>
    if c.utf8Size ≤ n + 1 then (takeBytes (n + 1 - c.utf8Size) rest).map (c :: ·) else none

/-- The text after a number of bytes, if a character ends there. -/
def dropBytes : Nat → List Char → Option (List Char)
  | 0, cs => some cs
  | _ + 1, [] => none
  | n + 1, c :: rest => if c.utf8Size ≤ n + 1 then dropBytes (n + 1 - c.utf8Size) rest else none

/-- The text between two byte offsets, if both are character boundaries. -/
def slice? (cs : List Char) (start stop : Nat) : Option (List Char) :=
  (dropBytes start cs).bind (takeBytes (stop - start))

/-- The text between two byte offsets; nothing where there is no such text. -/
def slice (cs : List Char) (start stop : Nat) : List Char := (slice? cs start stop).getD []

theorem takeBytes_append (a b : List Char) : takeBytes (byteLength a) (a ++ b) = some a := by
  induction a with
  | nil => cases b <;> simp [takeBytes]
  | cons c rest ih =>
    have hpos : 0 < c.utf8Size := Char.utf8Size_pos c
    obtain ⟨n, hn⟩ : ∃ n, c.utf8Size + byteLength rest = n + 1 := ⟨_, (Nat.succ_pred (by omega)).symm⟩
    rw [byteLength_cons, hn, List.cons_append, takeBytes]
    have : n + 1 - c.utf8Size = byteLength rest := by omega
    rw [if_pos (by omega), this, ih]
    rfl

theorem dropBytes_append (a b : List Char) : dropBytes (byteLength a) (a ++ b) = some b := by
  induction a with
  | nil => cases b <;> simp [dropBytes]
  | cons c rest ih =>
    have hpos : 0 < c.utf8Size := Char.utf8Size_pos c
    obtain ⟨n, hn⟩ : ∃ n, c.utf8Size + byteLength rest = n + 1 := ⟨_, (Nat.succ_pred (by omega)).symm⟩
    rw [byteLength_cons, hn, List.cons_append, dropBytes]
    have : n + 1 - c.utf8Size = byteLength rest := by omega
    rw [if_pos (by omega), this, ih]

end RecordQuery.Text
