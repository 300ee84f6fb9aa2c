set_option autoImplicit false

/-!
# Text: sets of code points given by their boundaries

A set of code points is given by the ascending list of the points where membership changes: the first
number is the first member, the second the first non-member after it, and so on.  A code point is a
member exactly when an odd number of boundaries are at or below it.
-/

namespace RecordQuery.Text

/-- Membership in the set with these boundaries. -/
def inBoundaries (boundaries : List Nat) (point : Nat) : Bool :=
  boundaries.countP (fun b => decide (b ≤ point)) % 2 == 1

end RecordQuery.Text
