set_option autoImplicit false

/-!
# Like: pattern matching

In a pattern `%` stands for any run of characters, `_` for one character, and a backslash takes the
meaning from the character after it.  Matching keeps the set of lengths of text that the pattern read so
far can produce.
-/

namespace RecordQuery.Like

/-- One item of a pattern. -/
inductive Item where
  /-- any run of characters -/
  | any
  /-- any one character -/
  | one
  /-- exactly this character -/
  | char (c : Char)
  deriving DecidableEq, Repr, Inhabited

/-- The items of a pattern; a backslash at the end stands for itself. -/
def items : List Char → List Item
  | [] => []
  | '%' :: rest => .any :: items rest
  | '_' :: rest => .one :: items rest
  | ['\\'] => [.char '\\']
  | '\\' :: c :: rest => .char c :: items rest
  | c :: rest => .char c :: items rest

/-- Turn on every flag after the first one that is on. -/
def spread : Bool → List Bool → List Bool
  | _, [] => []
  | seen, reached :: rest => (seen || reached) :: spread (seen || reached) rest

/-- The flags after one character: the length `j + 1` is reached if `j` was and the character fits. -/
def shift (fits : Char → Bool) : List Char → List Bool → List Bool
  | c :: text, reached :: rest => (reached && fits c) :: shift fits text rest
  | _, _ => []

/-- The reachable lengths after one more item; the flags stand for the lengths 0, 1, … of the text. -/
def step (text : List Char) (reached : List Bool) : Item → List Bool
  | .any => spread false reached
  | .one => false :: shift (fun _ => true) text reached
  | .char c => false :: shift (fun x => x == c) text reached

/-- The flags before any item: only the empty length is reached. -/
def start (text : List Char) : List Bool := true :: text.map fun _ => false

/-- The whole text matches the pattern. -/
def accepts (text pattern : List Char) : Bool :=
  ((items pattern).foldl (step text) (start text)).getLastD false

end RecordQuery.Like

namespace RecordQuery

/-- The text matches the pattern. -/
def like (text pattern : String) : Bool := Like.accepts text.toList pattern.toList

end RecordQuery
