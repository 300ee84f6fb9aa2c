import RecordQuery.Dialect.Quoting
import RecordQuery.Text.WordChar
set_option autoImplicit false

/-!
# Dialect: the lexical rules of literals and identifiers

How a dialect reads one literal or quoted identifier at the front of SQL text.  Delimited text ends at the
first closing delimiter that is not doubled; in strings of some dialects a backslash takes the next character
with it.  Words and numbers are read as far as they go.  A string literal is one lexeme: that SQL joins adjacent
ones is a matter of its grammar.
-/

namespace RecordQuery

/-- A literal of SQL text. -/
inductive SqlLiteral where
  | null
  | bool (b : Bool)
  | integer (n : Int)
  /-- a string, `marked` with an N before it or not -/
  | string (marked : Bool) (content : String)
  | bytes (bs : List UInt8)
  deriving DecidableEq, Repr, Inhabited

namespace Dialect

/-! ## Delimited text -/

/-- What a backslash and the character after it stand for. -/
def unescaped : Char → List Char
  | '0' => ['\x00']
  | 'b' => ['\x08']
  | 'n' => ['\n']
  | 'r' => ['\r']
  | 't' => ['\t']
  | 'Z' => ['\x1a']
  | '%' => ['\\', '%']
  | '_' => ['\\', '_']
  | c => [c]

/-- The content of a delimited text and what follows it, read after the opening delimiter. -/
def readDelimited (close : Char) (escapes : Bool) : List Char → Option (List Char × List Char)
  | [] => none
  | c :: rest =>
    if c = close then
      match rest with
      | [] => some ([], [])
      | c' :: rest' =>
        if c' = close then (readDelimited close escapes rest').map fun (s, after) => (close :: s, after)
        else some ([], c' :: rest')
    else if escapes && c == '\\' then
      match rest with
      | [] => none
      | c' :: rest' => (readDelimited close escapes rest').map fun (s, after) => (unescaped c' ++ s, after)
    else (readDelimited close escapes rest).map fun (s, after) => (c :: s, after)

/-- A quoted identifier. -/
def readIdentifier (d : Dialect) : List Char → Option (List Char × List Char)
  | [] => none
  | c :: rest => if c = d.openDelimiter then readDelimited d.closeDelimiter false rest else none

theorem readDelimited_length {close : Char} {escapes : Bool} {cs content rest : List Char}
    (h : readDelimited close escapes cs = some (content, rest)) : rest.length < cs.length := by
  fun_induction readDelimited close escapes cs generalizing content rest with
  | case1 => cases h
  | case2 =>
    cases h
    exact Nat.one_pos
  | case3 rest' ih =>
    obtain ⟨⟨s, after⟩, hs, heq⟩ := Option.map_eq_some_iff.mp h
    cases heq
    exact Nat.lt_add_right 2 (ih hs)
  | case4 =>
    cases h
    exact Nat.lt_succ_self _
  | case5 => cases h
  | case6 c _ _ c' rest' ih =>
    obtain ⟨⟨s, after⟩, hs, heq⟩ := Option.map_eq_some_iff.mp h
    cases heq
    exact Nat.lt_add_right 2 (ih hs)
  | case7 c rest' _ _ ih =>
    obtain ⟨⟨s, after⟩, hs, heq⟩ := Option.map_eq_some_iff.mp h
    cases heq
    exact Nat.lt_add_right 1 (ih hs)

theorem readIdentifier_length {d : Dialect} {cs name rest : List Char}
    (h : d.readIdentifier cs = some (name, rest)) : rest.length < cs.length := by
  unfold readIdentifier at h
  split at h
  · cases h
  · split at h
    · exact Nat.lt_add_right 1 (readDelimited_length h)
    · cases h

/-- Quoted identifiers with dots between them. -/
def readDotted (d : Dialect) (cs : List Char) : Option (List (List Char) × List Char) :=
  match _h : d.readIdentifier cs with
  | none => none
  | some (name, '.' :: rest) => (readDotted d rest).map fun (names, after) => (name :: names, after)
  | some (name, rest) => some ([name], rest)
termination_by cs.length
decreasing_by
  have := readIdentifier_length _h
  rw [List.length_cons] at this
  omega

/-! ## Words, numbers and bytes -/

/-- A character that continues a word or number. -/
def isWordPart (c : Char) : Bool := Text.isWordChar c || ['$', '#', '@'].contains c

/-- No word or number goes on into the text. -/
def endsWord : List Char → Bool
  | [] => true
  | c :: _ => !isWordPart c

/-- A decimal integer, perhaps after a sign. -/
def readInteger (cs : List Char) : Option (SqlLiteral × List Char) :=
  let (negative, digits) := Text.takeSign cs
  let run := digits.takeWhile Char.isDigit
  let rest := digits.dropWhile Char.isDigit
  if !endsWord rest || rest.head? == some '.' then none
  else (Text.readNat run).map fun n => (.integer (if negative then -(n : Int) else n), rest)

/-- A keyword that is a literal. -/
def readKeyword (d : Dialect) (cs : List Char) : Option (SqlLiteral × List Char) :=
  let rest := cs.dropWhile isWordPart
  match String.ofList ((cs.takeWhile isWordPart).map Char.toLower) with
  | "null" => some (.null, rest)
  | "true" => if d = .sqlserver then none else some (.bool true, rest)
  | "false" => if d = .sqlserver then none else some (.bool false, rest)
  | _ => none

/-- As many bytes as pairs of hexadecimal digits give, and what follows them. -/
def readHexBytes : List Char → List UInt8 × List Char
  | a :: b :: rest =>
    match Text.hexValue? a, Text.hexValue? b with
    | some high, some low =>
      let (bs, after) := readHexBytes rest
      (UInt8.ofNat (16 * high + low) :: bs, after)
    | _, _ => ([], a :: b :: rest)
  | cs => ([], cs)

/-! ## Literals -/

/-- The content of a string literal and what follows it, read after the opening quote. -/
def readString (d : Dialect) (cs : List Char) : Option (List Char × List Char) :=
  readDelimited '\x27' d.backslashEscapes cs

/-- A string literal, or the bytes that a cast of it to `bytea` gives. -/
def readCast (content rest : List Char) : Option (SqlLiteral × List Char) :=
  let plain := (SqlLiteral.string false (String.ofList content), rest)
  match rest with
  | ':' :: ':' :: 'b' :: 'y' :: 't' :: 'e' :: 'a' :: after =>
    if !endsWord after then some plain
    else
      match content with
      | '\\' :: 'x' :: digits =>
        match readHexBytes digits with
        | (bs, []) => some (.bytes bs, after)
        | _ => none
      | _ => none
  | _ => some plain

/-- The bytes between hexadecimal quotes, read after the opening one. -/
def readHexString (cs : List Char) : Option (SqlLiteral × List Char) :=
  match readHexBytes cs with
  | (bs, '\x27' :: rest) => some (.bytes bs, rest)
  | _ => none

/-- The bytes of a hexadecimal number, read after `0x`. -/
def readHexNumber (cs : List Char) : Option (SqlLiteral × List Char) :=
  let (bs, rest) := readHexBytes cs
  if endsWord rest then some (.bytes bs, rest) else none

/-- A literal that is no number: a quoted one by its first characters, else a keyword. -/
def readQuotedLiteral (d : Dialect) (cs : List Char) : Option (SqlLiteral × List Char) :=
  match d, cs with
  | .postgres, '\x27' :: rest => (d.readString rest).bind fun (s, after) => readCast s after
  | _, '\x27' :: rest => (d.readString rest).map fun (s, after) => (.string false (String.ofList s), after)
  | _, 'N' :: '\x27' :: rest =>
    (d.readString rest).map fun (s, after) => (.string true (String.ofList s), after)
  | .mysql, 'X' :: '\x27' :: rest => readHexString rest
  | .sqlite, 'X' :: '\x27' :: rest => readHexString rest
  | .sqlserver, '0' :: 'x' :: rest => readHexNumber rest
  | _, cs => d.readKeyword cs

/-- One literal at the front of SQL text, and what follows it. -/
def readLiteral (d : Dialect) (cs : List Char) : Option (SqlLiteral × List Char) :=
  match readInteger cs with
  | some answer => some answer
  | none => d.readQuotedLiteral cs

end Dialect

end RecordQuery
