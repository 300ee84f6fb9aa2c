import RecordQuery.Text.Numeral
set_option autoImplicit false

/-!
# Toml: texts and keys

Texts are written between double quotes with escapes, or between single quotes as they are; three quotes
enclose a text of several lines.  A key is a bare word or a text of one line.
-/

namespace RecordQuery.Toml

/-- A blank within a line. -/
def isBlank (c : Char) : Bool := c == ' ' || c == '\t'

/-- The text after blanks. -/
def skipBlanks (cs : List Char) : List Char := cs.dropWhile isBlank

/-- A character that comments and texts may hold as it is: any but the controls, a tab excepted. -/
def isPlain (c : Char) : Bool := c == '\t' || (0x20 ≤ c.toNat && c.toNat != 0x7F)

/-- The text after a line break at its front. -/
def afterBreak? : List Char → Option (List Char)
  | '\n' :: rest => some rest
  | '\r' :: '\n' :: rest => some rest
  | _ => none

/-- The text after blanks and line breaks. -/
def skipBreaks : List Char → List Char
  | [] => []
  | '\r' :: '\n' :: rest => skipBreaks rest
  | c :: rest => if isBlank c || c == '\n' then skipBreaks rest else c :: rest

/-- The text after blanks, line breaks and comments; `inComment` if a comment has begun. -/
def skipLines : Bool → List Char → List Char
  | _, [] => []
  | _, '\r' :: '\n' :: rest => skipLines false rest
  | inComment, c :: rest =>
    if c = '\n' then skipLines false rest
    else if inComment then
      if isPlain c then skipLines true rest else c :: rest
    else if isBlank c then skipLines false rest
    else if c = '#' then skipLines true rest
    else c :: rest

/-- The text after the end of a line: blanks, perhaps a comment, and a line break or the end of the text. -/
def endLine (cs : List Char) : Option (List Char) :=
  let rest := match skipBlanks cs with
    | '#' :: comment => comment.dropWhile isPlain
    | rest => rest
  if rest = [] then some [] else afterBreak? rest

/-! ## Texts -/

/-- The number that some hexadecimal digits write. -/
def hexNumber? (cs : List Char) : Option Nat :=
  cs.foldlM (fun n c => (Text.hexValue? c).map (16 * n + ·)) 0

/-- The character with a code point of `width` hexadecimal digits. -/
def readCodePoint (width : Nat) (cs : List Char) : Option (Char × List Char) :=
  let digits := cs.take width
  if digits.length < width then none
  else
    (hexNumber? digits).bind fun n =>
      if n.isValidChar then some (Char.ofNat n, cs.drop width) else none

/-- The character of an escape whose backslash is read. -/
def readEscape : List Char → Option (Char × List Char)
  | 'b' :: rest => some ('\x08', rest)
  | 't' :: rest => some ('\t', rest)
  | 'n' :: rest => some ('\n', rest)
  | 'f' :: rest => some ('\x0c', rest)
  | 'r' :: rest => some ('\r', rest)
  | '\x22' :: rest => some ('\x22', rest)
  | '\\' :: rest => some ('\\', rest)
  | 'u' :: rest => readCodePoint 4 rest
  | 'U' :: rest => readCodePoint 8 rest
  | _ => none

/-- One more character in front of a text that was read. -/
def cons (c : Char) (read : List Char × List Char) : List Char × List Char := (c :: read.1, read.2)

/-- A text of one line with escapes, up to its closing quote; at most `fuel` characters are read. -/
def readEscaped : Nat → List Char → Option (List Char × List Char)
  | 0, _ => none
  | _ + 1, [] => none
  | fuel + 1, c :: rest =>
    if c = '\x22' then some ([], rest)
    else if c = '\\' then
      match readEscape rest with
      | some (e, rest) => (readEscaped fuel rest).map (cons e)
      | none => none
    else if isPlain c then (readEscaped fuel rest).map (cons c)
    else none

/-- A text of one line as it is, up to its closing quote. -/
def readLiteral : List Char → Option (List Char × List Char)
  | [] => none
  | c :: rest =>
    if c = '\x27' then some ([], rest)
    else if isPlain c then (readLiteral rest).map (cons c)
    else none

/-- A text of several lines up to its three closing quotes, which two more quotes of the text may precede.
A backslash at the end of a line joins it with the next word. -/
def readBlock (quote : Char) (escapes : Bool) : Nat → List Char → Option (List Char × List Char)
  | 0, _ => none
  | _ + 1, [] => none
  | fuel + 1, c :: rest =>
    if c = quote then
      let run := (c :: rest).takeWhile (· == quote)
      let after := (c :: rest).dropWhile (· == quote)
      if run.length < 3 then (readBlock quote escapes fuel after).map fun read => (run ++ read.1, read.2)
      else if run.length ≤ 5 then some (run.drop 3, after)
      else none
    else if c = '\\' ∧ escapes then
      match afterBreak? (skipBlanks rest) with
      | some rest => readBlock quote escapes fuel (skipBreaks rest)
      | none =>
        match readEscape rest with
        | some (e, rest) => (readBlock quote escapes fuel rest).map (cons e)
        | none => none
    else
      match afterBreak? (c :: rest) with
      | some rest => (readBlock quote escapes fuel rest).map (cons '\n')
      | none => if isPlain c then (readBlock quote escapes fuel rest).map (cons c) else none

/-- The text after a line break, if there is one at its front. -/
def skipBreak (cs : List Char) : List Char := (afterBreak? cs).getD cs

/-- A text between quotes. -/
def readText (cs : List Char) : Option (String × List Char) :=
  let fuel := cs.length + 1
  let read := match cs with
    | '\x22' :: '\x22' :: '\x22' :: rest => readBlock '\x22' true fuel (skipBreak rest)
    | '\x27' :: '\x27' :: '\x27' :: rest => readBlock '\x27' false fuel (skipBreak rest)
    | '\x22' :: rest => readEscaped fuel rest
    | '\x27' :: rest => readLiteral rest
    | _ => none
  read.map fun (s, rest) => (String.ofList s, rest)

/-! ## Keys -/

/-- A character of a bare key. -/
def isBare (c : Char) : Bool := c.isAlphanum || c == '_' || c == '-'

/-- One part of a key. -/
def readKeyPart (cs : List Char) : Option (String × List Char) :=
  match cs with
  | '\x22' :: rest => (readEscaped (cs.length + 1) rest).map fun (s, rest) => (String.ofList s, rest)
  | '\x27' :: rest => (readLiteral rest).map fun (s, rest) => (String.ofList s, rest)
  | _ =>
    let run := cs.takeWhile isBare
    if run = [] then none else some (String.ofList run, cs.dropWhile isBare)

/-- The parts of a dotted key, with blanks around them. -/
def readParts : Nat → List Char → Option (List String × List Char)
  | 0, _ => none
  | fuel + 1, cs =>
    match readKeyPart (skipBlanks cs) with
    | none => none
    | some (key, rest) =>
      match skipBlanks rest with
      | '.' :: rest => (readParts fuel rest).map fun (path, rest) => (key :: path, rest)
      | rest => some ([key], rest)

/-- How deep keys and values may nest. -/
def maxDepth : Nat := 79

/-- A dotted key. -/
def readKey (cs : List Char) : Option (List String × List Char) :=
  match readParts (cs.length + 1) cs with
  | some (path, rest) => if path.length ≤ maxDepth then some (path, rest) else none
  | none => none

end RecordQuery.Toml
