import RecordQuery.Text.Blank
import RecordQuery.Text.WordChar
set_option autoImplicit false

/-!
# Format: lexemes

A placeholder format is cut into pieces, one lexeme each.  At every place the first of these that fits is
taken: white space, a quoted SQL string, a quoted text, `\x7bmodel\x7d`, `[field]`, a placeholder, a number,
a word, a symbol, a punctuation mark, any single character.  A quote or bracket that is not closed is a
single character.  The pieces put together are the format again.
-/

namespace RecordQuery.Format

/-- What a piece of a format is. -/
inductive Lexeme where
  | space
  /-- the content of a string between single quotes, doubled quotes undone -/
  | sqlString (content : List Char)
  /-- the content of a text between double quotes, backslashes undone -/
  | text (content : List Char)
  | model (name : List Char)
  | field (name : List Char)
  /-- `?` without a code, `%code` with one; `tuple` when `()` follows -/
  | placeholder (code : Option (List Char)) (tuple : Bool)
  | number (text : List Char)
  | word (text : List Char)
  | symbol (text : List Char)
  | dot
  | openParen
  | closeParen
  | comma
  | other (c : Char)
  deriving DecidableEq, Repr, Inhabited

/-- A piece of a format and what it is. -/
structure Piece where
  lexeme : Lexeme
  text : List Char
  deriving DecidableEq, Repr, Inhabited

/-! ## Scanning one lexeme -/

/-- White space between tokens. -/
def isSpace (c : Char) : Bool := c == ' ' || c == '\t' || c == '\r' || c == '\n'

/-- A character of a symbol operator. -/
def isSymbolChar (c : Char) : Bool := c == '=' || c == '<' || c == '>' || c == '!'

/-- The content of an SQL string and the number of characters through its closing quote, read after the
opening quote; a doubled quote stands for one. -/
def scanSqlString : List Char → Option (List Char × Nat)
  | '\x27' :: '\x27' :: rest => (scanSqlString rest).map fun (s, n) => ('\x27' :: s, n + 2)
  | '\x27' :: _ => some ([], 1)
  | c :: rest => (scanSqlString rest).map fun (s, n) => (c :: s, n + 1)
  | [] => none

/-- The content of a text and the number of characters through its closing quote, read after the opening
quote; a backslash may stand before a backslash or quote only. -/
def scanText : List Char → Option (List Char × Nat)
  | '\x22' :: _ => some ([], 1)
  | '\\' :: '\\' :: rest => (scanText rest).map fun (s, n) => ('\\' :: s, n + 2)
  | '\\' :: '\x22' :: rest => (scanText rest).map fun (s, n) => ('\x22' :: s, n + 2)
  | '\\' :: _ => none
  | c :: rest => (scanText rest).map fun (s, n) => (c :: s, n + 1)
  | [] => none

/-- A name up to a closing character, read after the opening one; it is not empty. -/
def scanName (close : Char) (cs : List Char) : Option (List Char) :=
  let name := cs.takeWhile (· != close)
  if name = [] ∨ name.length = cs.length then none else some name

/-- One for a leading minus sign. -/
def signLength : List Char → Nat
  | '-' :: _ => 1
  | _ => 0

/-- The length of a leading point with digits after it. -/
def fractionLength : List Char → Nat
  | '.' :: rest =>
    let digits := (rest.takeWhile Char.isDigit).length
    if digits = 0 then 0 else digits + 1
  | _ => 0

/-- The length of a number: digits after an optional minus sign, perhaps a point and more digits. -/
def scanNumber (cs : List Char) : Option Nat :=
  let sign := signLength cs
  let digits := ((cs.drop sign).takeWhile Char.isDigit).length
  if digits = 0 then none else some (sign + digits + fractionLength (cs.drop (sign + digits)))

/-- A placeholder with its code and length, and two more when `()` follows. -/
def scanTuple (code : Option (List Char)) (length : Nat) : List Char → Lexeme × Nat
  | '(' :: ')' :: _ => (.placeholder code true, length + 2)
  | _ => (.placeholder code false, length)

/-- A placeholder with a code, read after the percent sign; without a code the sign stands alone. -/
def scanCode (rest : List Char) : Lexeme × Nat :=
  let code := rest.takeWhile Text.isWordChar
  if code = [] then (.other '%', 1)
  else scanTuple (some code) (1 + code.length) (rest.drop code.length)

/-- A number, word, symbol, punctuation mark or single character. -/
def scanPlain (c : Char) (rest : List Char) : Lexeme × Nat :=
  match scanNumber (c :: rest) with
  | some n => (.number ((c :: rest).take n), n)
  | none =>
    if Text.isWordChar c then
      let word := c :: rest.takeWhile Text.isWordChar
      (.word word, word.length)
    else if isSymbolChar c then
      let symbol := c :: rest.takeWhile isSymbolChar
      (.symbol symbol, symbol.length)
    else if c = '.' then (.dot, 1)
    else if c = '(' then (.openParen, 1)
    else if c = ')' then (.closeParen, 1)
    else if c = ',' then (.comma, 1)
    else (.other c, 1)

/-- The lexeme at the front of a text that is not empty, and its length in characters. -/
def scan (c : Char) (rest : List Char) : Lexeme × Nat :=
  if isSpace c then (.space, 1 + (rest.takeWhile isSpace).length)
  else if c = '\x27' then
    match scanSqlString rest with
    | some (s, n) => (.sqlString s, n + 1)
    | none => (.other c, 1)
  else if c = '\x22' then
    match scanText rest with
    | some (s, n) => (.text s, n + 1)
    | none => (.other c, 1)
  else if c = '\x7b' then
    match scanName '\x7d' rest with
    | some name => (.model name, name.length + 2)
    | none => (.other c, 1)
  else if c = '[' then
    match scanName ']' rest with
    | some name => (.field name, name.length + 2)
    | none => (.other c, 1)
  else if c = '?' then scanTuple none 1 rest
  else if c = '%' then scanCode rest
  else scanPlain c rest

/-! ## Cutting a whole format -/

/-- The pieces of a text whose first `skip` characters belong to a piece already cut. -/
def piecesFrom : Nat → List Char → List Piece
  | _, [] => []
  | skip + 1, _ :: rest => piecesFrom skip rest
  | 0, c :: rest =>
    let scanned := scan c rest
    ⟨scanned.1, (c :: rest).take scanned.2⟩ :: piecesFrom (scanned.2 - 1) rest

/-- The pieces of a format, in order. -/
def pieces (format : List Char) : List Piece := piecesFrom 0 format

theorem piecesFrom_eq_drop (skip : Nat) (cs : List Char) : piecesFrom skip cs = pieces (cs.drop skip) := by
  induction cs generalizing skip with
  | nil => cases skip <;> simp [piecesFrom, pieces]
  | cons c rest ih =>
    cases skip with
    | zero => rfl
    | succ n => simpa [piecesFrom] using ih n

theorem pieces_cons (c : Char) (rest : List Char) :
    pieces (c :: rest) =
      ⟨(scan c rest).1, (c :: rest).take (scan c rest).2⟩ :: pieces (rest.drop ((scan c rest).2 - 1)) := by
  rw [pieces, piecesFrom, piecesFrom_eq_drop]

theorem scanTuple_pos (code : Option (List Char)) (length : Nat) (cs : List Char) (h : 0 < length) :
    0 < (scanTuple code length cs).2 := by
  unfold scanTuple
  split
  · exact Nat.lt_add_right 2 h
  · exact h

theorem scanNumber_pos {cs : List Char} {n : Nat} (h : scanNumber cs = some n) : 0 < n := by
  simp only [scanNumber] at h
  split at h
  · simp at h
  · simp only [Option.some.injEq] at h
    omega

theorem scanCode_pos (rest : List Char) : 0 < (scanCode rest).2 := by
  simp only [scanCode]
  split
  · exact Nat.one_pos
  · exact scanTuple_pos _ _ _ (by omega)

theorem scanPlain_pos (c : Char) (rest : List Char) : 0 < (scanPlain c rest).2 := by
  unfold scanPlain
  split
  · rename_i n h
    exact scanNumber_pos h
  · repeat' split
    all_goals simp

theorem scan_pos (c : Char) (rest : List Char) : 0 < (scan c rest).2 := by
  unfold scan
  split
  · exact Nat.lt_add_right _ Nat.one_pos
  split
  · split <;> exact Nat.succ_pos _
  split
  · split <;> exact Nat.succ_pos _
  split
  · split <;> exact Nat.succ_pos _
  split
  · split <;> exact Nat.succ_pos _
  split
  · exact scanTuple_pos none 1 rest Nat.one_pos
  split
  · exact scanCode_pos rest
  · exact scanPlain_pos c rest

theorem flatMap_text_piecesFrom (skip : Nat) (cs : List Char) :
    (piecesFrom skip cs).flatMap Piece.text = cs.drop skip := by
  induction cs generalizing skip with
  | nil => cases skip <;> rfl
  | cons c rest ih =>
    cases skip with
    | zero =>
      obtain ⟨n, hn⟩ := Nat.exists_eq_succ_of_ne_zero (Nat.ne_of_gt (scan_pos c rest))
      rw [piecesFrom, List.flatMap_cons, ih, hn, List.drop_zero]
      exact congrArg (c :: ·) (List.take_append_drop n rest)
    | succ n => exact ih n

/-- The pieces put together are the format. -/
theorem flatMap_text_pieces (cs : List Char) : (pieces cs).flatMap Piece.text = cs :=
  flatMap_text_piecesFrom 0 cs

end RecordQuery.Format
