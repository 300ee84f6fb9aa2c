import RecordQuery.Toml.Scalar
import RecordQuery.Toml.Text
set_option autoImplicit false

/-!
# Toml: reading a document

Each function reads one construct at the front of a text and answers it with the rest.  Arrays may span
lines and end in a comma; inline tables stay on one line and may not.
-/

namespace RecordQuery.Toml

mutual

/-- A value at the front of a text; `depth` arrays and inline tables may still be opened. -/
def readValue : Nat → Nat → List Char → Option (Toml × List Char)
  | 0, _, _ => none
  | fuel + 1, depth, cs =>
    match cs with
    | '[' :: rest =>
      match depth with
      | 0 => none
      | depth + 1 => (readItems fuel depth rest).map fun (items, rest) => (.array items, rest)
    | '\x7b' :: rest =>
      match depth with
      | 0 => none
      | depth + 1 =>
        match skipBlanks rest with
        | '\x7d' :: rest => some (.inlineTable [], rest)
        | rest =>
          (readPairs fuel depth rest).bind fun (pairs, rest) =>
            (assignAll pairs []).map fun es => (.inlineTable es, rest)
    | '\x22' :: _ => (readText cs).map fun (s, rest) => (.string s, rest)
    | '\x27' :: _ => (readText cs).map fun (s, rest) => (.string s, rest)
    | cs => readWord cs

/-- The items of an array up to its closing bracket. -/
def readItems : Nat → Nat → List Char → Option (List Toml × List Char)
  | 0, _, _ => none
  | fuel + 1, depth, cs =>
    match skipLines false cs with
    | ']' :: rest => some ([], rest)
    | cs =>
      match readValue fuel depth cs with
      | none => none
      | some (item, rest) =>
        match skipLines false rest with
        | ']' :: rest => some ([item], rest)
        | ',' :: rest => (readItems fuel depth rest).map fun (items, rest) => (item :: items, rest)
        | _ => none

/-- The pairs of an inline table up to its closing brace. -/
def readPairs : Nat → Nat → List Char → Option (List (List String × Toml) × List Char)
  | 0, _, _ => none
  | fuel + 1, depth, cs =>
    match readKey cs with
    | some (path, '=' :: rest) =>
      match readValue fuel depth (skipBlanks rest) with
      | none => none
      | some (value, rest) =>
        match skipBlanks rest with
        | '\x7d' :: rest => some ([(path, value)], rest)
        | ',' :: rest => (readPairs fuel depth rest).map fun (pairs, rest) => ((path, value) :: pairs, rest)
        | _ => none
    | _ => none

end

/-- A statement without the end of its line. -/
def readStatement (cs : List Char) : Option (Statement × List Char) :=
  match cs with
  | '[' :: '[' :: rest =>
    match readKey rest with
    | some (path, ']' :: ']' :: rest) => some (.itemHeader path, rest)
    | _ => none
  | '[' :: rest =>
    match readKey rest with
    | some (path, ']' :: rest) => some (.header path, rest)
    | _ => none
  | cs =>
    match readKey cs with
    | some (path, '=' :: rest) =>
      (readValue (2 * rest.length + 2) maxDepth (skipBlanks rest)).map fun (value, rest) =>
        (.assignment path value, rest)
    | _ => none

/-- The statements of a text, each on a line of its own; at most `fuel` are read. -/
def readStatements : Nat → List Char → Option (List Statement)
  | 0, _ => none
  | fuel + 1, cs =>
    match skipLines false cs with
    | [] => some []
    | cs =>
      match readStatement cs with
      | none => none
      | some (statement, rest) =>
        match endLine rest with
        | none => none
        | some rest => (readStatements fuel rest).map (statement :: ·)

/-- The document that a text spells; a byte order mark may stand before it. -/
def read? (s : String) : Option (Entries Toml) :=
  let cs := match s.toList with
    | '\uFEFF' :: rest => rest
    | cs => cs
  (readStatements (cs.length + 1) cs).bind ofStatements?

end RecordQuery.Toml
