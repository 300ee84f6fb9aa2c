import RecordQuery.Format.Lexeme
import RecordQuery.Coercion
import RecordQuery.Text.Bytes
set_option autoImplicit false

/-!
# Format: tokens

Pieces become tokens: words are keywords or fields, literals get their type, and placeholders take the
next positional values.  A field or model that a dot and a name follow becomes one qualified field.  Every
token knows the bytes of the format that it came from, and whether it stands for a placeholder or literal
notation (`substituted`) or is copied text.
-/

namespace RecordQuery.Format

/-- A token of a format. -/
inductive Token where
  | literal (type : DataType) (value : Value)
  | null
  /-- a symbol or a keyword in lower case -/
  | operator (symbol : String)
  | field (name : String) (quoted : Bool) (model : Option (String × Bool))
  | model (name : String) (quoted : Bool)
  | openParen
  | closeParen
  | comma
  | openList (type : DataType)
  | closeList
  /-- text outside the expression language -/
  | raw (text : String)
  deriving Inhabited

/-- A token and the bytes it came from. -/
structure Spanned where
  token : Token
  start : Nat
  stop : Nat
  substituted : Bool
  deriving Inhabited

/-- What placeholders are bound to: positional values, and enumerations by name. -/
structure Binding where
  args : List Value
  registry : Registry
  deriving Inhabited

namespace Binding

/-- The positional value of an index. -/
def take (b : Binding) (index : Nat) : Outcome Value :=
  match b.args[index]? with
  | some v => .ok v
  | none => .error (.missingArgument index b.args.length)

/-- The name that a value carries: a text that is not empty, or the `name` of a record. -/
def nameOf (v : Value) (position : Nat) : Outcome String :=
  let refused : Outcome String := .error (.parse position v.describe .expectedName)
  match v with
  | .string s => if s = "" then refused else .ok s
  | .object entries =>
    match Entries.find? entries "name" with
    | some (.string s) => .ok s
    | _ => refused
  | _ => refused

/-- The name that the positional value of an index carries. -/
def takeName (b : Binding) (index position : Nat) : Outcome String := do
  nameOf (← b.take index) position

/-- The codes of model placeholders. -/
def isModelCode (code : String) : Bool := code == "m" || code == "model"

/-- The codes of field placeholders. -/
def isFieldCode (code : String) : Bool := code == "c" || code == "column" || code == "field"

/-- The token of a field name: what precedes the last dot is the model. -/
def fieldToken (name : String) : Token :=
  match Text.cutLast '.' name.toList with
  | some (model, last) => .field (String.ofList last) true (some (String.ofList model, true))
  | none => .field name true none

/-- A type code without percent signs at the front. -/
def stripPercent (code : String) : String := String.ofList (code.toList.dropWhile (· == '%'))

/-- A type code without `()` at the end, and whether it had them. -/
def splitTuple (code : String) : String × Bool :=
  match code.toList.reverse with
  | ')' :: '(' :: rest => (String.ofList rest.reverse, true)
  | _ => (code, false)

/-- The type that a type code names, or the fault that it names none. -/
def typeOf (b : Binding) (code shown : String) : Outcome DataType :=
  match DataType.ofCode? code b.registry with
  | some t => .ok t
  | none => .error (.unknownType shown)

/-- The type of a placeholder, whether it takes a list, and the index of its value.  The code `_` takes the
type code itself from a positional value. -/
def placeholderType (b : Binding) (code : Option String) (tuple : Bool) (index position : Nat) :
    Outcome (Option DataType × Bool × Nat) :=
  match code with
  | none => .ok (none, tuple, index)
  | some "_" => do
    match ← b.take index with
    | .string s =>
      let (code, asTuple) := splitTuple s
      let t ← b.typeOf code (stripPercent code)
      return (some t, tuple || asTuple, index + 1)
    | v => .error (.parse position v.describe .expectedTypeCode)
  | some code => do
    let t ← b.typeOf code code
    return (some t, tuple, index)

/-- The value of a placeholder, brought into its type; without a type it is kept as it is. -/
def coerce (t : Option DataType) (v : Value) : Outcome Value :=
  match t with
  | some t => t.decode v
  | none => .ok v

/-- The tokens of a list: its literals between an opening and a closing token. -/
def listTokens (t : Option DataType) (items : List Value) : Outcome (List Token) := do
  let type := t.getD (match items with
    | v :: _ => .infer v
    | [] => .plainText)
  let literals ← items.mapM fun v => do return Token.literal type (← coerce t v)
  return .openList type :: literals ++ [.closeList]

/-- The tokens of a placeholder and the index of the next value. -/
def placeholder (b : Binding) (code : Option String) (tuple : Bool) (index position : Nat) :
    Outcome (List Token × Nat) :=
  if (code.map isModelCode).getD false then do
    return ([.model (← b.takeName index position) true], index + 1)
  else if (code.map isFieldCode).getD false then do
    return ([fieldToken (← b.takeName index position)], index + 1)
  else do
    let (t, tuple, index) ← b.placeholderType code tuple index position
    let v ← b.take index
    if tuple then
      match v with
      | .array items => return (← listTokens t items, index + 1)
      | v => .error (.invalid (.noList position v))
    else
      return ([.literal (t.getD (.infer v)) (← coerce t v)], index + 1)

/-! ## One piece -/

/-- The words that are operators. -/
def isKeyword (word : String) : Bool := ["and", "or", "not", "is", "like", "in"].contains word

/-- The token of a word, and whether it is substituted. -/
def wordToken (word : List Char) : Token × Bool :=
  let lower := String.ofList (word.map Char.toLower)
  if lower = "true" then (.literal .boolean (.bool true), true)
  else if lower = "false" then (.literal .boolean (.bool false), true)
  else if lower = "null" then (.null, false)
  else if isKeyword lower then (.operator lower, false)
  else (.field (String.ofList word) false none, false)

/-- The token of a number: an integer without a point, a float with one. -/
def numberToken (text : List Char) (position : Nat) : Outcome Token :=
  if text.contains '.' then
    .ok (.literal .float (.float ((Text.readBinary64 text).getD .zero)))
  else
    match Text.readInt64 text with
    | some n => .ok (.literal .int (.int n))
    | none => .error (.parse position (String.ofList text) .integerOutOfRange)

/-- The tokens of a piece that stands on its own, whether they are substituted, and the index of the next
value. -/
def pieceTokens (b : Binding) (p : Piece) (index position : Nat) : Outcome (List Token × Bool × Nat) :=
  match p.lexeme with
  | .space => .ok ([], false, index)
  | .sqlString s => .ok ([.literal .plainText (.string (String.ofList s))], false, index)
  | .text s => .ok ([.literal .plainText (.string (String.ofList s))], true, index)
  | .model name => .ok ([.model (String.ofList name) true], true, index)
  | .field name => .ok ([.field (String.ofList name) true none], true, index)
  | .placeholder code tuple => do
    let (tokens, next) ← b.placeholder (code.map String.ofList) tuple index position
    return (tokens, true, next)
  | .number text => do return ([← numberToken text position], false, index)
  | .word word => .ok ([(wordToken word).1], (wordToken word).2, index)
  | .symbol text => .ok ([.operator (String.ofList text)], false, index)
  | .dot => .ok ([.raw "."], false, index)
  | .openParen => .ok ([.openParen], false, index)
  | .closeParen => .ok ([.closeParen], false, index)
  | .comma => .ok ([.comma], false, index)
  | .other c => .ok ([.raw (String.ofList [c])], false, index)

/-! ## Qualified fields -/

/-- What a token qualifies as when a dot and a name follow it. -/
def qualifier : List Token → Option (String × Bool)
  | [.model name quoted] => some (name, quoted)
  | [.field name quoted none] => some (name, quoted)
  | _ => none

/-- The field that a piece after a dot names: its name, whether it is quoted and substituted, and the index
of the next value. -/
def fieldAfterDot (b : Binding) (p : Piece) (index position : Nat) :
    Outcome (Option (String × Bool × Nat)) :=
  match p.lexeme with
  | .word word => .ok (some (String.ofList word, false, index))
  | .field name => .ok (some (String.ofList name, true, index))
  | .placeholder (some code) false =>
    if isFieldCode (String.ofList code) then do
      return some (← b.takeName index position, true, index + 1)
    else .ok none
  | _ => .ok none

/-- The pieces through the first dot, if only white space stands before it. -/
def throughDot : List Piece → Option (List Piece)
  | ⟨.dot, text⟩ :: _ => some [⟨.dot, text⟩]
  | ⟨.space, text⟩ :: rest => (throughDot rest).map (⟨.space, text⟩ :: ·)
  | _ => none

/-- The bytes of some pieces. -/
def piecesLength : List Piece → Nat
  | [] => 0
  | p :: ps => Text.byteLength p.text + piecesLength ps

/-- The tokens of the pieces from byte `position` on, taking values from `index` on; the first `skip` pieces
belong to a token already made. -/
def tokensFrom (b : Binding) : Nat → List Piece → Nat → Nat → Outcome (List Spanned)
  | _, [], _, _ => .ok []
  | skip + 1, p :: rest, position, index =>
    tokensFrom b skip rest (position + Text.byteLength p.text) index
  | 0, p :: rest, position, index => do
    let stop := position + Text.byteLength p.text
    let (tokens, substituted, index) ← b.pieceTokens p index position
    let plain := tokens.map fun t => Spanned.mk t position stop substituted
    match qualifier tokens, throughDot rest with
    | some model, some dotted =>
      match rest.drop dotted.length with
      | [] => return plain ++ (← tokensFrom b 0 rest stop index)
      | q :: _ =>
        let after := stop + piecesLength dotted
        match ← b.fieldAfterDot q index after with
        | some (name, quoted, index) =>
          let token := Spanned.mk (.field name quoted (some model)) position
            (after + Text.byteLength q.text) (substituted || quoted)
          return token :: (← tokensFrom b (dotted.length + 1) rest stop index)
        | none => return plain ++ (← tokensFrom b 0 rest stop index)
    | _, _ => return plain ++ (← tokensFrom b 0 rest stop index)

end Binding

/-- The tokens of a format, its placeholders bound to positional values in order. -/
def tokenize (format : String) (b : Binding) : Outcome (List Spanned) :=
  b.tokensFrom 0 (pieces format.toList) 0 0

end RecordQuery.Format
