import RecordQuery.Expr.Basic
import RecordQuery.Format.Token
set_option autoImplicit false

/-!
# Expr: reading tokens

The grammar of expressions: `or` binds weakest, then `and`, then `not`, then comparisons, which do not
chain; operands are constants, fields, lists and expressions between parentheses.  Each reader takes the
construct at the front of the tokens and answers it with the rest.  A level of the grammar spends one unit of
fuel before it looks at a token, and there are six levels, so seven units a token are never used up.
-/

namespace RecordQuery.Expr

open Format (Token Spanned Binding)

/-- Refuse a token. -/
def refuse {α : Type} (format : List Char) (s : Spanned) (cause : ParseCause) : Outcome α :=
  .error (.parse s.start (String.ofList (Text.slice format s.start s.stop)) cause)

/-- Refuse a format at its end. -/
def refuseEnd {α : Type} (format : List Char) (cause : ParseCause) : Outcome α :=
  .error (.parse (Text.byteLength format) "<end>" cause)

/-- The first token is this operator. -/
def startsWith (symbol : String) : List Spanned → Bool
  | ⟨.operator s, _, _, _⟩ :: _ => s == symbol
  | _ => false

/-- The operator of a spelling, or the fault that there is none. -/
def operatorOf (symbol : String) : Outcome Operator :=
  match Operator.ofLower? (Text.asciiLower symbol) with
  | some op => .ok op
  | none => .error (.unsupportedOperator symbol)

/-- A comparison operator at the front, whether it is negated, and the rest; none where the tokens end or
go on with `and`, `or` or no operator. -/
def readComparator (format : List Char) (ts : List Spanned) :
    Outcome (Option (Operator × Bool × List Spanned)) :=
  match ts with
  | s :: rest =>
    match s.token with
    | .operator symbol =>
      if symbol = "and" ∨ symbol = "or" then .ok none
      else if symbol = "not" then
        if startsWith "like" rest then .ok (some (.like, true, rest.tail))
        else if startsWith "in" rest then .ok (some (.isIn, true, rest.tail))
        else refuse format s .expectedLikeOrIn
      else if symbol = "is" then
        if startsWith "not" rest then .ok (some (.isNot, false, rest.tail))
        else .ok (some (.is, false, rest))
      else do return some (← operatorOf symbol, false, rest)
    | _ => .ok none
  | [] => .ok none

/-- The right side of a comparison: a single constant after `in` is a list of one. -/
def rightOperand (op : Operator) (e : Expr) : Expr :=
  match op, e with
  | .isIn, .literal type value => .list type [value]
  | _, e => e

/-- Refuse an operator that follows a comparison, unless it is `and` or `or`. -/
def checkUnchained (format : List Char) (ts : List Spanned) : Outcome Unit :=
  match ts with
  | s :: _ =>
    match s.token with
    | .operator symbol =>
      if symbol = "and" ∨ symbol = "or" then .ok () else refuse format s .chainedComparison
    | _ => .ok ()
  | [] => .ok ()

/-- The values of a list placeholder after its opening token. -/
def readValues (format : List Char) : List Spanned → Outcome (List Value × List Spanned)
  | [] => refuseEnd format .unterminatedTuple
  | s :: rest =>
    match s.token with
    | .literal _ value => do
      let (values, rest) ← readValues format rest
      return (value :: values, rest)
    | .closeList => .ok ([], rest)
    | _ => refuse format s .malformedTuple

/-- The type and value of every item of a written list. -/
def literals? : List Expr → Option (List (DataType × Value))
  | [] => some []
  | .literal type value :: rest => (literals? rest).map ((type, value) :: ·)
  | _ => none

/-- The type of a written list: that of its first item that is not null. -/
def listType (items : List (DataType × Value)) : DataType :=
  match items.find? fun item => !item.2.isNull with
  | some (type, _) => type
  | none => .plainText

/-- The expression between parentheses: a single item is itself, several items are a list of constants. -/
def ofItems (format : List Char) (opening : Spanned) : List Expr → Outcome Expr
  | [e] => .ok e
  | items =>
    match literals? items with
    | some pairs => .ok (.list (listType pairs) (pairs.map Prod.snd))
    | none => refuse format opening .listOfNonLiterals

/-- The field that a reference names. -/
def ofReference (name : String) (quoted : Bool) (model : Option (String × Bool)) : Expr :=
  .field ⟨name, quoted, model.map Prod.fst, (model.map Prod.snd).getD false⟩

/-- Refuse an operator where an operand should stand. -/
def refuseOperator (format : List Char) (s : Spanned) (symbol : String) : Outcome (Expr × List Spanned) :=
  if Binding.isKeyword symbol then refuse format s .danglingOperator
  else do
    let _ ← operatorOf symbol
    refuse format s .danglingOperator

mutual

/-- A chain of `or`. -/
def readOr (format : List Char) : Nat → List Spanned → Outcome (Expr × List Spanned)
  | 0, _ => refuseEnd format .expectedOperand
  | fuel + 1, ts => do
    let (left, rest) ← readAnd format fuel ts
    readOrTail format fuel left rest

/-- What follows the first operands of a chain of `or`. -/
def readOrTail (format : List Char) : Nat → Expr → List Spanned → Outcome (Expr × List Spanned)
  | 0, _, _ => refuseEnd format .expectedOperand
  | fuel + 1, left, ts =>
    if startsWith "or" ts then do
      let (right, rest) ← readAnd format fuel ts.tail
      readOrTail format fuel (.binary left .or right) rest
    else .ok (left, ts)

/-- A chain of `and`. -/
def readAnd (format : List Char) : Nat → List Spanned → Outcome (Expr × List Spanned)
  | 0, _ => refuseEnd format .expectedOperand
  | fuel + 1, ts => do
    let (left, rest) ← readNot format fuel ts
    readAndTail format fuel left rest

/-- What follows the first operands of a chain of `and`. -/
def readAndTail (format : List Char) : Nat → Expr → List Spanned → Outcome (Expr × List Spanned)
  | 0, _, _ => refuseEnd format .expectedOperand
  | fuel + 1, left, ts =>
    if startsWith "and" ts then do
      let (right, rest) ← readNot format fuel ts.tail
      readAndTail format fuel (.binary left .and right) rest
    else .ok (left, ts)

/-- A comparison after any number of `not`. -/
def readNot (format : List Char) : Nat → List Spanned → Outcome (Expr × List Spanned)
  | 0, _ => refuseEnd format .expectedOperand
  | fuel + 1, ts =>
    if startsWith "not" ts then do
      let (e, rest) ← readNot format fuel ts.tail
      return (negation e, rest)
    else readComparison format fuel ts

/-- An operand, or two with a comparison between them. -/
def readComparison (format : List Char) : Nat → List Spanned → Outcome (Expr × List Spanned)
  | 0, _ => refuseEnd format .expectedOperand
  | fuel + 1, ts => do
    let (left, rest) ← readOperand format fuel ts
    match ← readComparator format rest with
    | none => return (left, rest)
    | some (op, negated, rest) =>
      let (right, rest) ← readOperand format fuel rest
      let e := Expr.binary left op (rightOperand op right)
      checkUnchained format rest
      return (if negated then negation e else e, rest)

/-- A constant, field, list or expression between parentheses. -/
def readOperand (format : List Char) : Nat → List Spanned → Outcome (Expr × List Spanned)
  | 0, _ => refuseEnd format .expectedOperand
  | _ + 1, [] => refuseEnd format .expectedOperand
  | fuel + 1, s :: rest =>
    match s.token with
    | .literal type value => .ok (.literal type value, rest)
    | .null => .ok (Expr.null, rest)
    | .field name quoted model =>
      match rest with
      | ⟨.openParen, _, _, _⟩ :: _ => refuse format s .functionCall
      | _ => .ok (ofReference name quoted model, rest)
    | .openParen => do
      let (items, rest) ← readItems format fuel s rest
      return (← ofItems format s items, rest)
    | .openList type => do
      let (values, rest) ← readValues format rest
      return (.list type values, rest)
    | .operator symbol => refuseOperator format s symbol
    | .closeParen => refuse format s .unbalancedParenthesis
    | .model _ _ => refuse format s .modelWithoutField
    | .comma => refuse format s .unexpectedToken
    | .closeList => refuse format s .unexpectedToken
    | .raw _ => refuse format s .unexpectedToken

/-- The items after an opening parenthesis, up to the closing one. -/
def readItems (format : List Char) : Nat → Spanned → List Spanned → Outcome (List Expr × List Spanned)
  | 0, _, _ => refuseEnd format .expectedOperand
  | fuel + 1, opening, ts => do
    let (item, rest) ← readOr format fuel ts
    match rest with
    | [] => refuse format opening .unbalancedParenthesis
    | s :: rest =>
      match s.token with
      | .closeParen => return ([item], rest)
      | .comma => do
        let (items, rest) ← readItems format fuel opening rest
        return (item :: items, rest)
      | _ => refuse format s .expectedClosing

end

/-- The expression that all tokens of a format spell. -/
def ofTokens (format : String) (ts : List Spanned) : Outcome Expr :=
  let cs := format.toList
  if ts.isEmpty then .error (.parse 0 "" .emptyExpression)
  else do
    let (e, rest) ← readOr cs (7 * ts.length + 7) ts
    match rest with
    | [] => return e
    | s :: _ =>
      match s.token with
      | .closeParen => refuse cs s .unbalancedParenthesis
      | _ => refuse cs s .trailingInput

/-- The expression that a format spells with its placeholders bound. -/
def parse (format : String) (b : Binding) : Outcome Expr := do
  ofTokens format (← Format.tokenize format b)

end RecordQuery.Expr
