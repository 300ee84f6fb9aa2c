import RecordQuery.Format.Token
import RecordQuery.Dialect.Quoting
set_option autoImplicit false

/-!
# Format: interpolation

A format becomes SQL text of a dialect: placeholders and literal notations are replaced by quoted literals
and names, and every other byte is kept.
-/

namespace RecordQuery.Format

/-- A name of a reference, quoted if it was. -/
def quotePart (quote : String → String) (name : String) (quoted : Bool) : String :=
  if quoted then quote name else name

/-- The literals at the front of some tokens. -/
def leadingLiterals : List Spanned → List (DataType × Value)
  | ⟨.literal type value, _, _, _⟩ :: rest => (type, value) :: leadingLiterals rest
  | _ => []

/-- What stands for a token, and how many of the following tokens it takes with it. -/
def replacement (d : Dialect) (format : List Char) (s : Spanned) (rest : List Spanned) :
    Outcome (String × Nat) :=
  let kept := String.ofList (Text.slice format s.start s.stop)
  if !s.substituted then .ok (kept, 0)
  else
    match s.token with
    | .literal type value => do return (← d.quoteLiteral type value, 0)
    | .model name quoted => .ok (quotePart d.quoteModel name quoted, 0)
    | .field name quoted none => .ok (quotePart d.quoteField name quoted, 0)
    | .field name quoted (some (model, modelQuoted)) =>
      .ok (quotePart d.quoteModel model modelQuoted ++ "." ++ quotePart d.quoteField name quoted, 0)
    | .openList _ => do
      let items := leadingLiterals rest
      let texts ← items.mapM fun item => d.quoteLiteral item.1 item.2
      return (if texts.isEmpty then "(NULL)" else "(" ++ Text.joined ", " texts ++ ")", texts.length + 1)
    | _ => .ok (kept, 0)

/-- The SQL text from byte `copied` on; the first `skip` tokens are already written. -/
def interpolateFrom (d : Dialect) (format : List Char) : Nat → List Spanned → Nat → Outcome String
  | _, [], copied => .ok (String.ofList (Text.slice format copied (Text.byteLength format)))
  | skip + 1, _ :: rest, copied => interpolateFrom d format skip rest copied
  | 0, s :: rest, copied => do
    let between := String.ofList (Text.slice format copied s.start)
    let (text, taken) ← replacement d format s rest
    return between ++ text ++ (← interpolateFrom d format taken rest s.stop)

/-- A format as SQL text of a dialect, its placeholders bound. -/
def interpolate (d : Dialect) (format : String) (b : Binding) : Outcome String := do
  interpolateFrom d format.toList 0 (← tokenize format b) 0

end RecordQuery.Format
