import RecordQuery.Text.Printable
set_option autoImplicit false

/-!
# Text: quoted for messages

Messages show a text between double quotes, with a backslash before a quote or backslash, short escapes
for the usual controls, and the code point in hexadecimal for all else that would not show.
-/

namespace RecordQuery.Text

/-- Lower-case hexadecimal digits of a number. -/
def hexDigits (n : Nat) : List Char := Nat.toDigits 16 n

/-- Two lower-case hexadecimal digits of a byte. -/
def hexByte (b : UInt8) : List Char :=
  [Nat.digitChar (b.toNat / 16), Nat.digitChar (b.toNat % 16)]

/-- The hexadecimal digits of some bytes, in order. -/
def hex (bytes : List UInt8) : String := String.ofList (bytes.flatMap hexByte)

/-- How one character is shown inside a quoted text. -/
def quotedChar (c : Char) : List Char :=
  match c with
  | '\x00' => ['\\', '0']
  | '\t' => ['\\', 't']
  | '\r' => ['\\', 'r']
  | '\n' => ['\\', 'n']
  | '\x22' => ['\\', '\x22']
  | '\\' => ['\\', '\\']
  | _ => if isPlain c then [c] else '\\' :: 'u' :: '\x7b' :: hexDigits c.toNat ++ ['\x7d']

/-- A text between double quotes, with escapes. -/
def quoted (s : String) : String :=
  String.ofList ('\x22' :: s.toList.flatMap quotedChar ++ ['\x22'])

end RecordQuery.Text
