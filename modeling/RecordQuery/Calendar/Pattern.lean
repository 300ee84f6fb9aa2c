import RecordQuery.Calendar.Date
import RecordQuery.Text.Blank
import RecordQuery.Text.Numeral
set_option autoImplicit false

/-!
# Calendar: reading and writing by a pattern

A pattern is a list of items: numbers of a calendar field, an optional fraction, white space and literal
characters.  Reading is lenient about numbers: white space may stand before them and they need not be
padded.  Writing pads them.  The same pattern drives both.
-/

namespace RecordQuery.Calendar

/-- One item of a pattern. -/
inductive Item where
  /-- the year: four digits at most, or any number of digits after a sign -/
  | year
  | month
  | day
  | hour
  | minute
  /-- the second of the minute, 60 for a leap second -/
  | second
  /-- a point and the fraction of the second, or nothing -/
  | fraction
  /-- any amount of white space -/
  | space
  /-- exactly this character -/
  | literal (c : Char)
  deriving DecidableEq, Repr, Inhabited

/-- The numbers that a text gave for the calendar fields. -/
structure Reading where
  year : Int
  month : Nat
  day : Nat
  hour : Nat
  minute : Nat
  second : Nat
  nanosecond : Nat
  deriving DecidableEq, Repr, Inhabited

/-! ## Reading -/

/-- At least one and at most `width` digits (any number of them without a width), and the rest. -/
def takeDigits (width : Option Nat) (cs : List Char) : Option (Nat × List Char) :=
  let run := cs.takeWhile Char.isDigit
  let taken := match width with
    | some w => run.take w
    | none => run
  if taken = [] then none else some (Text.digitsValue taken, cs.drop taken.length)

/-- A number after optional white space. -/
def takeNumber (width : Nat) (cs : List Char) : Option (Nat × List Char) :=
  takeDigits (some width) (Text.trimStart cs)

/-- A year after optional white space. -/
def takeYear (cs : List Char) : Option (Int × List Char) :=
  match Text.trimStart cs with
  | '-' :: rest => (takeDigits none rest).map fun (n, rest) => (-(n : Int), rest)
  | '+' :: rest => (takeDigits none rest).map fun (n, rest) => ((n : Int), rest)
  | rest => (takeDigits (some 4) rest).map fun (n, rest) => ((n : Int), rest)

/-- The nanoseconds that a fraction of a second stands for: nine digits count, later ones are skipped. -/
def takeFraction : List Char → Option (Nat × List Char)
  | '.' :: rest =>
    let run := rest.takeWhile Char.isDigit
    let counted := run.take 9
    if counted = [] then none
    else some (Text.digitsValue counted * Nat.pow 10 (9 - counted.length), rest.dropWhile Char.isDigit)
  | cs => some (0, cs)

/-- Read one item at the front of a text. -/
def Item.read (item : Item) (r : Reading) (cs : List Char) : Option (Reading × List Char) :=
  match item with
  | .year => (takeYear cs).map fun (n, rest) => ({ r with year := n }, rest)
  | .month => (takeNumber 2 cs).map fun (n, rest) => ({ r with month := n }, rest)
  | .day => (takeNumber 2 cs).map fun (n, rest) => ({ r with day := n }, rest)
  | .hour => (takeNumber 2 cs).map fun (n, rest) => ({ r with hour := n }, rest)
  | .minute => (takeNumber 2 cs).map fun (n, rest) => ({ r with minute := n }, rest)
  | .second => (takeNumber 2 cs).map fun (n, rest) => ({ r with second := n }, rest)
  | .fraction => (takeFraction cs).map fun (n, rest) => ({ r with nanosecond := n }, rest)
  | .space => some (r, Text.trimStart cs)
  | .literal c =>
    match cs with
    | x :: rest => if x = c then some (r, rest) else none
    | [] => none

/-- Read a whole text by a pattern; nothing may be left over. -/
def readItems : List Item → Reading → List Char → Option Reading
  | [], r, cs => if cs = [] then some r else none
  | item :: items, r, cs =>
    match item.read r cs with
    | some (r, rest) => readItems items r rest
    | none => none

/-- The reading of an empty text. -/
def Reading.blank : Reading := ⟨0, 0, 0, 0, 0, 0, 0⟩

/-- The date of a reading, if the calendar has it. -/
def Reading.date? (r : Reading) : Option Date := Date.of? r.year r.month r.day

/-- The time of a reading: the second 60 is a leap second after 59. -/
def Reading.time? (r : Reading) : Option TimeOfDay :=
  if r.second = 60 then TimeOfDay.of? r.hour r.minute 59 (r.nanosecond + 1000000000)
  else TimeOfDay.of? r.hour r.minute r.second r.nanosecond

/-- The date that a text gives by a pattern. -/
def readDate (pattern : List Item) (cs : List Char) : Option Date :=
  (readItems pattern .blank cs).bind Reading.date?

/-- The moment that a text gives by a pattern. -/
def readDateTime (pattern : List Item) (cs : List Char) : Option DateTime :=
  (readItems pattern .blank cs).bind fun r =>
    match r.date?, r.time? with
    | some d, some t => some ⟨d, t⟩
    | _, _ => none

/-! ## Writing -/

/-- A number padded with zeros to a width. -/
def padded (width n : Nat) : List Char :=
  let digits := Nat.toDigits 10 n
  List.replicate (width - digits.length) '0' ++ digits

/-- A year: four digits, with a sign outside 0 to 9999. -/
def yearText (year : Int) : List Char :=
  if 0 ≤ year ∧ year ≤ 9999 then padded 4 year.toNat
  else (if year < 0 then '-' else '+') :: padded 4 year.natAbs

/-- A fraction of a second in three, six or nine digits, the fewest that are exact; nothing for zero. -/
def fractionText (nanosecond : Nat) : List Char :=
  if nanosecond = 0 then []
  else if nanosecond % 1000000 = 0 then '.' :: padded 3 (nanosecond / 1000000)
  else if nanosecond % 1000 = 0 then '.' :: padded 6 (nanosecond / 1000)
  else '.' :: padded 9 nanosecond

/-- The text of one item. -/
def Item.write (d : Date) (t : TimeOfDay) : Item → List Char
  | .year => yearText d.year
  | .month => padded 2 d.month
  | .day => padded 2 d.day
  | .hour => padded 2 t.hour
  | .minute => padded 2 t.minute
  | .second => padded 2 t.shownSecond
  | .fraction => fractionText t.shownNanosecond
  | .space => [' ']
  | .literal c => [c]

/-- The text of a date by a pattern. -/
def writeDate (pattern : List Item) (d : Date) : String :=
  String.ofList (pattern.flatMap (Item.write d .midnight))

/-- The text of a moment by a pattern. -/
def writeDateTime (pattern : List Item) (t : DateTime) : String :=
  String.ofList (pattern.flatMap (Item.write t.date t.time))

/-! ## The patterns in use -/

/-- Year, month and day between hyphens. -/
def dayPattern : List Item := [.year, .literal '-', .month, .literal '-', .day]

/-- Hour, minute and second between colons. -/
def clockPattern : List Item := [.hour, .literal ':', .minute, .literal ':', .second]

/-- A day, white space and a clock time. -/
def spacedPattern : List Item := dayPattern ++ .space :: clockPattern

/-- A day, white space and a clock time with a fraction. -/
def spacedFractionPattern : List Item := spacedPattern ++ [.fraction]

/-- A day, the letter T and a clock time with a fraction. -/
def joinedFractionPattern : List Item := dayPattern ++ .literal 'T' :: clockPattern ++ [.fraction]

/-- Year, month and day between hyphens, with white space anywhere between them. -/
def looseDayPattern : List Item :=
  [.year, .space, .literal '-', .month, .space, .literal '-', .day, .space]

/-- A loose day, the letter T and a clock time with a fraction, with white space anywhere between. -/
def looseDateTimePattern : List Item :=
  looseDayPattern ++
    [.literal 'T', .hour, .space, .literal ':', .minute, .space, .literal ':', .second, .fraction, .space]

end RecordQuery.Calendar
