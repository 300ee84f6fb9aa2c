import RecordQuery.Proofs.Calendar.RoundTrip
set_option autoImplicit false

/-!
# Calendar: the texts of a pattern

`Spelled` says which texts a pattern stands for without reading them: every item stands for some characters, and
sets what they show.  Numbers are as long as they can be, so that what an item stands for depends on what follows
it.  A pattern reads exactly the texts that it stands for (`readItems_eq_some_iff`), and so are dates and moments
read exactly from the texts that spell them.
-/

namespace RecordQuery.Calendar

/-! ## Digits -/

/-- Digits in front of a rest, at most `width` of them; a further digit follows only where the width is full. -/
structure IsNumeral (width : Option Nat) (rest digits : List Char) : Prop where
  ne_nil : digits ≠ []
  all_isDigit : digits.all Char.isDigit = true
  length_le : ∀ w ∈ width, digits.length ≤ w
  longest : width = some digits.length ∨ ∀ c ∈ rest.head?, c.isDigit = false

/-- The digits that a text starts with, at most `width` of them. -/
def leadingDigits (width : Option Nat) (cs : List Char) : List Char :=
  match width with
  | some w => (cs.takeWhile Char.isDigit).take w
  | none => cs.takeWhile Char.isDigit

section

variable {width : Option Nat} {cs rest digits : List Char}

theorem takeDigits_eq (width : Option Nat) (cs : List Char) :
    takeDigits width cs =
      if leadingDigits width cs = [] then none
      else some (Text.digitsValue (leadingDigits width cs), cs.drop (leadingDigits width cs).length) := by
  cases width <;> rfl

theorem IsNumeral.leadingDigits_append (h : IsNumeral width rest digits) :
    leadingDigits width (digits ++ rest) = digits := by
  obtain ⟨-, hall, hle, hlongest⟩ := h
  rcases hlongest with rfl | hrest
  · rw [leadingDigits, List.takeWhile_append_of_pos (List.all_eq_true.mp hall)]
    exact List.take_left
  · have hrun := Text.takeWhile_append_of_all hall hrest
    cases width with
    | none => exact hrun
    | some w =>
      rw [leadingDigits, hrun]
      exact List.take_of_length_le (hle w rfl)

/-- The digits that a text starts with, if there are any, are a number in front of what follows them. -/
theorem isNumeral_leadingDigits (hne : leadingDigits width cs ≠ []) :
    IsNumeral width (cs.drop (leadingDigits width cs).length) (leadingDigits width cs) := by
  have hafter := Text.drop_length_takeWhile Char.isDigit cs
  have hend : ∀ c ∈ (cs.dropWhile Char.isDigit).head?, c.isDigit = false := by
    intro c hc
    have hnot := List.head?_dropWhile_not Char.isDigit cs
    rw [hc] at hnot
    simpa using hnot
  cases width with
  | none => exact ⟨hne, List.all_takeWhile, nofun, .inr (hafter ▸ hend)⟩
  | some w =>
    refine ⟨hne, ?_, ?_, ?_⟩
    · exact List.all_eq_true.mpr fun c hc => List.all_eq_true.mp List.all_takeWhile c (List.mem_of_mem_take hc)
    · rintro _ ⟨⟩
      exact List.length_take_le _ _
    · rcases Nat.le_total w (cs.takeWhile Char.isDigit).length with hle | hle
      · exact .inl (congrArg some (List.length_take_of_le hle).symm)
      · have hall : leadingDigits (some w) cs = cs.takeWhile Char.isDigit := List.take_of_length_le hle
        rw [hall, hafter]
        exact .inr hend

theorem leadingDigits_append_drop (width : Option Nat) (cs : List Char) :
    leadingDigits width cs ++ cs.drop (leadingDigits width cs).length = cs := by
  have hprefix : leadingDigits width cs <+: cs := by
    cases width with
    | none => exact List.takeWhile_prefix _
    | some w => exact (List.take_prefix w _).trans (List.takeWhile_prefix _)
  exact (List.prefix_iff_eq_append.mp hprefix)

/-- Digits are taken as far as they are a number. -/
theorem takeDigits_eq_some_iff {n : Nat} : takeDigits width cs = some (n, rest) ↔
    ∃ digits, cs = digits ++ rest ∧ IsNumeral width rest digits ∧ n = Text.digitsValue digits := by
  rw [takeDigits_eq]
  constructor
  · intro h
    split at h
    · cases h
    · rename_i hne
      cases h
      exact ⟨_, (leadingDigits_append_drop width cs).symm, isNumeral_leadingDigits hne, rfl⟩
  · rintro ⟨digits, rfl, hdigits, rfl⟩
    rw [hdigits.leadingDigits_append, if_neg hdigits.ne_nil, List.drop_left]

end

/-! ## Numbers -/

/-- A text of white space and a number of at most `width` digits, in front of a rest. -/
def NumberText (width : Nat) (rest text : List Char) (n : Nat) : Prop :=
  ∃ blanks digits, text = blanks ++ digits ∧ blanks.all Text.isBlank = true ∧ IsNumeral (some width) rest digits ∧
    n = Text.digitsValue digits

/-- A text of white space and a year in front of a rest: at most four digits, or any number of them after a
sign. -/
inductive YearText (rest : List Char) : List Char → Int → Prop where
  | plain {text : List Char} {n : Nat} (h : NumberText 4 rest text n) : YearText rest text n
  | negative {blanks digits : List Char} (hblanks : blanks.all Text.isBlank = true)
      (hdigits : IsNumeral none rest digits) :
      YearText rest (blanks ++ '-' :: digits) (-(Text.digitsValue digits : Int))
  | positive {blanks digits : List Char} (hblanks : blanks.all Text.isBlank = true)
      (hdigits : IsNumeral none rest digits) : YearText rest (blanks ++ '+' :: digits) (Text.digitsValue digits)

section

variable {cs rest : List Char}

/-- A text is white space and what is left of it without. -/
theorem exists_blanks (cs : List Char) :
    ∃ blanks, cs = blanks ++ Text.trimStart cs ∧ blanks.all Text.isBlank = true :=
  ⟨cs.takeWhile Text.isBlank, List.takeWhile_append_dropWhile.symm, List.all_takeWhile⟩

theorem trimStart_append {blanks : List Char} (hblanks : blanks.all Text.isBlank = true)
    (hcs : ∀ c ∈ cs.head?, Text.isBlank c = false) : Text.trimStart (blanks ++ cs) = cs :=
  Text.dropWhile_append_of_all hblanks hcs

theorem IsNumeral.exists_cons {width : Option Nat} {digits : List Char} (h : IsNumeral width rest digits) :
    ∃ c more, digits = c :: more ∧ c.isDigit = true :=
  Text.eq_cons_of_all_isDigit h.ne_nil h.all_isDigit

theorem IsNumeral.trimStart {width : Option Nat} {blanks digits : List Char} (h : IsNumeral width rest digits)
    (hblanks : blanks.all Text.isBlank = true) : Text.trimStart (blanks ++ digits ++ rest) = digits ++ rest := by
  obtain ⟨c, more, rfl, hc⟩ := h.exists_cons
  rw [List.append_assoc]
  refine trimStart_append hblanks ?_
  rintro _ ⟨⟩
  exact isBlank_of_isDigit hc

theorem takeNumber_eq_some_iff {width n : Nat} : takeNumber width cs = some (n, rest) ↔
    ∃ text, cs = text ++ rest ∧ NumberText width rest text n := by
  rw [takeNumber]
  constructor
  · intro h
    obtain ⟨digits, htrim, hdigits, rfl⟩ := takeDigits_eq_some_iff.mp h
    obtain ⟨blanks, hcs, hblanks⟩ := exists_blanks cs
    rw [htrim, ← List.append_assoc] at hcs
    exact ⟨blanks ++ digits, hcs, blanks, digits, rfl, hblanks, hdigits, rfl⟩
  · rintro ⟨_, rfl, blanks, digits, rfl, hblanks, hdigits, rfl⟩
    rw [hdigits.trimStart hblanks]
    exact takeDigits_eq_some_iff.mpr ⟨digits, rfl, hdigits, rfl⟩

theorem takeYear_eq_some_iff {n : Int} : takeYear cs = some (n, rest) ↔
    ∃ text, cs = text ++ rest ∧ YearText rest text n := by
  constructor
  · intro h
    unfold takeYear at h
    obtain ⟨blanks, hcs, hblanks⟩ := exists_blanks cs
    split at h
    all_goals
      obtain ⟨⟨k, rest'⟩, hread, heq⟩ := Option.map_eq_some_iff.mp h
      cases heq
      rename_i htrim
    · obtain ⟨digits, rfl, hdigits, rfl⟩ := takeDigits_eq_some_iff.mp hread
      exact ⟨blanks ++ '-' :: digits, by rw [hcs, htrim]; simp, .negative hblanks hdigits⟩
    · obtain ⟨digits, rfl, hdigits, rfl⟩ := takeDigits_eq_some_iff.mp hread
      exact ⟨blanks ++ '+' :: digits, by rw [hcs, htrim]; simp, .positive hblanks hdigits⟩
    · obtain ⟨text, htext, hnumber⟩ := takeNumber_eq_some_iff.mp hread
      exact ⟨text, htext, .plain hnumber⟩
  · rintro ⟨text, rfl, hyear⟩
    have hsign : ∀ {blanks digits : List Char} {c : Char}, blanks.all Text.isBlank = true →
        Text.isBlank c = false → Text.trimStart (blanks ++ c :: digits ++ rest) = c :: (digits ++ rest) := by
      intro blanks digits c hblanks hc
      rw [List.append_assoc, List.cons_append]
      refine trimStart_append hblanks ?_
      rintro _ ⟨⟩
      exact hc
    cases hyear with
    | negative hblanks hdigits =>
      rw [takeYear, hsign hblanks rfl]
      show (takeDigits none _).map _ = _
      rw [takeDigits_eq_some_iff.mpr ⟨_, rfl, hdigits, rfl⟩, Option.map_some]
    | positive hblanks hdigits =>
      rw [takeYear, hsign hblanks rfl]
      show (takeDigits none _).map _ = _
      rw [takeDigits_eq_some_iff.mpr ⟨_, rfl, hdigits, rfl⟩, Option.map_some]
    | plain h =>
      obtain ⟨blanks, digits, rfl, hblanks, hdigits, rfl⟩ := h
      have hread := takeDigits_eq_some_iff.mpr ⟨digits, rfl, hdigits, rfl⟩
      obtain ⟨c, more, rfl, hc⟩ := hdigits.exists_cons
      refine (takeYear_of_isDigit (hdigits.trimStart hblanks) hc).trans ?_
      show (takeDigits (some 4) (c :: more ++ rest)).map _ = _
      rw [hread, Option.map_some]

end

/-! ## Items -/

/-- What a number sets, for the items that are numbers of two digits. -/
def Item.setter? : Item → Option (Reading → Nat → Reading)
  | .month => some fun r n => { r with month := n }
  | .day => some fun r n => { r with day := n }
  | .hour => some fun r n => { r with hour := n }
  | .minute => some fun r n => { r with minute := n }
  | .second => some fun r n => { r with second := n }
  | _ => none

/-- The nanoseconds of the digits behind a point: the first nine of them, filled up with zeros. -/
def nanoseconds (digits : List Char) : Nat :=
  Text.digitsValue ((digits ++ List.replicate 9 '0').take 9)

/-- An item stands for a text in front of a rest, and makes one reading of another. -/
inductive Item.Spells (rest : List Char) (r : Reading) : Item → List Char → Reading → Prop where
  | year {text : List Char} {n : Int} (h : YearText rest text n) : Spells rest r .year text { r with year := n }
  | number {item : Item} {set : Reading → Nat → Reading} {text : List Char} {n : Nat}
      (hset : item.setter? = some set) (h : NumberText 2 rest text n) : Spells rest r item text (set r n)
  | noFraction (hrest : rest.head? ≠ some '.') : Spells rest r .fraction [] { r with nanosecond := 0 }
  | fraction {digits : List Char} (h : IsNumeral none rest digits) :
      Spells rest r .fraction ('.' :: digits) { r with nanosecond := nanoseconds digits }
  | space {blanks : List Char} (hblanks : blanks.all Text.isBlank = true)
      (hrest : ∀ c ∈ rest.head?, Text.isBlank c = false) : Spells rest r .space blanks r
  | literal (c : Char) : Spells rest r (.literal c) [c] r

section

variable {cs rest : List Char} {r r' : Reading}

theorem Item.read_of_setter? {item : Item} {set : Reading → Nat → Reading} (h : item.setter? = some set)
    (r : Reading) (cs : List Char) : item.read r cs = (takeNumber 2 cs).map fun (n, rest) => (set r n, rest) := by
  cases item <;> cases h <;> rfl

theorem Item.nanosecond_of_setter? {item : Item} {set : Reading → Nat → Reading} (h : item.setter? = some set)
    (r : Reading) (n : Nat) : (set r n).nanosecond = r.nanosecond := by
  cases item <;> cases h <;> rfl

theorem Item.read_number_eq_some_iff {item : Item} {set : Reading → Nat → Reading} (h : item.setter? = some set) :
    item.read r cs = some (r', rest) ↔ ∃ text, cs = text ++ rest ∧ item.Spells rest r text r' := by
  rw [Item.read_of_setter? h]
  constructor
  · intro hread
    obtain ⟨⟨n, rest'⟩, hnumber, heq⟩ := Option.map_eq_some_iff.mp hread
    cases heq
    obtain ⟨text, hcs, htext⟩ := takeNumber_eq_some_iff.mp hnumber
    exact ⟨text, hcs, .number h htext⟩
  · rintro ⟨text, hcs, hspells⟩
    cases hspells with
    | number hset htext =>
      rw [takeNumber_eq_some_iff.mpr ⟨text, hcs, htext⟩]
      cases h.symm.trans hset
      rfl
    | _ => cases h

theorem nanoseconds_eq (digits : List Char) :
    nanoseconds digits = Text.digitsValue (digits.take 9) * Nat.pow 10 (9 - (digits.take 9).length) := by
  have hfilled : (digits ++ List.replicate 9 '0').take 9 =
      digits.take 9 ++ List.replicate (9 - (digits.take 9).length) '0' := by
    rw [List.take_append, List.take_replicate, List.length_take]
    congr 2
    omega
  rw [nanoseconds, hfilled]
  show Nat.ofDigitChars 10 _ 0 = Nat.ofDigitChars 10 _ 0 * _
  rw [Nat.ofDigitChars_append, Nat.ofDigitChars_replicate_zero]
  exact Nat.mul_comm _ _

theorem takeFraction_eq_some_iff {n : Nat} : takeFraction cs = some (n, rest) ↔
    (cs.head? ≠ some '.' ∧ n = 0 ∧ rest = cs) ∨
      ∃ digits, cs = '.' :: (digits ++ rest) ∧ IsNumeral none rest digits ∧ n = nanoseconds digits := by
  by_cases hpoint : ∃ after, cs = '.' :: after
  · obtain ⟨after, rfl⟩ := hpoint
    have hread : takeFraction ('.' :: after) = (takeDigits none after).map fun p =>
        (nanoseconds (leadingDigits none after), p.2) := by
      show (if (after.takeWhile Char.isDigit).take 9 = [] then none else some (_, _)) = _
      by_cases hrun : after.takeWhile Char.isDigit = []
      · rw [takeDigits_eq, leadingDigits, hrun]
        rfl
      · have hcounted : (after.takeWhile Char.isDigit).take 9 ≠ [] := by simpa using hrun
        rw [takeDigits_eq, leadingDigits, if_neg hrun, if_neg hcounted, Option.map_some, nanoseconds_eq,
          Text.drop_length_takeWhile]
    rw [hread]
    constructor
    · intro h
      obtain ⟨⟨k, rest'⟩, hdigits, heq⟩ := Option.map_eq_some_iff.mp h
      cases heq
      obtain ⟨digits, rfl, hnumeral, -⟩ := takeDigits_eq_some_iff.mp hdigits
      exact .inr ⟨digits, rfl, hnumeral, by rw [hnumeral.leadingDigits_append]⟩
    · rintro (⟨hhead, -, -⟩ | ⟨digits, heq, hnumeral, rfl⟩)
      · exact absurd rfl hhead
      · obtain rfl := (List.cons.inj heq).2
        rw [takeDigits_eq_some_iff.mpr ⟨digits, rfl, hnumeral, rfl⟩, Option.map_some,
          hnumeral.leadingDigits_append]
  · have hread : takeFraction cs = some (0, cs) := by
      unfold takeFraction
      split
      · rename_i after
        exact absurd ⟨after, rfl⟩ hpoint
      · rfl
    have hhead : cs.head? ≠ some '.' := by
      intro hhead
      obtain ⟨after, hafter⟩ := List.head?_eq_some_iff.mp hhead
      exact hpoint ⟨after, hafter⟩
    rw [hread, Option.some_inj, Prod.mk_inj]
    constructor
    · rintro ⟨rfl, rfl⟩
      exact .inl ⟨hhead, rfl, rfl⟩
    · rintro (⟨-, rfl, rfl⟩ | ⟨digits, heq, -⟩)
      · exact ⟨rfl, rfl⟩
      · exact absurd ⟨_, heq⟩ hpoint

/-- An item reads exactly the texts that it stands for. -/
theorem Item.read_eq_some_iff {item : Item} :
    item.read r cs = some (r', rest) ↔ ∃ text, cs = text ++ rest ∧ item.Spells rest r text r' := by
  cases item with
  | year =>
    rw [Item.read]
    constructor
    · intro h
      obtain ⟨⟨n, rest'⟩, hyear, heq⟩ := Option.map_eq_some_iff.mp h
      cases heq
      obtain ⟨text, hcs, htext⟩ := takeYear_eq_some_iff.mp hyear
      exact ⟨text, hcs, .year htext⟩
    · rintro ⟨text, hcs, hspells⟩
      cases hspells with
      | year htext => rw [takeYear_eq_some_iff.mpr ⟨text, hcs, htext⟩, Option.map_some]
      | number hset => cases hset
  | fraction =>
    rw [Item.read]
    constructor
    · intro h
      obtain ⟨⟨n, rest'⟩, hfraction, heq⟩ := Option.map_eq_some_iff.mp h
      cases heq
      rcases takeFraction_eq_some_iff.mp hfraction with ⟨hhead, rfl, rfl⟩ | ⟨digits, rfl, hdigits, rfl⟩
      · exact ⟨[], rfl, .noFraction hhead⟩
      · exact ⟨'.' :: digits, rfl, .fraction hdigits⟩
    · rintro ⟨text, rfl, hspells⟩
      cases hspells with
      | noFraction hhead => rw [List.nil_append, takeFraction_eq_some_iff.mpr (.inl ⟨hhead, rfl, rfl⟩), Option.map_some]
      | fraction hdigits =>
        rw [List.cons_append, takeFraction_eq_some_iff.mpr (.inr ⟨_, rfl, hdigits, rfl⟩), Option.map_some]
      | number hset => cases hset
  | space =>
    rw [Item.read]
    constructor
    · intro h
      cases h
      obtain ⟨blanks, hcs, hblanks⟩ := exists_blanks cs
      refine ⟨blanks, hcs, .space hblanks ?_⟩
      intro c hc
      have hnot := List.head?_dropWhile_not Text.isBlank cs
      rw [Text.trimStart] at hc
      rw [hc] at hnot
      simpa using hnot
    · rintro ⟨text, rfl, hspells⟩
      cases hspells with
      | space hblanks hrest => rw [trimStart_append hblanks hrest]
      | number hset => cases hset
  | literal c =>
    constructor
    · intro h
      cases cs with
      | nil => cases h
      | cons x after =>
        obtain ⟨rfl, heq⟩ := Option.ite_none_right_eq_some.mp h
        cases heq
        exact ⟨[x], rfl, .literal x⟩
    · rintro ⟨text, rfl, hspells⟩
      cases hspells with
      | literal => simp [Item.read]
      | number hset => cases hset
  | _ => exact Item.read_number_eq_some_iff rfl

end

/-! ## Patterns -/

/-- A pattern stands for a text, and makes one reading of another. -/
inductive Spelled : List Item → Reading → List Char → Reading → Prop where
  | nil (r : Reading) : Spelled [] r [] r
  | cons {item : Item} {items : List Item} {text rest : List Char} {r next last : Reading}
      (hitem : item.Spells rest r text next) (hitems : Spelled items next rest last) :
      Spelled (item :: items) r (text ++ rest) last

theorem readItems_cons_eq_some_iff {item : Item} {items : List Item} {r last : Reading} {cs : List Char} :
    readItems (item :: items) r cs = some last ↔
      ∃ next rest, item.read r cs = some (next, rest) ∧ readItems items next rest = some last := by
  rw [readItems]
  constructor
  · intro h
    split at h
    · rename_i next rest hread
      exact ⟨next, rest, hread, h⟩
    · cases h
  · rintro ⟨next, rest, hread, h⟩
    rw [hread]
    exact h

/-- A pattern reads exactly the texts that it stands for. -/
theorem readItems_eq_some_iff {items : List Item} {r last : Reading} {cs : List Char} :
    readItems items r cs = some last ↔ Spelled items r cs last := by
  induction items generalizing r cs with
  | nil =>
    rw [readItems]
    constructor
    · intro h
      split at h
      · rename_i hnil
        cases h
        rw [hnil]
        exact .nil last
      · cases h
    · rintro ⟨⟩
      rfl
  | cons item items ih =>
    rw [readItems_cons_eq_some_iff]
    constructor
    · rintro ⟨next, rest, hread, hitems⟩
      obtain ⟨text, rfl, hspells⟩ := Item.read_eq_some_iff.mp hread
      exact .cons hspells (ih.mp hitems)
    · rintro (_ | ⟨hitem, hitems⟩)
      exact ⟨_, _, Item.read_eq_some_iff.mpr ⟨_, rfl, hitem⟩, ih.mpr hitems⟩

/-! ## Dates and moments -/

/-- The numbers are those of the date. -/
structure Reading.ShowsDate (r : Reading) (d : Date) : Prop where
  year : r.year = d.year
  month : r.month = d.month
  day : r.day = d.day

/-- The numbers are those that a clock shows at the time and at no other one; in a leap second it shows the
second 60. -/
structure Reading.ShowsTime (r : Reading) (t : TimeOfDay) : Prop where
  hour : r.hour = t.hour
  minute : r.minute = t.minute
  second : r.second = t.shownSecond
  nanosecond : r.nanosecond = t.shownNanosecond
  own : t.HasOwnText

/-- The whole text stands for the date. -/
def SpellsDate (pattern : List Item) (cs : List Char) (d : Date) : Prop :=
  ∃ r, Spelled pattern .blank cs r ∧ r.ShowsDate d

/-- The whole text stands for the moment. -/
def SpellsMoment (pattern : List Item) (cs : List Char) (x : DateTime) : Prop :=
  ∃ r, Spelled pattern .blank cs r ∧ r.ShowsDate x.date ∧ r.ShowsTime x.time

section

variable {r : Reading} {cs : List Char} {pattern : List Item}

theorem Reading.date?_eq_some_iff {d : Date} : r.date? = some d ↔ r.ShowsDate d := by
  rw [Reading.date?]
  constructor
  · intro h
    unfold Date.of? at h
    split at h
    · cases h
      exact ⟨rfl, rfl, rfl⟩
    · cases h
  · rintro ⟨hyear, hmonth, hday⟩
    rw [hyear, hmonth, hday, Date.of?_fields]

theorem Reading.time?_eq_some_iff (hfraction : r.nanosecond < 1000000000) {t : TimeOfDay} :
    r.time? = some t ↔ r.ShowsTime t := by
  constructor
  · intro h
    unfold Reading.time? TimeOfDay.of? at h
    split at h
    · rename_i hleap
      split at h
      · cases h
        refine ⟨rfl, rfl, ?_, ?_, .inr rfl⟩
        · rw [TimeOfDay.shownSecond, hleap]
          simp only
          omega
        · rw [TimeOfDay.shownNanosecond]
          simp only
          omega
      · cases h
    · split at h
      · cases h
        refine ⟨rfl, rfl, ?_, ?_, .inl hfraction⟩
        · rw [TimeOfDay.shownSecond]
          simp only
          omega
        · rw [TimeOfDay.shownNanosecond]
          simp only
          omega
      · cases h
  · rintro ⟨hhour, hminute, hsecond, hnanosecond, hown⟩
    have hread := time?_shown r t
    rwa [TimeOfDay.asShown_eq_self_iff.mpr hown, ← hhour, ← hminute, ← hsecond, ← hnanosecond] at hread

/-- A run of digits is worth less than the power of ten with as many zeros. -/
theorem digitsValue_lt {digits : List Char} (h : digits.all Char.isDigit = true) :
    Text.digitsValue digits < 10 ^ digits.length := by
  show Nat.ofDigitChars 10 digits 0 < 10 ^ digits.length
  induction digits with
  | nil => exact Nat.zero_lt_one
  | cons c rest ih =>
    obtain ⟨hc, hrest⟩ := Bool.and_eq_true_iff.mp h
    have hrange : 48 ≤ c.toNat ∧ c.toNat ≤ 57 := by
      simpa [Char.isDigit, UInt32.le_iff_toNat_le] using hc
    have hdigit : 10 * 0 + (c.toNat - '0'.toNat) ≤ 9 := by
      show 10 * 0 + (c.toNat - 48) ≤ 9
      omega
    have hfirst := Nat.mul_le_mul_left (10 ^ rest.length) hdigit
    have hlt := ih hrest
    rw [Nat.ofDigitChars_cons, Nat.ofDigitChars_eq_ofDigitChars_zero, List.length_cons, Nat.pow_succ]
    omega

theorem nanoseconds_lt {digits : List Char} (h : digits.all Char.isDigit = true) :
    nanoseconds digits < 1000000000 := by
  have hall : ((digits ++ List.replicate 9 '0').take 9).all Char.isDigit = true := by
    refine List.all_eq_true.mpr fun c hc => ?_
    rcases List.mem_append.mp (List.mem_of_mem_take hc) with hc | hc
    · exact List.all_eq_true.mp h c hc
    · rw [List.eq_of_mem_replicate hc]
      rfl
  have hlength : ((digits ++ List.replicate 9 '0').take 9).length = 9 := by
    rw [List.length_take, List.length_append, List.length_replicate]
    omega
  have hlt := digitsValue_lt hall
  rwa [hlength] at hlt

theorem Spelled.nanosecond_lt {last : Reading} (h : Spelled pattern r cs last)
    (hr : r.nanosecond < 1000000000) : last.nanosecond < 1000000000 := by
  induction h with
  | nil r => exact hr
  | cons hitem _ ih =>
    refine ih ?_
    cases hitem with
    | year => exact hr
    | number hset =>
      rw [Item.nanosecond_of_setter? hset]
      exact hr
    | noFraction => exact Nat.zero_lt_succ _
    | fraction hdigits => exact nanoseconds_lt hdigits.all_isDigit
    | space => exact hr
    | literal => exact hr

theorem readDate_eq_some_iff {d : Date} : readDate pattern cs = some d ↔ SpellsDate pattern cs d := by
  rw [readDate, Option.bind_eq_some_iff]
  simp only [readItems_eq_some_iff, Reading.date?_eq_some_iff]
  rfl

theorem readDateTime_eq_some_iff {x : DateTime} :
    readDateTime pattern cs = some x ↔ SpellsMoment pattern cs x := by
  rw [readDateTime, Option.bind_eq_some_iff]
  simp only [readItems_eq_some_iff]
  refine exists_congr fun r => and_congr_right fun hr => ?_
  rw [← Reading.date?_eq_some_iff, ← Reading.time?_eq_some_iff (hr.nanosecond_lt (Nat.zero_lt_succ _))]
  constructor
  · intro h
    split at h
    · rename_i d t hd ht
      cases h
      exact ⟨hd, ht⟩
    · cases h
  · rintro ⟨hd, ht⟩
    rw [hd, ht]

end

end RecordQuery.Calendar
