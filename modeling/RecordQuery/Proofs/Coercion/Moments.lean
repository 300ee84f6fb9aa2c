import RecordQuery.Coercion
import RecordQuery.Proofs.Calendar.Grammar
set_option autoImplicit false

/-!
# Coercion: what is read of the text of a moment

A text that is a date and a time of day as a whole is read as that moment.  Any other text is read as the midnight
of the date that its first ten bytes are, whatever stands behind them (`readDateTime?_eq_some_iff`).  So a text is
read as a whole exactly where it is a moment or has nothing behind those bytes.
-/

namespace RecordQuery

namespace Text

/-- The first bytes of a text are followed by the others. -/
theorem exists_of_takeBytes {n : Nat} {cs first : List Char} (h : takeBytes n cs = some first) :
    ∃ more, cs = first ++ more := by
  induction cs generalizing n first with
  | nil =>
    cases n with
    | zero => exact ⟨[], by cases h; rfl⟩
    | succ n => cases h
  | cons c rest ih =>
    cases n with
    | zero => exact ⟨c :: rest, by cases h; rfl⟩
    | succ n =>
      rw [takeBytes] at h
      split at h
      · obtain ⟨first', hfirst, rfl⟩ := Option.map_eq_some_iff.mp h
        obtain ⟨more, rfl⟩ := ih hfirst
        exact ⟨more, rfl⟩
      · cases h

end Text

/-- Dates are read from the beginning of a text. -/
theorem exists_of_dateText (cs : List Char) : ∃ more, cs = dateText cs ++ more := by
  rw [dateText]
  cases h : Text.takeBytes 10 cs with
  | none => exact ⟨[], (List.append_nil cs).symm⟩
  | some first => exact Text.exists_of_takeBytes h

namespace Calendar

/-! ## A text with more behind it -/

section

variable {rest rest' text digits : List Char} {r r' last last' : Reading} {item : Item} {items : List Item}

theorem IsNumeral.congr {width : Option Nat} (h : IsNumeral width rest digits) (hhead : rest.head? = rest'.head?) :
    IsNumeral width rest' digits :=
  ⟨h.ne_nil, h.all_isDigit, h.length_le, h.longest.imp_right (hhead ▸ ·)⟩

theorem NumberText.congr {width n : Nat} (h : NumberText width rest text n) (hhead : rest.head? = rest'.head?) :
    NumberText width rest' text n := by
  obtain ⟨blanks, digits, rfl, hblanks, hdigits, rfl⟩ := h
  exact ⟨blanks, digits, rfl, hblanks, hdigits.congr hhead, rfl⟩

/-- What an item stands for depends on the first character behind it only. -/
theorem Item.Spells.congr (h : item.Spells rest r text r') (hhead : rest.head? = rest'.head?) :
    item.Spells rest' r text r' := by
  cases h with
  | year h =>
    refine .year ?_
    cases h with
    | plain h => exact .plain (h.congr hhead)
    | negative hblanks hdigits => exact .negative hblanks (hdigits.congr hhead)
    | positive hblanks hdigits => exact .positive hblanks (hdigits.congr hhead)
  | number hset h => exact .number hset (h.congr hhead)
  | noFraction hrest => exact .noFraction (hhead ▸ hrest)
  | fraction h => exact .fraction (h.congr hhead)
  | space hblanks hrest => exact .space hblanks (hhead ▸ hrest)
  | literal c => exact .literal c

/-- An item that does not read to the end reads the same of a longer text. -/
theorem Item.read_append {cs : List Char} (h : item.read r cs = some (r', rest)) (hrest : rest ≠ [])
    (more : List Char) : item.read r (cs ++ more) = some (r', rest ++ more) := by
  obtain ⟨text, rfl, hspells⟩ := Item.read_eq_some_iff.mp h
  have hhead : rest.head? = (rest ++ more).head? := by
    obtain ⟨c, after, rfl⟩ := List.exists_cons_of_ne_nil hrest
    rfl
  exact Item.read_eq_some_iff.mpr ⟨text, List.append_assoc .., hspells.congr hhead⟩

theorem Item.read_nil (h : item.read r [] = some (r', rest)) : rest = [] := by
  obtain ⟨text, htext, -⟩ := Item.read_eq_some_iff.mp h
  exact (List.append_eq_nil_iff.mp htext.symm).2

/-- Nothing is left for an item that must read something. -/
theorem readItems_concat_nil (hitem : ∀ r, item.read r [] = none) : readItems (items ++ [item]) r [] = none := by
  refine Option.eq_none_iff_forall_ne_some.mpr fun last h => ?_
  induction items generalizing r with
  | nil =>
    obtain ⟨next, rest, hread, -⟩ := readItems_cons_eq_some_iff.mp h
    rw [hitem] at hread
    cases hread
  | cons first items ih =>
    obtain ⟨next, rest, hread, h⟩ := readItems_cons_eq_some_iff.mp h
    obtain rfl := Item.read_nil hread
    exact ih h

/-- Where a text and a longer one are both read, the reader comes to the last item with the same reading. -/
theorem exists_last_of_append (items : List Item) {cs more : List Char} (hitem : ∀ r, item.read r [] = none)
    (h : readItems (items ++ [item]) r cs = some last) (hmore : readItems (items ++ [item]) r (cs ++ more) = some last') :
    ∃ next rest, item.read next rest = some (last, []) ∧ item.read next (rest ++ more) = some (last', []) := by
  have hend : ∀ {r r' : Reading} {cs : List Char}, readItems [item] r cs = some r' → item.read r cs = some (r', []) := by
    intro r r' cs h
    obtain ⟨next, rest, hread, h⟩ := readItems_cons_eq_some_iff.mp h
    rw [readItems] at h
    split at h
    · rename_i hnil
      cases h
      rw [hread, hnil]
    · cases h
  induction items generalizing r cs with
  | nil => exact ⟨r, cs, hend h, hend hmore⟩
  | cons first items ih =>
    obtain ⟨next, rest, hread, h⟩ := readItems_cons_eq_some_iff.mp h
    have hrest : rest ≠ [] := by
      rintro rfl
      cases h.symm.trans (readItems_concat_nil hitem)
    obtain ⟨next', rest', hread', hmore⟩ := readItems_cons_eq_some_iff.mp hmore
    rw [Item.read_append hread hrest] at hread'
    cases hread'
    exact ih h hmore

theorem exists_day (h : Item.day.read r text = some (last, rest)) :
    ∃ blanks digits, text = blanks ++ digits ++ rest ∧ blanks.all Text.isBlank = true ∧
      IsNumeral (some 2) rest digits ∧ last.day = Text.digitsValue digits := by
  obtain ⟨⟨n, rest'⟩, hnumber, heq⟩ := Option.map_eq_some_iff.mp h
  cases heq
  obtain ⟨_, rfl, blanks, digits, rfl, hblanks, hdigits, rfl⟩ := takeNumber_eq_some_iff.mp hnumber
  exact ⟨blanks, digits, rfl, hblanks, hdigits, rfl⟩

/-- A further digit makes another day of it, unless both are zeros. -/
theorem day_eq_zero {more : List Char} (h : Item.day.read r rest = some (last, []))
    (hmore : Item.day.read r (rest ++ more) = some (last', [])) (hne : more ≠ []) (hday : last.day = last'.day) :
    last.day = 0 := by
  obtain ⟨blanks, digits, rfl, hblanks, hdigits, hvalue⟩ := exists_day h
  obtain ⟨blanks', digits', htext, hblanks', hdigits', hvalue'⟩ := exists_day hmore
  have hlonger : digits ++ more = digits' := by
    have htrim := hdigits'.trimStart hblanks'
    rw [← htext] at htrim
    obtain ⟨c, after, rfl, hc⟩ := hdigits.exists_cons
    rw [List.append_nil, List.append_assoc, List.cons_append, trimStart_append hblanks] at htrim
    · rw [List.cons_append, htrim, List.append_nil]
    · rintro _ ⟨⟩
      exact isBlank_of_isDigit hc
  have hle := hdigits'.length_le 2 rfl
  obtain ⟨c, after, rfl, -⟩ := hdigits.exists_cons
  obtain ⟨c', after', rfl⟩ := List.exists_cons_of_ne_nil hne
  rw [← hlonger] at hle hvalue'
  simp only [List.length_append, List.length_cons] at hle
  obtain rfl : after = [] := List.eq_nil_of_length_eq_zero (by omega)
  obtain rfl : after' = [] := List.eq_nil_of_length_eq_zero (by omega)
  have hone : Text.digitsValue [c] = 10 * 0 + (c.toNat - '0'.toNat) := rfl
  have htwo : Text.digitsValue ([c] ++ [c']) = 10 * (10 * 0 + (c.toNat - '0'.toNat)) + (c'.toNat - '0'.toNat) := rfl
  omega

/-- A text that is a date as a whole is none, or another one, with something behind it. -/
theorem SpellsDate.eq_nil {cs more : List Char} {d : Date} (h : SpellsDate dayPattern cs d)
    (hmore : SpellsDate dayPattern (cs ++ more) d) : more = [] := by
  obtain ⟨r, hr, -, -, hday⟩ := h
  obtain ⟨r', hr', -, -, hday'⟩ := hmore
  obtain ⟨next, rest, hread, hread'⟩ := exists_last_of_append [.year, .literal '-', .month, .literal '-']
    (fun _ => rfl) (readItems_eq_some_iff.mpr hr) (readItems_eq_some_iff.mpr hr')
  by_contra hne
  have hzero := day_eq_zero hread hread' hne (hday.trans hday'.symm)
  have hpos := d.day_range.1
  omega

/-- Two patterns that begin alike read alike as far as they do. -/
theorem exists_shared {a b : List Item} (items : List Item) {cs : List Char}
    (ha : readItems (items ++ a) r cs = some last) (hb : readItems (items ++ b) r cs = some last') :
    ∃ next rest, readItems a next rest = some last ∧ readItems b next rest = some last' := by
  induction items generalizing r cs with
  | nil => exact ⟨r, cs, ha, hb⟩
  | cons item items ih =>
    obtain ⟨next, rest, hread, ha⟩ := readItems_cons_eq_some_iff.mp ha
    obtain ⟨next', rest', hread', hb⟩ := readItems_cons_eq_some_iff.mp hb
    cases hread.symm.trans hread'
    exact ih ha hb

/-- No text has white space, or nothing, and also a T between the date and the time of day. -/
theorem SpellsMoment.not_joined {cs : List Char} {x y : DateTime} (h : SpellsMoment spacedFractionPattern cs x) :
    ¬ SpellsMoment joinedFractionPattern cs y := by
  rintro ⟨r', hr', -⟩
  obtain ⟨r, hr, -⟩ := h
  have hspaced : readItems (dayPattern ++ .space :: (clockPattern ++ [.fraction])) .blank cs = some r :=
    readItems_eq_some_iff.mpr hr
  have hjoined : readItems (dayPattern ++ .literal 'T' :: (clockPattern ++ [.fraction])) .blank cs = some r' :=
    readItems_eq_some_iff.mpr hr'
  obtain ⟨next, rest, hspaced, hjoined⟩ := exists_shared dayPattern hspaced hjoined
  obtain ⟨_, after, hread, -⟩ := readItems_cons_eq_some_iff.mp hjoined
  obtain ⟨_, rfl, hspells⟩ := Item.read_eq_some_iff.mp hread
  cases hspells with
  | literal => cases hspaced
  | number hset => cases hset

end

end Calendar

/-! ## Texts of moments -/

open Calendar

/-- The whole text is a date and a time of day, with white space or a T between them, and means the moment. -/
def IsMomentText (s : String) (x : DateTime) : Prop :=
  SpellsMoment spacedFractionPattern s.toList x ∨ SpellsMoment joinedFractionPattern s.toList x

/-- The whole text is a date. -/
def IsDateText (s : String) (d : Date) : Prop := SpellsDate dayPattern s.toList d

/-- The whole text means the moment, or is the date whose midnight it is. -/
def IsWholeText (s : String) (x : DateTime) : Prop :=
  IsMomentText s x ∨ ∃ d, IsDateText s d ∧ x = .midnight d

theorem readDate?_eq_some_iff {s : String} {d : Date} :
    readDate? s = some d ↔ SpellsDate dayPattern (dateText s.toList) d := readDate_eq_some_iff

/-- A text is read as the moment that it means as a whole; if it means none, as the midnight of the date that it
starts with. -/
theorem readDateTime?_eq_some_iff {s : String} {x : DateTime} : readDateTime? s = some x ↔
    IsMomentText s x ∨ (¬ ∃ y, IsMomentText s y) ∧ ∃ d, SpellsDate dayPattern (dateText s.toList) d ∧
      x = .midnight d := by
  have hspaced : ∀ x, readDateTime spacedFractionPattern s.toList = some x ↔
      SpellsMoment spacedFractionPattern s.toList x := fun _ => readDateTime_eq_some_iff
  have hjoined : ∀ x, readDateTime joinedFractionPattern s.toList = some x ↔
      SpellsMoment joinedFractionPattern s.toList x := fun _ => readDateTime_eq_some_iff
  unfold readDateTime?
  split
  · rename_i y hy
    have hy := (hspaced y).mp hy
    constructor
    · rintro ⟨⟩
      exact .inl (.inl hy)
    · rintro ((hx | hx) | ⟨hnone, -⟩)
      · rw [← (hspaced y).mpr hy, (hspaced x).mpr hx]
      · exact absurd hx hy.not_joined
      · exact absurd ⟨y, .inl hy⟩ hnone
  rename_i hnoSpaced
  split
  · rename_i y hy
    have hy := (hjoined y).mp hy
    constructor
    · rintro ⟨⟩
      exact .inl (.inr hy)
    · rintro ((hx | hx) | ⟨hnone, -⟩)
      · exact absurd hy hx.not_joined
      · rw [← (hjoined y).mpr hy, (hjoined x).mpr hx]
      · exact absurd ⟨y, .inr hy⟩ hnone
  · rename_i hnoJoined
    have hnone : ¬ ∃ y, IsMomentText s y := by
      rintro ⟨y, hy | hy⟩
      · rw [(hspaced y).mpr hy] at hnoSpaced
        cases hnoSpaced
      · rw [(hjoined y).mpr hy] at hnoJoined
        cases hnoJoined
    rw [Option.map_eq_some_iff]
    constructor
    · rintro ⟨d, hd, rfl⟩
      exact .inr ⟨hnone, d, readDate?_eq_some_iff.mp hd, rfl⟩
    · rintro (hx | ⟨-, d, hd, rfl⟩)
      · exact absurd ⟨x, hx⟩ hnone
      · exact ⟨d, readDate?_eq_some_iff.mpr hd, rfl⟩

theorem decode_dateTime_eq_ok_iff {s : String} {x : DateTime} :
    DataType.dateTime.decode (.string s) = .ok (.dateTime x) ↔ readDateTime? s = some x := by
  show (do return Value.dateTime (← DataType.dateTime.orMismatch (.string s) (readDateTime? s)) : Outcome Value) = _ ↔ _
  cases readDateTime? s with
  | none => exact iff_of_false nofun nofun
  | some y =>
    show Except.ok (Value.dateTime y) = _ ↔ _
    simp

/-- A text that is a moment as a whole is read as this moment, and any other text as the midnight of the date that
its first ten bytes are.  So a text is read as a whole, as a moment or as a date, exactly where it is a moment or
has nothing behind these bytes. -/
theorem dateTime_read_whole_iff (s : String) (x : DateTime) :
    (DataType.dateTime.decode (.string s) = .ok (.dateTime x) ↔
      IsMomentText s x ∨ (¬ ∃ y, IsMomentText s y) ∧ ∃ d, SpellsDate dayPattern (dateText s.toList) d ∧
        x = .midnight d) ∧
    (DataType.dateTime.decode (.string s) = .ok (.dateTime x) →
      (IsWholeText s x ↔ (∃ y, IsMomentText s y) ∨ dateText s.toList = s.toList)) := by
  have hdecode : DataType.dateTime.decode (.string s) = .ok (.dateTime x) ↔ _ :=
    decode_dateTime_eq_ok_iff.trans readDateTime?_eq_some_iff
  refine ⟨hdecode, fun h => ?_⟩
  rcases hdecode.mp h with hmoment | ⟨hnone, d, hd, rfl⟩
  · exact iff_of_true (.inl hmoment) (.inl ⟨x, hmoment⟩)
  constructor
  · rintro (hmoment | ⟨d', hd', heq⟩)
    · exact absurd ⟨_, hmoment⟩ hnone
    · -- the date of all of the text is that of its first bytes
      obtain rfl : d = d' := congrArg DateTime.date heq
      obtain ⟨more, hmore⟩ := exists_of_dateText s.toList
      rw [IsDateText, hmore] at hd'
      rw [hd.eq_nil hd', List.append_nil] at hmore
      exact .inr hmore.symm
  · rintro (hmoment | hwhole)
    · exact absurd hmoment hnone
    · rw [hwhole] at hd
      exact .inr ⟨d, hd, rfl⟩

/-- The last second of a year that ended with a leap second, and a quarter. -/
def leapSecond : DateTime := ⟨(Date.of? 2016 12 31).get rfl, (TimeOfDay.of? 23 59 59 1250000000).get rfl⟩

/-- A leap second with a fraction is read as a whole. -/
theorem dateTime_read_whole_leap :
    DataType.dateTime.decode (.string "2016-12-31T23:59:60.25") = .ok (.dateTime leapSecond) ∧
      IsWholeText "2016-12-31T23:59:60.25" leapSecond := by
  have hmoment : IsMomentText "2016-12-31T23:59:60.25" leapSecond := .inr (readDateTime_eq_some_iff.mp rfl)
  obtain ⟨hdecode, hwhole⟩ := dateTime_read_whole_iff "2016-12-31T23:59:60.25" leapSecond
  have h := hdecode.mpr (.inl hmoment)
  exact ⟨h, (hwhole h).mpr (.inl ⟨_, hmoment⟩)⟩

theorem not_isWholeText {s : String} (hspaced : readDateTime spacedFractionPattern s.toList = none)
    (hjoined : readDateTime joinedFractionPattern s.toList = none) (hdate : readDate dayPattern s.toList = none)
    (x : DateTime) : ¬ IsWholeText s x := by
  rintro ((h | h) | ⟨d, h, -⟩)
  · cases hspaced.symm.trans (readDateTime_eq_some_iff.mpr h)
  · cases hjoined.symm.trans (readDateTime_eq_some_iff.mpr h)
  · cases hdate.symm.trans (readDate_eq_some_iff.mpr h)

/-- An hour 25, or a zone behind the time, is not refused: the day is read, and the time of day is dropped. -/
theorem time_of_day_dropped :
    (DataType.dateTime.decode (.string "2024-01-01 25:00:00") = .ok (.dateTime (.midnight newYear)) ∧
      ¬ IsWholeText "2024-01-01 25:00:00" (.midnight newYear)) ∧
    (DataType.dateTime.decode (.string "2024-01-01 08:30:00Z") = .ok (.dateTime (.midnight newYear)) ∧
      ¬ IsWholeText "2024-01-01 08:30:00Z" (.midnight newYear)) := by
  exact ⟨⟨rfl, not_isWholeText rfl rfl rfl _⟩, ⟨rfl, not_isWholeText rfl rfl rfl _⟩⟩

end RecordQuery
