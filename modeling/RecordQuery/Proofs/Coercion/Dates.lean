import RecordQuery.Coercion
import RecordQuery.Proofs.Calendar.Grammar
set_option autoImplicit false

/-!
# Coercion: what is read of the text of a date

A date is read from the first ten bytes of a text.  These are all of a date in the years 0 to 9999.  The sign of an
earlier year takes the place of the last digit of the day, and a year of more digits leaves no place for a day at all
(`readDate?_text`).  So a date is decoded from its own text in the years 0 to 9999 only.
-/

namespace RecordQuery

namespace Calendar

/-! ## Lengths -/

theorem byteLength_of_all_isDigit {cs : List Char} (h : cs.all Char.isDigit = true) :
    Text.byteLength cs = cs.length := by
  induction cs with
  | nil => rfl
  | cons c rest ih =>
    obtain ⟨hc, hrest⟩ := Bool.and_eq_true_iff.mp h
    have hsize : c.utf8Size = 1 := by
      have hrange : 48 ≤ c.toNat ∧ c.toNat ≤ 57 := by
        simpa [Char.isDigit, UInt32.le_iff_toNat_le] using hc
      exact Char.utf8Size_eq_one_iff.mpr (UInt32.le_iff_toNat_le.mpr (Nat.le_trans hrange.2 (by decide)))
    rw [Text.byteLength_cons, hsize, ih hrest, List.length_cons, Nat.add_comm]

theorem byteLength_padded (width n : Nat) : Text.byteLength (padded width n) = (padded width n).length :=
  byteLength_of_all_isDigit (all_isDigit_padded width n)

theorem length_padded_eq_max (width n : Nat) : (padded width n).length = max width (Nat.toDigits 10 n).length := by
  rw [padded, List.length_append, List.length_replicate]
  omega

theorem byteLength_yearText (year : Int) : Text.byteLength (yearText year) = (yearText year).length := by
  unfold yearText
  split
  · exact byteLength_padded 4 _
  · rw [Text.byteLength_cons, byteLength_padded, List.length_cons, Nat.add_comm]
    congr 1
    split <;> rfl

theorem length_yearText_plain {year : Int} (h : 0 ≤ year ∧ year ≤ 9999) : (yearText year).length = 4 := by
  rw [yearText, if_pos h]
  exact length_padded (by decide) (by omega)

theorem length_yearText_negative {year : Int} (h : -9999 ≤ year ∧ year < 0) : (yearText year).length = 5 := by
  rw [yearText, if_neg (by omega), List.length_cons, length_padded (by decide) (by omega)]

/-- Years of more than four digits, as far as the calendar goes. -/
theorem length_yearText_long {year : Int} (h : 9999 < year.natAbs) (hrange : year.natAbs < 1000000) :
    6 ≤ (yearText year).length ∧ (yearText year).length ≤ 7 := by
  have hmin : ¬ (Nat.toDigits 10 year.natAbs).length ≤ 4 := by
    rw [Nat.length_toDigits_le_iff (by decide) (by decide)]
    omega
  have hmax : (Nat.toDigits 10 year.natAbs).length ≤ 6 := by
    rw [Nat.length_toDigits_le_iff (by decide) (by decide)]
    exact hrange
  rw [yearText, if_neg (by omega), List.length_cons, length_padded_eq_max]
  omega

theorem padded_two {n : Nat} (hn : n < 100) : padded 2 n = padded 1 (n / 10) ++ padded 1 (n % 10) := by
  revert n
  decide

theorem takeNumber_one {n : Nat} (hn : n < 10) : takeNumber 2 (padded 1 n) = some (n, []) := by
  revert n
  decide

end Calendar

open Calendar

/-! ## The first ten bytes -/

theorem dateText_append {first : List Char} (h : Text.byteLength first = 10) (more : List Char) :
    dateText (first ++ more) = first := by
  rw [dateText, ← h, Text.takeBytes_append]
  rfl

/-- What a text of ten bytes keeps of the day behind a year and a month. -/
def keptDay (d : Date) : List Char := ('-' :: padded 2 d.day).take (7 - (yearText d.year).length)

section

variable {d : Date}

theorem byteLength_keptDay (h : 4 ≤ (yearText d.year).length) :
    Text.byteLength (keptDay d) = 7 - (yearText d.year).length := by
  have hday := length_padded (n := d.day) (show 0 < 2 by decide) (day_lt d)
  have hdigits : ((padded 2 d.day).take (6 - (yearText d.year).length)).all Char.isDigit = true :=
    List.all_eq_true.mpr fun c hc =>
      List.all_eq_true.mp (all_isDigit_padded 2 d.day) c (List.mem_of_mem_take hc)
  rcases Nat.lt_or_ge (yearText d.year).length 7 with hlt | hge
  · have hcount : 7 - (yearText d.year).length = (6 - (yearText d.year).length) + 1 := by omega
    have hhyphen : '-'.utf8Size = 1 := rfl
    rw [keptDay, hcount, List.take_succ_cons, Text.byteLength_cons, byteLength_of_all_isDigit hdigits,
      List.length_take, hday, hhyphen]
    omega
  · rw [keptDay, Nat.sub_eq_zero_of_le hge]
    rfl

/-- The first ten bytes of a date are its year, its month and what they keep of its day. -/
theorem dateText_text (hmin : 4 ≤ (yearText d.year).length) (hmax : (yearText d.year).length ≤ 7) :
    dateText d.text.toList = yearText d.year ++ '-' :: (padded 2 d.month ++ keptDay d) := by
  have htext : d.text.toList = (yearText d.year ++ '-' :: (padded 2 d.month ++ keptDay d)) ++
      ('-' :: padded 2 d.day).drop (7 - (yearText d.year).length) := by
    rw [Date.text, writeDate, String.toList_ofList, write_day, List.append_assoc, List.cons_append,
      List.append_assoc, keptDay, List.take_append_drop]
  have hmonth := length_padded (n := d.month) (show 0 < 2 by decide) (month_lt d)
  have hhyphen : '-'.utf8Size = 1 := rfl
  rw [htext]
  refine dateText_append ?_ _
  rw [Text.byteLength_append, Text.byteLength_cons, Text.byteLength_append, byteLength_padded, hmonth, hhyphen,
    byteLength_yearText, byteLength_keptDay hmin]
  omega

theorem keptDay_plain (h : 0 ≤ d.year ∧ d.year ≤ 9999) : keptDay d = '-' :: padded 2 d.day := by
  have hday := length_padded (n := d.day) (show 0 < 2 by decide) (day_lt d)
  rw [keptDay, length_yearText_plain h]
  exact List.take_of_length_le (by rw [List.length_cons, hday])

theorem keptDay_negative (h : -9999 ≤ d.year ∧ d.year < 0) : keptDay d = '-' :: padded 1 (d.day / 10) := by
  have hday := day_lt d
  have hten : (padded 1 (d.day / 10)).length = 1 := length_padded (by decide) (by omega)
  rw [keptDay, length_yearText_negative h, padded_two hday, List.take_succ_cons]
  exact congrArg _ (List.take_left' hten)

theorem keptDay_long (h : 6 ≤ (yearText d.year).length) : keptDay d = ['-'] ∨ keptDay d = [] := by
  rcases Nat.lt_or_ge (yearText d.year).length 7 with hlt | hge
  · have hcount : 7 - (yearText d.year).length = 1 := by omega
    rw [keptDay, hcount]
    exact .inl rfl
  · rw [keptDay, Nat.sub_eq_zero_of_le hge]
    exact .inr rfl

/-- The day is read from what is kept of it. -/
theorem readDate?_eq_keptDay (hmin : 4 ≤ (yearText d.year).length) (hmax : (yearText d.year).length ≤ 7) :
    readDate? d.text = (readItems [.literal '-', .day] { Reading.blank with year := d.year, month := d.month }
      (keptDay d)).bind Reading.date? := by
  have hread : readItems (dayPattern ++ []) .blank (yearText d.year ++ '-' :: (padded 2 d.month ++ keptDay d)) = _ :=
    readItems_month d.year (month_lt d)
  rw [List.append_nil] at hread
  rw [readDate?, dateText_text hmin hmax, readDate, hread]

theorem readDate?_eq_of? (hmin : 4 ≤ (yearText d.year).length) (hmax : (yearText d.year).length ≤ 7)
    {digits : List Char} {n : Nat} (hkept : keptDay d = '-' :: digits) (hread : takeNumber 2 digits = some (n, [])) :
    readDate? d.text = Date.of? d.year d.month n := by
  rw [readDate?_eq_keptDay hmin hmax, hkept, readItems_literal]
  simp only [readItems, Item.read, hread, Option.map_some]
  rfl

end

/-- The date that is read of the text of a date. -/
def cutDate? (d : Date) : Option Date :=
  if 0 ≤ d.year ∧ d.year ≤ 9999 then some d
  else if -9999 ≤ d.year ∧ d.year < 0 then Date.of? d.year d.month (d.day / 10)
  else none

theorem readDate?_text (d : Date) : readDate? d.text = cutDate? d := by
  have hday := day_lt d
  unfold cutDate?
  split
  · rename_i hplain
    have hlength := length_yearText_plain hplain
    have hread := takeNumber_padded hday []
    rw [List.append_nil] at hread
    rw [readDate?_eq_of? (by omega) (by omega) (keptDay_plain hplain) hread, Date.of?_fields]
  split
  · rename_i hnegative
    have hlength := length_yearText_negative hnegative
    have hread : takeNumber 2 (padded 1 (d.day / 10)) = some (d.day / 10, []) := takeNumber_one (by omega)
    exact readDate?_eq_of? (by omega) (by omega) (keptDay_negative hnegative) hread
  · have hrange := d.year_range
    obtain ⟨hmin, hmax⟩ := @length_yearText_long d.year (by omega) (by omega)
    rw [readDate?_eq_keptDay (by omega) hmax]
    rcases keptDay_long hmin with hkept | hkept
    · rw [hkept]
      rfl
    · rw [hkept]
      rfl

/-- The text of a date is read as the date in the years 0 to 9999 only. -/
theorem cutDate?_eq_self_iff {d : Date} : cutDate? d = some d ↔ 0 ≤ d.year ∧ d.year ≤ 9999 := by
  unfold cutDate?
  split
  · rename_i h
    exact iff_of_true rfl h
  split
  · rename_i h _
    refine iff_of_false (fun heq => ?_) h
    have hday : d.day / 10 = d.day := by
      unfold Date.of? at heq
      split at heq
      · exact congrArg Date.day (Option.some.inj heq)
      · cases heq
    have := d.day_range.1
    omega
  · rename_i h _
    exact iff_of_false (Option.some_ne_none d).symm h

/-! ## Decoding -/

theorem decode_date (s : String) :
    DataType.date.decode (.string s) = match readDate? s with
      | some d => .ok (.date d)
      | none => DataType.date.mismatch (.string s) := by
  show (do return Value.date (← DataType.date.orMismatch (.string s) (readDate? s)) : Outcome Value) = _
  cases readDate? s with
  | none => rfl
  | some d => rfl

/-- A date is stored as its text.  It is decoded again in the years 0 to 9999; before them, the tens of its day are
decoded as its day if the month has such a day; anything else is a mismatch. -/
theorem date_decode_encode (boolAsInt : Bool) (d : Date) :
    DataType.date.encode boolAsInt (.date d) = .ok (.string d.text) ∧
    (DataType.date.decode (.string d.text) = .ok (.date d) ↔ 0 ≤ d.year ∧ d.year ≤ 9999) ∧
    DataType.date.decode (.string d.text) = match cutDate? d with
      | some e => .ok (.date e)
      | none => DataType.date.mismatch (.string d.text) := by
  have hdecode := decode_date d.text
  rw [readDate?_text] at hdecode
  refine ⟨rfl, ?_, hdecode⟩
  rw [hdecode, ← cutDate?_eq_self_iff]
  cases cutDate? d with
  | none => exact iff_of_false nofun nofun
  | some e => simp

/-- The twelfth of December before the year zero. -/
def twelfthOfDecember : Date := (Date.of? (-1) 12 12).get rfl

/-- The first of that December. -/
def firstOfDecember : Date := (Date.of? (-1) 12 1).get rfl

/-- The first day of a year of five digits. -/
def tenThousand : Date := (Date.of? 10000 1 1).get rfl

/-- The twelfth is decoded as the first, and a year of five digits is not decoded at all. -/
theorem date_cut_short :
    (DataType.date.encode false (.date twelfthOfDecember) = .ok (.string "-0001-12-12") ∧
      DataType.date.decode (.string "-0001-12-12") = .ok (.date firstOfDecember) ∧ firstOfDecember ≠ twelfthOfDecember) ∧
    DataType.date.encode false (.date tenThousand) = .ok (.string "+10000-01-01") ∧
      DataType.date.decode (.string "+10000-01-01") = DataType.date.mismatch (.string "+10000-01-01") := by
  exact ⟨⟨rfl, rfl, by decide⟩, rfl, rfl⟩

end RecordQuery
