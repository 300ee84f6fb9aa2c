import RecordQuery.Proofs.Text.Numerals
import RecordQuery.Value.Json
set_option autoImplicit false

/-!
# Calendar: dates and moments are read back

What is written with padding is read back: by the pattern that it was written by, and by the loose patterns, which
allow white space between the parts and find none there.  A leap second within a minute is written as the second
after it, so it is that second that is read back (`TimeOfDay.asShown`); every other time has a text of its own.
-/

namespace RecordQuery

/-! ## Leap seconds -/

namespace TimeOfDay

/-- The time is shown as no other one is: it is no leap second, or one at the end of its minute. -/
def HasOwnText (t : TimeOfDay) : Prop := t.nanosecond < 1000000000 ∨ t.second = 59

instance (t : TimeOfDay) : Decidable t.HasOwnText := inferInstanceAs (Decidable (_ ∨ _))

/-- The time that what a clock shows is taken for: within a minute a leap second is shown as the next second. -/
def asShown (t : TimeOfDay) : TimeOfDay :=
  if h : t.HasOwnText then t
  else
    { t with
      second := t.second + 1
      nanosecond := t.nanosecond - 1000000000
      second_lt := Nat.lt_of_le_of_ne t.second_lt fun hlast => h (.inr (Nat.succ.inj hlast))
      nanosecond_lt := Nat.lt_of_le_of_lt (Nat.sub_le _ _) t.nanosecond_lt }

theorem asShown_eq_self_iff {t : TimeOfDay} : t.asShown = t ↔ t.HasOwnText := by
  constructor
  · intro h
    by_contra hown
    rw [asShown, dif_neg hown] at h
    exact Nat.succ_ne_self _ (congrArg second h)
  · intro hown
    rw [asShown, dif_pos hown]

end TimeOfDay

/-- The moment that its text is taken for. -/
def DateTime.asShown (t : DateTime) : DateTime := ⟨t.date, t.time.asShown⟩

theorem DateTime.asShown_eq_self_iff {t : DateTime} : t.asShown = t ↔ t.time.HasOwnText := by
  rw [← TimeOfDay.asShown_eq_self_iff]
  exact ⟨congrArg DateTime.time, congrArg (DateTime.mk t.date)⟩

/-- The first day of a year. -/
def newYear : Date := (Date.of? 2024 1 1).get rfl

/-- A leap second within a minute, the one after 23:56:04. -/
def DateTime.leapWithin : DateTime := ⟨newYear, (TimeOfDay.of? 23 56 4 1000000000).get rfl⟩

namespace Calendar

/-! ## Padded numbers -/

theorem all_isDigit_padded (width n : Nat) : (padded width n).all Char.isDigit = true := by
  simp [padded, Text.all_isDigit_toDigits, List.all_replicate]

theorem digitsValue_padded (width n : Nat) : Text.digitsValue (padded width n) = n := by
  have hzeros : ∀ k : Nat, Nat.ofDigitChars 10 (List.replicate k '0') 0 = 0 := by
    intro k
    induction k with
    | zero => rfl
    | succ k ih =>
      rw [List.replicate_succ, Nat.ofDigitChars_cons]
      exact ih
  show Nat.ofDigitChars 10 _ 0 = n
  rw [padded, Nat.ofDigitChars_append, hzeros, Nat.ofDigitChars_ten_toDigits]

theorem length_padded {width n : Nat} (hwidth : 0 < width) (hn : n < 10 ^ width) :
    (padded width n).length = width := by
  have hle : (Nat.toDigits 10 n).length ≤ width := (Nat.length_toDigits_le_iff (by decide) hwidth).mpr hn
  simp only [padded, List.length_append, List.length_replicate]
  omega

theorem padded_ne_nil (width n : Nat) : padded width n ≠ [] := fun h =>
  Nat.toDigits_ne_nil (List.append_eq_nil_iff.mp h).2

theorem padded_eq_cons (width n : Nat) : ∃ c cs, padded width n = c :: cs ∧ c.isDigit = true :=
  Text.eq_cons_of_all_isDigit (padded_ne_nil width n) (all_isDigit_padded width n)

/-! ## Numbers -/

theorem trimStart_cons {c : Char} (h : Text.isBlank c = false) (cs : List Char) :
    Text.trimStart (c :: cs) = c :: cs := by
  rw [Text.trimStart, List.dropWhile_cons, if_neg (Bool.eq_false_iff.mp h)]

theorem isBlank_of_isDigit {c : Char} (h : c.isDigit = true) : Text.isBlank c = false := by
  have hrange : 48 ≤ c.toNat ∧ c.toNat ≤ 57 := by
    simpa [Char.isDigit, UInt32.le_iff_toNat_le] using h
  rw [Text.isBlank, Bool.eq_false_iff]
  simp only [ne_eq, Bool.or_eq_true, Bool.and_eq_true, decide_eq_true_eq, beq_iff_eq]
  omega

theorem trimStart_padded (width n : Nat) (rest : List Char) :
    Text.trimStart (padded width n ++ rest) = padded width n ++ rest := by
  obtain ⟨c, cs, hcons, hdigit⟩ := padded_eq_cons width n
  rw [hcons, List.cons_append, trimStart_cons (isBlank_of_isDigit hdigit)]

/-- A number of the expected width is read whatever follows. -/
theorem takeDigits_padded {width n : Nat} (hwidth : 0 < width) (hn : n < 10 ^ width) (rest : List Char) :
    takeDigits (some width) (padded width n ++ rest) = some (n, rest) := by
  have hlength := length_padded hwidth hn
  have hrun : ((padded width n ++ rest).takeWhile Char.isDigit).take width = padded width n := by
    rw [List.takeWhile_append_of_pos (List.all_eq_true.mp (all_isDigit_padded width n))]
    exact List.take_left' hlength
  simp only [takeDigits, hrun, if_neg (padded_ne_nil width n), digitsValue_padded, List.drop_left]

/-- A number of any width is read up to what is no digit. -/
theorem takeDigits_run (width n : Nat) {rest : List Char} (hrest : ∀ c ∈ rest.head?, c.isDigit = false) :
    takeDigits none (padded width n ++ rest) = some (n, rest) := by
  have hrun := Text.takeWhile_append_of_all (all_isDigit_padded width n) hrest
  simp only [takeDigits, hrun, if_neg (padded_ne_nil width n), digitsValue_padded, List.drop_left]

theorem takeNumber_padded {n : Nat} (hn : n < 100) (rest : List Char) :
    takeNumber 2 (padded 2 n ++ rest) = some (n, rest) := by
  rw [takeNumber, trimStart_padded, takeDigits_padded (by decide) hn]

/-- A digit is no sign. -/
theorem takeYear_of_isDigit {cs more : List Char} {c : Char} (htrim : Text.trimStart cs = c :: more)
    (hc : c.isDigit = true) :
    takeYear cs = (takeDigits (some 4) (c :: more)).map fun (n, rest) => ((n : Int), rest) := by
  rw [takeYear, htrim]
  split
  · rename_i heq
    rw [(List.cons.inj heq).1] at hc
    cases hc
  · rename_i heq
    rw [(List.cons.inj heq).1] at hc
    cases hc
  · rfl

theorem takeYear_yearText (year : Int) {rest : List Char} (hrest : ∀ c ∈ rest.head?, c.isDigit = false) :
    takeYear (yearText year ++ rest) = some (year, rest) := by
  unfold yearText
  split
  · rename_i hrange
    have hread : takeDigits (some 4) (padded 4 year.toNat ++ rest) = some (year.toNat, rest) :=
      takeDigits_padded (by decide) (by omega) rest
    have hcast : (year.toNat : Int) = year := Int.toNat_of_nonneg hrange.1
    have htrim := trimStart_padded 4 year.toNat rest
    obtain ⟨c, cs, hcons, hdigit⟩ := padded_eq_cons 4 year.toNat
    rw [hcons, List.cons_append] at hread htrim ⊢
    rw [takeYear_of_isDigit htrim hdigit]
    simp only [hread, Option.map_some, hcast]
  · have hread := takeDigits_run 4 year.natAbs hrest
    split
    · rename_i hneg
      have hcast : -(year.natAbs : Int) = year := by omega
      show (takeDigits none (padded 4 year.natAbs ++ rest)).map _ = _
      simp only [hread, Option.map_some, hcast]
    · rename_i hrange hneg
      have hcast : (year.natAbs : Int) = year := by omega
      show (takeDigits none (padded 4 year.natAbs ++ rest)).map _ = _
      simp only [hread, Option.map_some, hcast]

/-- A fraction at the end of a text is read exactly. -/
theorem takeFraction_fractionText {n : Nat} (hn : n < 1000000000) : takeFraction (fractionText n) = some (n, []) := by
  have hread : ∀ {width k : Nat}, 0 < width → width ≤ 9 → k < 10 ^ width →
      takeFraction ('.' :: padded width k) = some (k * Nat.pow 10 (9 - width), []) := by
    intro width k hwidth hle hk
    have hlength := length_padded hwidth hk
    have hdigits := all_isDigit_padded width k
    have hrun : (padded width k).takeWhile Char.isDigit = padded width k := by
      simpa using Text.takeWhile_append_of_all (g := []) hdigits nofun
    have hafter : (padded width k).dropWhile Char.isDigit = [] := by
      simpa using Text.dropWhile_append_of_all (g := []) hdigits nofun
    have hcounted : (padded width k).take 9 = padded width k := List.take_of_length_le (by omega)
    simp only [takeFraction, hrun, hafter, hcounted, if_neg (padded_ne_nil width k), digitsValue_padded, hlength]
  unfold fractionText
  split
  · rename_i hzero
    rw [hzero]
    rfl
  split
  · rw [hread (by decide) (by decide) (by omega)]
    have : n / 1000000 * Nat.pow 10 (9 - 3) = n := by
      show n / 1000000 * 1000000 = n
      omega
    rw [this]
  split
  · rw [hread (by decide) (by decide) (by omega)]
    have : n / 1000 * Nat.pow 10 (9 - 6) = n := by
      show n / 1000 * 1000 = n
      omega
    rw [this]
  · rw [hread (by decide) (by decide) hn]
    exact congrArg (fun k => some (k, [])) (Nat.mul_one n)

/-! ## Items -/

section

variable {r : Reading} {d : Date} {t : TimeOfDay} {items : List Item} {rest : List Char}

/-- A literal is read as itself. -/
theorem readItems_literal (c : Char) : readItems (.literal c :: items) r (c :: rest) = readItems items r rest := by
  simp [readItems, Item.read]

/-- White space that is not there is read as nothing. -/
theorem readItems_space (hrest : ∀ c ∈ rest.head?, Text.isBlank c = false) :
    readItems (.space :: items) r rest = readItems items r rest := by
  cases rest with
  | nil => rfl
  | cons c rest => simp only [readItems, Item.read, trimStart_cons (hrest c rfl)]

theorem readItems_year (hrest : ∀ c ∈ rest.head?, c.isDigit = false) (year : Int) :
    readItems (.year :: items) r (yearText year ++ rest) = readItems items { r with year } rest := by
  simp only [readItems, Item.read, takeYear_yearText year hrest, Option.map_some]

/-- A number of two digits is read by the item that sets it. -/
theorem readItems_number {item : Item} (set : Reading → Nat → Reading)
    (hitem : ∀ r cs, item.read r cs = (takeNumber 2 cs).map fun (n, rest) => (set r n, rest)) {n : Nat}
    (hn : n < 100) : readItems (item :: items) r (padded 2 n ++ rest) = readItems items (set r n) rest := by
  simp only [readItems, hitem, takeNumber_padded hn, Option.map_some]

/-! ### Days -/

theorem month_lt (d : Date) : d.month < 100 := Nat.lt_of_le_of_lt d.month_range.2 (by decide)

theorem day_lt (d : Date) : d.day < 100 := by
  have hdays : daysInMonth d.year d.month ≤ 31 := by
    unfold daysInMonth
    split <;> split <;> omega
  exact Nat.lt_of_le_of_lt (Nat.le_trans d.day_range.2 hdays) (by decide)

theorem write_day (d : Date) (t : TimeOfDay) : dayPattern.flatMap (Item.write d t) =
    yearText d.year ++ '-' :: (padded 2 d.month ++ '-' :: padded 2 d.day) := by
  simp [dayPattern, Item.write]

/-- A year and a month are read up to the day, whatever is left of it. -/
theorem readItems_month (year : Int) {month : Nat} (hmonth : month < 100) :
    readItems (dayPattern ++ items) r (yearText year ++ '-' :: (padded 2 month ++ rest)) =
      readItems (.literal '-' :: .day :: items) { r with year := year, month := month } rest := by
  have hhyphen : ∀ cs, ∀ c ∈ ('-' :: cs).head?, c.isDigit = false := Text.forall_head?_cons rfl
  rw [dayPattern, List.cons_append, readItems_year (hhyphen _), List.cons_append, readItems_literal,
    List.cons_append, readItems_number (fun r n => { r with month := n }) (fun _ _ => rfl) hmonth]
  rfl

/-- The day of a date is read by the pattern that it is written by. -/
theorem readItems_writtenDay :
    readItems (dayPattern ++ items) r (dayPattern.flatMap (Item.write d t) ++ rest) =
      readItems items { r with year := d.year, month := d.month, day := d.day } rest := by
  rw [write_day, List.append_assoc, List.cons_append, List.append_assoc, List.cons_append,
    readItems_month d.year (month_lt d), readItems_literal,
    readItems_number (fun r n => { r with day := n }) (fun _ _ => rfl) (day_lt d)]

/-- The day of a date is read by the loose pattern. -/
theorem readItems_day (hrest : ∀ c ∈ rest.head?, Text.isBlank c = false) :
    readItems (looseDayPattern ++ items) r (dayPattern.flatMap (Item.write d t) ++ rest) =
      readItems items { r with year := d.year, month := d.month, day := d.day } rest := by
  have hdigit : ∀ cs, ∀ c ∈ ('-' :: cs).head?, c.isDigit = false := Text.forall_head?_cons rfl
  have hblank : ∀ cs, ∀ c ∈ ('-' :: cs).head?, Text.isBlank c = false := Text.forall_head?_cons rfl
  have htext : dayPattern.flatMap (Item.write d t) ++ rest =
      yearText d.year ++ '-' :: (padded 2 d.month ++ '-' :: (padded 2 d.day ++ rest)) := by
    simp [write_day]
  rw [htext, looseDayPattern, List.cons_append, readItems_year (hdigit _), List.cons_append,
    readItems_space (hblank _), List.cons_append, readItems_literal, List.cons_append,
    readItems_number (fun r n => { r with month := n }) (fun _ _ => rfl) (month_lt d), List.cons_append,
    readItems_space (hblank _), List.cons_append, readItems_literal, List.cons_append,
    readItems_number (fun r n => { r with day := n }) (fun _ _ => rfl) (day_lt d), List.cons_append,
    readItems_space hrest, List.nil_append]

end

/-- The text of a date is read back by the loose pattern. -/
theorem readDate_text (d : Date) : readDate looseDayPattern d.text.toList = some d := by
  have hread : readItems (looseDayPattern ++ []) .blank (dayPattern.flatMap (Item.write d .midnight) ++ []) = _ :=
    readItems_day nofun
  rw [List.append_nil, List.append_nil] at hread
  rw [readDate, Date.text, writeDate, String.toList_ofList, hread, readItems, if_pos rfl, Option.bind_some]
  exact Date.of?_fields d

/-- The second and fraction that a clock shows are read as the time that they are taken for. -/
theorem time?_shown (r : Reading) (t : TimeOfDay) :
    Reading.time? { r with hour := t.hour, minute := t.minute, second := t.shownSecond,
                           nanosecond := t.shownNanosecond } = some t.asShown := by
  show (if t.shownSecond = 60 then TimeOfDay.of? t.hour t.minute 59 (t.shownNanosecond + 1000000000)
    else TimeOfDay.of? t.hour t.minute t.shownSecond t.shownNanosecond) = some t.asShown
  rw [← TimeOfDay.of?_fields t.asShown, TimeOfDay.shownSecond, TimeOfDay.shownNanosecond]
  have hsecond := t.second_lt
  have hlimit := t.nanosecond_lt
  by_cases hns : t.nanosecond < 1000000000
  · have hself : t.asShown = t := TimeOfDay.asShown_eq_self_iff.mpr (.inl hns)
    rw [hself, Nat.div_eq_of_lt hns, Nat.mod_eq_of_lt hns, Nat.add_zero, if_neg (by omega)]
  have hshown : t.nanosecond / 1000000000 = 1 := by omega
  have hfraction : t.nanosecond % 1000000000 = t.nanosecond - 1000000000 := by omega
  rw [hshown, hfraction]
  by_cases hlast : t.second = 59
  · -- a leap second at the end of its minute
    have hself : t.asShown = t := TimeOfDay.asShown_eq_self_iff.mpr (.inr hlast)
    rw [hself, hlast, if_pos rfl, Nat.sub_add_cancel (Nat.le_of_not_lt hns)]
  · have hown : ¬t.HasOwnText := fun h => h.elim hns hlast
    rw [if_neg (by omega), TimeOfDay.asShown, dif_neg hown]

theorem shownSecond_lt (t : TimeOfDay) : t.shownSecond < 100 := by
  have hsecond := t.second_lt
  have hlimit := t.nanosecond_lt
  unfold TimeOfDay.shownSecond
  omega

theorem write_clock (d : Date) (t : TimeOfDay) : (clockPattern ++ [Item.fraction]).flatMap (Item.write d t) =
    padded 2 t.hour ++ ':' :: (padded 2 t.minute ++ ':' ::
      (padded 2 t.shownSecond ++ fractionText t.shownNanosecond)) := by
  simp [clockPattern, Item.write]

theorem takeFraction_shown (t : TimeOfDay) :
    takeFraction (fractionText t.shownNanosecond) = some (t.shownNanosecond, []) :=
  takeFraction_fractionText (Nat.mod_lt _ (by decide))

/-- The clock time of a moment is read by the pattern that it is written by. -/
theorem readItems_writtenClock {r : Reading} {d : Date} (t : TimeOfDay) :
    readItems (clockPattern ++ [.fraction]) r ((clockPattern ++ [Item.fraction]).flatMap (Item.write d t)) =
      some { r with hour := t.hour, minute := t.minute, second := t.shownSecond,
                    nanosecond := t.shownNanosecond } := by
  have hhour : t.hour < 100 := Nat.lt_trans t.hour_lt (by decide)
  have hminute : t.minute < 100 := Nat.lt_trans t.minute_lt (by decide)
  show readItems [.hour, .literal ':', .minute, .literal ':', .second, .fraction] _ _ = _
  rw [write_clock, readItems_number (fun r n => { r with hour := n }) (fun _ _ => rfl) hhour, readItems_literal,
    readItems_number (fun r n => { r with minute := n }) (fun _ _ => rfl) hminute, readItems_literal,
    readItems_number (fun r n => { r with second := n }) (fun _ _ => rfl) (shownSecond_lt t)]
  simp only [readItems, Item.read, takeFraction_shown, Option.map_some]
  rfl

/-- The clock time of a moment is read by the loose pattern. -/
theorem readItems_clock {r : Reading} {d : Date} (t : TimeOfDay) :
    readItems [.hour, .space, .literal ':', .minute, .space, .literal ':', .second, .fraction, .space] r
        ((clockPattern ++ [Item.fraction]).flatMap (Item.write d t)) =
      some { r with hour := t.hour, minute := t.minute, second := t.shownSecond,
                    nanosecond := t.shownNanosecond } := by
  have hhour : t.hour < 100 := Nat.lt_trans t.hour_lt (by decide)
  have hminute : t.minute < 100 := Nat.lt_trans t.minute_lt (by decide)
  have hcolon : ∀ cs, ∀ c ∈ (':' :: cs).head?, Text.isBlank c = false := Text.forall_head?_cons rfl
  rw [write_clock, readItems_number (fun r n => { r with hour := n }) (fun _ _ => rfl) hhour,
    readItems_space (hcolon _), readItems_literal,
    readItems_number (fun r n => { r with minute := n }) (fun _ _ => rfl) hminute,
    readItems_space (hcolon _), readItems_literal,
    readItems_number (fun r n => { r with second := n }) (fun _ _ => rfl) (shownSecond_lt t)]
  simp only [readItems, Item.read, takeFraction_shown, Option.map_some]
  rfl

/-- The text of a moment with its fraction is read by the loose pattern as the moment that it is taken for. -/
theorem readDateTime_isoText (t : DateTime) :
    readDateTime looseDateTimePattern t.isoText.toList = some t.asShown := by
  have htext : t.isoText.toList = dayPattern.flatMap (Item.write t.date t.time) ++
      'T' :: (clockPattern ++ [Item.fraction]).flatMap (Item.write t.date t.time) := by
    simp [DateTime.isoText, writeDateTime, joinedFractionPattern, Item.write]
  have hT : ∀ cs, ∀ c ∈ ('T' :: cs).head?, Text.isBlank c = false := Text.forall_head?_cons rfl
  rw [readDateTime, htext, looseDateTimePattern, readItems_day (hT _), readItems_literal, readItems_clock,
    Option.bind_some, time?_shown, Reading.date?, Date.of?_fields]
  rfl

/-- The text of a moment without part of a second, with white space before the clock time, is read as the moment
that it is taken for. -/
theorem readDateTime_text {t : DateTime} (ht : t.time.shownNanosecond = 0) :
    readDateTime spacedFractionPattern t.text.toList = some t.asShown := by
  have htext : t.text.toList = dayPattern.flatMap (Item.write t.date t.time) ++
      ' ' :: (clockPattern ++ [Item.fraction]).flatMap (Item.write t.date t.time) := by
    simp [DateTime.text, writeDateTime, spacedPattern, Item.write, ht, fractionText]
  have hpattern : spacedFractionPattern = dayPattern ++ .space :: (clockPattern ++ [.fraction]) := rfl
  have hspace : ∀ r, readItems (.space :: (clockPattern ++ [.fraction])) r
      (' ' :: (clockPattern ++ [Item.fraction]).flatMap (Item.write t.date t.time)) =
        readItems (clockPattern ++ [.fraction]) r
          ((clockPattern ++ [Item.fraction]).flatMap (Item.write t.date t.time)) := by
    intro r
    have htrim := trimStart_padded 2 t.time.hour
    rw [write_clock]
    show readItems _ r (Text.trimStart (padded 2 t.time.hour ++ _)) = _
    rw [htrim]
  rw [readDateTime, htext, hpattern, readItems_writtenDay, hspace, readItems_writtenClock, Option.bind_some,
    time?_shown, Reading.date?, Date.of?_fields]
  rfl

end Calendar

end RecordQuery
