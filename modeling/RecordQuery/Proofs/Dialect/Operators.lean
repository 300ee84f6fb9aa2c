import RecordQuery.Proofs.Dialect.Literals
set_option autoImplicit false

/-!
# Dialect: operators outside of quotes

Where SQL text has `!<` or `!>`, and what follows each operator `in`: a word of its own in upper or lower case,
which is no part of a longer word and no name after a dot.  Both are read off the units of the text, and for
both there is a lemma for each kind of text that may stand in front.
-/

namespace RecordQuery

namespace SqlUnit

@[simp] theorem char_beq_char (a b : Char) : (char a == char b) = (a == b) := by
  rw [Bool.eq_iff_iff, beq_iff_eq, beq_iff_eq, char.injEq]

/-! ## Negated comparisons -/

/-- Somewhere the units spell `!<` or `!>`. -/
def hasNegated : List SqlUnit → Bool
  | [] => false
  | u :: rest =>
    (u == .char '!' && (rest.head? == some (.char '<') || rest.head? == some (.char '>'))) || hasNegated rest

/-- What has no exclamation mark spells no part of them. -/
theorem hasNegated_append {us : List SqlUnit} (h : .char '!' ∉ us) (rest : List SqlUnit) :
    hasNegated (us ++ rest) = hasNegated rest := by
  induction us with
  | nil => rfl
  | cons u us ih =>
    rw [List.mem_cons, not_or] at h
    have hu : (u == .char '!') = false := beq_eq_false_iff_ne.mpr (Ne.symm h.1)
    rw [List.cons_append, hasNegated, hu, Bool.false_and, Bool.false_or, ih h.2]

theorem ne_of_isInert {us : List SqlUnit} (h : us.all isInert = true) {c : Char} (hc : .char c ∈ us) :
    c ≠ '!' ∧ c.toLower ≠ 'i' := by
  have hinert := List.all_eq_true.mp h _ hc
  simp only [isInert, Bool.and_eq_true, bne_iff_ne] at hinert
  exact hinert

theorem not_mem_of_isInert {us : List SqlUnit} (h : us.all isInert = true) : .char '!' ∉ us :=
  fun hmem => (ne_of_isInert h hmem).1 rfl

theorem not_mem_of_isWordPart {w : List Char} (h : w.all Dialect.isWordPart = true) : .char '!' ∉ w.map char := by
  intro hmem
  obtain ⟨c, hc, heq⟩ := List.mem_map.mp hmem
  cases heq
  cases List.all_eq_true.mp h _ hc

/-! ## The operator `in` -/

/-- A word starts with the rest of an `in` whose first letter stands before. -/
def endsIn : List SqlUnit → Bool
  | .char n :: rest => n.toLower == 'n' && !rest.head?.any isWordPart
  | _ => false

/-- The word `in`, in upper or lower case. -/
def startsIn : List SqlUnit → Bool
  | .char i :: rest => i.toLower == 'i' && endsIn rest
  | _ => false

/-- What follows each operator `in`; `free` tells whether a word of its own may start. -/
def afterIns : Bool → List SqlUnit → List (List SqlUnit)
  | _, [] => []
  | free, u :: rest =>
    (if free && startsIn (u :: rest) then [rest.drop 1] else []) ++ afterIns (!u.joins) rest

/-- White space and an opening parenthesis. -/
def opensList (us : List SqlUnit) : Bool := (us.dropWhile isSpace).head? == some (.char '(')

/-- Whether a word of its own may start after some units. -/
def freeAfter (free : Bool) : List SqlUnit → Bool
  | [] => free
  | u :: rest => freeAfter (!u.joins) rest

theorem freeAfter_append_singleton (us : List SqlUnit) (u : SqlUnit) (free : Bool) :
    freeAfter free (us ++ [u]) = !u.joins := by
  induction us generalizing free with
  | nil => rfl
  | cons v us ih => exact ih _

/-- White space is no end of an `in`. -/
theorem endsIn_of_isSpace {c : Char} (h : Format.isSpace c = true) (us : List SqlUnit) :
    endsIn (.char c :: us) = false := by
  simp only [Format.isSpace, Bool.or_eq_true, beq_iff_eq] at h
  rcases h with ((rfl | rfl) | rfl) | rfl <;> rfl

section

variable {us rest : List SqlUnit} {w : List Char}

/-- Without the letter `i` there is no `in`. -/
theorem afterIns_append (h : ∀ c, .char c ∈ us → c.toLower ≠ 'i') (free : Bool) (rest : List SqlUnit) :
    afterIns free (us ++ rest) = afterIns (freeAfter free us) rest := by
  induction us generalizing free with
  | nil => rfl
  | cons u us ih =>
    have hstarts : startsIn (u :: (us ++ rest)) = false := by
      cases u with
      | quoted => rfl
      | char c => rw [startsIn, beq_eq_false_iff_ne.mpr (h c List.mem_cons_self), Bool.false_and]
    rw [List.cons_append, afterIns, hstarts, Bool.and_false,
      ih fun c hc => h c (List.mem_cons_of_mem u hc)]
    rfl

theorem afterIns_inert (h : us.all isInert = true) (free : Bool) (rest : List SqlUnit) :
    afterIns free (us ++ rest) = afterIns (freeAfter free us) rest :=
  afterIns_append (fun _ hc => (ne_of_isInert h hc).2) free rest

/-- No word of its own starts in the rest of a word. -/
theorem afterIns_wordRest (hw : w.all Dialect.isWordPart = true) (rest : List SqlUnit) :
    afterIns false (w.map .char ++ rest) = afterIns false rest := by
  induction w with
  | nil => rfl
  | cons c w ih =>
    rw [List.all_cons, Bool.and_eq_true] at hw
    have hjoins : (char c).joins = true := by rw [joins, hw.1, Bool.true_or]
    rw [List.map_cons, List.cons_append, afterIns, hjoins, Bool.not_true, ih hw.2]
    rfl

/-- The units of a word start with `in` only if the word is `in`, or `i` with the rest after it. -/
theorem startsIn_word (hw : w.all Dialect.isWordPart = true) (hne : w ≠ [])
    (hin : w.map Char.toLower ≠ ['i', 'n']) (hi : w.map Char.toLower = ['i'] → endsIn rest = false) :
    startsIn (w.map .char ++ rest) = false := by
  match w, hne with
  | [i], _ =>
    show (i.toLower == 'i' && endsIn rest) = false
    cases hi' : i.toLower == 'i' with
    | false => rfl
    | true => exact hi (by rw [List.map_singleton, beq_iff_eq.mp hi'])
  | [i, n], _ =>
    show (i.toLower == 'i' && (n.toLower == 'n' && _)) = false
    rw [Bool.eq_false_iff]
    intro h
    simp only [Bool.and_eq_true, beq_iff_eq] at h
    exact hin (by rw [List.map_cons, List.map_singleton, h.1, h.2.1])
  | i :: n :: c :: w, _ =>
    simp only [List.all_cons, Bool.and_eq_true] at hw
    show (i.toLower == 'i' && (n.toLower == 'n' && !Dialect.isWordPart c)) = false
    rw [hw.2.2.1, Bool.not_true, Bool.and_false, Bool.and_false]

/-- A word that is not `in` is passed over. -/
theorem afterIns_word (hw : w.all Dialect.isWordPart = true) (hne : w ≠ [])
    (hin : w.map Char.toLower ≠ ['i', 'n']) (hi : w.map Char.toLower = ['i'] → endsIn rest = false)
    (free : Bool) :
    afterIns free (w.map .char ++ rest) = afterIns false rest := by
  have hstarts := startsIn_word hw hne hin hi
  obtain ⟨c, w', rfl⟩ := List.exists_cons_of_ne_nil hne
  rw [List.all_cons, Bool.and_eq_true] at hw
  have hjoins : (char c).joins = true := by rw [joins, hw.1, Bool.true_or]
  rw [List.map_cons, List.cons_append] at hstarts ⊢
  rw [afterIns, hstarts, Bool.and_false, hjoins, Bool.not_true]
  exact afterIns_wordRest hw.2 rest

/-- The word `in` is an operator where a word of its own may start and the word ends. -/
theorem afterIns_in (hw : w.all Dialect.isWordPart = true) (hin : w.map Char.toLower = ['i', 'n']) (free : Bool)
    (rest : List SqlUnit) :
    afterIns free (w.map .char ++ rest) =
      (if free && !rest.head?.any isWordPart then [rest] else []) ++ afterIns false rest := by
  obtain ⟨i, w, rfl, hi, hin⟩ := List.map_eq_cons_iff.mp hin
  obtain ⟨n, w, rfl, hn, hin⟩ := List.map_eq_cons_iff.mp hin
  obtain rfl := List.map_eq_nil_iff.mp hin
  rw [List.all_cons, Bool.and_eq_true] at hw
  have hstarts : startsIn (.char i :: .char n :: rest) = !rest.head?.any isWordPart := by
    show (i.toLower == 'i' && (n.toLower == 'n' && _)) = _
    rw [hi, hn]
    rfl
  have hjoins : (char i).joins = true := by rw [joins, hw.1, Bool.true_or]
  show afterIns free (.char i :: .char n :: rest) = _
  rw [afterIns, hstarts, hjoins, Bool.not_true]
  exact congrArg _ (afterIns_wordRest hw.2 rest)

end

end SqlUnit

/-! ## Operands -/

namespace Dialect

open SqlUnit

/-- No operator comes from the text, neither from it alone nor from its end and a text that starts with no rest
of an `in`; and it opens no list. -/
def Solid (d : Dialect) (text : List Char) : Prop :=
  startsBare text = true ∧ ∃ us, Reads d text us ∧ .char '!' ∉ us ∧
    ∀ rest, endsIn rest = false → ∀ free, ∃ free', afterIns free (us ++ rest) = afterIns free' rest

/-- No operator comes from the text after a dot. -/
def Dotted (d : Dialect) (text : List Char) : Prop :=
  ∃ us, Reads d text us ∧ .char '!' ∉ us ∧ ∀ rest, ∃ free, afterIns false (us ++ rest) = afterIns free rest

section

variable {d : Dialect} {text w gap : List Char}

theorem not_mem_marks_of_isWordPart {c : Char} (h : isWordPart c = true) : c ∉ marks := by
  intro hmem
  simp only [marks, List.mem_cons, List.not_mem_nil, or_false] at hmem
  rcases hmem with rfl | rfl | rfl | rfl | rfl <;> cases h

theorem forall_not_mem_marks (hw : w.all isWordPart = true) : ∀ c ∈ w, c ∉ marks := fun c hc =>
  not_mem_marks_of_isWordPart (List.all_eq_true.mp hw c hc)

theorem reads_word (d : Dialect) (hw : w.all isWordPart = true) : Reads d w (w.map .char) :=
  .plain (forall_not_mem_marks hw)

/-- A text that starts bare opens no list. -/
theorem opensList_units (h : startsBare text = true) : opensList (d.units text) = false := by
  match text with
  | [] => cases h
  | c :: rest =>
    have hbare : Format.isSpace c = false ∧ c ≠ '(' := by
      simpa [startsBare] using h
    have hchar : ∀ us, opensList (.char c :: us) = false := by
      intro us
      rw [opensList, List.dropWhile_cons_of_neg (by simp [isSpace, hbare.1])]
      simp [hbare.2]
    rw [units]
    split
    · exact hchar _
    · split
      · rfl
      · exact hchar _

theorem startsBare_word (hw : w.all isWordPart = true) (hne : w ≠ []) : startsBare w = true := by
  obtain ⟨c, rest, rfl⟩ := List.exists_cons_of_ne_nil hne
  rw [List.all_cons, Bool.and_eq_true] at hw
  rw [startsBare, Bool.and_eq_true, Bool.not_eq_true', bne_iff_ne, Bool.eq_false_iff]
  refine ⟨fun hspace => ?_, ?_⟩
  · simp only [Format.isSpace, Bool.or_eq_true, beq_iff_eq] at hspace
    rcases hspace with ((rfl | rfl) | rfl) | rfl <;> cases hw.1
  · rintro rfl
    cases hw.1

theorem Bare.solid (h : Bare d text) : Solid d text := by
  obtain ⟨⟨us, hus, hinert⟩, hstarts⟩ := h
  exact ⟨hstarts, us, hus, not_mem_of_isInert hinert, fun rest _ free => ⟨_, afterIns_inert hinert free rest⟩⟩

theorem Inert.dotted (h : Inert d text) : Dotted d text := by
  obtain ⟨us, hus, hinert⟩ := h
  exact ⟨us, hus, not_mem_of_isInert hinert, fun rest => ⟨_, afterIns_inert hinert false rest⟩⟩

theorem dotted_word (d : Dialect) (hw : w.all isWordPart = true) : Dotted d w :=
  ⟨_, reads_word d hw, not_mem_of_isWordPart hw, fun rest => ⟨false, afterIns_wordRest hw rest⟩⟩

/-- A word other than `in` is no operator. -/
theorem solid_word (d : Dialect) (hw : w.all isWordPart = true) (hne : w ≠ [])
    (hin : w.map Char.toLower ≠ ['i', 'n']) : Solid d w :=
  ⟨startsBare_word hw hne, _, reads_word d hw, not_mem_of_isWordPart hw, fun _ hrest free =>
    ⟨false, afterIns_word hw hne hin (fun _ => hrest) free⟩⟩

/-- A name may follow after a dot, with white space before the dot. -/
theorem Solid.dot (h : Solid d w) (hgap : gap.all Format.isSpace = true) (htext : Dotted d text) :
    Solid d (w ++ (gap ++ '.' :: text)) := by
  obtain ⟨hstarts, us, hus, husMark, hpass⟩ := h
  obtain ⟨vs, hvs, hvsMark, hvsPass⟩ := htext
  have hinert : (gap ++ ['.']).all isInert = true := by
    have hspace : gap.all isInert = true :=
      List.all_eq_true.mpr fun c hc => isInert_of_isSpace (List.all_eq_true.mp hgap c hc)
    rw [List.all_append, hspace]
    rfl
  have hunits := all_isInert_units hinert
  have hends : ∀ rest, endsIn ((gap ++ ['.']).map .char ++ (vs ++ rest)) = false := by
    intro rest
    cases gap with
    | nil => rfl
    | cons c gap => exact endsIn_of_isSpace (List.all_eq_true.mp hgap c List.mem_cons_self) _
  rw [← List.singleton_append, ← List.append_assoc gap]
  refine ⟨startsBare_append hstarts _, us ++ ((gap ++ ['.']).map .char ++ vs),
    hus.append (hvs.plain_append fun c hc => not_mem_marks_of_isInert (List.all_eq_true.mp hinert c hc))
      (apart_append_of_all (by simp) hinert text), ?_, fun rest _ free => ?_⟩
  · simp only [List.mem_append, not_or]
    exact ⟨husMark, not_mem_of_isInert hunits, hvsMark⟩
  · obtain ⟨free', hfree'⟩ := hpass _ (hends rest) free
    obtain ⟨free'', hfree''⟩ := hvsPass rest
    refine ⟨free'', ?_⟩
    rw [List.append_assoc, List.append_assoc, hfree', afterIns_inert hunits, List.map_append,
      List.map_singleton, freeAfter_append_singleton]
    exact hfree''

end

end Dialect

end RecordQuery
