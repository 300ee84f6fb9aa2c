import RecordQuery.Proofs.Dialect.Quoted
set_option autoImplicit false

/-!
# Dialect: SQL text outside of quotes

A string literal or a quoted identifier is one unit of SQL text, and so is every other character.  `Reads` says
which units a text is, whatever follows it, as long as no delimiter does.  A text is `Inert` if outside of quotes
it has neither an exclamation mark nor the letter `i`, so that no part of `!<`, `!>` or `in` can come from it.
Quoted names and strings are inert, and so is what inert texts are joined to.
-/

namespace RecordQuery

/-- A character of SQL text, or a string literal or quoted identifier as a whole. -/
inductive SqlUnit where
  | char (c : Char)
  | quoted
  deriving DecidableEq, Repr, Inhabited

namespace SqlUnit

/-- A character that continues a word or number. -/
def isWordPart : SqlUnit → Bool
  | .char c => Dialect.isWordPart c
  | .quoted => false

/-- A word after the unit is part of a longer word or name. -/
def joins : SqlUnit → Bool
  | .char c => Dialect.isWordPart c || c == '.'
  | .quoted => false

/-- White space. -/
def isSpace : SqlUnit → Bool
  | .char c => Format.isSpace c
  | .quoted => false

/-- No part of `!<`, `!>` or `in`. -/
def isInert : SqlUnit → Bool
  | .char c => c != '!' && c.toLower != 'i'
  | .quoted => true

end SqlUnit

namespace Dialect

/-! ## Units -/

/-- The characters that delimit literals or identifiers in some dialect. -/
def marks : List Char := ['\x27', '\x22', '\x60', '[', ']']

/-- What closes a literal or identifier that a character opens, and whether backslashes escape in it. -/
def delimiter? : Dialect → Char → Option (Char × Bool)
  | d, '\x27' => some ('\x27', d.backslashEscapes)
  | .mysql, '\x22' => some ('\x22', true)
  | .mysql, '\x60' => some ('\x60', false)
  | .mysql, _ => none
  | _, '\x22' => some ('\x22', false)
  | .sqlite, '\x60' => some ('\x60', false)
  | .sqlite, '[' => some (']', false)
  | .sqlserver, '[' => some (']', false)
  | _, _ => none

/-- The units of SQL text; a delimiter that nothing closes is a character. -/
def units (d : Dialect) (cs : List Char) : List SqlUnit :=
  match cs with
  | [] => []
  | c :: rest =>
    match d.delimiter? c with
    | none => .char c :: units d rest
    | some (close, escapes) =>
      match _h : readDelimited close escapes rest with
      | some (_, after) => .quoted :: units d after
      | none => .char c :: units d rest
termination_by cs.length
decreasing_by
  · exact Nat.lt_succ_self _
  · exact Nat.lt_succ_of_lt (readDelimited_length _h)
  · exact Nat.lt_succ_self _

section

variable {d : Dialect} {c : Char} {cs rest : List Char}

theorem delimiter?_eq_none (h : c ∉ marks) : d.delimiter? c = none := by
  simp only [marks, List.mem_cons, List.not_mem_nil, or_false, not_or] at h
  unfold delimiter?
  split <;> simp_all

theorem delimiter?_openDelimiter (d : Dialect) : d.delimiter? d.openDelimiter = some (d.closeDelimiter, false) := by
  cases d <;> rfl

theorem units_nil (d : Dialect) : d.units [] = [] := by rw [units]

theorem units_char (h : c ∉ marks) : d.units (c :: rest) = .char c :: d.units rest := by
  rw [units, delimiter?_eq_none h]

theorem units_delimited {close : Char} {escapes : Bool} {content after : List Char}
    (hc : d.delimiter? c = some (close, escapes)) (h : readDelimited close escapes rest = some (content, after)) :
    d.units (c :: rest) = .quoted :: d.units after := by
  rw [units, hc]
  simp only
  split
  · rename_i hread
    rw [h] at hread
    cases hread
    rfl
  · rename_i hread
    rw [h] at hread
    cases hread

theorem units_append_of_plain (h : ∀ c ∈ cs, c ∉ marks) (rest : List Char) :
    d.units (cs ++ rest) = cs.map .char ++ d.units rest := by
  induction cs with
  | nil => rfl
  | cons c cs ih =>
    obtain ⟨hc, hcs⟩ := List.forall_mem_cons.mp h
    rw [List.cons_append, units_char hc, ih hcs]
    rfl

theorem units_of_plain (h : ∀ c ∈ cs, c ∉ marks) : d.units cs = cs.map .char := by
  rw [← List.append_nil cs, units_append_of_plain h, units_nil, List.append_nil, List.append_nil]

end

/-- No delimiter stands in front, so that a quoted text before it ends there. -/
def Apart (cs : List Char) : Prop := ∀ c ∈ cs.head?, c ∉ marks

/-- A text is read as some units, as long as no delimiter follows. -/
def Reads (d : Dialect) (text : List Char) (us : List SqlUnit) : Prop :=
  ∀ rest, Apart rest → d.units (text ++ rest) = us ++ d.units rest

theorem Apart.append {v rest : List Char} (hv : Apart v) (hrest : Apart rest) : Apart (v ++ rest) := by
  cases v with
  | nil => exact hrest
  | cons c v => exact hv

namespace Reads

variable {d : Dialect} {text v : List Char} {us vs : List SqlUnit}

theorem plain (h : ∀ c ∈ text, c ∉ marks) : Reads d text (text.map .char) :=
  fun rest _ => units_append_of_plain h rest

theorem append (h : Reads d text us) (hv : Reads d v vs) (happart : Apart v) : Reads d (text ++ v) (us ++ vs) := by
  intro rest hrest
  rw [List.append_assoc, h _ (happart.append hrest), hv rest hrest, List.append_assoc]

/-- What is plain may stand in front of anything. -/
theorem plain_append (h : ∀ c ∈ text, c ∉ marks) (hv : Reads d v vs) :
    Reads d (text ++ v) (text.map .char ++ vs) := by
  intro rest hrest
  rw [List.append_assoc, units_append_of_plain h, hv rest hrest, List.append_assoc]

theorem quoteName (d : Dialect) (name : List Char) : Reads d (d.quoteName name) [.quoted] := by
  intro rest hrest
  have hclose : rest.head? ≠ some d.closeDelimiter := by
    intro hhead
    refine hrest _ hhead ?_
    cases d <;> decide
  rw [Dialect.quoteName, List.cons_append, List.cons_append, List.append_assoc, List.singleton_append]
  exact units_delimited d.delimiter?_openDelimiter (readDelimited_doubling name hclose)

theorem quoteString (d : Dialect) (s : String) : Reads d (d.quoteString s).toList [.quoted] := by
  intro rest hrest
  have hquote : rest.head? ≠ some '\x27' := fun hhead => hrest _ hhead (by decide)
  obtain ⟨cs, hcs, hread⟩ := d.readString_quoteString s hquote
  rw [hcs]
  refine units_delimited ?_ hread
  cases d <;> rfl

end Reads

/-! ## Inert text -/

/-- Outside of quotes the text has no part of `!<`, `!>` or `in`. -/
def Inert (d : Dialect) (text : List Char) : Prop := ∃ us, Reads d text us ∧ us.all SqlUnit.isInert = true

/-- A character that is inert wherever it stands. -/
def isInert (c : Char) : Bool := !marks.contains c && (SqlUnit.char c).isInert

theorem not_mem_marks_of_isInert {c : Char} (h : isInert c = true) : c ∉ marks := by
  simp only [isInert, Bool.and_eq_true, Bool.not_eq_true', List.contains_eq_mem, decide_eq_false_iff_not] at h
  exact h.1

theorem apart_of_all {cs : List Char} (h : cs.all isInert = true) : Apart cs := fun c hc =>
  not_mem_marks_of_isInert (List.all_eq_true.mp h c (List.mem_of_mem_head? hc))

theorem apart_append_of_all {cs : List Char} (hne : cs ≠ []) (h : cs.all isInert = true) (rest : List Char) :
    Apart (cs ++ rest) := by
  obtain ⟨c, cs, rfl⟩ := List.exists_cons_of_ne_nil hne
  exact fun c' hc' => apart_of_all h c' hc'

theorem all_isInert_units {cs : List Char} (h : cs.all isInert = true) :
    (cs.map SqlUnit.char).all SqlUnit.isInert = true := by
  rw [List.all_eq_true] at h
  rw [List.all_map, List.all_eq_true]
  intro c hc
  exact (Bool.and_eq_true _ _ ▸ h c hc).2

theorem isInert_of_isSpace {c : Char} (h : Format.isSpace c = true) : isInert c = true := by
  simp only [Format.isSpace, Bool.or_eq_true, beq_iff_eq] at h
  rcases h with ((rfl | rfl) | rfl) | rfl <;> rfl

namespace Inert

variable {d : Dialect} {text v : List Char}

/-- What is inert character by character may stand in front of anything. -/
theorem plain_append (h : text.all isInert = true) (hv : Inert d v) : Inert d (text ++ v) := by
  obtain ⟨vs, hvs, hinert⟩ := hv
  refine ⟨_, hvs.plain_append fun c hc => not_mem_marks_of_isInert (List.all_eq_true.mp h c hc), ?_⟩
  rw [List.all_append, all_isInert_units h, hinert]
  rfl

theorem nil (d : Dialect) : Inert d [] := ⟨[], .plain nofun, rfl⟩

theorem plain (d : Dialect) (h : text.all isInert = true) : Inert d text := by
  have hnil := plain_append h (nil d)
  rwa [List.append_nil] at hnil

theorem append (h : Inert d text) (hv : Inert d v) (happart : Apart v) : Inert d (text ++ v) := by
  obtain ⟨us, hus, husInert⟩ := h
  obtain ⟨vs, hvs, hvsInert⟩ := hv
  exact ⟨us ++ vs, hus.append hvs happart, by rw [List.all_append, husInert, hvsInert]; rfl⟩

theorem quoteName (d : Dialect) (name : List Char) : Inert d (d.quoteName name) := ⟨_, .quoteName d name, rfl⟩

theorem quoteString (d : Dialect) (s : String) : Inert d (d.quoteString s).toList :=
  ⟨_, .quoteString d s, rfl⟩

/-- Inert texts with an inert separator between them. -/
theorem intercalate {separator : List Char} {parts : List (List Char)} (hne : separator ≠ [])
    (hseparator : separator.all isInert = true) (h : ∀ part ∈ parts, Inert d part) :
    Inert d (separator.intercalate parts) := by
  induction parts with
  | nil => exact nil d
  | cons part parts ih =>
    obtain ⟨hpart, hparts⟩ := List.forall_mem_cons.mp h
    cases parts with
    | nil => rwa [List.intercalate_singleton]
    | cons next parts =>
      rw [List.intercalate_cons_cons, List.append_assoc]
      exact hpart.append (plain_append hseparator (ih hparts)) (apart_append_of_all hne hseparator _)

theorem quoteModel (d : Dialect) (name : String) : Inert d (d.quoteModel name).toList := by
  rw [Dialect.quoteModel, String.toList_ofList]
  refine intercalate (List.cons_ne_nil _ _) rfl fun part hpart => ?_
  obtain ⟨name, -, rfl⟩ := List.mem_map.mp hpart
  exact quoteName d name

theorem quoteField (d : Dialect) (name : String) : Inert d (d.quoteField name).toList := by
  rw [Dialect.quoteField, String.toList_ofList]
  exact quoteName d name.toList

theorem joined {texts : List String} (h : ∀ text ∈ texts, Inert d text.toList) :
    Inert d (Text.joined ", " texts).toList := by
  rw [Text.joined, String.toList_intercalate]
  refine intercalate (by decide) (by decide) fun part hpart => ?_
  obtain ⟨text, htext, rfl⟩ := List.mem_map.mp hpart
  exact h text htext

end Inert

end Dialect

end RecordQuery
