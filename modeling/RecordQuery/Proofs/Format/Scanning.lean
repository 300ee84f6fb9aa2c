import RecordQuery.Format.Lexeme
set_option autoImplicit false

/-!
# Format: scanning before more text

A plain lexeme is one that is copied into SQL as it stands: a string between single quotes, a number, a word,
a symbol, a parenthesis or a comma.  What follows it does not change it, as long as that cannot continue it
(`scan_append`).  The rest of the file says what each kind of plain lexeme consists of.
-/

namespace RecordQuery.Format

/-! ## Characters -/

/-- A character that ends every plain lexeme before it. -/
def breaks (c : Char) : Bool := !Text.isWordChar c && !isSymbolChar c && c != '\x27' && c != '.'

/-- A text that does not continue a plain lexeme before it. -/
def Breaks (cs : List Char) : Prop := ∀ c ∈ cs.head?, breaks c = true

theorem breaks_nil : Breaks [] := fun _ h => by cases h

theorem breaks_cons {c : Char} (h : breaks c = true) (cs : List Char) : Breaks (c :: cs) := by
  intro d hd
  cases hd
  exact h

theorem isDigit_isWordChar {c : Char} (h : c.isDigit = true) : Text.isWordChar c = true :=
  Text.isWordChar_of_isAlphanum (by simp [Char.isAlphanum, h])

section Breaks

variable {c : Char}

theorem breaks_isWordChar (h : breaks c = true) : Text.isWordChar c = false := by
  simp only [breaks, Bool.and_eq_true, Bool.not_eq_true'] at h
  exact h.1.1.1

theorem breaks_isSymbolChar (h : breaks c = true) : isSymbolChar c = false := by
  simp only [breaks, Bool.and_eq_true, Bool.not_eq_true'] at h
  exact h.1.1.2

theorem breaks_isDigit (h : breaks c = true) : c.isDigit = false := by
  rw [Bool.eq_false_iff]
  intro hd
  have hw := isDigit_isWordChar hd
  rw [breaks_isWordChar h] at hw
  cases hw

theorem breaks_ne_quote (h : breaks c = true) : c ≠ '\x27' := by
  simp only [breaks, Bool.and_eq_true, bne_iff_ne] at h
  exact h.1.2

theorem Breaks.head?_ne_quote {cs : List Char} (h : Breaks cs) : cs.head? ≠ some '\x27' :=
  fun hquote => breaks_ne_quote (h _ hquote) rfl

theorem breaks_ne_dot (h : breaks c = true) : c ≠ '.' := by
  simp only [breaks, Bool.and_eq_true, bne_iff_ne] at h
  exact h.2

end Breaks

/-- A word character is none of the characters that start another lexeme. -/
theorem isWordChar_ordinary {c : Char} (h : Text.isWordChar c = true) :
    isSpace c = false ∧ c ∉ ['\x27', '\x22', '\x7b', '[', '?', '%', '-', '.'] := by
  refine ⟨?_, ?_⟩
  · rw [Bool.eq_false_iff]
    intro hs
    simp only [isSpace, Bool.or_eq_true, beq_iff_eq] at hs
    rcases hs with ((rfl | rfl) | rfl) | rfl <;> cases h
  · intro hmem
    simp only [List.mem_cons, List.not_mem_nil, or_false] at hmem
    rcases hmem with rfl | rfl | rfl | rfl | rfl | rfl | rfl | rfl <;> cases h

/-! ## Runs of characters -/

theorem takeWhile_append_of_breaks {p : Char → Bool} (hp : ∀ c, breaks c = true → p c = false)
    (cs : List Char) {g : List Char} (hg : Breaks g) : (cs ++ g).takeWhile p = cs.takeWhile p := by
  induction cs with
  | nil =>
    cases g with
    | nil => rfl
    | cons c rest => simp [hp c (hg c rfl)]
  | cons c rest ih =>
    rw [List.cons_append, List.takeWhile_cons, List.takeWhile_cons, ih]

theorem all_takeWhile {α : Type} (p : α → Bool) (l : List α) : (l.takeWhile p).all p = true := by
  induction l with
  | nil => rfl
  | cons a rest ih =>
    rw [List.takeWhile_cons]
    split
    · rename_i ha
      rw [List.all_cons, ha, ih]
      rfl
    · rfl

theorem length_takeWhile_le {α : Type} (p : α → Bool) (cs : List α) :
    (cs.takeWhile p).length ≤ cs.length :=
  (List.takeWhile_sublist p).length_le

theorem take_length_takeWhile {α : Type} (p : α → Bool) (cs : List α) :
    cs.take (cs.takeWhile p).length = cs.takeWhile p :=
  (List.prefix_iff_eq_take.mp (List.takeWhile_prefix p)).symm

/-! ## Lexemes before more text -/

/-- The lexeme is copied into SQL as it stands. -/
def Lexeme.isPlain : Lexeme → Bool
  | .sqlString _ => true
  | .number _ => true
  | .word _ => true
  | .symbol _ => true
  | .openParen => true
  | .closeParen => true
  | .comma => true
  | _ => false

theorem scanSqlString_append {cs g content : List Char} {n : Nat} (hg : Breaks g)
    (h : scanSqlString cs = some (content, n)) : scanSqlString (cs ++ g) = some (content, n) := by
  fun_induction scanSqlString cs generalizing content n with
  | case1 rest ih =>
    obtain ⟨⟨s, k⟩, hs, heq⟩ := Option.map_eq_some_iff.mp h
    cases heq
    rw [List.cons_append, List.cons_append, scanSqlString, ih hs]
    rfl
  | case2 rest hrest =>
    cases h
    rw [List.cons_append, scanSqlString]
    intro rest' hrest'
    cases rest with
    | nil =>
      rw [List.nil_append] at hrest'
      rw [hrest'] at hg
      exact breaks_ne_quote (hg _ rfl) rfl
    | cons c rest'' =>
      rw [List.cons_append, List.cons.injEq] at hrest'
      exact hrest rest'' (by rw [hrest'.1])
  | case3 c rest hne hc ih =>
    obtain ⟨⟨s, k⟩, hs, heq⟩ := Option.map_eq_some_iff.mp h
    cases heq
    rw [List.cons_append, scanSqlString, ih hs]
    · rfl
    · exact fun rest' hcc _ => hc hcc
    · exact hc
  | case4 => cases h

theorem scanSqlString_le {cs content : List Char} {n : Nat} (h : scanSqlString cs = some (content, n)) :
    n ≤ cs.length := by
  fun_induction scanSqlString cs generalizing content n with
  | case1 rest ih =>
    obtain ⟨⟨s, k⟩, hs, heq⟩ := Option.map_eq_some_iff.mp h
    cases heq
    have := ih hs
    simp only [List.length_cons]
    omega
  | case2 rest hrest =>
    cases h
    simp
  | case3 c rest hne hc ih =>
    obtain ⟨⟨s, k⟩, hs, heq⟩ := Option.map_eq_some_iff.mp h
    cases heq
    have := ih hs
    simp only [List.length_cons]
    omega
  | case4 => cases h

theorem fractionLength_append (cs : List Char) {g : List Char} (hg : Breaks g) :
    fractionLength (cs ++ g) = fractionLength cs := by
  cases cs with
  | nil =>
    cases g with
    | nil => rfl
    | cons c rest =>
      have hc := breaks_ne_dot (hg c rfl)
      unfold fractionLength
      split
      · rename_i heq
        cases heq
        exact absurd rfl hc
      · rfl
  | cons c rest =>
    by_cases hc : c = '.'
    · subst hc
      simp only [List.cons_append, fractionLength,
        takeWhile_append_of_breaks (fun _ => breaks_isDigit) rest hg]
    · unfold fractionLength
      split
      · rename_i heq
        cases heq
        exact absurd rfl hc
      · rename_i hne _
        split
        · rename_i heq
          cases heq
          exact absurd rfl hc
        · rfl

theorem fractionLength_le (cs : List Char) : fractionLength cs ≤ cs.length := by
  unfold fractionLength
  split
  · rename_i rest
    have := length_takeWhile_le Char.isDigit rest
    simp only
    split
    · omega
    · simp only [List.length_cons]
      omega
  · exact Nat.zero_le _

theorem signLength_le (c : Char) (rest : List Char) : signLength (c :: rest) ≤ 1 := by
  unfold signLength
  split <;> omega

theorem scanNumber_append (c : Char) (rest : List Char) {g : List Char} (hg : Breaks g) :
    scanNumber (c :: (rest ++ g)) = scanNumber (c :: rest) := by
  have hsign : signLength (c :: (rest ++ g)) = signLength (c :: rest) := by
    unfold signLength
    split
    · rename_i heq
      cases heq
      rfl
    · rename_i hne
      split
      · rename_i heq
        cases heq
        exact absurd rfl (hne _)
      · rfl
  have hle := signLength_le c rest
  simp only [scanNumber, hsign]
  rw [← List.cons_append, List.drop_append_of_le_length (by rw [List.length_cons]; omega),
    takeWhile_append_of_breaks (fun _ => breaks_isDigit) _ hg]
  have hdigits := length_takeWhile_le Char.isDigit ((c :: rest).drop (signLength (c :: rest)))
  rw [List.length_drop] at hdigits
  rw [List.drop_append_of_le_length (by rw [List.length_cons] at hdigits ⊢; omega),
    fractionLength_append _ hg]

theorem scanNumber_le {cs : List Char} {n : Nat} (h : scanNumber cs = some n) : n ≤ cs.length := by
  simp only [scanNumber] at h
  split at h
  · cases h
  · cases h
    rename_i hne
    have hdigits := length_takeWhile_le Char.isDigit (cs.drop (signLength cs))
    have hfraction := fractionLength_le
      (cs.drop (signLength cs + ((cs.drop (signLength cs)).takeWhile Char.isDigit).length))
    rw [List.length_drop] at hdigits hfraction
    omega

theorem scanPlain_append (c : Char) (rest : List Char) {g : List Char} (hg : Breaks g) :
    scanPlain c (rest ++ g) = scanPlain c rest := by
  unfold scanPlain
  rw [scanNumber_append c rest hg, takeWhile_append_of_breaks (fun _ => breaks_isWordChar) rest hg,
    takeWhile_append_of_breaks (fun _ => breaks_isSymbolChar) rest hg]
  cases hn : scanNumber (c :: rest) with
  | none => rfl
  | some n =>
    have hle := scanNumber_le hn
    simp only
    rw [← List.cons_append, List.take_append_of_le_length hle]

theorem scanPlain_le (c : Char) (rest : List Char) : (scanPlain c rest).2 ≤ rest.length + 1 := by
  unfold scanPlain
  split
  · rename_i n hn
    exact scanNumber_le hn
  · have hword := length_takeWhile_le Text.isWordChar rest
    have hsymbol := length_takeWhile_le isSymbolChar rest
    repeat' split
    all_goals
      simp only [List.length_cons]
      omega

/-- The characters that start a quoted lexeme or a placeholder. -/
def openers : List Char := ['\x27', '\x22', '\x7b', '[', '?', '%']

/-- Where nothing is opened a number, word, symbol, punctuation mark or single character is scanned. -/
theorem scan_eq_scanPlain {c : Char} (hspace : isSpace c = false) (hopen : c ∉ openers)
    (rest : List Char) : scan c rest = scanPlain c rest := by
  simp only [openers, List.mem_cons, List.not_mem_nil, or_false, not_or] at hopen
  obtain ⟨h₁, h₂, h₃, h₄, h₅, h₆⟩ := hopen
  rw [scan, if_neg (by simp [hspace]), if_neg h₁, if_neg h₂, if_neg h₃, if_neg h₄, if_neg h₅, if_neg h₆]

theorem scan_quote {rest content : List Char} {n : Nat} (h : scanSqlString rest = some (content, n)) :
    scan '\x27' rest = (.sqlString content, n + 1) := by
  rw [scan, if_neg (by decide), if_pos rfl, h]

theorem scan_space {c : Char} (hc : isSpace c = true) (rest : List Char) :
    scan c rest = (.space, 1 + (rest.takeWhile isSpace).length) := by
  rw [scan, if_pos hc]

/-- The lexeme stands for something else than itself, or it is no lexeme of the language. -/
def Lexeme.isOpened : Lexeme → Bool
  | .text _ => true
  | .model _ => true
  | .field _ => true
  | .placeholder _ _ => true
  | .other _ => true
  | _ => false

theorem Lexeme.isOpened_of_isPlain {l : Lexeme} (h : l.isPlain = true) : l.isOpened = false := by
  cases l <;> simp_all [isPlain, isOpened]

theorem scanTuple_isOpened (code : Option (List Char)) (length : Nat) (cs : List Char) :
    (scanTuple code length cs).1.isOpened = true := by
  unfold scanTuple
  split <;> rfl

/-- A text starts with white space, with a quoted string, with something else that is opened, or with
nothing that is opened. -/
theorem scan_cases (c : Char) (rest : List Char) :
    isSpace c = true ∨ (c = '\x27' ∧ ∃ content n, scanSqlString rest = some (content, n)) ∨
      (scan c rest).1.isOpened = true ∨ (isSpace c = false ∧ c ∉ openers) := by
  unfold scan
  split
  · rename_i hspace
    exact .inl hspace
  rename_i hspace
  refine .inr ?_
  split
  · rename_i hquote
    split
    · rename_i s n hs
      exact .inl ⟨hquote, s, n, hs⟩
    · exact .inr (.inl rfl)
  rename_i h₁
  refine .inr ?_
  split
  · split <;> exact .inl rfl
  rename_i h₂
  split
  · split <;> exact .inl rfl
  rename_i h₃
  split
  · split <;> exact .inl rfl
  rename_i h₄
  split
  · exact .inl (scanTuple_isOpened _ _ _)
  rename_i h₅
  split
  · simp only [scanCode]
    split
    · exact .inl rfl
    · exact .inl (scanTuple_isOpened _ _ _)
  rename_i h₆
  exact .inr ⟨by simpa using hspace, by simp [openers, h₁, h₂, h₃, h₄, h₅, h₆]⟩

/-- A number, word, symbol or punctuation mark is scanned where nothing is opened. -/
theorem scanPlain_of_scan {c : Char} {rest : List Char} {l : Lexeme} {n : Nat}
    (h : scan c rest = (l, n)) (hspace : l ≠ .space) (hstring : ∀ content, l ≠ .sqlString content)
    (hopened : l.isOpened = false) : scanPlain c rest = (l, n) := by
  rcases scan_cases c rest with hc | ⟨rfl, content, k, hs⟩ | ho | ⟨hc, ho⟩
  · rw [scan_space hc, Prod.mk.injEq] at h
    exact absurd h.1.symm hspace
  · rw [scan_quote hs, Prod.mk.injEq] at h
    exact absurd h.1.symm (hstring content)
  · rw [h, hopened] at ho
    cases ho
  · rw [← scan_eq_scanPlain hc ho, h]

/-- A plain lexeme is a quoted string, or nothing is opened. -/
theorem scan_of_isPlain {c : Char} {rest : List Char} (h : (scan c rest).1.isPlain = true) :
    (c = '\x27' ∧ ∃ content n, scanSqlString rest = some (content, n)) ∨
      (isSpace c = false ∧ c ∉ openers) := by
  rcases scan_cases c rest with hc | hs | ho | hc
  · rw [scan_space hc] at h
    cases h
  · exact .inl hs
  · rw [Lexeme.isOpened_of_isPlain h] at ho
    cases ho
  · exact .inr hc

/-- A plain lexeme stays what it is before a text that cannot continue it. -/
theorem scan_append {c : Char} {rest g : List Char} (h : (scan c rest).1.isPlain = true)
    (hg : Breaks g) : scan c (rest ++ g) = scan c rest := by
  rcases scan_of_isPlain h with ⟨rfl, content, n, hs⟩ | ⟨hspace, hopen⟩
  · rw [scan_quote hs, scan_quote (scanSqlString_append hg hs)]
  · rw [scan_eq_scanPlain hspace hopen, scan_eq_scanPlain hspace hopen, scanPlain_append c rest hg]

/-- A plain lexeme ends within the text. -/
theorem scan_le {c : Char} {rest : List Char} (h : (scan c rest).1.isPlain = true) :
    (scan c rest).2 ≤ rest.length + 1 := by
  rcases scan_of_isPlain h with ⟨rfl, content, n, hs⟩ | ⟨hspace, hopen⟩
  · rw [scan_quote hs]
    exact Nat.succ_le_succ (scanSqlString_le hs)
  · rw [scan_eq_scanPlain hspace hopen]
    exact scanPlain_le c rest

/-! ## What lexemes consist of -/

theorem scanPlain_symbol {c : Char} {rest text : List Char}
    (h : (scanPlain c rest).1 = .symbol text) : text.all isSymbolChar = true := by
  unfold scanPlain at h
  split at h
  · cases h
  · split at h
    · cases h
    split at h
    · rename_i hc
      cases h
      rw [List.all_cons, hc, all_takeWhile]
      rfl
    repeat' split at h
    all_goals cases h

/-- A symbol consists of symbol characters. -/
theorem scan_symbol {c : Char} {rest text : List Char} (h : (scan c rest).1 = .symbol text) :
    text.all isSymbolChar = true := by
  have hplain : scanPlain c rest = (.symbol text, (scan c rest).2) :=
    scanPlain_of_scan (Prod.ext h rfl) (fun h => by cases h) (fun _ h => by cases h) rfl
  exact scanPlain_symbol (by rw [hplain])

theorem scanPlain_word {c : Char} {rest text : List Char} {n : Nat}
    (h : scanPlain c rest = (.word text, n)) :
    text = c :: rest.takeWhile Text.isWordChar ∧ n = text.length ∧ Text.isWordChar c = true ∧
      scanNumber (c :: rest) = none := by
  unfold scanPlain at h
  split at h
  · cases h
  · rename_i hnumber
    split at h
    · rename_i hc
      cases h
      exact ⟨rfl, rfl, hc, hnumber⟩
    · repeat' split at h
      all_goals cases h

/-- A word consists of all word characters there are, and it starts with no digit. -/
theorem scan_word {c : Char} {rest text : List Char} {n : Nat} (h : scan c rest = (.word text, n)) :
    text = c :: rest.takeWhile Text.isWordChar ∧ n = text.length ∧ Text.isWordChar c = true ∧
      c.isDigit = false := by
  obtain ⟨htext, hn, hc, hnumber⟩ :=
    scanPlain_word (scanPlain_of_scan h (fun h => by cases h) (fun _ h => by cases h) rfl)
  refine ⟨htext, hn, hc, ?_⟩
  rw [Bool.eq_false_iff]
  intro hd
  have hsign : signLength (c :: rest) = 0 := by
    unfold signLength
    split
    · rename_i heq
      cases heq
      cases hd
    · rfl
  simp [scanNumber, hsign, hd] at hnumber

theorem scanPlain_dot {c : Char} {rest : List Char} (h : (scanPlain c rest).1 = .dot) : c = '.' := by
  unfold scanPlain at h
  split at h
  · cases h
  split at h
  · cases h
  split at h
  · cases h
  split at h
  · assumption
  repeat' split at h
  all_goals cases h

/-- A dot is the dot. -/
theorem scan_eq_dot {c : Char} {rest : List Char} (h : (scan c rest).1 = .dot) : c = '.' := by
  have hplain : scanPlain c rest = (.dot, (scan c rest).2) :=
    scanPlain_of_scan (Prod.ext h rfl) (fun h => by cases h) (fun _ h => by cases h) rfl
  exact scanPlain_dot (by rw [hplain])

theorem scan_dot (rest : List Char) : scan '.' rest = (.dot, 1) := by
  rw [scan_eq_scanPlain rfl (by decide)]
  rfl

theorem scanPlain_ne_space (c : Char) (rest : List Char) : (scanPlain c rest).1 ≠ .space := by
  intro h
  unfold scanPlain at h
  split at h
  · cases h
  · repeat' split at h
    all_goals cases h

/-- White space starts with a white space character. -/
theorem scan_eq_space {c : Char} {rest : List Char} (h : (scan c rest).1 = .space) : isSpace c = true := by
  rcases scan_cases c rest with hc | ⟨rfl, content, k, hs⟩ | ho | ⟨hc, ho⟩
  · exact hc
  · rw [scan_quote hs] at h
    cases h
  · rw [h] at ho
    cases ho
  · rw [scan_eq_scanPlain hc ho] at h
    exact absurd h (scanPlain_ne_space c rest)

end RecordQuery.Format
