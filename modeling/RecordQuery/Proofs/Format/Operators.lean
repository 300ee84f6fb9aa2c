import RecordQuery.Proofs.Format.Written
set_option autoImplicit false

/-!
# Format: operators that interpolation copies

The SQL that a format is interpolated to is written for the tokens of the format (`written_of_interpolate`):
values and quoted names are inert whatever they are, and copied text is as the scanner reads it.  The one
exception is a string of the format with a backslash in it, where the dialect reads backslashes as escapes and
the scanner does not.  The operators of the SQL are therefore those of the format, in every dialect.
-/

namespace RecordQuery.Format

open Dialect (Inert Bare Solid Dotted)
open SqlUnit (hasNegated afterIns opensList)
open RecordQuery.Expr (Stage)

/-! ## Strings of a format -/

/-- A string that the scanner reads is a string of the dialect, unless backslashes escape in it. -/
theorem readDelimited_of_scan {cs content rest : List Char} {n : Nat} {escapes : Bool}
    (h : scanSqlString cs = some (content, n)) (hslash : escapes = true → '\\' ∉ content)
    (hrest : rest.head? ≠ some '\x27') :
    Dialect.readDelimited '\x27' escapes (cs.take n ++ rest) = some (content, rest) := by
  fun_induction scanSqlString cs generalizing content n with
  | case1 cs ih =>
    obtain ⟨⟨s, k⟩, hs, heq⟩ := Option.map_eq_some_iff.mp h
    cases heq
    have hread := ih hs fun he hmem => hslash he (List.mem_cons_of_mem _ hmem)
    rw [List.take_succ_cons, List.take_succ_cons, List.cons_append, List.cons_append, Dialect.readDelimited]
    simp [hread]
  | case2 cs hcs =>
    cases h
    exact Dialect.readDelimited_close escapes hrest
  | case3 c cs hne hc ih =>
    obtain ⟨⟨s, k⟩, hs, heq⟩ := Option.map_eq_some_iff.mp h
    cases heq
    have hread := ih hs fun he hmem => hslash he (List.mem_cons_of_mem _ hmem)
    have hescape : (escapes && c == '\\') = false := by
      rw [Bool.eq_false_iff]
      intro he
      rw [Bool.and_eq_true, beq_iff_eq] at he
      exact hslash he.1 (by rw [he.2]; exact List.mem_cons_self)
    rw [List.take_succ_cons, List.cons_append, Dialect.readDelimited_plain hc hescape, hread]
    rfl
  | case4 => cases h

theorem bare_string (d : Dialect) {body content : List Char}
    (h : scanSqlString body = some (content, body.length))
    (hslash : d.backslashEscapes = true → '\\' ∉ content) : Bare d ('\x27' :: body) := by
  refine ⟨⟨[.quoted], fun rest hrest => ?_, rfl⟩, rfl⟩
  have hread := readDelimited_of_scan h hslash fun hhead => hrest _ hhead (by decide)
  rw [List.take_length] at hread
  refine Dialect.units_delimited ?_ hread
  cases d <;> rfl

/-! ## Copied text -/

theorem wordToken_operator {word : List Char} {k : String} (h : (Binding.wordToken word).1 = .operator k) :
    word.map Char.toLower = k.toList ∧ Binding.isKeyword k = true := by
  simp only [Binding.wordToken] at h
  repeat' split at h
  all_goals
    cases h
  rename_i hkeyword
  exact ⟨String.toList_ofList.symm, hkeyword⟩

theorem wordToken_in {word : List Char} (h : word.map Char.toLower = ['i', 'n']) :
    (Binding.wordToken word).1 = .operator "in" := by
  rw [Binding.wordToken, h]
  rfl

/-- A word whose token is an operand is not `in`. -/
theorem solid_of_wordToken (d : Dialect) {word : List Char} (hword : (Lexeme.word word).Allows word)
    (h : (Binding.wordToken word).1.isOperand = true) : Solid d word := by
  refine Dialect.solid_word d (all_isWordPart hword.2.1) hword.2.2 fun hin => ?_
  rw [wordToken_in hin] at h
  cases h

theorem all_isBare_of_isNumberChar {cs : List Char} (h : cs.all isNumberChar = true) :
    cs.all Dialect.isBare = true := by
  rw [List.all_eq_true] at h ⊢
  intro c hc
  have hnumber := h c hc
  simp only [isNumberChar, Bool.or_eq_true, beq_iff_eq] at hnumber
  rcases hnumber with (hdigit | rfl) | rfl
  · exact Dialect.isBare_of_isDigit hdigit
  · rfl
  · rfl

/-- A string of the format means the same to the dialect: no backslash is in it where backslashes escape. -/
def ReadAlike (d : Dialect) (t : Token) : Prop :=
  d.backslashEscapes = true → ∀ type x, t = .literal type (.string x) → '\\' ∉ x.toList

theorem numberToken_isOperand {text : List Char} {position : Nat} {t : Token}
    (h : Binding.numberToken text position = .ok t) : t.isOperand = true := by
  unfold Binding.numberToken at h
  split at h
  · cases h
    rfl
  · split at h
    · cases h
      rfl
    · cases h

/-- The text of a lexeme is written for its token. -/
theorem written_lexeme {d : Dialect} {l : Lexeme} {t : Token} {text : List Char} (ht : copiedToken? l = some t)
    (hallows : l.Allows text) (halike : ReadAlike d t) {ts : List Token} {cs : List Char} (h : Written d ts cs) :
    Written d (t :: ts) (text ++ cs) := by
  cases l with
  | sqlString content =>
    obtain ⟨body, rfl, hscan⟩ := hallows
    cases ht
    refine .operand rfl (bare_string d hscan fun hescapes => ?_).solid h
    have hslash := halike hescapes _ _ rfl
    rwa [String.toList_ofList] at hslash
  | number n =>
    obtain ⟨rfl, hn, hne⟩ := hallows
    cases hnumber : Binding.numberToken text 0 with
    | error fault =>
      rw [copiedToken?, hnumber] at ht
      cases ht
    | ok token =>
      rw [copiedToken?_number hnumber] at ht
      cases ht
      exact .operand (numberToken_isOperand hnumber) (Bare.plain d hne (all_isBare_of_isNumberChar hn)).solid h
  | word w =>
    cases hsubstituted : (Binding.wordToken w).2 with
    | true =>
      rw [copiedToken?, hsubstituted] at ht
      cases ht
    | false =>
      rw [copiedToken?_word hsubstituted] at ht
      cases ht
      have hsolid := solid_of_wordToken d (hallows.1 ▸ hallows)
      obtain ⟨rfl, hw, -⟩ := hallows
      rcases wordToken_copied hsubstituted with hnull | ⟨k, hk⟩ | hfield
      · rw [hnull] at hsolid ⊢
        exact .operand rfl (hsolid rfl) h
      · obtain ⟨hlower, hkeyword⟩ := wordToken_operator hk
        rw [hk]
        exact .keyword hkeyword hlower hw h
      · rw [hfield] at hsolid ⊢
        exact .operand rfl (hsolid rfl) h
  | symbol s =>
    obtain ⟨rfl, hs⟩ := hallows
    cases ht
    exact .symbol hs h
  | openParen =>
    cases hallows
    cases ht
    exact .mark rfl h
  | closeParen =>
    cases hallows
    cases ht
    exact .mark rfl h
  | comma =>
    cases hallows
    cases ht
    exact .mark rfl h
  | _ => cases ht

/-- Copied text is written for its token. -/
theorem written_copied {d : Dialect} {t : Token} {text : List Char} (ht : Copied t text) (halike : ReadAlike d t)
    {ts : List Token} {cs : List Char} (h : Written d ts cs) : Written d (t :: ts) (text ++ cs) := by
  cases ht with
  | outside content => exact .outside rfl h
  | qualified howner hword hgap hname =>
    have hsolid := solid_of_wordToken d howner (by rw [hword]; rfl)
    exact .operand rfl (hsolid.dot hgap (Dialect.dotted_word d (all_isWordPart hname.2.1))) h
  | lexeme ht hallows => exact written_lexeme ht hallows halike h

/-! ## Parts -/

theorem solid_owner {d : Dialect} {owner : String × Bool}
    (h : owner.2 = false → ∃ word, owner.1 = String.ofList word ∧ (Lexeme.word word).Allows word ∧
      Binding.wordToken word = (.field (String.ofList word) false none, false)) :
    Solid d (quotePart d.quoteModel owner.1 owner.2).toList := by
  unfold quotePart
  split
  · exact (Bare.quoteModel d owner.1).solid
  · rename_i hquoted
    obtain ⟨word, hname, hallows, hword⟩ := h (Bool.eq_false_iff.mpr hquoted)
    rw [hname, String.toList_ofList]
    exact solid_of_wordToken d hallows (by rw [hword]; rfl)

theorem dotted_name {d : Dialect} {name : String} {quoted : Bool}
    (h : quoted = false → ∃ word, name = String.ofList word ∧ (Lexeme.word word).Allows word) :
    Dotted d (quotePart d.quoteField name quoted).toList := by
  unfold quotePart
  split
  · exact (Inert.quoteField d name).dotted
  · rename_i hquoted
    obtain ⟨word, rfl, hallows⟩ := h (Bool.eq_false_iff.mpr hquoted)
    rw [String.toList_ofList]
    exact Dialect.dotted_word d (all_isWordPart hallows.2.1)

/-- A list is inert and starts with a parenthesis. -/
theorem inert_list {d : Dialect} {type : DataType} {items : List Value} {texts : List String}
    (h : items.mapM (d.quoteLiteral type) = .ok texts) :
    ∃ text, (if texts.isEmpty then "(NULL)" else "(" ++ Text.joined ", " texts ++ ")").toList = '(' :: text ∧
      Inert d ('(' :: text) := by
  split
  · exact ⟨"NULL)".toList, rfl, .plain d (by decide)⟩
  · refine ⟨(Text.joined ", " texts).toList ++ [')'], ?_, ?_⟩
    · rw [String.toList_append, String.toList_append, List.append_assoc]
      rfl
    · have htexts : ∀ text ∈ texts, Inert d text.toList :=
        Outcome.forall_of_mapM (fun _ _ htext => (Bare.quoteLiteral htext).inert) h
      exact Inert.plain_append (show ['('].all Dialect.isInert = true by decide)
        ((Inert.joined htexts).append (.plain d (by decide)) (Dialect.apart_of_all (by decide)))

/-- What stands for a part is written for its tokens. -/
theorem written_part {d : Dialect} {part : Part} {text : List Char} {sql : String} (hallows : part.Allows text)
    (halike : ∀ t, part = .copied t → ReadAlike d t) (hsql : part.sql d text = .ok sql) {ts : List Token}
    {cs : List Char} (h : Written d ts cs) : Written d (part.tokens ++ ts) (sql.toList ++ cs) := by
  cases part with
  | copied token =>
    cases hsql
    rw [String.toList_ofList]
    exact written_copied hallows (halike token rfl) h
  | value type v => exact .operand rfl (Bare.quoteLiteral hsql).solid h
  | model name => exact .outside rfl h
  | field name =>
    cases hsql
    exact .operand rfl (Bare.quoteField d name).solid h
  | qualified name quoted owner =>
    cases hsql
    have htext : (quotePart d.quoteModel owner.1 owner.2 ++ "." ++ quotePart d.quoteField name quoted).toList =
        (quotePart d.quoteModel owner.1 owner.2).toList ++
          ([] ++ '.' :: (quotePart d.quoteField name quoted).toList) := by
      rw [String.toList_append, String.toList_append, List.append_assoc]
      rfl
    rw [htext]
    exact .operand rfl ((solid_owner hallows.2).dot rfl (dotted_name hallows.1)) h
  | list type items =>
    obtain ⟨texts, htexts, hsql⟩ := Outcome.bind_eq_ok.mp hsql
    cases hsql
    obtain ⟨text, htext, hinert⟩ := inert_list htexts
    rw [htext]
    have hitems : items.map (Token.literal type) =
        (items.map fun v => (type, v)).map fun i => Token.literal i.1 i.2 := by
      rw [List.map_map]
      rfl
    rw [Part.tokens, List.cons_append, List.append_assoc, hitems]
    exact .list hinert h

theorem Written.spaces {d : Dialect} {gap : List Char} (hgap : gap.all isSpace = true) {ts : List Token}
    {cs : List Char} (h : Written d ts cs) : Written d ts (gap ++ cs) := by
  induction gap with
  | nil => exact h
  | cons c rest ih =>
    rw [List.all_cons, Bool.and_eq_true] at hgap
    exact .space hgap.1 (ih hgap.2)

theorem written_of_segments {d : Dialect} {after : List Char} (hafter : after.all isSpace = true)
    {segments : List Segment} (hallows : ∀ s ∈ segments, s.part.Allows s.text)
    (halike : ∀ s ∈ segments, ∀ t, s.part = .copied t → ReadAlike d t) {sql : String}
    (h : segmentsSql d after segments = .ok sql) :
    Written d (segments.flatMap fun s => s.part.tokens) sql.toList := by
  induction segments generalizing sql with
  | nil =>
    cases h
    rw [String.toList_ofList, ← List.append_nil after]
    exact .spaces hafter .nil
  | cons segment segments ih =>
    obtain ⟨hsegment, hsegments⟩ := List.forall_mem_cons.mp hallows
    obtain ⟨halikeSegment, halikeSegments⟩ := List.forall_mem_cons.mp halike
    obtain ⟨text, htext, h⟩ := Outcome.bind_eq_ok.mp h
    obtain ⟨rest, hrest, h⟩ := Outcome.bind_eq_ok.mp h
    cases h
    rw [String.toList_append, String.toList_append, String.toList_ofList, List.append_assoc]
    exact .spaces segment.gap_space (written_part hsegment halikeSegment htext (ih hsegments halikeSegments hrest))

/-! ## Whole formats -/

theorem map_token_spansFrom (position : Nat) (segments : List Segment) :
    (spansFrom position segments).map Spanned.token = segments.flatMap fun s => s.part.tokens := by
  induction segments generalizing position with
  | nil => rfl
  | cons segment segments ih =>
    rw [spansFrom, List.map_append, ih, List.flatMap_cons, Segment.spans, Part.spans, List.map_map]
    exact congrArg (· ++ _) (List.map_id _)

/-- What holds of all copied tokens holds of all copied parts. -/
theorem forall_copied_of_spansFrom {P : Token → Prop} {position : Nat} {segments : List Segment}
    (h : ∀ s ∈ spansFrom position segments, s.substituted = false → P s.token) :
    ∀ s ∈ segments, ∀ t, s.part = .copied t → P t := by
  induction segments generalizing position with
  | nil => exact fun s hs => absurd hs List.not_mem_nil
  | cons segment segments ih =>
    rw [spansFrom, List.forall_mem_append] at h
    refine List.forall_mem_cons.mpr ⟨fun t ht => ?_, ih h.2⟩
    refine h.1 ⟨t, position + Text.byteLength segment.gap,
      position + Text.byteLength segment.gap + Text.byteLength segment.text, false⟩ ?_ rfl
    rw [Segment.spans, ht]
    exact List.mem_singleton.mpr rfl

/-- The SQL of a format is written for the tokens of the format. -/
theorem written_of_interpolate {d : Dialect} {format : String} {b : Binding} {ts : List Spanned} {sql : String}
    (hts : tokenize format b = .ok ts) (hsql : interpolate d format b = .ok sql)
    (halike : ∀ s ∈ ts, s.substituted = false → ReadAlike d s.token) :
    Written d (ts.map Spanned.token) sql.toList := by
  obtain ⟨tiling, hallows⟩ := exists_allowed_tiling hts
  rw [tiling.interpolate_eq d hts] at hsql
  rw [← tiling.spans_eq] at halike ⊢
  rw [map_token_spansFrom]
  exact written_of_segments tiling.after_space hallows (forall_copied_of_spansFrom halike) hsql

theorem any_isNegated_iff {ts : List Spanned} :
    (ts.map Spanned.token).any Token.isNegated = true ↔
      ∃ s ∈ ts, s.token = .operator "!<" ∨ s.token = .operator "!>" := by
  have htoken : ∀ t : Token, t.isNegated = true ↔ t = .operator "!<" ∨ t = .operator "!>" := by
    intro t
    cases t <;> simp [Token.isNegated]
  simp [List.any_map, htoken]

/-- Interpolation keeps the operators of a format that is parsed, whatever the dialect.  Outside of quotes its SQL
has `!<` or `!>` exactly if the format has one of them as an operator.  Each operator `in` of the SQL is one of the
format, in the same order, and an opening parenthesis follows it exactly if a parenthesis or a list placeholder
follows that one; so if they all have one in the format, they have one in the SQL.  Where backslashes escape,
strings of the format may have none in them. -/
theorem interpolated_operators {d : Dialect} {format : String} {b : Binding} {e : Expr} {ts : List Spanned}
    {sql : String} (hparse : Expr.parse format b = .ok e) (hts : tokenize format b = .ok ts)
    (hsql : interpolate d format b = .ok sql)
    (halike : ∀ s ∈ ts, s.substituted = false → ReadAlike d s.token) :
    let us := d.units sql.toList
    (hasNegated us = true ↔ ∃ s ∈ ts, s.token = .operator "!<" ∨ s.token = .operator "!>") ∧
    ((afterIns true us).map opensList).Sublist (insOpened (ts.map Spanned.token)) ∧
    ((insOpened (ts.map Spanned.token)).all id = true → ∀ after ∈ afterIns true us, opensList after = true) := by
  intro us
  obtain ⟨ts', hts', hrun⟩ := Expr.stage_of_parse hparse
  rw [hts] at hts'
  cases hts'
  obtain ⟨hops, -⟩ :=
    (written_of_interpolate hts hsql halike).operators (show Stage.wanted ≠ .listed by decide) hrun
  refine ⟨?_, hops.ins true, fun hopened after hafter => ?_⟩
  · rw [hops.negated, any_isNegated_iff]
  · exact List.all_eq_true.mp hopened _ ((hops.ins true).subset (List.mem_map_of_mem hafter))

/-- A string with `!<` in it and a list after `in`, in MySQL. -/
theorem interpolated_operators_quoted :
    let b : Binding := ⟨[.array [.int 1, .int 2]], []⟩
    let sql := "a != '!<' and b in (1, 2)"
    interpolate .mysql "a != '!<' and b in ?()" b = .ok sql ∧
      hasNegated (Dialect.mysql.units sql.toList) = false ∧
      ∀ after ∈ afterIns true (Dialect.mysql.units sql.toList), opensList after = true := by
  intro b sql
  have htokens : tokenize "a != '!<' and b in ?()" b =
      .ok [⟨.field "a" false none, 0, 1, false⟩, ⟨.operator "!=", 2, 4, false⟩,
        ⟨.literal .plainText (.string "!<"), 5, 9, false⟩, ⟨.operator "and", 10, 13, false⟩,
        ⟨.field "b" false none, 14, 15, false⟩, ⟨.operator "in", 16, 18, false⟩, ⟨.openList .int, 19, 22, true⟩,
        ⟨.literal .int (.int 1), 19, 22, true⟩, ⟨.literal .int (.int 2), 19, 22, true⟩,
        ⟨.closeList, 19, 22, true⟩] := rfl
  have hparse : Expr.parse "a != '!<' and b in ?()" b =
      .ok (.binary (.binary (.raw "a") .ne (.literal .plainText (.string "!<"))) .and
        (.binary (.raw "b") .isIn (.list .int [.int 1, .int 2]))) := by
    rw [Expr.parse_eq_ofTokens htokens]
    rfl
  have hsql : interpolate .mysql "a != '!<' and b in ?()" b = .ok sql := by
    rw [interpolate, htokens]
    rfl
  obtain ⟨hnegated, -, hins⟩ := interpolated_operators hparse htokens hsql (by
    intro s hs _ _ type x hx
    simp only [List.mem_cons, List.not_mem_nil, or_false] at hs
    rcases hs with rfl | rfl | rfl | rfl | rfl | rfl | rfl | rfl | rfl | rfl <;> cases hx
    decide)
  refine ⟨hsql, ?_, hins rfl⟩
  rw [Bool.eq_false_iff, ne_eq, hnegated]
  simp

/-- What interpolation keeps and a dialect does not have: `!<` on Postgres, an `in` before a single value, and a
`!<` that only the scanner takes for part of a string, since MySQL reads the backslash before it as an escape. -/
theorem unportable_operators_kept :
    (∃ e, Expr.parse "a !< 5" ⟨[], []⟩ = .ok e ∧ interpolate .postgres "a !< 5" ⟨[], []⟩ = .ok "a !< 5" ∧
      hasNegated (Dialect.postgres.units "a !< 5".toList) = true) ∧
    (∃ e, Expr.parse "a in ?" ⟨[.int 5], []⟩ = .ok e ∧
      interpolate .postgres "a in ?" ⟨[.int 5], []⟩ = .ok "a in 5" ∧
      ∃ after ∈ afterIns true (Dialect.postgres.units "a in 5".toList), opensList after = false) ∧
    (∃ e, Expr.parse "a = 'x\\' and b = ' !< '" ⟨[], []⟩ = .ok e ∧
      interpolate .mysql "a = 'x\\' and b = ' !< '" ⟨[], []⟩ = .ok "a = 'x\\' and b = ' !< '" ∧
      hasNegated (Dialect.mysql.units "a = 'x\\' and b = ' !< '".toList) = true) := by
  have hnegated : tokenize "a !< 5" ⟨[], []⟩ =
      .ok [⟨.field "a" false none, 0, 1, false⟩, ⟨.operator "!<", 2, 4, false⟩,
        ⟨.literal .int (.int 5), 5, 6, false⟩] := rfl
  have hin : tokenize "a in ?" ⟨[.int 5], []⟩ =
      .ok [⟨.field "a" false none, 0, 1, false⟩, ⟨.operator "in", 2, 4, false⟩,
        ⟨.literal .int (.int 5), 5, 6, true⟩] := rfl
  have hslash : tokenize "a = 'x\\' and b = ' !< '" ⟨[], []⟩ =
      .ok [⟨.field "a" false none, 0, 1, false⟩, ⟨.operator "=", 2, 3, false⟩,
        ⟨.literal .plainText (.string "x\\"), 4, 8, false⟩, ⟨.operator "and", 9, 12, false⟩,
        ⟨.field "b" false none, 13, 14, false⟩, ⟨.operator "=", 15, 16, false⟩,
        ⟨.literal .plainText (.string " !< "), 17, 23, false⟩] := rfl
  refine ⟨⟨.binary (.raw "a") .notLt (.literal .int (.int 5)), ?_, ?_, ?_⟩,
    ⟨.binary (.raw "a") .isIn (.list .int [.int 5]), ?_, ?_, ?_⟩,
    ⟨.binary (.binary (.raw "a") .eq (.literal .plainText (.string "x\\"))) .and
      (.binary (.raw "b") .eq (.literal .plainText (.string " !< "))), ?_, ?_, ?_⟩⟩
  · rw [Expr.parse_eq_ofTokens hnegated]
    rfl
  · rw [interpolate, hnegated]
    rfl
  · rw [Dialect.units_of_plain (by simp [Dialect.marks])]
    rfl
  · rw [Expr.parse_eq_ofTokens hin]
    rfl
  · rw [interpolate, hin]
    rfl
  · rw [Dialect.units_of_plain (by simp [Dialect.marks])]
    exact ⟨[.char ' ', .char '5'], by decide, rfl⟩
  · rw [Expr.parse_eq_ofTokens hslash]
    rfl
  · rw [interpolate, hslash]
    rfl
  · have hread : Dialect.readDelimited '\x27' true "x\\' and b = ' !< '".toList =
        some ("x' and b = ".toList, " !< ".toList ++ ['\x27']) := by
      simp [Dialect.readDelimited, Dialect.unescaped]
    have htext : "a = 'x\\' and b = ' !< '".toList =
        "a = ".toList ++ '\x27' :: "x\\' and b = ' !< '".toList := by decide
    rw [htext, Dialect.units_append_of_plain (by simp [Dialect.marks]), Dialect.units_delimited rfl hread,
      Dialect.units_append_of_plain (by simp [Dialect.marks])]
    rfl

end RecordQuery.Format
