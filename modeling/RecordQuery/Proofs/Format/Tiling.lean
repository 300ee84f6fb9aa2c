import RecordQuery.Proofs.Format.Faults
import RecordQuery.Proofs.Format.Segments
set_option autoImplicit false

/-!
# Format: spans tile the format

The spans of tokens are ranges of whole characters, they come one after the other, and between them stands
white space alone.  Interpolating cuts the format at these ranges, so no cut falls outside of the format or
into a character, and replaces the spans of substituted tokens only.
-/

namespace RecordQuery

namespace Text

/-- The text between two byte offsets that are in order and both character boundaries. -/
def cut? (cs : List Char) (start stop : Nat) : Option (List Char) :=
  if start ≤ stop then slice? cs start stop else none

theorem cut?_append (a b c : List Char) :
    cut? (a ++ (b ++ c)) (byteLength a) (byteLength a + byteLength b) = some b := by
  rw [cut?, if_pos (Nat.le_add_right _ _), slice?, dropBytes_append, Option.bind_some,
    Nat.add_sub_cancel_left, takeBytes_append]

theorem slice_of_cut? {cs a : List Char} {start stop : Nat} (h : cut? cs start stop = some a) :
    slice cs start stop = a := by
  unfold cut? at h
  split at h
  · rw [slice, h, Option.getD_some]
  · cases h

end Text

namespace Format

/-! ## Interpolation with every cut checked -/

/-- The SQL text from byte `copied` on, or nothing if a cut that it needs is no range of whole characters of
the format. -/
def interpolateFrom? (d : Dialect) (format : List Char) : Nat → List Spanned → Nat → Option (Outcome String)
  | _, [], copied => do
    let rest ← Text.cut? format copied (Text.byteLength format)
    return .ok (String.ofList rest)
  | skip + 1, _ :: rest, copied => interpolateFrom? d format skip rest copied
  | 0, s :: rest, copied => do
    let between ← Text.cut? format copied s.start
    let _ ← Text.cut? format s.start s.stop
    match replacement d format s rest with
    | .error fault => return .error fault
    | .ok (text, taken) => do
      let tail ← interpolateFrom? d format taken rest s.stop
      return do return String.ofList between ++ text ++ (← tail)

/-- Where every cut is a range of whole characters, interpolation answers the same. -/
theorem interpolateFrom_of_checked {d : Dialect} {format : List Char} {skip copied : Nat}
    {ts : List Spanned} {answer : Outcome String}
    (h : interpolateFrom? d format skip ts copied = some answer) :
    interpolateFrom d format skip ts copied = answer := by
  induction ts generalizing skip copied answer with
  | nil =>
    obtain ⟨rest, hrest, h⟩ := Option.bind_eq_some_iff.mp h
    cases h
    rw [interpolateFrom, Text.slice_of_cut? hrest]
  | cons s rest ih =>
    cases skip with
    | succ skip => exact ih h
    | zero =>
      obtain ⟨between, hbetween, h⟩ := Option.bind_eq_some_iff.mp h
      obtain ⟨kept, -, h⟩ := Option.bind_eq_some_iff.mp h
      rw [interpolateFrom, Text.slice_of_cut? hbetween]
      split at h
      · rename_i fault hfault
        cases h
        rw [hfault]
        rfl
      · rename_i text taken htext
        obtain ⟨tail, htail, h⟩ := Option.bind_eq_some_iff.mp h
        cases h
        rw [htext, ← ih htail]
        rfl

theorem interpolateFrom?_skip (d : Dialect) (format : List Char) (skipped rest : List Spanned)
    (copied : Nat) : interpolateFrom? d format skipped.length (skipped ++ rest) copied =
      interpolateFrom? d format 0 rest copied := by
  induction skipped with
  | nil => rfl
  | cons s skipped ih => exact ih

theorem leadingLiterals_list (type : DataType) (items : List Value) (start stop : Nat) (substituted : Bool)
    (rest : List Spanned) :
    leadingLiterals ((items.map (Token.literal type) ++ [Token.closeList]).map
      (fun t => Spanned.mk t start stop substituted) ++ rest) = items.map (type, ·) := by
  induction items with
  | nil => rfl
  | cons v items ih => exact congrArg ((type, v) :: ·) ih

/-- The first token of a part is replaced by what stands for the part, and takes the other tokens with it. -/
theorem replacement_part {d : Dialect} {format text : List Char} {part : Part} {start stop : Nat}
    {s : Spanned} {others rest : List Spanned} (hspans : part.spans start stop = s :: others)
    (htext : Text.slice format start stop = text) :
    replacement d format s (others ++ rest) = (do return (← part.sql d text, others.length)) := by
  subst htext
  cases part with
  | list type items =>
    obtain ⟨rfl, rfl⟩ := List.cons.inj hspans
    have hmapM : ((items.map (type, ·)).mapM fun item => d.quoteLiteral item.1 item.2) =
        items.mapM (d.quoteLiteral type) := List.mapM_map
    simp only [replacement, leadingLiterals_list, hmapM, Part.substituted, Part.sql, Bool.not_true,
      Bool.false_eq_true, if_false]
    cases htexts : items.mapM (d.quoteLiteral type) with
    | error fault => rfl
    | ok texts =>
      have hlength := Outcome.length_of_mapM htexts
      simp [hlength]
  | _ =>
    cases hspans
    rfl

/-- The tokens of a segment are written as what stands for its part. -/
theorem interpolateFrom?_segment (d : Dialect) (before after : List Char) (segment : Segment)
    (rest : List Spanned) :
    interpolateFrom? d (before ++ (segment.chars ++ after)) 0
        (segment.spans (Text.byteLength before) ++ rest) (Text.byteLength before) =
      match segment.part.sql d segment.text with
      | .error fault => some (.error fault)
      | .ok sql => do
        let tail ← interpolateFrom? d (before ++ (segment.chars ++ after)) 0 rest
          (Text.byteLength (before ++ segment.chars))
        return do return String.ofList segment.gap ++ sql ++ (← tail) := by
  obtain ⟨gap, text, part, -, -, -⟩ := segment
  simp only [Segment.chars, Segment.spans, List.append_assoc]
  have hgap := Text.cut?_append before gap (text ++ after)
  have htext := Text.cut?_append (before ++ gap) text after
  rw [List.append_assoc, Text.byteLength_append] at htext
  obtain ⟨s, others, hspans⟩ := List.exists_cons_of_ne_nil
    (part.spans_ne_nil (Text.byteLength before + Text.byteLength gap)
      (Text.byteLength before + Text.byteLength gap + Text.byteLength text))
  obtain ⟨hstart, hstop, -⟩ := Part.mem_spans (hspans ▸ List.mem_cons_self)
  rw [hspans, List.cons_append, interpolateFrom?, hstart, hstop, hgap, htext,
    replacement_part hspans (Text.slice_of_cut? htext)]
  cases part.sql d text with
  | error fault => rfl
  | ok sql =>
    simp only [Outcome.ok_bind, Option.bind_eq_bind, Option.bind_some, Text.byteLength_append,
      ← Nat.add_assoc]
    show Option.bind (interpolateFrom? _ _ _ _ _) _ = _
    rw [interpolateFrom?_skip]

/-- Every cut that interpolation makes is a range of whole characters, and the segments become SQL one after
the other. -/
theorem interpolateFrom?_segments (d : Dialect) (segments : List Segment) (before after : List Char) :
    interpolateFrom? d (before ++ (segments.flatMap Segment.chars ++ after)) 0
        (spansFrom (Text.byteLength before) segments) (Text.byteLength before) =
      some (segmentsSql d after segments) := by
  induction segments generalizing before with
  | nil =>
    have hcut := Text.cut?_append before after []
    rw [List.append_nil, ← Text.byteLength_append] at hcut
    rw [spansFrom, List.flatMap_nil, List.nil_append, interpolateFrom?, hcut]
    rfl
  | cons segment segments ih =>
    have htail := ih (before ++ segment.chars)
    rw [List.append_assoc] at htail
    rw [spansFrom, List.flatMap_cons, List.append_assoc, interpolateFrom?_segment,
      ← Text.byteLength_append, htail, segmentsSql]
    cases segment.part.sql d segment.text <;> rfl

/-! ## Copied formats -/

/-- Segments that are all copied are their own SQL. -/
theorem segmentsSql_copied (d : Dialect) (after : List Char) {segments : List Segment}
    (h : ∀ s ∈ segments, s.part.substituted = false) :
    segmentsSql d after segments = .ok (String.ofList (segments.flatMap Segment.chars ++ after)) := by
  induction segments with
  | nil => rfl
  | cons segment segments ih =>
    obtain ⟨hsegment, hsegments⟩ := List.forall_mem_cons.mp h
    have hsql : segment.part.sql d segment.text = .ok (String.ofList segment.text) := by
      cases hpart : segment.part with
      | copied token => rfl
      | _ =>
        rw [hpart] at hsegment
        cases hsegment
    rw [segmentsSql, hsql, ih hsegments, List.flatMap_cons, Segment.chars]
    show Except.ok _ = _
    simp only [← String.ofList_append, List.append_assoc]

theorem copied_of_spansFrom {position : Nat} {segments : List Segment}
    (h : ∀ s ∈ spansFrom position segments, s.substituted = false) :
    ∀ s ∈ segments, s.part.substituted = false := by
  induction segments generalizing position with
  | nil => exact fun s hs => absurd hs List.not_mem_nil
  | cons segment segments ih =>
    rw [spansFrom, List.forall_mem_append] at h
    refine List.forall_mem_cons.mpr ⟨?_, ih h.2⟩
    obtain ⟨s, hs⟩ := List.exists_mem_of_ne_nil _ (segment.part.spans_ne_nil
      (position + Text.byteLength segment.gap)
      (position + Text.byteLength segment.gap + Text.byteLength segment.text))
    rw [← (Part.mem_spans hs).2.2]
    exact h.1 s hs

/-! ## Order of spans -/

theorem byteLength_pos {cs : List Char} (h : cs ≠ []) : 0 < Text.byteLength cs := by
  cases cs with
  | nil => exact absurd rfl h
  | cons c rest => exact Nat.add_pos_left (Char.utf8Size_pos c) _

/-- The spans of segments are not empty and start where the segments start or later. -/
theorem le_start_of_mem_spansFrom {position : Nat} {segments : List Segment} {s : Spanned}
    (h : s ∈ spansFrom position segments) : position ≤ s.start ∧ s.start < s.stop := by
  induction segments generalizing position with
  | nil => exact absurd h List.not_mem_nil
  | cons segment segments ih =>
    rcases List.mem_append.mp h with h | h
    · obtain ⟨hstart, hstop, -⟩ := Part.mem_spans h
      have hpos := byteLength_pos segment.text_ne_nil
      omega
    · have := ih h
      omega

/-- A token has the span of a segment, or it comes after the segment. -/
theorem mem_spansFrom_cons {position : Nat} {segment : Segment} {segments : List Segment} {s : Spanned}
    (h : s ∈ spansFrom position (segment :: segments)) :
    s ∈ segment.spans position ∨
      (s ∈ spansFrom (position + Text.byteLength segment.chars) segments ∧
        ∀ r ∈ segment.spans position, r.start < s.start ∧ r.stop ≤ s.start) := by
  refine (List.mem_append.mp h).imp_right fun hs => ⟨hs, fun r hr => ?_⟩
  obtain ⟨hstart, hstop, -⟩ := Part.mem_spans hr
  have hle := (le_start_of_mem_spansFrom hs).1
  have hpos := byteLength_pos segment.text_ne_nil
  rw [Segment.chars, Text.byteLength_append] at hle
  omega

theorem pairwise_spansFrom (position : Nat) (segments : List Segment) :
    (spansFrom position segments).Pairwise fun s t =>
      (s.start = t.start ∧ s.stop = t.stop) ∨ s.stop ≤ t.start := by
  induction segments generalizing position with
  | nil => exact .nil
  | cons segment segments ih =>
    refine List.pairwise_append.mpr ⟨?_, ih _, ?_⟩
    · refine List.pairwise_iff_forall_sublist.mpr fun {s t} hst => .inl ?_
      obtain ⟨hs, hs', -⟩ := Part.mem_spans (hst.subset List.mem_cons_self)
      obtain ⟨ht, ht', -⟩ := Part.mem_spans (hst.subset (List.mem_cons_of_mem _ List.mem_cons_self))
      exact ⟨hs.trans ht.symm, hs'.trans ht'.symm⟩
    · intro s hs t ht
      obtain ⟨-, hstop, -⟩ := Part.mem_spans hs
      have hle := (le_start_of_mem_spansFrom ht).1
      rw [Segment.chars, Text.byteLength_append] at hle
      exact .inr (by omega)

/-- The tokens that share a span are those of one segment. -/
theorem sharing_spansFrom {position : Nat} {segments : List Segment} {s : Spanned}
    (h : s ∈ spansFrom position segments) :
    ∃ segment ∈ segments, ((spansFrom position segments).filter fun t =>
      t.start = s.start ∧ t.stop = s.stop).map Spanned.token = segment.part.tokens := by
  induction segments generalizing position with
  | nil => exact absurd h List.not_mem_nil
  | cons segment segments ih =>
    rw [spansFrom, List.filter_append]
    rcases mem_spansFrom_cons h with hs | ⟨hs, hbefore⟩
    · obtain ⟨hstart, hstop, -⟩ := Part.mem_spans hs
      refine ⟨segment, List.mem_cons_self, ?_⟩
      rw [List.filter_eq_self.mpr, List.filter_eq_nil_iff.mpr, List.append_nil]
      · simp [Segment.spans, Part.spans, Function.comp_def]
      · intro t ht
        have hle := (le_start_of_mem_spansFrom ht).1
        have hpos := byteLength_pos segment.text_ne_nil
        rw [Segment.chars, Text.byteLength_append] at hle
        simp only [decide_eq_true_eq]
        omega
      · intro t ht
        obtain ⟨hstart', hstop', -⟩ := Part.mem_spans ht
        simp [hstart, hstop, hstart', hstop']
    · obtain ⟨found, hfound, hfilter⟩ := ih hs
      refine ⟨found, List.mem_cons_of_mem _ hfound, ?_⟩
      rw [List.filter_eq_nil_iff.mpr, List.nil_append, hfilter]
      intro t ht
      have := (hbefore t ht).1
      simp only [decide_eq_true_eq]
      omega

/-- A span is a range of whole characters of the format. -/
theorem cut?_of_mem_spansFrom {before after : List Char} {segments : List Segment} {s : Spanned}
    (h : s ∈ spansFrom (Text.byteLength before) segments) :
    (Text.cut? (before ++ (segments.flatMap Segment.chars ++ after)) s.start s.stop).isSome = true := by
  induction segments generalizing before with
  | nil => exact absurd h List.not_mem_nil
  | cons segment segments ih =>
    rw [List.flatMap_cons, List.append_assoc]
    rcases List.mem_append.mp h with h | h
    · obtain ⟨hstart, hstop, -⟩ := Part.mem_spans h
      have htext := Text.cut?_append (before ++ segment.gap) segment.text
        (segments.flatMap Segment.chars ++ after)
      rw [List.append_assoc, Text.byteLength_append] at htext
      rw [hstart, hstop, Segment.chars, List.append_assoc, htext]
      rfl
    · rw [← Text.byteLength_append] at h
      have hcut := ih h
      rwa [List.append_assoc] at hcut

/-! ## Bytes outside of spans -/

/-- The UTF-8 form of some characters. -/
def bytesOf (cs : List Char) : List UInt8 := cs.flatMap String.utf8EncodeChar

theorem bytesOf_append (a b : List Char) : bytesOf (a ++ b) = bytesOf a ++ bytesOf b := List.flatMap_append

theorem length_bytesOf (cs : List Char) : (bytesOf cs).length = Text.byteLength cs := by
  induction cs with
  | nil => rfl
  | cons c rest ih =>
    rw [bytesOf, List.flatMap_cons, List.length_append, String.length_utf8EncodeChar, Text.byteLength_cons]
    exact congrArg _ ih

theorem utf8_eq_bytesOf (s : String) : Text.utf8 s = bytesOf s.toList := by
  have hencoded : s.toUTF8 = (bytesOf s.toList).toByteArray := (String.utf8Encode_toList (b := s)).symm
  rw [Text.utf8, hencoded, List.toList_data_toByteArray]

/-- The bytes of white space. -/
def spaceBytes : List UInt8 := [0x20, 0x09, 0x0D, 0x0A]

theorem utf8EncodeChar_of_isSpace {c : Char} (h : isSpace c = true) :
    ∀ byte ∈ String.utf8EncodeChar c, byte ∈ spaceBytes := by
  intro byte hbyte
  simp only [isSpace, Bool.or_eq_true, beq_iff_eq] at h
  rcases h with ((rfl | rfl) | rfl) | rfl
  all_goals
    rw [List.mem_singleton.mp hbyte]
    decide

theorem mem_spaceBytes_of_isSpace {gap : List Char} (h : gap.all isSpace = true) :
    ∀ byte ∈ bytesOf gap, byte ∈ spaceBytes := by
  intro byte hbyte
  obtain ⟨c, hc, hbyte⟩ := List.mem_flatMap.mp hbyte
  exact utf8EncodeChar_of_isSpace (List.all_eq_true.mp h c hc) byte hbyte

/-- A byte of the segments that no span covers is white space. -/
theorem mem_spaceBytes_of_not_covered {after : List Char} (hafter : after.all isSpace = true)
    {segments : List Segment} (position : Nat) {k : Nat} {byte : UInt8}
    (hbyte : (bytesOf (segments.flatMap Segment.chars ++ after))[k]? = some byte)
    (houtside : ∀ s ∈ spansFrom position segments, ¬ (s.start ≤ position + k ∧ position + k < s.stop)) :
    byte ∈ spaceBytes := by
  induction segments generalizing position k with
  | nil => exact mem_spaceBytes_of_isSpace hafter byte (List.mem_of_getElem? hbyte)
  | cons segment segments ih =>
    rw [spansFrom, List.forall_mem_append] at houtside
    obtain ⟨hsegment, hsegments⟩ := houtside
    rw [List.flatMap_cons, List.append_assoc, Segment.chars, List.append_assoc, bytesOf_append] at hbyte
    by_cases hgap : k < Text.byteLength segment.gap
    · rw [List.getElem?_append_left (by rwa [length_bytesOf])] at hbyte
      exact mem_spaceBytes_of_isSpace segment.gap_space byte (List.mem_of_getElem? hbyte)
    -- the byte is not in the text of the segment, which its tokens cover
    have htext : Text.byteLength segment.gap + Text.byteLength segment.text ≤ k := by
      obtain ⟨s, hs⟩ := List.exists_mem_of_ne_nil _ (segment.part.spans_ne_nil
        (position + Text.byteLength segment.gap)
        (position + Text.byteLength segment.gap + Text.byteLength segment.text))
      obtain ⟨hstart, hstop, -⟩ := Part.mem_spans hs
      have := hsegment s hs
      omega
    rw [← bytesOf_append, ← List.append_assoc, bytesOf_append, List.getElem?_append_right
      (by rwa [length_bytesOf, Text.byteLength_append]), length_bytesOf, Text.byteLength_append] at hbyte
    refine ih (position + Text.byteLength segment.chars) hbyte fun s hs hcovered => ?_
    refine hsegments s hs ?_
    rw [Segment.chars, Text.byteLength_append] at hcovered
    omega

/-! ## Whole formats -/

namespace Tiling

variable {format : List Char} {ts : List Spanned} (tiling : Tiling format ts)

theorem interpolateFrom?_eq (d : Dialect) : interpolateFrom? d format 0 ts 0 = some (tiling.sql d) := by
  obtain ⟨segments, after, -, rfl, rfl⟩ := tiling
  exact interpolateFrom?_segments d segments [] after

theorem span_isRange (tiling : Tiling format ts) {s : Spanned} (hs : s ∈ ts) :
    s.start < s.stop ∧ (Text.cut? format s.start s.stop).isSome = true := by
  obtain ⟨segments, after, -, rfl, rfl⟩ := tiling
  have hcut : (Text.cut? ([] ++ (segments.flatMap Segment.chars ++ after)) s.start s.stop).isSome = true :=
    cut?_of_mem_spansFrom hs
  exact ⟨(le_start_of_mem_spansFrom hs).2, hcut⟩

theorem pairwise_spans (tiling : Tiling format ts) : ts.Pairwise fun s t =>
    (s.start = t.start ∧ s.stop = t.stop) ∨ s.stop ≤ t.start := by
  obtain ⟨segments, after, -, -, rfl⟩ := tiling
  exact pairwise_spansFrom 0 segments

theorem sharing_spans {s : Spanned} (hs : s ∈ ts) : ∃ segment ∈ tiling.segments,
    (ts.filter fun t => t.start = s.start ∧ t.stop = s.stop).map Spanned.token = segment.part.tokens := by
  obtain ⟨segments, after, -, -, rfl⟩ := tiling
  exact sharing_spansFrom hs

theorem mem_spaceBytes (tiling : Tiling format ts) {k : Nat} {byte : UInt8}
    (hbyte : (bytesOf format)[k]? = some byte)
    (houtside : ∀ s ∈ ts, ¬ (s.start ≤ k ∧ k < s.stop)) : byte ∈ spaceBytes := by
  obtain ⟨segments, after, hafter, rfl, rfl⟩ := tiling
  refine mem_spaceBytes_of_not_covered hafter 0 hbyte ?_
  rwa [Nat.zero_add]

theorem sql_copied (d : Dialect) (h : ∀ s ∈ ts, s.substituted = false) :
    tiling.sql d = .ok (String.ofList format) := by
  obtain ⟨segments, after, -, rfl, rfl⟩ := tiling
  exact segmentsSql_copied d after (copied_of_spansFrom h)

/-- Interpolation writes white space as it is and each part as what stands for it. -/
theorem interpolate_eq {format : String} {b : Binding} {ts : List Spanned}
    (tiling : Tiling format.toList ts) (d : Dialect) (h : tokenize format b = .ok ts) :
    interpolate d format b = tiling.sql d := by
  rw [interpolate, h, Outcome.ok_bind, interpolateFrom_of_checked (tiling.interpolateFrom?_eq d)]

end Tiling

/-- A format whose tokens are all copied text is its own SQL in every dialect. -/
theorem interpolate_copied (d : Dialect) {format : String} {b : Binding} {ts : List Spanned}
    (h : tokenize format b = .ok ts) (hcopied : ∀ s ∈ ts, s.substituted = false) :
    interpolate d format b = .ok format := by
  obtain ⟨tiling⟩ := exists_tiling h
  rw [tiling.interpolate_eq d h, tiling.sql_copied d hcopied, String.ofList_toList]

/-- The tokens of a format tile it: every piece of the format has some characters, and no character is
refused.  Spans are ranges of whole characters, in order, shared only by the tokens of one part, with white
space between them.  Interpolation cuts no other ranges; it replaces the text of each part by what stands
for the part and keeps the rest. -/
theorem spans_tile_format (d : Dialect) (format : String) (b : Binding) :
    (∀ p ∈ pieces format.toList, p.text ≠ []) ∧
    (pieces format.toList).flatMap Piece.text = format.toList ∧
    (∀ position near cause, tokenize format b = .error (.parse position near cause) →
      cause ∈ refusals) ∧
    ∀ ts, tokenize format b = .ok ts →
      (∀ s ∈ ts, s.start < s.stop ∧ (Text.cut? format.toList s.start s.stop).isSome = true) ∧
      (ts.Pairwise fun s t => (s.start = t.start ∧ s.stop = t.stop) ∨ s.stop ≤ t.start) ∧
      (∀ k byte, (Text.utf8 format)[k]? = some byte → (∀ s ∈ ts, ¬ (s.start ≤ k ∧ k < s.stop)) →
        byte ∈ spaceBytes) ∧
      ∃ tiling : Tiling format.toList ts,
        (∀ s ∈ ts, ∃ segment ∈ tiling.segments,
          (ts.filter fun t => t.start = s.start ∧ t.stop = s.stop).map Spanned.token =
            segment.part.tokens) ∧
        interpolateFrom? d format.toList 0 ts 0 = some (tiling.sql d) ∧
        interpolate d format b = tiling.sql d ∧
        ((∀ s ∈ ts, s.substituted = false) → interpolate d format b = .ok format) := by
  refine ⟨fun p hp => (scanned_of_mem_pieces hp).text_ne_nil, flatMap_text_pieces _,
    fun position near cause h => tokenize_failsOnly format b _ h, fun ts hts => ?_⟩
  obtain ⟨tiling⟩ := exists_tiling hts
  refine ⟨fun s hs => tiling.span_isRange hs, tiling.pairwise_spans, fun k byte hbyte houtside => ?_,
    tiling, fun s hs => tiling.sharing_spans hs, tiling.interpolateFrom?_eq d, tiling.interpolate_eq d hts,
    interpolate_copied d hts⟩
  rw [utf8_eq_bytesOf] at hbyte
  exact tiling.mem_spaceBytes hbyte houtside

/-- A field qualified across a gap and a tuple of two values, on Postgres. -/
theorem spans_tile_qualified_list :
    let b : Binding := ⟨[.array [.int 1, .int 2]], []⟩
    ∃ ts, tokenize "a .[b] in ?()" b = .ok ts ∧
      ts.map (fun s => (s.start, s.stop)) = [(0, 6), (7, 9), (10, 13), (10, 13), (10, 13), (10, 13)] ∧
      ∃ tiling : Tiling "a .[b] in ?()".toList ts,
        tiling.sql .postgres = .ok "a.\"b\" in (1, 2)" := by
  intro b
  have hts : tokenize "a .[b] in ?()" b = .ok _ := rfl
  obtain ⟨-, -, -, htile⟩ := spans_tile_format .postgres "a .[b] in ?()" b
  obtain ⟨-, -, -, tiling, -, -, hsql, -⟩ := htile _ hts
  refine ⟨_, hts, rfl, tiling, hsql.symm.trans ?_⟩
  rfl

end Format

end RecordQuery
