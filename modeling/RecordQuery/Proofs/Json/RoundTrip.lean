import RecordQuery.Proofs.Entries
import RecordQuery.Proofs.Json.Tokens
set_option autoImplicit false

/-!
# Json: documents are read back

A document whose numbers are integers of 64 bits and whose containers nest no deeper than the reader allows
is read back from its compact text, with the members of each object in order (`read?_compactText`).
-/

namespace RecordQuery.Json

mutual

/-- The document as a reader gives it: the members of an object stand in ascending order of their keys, and
of members with the same key the last one counts. -/
def sorted : Json → Json
  | .array items => .array (sortedItems items)
  | .object members => .object (Entries.ofPairs (sortedMembers members))
  | .null => .null
  | .bool b => .bool b
  | .integer n => .integer n
  | .float x => .float x
  | .string s => .string s
termination_by structural json => json

/-- Some documents as a reader gives them. -/
def sortedItems : List Json → List Json
  | [] => []
  | json :: rest => sorted json :: sortedItems rest
termination_by structural items => items

/-- Some members with their documents as a reader gives them. -/
def sortedMembers : List (String × Json) → List (String × Json)
  | [] => []
  | (key, json) :: rest => (key, sorted json) :: sortedMembers rest
termination_by structural members => members

end

mutual

/-- How many containers stand inside each other. -/
def depth : Json → Nat
  | .array items => depthItems items + 1
  | .object members => depthMembers members + 1
  | .null => 0
  | .bool _ => 0
  | .integer _ => 0
  | .float _ => 0
  | .string _ => 0
termination_by structural json => json

/-- The depth of the deepest of some documents. -/
def depthItems : List Json → Nat
  | [] => 0
  | json :: rest => max (depth json) (depthItems rest)
termination_by structural items => items

/-- The depth of the deepest of some members. -/
def depthMembers : List (String × Json) → Nat
  | [] => 0
  | (_, json) :: rest => max (depth json) (depthMembers rest)
termination_by structural members => members

end

mutual

/-- The numbers of a document are integers of 64 bits. -/
def isWhole : Json → Bool
  | .array items => isWholeItems items
  | .object members => isWholeMembers members
  | .null => true
  | .bool _ => true
  | .integer n => isWord n
  | .float _ => false
  | .string _ => true
termination_by structural json => json

/-- The numbers of some documents are integers of 64 bits. -/
def isWholeItems : List Json → Bool
  | [] => true
  | json :: rest => isWhole json && isWholeItems rest
termination_by structural items => items

/-- The numbers of some members are integers of 64 bits. -/
def isWholeMembers : List (String × Json) → Bool
  | [] => true
  | (_, json) :: rest => isWhole json && isWholeMembers rest
termination_by structural members => members

end

/-! ## Reading what was printed -/

theorem follows_nil : Follows [] := fun _ hc => by cases hc

theorem follows_comma (cs : List Char) : Follows (',' :: cs) := fun c hc => by
  cases hc
  exact .inl rfl

theorem follows_bracket (cs : List Char) : Follows (']' :: cs) := fun c hc => by
  cases hc
  exact .inr (.inl rfl)

theorem follows_brace (cs : List Char) : Follows ('\x7d' :: cs) := fun c hc => by
  cases hc
  exact .inr (.inr rfl)

theorem skipSpace_cons {c : Char} (h : isSpace c = false) (cs : List Char) : skipSpace (c :: cs) = c :: cs := by
  rw [skipSpace, List.dropWhile_cons, if_neg (Bool.eq_false_iff.mp h)]

/-- A numeral starts like no other document. -/
theorem numeral_eq_cons (n : Int) : ∃ c cs, Text.numeral n = c :: cs ∧ isSpace c = false ∧
    c ∉ ['n', 't', 'f', '\x22', '[', ']', '\x7b'] := by
  obtain ⟨c, cs, hcons, rfl | hdigit⟩ := Text.numeral_eq_cons n
  · exact ⟨_, _, hcons, rfl, by decide⟩
  · refine ⟨c, cs, hcons, Bool.eq_false_iff.mpr fun hspace => ?_, fun hmem => ?_⟩
    · simp only [isSpace, Bool.or_eq_true, beq_iff_eq] at hspace
      rcases hspace with ((rfl | rfl) | rfl) | rfl <;> cases hdigit
    · simp only [List.mem_cons, List.not_mem_nil, or_false] at hmem
      rcases hmem with rfl | rfl | rfl | rfl | rfl | rfl | rfl <;> cases hdigit

theorem readValue_numeral {n : Int} (hn : isWord n = true) {rest : List Char} (hrest : Follows rest)
    (fuel depth : Nat) : readValue (fuel + 1) depth (Text.numeral n ++ rest) = some (.integer n, rest) := by
  have hread := readNumber_numeral hn hrest
  obtain ⟨c, cs, hcons, hspace, hc⟩ := numeral_eq_cons n
  rw [hcons, List.cons_append] at hread ⊢
  unfold readValue
  rw [skipSpace_cons hspace]
  split
  case h_7 => exact hread
  all_goals
    rename_i heq
    rw [(List.cons.inj heq).1] at hc
    exact absurd (by decide) hc

/-- The text of a document starts with a character that is no white space and no closing bracket. -/
theorem print_eq_cons : ∀ {json : Json}, json.isWhole = true →
    ∃ c cs, json.print = c :: cs ∧ isSpace c = false ∧ c ≠ ']'
  | .null, _ => ⟨_, _, rfl, rfl, by decide⟩
  | .bool true, _ => ⟨_, _, rfl, rfl, by decide⟩
  | .bool false, _ => ⟨_, _, rfl, rfl, by decide⟩
  | .string _, _ => ⟨_, _, rfl, rfl, by decide⟩
  | .array _, _ => ⟨_, _, rfl, rfl, by decide⟩
  | .object _, _ => ⟨_, _, rfl, rfl, by decide⟩
  | .integer n, _ => by
    obtain ⟨c, cs, hcons, hspace, hc⟩ := numeral_eq_cons n
    exact ⟨c, cs, (Text.toList_toString n).trans hcons, hspace, fun heq => hc (by rw [heq]; decide)⟩

theorem printItems_cons (item next : Json) (items : List Json) :
    printItems (item :: next :: items) = item.print ++ ',' :: printItems (next :: items) := rfl

theorem printMembers_cons (key : String) (json : Json) (next : String × Json) (members : List (String × Json)) :
    printMembers ((key, json) :: next :: members) =
      printString key ++ ':' :: (json.print ++ ',' :: printMembers (next :: members)) := by simp [printMembers]

theorem printItems_eq_cons {item : Json} (h : item.isWhole = true) (items : List Json) :
    ∃ c cs, printItems (item :: items) = c :: cs ∧ isSpace c = false ∧ c ≠ ']' := by
  obtain ⟨c, cs, hcons, hc⟩ := print_eq_cons h
  cases items with
  | nil => exact ⟨c, cs, hcons, hc⟩
  | cons next items => exact ⟨c, _, by rw [printItems_cons, hcons, List.cons_append], hc⟩

theorem printString_append (s : String) (rest : List Char) :
    printString s ++ rest = '\x22' :: (s.toList.flatMap escapeChar ++ '\x22' :: rest) := by
  simp [printString]

theorem printMembers_eq_cons : ∀ (m : String × Json) (members : List (String × Json)),
    ∃ cs, printMembers (m :: members) = '\x22' :: cs
  | (key, json), [] => ⟨_, by rw [printMembers, printString_append]⟩
  | (key, json), next :: members => ⟨_, by rw [printMembers_cons, printString_append]⟩

/-! ### Containers -/

section

variable {fuel depth : Nat} {cs mid rest : List Char} {item : Json} {items : List Json} {key : String}
  {members : List (String × Json)}

theorem readValue_array {c : Char} (hspace : isSpace c = false) (hc : c ≠ ']')
    (h : readItems fuel depth (c :: cs) = some (items, rest)) :
    readValue (fuel + 1) (depth + 1) ('[' :: c :: cs) = some (.array items, rest) := by
  have hopen : skipSpace ('[' :: c :: cs) = '[' :: c :: cs := rfl
  unfold readValue
  rw [hopen]
  simp only [skipSpace_cons hspace]
  split
  · rename_i heq
    exact absurd (List.cons.inj heq).1 hc
  · rw [h, Option.map_some]

theorem readValue_object (h : readMembers fuel depth ('\x22' :: cs) = some (members, rest)) :
    readValue (fuel + 1) (depth + 1) ('\x7b' :: '\x22' :: cs) = some (.object (Entries.ofPairs members), rest) := by
  show (readMembers fuel depth ('\x22' :: cs)).map _ = _
  rw [h, Option.map_some]

theorem readItems_last (h : readValue fuel depth cs = some (item, ']' :: rest)) :
    readItems (fuel + 1) depth cs = some ([item], rest) := by
  rw [readItems, h]
  rfl

theorem readItems_cons (h : readValue fuel depth cs = some (item, ',' :: mid))
    (hitems : readItems fuel depth mid = some (items, rest)) :
    readItems (fuel + 1) depth cs = some (item :: items, rest) := by
  rw [readItems, h]
  show (readItems fuel depth mid).map _ = _
  rw [hitems, Option.map_some]

theorem readMembers_last (h : readValue fuel depth cs = some (item, '\x7d' :: rest)) :
    readMembers (fuel + 1) depth (printString key ++ ':' :: cs) = some ([(key, item)], rest) := by
  simp only [printString_append, readMembers, skipSpace_cons (c := '\x22') rfl, readString_escaped,
    skipSpace_cons (c := ':') rfl, skipSpace_cons (c := '\x7d') rfl, h]

theorem readMembers_cons (h : readValue fuel depth cs = some (item, ',' :: mid))
    (hmembers : readMembers fuel depth mid = some (members, rest)) :
    readMembers (fuel + 1) depth (printString key ++ ':' :: cs) = some ((key, item) :: members, rest) := by
  simp only [printString_append, readMembers, skipSpace_cons (c := '\x22') rfl, readString_escaped,
    skipSpace_cons (c := ':') rfl, skipSpace_cons (c := ',') rfl, h, hmembers, Option.map_some]

end

mutual

/-- A document is read back in front of what may follow it. -/
theorem readValue_print : ∀ (json : Json) {fuel depth : Nat} {rest : List Char}, json.isWhole = true →
    json.depth ≤ depth → 2 * json.print.length ≤ fuel + 1 → Follows rest →
      readValue (fuel + 1) depth (json.print ++ rest) = some (json.sorted, rest)
  | .null, _, _, _, _, _, _, _ => rfl
  | .bool true, _, _, _, _, _, _, _ => rfl
  | .bool false, _, _, _, _, _, _, _ => rfl
  | .integer n, fuel, depth, rest, hwhole, _, _, hrest => by
    rw [print, printAtom, Text.toList_toString]
    exact readValue_numeral hwhole hrest fuel depth
  | .float _, _, _, _, hwhole, _, _, _ => by cases hwhole
  | .string s, fuel, depth, rest, _, _, _, _ => by
    rw [print, printAtom, printString_append]
    show (readString _).map _ = _
    rw [readString_escaped, Option.map_some]
    rfl
  | .array [], fuel, depth, rest, _, hdepth, _, _ => by
    obtain ⟨depth, rfl⟩ := Nat.exists_eq_add_of_le' hdepth
    rfl
  | .array (item :: items), fuel, depth, rest, hwhole, hdepth, hfuel, _ => by
    obtain ⟨depth, rfl⟩ := Nat.exists_eq_add_of_le' (Nat.le_trans (Nat.succ_pos _) hdepth)
    rw [print, List.length_append, List.length_cons, List.length_singleton] at hfuel
    obtain ⟨fuel, rfl⟩ := Nat.exists_eq_add_of_le' (show 1 ≤ fuel by omega)
    have hitems : readItems (fuel + 1) depth (printItems (item :: items) ++ ']' :: rest) = _ :=
      readItems_print (item :: items) rest (List.cons_ne_nil _ _) hwhole (Nat.le_of_succ_le_succ hdepth) (by omega)
    obtain ⟨c, cs, hcons, hspace, hc⟩ := printItems_eq_cons (Bool.and_eq_true_iff.mp hwhole).1 items
    have htext : (array (item :: items)).print ++ rest = '[' :: c :: (cs ++ ']' :: rest) := by
      simp [print, hcons]
    rw [hcons, List.cons_append] at hitems
    rw [htext]
    exact readValue_array hspace hc hitems
  | .object [], fuel, depth, rest, _, hdepth, _, _ => by
    obtain ⟨depth, rfl⟩ := Nat.exists_eq_add_of_le' hdepth
    rfl
  | .object (m :: members), fuel, depth, rest, hwhole, hdepth, hfuel, _ => by
    obtain ⟨depth, rfl⟩ := Nat.exists_eq_add_of_le' (Nat.le_trans (Nat.succ_pos _) hdepth)
    rw [print, List.length_append, List.length_cons, List.length_singleton] at hfuel
    obtain ⟨fuel, rfl⟩ := Nat.exists_eq_add_of_le' (show 1 ≤ fuel by omega)
    have hmembers : readMembers (fuel + 1) depth (printMembers (m :: members) ++ '\x7d' :: rest) = _ :=
      readMembers_print (m :: members) rest (List.cons_ne_nil _ _) hwhole (Nat.le_of_succ_le_succ hdepth) (by omega)
    obtain ⟨cs, hcons⟩ := printMembers_eq_cons m members
    have htext : (object (m :: members)).print ++ rest = '\x7b' :: '\x22' :: (cs ++ '\x7d' :: rest) := by
      simp [print, hcons]
    rw [hcons, List.cons_append] at hmembers
    rw [htext]
    exact readValue_object hmembers

/-- The items of an array are read back. -/
theorem readItems_print : ∀ (items : List Json) {fuel depth : Nat} (rest : List Char), items ≠ [] →
    isWholeItems items = true → depthItems items ≤ depth → 2 * (printItems items).length + 1 ≤ fuel →
      readItems (fuel + 1) depth (printItems items ++ ']' :: rest) = some (sortedItems items, rest)
  | [], _, _, _, hne, _, _, _ => absurd rfl hne
  | [item], fuel, depth, rest, _, hwhole, hdepth, hfuel => by
    obtain ⟨fuel, rfl⟩ := Nat.exists_eq_add_of_le' (Nat.le_trans (Nat.succ_pos _) hfuel)
    rw [printItems] at hfuel ⊢
    exact readItems_last (readValue_print item (Bool.and_eq_true_iff.mp hwhole).1
      (Nat.le_trans (Nat.le_max_left _ _) hdepth) (by omega) (follows_bracket rest))
  | item :: next :: items, fuel, depth, rest, _, hwhole, hdepth, hfuel => by
    obtain ⟨fuel, rfl⟩ := Nat.exists_eq_add_of_le' (Nat.le_trans (Nat.succ_pos _) hfuel)
    obtain ⟨hitem, hitems⟩ := Bool.and_eq_true_iff.mp hwhole
    obtain ⟨hdepth, hdepths⟩ := Nat.max_le.mp hdepth
    rw [printItems_cons, List.length_append, List.length_cons] at hfuel
    rw [printItems_cons, List.append_assoc, List.cons_append]
    exact readItems_cons (readValue_print item hitem hdepth (by omega) (follows_comma _))
      (readItems_print (next :: items) rest (List.cons_ne_nil _ _) hitems hdepths (by omega))

/-- The members of an object are read back. -/
theorem readMembers_print : ∀ (members : List (String × Json)) {fuel depth : Nat} (rest : List Char),
    members ≠ [] → isWholeMembers members = true → depthMembers members ≤ depth →
    2 * (printMembers members).length + 1 ≤ fuel →
      readMembers (fuel + 1) depth (printMembers members ++ '\x7d' :: rest) = some (sortedMembers members, rest)
  | [], _, _, _, hne, _, _, _ => absurd rfl hne
  | [(key, json)], fuel, depth, rest, _, hwhole, hdepth, hfuel => by
    obtain ⟨fuel, rfl⟩ := Nat.exists_eq_add_of_le' (Nat.le_trans (Nat.succ_pos _) hfuel)
    rw [printMembers, List.length_append, List.length_cons] at hfuel
    rw [printMembers, List.append_assoc, List.cons_append]
    exact readMembers_last (readValue_print json (Bool.and_eq_true_iff.mp hwhole).1
      (Nat.le_trans (Nat.le_max_left _ _) hdepth) (by omega) (follows_brace rest))
  | (key, json) :: next :: members, fuel, depth, rest, _, hwhole, hdepth, hfuel => by
    obtain ⟨fuel, rfl⟩ := Nat.exists_eq_add_of_le' (Nat.le_trans (Nat.succ_pos _) hfuel)
    obtain ⟨hjson, hmembers⟩ := Bool.and_eq_true_iff.mp hwhole
    obtain ⟨hdepth, hdepths⟩ := Nat.max_le.mp hdepth
    rw [printMembers_cons, List.length_append, List.length_cons, List.length_append, List.length_cons] at hfuel
    rw [printMembers_cons, List.append_assoc, List.cons_append, List.append_assoc, List.cons_append]
    exact readMembers_cons (readValue_print json hjson hdepth (by omega) (follows_comma _))
      (readMembers_print (next :: members) rest (List.cons_ne_nil _ _) hmembers hdepths (by omega))

end

/-- A document is read back from its compact text. -/
theorem read?_compactText {json : Json} (hwhole : json.isWhole = true) (hdepth : json.depth ≤ maxDepth) :
    read? json.compactText = some json.sorted := by
  have h : readValue (2 * json.print.length + 2) maxDepth (json.print ++ []) = _ :=
    readValue_print json hwhole hdepth (by omega) follows_nil
  rw [List.append_nil] at h
  simp only [read?, compactText, String.toList_ofList, h]
  rfl

end RecordQuery.Json
