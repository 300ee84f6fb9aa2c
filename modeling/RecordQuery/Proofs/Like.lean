import RecordQuery.Like
set_option autoImplicit false

/-!
# Like: what a pattern matches

`Matches` says by recursion on the pattern which texts it matches.  Matching does not go through the pattern
that way: it keeps the lengths of text that the pattern read so far can produce.  What is carried through the
items is a condition on the text still to come: one step keeps "some reached length leaves a text that the
remaining items match" (`leaves_step`), and so does a run over all items (`leaves_foldl`).
-/

namespace RecordQuery

namespace Like

/-- The pattern matches the text, from its first character on. -/
def Matches : List Char → List Char → Prop
  | [], text => text = []
  | '%' :: pattern, text => ∃ run rest, text = run ++ rest ∧ Matches pattern rest
  | '_' :: pattern, text => ∃ c rest, text = c :: rest ∧ Matches pattern rest
  | ['\\'], text => text = ['\\']
  | '\\' :: c :: pattern, text => ∃ rest, text = c :: rest ∧ Matches pattern rest
  | c :: pattern, text => ∃ rest, text = c :: rest ∧ Matches pattern rest

/-! ## Items -/

/-- The text is one that the item takes, before a rest for which `P` holds. -/
def Item.Takes (P : List Char → Prop) (text : List Char) : Item → Prop
  | .any => ∃ run rest, text = run ++ rest ∧ P rest
  | .one => ∃ c rest, text = c :: rest ∧ P rest
  | .char c => ∃ rest, text = c :: rest ∧ P rest

/-- The text is one that the items take, one after the other. -/
def TakenBy : List Item → List Char → Prop
  | [], text => text = []
  | item :: rest, text => item.Takes (TakenBy rest) text

/-- A pattern matches what its items take. -/
theorem takenBy_items (pattern text : List Char) : TakenBy (items pattern) text ↔ Matches pattern text := by
  fun_induction items pattern generalizing text with
  | case1 => rfl
  | case2 rest ih => simp only [TakenBy, Item.Takes, Matches, ih]
  | case3 rest ih => simp only [TakenBy, Item.Takes, Matches, ih]
  | case4 => simp only [TakenBy, Item.Takes, Matches, exists_eq_right]
  | case5 c rest ih => simp only [TakenBy, Item.Takes, Matches, ih]
  | case6 c rest hany hone hlast hescape ih =>
    rw [Matches.eq_6 text c rest hany hone hlast hescape]
    simp only [TakenBy, Item.Takes, ih]

/-! ## Reached lengths -/

/-- The length is among the reached ones. -/
def IsReached (reached : List Bool) (j : Nat) : Prop := reached[j]? = some true

theorem IsReached.lt {reached : List Bool} {j : Nat} (h : IsReached reached j) : j < reached.length :=
  (List.getElem?_eq_some_iff.mp h).1

theorem isReached_cons_zero (flag : Bool) (rest : List Bool) :
    IsReached (flag :: rest) 0 ↔ flag = true := by
  simp [IsReached]

theorem isReached_cons_succ (flag : Bool) (rest : List Bool) (j : Nat) :
    IsReached (flag :: rest) (j + 1) ↔ IsReached rest j := by
  simp [IsReached]

/-- Only the empty text is reached at the start. -/
theorem isReached_start (text : List Char) (j : Nat) : IsReached (start text) j ↔ j = 0 := by
  cases j with
  | zero => simp [start, isReached_cons_zero]
  | succ j =>
    refine iff_of_false (fun h => ?_) (Nat.succ_ne_zero j)
    rw [start, isReached_cons_succ, IsReached, List.getElem?_map, Option.map_eq_some_iff] at h
    obtain ⟨_, -, hfalse⟩ := h
    cases hfalse

/-- A run of any characters reaches every length from a reached one on. -/
theorem isReached_spread (seen : Bool) (reached : List Bool) (k : Nat) :
    IsReached (spread seen reached) k ↔
      k < reached.length ∧ (seen = true ∨ ∃ j ≤ k, IsReached reached j) := by
  induction reached generalizing seen k with
  | nil => simp [spread, IsReached]
  | cons flag rest ih =>
    cases k with
    | zero => simp [spread, isReached_cons_zero]
    | succ k =>
      rw [spread, isReached_cons_succ, ih, List.length_cons, Nat.add_lt_add_iff_right, Bool.or_eq_true,
        or_assoc]
      refine and_congr_right fun _ => or_congr_right ?_
      constructor
      · rintro (hflag | ⟨j, hj, h⟩)
        · exact ⟨0, Nat.zero_le _, (isReached_cons_zero flag rest).mpr hflag⟩
        · exact ⟨j + 1, Nat.succ_le_succ hj, (isReached_cons_succ flag rest j).mpr h⟩
      · rintro ⟨j, hj, h⟩
        cases j with
        | zero => exact .inl ((isReached_cons_zero flag rest).mp h)
        | succ j => exact .inr ⟨j, Nat.le_of_succ_le_succ hj, (isReached_cons_succ flag rest j).mp h⟩

/-- One character reaches the length behind a reached one, where it fits. -/
theorem isReached_shift (fits : Char → Bool) (text : List Char) (reached : List Bool) (j : Nat) :
    IsReached (shift fits text reached) j ↔
      IsReached reached j ∧ ∃ c, text[j]? = some c ∧ fits c = true := by
  induction text generalizing reached j with
  | nil => simp [shift, IsReached]
  | cons c text ih =>
    cases reached with
    | nil => simp [shift, IsReached]
    | cons flag rest =>
      cases j with
      | zero => simp [shift, isReached_cons_zero]
      | succ j => rw [shift, isReached_cons_succ, isReached_cons_succ, ih, List.getElem?_cons_succ]

theorem length_spread (seen : Bool) (reached : List Bool) :
    (spread seen reached).length = reached.length := by
  induction reached generalizing seen with
  | nil => rfl
  | cons flag rest ih => rw [spread, List.length_cons, List.length_cons, ih]

theorem length_shift (fits : Char → Bool) {text : List Char} {reached : List Bool}
    (h : reached.length = text.length + 1) : (shift fits text reached).length = text.length := by
  induction text generalizing reached with
  | nil => rfl
  | cons c text ih =>
    cases reached with
    | nil => cases h
    | cons flag rest =>
      rw [shift, List.length_cons, List.length_cons, ih (Nat.succ.inj h)]

/-- There is a flag for every length of the text, before an item and after it. -/
theorem length_step {text : List Char} {reached : List Bool} (h : reached.length = text.length + 1)
    (item : Item) : (step text reached item).length = text.length + 1 := by
  cases item with
  | any => rw [step, length_spread, h]
  | one => rw [step, List.length_cons, length_shift _ h]
  | char c => rw [step, List.length_cons, length_shift _ h]

/-! ## The text still to come -/

/-- Some reached length leaves a text for which `P` holds. -/
def Leaves (P : List Char → Prop) (text : List Char) (reached : List Bool) : Prop :=
  ∃ j, IsReached reached j ∧ P (text.drop j)

/-- A character of the text and what it leaves. -/
theorem drop_eq_cons_iff {text rest : List Char} {j : Nat} {c : Char} :
    text.drop j = c :: rest ↔ text[j]? = some c ∧ text.drop (j + 1) = rest := by
  constructor
  · intro h
    refine ⟨?_, ?_⟩
    · rw [← List.head?_drop, h, List.head?_cons]
    · rw [← List.tail_drop, h, List.tail_cons]
  · rintro ⟨hc, rfl⟩
    obtain ⟨hj, rfl⟩ := List.getElem?_eq_some_iff.mp hc
    exact List.drop_eq_getElem_cons hj

/-- One character of some sort is taken from what the reached lengths leave. -/
theorem leaves_shift (P : List Char → Prop) (fits : Char → Bool) (text : List Char) (reached : List Bool) :
    Leaves P text (false :: shift fits text reached) ↔
      Leaves (fun left => ∃ c, fits c = true ∧ ∃ rest, left = c :: rest ∧ P rest) text reached := by
  constructor
  · rintro ⟨k, hk, hP⟩
    cases k with
    | zero => cases (isReached_cons_zero _ _).mp hk
    | succ j =>
      obtain ⟨hj, c, hc, hfits⟩ := (isReached_shift _ _ _ _).mp ((isReached_cons_succ _ _ _).mp hk)
      exact ⟨j, hj, c, hfits, text.drop (j + 1), drop_eq_cons_iff.mpr ⟨hc, rfl⟩, hP⟩
  · rintro ⟨j, hj, c, hfits, rest, hleft, hP⟩
    obtain ⟨hc, rfl⟩ := drop_eq_cons_iff.mp hleft
    have hshift := (isReached_shift fits text reached j).mpr ⟨hj, c, hc, hfits⟩
    exact ⟨j + 1, (isReached_cons_succ _ _ _).mpr hshift, hP⟩

/-- One item takes its part of what the reached lengths leave. -/
theorem leaves_step {text : List Char} {reached : List Bool} (h : reached.length = text.length + 1)
    (P : List Char → Prop) (item : Item) :
    Leaves P text (step text reached item) ↔ Leaves (fun left => item.Takes P left) text reached := by
  cases item with
  | any =>
    constructor
    · rintro ⟨k, hk, hP⟩
      obtain ⟨-, hseen | ⟨j, hjk, hj⟩⟩ := (isReached_spread _ _ _).mp hk
      · cases hseen
      · refine ⟨j, hj, (text.drop j).take (k - j), text.drop k, ?_, hP⟩
        have hsplit := List.take_append_drop (k - j) (text.drop j)
        rw [List.drop_drop, Nat.add_sub_cancel' hjk] at hsplit
        exact hsplit.symm
    · rintro ⟨j, hj, run, rest, hleft, hP⟩
      have hrest : text.drop (j + run.length) = rest := by rw [← List.drop_drop, hleft, List.drop_left]
      have hlength := congrArg List.length hleft
      rw [List.length_drop, List.length_append] at hlength
      have hj' := hj.lt
      refine ⟨j + run.length, (isReached_spread _ _ _).mpr ⟨by omega, .inr ⟨j, Nat.le_add_right _ _, hj⟩⟩, ?_⟩
      rwa [hrest]
  | one =>
    rw [step, leaves_shift]
    simp only [Item.Takes, true_and]
  | char c =>
    rw [step, leaves_shift]
    simp only [Item.Takes, beq_iff_eq, exists_eq_left]

/-- A run over some items takes their parts of what the reached lengths leave, up to its end. -/
theorem leaves_foldl {text : List Char} {reached : List Bool} (h : reached.length = text.length + 1)
    (is : List Item) :
    Leaves (· = []) text (is.foldl (step text) reached) ↔ Leaves (TakenBy is) text reached := by
  induction is generalizing reached with
  | nil => rfl
  | cons item rest ih => rw [List.foldl_cons, ih (length_step h item), leaves_step h]; rfl

/-- The last flag is that of the whole text. -/
theorem getLastD_iff_leaves {text : List Char} {reached : List Bool} (h : reached.length = text.length + 1) :
    reached.getLastD false = true ↔ Leaves (· = []) text reached := by
  have hlast : IsReached reached text.length ↔ reached.getLastD false = true := by
    rw [IsReached, List.getLastD_eq_getLast?, List.getLast?_eq_getElem?, h, Nat.add_sub_cancel]
    cases reached[text.length]? <;> simp
  rw [← hlast]
  constructor
  · exact fun hreached => ⟨text.length, hreached, List.drop_length⟩
  · rintro ⟨j, hj, hnil⟩
    have hj' := hj.lt
    have hle := List.drop_eq_nil_iff.mp hnil
    obtain rfl : j = text.length := by omega
    exact hj

theorem length_foldl_step {text : List Char} {reached : List Bool} (h : reached.length = text.length + 1)
    (is : List Item) : (is.foldl (step text) reached).length = text.length + 1 := by
  induction is generalizing reached with
  | nil => exact h
  | cons item rest ih => exact ih (length_step h item)

end Like

/-- A text is like a pattern exactly when the pattern matches all of it. -/
theorem like_iff_matches (text pattern : String) :
    like text pattern = true ↔ Like.Matches pattern.toList text.toList := by
  have hlength : (Like.start text.toList).length = text.toList.length + 1 := by simp [Like.start]
  have hstart : Like.Leaves (Like.TakenBy (Like.items pattern.toList)) text.toList (Like.start text.toList) ↔
      Like.TakenBy (Like.items pattern.toList) text.toList := by
    simp [Like.Leaves, Like.isReached_start]
  rw [like, Like.accepts, Like.getLastD_iff_leaves (Like.length_foldl_step hlength _),
    Like.leaves_foldl hlength, hstart, Like.takenBy_items]

end RecordQuery
