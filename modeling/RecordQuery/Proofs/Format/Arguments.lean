import RecordQuery.Proofs.Format.Tokens
set_option autoImplicit false

/-!
# Format: the values that placeholders take

Tokenizing hands the index of the next positional value from piece to piece.  `Takes start stop f` says of a
computation on the values that it takes those from index `start` up to index `stop`, one after the other:
whenever it succeeds, others with the same first values give the same answer, and a list that is cut off at
one of the taken values is refused for the lack of just that one.  It is kept under sequencing
(`Takes.bind`), so that one lemma for each function leads to the values that a whole format takes.
-/

namespace RecordQuery.Format

/-! ## Taking values in order -/

section

variable {α β : Type}

/-- A computation on positional values takes those from index `start` up to index `stop`. -/
structure Takes (start stop : Nat) (f : List Value → Outcome α) : Prop where
  ordered : start ≤ stop
  supplied : ∀ {args a}, f args = .ok a → start ≤ args.length → stop ≤ args.length
  same : ∀ {args args' a}, f args = .ok a → args'.take stop = args.take stop → f args' = .ok a
  missing : ∀ {args a m}, f args = .ok a → start ≤ m → m < stop →
    f (args.take m) = .error (.missingArgument m m)

namespace Takes

/-- A computation that does not look at the values takes none. -/
theorem nothing (index : Nat) (x : Outcome α) : Takes index index fun _ => x where
  ordered := Nat.le_refl index
  supplied _ h := h
  same h _ := h
  missing _ hle hlt := absurd hlt (Nat.not_lt.mpr hle)

variable {start mid stop : Nat} {x : List Value → Outcome α}

/-- What is done next takes the values behind those that are taken already. -/
theorem bind {f : α → List Value → Outcome β} (hx : Takes start mid x) (hle : mid ≤ stop)
    (hf : ∀ args a, x args = .ok a → Takes mid stop (f a)) :
    Takes start stop fun args => do f (← x args) args where
  ordered := Nat.le_trans hx.ordered hle
  supplied h hstart := by
    obtain ⟨a, ha, h⟩ := Outcome.bind_eq_ok.mp h
    exact (hf _ a ha).supplied h (hx.supplied ha hstart)
  same {args args' b} h hsame := by
    obtain ⟨a, ha, h⟩ := Outcome.bind_eq_ok.mp h
    have hfirst : args'.take mid = args.take mid := by
      rw [← Nat.min_eq_left hle, ← List.take_take, hsame, List.take_take]
    exact Outcome.bind_eq_ok.mpr ⟨a, hx.same ha hfirst, (hf args a ha).same h hsame⟩
  missing {args b m} h hstart hstop := by
    obtain ⟨a, ha, h⟩ := Outcome.bind_eq_ok.mp h
    rcases Nat.lt_or_ge m mid with hm | hm
    · rw [hx.missing ha hstart hm]
      rfl
    · have hfirst : (args.take m).take mid = args.take mid := by rw [List.take_take, Nat.min_eq_left hm]
      rw [hx.same ha hfirst]
      exact (hf args a ha).missing h hm hstop

/-- What is made of an answer takes no further values. -/
theorem andThen (hx : Takes start stop x) (f : α → Outcome β) :
    Takes start stop (fun args => do f (← x args)) :=
  hx.bind (Nat.le_refl stop) fun _ a _ => nothing stop (f a)

end Takes

end

/-! ## One placeholder -/

namespace Binding

theorem take_eq_ok {b : Binding} {index : Nat} {v : Value} :
    b.take index = .ok v ↔ b.args[index]? = some v := by
  unfold take
  split <;> simp_all

variable (registry : Registry) (index position : Nat)

theorem take_takes : Takes index (index + 1) fun args => (Binding.mk args registry).take index where
  ordered := Nat.le_succ index
  supplied h _ := (List.getElem?_eq_some_iff.mp (take_eq_ok.mp h)).1
  same {args args' v} h hsame := by
    have hv := take_eq_ok.mp h
    rw [← List.getElem?_take_of_lt (Nat.lt_succ_self index), ← hsame,
      List.getElem?_take_of_lt (Nat.lt_succ_self index)] at hv
    exact take_eq_ok.mpr hv
  missing {args v m} h hstart hstop := by
    obtain rfl : m = index := Nat.le_antisymm (Nat.le_of_lt_succ hstop) hstart
    have hlt := (List.getElem?_eq_some_iff.mp (take_eq_ok.mp h)).1
    have hlength : (args.take m).length = m := by rw [List.length_take, Nat.min_eq_left (Nat.le_of_lt hlt)]
    simp only [take, List.getElem?_eq_none (Nat.le_of_eq hlength), hlength]

theorem takeName_takes :
    Takes index (index + 1) fun args => (Binding.mk args registry).takeName index position :=
  (take_takes registry index).andThen fun v => nameOf v position

theorem typeOf_takes (code shown : String) :
    Takes index index fun args => (Binding.mk args registry).typeOf code shown :=
  .nothing index ((Binding.mk [] registry).typeOf code shown)

/-- The number of values that a placeholder takes: one, and one more where the type code is a value too. -/
def arity (code : Option String) : Nat := if code = some "_" then 2 else 1

/-- The type of a placeholder is found before its value is taken. -/
theorem placeholderType_takes (code : Option String) (tuple : Bool) :
    ∃ mid, mid + 1 = index + arity code ∧
      Takes index mid (fun args => (Binding.mk args registry).placeholderType code tuple index position) ∧
      ∀ args answer, (Binding.mk args registry).placeholderType code tuple index position = .ok answer →
        answer.2.2 = mid := by
  unfold placeholderType
  split
  · refine ⟨index, rfl, .nothing index _, ?_⟩
    intro args answer h
    cases h
    rfl
  · refine ⟨index + 1, rfl, (take_takes registry index).bind (Nat.le_refl _) ?_, ?_⟩
    · intro args v _
      split
      · exact (typeOf_takes registry _ _ _).andThen _
      · exact .nothing _ _
    · intro args answer h
      obtain ⟨v, -, h⟩ := Outcome.bind_eq_ok.mp h
      split at h
      · obtain ⟨t, -, h⟩ := Outcome.bind_eq_ok.mp h
        cases h
        rfl
      · cases h
  · rename_i code hcode
    refine ⟨index, ?_, (typeOf_takes registry _ _ _).andThen _, ?_⟩
    · rw [arity, if_neg fun h => hcode (Option.some.inj h)]
    · intro args answer h
      obtain ⟨t, -, h⟩ := Outcome.bind_eq_ok.mp h
      cases h
      rfl

theorem arity_of_isModelCode {code : Option String} (h : (code.map isModelCode).getD false = true) :
    arity code = 1 := by
  rw [arity, if_neg]
  rintro rfl
  cases h

theorem arity_of_isFieldCode {code : Option String} (h : (code.map isFieldCode).getD false = true) :
    arity code = 1 := by
  rw [arity, if_neg]
  rintro rfl
  cases h

theorem placeholder_takes (code : Option String) (tuple : Bool) :
    Takes index (index + arity code)
      fun args => (Binding.mk args registry).placeholder code tuple index position := by
  unfold placeholder
  split
  · rename_i hmodel
    rw [arity_of_isModelCode hmodel]
    exact (takeName_takes registry index position).andThen _
  split
  · rename_i hfield
    rw [arity_of_isFieldCode hfield]
    exact (takeName_takes registry index position).andThen _
  · obtain ⟨mid, hmid, htype, hnext⟩ := placeholderType_takes registry index position code tuple
    rw [← hmid]
    refine htype.bind (Nat.le_succ mid) ?_
    rintro args ⟨t, asTuple, next⟩ hanswer
    obtain rfl : next = mid := hnext args _ hanswer
    refine (take_takes registry next).bind (Nat.le_refl _) ?_
    intro args' v _
    exact .nothing _ _

/-- The index behind a placeholder is that of the next value. -/
theorem placeholder_next {b : Binding} {code : Option String} {tuple : Bool} {answer : List Token × Nat}
    (h : b.placeholder code tuple index position = .ok answer) : answer.2 = index + arity code := by
  unfold placeholder at h
  split at h
  · rename_i hmodel
    obtain ⟨name, -, h⟩ := Outcome.bind_eq_ok.mp h
    cases h
    rw [arity_of_isModelCode hmodel]
  split at h
  · rename_i hfield
    obtain ⟨name, -, h⟩ := Outcome.bind_eq_ok.mp h
    cases h
    rw [arity_of_isFieldCode hfield]
  · obtain ⟨mid, hmid, -, hnext⟩ := placeholderType_takes b.registry index position code tuple
    obtain ⟨⟨t, asTuple, next⟩, htype, h⟩ := Outcome.bind_eq_ok.mp h
    obtain rfl : next = mid := hnext b.args _ htype
    obtain ⟨v, -, h⟩ := Outcome.bind_eq_ok.mp h
    rw [← hmid]
    split at h
    · split at h
      · obtain ⟨tokens, -, h⟩ := Outcome.bind_eq_ok.mp h
        cases h
        rfl
      · cases h
    · obtain ⟨w, -, h⟩ := Outcome.bind_eq_ok.mp h
      cases h
      rfl

end Binding

/-! ## Pieces -/

/-- The number of values that a lexeme takes. -/
def Lexeme.arity : Lexeme → Nat
  | .placeholder code _ => Binding.arity (code.map String.ofList)
  | _ => 0

/-- The number of values that some pieces take. -/
def arityOf : List Piece → Nat
  | [] => 0
  | p :: rest => p.lexeme.arity + arityOf rest

theorem arityOf_append (ps qs : List Piece) : arityOf (ps ++ qs) = arityOf ps + arityOf qs := by
  induction ps with
  | nil => rw [List.nil_append, arityOf, Nat.zero_add]
  | cons p rest ih => rw [List.cons_append, arityOf, arityOf, ih, Nat.add_assoc]

/-- White space and a dot take no values. -/
theorem arityOf_throughDot {ps dotted : List Piece} (h : Binding.throughDot ps = some dotted) :
    arityOf dotted = 0 := by
  induction ps generalizing dotted with
  | nil => cases h
  | cons p rest ih =>
    unfold Binding.throughDot at h
    split at h
    · cases h
      rfl
    · obtain ⟨dotted', hdotted, rfl⟩ := Option.map_eq_some_iff.mp h
      rename_i hps
      cases hps
      rw [arityOf, ih hdotted]
      rfl
    · cases h

namespace Binding

variable (registry : Registry) (p : Piece) (index position : Nat)

theorem pieceTokens_takes :
    Takes index (index + p.lexeme.arity)
      fun args => (Binding.mk args registry).pieceTokens p index position := by
  unfold pieceTokens
  split
  case h_6 code tuple hp =>
    rw [hp]
    exact (placeholder_takes registry index position (code.map String.ofList) tuple).andThen _
  all_goals
    rename_i hp
    rw [hp]
    exact .nothing index _

theorem pieceTokens_next {b : Binding} {p : Piece} {index position : Nat} {answer : List Token × Bool × Nat}
    (h : b.pieceTokens p index position = .ok answer) : answer.2.2 = index + p.lexeme.arity := by
  unfold pieceTokens at h
  split at h
  case h_6 code tuple hp =>
    obtain ⟨tokens, htokens, h⟩ := Outcome.bind_eq_ok.mp h
    cases h
    rw [hp]
    exact placeholder_next _ _ htokens
  case h_7 text hp =>
    obtain ⟨token, -, h⟩ := Outcome.bind_eq_ok.mp h
    cases h
    rw [hp]
    rfl
  all_goals
    rename_i hp
    cases h
    rw [hp]
    rfl

/-- The piece behind a dot is no field and left for later, or it is one and takes its values now. -/
theorem fieldAfterDot_takes :
    (∀ args, (Binding.mk args registry).fieldAfterDot p index position = .ok none) ∨
      Takes index (index + p.lexeme.arity)
        (fun args => (Binding.mk args registry).fieldAfterDot p index position) ∧
      ∀ args found, (Binding.mk args registry).fieldAfterDot p index position = .ok found →
        ∃ name quoted, found = some (name, quoted, index + p.lexeme.arity) := by
  unfold fieldAfterDot
  split
  · rename_i word hp
    rw [hp]
    refine .inr ⟨.nothing index _, ?_⟩
    intro args found h
    cases h
    exact ⟨_, _, rfl⟩
  · rename_i name hp
    rw [hp]
    refine .inr ⟨.nothing index _, ?_⟩
    intro args found h
    cases h
    exact ⟨_, _, rfl⟩
  · rename_i code hp
    split
    · rename_i hcode
      have harity : p.lexeme.arity = 1 := by
        rw [hp]
        exact arity_of_isFieldCode hcode
      rw [harity]
      refine .inr ⟨(takeName_takes registry index position).andThen _, ?_⟩
      intro args found h
      obtain ⟨name, -, h⟩ := Outcome.bind_eq_ok.mp h
      cases h
      exact ⟨_, _, rfl⟩
    · exact .inl fun _ => rfl
  · exact .inl fun _ => rfl

/-- Tokenizing takes as many values as the placeholders that are not skipped ask for. -/
theorem tokensFrom_takes (skip : Nat) (ps : List Piece) :
    Takes index (index + arityOf (ps.drop skip))
      fun args => (Binding.mk args registry).tokensFrom skip ps position index := by
  induction ps generalizing skip position index with
  | nil =>
    rw [List.drop_nil]
    simp only [tokensFrom]
    exact .nothing index _
  | cons p rest ih =>
    cases skip with
    | succ skip =>
      simp only [tokensFrom]
      exact ih _ _ skip
    | zero =>
      rw [List.drop_zero, arityOf, ← Nat.add_assoc]
      simp only [tokensFrom]
      refine (pieceTokens_takes registry p index position).bind (Nat.le_add_right _ _) ?_
      rintro args ⟨tokens, substituted, next⟩ hanswer
      obtain rfl : next = index + p.lexeme.arity := pieceTokens_next hanswer
      generalize index + p.lexeme.arity = next
      have halone : Takes next (next + arityOf rest) fun args => do
          let more ← (Binding.mk args registry).tokensFrom 0 rest (position + Text.byteLength p.text) next
          return tokens.map (fun t =>
            Spanned.mk t position (position + Text.byteLength p.text) substituted) ++ more :=
        (ih _ _ 0).andThen _
      simp only
      split
      · rename_i model dotted hmodel hdot
        split
        · exact halone
        · rename_i q after hafter
          have hsplit : rest.drop (dotted.length + 1) = after := by
            rw [← List.drop_drop, hafter, List.drop_succ_cons, List.drop_zero]
          have hrest : arityOf rest = q.lexeme.arity + arityOf after := by
            rw [← throughDot_prefix hdot, hafter, arityOf_append, arityOf_throughDot hdot, arityOf,
              Nat.zero_add]
          rcases fieldAfterDot_takes registry q next
              (position + Text.byteLength p.text + piecesLength dotted) with hnone | ⟨hfield, hfound⟩
          · simp only [hnone, Outcome.ok_bind]
            exact halone
          · rw [hrest, ← Nat.add_assoc]
            refine hfield.bind (Nat.le_add_right _ _) ?_
            intro args found h
            obtain ⟨name, quoted, rfl⟩ := hfound args found h
            have hmore := ih (next + q.lexeme.arity) (position + Text.byteLength p.text) (dotted.length + 1)
            rw [hsplit] at hmore
            exact hmore.andThen _
      · exact halone

end Binding

/-! ## Whole formats -/

/-- The number of values that the placeholders of a format take: one each, and one more for each that takes its
type code from a value too. -/
def arity (format : String) : Nat := arityOf (pieces format.toList)

/-- A tokenized format has taken as many values as its placeholders ask for, and no others matter; with fewer of
them, the first one that is lacking is missed. -/
theorem values_in_order {format : String} {args : List Value} {registry : Registry} {ts : List Spanned}
    (h : tokenize format ⟨args, registry⟩ = .ok ts) :
    arity format ≤ args.length ∧
      (∀ args', args'.take (arity format) = args.take (arity format) →
        tokenize format ⟨args', registry⟩ = .ok ts) ∧
      ∀ m < arity format, tokenize format ⟨args.take m, registry⟩ = .error (.missingArgument m m) := by
  have htakes := Binding.tokensFrom_takes registry 0 0 0 (pieces format.toList)
  rw [List.drop_zero, Nat.zero_add] at htakes
  refine ⟨htakes.supplied h (Nat.zero_le _), ?_, ?_⟩
  · exact fun args' hsame => htakes.same h hsame
  · exact fun m hm => htakes.missing h (Nat.zero_le m) hm

/-- A field behind a dot, a type code with its list and a value: four values are taken, and a fifth does not
matter.  The question marks between brackets and quotes take none. -/
theorem values_in_order_qualified_list :
    let args : List Value := [.string "id", .string "int", .array [.bool true, .int 2], .null]
    let tokens := fun args => tokenize "\x7bu\x7d.%c in %_() and [?] like '?' or n = ?" ⟨args, []⟩
    (∃ ts, tokens args = .ok ts ∧ tokens (args ++ [.int 9]) = .ok ts) ∧
      tokens (args.take 2) = .error (.missingArgument 2 2) := by
  intro args tokens
  have htokens : tokens args = .ok _ := rfl
  obtain ⟨-, hsame, hmissing⟩ := values_in_order htokens
  exact ⟨⟨_, htokens, hsame _ rfl⟩, hmissing 2 (by decide)⟩

end RecordQuery.Format
