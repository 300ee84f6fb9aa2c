import RecordQuery.Format.Token
set_option autoImplicit false

/-!
# Format: what tokenizing refuses

A format is never refused for its text, since every character belongs to some lexeme.  Tokenizing fails on an
integer that does not fit, on a value that carries no name or type code, and on what a placeholder is bound
to.
-/

namespace RecordQuery

namespace Outcome

variable {α β : Type} {P : Fault → Prop}

/-- The outcome fails with faults of one sort only. -/
def FailsOnly (P : Fault → Prop) (x : Outcome α) : Prop := ∀ fault, x = .error fault → P fault

theorem FailsOnly.ok (a : α) : FailsOnly P (.ok a) := nofun

theorem FailsOnly.error {fault : Fault} (h : P fault) : FailsOnly P (.error fault : Outcome α) := by
  intro _ heq
  cases heq
  exact h

theorem FailsOnly.bind {x : Outcome α} {f : α → Outcome β} (hx : x.FailsOnly P)
    (hf : ∀ a, (f a).FailsOnly P) : (x >>= f).FailsOnly P := by
  cases x with
  | error fault => exact .error (hx fault rfl)
  | ok a => exact hf a

theorem FailsOnly.mapM {f : α → Outcome β} {items : List α} (hf : ∀ a ∈ items, (f a).FailsOnly P) :
    (items.mapM f).FailsOnly P := by
  induction items with
  | nil => exact .ok []
  | cons a rest ih =>
    obtain ⟨ha, hrest⟩ := List.forall_mem_cons.mp hf
    rw [List.mapM_cons]
    exact ha.bind fun _ => (ih hrest).bind fun _ => .ok _

theorem FailsOnly.foldlM {step : β → α → Outcome β} {items : List α} (hstep : ∀ b a, (step b a).FailsOnly P)
    (b : β) : (items.foldlM step b).FailsOnly P := by
  induction items generalizing b with
  | nil => exact .ok b
  | cons a rest ih =>
    rw [List.foldlM_cons]
    exact (hstep b a).bind ih

end Outcome

namespace DataType

variable (t : DataType) (v : Value)

/-- The fault refuses a value. -/
def Refuses (fault : Fault) : Prop := ∃ cause, fault = .invalid cause

theorem mismatch_failsOnly {α : Type} : (t.mismatch v : Outcome α).FailsOnly Refuses := .error ⟨_, rfl⟩

theorem orMismatch_failsOnly {α : Type} (answer : Option α) :
    (t.orMismatch v answer).FailsOnly Refuses := by
  cases answer with
  | none => exact mismatch_failsOnly t v
  | some a => exact .ok a

theorem toBool_failsOnly : (t.toBool v).FailsOnly Refuses := by
  unfold toBool
  split
  · exact .ok _
  · exact .ok _
  · exact orMismatch_failsOnly _ _ _
  · exact mismatch_failsOnly _ _

theorem toInt_failsOnly : (t.toInt v).FailsOnly Refuses := by
  unfold toInt
  split
  · exact .ok _
  · exact .ok _
  · split
    · exact .ok _
    · exact mismatch_failsOnly _ _
  · exact orMismatch_failsOnly _ _ _
  · exact mismatch_failsOnly _ _

theorem toFloat_failsOnly : (t.toFloat v).FailsOnly Refuses := by
  unfold toFloat
  split
  · exact .ok _
  · exact .ok _
  · exact orMismatch_failsOnly _ _ _
  · exact mismatch_failsOnly _ _

theorem toDate_failsOnly : (t.toDate v).FailsOnly Refuses := by
  unfold toDate
  split
  · exact .ok _
  · exact .ok _
  · exact orMismatch_failsOnly _ _ _
  · exact mismatch_failsOnly _ _

theorem toDateTime_failsOnly : (t.toDateTime v).FailsOnly Refuses := by
  unfold toDateTime
  split
  · exact .ok _
  · exact .ok _
  · exact orMismatch_failsOnly _ _ _
  · exact mismatch_failsOnly _ _

theorem toBytes_failsOnly : (t.toBytes v).FailsOnly Refuses := by
  unfold toBytes
  split
  · exact .ok _
  · exact .ok _
  · exact mismatch_failsOnly _ _

theorem toVariant_failsOnly (e : EnumType) : (toVariant e v).FailsOnly Refuses := by
  unfold toVariant
  split
  · split
    · exact .ok _
    · exact .error ⟨_, rfl⟩
  · exact .error ⟨_, rfl⟩

theorem toObject_failsOnly : (t.toObject v).FailsOnly Refuses := by
  unfold toObject
  split
  · split
    · exact .ok _
    · exact .error ⟨_, rfl⟩
  · exact .ok _
  · exact .ok _
  · exact mismatch_failsOnly _ _

/-- Decoding fails only by refusing the value. -/
theorem decode_failsOnly : (t.decode v).FailsOnly Refuses := by
  unfold decode
  split
  · exact .ok _
  cases t with
  | boolean => exact (toBool_failsOnly _ v).bind fun _ => .ok _
  | integer signed width serial => exact (toInt_failsOnly _ v).bind fun _ => .ok _
  | float => exact (toFloat_failsOnly _ v).bind fun _ => .ok _
  | string maxLength => exact .ok _
  | text nullable => exact .ok _
  | date => exact (toDate_failsOnly _ v).bind fun _ => .ok _
  | dateTime => exact (toDateTime_failsOnly _ v).bind fun _ => .ok _
  | binary => exact (toBytes_failsOnly _ v).bind fun _ => .ok _
  | object => exact toObject_failsOnly _ v
  | enumeration e => exact (toVariant_failsOnly _ e).bind fun _ => .ok _

end DataType

namespace Format

/-- The causes for which tokenizing refuses a format. -/
def refusals : List ParseCause := [.integerOutOfRange, .expectedName, .expectedTypeCode]

/-- If the fault is about the format, it is one of the refusals. -/
def IsRefusal : Fault → Prop
  | .parse _ _ cause => cause ∈ refusals
  | _ => True

open Outcome (FailsOnly)

namespace Binding

variable (b : Binding)

theorem coerce_failsOnly (t : Option DataType) (v : Value) : (coerce t v).FailsOnly IsRefusal := by
  cases t with
  | none => exact .ok v
  | some t =>
    intro fault hfault
    obtain ⟨cause, rfl⟩ := t.decode_failsOnly v fault hfault
    trivial

theorem take_failsOnly (index : Nat) : (b.take index).FailsOnly IsRefusal := by
  unfold take
  split
  · exact .ok _
  · exact .error trivial

theorem nameOf_failsOnly (v : Value) (position : Nat) : (nameOf v position).FailsOnly IsRefusal := by
  have hrefused : IsRefusal (.parse position v.describe .expectedName) := by
    simp [IsRefusal, refusals]
  unfold nameOf
  split
  · split
    · exact .error hrefused
    · exact .ok _
  · split
    · exact .ok _
    · exact .error hrefused
  · exact .error hrefused

theorem takeName_failsOnly (index position : Nat) : (b.takeName index position).FailsOnly IsRefusal :=
  (b.take_failsOnly index).bind fun v => nameOf_failsOnly v position

theorem typeOf_failsOnly (code shown : String) : (b.typeOf code shown).FailsOnly IsRefusal := by
  unfold typeOf
  split
  · exact .ok _
  · exact .error trivial

theorem placeholderType_failsOnly (code : Option String) (tuple : Bool) (index position : Nat) :
    (b.placeholderType code tuple index position).FailsOnly IsRefusal := by
  unfold placeholderType
  split
  · exact .ok _
  · refine (b.take_failsOnly index).bind fun v => ?_
    split
    · exact (b.typeOf_failsOnly _ _).bind fun _ => .ok _
    · exact .error (by simp [IsRefusal, refusals])
  · exact (b.typeOf_failsOnly _ _).bind fun _ => .ok _

theorem listTokens_failsOnly (t : Option DataType) (items : List Value) :
    (listTokens t items).FailsOnly IsRefusal :=
  (FailsOnly.mapM fun v _ => (coerce_failsOnly t v).bind fun _ => .ok _).bind fun _ => .ok _

theorem placeholder_failsOnly (code : Option String) (tuple : Bool) (index position : Nat) :
    (b.placeholder code tuple index position).FailsOnly IsRefusal := by
  unfold placeholder
  split
  · exact (b.takeName_failsOnly index position).bind fun _ => .ok _
  split
  · exact (b.takeName_failsOnly index position).bind fun _ => .ok _
  refine (b.placeholderType_failsOnly code tuple index position).bind fun _ => ?_
  refine (b.take_failsOnly _).bind fun v => ?_
  split
  · split
    · exact (listTokens_failsOnly _ _).bind fun _ => .ok _
    · exact .error trivial
  · exact (coerce_failsOnly _ _).bind fun _ => .ok _

theorem numberToken_failsOnly (text : List Char) (position : Nat) :
    (numberToken text position).FailsOnly IsRefusal := by
  unfold numberToken
  split
  · exact .ok _
  split
  · exact .ok _
  · exact .error (by simp [IsRefusal, refusals])

theorem pieceTokens_failsOnly (p : Piece) (index position : Nat) :
    (b.pieceTokens p index position).FailsOnly IsRefusal := by
  unfold pieceTokens
  split
  case h_6 => exact (b.placeholder_failsOnly _ _ _ _).bind fun _ => .ok _
  case h_7 => exact (numberToken_failsOnly _ _).bind fun _ => .ok _
  all_goals exact .ok _

theorem fieldAfterDot_failsOnly (p : Piece) (index position : Nat) :
    (b.fieldAfterDot p index position).FailsOnly IsRefusal := by
  unfold fieldAfterDot
  split
  · exact .ok _
  · exact .ok _
  · split
    · exact (b.takeName_failsOnly _ _).bind fun _ => .ok _
    · exact .ok _
  · exact .ok _

theorem tokensFrom_failsOnly (skip : Nat) (ps : List Piece) (position index : Nat) :
    (b.tokensFrom skip ps position index).FailsOnly IsRefusal := by
  induction ps generalizing skip position index with
  | nil =>
    rw [tokensFrom]
    exact .ok []
  | cons p rest ih =>
    cases skip with
    | succ skip => exact ih skip _ _
    | zero =>
      have halone : ∀ {plain : List Spanned} {stop index : Nat},
          (do return plain ++ (← b.tokensFrom 0 rest stop index) : Outcome _).FailsOnly IsRefusal :=
        (ih _ _ _).bind fun _ => .ok _
      rw [tokensFrom]
      refine (b.pieceTokens_failsOnly p index position).bind fun _ => ?_
      simp only
      split
      · split
        · exact halone
        · refine (b.fieldAfterDot_failsOnly _ _ _).bind fun found => ?_
          split
          · exact (ih _ _ _).bind fun _ => .ok _
          · exact halone
      · exact halone

end Binding

/-- Tokenizing refuses no format because of a character. -/
theorem tokenize_failsOnly (format : String) (b : Binding) : (tokenize format b).FailsOnly IsRefusal :=
  b.tokensFrom_failsOnly 0 (pieces format.toList) 0 0

end Format

end RecordQuery
