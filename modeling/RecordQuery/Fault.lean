import RecordQuery.DataType
import RecordQuery.Dialect
import RecordQuery.Value.Text
set_option autoImplicit false

/-!
# Fault: what can go wrong

A fault says what went wrong, not how it is worded; the wording is in `Fault.message` alone.  Faults fall
into kinds, which callers tell apart.  An overflow is of no kind: it stops the program, and no caller is told.
-/

namespace RecordQuery

/-- Why a format is no expression. -/
inductive ParseCause where
  | integerOutOfRange
  | emptyExpression
  | unbalancedParenthesis
  | trailingInput
  | chainedComparison
  | expectedLikeOrIn
  | expectedOperand
  | functionCall
  | malformedTuple
  | unterminatedTuple
  | danglingOperator
  | modelWithoutField
  | unexpectedToken
  | expectedClosing
  | listOfNonLiterals
  | expectedName
  | expectedTypeCode
  deriving DecidableEq, Repr, Inhabited

/-- Why a value is refused. -/
inductive ValueCause where
  /-- the value has no representation in the type -/
  | mismatch (value : Value) (type : DataType)
  /-- a negative number for an unsigned column -/
  | negative (n : Int64)
  /-- a text longer than its column -/
  | tooLong (count limit : Nat)
  /-- a text that is no variant of the enumeration -/
  | noVariant (value : Value) (enumeration : String)
  /-- the text of an object column is no JSON -/
  | badJson
  /-- a tuple placeholder at this position was given no list -/
  | noList (position : Nat) (value : Value)
  | unknownField (model field : String)
  | nothingToUpdate
  | nothingAssigned (model : String)
  | duplicateKey (model : String)
  | nothingToInsert (model : String)
  | unequalFields (model : String)
  | severalEmptyRows
  deriving Inhabited

/-- What a target cannot express. -/
inductive TargetCause where
  | noTable (name : String)
  | boundedWithoutKey (model : String) (dialect : Dialect)
  | noReplace
  | upsertWithoutKey (model : String)
  deriving DecidableEq, Repr, Inhabited

/-- How a backend failed to answer. -/
inductive BackendCause where
  | countMissing
  | badCount (value : Value)
  | failed (text : String)
  deriving Inhabited

/-- What is wrong with the settings. -/
inductive SettingsCause where
  | unknownDialect (name : String)
  | unknownScheme (url : String)
  /-- the settings text is malformed -/
  | malformed
  /-- the settings file of this name is malformed -/
  | malformedFile (name : String)
  deriving DecidableEq, Repr, Inhabited

/-- What went wrong. -/
inductive Fault where
  /-- the format is no expression; `near` is the offending text -/
  | parse (position : Nat) (near : String) (cause : ParseCause)
  /-- a placeholder asked for a value that was not supplied -/
  | missingArgument (index supplied : Nat)
  | unsupportedOperator (symbol : String)
  /-- a source of another backend, or a selection over another source -/
  | foreignSource (owner other : String)
  | unknownType (code : String)
  | invalid (cause : ValueCause)
  | unsupported (cause : TargetCause)
  /-- a format that is SQL but no expression, where a value is needed -/
  | notEvaluable (format : String) (reason : Fault)
  | backend (cause : BackendCause)
  /-- no database is reached under URLs of this scheme -/
  | unreachable (scheme : String)
  | settings (cause : SettingsCause)
  /-- a sum does not fit into 64 bits; the program stops where it is computed -/
  | overflow
  deriving Inhabited

/-- The kinds of faults. -/
inductive FaultKind where
  | parse
  | argumentCount
  | unsupportedOperator
  | incompatibleSource
  | unknownType
  | invalidValue
  | unsupported
  | query
  | connection
  | config
  deriving DecidableEq, Repr, Inhabited

/-- The kind of a fault, if a caller is told about it. -/
def Fault.kind? : Fault → Option FaultKind
  | .parse _ _ _ => some .parse
  | .missingArgument _ _ => some .argumentCount
  | .unsupportedOperator _ => some .unsupportedOperator
  | .foreignSource _ _ => some .incompatibleSource
  | .unknownType _ => some .unknownType
  | .invalid _ => some .invalidValue
  | .unsupported _ => some .unsupported
  | .notEvaluable _ _ => some .unsupported
  | .backend _ => some .query
  | .unreachable _ => some .connection
  | .settings _ => some .config
  | .overflow => none

/-! ## Wording -/

/-- The wording of a parse cause. -/
def ParseCause.message : ParseCause → String
  | .integerOutOfRange => "integer out of range"
  | .emptyExpression => "empty expression"
  | .unbalancedParenthesis => "unbalanced parenthesis"
  | .trailingInput => "unexpected trailing input"
  | .chainedComparison => "comparison operators do not chain"
  | .expectedLikeOrIn => "expected 'like' or 'in' after 'not'"
  | .expectedOperand => "expected an operand"
  | .functionCall => "function calls are not expressions"
  | .malformedTuple => "malformed tuple"
  | .unterminatedTuple => "unterminated tuple"
  | .danglingOperator => "dangling operator"
  | .modelWithoutField => "model reference without a field"
  | .unexpectedToken => "unexpected token"
  | .expectedClosing => "expected ')'"
  | .listOfNonLiterals => "lists may only contain literals"
  | .expectedName => "expected a name"
  | .expectedTypeCode => "expected a type code"

/-- The wording of a refused value. -/
def ValueCause.message : ValueCause → String
  | .mismatch value type => "cannot represent " ++ value.inspect ++ " as " ++ type.describe
  | .negative n => toString n.toInt ++ " is negative for an unsigned column"
  | .tooLong count limit => "string of " ++ toString count ++ " characters exceeds " ++ toString limit
  | .noVariant value enumeration => value.describe ++ " is not a variant of " ++ enumeration
  | .badJson => "bad JSON column: "
  | .noList position value =>
    "tuple placeholder at " ++ toString position ++ " needs a list, got " ++ value.describe
  | .unknownField model field => model ++ " has no field " ++ field
  | .nothingToUpdate => "UPDATE without assignments"
  | .nothingAssigned model => "UPDATE of " ++ model ++ " assigns nothing"
  | .duplicateKey model => "duplicate primary key in " ++ model
  | .nothingToInsert model => "INSERT into " ++ model ++ " without rows"
  | .unequalFields model => "every row inserted into " ++ model ++ " must set the same fields"
  | .severalEmptyRows => "several rows without fields"

/-- The wording of what a target cannot express. -/
def TargetCause.message : TargetCause → String
  | .noTable name => "no table " ++ name ++ " in this store"
  | .boundedWithoutKey model dialect =>
    "bounded UPDATE/DELETE on " ++ model ++ " needs a primary key for " ++ dialect.name
  | .noReplace => "REPLACE on SQL Server"
  | .upsertWithoutKey model => "upsert into " ++ model ++ " needs a primary key"

/-- The wording of a backend failure. -/
def BackendCause.message : BackendCause → String
  | .countMissing => "count returned no rows"
  | .badCount value => "count returned " ++ value.describe
  | .failed text => text

/-- The wording of a settings fault. -/
def SettingsCause.message : SettingsCause → String
  | .unknownDialect name => "unknown dialect '" ++ name ++ "'"
  | .unknownScheme url => "cannot tell the dialect of '" ++ url ++ "'"
  | .malformed => ""
  | .malformedFile name => name ++ ": "

/-- The wording of a fault. -/
def Fault.message : Fault → String
  | .parse position near cause =>
    "Parse error at position " ++ toString position ++ " near '" ++ near ++ "': " ++ cause.message
  | .missingArgument index supplied =>
    "Placeholder needs argument #" ++ toString index ++ " but only " ++ toString supplied ++ " supplied"
  | .unsupportedOperator symbol => "Unsupported operator: '" ++ symbol ++ "'"
  | .foreignSource owner other =>
    "Incompatible source '" ++ other ++ "': it does not share the backend of '" ++ owner ++ "'"
  | .unknownType code => "Unknown placeholder type: '%" ++ code ++ "'"
  | .invalid cause => "Invalid value: " ++ cause.message
  | .unsupported cause => "Unsupported: " ++ cause.message
  | .notEvaluable format reason =>
    "Unsupported: '" ++ format ++ "' cannot be evaluated in memory: " ++ reason.message
  | .backend cause => "Query error: " ++ cause.message
  | .unreachable scheme =>
    "Connection error: error with configuration: no driver found for URL scheme " ++ Text.quoted scheme
  | .settings cause => "Configuration error: " ++ cause.message
  | .overflow => "attempt to add with overflow"

/-- A result, or what went wrong. -/
abbrev Outcome (α : Type) := Except Fault α

namespace Outcome

variable {α β : Type}

/-- Two steps succeed when both do, with the answer of the second one. -/
theorem bind_eq_ok {x : Outcome α} {f : α → Outcome β} {b : β} :
    (x >>= f) = .ok b ↔ ∃ a, x = .ok a ∧ f a = .ok b := by
  cases x with
  | error fault => simp [bind, Except.bind]
  | ok a => simp [bind, Except.bind]

/-- Two steps fail when the first one does, or the second one after it. -/
theorem bind_eq_error {x : Outcome α} {f : α → Outcome β} {fault : Fault} :
    (x >>= f) = .error fault ↔ x = .error fault ∨ ∃ a, x = .ok a ∧ f a = .error fault := by
  cases x with
  | error fault => simp [bind, Except.bind]
  | ok a => simp [bind, Except.bind]

@[simp] theorem ok_bind (a : α) (f : α → Outcome β) : ((.ok a : Outcome α) >>= f) = f a := rfl

theorem toOption_eq_some {x : Outcome α} {a : α} : x.toOption = some a ↔ x = .ok a := by
  cases x with
  | error fault => exact ⟨nofun, nofun⟩
  | ok b => exact ⟨fun h => congrArg Except.ok (Option.some.inj h), fun h => congrArg some (Except.ok.inj h)⟩

theorem toOption_bind (x : Outcome α) (f : α → Outcome β) :
    (x >>= f).toOption = x.toOption.bind fun a => (f a).toOption := by
  cases x <;> rfl

/-- The answer of a step beside something else. -/
theorem pair_eq_ok {x : Outcome α} {b : β} {p : α × β} :
    (do return (← x, b)) = (.ok p : Outcome (α × β)) ↔ x = .ok p.1 ∧ p.2 = b := by
  rw [bind_eq_ok]
  constructor
  · rintro ⟨a, ha, h⟩
    cases h
    exact ⟨ha, rfl⟩
  · rintro ⟨ha, rfl⟩
    exact ⟨p.1, ha, rfl⟩

/-- A step that succeeds on every item of a list succeeds on the list. -/
theorem mapM_eq_ok {f : α → Outcome β} {g : α → β} {items : List α} (h : ∀ a ∈ items, f a = .ok (g a)) :
    items.mapM f = .ok (items.map g) := by
  induction items with
  | nil => rfl
  | cons a rest ih =>
    rw [List.mapM_cons, h a List.mem_cons_self, ok_bind,
      ih fun b hb => h b (List.mem_cons_of_mem a hb)]
    rfl

/-- A step succeeds on a list when it does on its first item and on the others. -/
theorem mapM_cons_eq_ok {f : α → Outcome β} {a : α} {rest : List α} {answers : List β} :
    (a :: rest).mapM f = .ok answers ↔
      ∃ b bs, f a = .ok b ∧ rest.mapM f = .ok bs ∧ answers = b :: bs := by
  rw [List.mapM_cons]
  constructor
  · intro h
    obtain ⟨b, hb, h⟩ := bind_eq_ok.mp h
    obtain ⟨bs, hbs, h⟩ := bind_eq_ok.mp h
    cases h
    exact ⟨b, bs, hb, hbs, rfl⟩
  · rintro ⟨b, bs, hb, hbs, rfl⟩
    rw [hb, ok_bind, hbs]
    rfl

/-- What a step keeps of its item is kept of a list. -/
theorem map_of_mapM {γ : Type} {f : α → Outcome β} {g : β → γ} {k : α → γ} {items : List α}
    {answers : List β} (hf : ∀ a b, f a = .ok b → g b = k a) (h : items.mapM f = .ok answers) :
    answers.map g = items.map k := by
  induction items generalizing answers with
  | nil =>
    cases h
    rfl
  | cons a rest ih =>
    obtain ⟨b, bs, hb, hbs, rfl⟩ := mapM_cons_eq_ok.mp h
    rw [List.map_cons, List.map_cons, hf a b hb, ih hbs]

theorem length_of_mapM {f : α → Outcome β} {items : List α} {answers : List β}
    (h : items.mapM f = .ok answers) : answers.length = items.length := by
  simpa using congrArg List.length (map_of_mapM (g := fun _ => ()) (k := fun _ => ()) (fun _ _ _ => rfl) h)

/-- What a step ensures holds of all its answers to a list. -/
theorem forall_of_mapM {f : α → Outcome β} {P : β → Prop} {items : List α} {answers : List β}
    (hf : ∀ a b, f a = .ok b → P b) (h : items.mapM f = .ok answers) : ∀ b ∈ answers, P b := by
  induction items generalizing answers with
  | nil =>
    cases h
    exact fun b hb => absurd hb List.not_mem_nil
  | cons a rest ih =>
    obtain ⟨b, bs, hb, hbs, rfl⟩ := mapM_cons_eq_ok.mp h
    exact List.forall_mem_cons.mpr ⟨hf a b hb, ih hbs⟩

/-- Every answer to a list is the answer to one of its items. -/
theorem exists_of_mapM {f : α → Outcome β} {items : List α} {answers : List β}
    (h : items.mapM f = .ok answers) {b : β} (hb : b ∈ answers) : ∃ a ∈ items, f a = .ok b := by
  induction items generalizing answers with
  | nil =>
    cases h
    exact absurd hb List.not_mem_nil
  | cons a rest ih =>
    obtain ⟨first, more, hfirst, hmore, rfl⟩ := mapM_cons_eq_ok.mp h
    rcases List.mem_cons.mp hb with rfl | hb
    · exact ⟨a, List.mem_cons_self, hfirst⟩
    · obtain ⟨c, hc, hanswer⟩ := ih hmore hb
      exact ⟨c, List.mem_cons_of_mem a hc, hanswer⟩

/-- A step that succeeds on a list succeeds on all its items, and has their answers among its own. -/
theorem mem_of_mapM {f : α → Outcome β} {items : List α} {answers : List β}
    (h : items.mapM f = .ok answers) {a : α} (ha : a ∈ items) : ∃ b ∈ answers, f a = .ok b := by
  induction items generalizing answers with
  | nil => exact absurd ha List.not_mem_nil
  | cons c rest ih =>
    obtain ⟨first, more, hfirst, hmore, rfl⟩ := mapM_cons_eq_ok.mp h
    rcases List.mem_cons.mp ha with rfl | ha
    · exact ⟨first, List.mem_cons_self, hfirst⟩
    · obtain ⟨b, hb, hanswer⟩ := ih hmore ha
      exact ⟨b, List.mem_cons_of_mem first hb, hanswer⟩

theorem ok_of_mapM {f : α → Outcome β} {items : List α} {answers : List β}
    (h : items.mapM f = .ok answers) {a : α} (ha : a ∈ items) : ∃ b, f a = .ok b := by
  obtain ⟨b, -, hb⟩ := mem_of_mapM h ha
  exact ⟨b, hb⟩

/-- A step that succeeds on all items of a list succeeds on the list. -/
theorem exists_mapM {f : α → Outcome β} {items : List α} (h : ∀ a ∈ items, ∃ b, f a = .ok b) :
    ∃ answers, items.mapM f = .ok answers := by
  induction items with
  | nil => exact ⟨[], rfl⟩
  | cons a rest ih =>
    obtain ⟨⟨b, hb⟩, hrest⟩ := List.forall_mem_cons.mp h
    obtain ⟨bs, hbs⟩ := ih hrest
    exact ⟨b :: bs, mapM_cons_eq_ok.mpr ⟨b, bs, hb, hbs, rfl⟩⟩

/-- Steps that agree on every item of a list agree on the list. -/
theorem mapM_congr {f g : α → Outcome β} {items : List α} (h : ∀ a ∈ items, f a = g a) :
    items.mapM f = items.mapM g := by
  induction items with
  | nil => rfl
  | cons a rest ih =>
    rw [List.mapM_cons, List.mapM_cons, h a List.mem_cons_self,
      ih fun b hb => h b (List.mem_cons_of_mem a hb)]

/-- A step that succeeds on every item of a list succeeds on the items in another order. -/
theorem mapM_perm {f : α → Outcome β} {items items' : List α} (hperm : items.Perm items')
    {answers : List β} (h : items.mapM f = .ok answers) :
    ∃ answers', items'.mapM f = .ok answers' ∧ answers.Perm answers' := by
  induction hperm generalizing answers with
  | nil => exact ⟨answers, h, .refl _⟩
  | cons a _ ih =>
    obtain ⟨b, bs, hb, hbs, rfl⟩ := mapM_cons_eq_ok.mp h
    obtain ⟨bs', hbs', hbperm⟩ := ih hbs
    exact ⟨b :: bs', mapM_cons_eq_ok.mpr ⟨b, bs', hb, hbs', rfl⟩, hbperm.cons b⟩
  | swap a a' rest =>
    obtain ⟨b, bs, hb, hbs, rfl⟩ := mapM_cons_eq_ok.mp h
    obtain ⟨b', more, hb', hmore, rfl⟩ := mapM_cons_eq_ok.mp hbs
    have hrest : (a' :: rest).mapM f = .ok (b :: more) := mapM_cons_eq_ok.mpr ⟨b, more, hb, hmore, rfl⟩
    exact ⟨b' :: b :: more, mapM_cons_eq_ok.mpr ⟨b', b :: more, hb', hrest, rfl⟩, .swap b' b more⟩
  | trans _ _ ih ih' =>
    obtain ⟨bs, hbs, hperm⟩ := ih h
    obtain ⟨bs', hbs', hperm'⟩ := ih' hbs
    exact ⟨bs', hbs', hperm.trans hperm'⟩

/-- Where a step succeeds whenever another one does, with the same answer, so do all steps along a list. -/
theorem foldlM_imp {step step' : β → α → Outcome β} {items : List α}
    (h : ∀ a ∈ items, ∀ b c, step b a = .ok c → step' b a = .ok c) {b c : β}
    (hsteps : items.foldlM step b = .ok c) : items.foldlM step' b = .ok c := by
  induction items generalizing b with
  | nil => exact hsteps
  | cons a rest ih =>
    obtain ⟨hfirst, hrest⟩ := List.forall_mem_cons.mp h
    obtain ⟨next, hnext, hsteps⟩ := bind_eq_ok.mp hsteps
    exact bind_eq_ok.mpr ⟨next, hfirst b next hnext, ih hrest hsteps⟩

/-- A step answers a list with itself when it answers every item with itself. -/
theorem mapM_eq_self_iff {f : α → Outcome α} {items : List α} :
    items.mapM f = .ok items ↔ ∀ a ∈ items, f a = .ok a := by
  refine ⟨fun h => ?_, fun h => ?_⟩
  · induction items with
    | nil => exact fun a ha => absurd ha List.not_mem_nil
    | cons a rest ih =>
      obtain ⟨b, bs, hb, hbs, hself⟩ := mapM_cons_eq_ok.mp h
      obtain ⟨rfl, rfl⟩ := List.cons.inj hself
      exact List.forall_mem_cons.mpr ⟨hb, ih hbs⟩
  · have hid := mapM_eq_ok (g := id) h
    rwa [List.map_id] at hid

end Outcome

end RecordQuery
