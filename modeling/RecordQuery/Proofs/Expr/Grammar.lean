import RecordQuery.Expr.OfTokens
set_option autoImplicit false

/-!
# Expr: the grammar of expressions

The grammar is given by its derivations, one type for each level:

    disjunction  ::=  conjunction (`or` conjunction)*
    conjunction  ::=  negation (`and` negation)*
    negation     ::=  `not` negation  |  comparison
    comparison   ::=  operand  |  operand comparator operand
    operand      ::=  literal  |  null  |  field  |  `(` disjunction `)`
                   |  `(` disjunction (`,` disjunction)+ `)`  |  list placeholder

A derivation has the tokens it derives and, where every item of a written list is a constant, the
expression it means.  No definition here mentions the reader.  The main statement is that the grammar is
unambiguous: derivations with the same tokens are the same.
-/

namespace RecordQuery.Expr.Grammar

open Format (Token Spanned)

/-! ## Comparators -/

/-- A comparison sign, by its spelling. -/
inductive Comparator where
  | eq
  | ne
  /-- `<>`, the other spelling of `ne` -/
  | diamond
  | lt
  | gt
  | le
  | ge
  | notLt
  | notGt
  | like
  | isIn
  | is
  | isNot
  | notLike
  | notIn
  deriving DecidableEq, Repr, Inhabited

namespace Comparator

/-- The words of a comparator. -/
def words : Comparator → List String
  | .eq => ["="]
  | .ne => ["!="]
  | .diamond => ["<>"]
  | .lt => ["<"]
  | .gt => [">"]
  | .le => ["<="]
  | .ge => [">="]
  | .notLt => ["!<"]
  | .notGt => ["!>"]
  | .like => ["like"]
  | .isIn => ["in"]
  | .is => ["is"]
  | .isNot => ["is", "not"]
  | .notLike => ["not", "like"]
  | .notIn => ["not", "in"]

/-- The tokens of a comparator. -/
def tokens (sign : Comparator) : List Token := sign.words.map Token.operator

/-- The operator of a comparator; that of its positive form if it is negated. -/
def operator : Comparator → Operator
  | .eq => .eq
  | .ne => .ne
  | .diamond => .ne
  | .lt => .lt
  | .gt => .gt
  | .le => .le
  | .ge => .ge
  | .notLt => .notLt
  | .notGt => .notGt
  | .like => .like
  | .isIn => .isIn
  | .is => .is
  | .isNot => .isNot
  | .notLike => .like
  | .notIn => .isIn

/-- The comparator is spelled with a leading `not`. -/
def isNegated : Comparator → Bool
  | .notLike => true
  | .notIn => true
  | _ => false

/-- The right side of `in`: a constant that stands alone is a list of one. -/
def listed : Expr → Expr
  | .literal type value => .list type [value]
  | e => e

/-- What a comparison means. -/
def combine (sign : Comparator) (left right : Expr) : Expr :=
  match sign with
  | .isIn => .binary left .isIn (listed right)
  | .notIn => .unary .not (.binary left .isIn (listed right))
  | .notLike => .unary .not (.binary left .like right)
  | sign => .binary left sign.operator right

end Comparator

/-! ## Derivations -/

mutual

/-- Conjunctions joined by `or`. -/
inductive Disjunction where
  | last (c : Conjunction)
  | join (c : Conjunction) (rest : Disjunction)

/-- Negations joined by `and`. -/
inductive Conjunction where
  | last (n : Negation)
  | join (n : Negation) (rest : Conjunction)

/-- A comparison after any number of `not`. -/
inductive Negation where
  | not (n : Negation)
  | plain (c : Comparison)

/-- An operand, or two with a comparator between them. -/
inductive Comparison where
  | operand (a : Operand)
  | compare (left : Operand) (sign : Comparator) (right : Operand)

/-- What stands on either side of a comparator. -/
inductive Operand where
  | literal (type : DataType) (value : Value)
  | null
  | field (name : String) (quoted : Bool) (model : Option (String × Bool))
  | group (d : Disjunction)
  /-- a written list of two items or more -/
  | list (first : Disjunction) (rest : Items)
  /-- a list placeholder with the literals that it is bound to -/
  | tuple (type : DataType) (items : List (DataType × Value))

/-- The items of a written list after the first one. -/
inductive Items where
  | last (d : Disjunction)
  | join (d : Disjunction) (rest : Items)

end

/-! ## Tokens -/

mutual

/-- The tokens of a disjunction. -/
def Disjunction.tokens : Disjunction → List Token
  | .last c => c.tokens
  | .join c rest => c.tokens ++ .operator "or" :: rest.tokens

/-- The tokens of a conjunction. -/
def Conjunction.tokens : Conjunction → List Token
  | .last n => n.tokens
  | .join n rest => n.tokens ++ .operator "and" :: rest.tokens

/-- The tokens of a negation. -/
def Negation.tokens : Negation → List Token
  | .not n => .operator "not" :: n.tokens
  | .plain c => c.tokens

/-- The tokens of a comparison. -/
def Comparison.tokens : Comparison → List Token
  | .operand a => a.tokens
  | .compare left sign right => left.tokens ++ (sign.tokens ++ right.tokens)

/-- The tokens of an operand. -/
def Operand.tokens : Operand → List Token
  | .literal type value => [.literal type value]
  | .null => [.null]
  | .field name quoted model => [.field name quoted model]
  | .group d => .openParen :: (d.tokens ++ [.closeParen])
  | .list first rest => .openParen :: (first.tokens ++ .comma :: (rest.tokens ++ [.closeParen]))
  | .tuple type items => .openList type :: (items.map (fun i => .literal i.1 i.2) ++ [.closeList])

/-- The tokens of the items after the first one. -/
def Items.tokens : Items → List Token
  | .last d => d.tokens
  | .join d rest => d.tokens ++ .comma :: rest.tokens

end

/-! ## Meaning -/

/-- The type and value of a constant. -/
def constant? : Expr → Option (DataType × Value)
  | .literal type value => some (type, value)
  | _ => none

/-- The list that several items between parentheses mean: all of them are constants, and the first one that
is not null gives the type; without such an item the type is text. -/
def writtenList? (items : List Expr) : Option Expr := do
  let constants ← items.mapM constant?
  let types := (constants.filter fun c => !c.2.isNull).map Prod.fst
  return .list (types.head?.getD .plainText) (constants.map Prod.snd)

mutual

/-- The meaning of a disjunction, grouped to the left. -/
def Disjunction.tree? : Disjunction → Option Expr
  | .last c => c.tree?
  | .join c rest => c.tree?.bind rest.after?

/-- The meaning of a disjunction whose earlier part means `left`. -/
def Disjunction.after? : Disjunction → Expr → Option Expr
  | .last c, left => c.tree?.bind fun right => some (.binary left .or right)
  | .join c rest, left => c.tree?.bind fun right => rest.after? (.binary left .or right)

/-- The meaning of a conjunction, grouped to the left. -/
def Conjunction.tree? : Conjunction → Option Expr
  | .last n => n.tree?
  | .join n rest => n.tree?.bind rest.after?

/-- The meaning of a conjunction whose earlier part means `left`. -/
def Conjunction.after? : Conjunction → Expr → Option Expr
  | .last n, left => n.tree?.bind fun right => some (.binary left .and right)
  | .join n rest, left => n.tree?.bind fun right => rest.after? (.binary left .and right)

/-- The meaning of a negation. -/
def Negation.tree? : Negation → Option Expr
  | .not n => n.tree?.map (Expr.unary .not)
  | .plain c => c.tree?

/-- The meaning of a comparison. -/
def Comparison.tree? : Comparison → Option Expr
  | .operand a => a.tree?
  | .compare left sign right => left.tree?.bind fun l => right.tree?.map fun r => sign.combine l r

/-- The meaning of an operand. -/
def Operand.tree? : Operand → Option Expr
  | .literal type value => some (.literal type value)
  | .null => some Expr.null
  | .field name quoted model =>
    some (.field ⟨name, quoted, model.map Prod.fst, (model.map Prod.snd).getD false⟩)
  | .group d => d.tree?
  | .list first rest => first.tree?.bind fun e => rest.trees?.bind fun es => writtenList? (e :: es)
  | .tuple type items => some (.list type (items.map Prod.snd))

/-- The meanings of the items after the first one. -/
def Items.trees? : Items → Option (List Expr)
  | .last d => d.tree?.map fun e => [e]
  | .join d rest => d.tree?.bind fun e => rest.trees?.map fun es => e :: es

end

/-- There is always one item. -/
theorem Items.trees?_eq_cons {i : Items} {es : List Expr} (h : i.trees? = some es) :
    ∃ e rest, es = e :: rest := by
  cases i with
  | last d =>
    obtain ⟨e, -, rfl⟩ := Option.map_eq_some_iff.mp h
    exact ⟨e, [], rfl⟩
  | join d rest =>
    obtain ⟨e, -, h⟩ := Option.bind_eq_some_iff.mp h
    obtain ⟨es', -, rfl⟩ := Option.map_eq_some_iff.mp h
    exact ⟨e, es', rfl⟩

/-- The tokens derive from the grammar, with this meaning. -/
def Derives (ts : List Token) (e : Expr) : Prop := ∃ d : Disjunction, d.tokens = ts ∧ d.tree? = some e

/-! ## Follow sets -/

/-- What may stand after a construct: nothing, a closing parenthesis, a comma, or one of some operators. -/
def Follows (words : List String) : List Token → Prop
  | [] => True
  | .closeParen :: _ => True
  | .comma :: _ => True
  | .operator w :: _ => w ∈ words
  | _ => False

theorem Follows.mono {few many : List String} (h : ∀ w ∈ few, w ∈ many) {ts : List Token}
    (ht : Follows few ts) : Follows many ts := by
  unfold Follows at ht ⊢
  split <;> simp_all

theorem Follows.weaken {ts : List Token} (ht : Follows [] ts) (words : List String) :
    Follows words ts :=
  ht.mono fun _ hw => absurd hw List.not_mem_nil

theorem Follows.weakenOr {ts : List Token} (ht : Follows ["or"] ts) : Follows ["or", "and"] ts :=
  ht.mono fun _ hw => List.mem_append_left ["and"] hw

theorem follows_closeParen (words : List String) (ts : List Token) : Follows words (.closeParen :: ts) :=
  trivial

theorem follows_comma (words : List String) (ts : List Token) : Follows words (.comma :: ts) := trivial

theorem follows_operator {w : String} {words : List String} (h : w ∈ words) (ts : List Token) :
    Follows words (.operator w :: ts) := h

theorem Follows.not_openParen {words : List String} {ts : List Token} (h : Follows words ts) :
    ∀ us, ts ≠ .openParen :: us := by
  rintro us rfl
  exact h

theorem Comparator.not_openParen (sign : Comparator) (x : List Token) :
    ∀ us, sign.tokens ++ x ≠ .openParen :: us := by
  intro us h
  cases sign <;> cases h

/-- The first token is no operator. -/
def StartsOperand : List Token → Prop
  | .operator _ :: _ => False
  | _ => True

theorem Operand.startsOperand (a : Operand) (r : List Token) : StartsOperand (a.tokens ++ r) := by
  cases a <;> exact trivial

theorem Comparison.startsOperand (c : Comparison) (r : List Token) : StartsOperand (c.tokens ++ r) := by
  cases c with
  | operand a => exact a.startsOperand r
  | compare left sign right =>
    rw [Comparison.tokens, List.append_assoc]
    exact left.startsOperand _

/-! ## Unambiguity

Derivations of one level whose tokens, with what follows them, agree are the same, as long as neither
remainder could continue them.  Operands delimit themselves, so that anything may follow them. -/

/-- A derivation has tokens. -/
theorem Operand.tokens_ne_nil (a : Operand) : a.tokens ≠ [] := by
  intro h
  cases a <;> cases h

theorem Comparison.tokens_ne_nil (c : Comparison) : c.tokens ≠ [] := by
  cases c with
  | operand a => exact a.tokens_ne_nil
  | compare left sign right => exact List.append_ne_nil_of_left_ne_nil left.tokens_ne_nil _

theorem Negation.tokens_ne_nil (n : Negation) : n.tokens ≠ [] := by
  cases n with
  | not n => exact List.cons_ne_nil _ _
  | plain c => exact c.tokens_ne_nil

theorem Conjunction.tokens_ne_nil (c : Conjunction) : c.tokens ≠ [] := by
  cases c with
  | last n => exact n.tokens_ne_nil
  | join n rest => exact List.append_ne_nil_of_left_ne_nil n.tokens_ne_nil _

theorem Disjunction.tokens_ne_nil (d : Disjunction) : d.tokens ≠ [] := by
  cases d with
  | last c => exact c.tokens_ne_nil
  | join c rest => exact List.append_ne_nil_of_left_ne_nil c.tokens_ne_nil _

/-- A run of operators before an operand is determined by the tokens. -/
theorem words_cancel {ws ws' : List String} {x x' : List Token} (hx : StartsOperand x)
    (hx' : StartsOperand x') (h : ws.map Token.operator ++ x = ws'.map Token.operator ++ x') :
    ws = ws' ∧ x = x' := by
  induction ws generalizing ws' with
  | nil =>
    cases ws' with
    | nil => exact ⟨rfl, h⟩
    | cons w' rest' =>
      rw [List.map_nil, List.nil_append] at h
      subst h
      exact absurd hx (fun h => h)
  | cons w rest ih =>
    cases ws' with
    | nil =>
      rw [List.map_nil, List.nil_append] at h
      subst h
      exact absurd hx' (fun h => h)
    | cons w' rest' =>
      simp only [List.map_cons, List.cons_append, List.cons.injEq, Token.operator.injEq] at h
      obtain ⟨rfl, h⟩ := h
      obtain ⟨rfl, rfl⟩ := ih h
      exact ⟨rfl, rfl⟩

/-- The comparator of some words. -/
def Comparator.ofWords? : List String → Option Comparator
  | ["="] => some .eq
  | ["!="] => some .ne
  | ["<>"] => some .diamond
  | ["<"] => some .lt
  | [">"] => some .gt
  | ["<="] => some .le
  | [">="] => some .ge
  | ["!<"] => some .notLt
  | ["!>"] => some .notGt
  | ["like"] => some .like
  | ["in"] => some .isIn
  | ["is"] => some .is
  | ["is", "not"] => some .isNot
  | ["not", "like"] => some .notLike
  | ["not", "in"] => some .notIn
  | _ => none

theorem Comparator.ofWords?_words (sign : Comparator) : ofWords? sign.words = some sign := by
  cases sign <;> rfl

theorem Comparator.cancel {sign sign' : Comparator} {x x' : List Token} (hx : StartsOperand x)
    (hx' : StartsOperand x') (h : sign.tokens ++ x = sign'.tokens ++ x') : sign = sign' ∧ x = x' := by
  obtain ⟨hw, rfl⟩ := words_cancel hx hx' h
  have hs : some sign = some sign' := by rw [← ofWords?_words, ← ofWords?_words, hw]
  exact ⟨Option.some.inj hs, rfl⟩

/-- No construct that a comparator may continue is followed by one. -/
theorem Comparator.not_follows (sign : Comparator) (x : List Token) :
    ¬ Follows ["or", "and"] (sign.tokens ++ x) := by
  cases sign <;> simp [tokens, words, Follows]

/-- The literals of a list placeholder are determined by the tokens. -/
theorem literals_cancel {items items' : List (DataType × Value)} {r r' : List Token}
    (h : items.map (fun i => Token.literal i.1 i.2) ++ .closeList :: r =
      items'.map (fun i => Token.literal i.1 i.2) ++ .closeList :: r') : items = items' ∧ r = r' := by
  induction items generalizing items' with
  | nil =>
    cases items' with
    | nil => exact ⟨rfl, (List.cons.inj h).2⟩
    | cons i' rest' => simp at h
  | cons i rest ih =>
    cases items' with
    | nil => simp at h
    | cons i' rest' =>
      simp only [List.map_cons, List.cons_append, List.cons.injEq, Token.literal.injEq] at h
      obtain ⟨⟨ht, hv⟩, h⟩ := h
      obtain ⟨rfl, rfl⟩ := ih h
      exact ⟨by rw [Prod.ext ht hv], rfl⟩

mutual

theorem Disjunction.cancel : ∀ (d d' : Disjunction) {r r' : List Token}, Follows [] r → Follows [] r' →
    d.tokens ++ r = d'.tokens ++ r' → d = d' ∧ r = r'
  | .last c, .last c', r, r', hr, hr', h => by
    obtain ⟨rfl, h₁⟩ := c.cancel c' (hr.weaken _) (hr'.weaken _) h
    exact ⟨rfl, h₁⟩
  | .last c, .join c' rest', r, r', hr, hr', h => by
    rw [Disjunction.tokens, Disjunction.tokens, List.append_assoc] at h
    obtain ⟨rfl, rfl⟩ := c.cancel c' (hr.weaken _) (follows_operator (by decide) _) h
    exact absurd hr List.not_mem_nil
  | .join c rest, .last c', r, r', hr, hr', h => by
    rw [Disjunction.tokens, Disjunction.tokens, List.append_assoc] at h
    obtain ⟨rfl, rfl⟩ := c.cancel c' (follows_operator (by decide) _) (hr'.weaken _) h
    exact absurd hr' List.not_mem_nil
  | .join c rest, .join c' rest', r, r', hr, hr', h => by
    rw [Disjunction.tokens, Disjunction.tokens, List.append_assoc, List.append_assoc] at h
    obtain ⟨rfl, h₁⟩ := c.cancel c' (follows_operator (by decide) _) (follows_operator (by decide) _) h
    obtain ⟨rfl, h₂⟩ := rest.cancel rest' hr hr' (List.cons.inj h₁).2
    exact ⟨rfl, h₂⟩

theorem Conjunction.cancel : ∀ (c c' : Conjunction) {r r' : List Token}, Follows ["or"] r →
    Follows ["or"] r' → c.tokens ++ r = c'.tokens ++ r' → c = c' ∧ r = r'
  | .last n, .last n', r, r', hr, hr', h => by
    obtain ⟨rfl, h₁⟩ := n.cancel n' hr.weakenOr hr'.weakenOr h
    exact ⟨rfl, h₁⟩
  | .last n, .join n' rest', r, r', hr, hr', h => by
    rw [Conjunction.tokens, Conjunction.tokens, List.append_assoc] at h
    obtain ⟨rfl, rfl⟩ := n.cancel n' hr.weakenOr (follows_operator (by decide) _) h
    exact absurd hr (by simp [Follows])
  | .join n rest, .last n', r, r', hr, hr', h => by
    rw [Conjunction.tokens, Conjunction.tokens, List.append_assoc] at h
    obtain ⟨rfl, rfl⟩ := n.cancel n' (follows_operator (by decide) _) hr'.weakenOr h
    exact absurd hr' (by simp [Follows])
  | .join n rest, .join n' rest', r, r', hr, hr', h => by
    rw [Conjunction.tokens, Conjunction.tokens, List.append_assoc, List.append_assoc] at h
    obtain ⟨rfl, h₁⟩ := n.cancel n' (follows_operator (by decide) _) (follows_operator (by decide) _) h
    obtain ⟨rfl, h₂⟩ := rest.cancel rest' hr hr' (List.cons.inj h₁).2
    exact ⟨rfl, h₂⟩

theorem Negation.cancel : ∀ (n n' : Negation) {r r' : List Token}, Follows ["or", "and"] r →
    Follows ["or", "and"] r' → n.tokens ++ r = n'.tokens ++ r' → n = n' ∧ r = r'
  | .not n, .not n', r, r', hr, hr', h => by
    obtain ⟨rfl, h₁⟩ := n.cancel n' hr hr' (List.cons.inj h).2
    exact ⟨rfl, h₁⟩
  | .not n, .plain c', r, r', _, _, h => by
    have hs := c'.startsOperand r'
    rw [Negation.tokens, Negation.tokens] at h
    rw [← h] at hs
    exact absurd hs (fun h => h)
  | .plain c, .not n', r, r', _, _, h => by
    have hs := c.startsOperand r
    rw [Negation.tokens, Negation.tokens] at h
    rw [h] at hs
    exact absurd hs (fun h => h)
  | .plain c, .plain c', r, r', hr, hr', h => by
    obtain ⟨rfl, h₁⟩ := c.cancel c' hr hr' h
    exact ⟨rfl, h₁⟩

theorem Comparison.cancel : ∀ (c c' : Comparison) {r r' : List Token}, Follows ["or", "and"] r →
    Follows ["or", "and"] r' → c.tokens ++ r = c'.tokens ++ r' → c = c' ∧ r = r'
  | .operand a, .operand a', r, r', _, _, h => by
    obtain ⟨rfl, h₁⟩ := a.cancel a' h
    exact ⟨rfl, h₁⟩
  | .operand a, .compare left' sign' right', r, r', hr, _, h => by
    rw [Comparison.tokens, Comparison.tokens, List.append_assoc, List.append_assoc] at h
    obtain ⟨rfl, rfl⟩ := a.cancel left' h
    exact absurd hr (sign'.not_follows _)
  | .compare left sign right, .operand a', r, r', _, hr', h => by
    rw [Comparison.tokens, Comparison.tokens, List.append_assoc, List.append_assoc] at h
    obtain ⟨rfl, rfl⟩ := left.cancel a' h
    exact absurd hr' (sign.not_follows _)
  | .compare left sign right, .compare left' sign' right', r, r', _, _, h => by
    rw [Comparison.tokens, Comparison.tokens, List.append_assoc, List.append_assoc, List.append_assoc,
      List.append_assoc] at h
    obtain ⟨rfl, h₁⟩ := left.cancel left' h
    obtain ⟨rfl, h₂⟩ := Comparator.cancel (right.startsOperand r) (right'.startsOperand r') h₁
    obtain ⟨rfl, h₃⟩ := right.cancel right' h₂
    exact ⟨rfl, h₃⟩

theorem Operand.cancel : ∀ (a a' : Operand) {r r' : List Token},
    a.tokens ++ r = a'.tokens ++ r' → a = a' ∧ r = r'
  | .literal type value, a', r, r', h => by
    cases a' <;> simp_all [Operand.tokens]
  | .null, a', r, r', h => by
    cases a' <;> simp_all [Operand.tokens]
  | .field name quoted model, a', r, r', h => by
    cases a' <;> simp_all [Operand.tokens]
  | .group d, a', r, r', h => by
    simp only [Operand.tokens, List.cons_append, List.append_assoc, List.nil_append] at h
    cases a' with
    | group d' =>
      simp only [Operand.tokens, List.cons_append, List.append_assoc, List.nil_append] at h
      obtain ⟨rfl, h₁⟩ :=
        d.cancel d' (follows_closeParen _ _) (follows_closeParen _ _) (List.cons.inj h).2
      exact ⟨rfl, (List.cons.inj h₁).2⟩
    | list first' rest' =>
      simp only [Operand.tokens, List.cons_append, List.append_assoc, List.nil_append] at h
      obtain ⟨-, h₁⟩ := d.cancel first' (follows_closeParen _ _) (follows_comma _ _) (List.cons.inj h).2
      simp at h₁
    | _ => simp [Operand.tokens] at h
  | .list first rest, a', r, r', h => by
    simp only [Operand.tokens, List.cons_append, List.append_assoc, List.nil_append] at h
    cases a' with
    | group d' =>
      simp only [Operand.tokens, List.cons_append, List.append_assoc, List.nil_append] at h
      obtain ⟨-, h₁⟩ := first.cancel d' (follows_comma _ _) (follows_closeParen _ _) (List.cons.inj h).2
      simp at h₁
    | list first' rest' =>
      simp only [Operand.tokens, List.cons_append, List.append_assoc, List.nil_append] at h
      obtain ⟨rfl, h₁⟩ :=
        first.cancel first' (follows_comma _ _) (follows_comma _ _) (List.cons.inj h).2
      obtain ⟨rfl, h₂⟩ := rest.cancel rest' (List.cons.inj h₁).2
      exact ⟨rfl, h₂⟩
    | _ => simp [Operand.tokens] at h
  | .tuple type items, a', r, r', h => by
    simp only [Operand.tokens, List.cons_append, List.append_assoc, List.nil_append] at h
    cases a' with
    | tuple type' items' =>
      simp only [Operand.tokens, List.cons_append, List.append_assoc, List.nil_append, List.cons.injEq,
        Token.openList.injEq] at h
      obtain ⟨rfl, h₁⟩ := h
      obtain ⟨rfl, h₂⟩ := literals_cancel h₁
      exact ⟨rfl, h₂⟩
    | _ => simp [Operand.tokens] at h

theorem Items.cancel : ∀ (i i' : Items) {r r' : List Token},
    i.tokens ++ .closeParen :: r = i'.tokens ++ .closeParen :: r' → i = i' ∧ r = r'
  | .last d, .last d', r, r', h => by
    obtain ⟨rfl, h₁⟩ := d.cancel d' (follows_closeParen _ _) (follows_closeParen _ _) h
    exact ⟨rfl, (List.cons.inj h₁).2⟩
  | .last d, .join d' rest', r, r', h => by
    rw [Items.tokens, Items.tokens, List.append_assoc] at h
    obtain ⟨-, h₁⟩ := d.cancel d' (follows_closeParen _ _) (follows_comma _ _) h
    simp at h₁
  | .join d rest, .last d', r, r', h => by
    rw [Items.tokens, Items.tokens, List.append_assoc] at h
    obtain ⟨-, h₁⟩ := d.cancel d' (follows_comma _ _) (follows_closeParen _ _) h
    simp at h₁
  | .join d rest, .join d' rest', r, r', h => by
    rw [Items.tokens, Items.tokens, List.append_assoc, List.append_assoc] at h
    obtain ⟨rfl, h₁⟩ := d.cancel d' (follows_comma _ _) (follows_comma _ _) h
    obtain ⟨rfl, h₂⟩ := rest.cancel rest' (List.cons.inj h₁).2
    exact ⟨rfl, h₂⟩

end

/-- The grammar is unambiguous. -/
theorem Disjunction.tokens_injective {d d' : Disjunction} (h : d.tokens = d'.tokens) : d = d' :=
  (@Disjunction.cancel d d' [] [] trivial trivial (by rw [h])).1

end RecordQuery.Expr.Grammar
