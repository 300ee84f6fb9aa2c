import RecordQuery.Proofs.Expr.Meaning
set_option autoImplicit false

/-!
# Expr: the trees of derivations

A property of expressions that each way to build a tree keeps, and that holds of the trees of single tokens,
holds of whatever derives from the grammar (`Closed.of_derives`).  One case of it: an expression that was
read has a value wherever it is evaluated.
-/

namespace RecordQuery.Expr

open Format (Token)
open Grammar

/-- The property `P` is kept by each way to build a tree from tokens with the property `T`. -/
structure Closed (T : Token → Prop) (P : Expr → Prop) : Prop where
  or : ∀ {l r}, P l → P r → P (.binary l .or r)
  and : ∀ {l r}, P l → P r → P (.binary l .and r)
  not : ∀ {e}, P e → P (.unary .not e)
  compare : ∀ (sign : Comparator) {l r}, P l → P r → P (sign.combine l r)
  literal : ∀ {type value}, T (.literal type value) → P (.literal type value)
  null : P Expr.null
  field : ∀ {name quoted model}, T (.field name quoted model) →
    P (.field ⟨name, quoted, model.map Prod.fst, (model.map Prod.snd).getD false⟩)
  list : ∀ {es e}, (∀ x ∈ es, P x) → 2 ≤ es.length → writtenList? es = some e → P e
  tuple : ∀ {type values}, T (.openList type) → P (.list type values)

namespace Closed

variable {T : Token → Prop} {P : Expr → Prop}

theorem left {ts us : List Token} (h : ∀ t ∈ ts ++ us, T t) : ∀ t ∈ ts, T t :=
  fun t ht => h t (List.mem_append_left us ht)

theorem right {ts us : List Token} (h : ∀ t ∈ ts ++ us, T t) : ∀ t ∈ us, T t :=
  fun t ht => h t (List.mem_append_right ts ht)

theorem tail {t : Token} {ts : List Token} (h : ∀ u ∈ t :: ts, T u) : ∀ u ∈ ts, T u :=
  fun u hu => h u (List.mem_cons_of_mem t hu)

mutual

theorem disjunction (hP : Closed T P) : ∀ (d : Disjunction) {e : Expr}, (∀ t ∈ d.tokens, T t) →
    d.tree? = some e → P e
  | .last c, e, h, he => hP.conjunction c h he
  | .join c rest, e, h, he => by
    obtain ⟨l, hl, he⟩ := Option.bind_eq_some_iff.mp he
    exact hP.disjunction_after rest (tail (right h)) (hP.conjunction c (left h) hl) he

theorem disjunction_after (hP : Closed T P) : ∀ (d : Disjunction) {l e : Expr}, (∀ t ∈ d.tokens, T t) →
    P l → d.after? l = some e → P e
  | .last c, l, e, h, hl, he => by
    obtain ⟨r, hr, he⟩ := Option.bind_eq_some_iff.mp he
    cases he
    exact hP.or hl (hP.conjunction c h hr)
  | .join c rest, l, e, h, hl, he => by
    obtain ⟨r, hr, he⟩ := Option.bind_eq_some_iff.mp he
    exact hP.disjunction_after rest (tail (right h)) (hP.or hl (hP.conjunction c (left h) hr)) he

theorem conjunction (hP : Closed T P) : ∀ (c : Conjunction) {e : Expr}, (∀ t ∈ c.tokens, T t) →
    c.tree? = some e → P e
  | .last n, e, h, he => hP.negation n h he
  | .join n rest, e, h, he => by
    obtain ⟨l, hl, he⟩ := Option.bind_eq_some_iff.mp he
    exact hP.conjunction_after rest (tail (right h)) (hP.negation n (left h) hl) he

theorem conjunction_after (hP : Closed T P) : ∀ (c : Conjunction) {l e : Expr}, (∀ t ∈ c.tokens, T t) →
    P l → c.after? l = some e → P e
  | .last n, l, e, h, hl, he => by
    obtain ⟨r, hr, he⟩ := Option.bind_eq_some_iff.mp he
    cases he
    exact hP.and hl (hP.negation n h hr)
  | .join n rest, l, e, h, hl, he => by
    obtain ⟨r, hr, he⟩ := Option.bind_eq_some_iff.mp he
    exact hP.conjunction_after rest (tail (right h)) (hP.and hl (hP.negation n (left h) hr)) he

theorem negation (hP : Closed T P) : ∀ (n : Negation) {e : Expr}, (∀ t ∈ n.tokens, T t) →
    n.tree? = some e → P e
  | .not n, e, h, he => by
    obtain ⟨operand, hoperand, rfl⟩ := Option.map_eq_some_iff.mp he
    exact hP.not (hP.negation n (tail h) hoperand)
  | .plain c, e, h, he => hP.comparison c h he

theorem comparison (hP : Closed T P) : ∀ (c : Comparison) {e : Expr}, (∀ t ∈ c.tokens, T t) →
    c.tree? = some e → P e
  | .operand a, e, h, he => hP.operand a h he
  | .compare a sign b, e, h, he => by
    obtain ⟨l, hl, he⟩ := Option.bind_eq_some_iff.mp he
    obtain ⟨r, hr, rfl⟩ := Option.map_eq_some_iff.mp he
    exact hP.compare sign (hP.operand a (left h) hl) (hP.operand b (right (right h)) hr)

theorem operand (hP : Closed T P) : ∀ (a : Operand) {e : Expr}, (∀ t ∈ a.tokens, T t) →
    a.tree? = some e → P e
  | .literal type value, e, h, he => by
    cases he
    exact hP.literal (h _ List.mem_cons_self)
  | .null, e, _, he => by
    cases he
    exact hP.null
  | .field name quoted model, e, h, he => by
    cases he
    exact hP.field (h _ List.mem_cons_self)
  | .group d, e, h, he => hP.disjunction d (left (tail h)) he
  | .list first rest, e, h, he => by
    obtain ⟨x, hx, he⟩ := Option.bind_eq_some_iff.mp he
    obtain ⟨es, hes, he⟩ := Option.bind_eq_some_iff.mp he
    have hfirst := hP.disjunction first (left (tail h)) hx
    have hrest := hP.items rest (left (tail (right (tail h)))) hes
    obtain ⟨y, more, rfl⟩ := Items.trees?_eq_cons hes
    refine hP.list ?_ (Nat.le_add_left 2 _) he
    intro z hz
    rcases List.mem_cons.mp hz with rfl | hz
    · exact hfirst
    · exact hrest z hz
  | .tuple type items, e, h, he => by
    cases he
    exact hP.tuple (h _ List.mem_cons_self)

theorem items (hP : Closed T P) : ∀ (i : Items) {es : List Expr}, (∀ t ∈ i.tokens, T t) →
    i.trees? = some es → ∀ e ∈ es, P e
  | .last d, es, h, hes => by
    obtain ⟨x, hx, rfl⟩ := Option.map_eq_some_iff.mp hes
    intro e he
    rw [List.mem_singleton] at he
    subst he
    exact hP.disjunction d h hx
  | .join d rest, es, h, hes => by
    obtain ⟨x, hx, hes⟩ := Option.bind_eq_some_iff.mp hes
    obtain ⟨more, hmore, rfl⟩ := Option.map_eq_some_iff.mp hes
    intro e he
    rcases List.mem_cons.mp he with rfl | he
    · exact hP.disjunction d (left h) hx
    · exact hP.items rest (tail (right h)) hmore e he

end

/-- A closed property holds of what derives from tokens that allow it. -/
theorem of_derives (hP : Closed T P) {ts : List Token} {e : Expr} (h : Derives ts e) (hts : ∀ t ∈ ts, T t) :
    P e := by
  obtain ⟨d, rfl, he⟩ := h
  exact hP.disjunction d hts he

end Closed

/-! ## Evaluation -/

/-- The expression has a value wherever it is evaluated. -/
def Evaluates (e : Expr) : Prop := ∀ s : Scope, ∃ v, e.evaluate s = .ok v

namespace Evaluates

variable {l r e : Expr}

/-- An operation has a value where both operands have one. -/
theorem binary (hl : Evaluates l) (hr : Evaluates r) {op : Operator} (hop : op ≠ .not) :
    Evaluates (.binary l op r) := by
  intro s
  obtain ⟨a, ha⟩ := hl s
  obtain ⟨b, hb⟩ := hr s
  cases op with
  | not => exact absurd rfl hop
  | and =>
    refine ⟨.bool (a.truthy && b.truthy), ?_⟩
    simp only [evaluate, ha, hb, Outcome.ok_bind]
    cases a.truthy <;> rfl
  | or =>
    refine ⟨.bool (a.truthy || b.truthy), ?_⟩
    simp only [evaluate, ha, hb, Outcome.ok_bind]
    cases a.truthy <;> rfl
  | _ =>
    simp only [evaluate, ha, hb, Outcome.ok_bind, compareBy]
    exact ⟨_, rfl⟩

theorem not (h : Evaluates e) : Evaluates (.unary .not e) := by
  intro s
  obtain ⟨v, hv⟩ := h s
  exact ⟨.bool (!v.truthy), by rw [evaluate, hv]; rfl⟩

theorem list (type : DataType) (values : List Value) : Evaluates (.list type values) :=
  fun _ => ⟨.array values, rfl⟩

theorem listed (h : Evaluates r) : Evaluates (Comparator.listed r) := by
  cases r with
  | literal type value => exact list type [value]
  | _ => exact h

theorem combine (sign : Comparator) (hl : Evaluates l) (hr : Evaluates r) : Evaluates (sign.combine l r) := by
  cases sign with
  | isIn => exact hl.binary hr.listed (by decide)
  | notIn => exact (hl.binary hr.listed (by decide)).not
  | notLike => exact (hl.binary hr (by decide)).not
  | _ => exact hl.binary hr (by decide)

theorem closed : Closed (fun _ => True) Evaluates where
  or hl hr := hl.binary hr (by decide)
  and hl hr := hl.binary hr (by decide)
  not h := h.not
  compare sign _ _ hl hr := combine sign hl hr
  literal _ := fun _ => ⟨_, rfl⟩
  null := fun _ => ⟨_, rfl⟩
  field _ := fun _ => ⟨_, rfl⟩
  list _ _ he := by
    obtain ⟨constants, -, hlist⟩ := Option.bind_eq_some_iff.mp he
    cases hlist
    exact list _ _
  tuple _ := list _ _

/-- What derives from the grammar has a value wherever it is evaluated. -/
theorem of_derives {ts : List Token} (h : Derives ts e) : Evaluates e :=
  closed.of_derives h fun _ _ => trivial

end Evaluates

/-! ## The level of a tree -/

theorem Grammar.Disjunction.isLogical_after? : ∀ (d : Disjunction) {l e : Expr}, d.after? l = some e →
    e.isLogical = true
  | .last c, l, e, he => by
    obtain ⟨r, -, he⟩ := Option.bind_eq_some_iff.mp he
    cases he
    rfl
  | .join c rest, l, e, he => by
    obtain ⟨r, -, he⟩ := Option.bind_eq_some_iff.mp he
    exact rest.isLogical_after? he

theorem Grammar.Conjunction.isLogical_after? : ∀ (c : Conjunction) {l e : Expr}, c.after? l = some e →
    e.isLogical = true
  | .last n, l, e, he => by
    obtain ⟨r, -, he⟩ := Option.bind_eq_some_iff.mp he
    cases he
    rfl
  | .join n rest, l, e, he => by
    obtain ⟨r, -, he⟩ := Option.bind_eq_some_iff.mp he
    exact rest.isLogical_after? he

/-- What derives from the grammar is a disjunction. -/
theorem asDisjunction_of_derives {ts : List Token} {e : Expr} (h : Derives ts e) : AsDisjunction ts e := by
  obtain ⟨d, htokens, he⟩ := h
  exact ⟨d, e, htokens, he, Agrees.refl e⟩

/-- Without `and` or `or` at its root, it is a negation. -/
theorem asNegation_of_derives {ts : List Token} {e : Expr} (h : Derives ts e) (hlogical : e.isLogical = false) :
    AsNegation ts e := by
  obtain ⟨d, htokens, he⟩ := h
  cases d with
  | join c rest =>
    obtain ⟨l, -, he⟩ := Option.bind_eq_some_iff.mp he
    rw [rest.isLogical_after? he] at hlogical
    cases hlogical
  | last c =>
    cases c with
    | join n rest =>
      obtain ⟨l, -, he⟩ := Option.bind_eq_some_iff.mp he
      rw [rest.isLogical_after? he] at hlogical
      cases hlogical
    | last n => exact ⟨n, e, htokens, he, Agrees.refl e⟩

end RecordQuery.Expr
