import Shading.Proofs.Grammar.Accepts
import Shading.Proofs.Grammar.Reads

/-!
# The grammar of expressions

Which tokens are an expression, and of which tree, said without a reader: four tiers of operators
between two values, each grouping to the left, over operators before one value, over the innermost
expressions.  The rules for expressions read just what the grammar derives, up to the first token that
cannot go on with it.

* `Expr.Tier`, `BinaryOp.tier` — how tightly the parts of an expression hang together;
* `Expr.Derives` — the tokens of an expression, with a bound on the levels that it nests;
* `Expr.accepts_level` — one tier of operators;
* `Expr.accepts_ofDepth` — the rules with some levels left;
* `Expr.rule_eq_ok_iff` — what the rule for a whole expression reads and leaves.
-/

namespace Shading

open Grammar
open Rule (Accepts anything)

/-- The tokens of a primitive type: a type word, which a precision may precede. -/
inductive Primitive.Spelled : List Token → Primitive → Prop
  | plain {t : Token} {word : String} {p : Primitive} (ht : t.kind = .identifier word)
    (hp : Primitive.ofWord? word none = some p) : Spelled [t] p
  | precise {t u : Token} {first word : String} {precision : Precision} {p : Primitive}
    (ht : t.kind = .identifier first) (hfirst : Precision.ofWord? first = some precision)
    (hu : u.kind = .identifier word) (hp : Primitive.ofWord? word (some precision) = some p) :
    Spelled [t, u] p

namespace Primitive

/-- No type word is a precision. -/
lemma ofWord?_precision {word : String} {precision : Precision}
    (h : Precision.ofWord? word = some precision) (precision? : Option Precision) :
    ofWord? word precision? = none := by
  unfold Precision.ofWord? at h
  split at h
  · rfl
  · rfl
  · rfl
  · rfl
  · cases h

/-- The primitive that a word names, if it names one. -/
lemma accepts_named (word : String) (precision? : Option Precision) :
    Accepts (match ofWord? word precision? with
      | some primitive => return primitive
      | none => Rule.stop (.unknownPrimitive word))
      (fun ts p => ts = [] ∧ ofWord? word precision? = some p) anything := by
  cases ofWord? word precision? with
  | some primitive => exact (Accepts.pure primitive).congr fun ts p => by simp [eq_comm]
  | none =>
    intro c p c'
    simp [Rule.stop]

lemma accepts_rule : Accepts Primitive.rule (fun ts p => p.Spelled ts) anything := by
  refine (Rule.accepts_identifier.andThen (M := fun first ts p =>
    match Precision.ofWord? first with
    | some precision => ∃ u word, ts = [u] ∧ u.kind = .identifier word ∧
        ofWord? word (some precision) = some p
    | none => ts = [] ∧ ofWord? first none = some p) fun first => ?_).congr ?_
  · dsimp only
    cases Precision.ofWord? first with
    | some precision =>
      refine (Rule.accepts_identifier.andThen fun word => accepts_named word (some precision)).congr ?_
      intro ts p
      constructor
      · rintro ⟨_, _, word, rfl, ⟨u, rfl, hu⟩, rfl, hp⟩
        exact ⟨u, word, rfl, hu, hp⟩
      · rintro ⟨u, word, rfl, hu, hp⟩
        exact ⟨[u], [], word, rfl, ⟨u, rfl, hu⟩, rfl, hp⟩
    | none => exact accepts_named first none
  · intro ts p
    constructor
    · rintro ⟨_, vs, first, rfl, ⟨t, rfl, ht⟩, hrest⟩
      cases hfirst : Precision.ofWord? first with
      | some precision =>
        rw [hfirst] at hrest
        obtain ⟨u, word, rfl, hu, hp⟩ := hrest
        exact .precise ht hfirst hu hp
      | none =>
        rw [hfirst] at hrest
        obtain ⟨rfl, hp⟩ := hrest
        exact .plain ht hp
    · intro h
      cases h with
      | @plain t word _ ht hp =>
        refine ⟨[t], [], word, rfl, ⟨t, rfl, ht⟩, ?_⟩
        cases hword : Precision.ofWord? word with
        | some precision =>
          rw [ofWord?_precision hword] at hp
          cases hp
        | none => exact ⟨rfl, hp⟩
      | @precise t u first word precision _ ht hfirst hu hp =>
        refine ⟨[t], [u], first, rfl, ⟨t, rfl, ht⟩, ?_⟩
        rw [hfirst]
        exact ⟨u, word, rfl, hu, hp⟩

lemma Spelled.isTypeWord {ts : List Token} {p : Primitive} (h : p.Spelled ts) :
    ∃ t us word, ts = t :: us ∧ t.kind = .identifier word ∧ isTypeWord word = true := by
  cases h with
  | @plain t word _ ht hp =>
    refine ⟨t, [], word, rfl, ht, ?_⟩
    obtain ⟨shape, hshape, -⟩ := Option.map_eq_some_iff.1 hp
    simp [Primitive.isTypeWord, hshape]
  | @precise t u first word precision _ ht hfirst hu hp =>
    exact ⟨t, [u], first, rfl, ht, by simp [Primitive.isTypeWord, hfirst]⟩

end Primitive

namespace Expr

/-- How tightly the parts of an expression hang together, the loosest first. -/
inductive Tier
  | equality | comparison | additive | multiplicative | unary | primary
deriving DecidableEq

/-- The tier of the operands. -/
def Tier.inner? : Tier → Option Tier
  | equality => some comparison
  | comparison => some additive
  | additive => some multiplicative
  | multiplicative => some unary
  | unary => some primary
  | primary => none

end Expr

open Shading.Expr (Tier)

/-- The tier that an operator between two values belongs to. -/
def BinaryOp.tier : BinaryOp → Tier
  | equal | notEqual => .equality
  | less | lessEqual | greater | greaterEqual => .comparison
  | add | subtract => .additive
  | multiply | divide => .multiplicative

namespace Expr

/-- **The grammar of expressions.**  The tokens are an expression of the tier, of this tree, in which
at most `n` levels are nested: the whole is one level, and each parenthesis, argument, sampled value and
operator before one value goes a level deeper.  Operators between two values group to the left. -/
inductive Derives : Nat → Tier → List Token → Expr → Prop
  | operand {n : Nat} {tier inner : Tier} {ts : List Token} {e : Expr} (hi : tier.inner? = some inner)
    (h : Derives n inner ts e) : Derives n tier ts e
  | binary {n : Nat} {tier inner : Tier} {us vs : List Token} {t : Token} {op : BinaryOp}
    {left right : Expr} (hi : tier.inner? = some inner) (hop : op.tier = tier)
    (ht : t.kind = .mark op.mark) (hl : Derives n tier us left) (hr : Derives n inner vs right) :
    Derives n tier (us ++ t :: vs) (.binary op left right)
  | unary {n : Nat} {t : Token} {ts : List Token} {op : UnaryOp} {e : Expr}
    (ht : t.kind = .mark op.mark) (h : Derives n .unary ts e) :
    Derives (n + 1) .unary (t :: ts) (.unary op e)
  | number {n : Nat} {t : Token} {value : Double} (ht : t.kind = .number value) :
    Derives (n + 1) .primary [t] (.constant (.number value (t.lexeme.toList.contains '.')))
  | string {n : Nat} {t : Token} {text : String} (ht : t.kind = .string text) :
    Derives (n + 1) .primary [t] (.constant (.string text))
  | symbol {n : Nat} {t : Token} {name : String} (ht : t.kind = .identifier name)
    (hname : Primitive.isTypeWord name = false) : Derives (n + 1) .primary [t] (.symbol name)
  | group {n : Nat} {opening closing : Token} {ts : List Token} {e : Expr}
    (ho : opening.kind = .mark .leftParen) (h : Derives n .equality ts e)
    (hc : closing.kind = .mark .rightParen) :
    Derives (n + 1) .primary (opening :: (ts ++ [closing])) e
  | sample {n : Nat} {keyword opening name comma closing : Token} {ts : List Token} {sampler : String}
    {e : Expr} (hk : keyword.kind = .keyword .sample) (ho : opening.kind = .mark .leftParen)
    (hs : name.kind = .identifier sampler) (hcomma : comma.kind = .mark .comma)
    (h : Derives n .equality ts e) (hc : closing.kind = .mark .rightParen) :
    Derives (n + 1) .primary (keyword :: opening :: name :: comma :: (ts ++ [closing]))
      (.sample sampler e)
  | construct {n : Nat} {type ts : List Token} {p : Primitive} {opening closing : Token}
    {arguments : List (List Token × Expr)} (hp : p.Spelled type)
    (ho : opening.kind = .mark .leftParen) (hl : Listed ts arguments)
    (h : ∀ argument ∈ arguments, Derives n .equality argument.1 argument.2)
    (hc : closing.kind = .mark .rightParen) :
    Derives (n + 1) .primary (type ++ opening :: (ts ++ [closing]))
      (.construct p (ofArguments (arguments.map (·.2))))

variable {n : Nat} {tier inner : Tier} {tiers : List Tier} {ts : List Token} {e : Expr} {r : Rule Expr}
  {op? : Token.Kind → Option BinaryOp} {c c' c₁ : Cursor}

/-- A whole level is needed. -/
lemma Derives.pos (h : Derives n tier ts e) : 0 < n := by
  induction h with
  | operand _ _ ih => exact ih
  | binary _ _ _ _ _ ih _ => exact ih
  | _ => omega

/-- The tokens that an innermost expression may begin with. -/
def Begins : Token.Kind → Prop
  | .number _ | .string _ | .identifier _ | .keyword .sample | .mark .leftParen => True
  | _ => False

/-- An expression begins with an operator before one value or as an innermost one. -/
lemma Derives.first (h : Derives n tier ts e) : ∃ t us, ts = t :: us ∧
    (Begins t.kind ∨ tier ≠ .primary ∧ ∃ op : UnaryOp, t.kind = .mark op.mark) := by
  induction h with
  | @operand _ tier _ _ _ hi _ ih =>
    obtain ⟨t, us, rfl, hfirst⟩ := ih
    refine ⟨t, us, rfl, hfirst.imp_right fun hop => ⟨?_, hop.2⟩⟩
    rintro rfl
    cases hi
  | binary hi _ _ _ _ ih _ =>
    obtain ⟨t, us, rfl, hfirst⟩ := ih
    exact ⟨t, _, rfl, hfirst⟩
  | @unary _ t ts op _ ht _ _ => exact ⟨t, ts, rfl, .inr ⟨by simp, op, ht⟩⟩
  | number ht | string ht | symbol ht => exact ⟨_, [], rfl, .inl (by simp [ht, Begins])⟩
  | group ho => exact ⟨_, _, rfl, .inl (by simp [ho, Begins])⟩
  | sample hk => exact ⟨_, _, rfl, .inl (by simp [hk, Begins])⟩
  | construct hp =>
    cases hp with
    | plain ht => exact ⟨_, _, rfl, .inl (by simp [ht, Begins])⟩
    | precise ht => exact ⟨_, _, rfl, .inl (by simp [ht, Begins])⟩

/-! ### Operators between two values -/

/-- The table holds just the operators of the tier. -/
def Tabulates (op? : Token.Kind → Option BinaryOp) (tier : Tier) : Prop :=
  ∀ kind op, op? kind = some op ↔ kind = .mark op.mark ∧ op.tier = tier

lemma tabulates_tiers : Tabulates equalityOp? .equality ∧ Tabulates comparisonOp? .comparison ∧
    Tabulates additiveOp? .additive ∧ Tabulates multiplicativeOp? .multiplicative := by
  refine ⟨?_, ?_, ?_, ?_⟩
  all_goals
    intro kind op
    constructor
    · intro h
      simp only [equalityOp?, comparisonOp?, additiveOp?, multiplicativeOp?] at h
      split at h <;> cases h <;> exact ⟨rfl, rfl⟩
    · rintro ⟨rfl, h⟩
      cases op <;> cases h <;> rfl

/-- No operator of these tiers comes next. -/
def Stops (tiers : List Tier) (rest : List Token) : Prop :=
  ∀ t ∈ rest.head?, ∀ op : BinaryOp, op.tier ∈ tiers → t.kind ≠ .mark op.mark

lemma mark_injective {op op' : BinaryOp} (h : op.mark = op'.mark) : op = op' := by
  cases op <;> cases op' <;> first | rfl | cases h

/-- An operator of another tier comes next. -/
lemma stops_operator {t : Token} {op : BinaryOp} (ht : t.kind = .mark op.mark) (hop : op.tier ∉ tiers)
    (rest : List Token) : Stops tiers (t :: rest) := by
  intro u hu op' hop' hkind
  obtain rfl : t = u := Option.some.inj hu
  rw [ht] at hkind
  rw [mark_injective (Token.Kind.mark.inj hkind)] at hop
  exact hop hop'

lemma stops_cons (htable : Tabulates op? tier) (hstop : c.next?.bind op? = none)
    (h : Stops tiers c.rest) : Stops (tier :: tiers) c.rest := by
  intro t ht op hop hkind
  rcases List.mem_cons.1 hop with hop | hop
  · have hnext : c.next? = some t.kind := by
      unfold Cursor.next?
      rw [Option.mem_def.1 ht]
      rfl
    rw [hnext, Option.bind_some, (htable t.kind op).2 ⟨hkind, hop⟩] at hstop
    cases hstop
  · exact h t ht op hop hkind

lemma next?_bind_of_stops (htable : Tabulates op? tier) (h : Stops (tier :: tiers) c.rest) :
    c.next?.bind op? = none := by
  by_contra hsome
  obtain ⟨op, hop⟩ := Option.ne_none_iff_exists'.1 hsome
  obtain ⟨kind, hkind, hop⟩ := Option.bind_eq_some_iff.1 hop
  obtain ⟨t, ht, rfl⟩ := Option.map_eq_some_iff.1 hkind
  obtain ⟨hmark, htier⟩ := (htable t.kind op).1 hop
  exact h t ht op (by simp [htier]) hmark

/-! One round of the loop over the operators of a tier. -/

lemma chain_stop (h : c.next?.bind op? = none) (m : Nat) (left : Expr) :
    chain op? r m left c = .ok (left, c) := by
  cases m with
  | zero => rfl
  | succ m =>
    rw [chain, Rule.peek_bind, h]
    rfl

lemma chain_next {t : Token} {op : BinaryOp} {right : Expr} (ht : c.rest.head? = some t)
    (hop : op? t.kind = some op) (hright : r c.advance = .ok (right, c₁)) (m : Nat) (left : Expr) :
    chain op? r (m + 1) left c = chain op? r m (.binary op left right) c₁ := by
  have hnext : c.next?.bind op? = some op := by
    unfold Cursor.next?
    rw [ht]
    exact hop
  rw [chain, Rule.peek_bind, hnext]
  show (r c.advance).bind _ = _
  rw [hright]
  rfl

/-- There is no other round. -/
lemma chain_cases {m : Nat} {left : Expr} (h : chain op? r (m + 1) left c = .ok (e, c')) :
    (c.next?.bind op? = none ∧ e = left ∧ c' = c) ∨
      ∃ t op right c₁, c.rest.head? = some t ∧ op? t.kind = some op ∧
        r c.advance = .ok (right, c₁) ∧ chain op? r m (.binary op left right) c₁ = .ok (e, c') := by
  cases hnext : c.next?.bind op? with
  | none =>
    rw [chain_stop hnext] at h
    obtain ⟨rfl, rfl⟩ := Prod.mk.inj (Except.ok.inj h)
    exact .inl ⟨rfl, rfl, rfl⟩
  | some op =>
    obtain ⟨kind, hkind, hop⟩ := Option.bind_eq_some_iff.1 hnext
    obtain ⟨t, ht, rfl⟩ := Option.map_eq_some_iff.1 hkind
    rw [chain, Rule.peek_bind, hnext] at h
    obtain ⟨right, c₁, hright, h⟩ :=
      (Rule.bind_eq_ok (k := fun right => chain op? r m (.binary op left right))).1 h
    exact .inr ⟨t, op, right, c₁, ht, hop, hright, h⟩

/-- What the loop reads behind an expression of the tier makes one with it. -/
lemma derives_of_chain (htable : Tabulates op? tier) (hi : tier.inner? = some inner)
    (hr : Accepts r (Derives n inner) (Stops tiers)) {m : Nat} {left : Expr} {us : List Token}
    (hm : c.rest.length ≤ m) (hc : Stops tiers c.rest) (hleft : Derives n tier us left)
    (h : chain op? r m left c = .ok (e, c')) :
    ∃ vs, c.Passes vs c' ∧ Derives n tier (us ++ vs) e ∧ Stops (tier :: tiers) c'.rest := by
  induction m generalizing c left us with
  | zero =>
    obtain ⟨rfl, rfl⟩ := Prod.mk.inj (Except.ok.inj h)
    have hnil : c.rest = [] := List.eq_nil_of_length_eq_zero (by omega)
    refine ⟨[], rfl, by simpa using hleft, ?_⟩
    rw [hnil]
    intro t ht
    cases ht
  | succ m ih =>
    rcases chain_cases h with ⟨hstop, rfl, rfl⟩ | ⟨t, op, right, c₁, ht, hop, hright, h⟩
    · exact ⟨[], rfl, by simpa using hleft, stops_cons htable hstop hc⟩
    · obtain ⟨hmark, htier⟩ := (htable t.kind op).1 hop
      obtain ⟨ws, hws, hderives, hc₁⟩ := (hr c.advance right c₁).1 hright
      have hpasses : c.Passes (t :: ws) c₁ := ⟨ht, hws⟩
      have hlength : c₁.rest.length ≤ m := by
        have hrest := congrArg List.length hpasses.rest_eq
        simp only [List.length_append, List.length_cons] at hrest
        omega
      obtain ⟨vs, hvs, he, hstops⟩ := ih hlength hc₁ (.binary hi htier hmark hleft hderives) h
      refine ⟨t :: ws ++ vs, Cursor.passes_append.2 ⟨c₁, hpasses, hvs⟩, ?_, hstops⟩
      rwa [← List.append_assoc]

/-- **An expression of a tier is read operator by operator**: behind its tokens, the loop is where it
has just read them. -/
lemma level_eq_chain (htable : Tabulates op? tier) (hop : ∃ op : BinaryOp, op.tier = tier)
    (hi : tier.inner? = some inner) (hnew : tier ∉ tiers)
    (hr : Accepts r (Derives n inner) (Stops tiers)) (h : Derives n tier ts e)
    (hpasses : c.Passes ts c') (hc' : Stops tiers c'.rest) :
    ∃ m, c'.rest.length ≤ m ∧ level op? r c = chain op? r m e c' := by
  -- the induction goes along the operators, each with the ones to its left inside
  generalize htier : tier = tier' at h
  induction h generalizing c' with
  | operand hi' h =>
    subst htier
    obtain rfl := Option.some.inj (hi.symm.trans hi')
    refine ⟨c'.rest.length, le_rfl, ?_⟩
    have hread : r c = .ok (_, c') := (hr c _ c').2 ⟨_, hpasses, h, hc'⟩
    show (r c).bind _ = _
    rw [hread]
    rfl
  | @binary _ _ _ us vs t op left right hi' hop' ht hleft hright ih _ =>
    subst htier
    obtain rfl := Option.some.inj (hi.symm.trans hi')
    obtain ⟨c₁, hus, hnext, hvs⟩ := Cursor.passes_append.1 hpasses
    have hc₁ : Stops tiers c₁.rest := by
      obtain ⟨rest, hrest, -⟩ := Cursor.passes_cons.1 ⟨hnext, hvs⟩
      rw [hrest]
      exact stops_operator ht (hop' ▸ hnew) rest
    obtain ⟨m, hm, hchain⟩ := ih hr hus hc₁ rfl
    have hrest : c₁.Passes (t :: vs) c' := ⟨hnext, hvs⟩
    have hlength := congrArg List.length hrest.rest_eq
    simp only [List.length_append, List.length_cons] at hlength
    obtain ⟨k, rfl⟩ : ∃ k, m = k + 1 := ⟨m - 1, by omega⟩
    have hread : r c₁.advance = .ok (right, c') := (hr _ right c').2 ⟨vs, hvs, hright, hc'⟩
    refine ⟨k, by omega, ?_⟩
    rw [hchain, chain_next hnext ((htable t.kind op).2 ⟨ht, hop'⟩) hread]
  | _ =>
    obtain ⟨op, hop⟩ := hop
    rw [htier] at hop
    cases op <;> cases hop

/-- **One tier of operators.** -/
theorem accepts_level (htable : Tabulates op? tier) (hop : ∃ op : BinaryOp, op.tier = tier)
    (hi : tier.inner? = some inner) (hnew : tier ∉ tiers)
    (hr : Accepts r (Derives n inner) (Stops tiers)) :
    Accepts (level op? r) (Derives n tier) (Stops (tier :: tiers)) := by
  intro c e c'
  constructor
  · intro h
    obtain ⟨left, c₁, hleft, h⟩ := Rule.bind_eq_ok.1 h
    rw [Rule.remaining_bind] at h
    obtain ⟨us, hus, hderives, hc₁⟩ := (hr c left c₁).1 hleft
    obtain ⟨vs, hvs, he, hc'⟩ := derives_of_chain htable hi hr le_rfl hc₁ (.operand hi hderives) h
    exact ⟨us ++ vs, Cursor.passes_append.2 ⟨c₁, hus, hvs⟩, he, hc'⟩
  · rintro ⟨ts, hpasses, he, hc'⟩
    have hinner : Stops tiers c'.rest := fun t ht op hop => hc' t ht op (List.mem_cons_of_mem _ hop)
    obtain ⟨m, -, hchain⟩ := level_eq_chain htable hop hi hnew hr he hpasses hinner
    rw [hchain, chain_stop (next?_bind_of_stops htable hc')]

/-- No operator between two values comes next. -/
def Ends (rest : List Token) : Prop := ∀ t ∈ rest.head?, ∀ op : BinaryOp, t.kind ≠ .mark op.mark

lemma stops_iff_ends (rest : List Token) :
    Stops [.equality, .comparison, .additive, .multiplicative] rest ↔ Ends rest := by
  have hall : ∀ op : BinaryOp,
      op.tier ∈ [Tier.equality, .comparison, .additive, .multiplicative] := by
    intro op
    cases op <;> simp [BinaryOp.tier]
  exact ⟨fun h t ht op => h t ht op (hall op), fun h t ht op _ => h t ht op⟩

/-- **All tiers of operators.** -/
theorem accepts_levels (hr : Accepts r (Derives n .unary) anything) :
    Accepts (levels r) (Derives n .equality) Ends := by
  have hfree : anything = Stops [] := by
    funext rest
    simp [anything, Stops]
  rw [hfree] at hr
  obtain ⟨hequality, hcomparison, hadditive, hmultiplicative⟩ := tabulates_tiers
  have hproducts := accepts_level hmultiplicative ⟨.multiply, rfl⟩ rfl (by simp) hr
  have hsums := accepts_level hadditive ⟨.add, rfl⟩ rfl (by simp) hproducts
  have hcomparisons := accepts_level hcomparison ⟨.less, rfl⟩ rfl (by simp) hsums
  have hequalities := accepts_level hequality ⟨.equal, rfl⟩ rfl (by simp) hcomparisons
  intro c e c'
  rw [← stops_iff_ends]
  exact hequalities c e c'

/-! ### Innermost expressions -/

lemma ends_of_mark {t : Token} {m : Mark} (ht : t.kind = .mark m) (hm : ∀ op : BinaryOp, m ≠ op.mark)
    (rest : List Token) : Ends (t :: rest) := by
  intro u hu op hkind
  obtain rfl : t = u := Option.some.inj hu
  rw [ht] at hkind
  exact hm op (Token.Kind.mark.inj hkind)

lemma ends_comma {t : Token} (ht : t.kind = .mark .comma) (rest : List Token) : Ends (t :: rest) :=
  ends_of_mark ht (fun op => by cases op <;> simp [BinaryOp.mark]) rest

lemma ends_rightParen {t : Token} (ht : t.kind = .mark .rightParen) (rest : List Token) :
    Ends (t :: rest) :=
  ends_of_mark ht (fun op => by cases op <;> simp [BinaryOp.mark]) rest

/-- An expression may be an element of a list. -/
lemma element_derives (n : Nat) : Rule.Element (Derives n .equality) Ends where
  first ts e h := by
    obtain ⟨t, us, rfl, hfirst⟩ := h.first
    refine ⟨t, us, rfl, fun hkind => ?_⟩
    rw [hkind] at hfirst
    rcases hfirst with hfirst | ⟨-, op, hop⟩
    · exact hfirst
    · cases op <;> cases hop
  comma _ rest ht := ends_comma ht rest
  rightParen _ rest ht := ends_rightParen ht rest

section Innermost

variable {L : List Token → Expr → Prop}

lemma accepts_grouping (hr : Accepts r L Ends) : Accepts (grouping r)
    (fun ts e => ∃ opening us closing, ts = opening :: (us ++ [closing]) ∧
      opening.kind = .mark .leftParen ∧ L us e ∧ closing.kind = .mark .rightParen) anything := by
  refine ((Rule.accepts_expect _).andThen fun _ =>
    Rule.accepts_closed hr (fun _ rest ht => ends_rightParen ht rest) fun e => e).congr ?_
  intro ts e
  constructor
  · rintro ⟨_, _, -, rfl, ⟨opening, rfl, ho⟩, us, closing, _, rfl, hL, hc, rfl⟩
    exact ⟨opening, us, closing, rfl, ho, hL, hc⟩
  · rintro ⟨opening, us, closing, rfl, ho, hL, hc⟩
    exact ⟨[opening], us ++ [closing], (), rfl, ⟨opening, rfl, ho⟩, us, closing, e, rfl, hL, hc, rfl⟩

lemma accepts_sampling (hr : Accepts r L Ends) : Accepts (sampling r)
    (fun ts e => ∃ opening name comma us closing sampler inside,
      ts = opening :: name :: comma :: (us ++ [closing]) ∧ opening.kind = .mark .leftParen ∧
      name.kind = .identifier sampler ∧ comma.kind = .mark .comma ∧ L us inside ∧
      closing.kind = .mark .rightParen ∧ e = .sample sampler inside) anything := by
  refine ((Rule.accepts_expect _).andThen fun _ => Rule.accepts_identifier.andThen fun sampler =>
    (Rule.accepts_expect _).andThen fun _ => Rule.accepts_closed hr
      (fun _ rest ht => ends_rightParen ht rest) (Expr.sample sampler)).congr ?_
  intro ts e
  constructor
  · rintro ⟨_, _, -, rfl, ⟨opening, rfl, ho⟩, _, _, sampler, rfl, ⟨name, rfl, hname⟩, _, _, -, rfl,
      ⟨comma, rfl, hcomma⟩, us, closing, inside, rfl, hL, hc, rfl⟩
    exact ⟨opening, name, comma, us, closing, sampler, inside, rfl, ho, hname, hcomma, hL, hc, rfl⟩
  · rintro ⟨opening, name, comma, us, closing, sampler, inside, rfl, ho, hname, hcomma, hL, hc, rfl⟩
    exact ⟨[opening], _, (), rfl, ⟨opening, rfl, ho⟩, [name], _, sampler, rfl, ⟨name, rfl, hname⟩,
      [comma], _, (), rfl, ⟨comma, rfl, hcomma⟩, us, closing, inside, rfl, hL, hc, rfl⟩

lemma accepts_construction (hr : Accepts r L Ends) (hL : Rule.Element L Ends) :
    Accepts (construction r)
      (fun ts e => ∃ type us p arguments, ts = type ++ us ∧ p.Spelled type ∧
        Rule.Parenthesised L us arguments ∧ e = .construct p (ofArguments arguments)) anything := by
  refine (Primitive.accepts_rule.andThen fun p => (Rule.accepts_parenthesised hr hL).andThen
    fun arguments => .pure (Expr.construct p (ofArguments arguments))).congr ?_
  intro ts e
  constructor
  · rintro ⟨type, _, p, rfl, hp, us, _, arguments, rfl, harguments, rfl, rfl⟩
    exact ⟨type, us, p, arguments, by simp, hp, harguments, rfl⟩
  · rintro ⟨type, us, p, arguments, rfl, hp, harguments, rfl⟩
    exact ⟨type, us, p, rfl, hp, us, [], arguments, by simp, harguments, rfl, rfl⟩

end Innermost

/-- What the rule for innermost expressions reads is one. -/
lemma derives_of_primary (hr : Accepts r (Derives n .equality) Ends)
    (h : primary r c = .ok (e, c')) : ∃ ts, c.Passes ts c' ∧ Derives (n + 1) .primary ts e := by
  obtain ⟨_ | ⟨t, rest⟩, last⟩ := c
  · cases h
  rw [primary, Rule.peekToken_bind, List.head?_cons] at h
  -- a token that is read by itself
  have single : ∀ {e' : Expr}, Derives (n + 1) .primary [t] e' →
      (.ok (e', ⟨rest, t.position⟩) : Except Fault (Expr × Cursor)) = .ok (e, c') →
      ∃ ts, Cursor.Passes ⟨t :: rest, last⟩ ts c' ∧ Derives (n + 1) .primary ts e := by
    intro e' he' hok
    obtain ⟨rfl, rfl⟩ := Prod.mk.inj (Except.ok.inj hok)
    exact ⟨[t], ⟨rfl, rfl⟩, he'⟩
  cases hk : t.kind with
  | number value =>
    simp only [hk] at h
    exact single (.number hk) h
  | string text =>
    simp only [hk] at h
    exact single (.string hk) h
  | comment text =>
    simp only [hk] at h
    cases h
  | keyword k =>
    simp only [hk] at h
    cases k with
    | sample =>
      obtain ⟨_, hpasses, ⟨opening, name, comma, us, closing, sampler, inside, rfl, ho, hname, hcomma,
        hinside, hc, rfl⟩, -⟩ := (accepts_sampling hr _ _ _).1 h
      refine ⟨t :: opening :: name :: comma :: (us ++ [closing]), ⟨rfl, hpasses⟩, ?_⟩
      exact .sample hk ho hname hcomma hinside hc
    | _ => cases h
  | mark m =>
    simp only [hk] at h
    cases m with
    | leftParen =>
      obtain ⟨_, hpasses, ⟨opening, us, closing, rfl, ho, hinside, hc⟩, -⟩ :=
        (accepts_grouping hr _ _ _).1 h
      exact ⟨_, hpasses, .group ho hinside hc⟩
    | _ => cases h
  | identifier name =>
    simp only [hk] at h
    split at h
    · obtain ⟨_, hpasses, ⟨type, _, p, _, rfl, hp, ⟨opening, us, closing, arguments, rfl, ho, hc, hlisted,
        harguments, rfl⟩, rfl⟩, -⟩ := (accepts_construction hr (element_derives n) _ _ _).1 h
      exact ⟨_, hpasses, .construct hp ho hlisted harguments hc⟩
    · next hname => exact single (.symbol hk (by simpa using hname)) h

/-- Every innermost expression is read. -/
lemma primary_of_derives (hr : Accepts r (Derives n .equality) Ends) (hpasses : c.Passes ts c')
    (h : Derives (n + 1) .primary ts e) : primary r c = .ok (e, c') := by
  have hhead : ∀ {t : Token} {us : List Token}, ts = t :: us → c.rest.head? = some t := by
    rintro t us rfl
    exact hpasses.1
  rw [primary, Rule.peekToken_bind]
  cases h with
  | operand hi => cases hi
  | binary hi => cases hi
  | number ht | string ht =>
    rw [hhead rfl]
    simp only [ht]
    rw [hpasses.2]
    rfl
  | symbol ht hname =>
    rw [hhead rfl]
    simp only [ht, hname]
    rw [hpasses.2]
    rfl
  | @group _ opening closing us _ ho hinside hc =>
    rw [hhead rfl]
    simp only [ho]
    exact (accepts_grouping hr _ _ _).2 ⟨_, hpasses, ⟨opening, us, closing, rfl, ho, hinside, hc⟩, trivial⟩
  | @sample _ keyword opening name comma closing us sampler inside hk ho hname hcomma hinside hc =>
    rw [hhead rfl]
    simp only [hk]
    exact (accepts_sampling hr _ _ _).2 ⟨_, hpasses.2, ⟨opening, name, comma, us, closing, sampler, inside,
      rfl, ho, hname, hcomma, hinside, hc, rfl⟩, trivial⟩
  | @construct _ type us p opening closing arguments hp ho hlisted harguments hc =>
    obtain ⟨t, vs, word, rfl, ht, hword⟩ := hp.isTypeWord
    rw [hhead rfl]
    simp only [ht, hword]
    exact (accepts_construction hr (element_derives n) _ _ _).2 ⟨_, hpasses, ⟨_, _, p, _, rfl, hp,
      ⟨opening, us, closing, arguments, rfl, ho, hc, hlisted, harguments, rfl⟩, rfl⟩, trivial⟩

theorem accepts_primary (hr : Accepts r (Derives n .equality) Ends) :
    Accepts (primary r) (Derives (n + 1) .primary) anything := by
  intro c e c'
  constructor
  · intro h
    obtain ⟨ts, hpasses, he⟩ := derives_of_primary hr h
    exact ⟨ts, hpasses, he, trivial⟩
  · rintro ⟨ts, hpasses, he, -⟩
    exact primary_of_derives hr hpasses he

/-! ### Operators before one value, and depth -/

lemma unaryOp?_eq_some {kind : Token.Kind} {op : UnaryOp} :
    unaryOp? kind = some op ↔ kind = .mark op.mark := by
  constructor
  · intro h
    unfold unaryOp? at h
    split at h <;> cases h <;> rfl
  · rintro rfl
    cases op <;> rfl

/-- An innermost expression begins with no operator before one value. -/
lemma Begins.unaryOp? {kind : Token.Kind} (h : Begins kind) : unaryOp? kind = none := by
  cases hop : Expr.unaryOp? kind with
  | none => rfl
  | some op =>
    rw [unaryOp?_eq_some.1 hop] at h
    cases op <;> cases h

lemma prefixed_operator {inner : Inner} {t : Token} {op : UnaryOp} (ht : c.rest.head? = some t)
    (hop : unaryOp? t.kind = some op) :
    prefixed inner c = (inner.operand >>= fun value => pure (Expr.unary op value)) c.advance := by
  have hnext : c.next?.bind Expr.unaryOp? = some op := by
    unfold Cursor.next?
    rw [ht]
    exact hop
  rw [prefixed, Rule.peek_bind, hnext]
  rfl

lemma prefixed_primary {inner : Inner} (h : c.next?.bind unaryOp? = none) :
    prefixed inner c = primary inner.expression c := by
  rw [prefixed, Rule.peek_bind, h]

/-- **An operator before one value, or an innermost expression.** -/
theorem accepts_prefixed {inner : Inner} (he : Accepts inner.expression (Derives n .equality) Ends)
    (ho : Accepts inner.operand (Derives n .unary) anything) :
    Accepts (prefixed inner) (Derives (n + 1) .unary) anything := by
  intro c e c'
  constructor
  · intro h
    cases hop : c.next?.bind unaryOp? with
    | some op =>
      obtain ⟨_, hkind, hop⟩ := Option.bind_eq_some_iff.1 hop
      obtain ⟨t, ht, rfl⟩ := Option.map_eq_some_iff.1 hkind
      rw [prefixed_operator ht hop] at h
      obtain ⟨value, c₁, hvalue, h⟩ := Rule.bind_eq_ok.1 h
      obtain ⟨rfl, rfl⟩ := Prod.mk.inj (Except.ok.inj h)
      obtain ⟨us, hus, hderives, -⟩ := (ho _ value c₁).1 hvalue
      exact ⟨t :: us, ⟨ht, hus⟩, .unary (unaryOp?_eq_some.1 hop) hderives, trivial⟩
    | none =>
      rw [prefixed_primary hop] at h
      obtain ⟨ts, hpasses, hderives, -⟩ := (accepts_primary he c e c').1 h
      exact ⟨ts, hpasses, .operand rfl hderives, trivial⟩
  · rintro ⟨ts, hpasses, h, -⟩
    cases h with
    | @unary _ t us op value ht hderives =>
      rw [prefixed_operator hpasses.1 (unaryOp?_eq_some.2 ht)]
      exact Rule.bind_eq_ok.2 ⟨value, c', (ho _ value c').2 ⟨us, hpasses.2, hderives, trivial⟩, rfl⟩
    | operand hi hderives =>
      obtain rfl := Option.some.inj hi
      obtain ⟨t, us, rfl, hfirst⟩ := hderives.first
      have hbegins : Begins t.kind := hfirst.resolve_right fun hop => hop.1 rfl
      have hnone : c.next?.bind Expr.unaryOp? = none := by
        unfold Cursor.next?
        rw [hpasses.1]
        exact hbegins.unaryOp?
      rw [prefixed_primary hnone]
      exact (accepts_primary he c e c').2 ⟨_, hpasses, hderives, trivial⟩
    | @binary _ _ _ _ _ _ op _ _ _ hop => cases op <;> cases hop

/-- **The rules with some levels left** read the expressions that nest no more levels. -/
theorem accepts_ofDepth (n : Nat) : Accepts (Inner.ofDepth n).expression (Derives n .equality) Ends ∧
    Accepts (Inner.ofDepth n).operand (Derives n .unary) anything := by
  induction n with
  | zero =>
    have hnone : ∀ tier ts e, ¬ Derives 0 tier ts e := fun tier ts e h => absurd h.pos (by omega)
    exact ⟨Rule.accepts_stop _ (hnone _), Rule.accepts_stop _ (hnone _)⟩
  | succ n ih =>
    have hprefixed := accepts_prefixed ih.1 ih.2
    exact ⟨accepts_levels hprefixed, hprefixed⟩

/-- **The rule for expressions reads its grammar and nothing else.**  From the tokens `ts` it reads the
tree `e` and leaves `rest` exactly if `ts` begins with tokens that the grammar derives to `e`, with at
most 64 levels nested in each other, and `rest` follows them, which does not begin with an operator
between two values. -/
theorem rule_eq_ok_iff (ts rest : List Token) (e : Expr) (last : Position) :
    (∃ last', Expr.rule ⟨ts, last⟩ = .ok (e, ⟨rest, last'⟩)) ↔
      ∃ front, ts = front ++ rest ∧ (∀ t ∈ rest.head?, ∀ op : BinaryOp, t.kind ≠ .mark op.mark) ∧
        Derives 64 .equality front e := by
  have haccepts : Accepts Expr.rule (Derives 64 .equality) Ends := (accepts_ofDepth maxDepth).1
  constructor
  · rintro ⟨last', h⟩
    obtain ⟨front, hpasses, hderives, hends⟩ := (haccepts _ _ _).1 h
    exact ⟨front, hpasses.rest_eq, hends, hderives⟩
  · rintro ⟨front, rfl, hends, hderives⟩
    obtain ⟨last', hpasses⟩ := Cursor.exists_passes (c := ⟨front ++ rest, last⟩) rfl
    exact ⟨last', (haccepts _ _ _).2 ⟨front, hpasses, hderives, hends⟩⟩

end Expr

end Shading
