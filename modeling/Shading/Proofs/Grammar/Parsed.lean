import Mathlib.Tactic.Common
import Shading.Grammar.Program

/-!
# What the rules read

The shape of everything that the rules for expressions, statements and programs can return.  The
shapes are put together from the tokens that were read, so that what is known of the tokens of a source
is known of the texts and numbers in its program.

* `Rule.Gives` — what a rule returns, and how rules are put together;
* `Expr.Parsed`, `Statement.Parsed`, `Program.Parsed` — the shapes;
* `Expr.gives_rule`, `Program.parsed_ofTokens` — the rules return nothing else.
-/

namespace Shading

open Grammar

namespace Rule

variable {α β : Type} {T : Token → Prop} {r : Rule α} {k : α → Rule β} {P : α → Prop} {Q : β → Prop}

/-- The rule reads something with `P` from tokens that all have `T`. -/
def Gives (T : Token → Prop) (r : Rule α) (P : α → Prop) : Prop :=
  ∀ (c : Cursor) (a : α) (c' : Cursor), (∀ t ∈ c.rest, T t) → r c = .ok (a, c') →
    P a ∧ ∀ t ∈ c'.rest, T t

lemma bind_eq_ok {c c' : Cursor} {b : β} :
    (r >>= k) c = .ok (b, c') ↔ ∃ a c₁, r c = .ok (a, c₁) ∧ k a c₁ = .ok (b, c') := by
  show (r c).bind (fun p => k p.1 p.2) = _ ↔ _
  cases hr : r c with
  | error fault => simp [Except.bind]
  | ok p =>
    obtain ⟨a, c₁⟩ := p
    simp [Except.bind]

namespace Gives

lemma pure {a : α} (h : P a) : Gives T (pure a) P := by
  intro c b c' hc hb
  have hb : (Except.ok (a, c) : Except Fault (α × Cursor)) = .ok (b, c') := hb
  obtain ⟨rfl, rfl⟩ := Prod.mk.inj (Except.ok.inj hb)
  exact ⟨h, hc⟩

lemma bind (hr : Gives T r P) (hk : ∀ a, P a → Gives T (k a) Q) : Gives T (r >>= k) Q := by
  intro c b c' hc hb
  obtain ⟨a, c₁, ha, hb⟩ := bind_eq_ok.1 hb
  obtain ⟨hP, hc₁⟩ := hr c a c₁ hc ha
  exact hk a hP c₁ b c' hc₁ hb

lemma stop (cause : Cause) : Gives T (stop cause) P := by
  intro c a c' _ ha
  simp [Rule.stop] at ha

end Gives

/-! ### Rules for one token -/

/-- A token with `T` is of this kind. -/
def Occurs (T : Token → Prop) (kind : Token.Kind) : Prop := ∃ t, T t ∧ t.kind = kind

lemma gives_peekToken : Gives T peekToken fun t? => ∀ t, t? = some t → T t := by
  intro c a c' hc ha
  obtain ⟨rfl, rfl⟩ : c.rest.head? = a ∧ c = c' := by simpa [peekToken] using ha
  exact ⟨fun t ht => hc t (List.mem_of_head? ht), hc⟩

lemma gives_peek : Gives T peek fun kind? => ∀ kind, kind? = some kind → Occurs T kind := by
  intro c a c' hc ha
  obtain ⟨rfl, rfl⟩ : c.next? = a ∧ c = c' := by simpa [peek] using ha
  refine ⟨fun kind hkind => ?_, hc⟩
  obtain ⟨t, ht, rfl⟩ := Option.map_eq_some_iff.1 hkind
  exact ⟨t, hc t (List.mem_of_head? ht), rfl⟩

lemma gives_peekSecond : Gives T peekSecond fun _ => True := by
  intro c a c' hc ha
  obtain ⟨-, rfl⟩ : c.second? = a ∧ c = c' := by simpa [peekSecond] using ha
  exact ⟨trivial, hc⟩

lemma gives_remaining : Gives T remaining fun _ => True := by
  intro c a c' hc ha
  obtain ⟨-, rfl⟩ : c.rest.length = a ∧ c = c' := by simpa [remaining] using ha
  exact ⟨trivial, hc⟩

lemma gives_advance : Gives T advance fun _ => True := by
  intro c a c' hc ha
  obtain rfl : c.advance = c' := by simpa [advance] using ha
  refine ⟨trivial, fun t ht => hc t ?_⟩
  unfold Cursor.advance at ht
  split at ht
  · exact ht
  · next heq =>
    rw [heq]
    exact List.mem_cons_of_mem _ ht

lemma gives_expect (m : Mark) : Gives T (expect m) fun _ => True := by
  refine gives_peek.bind fun found _ => ?_
  split
  · exact gives_advance
  · exact .stop _

lemma gives_identifier : Gives T identifier fun name => Occurs T (.identifier name) := by
  refine gives_peek.bind fun found hfound => ?_
  split
  · next name => exact gives_advance.bind fun _ _ => .pure (hfound _ rfl)
  · exact .stop _

/-! ### Lists in parentheses -/

lemma gives_commaSeparated (hr : Gives T r P) (n : Nat) :
    Gives T (commaSeparated r n) fun xs => ∀ x ∈ xs, P x := by
  induction n with
  | zero => exact .pure (by simp)
  | succ n ih =>
    refine gives_peek.bind fun found _ => ?_
    split
    · exact .pure (by simp)
    · refine hr.bind fun x hx => gives_peek.bind fun found _ => ?_
      split
      · refine gives_advance.bind fun _ _ => ih.bind fun xs hxs => .pure ?_
        exact List.forall_mem_cons.2 ⟨hx, hxs⟩
      · exact .pure (by simpa using hx)

lemma gives_parenthesised (hr : Gives T r P) :
    Gives T (parenthesised r) fun xs => ∀ x ∈ xs, P x := by
  refine (gives_expect _).bind fun _ _ => gives_remaining.bind fun n _ => ?_
  refine (gives_commaSeparated hr (n + 1)).bind fun xs hxs => ?_
  exact (gives_expect _).bind fun _ _ => .pure hxs

end Rule

open Rule (Gives Occurs)

/-! ### Expressions -/

/-- A primitive that a type word names. -/
def Primitive.Named (p : Primitive) : Prop := ∃ word precision, Primitive.ofWord? word precision = some p

/-- The shape of an expression that is read from tokens with `T`.  Several arguments, or none, stand
together only inside a constructor. -/
inductive Expr.Parsed (T : Token → Prop) : Expr → Prop
  | number {t : Token} {value : Double} (ht : T t) (hk : t.kind = .number value) :
    Parsed T (.constant (.number value (t.lexeme.toList.contains '.')))
  | string {text : String} (h : Occurs T (.string text)) : Parsed T (.constant (.string text))
  | symbol {name : String} (h : Occurs T (.identifier name))
    (hn : Primitive.isTypeWord name = false) : Parsed T (.symbol name)
  | construct {p : Primitive} {arguments : List Expr} (hp : p.Named)
    (h : ∀ e ∈ arguments, Parsed T e) : Parsed T (.construct p (Expr.ofArguments arguments))
  | sample {sampler : String} {e : Expr} (h : Occurs T (.identifier sampler)) (he : Parsed T e) :
    Parsed T (.sample sampler e)
  | binary {op : BinaryOp} {left right : Expr} (hl : Parsed T left) (hr : Parsed T right) :
    Parsed T (.binary op left right)
  | unary {op : UnaryOp} {e : Expr} (he : Parsed T e) : Parsed T (.unary op e)

lemma Primitive.gives_rule {T : Token → Prop} : Gives T Primitive.rule Primitive.Named := by
  refine Rule.gives_identifier.bind fun first _ => ?_
  dsimp only
  split
  · refine Rule.gives_identifier.bind fun word _ => ?_
    split
    · next p hp => exact .pure ⟨word, _, hp⟩
    · exact .stop _
  · refine (Gives.pure (P := fun _ => True) trivial).bind fun word _ => ?_
    split
    · next p hp => exact .pure ⟨word, _, hp⟩
    · exact .stop _

namespace Expr

variable {T : Token → Prop} {r : Rule Expr}

lemma gives_chain {op? : Token.Kind → Option BinaryOp} (hr : Gives T r (Parsed T)) (n : Nat)
    {left : Expr} (hleft : Parsed T left) : Gives T (chain op? r n left) (Parsed T) := by
  induction n generalizing left with
  | zero => exact .pure hleft
  | succ n ih =>
    refine Rule.gives_peek.bind fun found _ => ?_
    split
    · exact .pure hleft
    · exact Rule.gives_advance.bind fun _ _ => hr.bind fun right hright => ih (.binary hleft hright)

lemma gives_level {op? : Token.Kind → Option BinaryOp} (hr : Gives T r (Parsed T)) :
    Gives T (level op? r) (Parsed T) :=
  hr.bind fun _ hleft => Rule.gives_remaining.bind fun n _ => gives_chain hr n hleft

lemma gives_levels (hr : Gives T r (Parsed T)) : Gives T (levels r) (Parsed T) :=
  gives_level (gives_level (gives_level (gives_level hr)))

lemma gives_construction (hr : Gives T r (Parsed T)) : Gives T (construction r) (Parsed T) := by
  refine Primitive.gives_rule.bind fun p hp => ?_
  exact (Rule.gives_parenthesised hr).bind fun arguments h => .pure (.construct hp h)

lemma gives_sampling (hr : Gives T r (Parsed T)) : Gives T (sampling r) (Parsed T) := by
  refine (Rule.gives_expect _).bind fun _ _ => Rule.gives_identifier.bind fun sampler hs => ?_
  refine (Rule.gives_expect _).bind fun _ _ => hr.bind fun e he => ?_
  exact (Rule.gives_expect _).bind fun _ _ => .pure (.sample hs he)

lemma gives_grouping (hr : Gives T r (Parsed T)) : Gives T (grouping r) (Parsed T) := by
  refine (Rule.gives_expect _).bind fun _ _ => hr.bind fun e he => ?_
  exact (Rule.gives_expect _).bind fun _ _ => .pure he

lemma gives_primary (hr : Gives T r (Parsed T)) : Gives T (primary r) (Parsed T) := by
  refine Rule.gives_peekToken.bind fun token? htoken => ?_
  split
  · next token =>
    have ht : T token := htoken token rfl
    split
    · exact Rule.gives_advance.bind fun _ _ => gives_sampling hr
    · exact gives_grouping hr
    · next name hk =>
      split
      · exact gives_construction hr
      · next hn =>
        exact Rule.gives_advance.bind fun _ _ => .pure (.symbol ⟨token, ht, hk⟩ (by simpa using hn))
    · next value hk => exact Rule.gives_advance.bind fun _ _ => .pure (.number ht hk)
    · next text hk => exact Rule.gives_advance.bind fun _ _ => .pure (.string ⟨token, ht, hk⟩)
    · exact Rule.gives_advance.bind fun _ _ => .stop _
  · exact .stop _

lemma gives_prefixed {inner : Inner} (he : Gives T inner.expression (Parsed T))
    (ho : Gives T inner.operand (Parsed T)) : Gives T (prefixed inner) (Parsed T) := by
  refine Rule.gives_peek.bind fun found _ => ?_
  split
  · exact Rule.gives_advance.bind fun _ _ => ho.bind fun e he => .pure (.unary he)
  · exact gives_primary he

/-- **The rules for expressions return parsed expressions**, whatever the number of levels left. -/
theorem gives_ofDepth (n : Nat) :
    Gives T (Inner.ofDepth n).expression (Parsed T) ∧ Gives T (Inner.ofDepth n).operand (Parsed T) := by
  induction n with
  | zero => exact ⟨.stop _, .stop _⟩
  | succ n ih =>
    have hprefixed := gives_prefixed ih.1 ih.2
    exact ⟨gives_levels hprefixed, hprefixed⟩

theorem gives_rule : Gives T Expr.rule (Parsed T) := (gives_ofDepth maxDepth).1

end Expr

/-! ### Declarations and statements -/

/-- A name with a type that a type word names. -/
structure Binding.Parsed (T : Token → Prop) (b : Binding) : Prop where
  primitive : b.primitive.Named
  name : Occurs T (.identifier b.name)

structure Constant.Parsed (T : Token → Prop) (c : Constant) : Prop where
  primitive : c.primitive.Named
  name : Occurs T (.identifier c.name)
  value : c.value.Parsed T

/-- The statements that a body may hold. -/
inductive Statement.Parsed (T : Token → Prop) : Statement → Prop
  | comment {text : String} (h : Occurs T (.comment text)) : Parsed T (.comment text)
  | returns {value : Expr} (h : value.Parsed T) : Parsed T (.returns value)
  | constant {declared : Constant} (h : declared.Parsed T) : Parsed T (.constant declared)
  | assign {target : String} {value : Expr} (ht : Occurs T (.identifier target))
    (h : value.Parsed T) : Parsed T (.assign target value)
  | expression {value : Expr} (h : value.Parsed T) : Parsed T (.expression value)

/-- A function has no reserved name. -/
structure Function.Parsed (T : Token → Prop) (f : Function) : Prop where
  returned : f.returned.Named
  name : Occurs T (.identifier f.name)
  unreserved : StageKind.ofName? f.name = none
  parameters : ∀ b ∈ f.parameters, b.Parsed T
  body : ∀ s ∈ f.body, s.Parsed T

structure Stage.Parsed (T : Token → Prop) (s : Stage) : Prop where
  parameters : ∀ b ∈ s.parameters, b.Parsed T
  body : ∀ x ∈ s.body, x.Parsed T

variable {T : Token → Prop}

lemma Binding.gives_rule : Gives T Binding.rule (Binding.Parsed T) := by
  refine Primitive.gives_rule.bind fun p hp => Rule.gives_identifier.bind fun name hn => ?_
  exact .pure ⟨hp, hn⟩

lemma Constant.gives_rule : Gives T Constant.rule (Constant.Parsed T) := by
  refine Primitive.gives_rule.bind fun p hp => Rule.gives_identifier.bind fun name hn => ?_
  refine (Rule.gives_expect _).bind fun _ _ => Expr.gives_rule.bind fun value hv => ?_
  exact .pure ⟨hp, hn, hv⟩

namespace Statement

lemma gives_afterKeyword (k : Keyword) : Gives T (afterKeyword k) (Parsed T) := by
  cases k with
  | returns =>
    refine Expr.gives_rule.bind fun value hv => ?_
    exact (Rule.gives_expect _).bind fun _ _ => .pure (.returns hv)
  | const =>
    refine Constant.gives_rule.bind fun declared hd => ?_
    exact (Rule.gives_expect _).bind fun _ _ => .pure (.constant hd)
  | _ => exact .stop _

lemma gives_evaluation : Gives T evaluation (Parsed T) := by
  refine Expr.gives_rule.bind fun value hv => Rule.gives_peek.bind fun found _ => ?_
  split
  · exact Rule.gives_advance.bind fun _ _ => .pure (.expression hv)
  · exact .stop _

lemma gives_rule : Gives T Statement.rule (Parsed T) := by
  refine Rule.gives_peek.bind fun found hfound => Rule.gives_peekSecond.bind fun second _ => ?_
  split
  · exact Rule.gives_advance.bind fun _ _ => .pure (.comment (hfound _ rfl))
  · exact Rule.gives_advance.bind fun _ _ => gives_afterKeyword _
  · refine Rule.gives_advance.bind fun _ _ => Rule.gives_advance.bind fun _ _ => ?_
    refine Expr.gives_rule.bind fun value hv => ?_
    exact (Rule.gives_expect _).bind fun _ _ => .pure (.assign (hfound _ rfl) hv)
  · exact gives_evaluation

lemma gives_sequence (n : Nat) : Gives T (sequence n) fun ss => ∀ s ∈ ss, Parsed T s := by
  induction n with
  | zero => exact .pure (by simp)
  | succ n ih =>
    refine Rule.gives_peek.bind fun found _ => ?_
    split
    · exact .stop _
    · exact .pure (by simp)
    · refine gives_rule.bind fun s hs => ih.bind fun ss hss => .pure ?_
      exact List.forall_mem_cons.2 ⟨hs, hss⟩

lemma gives_body : Gives T body fun ss => ∀ s ∈ ss, Parsed T s := by
  refine (Rule.gives_expect _).bind fun _ _ => Rule.gives_remaining.bind fun n _ => ?_
  refine (gives_sequence (n + 1)).bind fun ss hss => ?_
  exact (Rule.gives_expect _).bind fun _ _ => .pure hss

end Statement

/-! ### Programs -/

/-- The shape of what stands at the top level. -/
inductive Item.Parsed (T : Token → Prop) : Item → Prop
  | includeFile {path : String} (h : Occurs T (.string path)) : Parsed T (.includeFile path)
  | shaderType {kind : String} (h : Occurs T (.identifier kind)) : Parsed T (.shaderType kind)
  | uniform {b : Binding} (h : b.Parsed T) : Parsed T (.uniform b)
  | varying {b : Binding} (h : b.Parsed T) : Parsed T (.varying b)
  | constant {c : Constant} (h : c.Parsed T) : Parsed T (.constant c)
  | function {f : Function} (h : f.Parsed T) : Parsed T (.function f)
  | stage {s : Stage} (h : s.Parsed T) : Parsed T (.stage s)

/-- Every declaration of the program has the shape of one that is read. -/
structure Program.Parsed (T : Token → Prop) (p : Program) : Prop where
  uniforms : ∀ b ∈ p.uniforms, b.Parsed T
  varyings : ∀ b ∈ p.varyings, b.Parsed T
  constants : ∀ c ∈ p.constants, c.Parsed T
  functions : ∀ f ∈ p.functions, f.Parsed T
  stages : ∀ s ∈ p.stages, s.Parsed T

namespace Item

lemma gives_includePath : Gives T includePath fun path => Occurs T (.string path) := by
  refine Rule.gives_peek.bind fun found hfound => Rule.gives_advance.bind fun _ _ => ?_
  split
  · exact .pure (hfound _ rfl)
  · exact .stop _

lemma gives_afterKeyword (k : Keyword) :
    Gives T (afterKeyword k) fun item? => ∀ item ∈ item?, Parsed T item := by
  cases k with
  | includeFile => exact gives_includePath.bind fun _ h => .pure (by simpa using .includeFile h)
  | shaderType => exact Rule.gives_identifier.bind fun _ h => .pure (by simpa using .shaderType h)
  | uniform => exact Binding.gives_rule.bind fun _ h => .pure (by simpa using .uniform h)
  | varying => exact Binding.gives_rule.bind fun _ h => .pure (by simpa using .varying h)
  | const => exact Constant.gives_rule.bind fun _ h => .pure (by simpa using .constant h)
  | sample => exact (Expr.gives_sampling Expr.gives_rule).bind fun _ _ => .pure (by simp)
  | _ => exact .stop _

lemma gives_definition : Gives T definition (Parsed T) := by
  refine Primitive.gives_rule.bind fun returned hr => Rule.gives_identifier.bind fun name hn => ?_
  refine (Rule.gives_parenthesised Binding.gives_rule).bind fun parameters hp => ?_
  refine Statement.gives_body.bind fun body hb => ?_
  split
  · next hname => exact .pure (.function ⟨hr, hn, hname, hp, hb⟩)
  · split
    · exact .pure (.stage ⟨hp, hb⟩)
    · exact .stop _

lemma gives_rule : Gives T Item.rule fun item? => ∀ item ∈ item?, Parsed T item := by
  refine Rule.gives_peek.bind fun found _ => ?_
  split
  · exact Rule.gives_advance.bind fun _ _ => gives_afterKeyword _
  · exact gives_definition.bind fun item h => .pure (by simpa using h)
  · exact Rule.gives_advance.bind fun _ _ => .pure (by simp)

lemma gives_sequence (n : Nat) : Gives T (sequence n) fun items => ∀ item ∈ items, Parsed T item := by
  induction n with
  | zero => exact .pure (by simp)
  | succ n ih =>
    refine Rule.gives_remaining.bind fun left _ => ?_
    split
    · exact .pure (by simp)
    · refine gives_rule.bind fun item? hitem => ih.bind fun items hitems => .pure fun item hmem => ?_
      rcases List.mem_append.1 hmem with hmem | hmem
      · exact hitem item (Option.mem_toList.1 hmem)
      · exact hitems item hmem

end Item

namespace Program

lemma parsed_ofItems {items : List Item} (h : ∀ item ∈ items, item.Parsed T) :
    (ofItems items).Parsed T := by
  refine ⟨?_, ?_, ?_, ?_, ?_⟩
  all_goals
    intro x hx
    obtain ⟨item, hitem, hof⟩ := List.mem_filterMap.1 hx
    have hparsed := h item hitem
    cases item <;> cases hof
    cases hparsed
    assumption

/-- The program of a token list is made of items that were read from the tokens of the list. -/
lemma exists_items_of_ofTokens {tokens : List Token} {p : Program} (hT : ∀ t ∈ tokens, T t)
    (h : ofTokens tokens = .ok p) : ∃ items, (∀ item ∈ items, item.Parsed T) ∧ ofItems items = p := by
  unfold ofTokens itemsOfTokens at h
  cases hitems : Item.sequence tokens.length (Cursor.start tokens) with
  | error fault => simp [hitems, Functor.map, Except.map] at h
  | ok read =>
    exact ⟨read.1, (Item.gives_sequence _ _ _ _ hT hitems).1, by
      simpa [hitems, Functor.map, Except.map] using h⟩

/-- **The program of a token list has the shape of what is read**, from the tokens of the list. -/
theorem parsed_ofTokens {tokens : List Token} {p : Program} (hT : ∀ t ∈ tokens, T t)
    (h : ofTokens tokens = .ok p) : p.Parsed T := by
  obtain ⟨items, hitems, rfl⟩ := exists_items_of_ofTokens hT h
  exact parsed_ofItems hitems

/-- The files that a program includes are named by strings. -/
lemma includes_ofTokens {tokens : List Token} {p : Program} (hT : ∀ t ∈ tokens, T t)
    (h : ofTokens tokens = .ok p) : ∀ path ∈ p.includes.toList, Occurs T (.string path) := by
  obtain ⟨items, hitems, rfl⟩ := exists_items_of_ofTokens hT h
  intro path hpath
  have hpath : path ∈ items.filterMap includePath? := by
    simpa [ofItems, PathSet.ofList, EmptyCollection.emptyCollection] using hpath
  obtain ⟨item, hitem, hof⟩ := List.mem_filterMap.1 hpath
  have hparsed := hitems item hitem
  cases item <;> cases hof
  cases hparsed
  assumption

end Program

end Shading
