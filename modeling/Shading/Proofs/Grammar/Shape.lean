import Mathlib.Logic.Relation
import Shading.Proofs.Grammar.Expressions
import Shading.Proofs.Results
import Shading.Proofs.Token.Spelling

/-!
# The shape of what is read

What the trees of a source never hold, at any depth.  Writing them relies on it: that arguments stand
together only in a constructor, that a name is no type word, and that a number without a fraction was
written without a point.

* `Expr.Within` — what stands in an expression, at any depth;
* `Expr.Parsed.part`, `Expr.Parsed.within` — what one step down leads to, and what any way down does;
* `Expr.WellShaped`, `Program.WellShaped` — the shape;
* `Program.wellShaped_of_tokenize` — every program that is read has it.
-/

namespace Shading

open Grammar

namespace Expr

/-! ### Parts of expressions -/

/-- The expressions that an expression is made of. -/
def parts : Expr → List Expr
  | .variadic values => values
  | .construct _ value => [value]
  | .sample _ value => [value]
  | .binary _ left right => [left, right]
  | .unary _ value => [value]
  | _ => []

/-- An expression stands in another, at any depth: it is the other, or part of one that stands in it. -/
def Within : Expr → Expr → Prop := Relation.ReflTransGen fun e x => x ∈ e.parts

/-- What arguments stand for as one value. -/
def isVariadic : Expr → Bool
  | .variadic _ => true
  | _ => false

/-- What never stands in an expression that is read. -/
structure WellShaped (e : Expr) : Prop where
  /-- The expression itself is one value. -/
  single : e.isVariadic = false
  /-- Arguments stand together only as the value of a constructor, and one argument stands alone. -/
  arguments : ∀ x values, e.Within x → .variadic values ∈ x.parts →
    (∃ primitive, x = .construct primitive (.variadic values)) ∧ values.length ≠ 1
  parameters : ∀ binding, ¬ e.Within (.parameter binding)
  symbols : ∀ name, e.Within (.symbol name) → Primitive.isTypeWord name = false
  samplers : ∀ primitive value, e.Within (.construct primitive value) → primitive.kind = .sampler →
    primitive.precision = none
  /-- A number with a fraction is marked as one. -/
  numbers : ∀ x fractional, e.Within (.constant (.number x fractional)) → x.isFinite = true →
    x.isInteger = false → fractional = true

/-! ### Parts of expressions that are read -/

variable {T : Token → Prop} {e x : Expr}

/-- An expression that is read, or several of them as the arguments of a constructor. -/
inductive Placed (T : Token → Prop) : Expr → Prop
  | read {e : Expr} (h : e.Parsed T) : Placed T e
  | arguments {values : List Expr} (hlength : values.length ≠ 1) (h : ∀ e ∈ values, e.Parsed T) :
    Placed T (.variadic values)

lemma Parsed.isVariadic (h : e.Parsed T) : e.isVariadic = false := by cases h <;> rfl

/-- One argument stands alone. -/
lemma placed_ofArguments {arguments : List Expr} (h : ∀ e ∈ arguments, e.Parsed T) :
    Placed T (ofArguments arguments) := by
  unfold ofArguments
  split
  · next e => exact .read (h e (List.mem_singleton_self e))
  · next hne =>
    refine .arguments (fun hlength => ?_) h
    obtain ⟨e, rfl⟩ := List.length_eq_one_iff.1 hlength
    exact hne e rfl

/-- A step to an expression that is read. -/
lemma Parsed.step (h : x.Parsed T) :
    Placed T x ∧ (x.isVariadic = true → ∃ primitive, e = .construct primitive x) := by
  refine ⟨.read h, fun hvariadic => ?_⟩
  rw [h.isVariadic] at hvariadic
  cases hvariadic

/-- A step down from an expression that is read leads to such an expression, or from a constructor to its
arguments. -/
lemma Parsed.part (h : e.Parsed T) (hx : x ∈ e.parts) :
    Placed T x ∧ (x.isVariadic = true → ∃ primitive, e = .construct primitive x) := by
  cases h with
  | number | string | symbol => cases hx
  | construct _ h =>
    obtain rfl := List.mem_singleton.1 hx
    exact ⟨placed_ofArguments h, fun _ => ⟨_, rfl⟩⟩
  | sample _ he | unary he =>
    obtain rfl := List.mem_singleton.1 hx
    exact he.step
  | binary hl hr =>
    rcases List.mem_pair.1 hx with rfl | rfl
    · exact hl.step
    · exact hr.step

lemma Placed.part (h : Placed T e) (hx : x ∈ e.parts) :
    Placed T x ∧ (x.isVariadic = true → ∃ primitive, e = .construct primitive x) := by
  cases h with
  | read h => exact h.part hx
  | arguments _ h => exact (h x hx).step

/-- **What stands in an expression that is read, at any depth.** -/
theorem Parsed.within (h : e.Parsed T) (hx : e.Within x) : Placed T x := by
  induction hx with
  | refl => exact .read h
  | tail _ hpart ih => exact (ih.part hpart).1

end Expr

/-! ### The shape -/

/-- A type word names no sampler with a precision. -/
lemma Primitive.Named.precision {p : Primitive} (h : p.Named) (hp : p.kind = .sampler) :
    p.precision = none := by
  obtain ⟨word, precision, h⟩ := h
  obtain ⟨shape, -, rfl⟩ := Option.map_eq_some_iff.1 h
  exact if_pos hp

/-- **An expression that is read from the tokens of a source is well shaped.** -/
theorem Expr.Parsed.wellShaped {e : Expr} (h : e.Parsed fun t => Spelled t.kind t.lexeme.toList) :
    e.WellShaped where
  single := h.isVariadic
  arguments x values hx hvalues := by
    obtain ⟨hplaced, hconstruct⟩ := (h.within hx).part hvalues
    refine ⟨hconstruct rfl, ?_⟩
    cases hplaced with
    | read h => cases h
    | arguments hlength => exact hlength
  parameters binding hx := by
    cases h.within hx with
    | read h => cases h
  symbols name hx := by
    cases h.within hx with
    | read h => cases h with
      | symbol _ hname => exact hname
  samplers primitive value hx := by
    generalize hconstruct : Expr.construct primitive value = x at hx
    cases h.within hx with
    | arguments => cases hconstruct
    | read h => cases h with
      | construct hp =>
        obtain ⟨rfl, -⟩ := Expr.construct.inj hconstruct
        exact hp.precision
      | _ => cases hconstruct
  numbers x fractional hx hfinite hinteger := by
    cases h.within hx with
    | read h => cases h with
      | number ht hkind =>
        rw [hkind] at ht
        obtain ⟨marked, hwritten⟩ := ht.written
        rw [hwritten.contains_point]
        cases marked with
        | true => rfl
        | false =>
          rw [hwritten.isInteger hfinite] at hinteger
          cases hinteger

/-- The statements that stand in bodies: no control flow and no definitions. -/
def Statement.isPlain : Statement → Bool
  | .comment _ | .returns _ | .assign _ _ | .expression _ | .constant _ => true
  | _ => false

lemma Statement.Parsed.isPlain {T : Token → Prop} {s : Statement} (h : s.Parsed T) : s.isPlain = true := by
  cases h <;> rfl

/-- The type that a statement declares a constant of. -/
def Statement.primitive? : Statement → Option Primitive
  | .constant declared => some declared.primitive
  | _ => none

namespace Program

/-- The primitive types that a program declares something of. -/
def primitives (p : Program) : List Primitive :=
  (p.uniforms ++ p.varyings ++ p.functions.flatMap (·.parameters) ++
    p.stages.flatMap (·.parameters)).map (·.primitive) ++ p.functions.map (·.returned) ++
  p.constants.map (·.primitive) ++ p.statements.filterMap Statement.primitive?

/-- What never stands in a program that is read. -/
structure WellShaped (p : Program) : Prop where
  /-- The reserved names are those of stages. -/
  functions : ∀ f ∈ p.functions, f.name ∉ ["vertex", "fragment", "geometry"]
  bodies : ∀ body ∈ p.functions.map (·.body) ++ p.stages.map (·.body), ∀ s ∈ body, s.isPlain = true
  expressions : ∀ e ∈ p.expressions, e.WellShaped
  samplers : ∀ primitive ∈ p.primitives, primitive.kind = .sampler → primitive.precision = none

variable {T : Token → Prop} {p : Program}

lemma Parsed.named (h : p.Parsed T) : ∀ primitive ∈ p.primitives, primitive.Named := by
  simp only [primitives, List.forall_mem_append, List.forall_mem_map, List.forall_mem_flatMap,
    List.forall_mem_filterMap]
  refine ⟨⟨⟨⟨⟨⟨?_, ?_⟩, ?_⟩, ?_⟩, ?_⟩, ?_⟩, ?_⟩
  · exact fun b hb => (h.uniforms b hb).primitive
  · exact fun b hb => (h.varyings b hb).primitive
  · exact fun f hf b hb => ((h.functions f hf).parameters b hb).primitive
  · exact fun stage hstage b hb => ((h.stages stage hstage).parameters b hb).primitive
  · exact fun f hf => (h.functions f hf).returned
  · exact fun declared hd => (h.constants declared hd).primitive
  · intro s hs primitive hprimitive
    cases h.statements s hs <;> cases hprimitive
    next hd => exact hd.primitive

/-- **The shape of every program that is read from a source.** -/
theorem wellShaped_of_tokenize {source : String} {tokens : List Token} (hs : tokenize source = .ok tokens)
    (hp : ofTokens tokens = .ok p) : p.WellShaped := by
  have hparsed := parsed_ofTokens (Token.spelled_of_tokenize hs) hp
  refine ⟨fun f hf hname => ?_, fun body hbody s hsbody => ?_, fun e he => ?_, fun primitive hmem => ?_⟩
  · have hunreserved := (hparsed.functions f hf).unreserved
    simp only [List.mem_cons, List.not_mem_nil, or_false] at hname
    rcases hname with hname | hname | hname <;> rw [hname] at hunreserved <;> cases hunreserved
  · rcases List.mem_append.1 hbody with hbody | hbody
    · obtain ⟨f, hf, rfl⟩ := List.mem_map.1 hbody
      exact ((hparsed.functions f hf).body s hsbody).isPlain
    · obtain ⟨stage, hstage, rfl⟩ := List.mem_map.1 hbody
      exact ((hparsed.stages stage hstage).body s hsbody).isPlain
  · exact (hparsed.expressions e he).wellShaped
  · exact (hparsed.named primitive hmem).precision

/-- A sampler with a precision before its word, constructors with two arguments, one and none, and a
fraction. -/
theorem wellShaped_lamp :
    let source := "uniform highp sampler2d t;\n" ++
      "float f(lowp float a) \x7b return a * vec2(1.5, -a); \x7d\n" ++
      "void fragment() \x7b x = SAMPLE(t, vec2(int(y), f)) + vec4(); \x7d"
    ∃ tokens p, tokenize source = .ok tokens ∧ ofTokens tokens = .ok p ∧
      p.expressions.length = 2 ∧ p.primitives.length = 3 ∧ p.WellShaped := by
  intro source
  have hread : (tokenize source).toOption.any (fun tokens => (ofTokens tokens).toOption.any fun p =>
      p.expressions.length == 2 && p.primitives.length == 3) = true := by
    decide +kernel
  obtain ⟨tokens, htokens, hread⟩ := (Option.any_eq_true _ _).1 hread
  obtain ⟨p, hp, hread⟩ := (Option.any_eq_true _ _).1 hread
  obtain ⟨hexpressions, hprimitives⟩ := Bool.and_eq_true_iff.1 hread
  have htokens := eq_ok_of_toOption htokens
  have hp := eq_ok_of_toOption hp
  exact ⟨tokens, p, htokens, hp, beq_iff_eq.1 hexpressions, beq_iff_eq.1 hprimitives,
    wellShaped_of_tokenize htokens hp⟩

end Program

end Shading
