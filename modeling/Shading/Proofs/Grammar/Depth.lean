import Shading.Kernel.Lowering
import Shading.Proofs.Grammar.Expressions

/-!
# How deep expressions are

The levels that an expression may nest bound the ways down its tree, if the steps to left operands are
not counted: each level has four tiers of operators, and a constructor takes a step to its arguments and
one to each of them.  Operators of one tier group to the left without a further level, so a tree is as
high as such a chain is long, and there is no bound for all trees.

* `Expr.depth` — the longest way down, in which a step to a left operand has a weight of its own;
* `Expr.height_le` — the height from the nesting and the longest chain;
* `Expr.glslWithin` — what is written with a bounded number of calls inside each other;
* `Expr.Derives.nesting_le` — the nesting of what the grammar derives;
* `Program.nesting_le_of_ofTokens` — the expressions of a program;
* `Program.not_exists_height_le` — their heights have no bound.
-/

namespace Shading

open Grammar

namespace Expr

/-! ### Ways down a tree -/

mutual

/-- The longest way from the root down to a leaf.  Each step counts for one, but a step to the left operand
of an operation between two values counts for `left`. -/
def depth (left : Nat) : Expr → Nat
  | .constant _ => 0
  | .symbol _ => 0
  | .variadic values => depthAll left values
  | .parameter _ => 0
  | .construct _ value => value.depth left + 1
  | .sample _ value => value.depth left + 1
  | .binary _ l r => max (l.depth left + left) (r.depth left + 1)
  | .unary _ value => value.depth left + 1

/-- The longest way down, whose first step leads to one of the expressions. -/
def depthAll (left : Nat) : List Expr → Nat
  | [] => 0
  | e :: es => max (e.depth left + 1) (depthAll left es)

end

/-- The height of the tree. -/
def height (e : Expr) : Nat := e.depth 1

/-- The longest way down without the steps to left operands. -/
def nesting (e : Expr) : Nat := e.depth 0

/-- How many steps to left operands can be taken one after another from the root. -/
def spine : Expr → Nat
  | .binary _ l _ => l.spine + 1
  | _ => 0

mutual

/-- How many steps to left operands can be taken one after another, from anywhere: the length of the
longest chain of operators that group to the left. -/
def longestChain : Expr → Nat
  | .constant _ => 0
  | .symbol _ => 0
  | .variadic values => longestChainAll values
  | .parameter _ => 0
  | .construct _ value => value.longestChain
  | .sample _ value => value.longestChain
  | .binary _ l r => max (l.spine + 1) (max l.longestChain r.longestChain)
  | .unary _ value => value.longestChain

def longestChainAll : List Expr → Nat
  | [] => 0
  | e :: es => max e.longestChain (longestChainAll es)

end

lemma depthAll_le {left n : Nat} {es : List Expr} :
    depthAll left es ≤ n ↔ ∀ e ∈ es, e.depth left + 1 ≤ n := by
  induction es with
  | nil => simp [depthAll]
  | cons e es ih => simp [depthAll, ih]

lemma spine_le_longestChain (e : Expr) : e.spine ≤ e.longestChain := by
  cases e with
  | binary op l r => exact le_max_left _ _
  | _ => simp [spine]

mutual

/-- Between two steps that are not to a left operand stands at most one chain, and another behind the
last of them. -/
lemma height_le_spine (k : Nat) : ∀ e : Expr, e.longestChain ≤ k →
    e.height ≤ e.nesting * (k + 1) + e.spine
  | .constant _, _ | .symbol _, _ | .parameter _, _ => by simp [height, depth]
  | .variadic values, h => heightAll_le_spine k values h
  | .construct _ value, h | .sample _ value, h | .unary _ value, h => by
    have ih := height_le_spine k value h
    have hspine := (value.spine_le_longestChain).trans h
    simp only [height, nesting, depth, spine] at ih ⊢
    rw [Nat.succ_mul]
    omega
  | .binary _ l r, h => by
    simp only [longestChain, Nat.max_le] at h
    obtain ⟨-, hl, hr⟩ := h
    have ihl := height_le_spine k l hl
    have ihr := height_le_spine k r hr
    have hspine := (r.spine_le_longestChain).trans hr
    simp only [height, nesting, depth, spine, Nat.add_zero] at ihl ihr ⊢
    have hmax : max (l.depth 0) (r.depth 0 + 1) * (k + 1) =
        max (l.depth 0 * (k + 1)) (r.depth 0 * (k + 1) + (k + 1)) := by
      rw [← Nat.mul_max_mul_right, Nat.succ_mul]
    omega

lemma heightAll_le_spine (k : Nat) : ∀ es : List Expr, longestChainAll es ≤ k →
    depthAll 1 es ≤ depthAll 0 es * (k + 1)
  | [], _ => by simp [depthAll]
  | e :: es, h => by
    simp only [longestChainAll, Nat.max_le] at h
    have ih := height_le_spine k e h.1
    have ihs := heightAll_le_spine k es h.2
    have hspine := (e.spine_le_longestChain).trans h.1
    simp only [height, nesting, depthAll] at ih ⊢
    rw [← Nat.mul_max_mul_right, Nat.succ_mul]
    omega

end

/-- **The height from the nesting and the longest chain.** -/
lemma height_le (e : Expr) : e.height ≤ e.nesting * (e.longestChain + 1) + e.longestChain := by
  have h := height_le_spine e.longestChain e le_rfl
  have hspine := e.spine_le_longestChain
  omega

/-! ### Calls inside each other -/

/-- A call that takes `cost` of the `n` calls that may still be made inside each other. -/
def call {α : Type} (cost n : Nat) (body : Nat → Option α) : Option α :=
  if cost ≤ n then body (n - cost) else none

mutual

/-- An expression in GLSL, if at most `n` calls are made inside each other for it.  The call for a part of
the expression takes one of them, and that for the left operand of an operation takes `left`. -/
def glslWithin (left : Nat) : Nat → Expr → Option (Except Lowering.Cause String)
  | _, .constant value => some (return value.text)
  | _, .symbol name => some (return name)
  | n, .variadic values => do
    let texts ← glslAllWithin left n values
    some (do return String.intercalate ", " (← texts))
  | _, .parameter binding => some binding.glsl
  | n, .construct primitive value => do
    let text ← call 1 n fun m => glslWithin left m value
    some (do return (← primitive.glsl) ++ "(" ++ (← text) ++ ")")
  | n, .sample sampler value => do
    let text ← call 1 n fun m => glslWithin left m value
    some (do return "texture(" ++ sampler ++ ", " ++ (← text) ++ ")")
  | n, .binary op l r => do
    let ltext ← call left n fun m => glslWithin left m l
    let rtext ← call 1 n fun m => glslWithin left m r
    some (do return l.asOperand (← ltext) ++ " " ++ op.text ++ " " ++ r.asOperand (← rtext))
  | n, .unary op value => do
    let text ← call 1 n fun m => glslWithin left m value
    some (do return op.text ++ value.asOperand (← text))

def glslAllWithin (left : Nat) : Nat → List Expr → Option (Except Lowering.Cause (List String))
  | _, [] => some (return [])
  | n, e :: es => do
    let text ← call 1 n fun m => glslWithin left m e
    let texts ← glslAllWithin left n es
    some (do return (← text) :: (← texts))

end

/-- A call is made when what it needs is left behind its cost. -/
lemma call_eq {α : Type} {cost n d : Nat} {a : α} {body : Nat → Option α}
    (h : ∀ m, body m = if d ≤ m then some a else none) :
    call cost n body = if d + cost ≤ n then some a else none := by
  unfold call
  by_cases hn : d + cost ≤ n
  · rw [if_pos (by omega), h, if_pos (by omega), if_pos hn]
  · rw [if_neg hn]
    split
    · rw [h, if_neg (by omega)]
    · rfl

mutual

/-- **Writing an expression takes as many calls inside each other as the tree is deep.** -/
theorem glslWithin_eq (left n : Nat) : ∀ e : Expr,
    e.glslWithin left n = if e.depth left ≤ n then some e.glsl else none
  | .constant _ | .symbol _ | .parameter _ => by simp [glslWithin, depth, glsl]
  | .variadic values => by
    rw [glslWithin, glslAllWithin_eq left n values, depth, glsl]
    split <;> rfl
  | .construct _ value | .sample _ value | .unary _ value => by
    rw [glslWithin, call_eq fun m => glslWithin_eq left m value, depth, glsl]
    split <;> rfl
  | .binary _ l r => by
    rw [glslWithin, call_eq fun m => glslWithin_eq left m l, call_eq fun m => glslWithin_eq left m r,
      depth, glsl]
    by_cases hl : l.depth left + left ≤ n <;> by_cases hr : r.depth left + 1 ≤ n <;> simp [hl, hr]

theorem glslAllWithin_eq (left n : Nat) : ∀ es : List Expr,
    glslAllWithin left n es = if depthAll left es ≤ n then some (glslAll es) else none
  | [] => by simp [glslAllWithin, depthAll, glslAll]
  | e :: es => by
    rw [glslAllWithin, call_eq fun m => glslWithin_eq left m e, glslAllWithin_eq left n es, depthAll,
      glslAll]
    by_cases he : e.depth left + 1 ≤ n <;> by_cases hes : depthAll left es ≤ n <;> simp [he, hes]

end

/-! ### What the grammar derives -/

/-- How many tiers of operators between two values hold an expression of the tier. -/
def Tier.rank : Tier → Nat
  | equality => 4
  | comparison => 3
  | additive => 2
  | multiplicative => 1
  | unary => 0
  | primary => 0

lemma nesting_ofArguments {n : Nat} {es : List Expr} (h : ∀ e ∈ es, e.nesting ≤ n) :
    (ofArguments es).nesting ≤ n + 1 := by
  unfold ofArguments
  split
  · next e => exact (h e (by simp)).trans (Nat.le_succ n)
  · exact depthAll_le.2 fun e he => Nat.succ_le_succ (h e he)

/-- **Each level adds six steps at most**: one to a right operand in each of the four tiers, and two from
a constructor to an argument. -/
theorem Derives.nesting_le {n : Nat} {tier : Tier} {ts : List Token} {e : Expr} (h : Derives n tier ts e) :
    e.nesting + 4 ≤ 6 * n + tier.rank := by
  induction h with
  | @operand _ tier _ _ _ hi _ ih =>
    cases tier <;> cases hi <;> simp only [Tier.rank] at ih ⊢ <;> omega
  | @binary _ tier _ _ _ _ op _ _ hi hop _ _ _ ihl ihr =>
    simp only [nesting, depth, Nat.add_zero] at ihl ihr ⊢
    cases tier <;> cases hi <;> simp only [Tier.rank] at ihl ihr ⊢
    -- no operator between two values belongs to the tier of those before one
    case unary.refl => cases op <;> cases hop
    all_goals omega
  | unary _ _ ih =>
    simp only [nesting, depth, Tier.rank] at ih ⊢
    omega
  | number | string | symbol =>
    simp only [nesting, depth, Tier.rank]
    omega
  | group _ _ _ ih =>
    simp only [Tier.rank] at ih ⊢
    omega
  | sample _ _ _ _ _ _ ih =>
    simp only [nesting, depth, Tier.rank] at ih ⊢
    omega
  | @construct n _ _ _ _ _ arguments _ _ _ _ _ ih =>
    have harguments : ∀ e ∈ arguments.map (·.2), e.nesting ≤ 6 * n := by
      intro e he
      obtain ⟨argument, hmem, rfl⟩ := List.mem_map.1 he
      have := ih argument hmem
      simp only [Tier.rank] at this
      omega
    have hvalue := nesting_ofArguments harguments
    simp only [nesting, depth, Tier.rank] at hvalue ⊢
    omega

/-- The steps of a way down that are not to left operands: six for each of the levels. -/
def maxNesting : Nat := 6 * maxDepth

lemma Derives.nesting_le_maxNesting {ts : List Token} {e : Expr} (h : e.Whole ts) :
    e.nesting ≤ maxNesting := by
  have := h.nesting_le
  simp only [Tier.rank] at this
  unfold maxNesting
  omega

/-! ### Chains of operators -/

/-- `x + x + … + x` with `n` operators. -/
def longSum : Nat → Expr
  | 0 => .symbol "x"
  | n + 1 => .binary .add (longSum n) (.symbol "x")

@[simp]
lemma height_longSum (n : Nat) : (longSum n).height = n := by
  induction n with
  | zero => rfl
  | succ n ih =>
    simp only [height] at ih
    simp [height, longSum, depth, ih]

/-- A chain of any length is an expression: its operators take none of the levels. -/
lemma exists_whole_longSum (n : Nat) : ∃ ts, (longSum n).Whole ts := by
  have hx : Derives maxDepth .multiplicative [⟨.identifier "x", ⟨0, 1, 1, 1⟩, "x"⟩] (.symbol "x") :=
    .operand rfl (.operand rfl (.symbol rfl rfl))
  have hsum : ∃ ts, Derives maxDepth .additive ts (longSum n) := by
    induction n with
    | zero => exact ⟨_, .operand rfl hx⟩
    | succ n ih =>
      obtain ⟨ts, h⟩ := ih
      exact ⟨ts ++ ⟨.mark .plus, ⟨0, 1, 1, 1⟩, "+"⟩ :: _, .binary rfl rfl rfl h hx⟩
  obtain ⟨ts, h⟩ := hsum
  exact ⟨ts, .operand rfl (.operand rfl h)⟩

end Expr

namespace Program

/-- A program for each whole expression: it declares a constant of that value. -/
lemma exists_program_of_whole {ts : List Token} {e : Expr} (h : e.Whole ts) :
    ∃ tokens p, ofTokens tokens = .ok p ∧ e ∈ p.expressions := by
  let declared : Constant := ⟨{ kind := .float }, "c", e⟩
  have hd : declared.Spelled ([⟨.identifier "float", ⟨0, 5, 1, 1⟩, "float"⟩] ++
      ⟨.identifier "c", ⟨6, 7, 1, 7⟩, "c"⟩ :: ⟨.mark .equal, ⟨8, 9, 1, 9⟩, "="⟩ :: ts) :=
    .mk (.plain rfl rfl) rfl rfl h
  have hitem : Item.Spelled (⟨.keyword .const, ⟨0, 5, 1, 1⟩, "const"⟩ :: _)
      (some (.constant declared)) := .keyword rfl (.constant hd)
  have hfollowed : Item.Followed (some (.constant declared)) [] := by
    simp [Item.Followed, Expr.Ends]
  exact ⟨_, _, ofTokens_eq_ok.2 ⟨_, .cons hitem hfollowed .nil, rfl⟩,
    mem_expressions.2 (.inl ⟨declared, List.mem_singleton_self declared, rfl⟩)⟩

/-- **The cap bounds what nests in the expressions of a program.**  A way down has at most `maxNesting`
steps besides those to left operands, and writing the expression makes at most so many calls inside each
other besides those for left operands.  What the height is more is due to chains of operators that group
to the left. -/
theorem nesting_le_of_ofTokens {tokens : List Token} {p : Program} (h : ofTokens tokens = .ok p)
    {e : Expr} (he : e ∈ p.expressions) :
    e.nesting ≤ Expr.maxNesting ∧ e.glslWithin 0 Expr.maxNesting = some e.glsl ∧
      let bound := Expr.maxNesting * (e.longestChain + 1) + e.longestChain
      e.height ≤ bound ∧ e.glslWithin 1 bound = some e.glsl := by
  obtain ⟨items, hitems, rfl⟩ := ofTokens_eq_ok.1 h
  obtain ⟨us, hwhole⟩ := hitems.whole e he
  have hnesting := hwhole.nesting_le_maxNesting
  have hheight : e.height ≤ Expr.maxNesting * (e.longestChain + 1) + e.longestChain :=
    e.height_le.trans (Nat.add_le_add_right (Nat.mul_le_mul_right _ hnesting) _)
  refine ⟨hnesting, ?_, hheight, ?_⟩
  · exact (Expr.glslWithin_eq 0 _ e).trans (if_pos hnesting)
  · exact (Expr.glslWithin_eq 1 _ e).trans (if_pos hheight)

/-- An operator before one value, a chain of two and a constructor in it: `-(x + y + vec2(z, w))`. -/
theorem nesting_le_of_negated_sum :
    let tokens : List Token := [⟨.keyword .const, ⟨0, 5, 1, 1⟩, "const"⟩,
      ⟨.identifier "vec2", ⟨6, 10, 1, 7⟩, "vec2"⟩, ⟨.identifier "c", ⟨11, 12, 1, 12⟩, "c"⟩,
      ⟨.mark .equal, ⟨13, 14, 1, 14⟩, "="⟩, ⟨.mark .minus, ⟨15, 16, 1, 16⟩, "-"⟩,
      ⟨.mark .leftParen, ⟨16, 17, 1, 17⟩, "("⟩, ⟨.identifier "x", ⟨17, 18, 1, 18⟩, "x"⟩,
      ⟨.mark .plus, ⟨19, 20, 1, 20⟩, "+"⟩, ⟨.identifier "y", ⟨21, 22, 1, 22⟩, "y"⟩,
      ⟨.mark .plus, ⟨23, 24, 1, 24⟩, "+"⟩, ⟨.identifier "vec2", ⟨25, 29, 1, 26⟩, "vec2"⟩,
      ⟨.mark .leftParen, ⟨29, 30, 1, 30⟩, "("⟩, ⟨.identifier "z", ⟨30, 31, 1, 31⟩, "z"⟩,
      ⟨.mark .comma, ⟨31, 32, 1, 32⟩, ","⟩, ⟨.identifier "w", ⟨33, 34, 1, 34⟩, "w"⟩,
      ⟨.mark .rightParen, ⟨34, 35, 1, 35⟩, ")"⟩, ⟨.mark .rightParen, ⟨35, 36, 1, 36⟩, ")"⟩]
    let e : Expr := .unary .negate (.binary .add (.binary .add (.symbol "x") (.symbol "y"))
      (.construct { kind := .float, cardinality := some 2 } (.variadic [.symbol "z", .symbol "w"])))
    let p : Program := { constants := [⟨{ kind := .float, cardinality := some 2 }, "c", e⟩] }
    ofTokens tokens = .ok p ∧ e ∈ p.expressions ∧ e.longestChain = 2 ∧
      e.nesting ≤ Expr.maxNesting ∧ e.glslWithin 0 Expr.maxNesting = some e.glsl ∧
      e.height ≤ Expr.maxNesting * 3 + 2 ∧ e.glslWithin 1 (Expr.maxNesting * 3 + 2) = some e.glsl := by
  intro tokens e p
  have hp : ofTokens tokens = .ok p := by rfl
  have he : e ∈ p.expressions := List.mem_singleton_self e
  exact ⟨hp, he, rfl, nesting_le_of_ofTokens hp he⟩

/-- **The expressions of all programs together have no greatest height.** -/
theorem not_exists_height_le : ¬ ∃ bound, ∀ tokens p, ofTokens tokens = .ok p →
    ∀ e ∈ p.expressions, e.height ≤ bound := by
  rintro ⟨bound, hbound⟩
  obtain ⟨ts, hwhole⟩ := Expr.exists_whole_longSum (bound + 1)
  obtain ⟨tokens, p, hp, he⟩ := exists_program_of_whole hwhole
  have hheight := hbound tokens p hp _ he
  rw [Expr.height_longSum] at hheight
  omega

end Program

end Shading
