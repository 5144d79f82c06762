import Shading.Proofs.Grammar.Faults

/-!
# Reading with a count of the levels

The rules for expressions are given the number of levels that are left, and their loops a bound on their
rounds.  Here the same is read without either: what bounds the levels is a count that goes up where a level
is entered and down where it is left, and a loop goes on as long as its rounds say so.  Nothing in this
says that reading ends.

* `Descent` — reading that counts its levels and may have no end;
* `Descent.Piece.read`, `Descent.statement`, `Descent.items` — what is read;
* `Descent.operatorRound`, `Descent.elementRound`, … — one round of each loop;
* `Descent.Follows` — reading ends where the count began, and a rule says what it comes to;
* `Descent.follows_nested`, `Descent.follows_loop` — a level further inside, and a loop.
-/

namespace Shading

open Grammar
open Shading.Expr (Tier)

/-- Where reading stands: the cursor, how many levels it is inside of, and how many it has been inside of
at most. -/
structure Grammar.Gauge where
  cursor : Cursor
  depth : Nat
  deepest : Nat

/-- Reading that counts its levels.  The count outlives a fault, and reading that has no end comes to
nothing. -/
abbrev Descent := ExceptT Fault (StateT Gauge Option)

/-- The operators between two values of a tier. -/
def Expr.Tier.op? : Tier → Token.Kind → Option BinaryOp
  | equality => equalityOp?
  | comparison => comparisonOp?
  | additive => additiveOp?
  | multiplicative => multiplicativeOp?
  | unary | primary => fun _ => none

namespace Descent

variable {α β σ : Type}

/-- A rule that goes into no level.  With a fault the cursor stays where it is: nothing is read behind a
fault. -/
def lift (r : Rule α) : Descent α := fun g =>
  match r g.cursor with
  | .ok (a, c) => some (.ok a, { g with cursor := c })
  | .error fault => some (.error fault, g)

instance : MonadLift Rule Descent := ⟨lift⟩

/-- Goes a level further inside, if there is one. -/
def enter : Descent Unit := fun g =>
  if g.depth < Expr.maxDepth then
    some (.ok (), { g with depth := g.depth + 1, deepest := max g.deepest (g.depth + 1) })
  else some (.error ⟨.tooDeep, g.cursor.last⟩, g)

/-- Comes back out of a level with what was read, or with a fault. -/
def leave (result : Except Fault α) : StateT Gauge Option (Except Fault α) := fun g =>
  some (result, { g with depth := g.depth - 1 })

/-! ### Rounds of loops -/

/-- What follows a round: the end of the loop, or further rounds. -/
def further {m : Type → Type} [Monad m] (again : σ → m σ) : ForInStep σ → m σ
  | .done s => return s
  | .yield s => again s

/-- A loop by one of its rounds. -/
structure Rounds (σ : Type) where
  round : σ → Descent (ForInStep σ)

/-- Rounds, as long as each says that another follows. -/
def Rounds.run (rounds : Rounds σ) (s : σ) : Descent σ := do
  match ← rounds.round s with
  | .done s => return s
  | .yield s => rounds |>.run s
partial_fixpoint

lemma Rounds.run_eq (rounds : Rounds σ) (s : σ) :
    rounds.run s = rounds.round s >>= further rounds.run := by
  rw [run]
  rfl

section Round

-- the rounds are those of the rules as well, whose loops are bounded
variable {m : Type → Type} [Monad m] [MonadLiftT Rule m]

/-- An operator behind `left` and its right operand. -/
def operatorRound (op? : Token.Kind → Option BinaryOp) (operand : m Expr) (left : Expr) :
    m (ForInStep Expr) := do
  match (← Rule.peek).bind op? with
  | none => return .done left
  | some op =>
    Rule.advance
    let right ← operand
    return .yield (.binary op left right)

/-- An element of a list in parentheses, behind `xs`, and a comma. -/
def elementRound (element : m α) (xs : List α) : m (ForInStep (List α)) := do
  if (← Rule.peek) = some (.mark .rightParen) then return .done xs
  let x ← element
  if (← Rule.peek) = some (.mark .comma) then
    Rule.advance
    return .yield (xs ++ [x])
  else return .done (xs ++ [x])

/-- A statement of a body. -/
def statementRound (statement : m Statement) (statements : List Statement) :
    m (ForInStep (List Statement)) := do
  match ← Rule.peek with
  | none => Rule.stop (.expectedMark .rightBrace none)
  | some (.mark .rightBrace) => return .done statements
  | some _ =>
    let s ← statement
    return .yield (statements ++ [s])

/-- An item at the top level, or a token that is passed over. -/
def itemRound (item : m (Option Item)) (items : List Item) : m (ForInStep (List Item)) := do
  if (← Rule.remaining) = 0 then return .done items
  let item? ← item
  return .yield (items ++ item?.toList)

end Round

/-! ### Expressions -/

/-- What an expression is read from. -/
inductive Piece : Type → Type
  /-- A whole expression, a level further inside. -/
  | expression : Piece Expr
  /-- The operand of an operator before one value, a level further inside. -/
  | operand : Piece Expr
  /-- An expression of a tier. -/
  | tiered (tier : Tier) : Piece Expr
  /-- Further operators of the tier behind `left`. -/
  | operators (tier : Tier) (left : Expr) : Piece Expr
  /-- An operator before one value and its operand, or an innermost expression. -/
  | prefixed : Piece Expr
  /-- An innermost expression. -/
  | primary : Piece Expr
  | grouping : Piece Expr
  | construction : Piece Expr
  | sampling : Piece Expr
  | arguments : Piece (List Expr)
  /-- Further arguments behind `xs`. -/
  | argumentsFrom (xs : List Expr) : Piece (List Expr)

/-- How the pieces are read, each by way of the others. -/
def Piece.read {τ : Type} (piece : Piece τ) : Descent τ :=
  match piece with
  | expression => do
    enter
    ((tiered .equality |>.read).run >>= leave : StateT Gauge Option (Except Fault Expr))
  | operand => do
    enter
    ((tiered .unary |>.read).run >>= leave : StateT Gauge Option (Except Fault Expr))
  | tiered tier => do
    match tier with
    | .primary => primary |>.read
    | .unary => prefixed |>.read
    | tier =>
      let left ← tiered (tier.inner?.getD .primary) |>.read
      operators tier left |>.read
  | operators tier left => do
    match (← Rule.peek).bind tier.op? with
    | none => return left
    | some op =>
      Rule.advance
      let right ← tiered (tier.inner?.getD .primary) |>.read
      operators tier (.binary op left right) |>.read
  | prefixed => do
    match (← Rule.peek).bind Expr.unaryOp? with
    | some op =>
      Rule.advance
      let value ← operand |>.read
      return .unary op value
    | none => primary |>.read
  | primary => do
    let some token ← Rule.peekToken | Rule.stop (.expectedExpression none)
    match token.kind with
    | .keyword .sample => Rule.advance; sampling |>.read
    | .mark .leftParen => grouping |>.read
    | .identifier name =>
      if Primitive.isTypeWord name then construction |>.read
      else
        Rule.advance
        return .symbol name
    | .number value =>
      Rule.advance
      return .constant (.number value (token.lexeme.toList.contains '.'))
    | .string text => Rule.advance; return .constant (.string text)
    | found => Rule.advance; Rule.stop (.expectedExpression (some found))
  | grouping => do
    Rule.expect .leftParen
    let inside ← expression |>.read
    Rule.expect .rightParen
    return inside
  | construction => do
    let primitive ← Primitive.rule
    let values ← arguments |>.read
    return .construct primitive (Expr.ofArguments values)
  | sampling => do
    Rule.expect .leftParen
    let sampler ← Rule.identifier
    Rule.expect .comma
    let value ← expression |>.read
    Rule.expect .rightParen
    return .sample sampler value
  | arguments => do
    Rule.expect .leftParen
    let xs ← argumentsFrom [] |>.read
    Rule.expect .rightParen
    return xs
  | argumentsFrom xs => do
    if (← Rule.peek) = some (.mark .rightParen) then return xs
    let x ← expression |>.read
    if (← Rule.peek) = some (.mark .comma) then
      Rule.advance
      argumentsFrom (xs ++ [x]) |>.read
    else return xs ++ [x]
partial_fixpoint

namespace Piece

/-! The two loops of expressions go round as the others do. -/

lemma read_operators (tier : Tier) (left : Expr) : (operators tier left).read =
    operatorRound tier.op? (tiered (tier.inner?.getD .primary)).read left >>=
      further fun left => (operators tier left).read := by
  conv_lhs => rw [read]
  rw [operatorRound, bind_assoc]
  refine bind_congr fun found => ?_
  cases found.bind tier.op? with
  | none => rfl
  | some op =>
    simp only [bind_assoc, pure_bind]
    rfl

lemma read_argumentsFrom (xs : List Expr) : (argumentsFrom xs).read =
    elementRound expression.read xs >>= further fun xs => (argumentsFrom xs).read := by
  conv_lhs => rw [read]
  rw [elementRound, bind_assoc]
  refine bind_congr fun found => ?_
  split
  · rfl
  · rw [bind_assoc]
    refine bind_congr fun x => ?_
    rw [bind_assoc]
    refine bind_congr fun found => ?_
    split
    · simp only [bind_assoc, pure_bind]
      rfl
    · rfl

lemma read_tiered (op : BinaryOp) : (tiered op.tier).read =
    (tiered (op.tier.inner?.getD .primary)).read >>= fun left => (operators op.tier left).read := by
  cases op <;> rw [BinaryOp.tier, read] <;> simp

end Piece

/-! ### Statements and items -/

def parameters : Descent (List Binding) := do
  Rule.expect .leftParen
  let xs ← Rounds.run ⟨elementRound Binding.rule⟩ []
  Rule.expect .rightParen
  return xs

/-- A constant, behind its keyword. -/
def constant : Descent Constant := do
  let primitive ← Primitive.rule
  let name ← Rule.identifier
  Rule.expect .equal
  let value ← Piece.expression.read
  return { primitive, name, value }

/-- A statement that begins with a keyword, which has been passed. -/
def statementAfter : Keyword → Descent Statement
  | .returns => do
    let value ← Piece.expression.read
    Rule.expect .semicolon
    return .returns value
  | .const => do
    let declared ← constant
    Rule.expect .semicolon
    return .constant declared
  | k => Statement.afterKeyword k

/-- An assignment, behind the name and the equals sign. -/
def assignment (target : String) : Descent Statement := do
  let value ← Piece.expression.read
  Rule.expect .semicolon
  return .assign target value

def evaluation : Descent Statement := do
  let value ← Piece.expression.read
  if (← Rule.peek) = some (.mark .semicolon) then
    Rule.advance
    return .expression value
  else Rule.stop .expectedSemicolon

def statement : Descent Statement := do
  match ← Rule.peek, ← Rule.peekSecond with
  | some (.comment text), _ => Rule.advance; return .comment text
  | some (.keyword k), _ => Rule.advance; statementAfter k
  | some (.identifier name), some (.mark .equal) =>
    Rule.advance
    Rule.advance
    assignment name
  | _, _ => evaluation

def body : Descent (List Statement) := do
  Rule.expect .leftBrace
  let statements ← Rounds.run ⟨statementRound statement⟩ []
  Rule.expect .rightBrace
  return statements

/-- An item that begins with a keyword, which has been passed. -/
def itemAfter : Keyword → Descent (Option Item)
  | .const => return some (.constant (← constant))
  | .sample => do
    let _ ← Piece.sampling.read
    return none
  | k => Item.afterKeyword k

/-- An item that begins with the keyword `k`, which comes next. -/
def keyword (k : Keyword) : Descent (Option Item) := do
  Rule.advance
  itemAfter k

/-- A function, or a stage when its name is reserved for one. -/
def definition : Descent Item := do
  let returned ← Primitive.rule
  let name ← Rule.identifier
  let parameters ← parameters
  let body ← body
  match StageKind.ofName? name with
  | none => return .function { returned, name, parameters, body }
  | some kind =>
    if returned.isVoid then return .stage { kind, parameters, body }
    else Rule.stop (.stageNotVoid name)

/-- What the next token begins. -/
def item : Descent (Option Item) := do
  match ← Rule.peek with
  | some (.keyword k) => keyword k
  | some (.identifier _) => return some (← definition)
  | _ => Rule.advance; return none

/-- The items up to the end. -/
def items : Descent (List Item) := Rounds.run ⟨itemRound item⟩ []

end Descent

/-! ### How far rules move -/

namespace Grammar.Cursor

/-- `c'` stands behind `c` by `least` tokens at the least, and not behind the last. -/
def Advances (least : Nat) (c c' : Cursor) : Prop :=
  ∃ j, least ≤ j ∧ j ≤ c.rest.length ∧ c' = c.ahead j

lemma Passes.eq_ahead {c c' : Cursor} {ts : List Token} (h : c.Passes ts c') : c' = c.ahead ts.length := by
  induction ts generalizing c with
  | nil => exact h
  | cons t ts ih => exact ih h.2

end Grammar.Cursor

namespace Rule

variable {α : Type} {r : Rule α} {c : Cursor} {least : Nat}

/-- What the rule reads from `c` has `least` tokens at the least, and none that is not there. -/
def Moves (least : Nat) (r : Rule α) (c : Cursor) : Prop :=
  ∀ a c', r c = .ok (a, c') → c.Advances least c'

lemma Accepts.moves {L : List Token → α → Prop} {F : List Token → Prop} (h : Accepts r L F)
    (hL : ∀ ts a, L ts a → least ≤ ts.length) (c : Cursor) : Moves least r c := by
  intro a c' hread
  obtain ⟨ts, hpasses, hts, -⟩ := (h c a c').1 hread
  refine ⟨ts.length, hL ts a hts, ?_, hpasses.eq_ahead⟩
  rw [hpasses.rest_eq, List.length_append]
  exact Nat.le_add_right _ _

lemma moves_stop (cause : Cause) : Moves least (stop cause : Rule α) c :=
  fun _ _ h => absurd h stop_ne_ok

lemma moves_pass {t : Token} {rest : List Token} (h : c.rest = t :: rest) : Moves 1 advance c := by
  intro _ c' hread
  obtain ⟨-, rfl⟩ := Prod.mk.inj (Except.ok.inj hread)
  exact ⟨1, le_rfl, by simp [h], rfl⟩

/-- At the end there is no token to pass. -/
lemma moves_advance (c : Cursor) : Moves 0 advance c := by
  intro a c' hread
  cases hrest : c.rest with
  | nil =>
    obtain ⟨-, rfl⟩ := Prod.mk.inj (Except.ok.inj hread)
    refine ⟨0, le_rfl, Nat.zero_le _, ?_⟩
    unfold Cursor.advance
    rw [hrest]
    rfl
  | cons t rest =>
    obtain ⟨j, -, hj, hc'⟩ := moves_pass hrest a c' hread
    exact ⟨j, Nat.zero_le j, hj, hc'⟩

lemma moves_expect (m : Mark) (c : Cursor) : Moves 1 (expect m) c := by
  refine (accepts_expect m).moves ?_ c
  rintro _ _ ⟨t, rfl, -⟩
  exact le_rfl

lemma moves_identifier (c : Cursor) : Moves 1 identifier c := by
  refine accepts_identifier.moves ?_ c
  rintro _ _ ⟨t, rfl, -⟩
  exact le_rfl

end Rule

/-! ### Reading that follows a rule -/

namespace Descent

variable {α β σ : Type} {p q : Prop} {d least m n : Nat} {x : Descent α} {r r' : Rule α} {c : Cursor}
  {f : α → Descent β} {k : α → Rule β}

/-- Reading from `c`, inside of `d` levels, ends inside of `d` levels, and in between it has been inside of
no more than there are.  What is read has `least` tokens at the least, and none that is not there.  Where `p`
holds, the rule comes to the same. -/
def Follows (p : Prop) (d least : Nat) (x : Descent α) (r : Rule α) (c : Cursor) : Prop :=
  ∀ deepest ≤ Expr.maxDepth, ∃ result j deepest', deepest ≤ deepest' ∧ deepest' ≤ Expr.maxDepth ∧
    j ≤ c.rest.length ∧ x ⟨c, d, deepest⟩ = some (result, ⟨c.ahead j, d, deepest'⟩) ∧
    (∀ a, result = .ok a → least ≤ j) ∧ (p → r c = (·, c.ahead j) <$> result)

namespace Follows

lemma mono (h : Follows p d n x r c) (hle : m ≤ n) : Follows p d m x r c := by
  intro deepest hdeepest
  obtain ⟨result, j, deepest', hmark, hbound, hj, hx, hleast, hr⟩ := h deepest hdeepest
  exact ⟨result, j, deepest', hmark, hbound, hj, hx, fun a ha => hle.trans (hleast a ha), hr⟩

lemma imp (h : Follows p d n x r c) (hqp : q → p) : Follows q d n x r c := by
  intro deepest hdeepest
  obtain ⟨result, j, deepest', hmark, hbound, hj, hx, hleast, hr⟩ := h deepest hdeepest
  exact ⟨result, j, deepest', hmark, hbound, hj, hx, hleast, fun hq => hr (hqp hq)⟩

/-- Only what the rule does from `c` matters. -/
lemma congr (h : Follows p d n x r c) (heq : p → r' c = r c) : Follows p d n x r' c := by
  intro deepest hdeepest
  obtain ⟨result, j, deepest', hmark, hbound, hj, hx, hleast, hr⟩ := h deepest hdeepest
  exact ⟨result, j, deepest', hmark, hbound, hj, hx, hleast, fun hp => (heq hp).trans (hr hp)⟩

lemma pure (a : α) : Follows p d 0 (pure a) (pure a) c := fun deepest h =>
  ⟨.ok a, 0, deepest, le_rfl, h, Nat.zero_le _, rfl, fun _ _ => le_rfl, fun _ => rfl⟩

lemma lift (h : Rule.Moves least r c) : Follows p d least (liftM r) r c := by
  intro deepest hdeepest
  have hx : (liftM r : Descent α) ⟨c, d, deepest⟩ = Descent.lift r ⟨c, d, deepest⟩ := rfl
  rw [hx, Descent.lift]
  cases hr : r c with
  | ok read =>
    obtain ⟨a, c'⟩ := read
    obtain ⟨j, hleast, hj, rfl⟩ := h a c' hr
    exact ⟨.ok a, j, deepest, le_rfl, hdeepest, hj, rfl, fun _ _ => hleast, fun _ => rfl⟩
  | error fault =>
    refine ⟨.error fault, 0, deepest, le_rfl, hdeepest, Nat.zero_le _, rfl, ?_, fun _ => rfl⟩
    intro a ha
    cases ha

/-- **One thing read behind another.** -/
lemma bind (hx : Follows p d m x r c)
    (hf : ∀ a j, m ≤ j → j ≤ c.rest.length → Follows p d n (f a) (k a) (c.ahead j)) :
    Follows p d (m + n) (x >>= f) (r >>= k) c := by
  intro deepest hdeepest
  obtain ⟨result, j, deepest₁, hmark, hbound, hj, hx, hleast, hr⟩ := hx deepest hdeepest
  cases result with
  | error fault =>
    refine ⟨.error fault, j, deepest₁, hmark, hbound, hj, ?_, by simp, fun hp => ?_⟩
    · show (x ⟨c, d, deepest⟩).bind _ = _
      rw [hx]
      rfl
    · show (r c).bind _ = _
      rw [hr hp]
      rfl
  | ok a =>
    have hfirst := hleast a rfl
    obtain ⟨result, i, deepest', hmark', hbound', hi, hf, hleast', hk⟩ := hf a j hfirst hj deepest₁ hbound
    rw [Cursor.rest_ahead, List.length_drop] at hi
    refine ⟨result, j + i, deepest', hmark.trans hmark', hbound', by omega, ?_, fun b hb => ?_, fun hp => ?_⟩
    · show (x ⟨c, d, deepest⟩).bind _ = _
      rw [hx, Cursor.ahead_add]
      exact hf
    · exact Nat.add_le_add hfirst (hleast' b hb)
    · show (r c).bind (fun read => k read.1 read.2) = _
      rw [hr hp, Cursor.ahead_add]
      exact hk hp

/-- The first has the tokens. -/
lemma andThen (hx : Follows p d m x r c) (hf : ∀ a c, Follows p d 0 (f a) (k a) c) :
    Follows p d m (x >>= f) (r >>= k) c :=
  hx.bind fun a j _ _ => hf a (c.ahead j)

/-- The second has the tokens. -/
lemma after (hx : Follows p d m x r c) (hf : ∀ a c, Follows p d n (f a) (k a) c) :
    Follows p d n (x >>= f) (r >>= k) c :=
  (hx.bind fun a j _ _ => hf a (c.ahead j)).mono (Nat.le_add_left n m)

/-- Something is looked at and stays. -/
lemma look {a : α} (h : r c = .ok (a, c)) (hf : Follows p d n (f a) (k a) c) :
    Follows p d n (liftM r >>= f) (r >>= k) c := by
  intro deepest hdeepest
  have hx : (liftM r >>= f : Descent β) ⟨c, d, deepest⟩ = f a ⟨c, d, deepest⟩ := by
    show (Descent.lift r ⟨c, d, deepest⟩).bind _ = _
    rw [Descent.lift]
    simp only [h]
    rfl
  have hr : (r >>= k) c = k a c := by
    show (r c).bind _ = _
    rw [h]
    rfl
  rw [hx, hr]
  exact hf deepest hdeepest

/-- The rule counts what is left. -/
lemma remaining {k : Nat → Rule α} (h : Follows p d n x (k c.rest.length) c) :
    Follows p d n x (Rule.remaining >>= k) c := h

end Follows

lemma follows_advance (c : Cursor) : Follows p d 0 (liftM Rule.advance) Rule.advance c :=
  .lift (Rule.moves_advance c)

lemma follows_expect (m : Mark) (c : Cursor) : Follows p d 1 (liftM (Rule.expect m)) (Rule.expect m) c :=
  .lift (Rule.moves_expect m c)

lemma follows_identifier (c : Cursor) : Follows p d 1 (liftM Rule.identifier) Rule.identifier c :=
  .lift (Rule.moves_identifier c)

lemma follows_stop (cause : Cause) :
    Follows p d least (liftM (Rule.stop cause : Rule α)) (Rule.stop cause) c :=
  .lift (Rule.moves_stop cause)

/-- **A level further inside.**  Also with a fault the count is put back. -/
lemma follows_nested (h : d < Expr.maxDepth → Follows p (d + 1) least x r c)
    (hdeep : ¬ d < Expr.maxDepth → r c = Rule.stop .tooDeep c) :
    Follows p d least (do enter; (x.run >>= leave : StateT Gauge Option (Except Fault α))) r c := by
  intro deepest hdeepest
  by_cases hd : d < Expr.maxDepth
  · have hentered : max deepest (d + 1) ≤ Expr.maxDepth := Nat.max_le.2 ⟨hdeepest, hd⟩
    obtain ⟨result, j, deepest', hmark, hbound, hj, hx, hleast, hr⟩ := h hd _ hentered
    refine ⟨result, j, deepest', (le_max_left _ _).trans hmark, hbound, hj, ?_, hleast, hr⟩
    show (enter ⟨c, d, deepest⟩).bind _ = _
    rw [enter, if_pos hd]
    show (x ⟨c, d + 1, max deepest (d + 1)⟩).bind _ = _
    rw [hx]
    rfl
  · refine ⟨.error ⟨.tooDeep, c.last⟩, 0, deepest, le_rfl, hdeepest, Nat.zero_le _, ?_, by simp,
      fun _ => hdeep hd⟩
    show (enter ⟨c, d, deepest⟩).bind _ = _
    rw [enter, if_neg hd]
    rfl

/-! ### Loops -/

/-- A round from `c` passes a token, or it ends the loop and passes none. -/
def Turns (p : Prop) (d : Nat) (x : Descent (ForInStep σ)) (r : Rule (ForInStep σ)) (c : Cursor) : Prop :=
  Follows p d 1 x r c ∨
    ∃ s, r c = .ok (.done s, c) ∧ ∀ deepest, x ⟨c, d, deepest⟩ = some (.ok (.done s), ⟨c, d, deepest⟩)

namespace Turns

variable {f : α → Descent (ForInStep σ)} {k : α → Rule (ForInStep σ)}

lemma done (s : σ) : Turns p d (pure (.done s)) (pure (.done s)) c := .inr ⟨s, rfl, fun _ => rfl⟩

lemma look {a : α} (h : r c = .ok (a, c)) (hf : Turns p d (f a) (k a) c) :
    Turns p d (liftM r >>= f) (r >>= k) c := by
  rcases hf with hf | ⟨s, hr, hx⟩
  · exact .inl (.look h hf)
  · refine .inr ⟨s, ?_, fun deepest => ?_⟩
    · show (r c).bind _ = _
      rw [h]
      exact hr
    · show (Descent.lift r ⟨c, d, deepest⟩).bind _ = _
      rw [Descent.lift]
      simp only [h]
      exact hx deepest

end Turns

/-- **A loop ends**: a round that another follows has passed a token.  The rule has more rounds than there
are tokens left, and does not come to its bound. -/
lemma follows_loop {round : σ → Descent (ForInStep σ)} {run : σ → Descent σ}
    {rule : σ → Rule (ForInStep σ)} (bounded : Nat → σ → Rule σ)
    (hrun : ∀ s, run s = round s >>= further run)
    (hbounded : ∀ n s, bounded (n + 1) s = rule s >>= further (bounded n))
    (hround : ∀ s c, Turns p d (round s) (rule s) c) (hn : c.rest.length < n) (s : σ) :
    Follows p d 0 (run s) (bounded n s) c := by
  induction n generalizing c s with
  | zero => omega
  | succ n ih =>
    rw [hrun, hbounded]
    rcases hround s c with h | ⟨s', hr, hx⟩
    · refine (h.bind fun step j hpassed hj => ?_).mono (Nat.zero_le (1 + 0))
      cases step with
      | done s' => exact .pure s'
      | yield s' =>
        refine ih ?_ s'
        rw [Cursor.rest_ahead, List.length_drop]
        omega
    · intro deepest hdeepest
      refine ⟨.ok s', 0, deepest, le_rfl, hdeepest, Nat.zero_le _, ?_, fun _ _ => le_rfl, fun _ => ?_⟩
      · show (round s ⟨c, d, deepest⟩).bind _ = _
        rw [hx]
        rfl
      · show (rule s c).bind _ = _
        rw [hr]
        rfl

/-- A loop that puts what it reads behind what it has read, from the first round on. -/
lemma follows_gathering {round : List α → Descent (ForInStep (List α))} {run : List α → Descent (List α)}
    {rule : List α → Rule (ForInStep (List α))} {bounded : Nat → Rule (List α)}
    (hrun : ∀ xs, run xs = round xs >>= further run)
    (hbounded : ∀ n xs, (xs ++ ·) <$> bounded (n + 1) =
      rule xs >>= further fun xs => (xs ++ ·) <$> bounded n)
    (hround : ∀ xs c, Turns p d (round xs) (rule xs) c) (c : Cursor) :
    Follows p d 0 (run []) (bounded (c.rest.length + 1)) c := by
  have hloop := follows_loop (fun n xs => (xs ++ ·) <$> bounded n) hrun hbounded hround
    (Nat.lt_succ_self c.rest.length) []
  simpa only [List.nil_append, id_map'] using hloop

end Descent

end Shading
