import Shading.Proofs.Grammar.Descent

/-!
# Reading goes forward and ends

Read with a count of the levels and without a bound on the rounds of a loop, every part of a program comes
to an end: a round of a loop that another follows has passed a token, and there is no level further inside
than the last.  What is read is what the rules read.

* `Descent.follows_tiered`, `Descent.follows_ofDepth` — expressions, tier by tier and level by level;
* `Descent.follows_statement`, `Descent.follows_items` — statements, and all items;
* `Descent.Part`, `Descent.Loop` — what is read, and the loops in it;
* `Descent.reading_progresses` — every part goes forward, and reading ends behind the last token.
-/

namespace Shading

open Grammar
open Shading.Expr (Tier)

/-- Reading has been inside of the levels it is inside of, and of no more than there are. -/
structure Grammar.Gauge.Sound (g : Gauge) : Prop where
  depth_le : g.depth ≤ g.deepest
  deepest_le : g.deepest ≤ Expr.maxDepth

/-! ### Rules that go into no level -/

lemma Primitive.moves_rule (c : Cursor) : Rule.Moves 1 Primitive.rule c := by
  refine Primitive.accepts_rule.moves ?_ c
  intro ts p h
  obtain ⟨t, us, -, rfl, -⟩ := h.isTypeWord
  simp

lemma Binding.moves_rule (c : Cursor) : Rule.Moves 1 Binding.rule c := by
  refine Binding.accepts_rule.moves ?_ c
  rintro _ b ⟨-, -⟩
  simp

namespace Item

lemma moves_includePath (c : Cursor) : Rule.Moves 1 includePath c := by
  refine accepts_includePath.moves ?_ c
  rintro _ _ ⟨t, rfl, -⟩
  exact le_rfl

lemma moves_afterKeyword (k : Keyword) (c : Cursor) : Rule.Moves 1 (afterKeyword k) c := by
  refine (accepts_afterKeyword k).moves ?_ c
  intro ts item? h
  cases h with
  | includeFile | shaderType => simp
  | uniform hb | varying hb =>
    obtain ⟨-, -⟩ := hb
    simp
  | constant hd =>
    obtain ⟨-, -, -, -⟩ := hd
    simp only [List.length_append, List.length_cons]
    omega
  | sample => simp

/-- What the items of a whole list leave is nothing. -/
lemma rest_of_sequence {n : Nat} {c c' : Cursor} {items : List Item} (hn : c.rest.length ≤ n)
    (h : sequence n c = .ok (items, c')) : c'.rest = [] := by
  induction n generalizing c items with
  | zero =>
    obtain ⟨-, rfl⟩ := Prod.mk.inj (Except.ok.inj h)
    exact List.length_eq_zero_iff.1 (Nat.le_zero.1 hn)
  | succ n ih =>
    rw [sequence, Rule.remaining_bind] at h
    split at h
    · next hend =>
      obtain ⟨-, rfl⟩ := Prod.mk.inj (Except.ok.inj h)
      exact List.length_eq_zero_iff.1 hend
    · next hne =>
      obtain ⟨item?, c₁, hitem, h⟩ := Rule.bind_eq_ok.1 h
      obtain ⟨later, c₂, hlater, h⟩ := Rule.bind_eq_ok.1 h
      obtain ⟨-, rfl⟩ := Prod.mk.inj (Except.ok.inj h)
      have hc : c.rest ≠ [] := fun hnil => hne (List.length_eq_zero_iff.2 hnil)
      obtain ⟨ts, hpasses, hspelled, -⟩ := (rule_eq_ok hc).1 hitem
      obtain ⟨t, us, rfl⟩ := hspelled.first
      refine ih ?_ hlater
      rw [hpasses.rest_eq, List.length_append, List.length_cons] at hn
      omega

end Item

/-! ### The loops of the rules, round by round -/

/-- As many rounds as there are tokens left are enough. -/
lemma Rule.PromptAt.bound_succ {α : Type} {l : Nat} {loop : Nat → Rule α} {c : Cursor}
    (h : PromptAt l loop c.rest) : loop c.rest.length c = loop (c.rest.length + 1) c := by
  obtain ⟨n, x, -, -, hsettles⟩ := h
  exact (hsettles _ c le_rfl rfl).trans (hsettles _ c (Nat.le_succ _) rfl).symm

lemma Expr.chain_succ (op? : Token.Kind → Option BinaryOp) (r : Rule Expr) (n : Nat) (left : Expr) :
    chain op? r (n + 1) left =
      Descent.operatorRound op? r left >>= Descent.further (chain op? r n) := by
  rw [chain, Descent.operatorRound, bind_assoc]
  refine bind_congr (x := Rule.peek) fun found => ?_
  cases found.bind op? with
  | none => rfl
  | some op =>
    simp only [bind_assoc, pure_bind]
    rfl

lemma Rule.commaSeparated_succ {α : Type} (r : Rule α) (n : Nat) (xs : List α) :
    (xs ++ ·) <$> commaSeparated r (n + 1) =
      Descent.elementRound r xs >>= Descent.further fun xs => (xs ++ ·) <$> commaSeparated r n := by
  rw [commaSeparated, Descent.elementRound]
  simp only [map_eq_pure_bind, bind_assoc]
  refine bind_congr (x := peek) fun found => ?_
  split
  · simp only [pure_bind, List.append_nil]
    rfl
  · simp only [bind_assoc]
    refine bind_congr (x := r) fun x => bind_congr (x := peek) fun found => ?_
    split
    · simp only [bind_assoc, pure_bind, Descent.further, List.append_assoc, List.singleton_append]
      rfl
    · simp only [pure_bind]
      rfl

lemma Statement.sequence_succ (n : Nat) (statements : List Statement) :
    (statements ++ ·) <$> sequence (n + 1) = Descent.statementRound Statement.rule statements >>=
      Descent.further fun statements => (statements ++ ·) <$> sequence n := by
  rw [sequence, Descent.statementRound]
  simp only [map_eq_pure_bind, bind_assoc]
  refine bind_congr (x := Rule.peek) fun found => ?_
  split
  · rfl
  · simp only [pure_bind, List.append_nil]
    rfl
  · simp only [bind_assoc, pure_bind, Descent.further, List.append_assoc, List.singleton_append]

lemma Item.sequence_succ (n : Nat) (items : List Item) :
    (items ++ ·) <$> sequence (n + 1) =
      Descent.itemRound Item.rule items >>= Descent.further fun items => (items ++ ·) <$> sequence n := by
  rw [sequence, Descent.itemRound]
  simp only [map_eq_pure_bind, bind_assoc]
  refine bind_congr (x := Rule.remaining) fun left => ?_
  split
  · simp only [pure_bind, List.append_nil]
    rfl
  · simp only [bind_assoc, pure_bind, Descent.further, List.append_assoc]

/-- The rule for a tier, over the rules one level further inside. -/
def Expr.Tier.rule (inner : Inner) : Tier → Rule Expr
  | primary => Expr.primary inner.expression
  | unary => prefixed inner
  | multiplicative => level multiplicativeOp? (prefixed inner)
  | additive => level additiveOp? (level multiplicativeOp? (prefixed inner))
  | comparison => level comparisonOp? (level additiveOp? (level multiplicativeOp? (prefixed inner)))
  | equality => levels (prefixed inner)

namespace Descent

variable {α σ : Type} {p : Prop} {d : Nat} {c : Cursor}

/-! ### One round -/

lemma turns_operatorRound {op? : Token.Kind → Option BinaryOp} {x : Descent Expr} {r : Rule Expr}
    (h : ∀ c, Follows p d 1 x r c) (left : Expr) (c : Cursor) :
    Turns p d (operatorRound op? x left) (operatorRound op? r left) c := by
  refine .look (r := Rule.peek) rfl ?_
  cases c.next?.bind op? with
  | none => exact .done left
  | some op => exact .inl ((follows_advance c).after fun _ c => (h c).andThen fun right c => .pure _)

lemma turns_elementRound {x : Descent α} {r : Rule α} (h : ∀ c, Follows p d 1 x r c) (xs : List α)
    (c : Cursor) : Turns p d (elementRound x xs) (elementRound r xs) c := by
  refine .look (r := Rule.peek) rfl ?_
  by_cases hclose : c.next? = some (.mark .rightParen)
  · simp only [if_pos hclose]
    exact .done xs
  · simp only [if_neg hclose]
    refine .inl ((h c).andThen fun y c => .look (r := Rule.peek) rfl ?_)
    by_cases hcomma : c.next? = some (.mark .comma)
    · simp only [if_pos hcomma]
      exact (follows_advance c).andThen fun _ c => .pure _
    · simp only [if_neg hcomma]
      exact .pure _

lemma turns_statementRound {x : Descent Statement} {r : Rule Statement} (h : ∀ c, Follows p d 1 x r c)
    (statements : List Statement) (c : Cursor) :
    Turns p d (statementRound x statements) (statementRound r statements) c := by
  refine .look (r := Rule.peek) rfl ?_
  split
  · exact .inl (follows_stop _)
  · exact .done statements
  · exact .inl ((h c).andThen fun s c => .pure _)

lemma turns_itemRound {x : Descent (Option Item)} {r : Rule (Option Item)}
    (h : ∀ c, c.rest ≠ [] → Follows p d 1 x r c) (items : List Item) (c : Cursor) :
    Turns p d (itemRound x items) (itemRound r items) c := by
  refine .look (r := Rule.remaining) rfl ?_
  by_cases hend : c.rest.length = 0
  · simp only [if_pos hend]
    exact .done items
  · simp only [if_neg hend]
    have hne : c.rest ≠ [] := fun hnil => hend (List.length_eq_zero_iff.2 hnil)
    exact .inl ((h c hne).andThen fun item? c => .pure _)

/-! ### Expressions -/

/-- A list in parentheses, whatever loop reads the elements. -/
lemma follows_parenthesised {x : Descent α} {r : Rule α} {run : List α → Descent (List α)}
    (hrun : ∀ xs, run xs = elementRound x xs >>= further run) (h : ∀ c, Follows p d 1 x r c) (c : Cursor) :
    Follows p d 1 (do
      Rule.expect .leftParen
      let xs ← run []
      Rule.expect .rightParen
      return xs) (Rule.parenthesised r) c := by
  refine (follows_expect .leftParen c).andThen fun _ c => .remaining ?_
  have hloop := follows_gathering hrun (Rule.commaSeparated_succ r) (turns_elementRound h) c
  exact hloop.after fun xs c => (follows_expect .rightParen c).after fun _ c => .pure xs

section Innermost

variable {r : Rule Expr} (he : ∀ c, Follows p d 1 Piece.expression.read r c)

include he

lemma follows_arguments (c : Cursor) : Follows p d 1 Piece.arguments.read (Rule.parenthesised r) c := by
  rw [Piece.read]
  exact follows_parenthesised Piece.read_argumentsFrom he c

lemma follows_sampling (c : Cursor) : Follows p d 1 Piece.sampling.read (Expr.sampling r) c := by
  rw [Piece.read]
  refine (follows_expect _ c).andThen fun _ c => (follows_identifier c).after fun sampler c => ?_
  refine (follows_expect _ c).after fun _ c => (he c).after fun value c => ?_
  exact (follows_expect _ c).after fun _ c => .pure _

lemma follows_grouping (c : Cursor) : Follows p d 1 Piece.grouping.read (Expr.grouping r) c := by
  rw [Piece.read]
  refine (follows_expect _ c).andThen fun _ c => (he c).after fun inside c => ?_
  exact (follows_expect _ c).after fun _ c => .pure _

lemma follows_construction (c : Cursor) : Follows p d 1 Piece.construction.read (Expr.construction r) c := by
  rw [Piece.read]
  refine (Follows.lift (Primitive.moves_rule c)).andThen fun primitive c => ?_
  exact (follows_arguments he c).after fun values c => .pure _

omit he in
/-- A token that is an expression by itself. -/
lemma follows_passed {t : Token} {rest : List Token} (h : c.rest = t :: rest) (e : Expr) :
    Follows p d 1 (do Rule.advance; return e) (do Rule.advance; return e) c :=
  (Follows.lift (Rule.moves_pass h)).andThen fun _ _ => .pure e

lemma follows_primary (c : Cursor) : Follows p d 1 Piece.primary.read (Expr.primary r) c := by
  rw [Piece.read]
  refine .look (r := Rule.peekToken) rfl ?_
  cases hrest : c.rest with
  | nil => exact follows_stop _
  | cons t rest =>
    simp only [List.head?_cons]
    generalize t.kind = kind
    have hrefused := (follows_advance (p := p) (d := d) c).after (n := 1) fun _ c =>
      follows_stop (α := Expr) (.expectedExpression (some kind))
    cases kind with
    | number | string => exact follows_passed hrest _
    | identifier name =>
      by_cases hname : Primitive.isTypeWord name = true
      · simp only [if_pos hname]
        exact follows_construction he c
      · simp only [if_neg hname]
        exact follows_passed hrest _
    | keyword k =>
      cases k with
      | sample => exact (follows_advance c).after fun _ c => follows_sampling he c
      | _ => exact hrefused
    | mark m =>
      cases m with
      | leftParen => exact follows_grouping he c
      | _ => exact hrefused
    | comment => exact hrefused

end Innermost

section Tiers

lemma prompt_level {op? : Token.Kind → Option BinaryOp} {r : Rule Expr} (hr : Rule.Prompt r) :
    Rule.Prompt (Expr.level op? r) := fun ts => Expr.promptAt_level hr (hr ts)

/-- One tier of operators over the tier inside it. -/
lemma follows_level (op : BinaryOp) {r : Rule Expr} (hr : Rule.Prompt r)
    (h : ∀ c, Follows p d 1 (Piece.tiered (op.tier.inner?.getD .primary)).read r c) (c : Cursor) :
    Follows p d 1 (Piece.tiered op.tier).read (Expr.level op.tier.op? r) c := by
  rw [Piece.read_tiered]
  refine (h c).andThen fun left c => .remaining ?_
  have hloop := follows_loop (Expr.chain op.tier.op? r) (Piece.read_operators op.tier)
    (Expr.chain_succ op.tier.op? r) (turns_operatorRound h) (Nat.lt_succ_self c.rest.length) left
  exact hloop.congr fun _ => (Expr.promptAt_chain hr left c.rest).bound_succ

variable {inner : Expr.Inner} (he : ∀ c, Follows p d 1 Piece.expression.read inner.expression c)
  (ho : ∀ c, Follows p d 1 Piece.operand.read inner.operand c)

include he ho

lemma follows_prefixed (c : Cursor) : Follows p d 1 Piece.prefixed.read (Expr.prefixed inner) c := by
  rw [Piece.read]
  refine .look (r := Rule.peek) rfl ?_
  cases c.next?.bind Expr.unaryOp? with
  | some op => exact (follows_advance c).after fun _ c => (ho c).andThen fun value c => .pure _
  | none => exact follows_primary he c

/-- **Every tier.**  Each tier of operators comes from the tier inside it. -/
lemma follows_tiered (hpe : Rule.Prompt inner.expression) (hpo : Rule.Prompt inner.operand) (tier : Tier)
    (c : Cursor) : Follows p d 1 (Piece.tiered tier).read (tier.rule inner) c := by
  have hprompt : Rule.Prompt (Expr.prefixed inner) := (Expr.eager_prefixed hpe hpo).prompt
  have hunary : ∀ c, Follows p d 1 (Piece.tiered .unary).read (Expr.prefixed inner) c := by
    intro c
    rw [Piece.read]
    exact follows_prefixed he ho c
  have hproducts := follows_level .multiply hprompt hunary
  have hsums := follows_level .add (prompt_level hprompt) hproducts
  have hcomparisons := follows_level .less (prompt_level (prompt_level hprompt)) hsums
  cases tier with
  | primary =>
    rw [Piece.read]
    exact follows_primary he c
  | unary => exact hunary c
  | multiplicative => exact hproducts c
  | additive => exact hsums c
  | comparison => exact hcomparisons c
  | equality => exact follows_level .equal (prompt_level (prompt_level (prompt_level hprompt))) hcomparisons c

end Tiers

/-- **Every level**: inside of `d` levels the rules with the levels that are left read the same. -/
lemma follows_ofDepth {n : Nat} (hd : d + n = Expr.maxDepth) (c : Cursor) :
    Follows p d 1 Piece.expression.read (Expr.Inner.ofDepth n).expression c ∧
      Follows p d 1 Piece.operand.read (Expr.Inner.ofDepth n).operand c := by
  induction n generalizing d c with
  | zero =>
    have hfull : ¬ d < Expr.maxDepth := by omega
    rw [Piece.read, Piece.read]
    exact ⟨follows_nested (fun h => absurd h hfull) fun _ => rfl,
      follows_nested (fun h => absurd h hfull) fun _ => rfl⟩
  | succ n ih =>
    have hlt : d < Expr.maxDepth := by omega
    have hinner := ih (d := d + 1) (by omega)
    have hprompt := Expr.prompt_ofDepth n
    have htiered := follows_tiered (fun c => (hinner c).1) (fun c => (hinner c).2) hprompt.1 hprompt.2
    rw [Piece.read, Piece.read]
    exact ⟨follows_nested (fun _ => htiered .equality c) fun h => absurd hlt h,
      follows_nested (fun _ => htiered .unary c) fun h => absurd hlt h⟩

/-! ### Statements and items -/

section Statements

-- the rules for statements and items have all levels left, so that they are the same outside of all levels
variable (hd : d ≤ Expr.maxDepth)

include hd

lemma follows_expression (c : Cursor) : Follows (d = 0) d 1 Piece.expression.read Expr.rule c := by
  refine (follows_ofDepth (Nat.add_sub_of_le hd) c).1.congr fun hzero => ?_
  rw [hzero]
  rfl

lemma follows_constant (c : Cursor) : Follows (d = 0) d 1 constant Constant.rule c := by
  refine (Follows.lift (Primitive.moves_rule c)).andThen fun primitive c => ?_
  refine (follows_identifier c).after fun name c => (follows_expect _ c).after fun _ c => ?_
  exact (follows_expression hd c).after fun value c => .pure _

lemma follows_statementAfter (k : Keyword) (c : Cursor) :
    Follows (d = 0) d 1 (statementAfter k) (Statement.afterKeyword k) c := by
  cases k with
  | returns =>
    refine (follows_expression hd c).andThen fun value c => ?_
    exact (follows_expect _ c).after fun _ c => .pure _
  | const =>
    refine (follows_constant hd c).andThen fun declared c => ?_
    exact (follows_expect _ c).after fun _ c => .pure _
  | _ => exact follows_stop _

lemma follows_assignment (target : String) (c : Cursor) :
    Follows (d = 0) d 1 (assignment target) (Statement.assignment target) c := by
  refine (follows_expression hd c).andThen fun value c => ?_
  exact (follows_expect _ c).after fun _ c => .pure _

lemma follows_evaluation (c : Cursor) : Follows (d = 0) d 1 evaluation Statement.evaluation c := by
  refine (follows_expression hd c).andThen fun value c => .look (r := Rule.peek) rfl ?_
  by_cases hclosed : c.next? = some (.mark .semicolon)
  · simp only [if_pos hclosed]
    exact (follows_advance c).after fun _ c => .pure _
  · simp only [if_neg hclosed]
    exact follows_stop _

lemma follows_statement (c : Cursor) : Follows (d = 0) d 1 statement Statement.rule c := by
  refine .look (r := Rule.peek) rfl (.look (r := Rule.peekSecond) rfl ?_)
  cases hrest : c.rest with
  | nil =>
    rw [Cursor.next?, hrest]
    exact follows_evaluation hd c
  | cons t rest =>
    rw [Cursor.next?_of_rest hrest]
    cases t.kind with
    | comment text => exact (Follows.lift (Rule.moves_pass hrest)).andThen fun _ c => .pure _
    | keyword k => exact (follows_advance c).after fun _ c => follows_statementAfter hd k c
    | identifier name =>
      cases c.second? with
      | none => exact follows_evaluation hd c
      | some second =>
        cases second with
        | mark m =>
          cases m with
          | equal =>
            refine (follows_advance c).after fun _ c => (follows_advance c).after fun _ c => ?_
            exact follows_assignment hd name c
          | _ => exact follows_evaluation hd c
        | _ => exact follows_evaluation hd c
    | _ => exact follows_evaluation hd c

lemma follows_body (c : Cursor) : Follows (d = 0) d 1 body Statement.body c := by
  refine (follows_expect .leftBrace c).andThen fun _ c => .remaining ?_
  have hloop := follows_gathering (Rounds.run_eq ⟨statementRound statement⟩) Statement.sequence_succ
    (turns_statementRound (follows_statement hd)) c
  exact hloop.after fun statements c => (follows_expect .rightBrace c).after fun _ c => .pure statements

omit hd in
lemma follows_parameters (c : Cursor) : Follows p d 1 parameters (Rule.parenthesised Binding.rule) c :=
  follows_parenthesised (Rounds.run_eq _) (fun c => .lift (Binding.moves_rule c)) c

lemma follows_definition (c : Cursor) : Follows (d = 0) d 1 definition Item.definition c := by
  refine (Follows.lift (Primitive.moves_rule c)).andThen fun returned c => ?_
  refine (follows_identifier c).after fun name c => (follows_parameters c).after fun parameters c => ?_
  refine (follows_body hd c).after fun body c => ?_
  cases StageKind.ofName? name with
  | none => exact .pure _
  | some kind =>
    by_cases hvoid : returned.isVoid = true
    · simp only [if_pos hvoid]
      exact .pure _
    · simp only [if_neg hvoid]
      exact follows_stop _

lemma follows_itemAfter (k : Keyword) (c : Cursor) :
    Follows (d = 0) d 1 (itemAfter k) (Item.afterKeyword k) c := by
  cases k with
  | const => exact (follows_constant hd c).andThen fun declared c => .pure _
  | sample => exact (follows_sampling (follows_expression hd) c).andThen fun _ c => .pure _
  | _ => exact .lift (Item.moves_afterKeyword _ c)

lemma follows_keyword (k : Keyword) (c : Cursor) :
    Follows (d = 0) d 1 (keyword k) (do Rule.advance; Item.afterKeyword k) c :=
  (follows_advance c).after fun _ c => follows_itemAfter hd k c

/-- At the end there is no item, and no token to pass over. -/
lemma follows_item (c : Cursor) (hne : c.rest ≠ []) : Follows (d = 0) d 1 item Item.rule c := by
  refine .look (r := Rule.peek) rfl ?_
  obtain ⟨t, rest, hrest⟩ := List.exists_cons_of_ne_nil hne
  rw [Cursor.next?_of_rest hrest]
  cases t.kind with
  | keyword k => exact follows_keyword hd k c
  | identifier name => exact (follows_definition hd c).andThen fun declared c => .pure _
  | _ => exact (Follows.lift (Rule.moves_pass hrest)).andThen fun _ c => .pure none

lemma follows_items (c : Cursor) : Follows (d = 0) d 0 items (Item.sequence c.rest.length) c := by
  have hloop := follows_gathering (Rounds.run_eq ⟨itemRound item⟩) Item.sequence_succ
    (turns_itemRound (follows_item hd)) c
  exact hloop.congr fun _ => (Item.promptAt_sequence c.rest).bound_succ

end Statements

/-! ### Every part and every loop -/

/-- What is read, with what comes of it. -/
inductive Part : Type → Type
  | mark (m : Mark) : Part Unit
  | identifier : Part String
  | primitive : Part Primitive
  | includePath : Part String
  | expression : Part Expr
  | tiered (tier : Tier) : Part Expr
  | operand : Part Expr
  | arguments : Part (List Expr)
  | sampling : Part Expr
  | parameters : Part (List Binding)
  | constant : Part Constant
  | statement : Part Statement
  | body : Part (List Statement)
  | keyword (k : Keyword) : Part (Option Item)
  | definition : Part Item

namespace Part

/-- How the part is read. -/
def read : Part α → Descent α
  | mark m => liftM (Rule.expect m)
  | identifier => liftM Rule.identifier
  | primitive => liftM Primitive.rule
  | includePath => liftM Item.includePath
  | expression => Piece.expression.read
  | tiered tier => (Piece.tiered tier).read
  | operand => Piece.operand.read
  | arguments => Piece.arguments.read
  | sampling => Piece.sampling.read
  | parameters => Descent.parameters
  | constant => Descent.constant
  | statement => Descent.statement
  | body => Descent.body
  | keyword k => Descent.keyword k
  | definition => Descent.definition

/-- The rule for the part, with `n` levels left. -/
def rule (n : Nat) : Part α → Rule α
  | mark m => Rule.expect m
  | identifier => Rule.identifier
  | primitive => Primitive.rule
  | includePath => Item.includePath
  | expression => (Expr.Inner.ofDepth n).expression
  | tiered tier => tier.rule (Expr.Inner.ofDepth n)
  | operand => (Expr.Inner.ofDepth n).operand
  | arguments => Rule.parenthesised (Expr.Inner.ofDepth n).expression
  | sampling => Expr.sampling (Expr.Inner.ofDepth n).expression
  | parameters => Rule.parenthesised Binding.rule
  | constant => Constant.rule
  | statement => Statement.rule
  | body => Statement.body
  | keyword k => do
    Rule.advance
    Item.afterKeyword k
  | definition => Item.definition

/-- Expressions stand in the part, but not around it: its rule has all levels left. -/
def IsOuter : Part α → Prop
  | constant | statement | body | keyword _ | definition => True
  | _ => False

lemma follows (part : Part α) (hd : d ≤ Expr.maxDepth) (c : Cursor) :
    Follows (part.IsOuter → d = 0) d 1 part.read (part.rule (Expr.maxDepth - d)) c := by
  have hinner (c : Cursor) := follows_ofDepth (p := part.IsOuter → d = 0) (Nat.add_sub_of_le hd) c
  have he (c : Cursor) := (hinner c).1
  have ho (c : Cursor) := (hinner c).2
  have hprompt := Expr.prompt_ofDepth (Expr.maxDepth - d)
  cases part with
  | mark m => exact follows_expect m c
  | identifier => exact follows_identifier c
  | primitive => exact .lift (Primitive.moves_rule c)
  | includePath => exact .lift (Item.moves_includePath c)
  | expression => exact he c
  | tiered tier => exact follows_tiered he ho hprompt.1 hprompt.2 tier c
  | operand => exact ho c
  | arguments => exact follows_arguments he c
  | sampling => exact follows_sampling he c
  | parameters => exact follows_parameters c
  | constant => exact (follows_constant hd c).imp fun h => h trivial
  | statement => exact (follows_statement hd c).imp fun h => h trivial
  | body => exact (follows_body hd c).imp fun h => h trivial
  | keyword k => exact (follows_keyword hd k c).imp fun h => h trivial
  | definition => exact (follows_definition hd c).imp fun h => h trivial

end Part

/-- A loop, with what its rounds go on from. -/
inductive Loop : Type → Type
  | operators (tier : Tier) : Loop Expr
  | arguments : Loop (List Expr)
  | parameters : Loop (List Binding)
  | statements : Loop (List Statement)
  | items : Loop (List Item)

namespace Loop

/-- One round. -/
def round : Loop σ → σ → Descent (ForInStep σ)
  | operators tier => operatorRound tier.op? (Piece.tiered (tier.inner?.getD .primary)).read
  | arguments => elementRound Piece.expression.read
  | parameters => elementRound Binding.rule
  | statements => statementRound statement
  | items => itemRound item

/-- All rounds. -/
def run : Loop σ → σ → Descent σ
  | operators tier => fun left => (Piece.operators tier left).read
  | arguments => fun xs => (Piece.argumentsFrom xs).read
  | parameters => Rounds.run ⟨elementRound Binding.rule⟩
  | statements => Rounds.run ⟨statementRound statement⟩
  | items => Rounds.run ⟨itemRound item⟩

lemma run_eq (l : Loop σ) (s : σ) : l.run s = l.round s >>= further l.run := by
  cases l with
  | operators tier => exact Piece.read_operators tier s
  | arguments => exact Piece.read_argumentsFrom s
  | parameters | statements | items => exact Rounds.run_eq _ s

lemma turns (l : Loop σ) (s : σ) (hd : d ≤ Expr.maxDepth) (c : Cursor) :
    ∃ r, Turns (d = 0) d (l.round s) r c := by
  cases l with
  | operators tier =>
    have hinner := (Part.tiered (tier.inner?.getD .primary)).follows hd
    exact ⟨_, turns_operatorRound (fun c => (hinner c).imp fun _ h => h.elim) s c⟩
  | arguments => exact ⟨_, turns_elementRound (follows_expression hd) s c⟩
  | parameters => exact ⟨_, turns_elementRound (fun c => .lift (Binding.moves_rule c)) s c⟩
  | statements => exact ⟨_, turns_statementRound (follows_statement hd) s c⟩
  | items => exact ⟨_, turns_itemRound (follows_item hd) s c⟩

end Loop

/-! ### Reading goes forward and ends -/

/-- Reading from `g` comes to the end `g'`, with what was read or with a fault.  It is inside of as many
levels there as at `g`, and has been inside of no more than there are. -/
structure Ends (x : Descent α) (g : Gauge) (result : Except Fault α) (g' : Gauge) : Prop where
  outcome : x g = some (result, g')
  depth : g'.depth = g.depth
  deepest : g.deepest ≤ g'.deepest
  sound : g'.Sound

lemma Follows.ends {least : Nat} {x : Descent α} {r : Rule α} {g : Gauge} (hg : g.Sound)
    (h : Follows p g.depth least x r g.cursor) : ∃ result g', Ends x g result g' ∧
      (∀ a, result = .ok a → g.cursor.Advances least g'.cursor) ∧
      (p → r g.cursor = (·, g'.cursor) <$> result) := by
  obtain ⟨result, j, deepest', hmark, hbound, hj, hx, hleast, hr⟩ := h g.deepest hg.deepest_le
  refine ⟨result, ⟨g.cursor.ahead j, g.depth, deepest'⟩, ?_, fun a ha => ?_, hr⟩
  · exact ⟨hx, rfl, hmark, hg.depth_le.trans hmark, hbound⟩
  · exact ⟨j, hleast a ha, hj, rfl⟩

/-- A round that another follows has passed a token. -/
lemma Turns.ends {x : Descent (ForInStep σ)} {r : Rule (ForInStep σ)} {g : Gauge} (hg : g.Sound)
    (h : Turns p g.depth x r g.cursor) : ∃ result g', Ends x g result g' ∧
      ∀ s, result = .ok (.yield s) → g.cursor.Advances 1 g'.cursor := by
  rcases h with h | ⟨s, -, hx⟩
  · obtain ⟨result, g', hends, hadvances, -⟩ := h.ends hg
    exact ⟨result, g', hends, fun s hs => hadvances _ hs⟩
  · exact ⟨.ok (.done s), g, ⟨hx g.deepest, rfl, le_rfl, hg⟩, by simp⟩

/-- **Reading goes forward and ends.**  From every place, inside of any number of levels, every part comes
to an end with the count it began with, also with a fault; what is read has a token at the least and none
behind the last; and the rules with the levels that are left come to the same.  A loop goes round once and
then, if the round says so, again, and such a round has passed a token.  So the items of every token list
come to an end, and when there is no fault, no token is left. -/
theorem reading_progresses :
    (∀ {α : Type} (part : Part α) (g : Gauge), g.Sound → ∃ result g', Ends part.read g result g' ∧
      (∀ a, result = .ok a → g.cursor.Advances 1 g'.cursor) ∧
      ((part.IsOuter → g.depth = 0) →
        part.rule (Expr.maxDepth - g.depth) g.cursor = (·, g'.cursor) <$> result)) ∧
    (∀ {σ : Type} (l : Loop σ) (s : σ), l.run s = l.round s >>= further l.run ∧
      ∀ g : Gauge, g.Sound → ∃ result g', Ends (l.round s) g result g' ∧
        ∀ s', result = .ok (.yield s') → g.cursor.Advances 1 g'.cursor) ∧
    ∀ tokens : List Token, ∃ result g', Ends items ⟨Cursor.start tokens, 0, 0⟩ result g' ∧
      (∀ read, result = .ok read → g'.cursor.rest = []) ∧ Program.itemsOfTokens tokens = result := by
  refine ⟨fun part g hg => ?_, fun l s => ⟨l.run_eq s, fun g hg => ?_⟩, fun tokens => ?_⟩
  · have hdepth := hg.depth_le.trans hg.deepest_le
    exact (part.follows hdepth g.cursor).ends hg
  · have hdepth := hg.depth_le.trans hg.deepest_le
    obtain ⟨r, hturns⟩ := l.turns s hdepth g.cursor
    exact hturns.ends hg
  · have hsound : Gauge.Sound ⟨Cursor.start tokens, 0, 0⟩ := ⟨le_rfl, Nat.zero_le _⟩
    obtain ⟨result, g', hends, -, hrule⟩ :=
      (follows_items (Nat.zero_le Expr.maxDepth) (Cursor.start tokens)).ends hsound
    have hsequence : Item.sequence tokens.length (Cursor.start tokens) = (·, g'.cursor) <$> result :=
      hrule rfl
    refine ⟨result, g', hends, ?_, ?_⟩
    · rintro read rfl
      exact Item.rest_of_sequence (c := Cursor.start tokens) le_rfl hsequence
    · rw [Program.itemsOfTokens, hsequence]
      cases result <;> rfl

/-- Inside of all levels but one, the operand of an operator before one value is too deep, and the count is
as before. -/
theorem reading_progresses_too_deep :
    let g : Gauge := ⟨Cursor.start [⟨.mark .minus, ⟨0, 1, 1, 1⟩, "-"⟩,
      ⟨.identifier "x", ⟨1, 2, 1, 2⟩, "x"⟩], 63, 63⟩
    g.Sound ∧ ∃ g', Piece.expression.read g = some (.error ⟨.tooDeep, ⟨1, 1⟩⟩, g') ∧ g'.depth = 63 ∧
      g'.deepest ≤ 64 := by
  intro g
  have hsound : g.Sound := ⟨le_rfl, by decide⟩
  obtain ⟨result, g', hends, -, hrule⟩ := reading_progresses.1 .expression g hsound
  have hfails : (Expr.Inner.ofDepth 1).expression g.cursor = .error ⟨.tooDeep, ⟨1, 1⟩⟩ := rfl
  have hread : (Expr.Inner.ofDepth 1).expression g.cursor = (·, g'.cursor) <$> result :=
    hrule fun houter => houter.elim
  refine ⟨hsound, g', ?_, hends.depth, hends.sound.deepest_le⟩
  have houtcome : Piece.expression.read g = some (result, g') := hends.outcome
  rw [hfails] at hread
  cases result with
  | ok e => cases hread
  | error fault =>
    obtain rfl := Except.error.inj hread
    exact houtcome

end Descent

end Shading
