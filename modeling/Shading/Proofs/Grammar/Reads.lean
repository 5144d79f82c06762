import Shading.Proofs.Grammar.Parsed
import Shading.Proofs.Token.Rescan

/-!
# What the rules read from given tokens

A rule sees the kinds and the characters of the tokens before it.  Where these are known, so is what
it reads and what it leaves.

* `Rule.Reads` — what a rule reads and leaves, and how rules are put together;
* `Expr.reads_level`, `Expr.reads_level_binary` — a level of operators, without one and with one;
* `Expr.reads_levels_binary` — an operator is read at its own level.
-/

namespace Shading

open Grammar

/-- The tokens left, as a rule sees them. -/
def Grammar.Cursor.shows (c : Cursor) : List Piece := c.rest.map Token.piece

/-- The kind of the first piece. -/
def nextKind (ps : List Piece) : Option Token.Kind := ps.head?.map Prod.fst

namespace Rule

variable {α β : Type} {r : Rule α} {k : α → Rule β} {a : α} {b : β} {ps qs rs : List Piece}

/-- Before these pieces the rule reads `a` and leaves the others. -/
def Reads (r : Rule α) (before : List Piece) (a : α) (after : List Piece) : Prop :=
  ∀ c : Cursor, c.shows = before → ∃ c', r c = .ok (a, c') ∧ c'.shows = after

lemma Reads.pure (a : α) (ps : List Piece) : Reads (pure a) ps a ps := fun c hc => ⟨c, rfl, hc⟩

lemma Reads.bind (hr : Reads r ps a qs) (hk : Reads (k a) qs b rs) : Reads (r >>= k) ps b rs := by
  intro c hc
  obtain ⟨c₁, hc₁, hshows⟩ := hr c hc
  obtain ⟨c', hc', hshows'⟩ := hk c₁ hshows
  exact ⟨c', bind_eq_ok.2 ⟨a, c₁, hc₁, hc'⟩, hshows'⟩

lemma nextKind_shows (c : Cursor) : nextKind c.shows = c.next? := by
  unfold nextKind Cursor.shows Cursor.next?
  rw [List.head?_map, Option.map_map]
  rfl

lemma reads_peek (ps : List Piece) : Reads peek ps (nextKind ps) ps := by
  rintro c rfl
  exact ⟨c, by rw [nextKind_shows]; rfl, rfl⟩

lemma reads_remaining (ps : List Piece) : Reads remaining ps ps.length ps := by
  rintro c rfl
  exact ⟨c, by simp [remaining, Cursor.shows], rfl⟩

lemma reads_advance (p : Piece) (ps : List Piece) : Reads advance (p :: ps) () ps := by
  intro c hc
  obtain ⟨t, rest, hrest, -, rfl⟩ := List.map_eq_cons_iff.1 hc
  exact ⟨⟨rest, t.position⟩, by simp [advance, Cursor.advance, hrest], rfl⟩

/-- The next token is known but for its place. -/
lemma reads_peekToken_bind {k : Option Token → Rule β} {p : Piece}
    (h : ∀ t, t.kind = p.1 → t.lexeme = p.2 → Reads (k (some t)) (p :: ps) b rs) :
    Reads (peekToken >>= k) (p :: ps) b rs := by
  intro c hc
  obtain ⟨t, rest, hrest, rfl, -⟩ := List.map_eq_cons_iff.1 hc
  obtain ⟨c', hc', hshows⟩ := h t rfl rfl c hc
  exact ⟨c', bind_eq_ok.2 ⟨some t, c, by simp [peekToken, hrest], hc'⟩, hshows⟩

lemma reads_expect (m : Mark) (ps : List Piece) : Reads (expect m) (m.piece :: ps) () ps := by
  refine (reads_peek _).bind ?_
  rw [if_pos (by rfl)]
  exact reads_advance _ _

lemma reads_identifier (name : String) (ps : List Piece) :
    Reads identifier (wordPiece name :: ps) name ps :=
  (reads_peek _).bind ((reads_advance _ _).bind (.pure _ _))

/-- Elements in parentheses. -/
lemma reads_parenthesised {xs : List α}
    (h : Reads (commaSeparated r (ps.length + 1)) ps xs (Mark.rightParen.piece :: qs)) :
    Reads (parenthesised r) (Mark.leftParen.piece :: ps) xs qs := by
  refine (reads_expect _ _).bind ((reads_remaining _).bind (h.bind ?_))
  exact (reads_expect _ _).bind (.pure _ _)

end Rule

open Rule (Reads)

/-! ### Operators between two values -/

def BinaryOp.mark : BinaryOp → Mark
  | add => .plus
  | subtract => .minus
  | multiply => .star
  | divide => .slash
  | equal => .equalEqual
  | notEqual => .bangEqual
  | less => .less
  | lessEqual => .lessEqual
  | greater => .greater
  | greaterEqual => .greaterEqual

lemma BinaryOp.text_mark (op : BinaryOp) : op.mark.text = op.text := by cases op <;> rfl

def UnaryOp.mark : UnaryOp → Mark
  | negate => .minus
  | not => .bang

namespace Expr

variable {r : Rule Expr} {op? : Token.Kind → Option BinaryOp} {op : BinaryOp} {left right e : Expr}
  {ps qs rs : List Piece}

/-- No operator of the level comes next. -/
lemma reads_chain_stop (hstop : (nextKind ps).bind op? = none) (n : Nat) (left : Expr) :
    Reads (chain op? r n left) ps left ps := by
  cases n with
  | zero => exact .pure _ _
  | succ n =>
    refine (Rule.reads_peek ps).bind ?_
    rw [hstop]
    exact .pure _ _

/-- A level without an operator. -/
lemma reads_level (h : Reads r ps e qs) (hstop : (nextKind qs).bind op? = none) :
    Reads (level op? r) ps e qs :=
  h.bind ((Rule.reads_remaining qs).bind (reads_chain_stop hstop _ e))

/-- A level with one operator. -/
lemma reads_level_binary {p : Piece} (hleft : Reads r ps left (p :: qs)) (hop : op? p.1 = some op)
    (hright : Reads r qs right rs) (hstop : (nextKind rs).bind op? = none) :
    Reads (level op? r) ps (.binary op left right) rs := by
  refine hleft.bind ((Rule.reads_remaining _).bind ((Rule.reads_peek _).bind ?_))
  have hnext : (nextKind (p :: qs)).bind op? = some op := hop
  rw [hnext]
  exact (Rule.reads_advance _ _).bind (hright.bind (reads_chain_stop hstop _ _))

/-- Nothing comes next that an expression goes on with. -/
def Closing (ps : List Piece) : Prop :=
  ∀ kind ∈ nextKind ps, kind = .mark .rightParen ∨ kind = .mark .comma

lemma Closing.bind_eq_none {f : Token.Kind → Option BinaryOp} (h : Closing ps)
    (hparen : f (.mark .rightParen) = none) (hcomma : f (.mark .comma) = none) :
    (nextKind ps).bind f = none := by
  cases hnext : nextKind ps with
  | none => rfl
  | some kind => rcases h kind hnext with rfl | rfl <;> assumption

/-- All levels without an operator. -/
lemma reads_levels (h : Reads r ps e qs) (hclosing : Closing qs) : Reads (levels r) ps e qs := by
  have hproducts := reads_level h (hclosing.bind_eq_none (f := multiplicativeOp?) rfl rfl)
  have hsums := reads_level hproducts (hclosing.bind_eq_none (f := additiveOp?) rfl rfl)
  have hcomparisons := reads_level hsums (hclosing.bind_eq_none (f := comparisonOp?) rfl rfl)
  exact reads_level hcomparisons (hclosing.bind_eq_none rfl rfl)

/-- **An operator is read at its own level**: no level further inside has it. -/
lemma reads_levels_binary (op : BinaryOp) (hleft : Reads r ps left (op.mark.piece :: qs))
    (hright : Reads r qs right rs) (hclosing : Closing rs) :
    Reads (levels r) ps (.binary op left right) rs := by
  have hproducts := hclosing.bind_eq_none (f := multiplicativeOp?) rfl rfl
  have hsums := hclosing.bind_eq_none (f := additiveOp?) rfl rfl
  have hcomparisons := hclosing.bind_eq_none (f := comparisonOp?) rfl rfl
  have hequalities := hclosing.bind_eq_none (f := equalityOp?) rfl rfl
  cases op with
  | multiply | divide =>
    have h := reads_level_binary hleft (by rfl) hright hproducts
    exact reads_level (reads_level (reads_level h hsums) hcomparisons) hequalities
  | add | subtract =>
    have h := reads_level_binary (reads_level hleft (by rfl)) (by rfl)
      (reads_level hright hproducts) hsums
    exact reads_level (reads_level h hcomparisons) hequalities
  | less | lessEqual | greater | greaterEqual =>
    have h := reads_level_binary (reads_level (reads_level hleft (by rfl)) (by rfl)) (by rfl)
      (reads_level (reads_level hright hproducts) hsums) hcomparisons
    exact reads_level h hequalities
  | equal | notEqual =>
    exact reads_level_binary (reads_level (reads_level (reads_level hleft (by rfl)) (by rfl)) (by rfl))
      (by rfl) (reads_level (reads_level (reads_level hright hproducts) hsums) hcomparisons) hequalities

/-! ### Innermost expressions -/

lemma reads_grouping (h : Reads r ps e (Mark.rightParen.piece :: qs)) :
    Reads (grouping r) (Mark.leftParen.piece :: ps) e qs :=
  (Rule.reads_expect _ _).bind (h.bind ((Rule.reads_expect _ _).bind (.pure _ _)))

lemma reads_sampling (sampler : String) (h : Reads r ps e (Mark.rightParen.piece :: qs)) :
    Reads (sampling r) (Mark.leftParen.piece :: wordPiece sampler :: Mark.comma.piece :: ps)
      (.sample sampler e) qs := by
  refine (Rule.reads_expect _ _).bind ((Rule.reads_identifier _ _).bind ?_)
  exact (Rule.reads_expect _ _).bind (h.bind ((Rule.reads_expect _ _).bind (.pure _ _)))

end Expr

end Shading
