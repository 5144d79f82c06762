import Shading.Proofs.Kernel.Pieces
import Shading.Proofs.Results

/-!
# Lowering keeps the grouping of expressions

What is written for an expression in GLSL is read back as the expression, with the same levels of
operators that the shading language has.  A name before a parenthesis is the function that samples or
the name of a type, and every other name is a symbol.  The precision of a constructor is not written,
so that it is all that is lost.

* `Expr.erase` — an expression without the precision of its constructors;
* `Glsl.read` — the expression that tokens are, with some levels;
* `Expr.Parsed.readsBack` — the tokens of an expression are read back;
* `Expr.grouping_kept` — so is its text, which two expressions share only if they differ in precision.
-/

namespace Shading

open Grammar

/-! ### Without precision -/

namespace Primitive

/-- The type without its precision. -/
def erase (p : Primitive) : Primitive := { p with precision := none }

lemma glsl?_erase (p : Primitive) : p.erase.glsl? = p.glsl? := rfl

/-- The types without a precision. -/
def plain : List Primitive :=
  ⟨.void, none, none⟩ ::
    ([Kind.bool, .int, .uint, .float].flatMap fun kind =>
      [none, some 2, some 3, some 4].map fun n => ⟨kind, n, none⟩) ++
    [2, 3, 4].map (fun n => ⟨.matrix, some n, none⟩) ++ [1, 2, 3].map (fun n => ⟨.sampler, some n, none⟩)

/-- The type that GLSL calls by a name. -/
def ofGlsl? (name : String) : Option Primitive := plain.find? fun p => p.glsl? == some name

lemma Named.erase_mem_plain {p : Primitive} (h : p.Named) : p.erase ∈ plain := by
  obtain ⟨word, precision, h⟩ := h
  obtain ⟨⟨kind, cardinality⟩, hshape, rfl⟩ := Option.map_eq_some_iff.1 h
  unfold erase
  dsimp only
  unfold shape? at hshape
  split at hshape <;> cases hshape <;> decide

/-- **Types are told apart by their names**, and none is called as the function that samples. -/
lemma ofGlsl?_of_mem_plain :
    ∀ p ∈ plain, p.glsl?.bind ofGlsl? = some p ∧ p.glsl? ≠ some "texture" := by decide +kernel

lemma Named.ofGlsl?_eq {p : Primitive} {name : String} (h : p.Named) (hname : p.glsl? = some name) :
    ofGlsl? name = some p.erase ∧ name ≠ "texture" := by
  obtain ⟨hread, hother⟩ := ofGlsl?_of_mem_plain p.erase h.erase_mem_plain
  rw [glsl?_erase, hname] at hread hother
  exact ⟨hread, fun heq => hother (congrArg some heq)⟩

end Primitive

namespace Expr

mutual

/-- An expression without the precision of its constructors. -/
def erase : Expr → Expr
  | .constant value => .constant value
  | .symbol name => .symbol name
  | .variadic values => .variadic (eraseAll values)
  | .parameter binding => .parameter binding
  | .construct primitive value => .construct primitive.erase value.erase
  | .sample sampler value => .sample sampler value.erase
  | .binary op left right => .binary op left.erase right.erase
  | .unary op value => .unary op value.erase

def eraseAll : List Expr → List Expr
  | [] => []
  | e :: es => e.erase :: eraseAll es

end

lemma eraseAll_eq_map (es : List Expr) : eraseAll es = es.map erase := by
  induction es with
  | nil => rfl
  | cons e es ih => rw [eraseAll, ih, List.map_cons]

lemma erase_ofArguments (es : List Expr) : (ofArguments es).erase = ofArguments (es.map erase) := by
  match es with
  | [] => rfl
  | [e] => rfl
  | e :: e' :: es => simp [ofArguments, erase, eraseAll_eq_map]

mutual

/-- The numbers in an expression. -/
def numbers : Expr → List Double
  | .constant (.number value _) => [value]
  | .constant (.string _) => []
  | .symbol _ => []
  | .variadic values => numbersAll values
  | .parameter _ => []
  | .construct _ value => value.numbers
  | .sample _ value => value.numbers
  | .binary _ left right => left.numbers ++ right.numbers
  | .unary _ value => value.numbers

def numbersAll : List Expr → List Double
  | [] => []
  | e :: es => e.numbers ++ numbersAll es

end

/-- All numbers in the expression are finite. -/
def Finite (e : Expr) : Prop := ∀ x ∈ e.numbers, x.isFinite = true

lemma numbers_ofArguments (es : List Expr) : (ofArguments es).numbers = numbersAll es := by
  match es with
  | [] => rfl
  | [e] => simp [ofArguments, numbersAll]
  | e :: e' :: es => rfl

lemma numbers_subset_numbersAll {e : Expr} {es : List Expr} (h : e ∈ es) :
    e.numbers ⊆ numbersAll es := by
  induction es with
  | nil => cases h
  | cons e' es ih =>
    rw [numbersAll]
    rcases List.mem_cons.1 h with rfl | h
    · exact List.subset_append_left _ _
    · exact List.Subset.trans (ih h) (List.subset_append_right _ _)

end Expr

/-! ### Reading GLSL -/

namespace Glsl

/-- A name with arguments: the function that samples, or a type. -/
def call (name : String) (expression : Rule Expr) : Rule Expr :=
  if name = "texture" then Expr.sampling expression
  else do
    let some primitive := Primitive.ofGlsl? name | Rule.stop (.unknownPrimitive name)
    let arguments ← Rule.parenthesised expression
    return .construct primitive (Expr.ofArguments arguments)

/-- An innermost expression.  A name is a call if a parenthesis follows it. -/
def primary (expression : Rule Expr) : Rule Expr := do
  let some token ← Rule.peekToken | Rule.stop (.expectedExpression none)
  match token.kind with
  | .mark .leftParen => Expr.grouping expression
  | .identifier name =>
    Rule.advance
    if (← Rule.peek) = some (.mark .leftParen) then call name expression else return .symbol name
  | .number value =>
    Rule.advance
    return .constant (.number value (token.lexeme.toList.contains '.'))
  | .string text => Rule.advance; return .constant (.string text)
  | found => Rule.advance; Rule.stop (.expectedExpression (some found))

/-- An operator before one value and its operand, or an innermost expression. -/
def prefixed (inner : Expr.Inner) : Rule Expr := do
  match (← Rule.peek).bind Expr.unaryOp? with
  | some op =>
    Rule.advance
    let value ← inner.operand
    return .unary op value
  | none => primary inner.expression

/-- The rules with `n` levels left. -/
def ofDepth : Nat → Expr.Inner
  | 0 => ⟨Rule.stop .tooDeep, Rule.stop .tooDeep⟩
  | n + 1 => ⟨Expr.levels (prefixed (ofDepth n)), prefixed (ofDepth n)⟩

/-- The expression that tokens are as a whole, with `n` levels. -/
def read (n : Nat) (tokens : List Token) : Option Expr :=
  ((ofDepth n).expression (Cursor.start tokens)).toOption.bind fun (e, c) =>
    if c.rest.isEmpty then some e else none

/-! ### What is read from given tokens -/

variable {r : Rule Expr} {inner : Expr.Inner} {e : Expr} {ps qs : List Piece}

open Rule (Reads)

lemma reads_group (h : Reads r ps e (Mark.rightParen.piece :: qs)) :
    Reads (primary r) (Mark.leftParen.piece :: ps) e qs := by
  refine Rule.reads_peekToken_bind fun t hkind _ => ?_
  dsimp only
  rw [hkind]
  exact Expr.reads_grouping h

lemma reads_number (x : Double) (lexeme : String) (ps : List Piece) :
    Reads (primary r) ((.number x, lexeme) :: ps)
      (.constant (.number x (lexeme.toList.contains '.'))) ps := by
  refine Rule.reads_peekToken_bind fun t hkind hlexeme => ?_
  dsimp only
  rw [hkind, hlexeme]
  exact (Rule.reads_advance _ _).bind (.pure _ _)

lemma reads_string (text lexeme : String) (ps : List Piece) :
    Reads (primary r) ((.string text, lexeme) :: ps) (.constant (.string text)) ps := by
  refine Rule.reads_peekToken_bind fun t hkind _ => ?_
  dsimp only
  rw [hkind]
  exact (Rule.reads_advance _ _).bind (.pure _ _)

/-- A name that no parenthesis follows. -/
lemma reads_symbol (name : String) (hnext : nextKind ps ≠ some (.mark .leftParen)) :
    Reads (primary r) (wordPiece name :: ps) (.symbol name) ps := by
  refine Rule.reads_peekToken_bind fun t hkind _ => ?_
  dsimp only
  rw [hkind]
  refine (Rule.reads_advance _ _).bind ((Rule.reads_peek _).bind ?_)
  rw [if_neg hnext]
  exact .pure _ _

/-- A name that a parenthesis follows. -/
lemma reads_name (name : String) (h : Reads (call name r) (Mark.leftParen.piece :: ps) e qs) :
    Reads (primary r) (wordPiece name :: Mark.leftParen.piece :: ps) e qs := by
  refine Rule.reads_peekToken_bind fun t hkind _ => ?_
  dsimp only
  rw [hkind]
  refine (Rule.reads_advance _ _).bind ((Rule.reads_peek _).bind ?_)
  rw [if_pos (by rfl)]
  exact h

lemma reads_unary (op : UnaryOp) (h : Reads inner.operand ps e qs) :
    Reads (prefixed inner) (op.mark.piece :: ps) (.unary op e) qs := by
  refine (Rule.reads_peek _).bind ?_
  have hop : (nextKind (op.mark.piece :: ps)).bind Expr.unaryOp? = some op := by cases op <;> rfl
  rw [hop]
  exact (Rule.reads_advance _ _).bind (h.bind (.pure _ _))

lemma reads_innermost (hnext : (nextKind ps).bind Expr.unaryOp? = none)
    (h : Reads (primary inner.expression) ps e qs) : Reads (prefixed inner) ps e qs := by
  refine (Rule.reads_peek _).bind ?_
  rw [hnext]
  exact h

lemma reads_texture (sampler : String) (h : Reads r ps e (Mark.rightParen.piece :: qs)) :
    Reads (call "texture" r) (Mark.leftParen.piece :: wordPiece sampler :: Mark.comma.piece :: ps)
      (.sample sampler e) qs := by
  unfold call
  rw [if_pos rfl]
  exact Expr.reads_sampling sampler h

lemma reads_construction {name : String} {p : Primitive} {es : List Expr} (hother : name ≠ "texture")
    (hname : Primitive.ofGlsl? name = some p) (h : Reads (Rule.parenthesised r) ps es qs) :
    Reads (call name r) ps (.construct p (Expr.ofArguments es)) qs := by
  unfold call
  rw [if_neg hother, hname]
  exact h.bind (.pure _ _)

end Glsl

/-! ### Expressions -/

namespace Expr

open Rule (Reads)

variable {e : Expr} {n : Nat} {ps : List Piece}

/-- With as many levels as there are pieces, the rule reads the expression from them, where what comes
behind has `allowed`. -/
def ReadFrom (rule : Nat → Rule Expr) (allowed : List Piece → Prop) (read : List Piece) (e : Expr) : Prop :=
  ∀ (n : Nat) (ps : List Piece), read.length ≤ n → allowed ps → Reads (rule n) (read ++ ps) e ps

/-- What comes behind makes no call of a name. -/
def Uncalled (ps : List Piece) : Prop := nextKind ps ≠ some (.mark .leftParen)

/-- The expression is read back from its tokens, as an operand and as a whole. -/
structure ReadsBack (e : Expr) : Prop where
  operand : ReadFrom (fun n => (Glsl.ofDepth n).operand) Uncalled e.operandPieces e.erase
  whole : ReadFrom (fun n => (Glsl.ofDepth n).expression) Closing e.pieces e.erase

lemma Closing.uncalled (h : Closing ps) : Uncalled ps := by
  intro hnext
  rcases h _ hnext with heq | heq <;> cases heq

lemma closing_cons {m : Mark} (h : m = .rightParen ∨ m = .comma) (ps : List Piece) :
    Closing (m.piece :: ps) := by
  intro kind hkind
  obtain rfl : Token.Kind.mark m = kind := Option.some.inj hkind
  exact h.imp (congrArg _) (congrArg _)

lemma Opening.pos (h : Opening ps) : 0 < ps.length := by
  obtain ⟨kind, lexeme, later, -, rfl⟩ := h
  exact Nat.succ_pos _

/-- What is no operation between two values stands by itself, as an operand or as a whole. -/
lemma ReadsBack.of_operand (hbinary : e.isBinary = false) (hopen : Opening e.pieces)
    (h : ReadFrom (fun n => (Glsl.ofDepth n).operand) Uncalled e.pieces e.erase) : e.ReadsBack := by
  have hpieces : e.operandPieces = e.pieces := by simp [operandPieces, enclose, hbinary]
  refine ⟨by rwa [hpieces], fun n ps hlength hclosing => ?_⟩
  obtain ⟨m, rfl⟩ : ∃ m, n = m + 1 := ⟨n - 1, by have := hopen.pos; omega⟩
  exact reads_levels (h _ _ hlength hclosing.uncalled) hclosing

/-- An operation between two values stands in parentheses where it is an operand. -/
lemma ReadsBack.of_whole (hbinary : e.isBinary = true)
    (h : ReadFrom (fun n => (Glsl.ofDepth n).expression) Closing e.pieces e.erase) : e.ReadsBack := by
  have hpieces : e.operandPieces = Mark.leftParen.piece :: (e.pieces ++ [Mark.rightParen.piece]) := by
    simp [operandPieces, enclose, hbinary]
  refine ⟨fun n ps hlength _ => ?_, h⟩
  rw [hpieces] at hlength ⊢
  simp only [List.length_cons, List.length_append, List.length_nil] at hlength
  obtain ⟨m, rfl⟩ : ∃ m, n = m + 1 := ⟨n - 1, by omega⟩
  have hinside := h m _ (by omega) (closing_cons (.inl rfl) ps)
  rw [List.cons_append, List.append_assoc]
  exact Glsl.reads_innermost (by rfl) (Glsl.reads_group hinside)

/-- An innermost expression goes one level further inside. -/
lemma ReadsBack.of_primary (hbinary : e.isBinary = false) (hopen : Opening e.pieces)
    (hfirst : (nextKind e.pieces).bind unaryOp? = none)
    (h : ∀ (n : Nat) (ps : List Piece), e.pieces.length ≤ n + 1 → Uncalled ps →
      Reads (Glsl.primary (Glsl.ofDepth n).expression) (e.pieces ++ ps) e.erase ps) : e.ReadsBack := by
  refine .of_operand hbinary hopen fun n ps hlength hnext => ?_
  obtain ⟨m, rfl⟩ : ∃ m, n = m + 1 := ⟨n - 1, by have := hopen.pos; omega⟩
  refine Glsl.reads_innermost ?_ (h m ps hlength hnext)
  obtain ⟨kind, lexeme, later, -, hpieces⟩ := hopen
  rw [hpieces] at hfirst ⊢
  exact hfirst

lemma length_le_piecesAll {es : List Expr} (h : ∀ e ∈ es, Opening e.pieces) :
    es.length ≤ (piecesAll es).length := by
  induction es with
  | nil => simp
  | cons e es ih =>
    obtain ⟨he, hes⟩ := List.forall_mem_cons.1 h
    have hpos := he.pos
    have hlater := ih hes
    rw [piecesAll, List.length_append, List.length_cons]
    by_cases hlast : es = []
    · simp only [hlast, List.length_nil]
      omega
    · simp only [List.isEmpty_iff, hlast, if_false, List.length_cons]
      omega

/-- **Arguments are read back one by one.** -/
lemma reads_arguments {es : List Expr} (h : ∀ e ∈ es, e.ReadsBack) (hopen : ∀ e ∈ es, Opening e.pieces)
    (hlength : (piecesAll es).length ≤ n) (ps : List Piece) {m : Nat} (hm : es.length ≤ m) :
    Reads (Rule.commaSeparated (Glsl.ofDepth n).expression m)
      (piecesAll es ++ Mark.rightParen.piece :: ps) (es.map erase) (Mark.rightParen.piece :: ps) := by
  induction es generalizing m with
  | nil =>
    cases m with
    | zero => exact .pure _ _
    | succ m =>
      refine (Rule.reads_peek _).bind ?_
      rw [if_pos (by rfl)]
      exact .pure _ _
  | cons e es ih =>
    obtain ⟨he, hes⟩ := List.forall_mem_cons.1 h
    obtain ⟨hfirst, hopen⟩ := List.forall_mem_cons.1 hopen
    obtain ⟨m, rfl⟩ : ∃ k, m = k + 1 := ⟨m - 1, by simp at hm; omega⟩
    rw [piecesAll, List.length_append] at hlength
    rw [piecesAll, List.append_assoc, List.map_cons]
    have hnext : nextKind (e.pieces ++ ((if es.isEmpty then [] else Mark.comma.piece :: piecesAll es) ++
        Mark.rightParen.piece :: ps)) ≠ some (.mark .rightParen) := by
      obtain ⟨kind, lexeme, later, hopens, hpieces⟩ := hfirst
      rw [hpieces]
      intro hkind
      obtain rfl : kind = .mark .rightParen := Option.some.inj hkind
      cases hopens
    refine (Rule.reads_peek _).bind ?_
    rw [if_neg hnext]
    by_cases hlast : es = []
    · subst hlast
      refine (he.whole n _ (by omega) (closing_cons (.inl rfl) ps)).bind ((Rule.reads_peek _).bind ?_)
      rw [if_neg (by rintro ⟨⟩)]
      exact .pure _ _
    · have hempty : es.isEmpty = false := by simpa using hlast
      rw [hempty] at hlength ⊢
      simp only [Bool.false_eq_true, if_false, List.length_cons, List.cons_append] at hlength ⊢
      have hlater := ih hes hopen (by omega) (m := m) (by simpa using hm)
      refine (he.whole n _ (by omega) (closing_cons (.inr rfl) _)).bind ((Rule.reads_peek _).bind ?_)
      rw [if_pos (by rfl)]
      exact (Rule.reads_advance _ _).bind (hlater.bind (.pure _ _))

/-- **The tokens of an expression are read back as it.** -/
theorem Parsed.readsBack (h : e.Parsed Token.Legible) : e.ReadsBack := by
  have hopen := h.opens
  induction h with
  | @number t x ht hk =>
    obtain ⟨fractional, hwritten⟩ := (hk ▸ ht.spelled).written
    rw [hwritten.contains_point] at hopen ⊢
    refine .of_primary rfl hopen rfl fun n ps _ _ => ?_
    have hread := Glsl.reads_number x (Literal.number x fractional).text ps
      (r := (Glsl.ofDepth n).expression)
    rwa [(Literal.written_text hwritten (ht.finite _ hk)).contains_point] at hread
  | @string text h => exact .of_primary rfl hopen rfl fun _ _ _ _ => Glsl.reads_string _ _ _
  | @symbol name h hn => exact .of_primary rfl hopen rfl fun _ _ _ hnext => Glsl.reads_symbol _ hnext
  | @construct p arguments hp hparsed ih =>
    have harguments : ∀ e ∈ arguments, e.ReadsBack := fun e he => ih e he (hparsed e he).opens
    have hopens : ∀ e ∈ arguments, Opening e.pieces := fun e he => (hparsed e he).opens
    obtain ⟨name, hname, -⟩ := hp.exists_name
    obtain ⟨hread, hother⟩ := hp.ofGlsl?_eq hname
    refine .of_primary rfl hopen rfl fun n ps hlength _ => ?_
    have hpieces : (Expr.construct p (ofArguments arguments)).pieces =
        wordPiece name :: Mark.leftParen.piece :: (piecesAll arguments ++ [Mark.rightParen.piece]) := by
      rw [pieces, hname, pieces_ofArguments]
      rfl
    rw [hpieces] at hlength ⊢
    simp only [List.length_cons, List.length_append, List.length_nil] at hlength
    -- each argument has a token, so that the tokens left are enough to count the arguments
    have hmany := length_le_piecesAll hopens
    have hinside := reads_arguments harguments hopens (n := n) (by omega) ps
      (m := (piecesAll arguments ++ Mark.rightParen.piece :: ps).length + 1) (by simp; omega)
    have hcall := Glsl.reads_construction hother hread (Rule.reads_parenthesised hinside)
    rw [erase, erase_ofArguments]
    simpa using Glsl.reads_name name hcall
  | @sample sampler e h he ih =>
    have hvalue := ih he.opens
    refine .of_primary rfl hopen rfl fun n ps hlength _ => ?_
    rw [pieces] at hlength ⊢
    simp only [List.length_cons, List.length_append, List.length_nil] at hlength
    have hinside := hvalue.whole n _ (by omega) (closing_cons (.inl rfl) ps)
    rw [erase]
    simpa using Glsl.reads_name "texture" (Glsl.reads_texture sampler hinside)
  | @binary op left right hl hr ihl ihr =>
    have hleft := ihl hl.opens
    have hright := ihr hr.opens
    refine .of_whole rfl fun n ps hlength hclosing => ?_
    have hpieces : (Expr.binary op left right).pieces =
        left.operandPieces ++ op.mark.piece :: right.operandPieces := by rw [pieces]; rfl
    rw [hpieces] at hlength ⊢
    simp only [List.length_cons, List.length_append] at hlength
    obtain ⟨m, rfl⟩ : ∃ m, n = m + 1 := ⟨n - 1, by omega⟩
    rw [erase, List.append_assoc, List.cons_append]
    have hmark : Uncalled (op.mark.piece :: (right.operandPieces ++ ps)) := by cases op <;> rintro ⟨⟩
    have hreadLeft := hleft.operand (m + 1) _ (by omega) hmark
    have hreadRight := hright.operand (m + 1) _ (by omega) hclosing.uncalled
    exact reads_levels_binary op hreadLeft hreadRight hclosing
  | @unary op e he ih =>
    have hvalue := ih he.opens
    refine .of_operand rfl hopen fun n ps hlength hnext => ?_
    have hpieces : (Expr.unary op e).pieces = op.mark.piece :: e.operandPieces := by rw [pieces]; rfl
    rw [hpieces] at hlength ⊢
    rw [List.length_cons] at hlength
    obtain ⟨m, rfl⟩ : ∃ m, n = m + 1 := ⟨n - 1, by omega⟩
    rw [erase]
    exact Glsl.reads_unary op (hvalue.operand m _ (by omega) hnext)

/-! ### Whole texts -/

/-- Spelled tokens are legible in an expression whose numbers are finite. -/
lemma Parsed.legible (h : e.Parsed fun t => Spelled t.kind t.lexeme.toList)
    (hfinite : e.Finite) : e.Parsed Token.Legible := by
  have hoccurs : ∀ {kind : Token.Kind}, (∀ x, kind ≠ .number x) →
      Rule.Occurs (fun t => Spelled t.kind t.lexeme.toList) kind → Rule.Occurs Token.Legible kind := by
    rintro kind hkind ⟨t, ht, rfl⟩
    exact ⟨t, ⟨ht, fun x hx => absurd hx (hkind x)⟩, rfl⟩
  induction h with
  | @number t x ht hk =>
    refine .number ⟨ht, fun y hy => ?_⟩ hk
    obtain rfl : x = y := Token.Kind.number.inj (hk.symm.trans hy)
    exact hfinite x (by simp [numbers])
  | string h => exact .string (hoccurs (by simp) h)
  | symbol h hn => exact .symbol (hoccurs (by simp) h) hn
  | @construct p arguments hp _ ih =>
    rw [Finite, numbers, numbers_ofArguments] at hfinite
    refine .construct hp fun e he => ih e he fun x hx => hfinite x ?_
    exact numbers_subset_numbersAll he hx
  | sample h _ ih =>
    rw [Finite, numbers] at hfinite
    exact .sample (hoccurs (by simp) h) (ih hfinite)
  | binary _ _ ihl ihr =>
    rw [Finite, numbers] at hfinite
    obtain ⟨hl, hr⟩ := List.forall_mem_append.1 hfinite
    exact .binary (ihl hl) (ihr hr)
  | unary _ ih =>
    rw [Finite, numbers] at hfinite
    exact .unary (ih hfinite)

end Expr

/-- The text is read as the expression as a whole, with as many levels as it has tokens and with more. -/
def Glsl.ReadsAs (text : String) (e : Expr) : Prop :=
  ∃ tokens, tokenize text = .ok tokens ∧ ∀ n, tokens.length ≤ n → Glsl.read n tokens = some e

/-- The expression is read from tokens of a source, with any number of levels left. -/
def Expr.OfSource (e : Expr) : Prop :=
  ∃ (source : String) (tokens : List Token) (n : Nat) (c c' : Cursor), tokenize source = .ok tokens ∧
    c.rest ⊆ tokens ∧ (Expr.Inner.ofDepth n).expression c = .ok (e, c')

lemma Glsl.ReadsAs.unique {text : String} {e e' : Expr} (h : Glsl.ReadsAs text e)
    (h' : Glsl.ReadsAs text e') : e = e' := by
  obtain ⟨tokens, htokens, hread⟩ := h
  obtain ⟨tokens', htokens', hread'⟩ := h'
  obtain rfl : tokens = tokens' := Except.ok.inj (htokens.symm.trans htokens')
  exact Option.some.inj ((hread _ le_rfl).symm.trans (hread' _ le_rfl))

namespace Expr

variable {e : Expr}

lemma Parsed.readsAs (h : e.Parsed Token.Legible) :
    ∃ text, e.glsl = .ok text ∧ Glsl.ReadsAs text e.erase := by
  obtain ⟨text, htext⟩ := h.scansAs
  have hdelimited : Delimited [] := by simp [Delimited]
  have hclosing : Closing [] := by simp [Closing, nextKind]
  have hscans : Scans text.toList e.pieces := by simpa using htext.scans hdelimited Scans.nil
  obtain ⟨tokens, htokens, hpieces⟩ := hscans.tokenize
  refine ⟨text, htext.written, tokens, htokens, fun n hn => ?_⟩
  have hlength : e.pieces.length ≤ n := by rwa [← hpieces, List.length_map]
  have hwhole := h.readsBack.whole n _ hlength hclosing
  rw [List.append_nil] at hwhole
  obtain ⟨c, hread, hshows⟩ := hwhole (Cursor.start tokens) hpieces
  have hrest : c.rest = [] := List.map_eq_nil_iff.1 hshows
  simp [Glsl.read, hread, hrest, Except.toOption]

lemma OfSource.spelled (h : e.OfSource) : e.Parsed fun t => Spelled t.kind t.lexeme.toList := by
  obtain ⟨source, tokens, n, c, c', htokens, hrest, hread⟩ := h
  have hspelled := Token.spelled_of_tokenize htokens
  exact ((gives_ofDepth n).1 c e c' (fun t ht => hspelled t (hrest ht)) hread).1

lemma OfSource.parsed (h : e.OfSource) (hfinite : e.Finite) : e.Parsed Token.Legible :=
  h.spelled.legible hfinite

/-- **Lowering keeps the grouping of every expression.**  What is written for an expression is read back
as the expression without the precision of its constructors, so that two expressions with the same text
differ in nothing else. -/
theorem grouping_kept (h : e.OfSource) (hfinite : e.Finite) :
    (∃ text, e.glsl = .ok text ∧ Glsl.ReadsAs text e.erase) ∧
      ∀ e' : Expr, e'.OfSource → e'.Finite → e'.glsl = e.glsl → e'.erase = e.erase := by
  obtain ⟨text, htext, hread⟩ := (h.parsed hfinite).readsAs
  refine ⟨⟨text, htext, hread⟩, fun e' h' hfinite' hsame => ?_⟩
  obtain ⟨text', htext', hread'⟩ := (h'.parsed hfinite').readsAs
  obtain rfl : text' = text := Except.ok.inj (htext'.symm.trans (hsame.trans htext))
  exact hread'.unique hread

/-- A vector whose precision is not written, of a difference inside another and a sampled value. -/
theorem grouping_kept_vector :
    let source := "lowp float2(a - (b - c) * 0.10, !SAMPLE(t, -u))"
    let text := "vec2(a - ((b - c) * 0.1), !texture(t, -u))"
    ∃ tokens e c, tokenize source = .ok tokens ∧ Expr.rule (Cursor.start tokens) = .ok (e, c) ∧
      e.Finite ∧ e.glsl = .ok text ∧ Glsl.ReadsAs text e.erase ∧
      ∀ e' : Expr, e'.OfSource → e'.Finite → e'.glsl = .ok text → e'.erase = e.erase := by
  intro source text
  have hok : (tokenize source).toOption.any (fun tokens =>
      (Expr.rule (Cursor.start tokens)).toOption.any fun read =>
        read.1.glsl.toOption == some text && read.1.numbers.all Double.isFinite) = true := by
    decide +kernel
  obtain ⟨tokens, htokens, hok⟩ := (Option.any_eq_true _ _).1 hok
  obtain ⟨⟨e, c⟩, hread, hok⟩ := (Option.any_eq_true _ _).1 hok
  obtain ⟨hglsl, hfinite⟩ := Bool.and_eq_true_iff.1 hok
  have htokens := eq_ok_of_toOption htokens
  have hread := eq_ok_of_toOption hread
  have hglsl : e.glsl = .ok text := eq_ok_of_toOption (beq_iff_eq.1 hglsl)
  have hsource : e.OfSource := ⟨source, tokens, maxDepth, _, c, htokens, List.Subset.refl _, hread⟩
  have hfinite : e.Finite := List.all_eq_true.1 hfinite
  obtain ⟨⟨text', htext', hreads⟩, hsame⟩ := grouping_kept hsource hfinite
  obtain rfl : text' = text := Except.ok.inj (htext'.symm.trans hglsl)
  refine ⟨tokens, e, c, htokens, hread, hfinite, hglsl, hreads, fun e' h' hfinite' htext => ?_⟩
  exact hsame e' h' hfinite' (htext.trans hglsl.symm)

end Expr

end Shading
