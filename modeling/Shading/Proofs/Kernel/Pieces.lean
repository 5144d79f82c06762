import Shading.Kernel.Lowering
import Shading.Proofs.Grammar.Reads

/-!
# The tokens of an expression in GLSL

What is written for an expression falls into tokens that follow the expression: a name, a number or a
string for an innermost one, marks for the operators, and parentheses around an operation inside
another.  Names and strings come from tokens, and numbers are written so that they are read back, so
that each of them is a token again.

* `Expr.pieces` — the tokens of an expression;
* `Token.Legible` — spelled as what it is, and finite;
* `Expr.Parsed.opens` — the first token of an expression begins no other;
* `Expr.Parsed.scansAs` — the text of an expression is read as its tokens.
-/

namespace Shading

open Lowering (Cause)

/-! ### Pieces -/

def Literal.kind : Literal → Token.Kind
  | number value _ => .number value
  | string text => .string text

namespace Expr

/-- The pieces of an operand, in parentheses when it is an operation between two values. -/
def enclose (e : Expr) (ps : List Piece) : List Piece :=
  if e.isBinary then Mark.leftParen.piece :: (ps ++ [Mark.rightParen.piece]) else ps

mutual

/-- The tokens of an expression in GLSL. -/
def pieces : Expr → List Piece
  | .constant value => [(value.kind, value.text)]
  | .symbol name => [wordPiece name]
  | .variadic values => piecesAll values
  | .parameter binding => [wordPiece binding.name]
  | .construct primitive value =>
    wordPiece (primitive.glsl?.getD "") :: Mark.leftParen.piece ::
      (value.pieces ++ [Mark.rightParen.piece])
  | .sample sampler value =>
    wordPiece "texture" :: Mark.leftParen.piece :: wordPiece sampler :: Mark.comma.piece ::
      (value.pieces ++ [Mark.rightParen.piece])
  | .binary op left right =>
    left.enclose left.pieces ++ op.mark.piece :: right.enclose right.pieces
  | .unary op value => op.mark.piece :: value.enclose value.pieces

/-- The tokens of arguments, with commas between them. -/
def piecesAll : List Expr → List Piece
  | [] => []
  | e :: es => e.pieces ++ if es.isEmpty then [] else Mark.comma.piece :: piecesAll es

end

/-- The pieces of an expression where it is an operand. -/
def operandPieces (e : Expr) : List Piece := e.enclose e.pieces

lemma pieces_ofArguments (es : List Expr) : (ofArguments es).pieces = piecesAll es := by
  unfold ofArguments
  split
  · simp [piecesAll]
  · simp [pieces]

end Expr

/-! ### The first token -/

/-- The kinds of tokens that an expression begins with. -/
def Token.Kind.opens : Token.Kind → Bool
  | .mark m => m = .leftParen || m = .minus || m = .bang
  | .number _ => true
  | .string _ => true
  | .identifier _ => true
  | .keyword _ => false
  | .comment _ => false

namespace Expr

variable {T : Token → Prop} {e : Expr}

/-- The pieces begin as an expression does. -/
def Opening (ps : List Piece) : Prop :=
  ∃ kind lexeme later, kind.opens = true ∧ ps = (kind, lexeme) :: later

lemma Opening.append {ps : List Piece} (h : Opening ps) (qs : List Piece) : Opening (ps ++ qs) := by
  obtain ⟨kind, lexeme, later, hopens, rfl⟩ := h
  exact ⟨kind, lexeme, later ++ qs, hopens, rfl⟩

lemma Opening.enclose {ps : List Piece} (h : Opening ps) (e : Expr) : Opening (e.enclose ps) := by
  unfold Expr.enclose
  split
  · exact ⟨_, _, _, rfl, rfl⟩
  · exact h

/-- **The first token of an expression.** -/
lemma Parsed.opens (h : e.Parsed T) : Opening e.pieces := by
  induction h with
  | number | string | symbol | construct | sample =>
    rw [pieces]
    refine ⟨_, _, _, ?_, rfl⟩
    rfl
  | @binary op left right _ _ ihl _ =>
    rw [pieces]
    exact (ihl.enclose left).append _
  | @unary op e _ _ =>
    rw [pieces]
    exact ⟨_, _, _, by cases op <;> rfl, rfl⟩

/-! ### The text as tokens -/

/-- The text is written for the expression, and it is read as the pieces of the expression. -/
structure ScansAs (e : Expr) (text : String) : Prop where
  written : e.glsl = .ok text
  scans : ∀ {rest : List Char} {ps : List Piece}, Delimited rest → Scans rest ps →
    Scans (text.toList ++ rest) (e.pieces ++ ps)

/-- An expression before a closing parenthesis. -/
lemma ScansAs.closed {text : String} {rest : List Char} {ps : List Piece} (h : e.ScansAs text)
    (hrest : Scans rest ps) :
    Scans (text.toList ++ ')' :: rest) (e.pieces ++ Mark.rightParen.piece :: ps) :=
  h.scans (.cons (by decide) rest) (Scans.tight rfl hrest)

lemma ScansAs.operand {text : String} {rest : List Char} {ps : List Piece} (h : e.ScansAs text)
    (hdelimited : Delimited rest) (hrest : Scans rest ps) :
    Scans ((e.asOperand text).toList ++ rest) (e.operandPieces ++ ps) := by
  unfold asOperand operandPieces enclose
  split
  · have hopen := Scans.tight (c := '(') rfl (h.closed hrest)
    simpa using hopen
  · exact h.scans hdelimited hrest

/-- Arguments, with commas between them. -/
lemma scans_arguments {es : List Expr} (h : ∀ e ∈ es, ∃ text, e.ScansAs text) :
    ∃ texts, glslAll es = .ok texts ∧ (texts = [] ↔ es = []) ∧
      ∀ {rest : List Char} {ps : List Piece}, Delimited rest → Scans rest ps →
        Scans ((String.intercalate ", " texts).toList ++ rest) (piecesAll es ++ ps) := by
  induction es with
  | nil => exact ⟨[], rfl, by simp, fun _ hrest => by simpa [piecesAll] using hrest⟩
  | cons e es ih =>
    obtain ⟨⟨text, htext⟩, hes⟩ := List.forall_mem_cons.1 h
    obtain ⟨texts, htexts, hempty, hscans⟩ := ih hes
    refine ⟨text :: texts, ?_, by simp, fun {rest ps} hdelimited hrest => ?_⟩
    · simp [glslAll, htext.written, htexts, bind, Except.bind, pure, Except.pure]
    · by_cases hlast : es = []
      · obtain rfl := hempty.2 hlast
        simpa [piecesAll, hlast] using htext.scans hdelimited hrest
      · have hlater := Scans.tight (c := ',') rfl (hscans hdelimited hrest).space
        have hfirst := htext.scans (.cons (by decide) _) hlater
        rw [String.intercalate_cons_of_ne_nil (mt hempty.1 hlast), piecesAll]
        simpa [hlast] using hfirst

/-- What comes from arguments. -/
lemma scansAs_ofArguments {es : List Expr} (h : ∀ e ∈ es, ∃ text, e.ScansAs text) :
    ∃ text, (ofArguments es).ScansAs text := by
  obtain ⟨texts, htexts, -, hscans⟩ := scans_arguments h
  by_cases hone : ∃ e, es = [e]
  · obtain ⟨e, rfl⟩ := hone
    exact h e (by simp)
  · have hvariadic : ofArguments es = .variadic es := by
      unfold ofArguments
      split
      · next e => exact absurd ⟨e, rfl⟩ hone
      · rfl
    refine ⟨String.intercalate ", " texts, ?_, fun hdelimited hrest => ?_⟩
    · simp [hvariadic, glsl, htexts, bind, Except.bind, pure, Except.pure]
    · rw [pieces_ofArguments]
      exact hscans hdelimited hrest

/-! ### Names -/

end Expr

/-- A name as it can stand in a text: a word that is not reserved. -/
def isName (name : String) : Bool :=
  name.toList.head?.any Text.isWordStart && name.toList.tail.all Text.isWordRest &&
    (Keyword.ofText? name).isNone

lemma spelled_of_isName {name : String} (h : isName name = true) :
    Spelled (.identifier name) name.toList := by
  simp only [isName, Bool.and_eq_true, Option.isNone_iff_eq_none] at h
  obtain ⟨⟨hhead, htail⟩, hfree⟩ := h
  cases hchars : name.toList with
  | nil => simp [hchars] at hhead
  | cons c cs =>
    have hname : String.ofList (c :: cs) = name := by rw [← hchars, String.ofList_toList]
    have hkind : wordKind (String.ofList (c :: cs)) = .identifier name := by
      rw [hname]
      simp [wordKind, hfree]
    rw [← hkind]
    refine .word (.inl (by simpa [hchars] using hhead)) ?_
    simpa [hchars] using htail

/-- **Every type has a name in GLSL.** -/
lemma Primitive.Named.exists_name {p : Primitive} (h : p.Named) :
    ∃ name, p.glsl? = some name ∧ isName name = true := by
  obtain ⟨word, precision, h⟩ := h
  obtain ⟨⟨kind, cardinality⟩, hshape, rfl⟩ := Option.map_eq_some_iff.1 h
  unfold shape? at hshape
  split at hshape <;> cases hshape <;> exact ⟨_, rfl, by decide +kernel⟩

/-! ### Expressions -/

/-- Spelled as what it is, and no number that is not finite. -/
structure Token.Legible (t : Token) : Prop where
  spelled : Spelled t.kind t.lexeme.toList
  finite : ∀ x, t.kind = .number x → x.isFinite = true

lemma Rule.Occurs.spelled_identifier {name : String} (h : Rule.Occurs Token.Legible (.identifier name)) :
    Spelled (.identifier name) name.toList := by
  obtain ⟨t, ht, hkind⟩ := h
  exact (hkind ▸ ht.spelled).identifier

namespace Expr

/-- **The text of an expression is read as its tokens.** -/
theorem Parsed.scansAs {e : Expr} (h : e.Parsed Token.Legible) : ∃ text, e.ScansAs text := by
  induction h with
  | @number t value ht hk =>
    refine ⟨_, rfl, fun hdelimited hrest => ?_⟩
    obtain ⟨fractional, hwritten⟩ := (hk ▸ ht.spelled).written
    rw [hwritten.contains_point]
    have hspelled := Spelled.number (Literal.written_text hwritten (ht.finite _ hk))
    exact .spelled hspelled (by simp [Literal.kind]) hdelimited hrest
  | @string text h =>
    refine ⟨_, rfl, fun hdelimited hrest => ?_⟩
    obtain ⟨t, ht, hkind⟩ := h
    obtain ⟨hquote, hline⟩ := (hkind ▸ ht.spelled).not_mem_string
    have hspelled : Spelled (.string text) (Literal.string text).text.toList := by
      simpa [Literal.text] using Spelled.string hquote hline
    exact .spelled hspelled (by simp [Literal.kind]) hdelimited hrest
  | symbol h _ =>
    exact ⟨_, rfl, fun hdelimited hrest => .spelled h.spelled_identifier (by simp) hdelimited hrest⟩
  | @construct p arguments hp _ ih =>
    obtain ⟨name, hname, hisName⟩ := hp.exists_name
    obtain ⟨text, htext⟩ := scansAs_ofArguments ih
    have hglsl : p.glsl = .ok name := by simp [Primitive.glsl, hname]
    refine ⟨name ++ "(" ++ text ++ ")", ?_, fun hdelimited hrest => ?_⟩
    · simp [glsl, hglsl, htext.written, bind, Except.bind, pure, Except.pure]
    · have hopen := Scans.tight (c := '(') rfl (htext.closed hrest)
      have hscans := Scans.spelled (spelled_of_isName hisName) (by simp) (.cons (by decide) _) hopen
      simpa [pieces, hname, wordPiece] using hscans
  | @sample sampler e h _ ih =>
    obtain ⟨text, htext⟩ := ih
    refine ⟨"texture(" ++ sampler ++ ", " ++ text ++ ")", ?_, fun hdelimited hrest => ?_⟩
    · simp [glsl, htext.written, bind, Except.bind, pure, Except.pure]
    · have hcomma := Scans.tight (c := ',') rfl (htext.closed hrest).space
      have hsampler := Scans.spelled h.spelled_identifier (by simp) (.cons (by decide) _) hcomma
      have hopen := Scans.tight (c := '(') rfl hsampler
      have htexture : isName "texture" = true := by decide +kernel
      have hscans := Scans.spelled (spelled_of_isName htexture) (by simp) (.cons (by decide) _) hopen
      simpa [pieces, wordPiece] using hscans
  | @binary op left right _ _ ihl ihr =>
    obtain ⟨l, hl⟩ := ihl
    obtain ⟨r, hr⟩ := ihr
    refine ⟨left.asOperand l ++ " " ++ op.text ++ " " ++ right.asOperand r, ?_,
      fun hdelimited hrest => ?_⟩
    · simp [glsl, hl.written, hr.written, bind, Except.bind, pure, Except.pure]
    · have hright := (hr.operand hdelimited hrest).space
      have hop := (Scans.mark op.mark (.cons (by decide) _) hright).space
      have hscans := hl.operand (.cons (by decide) _) hop
      simpa [pieces, operandPieces, BinaryOp.text_mark] using hscans
  | @unary op e he ih =>
    obtain ⟨text, htext⟩ := ih
    refine ⟨op.text ++ e.asOperand text, ?_, fun {rest ps} hdelimited hrest => ?_⟩
    · simp [glsl, htext.written, bind, Except.bind, pure, Except.pure]
    · have hoperand := htext.operand hdelimited hrest
      cases op with
      | negate =>
        have hscans := Scans.tight (c := '-') rfl hoperand
        simpa [pieces, operandPieces, UnaryOp.text, UnaryOp.mark] using hscans
      | not =>
        -- an operand does not begin with an equals sign
        have hhead : ((e.asOperand text).toList ++ rest).head? ≠ some '=' := by
          intro hequal
          obtain ⟨later, hlater⟩ := List.head?_eq_some_iff.1 hequal
          obtain ⟨kind, lexeme, qs, hopens, hpieces⟩ := (he.opens.enclose e).append ps
          rw [hlater, operandPieces, hpieces] at hoperand
          rcases hoperand.head_of_equal with hkind | hkind <;> cases hkind <;> cases hopens
        simpa [pieces, operandPieces, UnaryOp.text, UnaryOp.mark] using Scans.bang hhead hoperand

end Expr

end Shading
