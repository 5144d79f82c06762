import Shading.Proofs.Kernel.Grouping

/-!
# Negations in GLSL

GLSL takes two minus signs that stand side by side for one operator, which counts down.  In what is
written for an expression two of them meet in one way only: a negation is written right before a
negation.  The signs of sums stand between blanks, what is between parentheses or commas begins behind
one of them or behind a blank, and no name and no number has a sign.

* `Text.unquoted` — a text without what stands in its strings;
* `Text.Leaves` — a text that closes its strings, and what is left of it;
* `Expr.negatesTwice` — a negation is negated, at whatever depth;
* `Expr.Parsed.exists_lowers` — what is written for each form of expression;
* `Expr.decrements_iff_negatesTwice` — where minus signs meet.
-/

namespace Shading

/-! ### Texts -/

namespace Text

/-- The text without what stands between quotes, which stay themselves.  The text begins inside a
string if `quoted` says so. -/
def unquoted (quoted : Bool) : List Char → List Char
  | [] => []
  | c :: cs =>
    if c = '"' then c :: unquoted (!quoted) cs
    else if quoted then unquoted quoted cs
    else c :: unquoted quoted cs

/-- The text closes all of its strings, and `out` is left of it without them. -/
def Leaves (text out : List Char) : Prop :=
  ∀ rest, unquoted false (text ++ rest) = out ++ unquoted false rest

/-- Two minus signs stand side by side. -/
def Decrements (cs : List Char) : Prop := ['-', '-'] <:+: cs

instance (cs : List Char) : Decidable (Decrements cs) := inferInstanceAs (Decidable (_ <:+: _))

variable {c : Char} {cs xs ys text text' out out' : List Char}

lemma Leaves.unquoted_eq (h : Leaves text out) : unquoted false text = out := by
  simpa [unquoted] using h []

lemma Leaves.append (h : Leaves text out) (h' : Leaves text' out') :
    Leaves (text ++ text') (out ++ out') := by
  intro rest
  rw [List.append_assoc, h, h', List.append_assoc]

/-- A text without quotes is left as it is. -/
lemma leaves_of_no_quote (h : '"' ∉ cs) : Leaves cs cs := by
  intro rest
  induction cs with
  | nil => rfl
  | cons c cs ih =>
    obtain ⟨hc, hcs⟩ := not_or.1 (mt List.mem_cons.2 h)
    simp [unquoted, Ne.symm hc, ih hcs]

/-- Of a string its quotes are left. -/
lemma leaves_string (h : '"' ∉ cs) : Leaves ('"' :: (cs ++ ['"'])) ['"', '"'] := by
  have inside : ∀ rest, unquoted true (cs ++ '"' :: rest) = '"' :: unquoted false rest := by
    intro rest
    induction cs with
    | nil => simp [unquoted]
    | cons c cs ih =>
      obtain ⟨hc, hcs⟩ := not_or.1 (mt List.mem_cons.2 h)
      simp [unquoted, Ne.symm hc, ih hcs]
  intro rest
  simp [unquoted, inside]

lemma decrements_cons : Decrements (c :: cs) ↔ (c = '-' ∧ cs.head? = some '-') ∨ Decrements cs := by
  unfold Decrements
  have hsecond : ['-'] <+: cs ↔ cs.head? = some '-' := by cases cs <;> simp [eq_comm]
  rw [List.infix_cons_iff, List.cons_prefix_cons, hsecond, eq_comm]

lemma not_decrements_of_no_minus (h : '-' ∉ cs) : ¬ Decrements cs := by
  intro hdec
  exact h (hdec.subset List.mem_cons_self)

/-- **Signs do not meet across another character.** -/
lemma decrements_append_cons (hc : c ≠ '-') :
    Decrements (xs ++ c :: ys) ↔ Decrements xs ∨ Decrements ys := by
  induction xs with
  | nil =>
    have hnil : ¬ Decrements [] := by decide
    simp [decrements_cons, hc, hnil]
  | cons x xs ih =>
    have hhead : (xs ++ c :: ys).head? = some '-' ↔ xs.head? = some '-' := by
      cases xs with
      | nil => simpa using hc
      | cons _ _ => rfl
    rw [List.cons_append, decrements_cons, decrements_cons, ih, hhead, or_assoc]

/-- The text has neither quotes nor minus signs. -/
def Unsigned (cs : List Char) : Prop := '"' ∉ cs ∧ '-' ∉ cs

namespace Unsigned

lemma of_forall {p : Char → Bool} (hquote : p '"' = false) (hminus : p '-' = false)
    (h : ∀ c ∈ cs, p c = true) : Unsigned cs := by
  constructor
  · intro hmem
    simp [h _ hmem] at hquote
  · intro hmem
    simp [h _ hmem] at hminus

lemma leaves (h : Unsigned cs) : Leaves cs cs := leaves_of_no_quote h.1

lemma not_decrements (h : Unsigned cs) : ¬ Decrements cs := not_decrements_of_no_minus h.2

lemma head?_ne (h : Unsigned cs) : cs.head? ≠ some '-' := fun hhead => h.2 (List.mem_of_head? hhead)

/-- Nor does a text begin with a sign if it goes on behind another character. -/
lemma head?_append_ne (h : Unsigned cs) (hc : c ≠ '-') : (cs ++ c :: ys).head? ≠ some '-' := by
  cases cs with
  | nil => simpa using hc
  | cons d cs => exact h.head?_ne

end Unsigned

end Text

open Grammar
open Text (Leaves Decrements Unsigned isWordStart isWordRest)

/-! ### Names and numbers -/

lemma Spelled.unsigned_identifier {name : String} {cs : List Char}
    (h : Spelled (.identifier name) cs) : Unsigned cs := by
  generalize hkind : Token.Kind.identifier name = kind at h
  cases h with
  | @word c cs hstart hrest =>
    refine Text.Unsigned.of_forall (p := fun d => d = '#' || isWordRest d) (by decide +kernel)
      (by decide +kernel) (List.forall_mem_cons.2 ⟨?_, fun d hd => by simp [hrest d hd]⟩)
    rcases hstart with hstart | ⟨rfl, -⟩
    · simp [Text.isWordRest_of_isWordStart hstart]
    · simp
  | _ => cases hkind

lemma Written.unsigned {cs : List Char} {x : Double} {fractional : Bool} (h : Written cs x fractional) :
    Unsigned cs := by
  refine Text.Unsigned.of_forall (p := fun c => c = '.' || c.isDigit) (by decide) (by decide) ?_
  intro c hc
  cases h with
  | whole _ hds => simp [hds c hc]
  | places _ _ hds =>
    rcases List.mem_append.1 hc with hc | hc
    · simp [hds c (List.mem_append_left _ hc)]
    · rcases List.mem_cons.1 hc with rfl | hc
      · simp
      · simp [hds c (List.mem_append_right _ hc)]

/-- What is written for a number that was read and that is too large. -/
lemma Literal.text_of_not_finite {cs : List Char} {x : Double} {fractional : Bool}
    (h : Written cs x fractional) (hfinite : x.isFinite = false) :
    (Literal.number x fractional).text = if x.isNaN then "NaN" else "inf" := by
  simp [Literal.text, Double.isInteger, Double.text, NumberFormat.text, hfinite, h.isNegative]

/-- What is written for a number that was read has no sign, also where it is too large. -/
lemma Literal.unsigned_number {cs : List Char} {x : Double} {fractional : Bool}
    (h : Written cs x fractional) : Unsigned (Literal.number x fractional).text.toList := by
  cases hfinite : x.isFinite with
  | true => exact (Literal.written_text h hfinite).unsigned
  | false =>
    rw [Literal.text_of_not_finite h hfinite]
    split <;> exact ⟨by decide, by decide⟩

/-! ### Expressions -/

namespace Expr

/-- The outermost operation is a negation. -/
def isNegation : Expr → Bool
  | .unary .negate _ => true
  | _ => false

mutual

/-- A negation is negated right away, at whatever depth. -/
def negatesTwice : Expr → Bool
  | .constant _ => false
  | .symbol _ => false
  | .variadic values => negatesTwiceAny values
  | .parameter _ => false
  | .construct _ value => value.negatesTwice
  | .sample _ value => value.negatesTwice
  | .binary _ left right => left.negatesTwice || right.negatesTwice
  | .unary op value => (op = .negate && value.isNegation) || value.negatesTwice

def negatesTwiceAny : List Expr → Bool
  | [] => false
  | e :: es => e.negatesTwice || negatesTwiceAny es

end

lemma negatesTwice_ofArguments (es : List Expr) : (ofArguments es).negatesTwice = negatesTwiceAny es := by
  match es with
  | [] => rfl
  | [e] => simp [ofArguments, negatesTwiceAny]
  | e :: e' :: es => rfl

/-- The text is written for the expression, and `out` is left of it without its strings: signs meet
where a negation is negated, and what is no operation between two values begins with a sign if it is a
negation. -/
structure Lowers (e : Expr) (text : String) (out : List Char) : Prop where
  written : e.glsl = .ok text
  leaves : Leaves text.toList out
  decrements : Decrements out ↔ e.negatesTwice = true
  first : e.isBinary = false → (out.head? = some '-' ↔ e.isNegation = true)

variable {e : Expr} {text : String} {out : List Char}

lemma leaves_leftParen : Leaves ['('] ['('] := Text.leaves_of_no_quote (by decide)

lemma leaves_rightParen : Leaves [')'] [')'] := Text.leaves_of_no_quote (by decide)

lemma leaves_comma : Leaves [',', ' '] [',', ' '] := Text.leaves_of_no_quote (by decide)

/-- Signs do not meet at the ends of what stands in parentheses behind a name. -/
lemma decrements_call {name : List Char} (h : Unsigned name) :
    Decrements (name ++ '(' :: (out ++ [')'])) ↔ Decrements out := by
  have hend : ¬ Decrements [] := by decide
  rw [Text.decrements_append_cons (by decide), Text.decrements_append_cons (by decide)]
  simp [h.not_decrements, hend]

/-- A name or a number. -/
lemma Lowers.of_unsigned (hwritten : e.glsl = .ok text) (h : Unsigned text.toList)
    (htwice : e.negatesTwice = false) (hnegation : e.isNegation = false) :
    e.Lowers text text.toList := by
  refine ⟨hwritten, h.leaves, ?_, fun _ => ?_⟩
  · simp [htwice, h.not_decrements]
  · simp [hnegation, h.head?_ne]

/-- A name with what stands in parentheses behind it. -/
lemma exists_lowers_call {name inside : String} (hwritten : e.glsl = .ok (name ++ "(" ++ inside ++ ")"))
    (h : Unsigned name.toList) (hinside : Leaves inside.toList out)
    (htwice : Decrements out ↔ e.negatesTwice = true) (hnegation : e.isNegation = false) :
    ∃ text out, e.Lowers text out := by
  refine ⟨_, name.toList ++ '(' :: (out ++ [')']), hwritten, ?_, ?_, fun _ => ?_⟩
  · simpa using h.leaves.append (leaves_leftParen.append (hinside.append leaves_rightParen))
  · rw [decrements_call h, htwice]
  · have hfirst : (name.toList ++ '(' :: (out ++ [')'])).head? ≠ some '-' :=
      h.head?_append_ne (by decide)
    simp only [hnegation, hfirst, Bool.false_eq_true]

/-- An operand begins with a sign only if it is a negation. -/
lemma Lowers.operand (h : e.Lowers text out) :
    ∃ out', Leaves (e.asOperand text).toList out' ∧ (Decrements out' ↔ e.negatesTwice = true) ∧
      (out'.head? = some '-' ↔ e.isNegation = true) := by
  cases hbinary : e.isBinary with
  | false => exact ⟨out, by simpa [asOperand, hbinary] using h.leaves, h.decrements, h.first hbinary⟩
  | true =>
    refine ⟨'(' :: (out ++ [')']), ?_, ?_, ?_⟩
    · simpa [asOperand, hbinary] using leaves_leftParen.append (h.leaves.append leaves_rightParen)
    · have hnone : Unsigned [] := ⟨by simp, by simp⟩
      exact (decrements_call hnone).trans h.decrements
    · cases e <;> simp_all [isBinary, isNegation]

/-- Signs do not meet between arguments. -/
lemma lowers_arguments {es : List Expr} (h : ∀ e ∈ es, ∃ text out, e.Lowers text out) :
    ∃ texts out, glslAll es = .ok texts ∧ (texts = [] ↔ es = []) ∧
      Leaves (String.intercalate ", " texts).toList out ∧
      (Decrements out ↔ negatesTwiceAny es = true) := by
  induction es with
  | nil =>
    refine ⟨[], [], rfl, by simp, Text.leaves_of_no_quote (by simp), ?_⟩
    simp [negatesTwiceAny, Text.not_decrements_of_no_minus]
  | cons e es ih =>
    obtain ⟨⟨text, out, htext⟩, hes⟩ := List.forall_mem_cons.1 h
    obtain ⟨texts, later, htexts, hempty, hleaves, hlater⟩ := ih hes
    have hwritten : glslAll (e :: es) = .ok (text :: texts) := by
      simp [glslAll, htext.written, htexts, bind, Except.bind, pure, Except.pure]
    by_cases hlast : es = []
    · obtain rfl := hempty.2 hlast
      refine ⟨_, out, hwritten, by simp, by simpa using htext.leaves, ?_⟩
      simp [htext.decrements, hlast, negatesTwiceAny]
    · refine ⟨_, out ++ ',' :: ' ' :: later, hwritten, by simp, ?_, ?_⟩
      · rw [String.intercalate_cons_of_ne_nil (mt hempty.1 hlast)]
        simpa using htext.leaves.append (leaves_comma.append hleaves)
      · rw [Text.decrements_append_cons (by decide), Text.decrements_cons, htext.decrements, hlater]
        simp [negatesTwiceAny]

lemma glsl_ofArguments (es : List Expr) :
    (ofArguments es).glsl = do return String.intercalate ", " (← glslAll es) := by
  match es with
  | [] => rfl
  | [e] =>
    show e.glsl = _
    cases htext : e.glsl <;> simp [glslAll, htext, bind, Except.bind, pure, Except.pure]
  | e :: e' :: es => simp [ofArguments, glsl]

/-- **How each form of expression is written**, with its signs. -/
theorem Parsed.exists_lowers (h : e.Parsed fun t => Spelled t.kind t.lexeme.toList) :
    ∃ text out, e.Lowers text out := by
  have hname : ∀ {name : String}, Rule.Occurs (fun t => Spelled t.kind t.lexeme.toList)
      (.identifier name) → Unsigned name.toList := by
    rintro name ⟨t, ht, hkind⟩
    exact (hkind ▸ ht).identifier.unsigned_identifier
  induction h with
  | @number t x ht hk =>
    obtain ⟨fractional, hwritten⟩ := (hk ▸ ht).written
    rw [hwritten.contains_point]
    exact ⟨_, _, .of_unsigned rfl (Literal.unsigned_number hwritten) rfl rfl⟩
  | @string text h =>
    obtain ⟨t, ht, hkind⟩ := h
    obtain ⟨hquote, -⟩ := (hkind ▸ ht).not_mem_string
    have hleaves : Leaves (Literal.string text).text.toList ['"', '"'] := by
      simpa [Literal.text] using Text.leaves_string hquote
    have hnone : ¬ Decrements ['"', '"'] := by decide
    exact ⟨_, _, rfl, hleaves, by simp [negatesTwice, hnone], fun _ => by simp [isNegation]⟩
  | symbol h _ => exact ⟨_, _, .of_unsigned rfl (hname h) rfl rfl⟩
  | @construct p arguments hp _ ih =>
    obtain ⟨name, hcalled, hisName⟩ := hp.exists_name
    have hsigns := (spelled_of_isName hisName).unsigned_identifier
    obtain ⟨texts, out, htexts, -, hleaves, hdecrements⟩ := lowers_arguments ih
    have hglsl : p.glsl = .ok name := by simp [Primitive.glsl, hcalled]
    have hwritten : (Expr.construct p (ofArguments arguments)).glsl =
        .ok (name ++ "(" ++ String.intercalate ", " texts ++ ")") := by
      simp [glsl, hglsl, glsl_ofArguments, htexts, bind, Except.bind, pure, Except.pure]
    refine exists_lowers_call hwritten hsigns hleaves ?_ rfl
    rw [hdecrements, negatesTwice, negatesTwice_ofArguments]
  | @sample sampler e h _ ih =>
    obtain ⟨text, out, htext⟩ := ih
    have hsampler := hname h
    have hinside : Leaves (sampler ++ ", " ++ text).toList (sampler.toList ++ ',' :: ' ' :: out) := by
      simpa using hsampler.leaves.append (leaves_comma.append htext.leaves)
    have hwritten : (Expr.sample sampler e).glsl =
        .ok ("texture" ++ "(" ++ (sampler ++ ", " ++ text) ++ ")") := by
      simp [glsl, htext.written, bind, Except.bind, pure, Except.pure, String.append_assoc]
    refine exists_lowers_call hwritten ⟨by decide, by decide⟩ hinside ?_ rfl
    rw [Text.decrements_append_cons (by decide), Text.decrements_cons, htext.decrements]
    simp [hsampler.not_decrements, negatesTwice]
  | @binary op left right _ _ ihl ihr =>
    obtain ⟨l, outl, hl⟩ := ihl
    obtain ⟨r, outr, hr⟩ := ihr
    obtain ⟨outl', hleavesl, hdecl, -⟩ := hl.operand
    obtain ⟨outr', hleavesr, hdecr, -⟩ := hr.operand
    have hop : Leaves (' ' :: (op.text.toList ++ [' '])) (' ' :: (op.text.toList ++ [' '])) :=
      Text.leaves_of_no_quote (by cases op <;> decide)
    have hsign : ¬ Decrements op.text.toList := by cases op <;> decide
    refine ⟨left.asOperand l ++ " " ++ op.text ++ " " ++ right.asOperand r,
      outl' ++ ' ' :: (op.text.toList ++ ' ' :: outr'), ?_, ?_, ?_, fun hbinary => ?_⟩
    · simp [glsl, hl.written, hr.written, bind, Except.bind, pure, Except.pure]
    · simpa using hleavesl.append (hop.append hleavesr)
    · rw [Text.decrements_append_cons (by decide), Text.decrements_append_cons (by decide), hdecl, hdecr]
      simp [negatesTwice, hsign]
    · cases hbinary
  | @unary op e _ ih =>
    obtain ⟨text, out, htext⟩ := ih
    obtain ⟨out', hleaves, hdecrements, hfirst⟩ := htext.operand
    have hop : Leaves op.text.toList op.text.toList :=
      Text.leaves_of_no_quote (by cases op <;> decide)
    refine ⟨op.text ++ e.asOperand text, op.text.toList ++ out', ?_, ?_, ?_, fun _ => ?_⟩
    · simp [glsl, htext.written, bind, Except.bind, pure, Except.pure]
    · simpa using hop.append hleaves
    · cases op <;> simp [UnaryOp.text, Text.decrements_cons, negatesTwice, hdecrements, hfirst]
    · cases op <;> simp [UnaryOp.text, isNegation]

/-! ### Decrements -/

/-- **Minus signs meet where a negation is negated**, and nowhere else outside strings. -/
theorem decrements_iff_negatesTwice (h : e.OfSource) :
    ∃ text, e.glsl = .ok text ∧
      (Decrements (Text.unquoted false text.toList) ↔ e.negatesTwice = true) := by
  obtain ⟨text, out, htext⟩ := h.spelled.exists_lowers
  refine ⟨text, htext.written, ?_⟩
  rw [htext.leaves.unquoted_eq, htext.decrements]

/-- An expression is read from a source as a whole, and it has the text and what `q` asks. -/
lemma exists_ofSource (source : String) {text : String} {q : Expr → Bool}
    (h : (tokenize source).toOption.any (fun tokens =>
      (Expr.rule (Cursor.start tokens)).toOption.any fun read =>
        read.1.glsl.toOption == some text && q read.1) = true) :
    ∃ e : Expr, e.OfSource ∧ e.glsl = .ok text ∧ q e = true := by
  obtain ⟨tokens, htokens, h⟩ := (Option.any_eq_true _ _).1 h
  obtain ⟨⟨e, c⟩, hread, h⟩ := (Option.any_eq_true _ _).1 h
  obtain ⟨htext, hq⟩ := Bool.and_eq_true_iff.1 h
  have htokens := eq_ok_of_toOption htokens
  have hread := eq_ok_of_toOption hread
  refine ⟨e, ⟨source, tokens, maxDepth, _, c, htokens, List.Subset.refl _, hread⟩, ?_, hq⟩
  exact eq_ok_of_toOption (beq_iff_eq.1 htext)

/-- Negations behind a sign, before a string of signs and of a difference. -/
theorem decrements_iff_negatesTwice_vector :
    let text := "vec2(a - -b, -\"--\" - -(c - -d))"
    ∃ e : Expr, e.OfSource ∧ e.glsl = .ok text ∧ e.negatesTwice = false ∧
      ¬ Decrements (Text.unquoted false text.toList) := by
  intro text
  have hsource : ∃ e : Expr, e.OfSource ∧ e.glsl = .ok text ∧ (!e.negatesTwice) = true :=
    exists_ofSource "float2(a - -b, -\"--\" - -(c - -d))" (by decide +kernel)
  obtain ⟨e, hsource, hglsl, hnone⟩ := hsource
  have hnone : e.negatesTwice = false := by simpa using hnone
  refine ⟨e, hsource, hglsl, hnone, ?_⟩
  obtain ⟨text', htext', hdecrements⟩ := decrements_iff_negatesTwice hsource
  obtain rfl : text' = text := Except.ok.inj (htext'.symm.trans hglsl)
  simp [hdecrements, hnone]

/-- **Two signs can meet**: nothing is written between a negation and the negation that it negates. -/
theorem exists_decrements :
    ¬ ∀ e : Expr, e.OfSource → ∀ text, e.glsl = .ok text →
      ¬ Decrements (Text.unquoted false text.toList) := by
  have hsource : ∃ e : Expr, e.OfSource ∧ e.glsl = .ok "--x" ∧ e.negatesTwice = true :=
    exists_ofSource "- -x" (by decide +kernel)
  obtain ⟨e, hsource, htext, -⟩ := hsource
  intro h
  exact h e hsource _ htext (by decide)

end Expr

end Shading
