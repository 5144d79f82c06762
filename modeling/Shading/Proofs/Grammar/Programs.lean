import Shading.Proofs.Grammar.Derivation

/-!
# The grammar of programs

Which tokens are a statement, an item or a whole program, said without a reader.  The rules read just
what the grammar derives.

* `Statement.Spelled`, `Statement.Block` — the tokens of a statement, and of statements one behind
  another;
* `Item.Spelled` — the tokens of an item, or tokens that are passed over;
* `Program.Derives` — the tokens of items one behind another, with what is passed over between them;
* `Program.itemsOfTokens_eq_ok` — the items of a token list are those that the grammar derives.
-/

namespace Shading

open Grammar
open Rule (Accepts anything)

/-! ### Tokens inside an expression -/

/-- The tokens that may stand in an expression. -/
def Expr.Inside : Token.Kind → Prop
  | .number _ | .string _ | .identifier _ | .keyword .sample => True
  | .mark m => m = .leftParen ∨ m = .rightParen ∨ m = .comma ∨ m = .bang ∨ ∃ op : BinaryOp, m = op.mark
  | _ => False

lemma Listed.mem {α : Type} {ts : List Token} {elements : List (List Token × α)}
    (h : Listed ts elements) {t : Token} (ht : t ∈ ts) :
    t.kind = .mark .comma ∨ ∃ element ∈ elements, t ∈ element.1 := by
  induction h with
  | none => cases ht
  | last => exact .inr ⟨_, List.mem_cons_self, ht⟩
  | @comma ts us comma a elements hc _ ih =>
    rcases List.mem_append.1 ht with ht | ht
    · exact .inr ⟨_, List.mem_cons_self, ht⟩
    · rcases List.mem_cons.1 ht with rfl | ht
      · exact .inl hc
      · rcases ih ht with hcomma | ⟨element, helement, ht⟩
        · exact .inl hcomma
        · exact .inr ⟨element, List.mem_cons_of_mem _ helement, ht⟩

lemma Primitive.Spelled.identifiers {ts : List Token} {p : Primitive} (h : p.Spelled ts) :
    ∀ t ∈ ts, ∃ word, t.kind = .identifier word := by
  cases h with
  | plain ht => simp [ht]
  | precise ht _ hu => simp [ht, hu]

namespace Expr

variable {n : Nat} {tier : Tier} {ts : List Token} {e : Expr}

/-- No other tokens stand in an expression. -/
lemma Derives.inside (h : Derives n tier ts e) : ∀ t ∈ ts, Inside t.kind := by
  induction h with
  | operand _ _ ih => exact ih
  | @binary _ _ _ us vs t op _ _ _ _ ht _ _ ihl ihr =>
    refine List.forall_mem_append.2 ⟨ihl, List.forall_mem_cons.2 ⟨?_, ihr⟩⟩
    simp [ht, Inside]
  | @unary _ t ts op _ ht _ ih =>
    refine List.forall_mem_cons.2 ⟨?_, ih⟩
    rw [ht]
    cases op with
    | negate => exact .inr (.inr (.inr (.inr ⟨.subtract, rfl⟩)))
    | not => simp [Inside, UnaryOp.mark]
  | number ht | string ht | symbol ht => simp [ht, Inside]
  | group ho _ hc ih =>
    refine List.forall_mem_cons.2 ⟨by simp [ho, Inside], List.forall_mem_append.2 ⟨ih, ?_⟩⟩
    simp [hc, Inside]
  | sample hk ho hs hcomma _ hc ih =>
    simp only [List.forall_mem_cons, List.forall_mem_append, hk, ho, hs, hcomma, Inside]
    simpa [hc, Inside] using ih
  | construct hp ho hl _ hc ih =>
    refine List.forall_mem_append.2 ⟨fun t ht => ?_, List.forall_mem_cons.2 ⟨by simp [ho, Inside], ?_⟩⟩
    · obtain ⟨word, hword⟩ := hp.identifiers t ht
      simp [hword, Inside]
    · refine List.forall_mem_append.2 ⟨fun t ht => ?_, by simp [hc, Inside]⟩
      rcases hl.mem ht with hcomma | ⟨argument, hargument, ht⟩
      · simp [hcomma, Inside]
      · exact ih argument hargument t ht

/-- The tokens of a whole expression. -/
abbrev Whole (ts : List Token) (e : Expr) : Prop := Derives maxDepth .equality ts e

lemma accepts_rule : Accepts Expr.rule Whole Ends := (accepts_ofDepth maxDepth).1

end Expr

/-! ### Declarations -/

/-- The tokens of a name with its type. -/
inductive Binding.Spelled : List Token → Binding → Prop
  | mk {type : List Token} {name : Token} {b : Binding} (hp : b.primitive.Spelled type)
    (hn : name.kind = .identifier b.name) : Spelled (type ++ [name]) b

/-- The tokens of a constant, behind its keyword. -/
inductive Constant.Spelled : List Token → Constant → Prop
  | mk {type value : List Token} {name equal : Token} {declared : Constant}
    (hp : declared.primitive.Spelled type) (hn : name.kind = .identifier declared.name)
    (he : equal.kind = .mark .equal) (hv : declared.value.Whole value) :
    Spelled (type ++ name :: equal :: value) declared

lemma Binding.accepts_rule : Accepts Binding.rule Binding.Spelled anything := by
  refine (Primitive.accepts_rule.andThen fun p =>
    Rule.accepts_identifier.map fun name => (⟨p, name⟩ : Binding)).congr fun ts b => ?_
  constructor
  · rintro ⟨type, _, p, rfl, hp, name, ⟨t, rfl, ht⟩, rfl⟩
    exact .mk hp ht
  · rintro ⟨hp, hn⟩
    exact ⟨_, _, _, rfl, hp, _, ⟨_, rfl, hn⟩, rfl⟩

/-- A name with its type may be an element of a list. -/
lemma Binding.element_spelled : Rule.Element Binding.Spelled anything where
  first ts b h := by
    obtain ⟨hp, -⟩ := h
    obtain ⟨t, us, word, rfl, ht, -⟩ := hp.isTypeWord
    exact ⟨t, _, rfl, by simp [ht]⟩
  comma _ _ _ := trivial
  rightParen _ _ _ := trivial

lemma Constant.accepts_rule : Accepts Constant.rule Constant.Spelled Expr.Ends := by
  refine (Primitive.accepts_rule.andThen fun p => Rule.accepts_identifier.andThen fun name =>
    (Rule.accepts_expect .equal).andThen fun _ =>
      Expr.accepts_rule.map fun value => (⟨p, name, value⟩ : Constant)).congr fun ts declared => ?_
  constructor
  · rintro ⟨type, _, p, rfl, hp, _, _, name, rfl, ⟨t, rfl, ht⟩, _, _, -, rfl, ⟨equal, rfl, he⟩, value, hv,
      rfl⟩
    exact .mk hp ht he hv
  · rintro ⟨hp, hn, he, hv⟩
    exact ⟨_, _, _, rfl, hp, [_], _, _, rfl, ⟨_, rfl, hn⟩, [_], _, (), rfl, ⟨_, rfl, he⟩, _, hv, rfl⟩

/-! ### Statements -/

/-- What a language has, closed by a semicolon and made into a statement. -/
def Statement.Ended {α : Type} (L : List Token → α → Prop) (make : α → Statement) (ts : List Token)
    (s : Statement) : Prop :=
  ∃ us semicolon a, ts = us ++ [semicolon] ∧ L us a ∧ semicolon.kind = .mark .semicolon ∧ s = make a

/-- The tokens of a statement.  A sampling may stand in an expression, but not at its front when the
expression is a statement. -/
inductive Statement.Spelled : List Token → Statement → Prop
  | comment {t : Token} {text : String} (ht : t.kind = .comment text) : Spelled [t] (.comment text)
  | returns {t : Token} {ts : List Token} {s : Statement} (ht : t.kind = .keyword .returns)
    (h : Ended Expr.Whole .returns ts s) : Spelled (t :: ts) s
  | constant {t : Token} {ts : List Token} {s : Statement} (ht : t.kind = .keyword .const)
    (h : Ended Constant.Spelled .constant ts s) : Spelled (t :: ts) s
  | assign {t equal : Token} {ts : List Token} {target : String} {s : Statement}
    (ht : t.kind = .identifier target) (he : equal.kind = .mark .equal)
    (h : Ended Expr.Whole (.assign target) ts s) : Spelled (t :: equal :: ts) s
  | expression {t : Token} {ts : List Token} {s : Statement} (ht : t.kind ≠ .keyword .sample)
    (h : Ended Expr.Whole .expression (t :: ts) s) : Spelled (t :: ts) s

namespace Statement

variable {c c' : Cursor} {s : Statement} {ts : List Token}

lemma ends_semicolon (t : Token) (rest : List Token) (ht : t.kind = .mark .semicolon) :
    Expr.Ends (t :: rest) :=
  Expr.ends_of_mark ht (fun op => by cases op <;> simp [BinaryOp.mark]) rest

lemma accepts_ended (make : Expr → Statement) :
    Accepts (do let value ← Expr.rule; Rule.expect .semicolon; return make value)
      (Ended Expr.Whole make) anything :=
  Rule.accepts_closed Expr.accepts_rule ends_semicolon make

/-- An expression that is a statement is read like any other that a semicolon closes: only the fault
that names a missing semicolon is its own. -/
lemma evaluation_eq_ok :
    evaluation c = .ok (s, c') ↔
      (do let value ← Expr.rule; Rule.expect .semicolon; return .expression value : Rule Statement) c =
        .ok (s, c') := by
  unfold evaluation
  rw [Rule.bind_eq_ok, Rule.bind_eq_ok]
  refine exists_congr fun e => exists_congr fun c₁ => and_congr_right fun _ => ?_
  rw [Rule.peek_bind, Rule.bind_eq_ok, Rule.expect, Rule.peek_bind]
  split
  · exact Rule.bind_eq_ok
  · simp [Rule.stop]

lemma accepts_evaluation : Accepts evaluation (Ended Expr.Whole .expression) anything := by
  intro c s c'
  rw [evaluation_eq_ok]
  exact accepts_ended .expression c s c'

/-! The first two tokens say which of four ways a statement is read. -/

section Ways

variable {name text : String} {k : Keyword}

lemma rule_comment (h : c.next? = some (.comment text)) : rule c = .ok (.comment text, c.advance) := by
  rw [rule, Rule.peek_bind, h]
  rfl

lemma rule_keyword (h : c.next? = some (.keyword k)) : rule c = afterKeyword k c.advance := by
  rw [rule, Rule.peek_bind, h]
  rfl

lemma rule_assign (h : c.next? = some (.identifier name)) (hsecond : c.second? = some (.mark .equal)) :
    rule c = assignment name c.advance.advance := by
  rw [rule, Rule.peek_bind, h, Rule.peekSecond_bind, hsecond]
  rfl

lemma rule_evaluation (hcomment : ∀ text, c.next? ≠ some (.comment text))
    (hkeyword : ∀ k, c.next? ≠ some (.keyword k))
    (hassign : ∀ name, c.next? = some (.identifier name) → c.second? ≠ some (.mark .equal)) :
    rule c = evaluation c := by
  rw [rule, Rule.peek_bind, Rule.peekSecond_bind]
  generalize c.next? = next at *
  generalize c.second? = second at *
  split
  · exact absurd rfl (hcomment _)
  · exact absurd rfl (hkeyword _)
  · exact absurd rfl (hassign _ rfl)
  · rfl

end Ways

/-- What follows a keyword at the front of a statement. -/
lemma spelled_of_afterKeyword {k : Keyword} {t : Token} (ht : t.kind = .keyword k)
    (h : afterKeyword k c = .ok (s, c')) : ∃ ts, c.Passes ts c' ∧ Spelled (t :: ts) s := by
  cases k with
  | returns =>
    obtain ⟨ts, hpasses, hts, -⟩ := (accepts_ended .returns c s c').1 h
    exact ⟨ts, hpasses, .returns ht hts⟩
  | const =>
    obtain ⟨ts, hpasses, hts, -⟩ :=
      (Rule.accepts_closed Constant.accepts_rule ends_semicolon Statement.constant c s c').1 h
    exact ⟨ts, hpasses, .constant ht hts⟩
  | _ => exact absurd h Rule.stop_ne_ok

/-- What the rule for statements reads is one. -/
lemma spelled_of_rule (h : rule c = .ok (s, c')) : ∃ ts, c.Passes ts c' ∧ Spelled ts s := by
  by_cases hcomment : ∃ text, c.next? = some (.comment text)
  · obtain ⟨text, hnext⟩ := hcomment
    rw [rule_comment hnext] at h
    obtain ⟨t, hfirst, ht⟩ := Option.map_eq_some_iff.1 hnext
    obtain ⟨rfl, rfl⟩ := Prod.mk.inj (Except.ok.inj h)
    exact ⟨[t], ⟨hfirst, rfl⟩, .comment ht⟩
  by_cases hkeyword : ∃ k, c.next? = some (.keyword k)
  · obtain ⟨k, hnext⟩ := hkeyword
    rw [rule_keyword hnext] at h
    obtain ⟨t, hfirst, ht⟩ := Option.map_eq_some_iff.1 hnext
    obtain ⟨ts, hpasses, hts⟩ := spelled_of_afterKeyword ht h
    exact ⟨t :: ts, ⟨hfirst, hpasses⟩, hts⟩
  by_cases hassign : ∃ name, c.next? = some (.identifier name) ∧ c.second? = some (.mark .equal)
  · obtain ⟨name, hnext, hsecond⟩ := hassign
    rw [rule_assign hnext hsecond] at h
    obtain ⟨t, hfirst, ht⟩ := Option.map_eq_some_iff.1 hnext
    obtain ⟨equal, hequal, he⟩ := Option.map_eq_some_iff.1 hsecond
    obtain ⟨ts, hpasses, hts, -⟩ := (accepts_ended (.assign name) _ s c').1 h
    refine ⟨t :: equal :: ts, ⟨hfirst, ?_, hpasses⟩, .assign ht he hts⟩
    obtain ⟨_ | ⟨u, rest⟩, last⟩ := c
    · cases hfirst
    · exact hequal
  push Not at hcomment hkeyword hassign
  rw [rule_evaluation hcomment hkeyword hassign] at h
  obtain ⟨_, hpasses, ⟨us, semicolon, e, rfl, he, hs, rfl⟩, -⟩ := (accepts_evaluation c s c').1 h
  obtain ⟨t, vs, rfl, -⟩ := he.first
  refine ⟨_, hpasses, .expression (fun ht => ?_) ⟨t :: vs, semicolon, e, rfl, he, hs, rfl⟩⟩
  exact hkeyword .sample (by rw [hpasses.next?, ht])

/-- The token behind the first of an expression that is a statement is no equals sign. -/
lemma second_of_ended {t : Token} (h : Ended Expr.Whole .expression (t :: ts) s)
    (rest : List Token) : ∀ u ∈ (ts ++ rest).head?, u.kind ≠ .mark .equal := by
  obtain ⟨us, semicolon, e, heq, he, hs, -⟩ := h
  obtain ⟨v, vs, rfl, -⟩ := he.first
  obtain ⟨rfl, rfl⟩ := List.cons.inj heq
  intro u hu hequal
  cases vs with
  | nil =>
    obtain rfl : semicolon = u := Option.some.inj hu
    rw [hs] at hequal
    cases hequal
  | cons w vs =>
    obtain rfl : w = u := Option.some.inj hu
    have hinside := he.inside w (by simp)
    rw [hequal] at hinside
    rcases hinside with h | h | h | h | ⟨op, h⟩
    · cases h
    · cases h
    · cases h
    · cases h
    · cases op <;> cases h

/-- An expression that is a statement begins with neither a comment nor a keyword. -/
lemma first_of_ended {t : Token} (ht : t.kind ≠ .keyword .sample)
    (h : Ended Expr.Whole .expression (t :: ts) s) :
    (∀ text, t.kind ≠ .comment text) ∧ (∀ k, t.kind ≠ .keyword k) ∧ t.kind ≠ .mark .rightBrace := by
  obtain ⟨us, semicolon, e, heq, he, -, -⟩ := h
  obtain ⟨v, vs, rfl, hfirst⟩ := he.first
  obtain ⟨rfl, -⟩ := List.cons.inj heq
  rcases hfirst with hbegins | ⟨-, op, hop⟩
  · refine ⟨fun text hkind => ?_, fun k hkind => ?_, fun hkind => ?_⟩
    · rw [hkind] at hbegins
      cases hbegins
    · rw [hkind] at hbegins ht
      cases k with
      | sample => exact ht rfl
      | _ => cases hbegins
    · rw [hkind] at hbegins
      cases hbegins
  · rw [hop]
    cases op <;> simp [UnaryOp.mark]

/-- Every statement is read. -/
lemma rule_of_spelled (hpasses : c.Passes ts c') (h : Spelled ts s) : rule c = .ok (s, c') := by
  cases h with
  | comment ht =>
    rw [rule_comment (by rw [hpasses.next?, ht]), hpasses.2]
  | @returns t ts _ ht h =>
    rw [rule_keyword (by rw [hpasses.next?, ht])]
    exact (accepts_ended .returns _ s c').2 ⟨ts, hpasses.2, h, trivial⟩
  | @constant t ts _ ht h =>
    rw [rule_keyword (by rw [hpasses.next?, ht])]
    exact (Rule.accepts_closed Constant.accepts_rule ends_semicolon Statement.constant _ s c').2
      ⟨ts, hpasses.2, h, trivial⟩
  | @assign t equal ts target _ ht he h =>
    have hsecond : c.second? = some (.mark .equal) := by
      rw [Cursor.second?, hpasses.rest_eq, ← he]
      rfl
    rw [rule_assign (by rw [hpasses.next?, ht]) hsecond]
    exact (accepts_ended (.assign target) _ s c').2 ⟨ts, hpasses.2.2, h, trivial⟩
  | @expression t ts _ ht h =>
    obtain ⟨hcomment, hkeyword, -⟩ := first_of_ended ht h
    have hsecond : c.second? ≠ some (.mark .equal) := by
      intro hsecond
      obtain ⟨u, hu, hequal⟩ := Option.map_eq_some_iff.1 hsecond
      rw [hpasses.rest_eq, List.cons_append, List.tail_cons] at hu
      exact second_of_ended h c'.rest u hu hequal
    rw [rule_evaluation (by simpa [hpasses.next?] using hcomment)
      (by simpa [hpasses.next?] using hkeyword) (fun _ _ => hsecond)]
    exact (accepts_evaluation c s c').2 ⟨_, hpasses, h, trivial⟩

/-- **The rule for statements reads just the statements.** -/
theorem accepts_rule : Accepts Statement.rule Spelled anything := by
  intro c s c'
  constructor
  · intro h
    obtain ⟨ts, hpasses, hts⟩ := spelled_of_rule h
    exact ⟨ts, hpasses, hts, trivial⟩
  · rintro ⟨ts, hpasses, hts, -⟩
    exact rule_of_spelled hpasses hts

/-- A statement has a first token, which is no closing brace. -/
lemma Spelled.first (h : Spelled ts s) : ∃ t us, ts = t :: us ∧ t.kind ≠ .mark .rightBrace := by
  cases h with
  | comment ht | returns ht | constant ht | assign ht => exact ⟨_, _, rfl, by simp [ht]⟩
  | expression ht h => exact ⟨_, _, rfl, (first_of_ended ht h).2.2⟩

/-! ### Bodies -/

/-- The tokens of statements one behind another. -/
inductive Block : List Token → List Statement → Prop
  | nil : Block [] []
  | cons {ts us : List Token} {s : Statement} {later : List Statement} (h : Spelled ts s)
    (hs : Block us later) : Block (ts ++ us) (s :: later)

/-- The tokens of statements in braces. -/
def Braced (ts : List Token) (statements : List Statement) : Prop :=
  ∃ opening us closing, ts = opening :: (us ++ [closing]) ∧ opening.kind = .mark .leftBrace ∧
    closing.kind = .mark .rightBrace ∧ Block us statements

/-! One round of the loop over the statements. -/

lemma sequence_end {n : Nat} (h : c.next? = some (.mark .rightBrace)) :
    sequence (n + 1) c = .ok ([], c) := by
  rw [sequence, Rule.peek_bind, h]
  rfl

lemma sequence_next {n : Nat} {kind : Token.Kind} (h : c.next? = some kind)
    (hkind : kind ≠ .mark .rightBrace) : sequence (n + 1) c =
      (rule >>= fun s => sequence n >>= fun later => pure (s :: later)) c := by
  rw [sequence, Rule.peek_bind]
  generalize c.next? = next at *
  split
  · cases h
  · exact absurd (Option.some.inj h).symm hkind
  · rfl

lemma block_of_sequence {n : Nat} {statements : List Statement}
    (h : sequence n c = .ok (statements, c')) : ∃ ts, c.Passes ts c' ∧ Block ts statements := by
  induction n generalizing c statements with
  | zero =>
    obtain ⟨rfl, rfl⟩ := Prod.mk.inj (Except.ok.inj h)
    exact ⟨[], rfl, .nil⟩
  | succ n ih =>
    cases hnext : c.next? with
    | none =>
      rw [sequence, Rule.peek_bind, hnext] at h
      exact absurd h Rule.stop_ne_ok
    | some kind =>
      by_cases hkind : kind = .mark .rightBrace
      · rw [sequence_end (hnext.trans (congrArg some hkind))] at h
        obtain ⟨rfl, rfl⟩ := Prod.mk.inj (Except.ok.inj h)
        exact ⟨[], rfl, .nil⟩
      rw [sequence_next hnext hkind] at h
      obtain ⟨s, c₁, hs, h⟩ := Rule.bind_eq_ok.1 h
      obtain ⟨later, c₂, hlater, h⟩ := Rule.bind_eq_ok.1 h
      obtain ⟨rfl, rfl⟩ := Prod.mk.inj (Except.ok.inj h)
      obtain ⟨ts, hts, hspelled, -⟩ := (accepts_rule c s c₁).1 hs
      obtain ⟨us, hus, hblock⟩ := ih hlater
      exact ⟨ts ++ us, Cursor.passes_append.2 ⟨c₁, hts, hus⟩, .cons hspelled hblock⟩

/-- **Statements before a closing brace are read**: the bound on their number is not reached, since each
of them has a token. -/
lemma sequence_of_block {n : Nat} {statements : List Statement} (hn : c.rest.length < n)
    (hnext : c'.next? = some (.mark .rightBrace)) (hpasses : c.Passes ts c')
    (h : Block ts statements) : sequence n c = .ok (statements, c') := by
  induction h generalizing c n with
  | nil =>
    obtain ⟨m, rfl⟩ : ∃ m, n = m + 1 := ⟨n - 1, by omega⟩
    obtain rfl := Cursor.passes_nil.1 hpasses
    exact sequence_end hnext
  | @cons ts us s later h _ ih =>
    obtain ⟨m, rfl⟩ : ∃ m, n = m + 1 := ⟨n - 1, by omega⟩
    obtain ⟨c₁, hts, hus⟩ := Cursor.passes_append.1 hpasses
    obtain ⟨t, vs, rfl, ht⟩ := h.first
    have hrest := hts.rest_eq
    have hlength : c₁.rest.length < m := by
      simp only [hrest, List.length_append, List.length_cons] at hn
      omega
    have hread := (accepts_rule c s c₁).2 ⟨_, hts, h, trivial⟩
    rw [sequence_next hts.next? ht]
    exact Rule.bind_eq_ok.2 ⟨s, c₁, hread, Rule.bind_eq_ok.2 ⟨later, c', ih hlength hus, rfl⟩⟩

/-- **The rule for bodies reads just statements in braces.** -/
theorem accepts_body : Accepts body Braced anything :=
  Rule.accepts_enclosed .leftBrace .rightBrace block_of_sequence sequence_of_block

end Statement

/-! ### Items -/

namespace Item

/-- The tokens behind a keyword at the top level, and the item that they are.  A sampling is none. -/
inductive Behind : Keyword → List Token → Option Item → Prop
  | includeFile {t : Token} {path : String} (ht : t.kind = .string path) :
    Behind .includeFile [t] (some (.includeFile path))
  | shaderType {t : Token} {kind : String} (ht : t.kind = .identifier kind) :
    Behind .shaderType [t] (some (.shaderType kind))
  | uniform {ts : List Token} {b : Binding} (hb : b.Spelled ts) : Behind .uniform ts (some (.uniform b))
  | varying {ts : List Token} {b : Binding} (hb : b.Spelled ts) : Behind .varying ts (some (.varying b))
  | constant {ts : List Token} {declared : Constant} (hd : declared.Spelled ts) :
    Behind .const ts (some (.constant declared))
  | sample {opening name comma closing : Token} {ts : List Token} {sampler : String} {e : Expr}
    (ho : opening.kind = .mark .leftParen) (hn : name.kind = .identifier sampler)
    (hcomma : comma.kind = .mark .comma) (he : e.Whole ts)
    (hc : closing.kind = .mark .rightParen) :
    Behind .sample (opening :: name :: comma :: (ts ++ [closing])) none

/-- The tokens of a function, or of a stage when its name is reserved for one. -/
inductive Defined : List Token → Item → Prop
  | function {type parameters body : List Token} {name : Token} {f : Function}
    (hr : f.returned.Spelled type) (hn : name.kind = .identifier f.name)
    (hp : Rule.Parenthesised Binding.Spelled parameters f.parameters)
    (hb : Statement.Braced body f.body) (hf : StageKind.ofName? f.name = none) :
    Defined (type ++ name :: (parameters ++ body)) (.function f)
  | stage {type parameters body : List Token} {name : Token} {returned : Primitive} {word : String}
    {stage : Stage} (hr : returned.Spelled type) (hn : name.kind = .identifier word)
    (hp : Rule.Parenthesised Binding.Spelled parameters stage.parameters)
    (hb : Statement.Braced body stage.body) (hk : StageKind.ofName? word = some stage.kind)
    (hvoid : returned.isVoid = true) : Defined (type ++ name :: (parameters ++ body)) (.stage stage)

/-- The tokens that the top level takes in one piece, and the item that they are, if they are one. -/
inductive Spelled : List Token → Option Item → Prop
  | keyword {t : Token} {k : Keyword} {ts : List Token} {item? : Option Item}
    (ht : t.kind = .keyword k) (h : Behind k ts item?) : Spelled (t :: ts) item?
  | defined {ts : List Token} {item : Item} (h : Defined ts item) : Spelled ts (some item)
  | other {t : Token} (hk : ∀ k, t.kind ≠ .keyword k) (hi : ∀ name, t.kind ≠ .identifier name) :
    Spelled [t] none

/-- What may follow: behind a constant, nothing that its value goes on with. -/
def Followed (item? : Option Item) (rest : List Token) : Prop :=
  ∀ declared, item? = some (.constant declared) → Expr.Ends rest

variable {c c' : Cursor} {item? : Option Item} {ts : List Token}

lemma accepts_includePath :
    Accepts includePath (fun ts path => ∃ t, ts = [t] ∧ t.kind = .string path) anything := by
  refine Rule.accepts_token ?_ ?_
  · intro last path c'
    exact Rule.stop_ne_ok
  · intro t rest last path c'
    rw [includePath, Rule.peek_bind, Rule.advance_bind, Cursor.next?_of_rest rfl]
    cases hkind : t.kind with
    | string text =>
      show (.ok (text, ⟨rest, t.position⟩) : Except Fault (String × Cursor)) = _ ↔ _
      simp [eq_comm]
    | _ => simp [Rule.stop]

/-- What may follow the tokens behind a keyword. -/
def FollowedBehind : Keyword → List Token → Prop
  | .const => Expr.Ends
  | _ => anything

lemma Behind.followed_iff {k : Keyword} (h : Behind k ts item?) (rest : List Token) :
    Followed item? rest ↔ FollowedBehind k rest := by
  cases h <;> simp [Followed, FollowedBehind, anything]

lemma accepts_afterKeyword (k : Keyword) : Accepts (afterKeyword k) (Behind k) (FollowedBehind k) := by
  cases k with
  | includeFile =>
    refine (accepts_includePath.map fun path => some (Item.includeFile path)).congr fun ts item? => ?_
    constructor
    · rintro ⟨path, ⟨t, rfl, ht⟩, rfl⟩
      exact .includeFile ht
    · intro h
      cases h with
      | includeFile ht => exact ⟨_, ⟨_, rfl, ht⟩, rfl⟩
  | shaderType =>
    refine (Rule.accepts_identifier.map fun kind => some (Item.shaderType kind)).congr fun ts item? => ?_
    constructor
    · rintro ⟨kind, ⟨t, rfl, ht⟩, rfl⟩
      exact .shaderType ht
    · intro h
      cases h with
      | shaderType ht => exact ⟨_, ⟨_, rfl, ht⟩, rfl⟩
  | uniform =>
    refine (Binding.accepts_rule.map fun b => some (Item.uniform b)).congr fun ts item? => ?_
    constructor
    · rintro ⟨b, hb, rfl⟩
      exact .uniform hb
    · intro h
      cases h with
      | uniform hb => exact ⟨_, hb, rfl⟩
  | varying =>
    refine (Binding.accepts_rule.map fun b => some (Item.varying b)).congr fun ts item? => ?_
    constructor
    · rintro ⟨b, hb, rfl⟩
      exact .varying hb
    · intro h
      cases h with
      | varying hb => exact ⟨_, hb, rfl⟩
  | const =>
    refine (Constant.accepts_rule.map fun declared => some (Item.constant declared)).congr
      fun ts item? => ?_
    constructor
    · rintro ⟨declared, hd, rfl⟩
      exact .constant hd
    · intro h
      cases h with
      | constant hd => exact ⟨_, hd, rfl⟩
  | sample =>
    refine ((Expr.accepts_sampling Expr.accepts_rule).map fun _ => (none : Option Item)).congr
      fun ts item? => ?_
    constructor
    · rintro ⟨_, ⟨opening, name, comma, us, closing, sampler, inside, rfl, ho, hn, hcomma, he, hc, rfl⟩,
        rfl⟩
      exact .sample ho hn hcomma he hc
    · intro h
      cases h with
      | sample ho hn hcomma he hc =>
        exact ⟨_, ⟨_, _, _, _, _, _, _, rfl, ho, hn, hcomma, he, hc, rfl⟩, rfl⟩
  | _ => exact Rule.accepts_stop _ fun ts item? h => by cases h

/-- What a definition is, when all its parts have been read. -/
lemma accepts_named (returned : Primitive) (name : String) (parameters : List Binding)
    (body : List Statement) :
    Accepts (match StageKind.ofName? name with
      | none => return .function { returned, name, parameters, body }
      | some kind =>
        if returned.isVoid then return .stage { kind, parameters, body }
        else Rule.stop (.stageNotVoid name) : Rule Item)
      (fun ts item => ts = [] ∧
        ((StageKind.ofName? name = none ∧ item = .function { returned, name, parameters, body }) ∨
          ∃ kind, StageKind.ofName? name = some kind ∧ returned.isVoid = true ∧
            item = .stage { kind, parameters, body })) anything := by
  cases StageKind.ofName? name with
  | none => exact (Accepts.pure _).congr fun ts item => by simp
  | some kind =>
    by_cases hvoid : returned.isVoid = true
    · simp only [hvoid, if_true]
      exact (Accepts.pure _).congr fun ts item => by simp
    · simp only [hvoid]
      exact Rule.accepts_stop _ fun ts item => by simp

/-- **The rule for definitions reads just the functions and stages.** -/
theorem accepts_definition : Accepts definition Defined anything := by
  refine (Primitive.accepts_rule.andThen fun returned => Rule.accepts_identifier.andThen fun name =>
    (Rule.accepts_parenthesised Binding.accepts_rule Binding.element_spelled).andThen fun parameters =>
      Statement.accepts_body.andThen fun body => accepts_named returned name parameters body).congr ?_
  intro ts item
  constructor
  · rintro ⟨type, _, returned, rfl, hr, _, _, name, rfl, ⟨t, rfl, hn⟩, ps, _, parameters, rfl, hp, bs, _,
      body, rfl, hb, rfl, hnamed⟩
    rw [List.append_nil, List.singleton_append]
    rcases hnamed with ⟨hf, rfl⟩ | ⟨kind, hk, hvoid, rfl⟩
    · exact .function hr hn hp hb hf
    · exact .stage hr hn hp hb hk hvoid
  · rintro (⟨hr, hn, hp, hb, hf⟩ | ⟨hr, hn, hp, hb, hk, hvoid⟩)
    · exact ⟨_, _, _, rfl, hr, [_], _, _, rfl, ⟨_, rfl, hn⟩, _, _, _, rfl, hp, _, [], _, by simp, hb, rfl,
        .inl ⟨hf, rfl⟩⟩
    · exact ⟨_, _, _, rfl, hr, [_], _, _, rfl, ⟨_, rfl, hn⟩, _, _, _, rfl, hp, _, [], _, by simp, hb, rfl,
        .inr ⟨_, hk, hvoid, rfl⟩⟩

/-- A definition begins with an identifier. -/
lemma Defined.first {item : Item} (h : Defined ts item) :
    ∃ t us word, ts = t :: us ∧ t.kind = .identifier word := by
  have htype : ∀ {p : Primitive} {type us : List Token}, p.Spelled type →
      ∃ t vs word, type ++ us = t :: vs ∧ t.kind = .identifier word := by
    intro p type us hp
    obtain ⟨t, vs, word, rfl, ht, -⟩ := hp.isTypeWord
    exact ⟨t, vs ++ us, word, rfl, ht⟩
  cases h with
  | function hr => exact htype hr
  | stage hr => exact htype hr

/-- What is taken in one piece has a token. -/
lemma Spelled.first (h : Spelled ts item?) : ∃ t us, ts = t :: us := by
  cases h with
  | keyword | other => exact ⟨_, _, rfl⟩
  | defined h =>
    obtain ⟨t, us, -, rfl, -⟩ := h.first
    exact ⟨t, us, rfl⟩

/-! The next token says which of three ways the top level goes on. -/

lemma rule_keyword {k : Keyword} (h : c.next? = some (.keyword k)) :
    rule c = afterKeyword k c.advance := by
  rw [rule, Rule.peek_bind, h]
  rfl

lemma rule_defined {name : String} (h : c.next? = some (.identifier name)) :
    rule c = (definition >>= fun item => pure (some item)) c := by
  rw [rule, Rule.peek_bind, h]

lemma rule_other (hkeyword : ∀ k, c.next? ≠ some (.keyword k))
    (hname : ∀ name, c.next? ≠ some (.identifier name)) : rule c = .ok (none, c.advance) := by
  rw [rule, Rule.peek_bind]
  generalize c.next? = next at *
  split
  · exact absurd rfl (hkeyword _)
  · exact absurd rfl (hname _)
  · rfl

/-- **The rule for the top level takes just its pieces.** -/
theorem rule_eq_ok (hc : c.rest ≠ []) : rule c = .ok (item?, c') ↔
    ∃ ts, c.Passes ts c' ∧ Spelled ts item? ∧ Followed item? c'.rest := by
  obtain ⟨_ | ⟨t, rest⟩, last⟩ := c
  · exact absurd rfl hc
  have hnext : Cursor.next? ⟨t :: rest, last⟩ = some t.kind := rfl
  constructor
  · intro h
    cases hkind : t.kind with
    | keyword k =>
      rw [rule_keyword (hnext.trans (congrArg some hkind))] at h
      obtain ⟨ts, hpasses, hbehind, hfollowed⟩ := (accepts_afterKeyword k _ _ _).1 h
      exact ⟨t :: ts, ⟨rfl, hpasses⟩, .keyword hkind hbehind, (hbehind.followed_iff _).2 hfollowed⟩
    | identifier name =>
      rw [rule_defined (hnext.trans (congrArg some hkind))] at h
      obtain ⟨ts, hpasses, ⟨item, hdefined, rfl⟩, -⟩ := (accepts_definition.map some _ _ _).1 h
      refine ⟨ts, hpasses, .defined hdefined, fun declared hconstant => ?_⟩
      rw [Option.some.inj hconstant] at hdefined
      cases hdefined
    | _ =>
      rw [rule_other (by simp [hnext, hkind]) (by simp [hnext, hkind])] at h
      obtain ⟨rfl, rfl⟩ := Prod.mk.inj (Except.ok.inj h)
      exact ⟨[t], ⟨rfl, rfl⟩, .other (by simp [hkind]) (by simp [hkind]), by simp [Followed]⟩
  · rintro ⟨ts, hpasses, hspelled, hfollowed⟩
    cases hspelled with
    | @keyword t k ts _ ht hbehind =>
      rw [rule_keyword (by rw [hpasses.next?, ht])]
      exact (accepts_afterKeyword k _ _ _).2
        ⟨ts, hpasses.2, hbehind, (hbehind.followed_iff _).1 hfollowed⟩
    | @defined ts item hdefined =>
      obtain ⟨t, us, word, rfl, ht⟩ := hdefined.first
      rw [rule_defined (by rw [hpasses.next?, ht])]
      exact (accepts_definition.map some _ _ _).2 ⟨_, hpasses, ⟨item, hdefined, rfl⟩, trivial⟩
    | other hk hi =>
      rw [rule_other (by simpa [hpasses.next?] using hk) (by simpa [hpasses.next?] using hi), hpasses.2]

end Item

/-! ### Programs -/

namespace Program

/-- **The grammar of programs**: pieces of the top level one behind another. -/
inductive Derives : List Token → List Item → Prop
  | nil : Derives [] []
  | cons {ts us : List Token} {item? : Option Item} {items : List Item} (h : Item.Spelled ts item?)
    (hf : Item.Followed item? us) (hs : Derives us items) : Derives (ts ++ us) (item?.toList ++ items)

variable {c c' : Cursor} {items : List Item} {n : Nat}

lemma derives_of_sequence (hn : c.rest.length ≤ n) (h : Item.sequence n c = .ok (items, c')) :
    Derives c.rest items := by
  induction n generalizing c items with
  | zero =>
    obtain ⟨rfl, rfl⟩ := Prod.mk.inj (Except.ok.inj h)
    rw [List.length_eq_zero_iff.1 (Nat.le_zero.1 hn)]
    exact .nil
  | succ n ih =>
    rw [Item.sequence, Rule.remaining_bind] at h
    split at h
    · next hzero =>
      obtain ⟨rfl, rfl⟩ := Prod.mk.inj (Except.ok.inj h)
      rw [List.length_eq_zero_iff.1 hzero]
      exact .nil
    · next hne =>
      obtain ⟨item?, c₁, hitem, h⟩ := Rule.bind_eq_ok.1 h
      obtain ⟨later, c₂, hlater, h⟩ := Rule.bind_eq_ok.1 h
      obtain ⟨rfl, rfl⟩ := Prod.mk.inj (Except.ok.inj h)
      have hc : c.rest ≠ [] := fun hnil => hne (List.length_eq_zero_iff.2 hnil)
      obtain ⟨ts, hpasses, hspelled, hfollowed⟩ := (Item.rule_eq_ok hc).1 hitem
      have hrest := hpasses.rest_eq
      have hlength : c₁.rest.length ≤ n := by
        obtain ⟨t, us, rfl⟩ := hspelled.first
        simp only [hrest, List.length_append, List.length_cons] at hn
        omega
      rw [hrest]
      exact .cons hspelled hfollowed (ih hlength hlater)

lemma sequence_of_derives {ts : List Token} (hn : ts.length ≤ n) (hc : c.rest = ts)
    (h : Derives ts items) : ∃ c', Item.sequence n c = .ok (items, c') := by
  induction h generalizing c n with
  | nil =>
    refine ⟨c, ?_⟩
    cases n with
    | zero => rfl
    | succ n =>
      rw [Item.sequence, Rule.remaining_bind, hc]
      rfl
  | @cons ts us item? items hspelled hfollowed _ ih =>
    obtain ⟨t, vs, rfl⟩ := hspelled.first
    simp only [List.length_append, List.length_cons] at hn
    obtain ⟨n, rfl⟩ : ∃ m, n = m + 1 := ⟨n - 1, by omega⟩
    obtain ⟨last, hpasses⟩ := Cursor.exists_passes hc
    have hne : c.rest ≠ [] := by simp [hc]
    have hitem := (Item.rule_eq_ok hne).2 ⟨_, hpasses, hspelled, hfollowed⟩
    obtain ⟨c', hlater⟩ := ih (c := ⟨us, last⟩) (n := n) (by omega) rfl
    refine ⟨c', ?_⟩
    rw [Item.sequence, Rule.remaining_bind, if_neg (by simp [hc])]
    exact Rule.bind_eq_ok.2 ⟨item?, _, hitem, Rule.bind_eq_ok.2 ⟨items, c', hlater, rfl⟩⟩

/-- **The items of a token list are those that the grammar derives.** -/
theorem itemsOfTokens_eq_ok {ts : List Token} : itemsOfTokens ts = .ok items ↔ Derives ts items := by
  unfold itemsOfTokens
  constructor
  · intro h
    cases hsequence : Item.sequence ts.length (Cursor.start ts) with
    | error fault =>
      rw [hsequence] at h
      cases h
    | ok p =>
      rw [hsequence] at h
      obtain rfl := Except.ok.inj h
      exact derives_of_sequence (c := Cursor.start ts) le_rfl hsequence
  · intro h
    obtain ⟨c', hsequence⟩ := sequence_of_derives (c := Cursor.start ts) le_rfl rfl h
    have hsequence : Item.sequence ts.length (Cursor.start ts) = .ok (items, c') := hsequence
    rw [hsequence]
    rfl

end Program

end Shading
