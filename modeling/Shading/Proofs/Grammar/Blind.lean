import Shading.Proofs.Grammar.Accepts
import Shading.Proofs.Token.Layout

/-!
# What the rules do not see

Of a token a rule sees the kind, and of a number whether it is written with a point.  Where two token
lists look the same in this way, every rule reads the same from both, or stops for the same cause.

* `Rule.Blind` — what a rule reads depends on views only, and how rules are put together;
* `Expr.blind_rule`, `Statement.blind_rule`, `Item.blind_sequence` — this holds of all rules;
* `Program.itemsOfTokens_congr` — token lists that look the same are the same items;
* `Program.ofTokens_onLines` — layout does not change a program.
-/

namespace Shading

open Grammar

/-- How the tokens left look. -/
def Grammar.Cursor.views (c : Cursor) : List (Token.Kind × Bool) := c.rest.map Token.view

namespace Rule

variable {α β : Type} {r : Rule α} {k : α → Rule β}

/-- What is read, and how the tokens left look; or why reading stops. -/
def outcome : Except Fault (α × Cursor) → Except Cause (α × List (Token.Kind × Bool))
  | .ok (a, c) => .ok (a, c.views)
  | .error fault => .error fault.cause

/-- Before tokens that look the same, the rule does the same. -/
def Blind (r : Rule α) : Prop := ∀ c d : Cursor, c.views = d.views → outcome (r c) = outcome (r d)

namespace Blind

lemma pure (a : α) : Blind (pure a) := by
  intro c d h
  show Except.ok (a, c.views) = Except.ok (a, d.views)
  rw [h]

lemma stop (cause : Cause) : Blind (stop cause : Rule α) := fun _ _ _ => rfl

lemma bind (hr : Blind r) (hk : ∀ a, Blind (k a)) : Blind (r >>= k) := by
  intro c d h
  have hcd := hr c d h
  show outcome ((r c).bind fun p => k p.1 p.2) = outcome ((r d).bind fun p => k p.1 p.2)
  cases hc : r c with
  | error fault =>
    rw [hc] at hcd
    cases hd : r d with
    | error fault' =>
      rw [hd] at hcd
      exact congrArg Except.error (Except.error.inj hcd)
    | ok q =>
      rw [hd] at hcd
      cases hcd
  | ok p =>
    rw [hc] at hcd
    cases hd : r d with
    | error fault =>
      rw [hd] at hcd
      cases hcd
    | ok q =>
      rw [hd] at hcd
      obtain ⟨ha, hviews⟩ := Prod.mk.inj (Except.ok.inj hcd)
      show outcome (k p.1 p.2) = outcome (k q.1 q.2)
      rw [ha]
      exact hk q.1 p.2 q.2 hviews

end Blind

/-! ### Rules for one token -/

section

variable {c d : Cursor}

lemma map_kind_of_views (h : c.views = d.views) : c.rest.map Token.kind = d.rest.map Token.kind := by
  have hfst := congrArg (List.map Prod.fst) h
  unfold Cursor.views at hfst
  rwa [List.map_map, List.map_map] at hfst

lemma next?_of_views (h : c.views = d.views) : c.next? = d.next? := by
  unfold Cursor.next?
  rw [← List.head?_map, ← List.head?_map, map_kind_of_views h]

lemma second?_of_views (h : c.views = d.views) : c.second? = d.second? := by
  unfold Cursor.second?
  rw [← List.head?_map, ← List.head?_map, List.map_tail, List.map_tail, map_kind_of_views h]

lemma views_advance (c : Cursor) : c.advance.views = c.views.tail := by
  unfold Cursor.advance Cursor.views
  split
  · next hnil => rw [hnil]; rfl
  · next hcons => rw [hcons]; rfl

end

lemma blind_peek : Blind peek := by
  intro c d h
  show Except.ok (c.next?, c.views) = Except.ok (d.next?, d.views)
  rw [next?_of_views h, h]

lemma blind_peekSecond : Blind peekSecond := by
  intro c d h
  show Except.ok (c.second?, c.views) = Except.ok (d.second?, d.views)
  rw [second?_of_views h, h]

lemma blind_remaining : Blind remaining := by
  intro c d h
  have hlength := congrArg List.length (map_kind_of_views h)
  rw [List.length_map, List.length_map] at hlength
  show Except.ok (c.rest.length, c.views) = Except.ok (d.rest.length, d.views)
  rw [hlength, h]

lemma blind_advance : Blind advance := by
  intro c d h
  show Except.ok ((), c.advance.views) = Except.ok ((), d.advance.views)
  rw [views_advance, views_advance, h]

/-- Of the next token only the view may be used. -/
lemma blind_peekToken_bind {k : Option Token → Rule β} (hk : ∀ t?, Blind (k t?))
    (hview : ∀ t u, t.view = u.view → k (some t) = k (some u)) : Blind (peekToken >>= k) := by
  intro c d h
  rw [peekToken_bind, peekToken_bind]
  obtain ⟨rest, last⟩ := c
  obtain ⟨rest', last'⟩ := d
  cases rest with
  | nil =>
    obtain rfl : rest' = [] := List.map_eq_nil_iff.1 h.symm
    exact hk none _ _ h
  | cons t rest =>
    obtain ⟨u, us, rfl, hu, -⟩ := List.map_eq_cons_iff.1 h.symm
    rw [List.head?_cons, List.head?_cons, hview t u hu.symm]
    exact hk (some u) _ _ h

lemma blind_expect (m : Mark) : Blind (expect m) := by
  refine blind_peek.bind fun found => ?_
  split
  · exact blind_advance
  · exact .stop _

lemma blind_identifier : Blind identifier := by
  refine blind_peek.bind fun found => ?_
  split
  · exact blind_advance.bind fun _ => .pure _
  · exact .stop _

/-! ### Lists in parentheses -/

lemma blind_commaSeparated (hr : Blind r) (n : Nat) : Blind (commaSeparated r n) := by
  induction n with
  | zero => exact .pure _
  | succ n ih =>
    refine blind_peek.bind fun found => ?_
    split
    · exact .pure _
    · refine hr.bind fun x => blind_peek.bind fun found => ?_
      split
      · exact blind_advance.bind fun _ => ih.bind fun xs => .pure _
      · exact .pure _

lemma blind_parenthesised (hr : Blind r) : Blind (parenthesised r) := by
  refine (blind_expect _).bind fun _ => blind_remaining.bind fun n => ?_
  exact (blind_commaSeparated hr (n + 1)).bind fun xs => (blind_expect _).bind fun _ => .pure _

end Rule

open Rule (Blind)

/-! ### Expressions -/

lemma Primitive.blind_rule : Blind Primitive.rule := by
  refine Rule.blind_identifier.bind fun first => ?_
  dsimp only
  split
  · refine Rule.blind_identifier.bind fun word => ?_
    split
    · exact .pure _
    · exact .stop _
  · refine (Blind.pure _).bind fun word => ?_
    split
    · exact .pure _
    · exact .stop _

namespace Expr

variable {r : Rule Expr} {op? : Token.Kind → Option BinaryOp}

lemma blind_chain (hr : Blind r) (n : Nat) (left : Expr) : Blind (chain op? r n left) := by
  induction n generalizing left with
  | zero => exact .pure _
  | succ n ih =>
    refine Rule.blind_peek.bind fun found => ?_
    split
    · exact .pure _
    · exact Rule.blind_advance.bind fun _ => hr.bind fun right => ih _

lemma blind_level (hr : Blind r) : Blind (level op? r) :=
  hr.bind fun left => Rule.blind_remaining.bind fun n => blind_chain hr n left

lemma blind_levels (hr : Blind r) : Blind (levels r) :=
  blind_level (blind_level (blind_level (blind_level hr)))

lemma blind_construction (hr : Blind r) : Blind (construction r) :=
  Primitive.blind_rule.bind fun _ => (Rule.blind_parenthesised hr).bind fun _ => .pure _

lemma blind_grouping (hr : Blind r) : Blind (grouping r) :=
  (Rule.blind_expect _).bind fun _ => hr.bind fun _ => (Rule.blind_expect _).bind fun _ => .pure _

lemma blind_sampling (hr : Blind r) : Blind (sampling r) := by
  refine (Rule.blind_expect _).bind fun _ => Rule.blind_identifier.bind fun sampler => ?_
  refine (Rule.blind_expect _).bind fun _ => hr.bind fun value => ?_
  exact (Rule.blind_expect _).bind fun _ => .pure _

/-- This is where the point of a number is seen. -/
lemma blind_primary (hr : Blind r) : Blind (primary r) := by
  refine Rule.blind_peekToken_bind (fun token? => ?_) fun t u hview => ?_
  · split
    · split
      · exact Rule.blind_advance.bind fun _ => blind_sampling hr
      · exact blind_grouping hr
      · split
        · exact blind_construction hr
        · exact Rule.blind_advance.bind fun _ => .pure _
      · exact Rule.blind_advance.bind fun _ => .pure _
      · exact Rule.blind_advance.bind fun _ => .pure _
      · exact Rule.blind_advance.bind fun _ => .stop _
    · exact .stop _
  · have hkind : t.kind = u.kind := congrArg Prod.fst hview
    have hpoint := congrArg Prod.snd hview
    cases hk : u.kind with
    | number value =>
      simp only [Token.view, hkind, hk] at hpoint
      simp only [hkind, hk, hpoint]
    | mark m =>
      simp only [hkind, hk]
      cases m <;> rfl
    | keyword k =>
      simp only [hkind, hk]
      cases k <;> rfl
    | _ => simp only [hkind, hk]

lemma blind_prefixed {inner : Inner} (he : Blind inner.expression) (ho : Blind inner.operand) :
    Blind (prefixed inner) := by
  refine Rule.blind_peek.bind fun found => ?_
  split
  · exact Rule.blind_advance.bind fun _ => ho.bind fun _ => .pure _
  · exact blind_primary he

lemma blind_ofDepth (n : Nat) :
    Blind (Inner.ofDepth n).expression ∧ Blind (Inner.ofDepth n).operand := by
  induction n with
  | zero => exact ⟨.stop _, .stop _⟩
  | succ n ih =>
    have hprefixed := blind_prefixed ih.1 ih.2
    exact ⟨blind_levels hprefixed, hprefixed⟩

theorem blind_rule : Blind Expr.rule := (blind_ofDepth maxDepth).1

end Expr

/-! ### Declarations and statements -/

lemma Binding.blind_rule : Blind Binding.rule :=
  Primitive.blind_rule.bind fun _ => Rule.blind_identifier.bind fun _ => .pure _

lemma Constant.blind_rule : Blind Constant.rule := by
  refine Primitive.blind_rule.bind fun p => Rule.blind_identifier.bind fun name => ?_
  exact (Rule.blind_expect _).bind fun _ => Expr.blind_rule.bind fun _ => .pure _

namespace Statement

lemma blind_afterKeyword (k : Keyword) : Blind (afterKeyword k) := by
  cases k with
  | returns => exact Expr.blind_rule.bind fun _ => (Rule.blind_expect _).bind fun _ => .pure _
  | const => exact Constant.blind_rule.bind fun _ => (Rule.blind_expect _).bind fun _ => .pure _
  | _ => exact .stop _

lemma blind_evaluation : Blind evaluation := by
  refine Expr.blind_rule.bind fun value => Rule.blind_peek.bind fun found => ?_
  split
  · exact Rule.blind_advance.bind fun _ => .pure _
  · exact .stop _

theorem blind_rule : Blind Statement.rule := by
  refine Rule.blind_peek.bind fun found => Rule.blind_peekSecond.bind fun second => ?_
  split
  · exact Rule.blind_advance.bind fun _ => .pure _
  · exact Rule.blind_advance.bind fun _ => blind_afterKeyword _
  · refine Rule.blind_advance.bind fun _ => Rule.blind_advance.bind fun _ => ?_
    exact Expr.blind_rule.bind fun _ => (Rule.blind_expect _).bind fun _ => .pure _
  · exact blind_evaluation

lemma blind_sequence (n : Nat) : Blind (sequence n) := by
  induction n with
  | zero => exact .pure _
  | succ n ih =>
    refine Rule.blind_peek.bind fun found => ?_
    split
    · exact .stop _
    · exact .pure _
    · exact blind_rule.bind fun _ => ih.bind fun _ => .pure _

lemma blind_body : Blind body := by
  refine (Rule.blind_expect _).bind fun _ => Rule.blind_remaining.bind fun n => ?_
  exact (blind_sequence (n + 1)).bind fun _ => (Rule.blind_expect _).bind fun _ => .pure _

end Statement

/-! ### Programs -/

namespace Item

lemma blind_includePath : Blind includePath := by
  refine Rule.blind_peek.bind fun found => Rule.blind_advance.bind fun _ => ?_
  split
  · exact .pure _
  · exact .stop _

lemma blind_afterKeyword (k : Keyword) : Blind (afterKeyword k) := by
  cases k with
  | includeFile => exact blind_includePath.bind fun _ => .pure _
  | shaderType => exact Rule.blind_identifier.bind fun _ => .pure _
  | uniform | varying => exact Binding.blind_rule.bind fun _ => .pure _
  | const => exact Constant.blind_rule.bind fun _ => .pure _
  | sample => exact (Expr.blind_sampling Expr.blind_rule).bind fun _ => .pure _
  | _ => exact .stop _

lemma blind_definition : Blind definition := by
  refine Primitive.blind_rule.bind fun returned => Rule.blind_identifier.bind fun name => ?_
  refine (Rule.blind_parenthesised Binding.blind_rule).bind fun parameters => ?_
  refine Statement.blind_body.bind fun body => ?_
  split
  · exact .pure _
  · split
    · exact .pure _
    · exact .stop _

lemma blind_rule : Blind Item.rule := by
  refine Rule.blind_peek.bind fun found => ?_
  split
  · exact Rule.blind_advance.bind fun _ => blind_afterKeyword _
  · exact blind_definition.bind fun _ => .pure _
  · exact Rule.blind_advance.bind fun _ => .pure _

theorem blind_sequence (n : Nat) : Blind (sequence n) := by
  induction n with
  | zero => exact .pure _
  | succ n ih =>
    refine Rule.blind_remaining.bind fun left => ?_
    split
    · exact .pure _
    · exact blind_rule.bind fun _ => ih.bind fun _ => .pure _

end Item

/-- What is read, without the tokens left. -/
lemma Rule.mapError_map_fst {α : Type} (x : Except Fault (α × Cursor)) :
    (Prod.fst <$> x).mapError Fault.cause = Prod.fst <$> outcome x := by
  cases x <;> rfl

/-- **Token lists that look the same are the same items**, or fail for the same cause. -/
theorem Program.itemsOfTokens_congr {ts us : List Token}
    (h : ts.map Token.view = us.map Token.view) :
    (itemsOfTokens ts).mapError Fault.cause = (itemsOfTokens us).mapError Fault.cause := by
  have hlength := congrArg List.length h
  rw [List.length_map, List.length_map] at hlength
  unfold itemsOfTokens
  rw [Rule.mapError_map_fst, Rule.mapError_map_fst, hlength,
    Item.blind_sequence us.length (Cursor.start ts) (Cursor.start us) h]

namespace Program

/-- Token lists that look the same are the same program, or fail for the same cause. -/
lemma ofTokens_congr {ts us : List Token} (h : ts.map Token.view = us.map Token.view) :
    (∃ p, ofTokens ts = .ok p ∧ ofTokens us = .ok p) ∨
      ∃ fault fault', ofTokens ts = .error fault ∧ ofTokens us = .error fault' ∧
        fault.cause = fault'.cause := by
  have hitems := itemsOfTokens_congr h
  unfold ofTokens
  cases hts : itemsOfTokens ts with
  | ok items =>
    rw [hts] at hitems
    cases hus : itemsOfTokens us with
    | ok items' =>
      rw [hus] at hitems
      obtain rfl : items = items' := Except.ok.inj hitems
      exact .inl ⟨ofItems items, rfl, rfl⟩
    | error fault =>
      rw [hus] at hitems
      cases hitems
  | error fault =>
    rw [hts] at hitems
    cases hus : itemsOfTokens us with
    | ok items =>
      rw [hus] at hitems
      cases hitems
    | error fault' =>
      rw [hus] at hitems
      exact .inr ⟨fault, fault', rfl, rfl, Except.error.inj hitems⟩

/-- **Layout does not change a program.**  The characters of the tokens of a source, each token on a line
of its own, are read as tokens of the same kinds.  Both token lists are the same program, or reading stops
in both for the same cause, and so with the same message.  The last line may be terminated or not. -/
theorem ofTokens_onLines {source ending : String} {ts : List Token} (h : tokenize source = .ok ts)
    (hending : ending = "" ∨ ending = "\n") :
    ∃ ts', tokenize ("\n".intercalate (ts.map Token.lexeme) ++ ending) = .ok ts' ∧
      ts'.map Token.kind = ts.map Token.kind ∧
      ((∃ p, ofTokens ts = .ok p ∧ ofTokens ts' = .ok p) ∨
        ∃ fault fault', ofTokens ts = .error fault ∧ ofTokens ts' = .error fault' ∧
          fault.cause = fault'.cause) := by
  obtain ⟨ts', hts', hviews⟩ := tokenize_onLines h hending
  refine ⟨ts', hts', ?_, ofTokens_congr hviews.symm⟩
  have hkinds := congrArg (List.map Prod.fst) hviews
  rwa [List.map_map, List.map_map] at hkinds

/-- The carriage return ends a comment here, and the terminator of its line there. -/
theorem ofTokens_onLines_return :
    let ts : List Token := [⟨.keyword .const, ⟨0, 5, 1, 1⟩, "const"⟩,
      ⟨.identifier "int", ⟨6, 9, 1, 7⟩, "int"⟩, ⟨.identifier "k", ⟨10, 11, 1, 11⟩, "k"⟩,
      ⟨.mark .equal, ⟨11, 12, 1, 12⟩, "="⟩, ⟨.string "a", ⟨12, 15, 1, 13⟩, "\"a\""⟩,
      ⟨.comment "b", ⟨15, 20, 1, 16⟩, "// b\r"⟩]
    tokenize "const int k=\"a\"// b\r" = .ok ts ∧
      ∃ ts', tokenize ("\n".intercalate (ts.map Token.lexeme) ++ "\n") = .ok ts' ∧
        ts'.map Token.kind = ts.map Token.kind ∧
        ((∃ p, ofTokens ts = .ok p ∧ ofTokens ts' = .ok p) ∨
          ∃ fault fault', ofTokens ts = .error fault ∧ ofTokens ts' = .error fault' ∧
            fault.cause = fault'.cause) := by
  intro ts
  have hts : tokenize "const int k=\"a\"// b\r" = .ok ts := by decide +kernel
  exact ⟨hts, ofTokens_onLines hts (.inr rfl)⟩

end Program

end Shading
