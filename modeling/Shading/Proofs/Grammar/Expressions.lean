import Shading.Proofs.Grammar.Declared

/-!
# The expressions of a program

All expressions that stand in a program: the values of its constants and what stands in the statements
of its bodies.  Each of them was read by the rule for whole expressions.

* `Program.expressions` — the expressions of a program;
* `Program.Derives.whole` — each is a whole expression of the grammar;
* `Program.Parsed.expressions` — each has the shape of one that is read.
-/

namespace Shading

/-- The expressions that stand in a statement, apart from those of the statements inside it. -/
def Statement.expressions : Statement → List Expr
  | .constant declared => [declared.value]
  | .assign _ value => [value]
  | .returns value => [value]
  | .expression value => [value]
  | .branch condition _ _ => [condition]
  | .whileLoop condition _ => [condition]
  | .forLoop condition _ => [condition]
  | _ => []

/-- The expressions that stand in a program: in its constants and in the statements of its bodies. -/
def Program.expressions (p : Program) : List Expr :=
  p.constants.map (·.value) ++ p.statements.flatMap Statement.expressions

lemma Program.mem_expressions {p : Program} {e : Expr} : e ∈ p.expressions ↔
    (∃ declared ∈ p.constants, e = declared.value) ∨ ∃ s ∈ p.statements, e ∈ s.expressions := by
  simp [expressions, eq_comm]

lemma Program.mem_statements {p : Program} {s : Statement} : s ∈ p.statements ↔
    (∃ f ∈ p.functions, s ∈ Statement.withinAll f.body) ∨
      ∃ stage ∈ p.stages, s ∈ Statement.withinAll stage.body := by
  simp [statements]

/-! ### As the grammar derives them -/

section

variable {ts : List Token} {s : Statement} {statements : List Statement} {item : Item} {item? : Option Item}
  {items : List Item}

lemma Statement.Spelled.whole (h : Statement.Spelled ts s) : ∀ e ∈ s.expressions, ∃ us, e.Whole us := by
  cases h with
  | comment => simp [expressions]
  | constant _ h =>
    obtain ⟨us, _, declared, -, hd, -, rfl⟩ := h
    obtain ⟨-, -, -, hv⟩ := hd
    simpa [expressions] using ⟨_, hv⟩
  | returns _ h | assign _ _ h | expression _ h =>
    obtain ⟨us, _, value, -, hv, -, rfl⟩ := h
    simpa [expressions] using ⟨_, hv⟩

lemma Statement.Block.whole (h : Block ts statements) :
    ∀ s ∈ statements, ∀ e ∈ s.expressions, ∃ us, e.Whole us := by
  induction h with
  | nil => simp
  | cons h _ ih => exact List.forall_mem_cons.2 ⟨h.whole, ih⟩

/-- The expressions of an item are whole ones, in its body and as the value of a constant. -/
lemma Item.Spelled.whole (h : Item.Spelled ts item?) : ∀ item ∈ item?,
    (∀ s ∈ item.body, ∀ e ∈ s.expressions, ∃ us, e.Whole us) ∧
      ∀ declared, item = .constant declared → ∃ us, declared.value.Whole us := by
  intro item hitem
  cases h with
  | keyword _ h =>
    refine ⟨by simp [(h.keyword? item hitem).2], ?_⟩
    rintro declared rfl
    cases h with
    | constant hd =>
      obtain rfl := Item.constant.inj (Option.some.inj hitem)
      obtain ⟨-, -, -, hv⟩ := hd
      exact ⟨_, hv⟩
    | _ => cases hitem
  | defined h =>
    obtain rfl := Option.some.inj hitem
    cases h with
    | function _ _ _ hb =>
      obtain ⟨_, _, _, -, -, -, hblock⟩ := hb
      exact ⟨hblock.whole, by simp⟩
    | stage _ _ _ hb =>
      obtain ⟨_, _, _, -, -, -, hblock⟩ := hb
      exact ⟨hblock.whole, by simp⟩
  | other => cases hitem

namespace Program

lemma Derives.whole_items (h : Derives ts items) : ∀ item ∈ items,
    (∀ s ∈ item.body, ∀ e ∈ s.expressions, ∃ us, e.Whole us) ∧
      ∀ declared, item = .constant declared → ∃ us, declared.value.Whole us := by
  induction h with
  | nil => simp
  | cons h _ _ ih =>
    exact List.forall_mem_append.2 ⟨fun item hitem => h.whole item (Option.mem_toList.1 hitem), ih⟩

/-- A statement of a program stands in the body of one of its items. -/
lemma Derives.exists_item (h : Derives ts items) (hs : s ∈ (ofItems items).statements) :
    ∃ item ∈ items, s ∈ item.body := by
  rcases mem_statements.1 hs with ⟨f, hf, hs⟩ | ⟨stage, hstage, hs⟩
  · obtain ⟨item, hitem, hof⟩ := List.mem_filterMap.1 hf
    cases item <;> cases hof
    exact ⟨_, hitem, by rwa [← h.within _ hitem]⟩
  · obtain ⟨item, hitem, hof⟩ := List.mem_filterMap.1 hstage
    cases item <;> cases hof
    exact ⟨_, hitem, by rwa [← h.within _ hitem]⟩

/-- **Every expression of a program is a whole expression of the grammar.** -/
theorem Derives.whole (h : Derives ts items) : ∀ e ∈ (ofItems items).expressions, ∃ us, e.Whole us := by
  intro e he
  rcases mem_expressions.1 he with ⟨declared, hd, rfl⟩ | ⟨s, hs, he⟩
  · obtain ⟨item, hitem, hof⟩ := List.mem_filterMap.1 hd
    cases item <;> cases hof
    exact (h.whole_items _ hitem).2 declared rfl
  · obtain ⟨item, hitem, hs⟩ := h.exists_item hs
    exact (h.whole_items item hitem).1 s hs e he

end Program

end

/-! ### As the rules read them -/

section

variable {T : Token → Prop} {s : Statement} {p : Program}

lemma Statement.Parsed.expressions (h : s.Parsed T) : ∀ e ∈ s.expressions, e.Parsed T := by
  cases h with
  | comment => simp [Statement.expressions]
  | constant hd => simpa [Statement.expressions] using hd.value
  | returns hv | assign _ hv | expression hv => simpa [Statement.expressions] using hv

/-- No statement stands inside another. -/
lemma Statement.withinAll_of_parsed {statements : List Statement} (h : ∀ s ∈ statements, s.Parsed T) :
    withinAll statements = statements := by
  induction statements with
  | nil => rfl
  | cons s statements ih =>
    obtain ⟨hs, hstatements⟩ := List.forall_mem_cons.1 h
    have hwithin : s.within = [s] := by cases hs <;> rfl
    rw [withinAll, hwithin, ih hstatements, List.singleton_append]

lemma Program.Parsed.statements (h : p.Parsed T) : ∀ s ∈ p.statements, s.Parsed T := by
  intro s hs
  rcases mem_statements.1 hs with ⟨f, hf, hs⟩ | ⟨stage, hstage, hs⟩
  · have hbody := (h.functions f hf).body
    rw [Statement.withinAll_of_parsed hbody] at hs
    exact hbody s hs
  · have hbody := (h.stages stage hstage).body
    rw [Statement.withinAll_of_parsed hbody] at hs
    exact hbody s hs

lemma Program.Parsed.expressions (h : p.Parsed T) : ∀ e ∈ p.expressions, e.Parsed T := by
  intro e he
  rcases mem_expressions.1 he with ⟨declared, hd, rfl⟩ | ⟨s, hs, he⟩
  · exact (h.constants declared hd).value
  · exact (h.statements s hs).expressions e he

end

end Shading
