import Mathlib.Data.List.Forall2
import Mathlib.Data.List.Induction
import Shading.Proofs.Grammar.Joined

/-!
# Nothing declared is lost

The top level passes over every token that begins no item.  Still a program that is read declares
something for each keyword in its tokens: what a declaring keyword introduces is read from the tokens
right behind it, and the keywords of statements are those of the statements.

* `Keyword.behind` — what stands behind each token of a keyword;
* `Item.Introduced` — the items of a keyword are read from the tokens behind it;
* `Program.Derives.introduced` — in the whole program, one for each such token, in order;
* `Program.Derives.count_eq` — the keywords of a program, item by item and statement by statement;
* `Program.accounts_of_ofTokens` — what a program has for the keywords of its tokens.
-/

namespace Shading

/-- What stands behind each token of this keyword, from the first such token to the last. -/
def Keyword.behind (k : Keyword) : List Token → List (List Token)
  | [] => []
  | t :: ts => if t.kind = .keyword k then ts :: k.behind ts else k.behind ts

/-- This is read from the first tokens. -/
def Front {α : Type} (L : List Token → α → Prop) (us : List Token) (a : α) : Prop :=
  ∃ ts rest, us = ts ++ rest ∧ L ts a

/-- The token is a string. -/
def Token.IsString (ts : List Token) (text : String) : Prop := ∃ t, ts = [t] ∧ t.kind = .string text

/-- The token is an identifier. -/
def Token.IsIdentifier (ts : List Token) (name : String) : Prop :=
  ∃ t, ts = [t] ∧ t.kind = .identifier name

mutual

/-- The statement and all that are inside it. -/
def Statement.within : Statement → List Statement
  | .branch condition yes no =>
    .branch condition yes no :: (Statement.withinAll yes ++ Statement.withinAll no)
  | .whileLoop condition body => .whileLoop condition body :: Statement.withinAll body
  | .forLoop condition body => .forLoop condition body :: Statement.withinAll body
  | .function returned name parameters body =>
    .function returned name parameters body :: Statement.withinAll body
  | .stage kind parameters body => .stage kind parameters body :: Statement.withinAll body
  | s => [s]

/-- The statements and all that are inside them. -/
def Statement.withinAll : List Statement → List Statement
  | [] => []
  | s :: ss => s.within ++ Statement.withinAll ss

end

namespace Program

/-- All statements of the bodies of a program, at any depth. -/
def statements (p : Program) : List Statement :=
  p.functions.flatMap (fun f => Statement.withinAll f.body) ++
    p.stages.flatMap fun stage => Statement.withinAll stage.body

/-- What a program has for the keywords of its tokens. -/
structure Accounts (ts : List Token) (p : Program) : Prop where
  /-- The uniforms are what can be read behind the tokens of their keyword. -/
  uniforms : ∀ bindings,
    List.Forall₂ (Front Binding.Spelled) (Keyword.behind .uniform ts) bindings ↔ bindings = p.uniforms
  /-- The varyings are what can be read behind the tokens of their keyword. -/
  varyings : ∀ bindings,
    List.Forall₂ (Front Binding.Spelled) (Keyword.behind .varying ts) bindings ↔ bindings = p.varyings
  /-- The included files are the strings behind their keyword, each where it is first. -/
  includes : ∃ paths, List.Forall₂ (Front Token.IsString) (Keyword.behind .includeFile ts) paths ∧
    p.includes.toList = paths.eraseDups
  /-- The type is the identifier behind the first token of its keyword. -/
  shaderType : ∃ types, List.Forall₂ (Front Token.IsIdentifier) (Keyword.behind .shaderType ts) types ∧
    p.shaderType = types.head?.getD "none"
  /-- Each keyword of a constant is that of one at the top level or of one in a body. -/
  consts : Keyword.count .const ts =
    p.constants.length + p.statements.countP fun s => s matches .constant _
  /-- Each keyword of a return is that of a statement. -/
  returns : Keyword.count .returns ts = p.statements.countP fun s => s matches .returns _
  /-- No keyword is that of control flow. -/
  noControl : Keyword.count .ifThen ts = 0 ∧ Keyword.count .whileLoop ts = 0 ∧
    Keyword.count .forLoop ts = 0

end Program

/-! ### Behind a keyword -/

namespace Keyword

variable {k : Keyword} {ts : List Token}

lemma behind_append (k : Keyword) (ts us : List Token) :
    k.behind (ts ++ us) = (k.behind ts).map (· ++ us) ++ k.behind us := by
  induction ts with
  | nil => rfl
  | cons t ts ih =>
    simp only [List.cons_append, behind, ih]
    split <;> simp

lemma length_behind (k : Keyword) (ts : List Token) : (k.behind ts).length = k.count ts := by
  induction ts with
  | nil => rfl
  | cons t ts ih =>
    rw [behind, count_cons]
    split <;> simp [ih]

lemma behind_eq_nil (h : k.count ts = 0) : k.behind ts = [] :=
  List.eq_nil_of_length_eq_zero (by rw [length_behind, h])

end Keyword

lemma Front.append {α : Type} {L : List Token → α → Prop} {us : List Token} {a : α}
    (h : Front L us a) (vs : List Token) : Front L (us ++ vs) a := by
  obtain ⟨ts, rest, rfl, ha⟩ := h
  exact ⟨ts, rest ++ vs, by simp, ha⟩

/-- Only one type can be read at the front, and its tokens are fixed. -/
lemma Primitive.Spelled.front_unique {p q : Primitive} {ts us vs ws : List Token} (hp : p.Spelled ts)
    (hq : q.Spelled us) (h : ts ++ vs = us ++ ws) : p = q ∧ vs = ws := by
  -- a word is a type or a precision, and not both
  have hdiffer : ∀ {t : Token} {word first : String} {precision : Precision} {r : Primitive},
      t.kind = .identifier word → ofWord? word none = some r → t.kind = .identifier first →
      Precision.ofWord? first = some precision → False := by
    intro t word first precision r hword hr hfirst hprecision
    obtain rfl : word = first := Token.Kind.identifier.inj (hword.symm.trans hfirst)
    rw [ofWord?_precision hprecision] at hr
    cases hr
  cases hp with
  | plain ht hp =>
    cases hq with
    | plain hu hq =>
      obtain ⟨rfl, rfl⟩ := List.cons.inj h
      obtain rfl := Token.Kind.identifier.inj (ht.symm.trans hu)
      exact ⟨Option.some.inj (hp.symm.trans hq), rfl⟩
    | precise hu hfirst =>
      obtain ⟨rfl, -⟩ := List.cons.inj h
      exact (hdiffer ht hp hu hfirst).elim
  | precise ht hfirst ht' hp =>
    cases hq with
    | plain hu hq =>
      obtain ⟨rfl, -⟩ := List.cons.inj h
      exact (hdiffer hu hq ht hfirst).elim
    | precise hu hfirst' hu' hq =>
      obtain ⟨rfl, rfl, rfl⟩ := by simpa using h
      obtain rfl := Token.Kind.identifier.inj (ht.symm.trans hu)
      obtain rfl := Token.Kind.identifier.inj (ht'.symm.trans hu')
      obtain rfl := Option.some.inj (hfirst.symm.trans hfirst')
      exact ⟨Option.some.inj (hp.symm.trans hq), rfl⟩

/-- Only one type and name can be read at the front. -/
lemma Binding.Spelled.front_unique {us : List Token} {b c : Binding} (hb : Front Binding.Spelled us b)
    (hc : Front Binding.Spelled us c) : b = c := by
  obtain ⟨_, rest, rfl, hb⟩ := hb
  obtain ⟨_, rest', h, hc⟩ := hc
  obtain ⟨hp, hn⟩ := hb
  obtain ⟨hq, hm⟩ := hc
  rw [List.append_assoc, List.append_assoc] at h
  obtain ⟨hprimitive, h⟩ := hp.front_unique hq h
  obtain ⟨rfl, -⟩ := List.cons.inj h
  have hname := Token.Kind.identifier.inj (hn.symm.trans hm)
  cases b
  cases c
  simp_all

/-- What is read behind the tokens of the keyword is fixed, if each reading is. -/
lemma forall₂_front_unique {α : Type} {L : List Token → α → Prop} {behind : List (List Token)} {as : List α}
    (hL : ∀ {us a b}, Front L us a → Front L us b → a = b) (h : List.Forall₂ (Front L) behind as)
    (bs : List α) : List.Forall₂ (Front L) behind bs ↔ bs = as := by
  constructor
  · intro hbs
    induction h generalizing bs with
    | nil => exact List.forall₂_nil_left_iff.1 hbs
    | cons ha _ ih =>
      cases hbs with
      | cons hb hbs => rw [hL hb ha, ih _ hbs]
  · rintro rfl
    exact h

/-! ### Items behind their keywords -/

namespace Item

variable {α : Type} {k : Keyword} {L : List Token → α → Prop} {of? : Item → Option α}

/-- The items of a keyword that begins no statement are read from the tokens behind it. -/
structure Introduced (k : Keyword) (L : List Token → α → Prop) (of? : Item → Option α) : Prop where
  ne_sample : k ≠ .sample
  statement : ∀ s : Statement, s.keyword? ≠ some k
  behind : ∀ {ts item?}, Behind k ts item? → ∃ item a, item? = some item ∧ of? item = some a ∧ L ts a
  other : ∀ item, item.keyword? ≠ some k → of? item = none

lemma introduced_uniform : Introduced .uniform Binding.Spelled Program.uniformOf? where
  ne_sample := by decide
  statement s := by cases s <;> simp [Statement.keyword?]
  behind h := by cases h with | uniform hb => exact ⟨_, _, rfl, rfl, hb⟩
  other item h := by cases item <;> first | rfl | exact absurd rfl h

lemma introduced_varying : Introduced .varying Binding.Spelled Program.varyingOf? where
  ne_sample := by decide
  statement s := by cases s <;> simp [Statement.keyword?]
  behind h := by cases h with | varying hb => exact ⟨_, _, rfl, rfl, hb⟩
  other item h := by cases item <;> first | rfl | exact absurd rfl h

lemma introduced_include : Introduced .includeFile Token.IsString Program.includePath? where
  ne_sample := by decide
  statement s := by cases s <;> simp [Statement.keyword?]
  behind h := by cases h with | includeFile ht => exact ⟨_, _, rfl, rfl, _, rfl, ht⟩
  other item h := by cases item <;> first | rfl | exact absurd rfl h

lemma introduced_shaderType : Introduced .shaderType Token.IsIdentifier Program.typeOf? where
  ne_sample := by decide
  statement s := by cases s <;> simp [Statement.keyword?]
  behind h := by cases h with | shaderType ht => exact ⟨_, _, rfl, rfl, _, rfl, ht⟩
  other item h := by cases item <;> first | rfl | exact absurd rfl h

/-- A piece of the top level has the keyword just where it introduces an item. -/
lemma Spelled.introduced {ts : List Token} {item? : Option Item} (h : Item.Spelled ts item?)
    (hk : Introduced k L of?) :
    List.Forall₂ (Front L) (k.behind ts) (item?.toList.filterMap of?) := by
  cases h with
  | @keyword t k' us _ ht hbehind =>
    have hinside : k.behind us = [] :=
      Keyword.behind_eq_nil (Keyword.count_of_plain hk.ne_sample hbehind.plain)
    by_cases hsame : k' = k
    · subst hsame
      obtain ⟨item, a, rfl, ha, hL⟩ := hk.behind hbehind
      have hfront : Front L us a := ⟨us, [], by simp, hL⟩
      simpa [Keyword.behind, ht, hinside, ha] using hfront
    · have hnone : item?.toList.filterMap of? = [] := by
        refine List.filterMap_eq_nil_iff.2 fun item hitem => hk.other item fun hkeyword => hsame ?_
        have hk' := (hbehind.keyword? item (Option.mem_toList.1 hitem)).1
        exact Option.some.inj (hk'.symm.trans hkeyword)
      simp [Keyword.behind, ht, hsame, hinside, hnone]
  | @defined _ item hdefined =>
    have hkeyword := hdefined.keyword?
    have hcount := hdefined.count hk.ne_sample
    have hzero : k.count ts = 0 := by simp [hcount, countOf, hkeyword, hk.statement]
    simp [Keyword.behind_eq_nil hzero, hk.other item (by simp [hkeyword])]
  | other hkeyword => simp [Keyword.behind, hkeyword]

end Item

namespace Program

open List (Forall₂)

variable {ts : List Token} {items : List Item} {p : Program}

/-- **Behind each token of the keyword stands what is declared, in order.** -/
theorem Derives.introduced {α : Type} {k : Keyword} {L : List Token → α → Prop} {of? : Item → Option α}
    (h : Derives ts items) (hk : Item.Introduced k L of?) :
    Forall₂ (Front L) (k.behind ts) (items.filterMap of?) := by
  induction h with
  | nil => exact .nil
  | @cons ts us item? items h _ _ ih =>
    rw [Keyword.behind_append, List.filterMap_append]
    have hfirst : Forall₂ (Front L) ((k.behind ts).map (· ++ us)) (item?.toList.filterMap of?) :=
      List.forall₂_map_left_iff.2 ((h.introduced hk).imp fun _ _ hfront => hfront.append us)
    exact List.rel_append hfirst ih

end Program

/-! ### Keywords of statements -/

section

variable {ts : List Token} {s : Statement} {statements : List Statement} {item : Item} {item? : Option Item}
  {items : List Item}

/-- A statement that is read has no other inside. -/
lemma Statement.Spelled.within (h : Statement.Spelled ts s) : s.within = [s] := by
  cases h with
  | comment => rfl
  | returns _ h | constant _ h | assign _ _ h | expression _ h =>
    obtain ⟨_, rfl⟩ := h.exists_eq
    rfl

lemma Statement.Block.within (h : Block ts statements) : withinAll statements = statements := by
  induction h with
  | nil => rfl
  | cons h _ ih => rw [withinAll, h.within, ih, List.singleton_append]

lemma Statement.Braced.within (h : Braced ts statements) : withinAll statements = statements := by
  obtain ⟨_, _, _, _, _, _, hblock⟩ := h
  exact hblock.within

lemma Item.Spelled.within (h : Item.Spelled ts item?) :
    ∀ item ∈ item?, Statement.withinAll item.body = item.body := by
  cases h with
  | keyword _ h =>
    intro item hitem
    rw [(h.keyword? item hitem).2]
    rfl
  | defined h =>
    intro item hitem
    obtain rfl := Option.some.inj hitem
    cases h with
    | function _ _ _ hb => exact hb.within
    | stage _ _ _ hb => exact hb.within
  | other => simp

namespace Program

lemma Derives.within (h : Derives ts items) :
    ∀ item ∈ items, Statement.withinAll item.body = item.body := by
  induction h with
  | nil => simp
  | cons h _ _ ih =>
    exact List.forall_mem_append.2 ⟨fun item hitem => h.within item (Option.mem_toList.1 hitem), ih⟩

/-- An item adds the statements of its body. -/
lemma countP_statements_cons (q : Statement → Bool) (item : Item) (items : List Item) :
    (ofItems (item :: items)).statements.countP q =
      (Statement.withinAll item.body).countP q + (ofItems items).statements.countP q := by
  cases item with
  | function f =>
    simp [statements, ofItems, functionOf?, stageOf?, Item.body, List.filterMap_cons]
  | stage declared =>
    simp [statements, ofItems, functionOf?, stageOf?, Item.body, List.filterMap_cons, Nat.add_left_comm]
  | _ =>
    simp [statements, ofItems, functionOf?, stageOf?, Item.body, List.filterMap_cons, Statement.withinAll]

/-- **The keywords of a program are those of its items and those of the statements in its bodies.** -/
theorem Derives.count_eq {k : Keyword} (h : Derives ts items) (hk : k ≠ .sample) :
    k.count ts = items.countP (·.keyword? = some k) +
      (ofItems items).statements.countP (·.keyword? = some k) := by
  have hwithin := h.within
  rw [h.count hk]
  clear h
  induction items with
  | nil => rfl
  | cons item items ih =>
    obtain ⟨hitem, hitems⟩ := List.forall_mem_cons.1 hwithin
    rw [List.map_cons, List.sum_cons, ih hitems, countP_statements_cons, hitem, List.countP_cons,
      Item.countOf]
    simp only [decide_eq_true_eq]
    omega

/-! ### What is read for all keywords -/

lemma toList_ofList (paths : List String) : (PathSet.ofList paths).toList = paths.eraseDups := by
  induction paths using List.reverseRecOn with
  | nil => rfl
  | append_singleton paths path ih =>
    have hinsert : PathSet.ofList (paths ++ [path]) = (PathSet.ofList paths).insert path :=
      PathSet.insertAll_append ∅ paths [path]
    rw [hinsert, PathSet.toList_insert, ih, List.eraseDups_append]
    have hsingle : [path].eraseDups = [path] := rfl
    by_cases hmem : path ∈ paths <;> simp [List.removeAll, List.mem_eraseDups, hmem, hsingle]

/-- **Nothing declared is lost.**  A program that is read accounts for every keyword of its tokens. -/
theorem accounts_of_ofTokens (h : ofTokens ts = .ok p) : Accounts ts p := by
  obtain ⟨items, hitems, rfl⟩ := ofTokens_eq_ok.1 h
  have hconstants : items.countP (·.keyword? = some .const) = (ofItems items).constants.length := by
    refine (List.countP_congr fun item _ => ?_).trans List.length_filterMap_eq_countP.symm
    cases item <;> simp [constantOf?, Item.keyword?]
  have hcontrol : ∀ k, k ≠ .sample → (∀ item : Item, item.keyword? ≠ some k) →
      (∀ s : Statement, s.keyword? ≠ some k) → Keyword.count k ts = 0 := by
    intro k hsample hitem hstatement
    simp [hitems.count_eq hsample, hitem, hstatement]
  constructor
  case uniforms =>
    exact forall₂_front_unique Binding.Spelled.front_unique (hitems.introduced Item.introduced_uniform)
  case varyings =>
    exact forall₂_front_unique Binding.Spelled.front_unique (hitems.introduced Item.introduced_varying)
  case includes => exact ⟨_, hitems.introduced Item.introduced_include, toList_ofList _⟩
  case shaderType =>
    refine ⟨_, hitems.introduced Item.introduced_shaderType, ?_⟩
    rw [List.head?_filterMap]
    rfl
  case consts =>
    rw [hitems.count_eq (by decide), hconstants]
    congr 1
    exact List.countP_congr fun s _ => by cases s <;> simp [Statement.keyword?]
  case returns =>
    have hitem : ∀ item : Item, item.keyword? ≠ some .returns := by
      intro item
      cases item <;> simp [Item.keyword?]
    rw [hitems.count_eq (by decide)]
    simp only [hitem, decide_false, List.countP_false, Function.const, Nat.zero_add]
    exact List.countP_congr fun s _ => by cases s <;> simp [Statement.keyword?]
  case noControl =>
    refine ⟨hcontrol _ (by decide) ?_ ?_, hcontrol _ (by decide) ?_ ?_, hcontrol _ (by decide) ?_ ?_⟩
    all_goals
      intro part
      cases part <;> simp [Item.keyword?, Statement.keyword?]

/-- A file is included twice, a semicolon is passed over, and a body declares a constant. -/
theorem accounts_of_ofTokens_body :
    let token (kind : Token.Kind) : Token := ⟨kind, ⟨0, 0, 1, 1⟩, ""⟩
    let ts : List Token := [.keyword .includeFile, .string "a", .keyword .includeFile, .string "a",
      .keyword .uniform, .identifier "highp", .identifier "int", .identifier "u", .mark .semicolon,
      .identifier "int", .identifier "f", .mark .leftParen, .mark .rightParen, .mark .leftBrace,
      .keyword .const, .identifier "int", .identifier "c", .mark .equal, .identifier "u", .mark .semicolon,
      .keyword .returns, .identifier "c", .mark .semicolon, .mark .rightBrace].map token
    let p : Program := {
      includes := .ofList ["a"]
      uniforms := [⟨{ kind := .int, precision := some .high }, "u"⟩]
      functions := [{
        returned := { kind := .int }
        name := "f"
        parameters := []
        body := [.constant ⟨{ kind := .int }, "c", .symbol "u"⟩, .returns (.symbol "c")] }] }
    ofTokens ts = .ok p ∧ Accounts ts p := by
  intro token ts p
  have h : ofTokens ts = .ok p := by rfl
  exact ⟨h, accounts_of_ofTokens h⟩

end Program

end

end Shading
