import Shading.Proofs.Grammar.Programs

/-!
# Where keywords stand

A keyword, but for that of a sampling, stands only at the front of its own item or statement: none is
inside a type, an expression or a list of parameters, and none is passed over.  So the keywords of a
program can be counted on what it declares.

* `Token.Plain` — the tokens behind the front of an item or a statement;
* `Statement.keyword?`, `Item.keyword?` — the keyword at the front;
* `Statement.Spelled.front`, `Item.Behind.plain` — no other keyword is inside;
* `Program.Derives.count` — the keywords of a program are those of its items and of their statements.
-/

namespace Shading

/-- If the token is a keyword, it is that of a sampling. -/
def Token.Plain (t : Token) : Prop := ∀ k, t.kind = .keyword k → k = .sample

/-- How many of the tokens are this keyword. -/
def Keyword.count (k : Keyword) (ts : List Token) : Nat := ts.countP (·.kind = .keyword k)

section

variable {t : Token} {ts us : List Token} {k : Keyword}

lemma Token.Plain.of_mark {m : Mark} (ht : t.kind = .mark m) : t.Plain := by simp [Token.Plain, ht]

lemma Token.Plain.of_identifier {name : String} (ht : t.kind = .identifier name) : t.Plain := by
  simp [Token.Plain, ht]

namespace Keyword

lemma count_cons (k : Keyword) (t : Token) (ts : List Token) :
    k.count (t :: ts) = k.count ts + if t.kind = .keyword k then 1 else 0 := by
  simp [count, List.countP_cons]

lemma count_append (k : Keyword) (ts us : List Token) :
    k.count (ts ++ us) = k.count ts + k.count us := List.countP_append

lemma count_eq_zero : k.count ts = 0 ↔ ∀ t ∈ ts, t.kind ≠ .keyword k := by
  simp [count, List.countP_eq_zero]

lemma count_of_plain (hk : k ≠ .sample) (h : ∀ t ∈ ts, t.Plain) : k.count ts = 0 :=
  count_eq_zero.2 fun t ht hkind => hk (h t ht k hkind)

lemma count_of_kind {kind : Token.Kind} (ht : t.kind = kind) (hkind : ∀ k', kind ≠ .keyword k') :
    k.count [t] = 0 :=
  count_eq_zero.2 (by simpa [ht] using hkind k)

end Keyword

/-! ### Behind the front -/

lemma Expr.Inside.plain (h : Expr.Inside t.kind) : t.Plain := by
  intro k hk
  rw [hk] at h
  cases k with
  | sample => rfl
  | _ => cases h

lemma Expr.Derives.plain {n : Nat} {tier : Expr.Tier} {e : Expr} (h : Expr.Derives n tier ts e) :
    ∀ t ∈ ts, t.Plain :=
  fun t ht => (h.inside t ht).plain

lemma Primitive.Spelled.all_plain {p : Primitive} (h : p.Spelled ts) : ∀ t ∈ ts, t.Plain := by
  intro t ht
  obtain ⟨word, hword⟩ := h.identifiers t ht
  exact .of_identifier hword

lemma Binding.Spelled.plain {b : Binding} (h : b.Spelled ts) : ∀ t ∈ ts, t.Plain := by
  obtain ⟨hp, hn⟩ := h
  simpa [or_imp, forall_and] using ⟨hp.all_plain, Token.Plain.of_identifier hn⟩

lemma Constant.Spelled.plain {declared : Constant} (h : declared.Spelled ts) : ∀ t ∈ ts, t.Plain := by
  obtain ⟨hp, hn, he, hv⟩ := h
  refine List.forall_mem_append.2 ⟨hp.all_plain, ?_⟩
  exact List.forall_mem_cons.2 ⟨.of_identifier hn, List.forall_mem_cons.2 ⟨.of_mark he, hv.plain⟩⟩

lemma Rule.Parenthesised.plain {α : Type} {L : List Token → α → Prop} {xs : List α}
    (h : Rule.Parenthesised L ts xs) (hL : ∀ us a, L us a → ∀ t ∈ us, t.Plain) : ∀ t ∈ ts, t.Plain := by
  obtain ⟨opening, us, closing, elements, rfl, ho, hc, hlisted, helements, -⟩ := h
  refine List.forall_mem_cons.2 ⟨.of_mark ho, List.forall_mem_append.2 ⟨fun t ht => ?_, ?_⟩⟩
  · rcases hlisted.mem ht with hcomma | ⟨element, helement, ht⟩
    · exact .of_mark hcomma
    · exact hL _ _ (helements element helement) t ht
  · simpa using Token.Plain.of_mark hc

/-! ### Statements -/

namespace Statement

variable {s : Statement} {statements : List Statement}

/-- The keyword that a statement begins with. -/
def keyword? : Statement → Option Keyword
  | .returns _ => some .returns
  | .constant _ => some .const
  | _ => none

lemma Ended.plain {α : Type} {L : List Token → α → Prop} {make : α → Statement}
    (h : Ended L make ts s) (hL : ∀ us a, L us a → ∀ t ∈ us, t.Plain) : ∀ t ∈ ts, t.Plain := by
  obtain ⟨us, semicolon, a, rfl, ha, hs, -⟩ := h
  exact List.forall_mem_append.2 ⟨hL us a ha, by simpa using Token.Plain.of_mark hs⟩

lemma Ended.exists_eq {α : Type} {L : List Token → α → Prop} {make : α → Statement}
    (h : Ended L make ts s) : ∃ a, s = make a := by
  obtain ⟨-, -, a, -, -, -, rfl⟩ := h
  exact ⟨a, rfl⟩

/-- A statement has its keyword at the front, and no other. -/
lemma Spelled.front (h : Statement.Spelled ts s) : ∃ t us, ts = t :: us ∧ (∀ u ∈ us, u.Plain) ∧
    ∀ k ≠ .sample, t.kind = .keyword k ↔ s.keyword? = some k := by
  cases h with
  | comment ht => exact ⟨_, [], rfl, by simp, by simp [ht, keyword?]⟩
  | returns ht h =>
    obtain ⟨e, rfl⟩ := h.exists_eq
    exact ⟨_, _, rfl, h.plain fun _ _ he => he.plain, by simp [ht, keyword?]⟩
  | constant ht h =>
    obtain ⟨declared, rfl⟩ := h.exists_eq
    exact ⟨_, _, rfl, h.plain fun _ _ hd => hd.plain, by simp [ht, keyword?]⟩
  | assign ht he h =>
    obtain ⟨e, rfl⟩ := h.exists_eq
    refine ⟨_, _, rfl, List.forall_mem_cons.2 ⟨.of_mark he, h.plain fun _ _ he => he.plain⟩, ?_⟩
    simp [ht, keyword?]
  | expression _ h =>
    obtain ⟨e, rfl⟩ := h.exists_eq
    obtain ⟨hfirst, hplain⟩ := List.forall_mem_cons.1 (h.plain fun _ _ he => he.plain)
    refine ⟨_, _, rfl, hplain, fun k hk => ?_⟩
    simpa [keyword?] using fun hkind => hk (hfirst k hkind)

lemma Spelled.count (h : Statement.Spelled ts s) (hk : k ≠ .sample) :
    k.count ts = if s.keyword? = some k then 1 else 0 := by
  obtain ⟨t, us, rfl, hplain, hfront⟩ := h.front
  simp only [Keyword.count_cons, Keyword.count_of_plain hk hplain, hfront k hk, Nat.zero_add]

lemma Block.count (h : Block ts statements) (hk : k ≠ .sample) :
    k.count ts = statements.countP (·.keyword? = some k) := by
  induction h with
  | nil => rfl
  | cons h _ ih =>
    rw [Keyword.count_append, h.count hk, ih, List.countP_cons, Nat.add_comm]
    simp

lemma Braced.count (h : Braced ts statements) (hk : k ≠ .sample) :
    k.count ts = statements.countP (·.keyword? = some k) := by
  obtain ⟨opening, us, closing, rfl, ho, hc, hblock⟩ := h
  simp [Keyword.count_cons, Keyword.count_append, ho, hblock.count hk, Keyword.count_of_kind hc]

end Statement

/-! ### Items -/

namespace Item

variable {item : Item} {item? : Option Item}

/-- The keyword that an item begins with. -/
def keyword? : Item → Option Keyword
  | .includeFile _ => some .includeFile
  | .shaderType _ => some .shaderType
  | .uniform _ => some .uniform
  | .varying _ => some .varying
  | .constant _ => some .const
  | .function _ => none
  | .stage _ => none

/-- The statements of an item that has a body. -/
def body : Item → List Statement
  | .function declared => declared.body
  | .stage declared => declared.body
  | _ => []

/-- How often the keyword begins the item or one of its statements. -/
def countOf (k : Keyword) (item : Item) : Nat :=
  (if item.keyword? = some k then 1 else 0) + item.body.countP (·.keyword? = some k)

lemma Behind.plain (h : Behind k ts item?) : ∀ t ∈ ts, t.Plain := by
  cases h with
  | includeFile ht => simp [Token.Plain, ht]
  | shaderType ht => simp [Token.Plain, ht]
  | uniform hb | varying hb => exact hb.plain
  | constant hd => exact hd.plain
  | sample ho hn hcomma he hc =>
    refine List.forall_mem_cons.2 ⟨.of_mark ho, List.forall_mem_cons.2 ⟨.of_identifier hn, ?_⟩⟩
    refine List.forall_mem_cons.2 ⟨.of_mark hcomma, List.forall_mem_append.2 ⟨he.plain, ?_⟩⟩
    simpa using Token.Plain.of_mark hc

/-- What stands behind a keyword is an item of this keyword, without a body. -/
lemma Behind.keyword? (h : Behind k ts item?) : ∀ item ∈ item?, item.keyword? = some k ∧ item.body = [] := by
  cases h <;> simp [Item.keyword?, body]

lemma Behind.isSome (h : Behind k ts item?) (hk : k ≠ .sample) : ∃ item, item? = some item := by
  cases h <;> first | exact ⟨_, rfl⟩ | exact absurd rfl hk

lemma Defined.keyword? (h : Defined ts item) : item.keyword? = none := by
  cases h <;> rfl

lemma Defined.count (h : Defined ts item) (hk : k ≠ .sample) : k.count ts = item.countOf k := by
  -- both have a type, a name, parameters and a body
  have hparts : ∀ {type parameters body : List Token} {name : Token} {returned : Primitive}
      {word : String} {bindings : List Binding} {statements : List Statement},
      returned.Spelled type → name.kind = .identifier word →
      Rule.Parenthesised Binding.Spelled parameters bindings → Statement.Braced body statements →
      k.count (type ++ name :: (parameters ++ body)) = statements.countP (·.keyword? = some k) := by
    intro type parameters body name returned word bindings statements hr hn hp hb
    have hparameters := Keyword.count_of_plain hk (hp.plain fun _ _ h => h.plain)
    simp [Keyword.count_append, Keyword.count_cons, hn, Keyword.count_of_plain hk hr.all_plain, hparameters,
      hb.count hk]
  cases h with
  | function hr hn hp hb => simpa [countOf, Item.keyword?, body] using hparts hr hn hp hb
  | stage hr hn hp hb => simpa [countOf, Item.keyword?, body] using hparts hr hn hp hb

/-- The keywords in a piece of the top level. -/
lemma Spelled.count (h : Item.Spelled ts item?) (hk : k ≠ .sample) :
    k.count ts = (item?.toList.map (countOf k)).sum := by
  cases h with
  | @keyword t k' ts _ ht h =>
    rw [Keyword.count_cons, Keyword.count_of_plain hk h.plain, ht]
    cases item? with
    | none =>
      have hk' : k' ≠ k := by
        rintro rfl
        obtain ⟨item, hitem⟩ := h.isSome hk
        cases hitem
      simp [hk']
    | some item =>
      obtain ⟨hkeyword, hbody⟩ := h.keyword? item rfl
      simp [countOf, hkeyword, hbody]
  | defined h => simpa using h.count hk
  | other hkeyword => simp [Keyword.count, hkeyword]

end Item

end

/-! ### Programs -/

/-- **The keywords of a program**, but for those of samplings, are those of its items and of their
statements. -/
theorem Program.Derives.count {ts : List Token} {items : List Item} {k : Keyword}
    (h : Program.Derives ts items) (hk : k ≠ .sample) : k.count ts = (items.map (Item.countOf k)).sum := by
  induction h with
  | nil => rfl
  | cons h _ _ ih => simp [Keyword.count_append, h.count hk, ih]

/-- A keyword that begins no statement stands only at the front of items. -/
lemma Program.Derives.count_items {ts : List Token} {items : List Item} {k : Keyword}
    (h : Program.Derives ts items) (hk : k ≠ .sample) (hs : ∀ s : Statement, s.keyword? ≠ some k) :
    k.count ts = items.countP (·.keyword? = some k) := by
  have hbody : ∀ body : List Statement, body.countP (·.keyword? = some k) = 0 := by
    simp [hs]
  rw [h.count hk]
  clear h
  induction items with
  | nil => rfl
  | cons item items ih => simp [Item.countOf, hbody, ih, List.countP_cons, Nat.add_comm]

/-- **A type is given just where its keyword stands.** -/
theorem Program.Derives.any_shaderType {ts : List Token} {items : List Item}
    (h : Program.Derives ts items) :
    ts.any (·.kind = .keyword .shaderType) = (items.findSome? Program.typeOf?).isSome := by
  have hcount := h.count_items (k := .shaderType) (by decide) fun s => by cases s <;> simp [Statement.keyword?]
  have hitem : ∀ item : Item, item.keyword? = some .shaderType ↔ (Program.typeOf? item).isSome := by
    intro item
    cases item <;> simp [Item.keyword?, Program.typeOf?]
  rw [Bool.eq_iff_iff, List.findSome?_isSome_iff, List.any_eq_true, ← List.countP_pos_iff]
  show 0 < Keyword.count .shaderType ts ↔ _
  simp [hcount, List.countP_pos_iff, hitem]

end Shading
