import Shading.Proofs.Declarations
import Shading.Proofs.Grammar.Blind
import Shading.Proofs.Grammar.Keywords

/-!
# Programs joined

A source, a line with a semicolon and another source are together a source, and its program is that of
the one with that of the other merged in.  The semicolon is needed: behind the value of a constant, a
sign at the front of the second source would go on with it.

* `Program.Derives.joined` — the grammar of programs with a semicolon between two;
* `Program.ofItems_append` — what items and later items declare;
* `Program.ofTokens_joined` — the program of joined sources.
-/

namespace Shading

/-! ### Tokens joined -/

lemma Expr.Ends.joined {ts us : List Token} {semicolon : Token} (h : Expr.Ends ts)
    (hs : semicolon.kind = .mark .semicolon) : Expr.Ends (ts ++ semicolon :: us) := by
  cases ts with
  | nil => exact Statement.ends_semicolon semicolon us hs
  | cons t ts => exact h

/-- Two token lists with a semicolon between them are the items of the one and of the other. -/
theorem Program.Derives.joined {ts us : List Token} {semicolon : Token} {items later : List Item}
    (hts : Program.Derives ts items) (hs : semicolon.kind = .mark .semicolon)
    (hus : Program.Derives us later) : Program.Derives (ts ++ semicolon :: us) (items ++ later) := by
  induction hts with
  | nil =>
    have hother : Item.Spelled [semicolon] none := .other (by simp [hs]) (by simp [hs])
    exact .cons hother (by simp [Item.Followed]) hus
  | cons h hf _ ih =>
    rw [List.append_assoc, List.append_assoc]
    exact .cons h (fun declared hd => (hf declared hd).joined hs) ih

/-! ### What items and later items declare -/

namespace Program

variable {p q : Program} {ts us : List Token}

/-- Merging, but for the type: the first that is given is the type. -/
lemma ofItems_append (items later : List Item) :
    ofItems (items ++ later) = { (ofItems items).merge (ofItems later) with
      shaderType := if (items.findSome? typeOf?).isSome then (ofItems items).shaderType
        else (ofItems later).shaderType } := by
  have htype : ((items ++ later).findSome? typeOf?).getD "none" =
      if (items.findSome? typeOf?).isSome then (ofItems items).shaderType
        else (ofItems later).shaderType := by
    rw [List.findSome?_append]
    cases hfound : items.findSome? typeOf? with
    | none => rfl
    | some kind => simp [ofItems, hfound]
  unfold ofItems at htype ⊢
  simp only [htype, List.filterMap_append, PathSet.ofList_append, merge]

lemma ofTokens_eq_ok : ofTokens ts = .ok p ↔ ∃ items, Derives ts items ∧ ofItems items = p := by
  unfold ofTokens
  simp only [← itemsOfTokens_eq_ok]
  cases itemsOfTokens ts with
  | error fault =>
    constructor
    · intro h
      cases h
    · rintro ⟨_, h, -⟩
      cases h
  | ok items =>
    constructor
    · intro h
      exact ⟨items, rfl, Except.ok.inj h⟩
    · rintro ⟨_, h, rfl⟩
      rw [Except.ok.inj h]
      rfl

/-- The grammar sees only how tokens look. -/
lemma Derives.of_views {items : List Item} (h : Derives ts items)
    (hviews : us.map Token.view = ts.map Token.view) : Derives us items := by
  have hcongr := itemsOfTokens_congr hviews
  rw [itemsOfTokens_eq_ok.2 h] at hcongr
  refine itemsOfTokens_eq_ok.1 ?_
  cases hus : itemsOfTokens us with
  | error fault =>
    rw [hus] at hcongr
    cases hcongr
  | ok later =>
    rw [hus] at hcongr
    rw [Except.ok.inj hcongr]

/-- **The program of joined sources is that of the one with that of the other merged in.**  Its type is
that of the first if a keyword for a type stands in it, and otherwise that of the second. -/
theorem ofTokens_joined {a b : String} (ha : tokenize a = .ok ts) (hp : ofTokens ts = .ok p)
    (hb : tokenize b = .ok us) (hq : ofTokens us = .ok q) :
    ∃ vs, tokenize (a ++ "\n;\n" ++ b) = .ok vs ∧ ofTokens vs = .ok { p.merge q with
      shaderType := if ts.any (·.kind = .keyword .shaderType) then p.shaderType else q.shaderType } := by
  obtain ⟨items, hitems, rfl⟩ := ofTokens_eq_ok.1 hp
  obtain ⟨later, hlater, rfl⟩ := ofTokens_eq_ok.1 hq
  obtain ⟨ts', semicolon, us', hjoined, hts', hs, hus'⟩ := tokenize_joined ha hb
  refine ⟨_, hjoined, ofTokens_eq_ok.2 ⟨items ++ later, ?_, ?_⟩⟩
  · exact (hitems.of_views hts').joined hs (hlater.of_views hus')
  · rw [ofItems_append, hitems.any_shaderType]

/-- Without the semicolon the minus sign would go on with the value of the constant.  Only the second
source gives a type. -/
theorem ofTokens_joined_minus :
    let ts : List Token := [⟨.keyword .const, ⟨0, 5, 1, 1⟩, "const"⟩,
      ⟨.identifier "int", ⟨6, 9, 1, 7⟩, "int"⟩, ⟨.identifier "x", ⟨10, 11, 1, 11⟩, "x"⟩,
      ⟨.mark .equal, ⟨11, 12, 1, 12⟩, "="⟩, ⟨.identifier "y", ⟨12, 13, 1, 13⟩, "y"⟩]
    let us : List Token := [⟨.mark .minus, ⟨0, 1, 1, 1⟩, "-"⟩,
      ⟨.keyword .uniform, ⟨1, 8, 1, 2⟩, "uniform"⟩, ⟨.identifier "int", ⟨9, 12, 1, 10⟩, "int"⟩,
      ⟨.identifier "z", ⟨13, 14, 1, 14⟩, "z"⟩,
      ⟨.keyword .shaderType, ⟨15, 27, 1, 16⟩, "#shader_type"⟩, ⟨.identifier "k", ⟨28, 29, 1, 29⟩, "k"⟩]
    let p : Program := { constants := [⟨{ kind := .int }, "x", .symbol "y"⟩] }
    let q : Program := { shaderType := "k", uniforms := [⟨{ kind := .int }, "z"⟩] }
    tokenize "const int x=y" = .ok ts ∧ ofTokens ts = .ok p ∧
    tokenize "-uniform int z #shader_type k" = .ok us ∧ ofTokens us = .ok q ∧
    ∃ vs, tokenize ("const int x=y" ++ "\n;\n" ++ "-uniform int z #shader_type k") = .ok vs ∧
      ofTokens vs = .ok { p.merge q with shaderType := "k" } := by
  intro ts us p q
  have ha : tokenize "const int x=y" = .ok ts := by decide +kernel
  have hp : ofTokens ts = .ok p := by rfl
  have hb : tokenize "-uniform int z #shader_type k" = .ok us := by decide +kernel
  have hq : ofTokens us = .ok q := by rfl
  exact ⟨ha, hp, hb, hq, ofTokens_joined ha hp hb hq⟩

end Program

end Shading
