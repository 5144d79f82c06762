import Shading.Kernel.Lowering
import Shading.Proofs.Decimal.Overflow
import Shading.Proofs.Grammar.Accepts
import Shading.Proofs.Token.Rescan

/-!
# Numerals

A number of a source is decimal digits, and may have places behind a point.  What is written for it is
again a numeral, with a point just if the source has one, as long as the number is not too large for a
finite double.

* `Numeral` — digits with or without places, and the quotient that they write;
* `Expr.primary_number` — the constant that a number is read as;
* `Literal.sameSort_of_isFinite`, `Literal.text_of_overflow` — what is written for finite numbers, and for
  those that are too large;
* `Token.numeral_kept_iff` — which numbers of a source stay numerals.
-/

namespace Shading

open Grammar

/-! ### Numerals -/

/-- The numeral writes `n / 10 ^ k`: digits alone, or digits with `k` places behind a point. -/
inductive Numeral : List Char → Nat → Nat → Prop
  | whole {ds : List Char} (hne : ds ≠ []) (hds : ∀ c ∈ ds, c.isDigit = true) :
    Numeral ds (Scan.digitsValue ds) 0
  | places {ds fs : List Char} (hne : ds ≠ []) (hfs : fs ≠ [])
    (hds : ∀ c ∈ ds ++ fs, c.isDigit = true) :
    Numeral (ds ++ '.' :: fs) (Scan.digitsValue (ds ++ fs)) fs.length

/-- What is read as a double is a numeral of which it is the value. -/
lemma Written.numeral {text : List Char} {x : Double} {fractional : Bool} (h : Written text x fractional) :
    ∃ n k, Numeral text n k ∧ x = .ofQuotient n (10 ^ k) := by
  cases h with
  | whole hne hds => exact ⟨_, _, .whole hne hds, rfl⟩
  | places hne hfs hds => exact ⟨_, _, .places hne hfs hds, rfl⟩

/-- A numeral is digits but for its point. -/
lemma Numeral.isDigit {text : List Char} {n k : Nat} (h : Numeral text n k) :
    ∀ c ∈ text, c.isDigit = true ∨ c = '.' := by
  cases h with
  | whole _ hds => exact fun c hc => .inl (hds c hc)
  | places _ _ hds =>
    intro c hc
    rcases List.mem_append.1 hc with hc | hc
    · exact .inl (hds c (List.mem_append_left _ hc))
    · rcases List.mem_cons.1 hc with rfl | hc
      · exact .inr rfl
      · exact .inl (hds c (List.mem_append_right _ hc))

/-- Every whole number has a numeral. -/
lemma Numeral.toDigits (n : Nat) : Numeral (Nat.toDigits 10 n) n 0 := by
  have h := Numeral.whole (Nat.toDigits_ne_nil (b := 10) (n := n)) isDigit_toDigits
  rwa [digitsValue_toDigits] at h

/-- **Every numeral is a source** of one number, its value. -/
theorem Numeral.tokenize {text : List Char} {n k : Nat} (h : Numeral text n k) :
    ∃ t, Shading.tokenize (String.ofList text) = .ok [t] ∧
      t.kind = .number (.ofQuotient n (10 ^ k)) ∧ t.lexeme = String.ofList text := by
  have hspelled : Spelled (.number (.ofQuotient n (10 ^ k))) (String.ofList text).toList := by
    rw [String.toList_ofList]
    cases h with
    | whole hne hds => exact .number (.whole hne hds)
    | places hne hfs hds => exact .number (.places hne hfs hds)
  have hscans := Scans.spelled hspelled (by simp) (show Delimited [] by simp [Delimited]) .nil
  rw [List.append_nil] at hscans
  obtain ⟨ts, hts, hpieces⟩ := hscans.tokenize
  obtain ⟨t, rfl, hpiece⟩ := List.map_eq_singleton_iff.1 hpieces
  obtain ⟨hkind, hlexeme⟩ := Prod.mk.inj hpiece
  exact ⟨t, hts, hkind, hlexeme⟩

/-- A numeral writes one quotient. -/
lemma Numeral.unique {text : List Char} {n k n' k' : Nat} (h : Numeral text n k)
    (h' : Numeral text n' k') : n = n' ∧ k = k' := by
  have hpoint : ∀ {ds : List Char}, (∀ c ∈ ds, c.isDigit = true) → '.' ∉ ds := fun hds hmem =>
    absurd (hds _ hmem) (by decide)
  have hwhole : ∀ {ds fs : List Char}, (∀ c ∈ ds ++ fs, c.isDigit = true) →
      (ds ++ '.' :: fs).takeWhile Char.isDigit = ds := fun hds =>
    takeWhile_append_stop (List.forall_mem_append.1 hds).1 (by simp)
  cases h with
  | whole hne hds =>
    cases h' with
    | whole => exact ⟨rfl, rfl⟩
    | places => exact absurd (by simp) (hpoint hds)
  | @places ds fs hne hfs hds =>
    generalize htext : ds ++ '.' :: fs = text at h'
    cases h' with
    | whole _ hds' => exact absurd (htext ▸ by simp) (hpoint hds')
    | @places ds' fs' _ _ hds' =>
      obtain rfl : ds = ds' := by rw [← hwhole hds, htext, hwhole hds']
      obtain rfl : fs = fs' := (List.cons.inj (List.append_cancel_left htext)).2
      exact ⟨rfl, rfl⟩

/-- A numeral that has a point just if the other text has one. -/
def Numeral.SameSort (text other : List Char) : Prop :=
  (∃ n k, Numeral text n k) ∧ (text.contains '.' = other.contains '.')

/-! ### What is written for a number -/

namespace Literal

variable {lexeme : List Char} {x : Double} {fractional : Bool} {n k : Nat}

/-- A number that is not too large is written as a numeral of its sort. -/
lemma sameSort_of_isFinite (h : Written lexeme x fractional) (hfinite : x.isFinite = true) :
    Numeral.SameSort (number x fractional).text.toList lexeme := by
  have hwritten := written_text h hfinite
  obtain ⟨n, k, hnumeral, -⟩ := hwritten.numeral
  exact ⟨⟨n, k, hnumeral⟩, by rw [hwritten.contains_point, h.contains_point]⟩

/-- A number that is too large is written as infinity, with a point or without. -/
lemma text_of_overflow {num den : Nat} (hden : 0 < den) (h : Double.overflow * den ≤ num) (fractional : Bool) :
    (number (.ofQuotient num den) fractional).text = "inf" := by
  have hinteger : (Double.ofQuotient num den).isInteger = false := by
    have hfinite : ¬ (Double.ofQuotient num den).isFinite = true :=
      mt (Double.isFinite_ofQuotient_iff hden).1 (by omega)
    simp [Double.isInteger, hfinite]
  simp [Literal.text, hinteger, Double.text_of_overflow hden h]

/-- No numeral is written as infinity. -/
lemma not_sameSort_inf (other : List Char) : ¬ Numeral.SameSort "inf".toList other := by
  rintro ⟨⟨n, k, h⟩, -⟩
  rcases h.isDigit 'i' (by decide) with hi | hi <;> exact absurd hi (by decide)

end Literal

/-- **A number is read as a constant** wherever an innermost expression may stand. -/
lemma Expr.primary_number {expression : Rule Expr} {c : Cursor} {t : Token} {x : Double}
    (ht : c.rest.head? = some t) (hk : t.kind = .number x) :
    primary expression c =
      .ok (.constant (.number x (t.lexeme.toList.contains '.')), c.advance) := by
  rw [primary, Rule.peekToken_bind, ht]
  simp only [hk]
  rfl

/-- **Which numbers stay numerals.**  A number of a source writes a quotient.  The constant that it is read
as is written as a numeral with a point just if the source has one there, exactly when the quotient is
below the midpoint between the largest finite double and `2 ^ 1024`; from there on it is written as
`inf`. -/
theorem Token.numeral_kept_iff {source : String} {tokens : List Token} {t : Token} {x : Double}
    (htokens : tokenize source = .ok tokens) (ht : t ∈ tokens) (hk : t.kind = .number x) :
    ∃ n k value text, Numeral t.lexeme.toList n k ∧
      (∀ (expression : Rule Expr) (c : Cursor), c.rest.head? = some t →
        Expr.primary expression c = .ok (.constant value, c.advance)) ∧
      (Expr.constant value).glsl = .ok text ∧
      (Numeral.SameSort text.toList t.lexeme.toList ↔ n < Double.overflow * 10 ^ k) ∧
      (Double.overflow * 10 ^ k ≤ n → text = "inf") := by
  have hspelled := Token.spelled_of_tokenize htokens t ht
  rw [hk] at hspelled
  obtain ⟨fractional, hwritten⟩ := hspelled.written
  obtain ⟨n, k, hnumeral, rfl⟩ := hwritten.numeral
  have hden : 0 < 10 ^ k := Nat.pow_pos (by decide)
  refine ⟨n, k, _, _, hnumeral, fun expression c hc => Expr.primary_number hc hk, rfl, ?_, fun hover => ?_⟩
  · rw [hwritten.contains_point]
    constructor
    · intro hsame
      by_contra hover
      rw [Literal.text_of_overflow hden (by omega)] at hsame
      exact Literal.not_sameSort_inf _ hsame
    · intro hlt
      exact Literal.sameSort_of_isFinite hwritten ((Double.isFinite_ofQuotient_iff hden).2 hlt)
  · exact Literal.text_of_overflow hden hover _

/-- The largest whole number that stays a numeral: one less than the midpoint. -/
theorem Token.numeral_kept_largest : ∃ tokens t x,
    tokenize (Nat.repr (Double.overflow - 1)) = .ok tokens ∧ t ∈ tokens ∧ t.kind = .number x ∧
      ∃ value text, (∀ (expression : Rule Expr) (c : Cursor), c.rest.head? = some t →
          Expr.primary expression c = .ok (.constant value, c.advance)) ∧
        (Expr.constant value).glsl = .ok text ∧ Numeral.SameSort text.toList t.lexeme.toList := by
  have hnumeral := Numeral.toDigits (Double.overflow - 1)
  obtain ⟨t, htokens, hk, hlexeme⟩ := hnumeral.tokenize
  refine ⟨[t], t, _, htokens, List.mem_singleton_self t, hk, ?_⟩
  obtain ⟨n, k, value, text, hn, hread, hwritten, hkept, -⟩ :=
    Token.numeral_kept_iff htokens (List.mem_singleton_self t) hk
  rw [hlexeme, String.toList_ofList] at hn
  obtain ⟨hvalue, hplaces⟩ := hn.unique hnumeral
  have hlt : Double.overflow - 1 < Double.overflow * 10 ^ 0 := by decide +kernel
  rw [hvalue, hplaces] at hkept
  exact ⟨value, text, hread, hwritten, hkept.2 hlt⟩

/-- **Not every number stays a numeral**: the midpoint itself is written as `inf`. -/
theorem Token.not_numeral_kept_midpoint :
    ¬ ∀ (source : String) (tokens : List Token) (t : Token) (x : Double) (expression : Rule Expr)
        (c : Cursor) (value : Literal) (text : String),
      tokenize source = .ok tokens → t ∈ tokens → t.kind = .number x → c.rest.head? = some t →
        Expr.primary expression c = .ok (.constant value, c.advance) →
          (Expr.constant value).glsl = .ok text → Numeral.SameSort text.toList t.lexeme.toList := by
  intro h
  obtain ⟨t, htokens, hk, -⟩ := (Numeral.toDigits Double.overflow).tokenize
  have hread : Expr.primary Expr.rule (.start [t]) = _ := Expr.primary_number rfl hk
  have hsame := h _ _ t _ _ _ _ _ htokens (List.mem_singleton_self t) hk rfl hread rfl
  rw [Literal.text_of_overflow (by decide) (by simp)] at hsame
  exact Literal.not_sameSort_inf _ hsame

end Shading
