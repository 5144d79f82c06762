import Shading.Expr
import Shading.Proofs.Decimal.Nearest
import Shading.Token.Scan

/-!
# Reading back what is written

The decimal of a double lies between the midpoints around it, so that its digits are read as the
double.  A whole double is written without a point unless one is asked for, and every other double with
a point.

* `Double.between_shortestFrom` — the shortest decimal lies between the midpoints;
* `Double.isInteger_iff_grid` — whole doubles are those whose decimal has no places;
* `Written` — digits, with places behind a point or without, that are read as a double;
* `Literal.written_text` — what is written for a number.
-/

namespace Shading

namespace Double

variable {x : Double}

/-! ### The grids -/

/-- The counts of a grid in a quarter of a least unit. -/
def grain : Nat := Nat.pow 10 324

/-- The exponent is kept apart, so that the power is not evaluated. -/
lemma grain_eq {e : Nat} (h : 324 = e) : grain = 10 ^ e := by
  unfold grain
  rw [h]
  rfl

lemma gridStep_eq (i : Nat) : gridStep i = 4 * one * 10 ^ i := rfl

lemma four_mul_one_lt_grain : 4 * one < grain := by decide +kernel

lemma grain_pos : 0 < grain := Nat.zero_lt_of_lt four_mul_one_lt_grain

lemma fine_eq (n : Nat) : fine n = grain * (4 * n) := by
  unfold fine grain
  ring

lemma above_eq (x : Double) : x.above = grain * (2 * x.gap) := by
  unfold above grain
  ring

lemma below_eq (x : Double) : x.below = grain * x.lower := by
  unfold below lower grain
  split <;> ring

lemma lower_pos (x : Double) : 0 < x.lower := by
  have := x.gap_pos
  unfold lower
  split <;> omega

lemma grain_le_below (x : Double) : grain ≤ x.below := by
  rw [below_eq]
  exact Nat.le_mul_of_pos_right _ x.lower_pos

lemma above_pos (x : Double) : 0 < x.above := by
  rw [above_eq]
  exact Nat.mul_pos grain_pos (Nat.mul_pos (by decide) x.gap_pos)

lemma gridStep_pos (i : Nat) : 0 < gridStep i :=
  Nat.mul_pos (Nat.mul_pos (by decide) one_pos) (Nat.pow_pos (by decide))

/-- Near the double on either side, and not beyond the midpoints. -/
lemma between_eq_true (x : Double) {n : Nat} (hlow : fine x.units < n + x.below)
    (hhigh : n < fine x.units + x.above) (hn : 0 < n) : x.between n = true := by
  unfold between
  dsimp only
  split
  · simp only [Bool.and_eq_true, decide_eq_true_eq]
    omega
  · simp only [Bool.and_eq_true, decide_eq_true_eq]
    omega

lemma le_of_counts {a b a' b' den : Nat} (ha : a * den = grain * a') (hb : b * den = grain * b')
    (h : a ≤ b) : a' ≤ b' := by
  refine Nat.le_of_mul_le_mul_left ?_ grain_pos
  rw [← ha, ← hb]
  exact Nat.mul_le_mul_right den h

lemma lt_of_counts {a b a' b' den : Nat} (hden : 0 < den) (ha : a * den = grain * a')
    (hb : b * den = grain * b') (h : a < b) : a' < b' := by
  refine Nat.lt_of_mul_lt_mul_left (a := grain) ?_
  rw [← ha, ← hb]
  exact Nat.mul_lt_mul_of_pos_right h hden

/-- **Between the midpoints**, in the counts of the grids and in least units. -/
lemma near_of_between {n num den : Nat} (hden : 0 < den) (hn : n * den = grain * (4 * (num * one)))
    (h : x.between n = true) : x.Near num den := by
  have hunits : fine x.units * den = grain * (4 * (x.units * den)) := by
    rw [fine_eq]
    ring
  have hlower : (n + x.below) * den = grain * (4 * (num * one) + x.lower * den) := by
    rw [Nat.add_mul, hn, below_eq]
    ring
  have hupper : (fine x.units + x.above) * den =
      grain * (4 * (x.units * den) + 2 * (x.gap * den)) := by
    rw [fine_eq, above_eq]
    ring
  unfold between at h
  dsimp only at h
  split at h
  · next heven =>
    obtain ⟨hlow, hhigh⟩ : fine x.units ≤ n + x.below ∧ n ≤ fine x.units + x.above := by
      simp only [Bool.and_eq_true, decide_eq_true_eq] at h
      omega
    exact ⟨le_of_counts hunits hlower hlow, le_of_counts hn hupper hhigh, fun hodd => by omega⟩
  · obtain ⟨hlow, hhigh⟩ : fine x.units < n + x.below ∧ n < fine x.units + x.above := by
      simp only [Bool.and_eq_true, decide_eq_true_eq] at h
      omega
    have hlow' := lt_of_counts hden hunits hlower hlow
    have hhigh' := lt_of_counts hden hn hupper hhigh
    exact ⟨hlow'.le, hhigh'.le, fun _ => ⟨hlow', hhigh'⟩⟩

/-- A quotient that is the double lies between the midpoints around it. -/
lemma near_of_eq {num den : Nat} (hden : 0 < den) (h : num * one = x.units * den) : x.Near num den := by
  have hlower : 0 < x.lower * den := Nat.mul_pos x.lower_pos hden
  have hgap : 0 < x.gap * den := Nat.mul_pos x.gap_pos hden
  exact ⟨by omega, by omega, fun _ => ⟨by omega, by omega⟩⟩

/-! ### The search -/

lemma between_of_onGrid? {i d : Nat} (h : x.onGrid? i = some d) : x.between (d * gridStep i) = true := by
  unfold onGrid? at h
  dsimp only at h
  split at h
  · next hq hq' =>
    obtain rfl := Option.some.inj h
    split
    · exact hq
    · exact hq'
  · next hq _ =>
    obtain rfl := Option.some.inj h
    exact hq
  · next _ hq' =>
    obtain rfl := Option.some.inj h
    exact hq'
  · cases h

lemma onGrid?_isSome {i : Nat} (h : x.between (fine x.units / gridStep i * gridStep i) = true) :
    (x.onGrid? i).isSome = true := by
  unfold onGrid?
  dsimp only
  rw [h]
  cases x.between ((fine x.units / gridStep i + 1) * gridStep i) <;> rfl

/-- The finest grid is finer than the gaps. -/
lemma onGrid?_zero_isSome (hpos : 0 < x.units) : (x.onGrid? 0).isSome = true := by
  have hstep : gridStep 0 = 4 * one := by rw [gridStep_eq, pow_zero, Nat.mul_one]
  have hlt := four_mul_one_lt_grain
  have hfine : grain ≤ fine x.units := by
    rw [fine_eq]
    exact Nat.le_mul_of_pos_right _ (by omega)
  have hbelow := x.grain_le_below
  have habove := x.above_pos
  -- the lower neighbour lies less than a step away, and the lower midpoint further
  have hsplit := Nat.div_add_mod' (fine x.units) (gridStep 0)
  have hmod := Nat.mod_lt (fine x.units) (gridStep_pos 0)
  exact onGrid?_isSome (x.between_eq_true (by omega) (by omega) (by omega))

/-- A whole double is a point of the grid of whole numbers. -/
lemma onGrid?_whole_isSome (hpos : 0 < x.units) (hwhole : x.units % one = 0) :
    (x.onGrid? 324).isSome = true := by
  have hstep : gridStep 324 = 4 * one * grain := by
    obtain ⟨e, he⟩ : ∃ e, 324 = e := ⟨_, rfl⟩
    rw [he, gridStep_eq, grain_eq he]
  have hunits : x.units / one * one = x.units := Nat.div_mul_cancel (Nat.dvd_of_mod_eq_zero hwhole)
  have hfine : fine x.units = x.units / one * gridStep 324 := by
    calc fine x.units = grain * (4 * (x.units / one * one)) := by rw [fine_eq, hunits]
      _ = x.units / one * gridStep 324 := by
        rw [hstep]
        ring
  have hpoint : fine x.units / gridStep 324 * gridStep 324 = fine x.units := by
    rw [hfine, Nat.mul_div_cancel _ (gridStep_pos 324)]
  have hbelow := x.grain_le_below
  have habove := x.above_pos
  have hgrain := grain_pos
  have hfine_pos : 0 < fine x.units := by
    rw [fine_eq]
    exact Nat.mul_pos grain_pos (by omega)
  exact onGrid?_isSome (x.between_eq_true (by omega) (by omega) (by omega))

/-- **The decimal lies between the midpoints**, from wherever the search begins. -/
lemma between_shortestFrom (hpos : 0 < x.units) (i : Nat) :
    x.between ((x.shortestFrom i).digits * gridStep (x.shortestFrom i).grid) = true := by
  induction i with
  | zero =>
    obtain ⟨d, hd⟩ := Option.isSome_iff_exists.1 (onGrid?_zero_isSome hpos)
    simp only [shortestFrom, hd, Option.getD_some]
    exact between_of_onGrid? hd
  | succ i ih =>
    unfold shortestFrom
    split
    · next d hd => exact between_of_onGrid? hd
    · exact ih

lemma le_grid_shortestFrom {i j : Nat} (h : (x.onGrid? j).isSome = true) (hj : j ≤ i) :
    j ≤ (x.shortestFrom i).grid := by
  induction i with
  | zero => omega
  | succ i ih =>
    unfold shortestFrom
    split
    · exact hj
    · next hnone =>
      refine ih (Nat.lt_succ_iff.1 (Nat.lt_of_le_of_ne hj fun heq => ?_))
      rw [heq, hnone] at h
      cases h

/-! ### The shortest decimal -/

/-- **The shortest decimal is read as the double**, however it is written as a quotient. -/
lemma ofQuotient_shortest {num den : Nat} (hx : x.Ordinary) (hpos : 0 < x.units) (hden : 0 < den)
    (h : x.shortest.digits * 10 ^ x.shortest.grid * den = grain * num) : ofQuotient num den = x := by
  refine ofQuotient_of_near hx hden (near_of_between hden ?_ (between_shortestFrom hpos 632))
  calc x.shortest.digits * gridStep x.shortest.grid * den
      = 4 * one * (x.shortest.digits * 10 ^ x.shortest.grid * den) := by
        rw [gridStep_eq]
        ring
    _ = grain * (4 * (num * one)) := by
        rw [h]
        ring

/-- A decimal with places. -/
lemma ofQuotient_of_grid_lt (hx : x.Ordinary) (hpos : 0 < x.units) (hgrid : x.shortest.grid < 324) :
    ofQuotient x.shortest.digits (10 ^ (324 - x.shortest.grid)) = x := by
  refine ofQuotient_shortest hx hpos (Nat.pow_pos (by decide)) ?_
  rw [grain_eq (show 324 = x.shortest.grid + (324 - x.shortest.grid) by omega), Nat.pow_add]
  ring

/-- A decimal without places. -/
lemma ofQuotient_of_le_grid (hx : x.Ordinary) (hpos : 0 < x.units) (hgrid : 324 ≤ x.shortest.grid) :
    ofQuotient (x.shortest.digits * 10 ^ (x.shortest.grid - 324)) 1 = x := by
  refine ofQuotient_shortest hx hpos Nat.one_pos ?_
  obtain ⟨e, he⟩ : ∃ e, 324 = e := ⟨_, rfl⟩
  rw [he] at hgrid ⊢
  obtain ⟨k, hk⟩ : ∃ k, x.shortest.grid = e + k := ⟨_, (Nat.add_sub_of_le hgrid).symm⟩
  rw [hk, Nat.add_sub_cancel_left, grain_eq he, Nat.pow_add]
  ring

/-- **Whole doubles are those whose decimal has no places.** -/
theorem isInteger_iff_grid (hx : x.Ordinary) (hpos : 0 < x.units) :
    x.isInteger = true ↔ 324 ≤ x.shortest.grid := by
  constructor
  · intro h
    have hwhole : x.units % one = 0 := by simpa [isInteger, hx.finite] using h
    exact le_grid_shortestFrom (onGrid?_whole_isSome hpos hwhole) (by decide)
  · intro hgrid
    have hread := ofQuotient_of_le_grid hx hpos hgrid
    have hfinite := hx.finite
    rw [← hread] at hfinite ⊢
    exact isInteger_ofQuotient hfinite

end Double

/-! ### Digits -/

/-- The texts of a double: digits, which have no fraction, and digits with places behind a point. -/
inductive Written : List Char → Double → Bool → Prop
  | whole {ds : List Char} (hne : ds ≠ []) (hds : ∀ c ∈ ds, c.isDigit = true) :
    Written ds (.ofQuotient (Scan.digitsValue ds) 1) false
  | places {ds fs : List Char} (hne : ds ≠ []) (hfs : fs ≠ [])
    (hds : ∀ c ∈ ds ++ fs, c.isDigit = true) :
    Written (ds ++ '.' :: fs) (.ofQuotient (Scan.digitsValue (ds ++ fs)) (10 ^ fs.length)) true

namespace Written

variable {text : List Char} {x : Double} {fractional : Bool}

lemma isNegative (h : Written text x fractional) : x.isNegative = false := by
  cases h with
  | whole => exact Double.isNegative_ofQuotient _ _
  | places => exact Double.isNegative_ofQuotient _ _

lemma isInteger (h : Written text x false) (hfinite : x.isFinite = true) : x.isInteger = true := by
  cases h with
  | whole => exact Double.isInteger_ofQuotient hfinite

lemma contains_point (h : Written text x fractional) : text.contains '.' = fractional := by
  cases h with
  | whole _ hds =>
    rw [List.contains_eq_any_beq, List.any_eq_false]
    intro c hc hpoint
    have hdigit := hds c hc
    rw [← beq_iff_eq.1 hpoint] at hdigit
    exact absurd hdigit (by decide)
  | places => simp

end Written

lemma digitsValue_append (ds fs : List Char) :
    Scan.digitsValue (ds ++ fs) = 10 ^ fs.length * Scan.digitsValue ds + Scan.digitsValue fs := by
  show Nat.ofDigitChars 10 (ds ++ fs) 0 = _
  rw [Nat.ofDigitChars_append, Nat.ofDigitChars_eq_ofDigitChars_zero]
  rfl

lemma digitsValue_toDigits (n : Nat) : Scan.digitsValue (Nat.toDigits 10 n) = n :=
  Nat.ofDigitChars_ten_toDigits

lemma digitsValue_zeros (n : Nat) : Scan.digitsValue (List.replicate n '0') = 0 := by
  show Nat.ofDigitChars 10 (List.replicate n '0') 0 = 0
  rw [Nat.ofDigitChars_replicate_zero, Nat.mul_zero]

lemma isDigit_toDigits {n : Nat} : ∀ c ∈ Nat.toDigits 10 n, c.isDigit = true :=
  fun _ hc => Nat.isDigit_of_mem_toDigits (by decide) (by decide) hc

lemma isDigit_zeros {n : Nat} : ∀ c ∈ List.replicate n '0', c.isDigit = true := by
  intro c hc
  rw [List.eq_of_mem_replicate hc]
  rfl

namespace Decimal

variable {d : Decimal}

/-- A decimal with places, in positional notation. -/
lemma written_places (h : d.grid < 324) :
    Written (d.positional "").toList (.ofQuotient d.digits (10 ^ (324 - d.grid))) true := by
  obtain ⟨n, hn⟩ : ∃ n, 324 - d.grid = n := ⟨_, rfl⟩
  unfold positional
  rw [if_pos h, hn]
  dsimp only
  generalize hpadded : List.replicate (n + 1 - d.length) '0' ++ Nat.toDigits 10 d.digits = padded
  have hlength : n + 1 ≤ padded.length := by
    rw [← hpadded, List.length_append, List.length_replicate]
    show n + 1 ≤ n + 1 - d.length + d.length
    omega
  have hvalue : Scan.digitsValue padded = d.digits := by
    rw [← hpadded, digitsValue_append, digitsValue_zeros, digitsValue_toDigits, Nat.mul_zero,
      Nat.zero_add]
  have hdigits : ∀ c ∈ padded, c.isDigit = true := by
    rw [← hpadded]
    exact List.forall_mem_append.2 ⟨isDigit_zeros, isDigit_toDigits⟩
  have hplaces : (padded.drop (padded.length - n)).length = n := by
    rw [List.length_drop]
    omega
  have hsplit := List.take_append_drop (padded.length - n) padded
  have hwritten : Written (padded.take (padded.length - n) ++ '.' :: padded.drop (padded.length - n)) _
      true :=
    .places (List.ne_nil_of_length_pos (by simp; omega)) (List.ne_nil_of_length_pos (by omega))
      (by rwa [hsplit])
  rw [hsplit, hvalue, hplaces] at hwritten
  simpa using hwritten

/-- A decimal without places, in positional notation. -/
lemma written_whole (h : 324 ≤ d.grid) :
    Written (d.positional "").toList (.ofQuotient (d.digits * 10 ^ (d.grid - 324)) 1) false := by
  obtain ⟨n, hn⟩ : ∃ n, d.grid - 324 = n := ⟨_, rfl⟩
  unfold positional
  rw [if_neg (by omega), hn]
  have hwritten : Written (Nat.toDigits 10 d.digits ++ List.replicate n '0') _ false :=
    .whole (List.append_ne_nil_of_left_ne_nil Nat.toDigits_ne_nil _)
      (List.forall_mem_append.2 ⟨isDigit_toDigits, isDigit_zeros⟩)
  rw [digitsValue_append, digitsValue_toDigits, digitsValue_zeros, List.length_replicate,
    Nat.add_zero, Nat.mul_comm] at hwritten
  simpa [digitsText, zeros, Nat.repr_eq_ofList_toDigits] using hwritten

end Decimal

namespace Double

variable {x : Double}

lemma text_eq (hx : x.Ordinary) :
    x.text = if x.units = 0 then "0" else x.shortest.positional "" := by
  have hnan : x.isNaN = false := by
    have : x.exponentField < 2047 := by simpa [isFinite] using hx.finite
    simp only [isNaN, Bool.and_eq_false_imp, beq_iff_eq]
    omega
  simp [text, NumberFormat.text, hnan, hx.unsigned, hx.finite, NumberFormat.magnitude,
    NumberFormat.usesExponent, NumberFormat.plain]

/-- Nothing is written as a nought. -/
lemma written_zero (hx : x.Ordinary) (hzero : x.units = 0) : Written ['0'] x false := by
  have hread : ofQuotient 0 1 = x :=
    ofQuotient_of_near hx Nat.one_pos (near_of_eq Nat.one_pos (by rw [hzero]; omega))
  have hwritten : Written ['0'] (.ofQuotient (Scan.digitsValue ['0']) 1) false :=
    .whole (by simp) (isDigit_zeros (n := 1))
  have hvalue : Scan.digitsValue ['0'] = 0 := rfl
  rwa [hvalue, hread] at hwritten

/-- A whole double without a point. -/
lemma written_text_of_isInteger (hx : x.Ordinary) (hwhole : x.isInteger = true) :
    Written x.text.toList x false := by
  rw [text_eq hx]
  by_cases hzero : x.units = 0
  · rw [if_pos hzero]
    exact written_zero hx hzero
  · rw [if_neg hzero]
    have hpos : 0 < x.units := by omega
    have hgrid := (isInteger_iff_grid hx hpos).1 hwhole
    have hwritten := Decimal.written_whole hgrid
    rwa [ofQuotient_of_le_grid hx hpos hgrid] at hwritten

/-- A double that is not whole has a point. -/
lemma written_text_of_not_isInteger (hx : x.Ordinary) (hwhole : x.isInteger = false) :
    Written x.text.toList x true := by
  have hpos : 0 < x.units := by
    by_contra hzero
    have hzero : x.units = 0 := by omega
    simp [isInteger, hx.finite, hzero] at hwhole
  rw [text_eq hx, if_neg (by omega)]
  have hgrid : x.shortest.grid < 324 := by
    by_contra hgrid
    rw [(isInteger_iff_grid hx hpos).2 (by omega)] at hwhole
    cases hwhole
  have hwritten := Decimal.written_places hgrid
  rwa [ofQuotient_of_grid_lt hx hpos hgrid] at hwritten

/-- A whole double with one place. -/
lemma written_tenthsText (hx : x.Ordinary) (hwhole : x.isInteger = true) :
    Written x.tenthsText.toList x true := by
  have hmod : x.units % one = 0 := by simpa [isInteger, hx.finite] using hwhole
  have hunits : x.units / one * one = x.units := Nat.div_mul_cancel (Nat.dvd_of_mod_eq_zero hmod)
  have hread : ofQuotient (10 * (x.units / one)) 10 = x := by
    refine ofQuotient_of_near hx (by decide) (near_of_eq (by decide) ?_)
    rw [Nat.mul_assoc, hunits, Nat.mul_comm]
  have hwritten : Written (Nat.toDigits 10 (x.units / one) ++ '.' :: ['0']) _ true :=
    .places Nat.toDigits_ne_nil (by simp)
      (List.forall_mem_append.2 ⟨isDigit_toDigits, isDigit_zeros (n := 1)⟩)
  rw [digitsValue_append, digitsValue_toDigits] at hwritten
  have hten : 10 ^ ['0'].length * (x.units / one) + Scan.digitsValue ['0'] = 10 * (x.units / one) := rfl
  have hplace : 10 ^ ['0'].length = 10 := rfl
  rw [hten, hplace, hread] at hwritten
  simpa [tenthsText, hx.unsigned, digitsText, Nat.repr_eq_ofList_toDigits] using hwritten

end Double

/-- **What is written for a number** is a text of its value, with a point or without as it was read. -/
theorem Literal.written_text {text : List Char} {x : Double} {fractional : Bool}
    (h : Written text x fractional) (hfinite : x.isFinite = true) :
    Written (Literal.number x fractional).text.toList x fractional := by
  have hx : x.Ordinary := ⟨hfinite, h.isNegative⟩
  unfold Literal.text
  dsimp only
  cases fractional with
  | false => exact Double.written_text_of_isInteger hx (h.isInteger hfinite)
  | true =>
    cases hwhole : x.isInteger with
    | false => exact Double.written_text_of_not_isInteger hx hwhole
    | true => exact Double.written_tenthsText hx hwhole

end Shading
