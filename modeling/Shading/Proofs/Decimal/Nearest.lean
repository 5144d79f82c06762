import Mathlib.Tactic.Linarith
import Mathlib.Tactic.Ring
import Shading.Decimal.Shortest

/-!
# Reading the nearest double

A quotient between the two midpoints around a double is read as that double.  Just below a power of two
the doubles lie closer together, so that the quotient may be counted in gaps of half the size; the
count is then `2 ^ 53`, and carries into the exponent.

* `Double.magnitude_eq` — the bits from the count of gaps and the scale;
* `Double.roundEven_eq` — the nearest whole number, a half going to the even neighbour;
* `Double.exists_scale` — every quotient is counted at some scale;
* `Double.Near` — between the midpoints, in least units;
* `Double.ofQuotient_of_near` — what is near a double is read as it;
* `Double.isInteger_ofQuotient` — whole numbers are read as whole doubles.
-/

namespace Shading.Double

variable {x : Double}

/-! ### Scale and significand -/

lemma fractionField_lt (x : Double) : x.fractionField < 2 ^ 52 := Nat.mod_lt _ (by decide)

/-- **The bits of a double** are its count of gaps on top of its scale. -/
lemma magnitude_eq (x : Double) : x.magnitude = x.scale * 2 ^ 52 + x.significand := by
  have hsplit : 2 ^ 52 * x.exponentField + x.fractionField = x.magnitude :=
    Nat.div_add_mod x.magnitude (2 ^ 52)
  unfold scale significand
  simp only [Nat.pow_eq]
  split <;> omega

lemma significand_lt (x : Double) : x.significand < 2 ^ 53 := by
  have hfraction := x.fractionField_lt
  unfold significand
  simp only [Nat.pow_eq]
  split <;> omega

/-- A double that is not among the smallest has all its bits. -/
lemma le_significand (h : 0 < x.scale) : 2 ^ 52 ≤ x.significand := by
  unfold scale at h
  unfold significand
  simp only [Nat.pow_eq]
  split <;> omega

lemma isFinite_iff : x.isFinite = true ↔ x.magnitude < infinityBits := by
  unfold isFinite exponentField infinityBits
  rw [decide_eq_true_eq]
  exact Nat.div_lt_iff_lt_mul (by decide)

/-- The exponent is kept apart, so that the power is not evaluated. -/
lemma one_eq {e : Nat} (h : 1074 = e) : one = 2 ^ e := by
  unfold one
  rw [h]
  rfl

lemma one_pos : 0 < one := by
  obtain ⟨e, he⟩ : ∃ e, 1074 = e := ⟨_, rfl⟩
  rw [one_eq he]
  exact Nat.two_pow_pos e

lemma two_pow_dvd_one {k : Nat} (h : k ≤ 1074) : 2 ^ k ∣ one := by
  obtain ⟨e, he⟩ : ∃ e, 1074 = e := ⟨_, rfl⟩
  rw [one_eq he]
  exact Nat.pow_dvd_pow 2 (he ▸ h)

lemma one_dvd_two_pow {k : Nat} (h : 1074 ≤ k) : one ∣ 2 ^ k := by
  obtain ⟨e, he⟩ : ∃ e, 1074 = e := ⟨_, rfl⟩
  rw [one_eq he]
  exact Nat.pow_dvd_pow 2 (he ▸ h)

lemma gap_pos (x : Double) : 0 < x.gap := Nat.pow_pos (by decide)

/-! ### Rounding -/

/-- **The nearest whole number.** -/
lemma roundEven_eq {num den s : Nat} (hden : 0 < den) (hlow : 2 * (s * den) ≤ 2 * num + den)
    (hhigh : 2 * num ≤ 2 * (s * den) + den)
    (hodd : s % 2 = 1 → 2 * (s * den) < 2 * num + den ∧ 2 * num < 2 * (s * den) + den) :
    roundEven num den = s := by
  unfold roundEven
  dsimp only
  have hsplit : den * (num / den) + num % den = num := Nat.div_add_mod num den
  have hr : num % den < den := Nat.mod_lt _ hden
  generalize num / den = q at *
  generalize num % den = r at *
  have hlower : s ≤ q + 1 := by
    by_contra hs
    have : (q + 2) * den ≤ s * den := Nat.mul_le_mul_right _ (by omega)
    nlinarith
  have hupper : q ≤ s := by
    by_contra hs
    have : (s + 1) * den ≤ q * den := Nat.mul_le_mul_right _ (by omega)
    nlinarith
  obtain rfl | rfl : s = q ∨ s = q + 1 := by omega
  · have hcomm : s * den = den * s := Nat.mul_comm _ _
    split
    · rfl
    · split <;> omega
  · have hcomm : (q + 1) * den = den * q + den := by ring
    split
    · omega
    · split <;> omega

/-- A whole number of so many bits is counted at this scale. -/
lemma readScale_eq {whole k : Nat} (hlow : k = 0 ∨ 2 ^ (52 + k) ≤ whole) (hhigh : whole < 2 ^ (53 + k)) :
    (if whole < Nat.pow 2 53 then 0 else whole.log2 - 52) = k := by
  simp only [Nat.pow_eq]
  cases k with
  | zero => exact if_pos hhigh
  | succ k =>
    have hle : 2 ^ (52 + (k + 1)) ≤ whole := hlow.resolve_left (by omega)
    have hpow : 2 ^ 53 ≤ 2 ^ (52 + (k + 1)) := Nat.pow_le_pow_right (by decide) (by omega)
    have hne : whole ≠ 0 := by omega
    have hlog : whole.log2 = 52 + (k + 1) :=
      (Nat.log2_eq_iff hne).2 ⟨hle, by rwa [show 52 + (k + 1) + 1 = 53 + (k + 1) by omega]⟩
    rw [if_neg (by omega), hlog]
    omega

/-- Every quotient is counted at some scale. -/
lemma exists_scale (num : Nat) {den : Nat} (hden : 0 < den) :
    ∃ k, (k = 0 ∨ 2 ^ 52 * (2 ^ k * den) ≤ num * one) ∧ num * one < 2 ^ 53 * (2 ^ k * den) := by
  obtain ⟨whole, hwhole⟩ : ∃ whole, num * one / den = whole := ⟨_, rfl⟩
  by_cases hsmall : whole < 2 ^ 53
  · refine ⟨0, .inl rfl, ?_⟩
    rw [pow_zero, Nat.one_mul]
    exact (Nat.div_lt_iff_lt_mul hden).1 (hwhole ▸ hsmall)
  · have hne : whole ≠ 0 := by omega
    have hlog : 52 ≤ whole.log2 := (Nat.le_log2 hne).2 (by omega)
    obtain ⟨k, hk⟩ : ∃ k, whole.log2 = 52 + k := ⟨whole.log2 - 52, by omega⟩
    obtain ⟨hlow, hhigh⟩ := (Nat.log2_eq_iff hne).1 hk
    rw [← hwhole, Nat.le_div_iff_mul_le hden, Nat.pow_add, Nat.mul_assoc] at hlow
    rw [← hwhole, Nat.div_lt_iff_lt_mul hden, show 52 + k + 1 = 53 + k by omega, Nat.pow_add,
      Nat.mul_assoc] at hhigh
    exact ⟨k, .inr hlow, hhigh⟩

/-- What a quotient is read as, when it is counted at this scale. -/
lemma nearestBits_eq {num den k : Nat} (hden : 0 < den)
    (hbits : k = 0 ∨ 2 ^ 52 * (2 ^ k * den) ≤ num * one) (hfew : num * one < 2 ^ 53 * (2 ^ k * den)) :
    nearestBits num den = min (k * 2 ^ 52 + roundEven (num * one) (2 ^ k * den)) infinityBits := by
  have hscale : (if num * one / den < Nat.pow 2 53 then 0 else (num * one / den).log2 - 52) = k := by
    refine readScale_eq (hbits.imp_right fun h => ?_) ?_
    · rw [Nat.le_div_iff_mul_le hden, Nat.pow_add, Nat.mul_assoc]
      exact h
    · rw [Nat.div_lt_iff_lt_mul hden, Nat.pow_add, Nat.mul_assoc]
      exact hfew
  unfold nearestBits
  dsimp only
  rw [hscale, Nat.mul_comm den]
  rfl

/-! ### Between the midpoints -/

/-- From the lower midpoint to the double, in quarters of a least unit. -/
def lower (x : Double) : Nat :=
  if x.fractionField = 0 && 1 < x.exponentField then x.gap else 2 * x.gap

/-- The quotient lies between the midpoints around the double, and strictly so when the double has an
odd number of gaps. -/
structure Near (x : Double) (num den : Nat) : Prop where
  low : 4 * (x.units * den) ≤ 4 * (num * one) + x.lower * den
  high : 4 * (num * one) ≤ 4 * (x.units * den) + 2 * (x.gap * den)
  odd : x.significand % 2 = 1 → 4 * (x.units * den) < 4 * (num * one) + x.lower * den ∧
    4 * (num * one) < 4 * (x.units * den) + 2 * (x.gap * den)

lemma lower_le (x : Double) : x.lower ≤ 2 * x.gap := by
  unfold lower
  split <;> omega

/-- Only a power of two lies next to smaller gaps. -/
lemma lower_eq (hscale : 0 < x.scale) (hs : x.significand = 2 ^ 52) : x.lower = x.gap := by
  unfold scale at hscale
  have hfraction : x.fractionField = 0 := by
    unfold significand at hs
    simp only [Nat.pow_eq] at hs
    split at hs <;> omega
  exact if_pos (by simp only [hfraction]; simp; omega)

/-- **What is near a double has its bits.** -/
theorem nearestBits_of_near {num den : Nat} (hfinite : x.isFinite = true) (hden : 0 < den)
    (h : x.Near num den) : nearestBits num den = x.magnitude := by
  have hlt := isFinite_iff.1 hfinite
  rw [magnitude_eq] at hlt ⊢
  obtain ⟨hlow, hhigh, hodd⟩ := h
  have hsig := x.significand_lt
  have hsmall := x.lower_le
  have hunits : ∀ d, x.units * d = x.significand * (x.gap * d) := fun d => Nat.mul_assoc _ _ _
  have hmono : x.lower * den ≤ 2 * (x.gap * den) := by
    rw [← Nat.mul_assoc]
    exact Nat.mul_le_mul_right _ hsmall
  have hgap : x.gap = 2 ^ x.scale := rfl
  have hpos : 0 < x.gap * den := Nat.mul_pos x.gap_pos hden
  have hbound : x.significand * (x.gap * den) + x.gap * den ≤ 2 ^ 53 * (x.gap * den) := by
    rw [← Nat.succ_mul]
    exact Nat.mul_le_mul_right _ hsig
  rw [hunits] at hlow hhigh hodd
  by_cases hregular : x.scale = 0 ∨ 2 ^ 52 * (2 ^ x.scale * den) ≤ num * one
  · have hround : roundEven (num * one) (x.gap * den) = x.significand := by
      refine roundEven_eq hpos (by omega) (by omega) fun hs => ?_
      have := hodd hs
      omega
    rw [nearestBits_eq hden hregular (by rw [← hgap]; omega), ← hgap, hround]
    exact Nat.min_eq_left hlt.le
  · -- just below a power of two: the count is `2 ^ 53` at half the gap
    obtain ⟨hscale, hbelow⟩ := not_or.1 hregular
    rw [← hgap] at hbelow
    have hs : x.significand = 2 ^ 52 := by
      refine le_antisymm ?_ (le_significand (by omega))
      by_contra hmore
      have : (2 ^ 52 + 1) * (x.gap * den) ≤ x.significand * (x.gap * den) :=
        Nat.mul_le_mul_right _ (by omega)
      omega
    rw [lower_eq (by omega) hs] at hlow
    obtain ⟨k, hk⟩ : ∃ k, x.scale = k + 1 := ⟨x.scale - 1, by omega⟩
    have hhalf : x.gap * den = 2 * (2 ^ k * den) := by
      rw [hgap, hk, Nat.pow_succ]
      ring
    rw [hhalf, hs] at hlow
    rw [hhalf] at hbelow
    rw [hs, hk] at hlt ⊢
    have hbits : (k + 1) * 2 ^ 52 + 2 ^ 52 = k * 2 ^ 52 + 2 ^ 53 := by ring
    rw [hbits] at hlt ⊢
    have hround : roundEven (num * one) (2 ^ k * den) = 2 ^ 53 :=
      roundEven_eq (by omega) (by omega) (by omega) fun hodd => absurd hodd (by decide)
    have hread : nearestBits num den =
        min (k * 2 ^ 52 + roundEven (num * one) (2 ^ k * den)) infinityBits :=
      nearestBits_eq hden (.inr (by omega)) (by omega)
    rw [hread, hround]
    exact Nat.min_eq_left hlt.le

/-- Finite and without a sign. -/
structure Ordinary (x : Double) : Prop where
  finite : x.isFinite = true
  unsigned : x.isNegative = false

/-- A double without a sign is its magnitude. -/
lemma bits_eq_magnitude (hsign : x.isNegative = false) : x.magnitude = x.bits.toNat := by
  have hlt : x.bits.toNat < 2 ^ 63 := by simpa [isNegative] using hsign
  exact Nat.mod_eq_of_lt hlt

/-- **What is near a double is read as it.** -/
theorem ofQuotient_of_near {num den : Nat} (hx : x.Ordinary) (hden : 0 < den) (h : x.Near num den) :
    ofQuotient num den = x := by
  unfold ofQuotient
  rw [nearestBits_of_near hx.finite hden h, bits_eq_magnitude hx.unsigned, UInt64.ofNat_toNat]

/-! ### Whole numbers -/

/-- The least units of a double whose bits are a count of gaps on top of a scale. -/
lemma units_eq {k s : Nat} (h : x.magnitude = k * 2 ^ 52 + s) (hmany : k = 0 ∨ 2 ^ 52 ≤ s)
    (hfew : s ≤ 2 ^ 53) : x.units = s * 2 ^ k := by
  have hexponent : x.exponentField = (k * 2 ^ 52 + s) / 2 ^ 52 := congrArg (· / 2 ^ 52) h
  have hfraction : x.fractionField = (k * 2 ^ 52 + s) % 2 ^ 52 := congrArg (· % 2 ^ 52) h
  unfold units gap significand scale
  simp only [Nat.pow_eq]
  rcases lt_trichotomy s (2 ^ 53) with hs | rfl | hs
  · by_cases hnormal : 2 ^ 52 ≤ s
    · rw [if_neg (by omega), show x.exponentField - 1 = k by omega,
        show 2 ^ 52 + x.fractionField = s by omega]
    · obtain rfl : k = 0 := hmany.resolve_right hnormal
      rw [if_pos (by omega), show x.exponentField - 1 = 0 by omega, show x.fractionField = s by omega]
  · rw [if_neg (by omega), show x.exponentField - 1 = k + 1 by omega,
      show 2 ^ 52 + x.fractionField = 2 ^ 52 by omega]
    ring
  · omega

lemma roundEven_bounds (num den : Nat) :
    num / den ≤ roundEven num den ∧ roundEven num den ≤ num / den + 1 := by
  unfold roundEven
  dsimp only
  split
  · omega
  · split <;> omega

/-- A whole number of gaps stays as it is. -/
lemma roundEven_of_dvd {num den : Nat} (hden : 0 < den) (h : den ∣ num) :
    roundEven num den = num / den := by
  unfold roundEven
  dsimp only
  rw [Nat.mod_eq_zero_of_dvd h]
  exact if_pos (by omega)

lemma toNat_bits_ofQuotient (num den : Nat) : (ofQuotient num den).bits.toNat = nearestBits num den := by
  have hle : nearestBits num den ≤ infinityBits := Nat.min_le_right _ _
  have hlt : infinityBits < 2 ^ 63 := by decide
  show (UInt64.ofNat (nearestBits num den)).toNat = nearestBits num den
  rw [UInt64.toNat_ofNat']
  exact Nat.mod_eq_of_lt (by omega)

lemma isNegative_ofQuotient (num den : Nat) : (ofQuotient num den).isNegative = false := by
  have hle : nearestBits num den ≤ infinityBits := Nat.min_le_right _ _
  have hlt : infinityBits < 2 ^ 63 := by decide
  unfold isNegative
  rw [toNat_bits_ofQuotient]
  simp only [Nat.pow_eq, decide_eq_false_iff_not]
  omega

lemma magnitude_ofQuotient (num den : Nat) : (ofQuotient num den).magnitude = nearestBits num den := by
  rw [bits_eq_magnitude (isNegative_ofQuotient num den), toNat_bits_ofQuotient]

/-- **Whole numbers are read as whole doubles.** -/
theorem isInteger_ofQuotient {n : Nat} (hfinite : (ofQuotient n 1).isFinite = true) :
    (ofQuotient n 1).isInteger = true := by
  suffices h : (ofQuotient n 1).units % one = 0 by simp [isInteger, hfinite, h]
  have hbits := isFinite_iff.1 hfinite
  obtain ⟨k, hmany, hfew⟩ := exists_scale n Nat.one_pos
  have hread := nearestBits_eq Nat.one_pos hmany hfew
  rw [Nat.mul_one] at hmany hfew hread
  have hpos : 0 < 2 ^ k := Nat.two_pow_pos k
  have hdiv : n * one / 2 ^ k < 2 ^ 53 := (Nat.div_lt_iff_lt_mul hpos).2 hfew
  obtain ⟨hlow, hhigh⟩ := roundEven_bounds (n * one) (2 ^ k)
  have hmagnitude : (ofQuotient n 1).magnitude = k * 2 ^ 52 + roundEven (n * one) (2 ^ k) := by
    rw [magnitude_ofQuotient] at hbits ⊢
    omega
  have hmany' : k = 0 ∨ 2 ^ 52 ≤ roundEven (n * one) (2 ^ k) :=
    hmany.imp_right fun h => ((Nat.le_div_iff_mul_le hpos).2 h).trans hlow
  rw [units_eq hmagnitude hmany' (by omega)]
  refine Nat.mod_eq_zero_of_dvd ?_
  rcases Nat.le_total k 1074 with hk | hk
  · -- the gap divides one
    have hdvd : 2 ^ k ∣ n * one := Dvd.dvd.mul_left (two_pow_dvd_one hk) n
    rw [roundEven_of_dvd hpos hdvd, Nat.div_mul_cancel hdvd]
    exact Nat.dvd_mul_left one n
  · exact Dvd.dvd.mul_left (one_dvd_two_pow hk) _

end Shading.Double
