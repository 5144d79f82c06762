import Shading.Decimal.Layout
import Shading.Proofs.Decimal.Nearest

/-!
# Quotients that are too large

A quotient is read as a finite double up to the midpoint between the largest finite double and the power
of two behind it.  At the midpoint itself the even neighbour is the power of two, and so it is read as
infinity, as is everything behind it.

* `Double.overflow` — the midpoint;
* `Double.roundEven_le_iff` — what is rounded to an odd number or below it;
* `Double.isFinite_ofQuotient_iff` — what is read as a finite double;
* `Double.text_of_overflow` — how all else is written.
-/

namespace Shading.Double

variable {num den : Nat}

/-- Up to an odd number is rounded what lies below the midpoint behind it. -/
lemma roundEven_le_iff {m : Nat} (hden : 0 < den) (hm : m % 2 = 1) :
    roundEven num den ≤ m ↔ 2 * num < (2 * m + 1) * den := by
  have hsplit : den * (num / den) + num % den = num := Nat.div_add_mod num den
  have hr : num % den < den := Nat.mod_lt _ hden
  unfold roundEven
  dsimp only
  generalize num / den = q at *
  generalize num % den = r at *
  have hbound : (2 * m + 1) * den = 2 * (den * m) + den := by ring
  have hcases : q < m ∧ den * q + den ≤ den * m ∨ q = m ∧ den * q = den * m ∨
      m < q ∧ den * m + den ≤ den * q := by
    rcases lt_trichotomy q m with hq | rfl | hq
    · exact .inl ⟨hq, Nat.mul_le_mul_left den hq⟩
    · exact .inr (.inl ⟨rfl, rfl⟩)
    · exact .inr (.inr ⟨hq, Nat.mul_le_mul_left den hq⟩)
  split
  · omega
  · split <;> omega

/-- Halfway from the largest finite double to the power of two behind it. -/
def overflow : Nat := (2 ^ 54 - 1) * Nat.pow 2 970

/-- The midpoint in least units. -/
lemma overflow_mul_one {e : Nat} (h : 2044 = e) : overflow * one = (2 ^ 54 - 1) * 2 ^ e := by
  obtain ⟨d, hd⟩ : ∃ d, 970 = d := ⟨_, rfl⟩
  obtain ⟨f, hf⟩ : ∃ f, 1074 = f := ⟨_, rfl⟩
  unfold overflow
  rw [one_eq hf, hd, Nat.pow_eq, Nat.mul_assoc, ← Nat.pow_add, show d + f = e by omega]

/-- **What is read as a finite double** lies below the midpoint. -/
theorem isFinite_ofQuotient_iff (hden : 0 < den) :
    (ofQuotient num den).isFinite = true ↔ num < overflow * den := by
  obtain ⟨k, hmany, hfew⟩ := exists_scale num hden
  obtain ⟨e, he⟩ : ∃ e, 2044 = e := ⟨_, rfl⟩
  have hfinite : (ofQuotient num den).isFinite = true ↔
      k * 2 ^ 52 + roundEven (num * one) (2 ^ k * den) < infinityBits := by
    rw [isFinite_iff, magnitude_ofQuotient, nearestBits_eq hden hmany hfew, min_lt_iff]
    exact or_iff_left (Nat.lt_irrefl _)
  have hlimit : num < overflow * den ↔ num * one < (2 ^ 54 - 1) * (2 ^ e * den) := by
    rw [← Nat.mul_assoc, ← overflow_mul_one he, Nat.mul_right_comm]
    exact (Nat.mul_lt_mul_right one_pos).symm
  have hpos : ∀ j, 0 < 2 ^ j * den := fun j => Nat.mul_pos (Nat.two_pow_pos j) hden
  have hmono : ∀ i j, i ≤ j → 2 ^ i * den ≤ 2 ^ j * den := fun i j hij =>
    Nat.mul_le_mul_right den (Nat.pow_le_pow_right (by decide) hij)
  have hdouble : ∀ j, 2 ^ (j + 1) * den = 2 * (2 ^ j * den) := fun j => by ring
  have hinfinity : infinityBits = 2047 * 2 ^ 52 := rfl
  obtain ⟨hlow, hhigh⟩ := roundEven_bounds (num * one) (2 ^ k * den)
  rw [hfinite, hlimit]
  rcases lt_trichotomy k (e + 1) with hk | rfl | hk
  · -- at a smaller scale the quotient is too small, and even a carry leaves it finite
    have hgap := hmono k e (by omega)
    have hdiv : num * one / (2 ^ k * den) < 2 ^ 53 := (Nat.div_lt_iff_lt_mul (hpos k)).2 hfew
    have := hpos e
    constructor <;> intro <;> omega
  · -- at the scale of the largest doubles only a carry is too much
    have hcarry : roundEven (num * one) (2 ^ (e + 1) * den) ≤ 2 ^ 53 - 1 ↔ _ :=
      roundEven_le_iff (hpos (e + 1)) (by decide)
    rw [hdouble] at hcarry ⊢
    omega
  · -- at a larger scale the quotient is too large
    have hgap := hmono (e + 2) k (by omega)
    rw [hdouble, hdouble] at hgap
    have hleast := hmany.resolve_left (by omega)
    have hdiv : 2 ^ 52 ≤ num * one / (2 ^ k * den) := (Nat.le_div_iff_mul_le (hpos k)).2 hleast
    have := hpos e
    constructor <;> intro <;> omega

/-- **What is too large is written as infinity.** -/
theorem text_of_overflow (hden : 0 < den) (h : overflow * den ≤ num) :
    (ofQuotient num den).text = "inf" := by
  have hnot : (ofQuotient num den).isFinite = false := by
    rw [Bool.eq_false_iff, ne_eq, isFinite_ofQuotient_iff hden]
    omega
  have hle : nearestBits num den ≤ infinityBits := Nat.min_le_right _ _
  have hmagnitude : (ofQuotient num den).magnitude = infinityBits := by
    have hge := mt isFinite_iff.2 (Bool.eq_false_iff.1 hnot)
    rw [magnitude_ofQuotient] at hge ⊢
    omega
  have hnan : (ofQuotient num den).isNaN = false := by
    have hfraction : (ofQuotient num den).fractionField = 0 := by
      rw [fractionField, hmagnitude]
      rfl
    simp [isNaN, hfraction]
  simp [text, NumberFormat.text, hnan, isNegative_ofQuotient, hnot]

end Shading.Double
