import Mathlib.Algebra.Ring.Nat
import Mathlib.Data.Nat.Log
import FindQuery.Proofs.NotANumber

/-! Whole numbers as floating-point numbers. -/

namespace FindQuery

theorem roundQuotient_of_dvd {num den : Nat} (hden : 0 < den) (h : den ∣ num) :
    roundQuotient num den = num / den := by
  simp only [roundQuotient, Nat.mod_eq_zero_of_dvd h, Nat.mul_zero, if_pos hden]

namespace Binary64

/-- A whole number that is a floating-point number: in the range, with no more than fifty-three binary
digits in front of its zeros. -/
def IsWhole (n : Nat) : Prop := n < 2 ^ 1024 ∧ ∃ m k, m < 2 ^ 53 ∧ n = m * 2 ^ k

def grid (u : Nat) : Nat := 2 ^ (u.log2 - 52)

-- The powers of two that bound the range are large. Their exponents are hidden, so that nothing computes them.
theorem unitsInOne_eq : unitsInOne = 2 ^ 1074 := by
  unfold unitsInOne
  generalize 1074 = k
  rfl

theorem unitsLimit_eq : unitsLimit = 2 ^ (1024 + 1074) := by
  have hsum : 1024 + 1074 = 2098 := rfl
  unfold unitsLimit
  rw [hsum]
  generalize 2098 = k
  rfl

theorem mul_two_pow_lt {n j : Nat} (h : n < 2 ^ j) (k : Nat) : n * 2 ^ k < 2 ^ (j + k) := by
  rw [Nat.pow_add]
  exact Nat.mul_lt_mul_of_pos_right h (Nat.two_pow_pos k)

theorem lt_two_pow_of_le {n j k : Nat} (h : n < 2 ^ j) (hle : j ≤ k) : n < 2 ^ k :=
  Nat.lt_of_lt_of_le h (Nat.pow_le_pow_right Nat.two_pos hle)

theorem eq_mul_two_pow {m n i : Nat} (j : Nat) (h : m * 2 ^ j = n * 2 ^ (i + j)) : m = n * 2 ^ i := by
  rw [Nat.pow_add, ← Nat.mul_assoc] at h
  exact Nat.eq_of_mul_eq_mul_right (Nat.two_pow_pos j) h

theorem mul_unitsInOne_lt {n : Nat} (h : n < 2 ^ 1024) : n * unitsInOne < unitsLimit := by
  have hlt := mul_two_pow_lt h 1074
  rwa [← unitsInOne_eq, ← unitsLimit_eq] at hlt

section Units
variable {x : Binary64} {u n m k : Nat} {negative : Bool}

theorem grid_pos (u : Nat) : 0 < grid u := Nat.two_pow_pos _

theorem roundUnits_of_grid_dvd (h : grid u ∣ u) : roundUnits u 1 = u := by
  have hgrid : roundUnits u 1 = roundQuotient u (grid u) * grid u := by
    rw [roundUnits, Nat.div_one, Nat.one_mul]
    rfl
  rw [hgrid, roundQuotient_of_dvd (grid_pos u) h, Nat.div_mul_cancel h]

theorem grid_dvd (hm : m < 2 ^ 53) : grid (m * 2 ^ k) ∣ m * 2 ^ k := by
  rcases Nat.eq_zero_or_pos m with rfl | hpos
  · rw [Nat.zero_mul]
    exact Nat.dvd_zero _
  · have hne : m * 2 ^ k ≠ 0 := (Nat.mul_pos hpos (Nat.two_pow_pos k)).ne'
    have hlog : (m * 2 ^ k).log2 < 53 + k := (Nat.log2_lt hne).2 (mul_two_pow_lt hm k)
    exact Nat.dvd_mul_left_of_dvd (Nat.pow_dvd_pow 2 (by omega)) m

theorem div_grid_bounds (h : fractionCount ≤ u) :
    fractionCount ≤ u / grid u ∧ u / grid u < 2 * fractionCount := by
  have hne : u ≠ 0 := (Nat.lt_of_lt_of_le fractionCount_pos h).ne'
  have hlog : 52 ≤ u.log2 := (Nat.le_log2 hne).2 h
  have hlow : fractionCount * grid u ≤ u := by
    have hpow : 2 ^ 52 * grid u = 2 ^ u.log2 := by
      rw [grid, ← Nat.pow_add, Nat.add_sub_cancel' hlog]
    exact hpow ▸ Nat.log2_self_le hne
  have hhigh : u < 2 * fractionCount * grid u := by
    have hpow : 2 ^ 53 * grid u = 2 ^ (u.log2 + 1) := by
      rw [grid, ← Nat.pow_add]
      congr 1
      omega
    exact hpow ▸ Nat.lt_log2_self
  exact ⟨(Nat.le_div_iff_mul_le (grid_pos u)).2 hlow, (Nat.div_lt_iff_lt_mul (grid_pos u)).2 hhigh⟩

theorem log2_lt_of_lt_unitsLimit (hne : u ≠ 0) (h : u < unitsLimit) : u.log2 < 2098 := by
  unfold unitsLimit at h
  generalize 2098 = k at h ⊢
  exact (Nat.log2_lt hne).2 h

theorem units_ofUnits (hlimit : u < unitsLimit) (h : grid u ∣ u) :
    (ofUnits negative u).IsFinite ∧ (ofUnits negative u).units = u := by
  rw [ofUnits, if_neg (Nat.not_le.2 hlimit)]
  split
  · next hsmall => exact ⟨Nat.zero_lt_succ _, Nat.mod_eq_of_lt hsmall⟩
  · next hlarge =>
    have hlarge : fractionCount ≤ u := Nat.not_lt.1 hlarge
    have hlog := log2_lt_of_lt_unitsLimit (Nat.lt_of_lt_of_le fractionCount_pos hlarge).ne' hlimit
    have hexponent : (u.log2 - 52 + 1) % 2048 = u.log2 - 52 + 1 := Nat.mod_eq_of_lt (by omega)
    refine ⟨?_, ?_⟩
    · show (u.log2 - 52 + 1) % 2048 < 2047
      omega
    · obtain ⟨hlow, hhigh⟩ := div_grid_bounds hlarge
      have hfraction : fractionCount + u / grid u % fractionCount = u / grid u := by
        rw [Nat.mod_eq_sub_mod hlow, Nat.mod_eq_of_lt (by omega), Nat.add_sub_cancel' hlow]
      simp only [units, hexponent, Nat.succ_ne_zero, if_false, Nat.add_sub_cancel]
      show (fractionCount + u / grid u % fractionCount) * grid u = u
      rw [hfraction, Nat.div_mul_cancel h]

theorem exists_units_eq (h : x.IsFinite) : ∃ m k, m < 2 ^ 53 ∧ k ≤ 2045 ∧ x.units = m * 2 ^ k := by
  have hexponent : x.exponent.val < 2047 := h
  have hfraction : x.fraction.val < 4503599627370496 := x.fraction.isLt
  unfold units
  split
  · exact ⟨x.fraction.val, 0, by omega, by omega, (Nat.mul_one _).symm⟩
  · refine ⟨fractionCount + x.fraction.val, x.exponent.val - 1, ?_, by omega, rfl⟩
    simp only [fractionCount]
    omega

theorem isWhole_of_units (hfinite : x.IsFinite) (h : x.units = n * unitsInOne) : IsWhole n := by
  obtain ⟨m, k, hm, hk, hunits⟩ := exists_units_eq hfinite
  rw [hunits, unitsInOne_eq] at h
  rcases Nat.le_total 1074 k with hle | hle
  · obtain ⟨j, rfl⟩ := Nat.exists_eq_add_of_le' hle
    have hn : n = m * 2 ^ j := eq_mul_two_pow 1074 h.symm
    refine ⟨?_, m, j, hm, hn⟩
    rw [hn]
    exact lt_two_pow_of_le (k := 1024) (mul_two_pow_lt hm j) (by omega)
  · obtain ⟨j, hj⟩ := Nat.exists_eq_add_of_le' hle
    rw [hj] at h
    have hm : n * 2 ^ j < 2 ^ 53 := eq_mul_two_pow k h ▸ hm
    have hsmall : n < 2 ^ 53 := Nat.lt_of_le_of_lt (Nat.le_mul_of_pos_right n (Nat.two_pow_pos j)) hm
    refine ⟨?_, n, 0, hsmall, (Nat.mul_one n).symm⟩
    exact lt_two_pow_of_le (k := 1024) hsmall (by decide)

theorem negative_ofUnits : (ofUnits negative u).negative = negative := by
  unfold ofUnits
  split
  · rfl
  · split <;> rfl

theorem ofDecimal_whole (h : n ≠ 0) :
    ofDecimal negative n 0 = ofUnits negative (roundUnits (n * unitsInOne) 1) := by
  have hlog : ¬ (n.log2 : Int) + 1200 < 3 * -0 := by omega
  have hscale : Nat.pow 10 (0 : Int).natAbs = 1 := rfl
  rw [ofDecimal, if_neg h, if_neg (by decide), if_neg hlog]
  simp only [hscale, Int.lt_irrefl, if_false, Nat.mul_one]

theorem negative_ofDecimal_whole : (ofDecimal negative n 0).negative = negative := by
  rcases Nat.eq_zero_or_pos n with rfl | hpos
  · rfl
  · rw [ofDecimal_whole hpos.ne', negative_ofUnits]

theorem ofDecimal_whole_iff : (ofDecimal negative n 0).IsFinite ∧
    (ofDecimal negative n 0).units = n * unitsInOne ↔ IsWhole n := by
  refine ⟨fun h => isWhole_of_units h.1 h.2, ?_⟩
  rintro ⟨hlt, m, k, hm, rfl⟩
  rcases Nat.eq_zero_or_pos (m * 2 ^ k) with hzero | hpos
  · rw [hzero, Nat.zero_mul]
    exact ⟨Nat.zero_lt_succ _, rfl⟩
  · have hgrid : grid (m * 2 ^ k * unitsInOne) ∣ m * 2 ^ k * unitsInOne := by
      have hunits : m * 2 ^ k * unitsInOne = m * 2 ^ (k + 1074) := by
        rw [unitsInOne_eq, Nat.pow_add, Nat.mul_assoc]
      rw [hunits]
      exact grid_dvd hm
    rw [ofDecimal_whole hpos.ne', roundUnits_of_grid_dvd hgrid]
    exact units_ofUnits (mul_unitsInOne_lt hlt) hgrid

end Units

end Binary64
end FindQuery
