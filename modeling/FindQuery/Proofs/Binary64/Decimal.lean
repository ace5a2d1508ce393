import FindQuery.Proofs.Binary64.Rounding

/-! Decimals as floating-point numbers. -/

namespace FindQuery.Binary64

section Overflow
variable {x : Binary64} {num den : Nat}

theorem isFinite_largest : largest.IsFinite := by decide

theorem units_largest_add : largest.units + largest.lastUnits = unitsLimit := by
  -- The exponent is hidden again, so that nothing computes the power.
  obtain ⟨k, hk, hlimit⟩ : ∃ k, largest.exponent.val = k + 1 ∧ unitsLimit = 2 ^ (53 + k) := by
    have hsum : 1024 + 1074 = 53 + 2045 := rfl
    exact ⟨2045, rfl, by rw [unitsLimit_eq, hsum]⟩
  have hunits : largest.units = (fractionCount + largest.fraction.val) * 2 ^ k := by
    rw [units, hk, if_neg (Nat.succ_ne_zero k), Nat.add_sub_cancel]
    rfl
  have hlast : largest.lastUnits = 2 ^ k := by
    rw [lastUnits, hk, Nat.add_sub_cancel]
    rfl
  have hfraction : fractionCount + largest.fraction.val + 1 = 2 ^ 53 := rfl
  rw [hunits, hlast, hlimit, ← Nat.succ_mul, Nat.succ_eq_add_one, hfraction, Nat.pow_add]

theorem units_le_largest (h : x.IsFinite) : x.units ≤ largest.units := by
  have hbound : x.rank < 9218868437227405312 := isFinite_iff_rank.1 h
  have hlargest : largest.rank = 9218868437227405311 := rfl
  rw [← Nat.not_lt, units_lt_units_iff, hlargest]
  omega

theorem overflowBound_eq :
    overflowBound = ((largest.units : ℚ) + unitsLimit) / 2 / unitsInOne := by
  have hlargest : largest.toRat = largest.units / unitsInOne := toRat_eq largest
  rw [overflowBound, lastPlace, hlargest, ← units_largest_add, Nat.cast_add]
  ring

theorem isShort_unitsLimit : IsShort unitsLimit :=
  ⟨1, 1024 + 1074, by decide, by rw [Nat.one_mul, unitsLimit_eq]⟩

theorem units_largest_lt_unitsLimit : largest.units < unitsLimit := by
  rw [← units_largest_add]
  exact Nat.lt_add_of_pos_right (lastUnits_pos largest)

theorem unitsLimit_le_roundUnits (hden : 0 < den) (h : ((largest.units : ℚ) + unitsLimit) / 2 ≤ num / den) :
    unitsLimit ≤ roundUnits num den := by
  by_contra hlt
  have hlt : roundUnits num den < unitsLimit := Nat.lt_of_not_le hlt
  obtain ⟨hfinite, hunits⟩ := units_ofUnits_roundUnits false hlt
  have hlargest : (roundUnits num den : ℚ) ≤ largest.units := by
    rw [← hunits]
    exact Nat.cast_le.2 (units_le_largest hfinite)
  have hlimit : (roundUnits num den : ℚ) < unitsLimit := Nat.cast_lt.2 hlt
  have hnearest := abs_roundUnits_sub_le num hden isShort_unitsLimit
  have hbelow : |(roundUnits num den : ℚ) - num / den| = num / den - roundUnits num den := by
    rw [abs_sub_comm, abs_of_nonneg (by linarith)]
  rw [hbelow] at hnearest
  have habove : |(unitsLimit : ℚ) - num / den| = unitsLimit - num / den := by
    rcases abs_cases ((unitsLimit : ℚ) - num / den) with ⟨heq, -⟩ | ⟨heq, -⟩
    · exact heq
    · linarith
  rw [habove] at hnearest
  have hsame : (roundUnits num den : ℚ) = largest.units := by linarith
  have htie : |(unitsLimit : ℚ) - num / den| = |(roundUnits num den : ℚ) - num / den| := by
    rw [habove, hbelow]
    linarith
  have heven := even_fraction_of_tie false hden hlt isShort_unitsLimit hlt.ne' htie
  have hpattern : ofUnits false (roundUnits num den) = largest :=
    eq_of_units_eq negative_ofUnits (hunits.trans (Nat.cast_inj.1 hsame))
  rw [hpattern] at heven
  exact absurd heven (by decide)

theorem roundUnits_lt_unitsLimit (hden : 0 < den) (h : (num : ℚ) / den < ((largest.units : ℚ) + unitsLimit) / 2) :
    roundUnits num den < unitsLimit := by
  by_contra hge
  have hge : (unitsLimit : ℚ) ≤ roundUnits num den := Nat.cast_le.2 (Nat.le_of_not_lt hge)
  have hlimit : (largest.units : ℚ) < unitsLimit := Nat.cast_lt.2 units_largest_lt_unitsLimit
  have hnearest := abs_roundUnits_sub_le num hden (isShort_units isFinite_largest)
  rw [abs_of_pos (by linarith)] at hnearest
  rcases abs_cases ((largest.units : ℚ) - num / den) with ⟨heq, -⟩ | ⟨heq, -⟩
  · linarith
  · linarith

end Overflow

section Rounded
variable {negative : Bool} {num den c k : Nat} {e : Int}

theorem abs_magnitude_sub (x : Binary64) (r : ℚ) :
    |x.magnitude - r / unitsInOne| = |(x.units : ℚ) - r| / unitsInOne := by
  rw [magnitude, ← sub_div, abs_div, abs_of_pos unitsInOne_pos]

theorem isRounded_ofUnits (negative : Bool) (num : Nat) (hden : 0 < den) :
    IsRounded negative (withSign negative (num / den / unitsInOne)) (ofUnits negative (roundUnits num den)) := by
  have hnonneg : (0 : ℚ) ≤ num / den / unitsInOne :=
    div_nonneg (div_nonneg (Nat.cast_nonneg _) (Nat.cast_nonneg _)) unitsInOne_pos.le
  refine ⟨negative_ofUnits, ?_, ?_⟩
  · intro h
    rw [abs_withSign, abs_of_nonneg hnonneg, overflowBound_eq, div_lt_div_iff_of_pos_right unitsInOne_pos] at h
    have hlt := roundUnits_lt_unitsLimit hden h
    obtain ⟨hfinite, hunits⟩ := units_ofUnits_roundUnits negative hlt
    have hnearest := isNearest_of_magnitude hnonneg hfinite ?_ ?_
    · rwa [negative_ofUnits] at hnearest
    · intro y hy
      rw [abs_magnitude_sub, abs_magnitude_sub, hunits, div_le_div_iff_of_pos_right unitsInOne_pos]
      exact abs_roundUnits_sub_le num hden (isShort_units hy)
    · intro y hy hne htie
      rw [abs_magnitude_sub, abs_magnitude_sub, hunits, div_left_inj' unitsInOne_pos.ne'] at htie
      refine even_fraction_of_tie negative hden hlt (isShort_units hy) ?_ htie
      intro heq
      rw [magnitude, magnitude, hunits, heq] at hne
      exact hne rfl
  · intro h
    rw [abs_withSign, abs_of_nonneg hnonneg, overflowBound_eq, div_le_div_iff_of_pos_right unitsInOne_pos] at h
    rw [ofUnits, if_pos (unitsLimit_le_roundUnits hden h)]

theorem ofUnits_zero (negative : Bool) : ofUnits negative 0 = zero negative := by
  have hpos : 0 < unitsLimit := Nat.zero_lt_of_lt units_largest_lt_unitsLimit
  rw [ofUnits, if_neg (Nat.not_le.2 hpos), if_pos fractionCount_pos]
  rfl

theorem roundUnits_eq_zero (h : 2 * num < den) : roundUnits num den = 0 := by
  have hlt : num < den := by omega
  have hsteps : steps num den = 0 := by
    have hgrid : grid 0 = 1 := rfl
    rw [steps, Nat.div_eq_of_lt hlt, hgrid, Nat.mul_one]
    simp only [roundQuotient, Nat.mod_eq_of_lt hlt, if_pos h]
    exact Nat.div_eq_of_lt hlt
  rw [roundUnits_eq, hsteps, Nat.zero_mul]

theorem isRounded_zero (negative : Bool) (h : 2 * num < den) :
    IsRounded negative (withSign negative (num / den / unitsInOne)) (zero negative) := by
  have hrounded := isRounded_ofUnits negative num (Nat.zero_lt_of_lt h)
  rwa [roundUnits_eq_zero h, ofUnits_zero] at hrounded

theorem isRounded_infinity {r : ℚ} (negative : Bool) (h : (unitsLimit : ℚ) ≤ r * unitsInOne) :
    IsRounded negative (withSign negative r) (infinity negative) := by
  have hlimit : (largest.units : ℚ) < unitsLimit := Nat.cast_lt.2 units_largest_lt_unitsLimit
  have hbound : overflowBound ≤ |withSign negative r| := by
    refine le_trans ?_ (le_trans (le_abs_self r) (abs_withSign negative r).ge)
    rw [overflowBound_eq, div_le_iff₀ unitsInOne_pos]
    linarith
  exact ⟨rfl, fun hlt => absurd hbound (not_le.2 hlt), fun _ => rfl⟩

theorem two_pow_le_ten_pow {j : Nat} (h : j ≤ 3 * k) : 2 ^ j ≤ 10 ^ k := by
  calc 2 ^ j ≤ 2 ^ (3 * k) := Nat.pow_le_pow_right Nat.two_pos h
    _ = 8 ^ k := Nat.pow_mul 2 3 k
    _ ≤ 10 ^ k := Nat.pow_le_pow_left (by decide) k

theorem exists_unitsLimit_eq : ∃ i, i ≤ 1200 ∧ unitsLimit = 2 ^ i * unitsInOne := by
  refine ⟨1024, by decide, ?_⟩
  rw [unitsLimit_eq, unitsInOne_eq]
  generalize 1024 = i
  generalize 1074 = j
  exact Nat.pow_add 2 i j

theorem unitsLimit_le_mul (hc : c ≠ 0) (hk : 400 < k) : unitsLimit ≤ c * 10 ^ k * unitsInOne := by
  obtain ⟨i, hi, hlimit⟩ := exists_unitsLimit_eq
  have hpow : 2 ^ i ≤ 10 ^ k := two_pow_le_ten_pow (by omega)
  rw [hlimit]
  exact Nat.mul_le_mul_right unitsInOne (hpow.trans (Nat.le_mul_of_pos_left _ (Nat.pos_of_ne_zero hc)))

theorem two_mul_units_lt (hk : c.log2 + 1200 < 3 * k) : 2 * (c * unitsInOne) < 10 ^ k := by
  have hc : c * 2 ^ 1074 < 2 ^ (c.log2 + 1 + 1074) := mul_two_pow_lt Nat.lt_log2_self 1074
  rw [← unitsInOne_eq] at hc
  calc 2 * (c * unitsInOne) < 2 * 2 ^ (c.log2 + 1 + 1074) := Nat.mul_lt_mul_of_pos_left hc Nat.two_pos
    _ = 2 ^ (c.log2 + 1 + 1074 + 1) := Nat.pow_succ'.symm
    _ ≤ 10 ^ k := two_pow_le_ten_pow (by omega)

theorem cast_units_div_neg (c k : Nat) :
    ((c * unitsInOne : Nat) : ℚ) / (10 ^ k : Nat) / unitsInOne = c * 10 ^ (-k : Int) := by
  rw [Nat.cast_mul, Nat.cast_pow, Nat.cast_ofNat, div_right_comm, mul_div_cancel_right₀ _ unitsInOne_pos.ne',
    zpow_neg, zpow_natCast, div_eq_mul_inv]

theorem cast_units_div (c k : Nat) :
    ((c * 10 ^ k * unitsInOne : Nat) : ℚ) / (1 : Nat) / unitsInOne = c * 10 ^ (k : Int) := by
  rw [Nat.cast_one, div_one, Nat.cast_mul, mul_div_cancel_right₀ _ unitsInOne_pos.ne', Nat.cast_mul, Nat.cast_pow,
    Nat.cast_ofNat, zpow_natCast]

theorem isRounded_ofDecimal (negative : Bool) (c : Nat) (e : Int) :
    IsRounded negative (withSign negative (c * 10 ^ e)) (ofDecimal negative c e) := by
  simp only [ofDecimal]
  split_ifs with hc hlarge hsmall hneg
  · have hlt : 2 * 0 < 1 := Nat.one_pos
    have hzero := isRounded_zero negative hlt
    rwa [Nat.cast_zero, zero_div, zero_div, ← zero_mul ((10 : ℚ) ^ e), ← Nat.cast_zero, ← hc] at hzero
  · obtain ⟨k, rfl⟩ := Int.eq_ofNat_of_zero_le (show 0 ≤ e by omega)
    apply isRounded_infinity
    rw [zpow_natCast]
    exact_mod_cast unitsLimit_le_mul hc (k := k) (by omega)
  · obtain ⟨k, rfl⟩ : ∃ k : Nat, e = -k := ⟨e.natAbs, by omega⟩
    rw [← cast_units_div_neg]
    exact isRounded_zero negative (two_mul_units_lt (by omega))
  · obtain ⟨k, rfl⟩ : ∃ k : Nat, e = -k := ⟨e.natAbs, by omega⟩
    rw [← cast_units_div_neg, Int.natAbs_neg, Int.natAbs_natCast]
    exact isRounded_ofUnits negative _ (Nat.pow_pos (by decide))
  · obtain ⟨k, rfl⟩ := Int.eq_ofNat_of_zero_le (not_lt.1 hneg)
    rw [← cast_units_div, Int.natAbs_natCast]
    exact isRounded_ofUnits negative _ Nat.one_pos

end Rounded

end FindQuery.Binary64
