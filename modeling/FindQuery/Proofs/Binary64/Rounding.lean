import Mathlib.Data.Nat.Cast.Order.Field
import Mathlib.Tactic.Ring
import FindQuery.Proofs.Binary64.Nearest
import FindQuery.Proofs.Binary64.Whole

/-! Decimals are rounded correctly. -/

namespace FindQuery

structure RoundsTo (r : ℚ) (k : Nat) : Prop where
  abs_le : |(k : ℚ) - r| ≤ 1 / 2
  even_of_tie : |(k : ℚ) - r| = 1 / 2 → Even k

section Quotient
variable {num den j k : Nat} {r : ℚ}

theorem cast_div_add_mod_div (num : Nat) (hden : 0 < den) :
    (num : ℚ) / den = (num / den : Nat) + (num % den : Nat) / den := by
  have hpos : (0 : ℚ) < den := Nat.cast_pos.2 hden
  have hsplit : (num : ℚ) = den * (num / den : Nat) + (num % den : Nat) := by
    rw [← Nat.cast_mul, ← Nat.cast_add, Nat.div_add_mod]
  rw [eq_comm, eq_div_iff hpos.ne', add_mul, div_mul_cancel₀ _ hpos.ne', mul_comm, ← hsplit]

theorem RoundsTo.of_abs_lt (h : |(k : ℚ) - r| < 1 / 2) : RoundsTo r k := ⟨h.le, fun htie => absurd htie h.ne⟩

theorem roundsTo_roundQuotient (num : Nat) (hden : 0 < den) :
    RoundsTo (num / den) (roundQuotient num den) := by
  have hpos : (0 : ℚ) < den := Nat.cast_pos.2 hden
  have hrest : ((num % den : Nat) : ℚ) / den < 1 := by
    rw [div_lt_one hpos, Nat.cast_lt]
    exact Nat.mod_lt num hden
  have hnonneg : 0 ≤ ((num % den : Nat) : ℚ) / den := by positivity
  have hhalf : 2 * (((num % den : Nat) : ℚ) / den) = (2 * (num % den) : Nat) / den := by
    rw [Nat.cast_mul, Nat.cast_ofNat, mul_div_assoc]
  rw [cast_div_add_mod_div num hden]
  unfold roundQuotient
  generalize ((num % den : Nat) : ℚ) / den = t at hrest hnonneg hhalf ⊢
  simp only
  split_ifs with hbelow habove
  · have ht : 2 * t < 1 := by rwa [hhalf, div_lt_one hpos, Nat.cast_lt]
    apply RoundsTo.of_abs_lt
    rw [sub_add_cancel_left, abs_neg, abs_of_nonneg hnonneg]
    linarith
  · have ht : 1 < 2 * t := by rwa [hhalf, one_lt_div hpos, Nat.cast_lt]
    apply RoundsTo.of_abs_lt
    rw [Nat.cast_add, Nat.cast_one, add_sub_add_left_eq_sub, abs_of_pos (by linarith)]
    linarith
  · have heq : 2 * (num % den) = den := by omega
    have ht : t = 1 / 2 := by
      rw [heq, div_self hpos.ne'] at hhalf
      linarith
    have heven : Even (num / den + num / den % 2) := by
      rw [Nat.even_iff]
      omega
    refine ⟨?_, fun _ => heven⟩
    rw [Nat.cast_add, add_sub_add_left_eq_sub, ht]
    rcases Nat.mod_two_eq_zero_or_one (num / den) with hparity | hparity
    · rw [hparity, Nat.cast_zero, zero_sub, abs_neg, abs_of_pos one_half_pos]
    · rw [hparity, Nat.cast_one, sub_half, abs_of_pos one_half_pos]

theorem RoundsTo.half_le (h : RoundsTo r k) (hne : j ≠ k) : 1 / 2 ≤ |(j : ℚ) - r| := by
  have hapart : (1 : ℚ) ≤ |(j : ℚ) - k| := by
    have hint : (1 : Int) ≤ |(j : Int) - k| := Int.one_le_abs (sub_ne_zero.2 (Nat.cast_injective.ne hne))
    exact_mod_cast hint
  have htriangle := abs_sub_le (j : ℚ) r k
  have hk := h.abs_le
  rw [abs_sub_comm] at hk
  linarith

theorem RoundsTo.abs_sub_le (h : RoundsTo r k) (j : Nat) : |(k : ℚ) - r| ≤ |(j : ℚ) - r| := by
  by_cases hne : j = k
  · rw [hne]
  · exact h.abs_le.trans (h.half_le hne)

theorem RoundsTo.even (h : RoundsTo r k) (hne : j ≠ k) (htie : |(j : ℚ) - r| = |(k : ℚ) - r|) : Even k :=
  h.even_of_tie (le_antisymm h.abs_le (htie ▸ h.half_le hne))

theorem roundQuotient_le (num den : Nat) : roundQuotient num den ≤ num / den + 1 := by
  simp only [roundQuotient]
  split_ifs
  all_goals omega

end Quotient

namespace Binary64

def IsShort (v : Nat) : Prop := ∃ m k, m < 2 ^ 53 ∧ v = m * 2 ^ k

section Grid
variable {num den v n k s : Nat}

theorem isShort_units {x : Binary64} (h : x.IsFinite) : IsShort x.units := by
  obtain ⟨m, k, hm, -, hunits⟩ := exists_units_eq h
  exact ⟨m, k, hm, hunits⟩

theorem isShort_of_le (h : k ≤ 2 ^ 53) (s : Nat) : IsShort (k * 2 ^ s) := by
  rcases Nat.lt_or_eq_of_le h with hlt | rfl
  · exact ⟨k, s, hlt, rfl⟩
  · exact ⟨1, 53 + s, by decide, by rw [Nat.one_mul, Nat.pow_add]⟩

theorem IsShort.grid_dvd_or (h : IsShort v) (n : Nat) :
    grid n ∣ v ∨ ∃ w, grid n ∣ w ∧ v < w ∧ w ≤ n := by
  obtain ⟨m, k, hm, rfl⟩ := h
  by_cases hle : n.log2 - 52 ≤ k
  · exact .inl (Nat.dvd_mul_left_of_dvd (Nat.pow_dvd_pow 2 hle) m)
  · have hne : n ≠ 0 := by
      rintro rfl
      exact hle (Nat.zero_le k)
    refine .inr ⟨2 ^ n.log2, Nat.pow_dvd_pow 2 (Nat.sub_le _ _), ?_, Nat.log2_self_le hne⟩
    exact lt_two_pow_of_le (mul_two_pow_lt hm k) (by omega)

theorem div_grid_lt (n : Nat) : n / grid n < 2 ^ 53 := by
  rcases Nat.lt_or_ge n fractionCount with hlt | hge
  · exact Nat.lt_of_le_of_lt (Nat.div_le_self _ _) (Nat.lt_trans hlt (by decide))
  · exact (div_grid_bounds hge).2

def steps (num den : Nat) : Nat := roundQuotient num (den * grid (num / den))

theorem roundUnits_eq (num den : Nat) : roundUnits num den = steps num den * grid (num / den) := rfl

theorem steps_le (num den : Nat) : steps num den ≤ 2 ^ 53 := by
  refine (roundQuotient_le _ _).trans ?_
  rw [← Nat.div_div_eq_div_mul]
  exact div_grid_lt (num / den)

theorem isShort_roundUnits (num den : Nat) : IsShort (roundUnits num den) :=
  isShort_of_le (steps_le num den) _

theorem grid_dvd_of_isShort (h : IsShort v) : grid v ∣ v := by
  obtain ⟨m, k, hm, rfl⟩ := h
  exact grid_dvd hm

theorem roundsTo_steps (num : Nat) (hden : 0 < den) :
    RoundsTo ((num / den : ℚ) / grid (num / den)) (steps num den) := by
  rw [div_div, ← Nat.cast_mul]
  exact roundsTo_roundQuotient num (Nat.mul_pos hden (grid_pos _))

theorem abs_mul_sub {g : ℚ} (hg : 0 < g) (a r : ℚ) : |a * g - r| = |a - r / g| * g := by
  calc |a * g - r| = |(a - r / g) * g| := by rw [sub_mul, div_mul_cancel₀ _ hg.ne']
    _ = |a - r / g| * g := by rw [abs_mul, abs_of_pos hg]

theorem abs_roundUnits_sub_le_of_grid_dvd (num : Nat) (hden : 0 < den) (h : grid (num / den) ∣ v) :
    |(roundUnits num den : ℚ) - num / den| ≤ |(v : ℚ) - num / den| := by
  have hpos : (0 : ℚ) < grid (num / den) := Nat.cast_pos.2 (grid_pos _)
  obtain ⟨j, rfl⟩ := h
  rw [Nat.mul_comm, roundUnits_eq, Nat.cast_mul, Nat.cast_mul, abs_mul_sub hpos, abs_mul_sub hpos]
  exact mul_le_mul_of_nonneg_right ((roundsTo_steps num hden).abs_sub_le j) hpos.le

theorem even_steps_of_grid_dvd (hden : 0 < den) (h : grid (num / den) ∣ v) (hne : v ≠ roundUnits num den)
    (htie : |(v : ℚ) - num / den| = |(roundUnits num den : ℚ) - num / den|) : Even (steps num den) := by
  have hpos : (0 : ℚ) < grid (num / den) := Nat.cast_pos.2 (grid_pos _)
  obtain ⟨j, rfl⟩ := h
  rw [Nat.mul_comm, roundUnits_eq, Nat.cast_mul, Nat.cast_mul, abs_mul_sub hpos, abs_mul_sub hpos,
    mul_left_inj' hpos.ne'] at htie
  refine (roundsTo_steps num hden).even ?_ htie
  rintro rfl
  exact hne (Nat.mul_comm _ _)

theorem abs_sub_lt_of_off_grid {w : Nat} (hvw : v < w) (hw : w ≤ num / den) :
    |(w : ℚ) - num / den| < |(v : ℚ) - num / den| := by
  have hvw : (v : ℚ) < w := Nat.cast_lt.2 hvw
  have hfloor : (w : ℚ) ≤ num / den := (Nat.cast_le.2 hw).trans Nat.cast_div_le
  rw [abs_of_nonpos (by linarith), abs_of_nonpos (by linarith)]
  linarith

theorem abs_roundUnits_sub_le (num : Nat) (hden : 0 < den) (h : IsShort v) :
    |(roundUnits num den : ℚ) - num / den| ≤ |(v : ℚ) - num / den| := by
  rcases h.grid_dvd_or (num / den) with hdvd | ⟨w, hdvd, hvw, hw⟩
  · exact abs_roundUnits_sub_le_of_grid_dvd num hden hdvd
  · exact (abs_roundUnits_sub_le_of_grid_dvd num hden hdvd).trans (abs_sub_lt_of_off_grid hvw hw).le

theorem even_steps_of_tie (hden : 0 < den) (h : IsShort v) (hne : v ≠ roundUnits num den)
    (htie : |(v : ℚ) - num / den| = |(roundUnits num den : ℚ) - num / den|) : Even (steps num den) := by
  rcases h.grid_dvd_or (num / den) with hdvd | ⟨w, hdvd, hvw, hw⟩
  · exact even_steps_of_grid_dvd hden hdvd hne htie
  · have hle := abs_roundUnits_sub_le_of_grid_dvd num hden hdvd
    rw [← htie] at hle
    exact absurd (abs_sub_lt_of_off_grid hvw hw) (not_lt.2 hle)

end Grid

section Fraction
variable {negative : Bool} {num den u k s : Nat}

theorem even_mod_fractionCount (u : Nat) : Even (u % fractionCount) ↔ Even u := by
  rw [Nat.even_iff, Nat.even_iff]
  simp only [fractionCount]
  omega

theorem even_div_two_pow (hk : k ≤ 2 ^ 53) (heven : Even k) (s : Nat) :
    Even (k * 2 ^ s / 2 ^ ((k * 2 ^ s).log2 - 52)) := by
  obtain ⟨m, rfl⟩ := heven.two_dvd
  have hunits : 2 * m * 2 ^ s = m * 2 ^ (s + 1) := by
    rw [Nat.pow_succ', ← Nat.mul_assoc, Nat.mul_comm 2 m]
  rw [hunits]
  obtain ⟨t, ht⟩ : ∃ t, (m * 2 ^ (s + 1)).log2 - 52 = t := ⟨_, rfl⟩
  rw [ht]
  rcases Nat.lt_or_ge s t with hlt | hle
  · -- The steps carry into one more binary digit, and the others are zero.
    have hne : m * 2 ^ (s + 1) ≠ 0 := by
      intro hzero
      rw [hzero, Nat.log2_zero] at ht
      omega
    have hlow : 2 ^ (52 + (s + 1)) ≤ m * 2 ^ (s + 1) := (Nat.le_log2 hne).1 (by omega)
    rw [Nat.pow_add] at hlow
    have hm : m = 2 ^ 52 := by
      have hge := Nat.le_of_mul_le_mul_right hlow (Nat.two_pow_pos _)
      omega
    rw [hm, ← Nat.pow_add, Nat.log2_two_pow, Nat.add_sub_cancel_left] at ht
    rw [hm, ← ht, Nat.mul_div_cancel _ (Nat.two_pow_pos _)]
    decide
  · obtain ⟨d, rfl⟩ := Nat.exists_eq_add_of_le' hle
    have hpow : 2 ^ (d + t + 1) = 2 * 2 ^ d * 2 ^ t := by
      rw [Nat.pow_succ', Nat.pow_add, Nat.mul_assoc]
    rw [hpow, ← Nat.mul_assoc, Nat.mul_div_cancel _ (Nat.two_pow_pos _), Nat.mul_left_comm]
    exact even_two_mul _

theorem even_fraction_ofUnits (hlimit : k * 2 ^ s < unitsLimit) (hk : k ≤ 2 ^ 53) (heven : Even k) :
    Even (ofUnits negative (k * 2 ^ s)).fraction.val := by
  rw [ofUnits, if_neg (Nat.not_le.2 hlimit)]
  split
  · show Even (k * 2 ^ s % fractionCount)
    rw [even_mod_fractionCount]
    exact heven.mul_right _
  · show Even (k * 2 ^ s / 2 ^ ((k * 2 ^ s).log2 - 52) % fractionCount)
    rw [even_mod_fractionCount]
    exact even_div_two_pow hk heven s

theorem units_ofUnits_roundUnits (negative : Bool) (h : roundUnits num den < unitsLimit) :
    (ofUnits negative (roundUnits num den)).IsFinite ∧
      (ofUnits negative (roundUnits num den)).units = roundUnits num den :=
  units_ofUnits h (grid_dvd_of_isShort (isShort_roundUnits num den))

theorem even_fraction_of_tie {v : Nat} (negative : Bool) (hden : 0 < den) (hlimit : roundUnits num den < unitsLimit)
    (hv : IsShort v) (hne : v ≠ roundUnits num den)
    (htie : |(v : ℚ) - num / den| = |(roundUnits num den : ℚ) - num / den|) :
    Even (ofUnits negative (roundUnits num den)).fraction.val := by
  have heven := even_steps_of_tie hden hv hne htie
  have hunits : roundUnits num den = steps num den * 2 ^ ((num / den).log2 - 52) := rfl
  rw [hunits] at hlimit ⊢
  exact even_fraction_ofUnits hlimit (steps_le num den) heven

end Fraction

end Binary64
end FindQuery
