import Mathlib.Algebra.Group.Nat.Even
import Mathlib.Order.Monotone.Basic
import FindQuery.Binary64.Basic

/-! The order of magnitudes. -/

namespace FindQuery.Binary64

def rank (x : Binary64) : Nat := x.exponent.val * fractionCount + x.fraction.val

def unitsAt (rank : Nat) : Nat :=
  if rank < fractionCount then rank
  else (fractionCount + rank % fractionCount) * 2 ^ (rank / fractionCount - 1)

def ofRank (negative : Bool) (rank : Nat) : Binary64 := { ofBits rank with negative }

section Order
variable {x y : Binary64} {r : Nat}

theorem rank_div (x : Binary64) : x.rank / fractionCount = x.exponent.val := by
  have hfraction : x.fraction.val < 4503599627370496 := x.fraction.isLt
  simp only [rank, fractionCount]
  omega

theorem rank_mod (x : Binary64) : x.rank % fractionCount = x.fraction.val := by
  have hfraction : x.fraction.val < 4503599627370496 := x.fraction.isLt
  simp only [rank, fractionCount]
  omega

theorem units_eq_unitsAt (x : Binary64) : x.units = unitsAt x.rank := by
  have hzero : x.exponent.val = 0 ↔ x.rank < fractionCount := by
    rw [← rank_div, Nat.div_eq_zero_iff, or_iff_right fractionCount_pos.ne']
  have hfraction : x.exponent.val = 0 → x.fraction.val = x.rank := by
    intro h
    rw [rank, h, Nat.zero_mul, Nat.zero_add]
  unfold units unitsAt
  by_cases h : x.exponent.val = 0
  · rw [if_pos h, if_pos (hzero.1 h), hfraction h]
  · rw [if_neg h, if_neg (mt hzero.2 h), rank_div, rank_mod]
    rfl

theorem unitsAt_succ (r : Nat) : unitsAt (r + 1) = unitsAt r + 2 ^ (r / fractionCount - 1) := by
  unfold unitsAt
  by_cases hsmall : r + 1 < fractionCount
  · have hr : r < fractionCount := Nat.lt_of_succ_lt hsmall
    rw [if_pos hsmall, if_pos hr, Nat.div_eq_of_lt hr, Nat.zero_sub, Nat.pow_zero]
  · rw [if_neg hsmall]
    by_cases hr : r < fractionCount
    · have hlast : r + 1 = fractionCount := Nat.le_antisymm hr (Nat.le_of_not_lt hsmall)
      rw [if_pos hr, hlast, Nat.mod_self, Nat.div_self fractionCount_pos, Nat.div_eq_of_lt hr, Nat.add_zero,
        Nat.sub_self, Nat.pow_zero, Nat.mul_one, hlast]
    · rw [if_neg hr]
      obtain ⟨e, he⟩ : ∃ e, r / fractionCount = e + 1 :=
        Nat.exists_eq_succ_of_ne_zero (Nat.div_pos (Nat.le_of_not_lt hr) fractionCount_pos).ne'
      by_cases hcarry : (r + 1) % fractionCount = 0
      · have hdiv : (r + 1) / fractionCount = e + 2 := by
          simp only [fractionCount] at he hcarry ⊢
          omega
        have hmod : r % fractionCount + 1 = fractionCount := by
          simp only [fractionCount] at hcarry ⊢
          omega
        have hdouble : fractionCount + fractionCount = fractionCount + r % fractionCount + 1 := by
          rw [Nat.add_assoc, hmod]
        show (fractionCount + (r + 1) % fractionCount) * 2 ^ ((r + 1) / fractionCount - 1) = _
        rw [hcarry, hdiv, he, Nat.add_zero, Nat.add_sub_cancel]
        show fractionCount * 2 ^ (e + 1) = _
        rw [Nat.pow_succ', ← Nat.mul_assoc, Nat.mul_two, hdouble, Nat.add_mul, Nat.one_mul]
      · have hdiv : (r + 1) / fractionCount = e + 1 := by
          simp only [fractionCount] at he hcarry ⊢
          omega
        have hmod : (r + 1) % fractionCount = r % fractionCount + 1 := by
          simp only [fractionCount] at hcarry ⊢
          omega
        rw [hdiv, hmod, he, ← Nat.add_assoc, Nat.add_mul, Nat.one_mul]

theorem unitsAt_strictMono : StrictMono unitsAt := by
  refine strictMono_nat_of_lt_succ fun r => ?_
  rw [unitsAt_succ]
  exact Nat.lt_add_of_pos_right (Nat.two_pow_pos _)

theorem units_lt_units_iff : x.units < y.units ↔ x.rank < y.rank := by
  rw [units_eq_unitsAt, units_eq_unitsAt, unitsAt_strictMono.lt_iff_lt]

theorem eq_of_units_eq (hsign : x.negative = y.negative) (h : x.units = y.units) : x = y := by
  rw [units_eq_unitsAt, units_eq_unitsAt, unitsAt_strictMono.injective.eq_iff] at h
  have hexponent : x.exponent.val = y.exponent.val := by rw [← rank_div, h, rank_div]
  have hfraction : x.fraction.val = y.fraction.val := by rw [← rank_mod, h, rank_mod]
  obtain ⟨_, _, _⟩ := x
  obtain ⟨_, _, _⟩ := y
  simp only [mk.injEq, Fin.ext_iff]
  exact ⟨hsign, hexponent, hfraction⟩

theorem IsFinite.not_isNaN (h : x.IsFinite) : ¬ x.IsNaN := fun hnan => Nat.ne_of_lt h hnan.1

theorem eq_infinity (hnan : ¬ x.IsNaN) (hfinite : ¬ x.IsFinite) : x = infinity x.negative := by
  obtain ⟨negative, exponent, fraction⟩ := x
  have hle : 2047 ≤ exponent.val := Nat.le_of_not_lt hfinite
  have hexponent : exponent = 2047 := Fin.ext (Nat.le_antisymm (Nat.le_of_lt_succ exponent.isLt) hle)
  have hfraction : fraction = 0 := by
    by_contra hne
    exact hnan ⟨congrArg Fin.val hexponent, fun hval => hne (Fin.ext hval)⟩
  rw [hexponent, hfraction]
  rfl

theorem isFinite_iff_rank : x.IsFinite ↔ x.rank < 2047 * fractionCount := by
  have hfraction : x.fraction.val < 4503599627370496 := x.fraction.isLt
  simp only [IsFinite, rank, fractionCount]
  omega

theorem negative_ofRank (negative : Bool) (r : Nat) : (ofRank negative r).negative = negative := rfl

theorem rank_ofRank {negative : Bool} (h : r < 2048 * fractionCount) : (ofRank negative r).rank = r := by
  show r / fractionCount % 2048 * fractionCount + r % fractionCount = r
  simp only [fractionCount] at h ⊢
  omega

theorem even_rank_iff : Even x.rank ↔ Even x.fraction.val := by
  simp only [Nat.even_iff, rank, fractionCount]
  omega

theorem exists_between (hy : y.IsFinite) (h : x.units < y.units) (hxeven : Even x.fraction.val)
    (hyeven : Even y.fraction.val) :
    ∃ z : Binary64, z.IsFinite ∧ z.negative = x.negative ∧ x.units < z.units ∧ z.units < y.units := by
  rw [← even_rank_iff, Nat.even_iff] at hxeven hyeven
  have hlt := units_lt_units_iff.1 h
  have hnext : x.rank + 1 < y.rank := by omega
  have hroom : x.rank + 1 < 2047 * fractionCount := Nat.lt_trans hnext (isFinite_iff_rank.1 hy)
  have hrank : (ofRank x.negative (x.rank + 1)).rank = x.rank + 1 :=
    rank_ofRank (Nat.lt_of_lt_of_le hroom (Nat.mul_le_mul_right _ (by decide)))
  refine ⟨ofRank x.negative (x.rank + 1), ?_, negative_ofRank _ _, ?_, ?_⟩
  · rw [isFinite_iff_rank, hrank]
    exact hroom
  · rw [units_lt_units_iff, hrank]
    exact Nat.lt_add_one x.rank
  · rw [units_lt_units_iff, hrank]
    exact hnext

end Order

end FindQuery.Binary64
