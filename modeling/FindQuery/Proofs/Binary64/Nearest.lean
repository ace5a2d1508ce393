import Mathlib.Algebra.Order.Field.Rat
import Mathlib.Tactic.Linarith
import FindQuery.Proofs.Binary64.Rank

/-! The number nearest to a rational number, and of two the one with an even fraction. -/

namespace FindQuery.Binary64

def toRat (x : Binary64) : ℚ := x.signedUnits / unitsInOne

def magnitude (x : Binary64) : ℚ := x.units / unitsInOne

def lastUnits (x : Binary64) : Nat := Nat.pow 2 (x.exponent.val - 1)

def lastPlace (x : Binary64) : ℚ := x.lastUnits / unitsInOne

def largest : Binary64 := ⟨false, ⟨2046, by decide⟩, ⟨fractionCount - 1, by decide⟩⟩

def overflowBound : ℚ := largest.toRat + largest.lastPlace / 2

structure IsNearest (x : Binary64) (q : ℚ) : Prop where
  isFinite : x.IsFinite
  le : ∀ y : Binary64, y.IsFinite → |x.toRat - q| ≤ |y.toRat - q|
  even_of_tie : ∀ y : Binary64, y.IsFinite → y.toRat ≠ x.toRat → |y.toRat - q| = |x.toRat - q| →
    Even x.fraction.val

/-- Rounding to the nearest number. The sign is given apart, since zeros and infinities have one as well. -/
structure IsRounded (negative : Bool) (q : ℚ) (x : Binary64) : Prop where
  negative_eq : x.negative = negative
  isNearest : |q| < overflowBound → x.IsNearest q
  eq_infinity : overflowBound ≤ |q| → x = infinity negative

def withSign (negative : Bool) (r : ℚ) : ℚ := if negative then -r else r

section Sign
variable {negative : Bool} {r s : ℚ}

theorem withSign_withSign (negative : Bool) (r : ℚ) : withSign negative (withSign negative r) = r := by
  cases negative with
  | false => rfl
  | true => exact neg_neg r

theorem abs_withSign (negative : Bool) (r : ℚ) : |withSign negative r| = |r| := by
  cases negative with
  | false => rfl
  | true => exact abs_neg r

theorem withSign_sub (negative : Bool) (r s : ℚ) :
    withSign negative r - withSign negative s = withSign negative (r - s) := by
  cases negative with
  | false => rfl
  | true => exact (neg_sub' r s).symm

theorem withSign_zero (negative : Bool) : withSign negative 0 = 0 := by
  cases negative with
  | false => rfl
  | true => exact neg_zero

end Sign

section Magnitude
variable {x y : Binary64} {r : ℚ}

theorem unitsInOne_pos : (0 : ℚ) < unitsInOne := by
  apply Nat.cast_pos.2
  unfold unitsInOne
  generalize 1074 = k
  exact Nat.two_pow_pos k

theorem lastUnits_pos (x : Binary64) : 0 < x.lastUnits := Nat.two_pow_pos _

theorem toRat_eq (x : Binary64) : x.toRat = withSign x.negative x.magnitude := by
  unfold toRat signedUnits magnitude
  cases x.negative with
  | false => rfl
  | true =>
    show ((-(x.units : Int) : Int) : ℚ) / unitsInOne = -(x.units / unitsInOne)
    rw [Int.cast_neg, Int.cast_natCast, neg_div]

theorem magnitude_nonneg (x : Binary64) : 0 ≤ x.magnitude := div_nonneg (Nat.cast_nonneg _) unitsInOne_pos.le

theorem abs_toRat (x : Binary64) : |x.toRat| = x.magnitude := by
  rw [toRat_eq, abs_withSign, abs_of_nonneg x.magnitude_nonneg]

theorem magnitude_lt_magnitude_iff : x.magnitude < y.magnitude ↔ x.units < y.units := by
  rw [magnitude, magnitude, div_lt_div_iff_of_pos_right unitsInOne_pos, Nat.cast_lt]

theorem eq_of_toRat_eq (hsign : x.negative = y.negative) (h : x.toRat = y.toRat) : x = y := by
  apply eq_of_units_eq hsign
  have habs : x.magnitude = y.magnitude := by rw [← abs_toRat, h, abs_toRat]
  rwa [magnitude, magnitude, div_left_inj' unitsInOne_pos.ne', Nat.cast_inj] at habs

theorem abs_toRat_sub {negative : Bool} (h : x.negative = negative) (r : ℚ) :
    |x.toRat - withSign negative r| = |x.magnitude - r| := by
  rw [toRat_eq, h, withSign_sub, abs_withSign]

theorem abs_magnitude_sub_le (x : Binary64) (negative : Bool) (hr : 0 ≤ r) :
    |x.magnitude - r| ≤ |x.toRat - withSign negative r| := by
  have h := abs_abs_sub_abs_le x.toRat (withSign negative r)
  rwa [abs_toRat, abs_withSign, abs_of_nonneg hr] at h

theorem toRat_zero (negative : Bool) : (zero negative).toRat = 0 := by
  have hmagnitude : (zero negative).magnitude = 0 := by
    show ((0 : Nat) : ℚ) / unitsInOne = 0
    rw [Nat.cast_zero, zero_div]
  rw [toRat_eq, hmagnitude, withSign_zero]

theorem isNearest_of_magnitude (hr : 0 ≤ r) (hfinite : x.IsFinite)
    (hle : ∀ y : Binary64, y.IsFinite → |x.magnitude - r| ≤ |y.magnitude - r|)
    (htie : ∀ y : Binary64, y.IsFinite → y.magnitude ≠ x.magnitude →
      |y.magnitude - r| = |x.magnitude - r| → Even x.fraction.val) :
    x.IsNearest (withSign x.negative r) := by
  have hnearest : ∀ y : Binary64, y.IsFinite →
      |x.toRat - withSign x.negative r| ≤ |y.toRat - withSign x.negative r| := by
    intro y hy
    rw [abs_toRat_sub rfl]
    exact (hle y hy).trans (abs_magnitude_sub_le y x.negative hr)
  refine ⟨hfinite, hnearest, fun y hy hne heq => ?_⟩
  by_cases hmagnitude : y.magnitude = x.magnitude
  · -- Two numbers of different signs are equally far from zero alone, and then zero is the nearest one.
    have hopposite : y.toRat = -x.toRat := by
      rw [← abs_toRat, ← abs_toRat, abs_eq_abs] at hmagnitude
      exact hmagnitude.resolve_left hne
    have hzero : x.toRat = 0 := by
      rw [hopposite, abs_eq_abs] at heq
      rcases heq with hcase | hcase
      · linarith
      · have hq : withSign x.negative r = 0 := by linarith
        have hle := hnearest (zero false) (Nat.zero_lt_succ _)
        rw [hq, toRat_zero, sub_zero, sub_zero, abs_zero] at hle
        exact abs_nonpos_iff.1 hle
    rw [hopposite, hzero, neg_zero] at hne
    exact absurd rfl hne
  · apply htie y hy hmagnitude
    rw [abs_toRat_sub rfl] at heq
    exact le_antisymm (heq ▸ abs_magnitude_sub_le y x.negative hr) (hle y hy)

end Magnitude

section Unique
variable {x y : Binary64} {q : ℚ} {negative : Bool}

theorem abs_sub_lt_of_between {a b c r : ℚ} (hac : a < c) (hcb : c < b) (h : |a - r| = |b - r|) :
    |c - r| < |a - r| := by
  rcases abs_eq_abs.1 h with heq | heq
  · exact absurd (sub_left_inj.1 heq) (hac.trans hcb).ne
  · have hneg : a - r < 0 := by linarith
    rw [abs_of_neg hneg, abs_lt]
    constructor
    · linarith
    · linarith

theorem IsNearest.not_units_lt (hx : x.IsNearest q) (hy : y.IsNearest q) (hsign : x.negative = y.negative) :
    ¬ x.units < y.units := by
  intro hlt
  have htie : |x.toRat - q| = |y.toRat - q| := le_antisymm (hx.le y hy.isFinite) (hy.le x hx.isFinite)
  have hne : x.toRat ≠ y.toRat := by
    intro h
    rw [eq_of_toRat_eq hsign h] at hlt
    exact Nat.lt_irrefl _ hlt
  have hxeven := hx.even_of_tie y hy.isFinite hne.symm htie.symm
  have hyeven := hy.even_of_tie x hx.isFinite hne htie
  obtain ⟨z, hz, hzsign, hxz, hzy⟩ := exists_between hy.isFinite hlt hxeven hyeven
  have hnearer := hx.le z hz
  obtain ⟨r, rfl⟩ : ∃ r, q = withSign x.negative r := ⟨_, (withSign_withSign _ _).symm⟩
  rw [abs_toRat_sub rfl, abs_toRat_sub hsign.symm] at htie
  rw [abs_toRat_sub rfl, abs_toRat_sub hzsign] at hnearer
  exact not_le.2 (abs_sub_lt_of_between (magnitude_lt_magnitude_iff.2 hxz) (magnitude_lt_magnitude_iff.2 hzy) htie)
    hnearer

theorem IsNearest.unique (hx : x.IsNearest q) (hy : y.IsNearest q) (hsign : x.negative = y.negative) :
    x = y := by
  apply eq_of_units_eq hsign
  exact Nat.le_antisymm (Nat.le_of_not_lt (hy.not_units_lt hx hsign.symm))
    (Nat.le_of_not_lt (hx.not_units_lt hy hsign))

theorem IsRounded.unique (hx : IsRounded negative q x) (hy : IsRounded negative q y) : x = y := by
  rcases lt_or_ge |q| overflowBound with hlt | hge
  · exact (hx.isNearest hlt).unique (hy.isNearest hlt) (hx.negative_eq.trans hy.negative_eq.symm)
  · rw [hx.eq_infinity hge, hy.eq_infinity hge]

end Unique

end FindQuery.Binary64
