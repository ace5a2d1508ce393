import Mathlib.Tactic.NormNum
import FindQuery.Binary64.Shortest
import FindQuery.Proofs.Binary64.Decimal

/-! A finite number is the one nearest to itself. -/

namespace FindQuery.Binary64

def Decimal.toRat (d : Decimal) : ℚ := d.coefficient * 10 ^ d.exponent

section Finite
variable {x : Binary64} {d : Decimal}

theorem isNearest_toRat (h : x.IsFinite) : x.IsNearest x.toRat := by
  have hself : |x.toRat - x.toRat| = 0 := by rw [sub_self, abs_zero]
  refine ⟨h, fun y _ => ?_, fun y _ hne htie => ?_⟩
  · rw [hself]
    exact abs_nonneg _
  · rw [hself, abs_eq_zero, sub_eq_zero] at htie
    exact absurd htie hne

theorem abs_toRat_lt_overflowBound (h : x.IsFinite) : |x.toRat| < overflowBound := by
  have hle : (x.units : ℚ) ≤ largest.units := Nat.cast_le.2 (units_le_largest h)
  have hlimit : (largest.units : ℚ) < unitsLimit := Nat.cast_lt.2 units_largest_lt_unitsLimit
  rw [abs_toRat, magnitude, overflowBound_eq, div_lt_div_iff_of_pos_right unitsInOne_pos]
  linarith

theorem isRounded_toRat (h : x.IsFinite) : IsRounded x.negative x.toRat x :=
  ⟨rfl, fun _ => isNearest_toRat h, fun hge => absurd (abs_toRat_lt_overflowBound h) (not_lt.2 hge)⟩

theorem Decimal.readsBack_of_toRat (h : x.IsFinite) (hd : d.toRat = x.magnitude) : d.ReadsBack x := by
  have hrounded := isRounded_ofDecimal x.negative d.coefficient d.exponent
  have hvalue : withSign x.negative (d.coefficient * 10 ^ d.exponent) = x.toRat := by
    rw [toRat_eq, ← hd]
    rfl
  rw [hvalue] at hrounded
  exact hrounded.unique (isRounded_toRat h)

theorem Decimal.ReadsBack.congr {d' : Decimal} (h : d.ReadsBack x) (heq : d'.toRat = d.toRat) : d'.ReadsBack x := by
  have hrounded := isRounded_ofDecimal x.negative d'.coefficient d'.exponent
  have hvalue : (d'.coefficient * 10 ^ d'.exponent : ℚ) = d.coefficient * 10 ^ d.exponent := heq
  rw [hvalue] at hrounded
  exact (hrounded.unique (isRounded_ofDecimal x.negative d.coefficient d.exponent)).trans h

theorem Decimal.ReadsBack.coefficient_ne_zero (h : d.ReadsBack x) (hunits : x.units ≠ 0) : d.coefficient ≠ 0 := by
  intro hzero
  rw [ReadsBack, ofDecimal, if_pos hzero] at h
  rw [← h] at hunits
  exact hunits rfl

end Finite

section Shortest
variable {x : Binary64} {d : Decimal}

theorem cast_five_pow (u k : Nat) :
    ((u * Nat.pow 5 k : Nat) : ℚ) * 10 ^ (-(k : Int)) = u / (Nat.pow 2 k : Nat) := by
  have hfive : (5 : ℚ) ^ k ≠ 0 := pow_ne_zero k (by norm_num)
  have hten : (10 : ℚ) ^ k = 2 ^ k * 5 ^ k := by
    rw [← mul_pow]
    norm_num
  rw [zpow_neg, zpow_natCast, ← div_eq_mul_inv, hten, Nat.cast_mul, Nat.pow_eq, Nat.pow_eq, Nat.cast_pow,
    Nat.cast_pow, Nat.cast_ofNat, Nat.cast_ofNat, mul_div_mul_right _ _ hfive]

theorem toRat_exact (x : Binary64) : x.exact.toRat = x.magnitude := by
  have hexact : x.exact = ⟨x.units * Nat.pow 5 1074, -((1074 : Nat) : Int)⟩ := rfl
  rw [hexact]
  unfold magnitude unitsInOne
  generalize 1074 = k
  exact cast_five_pow x.units k

theorem readsBack_of_first {d₁ d₂ : Decimal}
    (h : (if d₁.ReadsBack x then some d₁ else if d₂.ReadsBack x then some d₂ else none) = some d) :
    d.ReadsBack x := by
  split at h
  · next hfirst => exact Option.some.inj h ▸ hfirst
  · split at h
    · next hsecond => exact Option.some.inj h ▸ hsecond
    · exact nomatch h

theorem readsBack_of_onGrid? {place : Int} (h : x.onGrid? place = some d) : d.ReadsBack x :=
  readsBack_of_first h

theorem readsBack_findSome? (h : x.IsFinite) (places : List Nat) (top : Int) :
    ((places.findSome? fun (k : Nat) => x.onGrid? (top - k)).getD x.exact).ReadsBack x := by
  cases hfound : places.findSome? fun (k : Nat) => x.onGrid? (top - k) with
  | none => exact Decimal.readsBack_of_toRat h (toRat_exact x)
  | some d =>
    obtain ⟨k, -, hd⟩ := List.exists_of_findSome?_eq_some hfound
    exact readsBack_of_onGrid? hd

theorem readsBack_shortest (h : x.IsFinite) : x.shortest.ReadsBack x := by
  simp only [shortest]
  exact readsBack_findSome? h _ _

end Shortest

end FindQuery.Binary64
