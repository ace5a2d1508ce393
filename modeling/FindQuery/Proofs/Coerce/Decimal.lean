import FindQuery.Proofs.Binary64.Decimal
import FindQuery.Proofs.Coerce.Language

/-! Decimal numerals as values. -/

namespace FindQuery.Coerce
open Numeral (IsSign signed)
open Binary64 (IsDecimal IsRounded withSign)

section Decimal
variable {negative : Bool} {sign body : Text} {coefficient : Nat} {exponent : Int}

theorem cast_signed_mul (negative : Bool) (n : Nat) (r : ℚ) :
    (signed negative n : ℚ) * r = withSign negative (n * r) := by
  cases negative with
  | false => rfl
  | true =>
    show ((-(n : Int) : Int) : ℚ) * r = -(n * r)
    rw [Int.cast_neg, Int.cast_natCast, neg_mul]

/-- A sign and a decimal numeral are read as the number nearest to what they denote, of two as the one with an even
fraction, with the sign of the numeral on zero and infinity as well. No other number is that. -/
theorem float?_decimal (hsign : IsSign negative sign) (hbody : IsDecimal body coefficient exponent) :
    ∃ x, float? (sign ++ body) = some x ∧
      ∀ y, IsRounded negative (signed negative coefficient * 10 ^ exponent) y ↔ y = x := by
  refine ⟨_, float?_eq_some_iff.2 ⟨_, .decimal hsign hbody, rfl⟩, ?_⟩
  have hrounded := Binary64.isRounded_ofDecimal negative coefficient exponent
  rw [← cast_signed_mul] at hrounded
  intro y
  constructor
  · intro hy
    exact hy.unique hrounded
  · rintro rfl
    exact hrounded

def tieBody : Text := ".9007199254740993E+16".toList

theorem float?_decimal_tieBody : IsSign true ['-'] ∧ IsDecimal tieBody 9007199254740993 0 ∧
    float? ('-' :: tieBody) = some ⟨true, 1076, 0⟩ ∧ IsRounded true (-9007199254740993) ⟨true, 1076, 0⟩ := by
  have htail : Binary64.IsExponent "E+16".toList 16 :=
    .marked (.inr rfl) .plus (List.cons_ne_nil '1' ['6']) (by decide)
  have hbody : IsDecimal tieBody 9007199254740993 0 :=
    @Binary64.IsDecimal.pointed [] "9007199254740993".toList _ _ (by decide) (by decide) (by decide) htail
  have hread : float? ('-' :: tieBody) = some ⟨true, 1076, 0⟩ := by decide +kernel
  obtain ⟨x, hx, hrounded⟩ := float?_decimal .minus hbody
  obtain rfl : ⟨true, 1076, 0⟩ = x := Option.some.inj (hread.symm.trans hx)
  refine ⟨.minus, hbody, hread, ?_⟩
  have hnearest := (hrounded _).2 rfl
  rwa [zpow_zero, mul_one] at hnearest

end Decimal

end FindQuery.Coerce
