import FindQuery.Proofs.Binary64.Whole
import FindQuery.Proofs.Coerce.Language

/-! Texts of digits. -/

namespace FindQuery

namespace Quantity
variable {x : Binary64}

theorem ofFloat_eq_finite_iff {units : Int} :
    ofFloat x = .finite units ↔ x.IsFinite ∧ x.signedUnits = units := by
  unfold ofFloat
  split
  · next hnan =>
    refine iff_of_false nofun fun ⟨hfinite, _⟩ => ?_
    rw [Binary64.IsFinite, hnan.1] at hfinite
    exact Nat.lt_irrefl 2047 hfinite
  · split
    · next hfinite => rw [finite.injEq, and_iff_right hfinite]
    · next hfinite => exact iff_of_false nofun fun h => hfinite h.1

theorem same_ofInt_iff {q : Quantity} {n : Int} : q.same (ofInt n) = true ↔ q = ofInt n := by
  unfold same
  rw [Bool.and_eq_true, decide_eq_true_eq, decide_eq_true_eq]
  refine ⟨And.left, ?_⟩
  rintro rfl
  exact ⟨rfl, nofun⟩

end Quantity

namespace Coerce
open Numeral (IsSign AreDigits signed spelled)
open Binary64 (IsWhole ofDecimal IsLiteral unitsInOne)

section Number
variable {x : Binary64} {negative : Bool} {n : Nat}

theorem signedUnits_eq_iff (hsign : x.negative = negative) :
    x.signedUnits = signed negative n * (unitsInOne : Nat) ↔ x.units = n * unitsInOne := by
  rw [Binary64.signedUnits, signed, hsign]
  cases negative with
  | false =>
    rw [if_neg Bool.false_ne_true, if_neg Bool.false_ne_true, ← Int.natCast_mul, Int.natCast_inj]
  | true =>
    rw [if_pos rfl, if_pos rfl, Int.neg_mul, Int.neg_inj, ← Int.natCast_mul, Int.natCast_inj]

theorem equal_ofDecimal_iff :
    (Value.float (ofDecimal negative n 0)).equal (.int (signed negative n)) = .ok true ↔
      IsWhole n := by
  have hnan : (Value.float (ofDecimal negative n 0)).isNaN = false :=
    decide_eq_false (Binary64.not_isNaN_ofDecimal negative n 0)
  have hequal : (Value.float (ofDecimal negative n 0)).equal (.int (signed negative n)) =
      .ok ((Quantity.ofFloat (ofDecimal negative n 0)).same (.ofInt (signed negative n))) := by
    rw [Value.equal, hnan, if_neg Bool.false_ne_true, Value.same]
    · rfl
    all_goals nofun
  rw [hequal, Except.ok.injEq, Quantity.same_ofInt_iff, Quantity.ofInt,
    Quantity.ofFloat_eq_finite_iff, signedUnits_eq_iff Binary64.negative_ofDecimal_whole,
    Binary64.ofDecimal_whole_iff]

end Number

section Text
variable {operator : Operator} {sign digits : Text} {negative : Bool}

/-- A sign and digits are read as what they spell, rounded to a floating-point number. This is equal to what
they spell for just the whole numbers that are floating-point numbers. -/
theorem value_digits [Host] (hlisting : ¬ IsListing operator) (hregex : operator ≠ .regex)
    (hsign : IsSign negative sign) (hne : digits ≠ []) (hdigits : AreDigits digits) :
    value operator (sign ++ digits) = .ok (.float (ofDecimal negative (spelled digits) 0)) ∧
      ((Value.float (ofDecimal negative (spelled digits) 0)).equal
        (.int (signed negative (spelled digits))) = .ok true ↔ IsWhole (spelled digits)) := by
  refine ⟨?_, equal_ofDecimal_iff⟩
  obtain ⟨c, hc⟩ := List.exists_mem_of_ne_nil digits hne
  have hmem : c ∈ sign ++ digits := List.mem_append_right sign hc
  have hliteral : IsLiteral (sign ++ digits) (.decimal negative (spelled digits) 0) := by
    have hdecimal := Binary64.IsDecimal.whole hne hdigits .absent
    rw [List.append_nil] at hdecimal
    exact .decimal hsign hdecimal
  rw [value_eq_scalar hlisting hregex (List.ne_nil_of_mem hmem)
    (isNull_eq_false_of_isDigit hmem (hdigits c hc))]
  exact scalar_of_isReadAs (.float (float?_eq_some_iff.2 ⟨_, hliteral, rfl⟩))

def evenDigits : Text := "9007199254740994".toList

theorem value_digits_evenDigits : ¬ IsListing .gte ∧ Operator.gte ≠ .regex ∧ IsSign true ['-'] ∧
    evenDigits ≠ [] ∧ AreDigits evenDigits ∧
      ∃ x, value .gte ('-' :: evenDigits) = .ok (.float x) ∧
        (Value.float x).equal (.int (-9007199254740994)) = .ok true := by
  have hspelled : spelled evenDigits = 4503599627370497 * 2 ^ 1 := by decide +kernel
  have hwhole : IsWhole (spelled evenDigits) := by
    refine ⟨?_, 4503599627370497, 1, by decide, hspelled⟩
    rw [hspelled]
    exact Binary64.lt_two_pow_of_le (j := 54) (k := 1024) (by decide) (by decide)
  have hlisting : ¬ IsListing .gte := by decide
  have hregex : Operator.gte ≠ .regex := by decide
  have hne : evenDigits ≠ [] := by decide
  have hdigits : AreDigits evenDigits := by decide
  obtain ⟨hvalue, hequal⟩ := value_digits hlisting hregex .minus hne hdigits
  refine ⟨hlisting, hregex, .minus, hne, hdigits, _, hvalue, ?_⟩
  have hkept := hequal.2 hwhole
  rwa [hspelled] at hkept ⊢

def oddDigits : Text := "9007199254740993".toList

theorem value_oddDigits : AreDigits oddDigits ∧ spelled oddDigits = 9007199254740993 ∧
    ∃ x, value .eq oddDigits = .ok (.float x) ∧
      (Value.float x).equal (.int 9007199254740993) = .ok false ∧
      (Value.float x).equal (.int 9007199254740992) = .ok true := by
  have hvalue : value .eq oddDigits = .ok (.float (ofDecimal false 9007199254740993 0)) := by
    decide +kernel
  exact ⟨by decide, by decide +kernel, _, hvalue, by decide +kernel, by decide +kernel⟩

end Text

end Coerce
end FindQuery
