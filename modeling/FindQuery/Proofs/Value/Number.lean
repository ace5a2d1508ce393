import FindQuery.Proofs.Binary64.Nearest
import FindQuery.Proofs.Value.Same

/-! Numbers of all types compare by the number that they are, exactly, however large it is. -/

namespace FindQuery.Value
open Binary64 (unitsInOne infinity)

/-- The value is this number. -/
inductive IsNumber : Value → ℚ → Prop
  | bool (b : Bool) : IsNumber (.bool b) (if b then 1 else 0)
  | int (n : Int) : IsNumber (.int n) n
  | float {x : Binary64} : x.IsFinite → IsNumber (.float x) x.toRat

section Number
variable {v w : Value} {r s : ℚ} {x : Binary64} {units : Int}

theorem quantity_float_of_isFinite (h : x.IsFinite) : (float x).quantity? = some (.finite x.signedUnits) := by
  rw [quantity?, Quantity.ofFloat, if_neg h.not_isNaN, if_pos h]

theorem quantity_infinity (negative : Bool) : (float (infinity negative)).quantity? = some (.infinite negative) := by
  cases negative <;> rfl

theorem toRat_units (n : Int) : ((n * unitsInOne : Int) : ℚ) / unitsInOne = n := by
  rw [Int.cast_mul, Int.cast_natCast, mul_div_cancel_right₀ _ Binary64.unitsInOne_pos.ne']

theorem IsNumber.exists_units (h : v.IsNumber r) :
    ∃ units : Int, v.quantity? = some (.finite units) ∧ r = units / unitsInOne := by
  cases h with
  | bool b =>
    refine ⟨_, rfl, ?_⟩
    rw [toRat_units]
    cases b <;> simp
  | int n => exact ⟨_, rfl, (toRat_units n).symm⟩
  | float hfinite => exact ⟨_, quantity_float_of_isFinite hfinite, rfl⟩

theorem same_of_units {units' : Int} (hv : v.quantity? = some (.finite units))
    (hw : w.quantity? = some (.finite units')) : v.same w = .ok (decide (units = units')) := by
  have hsame : sameQuantity v w = (Quantity.finite units).same (.finite units') := by rw [sameQuantity, hv, hw]
  rw [same_of_quantity hv, hsame, Except.ok.injEq, Quantity.same, Bool.eq_iff_iff, Bool.and_eq_true,
    decide_eq_true_eq, decide_eq_true_eq, decide_eq_true_eq, Quantity.finite.injEq]
  apply and_iff_left
  rintro ⟨⟩

theorem same_of_isNumber (hv : v.IsNumber r) (hw : w.IsNumber s) : v.same w = .ok (decide (r = s)) := by
  obtain ⟨units, hunits, rfl⟩ := hv.exists_units
  obtain ⟨units', hunits', rfl⟩ := hw.exists_units
  have hcancel : ((units : ℚ) / unitsInOne = units' / unitsInOne) ↔ units = units' := by
    rw [div_left_inj' Binary64.unitsInOne_pos.ne', Int.cast_inj]
  rw [same_of_units hunits hunits', decide_eq_decide.2 hcancel]

theorem eq_infinity_of_quantity {negative : Bool} (h : w.quantity? = some (.infinite negative)) :
    w = float (infinity negative) := by
  match w with
  | .bool b => cases h
  | .int n => cases h
  | .float x =>
    have hq : Quantity.ofFloat x = .infinite negative := Option.some.inj h
    rw [Quantity.ofFloat] at hq
    split at hq
    · cases hq
    · next hnan =>
      split at hq
      · cases hq
      · next hfinite =>
        obtain rfl := Quantity.infinite.inj hq
        exact congrArg float (Binary64.eq_infinity hnan hfinite)

theorem same_infinity_iff (negative : Bool) :
    (float (infinity negative)).same w = .ok true ↔ w = float (infinity negative) := by
  rw [same_iff_quantity (quantity_infinity negative) nofun]
  constructor
  · exact eq_infinity_of_quantity
  · rintro rfl
    exact quantity_infinity negative

end Number

end FindQuery.Value
