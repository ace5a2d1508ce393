import FindQuery.Binary64.Rounding
import FindQuery.Numeral.Decimal

/-! The fewest decimal digits that read back as a given number. -/

namespace FindQuery.Binary64

structure Decimal where
  coefficient : Nat
  exponent : Int
deriving DecidableEq

def Decimal.ReadsBack (d : Decimal) (x : Binary64) : Prop :=
  ofDecimal x.negative d.coefficient d.exponent = x

instance (d : Decimal) (x : Binary64) : Decidable (d.ReadsBack x) :=
  inferInstanceAs (Decidable (_ = _))

def leadingPlace (num den : Nat) : Int :=
  if den ≤ num then (Numeral.digitCount (num / den) : Int) - 1
  else -(Numeral.digitCount ((den - 1) / num) : Int)

def inSteps (num den : Nat) (place : Int) : Nat × Nat :=
  if place < 0 then (num * Nat.pow 10 place.natAbs, den)
  else (num, den * Nat.pow 10 place.natAbs)

def onGrid? (x : Binary64) (place : Int) : Option Decimal :=
  let (num, den) := inSteps x.units unitsInOne place
  let below := num / den
  let nearest := roundQuotient num den
  let other := if nearest = below then below + 1 else below
  if Decimal.ReadsBack ⟨nearest, place⟩ x then some ⟨nearest, place⟩
  else if Decimal.ReadsBack ⟨other, place⟩ x then some ⟨other, place⟩
  else none

def exact (x : Binary64) : Decimal := ⟨x.units * Nat.pow 5 1074, -1074⟩

def shortest (x : Binary64) : Decimal :=
  let top := leadingPlace x.units unitsInOne
  ((List.range 17).findSome? fun (k : Nat) => onGrid? x (top - k)).getD (exact x)

end FindQuery.Binary64
