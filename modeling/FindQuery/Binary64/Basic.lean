/-! Binary floating-point numbers of 64 bits, by sign, exponent and fraction. -/

namespace FindQuery

abbrev fractionCount : Nat := 4503599627370496

theorem fractionCount_pos : 0 < fractionCount := by decide

theorem exponentCount_pos : 0 < 2048 := by decide

abbrev payloadCount : Nat := 2251799813685248

theorem payload_lt (n : Nat) : payloadCount + n % payloadCount < fractionCount := by
  simp only [payloadCount, fractionCount]
  omega

structure Binary64 where
  negative : Bool
  exponent : Fin 2048
  fraction : Fin fractionCount
deriving DecidableEq

namespace Binary64

def zero (negative : Bool) : Binary64 := ⟨negative, 0, 0⟩

def infinity (negative : Bool) : Binary64 := ⟨negative, 2047, 0⟩

/-- A pattern that is no number. Its payload can tell it from others. -/
def nanWith (payload : Nat) : Binary64 :=
  ⟨false, 2047, ⟨payloadCount + payload % payloadCount, payload_lt payload⟩⟩

def nan : Binary64 := nanWith 0

def IsFinite (x : Binary64) : Prop := x.exponent.val < 2047

def IsNaN (x : Binary64) : Prop := x.exponent.val = 2047 ∧ x.fraction.val ≠ 0

instance (x : Binary64) : Decidable x.IsFinite := inferInstanceAs (Decidable (_ < _))

instance (x : Binary64) : Decidable x.IsNaN := inferInstanceAs (Decidable (_ ∧ _))

def unitsInOne : Nat := Nat.pow 2 1074

def units (x : Binary64) : Nat :=
  if x.exponent.val = 0 then x.fraction.val
  else (fractionCount + x.fraction.val) * Nat.pow 2 (x.exponent.val - 1)

def signedUnits (x : Binary64) : Int := if x.negative then -(x.units : Int) else x.units

def toBits (x : Binary64) : Nat :=
  (if x.negative then 2048 * fractionCount else 0) + x.exponent.val * fractionCount
    + x.fraction.val

def ofBits (bits : Nat) : Binary64 where
  negative := bits / (2048 * fractionCount) % 2 = 1
  exponent := ⟨bits / fractionCount % 2048, Nat.mod_lt _ exponentCount_pos⟩
  fraction := ⟨bits % fractionCount, Nat.mod_lt _ fractionCount_pos⟩

end Binary64
end FindQuery
