import FindQuery.Binary64.Basic

/-! Rounding of quotients to the nearest 64-bit number, a tie going to the even neighbour. -/

namespace FindQuery

def roundQuotient (num den : Nat) : Nat :=
  let q := num / den
  let r := num % den
  if 2 * r < den then q else if den < 2 * r then q + 1 else q + q % 2

namespace Binary64

/-- The representable magnitude nearest to a quotient, both in units of 2^-1074. Fifty-three
binary digits are kept. -/
def roundUnits (num den : Nat) : Nat :=
  let grid := Nat.pow 2 ((num / den).log2 - 52)
  roundQuotient num (den * grid) * grid

def unitsLimit : Nat := Nat.pow 2 2098

def ofUnits (negative : Bool) (u : Nat) : Binary64 :=
  if unitsLimit ≤ u then infinity negative
  else if u < fractionCount then
    { zero negative with fraction := ⟨u % fractionCount, Nat.mod_lt _ fractionCount_pos⟩ }
  else
    let s := u.log2 - 52
    ⟨negative, ⟨(s + 1) % 2048, Nat.mod_lt _ exponentCount_pos⟩,
      ⟨u / Nat.pow 2 s % fractionCount, Nat.mod_lt _ fractionCount_pos⟩⟩

/-- The number nearest to `coefficient * 10 ^ exponent`. Exponents far outside the range are
settled without the power of ten. -/
def ofDecimal (negative : Bool) (coefficient : Nat) (exponent : Int) : Binary64 :=
  if coefficient = 0 then zero negative
  else if 400 < exponent then infinity negative
  else if (coefficient.log2 : Int) + 1200 < 3 * -exponent then zero negative
  else
    let scale := Nat.pow 10 exponent.natAbs
    ofUnits negative
      (if exponent < 0 then roundUnits (coefficient * unitsInOne) scale
        else roundUnits (coefficient * scale * unitsInOne) 1)

end Binary64
end FindQuery
