import FindQuery.Binary64.Shortest

/-! The text of a floating-point number: its shortest digits, with a point or with an exponent. -/

namespace FindQuery.Binary64

def dropTrailingZeros (digits : Text) : Text := (digits.reverse.dropWhile (· = '0')).reverse

def positional (digits : Text) (place : Int) : Text :=
  if place < 0 then ['0', '.'] ++ List.replicate (place.natAbs - 1) '0' ++ digits
  else
    let width := place.toNat + 1
    let whole := digits.take width ++ List.replicate (width - digits.length) '0'
    let fraction := digits.drop width
    whole ++ '.' :: (if fraction = [] then ['0'] else fraction)

def scientific (digits : Text) (place : Int) : Text :=
  let mantissa := match digits with
    | d :: e :: rest => d :: '.' :: e :: rest
    | short => short
  mantissa ++ ['e', if place < 0 then '-' else '+'] ++ Numeral.padded 2 place.natAbs

def Decimal.print (d : Decimal) : Text :=
  let all := Numeral.ofNat d.coefficient
  let place := d.exponent + all.length - 1
  let digits := dropTrailingZeros all
  if -4 ≤ place ∧ place < 16 then positional digits place else scientific digits place

def printMagnitude (x : Binary64) : Text :=
  if x.units = 0 then "0.0".toList else x.shortest.print

def print (x : Binary64) : Text :=
  if x.IsNaN then "nan".toList
  else
    let magnitude := if x.IsFinite then x.printMagnitude else "inf".toList
    if x.negative then '-' :: magnitude else magnitude

end FindQuery.Binary64
