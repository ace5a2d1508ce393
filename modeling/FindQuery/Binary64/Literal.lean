import FindQuery.Binary64.Rounding
import FindQuery.Numeral.Integer

/-! Floating-point literals, with the words for infinity and for what is no number. -/

namespace FindQuery.Binary64

inductive Literal
  | decimal (negative : Bool) (coefficient : Nat) (exponent : Int)
  | infinity (negative : Bool)
  | nan
deriving DecidableEq

def Literal.value : Literal → Binary64
  | .decimal negative coefficient exponent => ofDecimal negative coefficient exponent
  | .infinity negative => Binary64.infinity negative
  | .nan => Binary64.nan

def isAsciiDigit (c : Char) : Bool := (Numeral.digitValue? 10 c).isSome

def digitsOf (s : Text) : List Nat := s.filterMap (Numeral.digitValue? 10)

def exponentPart? : Text → Option Int
  | [] => some 0
  | c :: rest =>
    if c = 'e' ∨ c = 'E' then
      let (negative, digits) := Numeral.takeSign rest
      if digits ≠ [] ∧ digits.all isAsciiDigit then
        some (Numeral.signed negative (Numeral.ofDigits 10 (digitsOf digits)))
      else none
    else none

def fractionPart : Text → Text × Text
  | '.' :: rest => rest.span isAsciiDigit
  | s => ([], s)

def decimalBody? (negative : Bool) (s : Text) : Option Literal :=
  let (whole, rest) := s.span isAsciiDigit
  let (fraction, rest) := fractionPart rest
  if whole = [] ∧ fraction = [] then none
  else
    (exponentPart? rest).map fun e =>
      .decimal negative (Numeral.ofDigits 10 (digitsOf (whole ++ fraction))) (e - fraction.length)

def literalBody? (negative : Bool) (s : Text) : Option Literal :=
  let word := Text.lowerAscii s
  if word = "inf".toList ∨ word = "infinity".toList then some (.infinity negative)
  else if word = "nan".toList then some .nan
  else decimalBody? negative s

def Literal.ofText? (s : Text) : Option Literal :=
  let (negative, body) := Numeral.takeSign s
  literalBody? negative body

end FindQuery.Binary64
