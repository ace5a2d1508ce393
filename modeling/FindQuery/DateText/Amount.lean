import FindQuery.DateText.Token
import FindQuery.Binary64.Rounding
import FindQuery.Numeral.Decimal

/-! Numbers in a date text: a whole part and the digits behind a point. -/

namespace FindQuery.DateText

structure PrecisionError where
deriving DecidableEq

def PrecisionError.message (_ : PrecisionError) : Text :=
  "[<class 'decimal.DivisionImpossible'>]".toList

inductive Obstacle
  | noDate
  | precision (cause : PrecisionError)
deriving DecidableEq

abbrev Reading (α : Type) := Except Obstacle α

def Reading.ofOption {α : Type} : Option α → Reading α
  | some a => .ok a
  | none => .error .noDate

structure Amount where
  whole : Nat
  fraction : List Nat
deriving DecidableEq

namespace Amount

def decimals? (s : Text) : Option (List Nat) := s.mapM Text.decimalValue?

def ofToken? (t : Token) : Option Amount :=
  match Text.cutAt '.' t with
  | (whole, none) =>
    if whole = [] then none else (decimals? whole).map fun w => ⟨Numeral.ofDigits 10 w, []⟩
  | (whole, some fraction) =>
    if whole = [] ∨ fraction = [] then none
    else do
      let w ← decimals? whole
      let f ← decimals? fraction
      return ⟨Numeral.ofDigits 10 w, f⟩

def isWhole (a : Amount) : Bool := a.fraction.all (· = 0)

def atMost (a : Amount) (n : Nat) : Bool := a.whole < n || (a.whole = n && a.isWhole)

def significantDigits : Nat := 28

def significant (n : Nat) : Nat × Nat :=
  let extra := Numeral.digitCount n - significantDigits
  (roundQuotient n (Nat.pow 10 extra), extra)

def sixtieths (a : Amount) : Nat :=
  let (part, dropped) := significant (Numeral.ofDigits 10 a.fraction)
  let (product, dropped') := significant (60 * part)
  product * Nat.pow 10 dropped' / Nat.pow 10 (a.fraction.length - dropped)

def sixtieths? (a : Amount) : Except PrecisionError (Option Nat) :=
  if significantDigits < Numeral.digitCount a.whole then .error ⟨⟩
  else .ok (if a.isWhole then none else some a.sixtieths)

def readSixtieths (a : Amount) : Reading (Option Nat) := a.sixtieths?.mapError .precision

end Amount

def seconds? (t : Token) : Option (Nat × Nat) :=
  match Text.cutAt '.' t with
  | (whole, none) => (Numeral.read? whole).map fun n => (n, 0)
  | (whole, some fraction) => do
    let n ← Numeral.read? whole
    let f ← Numeral.read? ((fraction ++ List.replicate (6 - fraction.length) '0').take 6)
    return (n, f)

end FindQuery.DateText
