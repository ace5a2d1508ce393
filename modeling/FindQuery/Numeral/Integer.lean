import FindQuery.Numeral.Decimal
import FindQuery.Text.Blank

/-! Integer literals: a sign, a mark for the base, and digits that single underscores may part. -/

namespace FindQuery.Numeral

def digitValue? (base : Nat) (c : Char) : Option Nat :=
  let n := c.toNat
  let value :=
    if 48 ≤ n ∧ n ≤ 57 then n - 48
    else if 65 ≤ n ∧ n ≤ 90 then n - 55
    else if 97 ≤ n ∧ n ≤ 122 then n - 87
    else base
  if value < base then some value else none

def groupedDigits? (value? : Char → Option Nat) : Text → Option (List Nat)
  | [] => none
  | [c] => (value? c).map ([·])
  | c :: '_' :: rest => do
    let d ← value? c
    let ds ← groupedDigits? value? rest
    return d :: ds
  | c :: rest => do
    let d ← value? c
    let ds ← groupedDigits? value? rest
    return d :: ds

def takeSign : Text → Bool × Text
  | '-' :: rest => (true, rest)
  | '+' :: rest => (false, rest)
  | s => (false, s)

def signed (negative : Bool) (n : Nat) : Int := if negative then -(n : Int) else n

def decimal? (value? : Char → Option Nat) (s : Text) : Option Nat := do
  let digits ← groupedDigits? value? s
  if maxDigits < digits.length then none else some (ofDigits 10 digits)

def markedDigits? (base : Nat) (s : Text) : Option Nat :=
  let digits := match s with
    | '_' :: rest => rest
    | _ => s
  (groupedDigits? (digitValue? base) digits).map (ofDigits base)

/-- A literal without its sign. Zeros in front of a decimal numeral are read only when the
number is zero. -/
def unsignedLiteral? : Text → Option Nat
  | '0' :: mark :: rest =>
    if mark = 'x' ∨ mark = 'X' then markedDigits? 16 rest
    else if mark = 'o' ∨ mark = 'O' then markedDigits? 8 rest
    else if mark = 'b' ∨ mark = 'B' then markedDigits? 2 rest
    else do
      let n ← decimal? (digitValue? 10) ('0' :: mark :: rest)
      if n = 0 then some 0 else none
  | s => decimal? (digitValue? 10) s

def literal? (s : Text) : Option Int :=
  let (negative, body) := takeSign s
  (unsignedLiteral? body).map (signed negative)

/-- Octal digits behind an optional sign and a zero, as in `010`. -/
def zeroOctal? (s : Text) : Option Int :=
  match takeSign s with
  | (negative, '0' :: d :: rest) =>
    ((d :: rest).mapM (digitValue? 8)).map fun digits => signed negative (ofDigits 8 digits)
  | _ => none

def isLineBlank (c : Char) : Bool := c = ' ' || (9 ≤ c.toNat && c.toNat ≤ 13)

def isPadding (c : Char) : Bool := isLineBlank c || (127 < c.toNat && Text.isBlank c)

def padded? (s : Text) : Option Int :=
  let (negative, body) := takeSign (Text.stripWith isPadding s)
  (decimal? Text.decimalValue? body).map (signed negative)

end FindQuery.Numeral
