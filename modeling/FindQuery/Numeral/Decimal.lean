import FindQuery.Text.Digit
import FindQuery.Text.Quoted

/-! Decimal numerals, and the bound on their length that keeps reading and writing cheap. -/

namespace FindQuery.Numeral

def maxDigits : Nat := 4300

inductive DecimalError
  | malformed (source : Text)
  | tooManyDigits (count : Nat)
  | tooLargeToWrite
deriving DecidableEq

def shownLength : Nat := 200

def ofDigits (base : Nat) (digits : List Nat) : Nat :=
  digits.foldl (fun n d => n * base + d) 0

def ofNat (n : Nat) : Text := Nat.toDigits 10 n

def ofInt (n : Int) : Text :=
  if n < 0 then '-' :: ofNat n.natAbs else ofNat n.natAbs

def digitCount (n : Nat) : Nat := (ofNat n).length

def padded (width n : Nat) : Text :=
  let s := ofNat n
  List.replicate (width - s.length) '0' ++ s

def limitText : Text :=
  "Exceeds the limit (".toList ++ ofNat maxDigits
    ++ " digits) for integer string conversion".toList

def adviceText : Text := "use sys.set_int_max_str_digits() to increase the limit".toList

def DecimalError.message : DecimalError → Text
  | .malformed source =>
    "invalid literal for int() with base 10: ".toList ++ (Text.quoted source).take shownLength
  | .tooManyDigits count =>
    limitText ++ ": value has ".toList ++ ofNat count ++ " digits; ".toList ++ adviceText
  | .tooLargeToWrite => limitText ++ "; ".toList ++ adviceText

def isWritable (n : Int) : Bool := digitCount n.natAbs ≤ maxDigits

def write (n : Int) : Except DecimalError Text :=
  if isWritable n then .ok (ofInt n) else .error .tooLargeToWrite

def leadingDigits : Text → List Nat
  | [] => []
  | c :: rest =>
    match Text.decimalValue? c with
    | none => []
    | some d => d :: leadingDigits rest

def read (s : Text) : Except DecimalError Nat :=
  let digits := leadingDigits s
  if maxDigits < digits.length then .error (.tooManyDigits digits.length)
  else if s = [] ∨ digits.length < s.length then .error (.malformed s)
  else .ok (ofDigits 10 digits)

def read? (s : Text) : Option Nat := (read s).toOption

end FindQuery.Numeral
