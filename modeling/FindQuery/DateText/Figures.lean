import FindQuery.DateText.Amount
import FindQuery.Calendar.Date

/-! The numbers of a date text that stand for year, month and day. -/

namespace FindQuery.DateText

structure Figures where
  values : List Nat := []
  yearAt : Option Nat := none
  monthAt : Option Nat := none
  fullYear : Bool := false
deriving DecidableEq

inductive Role
  | unknown
  | year
  | month
deriving DecidableEq

namespace Figures

def count (f : Figures) : Nat := f.values.length

def push? (f : Figures) (value : Nat) (role : Role) : Option Figures :=
  let longer := { f with values := f.values ++ [value] }
  match role with
  | .unknown => some longer
  | .year => if f.yearAt.isSome then none else some { longer with yearAt := some f.count }
  | .month => if f.monthAt.isSome then none else some { longer with monthAt := some f.count }

def pushFullYear? (f : Figures) (value : Nat) : Option Figures :=
  ({ f with fullYear := true }).push? value .year

def pushDigits? (f : Figures) (digits : Text) (role : Role) : Option Figures := do
  let value ← Numeral.read? digits
  if 2 < digits.length then f.pushFullYear? value else f.push? value role

def pushAmount? (f : Figures) (a : Amount) : Option Figures :=
  if a.atMost 100 then f.push? a.whole .unknown else f.pushFullYear? a.whole

/-- Whether a number may be the day, given the month and the year known so far. A month without a
year may be in a leap year. -/
def admitsDay (f : Figures) (a : Amount) : Bool :=
  let last := match f.monthAt with
    | none => 31
    | some m =>
      let year := match f.yearAt with
        | none => 2000
        | some y => f.values.getD y 0
      Date.daysInMonth year (f.values.getD m 0)
  1 ≤ a.whole && a.atMost last

structure Parts where
  year : Option Nat := none
  month : Option Nat := none
  day : Option Nat := none
deriving DecidableEq

def known (f : Figures) : Parts where
  year := f.yearAt.bind (f.values[·]?)
  month := f.monthAt.bind (f.values[·]?)

def thirdPlace (i j : Nat) : Nat := 3 - i - j

def resolveTwo (a b : Nat) : Parts :=
  if 31 < a then { year := some a, month := some b }
  else if 31 < b then { month := some a, year := some b }
  else { month := some a, day := some b }

def resolveThree (a b c : Nat) (yearAt monthAt : Option Nat) : Parts :=
  match monthAt with
  | some 0 => if 31 < b then ⟨some b, some a, some c⟩ else ⟨some c, some a, some b⟩
  | some 1 => if 31 < a then ⟨some a, some b, some c⟩ else ⟨some c, some b, some a⟩
  | some _ => if 31 < b then ⟨some b, some c, some a⟩ else ⟨some a, some c, some b⟩
  | none =>
    if 31 < a ∨ yearAt = some 0 then ⟨some a, some b, some c⟩
    else if 12 < a then ⟨some c, some b, some a⟩
    else ⟨some c, some a, some b⟩

def resolveLone (month : Option Nat) (other : Nat) : Parts :=
  if 31 < other then { month, year := some other } else { month, day := some other }

def resolve? (f : Figures) : Option Parts :=
  match f.values, f.yearAt, f.monthAt with
  | [], _, _ => some {}
  | [_], some _, _ | [_], _, some _ => some f.known
  | [a], none, none => some (resolveLone none a)
  | [_, _], some _, some _ => some f.known
  | [a, b], none, some m =>
    some (if m = 0 then resolveLone (some a) b else resolveLone (some b) a)
  | [a, b], _, none => some (resolveTwo a b)
  | [_, _, _], some y, some m => some { f.known with day := f.values[thirdPlace y m]? }
  | [a, b, c], y, m => some (resolveThree a b c y m)
  | _ :: _ :: _ :: _ :: _, _, _ => none

end Figures
end FindQuery.DateText
