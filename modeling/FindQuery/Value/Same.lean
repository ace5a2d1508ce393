import FindQuery.Value.Basic

/-! Equality of values by what they mean. -/

namespace FindQuery

/-- The exact value of a number. -/
inductive Quantity
  | finite (units : Int)
  | infinite (negative : Bool)
  | notANumber (pattern : Binary64)
deriving DecidableEq

namespace Quantity

def ofInt (n : Int) : Quantity := .finite (n * (Binary64.unitsInOne : Nat))

def ofFloat (x : Binary64) : Quantity :=
  if x.IsNaN then .notANumber x
  else if x.IsFinite then .finite x.signedUnits
  else .infinite x.negative

/-- Without a payload, what is no number is not even the same as itself. -/
def same (a b : Quantity) : Bool := a = b && a ≠ .notANumber Binary64.nan

def isNegative : Quantity → Bool
  | .finite units => units < 0
  | .infinite negative => negative
  | .notANumber _ => false

end Quantity

def Comparison.and (first second : Comparison) : Comparison :=
  match first with
  | .ok true => second
  | other => other

namespace Value

def quantity? : Value → Option Quantity
  | .bool b => some (.ofInt (if b then 1 else 0))
  | .int n => some (.ofInt n)
  | .float x => some (.ofFloat x)
  | _ => none

def sameQuantity (a b : Value) : Bool :=
  match a.quantity?, b.quantity? with
  | some x, some y => x.same y
  | _, _ => false

mutual

/-- Whether two values are the same as parts of something larger. -/
def same : Value → Value → Comparison
  | .null, .null => .ok true
  | .text a, .text b => .ok (a = b)
  | .moment a, .moment b => a.same b
  | .pattern a, .pattern b => .ok (a = b)
  | .list a, .list b => if a.length = b.length then sameAll a b else .ok false
  | .document a, .document b => if a.length = b.length then sameWithin a b else .ok false
  | a, b => .ok (sameQuantity a b)

def sameAll : List Value → List Value → Comparison
  | [], [] => .ok true
  | a :: as, b :: bs => Comparison.and (same a b) (sameAll as bs)
  | _, _ => .ok false

def sameWithin : List (Text × Value) → Entries Value → Comparison
  | [], _ => .ok true
  | (k, a) :: as, other =>
    match other.get? k with
    | some b => Comparison.and (same a b) (sameWithin as other)
    | none => .ok false

end

def isNaN : Value → Bool
  | .float x => decide x.IsNaN
  | _ => false

/-- Equality of two values that stand alone. What is no number then equals nothing at all. -/
def equal (a b : Value) : Comparison := if a.isNaN then .ok false else a.same b

mutual

/-- Gives a payload to every pattern without a number that has none yet. -/
def mark (payload : Nat) : Value → Value
  | .float x => .float (if x = Binary64.nan then Binary64.nanWith payload else x)
  | .list items => .list (markAll payload items)
  | .document entries => .document (markEntries payload entries)
  | v => v

def markAll (payload : Nat) : List Value → List Value
  | [] => []
  | v :: rest => mark payload v :: markAll payload rest

def markEntries (payload : Nat) : List (Text × Value) → List (Text × Value)
  | [] => []
  | (k, v) :: rest => (k, mark payload v) :: markEntries payload rest

end

end Value
end FindQuery
