import FindQuery.Binary64.Literal
import FindQuery.DateText.Complete
import FindQuery.Operator
import FindQuery.Value.Basic

/-! The types of parameter values. -/

namespace FindQuery.Coerce

def isPlain (s : Text) : Bool := s = Text.strip s && Text.isAscii s

def float? (s : Text) : Option Binary64 :=
  if isPlain s && !s.contains '_' then (Binary64.Literal.ofText? s).map (·.value) else none

def int? (s : Text) : Option Int := if isPlain s then Numeral.literal? s else none

def trueWords : List String := ["1", "t", "T", "TRUE", "true", "True"]

def falseWords : List String := ["0", "f", "F", "FALSE", "false", "False"]

def bool? (s : Text) : Option Bool :=
  if trueWords.any (·.toList = s) then some true
  else if falseWords.any (·.toList = s) then some false
  else none

def moment [Host] (s : Text) : Except DateText.PrecisionError (Option Moment) := DateText.complete s

def isNull (s : Text) : Bool :=
  let word := Text.lowerAscii s
  word = "null".toList || word = "nil".toList

def plain? (s : Text) : Option Value :=
  ((float? s).map Value.float).or <| ((int? s).map Value.int).or <| (bool? s).map Value.bool

def scalar [Host] (s : Text) : Except DateText.PrecisionError Value :=
  match plain? s with
  | some v => .ok v
  | none => (moment s).map fun m? => (m?.map Value.moment).getD (.text s)

def allAs? {α : Type} (read? : Text → Option α) (wrap : α → Value) : List Text → Option (List Value)
  | [] => some []
  | piece :: rest => do
    let a ← read? piece
    let values ← allAs? read? wrap rest
    return wrap a :: values

def allMoments [Host] : List Text → Except DateText.PrecisionError (Option (List Value))
  | [] => .ok (some [])
  | piece :: rest => do
    match ← moment piece with
    | none => return none
    | some m =>
      let values? ← allMoments rest
      return values?.map (.moment m :: ·)

def uniform [Host] (pieces : List Text) : Except DateText.PrecisionError (List Value) :=
  match (allAs? float? .float pieces).or (allAs? int? .int pieces) with
  | some values => .ok values
  | none => (allMoments pieces).map (·.getD (pieces.map .text))

def value [Host] (operator : Operator) (raw : Text) : Except DateText.PrecisionError Value :=
  if operator = .regex ∨ raw = [] then .ok (.text raw)
  else if isNull raw then .ok .null
  else if operator = .isIn ∨ operator = .notIn then
    (uniform (Text.splitOn ',' raw)).map .list
  else scalar raw

end FindQuery.Coerce
