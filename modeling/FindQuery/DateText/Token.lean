import FindQuery.Text.Letter
import FindQuery.Text.Digit
import FindQuery.Text.Blank

/-! The tokens of a date text: words, numbers, and single characters. -/

namespace FindQuery.DateText

abbrev Token := Text

inductive Shape
  | nothing
  | word
  | number
  | pointedWord
  | pointedNumber
deriving DecidableEq

/-- The shape after one more character, or none when the character starts another token. The token
so far is given backwards. -/
def Shape.extend? (shape : Shape) (token : Text) (c : Char) : Option Shape :=
  let behindPoint := token.head? = some '.'
  match shape with
  | .nothing => none
  | .word => if Text.isLetter c then some .word else if c = '.' then some .pointedWord else none
  | .number =>
    if Text.isDigit c then some .number
    else if c = '.' then some .pointedNumber
    else if c = ',' ∧ 2 ≤ token.length then some .pointedNumber
    else none
  | .pointedWord =>
    if c = '.' || Text.isLetter c then some .pointedWord
    else if Text.isDigit c && behindPoint then some .pointedNumber
    else none
  | .pointedNumber =>
    if c = '.' || Text.isDigit c then some .pointedNumber
    else if Text.isLetter c && behindPoint then some .pointedWord
    else none

def Shape.isLettered : Shape → Bool
  | .word | .pointedWord => true
  | _ => false

def Shape.isPointed : Shape → Bool
  | .pointedWord | .pointedNumber => true
  | _ => false

def cutAtPoints : Text → List Token
  | [] => []
  | c :: rest =>
    if c = '.' ∨ c = ',' then [c] :: cutAtPoints rest
    else match cutAtPoints rest with
      | [] => [[c]]
      | (d :: piece) :: pieces =>
        if d = '.' ∨ d = ',' then [c] :: (d :: piece) :: pieces else (c :: d :: piece) :: pieces
      | [] :: pieces => [c] :: pieces

def commaToPoint (token : Token) : Token :=
  if '.' ∈ token then token else token.map fun c => if c = ',' then '.' else c

def finish (shape : Shape) (lettered : Bool) (reversed : Text) : List Token :=
  let token := reversed.reverse
  let endsInMark := reversed.head? = some '.' || reversed.head? = some ','
  if shape = .nothing then []
  else if shape.isPointed && (lettered || 1 < token.count '.' || endsInMark) then
    cutAtPoints token
  else [if shape = .pointedNumber then commaToPoint token else token]

def Shape.start (c : Char) : Shape :=
  if Text.isLetter c then .word else if Text.isDigit c then .number else .nothing

def single (c : Char) : Token := if Text.isBlank c then [' '] else [c]

def tokensFrom (shape : Shape) (lettered : Bool) (reversed : Text) : Text → List Token
  | [] => finish shape lettered reversed
  | c :: rest =>
    match shape.extend? reversed c with
    | some shape' => tokensFrom shape' (lettered || shape.isLettered) (c :: reversed) rest
    | none =>
      finish shape (lettered || shape.isLettered) reversed ++
        match Shape.start c with
        | .nothing => single c :: tokensFrom .nothing false [] rest
        | shape' => tokensFrom shape' false [c] rest

def tokens (s : Text) : List Token := tokensFrom .nothing false [] (s.filter (· ≠ '\x00'))

end FindQuery.DateText
