import FindQuery.Text.Basic

/-! The keys of filter groups, written `name[and][or][attribute]`. -/

namespace FindQuery.Group

inductive Attribute
  | field
  | value
  | condition
deriving DecidableEq

def Attribute.word : Attribute → Text
  | .field => "field".toList
  | .value => "value".toList
  | .condition => "condition".toList

def Attribute.ofText? (s : Text) : Option Attribute :=
  [Attribute.field, .value, .condition].find? (·.word = s)

structure Triple where
  name : Text
  andIndex : Text
  orIndex : Text
deriving DecidableEq

def isBracket (c : Char) : Bool := c = '[' || c = ']'

def bracketed (s : Text) : Text := '[' :: s ++ [']']

def Triple.stem (t : Triple) : Text := t.name ++ bracketed t.andIndex ++ bracketed t.orIndex

def Triple.key (t : Triple) (a : Attribute) : Text := t.stem ++ bracketed a.word

def part? (s : Text) : Option (Text × Text) :=
  match s.span (!isBracket ·) with
  | ([], _) => none
  | split => some split

def bracketedPart? (s : Text) : Option (Text × Text) :=
  match s with
  | '[' :: inner =>
    match part? inner with
    | some (p, ']' :: rest) => some (p, rest)
    | _ => none
  | _ => none

def splitKey? (key : Text) : Option (Triple × Attribute) := do
  let (name, rest) ← part? key
  let (andIndex, rest) ← bracketedPart? rest
  let (orIndex, rest) ← bracketedPart? rest
  let (word, rest) ← bracketedPart? rest
  let attr ← Attribute.ofText? word
  if rest = [] ∨ rest = ['\n'] then some (⟨name, andIndex, orIndex⟩, attr) else none

end FindQuery.Group
