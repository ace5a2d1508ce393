import FindQuery.Text.Quoted

/-! The operators of filter documents. -/

namespace FindQuery

inductive Connective
  | and
  | or
  | nor
  | not
deriving DecidableEq

inductive Operator
  | eq
  | ne
  | gt
  | gte
  | lt
  | lte
  | isIn
  | notIn
  | connective (c : Connective)
  | all
  | size
  | elemMatch
  | presence
  | regex
deriving DecidableEq

inductive Category
  | comparison
  | logical
  | array
  | element
  | evaluation
deriving DecidableEq

def Connective.token : Connective → Text
  | .and => "$and".toList
  | .or => "$or".toList
  | .nor => "$nor".toList
  | .not => "$not".toList

def Connective.name : Connective → Text
  | .and => "AND".toList
  | .or => "OR".toList
  | .nor => "NOR".toList
  | .not => "NOT".toList

def Category.name : Category → Text
  | .comparison => "comparison".toList
  | .logical => "logical".toList
  | .array => "array".toList
  | .element => "element".toList
  | .evaluation => "evaluation".toList

namespace Operator

def token : Operator → Text
  | .eq => "$eq".toList
  | .ne => "$ne".toList
  | .gt => "$gt".toList
  | .gte => "$gte".toList
  | .lt => "$lt".toList
  | .lte => "$lte".toList
  | .isIn => "$in".toList
  | .notIn => "$nin".toList
  | .connective c => c.token
  | .all => "$all".toList
  | .size => "$size".toList
  | .elemMatch => "$elemMatch".toList
  | .presence => "$exists".toList
  | .regex => "$regex".toList

def name : Operator → Text
  | .eq => "EQ".toList
  | .ne => "NE".toList
  | .gt => "GT".toList
  | .gte => "GTE".toList
  | .lt => "LT".toList
  | .lte => "LTE".toList
  | .isIn => "IN".toList
  | .notIn => "NIN".toList
  | .connective c => c.name
  | .all => "ALL".toList
  | .size => "SIZE".toList
  | .elemMatch => "ELEM_MATCH".toList
  | .presence => "EXISTS".toList
  | .regex => "REGEX".toList

def category : Operator → Category
  | .eq | .ne | .gt | .gte | .lt | .lte | .isIn | .notIn => .comparison
  | .connective _ => .logical
  | .all | .size | .elemMatch => .array
  | .presence => .element
  | .regex => .evaluation

def connective? : Operator → Option Connective
  | .connective c => some c
  | _ => none

def isLogical (o : Operator) : Bool := o.connective?.isSome

def catalog : List Operator :=
  [.eq, .ne, .gt, .gte, .lt, .lte, .isIn, .notIn,
    .connective .and, .connective .or, .connective .nor, .connective .not,
    .all, .size, .elemMatch, .presence, .regex]

def ofToken? (t : Text) : Option Operator := catalog.find? (·.token = t)

structure UnknownToken where
  token : Text
deriving DecidableEq

def UnknownToken.message (e : UnknownToken) : Text :=
  Text.quoted e.token ++ " is not a valid Operator".toList

def read (t : Text) : Except UnknownToken Operator :=
  match ofToken? t with
  | some o => .ok o
  | none => .error ⟨t⟩

theorem mem_catalog (o : Operator) : o ∈ catalog := by
  cases o with
  | connective c => cases c <;> decide
  | _ => decide

theorem ofToken?_token (o : Operator) : ofToken? o.token = some o := by
  have key : ∀ x ∈ catalog, ofToken? x.token = some x := by decide
  exact key o (mem_catalog o)

end Operator
end FindQuery
