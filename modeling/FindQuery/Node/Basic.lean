import FindQuery.Operator
import FindQuery.Value.Basic

/-! Filter expressions as trees. -/

namespace FindQuery

/-- What can stand where an expression is expected. Only leaves and logical nodes are expressions. -/
inductive Node
  /-- A condition on one field. An empty field makes the leaf anonymous. -/
  | leaf (operator : Operator) (field : Text) (value : Value)
  | logical (connective : Connective) (children : List Node)
  | filter (members : List Node)
  | other (value : Value)

namespace Node

instance : Inhabited Node := ⟨.filter []⟩

def isNamed : Node → Bool
  | .leaf _ field _ => !field.isEmpty
  | _ => false

def filterTypeName : Text := "Filter".toList

mutual

def identical : Node → Node → Bool
  | .leaf o f v, .leaf p g w => o = p && f = g && v = w
  | .logical c as, .logical d bs => c = d && identicalAll as bs
  | .filter as, .filter bs => identicalAll as bs
  | .other v, .other w => v = w
  | _, _ => false

def identicalAll : List Node → List Node → Bool
  | [], [] => true
  | a :: as, b :: bs => identical a b && identicalAll as bs
  | _, _ => false

end

mutual

theorem identical_iff : ∀ a b : Node, identical a b = true ↔ a = b
  | .leaf _ _ _, b => by cases b <;> simp [identical, and_assoc]
  | .other _, b => by cases b <;> simp [identical]
  | .logical c as, b => by
    cases b <;> simp [identical]
    intro _
    exact identicalAll_iff as _
  | .filter as, b => by
    cases b <;> simp [identical]
    exact identicalAll_iff as _

theorem identicalAll_iff : ∀ as bs : List Node, identicalAll as bs = true ↔ as = bs
  | [], bs => by cases bs <;> simp [identicalAll]
  | a :: as, bs => by
    cases bs with
    | nil => simp [identicalAll]
    | cons b bs => simp [identicalAll, identical_iff a b, identicalAll_iff as bs]

end

instance : DecidableEq Node := fun a b => decidable_of_iff _ (identical_iff a b)

end Node

structure Filter where
  members : List Node
deriving DecidableEq

def Filter.node (f : Filter) : Node := .filter f.members

end FindQuery
