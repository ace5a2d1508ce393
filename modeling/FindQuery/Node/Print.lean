import FindQuery.Node.Basic
import FindQuery.Value.Print

/-! The text of an expression tree. -/

namespace FindQuery.Node

def bracketed : List Text → Text
  | [s] => '(' :: s ++ [',', ')']
  | texts => '(' :: Text.joinWith ", ".toList texts ++ [')']

mutual

def print : Node → Text
  | .leaf operator field value =>
    if field = [] then operator.token ++ ": ".toList ++ value.print
    else field ++ ' ' :: operator.token ++ ' ' :: value.print
  | .logical connective children =>
    connective.token ++ "([".toList ++ Text.joinWith ", ".toList (printAll children)
      ++ "])".toList
  | .filter members => "Filter(expressions=".toList ++ bracketed (printAll members) ++ [')']
  | .other value => value.print

def printAll : List Node → List Text
  | [] => []
  | node :: rest => print node :: printAll rest

end

mutual

def isWritable : Node → Bool
  | .leaf _ _ value => value.isWritable
  | .logical _ children => areWritable children
  | .filter members => areWritable members
  | .other value => value.isWritable

def areWritable : List Node → Bool
  | [] => true
  | node :: rest => isWritable node && areWritable rest

end

def write (node : Node) : Except Numeral.DecimalError Text :=
  if node.isWritable then .ok node.print else .error .tooLargeToWrite

end FindQuery.Node
