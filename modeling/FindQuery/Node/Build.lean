import FindQuery.Node.Render
import FindQuery.Value.Print
import FindQuery.Value.Same

/-! Constructors of expressions for code that writes filters by hand. -/

namespace FindQuery

inductive BuildError
  | notLogical (operator : Operator)
  | noOperands (connective : Connective)
  | negativeLength (value : Value)
  | notANumber (value : Value)
  | notWritten (cause : Numeral.DecimalError)
  | notRendered (cause : RenderError)
deriving DecidableEq

def BuildError.message : BuildError → Text
  | .notLogical operator => operator.token ++ " is not a logical operator".toList
  | .noOperands connective => connective.token ++ " requires at least one expression".toList
  | .negativeLength value =>
    "$size requires a non-negative length, got ".toList ++ value.print
  | .notANumber value =>
    "'<' not supported between instances of '".toList ++ value.qualifiedTypeName
      ++ "' and 'int'".toList
  | .notWritten cause => cause.message
  | .notRendered cause => cause.message

namespace Node

def eq (field : Text) (value : Value) : Node := .leaf .eq field value
def ne (field : Text) (value : Value) : Node := .leaf .ne field value
def gt (field : Text) (value : Value) : Node := .leaf .gt field value
def gte (field : Text) (value : Value) : Node := .leaf .gte field value
def lt (field : Text) (value : Value) : Node := .leaf .lt field value
def lte (field : Text) (value : Value) : Node := .leaf .lte field value
def isIn (field : Text) (values : List Value) : Node := .leaf .isIn field (.list values)
def notIn (field : Text) (values : List Value) : Node := .leaf .notIn field (.list values)
def all (field : Text) (values : List Value) : Node := .leaf .all field (.list values)
def presence (field : Text) (value : Value) : Node := .leaf .presence field value

def regex (field source : Text) (options : List Text) : Node :=
  .leaf .regex field (.pattern ⟨source, options.flatten⟩)

def connect? (connective : Connective) (children : List Node) : Except BuildError Node :=
  if children = [] then .error (.noOperands connective) else .ok (.logical connective children)

def logical? (operator : Operator) (children : List Node) : Except BuildError Node :=
  match operator.connective? with
  | none => .error (.notLogical operator)
  | some connective => connect? connective children

def size? (field : Text) (value : Value) : Except BuildError Node :=
  match value.quantity? with
  | none => .error (.notANumber value)
  | some q =>
    if q.isNegative then
      if value.isWritable then .error (.negativeLength value)
      else .error (.notWritten .tooLargeToWrite)
    else .ok (.leaf .size field value)

def embed (result : Except RenderError Document) : Except BuildError Value :=
  match result with
  | .ok document => .ok (.document document)
  | .error cause => .error (.notRendered cause)

def negate? (field : Text) (node : Node) : Except BuildError Node :=
  (embed node.document).map (.leaf (.connective .not) field)

def elemMatch? (field : Text) (nodes : List Node) : Except BuildError Node :=
  (embed (merged nodes)).map (.leaf .elemMatch field)

end Node
end FindQuery
