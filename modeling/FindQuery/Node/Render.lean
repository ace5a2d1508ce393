import FindQuery.Node.Basic

/-! From expression trees to filter documents. -/

namespace FindQuery

inductive RenderError
  | notAnExpression (typeName : Text)
  | unsupported (operator : Operator) (backend : Text)
deriving DecidableEq

def RenderError.message : RenderError → Text
  | .notAnExpression typeName => "Unknown expression type: ".toList ++ typeName
  | .unsupported operator backend =>
    "Operator ".toList ++ operator.token ++ " is not supported by ".toList ++ backend

namespace Node

def operatorDocument (operator : Operator) (value : Value) : Document :=
  match operator, value with
  | .regex, .pattern p =>
    (Operator.regex.token, .text p.source)
      :: (if p.options = [] then [] else [("$options".toList, .text p.options)])
  | _, _ => [(operator.token, value)]

mutual

def entries : Node → Except RenderError Document
  | .leaf operator field value =>
    if field = [] then .ok (operatorDocument operator value)
    else .ok [(field, .document (operatorDocument operator value))]
  | .logical connective children => do
    let documents ← entriesOfEach children
    return [(connective.token, .list documents)]
  | .filter _ => .error (.notAnExpression Node.filterTypeName)
  | .other value => .error (.notAnExpression value.typeName)

def entriesOfEach : List Node → Except RenderError (List Value)
  | [] => .ok []
  | node :: rest => do
    let document ← entries node
    let documents ← entriesOfEach rest
    return .document document :: documents

end

/-- The document of one expression. That of a leaf does not name its field. -/
def document : Node → Except RenderError Document
  | .leaf operator _ value => .ok (operatorDocument operator value)
  | node => node.entries

def mergeInto (target : Document) : List Node → Except RenderError Document
  | [] => .ok target
  | node :: rest => do
    let es ← node.entries
    mergeInto (Entries.merge target es) rest

def merged (nodes : List Node) : Except RenderError Document := mergeInto [] nodes

end Node

structure Backend where
  name : Text
  supports : Operator → Bool

namespace Backend

def full : Backend := ⟨"FullBackend".toList, fun _ => true⟩

def checkOperator (b : Backend) (operator : Operator) : Except RenderError Unit :=
  if b.supports operator then .ok () else .error (.unsupported operator b.name)

mutual

/-- Refuses the first node, parents before children, that is no expression or whose operator is
unknown to the store. -/
def check (b : Backend) : Node → Except RenderError Unit
  | .leaf operator _ _ => b.checkOperator operator
  | .logical connective children => do
    b.checkOperator (.connective connective)
    checkAll b children
  | .filter _ => .error (.notAnExpression Node.filterTypeName)
  | .other value => .error (.notAnExpression value.typeName)

def checkAll (b : Backend) : List Node → Except RenderError Unit
  | [] => .ok ()
  | node :: rest => do
    check b node
    checkAll b rest

end

/-- Refuses what the store cannot take. A filter is fine at the top alone. -/
def validate (b : Backend) : Node → Except RenderError Unit
  | .filter members => b.checkAll members
  | node => b.check node

def render (node : Node) : Except RenderError Document :=
  match node with
  | .filter members => Node.merged members
  | node => node.document

def convert (b : Backend) (node : Node) : Except RenderError Document := do
  b.validate node
  render node

end Backend
end FindQuery
