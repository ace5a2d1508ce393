import FindQuery.Node.Same
import FindQuery.Request.Criteria
import FindQuery.Value.Path

/-! A workspace: an environment, a resolver, and expressions and documents under names. -/

namespace FindQuery

structure Workspace where
  environment : Environment := []
  resolver : Resolver := .standard
  nodes : Entries Node := []
  documents : Entries Value := []
  entered : Nat := 0

inductive WorkspaceError
  | unknownName (name : Text)
  | parse (cause : Group.ParseError)
  | render (cause : RenderError)
  | comparison (cause : ZoneError)
  | path (cause : PathError)
deriving DecidableEq

def WorkspaceError.message : WorkspaceError → Text
  | .unknownName name => Text.quoted name
  | .parse cause => cause.message
  | .render cause => cause.message
  | .comparison cause => cause.message
  | .path cause => cause.message

namespace Workspace

def named {α : Type} (es : Entries α) (name : Text) : Except WorkspaceError α :=
  match es.get? name with
  | some a => .ok a
  | none => .error (.unknownName name)

def node (w : Workspace) (name : Text) : Except WorkspaceError Node := named w.nodes name

def define (w : Workspace) (name : Text) (node : Node) : Workspace :=
  { w with
    nodes := w.nodes.put name (node.mark (w.entered + 1))
    entered := w.entered + 1 }

def defineParsed [Host] (w : Workspace) (name filterName : Text) (params : Params) :
    Except WorkspaceError Workspace := do
  let filters ← (Group.parse Group.defaultOptions params).mapError .parse
  return w.define name (filters.named filterName).node

def equal (w : Workspace) (a b : Text) : Except WorkspaceError Bool := do
  let first ← w.node a
  let second ← w.node b
  (first.equal second).mapError .comparison

def storeDocument (w : Workspace) (name : Text) (document : Value) : Workspace :=
  { w with documents := w.documents.put name document }

def rendered (w : Workspace) (name : Text) : Except WorkspaceError Value := do
  let node ← w.node name
  let document ← (Backend.full.convert node).mapError .render
  return .document document

def changed (w : Workspace) (name : Text) (change : Value → Except PathError Value) :
    Except WorkspaceError Value := do
  let document ← named w.documents name
  (change document).mapError .path

end Workspace
end FindQuery
