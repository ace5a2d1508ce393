import FindQuery.Coerce
import FindQuery.Condition
import FindQuery.Group.Index
import FindQuery.Group.Key
import FindQuery.Node.Basic
import FindQuery.Params.Basic
import FindQuery.StableSort

/-! Filters out of request parameters. -/

namespace FindQuery.Group

inductive Defect
  | missingField
  | unknownCondition (code : Text)
deriving DecidableEq

structure Dropped where
  triple : Triple
  defect : Defect
deriving DecidableEq

def distinct {α : Type} [DecidableEq α] : List α → List α
  | [] => []
  | a :: rest => a :: (distinct rest).filter (· ≠ a)

def triples (params : Params) : List Triple :=
  distinct (params.keys.filterMap fun key => (splitKey? key).map Prod.fst)

structure Rank where
  name : Nat
  andKey : IndexKey
  orKey : IndexKey
deriving DecidableEq

def Rank.le (a b : Rank) : Bool :=
  a.name < b.name ||
    (a.name = b.name &&
      (if a.andKey = b.andKey then a.orKey.le b.orKey else a.andKey.le b.andKey))

def rank (names : List Text) (t : Triple) : Except Numeral.DecimalError Rank := do
  let andKey ← IndexKey.ofText t.andIndex
  let orKey ← IndexKey.ofText t.orIndex
  return ⟨names.idxOf t.name, andKey, orKey⟩

def ranked (names : List Text) :
    List Triple → Except Numeral.DecimalError (List (Rank × Triple))
  | [] => .ok []
  | t :: rest => do
    let r ← rank names t
    let others ← ranked names rest
    return (r, t) :: others

/-- The triples in the order of their names as first seen, and then of their indices. -/
def sortedTriples (params : Params) : Except Numeral.DecimalError (List Triple) := do
  let seen := triples params
  let rs ← ranked (distinct (seen.map (·.name))) seen
  return (stableSort (fun a b => a.1.le b.1) rs).map Prod.snd

def Triple.rawField (t : Triple) (params : Params) : Text := params.first (t.key .field)

def Triple.rawValue (t : Triple) (params : Params) : Text := params.first (t.key .value)

def Triple.rawCode (t : Triple) (params : Params) : Text := params.first (t.key .condition)

def Triple.operator (t : Triple) (params : Params) : Except Defect Operator :=
  if t.rawField params = [] then .error .missingField
  else match Condition.operator? (t.rawCode params) with
    | none => .error (.unknownCondition (t.rawCode params))
    | some operator => .ok operator

def leaf [Host] (options : Text) (params : Params) (t : Triple) (operator : Operator) :
    Except DateText.PrecisionError Node :=
  match operator with
  | .regex => .ok (.leaf .regex (t.rawField params) (.pattern ⟨t.rawValue params, options⟩))
  | operator =>
    (Coerce.value operator (t.rawValue params)).map (.leaf operator (t.rawField params))

def complete (params : Params) (ts : List Triple) : List (Triple × Operator) :=
  ts.filterMap fun t => (t.operator params).toOption.map (t, ·)

def leaves [Host] (options : Text) (params : Params) :
    List (Triple × Operator) → Except DateText.PrecisionError (List (Triple × Node))
  | [] => .ok []
  | (t, operator) :: rest => do
    let node ← leaf options params t operator
    let nodes ← leaves options params rest
    return (t, node) :: nodes

def Triple.defect? (t : Triple) (params : Params) : Option Defect :=
  match t.operator params with
  | .ok _ => none
  | .error d => some d

def droppedOf (params : Params) (ts : List Triple) : List Dropped :=
  ts.filterMap fun t => (t.defect? params).map (⟨t, ·⟩)

def isReadable [Host] (options : Text) (params : Params) (t : Triple) : Bool :=
  match t.operator params with
  | .ok operator => (leaf options params t operator).isOk
  | .error _ => true

def groupBy {α κ : Type} [DecidableEq κ] (key : α → κ) (l : List α) : List (κ × List α) :=
  (distinct (l.map key)).map fun k => (k, l.filter (key · = k))

def combine (connective : Connective) : List Node → Node
  | [node] => node
  | nodes => .logical connective nodes

def assemble (conditions : List (Triple × Node)) : Filter :=
  let conjuncts := (groupBy (·.1.andIndex) conditions).map fun g =>
    combine .or (g.2.map Prod.snd)
  if conjuncts = [] then ⟨[]⟩ else ⟨[combine .and conjuncts]⟩

abbrev Filters := Entries Filter

def Filters.named (fs : Filters) (name : Text) : Filter := (fs.get? name).getD ⟨[]⟩

inductive ParseError
  | numeral (cause : Numeral.DecimalError)
  | precision (cause : DateText.PrecisionError)
deriving DecidableEq

def ParseError.message : ParseError → Text
  | .numeral cause => cause.message
  | .precision cause => cause.message

def defaultOptions : Text := ['i']

def parse [Host] (options : Text) (params : Params) : Except ParseError Filters := do
  let ts ← (sortedTriples params).mapError .numeral
  let nodes ← (leaves options params (complete params ts)).mapError .precision
  return (groupBy (·.1.name) nodes).map fun g => (g.1, assemble g.2)

/-- The conditions that are dropped before the parse ends, in the order of their triples. -/
def dropped [Host] (options : Text) (params : Params) : List Dropped :=
  match sortedTriples params with
  | .ok ts => droppedOf params (ts.takeWhile (isReadable options params))
  | .error _ => []

end FindQuery.Group
