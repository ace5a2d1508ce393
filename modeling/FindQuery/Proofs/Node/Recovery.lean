import FindQuery.Proofs.Node.Expression

/-! Back from documents to expressions. -/

namespace FindQuery

namespace Node

def patternOf : Value → Value
  | .text source => .pattern ⟨source, []⟩
  | value => value

def comparison? : Document → Option (Operator × Value)
  | [(token, value)] => (Operator.ofToken? token).map fun operator =>
    (operator, if operator = .regex then patternOf value else value)
  | [(_, .text source), (_, .text options)] => some (.regex, .pattern ⟨source, options⟩)
  | _ => none

mutual

def ofEntry? (key : Text) : Value → Option Node
  | .document es => (comparison? es).map fun c => .leaf c.1 key c.2
  | .list items => do
    let operator ← Operator.ofToken? key
    let connective ← operator.connective?
    let children ← ofItems? items
    return .logical connective children
  | _ => none

def ofItem? : Value → Option Node
  | .document es => ofEntries? es
  | _ => none

def ofEntries? : List (Text × Value) → Option Node
  | [] => none
  | (key, value) :: rest => if rest = [] then ofEntry? key value else none

def ofItems? : List Value → Option (List Node)
  | [] => some []
  | item :: rest => do
    let node ← ofItem? item
    let nodes ← ofItems? rest
    return node :: nodes

end

end Node

/-- The filter whose document this is, if it has one member at most. -/
def Filter.ofDocument? : Document → Option Filter
  | [] => some ⟨[]⟩
  | e :: rest => (Node.ofEntries? (e :: rest)).map fun node => ⟨[node]⟩

namespace Node

inductive IsFaithful : Node → Prop
  | leaf {operator : Operator} {field : Text} {value : Value} : field ≠ [] →
      (operator = .regex → ∃ p, value = .pattern p) → IsFaithful (.leaf operator field value)
  | logical {connective : Connective} {children : List Node} :
      (∀ node ∈ children, IsFaithful node) → IsFaithful (.logical connective children)

theorem operatorDocument_of_ne {operator : Operator} (h : operator ≠ .regex) (value : Value) :
    operatorDocument operator value = [(operator.token, value)] := by
  unfold operatorDocument
  split
  · exact absurd rfl h
  · rfl

theorem comparison?_operatorDocument {operator : Operator} {value : Value}
    (h : operator = .regex → ∃ p, value = .pattern p) :
    comparison? (operatorDocument operator value) = some (operator, value) := by
  by_cases hregex : operator = .regex
  · obtain ⟨⟨source, options⟩, rfl⟩ := h hregex
    subst hregex
    by_cases hoptions : options = []
    · subst hoptions
      rfl
    · simp only [operatorDocument, if_neg hoptions]
      rfl
  · rw [operatorDocument_of_ne hregex]
    simp only [comparison?, Operator.ofToken?_token, Option.map_some, if_neg hregex]

theorem ofItems?_renderedEach {nodes : List Node}
    (h : ∀ node ∈ nodes, ofEntries? node.rendered = some node) :
    ofItems? (renderedEach nodes) = some nodes := by
  induction nodes with
  | nil => rfl
  | cons node rest ih =>
    have hnode := h node List.mem_cons_self
    have hrest := ih fun n hn => h n (List.mem_cons_of_mem node hn)
    rw [renderedEach, ofItems?, ofItem?, hnode, hrest]
    rfl

theorem IsFaithful.ofEntries?_rendered {node : Node} (h : node.IsFaithful) :
    ofEntries? node.rendered = some node := by
  induction h with
  | @leaf operator field value hfield hvalue =>
    rw [rendered, if_neg hfield, ofEntries?, if_pos rfl, ofEntry?,
      comparison?_operatorDocument hvalue]
    rfl
  | @logical connective children _ ih =>
    have hoperator : Operator.ofToken? connective.token = some (.connective connective) :=
      Operator.ofToken?_token (.connective connective)
    rw [rendered, ofEntries?, if_pos rfl, ofEntry?, hoperator, ofItems?_renderedEach ih]
    rfl

theorem IsFaithful.exists_rendered_eq {node : Node} (h : node.IsFaithful) :
    ∃ e, node.rendered = [e] := by
  cases h with
  | leaf hfield _ => exact ⟨_, by rw [rendered, if_neg hfield]⟩
  | logical _ => exact ⟨_, by rw [rendered]⟩

theorem IsFaithful.isExpression {node : Node} (h : node.IsFaithful) : node.isExpression = true := by
  induction h with
  | leaf _ _ => rfl
  | logical _ ih => exact areExpressions_iff.2 ih

end Node

namespace Filter
variable {f : Filter}

theorem members_cases (h : f.members.length ≤ 1) : f.members = [] ∨ ∃ node, f.members = [node] := by
  obtain ⟨members⟩ := f
  match members, h with
  | [], _ => exact .inl rfl
  | [node], _ => exact .inr ⟨node, rfl⟩

theorem convert_of_faithful (h : ∀ node ∈ f.members, node.IsFaithful)
    (hone : f.members.length ≤ 1) :
    Backend.full.convert f.node = .ok (f.members.flatMap Node.rendered) := by
  have hexpressions : Node.areExpressions f.members = true :=
    Node.areExpressions_iff.2 fun node hn => (h node hn).isExpression
  rw [node, Backend.convert_full_filter hexpressions]
  rcases members_cases hone with hnil | ⟨node, hnode⟩
  · rw [hnil]
    rfl
  · obtain ⟨e, he⟩ := (h node (hnode ▸ List.mem_cons_self)).exists_rendered_eq
    rw [hnode, List.flatMap_singleton, he]
    rfl

theorem ofDocument?_of_faithful (h : ∀ node ∈ f.members, node.IsFaithful)
    (hone : f.members.length ≤ 1) :
    ∃ d, Backend.full.convert f.node = .ok d ∧ ofDocument? d = some f := by
  refine ⟨_, convert_of_faithful h hone, ?_⟩
  obtain ⟨members⟩ := f
  rcases members_cases hone with rfl | ⟨node, rfl⟩
  · rfl
  · have hnode := h node List.mem_cons_self
    obtain ⟨e, he⟩ := hnode.exists_rendered_eq
    have hread := hnode.ofEntries?_rendered
    rw [List.flatMap_singleton, he]
    rw [he] at hread
    show (Node.ofEntries? [e]).map _ = _
    rw [hread]
    rfl

end Filter
end FindQuery
