import FindQuery.Proofs.Node.Expression
import FindQuery.Proofs.Outcome

/-! What a store refuses. -/

namespace FindQuery

namespace Node

def operator? : Node → Option Operator
  | .leaf operator _ _ => some operator
  | .logical connective _ => some (.connective connective)
  | .filter _ | .other _ => none

mutual

def preorder : Node → List Node
  | .leaf operator field value => [.leaf operator field value]
  | .logical connective children => .logical connective children :: preorderOfEach children
  | .filter members => .filter members :: preorderOfEach members
  | .other value => [.other value]

def preorderOfEach : List Node → List Node
  | [] => []
  | node :: rest => preorder node ++ preorderOfEach rest

end

def visited : Node → List Node
  | .filter members => preorderOfEach members
  | node => node.preorder

mutual

theorem isExpression_of_preorder : ∀ {node : Node},
    (∀ n ∈ node.preorder, n.operator?.isSome = true) → node.isExpression = true
  | .leaf _ _ _, _ => rfl
  | .logical _ children, h => by
    have hc : areExpressions children = true :=
      areExpressions_of_preorderOfEach fun n hn => h n (List.mem_cons_of_mem _ hn)
    exact hc
  | .filter members, h => nomatch h (.filter members) List.mem_cons_self
  | .other value, h => nomatch h (.other value) List.mem_cons_self

theorem areExpressions_of_preorderOfEach : ∀ {nodes : List Node},
    (∀ n ∈ preorderOfEach nodes, n.operator?.isSome = true) → areExpressions nodes = true
  | [], _ => rfl
  | node :: rest, h => by
    have hnode : node.isExpression = true :=
      isExpression_of_preorder fun n hn => h n (List.mem_append_left _ hn)
    have hrest : areExpressions rest = true :=
      areExpressions_of_preorderOfEach fun n hn => h n (List.mem_append_right _ hn)
    exact Bool.and_eq_true_iff.2 ⟨hnode, hrest⟩

end

end Node

namespace Backend

def Accepts (b : Backend) (node : Node) : Prop :=
  ∃ operator, node.operator? = some operator ∧ b.supports operator = true

/-- What is wrong with a node, whatever its children are. -/
inductive Refuses (b : Backend) : Node → RenderError → Prop
  | unsupported {node : Node} {operator : Operator} : node.operator? = some operator →
      b.supports operator = false → Refuses b node (.unsupported operator b.name)
  | filter {members : List Node} :
      Refuses b (.filter members) (.notAnExpression Node.filterTypeName)
  | other {value : Value} : Refuses b (.other value) (.notAnExpression value.typeName)

def inspect (b : Backend) : Node → Except RenderError Unit
  | .leaf operator _ _ => b.checkOperator operator
  | .logical connective _ => b.checkOperator (.connective connective)
  | .filter _ => .error (.notAnExpression Node.filterTypeName)
  | .other value => .error (.notAnExpression value.typeName)

variable {b : Backend}

theorem inspect_of_operator? {node : Node} {operator : Operator}
    (h : node.operator? = some operator) : b.inspect node = b.checkOperator operator := by
  cases node with
  | leaf o field value =>
    obtain rfl := Option.some.inj h
    rfl
  | logical connective children =>
    obtain rfl := Option.some.inj h
    rfl
  | filter members => exact nomatch h
  | other value => exact nomatch h

theorem checkOperator_eq_ok {operator : Operator} :
    b.checkOperator operator = .ok () ↔ b.supports operator = true := by
  unfold checkOperator
  split
  · next h => exact iff_of_true rfl h
  · next h => exact iff_of_false nofun h

theorem inspect_eq_ok {node : Node} : b.inspect node = .ok () ↔ b.Accepts node := by
  cases hop : node.operator? with
  | some operator =>
    rw [inspect_of_operator? hop, checkOperator_eq_ok, Accepts, hop]
    simp only [Option.some.injEq, exists_eq_left']
  | none =>
    have hnot : ¬ b.Accepts node := by
      rintro ⟨operator, ho, -⟩
      rw [hop] at ho
      exact nomatch ho
    cases node with
    | leaf o field value => exact nomatch hop
    | logical connective children => exact nomatch hop
    | filter members => exact iff_of_false nofun hnot
    | other value => exact iff_of_false nofun hnot

theorem inspect_eq_error {node : Node} {e : RenderError} :
    b.inspect node = .error e ↔ b.Refuses node e := by
  constructor
  · intro h
    cases hop : node.operator? with
    | some operator =>
      rw [inspect_of_operator? hop, checkOperator] at h
      split at h
      · exact nomatch h
      · next hs =>
        obtain rfl := Except.error.inj h
        exact .unsupported hop (eq_false_of_ne_true hs)
    | none =>
      cases node with
      | leaf o field value => exact nomatch hop
      | logical connective children => exact nomatch hop
      | filter members =>
        obtain rfl := Except.error.inj h
        exact .filter
      | other value =>
        obtain rfl := Except.error.inj h
        exact .other
  · intro h
    cases h with
    | unsupported hop hs =>
      rw [inspect_of_operator? hop, checkOperator, hs]
      rfl
    | filter => rfl
    | other => rfl

mutual

theorem check_eq_forM (b : Backend) : ∀ node : Node, b.check node = forM node.preorder b.inspect
  | .leaf operator _ _ => (bind_pure _).symm
  | .logical connective children => by
    rw [check, Node.preorder, List.forM_cons, checkAll_eq_forM b children, inspect]
  | .filter members => by
    rw [check, Node.preorder, List.forM_cons, inspect]
    rfl
  | .other _ => rfl

theorem checkAll_eq_forM (b : Backend) :
    ∀ nodes : List Node, b.checkAll nodes = forM (Node.preorderOfEach nodes) b.inspect
  | [] => rfl
  | node :: rest => by
    rw [checkAll, Node.preorderOfEach, List.forM_append, check_eq_forM b node,
      checkAll_eq_forM b rest]

end

theorem validate_eq_forM (b : Backend) (node : Node) :
    b.validate node = forM node.visited b.inspect := by
  cases node with
  | filter members => exact checkAll_eq_forM b members
  | leaf o field value => exact check_eq_forM b _
  | logical connective children => exact check_eq_forM b _
  | other value => exact check_eq_forM b _

theorem validate_eq_ok {node : Node} :
    b.validate node = .ok () ↔ ∀ n ∈ node.visited, b.Accepts n := by
  rw [validate_eq_forM, forM_eq_ok]
  simp only [inspect_eq_ok]

theorem validate_eq_error {node : Node} {e : RenderError} :
    b.validate node = .error e ↔ ∃ before n after, node.visited = before ++ n :: after ∧
      (∀ m ∈ before, b.Accepts m) ∧ b.Refuses n e := by
  rw [validate_eq_forM, forM_eq_error]
  simp only [inspect_eq_ok, inspect_eq_error]

theorem exists_render {node : Node} (h : ∀ n ∈ node.visited, n.operator?.isSome = true) :
    ∃ d, render node = .ok d := by
  cases node with
  | leaf operator field value => exact ⟨_, rfl⟩
  | logical connective children =>
    exact ⟨_, Node.entries_eq_ok (Node.isExpression_of_preorder h)⟩
  | filter members => exact ⟨_, Node.merged_eq_ok (Node.areExpressions_of_preorderOfEach h)⟩
  | other value => exact nomatch h (.other value) List.mem_cons_self

theorem Accepts.isSome_operator? {node : Node} (h : b.Accepts node) :
    node.operator?.isSome = true := by
  obtain ⟨operator, ho, -⟩ := h
  rw [ho]
  rfl

theorem full_accepts {node : Node} (h : node.operator?.isSome = true) : full.Accepts node := by
  obtain ⟨operator, ho⟩ := Option.isSome_iff_exists.1 h
  exact ⟨operator, ho, rfl⟩

theorem convert_of_validate {node : Node} (h : b.validate node = .ok ()) :
    b.convert node = render node := by
  rw [convert, h]
  rfl

theorem convert_eq_full {node : Node} (h : ∀ n ∈ node.visited, b.Accepts n) :
    b.convert node = full.convert node := by
  have hfull : ∀ n ∈ node.visited, full.Accepts n := fun n hn =>
    full_accepts (h n hn).isSome_operator?
  rw [convert_of_validate (validate_eq_ok.2 h), convert_of_validate (validate_eq_ok.2 hfull)]

theorem exists_convert {node : Node} (h : ∀ n ∈ node.visited, b.Accepts n) :
    ∃ d, b.convert node = .ok d := by
  rw [convert_of_validate (validate_eq_ok.2 h)]
  exact exists_render fun n hn => (h n hn).isSome_operator?

theorem validate_eq_ok_iff_exists {node : Node} :
    b.validate node = .ok () ↔ ∃ d, b.convert node = .ok d := by
  constructor
  · intro h
    exact exists_convert (validate_eq_ok.1 h)
  · rintro ⟨d, h⟩
    obtain ⟨⟨⟩, hv, -⟩ := bind_eq_ok.1 h
    exact hv

theorem convert_eq_error {node : Node} {e : RenderError} :
    b.convert node = .error e ↔ b.validate node = .error e := by
  constructor
  · intro h
    rcases bind_eq_error.1 h with hv | ⟨⟨⟩, hv, -⟩
    · exact hv
    · obtain ⟨d, hd⟩ := validate_eq_ok_iff_exists.1 hv
      exact nomatch hd.symm.trans h
  · intro hv
    exact bind_eq_error.2 (.inl hv)

theorem convert_eq_ok {node : Node} {d : Document} :
    b.convert node = .ok d ↔ (∀ n ∈ node.visited, b.Accepts n) ∧ full.convert node = .ok d := by
  constructor
  · intro h
    have haccepts := validate_eq_ok.1 (validate_eq_ok_iff_exists.2 ⟨d, h⟩)
    exact ⟨haccepts, convert_eq_full haccepts ▸ h⟩
  · rintro ⟨haccepts, h⟩
    exact (convert_eq_full haccepts).trans h

/-- Validation is an exact gate. A tree passes when every node is an expression with an operator that
the store knows; then it can be rendered, to the document that a store for all operators gets. In any
other case the first node that is refused is reported. -/
theorem convert_eq_ok_or_first_refusal (b : Backend) (node : Node) :
    ((∀ n ∈ node.visited, b.Accepts n) ↔
        ∃ d, full.convert node = .ok d ∧ b.convert node = .ok d) ∧
      (∀ e, b.convert node = .error e ↔ ∃ before n after, node.visited = before ++ n :: after ∧
        (∀ m ∈ before, b.Accepts m) ∧ b.Refuses n e) ∧
      (b.validate node = .ok () ↔ ∃ d, b.convert node = .ok d) := by
  refine ⟨?_, fun e => ?_, validate_eq_ok_iff_exists⟩
  · constructor
    · intro haccepts
      obtain ⟨d, hd⟩ := exists_convert haccepts
      exact ⟨d, (convert_eq_ok.1 hd).2, hd⟩
    · rintro ⟨d, -, hd⟩
      exact (convert_eq_ok.1 hd).1
  · rw [convert_eq_error, validate_eq_error]

example :
    (Backend.mk "EqualityOnly".toList fun o => o = .eq || o = .connective .or).convert
        (.filter [.leaf .eq ['a'] .null,
          .logical .or [.leaf .eq ['b'] .null, .other (.bool true)], .leaf .gt ['c'] .null]) =
      .error (.notAnExpression "bool".toList) := rfl

end Backend
end FindQuery
