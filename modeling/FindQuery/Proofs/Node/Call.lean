import FindQuery.Node.Build
import FindQuery.Proofs.Node.Marked
import FindQuery.Proofs.Node.Validation

/-! Expressions by the calls of constructors that make them. -/

namespace FindQuery

inductive LeafCall
  | eq (field : Text) (value : Value)
  | ne (field : Text) (value : Value)
  | gt (field : Text) (value : Value)
  | gte (field : Text) (value : Value)
  | lt (field : Text) (value : Value)
  | lte (field : Text) (value : Value)
  | isIn (field : Text) (values : List Value)
  | notIn (field : Text) (values : List Value)
  | all (field : Text) (values : List Value)
  | size (field : Text) (value : Value)
  | presence (field : Text) (value : Value)
  | regex (field source : Text) (options : List Text)

inductive Call
  | leaf (c : LeafCall)
  | connect (connective : Connective) (args : List Call)
  | negate (field : Text) (arg : Call)
  | elemMatch (field : Text) (args : List Call)
  | filter (args : List Call)
  | other (value : Value)

namespace LeafCall

def build : LeafCall → Except BuildError Node
  | .eq field value => .ok (.eq field value)
  | .ne field value => .ok (.ne field value)
  | .gt field value => .ok (.gt field value)
  | .gte field value => .ok (.gte field value)
  | .lt field value => .ok (.lt field value)
  | .lte field value => .ok (.lte field value)
  | .isIn field values => .ok (.isIn field values)
  | .notIn field values => .ok (.notIn field values)
  | .all field values => .ok (.all field values)
  | .size field value => Node.size? field value
  | .presence field value => .ok (.presence field value)
  | .regex field source options => .ok (.regex field source options)

def operator : LeafCall → Operator
  | .eq .. => .eq
  | .ne .. => .ne
  | .gt .. => .gt
  | .gte .. => .gte
  | .lt .. => .lt
  | .lte .. => .lte
  | .isIn .. => .isIn
  | .notIn .. => .notIn
  | .all .. => .all
  | .size .. => .size
  | .presence .. => .presence
  | .regex .. => .regex

def field : LeafCall → Text
  | .eq f _ | .ne f _ | .gt f _ | .gte f _ | .lt f _ | .lte f _ | .isIn f _ | .notIn f _
  | .all f _ | .size f _ | .presence f _ | .regex f _ _ => f

def value : LeafCall → Value
  | .eq _ v | .ne _ v | .gt _ v | .gte _ v | .lt _ v | .lte _ v | .size _ v | .presence _ v => v
  | .isIn _ vs | .notIn _ vs | .all _ vs => .list vs
  | .regex _ source options => .pattern ⟨source, options.flatten⟩

theorem eq_leaf_of_build {c : LeafCall} {node : Node} (h : c.build = .ok node) :
    node = .leaf c.operator c.field c.value := by
  cases c with
  | size field value =>
    have hsize : Node.size? field value = .ok node := h
    unfold Node.size? at hsize
    split at hsize
    · exact nomatch hsize
    · split at hsize
      · split at hsize
        · exact nomatch hsize
        · exact nomatch hsize
      · exact (Except.ok.inj hsize).symm
  | _ => exact (Except.ok.inj h).symm

end LeafCall

namespace Call

mutual

def build : Call → Except BuildError Node
  | .leaf c => c.build
  | .connect connective args => do
    let nodes ← buildEach args
    Node.connect? connective nodes
  | .negate field arg => do
    let node ← build arg
    Node.negate? field node
  | .elemMatch field args => do
    let nodes ← buildEach args
    Node.elemMatch? field nodes
  | .filter args => do
    let nodes ← buildEach args
    return .filter nodes
  | .other value => .ok (.other value)

def buildEach : List Call → Except BuildError (List Node)
  | [] => .ok []
  | call :: rest => do
    let node ← build call
    let nodes ← buildEach rest
    return node :: nodes

end

mutual

def operators : Call → List Operator
  | .leaf c => [c.operator]
  | .connect connective args => .connective connective :: operatorsOfEach args
  | .negate _ arg => .connective .not :: operators arg
  | .elemMatch _ args => .elemMatch :: operatorsOfEach args
  | .filter args => operatorsOfEach args
  | .other _ => []

def operatorsOfEach : List Call → List Operator
  | [] => []
  | call :: rest => operators call ++ operatorsOfEach rest

end

mutual

def shown : Call → List Operator
  | .leaf c => [c.operator]
  | .connect connective args => .connective connective :: shownOfEach args
  | .negate _ _ => [.connective .not]
  | .elemMatch _ _ => [.elemMatch]
  | .filter args => shownOfEach args
  | .other _ => []

def shownOfEach : List Call → List Operator
  | [] => []
  | call :: rest => shown call ++ shownOfEach rest

end

mutual

/-- The operators of the calls inside of `negate` and `elemMatch`. -/
def hidden : Call → List Operator
  | .leaf _ | .other _ => []
  | .connect _ args => hiddenOfEach args
  | .negate _ arg => operators arg
  | .elemMatch _ args => operatorsOfEach args
  | .filter args => hiddenOfEach args

def hiddenOfEach : List Call → List Operator
  | [] => []
  | call :: rest => hidden call ++ hiddenOfEach rest

end

mutual

theorem mem_operators {o : Operator} : ∀ c : Call,
    o ∈ c.operators ↔ o ∈ c.shown ∨ o ∈ c.hidden
  | .leaf _ => by simp [operators, shown, hidden]
  | .connect _ args => by
    simp only [operators, shown, hidden, List.mem_cons, mem_operatorsOfEach args, or_assoc]
  | .negate _ _ => by simp only [operators, shown, hidden, List.mem_cons, List.not_mem_nil, or_false]
  | .elemMatch _ _ => by
    simp only [operators, shown, hidden, List.mem_cons, List.not_mem_nil, or_false]
  | .filter args => mem_operatorsOfEach args
  | .other _ => by simp [operators, shown, hidden]

theorem mem_operatorsOfEach {o : Operator} : ∀ calls : List Call,
    o ∈ operatorsOfEach calls ↔ o ∈ shownOfEach calls ∨ o ∈ hiddenOfEach calls
  | [] => by simp [operatorsOfEach, shownOfEach, hiddenOfEach]
  | call :: rest => by
    simp only [operatorsOfEach, shownOfEach, hiddenOfEach, List.mem_append, mem_operators call,
      mem_operatorsOfEach rest]
    exact or_or_or_comm

end

theorem embed_eq_ok {result : Except RenderError Document} {v : Value}
    (h : Node.embed result = .ok v) : ∃ d, result = .ok d ∧ v = .document d := by
  cases result with
  | ok d => exact ⟨d, rfl, (Except.ok.inj h).symm⟩
  | error e => exact nomatch h

section Build
variable {connective : Connective} {field : Text} {c : Call} {args : List Call} {node : Node}

theorem of_build_connect (h : (connect connective args).build = .ok node) :
    ∃ nodes, buildEach args = .ok nodes ∧ node = .logical connective nodes := by
  obtain ⟨nodes, hnodes, hconnect⟩ := bind_eq_ok.1 h
  unfold Node.connect? at hconnect
  split at hconnect
  · exact nomatch hconnect
  · exact ⟨nodes, hnodes, (Except.ok.inj hconnect).symm⟩

theorem of_build_negate (h : (negate field c).build = .ok node) :
    ∃ n d, c.build = .ok n ∧ n.document = .ok d ∧
      node = .leaf (.connective .not) field (.document d) := by
  obtain ⟨n, hn, hnegate⟩ := bind_eq_ok.1 h
  obtain ⟨v, hv, rfl⟩ := map_eq_ok.1 hnegate
  obtain ⟨d, hd, rfl⟩ := embed_eq_ok hv
  exact ⟨n, d, hn, hd, rfl⟩

theorem of_build_elemMatch (h : (elemMatch field args).build = .ok node) :
    ∃ nodes d, buildEach args = .ok nodes ∧ Node.merged nodes = .ok d ∧
      node = .leaf .elemMatch field (.document d) := by
  obtain ⟨nodes, hnodes, helem⟩ := bind_eq_ok.1 h
  obtain ⟨v, hv, rfl⟩ := map_eq_ok.1 helem
  obtain ⟨d, hd, rfl⟩ := embed_eq_ok hv
  exact ⟨nodes, d, hnodes, hd, rfl⟩

theorem of_build_filter (h : (filter args).build = .ok node) :
    ∃ nodes, buildEach args = .ok nodes ∧ node = .filter nodes := by
  obtain ⟨nodes, hnodes, hfilter⟩ := bind_eq_ok.1 h
  exact ⟨nodes, hnodes, (Except.ok.inj hfilter).symm⟩

theorem of_buildEach_cons {nodes : List Node} (h : buildEach (c :: args) = .ok nodes) :
    ∃ n rest, c.build = .ok n ∧ buildEach args = .ok rest ∧ nodes = n :: rest := by
  obtain ⟨n, hn, hrest⟩ := bind_eq_ok.1 h
  obtain ⟨rest, hargs, hcons⟩ := bind_eq_ok.1 hrest
  exact ⟨n, rest, hn, hargs, (Except.ok.inj hcons).symm⟩

end Build

mutual

theorem filterMap_preorder_of_build : ∀ (c : Call) {node : Node}, c.build = .ok node →
    node.preorder.filterMap Node.operator? = c.shown
  | .leaf c, _, h => by
    rw [LeafCall.eq_leaf_of_build h]
    rfl
  | .connect connective args, _, h => by
    obtain ⟨nodes, hnodes, rfl⟩ := of_build_connect h
    rw [shown, ← filterMap_preorder_of_buildEach args hnodes]
    rfl
  | .negate field arg, _, h => by
    obtain ⟨n, d, -, -, rfl⟩ := of_build_negate h
    rfl
  | .elemMatch field args, _, h => by
    obtain ⟨nodes, d, -, -, rfl⟩ := of_build_elemMatch h
    rfl
  | .filter args, _, h => by
    obtain ⟨nodes, hnodes, rfl⟩ := of_build_filter h
    rw [shown, ← filterMap_preorder_of_buildEach args hnodes]
    rfl
  | .other _, _, h => by
    obtain rfl := Except.ok.inj h
    rfl

theorem filterMap_preorder_of_buildEach : ∀ (calls : List Call) {nodes : List Node},
    buildEach calls = .ok nodes →
      (Node.preorderOfEach nodes).filterMap Node.operator? = shownOfEach calls
  | [], _, h => by
    obtain rfl := Except.ok.inj h
    rfl
  | call :: rest, _, h => by
    obtain ⟨node, nodes, hnode, hnodes, rfl⟩ := of_buildEach_cons h
    rw [Node.preorderOfEach, List.filterMap_append, filterMap_preorder_of_build call hnode,
      filterMap_preorder_of_buildEach rest hnodes, shownOfEach]

end

end Call
end FindQuery
