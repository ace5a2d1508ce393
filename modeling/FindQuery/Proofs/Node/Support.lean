import FindQuery.Proofs.Node.Call

/-! The operators that a store is given. -/

namespace FindQuery

namespace Call

def field : Call → Text
  | .leaf c => c.field
  | .negate field _ | .elemMatch field _ => field
  | .connect _ _ | .filter _ | .other _ => []

mutual

def bare : Call → MarkedDocument
  | .leaf c => Marked.comparison c.operator c.value
  | .connect connective args =>
    [(.operator (.connective connective), .list ((placedEach args).map .document))]
  | .negate _ arg => [(.operator (.connective .not), .document (bare arg))]
  | .elemMatch _ args =>
    [(.operator .elemMatch, .document (Marked.ofList (placedEach args).flatten))]
  | .filter _ | .other _ => []

def placedEach : List Call → List MarkedDocument
  | [] => []
  | call :: rest => Marked.placed call.field (bare call) :: placedEach rest

end

def marked : Call → MarkedDocument
  | .filter args => Marked.ofList (placedEach args).flatten
  | call => call.bare

mutual

theorem mem_operators_bare {o : Operator} : ∀ c : Call,
    o ∈ Marked.operatorsOfEntries c.bare → o ∈ c.operators
  | .leaf c, h => by
    rw [bare, Marked.operators_comparison] at h
    exact h
  | .connect _ args, h => by
    rw [bare, Marked.operatorsOfEntries_singleton, Marked.operators] at h
    rcases List.mem_cons.1 h with rfl | h
    · exact List.mem_cons_self
    · exact List.mem_cons_of_mem _ (mem_operators_placedEach args (Marked.mem_operatorsOfItems.1 h))
  | .negate _ arg, h => by
    rw [bare, Marked.operatorsOfEntries_singleton, Marked.operators] at h
    rcases List.mem_cons.1 h with rfl | h
    · exact List.mem_cons_self
    · exact List.mem_cons_of_mem _ (mem_operators_bare arg h)
  | .elemMatch _ args, h => by
    rw [bare, Marked.operatorsOfEntries_singleton, Marked.operators] at h
    rcases List.mem_cons.1 h with rfl | h
    · exact List.mem_cons_self
    · exact List.mem_cons_of_mem _ (mem_operators_placedEach args (Marked.mem_operators_ofList h))
  | .filter _, h => nomatch h
  | .other _, h => nomatch h

theorem mem_operators_placedEach {o : Operator} : ∀ calls : List Call,
    (∃ es ∈ placedEach calls, o ∈ Marked.operatorsOfEntries es) → o ∈ operatorsOfEach calls
  | [], h => by
    obtain ⟨es, hes, -⟩ := h
    exact nomatch hes
  | call :: rest, h => by
    obtain ⟨es, hes, ho⟩ := h
    rcases List.mem_cons.1 hes with rfl | hes
    · rw [Marked.operators_placed] at ho
      exact List.mem_append_left _ (mem_operators_bare call ho)
    · exact List.mem_append_right _ (mem_operators_placedEach rest ⟨es, hes, ho⟩)

end

theorem mem_operators_marked {c : Call} {o : Operator}
    (h : o ∈ Marked.operatorsOfEntries c.marked) : o ∈ c.operators := by
  cases c with
  | filter args => exact mem_operators_placedEach args (Marked.mem_operators_ofList h)
  | _ => exact mem_operators_bare _ h

end Call

namespace Node

def field : Node → Text
  | .leaf _ field _ => field
  | .logical _ _ | .filter _ | .other _ => []

theorem rendered_eq (node : Node) :
    node.rendered =
      if node.field = [] then node.renderedBare else [(node.field, .document node.renderedBare)] := by
  cases node with
  | leaf operator field value => rfl
  | _ => exact (if_pos rfl).symm

theorem renderedEach_eq (nodes : List Node) :
    renderedEach nodes = (nodes.map rendered).map .document := by
  induction nodes with
  | nil => rfl
  | cons node rest ih => simp only [List.map_cons, renderedEach, ih]

end Node

namespace Call

variable {c : Call} {node : Node} {d : Document}

theorem field_of_build (h : c.build = .ok node) : node.field = c.field := by
  cases c with
  | leaf c =>
    rw [LeafCall.eq_leaf_of_build h]
    rfl
  | connect connective args =>
    obtain ⟨nodes, -, rfl⟩ := of_build_connect h
    rfl
  | negate field arg =>
    obtain ⟨n, d, -, -, rfl⟩ := of_build_negate h
    rfl
  | elemMatch field args =>
    obtain ⟨nodes, d, -, -, rfl⟩ := of_build_elemMatch h
    rfl
  | filter args =>
    obtain ⟨nodes, -, rfl⟩ := of_build_filter h
    rfl
  | other value =>
    obtain rfl := Except.ok.inj h
    rfl

mutual

theorem renderedBare_of_build : ∀ (c : Call) {node : Node}, c.build = .ok node →
    node.renderedBare = Marked.unmarkedEntries c.bare
  | .leaf c, _, h => by
    rw [LeafCall.eq_leaf_of_build h, bare, Marked.unmarkedEntries_comparison]
    rfl
  | .connect connective args, _, h => by
    obtain ⟨nodes, hnodes, rfl⟩ := of_build_connect h
    have hrendered : (Node.logical connective nodes).renderedBare =
        [(connective.token, .list (Node.renderedEach nodes))] := rfl
    rw [hrendered, Node.renderedEach_eq, map_rendered_of_buildEach args hnodes,
      ← Marked.unmarkedItems_map_document]
    rfl
  | .negate _ arg, _, h => by
    obtain ⟨n, d, hn, hd, rfl⟩ := of_build_negate h
    rw [Node.eq_of_document hd, renderedBare_of_build arg hn]
    rfl
  | .elemMatch _ args, _, h => by
    obtain ⟨nodes, d, hnodes, hd, rfl⟩ := of_build_elemMatch h
    rw [Node.eq_of_merged hd, List.flatMap_def, map_rendered_of_buildEach args hnodes,
      ← Marked.unmarkedEntries_flatten, ← Marked.unmarkedEntries_ofList]
    rfl
  | .filter _, _, h => by
    obtain ⟨nodes, -, rfl⟩ := of_build_filter h
    rfl
  | .other _, _, h => by
    obtain rfl := Except.ok.inj h
    rfl

theorem map_rendered_of_buildEach : ∀ (calls : List Call) {nodes : List Node},
    buildEach calls = .ok nodes →
      nodes.map Node.rendered = (placedEach calls).map Marked.unmarkedEntries
  | [], _, h => by
    obtain rfl := Except.ok.inj h
    rfl
  | call :: rest, _, h => by
    obtain ⟨node, nodes, hnode, hnodes, rfl⟩ := of_buildEach_cons h
    rw [List.map_cons, placedEach, List.map_cons, map_rendered_of_buildEach rest hnodes,
      Node.rendered_eq, field_of_build hnode, renderedBare_of_build call hnode,
      Marked.unmarkedEntries_placed]

end

theorem unmarked_bare_of_document (hbuild : c.build = .ok node) (h : node.document = .ok d) :
    Marked.unmarkedEntries c.bare = d :=
  (renderedBare_of_build c hbuild).symm.trans (Node.eq_of_document h).symm

theorem unmarked_of_render (hbuild : c.build = .ok node) (h : Backend.render node = .ok d) :
    Marked.unmarkedEntries c.marked = d := by
  cases c with
  | filter args =>
    obtain ⟨nodes, hnodes, rfl⟩ := of_build_filter hbuild
    rw [Node.eq_of_merged h, List.flatMap_def, map_rendered_of_buildEach args hnodes,
      ← Marked.unmarkedEntries_flatten, ← Marked.unmarkedEntries_ofList]
    rfl
  | leaf c =>
    obtain rfl := LeafCall.eq_leaf_of_build hbuild
    exact unmarked_bare_of_document hbuild h
  | connect connective args =>
    obtain ⟨nodes, -, rfl⟩ := of_build_connect hbuild
    exact unmarked_bare_of_document hbuild h
  | negate field arg =>
    obtain ⟨n, d', -, -, rfl⟩ := of_build_negate hbuild
    exact unmarked_bare_of_document hbuild h
  | elemMatch field args =>
    obtain ⟨nodes, d', -, -, rfl⟩ := of_build_elemMatch hbuild
    exact unmarked_bare_of_document hbuild h
  | other value =>
    obtain rfl := Except.ok.inj hbuild
    exact nomatch h

theorem filterMap_visited_of_build (hbuild : c.build = .ok node) :
    node.visited.filterMap Node.operator? = c.shown := by
  rw [← filterMap_preorder_of_build c hbuild]
  cases node with
  | filter members => rfl
  | _ => rfl

theorem convert_eq_ok_iff_shown {b : Backend} (hbuild : c.build = .ok node) :
    b.convert node = .ok d ↔
      Backend.full.convert node = .ok d ∧ ∀ o ∈ c.shown, b.supports o = true := by
  rw [Backend.convert_eq_ok, ← filterMap_visited_of_build hbuild]
  constructor
  · rintro ⟨haccepts, hfull⟩
    refine ⟨hfull, ?_⟩
    intro o ho
    obtain ⟨n, hn, hop⟩ := List.mem_filterMap.1 ho
    obtain ⟨o', ho', hsupports⟩ := haccepts n hn
    rw [hop] at ho'
    rwa [Option.some.inj ho']
  · rintro ⟨hfull, hsupports⟩
    refine ⟨?_, hfull⟩
    intro n hn
    -- The full store has found an operator in every node.
    obtain ⟨o, hop, -⟩ := (Backend.convert_eq_ok.1 hfull).1 n hn
    exact ⟨o, hop, hsupports o (List.mem_filterMap.2 ⟨n, hn, hop⟩)⟩

/-- When a store takes an expression, it knows the operators that are shown, and it looks at no others.
So it knows all operators that were called for exactly when it knows the hidden ones; then it is given
no operator that it does not know. -/
theorem supports_operators_iff_hidden {b : Backend} (hbuild : c.build = .ok node)
    (h : b.convert node = .ok d) :
    (∀ b' : Backend, b'.convert node = .ok d ↔ ∀ o ∈ c.shown, b'.supports o = true) ∧
      ((∀ o ∈ c.operators, b.supports o = true) ↔ ∀ o ∈ c.hidden, b.supports o = true) ∧
      Marked.unmarkedEntries c.marked = d ∧
      ((∀ o ∈ c.hidden, b.supports o = true) →
        ∀ o ∈ Marked.operatorsOfEntries c.marked, b.supports o = true) := by
  obtain ⟨hfull, hshown⟩ := (convert_eq_ok_iff_shown hbuild).1 h
  have hall : (∀ o ∈ c.operators, b.supports o = true) ↔ ∀ o ∈ c.hidden, b.supports o = true := by
    constructor
    · intro hoperators o ho
      exact hoperators o ((mem_operators c).2 (.inr ho))
    · intro hhidden o ho
      exact ((mem_operators c).1 ho).elim (hshown o) (hhidden o)
  refine ⟨fun b' => ?_, hall, ?_, fun hhidden o ho => hall.2 hhidden o (mem_operators_marked ho)⟩
  · rw [convert_eq_ok_iff_shown hbuild, and_iff_right hfull]
  · obtain ⟨⟨⟩, -, hrender⟩ := bind_eq_ok.1 h
    exact unmarked_of_render hbuild hrender

def nested : Call :=
  .filter [.elemMatch ['a'] [.leaf (.eq ['b'] .null), .negate ['c'] (.leaf (.gt [] (.int 5)))],
    .connect .or [.leaf (.regex "$gte".toList ['x'] []), .leaf (.presence ['d'] (.bool true))]]

def nestedBackend : Backend :=
  ⟨"Nested".toList, fun o => o ∈ [.elemMatch, .eq, .connective .not, .gt, .connective .or, .regex,
    .presence]⟩

def nestedDocument : Document :=
  [(['a'], .document [("$elemMatch".toList, .document
      [(['b'], .document [("$eq".toList, .null)]),
        (['c'], .document [("$not".toList, .document [("$gt".toList, .int 5)])])])]),
    ("$or".toList, .list
      [.document [("$gte".toList, .document [("$regex".toList, .text ['x'])])],
        .document [(['d'], .document [("$exists".toList, .bool true)])]])]

theorem supports_operators_nested :
    (∀ o ∈ nested.hidden, nestedBackend.supports o = true) ∧
      ∃ node, nested.build = .ok node ∧ nestedBackend.convert node = .ok nestedDocument ∧
        (∀ o ∈ nested.operators, nestedBackend.supports o = true) ∧
        Marked.unmarkedEntries nested.marked = nestedDocument ∧
        ∀ o ∈ Marked.operatorsOfEntries nested.marked, nestedBackend.supports o = true := by
  have hhidden : ∀ o ∈ nested.hidden, nestedBackend.supports o = true := by
    decide
  obtain ⟨node, hbuild, hconvert⟩ : ∃ node, nested.build = .ok node ∧
      nestedBackend.convert node = .ok nestedDocument := ⟨_, rfl, rfl⟩
  obtain ⟨-, hall, hmarked, hdocument⟩ := supports_operators_iff_hidden hbuild hconvert
  exact ⟨hhidden, node, hbuild, hconvert, hall.2 hhidden, hmarked, hdocument hhidden⟩

def negatedBound : Call := .filter [.negate "price".toList (.leaf (.gt [] (.int 5)))]

def negationOnly : Backend := ⟨"NegationOnly".toList, (· = .connective .not)⟩

theorem gt_hidden_by_negate :
    (∃ node, negatedBound.build = .ok node ∧ negationOnly.convert node =
      .ok [("price".toList, .document [("$not".toList, .document [("$gt".toList, .int 5)])])]) ∧
    .gt ∈ negatedBound.operators ∧ .gt ∈ Marked.operatorsOfEntries negatedBound.marked ∧
    negationOnly.supports .gt = false := by
  refine ⟨⟨_, rfl, rfl⟩, ?_, ?_, rfl⟩
  · decide
  · decide

end Call
end FindQuery
