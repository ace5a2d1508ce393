import FindQuery.Proofs.Request.Failure
import FindQuery.Proofs.Request.Form

/-! Conditions written into a query string come to the document of their expression. -/

namespace FindQuery

theorem Condition.Code.construct_of_ne (code : Code) (h : code.operator ≠ .regex) (field : Text)
    (v : Value) : code.construct field v = .leaf code.operator field v := by
  cases code with
  | isIn => cases v <;> rfl
  | notIn => cases v <;> rfl
  | regex => exact absurd rfl h
  | like => exact absurd rfl h
  | _ => rfl

theorem Condition.Code.construct_text (code : Code) (h : code.operator = .regex) (field : Text)
    (source : Text) : code.construct field (.text source) =
      .leaf .regex field (.pattern ⟨source, Group.defaultOptions⟩) := by
  cases code with
  | regex => rfl
  | like => rfl
  | _ => exact nomatch h

theorem Condition.Code.isExpression_construct (code : Code) (field : Text) (v : Value) :
    (code.construct field v).isExpression = true := by
  cases code <;> cases v <;> rfl

namespace Node

theorem join?_eq (connective : Connective) {nodes : List Node} (h : nodes ≠ []) :
    join? connective nodes = .ok (Group.combine connective nodes) := by
  cases nodes with
  | nil => exact absurd rfl h
  | cons node rest =>
    cases rest with
    | nil => rfl
    | cons node' rest => rfl

theorem mapM_join? {connective : Connective} {groups : List (List Node)}
    (h : ∀ group ∈ groups, group ≠ []) :
    groups.mapM (join? connective) = .ok (groups.map (Group.combine connective)) := by
  induction groups with
  | nil => rfl
  | cons group rest ih =>
    have hgroup := join?_eq connective (h group List.mem_cons_self)
    have hrest := ih fun g hg => h g (List.mem_cons_of_mem group hg)
    rw [List.mapM_cons, hgroup, hrest]
    rfl

theorem ofGroups?_eq {groups : List (List Node)} (hne : groups ≠ [])
    (h : ∀ group ∈ groups, group ≠ []) :
    ofGroups? groups = .ok (Group.joined groups) := by
  have hmap : groups.map (Group.combine .or) ≠ [] := fun hnil => hne (List.map_eq_nil_iff.1 hnil)
  rw [ofGroups?, mapM_join? h]
  exact join?_eq .and hmap

end Node

namespace Form
variable {f : Form} {pairs : List (Text × Text)}

theorem leaf_ofPairs [Host] (h : pairs.Perm f.pairs) {p : (Nat × Nat) × Clause}
    (hp : p ∈ Group.located f.groups) :
    Group.leaf Group.defaultOptions (Params.ofPairs pairs) (.ofPosition f.name p.1)
      p.2.code.operator = p.2.node := by
  have hfield : (Group.Triple.ofPosition f.name p.1).rawField (Params.ofPairs pairs) = p.2.field :=
    first_ofPairs h hp .field
  have hvalue : (Group.Triple.ofPosition f.name p.1).rawValue (Params.ofPairs pairs) = p.2.value :=
    first_ofPairs h hp .value
  by_cases hregex : p.2.code.operator = .regex
  · have hconstruct := p.2.code.construct_text hregex p.2.field p.2.value
    rw [Clause.node, hregex, Group.leaf, hfield, hvalue, ← hconstruct]
    rfl
  · have hconstruct : p.2.code.construct p.2.field = .leaf p.2.code.operator p.2.field := by
      funext v
      exact p.2.code.construct_of_ne hregex p.2.field v
    rw [Clause.node, Group.leaf_of_ne hregex, hfield, hvalue, hconstruct]

theorem complete_ofPairs (h : pairs.Perm f.pairs) :
    Group.complete (Params.ofPairs pairs) f.triples = (Group.located f.groups).map fun p =>
      (Group.Triple.ofPosition f.name p.1, p.2.code.operator) := by
  have hoperator (p : (Nat × Nat) × Clause) (hp : p ∈ Group.located f.groups) :
      (Group.Triple.ofPosition f.name p.1).operator (Params.ofPairs pairs) =
        .ok p.2.code.operator := by
    rw [Group.Triple.operator_eq_ok, first_ofPairs h hp .field, first_ofPairs h hp .condition]
    exact ⟨p.2.field_ne_nil, p.2.code.operator?_word⟩
  rw [Group.complete, triples, List.filterMap_map, ← List.filterMap_eq_map]
  apply List.filterMap_congr
  intro p hp
  show ((Group.Triple.operator _ _).toOption.map _) = _
  rw [Function.comp_apply, hoperator p hp]
  rfl

theorem leaves_ofPairs [Host] (h : pairs.Perm f.pairs) :
    Group.leaves Group.defaultOptions (Params.ofPairs pairs)
        (Group.complete (Params.ofPairs pairs) f.triples) =
      f.nodes.map fun nodes => (Group.located nodes).map (Group.placed f.name) := by
  rw [complete_ofPairs h]
  exact Group.leaves_located (fun c : Clause => c.code.operator) Clause.node
    fun p hp => leaf_ofPairs h hp

theorem nodes_eq_ok [Host] {nodes : List (List Node)} (h : f.nodes = .ok nodes) :
    nodes ≠ [] ∧ ∀ group ∈ nodes, group ≠ [] ∧ ∀ node ∈ group, node.isExpression = true := by
  have hgroups := mapM_eq_ok.1 h
  constructor
  · rintro rfl
    exact f.groups_ne_nil (List.length_eq_zero_iff.1 hgroups.length_eq)
  · intro group hgroup
    obtain ⟨clauses, hclauses, hgroup⟩ := exists_of_mem_right hgroups hgroup
    have hnodes := mapM_eq_ok.1 hgroup
    constructor
    · rintro rfl
      exact f.group_ne_nil clauses hclauses (List.length_eq_zero_iff.1 hnodes.length_eq)
    · intro node hnode
      obtain ⟨c, -, hc⟩ := exists_of_mem_right hnodes hnode
      obtain ⟨v, -, rfl⟩ := map_eq_ok.1 hc
      exact c.code.isExpression_construct c.field v

theorem assemble_conditions [Host] {nodes : List (List Node)} (h : f.nodes = .ok nodes) :
    ((Group.groupBy (·.1.name) ((Group.located nodes).map (Group.placed f.name))).map
      fun g => (g.1, Group.assemble g.2)) = [(f.name, ⟨[Group.joined nodes]⟩)] := by
  obtain ⟨hne, hgroups⟩ := nodes_eq_ok h
  have hassemble := Group.assemble_located f.name hne fun g hg => (hgroups g hg).1
  have hconditions : (Group.located nodes).map (Group.placed f.name) ≠ [] := by
    intro hnil
    rw [hnil] at hassemble
    exact nomatch congrArg Filter.members hassemble
  have hgroup : Group.groupBy (·.1.name) ((Group.located nodes).map (Group.placed f.name)) =
      [(f.name, (Group.located nodes).map (Group.placed f.name))] := by
    apply Group.groupBy_of_forall_eq
    · intro p hp
      obtain ⟨q, -, rfl⟩ := List.mem_map.1 hp
      rfl
    · exact hconditions
  rw [hgroup, List.map_singleton, hassemble]

theorem parse_ofPairs [Host] (h : pairs.Perm f.pairs) :
    Group.parse Group.defaultOptions (Params.ofPairs pairs) =
      (f.nodes.mapError Group.ParseError.precision).map fun nodes =>
        [(f.name, ⟨[Group.joined nodes]⟩)] := by
  unfold Group.parse
  rw [sortedTriples_ofPairs h]
  show ((Group.leaves _ _ _).mapError Group.ParseError.precision >>= _) = _
  rw [leaves_ofPairs h]
  cases hnodes : f.nodes with
  | error e => rfl
  | ok nodes => exact congrArg Except.ok (assemble_conditions hnodes)

theorem page_ofPairs (h : pairs.Perm f.pairs) :
    Page.index (Params.ofPairs pairs) = 0 ∧
      ∀ default, Page.size (Params.ofPairs pairs) default = default := by
  have hindex : (Params.ofPairs pairs).get? "index".toList = none :=
    get?_ofPairs_of_splitKey? h (by decide)
  have hsize : (Params.ofPairs pairs).get? "size".toList = none :=
    get?_ofPairs_of_splitKey? h (by decide)
  constructor
  · rw [Page.index, Params.first, hindex]
    decide
  · intro default
    rw [Page.size, Page.requestedSize?, Params.first, hsize]
    rfl

theorem order_ofPairs (h : pairs.Perm f.pairs) :
    SortField.order (Params.ofPairs pairs) = none := by
  have hlist : (Params.ofPairs pairs).get? SortField.listKey = none :=
    get?_ofPairs_of_splitKey? h (by decide)
  have hplain : (Params.ofPairs pairs).get? SortField.plainKey = none :=
    get?_ofPairs_of_splitKey? h (by decide)
  rw [SortField.order, hlist, hplain]
  rfl

end Form

def Resolver.named (name : Text) : Resolver := { standard with filterName := name }

theorem Resolver.exists_summary_named (name : Text) (filter : Filter) (document : Document) :
    ∃ line, (named name).summary filter ⟨document, none, 0, 20⟩ = .ok line := by
  rw [← not_fails_iff, fails_summary]
  show ¬ (Numeral.maxDigits < Numeral.digitCount 0 ∨ Numeral.maxDigits < Numeral.digitCount 20)
  decide

namespace Form
variable {f : Form} {pairs : List (Text × Text)}

theorem ofParams_error [Host] (h : pairs.Perm f.pairs) {e : DateText.PrecisionError}
    (hnodes : f.nodes = .error e) :
    (Resolver.named f.name).ofParams (Params.ofPairs pairs) = .error (.parse (.precision e)) := by
  rw [Resolver.ofParams, Resolver.parse, parse_ofPairs h, hnodes]
  rfl

theorem ofParams_ok [Host] (h : pairs.Perm f.pairs) {nodes : List (List Node)}
    (hnodes : f.nodes = .ok nodes) {document : Document}
    (hdocument : Backend.full.convert (.filter [Group.joined nodes]) = .ok document) :
    (Resolver.named f.name).ofParams (Params.ofPairs pairs) = .ok ⟨document, none, 0, 20⟩ := by
  obtain ⟨hindex, hsize⟩ := page_ofPairs h
  obtain ⟨line, hline⟩ :=
    Resolver.exists_summary_named f.name ⟨[Group.joined nodes]⟩ document
  have hfilter : Group.Filters.named [(f.name, ⟨[Group.joined nodes]⟩)]
      (Resolver.named f.name).filterName = ⟨[Group.joined nodes]⟩ := by
    show (Entries.get? _ f.name).getD _ = _
    rw [Entries.get?, if_pos rfl]
    rfl
  have hcompose : (Resolver.named f.name).compose (Params.ofPairs pairs)
      [(f.name, ⟨[Group.joined nodes]⟩)] = .ok (⟨document, none, 0, 20⟩, line) := by
    simp only [Resolver.compose, hfilter, Filter.node, hdocument, hindex, hsize, order_ofPairs h]
    show ((Resolver.summary _ _ ⟨document, none, 0, 20⟩).mapError ResolveError.summary >>= _) = _
    rw [hline]
    rfl
  rw [Resolver.ofParams, Resolver.parse, parse_ofPairs h, hnodes]
  show ((Resolver.compose _ _ _) >>= _) = _
  rw [hcompose]
  rfl

/-- A query string and the constructors agree. Whatever form the query string is written in, it is
answered with the document of the expression that the constructors make of the same conditions, and
with nothing else than the first failure of a value when there is one. -/
theorem ofQuery_of_isWrittenIn [Host] (f : Form) {query : Text} (h : f.IsWrittenIn query) :
    (∀ e, f.nodes = .error e →
      (Resolver.named f.name).ofQuery query = .error (.parse (.precision e))) ∧
    ∀ nodes, f.nodes = .ok nodes → ∃ node document,
      Node.ofGroups? nodes = .ok node ∧ Backend.full.convert (.filter [node]) = .ok document ∧
        (Resolver.named f.name).ofQuery query = .ok ⟨document, none, 0, 20⟩ := by
  obtain ⟨pairs, hpairs, hwrites⟩ := h
  have hquery : (Resolver.named f.name).ofQuery query =
      (Resolver.named f.name).ofParams (Params.ofPairs pairs) := by
    rw [Resolver.ofQuery, Query.parse_of_writes hwrites]
    rfl
  rw [hquery]
  constructor
  · intro e hnodes
    exact ofParams_error hpairs hnodes
  · intro nodes hnodes
    obtain ⟨hne, hgroups⟩ := nodes_eq_ok hnodes
    have hexpression : Node.areExpressions [Group.joined nodes] = true := by
      rw [Node.areExpressions_iff]
      intro node hnode
      rw [List.mem_singleton.1 hnode]
      apply Group.isExpression_combine
      intro conjunct hconjunct
      obtain ⟨group, hgroup, rfl⟩ := List.mem_map.1 hconjunct
      exact Group.isExpression_combine (hgroups group hgroup).2
    have hdocument := Backend.convert_full_filter hexpression
    exact ⟨_, _, Node.ofGroups?_eq hne fun g hg => (hgroups g hg).1, hdocument,
      ofParams_ok hpairs hnodes hdocument⟩

def twoGroups : Form where
  name := "filters".toList
  groups := [[⟨"sku".toList, .like, "WSH".toList, by decide⟩,
      ⟨"sku".toList, .like, "WP".toList, by decide⟩],
    [⟨"qty".toList, .notIn, "1,2".toList, by decide⟩]]
  isPart_name := by decide
  groups_ne_nil := by decide
  group_ne_nil := by decide
  short_groups := by decide
  short_group := by decide

def twoGroupsQuery : Text :=
  "filters[0][0][field]=sku&filters[0][0][value]=WSH&filters[0][0][condition]=like".toList ++
    "&filters[0][1][field]=sku&filters[0][1][value]=WP&filters[0][1][condition]=like".toList ++
    "&filters[1][0][field]=qty&filters[1][0][value]=1,2&filters[1][0][condition]=nin".toList

theorem ofQuery_twoGroupsQuery :
    twoGroups.IsWrittenIn twoGroupsQuery ∧ ∃ node document,
      Node.ofGroups? [[.regex "sku".toList "WSH".toList [['i']],
          .regex "sku".toList "WP".toList [['i']]],
        [.notIn "qty".toList [.float ⟨false, 1023, 0⟩, .float ⟨false, 1024, 0⟩]]] = .ok node ∧
      Backend.full.convert (.filter [node]) = .ok document ∧
      (Resolver.named twoGroups.name).ofQuery twoGroupsQuery = .ok ⟨document, none, 0, 20⟩ := by
  have hfree : ∀ p ∈ twoGroups.pairs,
      p.1.all (Query.isFree true) = true ∧ p.2.all (Query.isFree false) = true := by
    decide +kernel
  have hquery : twoGroupsQuery =
      Text.joinWith ['&'] (twoGroups.pairs.map fun p => p.1 ++ '=' :: p.2) := by
    decide +kernel
  have hwritten : twoGroups.IsWrittenIn twoGroupsQuery := by
    rw [hquery]
    exact ⟨twoGroups.pairs, .refl _, Query.writes_self hfree⟩
  have hnodes : twoGroups.nodes = .ok [[.regex "sku".toList "WSH".toList [['i']],
        .regex "sku".toList "WP".toList [['i']]],
      [.notIn "qty".toList [.float ⟨false, 1023, 0⟩, .float ⟨false, 1024, 0⟩]]] := by
    decide +kernel
  exact ⟨hwritten, (ofQuery_of_isWrittenIn twoGroups hwritten).2 _ hnodes⟩

end Form
end FindQuery
