import FindQuery.Proofs.NotANumber
import FindQuery.Proofs.Request.WellFormed
import FindQuery.Request.Same

/-! Two calls with one query string. -/

namespace FindQuery

namespace Value
variable {key : Text} {v : Value}

theorem holdsNaN_singleton : (Value.document [(key, v)]).holdsNaN = v.holdsNaN := Bool.or_false _

theorem IsFresh.singleton (h : v.IsFresh) : (Value.document [(key, v)]).IsFresh :=
  .document (List.nodup_singleton key) (List.forall_mem_singleton.2 h)

end Value

namespace Node

theorem isFresh_operatorDocument {operator : Operator} {v : Value} (h : v.IsFresh) :
    (Value.document (operatorDocument operator v)).IsFresh := by
  unfold operatorDocument
  split
  · next p =>
    split
    · exact (Value.IsFresh.text p.source).singleton
    · refine .document ?_ ?_
      · unfold Entries.Distinct
        show ["$regex".toList, "$options".toList].Nodup
        decide
      · rw [List.forall_mem_cons, List.forall_mem_singleton]
        exact ⟨.text p.source, .text p.options⟩
  · exact h.singleton

theorem holdsNaN_operatorDocument (operator : Operator) (v : Value) :
    (Value.document (operatorDocument operator v)).holdsNaN = v.holdsNaN := by
  unfold operatorDocument
  split
  · split <;> rfl
  · exact Value.holdsNaN_singleton

section Tree
variable {node : Node}

theorem mem_leaves_logical {connective : Connective} {children : List Node} {leaf : Node} :
    leaf ∈ (logical connective children).leaves ↔ ∃ child ∈ children, leaf ∈ child.leaves := by
  rw [leaves, leavesOfAll_eq, ← List.flatMap_def, List.mem_flatMap]

theorem isFresh_rendered (h : node.IsFaithful)
    (hleaves : ∀ leaf ∈ node.leaves, (Value.document leaf.rendered).IsFresh) :
    (Value.document node.rendered).IsFresh := by
  induction h with
  | leaf _ _ => exact hleaves _ List.mem_cons_self
  | @logical connective children _ ih =>
    rw [rendered, renderedEach_eq]
    apply Value.IsFresh.singleton
    apply Value.IsFresh.list
    rw [List.forall_mem_map, List.forall_mem_map]
    intro child hchild
    apply ih child hchild
    intro leaf hleaf
    exact hleaves leaf (mem_leaves_logical.2 ⟨child, hchild, hleaf⟩)

theorem holdsNaN_rendered (h : node.IsFaithful) :
    (Value.document node.rendered).holdsNaN = true ↔
      ∃ leaf ∈ node.leaves, (Value.document leaf.rendered).holdsNaN = true := by
  induction h with
  | leaf _ _ => simp only [leaves, List.mem_singleton, exists_eq_left]
  | @logical connective children _ ih =>
    have hany : (Value.document (logical connective children).rendered).holdsNaN = true ↔
        ∃ child ∈ children, (Value.document child.rendered).holdsNaN = true := by
      rw [rendered, renderedEach_eq, Value.holdsNaN_singleton, Value.holdsNaN,
        Value.anyHoldsNaN_iff, List.map_map]
      simp only [List.mem_map, Function.comp_apply, exists_exists_and_eq_and]
    rw [hany]
    constructor
    · rintro ⟨child, hchild, hnan⟩
      obtain ⟨leaf, hleaf, hnan⟩ := (ih child hchild).1 hnan
      exact ⟨leaf, mem_leaves_logical.2 ⟨child, hchild, hleaf⟩, hnan⟩
    · rintro ⟨leaf, hleaf, hnan⟩
      obtain ⟨child, hchild, hleaf⟩ := mem_leaves_logical.1 hleaf
      exact ⟨child, hchild, (ih child hchild).2 ⟨leaf, hleaf, hnan⟩⟩

end Tree

end Node

namespace Filter
variable {f : Filter}

theorem leaves_of_members_eq {node : Node} (h : f.members = [node]) : f.node.leaves = node.leaves := by
  rw [Filter.node, Node.leaves, h, Node.leavesOfAll, Node.leavesOfAll, List.append_nil]

theorem isFresh_document (h : ∀ node ∈ f.members, node.IsFaithful) (hone : f.members.length ≤ 1)
    (hleaves : ∀ leaf ∈ f.node.leaves, (Value.document leaf.rendered).IsFresh) :
    (Value.document (f.members.flatMap Node.rendered)).IsFresh := by
  rcases members_cases hone with hnil | ⟨node, hnode⟩
  · rw [hnil]
    exact .document List.nodup_nil nofun
  · rw [leaves_of_members_eq hnode] at hleaves
    rw [hnode, List.flatMap_singleton]
    exact Node.isFresh_rendered (h node (hnode ▸ List.mem_cons_self)) hleaves

theorem holdsNaN_document (h : ∀ node ∈ f.members, node.IsFaithful) (hone : f.members.length ≤ 1) :
    (Value.document (f.members.flatMap Node.rendered)).holdsNaN = true ↔
      ∃ leaf ∈ f.node.leaves, (Value.document leaf.rendered).holdsNaN = true := by
  rcases members_cases hone with hnil | ⟨node, hnode⟩
  · rw [Filter.node, Node.leaves, hnil]
    refine iff_of_false Bool.noConfusion ?_
    rintro ⟨leaf, hleaf, -⟩
    exact absurd hleaf List.not_mem_nil
  · rw [leaves_of_members_eq hnode, hnode, List.flatMap_singleton]
    exact Node.holdsNaN_rendered (h node (hnode ▸ List.mem_cons_self))

end Filter

namespace Group
variable {options : Text} {params : Params}

def Triple.ReadsNaN (params : Params) (t : Triple) : Prop :=
  ∃ operator, operator ≠ .regex ∧
    Condition.operator? (params.first (t.key .condition)) = some operator ∧
    Coerce.ReadsNaN operator (params.first (t.key .value))

theorem Triple.Builds.isFresh_rendered [Host] {t : Triple} {leaf : Node}
    (h : t.Builds options params leaf) (hfield : params.first (t.key .field) ≠ []) :
    (Value.document leaf.rendered).IsFresh := by
  cases h with
  | pattern _ =>
    rw [Node.rendered, if_neg hfield]
    exact (Node.isFresh_operatorDocument (.pattern _)).singleton
  | value _ _ hvalue =>
    rw [Node.rendered, if_neg hfield]
    exact (Node.isFresh_operatorDocument (Coerce.isFresh_of_value hvalue)).singleton

theorem Triple.Builds.holdsNaN_iff [Host] {t : Triple} {leaf : Node}
    (h : t.Builds options params leaf) (hfield : params.first (t.key .field) ≠ []) :
    (Value.document leaf.rendered).holdsNaN = true ↔ t.ReadsNaN params := by
  cases h with
  | pattern hcode =>
    rw [Node.rendered, if_neg hfield, Value.holdsNaN_singleton, Node.holdsNaN_operatorDocument]
    refine iff_of_false nofun ?_
    rintro ⟨operator, hne, hoperator, -⟩
    rw [hcode] at hoperator
    exact hne (Option.some.inj hoperator).symm
  | @value operator v hcode hne hvalue =>
    rw [Node.rendered, if_neg hfield, Value.holdsNaN_singleton, Node.holdsNaN_operatorDocument,
      Coerce.holdsNaN_value hvalue hne]
    constructor
    · exact fun hreads => ⟨operator, hne, hcode, hreads⟩
    · rintro ⟨operator', -, hoperator, hreads⟩
      rw [hcode] at hoperator
      rwa [Option.some.inj hoperator]

theorem mem_leaves_assemble [Host] {conditions : List (Triple × Node)}
    (h : ∀ p ∈ conditions, p.1.Builds options params p.2) {leaf : Node} :
    leaf ∈ (assemble conditions).node.leaves ↔ ∃ p ∈ conditions, p.2 = leaf := by
  have hconjunct (index : Text) : (combine .or ((sharing conditions index).map Prod.snd)).leaves =
      (sharing conditions index).map Prod.snd :=
    leaves_combine_or fun _ => leaves_of_mem_sharing h
  rw [Filter.leaves_node, conjuncts_assemble h, List.map_map, ← List.flatMap_def]
  simp only [List.mem_flatMap, Function.comp_apply, hconjunct, List.mem_map, mem_sharing]
  constructor
  · rintro ⟨index, -, p, ⟨hp, -⟩, rfl⟩
    exact ⟨p, hp, rfl⟩
  · rintro ⟨p, hp, rfl⟩
    exact ⟨p.1.andIndex, mem_distinct.2 (List.mem_map.2 ⟨p, hp, rfl⟩), p, ⟨hp, rfl⟩, rfl⟩

/-- A complete condition of the name compares with what is no number. -/
def ReadsNaN (params : Params) (name : Text) : Prop :=
  ∃ t : Triple, t.IsKept params ∧ t.name = name ∧ t.ReadsNaN params

theorem isFresh_of_convert [Host] {filters : Filters} {name : Text} {d : Document}
    (h : parse options params = .ok filters)
    (hconvert : Backend.full.convert (filters.named name).node = .ok d) :
    (Value.document d).IsFresh ∧ ((Value.document d).holdsNaN = true ↔ ReadsNaN params name) := by
  obtain rfl := eq_rendered_of_convert h hconvert
  obtain ⟨hfaithful, hone⟩ := faithful_named h name
  obtain ⟨conditions, heq, hbuilds, hmem⟩ := exists_named_eq_assemble h name
  have hkept {p : Triple × Node} (hp : p ∈ conditions) : p.1.IsKept params ∧ p.1.name = name :=
    (hmem p.1).1 (List.mem_map_of_mem hp)
  have hleaves {leaf : Node} : leaf ∈ (filters.named name).node.leaves ↔
      ∃ p ∈ conditions, p.2 = leaf := by
    rw [heq]
    exact mem_leaves_assemble hbuilds
  constructor
  · apply Filter.isFresh_document hfaithful hone
    intro leaf hleaf
    obtain ⟨p, hp, rfl⟩ := hleaves.1 hleaf
    exact (hbuilds p hp).isFresh_rendered (hkept hp).1.field
  · rw [Filter.holdsNaN_document hfaithful hone]
    constructor
    · rintro ⟨leaf, hleaf, hnan⟩
      obtain ⟨p, hp, rfl⟩ := hleaves.1 hleaf
      exact ⟨p.1, (hkept hp).1, (hkept hp).2,
        ((hbuilds p hp).holdsNaN_iff (hkept hp).1.field).1 hnan⟩
    · rintro ⟨t, ht, hname, hreads⟩
      obtain ⟨p, hp, rfl⟩ := List.mem_map.1 ((hmem t).2 ⟨ht, hname⟩)
      exact ⟨p.2, hleaves.2 ⟨p, hp, rfl⟩, ((hbuilds p hp).holdsNaN_iff ht.field).2 hreads⟩

end Group

namespace Criteria

theorem same_mark {c : Criteria} (h : (Value.document c.filter).IsFresh) {m n : Nat}
    (hmn : m % payloadCount ≠ n % payloadCount) :
    (c.mark m).same (c.mark n) = .ok (!(Value.document c.filter).holdsNaN) := by
  have hdocument := Value.same_mark hmn h
  rw [same]
  show Comparison.and (((Value.document c.filter).mark m).same ((Value.document c.filter).mark n))
    (.ok (decide (c.sort = c.sort ∧ c.index = c.index ∧ c.size = c.size))) = _
  rw [hdocument, Comparison.and_ok, decide_eq_true ⟨rfl, rfl, rfl⟩, Bool.and_true]

end Criteria

namespace Resolver

/-- Two calls with one query string give the same criteria, unless a condition of the filter name compares with
what is no number. Then they give criteria that differ. -/
theorem same_answer_iff [Host] (r : Resolver) {query : Text} {m n : Nat} {a b : Criteria}
    (hmn : m % payloadCount ≠ n % payloadCount) (ha : r.answer m query = .ok a)
    (hb : r.answer n query = .ok b) :
    ∃ params, Query.parse query = .ok params ∧
      (a.same b = .ok true ↔ ¬ Group.ReadsNaN params r.filterName) ∧
      (a.same b = .ok false ↔ Group.ReadsNaN params r.filterName) := by
  obtain ⟨c, hc, rfl⟩ := map_eq_ok.1 ha
  obtain ⟨c', hc', rfl⟩ := map_eq_ok.1 hb
  obtain rfl := Except.ok.inj (hc.symm.trans hc')
  obtain ⟨params, hparams, hanswer⟩ := bind_eq_ok.1 hc
  obtain ⟨filters, hparse, hdocument, -, -, -⟩ := ofParams_eq_ok hanswer
  obtain ⟨hfresh, hnan⟩ := Group.isFresh_of_convert hparse hdocument
  refine ⟨params, mapError_eq_ok.1 hparams, ?_⟩
  rw [Criteria.same_mark hfresh hmn, ← hnan]
  cases (Value.document c.filter).holdsNaN <;> decide

def boundedQuery : Text :=
  "filters[0][0][field]=a&filters[0][0][value]=-inf".toList ++
    "&filters[1][0][field]=b&filters[1][0][value]=1,2&filters[1][0][condition]=in&size=5".toList

def boundedCriteria : Criteria where
  filter := [("$and".toList, .list
    [.document [(['a'], .document [("$eq".toList, .float (Binary64.infinity true))])],
      .document [(['b'], .document [("$in".toList, .list
        [.float (.ofDecimal false 1 0), .float (.ofDecimal false 2 0)])])]])]
  sort := none
  index := 0
  size := 5

theorem same_answer_boundedQuery :
    standard.answer 1 boundedQuery = .ok boundedCriteria ∧
      standard.answer 2 boundedQuery = .ok boundedCriteria ∧
      boundedCriteria.same boundedCriteria = .ok true ∧
      ∃ params, Query.parse boundedQuery = .ok params ∧
        ¬ Group.ReadsNaN params standard.filterName := by
  have hfirst : standard.answer 1 boundedQuery = .ok boundedCriteria := by decide +kernel
  have hsecond : standard.answer 2 boundedQuery = .ok boundedCriteria := by decide +kernel
  have hsame : boundedCriteria.same boundedCriteria = .ok true := by decide +kernel
  obtain ⟨params, hparams, htrue, -⟩ := same_answer_iff standard (by decide) hfirst hsecond
  exact ⟨hfirst, hsecond, hsame, params, hparams, htrue.1 hsame⟩

def nanQuery : Text := "filters[0][0][field]=x&filters[0][0][value]=nan".toList

theorem not_same_answer_nanQuery : ∃ a b, standard.answer 1 nanQuery = .ok a ∧
    standard.answer 2 nanQuery = .ok b ∧ a.same b = .ok false := by
  have hanswer (call : Nat) : standard.answer call nanQuery = .ok (Criteria.mark call
      ⟨[(['x'], .document [("$eq".toList, .float Binary64.nan)])], none, 0, 20⟩) := by
    have hquery : standard.ofQuery nanQuery =
        .ok ⟨[(['x'], .document [("$eq".toList, .float Binary64.nan)])], none, 0, 20⟩ := by
      decide +kernel
    rw [answer, hquery]
    rfl
  refine ⟨_, _, hanswer 1, hanswer 2, ?_⟩
  decide +kernel

end Resolver

end FindQuery
