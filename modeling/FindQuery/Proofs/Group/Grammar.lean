import FindQuery.Proofs.Coerce
import FindQuery.Proofs.Group.Recovery
import FindQuery.Proofs.Node.Support

/-! The grammar of the documents of requests. -/

namespace FindQuery

namespace Document

def comparisonTokens : List Text :=
  ["$eq", "$ne", "$gt", "$gte", "$lt", "$lte", "$in", "$nin"].map String.toList

def listingTokens : List Text := ["$in", "$nin"].map String.toList

inductive IsComparison : Document → Prop
  | single {token : Text} {v : Value} : token ∈ comparisonTokens → v.IsScalar →
      IsComparison [(token, v)]
  | listing {token : Text} {items : List Value} : token ∈ listingTokens → items ≠ [] →
      Value.IsUniform items → IsComparison [(token, .list items)]
  | pattern (source : Text) :
      IsComparison [("$regex".toList, .text source), ("$options".toList, .text ['i'])]

inductive IsLeaf : Document → Prop
  | field {field : Text} {comparison : Document} : field ≠ [] → IsComparison comparison →
      IsLeaf [(field, .document comparison)]

inductive IsJoined (token : Text) (IsPart : Document → Prop) : Document → Prop
  | alone {part : Document} : IsPart part → IsJoined token IsPart part
  | together {parts : List Document} : 2 ≤ parts.length → (∀ part ∈ parts, IsPart part) →
      IsJoined token IsPart [(token, .list (parts.map .document))]

def IsConjunct : Document → Prop := IsJoined "$or".toList IsLeaf

inductive IsFilter : Document → Prop
  | unrestricted : IsFilter []
  | conjuncts {d : Document} : IsJoined "$and".toList IsConjunct d → IsFilter d

end Document

open Document

theorem Condition.token_mem_of_operator? {code : Text} {operator : Operator}
    (h : operator? code = some operator) (hregex : operator ≠ .regex) :
    operator.token ∈ comparisonTokens := by
  have hcatalog : ∀ e ∈ catalog, e.2 ≠ .regex → e.2.token ∈ comparisonTokens := by decide
  obtain ⟨e, he, rfl⟩ := Option.map_eq_some_iff.1 h
  exact hcatalog e (List.mem_of_find?_eq_some he) hregex

theorem Coerce.IsListing.token_mem {operator : Operator} (h : IsListing operator) :
    operator.token ∈ listingTokens := by
  rcases h with rfl | rfl <;> decide

namespace Group

variable {params : Params}

theorem Triple.Builds.isLeaf_rendered [Host] {t : Triple} {node : Node}
    (h : t.Builds defaultOptions params node) (hfield : params.first (t.key .field) ≠ []) :
    IsLeaf node.rendered := by
  cases h with
  | pattern _ =>
    rw [Node.rendered, if_neg hfield]
    exact .field hfield (.pattern _)
  | @value operator v hcode hne hvalue =>
    rw [Node.rendered, if_neg hfield, Node.operatorDocument_of_ne hne]
    apply IsLeaf.field hfield
    rcases Coerce.isScalar_or_isUniform_of_value hvalue with
      hscalar | ⟨hlisting, items, rfl, hitems, huniform⟩
    · exact .single (Condition.token_mem_of_operator? hcode hne) hscalar
    · exact .listing hlisting.token_mem hitems huniform

theorem isJoined_combine {connective : Connective} {IsPart : Document → Prop} {nodes : List Node}
    (hne : nodes ≠ []) (h : ∀ node ∈ nodes, IsPart node.rendered) :
    IsJoined connective.token IsPart (combine connective nodes).rendered := by
  unfold combine
  split
  · next node => exact .alone (h node List.mem_cons_self)
  · next hmany =>
    rw [Node.rendered, Node.renderedEach_eq]
    apply IsJoined.together
    · match nodes with
      | [] => exact absurd rfl hne
      | [node] => exact absurd rfl (hmany node)
      | _ :: _ :: rest =>
        rw [List.length_map, List.length_cons, List.length_cons]
        exact Nat.le_add_left 2 rest.length
    · exact List.forall_mem_map.2 h

theorem isJoined_of_mem_assemble {conditions : List (Triple × Node)}
    (h : ∀ p ∈ conditions, IsLeaf p.2.rendered) :
    ∀ node ∈ (assemble conditions).members, IsJoined "$and".toList IsConjunct node.rendered := by
  intro node hnode
  simp only [assemble] at hnode
  split at hnode
  · exact absurd hnode List.not_mem_nil
  · next hne =>
    rw [List.mem_singleton.1 hnode]
    show IsJoined Connective.and.token IsConjunct (combine .and _).rendered
    apply isJoined_combine hne
    intro conjunct hconjunct
    obtain ⟨g, hg, rfl⟩ := List.mem_map.1 hconjunct
    obtain ⟨index, hindex, rfl⟩ := List.mem_map.1 hg
    show IsJoined Connective.or.token IsLeaf (combine .or _).rendered
    apply isJoined_combine
    · exact fun hnil => sharing_ne_nil hindex (List.map_eq_nil_iff.1 hnil)
    · intro leaf hleaf
      obtain ⟨p, hp, rfl⟩ := List.mem_map.1 hleaf
      exact h p (List.mem_filter.1 hp).1

theorem isFilter_of_convert [Host] {filters : Filters} {name : Text} {d : Document}
    (h : parse defaultOptions params = .ok filters)
    (hconvert : Backend.full.convert (filters.named name).node = .ok d) : IsFilter d := by
  obtain rfl := eq_rendered_of_convert h hconvert
  have hone := (faithful_named h name).2
  obtain ⟨conditions, heq, hbuilds, hmem⟩ := exists_named_eq_assemble h name
  have hjoined := isJoined_of_mem_assemble fun p hp =>
    (hbuilds p hp).isLeaf_rendered ((hmem p.1).1 (List.mem_map_of_mem hp)).1.field
  rw [heq] at hone ⊢
  rcases Filter.members_cases hone with hnil | ⟨node, hnode⟩
  · rw [hnil]
    exact .unrestricted
  · rw [hnode, List.flatMap_singleton]
    exact .conjuncts (hjoined node (hnode ▸ List.mem_cons_self))

end Group
end FindQuery
