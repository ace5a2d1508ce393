import FindQuery.Proofs.Group.Arrange
import FindQuery.Proofs.Group.Assemble
import FindQuery.Proofs.Node.Recovery

/-! The filters of a request can be told from their documents, whatever its fields are called. -/

namespace FindQuery.Group

theorem Triple.Builds.isFaithful [Host] {options : Text} {params : Params} {t : Triple} {node : Node}
    (h : t.Builds options params node) (hfield : params.first (t.key .field) ≠ []) :
    node.IsFaithful := by
  cases h with
  | pattern _ => exact .leaf hfield fun _ => ⟨_, rfl⟩
  | value _ hne _ => exact .leaf hfield fun heq => absurd heq hne

theorem faithful_named [Host] {options : Text} {params : Params} {filters : Filters}
    (h : parse options params = .ok filters) (name : Text) :
    (∀ node ∈ (filters.named name).members, node.IsFaithful) ∧
      (filters.named name).members.length ≤ 1 := by
  obtain ⟨conditions, heq, hbuilds, hmem⟩ := exists_named_eq_assemble h name
  rw [heq]
  refine ⟨?_, length_members_assemble _⟩
  apply forall_mem_assemble
  · intro connective children hchildren
    exact .logical hchildren
  · intro p hp
    have hkept := ((hmem p.1).1 (List.mem_map_of_mem hp)).1
    exact (hbuilds p hp).isFaithful hkept.field

theorem eq_rendered_of_convert [Host] {options : Text} {params : Params} {filters : Filters} {name : Text}
    {d : Document} (h : parse options params = .ok filters)
    (hconvert : Backend.full.convert (filters.named name).node = .ok d) :
    d = (filters.named name).members.flatMap Node.rendered := by
  obtain ⟨hfaithful, hone⟩ := faithful_named h name
  have hrendered := Filter.convert_of_faithful hfaithful hone
  exact Except.ok.inj (hconvert.symm.trans hrendered)

/-- Two requests that can be read have the same filters under two names exactly when these have the
same documents, and each filter is read back from its document. -/
theorem named_eq_iff_document_eq [Host] {options options' : Text} {params params' : Params}
    {filters filters' : Filters} (h : parse options params = .ok filters)
    (h' : parse options' params' = .ok filters') (name name' : Text) :
    ∃ d d', Backend.full.convert (filters.named name).node = .ok d ∧
      Backend.full.convert (filters'.named name').node = .ok d' ∧
      Filter.ofDocument? d = some (filters.named name) ∧
      Filter.ofDocument? d' = some (filters'.named name') ∧
      (d = d' ↔ filters.named name = filters'.named name') := by
  obtain ⟨hfaithful, hone⟩ := faithful_named h name
  obtain ⟨hfaithful', hone'⟩ := faithful_named h' name'
  obtain ⟨d, hd, hread⟩ := Filter.ofDocument?_of_faithful hfaithful hone
  obtain ⟨d', hd', hread'⟩ := Filter.ofDocument?_of_faithful hfaithful' hone'
  refine ⟨d, d', hd, hd', hread, hread', ?_⟩
  constructor
  · intro heq
    rw [heq, hread'] at hread
    exact (Option.some.inj hread).symm
  · intro heq
    rw [heq, hd'] at hd
    exact (Except.ok.inj hd).symm

def tokenField : Params :=
  [(Triple.key ⟨['f'], ['0'], ['0']⟩ .field, ["$or".toList]),
    (Triple.key ⟨['f'], ['0'], ['0']⟩ .value, ["a,b".toList]),
    (Triple.key ⟨['f'], ['0'], ['0']⟩ .condition, ["in".toList])]

def tokenAlternatives : Params :=
  [(Triple.key ⟨['g'], ['1'], ['1']⟩ .field, ["$and".toList]),
    (Triple.key ⟨['g'], ['1'], ['0']⟩ .field, ["$in".toList]),
    (Triple.key ⟨['g'], ['1'], ['0']⟩ .condition, ["regex".toList])]

theorem named_eq_iff_of_tokenField :
    parse defaultOptions tokenField = .ok [(['f'],
        ⟨[.leaf .isIn "$or".toList (.list [.text ['a'], .text ['b']])]⟩)] ∧
      parse [] tokenAlternatives = .ok [(['g'], ⟨[.logical .or
        [.leaf .regex "$in".toList (.pattern ⟨[], []⟩),
          .leaf .eq "$and".toList (.text [])]]⟩)] ∧
      ∃ d d', Backend.full.convert (.filter
          [.leaf .isIn "$or".toList (.list [.text ['a'], .text ['b']])]) = .ok d ∧
        Backend.full.convert (.filter [.logical .or
          [.leaf .regex "$in".toList (.pattern ⟨[], []⟩),
            .leaf .eq "$and".toList (.text [])]]) = .ok d' ∧
        d ≠ d' := by
  have h : parse defaultOptions tokenField = .ok [(['f'],
      ⟨[.leaf .isIn "$or".toList (.list [.text ['a'], .text ['b']])]⟩)] := by
    decide +kernel
  have h' : parse [] tokenAlternatives = .ok [(['g'], ⟨[.logical .or
      [.leaf .regex "$in".toList (.pattern ⟨[], []⟩),
        .leaf .eq "$and".toList (.text [])]]⟩)] := by
    decide +kernel
  obtain ⟨d, d', hd, hd', -, -, hiff⟩ := named_eq_iff_document_eq h h' ['f'] ['g']
  refine ⟨h, h', d, d', hd, hd', ?_⟩
  rw [Ne, hiff]
  decide

end FindQuery.Group
