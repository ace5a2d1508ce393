import FindQuery.Proofs.Group.Arrange
import FindQuery.Proofs.Numeral.Decimal

/-! When parameters cannot be turned into filters. -/

namespace FindQuery.Group

structure IsFalseNumeral (index : Text) : Prop where
  nonempty : index ≠ []
  digits : ∀ c ∈ index, Text.isDigit c = true
  unread : (∃ c ∈ index, Text.decimalValue? c = none) ∨ Numeral.maxDigits < index.length

theorem IndexKey.fails_ofText {index : Text} :
    Fails (IndexKey.ofText index) ↔ IsFalseNumeral index := by
  unfold IndexKey.ofText
  by_cases h : index ≠ [] ∧ index.all Text.isDigit = true
  · rw [if_pos h, fails_map, Fails, Numeral.read_eq_error_iff h.1]
    constructor
    · intro hunread
      exact ⟨h.1, List.all_eq_true.1 h.2, hunread⟩
    · intro hfalse
      exact hfalse.unread
  · rw [if_neg h]
    constructor
    · intro hfails
      exact absurd hfails (not_fails_ok _)
    · intro hfalse
      exact absurd ⟨hfalse.nonempty, List.all_eq_true.2 hfalse.digits⟩ h

theorem fails_keyed {indices : List Text} :
    Fails (keyed indices) ↔ ∃ index ∈ indices, IsFalseNumeral index := by
  simp only [keyed_eq_mapM, fails_mapM, fails_map, IndexKey.fails_ofText]

theorem fails_sortIndices {indices : List Text} :
    Fails (sortIndices indices) ↔ ∃ index ∈ indices, IsFalseNumeral index := by
  rw [sortIndices, fails_map, fails_keyed]

/-- One of the two indices is a false numeral. -/
def Triple.IsUnordered (t : Triple) : Prop :=
  IsFalseNumeral t.andIndex ∨ IsFalseNumeral t.orIndex

theorem fails_rank {ns : List Text} {t : Triple} : Fails (rank ns t) ↔ t.IsUnordered := by
  unfold rank
  rw [fails_bind_of_forall (p := IsFalseNumeral t.orIndex), IndexKey.fails_ofText]
  · rfl
  · intro a
    rw [fails_bind_pure, IndexKey.fails_ofText]

theorem fails_ranked {ns : List Text} {ts : List Triple} :
    Fails (ranked ns ts) ↔ ∃ t ∈ ts, t.IsUnordered := by
  simp only [ranked_eq_mapM, fails_mapM, fails_map, fails_rank]

theorem fails_sortedTriples {params : Params} :
    Fails (sortedTriples params) ↔ ∃ t ∈ triples params, t.IsUnordered := by
  rw [sortedTriples, fails_bind_pure, fails_ranked]

theorem leaf_of_ne [Host] {options : Text} {params : Params} {t : Triple} {o : Operator}
    (h : o ≠ .regex) : leaf options params t o =
      (Coerce.value o (t.rawValue params)).map (.leaf o (t.rawField params)) := by
  cases o with
  | regex => exact absurd rfl h
  | _ => rfl

theorem fails_leaf [Host] {options : Text} {params : Params} {t : Triple} {o : Operator} :
    Fails (leaf options params t o) ↔ Fails (Coerce.value o (t.rawValue params)) := by
  by_cases h : o = .regex
  · subst h
    exact iff_of_false (not_fails_ok _) (not_fails_ok _)
  · rw [leaf_of_ne h, fails_map]

theorem fails_leaves [Host] {options : Text} {params : Params} {cs : List (Triple × Operator)} :
    Fails (leaves options params cs) ↔
      ∃ c ∈ cs, Fails (Coerce.value c.2 (c.1.rawValue params)) := by
  simp only [leaves_eq_mapM, fails_mapM, fails_map, fails_leaf]

/-- A condition that is complete but whose value cannot be read to the end. -/
structure Triple.IsUnvalued [Host] (params : Params) (t : Triple) : Prop where
  kept : t.IsKept params
  fails : ∃ o, Condition.operator? (params.first (t.key .condition)) = some o ∧
    Fails (Coerce.value o (params.first (t.key .value)))

theorem mem_complete_isUnvalued [Host] {params : Params} {ts : List Triple}
    (hperm : ts.Perm (triples params)) :
    (∃ c ∈ complete params ts, Fails (Coerce.value c.2 (c.1.rawValue params))) ↔
      ∃ t : Triple, t.IsUnvalued params := by
  constructor
  · rintro ⟨⟨t, o⟩, hc, hfails⟩
    obtain ⟨ht, ho⟩ := mem_complete.1 hc
    obtain ⟨hfield, hcode⟩ := Triple.operator_eq_ok.1 ho
    have hseen := mem_triples.1 (hperm.mem_iff.1 ht)
    exact ⟨t, ⟨hseen, hfield, o, hcode⟩, o, hcode, hfails⟩
  · rintro ⟨t, ⟨hseen, hfield, -⟩, o, hcode, hfails⟩
    have ht : t ∈ ts := hperm.mem_iff.2 (mem_triples.2 hseen)
    exact ⟨(t, o), mem_complete.2 ⟨ht, Triple.operator_eq_ok.2 ⟨hfield, hcode⟩⟩, hfails⟩

theorem fails_parse [Host] {options : Text} {params : Params} :
    Fails (parse options params) ↔
      (∃ t : Triple, (∃ key ∈ params.keys, t.HasKey key) ∧ t.IsUnordered) ∨
        ∃ t : Triple, t.IsUnvalued params := by
  have horder : Fails ((sortedTriples params).mapError ParseError.numeral) ↔
      ∃ t : Triple, (∃ key ∈ params.keys, t.HasKey key) ∧ t.IsUnordered := by
    simp only [fails_mapError, fails_sortedTriples, mem_triples]
  unfold parse
  rw [fails_bind, horder]
  by_cases hunordered : ∃ t : Triple, (∃ key ∈ params.keys, t.HasKey key) ∧ t.IsUnordered
  · exact iff_of_true (.inl hunordered) (.inl hunordered)
  · obtain ⟨ts, hts⟩ := not_fails_iff.1 (mt horder.1 hunordered)
    have hperm := perm_sortedTriples (mapError_eq_ok.1 hts)
    simp only [hunordered, false_or, hts, Except.ok.injEq, exists_eq_left']
    rw [fails_bind_pure, fails_mapError, fails_leaves, mem_complete_isUnvalued hperm]

end FindQuery.Group
