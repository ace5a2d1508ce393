import FindQuery.Proofs.Group.Failure
import FindQuery.Proofs.Group.Recovery
import FindQuery.Request.Criteria

/-! When a request gets no answer. -/

namespace FindQuery

namespace Group

theorem isExpression_combine {connective : Connective} {nodes : List Node}
    (h : ∀ node ∈ nodes, node.isExpression = true) :
    (combine connective nodes).isExpression = true :=
  forall_combine (fun _ _ hchildren => Node.areExpressions_iff.2 hchildren) h

theorem areExpressions_named [Host] {options : Text} {params : Params} {filters : Filters}
    (h : parse options params = .ok filters) (name : Text) :
    Node.areExpressions (filters.named name).members = true := by
  obtain ⟨hfaithful, -⟩ := faithful_named h name
  apply Node.areExpressions_iff.2
  intro node hnode
  exact (hfaithful node hnode).isExpression

end Group

theorem Numeral.fails_write {n : Int} : Fails (write n) ↔ maxDigits < digitCount n.natAbs := by
  have hwritable : isWritable n = true ↔ digitCount n.natAbs ≤ maxDigits := by
    rw [isWritable, decide_eq_true_eq]
  unfold write
  by_cases h : digitCount n.natAbs ≤ maxDigits
  · rw [if_pos (hwritable.2 h)]
    exact iff_of_false (not_fails_ok _) (Nat.not_lt.2 h)
  · rw [if_neg (mt hwritable.1 h)]
    exact iff_of_true ⟨_, rfl⟩ (Nat.lt_of_not_le h)

namespace Resolver

def pageSize (r : Resolver) (params : Params) : Int := Page.size params r.defaultSize

/-- One of the two page numbers is too long to be written. -/
def HasLongPage (r : Resolver) (params : Params) : Prop :=
  Numeral.maxDigits < Numeral.digitCount (Page.index params).natAbs ∨
    Numeral.maxDigits < Numeral.digitCount (r.pageSize params).natAbs

theorem fails_summary {r : Resolver} {filter : Filter} {c : Criteria} :
    Fails (r.summary filter c) ↔
      Numeral.maxDigits < Numeral.digitCount c.index.natAbs ∨
        Numeral.maxDigits < Numeral.digitCount c.size.natAbs := by
  unfold summary
  rw [fails_bind_of_forall (p := Numeral.maxDigits < Numeral.digitCount c.size.natAbs),
    Numeral.fails_write]
  intro index
  rw [fails_bind_pure, Numeral.fails_write]

theorem fails_compose [Host] {r : Resolver} {params : Params} {filters : Group.Filters}
    (h : Group.parse Group.defaultOptions params = .ok filters) :
    Fails (r.compose params filters) ↔ r.HasLongPage params := by
  have hexpressions := Group.areExpressions_named h r.filterName
  have hconvert : Backend.full.convert (filters.named r.filterName).node = .ok _ :=
    Backend.convert_full_filter hexpressions
  simp only [compose, hconvert]
  show Fails (((r.summary _ _).mapError ResolveError.summary) >>= _) ↔ _
  rw [fails_bind_pure, fails_mapError, fails_summary]
  rfl

theorem fails_ofParams [Host] {r : Resolver} {params : Params} :
    Fails (r.ofParams params) ↔
      ((∃ t : Group.Triple, (∃ key ∈ params.keys, t.HasKey key) ∧ t.IsUnordered) ∨
        ∃ t : Group.Triple, t.IsUnvalued params) ∨ r.HasLongPage params := by
  have hparse : Fails (parse params) ↔
      (∃ t : Group.Triple, (∃ key ∈ params.keys, t.HasKey key) ∧ t.IsUnordered) ∨
        ∃ t : Group.Triple, t.IsUnvalued params := by
    unfold parse
    rw [fails_mapError, Group.fails_parse]
  unfold ofParams
  rw [fails_bind, ← hparse]
  by_cases hfails : Fails (parse params)
  · exact iff_of_true (.inl hfails) (.inl hfails)
  · obtain ⟨filters, hfilters⟩ := not_fails_iff.1 hfails
    rw [or_iff_right hfails, or_iff_right hfails]
    simp only [hfilters, Except.ok.injEq, exists_eq_left']
    rw [fails_bind_pure, fails_compose (mapError_eq_ok.1 hfilters)]

theorem ofParams_ne_query [Host] {r : Resolver} {params : Params} {cause : QueryError} :
    r.ofParams params ≠ .error (.query cause) := by
  intro h
  rcases bind_eq_error.1 h with h | ⟨filters, -, h⟩
  · obtain ⟨e, -, he⟩ := mapError_eq_error.1 h
    exact nomatch he
  · rcases bind_eq_error.1 h with h | ⟨composed, -, h⟩
    · rcases bind_eq_error.1 h with h | ⟨document, -, h⟩
      · obtain ⟨e, -, he⟩ := mapError_eq_error.1 h
        exact nomatch he
      · rcases bind_eq_error.1 h with h | ⟨line, -, h⟩
        · obtain ⟨e, -, he⟩ := mapError_eq_error.1 h
          exact nomatch he
        · exact nomatch h
    · exact nomatch h

/-- There are criteria for the query string, or it is refused as badly encoded. -/
def Answers [Host] (r : Resolver) (query : Text) : Prop :=
  (∃ c, r.ofQuery query = .ok c) ∨ ∃ cause, r.ofQuery query = .error (.query cause)

/-- Exactly the requests without false numerals, without values that cannot be read to the end, and
with page numbers that can be written are answered. -/
theorem answers_iff [Host] (r : Resolver) (query : Text) :
    r.Answers query ↔ ∀ params, Query.parse query = .ok params →
      (∀ t : Group.Triple, (∃ key ∈ params.keys, t.HasKey key) → ¬ t.IsUnordered) ∧
        (∀ t : Group.Triple, ¬ t.IsUnvalued params) ∧ ¬ r.HasLongPage params := by
  cases hparse : Query.parse query with
  | error cause =>
    have hrefused : r.ofQuery query = .error (.query cause) := by
      rw [ofQuery, hparse]
      rfl
    exact iff_of_true (.inr ⟨cause, hrefused⟩) fun params h => nomatch h
  | ok params =>
    have hquery : r.ofQuery query = r.ofParams params := by
      rw [ofQuery, hparse]
      rfl
    have hanswers : r.Answers query ↔ ¬ Fails (r.ofParams params) := by
      rw [Answers, hquery, not_fails_iff]
      exact or_iff_left fun ⟨cause, h⟩ => ofParams_ne_query h
    rw [hanswers, fails_ofParams]
    simp only [Except.ok.injEq, forall_eq', not_or, not_exists, not_and, and_assoc]

theorem not_answers_superscript_index :
    ¬ standard.Answers "filters[%C2%B2][0][field]=a".toList := by
  have h : standard.ofQuery "filters[%C2%B2][0][field]=a".toList =
      .error (.parse (.numeral (.malformed ['²']))) := by
    decide +kernel
  rw [Answers, h]
  rintro (⟨c, hc⟩ | ⟨cause, hc⟩)
  · exact nomatch hc
  · exact nomatch hc

end Resolver
end FindQuery
