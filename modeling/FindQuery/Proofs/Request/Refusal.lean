import FindQuery.Proofs.Request.Failure

/-! Why parameters get no criteria, provided that the reading of dates comes to an end. -/

namespace FindQuery

namespace Coerce

def dateTexts (operator : Operator) (raw : Text) : List Text :=
  if operator = .isIn ∨ operator = .notIn then Text.splitOn ',' raw else [raw]

theorem fails_allMoments [Host] {pieces : List Text} (h : Fails (allMoments pieces)) :
    ∃ piece ∈ pieces, Fails (DateText.complete piece) := by
  induction pieces with
  | nil => exact absurd h (not_fails_ok _)
  | cons piece rest ih =>
    rcases fails_bind.1 h with hpiece | ⟨m?, -, hrest⟩
    · exact ⟨piece, List.mem_cons_self, hpiece⟩
    · cases m? with
      | none => exact absurd hrest (not_fails_ok _)
      | some m =>
        obtain ⟨s, hs, hfails⟩ := ih (fails_bind_pure.1 hrest)
        exact ⟨s, List.mem_cons_of_mem piece hs, hfails⟩

theorem fails_uniform [Host] {pieces : List Text} (h : Fails (uniform pieces)) :
    ∃ piece ∈ pieces, Fails (DateText.complete piece) := by
  unfold uniform at h
  split at h
  · exact absurd h (not_fails_ok _)
  · exact fails_allMoments (fails_map.1 h)

theorem fails_scalar [Host] {raw : Text} (h : Fails (scalar raw)) : Fails (DateText.complete raw) := by
  unfold scalar at h
  split at h
  · exact absurd h (not_fails_ok _)
  · exact fails_map.1 h

theorem exists_fails_of_fails_value [Host] {operator : Operator} {raw : Text}
    (h : Fails (value operator raw)) :
    ∃ s ∈ dateTexts operator raw, Fails (DateText.complete s) := by
  unfold value at h
  split at h
  · exact absurd h (not_fails_ok _)
  · split at h
    · exact absurd h (not_fails_ok _)
    · unfold dateTexts
      split at h
      · next hlist =>
        rw [if_pos hlist]
        exact fails_uniform (fails_map.1 h)
      · next hlist =>
        rw [if_neg hlist]
        exact ⟨raw, List.mem_singleton_self raw, fails_scalar h⟩

end Coerce

namespace Group

/-- The values of complete conditions hold no text on which the reading of dates breaks off. -/
def ReadsDates [Host] (params : Params) : Prop :=
  ∀ t : Triple, t.IsKept params → ∀ operator,
    Condition.operator? (params.first (t.key .condition)) = some operator →
      ∀ s ∈ Coerce.dateTexts operator (params.first (t.key .value)),
        ∃ m?, DateText.complete s = .ok m?

/-- A key of any name has an index that is a false numeral. -/
def HasFalseNumeral (params : Params) : Prop :=
  ∃ t : Triple, (∃ key ∈ params.keys, t.HasKey key) ∧ t.IsUnordered

variable {options : Text} {params : Params}

theorem ReadsDates.not_isUnvalued [Host] (h : ReadsDates params) (t : Triple) : ¬ t.IsUnvalued params := by
  rintro ⟨hkept, operator, hcode, hfails⟩
  obtain ⟨s, hs, hdate⟩ := Coerce.exists_fails_of_fails_value hfails
  exact not_fails_iff.2 (h t hkept operator hcode s hs) hdate

theorem parse_eq_error [Host] {e : ParseError} (h : parse options params = .error e) :
    ((∃ cause, e = .numeral cause) ∧ HasFalseNumeral params) ∨
      ((∃ cause, e = .precision cause) ∧ ∃ t : Triple, t.IsUnvalued params) := by
  rcases bind_eq_error.1 h with hsort | ⟨ts, hts, hrest⟩
  · obtain ⟨cause, hcause, rfl⟩ := mapError_eq_error.1 hsort
    obtain ⟨t, ht, hunordered⟩ := fails_sortedTriples.1 ⟨cause, hcause⟩
    exact .inl ⟨⟨cause, rfl⟩, t, mem_triples.1 ht, hunordered⟩
  · rcases bind_eq_error.1 hrest with hleaves | ⟨nodes, -, hpure⟩
    · obtain ⟨cause, hcause, rfl⟩ := mapError_eq_error.1 hleaves
      have hperm := perm_sortedTriples (mapError_eq_ok.1 hts)
      have hunvalued := (mem_complete_isUnvalued hperm).1 (fails_leaves.1 ⟨cause, hcause⟩)
      exact .inr ⟨⟨cause, rfl⟩, hunvalued⟩
    · exact nomatch hpure

end Group

namespace Resolver

variable {r : Resolver} {params : Params}

theorem summary_eq_error {filter : Filter} {c : Criteria} {cause : Numeral.DecimalError}
    (h : r.summary filter c = .error cause) : cause = .tooLargeToWrite := by
  have hwrite {n : Int} (hn : Numeral.write n = .error cause) : cause = .tooLargeToWrite := by
    unfold Numeral.write at hn
    split at hn
    · exact nomatch hn
    · exact (Except.error.inj hn).symm
  rcases bind_eq_error.1 h with hindex | ⟨index, -, hrest⟩
  · exact hwrite hindex
  · rcases bind_eq_error.1 hrest with hsize | ⟨size, -, hpure⟩
    · exact hwrite hsize
    · exact nomatch hpure

theorem compose_eq_error [Host] {filters : Group.Filters} {e : ResolveError}
    (hparse : Group.parse Group.defaultOptions params = .ok filters)
    (h : r.compose params filters = .error e) :
    e = .summary .tooLargeToWrite ∧ r.HasLongPage params := by
  refine ⟨?_, (fails_compose hparse).1 ⟨e, h⟩⟩
  have hexpressions := Group.areExpressions_named hparse r.filterName
  rcases bind_eq_error.1 h with hconvert | ⟨document, -, hrest⟩
  · obtain ⟨cause, hcause, -⟩ := mapError_eq_error.1 hconvert
    exact nomatch hcause.symm.trans (Backend.convert_full_filter hexpressions)
  · rcases bind_eq_error.1 hrest with hsummary | ⟨line, -, hpure⟩
    · obtain ⟨cause, hcause, rfl⟩ := mapError_eq_error.1 hsummary
      rw [summary_eq_error hcause]
    · exact nomatch hpure

theorem ofParams_eq_error [Host] {e : ResolveError} (h : r.ofParams params = .error e) :
    ((∃ cause, e = .parse (.numeral cause)) ∧ Group.HasFalseNumeral params) ∨
      ((∃ cause, e = .parse (.precision cause)) ∧ ∃ t : Group.Triple, t.IsUnvalued params) ∨
        (e = .summary .tooLargeToWrite ∧ r.HasLongPage params) := by
  rcases bind_eq_error.1 h with hparse | ⟨filters, hfilters, hrest⟩
  · obtain ⟨cause, hcause, rfl⟩ := mapError_eq_error.1 hparse
    rcases Group.parse_eq_error hcause with ⟨⟨c, rfl⟩, hfalse⟩ | ⟨⟨c, rfl⟩, hunvalued⟩
    · exact .inl ⟨⟨c, rfl⟩, hfalse⟩
    · exact .inr (.inl ⟨⟨c, rfl⟩, hunvalued⟩)
  · rcases bind_eq_error.1 hrest with hcompose | ⟨composed, -, hpure⟩
    · exact .inr (.inr (compose_eq_error (mapError_eq_ok.1 hfilters) hcompose))
    · exact nomatch hpure

/-- Parameters get no criteria exactly when a key of any name has a false numeral for an index, or
when a page number is too long. The cause is a decimal numeral in both cases, and the filters that a
request can be read as, whatever their options, can all be rendered. -/
theorem fails_ofParams_iff_numeral [Host] (r : Resolver) (params : Params)
    (hdates : Group.ReadsDates params) :
    (Fails (r.ofParams params) ↔ Group.HasFalseNumeral params ∨ r.HasLongPage params) ∧
      (∀ e, r.ofParams params = .error e →
        ((∃ cause, e = .parse (.numeral cause)) ∧ Group.HasFalseNumeral params) ∨
          (e = .summary .tooLargeToWrite ∧ r.HasLongPage params)) ∧
      (∀ options filters, Group.parse options params = .ok filters →
        ∀ name, ∃ d, Backend.full.convert (filters.named name).node = .ok d) := by
  have hvalued : ¬ ∃ t : Group.Triple, t.IsUnvalued params := fun ⟨t, ht⟩ =>
    hdates.not_isUnvalued t ht
  refine ⟨?_, ?_, ?_⟩
  · rw [fails_ofParams, or_iff_left hvalued]
    rfl
  · intro e he
    rcases ofParams_eq_error he with hindex | ⟨-, hunvalued⟩ | hpage
    · exact .inl hindex
    · exact absurd hunvalued hvalued
    · exact .inr hpage
  · intro options filters hfilters name
    exact ⟨_, Backend.convert_full_filter (Group.areExpressions_named hfilters name)⟩

def datedRequest : Params :=
  [(Group.Triple.key ⟨['g'], ['0'], ['²']⟩ .value, [['x']]),
    (Group.Triple.key ⟨"filters".toList, ['0'], ['0']⟩ .field, ["day".toList]),
    (Group.Triple.key ⟨"filters".toList, ['0'], ['0']⟩ .value, ["2024-01-15".toList])]

theorem readsDates_datedRequest : Group.ReadsDates datedRequest := by
  have hall : ∀ t ∈ Group.triples datedRequest,
      ∀ operator ∈ Condition.operator? (datedRequest.first (t.key .condition)),
        ∀ s ∈ Coerce.dateTexts operator (datedRequest.first (t.key .value)),
          (DateText.complete s).isOk = true := by
    decide +kernel
  intro t hkept operator hcode s hs
  have hok := hall t (Group.mem_triples.2 hkept.seen) operator hcode s hs
  cases hread : DateText.complete s with
  | ok m? => exact ⟨m?, rfl⟩
  | error e =>
    rw [hread] at hok
    exact nomatch hok

theorem fails_ofParams_datedRequest :
    Group.ReadsDates datedRequest ∧ Group.HasFalseNumeral datedRequest ∧
      ∃ cause, standard.ofParams datedRequest = .error (.parse (.numeral cause)) := by
  have hfalse : Group.HasFalseNumeral datedRequest :=
    ⟨⟨['g'], ['0'], ['²']⟩, ⟨_, List.mem_cons_self, .value, by decide, .inl rfl⟩,
      .inr ⟨by decide, List.all_eq_true.1 (by decide), .inl ⟨'²', by decide, by decide⟩⟩⟩
  have hshort : ¬ standard.HasLongPage datedRequest := by
    unfold HasLongPage
    decide +kernel
  obtain ⟨hfails, hcause, -⟩ :=
    fails_ofParams_iff_numeral standard datedRequest readsDates_datedRequest
  obtain ⟨e, he⟩ := hfails.2 (.inl hfalse)
  rcases hcause e he with ⟨⟨cause, rfl⟩, -⟩ | ⟨-, hlong⟩
  · exact ⟨readsDates_datedRequest, hfalse, cause, he⟩
  · exact absurd hlong hshort

end Resolver
end FindQuery
