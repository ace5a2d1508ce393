import FindQuery.Proofs.Group.Grammar
import FindQuery.Proofs.Request.Failure

/-! Criteria are well formed, whatever the request. -/

namespace FindQuery

namespace Page

theorem index_nonneg (params : Params) : 0 ≤ index params := by
  unfold index
  exact Int.le_max_right _ 0

theorem requestedSize?_pos {params : Params} {n : Int} (h : requestedSize? params = some n) :
    0 < n := by
  obtain ⟨k, -, hk⟩ := Option.bind_eq_some_iff.1 h
  split at hk
  · exact nomatch hk
  · next hpos =>
    obtain rfl := Option.some.inj hk
    exact Int.not_le.1 hpos

end Page

namespace SortField

def IsProper (s : SortField) : Prop :=
  s.field ≠ [] ∧ (s.direction = .ascending → ¬ ['-'] <+: s.field)

theorem isProper_of_ofEntry? {entry : Text} {s : SortField} (h : ofEntry? entry = some s) :
    s.IsProper := by
  unfold ofEntry? at h
  split at h
  · exact nomatch h
  · exact nomatch h
  · next field hfield =>
    obtain rfl := Option.some.inj h
    exact ⟨hfield, nofun⟩
  · next hnil _ hminus =>
    obtain rfl := Option.some.inj h
    refine ⟨hnil, ?_⟩
    rintro - ⟨field, hfield⟩
    exact hminus field hfield.symm

theorem isProper_of_order {params : Params} {fields : List SortField}
    (h : order params = some fields) : ∀ s ∈ fields, s.IsProper := by
  obtain ⟨entries, -, rfl⟩ := Option.map_eq_some_iff.1 h
  intro s hs
  obtain ⟨entry, -, hentry⟩ := List.mem_filterMap.1 hs
  exact isProper_of_ofEntry? hentry

end SortField

structure Criteria.IsWellFormed (c : Criteria) : Prop where
  filter : Document.IsFilter c.filter
  sort : ∀ fields, c.sort = some fields → ∀ s ∈ fields, s.IsProper
  index : 0 ≤ c.index
  size : 1 ≤ c.size

namespace Resolver

variable {r : Resolver} {params : Params} {c : Criteria}

theorem ofParams_eq_ok [Host] (h : r.ofParams params = .ok c) :
    ∃ filters, Group.parse Group.defaultOptions params = .ok filters ∧
      Backend.full.convert (filters.named r.filterName).node = .ok c.filter ∧
      c.sort = SortField.order params ∧ c.index = Page.index params ∧
      c.size = r.pageSize params := by
  obtain ⟨filters, hfilters, hrest⟩ := bind_eq_ok.1 h
  obtain ⟨⟨c', line⟩, hcompose, hc⟩ := bind_eq_ok.1 hrest
  obtain rfl := Except.ok.inj hc
  obtain ⟨document, hdocument, hline⟩ := bind_eq_ok.1 hcompose
  obtain ⟨line', -, hpair⟩ := bind_eq_ok.1 hline
  obtain ⟨rfl, -⟩ := Prod.mk.inj (Except.ok.inj hpair)
  exact ⟨filters, mapError_eq_ok.1 hfilters, mapError_eq_ok.1 hdocument, rfl, rfl, rfl⟩

theorem one_le_pageSize (r : Resolver) (params : Params) : 1 ≤ r.pageSize params := by
  unfold pageSize Page.size
  cases hsize : Page.requestedSize? params with
  | none => exact r.defaultSize_pos
  | some n => exact Page.requestedSize?_pos hsize

/-- Every request that is answered is answered with well-formed criteria. -/
theorem isWellFormed_of_ofParams [Host] (r : Resolver) {params : Params} {c : Criteria}
    (h : r.ofParams params = .ok c) : c.IsWellFormed := by
  obtain ⟨filters, hparse, hdocument, hsort, hindex, hsize⟩ := ofParams_eq_ok h
  constructor
  · exact Group.isFilter_of_convert hparse hdocument
  · intro fields hfields
    exact SortField.isProper_of_order (hsort.symm.trans hfields)
  · rw [hindex]
    exact Page.index_nonneg params
  · rw [hsize]
    exact one_le_pageSize r params

def crowdedRequest : Params :=
  [(Group.Triple.key ⟨"filters".toList, ['0'], ['0']⟩ .field, [['a']]),
    (Group.Triple.key ⟨"filters".toList, ['0'], ['0']⟩ .value, [['x']]),
    (Group.Triple.key ⟨"filters".toList, ['0'], ['0']⟩ .condition, ["like".toList]),
    (Group.Triple.key ⟨"filters".toList, ['0'], ['1']⟩ .field, [['$']]),
    (Group.Triple.key ⟨"filters".toList, ['1'], ['0']⟩ .field, [['b']]),
    (Group.Triple.key ⟨"filters".toList, ['1'], ['0']⟩ .value, ["1,nan".toList]),
    (Group.Triple.key ⟨"filters".toList, ['1'], ['0']⟩ .condition, ["in".toList]),
    ("sort".toList, ["--a".toList, ['-'], [], ['b']]),
    ("index".toList, ["-5".toList]), ("size".toList, [['0']])]

def crowdedCriteria : Criteria where
  filter := [("$and".toList, .list
    [.document [("$or".toList, .list
      [.document [(['a'], .document
        [("$regex".toList, .text ['x']), ("$options".toList, .text ['i'])])],
        .document [(['$'], .document [("$eq".toList, .text [])])]])],
      .document [(['b'], .document [("$in".toList, .list
        [.float (.ofDecimal false 1 0), .float Binary64.nan])])]])]
  sort := some [⟨"-a".toList, .descending⟩, ⟨['b'], .ascending⟩]
  index := 0
  size := 20

theorem isWellFormed_crowdedCriteria :
    standard.ofParams crowdedRequest = .ok crowdedCriteria ∧ crowdedCriteria.IsWellFormed := by
  have h : standard.ofParams crowdedRequest = .ok crowdedCriteria := by decide +kernel
  exact ⟨h, isWellFormed_of_ofParams standard h⟩

end Resolver
end FindQuery
