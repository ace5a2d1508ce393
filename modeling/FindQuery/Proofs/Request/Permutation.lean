import FindQuery.Proofs.Group.Agreement
import FindQuery.Proofs.Request.Failure

/-! The order of the parameters does not matter unless two triples tie. -/

namespace FindQuery

namespace Group

/-- No two triples of the name have indices that sort alike on both levels. -/
def NoTies (params : Params) (name : Text) : Prop :=
  ∀ s ∈ ownTriples params name, ∀ t ∈ ownTriples params name,
    IndexKey.ofText s.andIndex = IndexKey.ofText t.andIndex →
      IndexKey.ofText s.orIndex = IndexKey.ofText t.orIndex → s = t

theorem Triple.IndicesLe.antisymm {s t : Triple} (h : s.IndicesLe t) (h' : t.IndicesLe s) :
    IndexKey.ofText s.andIndex = IndexKey.ofText t.andIndex ∧
      IndexKey.ofText s.orIndex = IndexKey.ofText t.orIndex := by
  obtain ⟨a, b, ha, hb, hle⟩ := h
  obtain ⟨b', a', hb', ha', hle'⟩ := h'
  obtain rfl := Except.ok.inj (ha.symm.trans ha')
  obtain rfl := Except.ok.inj (hb.symm.trans hb')
  obtain rfl := Rank.le_antisymm hle hle'
  obtain ⟨-, hand, hor⟩ := rank_eq_ok.1 ha
  obtain ⟨-, hand', hor'⟩ := rank_eq_ok.1 hb
  exact ⟨hand.trans hand'.symm, hor.trans hor'.symm⟩

end Group

section Permutation
variable {params params' : Params}

theorem Params.first_eq_of_perm (hd : params.Distinct) (hperm : params.Perm params')
    (key : Text) : params.first key = params'.first key := by
  unfold first
  rw [Entries.get?_eq_of_perm hd hperm]

namespace Group

theorem perm_ownTriples (hperm : params.Perm params') (name : Text) :
    (ownTriples params name).Perm (ownTriples params' name) := by
  have hkeys : params.keys.Perm params'.keys := hperm.map Prod.fst
  have htriples : (triples params).Perm (triples params') := by
    rw [List.perm_ext_iff_of_nodup (nodup_triples params) (nodup_triples params')]
    intro t
    simp only [mem_triples, hkeys.mem_iff]
  exact htriples.filter _

theorem agrees_of_perm (hd : params.Distinct) (hperm : params.Perm params') (t : Triple) :
    t.Agrees params params' := fun a => Params.first_eq_of_perm hd hperm (t.key a)

theorem exists_parse_of_perm [Host] {options : Text} {filters : Filters} (hd : params.Distinct)
    (hperm : params.Perm params') (h : parse options params = .ok filters) :
    ∃ filters', parse options params' = .ok filters' := by
  have hkeys : params'.keys.Perm params.keys := hperm.symm.map Prod.fst
  have hagree (t : Triple) (_ : t.IsKept params') : t.Agrees params' params :=
    fun a => (agrees_of_perm hd hperm t a).symm
  rw [← not_fails_iff]
  intro hfails
  have hfails' : Fails (parse options params) :=
    fails_parse_of_agrees (fun _ hkey => hkeys.mem_iff.1 hkey) hagree hfails
  exact not_fails_iff.2 ⟨filters, h⟩ hfails'

theorem named_eq_of_perm [Host] {options : Text} {filters filters' : Filters} {name : Text}
    (h : parse options params = .ok filters) (h' : parse options params' = .ok filters')
    (hd : params.Distinct) (hperm : params.Perm params') (hties : NoTies params name) :
    filters.named name = filters'.named name := by
  apply named_eq_of_ownTriples h h' (perm_ownTriples hperm name)
  · intro s hs t ht hle hge hlt
    obtain ⟨hand, hor⟩ := hle.antisymm hge
    obtain rfl := hties s hs t ht hand hor
    exact absurd hlt (Nat.lt_irrefl _)
  · intro t _
    exact agrees_of_perm hd hperm t

end Group

namespace Resolver

theorem compose_congr {r : Resolver} {filters filters' : Group.Filters}
    (hget : ∀ key, params.get? key = params'.get? key)
    (hnamed : filters.named r.filterName = filters'.named r.filterName) :
    r.compose params filters = r.compose params' filters' := by
  have hsort : SortField.order params = SortField.order params' := by
    unfold SortField.order
    rw [hget, hget]
  have hindex : Page.index params = Page.index params' := by
    unfold Page.index Params.first
    rw [hget]
  have hsize : Page.size params r.defaultSize = Page.size params' r.defaultSize := by
    unfold Page.size Page.requestedSize? Params.first
    rw [hget]
  unfold compose
  rw [hnamed, hsort, hindex, hsize]

/-- Parameters in another order are answered with the same criteria. -/
theorem ofParams_eq_of_perm [Host] (r : Resolver) {c : Criteria} (hd : params.Distinct)
    (hperm : params.Perm params') (hties : Group.NoTies params r.filterName)
    (h : r.ofParams params = .ok c) : r.ofParams params' = .ok c := by
  obtain ⟨filters, hfilters, hrest⟩ := bind_eq_ok.1 h
  have hparse : Group.parse Group.defaultOptions params = .ok filters := mapError_eq_ok.1 hfilters
  obtain ⟨filters', hparse'⟩ := Group.exists_parse_of_perm hd hperm hparse
  have hnamed := Group.named_eq_of_perm hparse hparse' hd hperm hties
  have hcompose : r.compose params filters = r.compose params' filters' :=
    compose_congr (Entries.get?_eq_of_perm hd hperm) hnamed
  rw [hcompose] at hrest
  exact bind_eq_ok.2 ⟨filters', mapError_eq_ok.2 hparse', hrest⟩

def looseRequest : Params :=
  [(Group.Triple.key ⟨"filters".toList, ['1', '0'], ['0']⟩ .field, [['a']]),
    ("size".toList, [['5']]),
    (Group.Triple.key ⟨"filters".toList, ['2'], ['1']⟩ .field, [['b']]),
    (Group.Triple.key ⟨['g'], ['2'], ['0', '1']⟩ .field, [['z']]),
    (Group.Triple.key ⟨"filters".toList, ['2'], ['0', '0']⟩ .field, [['c']]),
    ("sort".toList, [['-', 'a'], ['b']])]

theorem ofParams_reverse_looseRequest :
    looseRequest.Distinct ∧ Group.NoTies looseRequest standard.filterName ∧
      ∃ c, standard.ofParams looseRequest = .ok c ∧
        standard.ofParams looseRequest.reverse = .ok c := by
  have hdistinct : looseRequest.Distinct := by
    unfold Entries.Distinct
    decide +kernel
  have hties : Group.NoTies looseRequest standard.filterName := by
    unfold Group.NoTies
    decide +kernel
  have hreturns : (standard.ofParams looseRequest).isOk = true := by decide +kernel
  cases hc : standard.ofParams looseRequest with
  | error e =>
    rw [hc] at hreturns
    exact nomatch hreturns
  | ok c =>
    have hperm : looseRequest.Perm looseRequest.reverse := (List.reverse_perm _).symm
    exact ⟨hdistinct, hties, c, rfl, ofParams_eq_of_perm standard hdistinct hperm hties hc⟩

end Resolver

end Permutation
end FindQuery
