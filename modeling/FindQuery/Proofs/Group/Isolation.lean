import FindQuery.Proofs.Group.Agreement
import FindQuery.Proofs.Params.Basic

/-! Filter names do not see each other. -/

namespace FindQuery.Group

def keysUnder (params : Params) (name : Text) : List Text :=
  params.keys.filter fun key => decide (name ++ ['['] <+: key)

theorem mem_keysUnder {params : Params} {name key : Text} :
    key ∈ keysUnder params name ↔ key ∈ params.keys ∧ name ++ ['['] <+: key := by
  rw [keysUnder, List.mem_filter, decide_eq_true_eq]

theorem Triple.prefix_key (t : Triple) (a : Attribute) : t.name ++ ['['] <+: t.key a := by
  refine ⟨t.andIndex ++ ']' :: (bracketed t.orIndex ++ bracketed a.word), ?_⟩
  simp [key, stem, bracketed]

theorem Triple.HasKey.isPrefix {t : Triple} {key : Text} (h : t.HasKey key) :
    t.name ++ ['['] <+: key := by
  obtain ⟨a, -, hkey⟩ := h
  rcases hkey with rfl | rfl
  · exact t.prefix_key a
  · exact (t.prefix_key a).trans (List.prefix_append _ _)

def tripleUnder? (name key : Text) : Option Triple :=
  ((splitKey? key).map Prod.fst).filter (·.name = name)

theorem tripleUnder?_eq_none {name key : Text} (h : ¬ name ++ ['['] <+: key) :
    tripleUnder? name key = none := by
  rw [tripleUnder?, Option.filter_eq_none_iff]
  intro t ht hname
  have hkey : t.HasKey key := Triple.hasKey_iff.2 ht
  have hprefix := hkey.isPrefix
  rw [of_decide_eq_true hname] at hprefix
  exact h hprefix

section Isolation
variable {params params' : Params} {name : Text}

theorem ownTriples_eq (params : Params) (name : Text) :
    ownTriples params name = distinct ((keysUnder params name).filterMap (tripleUnder? name)) := by
  unfold ownTriples triples keysUnder
  rw [← distinct_filter, List.filter_filterMap, List.filterMap_filter]
  congr 1
  apply List.filterMap_congr
  intro key _
  by_cases hprefix : name ++ ['['] <+: key
  · rw [decide_eq_true hprefix]
    rfl
  · rw [decide_eq_false hprefix]
    exact tripleUnder?_eq_none hprefix

theorem agrees_of_keysUnder_eq (hkeys : keysUnder params name = keysUnder params' name)
    (hfirst : ∀ key ∈ keysUnder params name, params.first key = params'.first key)
    {t : Triple} (ht : t.name = name) : t.Agrees params params' := by
  intro a
  have hprefix : name ++ ['['] <+: t.key a := ht ▸ t.prefix_key a
  by_cases hkey : t.key a ∈ keysUnder params name
  · exact hfirst _ hkey
  · have hkey' : t.key a ∉ keysUnder params' name := hkeys ▸ hkey
    rw [Params.first_eq_nil fun h => hkey (mem_keysUnder.2 ⟨h, hprefix⟩),
      Params.first_eq_nil fun h => hkey' (mem_keysUnder.2 ⟨h, hprefix⟩)]

/-- Two requests that have the same keys under a name, in the same order and with the same first
values, have the same filter of that name, whatever else they hold. -/
theorem named_eq_of_keysUnder_eq [Host] {options : Text} {filters filters' : Filters}
    (h : parse options params = .ok filters) (h' : parse options params' = .ok filters')
    (hkeys : keysUnder params name = keysUnder params' name)
    (hfirst : ∀ key ∈ keysUnder params name, params.first key = params'.first key) :
    filters.named name = filters'.named name := by
  have hown : ownTriples params name = ownTriples params' name := by
    rw [ownTriples_eq, ownTriples_eq, hkeys]
  apply named_eq_of_ownTriples h h'
  · exact List.Perm.of_eq hown
  · intro s hs t ht _ _ hlt
    have hplace' := pairwise_ownTriples params' name
    rw [← hown] at hplace'
    exact place_lt_of_pairwise (pairwise_ownTriples params name) hplace' hs ht hlt
  · intro t ht
    exact agrees_of_keysUnder_eq hkeys hfirst (mem_ownTriples.1 ht).2

end Isolation

def sharedRequest : Params :=
  [(Triple.key ⟨['g'], ['x'], ['0']⟩ .field, [['z']]),
    (Triple.key ⟨['f'], ['0'], ['0', '0']⟩ .field, [['b'], ['q']]),
    (Triple.key ⟨['f'], ['0'], ['0']⟩ .field, [['c']]),
    (Triple.key ⟨['f'], ['0'], ['0']⟩ .value, [])]

def loneRequest : Params :=
  [(Triple.key ⟨['f'], ['0'], ['0', '0']⟩ .field, [['b']]),
    ("index".toList, [['5']]),
    (Triple.key ⟨['f'], ['0'], ['0']⟩ .field, [['c'], []]),
    (Triple.key ⟨['f'], ['0'], ['0']⟩ .value, [[]])]

theorem named_eq_of_sharedRequest :
    keysUnder sharedRequest ['f'] = keysUnder loneRequest ['f'] ∧
      (∀ key ∈ keysUnder sharedRequest ['f'], sharedRequest.first key = loneRequest.first key) ∧
      ∃ filters filters', parse defaultOptions sharedRequest = .ok filters ∧
        parse defaultOptions loneRequest = .ok filters' ∧ filters ≠ filters' ∧
        filters.named ['f'] = filters'.named ['f'] := by
  have hshared : parse defaultOptions sharedRequest = .ok
      [(['g'], ⟨[.leaf .eq ['z'] (.text [])]⟩),
        (['f'], ⟨[.logical .or [.leaf .eq ['b'] (.text []), .leaf .eq ['c'] (.text [])]]⟩)] := by
    decide +kernel
  have hlone : parse defaultOptions loneRequest = .ok
      [(['f'], ⟨[.logical .or [.leaf .eq ['b'] (.text []), .leaf .eq ['c'] (.text [])]]⟩)] := by
    decide +kernel
  have hkeys : keysUnder sharedRequest ['f'] = keysUnder loneRequest ['f'] := by decide +kernel
  have hfirst : ∀ key ∈ keysUnder sharedRequest ['f'],
      sharedRequest.first key = loneRequest.first key := by decide +kernel
  refine ⟨hkeys, hfirst, _, _, hshared, hlone, by decide, ?_⟩
  exact named_eq_of_keysUnder_eq hshared hlone hkeys hfirst

end FindQuery.Group
