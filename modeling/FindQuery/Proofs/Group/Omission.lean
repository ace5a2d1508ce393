import FindQuery.Proofs.Group.Agreement
import FindQuery.Proofs.Params.Basic

/-! Conditions that are dropped. -/

namespace FindQuery

def Params.without (params : Params) (t : Group.Triple) : Params :=
  params.only fun key => key ≠ t.key .field ∧ key ≠ t.key .value ∧ key ≠ t.key .condition

namespace Group

section Only
variable {options : Text} {params : Params} {p : Text → Prop} [DecidablePred p]

structure Spares (params : Params) (p : Text → Prop) [DecidablePred p] : Prop where
  keys : ∀ s : Triple, s.IsKept params → ∀ key, s.HasKey key → p key
  kept : ∀ s : Triple, s.IsKept (params.only p) → s.IsKept params

theorem Spares.agrees (h : Spares params p) {s : Triple} (hs : s.IsKept params) :
    s.Agrees (params.only p) params :=
  fun a => Params.first_only (h.keys s hs _ (hs.isProper.hasKey a))

theorem isOk_operator_iff {s : Triple} (h : ∃ key ∈ params.keys, s.HasKey key) :
    (s.operator params).isOk = true ↔ s.IsKept params := by
  have hok : (s.operator params).isOk = true ↔ ∃ o, s.operator params = .ok o := by
    cases s.operator params with
    | error d => exact iff_of_false Bool.false_ne_true nofun
    | ok o => exact iff_of_true rfl ⟨o, rfl⟩
  rw [hok]
  simp only [Triple.operator_eq_ok]
  exact ⟨fun ⟨o, hfield, hcode⟩ => ⟨h, hfield, o, hcode⟩,
    fun ⟨_, hfield, o, hcode⟩ => ⟨o, hfield, hcode⟩⟩

theorem keptTriples_eq (params : Params) (name : Text) : keptTriples params name =
    distinct (params.keys.filterMap fun key => ((splitKey? key).map Prod.fst).filter fun t =>
      decide (t.name = name) && (t.operator params).isOk) := by
  unfold keptTriples ownTriples triples
  rw [List.filter_filter, ← distinct_filter, List.filter_filterMap]
  simp only [Bool.and_comm]

theorem Spares.isOk_operator_only (h : Spares params p) {s : Triple} {key : Text} (hkey : key ∈ params.keys)
    (hp : p key) (hhas : s.HasKey key) :
    (s.operator (params.only p)).isOk = (s.operator params).isOk := by
  by_cases hkept : s.IsKept params
  · rw [(h.agrees hkept).operator_eq]
  · have hkept' : ¬ s.IsKept (params.only p) := mt (h.kept s) hkept
    rw [← isOk_operator_iff ⟨key, hkey, hhas⟩, Bool.not_eq_true] at hkept
    rw [← isOk_operator_iff ⟨key, Params.mem_keys_only.2 ⟨hkey, hp⟩, hhas⟩, Bool.not_eq_true] at hkept'
    rw [hkept, hkept']

theorem Spares.keptTriples_only (h : Spares params p) (name : Text) :
    keptTriples (params.only p) name = keptTriples params name := by
  rw [keptTriples_eq, keptTriples_eq, Params.keys_only, List.filterMap_filter]
  refine congrArg distinct (List.filterMap_congr fun key hkey => ?_)
  cases hsplit : (splitKey? key).map Prod.fst with
  | none => split <;> rfl
  | some s =>
    have hhas : s.HasKey key := Triple.hasKey_iff.2 hsplit
    by_cases hp : p key
    · rw [if_pos (decide_eq_true hp), Option.filter_some, Option.filter_some,
        h.isOk_operator_only hkey hp hhas]
    · have hdropped : (s.operator params).isOk = false := by
        rw [← Bool.not_eq_true, isOk_operator_iff ⟨key, hkey, hhas⟩]
        exact fun hkept => hp (h.keys s hkept key hhas)
      rw [if_neg (mt of_decide_eq_true hp), Option.filter_some, hdropped, Bool.and_false,
        if_neg Bool.false_ne_true]

theorem Spares.exists_parse_only [Host] (h : Spares params p) {filters : Filters}
    (hparse : parse options params = .ok filters) :
    ∃ filters', parse options (params.only p) = .ok filters' ∧
      ∀ name, filters'.named name = filters.named name := by
  have hkeys : ∀ key ∈ (params.only p).keys, key ∈ params.keys :=
    fun key hkey => (Params.mem_keys_only.1 hkey).1
  have hagree : ∀ s : Triple, s.IsKept (params.only p) → s.Agrees (params.only p) params :=
    fun s hs => h.agrees (h.kept s hs)
  have hreturns : ¬ Fails (parse options params) := not_fails_iff.2 ⟨filters, hparse⟩
  obtain ⟨filters', hparse'⟩ := not_fails_iff.1 (mt (fails_parse_of_agrees hkeys hagree) hreturns)
  refine ⟨filters', hparse', fun name => ?_⟩
  have hsame : keptTriples (params.only p) name = keptTriples params name := h.keptTriples_only name
  refine named_eq_of_keptTriples hparse' hparse (List.Perm.of_eq hsame) ?_ ?_
  · intro s hs t ht _ _ hlt
    have hplace := pairwise_keptTriples params name
    rw [← hsame] at hplace
    exact place_lt_of_pairwise (pairwise_keptTriples _ name) hplace hs ht hlt
  · intro s hs
    rw [hsame] at hs
    obtain ⟨hown, hok⟩ := List.mem_filter.1 hs
    exact h.agrees ((isOk_operator_iff (mem_ownTriples.1 hown).1).1 hok)

end Only

section Without
variable {options : Text} {params : Params} {t : Triple}

theorem spares_of_dropped {p : Text → Prop} [DecidablePred p] (hdropped : ¬ t.IsKept params)
    (hgone : ¬ p (t.key .field)) (hothers : ∀ s : Triple, s ≠ t → ∀ key, s.HasKey key → p key) :
    Spares params p := by
  refine ⟨fun s hs key hhas => hothers s ?_ key hhas, fun s hs => ?_⟩
  · rintro rfl
    exact hdropped hs
  · have hne : s ≠ t := by
      rintro rfl
      exact hs.field (Params.first_eq_nil fun hmem => hgone (Params.mem_keys_only.1 hmem).2)
    refine hs.of_agrees (fun key hkey => (Params.mem_keys_only.1 hkey).1) fun a => ?_
    exact Params.first_only (hothers s hne _ (hs.isProper.hasKey a))

/-- A condition that is dropped, because it has no field or its code is unknown, can be left out of the request,
with the keys that have a line break behind them or without: no filter changes. -/
theorem exists_parse_without [Host] {filters : Filters} (h : parse options params = .ok filters)
    (hseen : ∃ key ∈ params.keys, t.HasKey key)
    (hdropped : params.first (t.key .field) = [] ∨
      Condition.operator? (params.first (t.key .condition)) = none) :
    (∃ filters', parse options (params.without t) = .ok filters' ∧
      ∀ name, filters'.named name = filters.named name) ∧
    ∃ filters', parse options (params.only fun key => ¬ t.HasKey key) = .ok filters' ∧
      ∀ name, filters'.named name = filters.named name := by
  obtain ⟨key, -, hhas⟩ := hseen
  have hproper : t.IsProper := hhas.isProper
  have hkept : ¬ t.IsKept params := by
    intro hkept
    rcases hdropped with hfield | hcode
    · exact hkept.field hfield
    · obtain ⟨operator, hoperator⟩ := hkept.code
      exact nomatch hcode.symm.trans hoperator
  have hother : ∀ s : Triple, s ≠ t → ∀ key, s.HasKey key → ¬ t.HasKey key :=
    fun s hne key hs ht => hne (hs.unique ht)
  refine ⟨(spares_of_dropped hkept ?_ ?_).exists_parse_only h,
    (spares_of_dropped hkept (not_not_intro (hproper.hasKey .field)) hother).exists_parse_only h⟩
  · exact fun hp => hp.1 rfl
  · intro s hne key hs
    have hkey : ∀ a, key ≠ t.key a := by
      rintro a rfl
      exact hother s hne _ hs (hproper.hasKey a)
    exact ⟨hkey .field, hkey .value, hkey .condition⟩

def unknownCode : Triple := ⟨['f'], ['0'], ['0']⟩

def unknownCodeRequest : Params :=
  [(unknownCode.key .field, [['a']]),
    (Triple.key ⟨['g'], ['0'], ['0']⟩ .field, [['x']]),
    (Triple.key ⟨['f'], ['0'], ['0', '0']⟩ .field, [['b']]),
    (unknownCode.key .condition, ["Like".toList]),
    (Triple.key ⟨['f'], ['0', '0'], ['0']⟩ .field, [['c']]),
    (Triple.key ⟨['f'], ['0', '0'], ['0']⟩ .value, [['t']])]

theorem exists_parse_without_unknownCode : ∃ filters,
    parse defaultOptions unknownCodeRequest = .ok filters ∧
      (∃ key ∈ unknownCodeRequest.keys, unknownCode.HasKey key) ∧
      Condition.operator? (unknownCodeRequest.first (unknownCode.key .condition)) = none ∧
      ∃ filters', parse defaultOptions (unknownCodeRequest.without unknownCode) = .ok filters' ∧
        filters' ≠ filters ∧ filters'.named ['f'] = ⟨[.logical .and
          [.leaf .eq ['b'] (.text []), .leaf .eq ['c'] (.bool true)]]⟩ := by
  have hparse : parse defaultOptions unknownCodeRequest = .ok
      [(['f'], ⟨[.logical .and [.leaf .eq ['b'] (.text []), .leaf .eq ['c'] (.bool true)]]⟩),
        (['g'], ⟨[.leaf .eq ['x'] (.text [])]⟩)] := by
    decide +kernel
  have hparse' : parse defaultOptions (unknownCodeRequest.without unknownCode) = .ok
      [(['g'], ⟨[.leaf .eq ['x'] (.text [])]⟩),
        (['f'], ⟨[.logical .and [.leaf .eq ['b'] (.text []), .leaf .eq ['c'] (.bool true)]]⟩)] := by
    decide +kernel
  have hseen : ∃ key ∈ unknownCodeRequest.keys, unknownCode.HasKey key := by decide +kernel
  have hcode : Condition.operator? (unknownCodeRequest.first (unknownCode.key .condition)) = none := by
    decide +kernel
  obtain ⟨⟨filters', hfilters', hnamed⟩, -⟩ := exists_parse_without hparse hseen (.inr hcode)
  refine ⟨_, hparse, hseen, hcode, filters', hfilters', ?_, hnamed ['f']⟩
  rw [Except.ok.inj (hfilters'.symm.trans hparse')]
  decide

end Without

end Group

end FindQuery
