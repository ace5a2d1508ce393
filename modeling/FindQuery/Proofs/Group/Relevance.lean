import Mathlib.Data.List.Perm.Basic
import FindQuery.Proofs.Group.Agreement
import FindQuery.Proofs.Params.Basic

/-! Which keys count for a parse. -/

namespace FindQuery.Group

/-- The key of a triple and an attribute, with nothing in front of it or behind it. -/
def IsGroupKey (key : Text) : Prop := ∃ (t : Triple) (a : Attribute), t.IsProper ∧ key = t.key a

/-- A key of a triple, where a line break may stand behind the last bracket. -/
def IsReadable (key : Text) : Prop := ∃ t : Triple, t.HasKey key

theorem isGroupKey_iff {key : Text} :
    (splitKey? key).any (fun p => p.1.key p.2 = key) = true ↔ IsGroupKey key := by
  rw [Option.any_eq_true]
  constructor
  · rintro ⟨⟨t, a⟩, hsplit, hkey⟩
    have hproper := (splitKey?_eq_some_iff.1 hsplit).1
    exact ⟨t, a, hproper, (of_decide_eq_true hkey).symm⟩
  · rintro ⟨t, a, hproper, rfl⟩
    exact ⟨(t, a), splitKey?_eq_some_iff.2 ⟨hproper, .inl rfl⟩, decide_eq_true rfl⟩

theorem isReadable_iff {key : Text} : (splitKey? key).isSome = true ↔ IsReadable key := by
  simp only [IsReadable, Triple.hasKey_iff, Option.isSome_iff_exists, Option.map_eq_some_iff]
  constructor
  · rintro ⟨p, hp⟩
    exact ⟨p.1, p, hp, rfl⟩
  · rintro ⟨t, p, hp, -⟩
    exact ⟨p, hp⟩

instance (key : Text) : Decidable (IsGroupKey key) := decidable_of_iff _ isGroupKey_iff

instance (key : Text) : Decidable (IsReadable key) := decidable_of_iff _ isReadable_iff

/-- Every triple is first seen under a group key. -/
def SeenExactly (keys : List Text) : Prop :=
  ∀ (t : Triple) (key : Text), keys.find? (fun k => t.HasKey k) = some key → IsGroupKey key

theorem isGroupKey_key {t : Triple} (h : t.IsProper) (a : Attribute) : IsGroupKey (t.key a) :=
  ⟨t, a, h, rfl⟩

section Only
variable {options : Text} {params : Params} {p : Text → Prop} [DecidablePred p]

theorem triples_only (h : ∀ before key after, params.keys = before ++ key :: after →
      ¬ p key → ∀ t : Triple, t.HasKey key → ∃ other ∈ before, t.HasKey other) :
    triples (params.only p) = triples params := by
  unfold triples
  rw [Params.keys_only]
  apply distinct_filterMap_filter
  intro before key after hkeys hp t ht
  obtain ⟨other, hother, hkey⟩ :=
    h before key after hkeys (of_decide_eq_false hp) t (Triple.hasKey_iff.2 ht)
  exact ⟨other, hother, Triple.hasKey_iff.1 hkey⟩

theorem agrees_only (h : ∀ t : Triple, t.IsProper → ∀ a, p (t.key a)) {t : Triple}
    (ht : t.IsProper) : t.Agrees (params.only p) params :=
  fun a => Params.first_only (h t ht a)

theorem parse_only [Host] (h : ∀ t : Triple, t.IsProper → ∀ a, p (t.key a))
    (h' : ∀ before key after, params.keys = before ++ key :: after → ¬ p key →
      ∀ t : Triple, t.HasKey key → ∃ other ∈ before, t.HasKey other) :
    parse options (params.only p) = parse options params := by
  apply parse_congr (triples_only h')
  intro t ht
  obtain ⟨key, -, hkey⟩ := mem_triples.1 ht
  exact agrees_only h hkey.isProper

end Only

section Leaves
variable {options : Text} {params params' : Params}

theorem Triple.Builds.unique [Host] {t : Triple} {node node' : Node} (hagree : t.Agrees params params')
    (h : t.Builds options params node) (h' : t.Builds options params' node') : node = node' := by
  have hfield := hagree .field
  have hvalue := hagree .value
  have hcode := hagree .condition
  cases h with
  | pattern ho =>
    cases h' with
    | pattern ho' => rw [hfield, hvalue]
    | value ho' hne hv =>
      rw [hcode, ho'] at ho
      exact absurd (Option.some.inj ho) hne
  | value ho hne hv =>
    cases h' with
    | pattern ho' =>
      rw [hcode, ho'] at ho
      exact absurd (Option.some.inj ho).symm hne
    | value ho' hne' hv' =>
      rw [hcode, ho'] at ho
      obtain rfl := Option.some.inj ho
      rw [hvalue, hv'] at hv
      rw [hfield, Except.ok.inj hv]

theorem eq_of_forall₂ {α β : Type} {R S : α → β → Prop} {as : List α} {bs cs : List β}
    (h : ∀ a ∈ as, ∀ b c, R a b → S a c → b = c) (hR : List.Forall₂ R as bs)
    (hS : List.Forall₂ S as cs) : bs = cs := by
  induction hR generalizing cs with
  | nil =>
    cases hS
    rfl
  | @cons a b as bs hab _ ih =>
    cases hS with
    | cons hac hrest =>
      have hhead := h a List.mem_cons_self _ _ hab hac
      have htail := ih (fun a' ha' => h a' (List.mem_cons_of_mem a ha')) hrest
      rw [hhead, htail]

theorem perm_leaves_named [Host] {filters filters' : Filters} (h : parse options params = .ok filters)
    (h' : parse options params' = .ok filters')
    (hkept : ∀ t : Triple, t.IsKept params ↔ t.IsKept params')
    (hagree : ∀ t : Triple, t.IsKept params → t.Agrees params params') (name : Text) :
    (filters.named name).node.leaves.Perm (filters'.named name).node.leaves := by
  obtain ⟨nodes, hnodes, rfl⟩ := parse_eq_ok h
  obtain ⟨nodes', hnodes', rfl⟩ := parse_eq_ok h'
  rw [named_eq_assemble, named_eq_assemble]
  have harranged := arranged_assemble hnodes name
  have harranged' := arranged_assemble hnodes' name
  have hperm := (List.perm_ext_iff_of_nodup harranged.once harranged'.once).2 fun t => by
    rw [harranged.kept, harranged'.kept, hkept]
  obtain ⟨leaves, hbuilt, hleaves⟩ := List.perm_comp_forall₂ hperm harranged'.leaves
  have hsame : (assemble (nodes.filter (·.1.name = name))).node.leaves = leaves := by
    refine eq_of_forall₂ ?_ harranged.leaves hbuilt
    intro t ht node node' hnode hnode'
    exact hnode.unique (hagree t ((harranged.kept t).1 ht).1) hnode'
  rw [hsame]
  exact hleaves

end Leaves

section Relevance
variable {options : Text} {params : Params}

theorem parse_only_isReadable [Host] (options : Text) (params : Params) :
    parse options (params.only IsReadable) = parse options params := by
  apply parse_only
  · intro t ht a
    exact ⟨t, ht.hasKey a⟩
  · intro before key after _ hp t hkey
    exact absurd ⟨t, hkey⟩ hp

theorem parse_only_isGroupKey [Host] (h : SeenExactly params.keys) :
    parse options (params.only IsGroupKey) = parse options params := by
  apply parse_only
  · intro t ht a
    exact isGroupKey_key ht a
  · intro before key after hkeys hp t hkey
    -- A key that is no group key cannot be the first one of its triple.
    by_contra hnone
    have hbefore : before.find? (fun k => t.HasKey k) = none := by
      rw [List.find?_eq_none]
      intro other hother hhas
      exact hnone ⟨other, hother, of_decide_eq_true hhas⟩
    apply hp
    apply h t key
    rw [hkeys, List.find?_append, hbefore, Option.none_or, List.find?_cons, decide_eq_true hkey]

theorem mem_keys_of_only {p : Text → Prop} [DecidablePred p] (key : Text)
    (h : key ∈ (params.only p).keys) : key ∈ params.keys := (Params.mem_keys_only.1 h).1

theorem agrees_only_isGroupKey {t : Triple} (ht : t.IsProper) :
    t.Agrees (params.only IsGroupKey) params := agrees_only (fun _ h a => isGroupKey_key h a) ht

theorem isKept_only_isGroupKey {t : Triple} :
    t.IsKept (params.only IsGroupKey) ↔ t.IsKept params := by
  constructor
  · intro h
    exact h.of_agrees mem_keys_of_only (agrees_only_isGroupKey h.isProper)
  · rintro ⟨⟨key, -, hkey⟩, hfield, hcode⟩
    have hproper := hkey.isProper
    have hagree : t.Agrees (params.only IsGroupKey) params := agrees_only_isGroupKey hproper
    have hmem : t.key .field ∈ params.keys := by
      by_contra hnone
      exact hfield (Params.first_eq_nil hnone)
    rw [← hagree .field] at hfield
    rw [← hagree .condition] at hcode
    exact ⟨⟨t.key .field, Params.mem_keys_only.2 ⟨hmem, isGroupKey_key hproper _⟩,
      hproper.hasKey _⟩, hfield, hcode⟩

theorem fails_of_fails_only [Host] (h : Fails (parse options (params.only IsGroupKey))) :
    Fails (parse options params) :=
  fails_parse_of_agrees mem_keys_of_only (fun _ ht => agrees_only_isGroupKey ht.isProper) h

/-- Keys that are no keys of triples have no influence on a parse. Those with a line break behind them
have none when every triple is first seen under a group key; in any case they bring no condition into a
filter and keep none out of it. -/
theorem parse_only_groupKeys [Host] (options : Text) (params : Params) :
    parse options (params.only IsReadable) = parse options params ∧
      (SeenExactly params.keys →
        parse options (params.only IsGroupKey) = parse options params) ∧
      ∀ filters, parse options params = .ok filters →
        ∃ filters', parse options (params.only IsGroupKey) = .ok filters' ∧
          ∀ name, (filters'.named name).node.leaves.Perm (filters.named name).node.leaves := by
  refine ⟨parse_only_isReadable options params, parse_only_isGroupKey, ?_⟩
  intro filters hfilters
  have hreturns : ¬ Fails (parse options params) := not_fails_iff.2 ⟨filters, hfilters⟩
  obtain ⟨filters', hfilters'⟩ := not_fails_iff.1 (mt fails_of_fails_only hreturns)
  refine ⟨filters', hfilters', ?_⟩
  apply perm_leaves_named hfilters' hfilters
  · intro t
    exact isKept_only_isGroupKey
  · intro t hkept
    exact agrees_only_isGroupKey hkept.isProper

def strayKeys : Params :=
  [("index".toList, [['1']]),
    (Triple.key ⟨['f'], ['0'], ['0']⟩ .field, [['a']]),
    (Triple.key ⟨['f'], ['0'], ['0']⟩ .value ++ ['\n'], [['x']]),
    ("f[0][field]".toList, [['b']]),
    ("f[0][0][0][field]".toList, [['c']]),
    (Triple.key ⟨['f'], ['0'], ['0']⟩ .value, [['x', 'y']])]

theorem seenExactly_strayKeys : SeenExactly strayKeys.keys := by
  have hall : ∀ t ∈ triples strayKeys,
      ∀ key ∈ strayKeys.keys.find? (fun k => t.HasKey k), IsGroupKey key := by
    decide +kernel
  intro t key hfind
  have hfound := List.find?_some hfind
  have hkey : t.HasKey key := of_decide_eq_true hfound
  exact hall t (mem_triples.2 ⟨key, List.mem_of_find?_eq_some hfind, hkey⟩) key hfind

theorem parse_only_groupKeys_strayKeys :
    SeenExactly strayKeys.keys ∧ strayKeys.only IsGroupKey ≠ strayKeys ∧
      parse defaultOptions (strayKeys.only IsGroupKey) = parse defaultOptions strayKeys ∧
      ∃ filters filters', parse defaultOptions strayKeys = .ok filters ∧
        parse defaultOptions (strayKeys.only IsGroupKey) = .ok filters' ∧
        filters.named ['f'] = ⟨[.leaf .eq ['a'] (.text ['x', 'y'])]⟩ ∧
        ∀ name, (filters'.named name).node.leaves.Perm (filters.named name).node.leaves := by
  have hparse : parse defaultOptions strayKeys =
      .ok [(['f'], ⟨[.leaf .eq ['a'] (.text ['x', 'y'])]⟩)] := by
    decide +kernel
  have hfewer : strayKeys.only IsGroupKey ≠ strayKeys := by decide +kernel
  obtain ⟨-, hsame, hleaves⟩ := parse_only_groupKeys defaultOptions strayKeys
  obtain ⟨filters', hfilters', hperm⟩ := hleaves _ hparse
  exact ⟨seenExactly_strayKeys, hfewer, hsame seenExactly_strayKeys, _, filters', hparse, hfilters',
    rfl, hperm⟩

def earlyLineBreak : Params :=
  [(Triple.key ⟨['b'], ['0'], ['0']⟩ .field ++ ['\n'], [['x']]),
    (Triple.key ⟨['a'], ['0'], ['0']⟩ .field, [['x']]),
    (Triple.key ⟨['b'], ['0'], ['0']⟩ .field, [['x']])]

theorem parse_only_ne_of_earlyLineBreak :
    parse defaultOptions (earlyLineBreak.only IsGroupKey) ≠ parse defaultOptions earlyLineBreak := by
  decide +kernel

end Relevance
end FindQuery.Group
