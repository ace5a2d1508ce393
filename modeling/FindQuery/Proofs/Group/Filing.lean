import FindQuery.Proofs.Group.Arrange

/-! The leaves of a parse, filed under the three parts of their triples. -/

namespace FindQuery.Group

abbrev Filing := Entries (Entries (Entries Node))

def fileMember (members : Entries Node) (p : Triple × Node) : Entries Node :=
  members.put p.1.orIndex p.2

def fileConjunct (conjuncts : Entries (Entries Node)) (p : Triple × Node) : Entries (Entries Node) :=
  conjuncts.put p.1.andIndex (fileMember ((conjuncts.get? p.1.andIndex).getD []) p)

def Filing.file (filing : Filing) (p : Triple × Node) : Filing :=
  filing.put p.1.name (fileConjunct ((filing.get? p.1.name).getD []) p)

def filed (nodes : List (Triple × Node)) : Filing := nodes.foldl Filing.file []

def Filing.leaf? (filing : Filing) (t : Triple) : Option Node :=
  ((filing.get? t.name).bind (·.get? t.andIndex)).bind (·.get? t.orIndex)

def filterOf (conjuncts : Entries (Entries Node)) : Filter :=
  let nodes := conjuncts.map fun e => combine .or (e.2.map Prod.snd)
  if nodes = [] then ⟨[]⟩ else ⟨[combine .and nodes]⟩

def Filing.filters (filing : Filing) : Filters := filing.map fun e => (e.1, filterOf e.2)

section Places
variable {nodes : List (Triple × Node)} {p : Triple × Node} {t : Triple} {node : Node}

theorem get?_getD {α : Type} (es : Option (Entries α)) (key : Text) :
    (es.getD []).get? key = es.bind (·.get? key) := by
  cases es with
  | none => rfl
  | some es => rfl

theorem leaf?_file (filing : Filing) :
    (filing.file p).leaf? t = if t = p.1 then some p.2 else filing.leaf? t := by
  obtain ⟨name, andIndex, orIndex⟩ := t
  obtain ⟨⟨name', andIndex', orIndex'⟩, leaf⟩ := p
  unfold Filing.leaf? Filing.file fileConjunct fileMember
  rw [Entries.get?_put]
  by_cases hname : name = name'
  · subst hname
    rw [if_pos rfl, Option.bind_some, Entries.get?_put, get?_getD]
    by_cases hand : andIndex = andIndex'
    · subst hand
      rw [if_pos rfl, Option.bind_some, Entries.get?_put, get?_getD]
      simp only [Triple.mk.injEq, true_and]
    · rw [if_neg hand, if_neg fun h => hand (Triple.mk.inj h).2.1, get?_getD]
  · rw [if_neg hname, if_neg fun h => hname (Triple.mk.inj h).1]

theorem filed_concat (nodes : List (Triple × Node)) (p : Triple × Node) :
    filed (nodes ++ [p]) = (filed nodes).file p := List.foldl_concat ..

theorem leaf?_filed_eq_some_iff (h : (nodes.map Prod.fst).Nodup) :
    (filed nodes).leaf? t = some node ↔ (t, node) ∈ nodes := by
  induction nodes using List.reverseRecOn with
  | nil => exact iff_of_false nofun List.not_mem_nil
  | append_singleton nodes p ih =>
    rw [List.map_append, List.nodup_append] at h
    obtain ⟨hnodes, -, hnew⟩ := h
    rw [filed_concat, leaf?_file, List.mem_append, List.mem_singleton, ← ih hnodes]
    by_cases ht : t = p.1
    · subst ht
      have hfree : (filed nodes).leaf? p.1 ≠ some node := by
        intro hleaf
        have hmem : p.1 ∈ nodes.map Prod.fst := List.mem_map.2 ⟨_, (ih hnodes).1 hleaf, rfl⟩
        exact hnew _ hmem _ (List.mem_singleton_self _) rfl
      rw [if_pos rfl, or_iff_right hfree, Option.some.injEq]
      constructor
      · rintro rfl
        rfl
      · intro hp
        rw [← hp]
    · rw [if_neg ht, or_iff_left fun hp => ht (congrArg Prod.fst hp)]

theorem leaf?_filed_of_not_mem (h : (nodes.map Prod.fst).Nodup) (ht : t ∉ nodes.map Prod.fst) :
    (filed nodes).leaf? t = none := by
  rw [Option.eq_none_iff_forall_ne_some]
  intro node hleaf
  exact ht (List.mem_map.2 ⟨_, (leaf?_filed_eq_some_iff h).1 hleaf, rfl⟩)

end Places

section Grouping
variable {α β : Type} {key : α → Text} {add : β → α → β} {start : β} {l : List α}

def foldGroups (key : α → Text) (add : β → α → β) (start : β) (l : List α) : Entries β :=
  (groupBy key l).map fun g => (g.1, g.2.foldl add start)

theorem foldGroups_eq : foldGroups key add start l =
    (distinct (l.map key)).map fun k => (k, (l.filter (key · = k)).foldl add start) := List.map_map

theorem keys_foldGroups : (foldGroups key add start l).keys = distinct (l.map key) := by
  rw [foldGroups_eq, Entries.keys, List.map_map]
  exact List.map_id _

theorem get?_foldGroups (k : Text) : (foldGroups key add start l).get? k =
    if k ∈ l.map key then some ((l.filter (key · = k)).foldl add start) else none := by
  rw [foldGroups_eq, Entries.get?_map_keys]
  simp only [mem_distinct]

theorem getD_foldGroups (k : Text) : ((foldGroups key add start l).get? k).getD start =
    (l.filter (key · = k)).foldl add start := by
  rw [get?_foldGroups]
  split
  · rfl
  · next hnew =>
    have hnone : l.filter (key · = k) = [] := by
      rw [List.filter_eq_nil_iff]
      intro b hb hbk
      exact hnew (of_decide_eq_true hbk ▸ List.mem_map_of_mem hb)
    rw [hnone]
    rfl

theorem foldGroups_concat (l : List α) (a : α) : foldGroups key add start (l ++ [a]) =
    (foldGroups key add start l).put (key a)
      (add (((foldGroups key add start l).get? (key a)).getD start) a) := by
  rw [getD_foldGroups]
  refine Entries.eq_of_keys_eq ?_ ?_ ?_
  · rw [Entries.Distinct, keys_foldGroups]
    exact nodup_distinct _
  · rw [Entries.keys_put, keys_foldGroups, keys_foldGroups, List.map_append, List.map_singleton,
      distinct_concat]
    by_cases ha : key a ∈ l.map key
    · rw [if_pos (mem_distinct.2 ha), if_pos ha]
    · rw [if_neg (mt mem_distinct.1 ha), if_neg ha]
  · intro k
    rw [Entries.get?_put, get?_foldGroups, get?_foldGroups, List.map_append, List.map_singleton,
      List.filter_append]
    by_cases hk : k = key a
    · subst hk
      simp
    · simp [hk, Ne.symm hk]

theorem foldl_put_eq_foldGroups (l : List α) :
    l.foldl (fun (es : Entries β) a => es.put (key a) (add ((es.get? (key a)).getD start) a)) [] =
      foldGroups key add start l := by
  induction l using List.reverseRecOn with
  | nil => rfl
  | append_singleton l a ih => rw [List.foldl_concat, ih, foldGroups_concat]

end Grouping

section Parse
variable {options name : Text} {params : Params} {nodes : List (Triple × Node)}

theorem foldl_fileMember (h : (nodes.map fun p => p.1.orIndex).Nodup) :
    nodes.foldl fileMember [] = nodes.map fun p => (p.1.orIndex, p.2) := by
  have hdistinct : Entries.Distinct (nodes.map fun p => (p.1.orIndex, p.2)) := by
    rw [Entries.Distinct, Entries.keys, List.map_map]
    exact h
  rw [← Entries.ofList_of_distinct hdistinct, Entries.ofList, Entries.merge, List.foldl_map]
  rfl

theorem nodup_fst_filter (h : (nodes.map Prod.fst).Nodup) (chosen : Triple × Node → Bool) :
    ((nodes.filter chosen).map Prod.fst).Nodup := h.sublist (List.filter_sublist.map Prod.fst)

theorem nodup_orIndices (h : (nodes.map Prod.fst).Nodup) (hname : ∀ p ∈ nodes, p.1.name = name)
    (index : Text) :
    ((nodes.filter (·.1.andIndex = index)).map fun p => p.1.orIndex).Nodup := by
  have hshare : ∀ p ∈ nodes.filter (·.1.andIndex = index), p.1 = ⟨name, index, p.1.orIndex⟩ := by
    rintro ⟨⟨name', index', orIndex⟩, node⟩ hp
    obtain ⟨hp, hindex⟩ := List.mem_filter.1 hp
    obtain rfl := hname _ hp
    obtain rfl := of_decide_eq_true hindex
    rfl
  have hdiffer := nodup_fst_filter h (·.1.andIndex = index)
  rw [List.Nodup, List.pairwise_map] at hdiffer ⊢
  refine hdiffer.imp_of_mem fun {p q} hp hq hne hor => hne ?_
  rw [hshare p hp, hshare q hq, hor]

theorem filterOf_foldl_fileConjunct (h : (nodes.map Prod.fst).Nodup)
    (hname : ∀ p ∈ nodes, p.1.name = name) :
    filterOf (nodes.foldl fileConjunct []) = assemble nodes := by
  have hindices : nodes.foldl fileConjunct [] =
      foldGroups (fun p : Triple × Node => p.1.andIndex) fileMember [] nodes :=
    foldl_put_eq_foldGroups nodes
  have hconjuncts : (nodes.foldl fileConjunct []).map (fun e => combine .or (e.2.map Prod.snd)) =
      (groupBy (·.1.andIndex) nodes).map fun g => combine .or (g.2.map Prod.snd) := by
    rw [hindices, foldGroups, List.map_map]
    apply List.map_congr_left
    intro g hg
    obtain ⟨index, -, rfl⟩ := List.mem_map.1 hg
    rw [Function.comp_apply, foldl_fileMember (nodup_orIndices h hname index), List.map_map]
    rfl
  rw [filterOf, hconjuncts, assemble]

theorem filters_filed (h : (nodes.map Prod.fst).Nodup) :
    (filed nodes).filters = (groupBy (·.1.name) nodes).map fun g => (g.1, assemble g.2) := by
  have hnames : filed nodes =
      foldGroups (fun p : Triple × Node => p.1.name) fileConjunct [] nodes :=
    foldl_put_eq_foldGroups nodes
  rw [hnames, Filing.filters, foldGroups, List.map_map]
  apply List.map_congr_left
  intro g hg
  obtain ⟨name, -, rfl⟩ := List.mem_map.1 hg
  have hname : ∀ p ∈ nodes.filter (·.1.name = name), p.1.name = name :=
    fun p hp => of_decide_eq_true (List.mem_filter.1 hp).2
  exact congrArg (Prod.mk name) (filterOf_foldl_fileConjunct (nodup_fst_filter h _) hname)

/-- The leaves that a parse has filed when it has come some way through the sorted triples, whether it
ends well or breaks off later. -/
def FiledOnTheWay [Host] (options : Text) (params : Params) (nodes : List (Triple × Node)) : Prop :=
  ∃ ts before, sortedTriples params = .ok ts ∧ before <+: ts ∧
    leaves options params (complete params before) = .ok nodes

theorem FiledOnTheWay.nodup [Host] (h : FiledOnTheWay options params nodes) :
    (nodes.map Prod.fst).Nodup := by
  obtain ⟨ts, before, hts, hbefore, hnodes⟩ := h
  have hnodup : ts.Nodup := (perm_sortedTriples hts).nodup_iff.2 (nodup_triples params)
  rw [(leaves_eq_ok hnodes).1]
  exact hnodup.sublist ((complete_sublist params before).trans hbefore.sublist)

theorem exists_filed_of_parse [Host] {filters : Filters} (h : parse options params = .ok filters) :
    ∃ ts nodes, sortedTriples params = .ok ts ∧
      leaves options params (complete params ts) = .ok nodes ∧ filters = (filed nodes).filters := by
  simp only [parse, bind_eq_ok, mapError_eq_ok, pure, Except.pure, Except.ok.injEq] at h
  obtain ⟨ts, hts, nodes, hnodes, rfl⟩ := h
  have hway : FiledOnTheWay options params nodes := ⟨ts, ts, hts, List.prefix_rfl, hnodes⟩
  exact ⟨ts, nodes, hts, hnodes, (filters_filed hway.nodup).symm⟩

end Parse

/-- A triple and an attribute are read back from their key, and in no other way can the key be taken
apart. So two triples never look up the same parameter, and every leaf of a parse is filed where no
other leaf is or will be. When the parse ends well, the filters are what has been filed. -/
theorem keys_and_places_apart [Host] :
    (∀ t : Triple, t.IsProper → ∀ a, splitKey? (t.key a) = some (t, a) ∧
      ∀ s b, s.IsKey b (t.key a) → s = t ∧ b = a) ∧
    (∀ s t : Triple, s.IsProper → t.IsProper → s ≠ t → ∀ a b, s.key a ≠ t.key b) ∧
    (∀ options params nodes, FiledOnTheWay options params nodes →
      (∀ before p rest, nodes = before ++ p :: rest → (filed before).leaf? p.1 = none) ∧
      ∀ t node, (filed nodes).leaf? t = some node ↔ (t, node) ∈ nodes) ∧
    ∀ options params filters, parse options params = .ok filters →
      ∃ ts nodes, sortedTriples params = .ok ts ∧
        leaves options params (complete params ts) = .ok nodes ∧
        filters = (filed nodes).filters := by
  refine ⟨?_, ?_, ?_, ?_⟩
  · intro t ht a
    have hsplit := ht.splitKey?_key a
    refine ⟨hsplit, ?_⟩
    intro s b hkey
    have hread := splitKey?_eq_some_iff.2 hkey
    rw [hsplit, Option.some.injEq, Prod.mk.injEq] at hread
    exact ⟨hread.1.symm, hread.2.symm⟩
  · intro s t hs ht hne a b hkey
    exact hne (hs.key_injective ht hkey).1
  · intro options params nodes hway
    refine ⟨?_, fun t node => leaf?_filed_eq_some_iff hway.nodup⟩
    rintro before p rest rfl
    have hnodup := hway.nodup
    rw [List.map_append, List.map_cons, List.nodup_append] at hnodup
    refine leaf?_filed_of_not_mem hnodup.1 fun hp => ?_
    exact hnodup.2.2 _ hp _ List.mem_cons_self rfl
  · intro options params filters h
    exact exists_filed_of_parse h

def brokenLines : Params :=
  [(Triple.key ⟨['a', '\n'], ['0'], ['\n']⟩ .field, [['x']]),
    (Triple.key ⟨['a', '\n'], ['0'], ['0', '\n']⟩ .field, [['y']]),
    (Triple.key ⟨['a'], ['\n', '0'], ['\n']⟩ .field, [['z']])]

theorem keys_and_places_apart_brokenLines :
    Triple.IsProper ⟨['a', '\n'], ['0'], ['\n']⟩ ∧ Triple.IsProper ⟨['a'], ['\n', '0'], ['\n']⟩ ∧
      splitKey? "a\n[0][\n][field]".toList = some (⟨['a', '\n'], ['0'], ['\n']⟩, .field) ∧
      (∀ a b, Triple.key ⟨['a', '\n'], ['0'], ['\n']⟩ a ≠ Triple.key ⟨['a'], ['\n', '0'], ['\n']⟩ b) ∧
      ∃ filters nodes, parse defaultOptions brokenLines = .ok filters ∧
        filters.map (fun e => (e.1, e.2.node.leaves.length)) = [(['a', '\n'], 2), (['a'], 1)] ∧
        FiledOnTheWay defaultOptions brokenLines nodes ∧ filters = (filed nodes).filters ∧
        ∀ t node, (filed nodes).leaf? t = some node ↔ (t, node) ∈ nodes := by
  have hproper : Triple.IsProper ⟨['a', '\n'], ['0'], ['\n']⟩ := by decide
  have hproper' : Triple.IsProper ⟨['a'], ['\n', '0'], ['\n']⟩ := by decide
  have hparse : parse defaultOptions brokenLines = .ok
      [(['a', '\n'], ⟨[.logical .or [.leaf .eq ['x'] (.text []), .leaf .eq ['y'] (.text [])]]⟩),
        (['a'], ⟨[.leaf .eq ['z'] (.text [])]⟩)] := by
    decide +kernel
  obtain ⟨hsplit, hapart, hplaces, hfilters⟩ := keys_and_places_apart
  obtain ⟨ts, nodes, hts, hnodes, hfiled⟩ := hfilters _ _ _ hparse
  have hway : FiledOnTheWay defaultOptions brokenLines nodes := ⟨ts, ts, hts, List.prefix_rfl, hnodes⟩
  exact ⟨hproper, hproper', (hsplit _ hproper .field).1, hapart _ _ hproper hproper' (by decide),
    _, nodes, hparse, rfl, hway, hfiled, (hplaces _ _ _ hway).2⟩

end FindQuery.Group
