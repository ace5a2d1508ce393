import Mathlib.Data.List.Forall2
import Mathlib.Data.List.Nodup
import FindQuery.Proofs.Entries
import FindQuery.Proofs.Group.Order

/-! Where the conditions of a request stand in its filters. -/

namespace FindQuery

mutual

def Node.leaves : Node → List Node
  | .leaf operator field value => [.leaf operator field value]
  | .logical _ children => Node.leavesOfAll children
  | .filter members => Node.leavesOfAll members
  | .other _ => []

def Node.leavesOfAll : List Node → List Node
  | [] => []
  | node :: rest => node.leaves ++ Node.leavesOfAll rest

end

def Filter.conjuncts (f : Filter) : List Node :=
  match f.members with
  | [.logical .and children] => children
  | members => members

theorem Node.leavesOfAll_eq (nodes : List Node) :
    Node.leavesOfAll nodes = (nodes.map Node.leaves).flatten := by
  induction nodes with
  | nil => rfl
  | cons node rest ih => rw [Node.leavesOfAll, ih, List.map_cons, List.flatten_cons]

theorem Filter.leaves_node (f : Filter) :
    f.node.leaves = (f.conjuncts.map Node.leaves).flatten := by
  rw [Filter.node, Node.leaves, Filter.conjuncts]
  split
  · next children h =>
    rw [h, Node.leavesOfAll, Node.leaves, Node.leavesOfAll, List.append_nil, Node.leavesOfAll_eq]
  · exact Node.leavesOfAll_eq _

namespace Group

/-- A condition that is complete: a key of it is there, its first field is not empty, and its first
code is known. -/
structure Triple.IsKept (params : Params) (t : Triple) : Prop where
  seen : ∃ key ∈ params.keys, t.HasKey key
  field : params.first (t.key .field) ≠ []
  code : ∃ operator, Condition.operator? (params.first (t.key .condition)) = some operator

inductive Triple.Builds [Host] (options : Text) (params : Params) (t : Triple) : Node → Prop
  | pattern : Condition.operator? (params.first (t.key .condition)) = some .regex →
      Builds options params t (.leaf .regex (params.first (t.key .field))
        (.pattern ⟨params.first (t.key .value), options⟩))
  | value {operator : Operator} {v : Value} :
      Condition.operator? (params.first (t.key .condition)) = some operator →
      operator ≠ .regex → Coerce.value operator (params.first (t.key .value)) = .ok v →
      Builds options params t (.leaf operator (params.first (t.key .field)) v)

theorem Triple.operator_eq_ok {params : Params} {t : Triple} {o : Operator} :
    t.operator params = .ok o ↔ params.first (t.key .field) ≠ [] ∧
      Condition.operator? (params.first (t.key .condition)) = some o := by
  unfold Triple.operator Triple.rawField Triple.rawCode
  by_cases hf : params.first (t.key .field) = []
  · simp [hf]
  · rw [if_neg hf]
    split
    · next hnone => simp [hnone]
    · next o' hsome => simp [hsome, hf]

theorem Triple.builds_of_leaf [Host] {options : Text} {params : Params} {t : Triple} {o : Operator}
    {node : Node} (ho : t.operator params = .ok o)
    (h : leaf options params t o = .ok node) : t.Builds options params node := by
  have hcode := (Triple.operator_eq_ok.1 ho).2
  unfold leaf at h
  split at h
  · obtain rfl := Except.ok.inj h
    exact .pattern hcode
  · next hne =>
    obtain ⟨v, hv, rfl⟩ := map_eq_ok.1 h
    exact .value hcode hne hv

theorem Triple.Builds.leaves_eq [Host] {options : Text} {params : Params} {t : Triple} {node : Node}
    (h : t.Builds options params node) : node.leaves = [node] := by
  cases h with
  | pattern hcode => rfl
  | value hcode hne hv => rfl

theorem mem_complete {params : Params} {ts : List Triple} {t : Triple} {o : Operator} :
    (t, o) ∈ complete params ts ↔ t ∈ ts ∧ t.operator params = .ok o := by
  simp only [complete, List.mem_filterMap, Option.map_eq_some_iff, Prod.mk.injEq]
  constructor
  · rintro ⟨s, hs, o', ho, rfl, rfl⟩
    refine ⟨hs, ?_⟩
    cases hop : s.operator params with
    | error d =>
      rw [hop] at ho
      exact nomatch ho
    | ok o'' =>
      rw [hop] at ho
      rw [Option.some.inj ho]
  · rintro ⟨ht, ho⟩
    exact ⟨t, ht, o, by rw [ho]; rfl, rfl, rfl⟩

theorem complete_sublist (params : Params) (ts : List Triple) :
    ((complete params ts).map Prod.fst).Sublist ts := by
  induction ts with
  | nil => exact List.Sublist.refl _
  | cons t rest ih =>
    unfold complete at ih ⊢
    cases hop : t.operator params with
    | error d =>
      rw [List.filterMap_cons_none (by rw [hop]; rfl)]
      exact ih.cons t
    | ok o =>
      rw [List.filterMap_cons_some (b := (t, o)) (by rw [hop]; rfl)]
      exact ih.cons_cons t

theorem leaves_eq_mapM [Host] {options : Text} {params : Params} {cs : List (Triple × Operator)} :
    leaves options params cs =
      cs.mapM fun c => (leaf options params c.1 c.2).map (c.1, ·) := by
  induction cs with
  | nil => rfl
  | cons c rest ih =>
    obtain ⟨t, o⟩ := c
    rw [leaves, List.mapM_cons, ih]
    cases leaf options params t o <;> rfl

theorem leaves_eq_ok [Host] {options : Text} {params : Params} {cs : List (Triple × Operator)}
    {nodes : List (Triple × Node)} (h : leaves options params cs = .ok nodes) :
    nodes.map Prod.fst = cs.map Prod.fst ∧
      ∀ p ∈ nodes, ∃ o, (p.1, o) ∈ cs ∧ leaf options params p.1 o = .ok p.2 := by
  rw [leaves_eq_mapM] at h
  induction mapM_eq_ok.1 h with
  | nil => exact ⟨rfl, fun p hp => nomatch hp⟩
  | @cons c p rest others hnode hrest ih =>
    obtain ⟨node, hleaf, rfl⟩ := map_eq_ok.1 hnode
    obtain ⟨hmap, hmem⟩ := ih (mapM_eq_ok.2 hrest)
    refine ⟨by rw [List.map_cons, List.map_cons, hmap], ?_⟩
    intro p hp
    rcases List.mem_cons.1 hp with rfl | hp
    · exact ⟨c.2, List.mem_cons_self, hleaf⟩
    · obtain ⟨o, ho, hread⟩ := hmem p hp
      exact ⟨o, List.mem_cons_of_mem _ ho, hread⟩

structure Conditions [Host] (options : Text) (params : Params) (nodes : List (Triple × Node)) : Prop where
  builds : ∀ p ∈ nodes, p.1.Builds options params p.2
  mem_iff : ∀ t, t ∈ nodes.map Prod.fst ↔ t.IsKept params
  nodup : (nodes.map Prod.fst).Nodup
  sorted : (nodes.map Prod.fst).Pairwise (Triple.Precedes params)

theorem parse_eq_ok [Host] {options : Text} {params : Params} {filters : Filters}
    (h : parse options params = .ok filters) :
    ∃ nodes, Conditions options params nodes ∧
      filters = (groupBy (·.1.name) nodes).map fun g => (g.1, assemble g.2) := by
  simp only [parse, bind_eq_ok, mapError_eq_ok, pure, Except.pure, Except.ok.injEq] at h
  obtain ⟨ts, hts, nodes, hnodes, rfl⟩ := h
  obtain ⟨hperm, hsorted⟩ := sortedTriples_eq_ok hts
  obtain ⟨hmap, hmem⟩ := leaves_eq_ok hnodes
  have hsub : (nodes.map Prod.fst).Sublist ts := hmap ▸ complete_sublist params ts
  refine ⟨nodes, ⟨?_, ?_, ?_, hsorted.sublist hsub⟩, rfl⟩
  · intro p hp
    obtain ⟨o, ho, hleaf⟩ := hmem p hp
    exact Triple.builds_of_leaf (mem_complete.1 ho).2 hleaf
  · intro t
    rw [hmap, List.mem_map]
    constructor
    · rintro ⟨⟨s, o⟩, ho, rfl⟩
      obtain ⟨hs, hop⟩ := mem_complete.1 ho
      obtain ⟨hfield, hcode⟩ := Triple.operator_eq_ok.1 hop
      exact ⟨mem_triples.1 (hperm.mem_iff.1 hs), hfield, o, hcode⟩
    · rintro ⟨hseen, hfield, o, hcode⟩
      have ht : t ∈ ts := hperm.mem_iff.2 (mem_triples.2 hseen)
      exact ⟨(t, o), mem_complete.2 ⟨ht, Triple.operator_eq_ok.2 ⟨hfield, hcode⟩⟩, rfl⟩
  · exact (hperm.nodup_iff.2 (nodup_triples params)).sublist hsub

/-- A filter whose leaves are the complete conditions of a name, each once, taken apart into the
triples of its conjuncts. -/
structure Arranged [Host] (options : Text) (params : Params) (name : Text) (f : Filter)
    (conjuncts : List (List Triple)) : Prop where
  built : List.Forall₂ (List.Forall₂ (Triple.Builds options params)) conjuncts
    (f.conjuncts.map Node.leaves)
  leaves : List.Forall₂ (Triple.Builds options params) conjuncts.flatten f.node.leaves
  kept : ∀ t, t ∈ conjuncts.flatten ↔ t.IsKept params ∧ t.name = name
  once : conjuncts.flatten.Nodup
  nonempty : ∀ c ∈ conjuncts, c ≠ []
  together : ∀ c ∈ conjuncts, ∀ s ∈ c, ∀ t ∈ c, s.andIndex = t.andIndex
  apart : conjuncts.Pairwise fun c d => ∀ s ∈ c, ∀ t ∈ d, s.andIndex ≠ t.andIndex
  membersSorted : ∀ c ∈ conjuncts, c.Pairwise fun s t => IndexLe s.orIndex t.orIndex ∧
    (IndexLe t.orIndex s.orIndex → s.place params < t.place params)
  conjunctsSorted : conjuncts.Pairwise fun c d => ∀ s ∈ c, ∀ t ∈ d,
    IndexLe s.andIndex t.andIndex

section Assembly
variable {options : Text} {params : Params} {conditions : List (Triple × Node)}

def sharing (conditions : List (Triple × Node)) (index : Text) : List (Triple × Node) :=
  conditions.filter (·.1.andIndex = index)

def andIndices (conditions : List (Triple × Node)) : List Text :=
  distinct (conditions.map (·.1.andIndex))

theorem mem_sharing {index : Text} {p : Triple × Node} :
    p ∈ sharing conditions index ↔ p ∈ conditions ∧ p.1.andIndex = index := by
  simp [sharing]

theorem sharing_ne_nil {index : Text} (h : index ∈ andIndices conditions) :
    sharing conditions index ≠ [] := by
  obtain ⟨p, hp, rfl⟩ := List.mem_map.1 (mem_distinct.1 h)
  exact List.ne_nil_of_mem (mem_sharing.2 ⟨hp, rfl⟩)

theorem leaves_combine_or {nodes : List Node} (h : ∀ node ∈ nodes, node.leaves = [node]) :
    (combine .or nodes).leaves = nodes := by
  have hall : Node.leavesOfAll nodes = nodes := by
    induction nodes with
    | nil => rfl
    | cons node rest ih =>
      rw [Node.leavesOfAll, h node List.mem_cons_self,
        ih fun n hn => h n (List.mem_cons_of_mem _ hn)]
      rfl
  unfold combine
  split
  · next node => exact h node List.mem_cons_self
  · exact hall

theorem leaves_of_mem_sharing [Host] (h : ∀ p ∈ conditions, p.1.Builds options params p.2)
    {index : Text} {node : Node} (hn : node ∈ (sharing conditions index).map Prod.snd) :
    node.leaves = [node] := by
  obtain ⟨p, hp, rfl⟩ := List.mem_map.1 hn
  exact (h p (mem_sharing.1 hp).1).leaves_eq

theorem combine_or_ne_and [Host] (h : ∀ p ∈ conditions, p.1.Builds options params p.2) (index : Text)
    (children : List Node) :
    combine .or ((sharing conditions index).map Prod.snd) ≠ .logical .and children := by
  intro heq
  unfold combine at heq
  split at heq
  · next node hnode =>
    have hmem : node ∈ (sharing conditions index).map Prod.snd := by
      rw [hnode]
      exact List.mem_cons_self
    have hleaf : node.leaves = [node] := leaves_of_mem_sharing h hmem
    subst heq
    obtain ⟨p, hp, hp2⟩ := List.mem_map.1 (hnode ▸ List.mem_cons_self :
      Node.logical .and children ∈ (sharing conditions index).map Prod.snd)
    have hb := h p (mem_sharing.1 hp).1
    rw [hp2] at hb
    exact nomatch hb
  · exact nomatch heq

theorem conjuncts_assemble [Host] (h : ∀ p ∈ conditions, p.1.Builds options params p.2) :
    (assemble conditions).conjuncts = (andIndices conditions).map fun index =>
      combine .or ((sharing conditions index).map Prod.snd) := by
  have hgroups : (groupBy (·.1.andIndex) conditions).map
      (fun g => combine .or (g.2.map Prod.snd)) = (andIndices conditions).map fun index =>
        combine .or ((sharing conditions index).map Prod.snd) := by
    rw [groupBy, List.map_map]
    rfl
  unfold assemble
  rw [hgroups]
  cases hc : andIndices conditions with
  | nil => rfl
  | cons index rest =>
    cases rest with
    | nil =>
      have hne := combine_or_ne_and h index
      simp only [List.map_cons, List.map_nil, combine, Filter.conjuncts]
      split
      · next children heq => exact absurd (List.cons.inj heq).1 (hne children)
      · rfl
    | cons index' rest => rfl

theorem forall₂_sharing [Host] (h : ∀ p ∈ conditions, p.1.Builds options params p.2) (index : Text) :
    List.Forall₂ (Triple.Builds options params) ((sharing conditions index).map Prod.fst)
      ((sharing conditions index).map Prod.snd) := by
  rw [List.forall₂_map_left_iff, List.forall₂_map_right_iff, List.forall₂_same]
  exact fun p hp => h p (mem_sharing.1 hp).1

theorem flatten_forall₂ {α β : Type} {R : α → β → Prop} {as : List (List α)} {bs : List (List β)}
    (h : List.Forall₂ (List.Forall₂ R) as bs) : List.Forall₂ R as.flatten bs.flatten := by
  induction h with
  | nil => exact .nil
  | cons hab _ ih => exact List.rel_append hab ih

def arrangement (conditions : List (Triple × Node)) : List (List Triple) :=
  (andIndices conditions).map fun index => (sharing conditions index).map Prod.fst

theorem mem_sharing_triples {index : Text} {t : Triple} :
    t ∈ (sharing conditions index).map Prod.fst ↔
      t ∈ conditions.map Prod.fst ∧ t.andIndex = index := by
  simp only [List.mem_map, mem_sharing]
  constructor
  · rintro ⟨p, ⟨hp, rfl⟩, rfl⟩
    exact ⟨⟨p, hp, rfl⟩, rfl⟩
  · rintro ⟨⟨p, hp, rfl⟩, rfl⟩
    exact ⟨p, ⟨hp, rfl⟩, rfl⟩

theorem mem_flatten_arrangement {t : Triple} :
    t ∈ (arrangement conditions).flatten ↔ t ∈ conditions.map Prod.fst := by
  simp only [arrangement, List.mem_flatten, List.mem_map (f := fun index =>
    (sharing conditions index).map Prod.fst)]
  constructor
  · rintro ⟨_, ⟨index, -, rfl⟩, ht⟩
    exact (mem_sharing_triples.1 ht).1
  · intro ht
    refine ⟨_, ⟨t.andIndex, ?_, rfl⟩, mem_sharing_triples.2 ⟨ht, rfl⟩⟩
    obtain ⟨p, hp, rfl⟩ := List.mem_map.1 ht
    exact mem_distinct.2 (List.mem_map.2 ⟨p, hp, rfl⟩)

theorem sharing_sublist (index : Text) :
    ((sharing conditions index).map Prod.fst).Sublist (conditions.map Prod.fst) :=
  List.filter_sublist.map Prod.fst

theorem apart_arrangement : (arrangement conditions).Pairwise fun c d =>
    ∀ s ∈ c, ∀ t ∈ d, s.andIndex ≠ t.andIndex := by
  rw [arrangement, List.pairwise_map]
  refine (nodup_distinct _).imp fun {i j} hij s hs t ht => ?_
  rw [(mem_sharing_triples.1 hs).2, (mem_sharing_triples.1 ht).2]
  exact hij

theorem nodup_flatten_arrangement (h : (conditions.map Prod.fst).Nodup) :
    (arrangement conditions).flatten.Nodup := by
  rw [List.nodup_flatten]
  constructor
  · intro c hc
    obtain ⟨index, -, rfl⟩ := List.mem_map.1 hc
    exact h.sublist (sharing_sublist index)
  · refine apart_arrangement.imp fun {c d} hcd t ht ht' => ?_
    exact hcd t ht t ht' rfl

theorem conjunctsSorted_arrangement (hname : ∀ s ∈ conditions.map Prod.fst,
      ∀ t ∈ conditions.map Prod.fst, s.name = t.name)
    (h : (conditions.map Prod.fst).Pairwise (Triple.Precedes params)) :
    (arrangement conditions).Pairwise fun c d =>
      ∀ s ∈ c, ∀ t ∈ d, IndexLe s.andIndex t.andIndex := by
  have hindices : (conditions.map (·.1.andIndex)).Pairwise IndexLe := by
    have hmap : conditions.map (·.1.andIndex) =
        (conditions.map Prod.fst).map Triple.andIndex := by
      rw [List.map_map]
      rfl
    rw [hmap, List.pairwise_map]
    exact h.imp_of_mem fun hs ht hst => hst.and_le (hname _ hs _ ht)
  rw [arrangement, List.pairwise_map]
  refine (hindices.sublist (distinct_sublist _)).imp fun {i j} hij s hs t ht => ?_
  rw [(mem_sharing_triples.1 hs).2, (mem_sharing_triples.1 ht).2]
  exact hij

theorem membersSorted_arrangement (hname : ∀ s ∈ conditions.map Prod.fst,
      ∀ t ∈ conditions.map Prod.fst, s.name = t.name)
    (h : (conditions.map Prod.fst).Pairwise (Triple.Precedes params))
    {c : List Triple} (hc : c ∈ arrangement conditions) :
    c.Pairwise fun s t => IndexLe s.orIndex t.orIndex ∧
      (IndexLe t.orIndex s.orIndex → s.place params < t.place params) := by
  obtain ⟨index, -, rfl⟩ := List.mem_map.1 hc
  refine (h.sublist (sharing_sublist index)).imp_of_mem fun {s t} hs ht hst => ?_
  obtain ⟨hs, hsi⟩ := mem_sharing_triples.1 hs
  obtain ⟨ht, hti⟩ := mem_sharing_triples.1 ht
  have hn := hname s hs t ht
  have hi := hsi.trans hti.symm
  exact ⟨hst.or_le hn hi, hst.tied hn hi⟩

theorem mem_map_filter_name {name : Text} {t : Triple} :
    t ∈ (conditions.filter (·.1.name = name)).map Prod.fst ↔
      t ∈ conditions.map Prod.fst ∧ t.name = name := by
  simp only [List.mem_map, List.mem_filter, decide_eq_true_eq]
  constructor
  · rintro ⟨p, ⟨hp, rfl⟩, rfl⟩
    exact ⟨⟨p, hp, rfl⟩, rfl⟩
  · rintro ⟨⟨p, hp, rfl⟩, rfl⟩
    exact ⟨p, ⟨hp, rfl⟩, rfl⟩

theorem arranged_assemble [Host] {nodes : List (Triple × Node)} (h : Conditions options params nodes)
    (name : Text) :
    Arranged options params name (assemble (nodes.filter (·.1.name = name)))
      (arrangement (nodes.filter (·.1.name = name))) := by
  have hsub : ((nodes.filter (·.1.name = name)).map Prod.fst).Sublist (nodes.map Prod.fst) :=
    List.filter_sublist.map Prod.fst
  have hbuilds : ∀ p ∈ nodes.filter (·.1.name = name), p.1.Builds options params p.2 :=
    fun p hp => h.builds p (List.mem_filter.1 hp).1
  have hname : ∀ s ∈ (nodes.filter (·.1.name = name)).map Prod.fst,
      ∀ t ∈ (nodes.filter (·.1.name = name)).map Prod.fst, s.name = t.name := by
    intro s hs t ht
    rw [(mem_map_filter_name.1 hs).2, (mem_map_filter_name.1 ht).2]
  have hsorted := h.sorted.sublist hsub
  have hbuilt : List.Forall₂ (List.Forall₂ (Triple.Builds options params))
      (arrangement (nodes.filter (·.1.name = name)))
      ((assemble (nodes.filter (·.1.name = name))).conjuncts.map Node.leaves) := by
    rw [conjuncts_assemble hbuilds, arrangement, List.map_map, List.forall₂_map_left_iff,
      List.forall₂_map_right_iff, List.forall₂_same]
    intro index _
    rw [Function.comp_apply, leaves_combine_or fun node => leaves_of_mem_sharing hbuilds]
    exact forall₂_sharing hbuilds index
  refine ⟨hbuilt, ?_, ?_, nodup_flatten_arrangement (h.nodup.sublist hsub), ?_, ?_,
    apart_arrangement, fun c hc => membersSorted_arrangement hname hsorted hc,
    conjunctsSorted_arrangement hname hsorted⟩
  · rw [Filter.leaves_node]
    exact flatten_forall₂ hbuilt
  · intro t
    rw [mem_flatten_arrangement, mem_map_filter_name, h.mem_iff]
  · intro c hc
    obtain ⟨index, hindex, rfl⟩ := List.mem_map.1 hc
    intro hnil
    exact sharing_ne_nil hindex (List.map_eq_nil_iff.1 hnil)
  · intro c hc s hs t ht
    obtain ⟨index, -, rfl⟩ := List.mem_map.1 hc
    rw [(mem_sharing_triples.1 hs).2, (mem_sharing_triples.1 ht).2]

end Assembly

theorem named_eq_assemble (nodes : List (Triple × Node)) (name : Text) :
    Filters.named ((groupBy (·.1.name) nodes).map fun g => (g.1, assemble g.2)) name =
      assemble (nodes.filter (·.1.name = name)) := by
  have hgroups : ((groupBy (·.1.name) nodes).map fun g => (g.1, assemble g.2)) =
      (distinct (nodes.map (·.1.name))).map fun k =>
        (k, assemble (nodes.filter (·.1.name = k))) := by
    rw [groupBy, List.map_map]
    rfl
  rw [Filters.named, hgroups, Entries.get?_map_keys]
  split
  · rfl
  · next hn =>
    have hnil : nodes.filter (·.1.name = name) = [] := by
      rw [List.filter_eq_nil_iff]
      intro p hp hpn
      exact hn (mem_distinct.2 (List.mem_map.2 ⟨p, hp, of_decide_eq_true hpn⟩))
    rw [hnil]
    rfl

theorem exists_named_eq_assemble [Host] {options : Text} {params : Params} {filters : Filters}
    (h : parse options params = .ok filters) (name : Text) :
    ∃ conditions, filters.named name = assemble conditions ∧
      (∀ p ∈ conditions, p.1.Builds options params p.2) ∧
      ∀ t, t ∈ conditions.map Prod.fst ↔ t.IsKept params ∧ t.name = name := by
  obtain ⟨nodes, hnodes, rfl⟩ := parse_eq_ok h
  refine ⟨_, named_eq_assemble nodes name, ?_, ?_⟩
  · exact fun p hp => hnodes.builds p (List.mem_filter.1 hp).1
  · intro t
    rw [mem_map_filter_name, hnodes.mem_iff]

/-- Grouping loses nothing, repeats nothing, and keeps order: the filter of each name holds exactly
the complete conditions of that name as its leaves, and the names with such conditions come in the
order of their first keys. -/
theorem exists_arranged_of_parse [Host] {options : Text} {params : Params} {filters : Filters}
    (h : parse options params = .ok filters) :
    (∀ name, ∃ conjuncts, Arranged options params name (filters.named name) conjuncts) ∧
      (∀ name, name ∈ filters.keys ↔ ∃ t : Triple, t.IsKept params ∧ t.name = name) ∧
      filters.keys.Pairwise fun m n => namePlace params m < namePlace params n := by
  obtain ⟨nodes, hnodes, rfl⟩ := parse_eq_ok h
  have hkeys : Entries.keys ((groupBy (·.1.name) nodes).map fun g => (g.1, assemble g.2)) =
      distinct ((nodes.map Prod.fst).map Triple.name) := by
    rw [Entries.keys, groupBy, List.map_map, List.map_map, List.map_map]
    exact List.map_id _
  refine ⟨?_, ?_, ?_⟩
  · intro name
    rw [named_eq_assemble]
    exact ⟨_, arranged_assemble hnodes name⟩
  · intro name
    rw [hkeys, mem_distinct, List.mem_map]
    constructor
    · rintro ⟨t, ht, rfl⟩
      exact ⟨t, (hnodes.mem_iff t).1 ht, rfl⟩
    · rintro ⟨t, ht, rfl⟩
      exact ⟨t, (hnodes.mem_iff t).2 ht, rfl⟩
  · rw [hkeys]
    have hnames : ((nodes.map Prod.fst).map Triple.name).Pairwise fun m n =>
        m ≠ n → namePlace params m < namePlace params n := by
      rw [List.pairwise_map]
      exact hnodes.sorted.imp fun hst => hst.name_lt
    have hdistinct := (hnames.sublist (distinct_sublist _)).and (nodup_distinct _)
    exact hdistinct.imp fun hmn => hmn.1 hmn.2

def tiedIndices : Params :=
  [(Triple.key ⟨['g'], ['x'], ['0']⟩ .field, [[]]),
    (Triple.key ⟨['f'], ['0', '0'], ['1']⟩ .field, [['a']]),
    (Triple.key ⟨['f'], ['0'], ['0', '0']⟩ .field, [['b']]),
    (Triple.key ⟨['f'], ['0'], ['0']⟩ .field, [['c']]),
    (Triple.key ⟨['f'], ['0', '0'], ['0']⟩ .field, [['d']])]

theorem exists_arranged_of_tiedIndices :
    parse defaultOptions tiedIndices = .ok [(['f'], ⟨[.logical .and
        [.logical .or [.leaf .eq ['b'] (.text []), .leaf .eq ['c'] (.text [])],
          .logical .or [.leaf .eq ['d'] (.text []), .leaf .eq ['a'] (.text [])]]]⟩)] ∧
      ∃ conjuncts, Arranged defaultOptions tiedIndices ['f'] ⟨[.logical .and
        [.logical .or [.leaf .eq ['b'] (.text []), .leaf .eq ['c'] (.text [])],
          .logical .or [.leaf .eq ['d'] (.text []), .leaf .eq ['a'] (.text [])]]]⟩ conjuncts := by
  have h : parse defaultOptions tiedIndices = .ok [(['f'], ⟨[.logical .and
      [.logical .or [.leaf .eq ['b'] (.text []), .leaf .eq ['c'] (.text [])],
        .logical .or [.leaf .eq ['d'] (.text []), .leaf .eq ['a'] (.text [])]]]⟩)] := by
    decide +kernel
  exact ⟨h, (exists_arranged_of_parse h).1 ['f']⟩

end Group
end FindQuery
