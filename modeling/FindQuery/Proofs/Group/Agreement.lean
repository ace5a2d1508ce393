import FindQuery.Proofs.Group.Failure

/-! What a parse reads: triples as first seen, and the first values under their keys. -/

namespace FindQuery.Group

def Triple.Agrees (params params' : Params) (t : Triple) : Prop :=
  ∀ a, params.first (t.key a) = params'.first (t.key a)

def conditionsOf [Host] (options : Text) (params : Params) (ts : List Triple) :
    Except DateText.PrecisionError (List (Triple × Node)) :=
  leaves options params (complete params ts)

section Agreement
variable {options : Text} {params params' : Params}

theorem Triple.Agrees.operator_eq {t : Triple} (h : t.Agrees params params') :
    t.operator params = t.operator params' := by
  unfold Triple.operator Triple.rawField Triple.rawCode
  rw [h .field, h .condition]

theorem Triple.Agrees.leaf_eq [Host] {t : Triple} (h : t.Agrees params params') (operator : Operator) :
    leaf options params t operator = leaf options params' t operator := by
  unfold leaf Triple.rawField Triple.rawValue
  rw [h .field, h .value]

theorem complete_congr {ts : List Triple} (h : ∀ t ∈ ts, t.Agrees params params') :
    complete params ts = complete params' ts := by
  unfold complete
  apply List.filterMap_congr
  intro t ht
  rw [(h t ht).operator_eq]

theorem leaves_congr [Host] {cs : List (Triple × Operator)} (h : ∀ c ∈ cs, c.1.Agrees params params') :
    leaves options params cs = leaves options params' cs := by
  induction cs with
  | nil => rfl
  | cons c rest ih =>
    have hhead := h c List.mem_cons_self
    have hrest := ih fun d hd => h d (List.mem_cons_of_mem c hd)
    rw [leaves, leaves, hhead.leaf_eq, hrest]

theorem conditionsOf_congr [Host] {ts : List Triple} (h : ∀ t ∈ ts, t.Agrees params params') :
    conditionsOf options params ts = conditionsOf options params' ts := by
  unfold conditionsOf
  rw [complete_congr h]
  apply leaves_congr
  rintro ⟨t, o⟩ hc
  exact h t (mem_complete.1 hc).1

theorem parse_congr [Host] (htriples : triples params = triples params')
    (h : ∀ t ∈ triples params, t.Agrees params params') :
    parse options params = parse options params' := by
  have hsorted : sortedTriples params = sortedTriples params' := by
    unfold sortedTriples
    rw [htriples]
  unfold parse
  rw [← hsorted]
  cases hts : sortedTriples params with
  | error cause => rfl
  | ok ts =>
    have hmem (t : Triple) (ht : t ∈ ts) : t.Agrees params params' :=
      h t ((perm_sortedTriples hts).mem_iff.1 ht)
    have hconditions : leaves options params (complete params ts) =
        leaves options params' (complete params' ts) := conditionsOf_congr hmem
    show ((leaves options params (complete params ts)).mapError ParseError.precision >>= _) = _
    rw [hconditions]
    rfl

theorem Triple.IsKept.of_agrees {t : Triple} (h : t.IsKept params)
    (hkeys : ∀ key ∈ params.keys, key ∈ params'.keys) (hagree : t.Agrees params params') :
    t.IsKept params' := by
  obtain ⟨⟨key, hkey, hhas⟩, hfield, hcode⟩ := h
  rw [hagree .field] at hfield
  rw [hagree .condition] at hcode
  exact ⟨⟨key, hkeys key hkey, hhas⟩, hfield, hcode⟩

theorem Triple.IsKept.isProper {t : Triple} (h : t.IsKept params) : t.IsProper := by
  obtain ⟨key, -, hhas⟩ := h.seen
  exact hhas.isProper

theorem fails_parse_of_agrees [Host] (hkeys : ∀ key ∈ params.keys, key ∈ params'.keys)
    (hagree : ∀ t : Triple, t.IsKept params → t.Agrees params params')
    (h : Fails (parse options params)) : Fails (parse options params') := by
  rw [fails_parse] at h ⊢
  rcases h with ⟨t, ⟨key, hkey, hhas⟩, hunordered⟩ | ⟨t, hkept, o, hcode, hvalue⟩
  · exact .inl ⟨t, ⟨key, hkeys key hkey, hhas⟩, hunordered⟩
  · have ht := hagree t hkept
    rw [ht .condition] at hcode
    rw [ht .value] at hvalue
    exact .inr ⟨t, hkept.of_agrees hkeys ht, o, hcode, hvalue⟩

end Agreement

section Restriction
variable {options : Text} {params : Params} (p : Triple → Bool)

theorem complete_filter (ts : List Triple) :
    complete params (ts.filter p) = (complete params ts).filter (p ·.1) := by
  unfold complete
  rw [List.filterMap_filter, List.filter_filterMap]
  apply List.filterMap_congr
  intro t _
  cases hop : (t.operator params).toOption with
  | none => simp
  | some o => by_cases hp : p t = true <;> simp [Option.filter, hp]

theorem leaves_filter [Host] {cs : List (Triple × Operator)} {nodes : List (Triple × Node)}
    (h : leaves options params cs = .ok nodes) :
    leaves options params (cs.filter (p ·.1)) = .ok (nodes.filter (p ·.1)) := by
  induction cs generalizing nodes with
  | nil =>
    obtain rfl := Except.ok.inj h
    rfl
  | cons c rest ih =>
    obtain ⟨t, o⟩ := c
    simp only [leaves, bind_eq_ok, pure, Except.pure, Except.ok.injEq] at h
    obtain ⟨node, hnode, others, hothers, rfl⟩ := h
    have hrest := ih hothers
    by_cases hp : p t = true
    · rw [List.filter_cons, List.filter_cons, if_pos hp, if_pos hp, leaves, hnode, hrest]
      rfl
    · rw [List.filter_cons, List.filter_cons, if_neg hp, if_neg hp, hrest]

theorem conditionsOf_filter [Host] {ts : List Triple} {nodes : List (Triple × Node)}
    (h : conditionsOf options params ts = .ok nodes) :
    conditionsOf options params (ts.filter p) = .ok (nodes.filter (p ·.1)) := by
  unfold conditionsOf
  rw [complete_filter]
  exact leaves_filter p h

end Restriction

theorem exists_conditionsOf_of_parse [Host] {options : Text} {params : Params} {filters : Filters}
    (h : parse options params = .ok filters) (name : Text) :
    ∃ ts nodes, sortedTriples params = .ok ts ∧
      conditionsOf options params (ts.filter (·.name = name)) = .ok nodes ∧
      filters.named name = assemble nodes := by
  simp only [parse, bind_eq_ok, mapError_eq_ok, pure, Except.pure, Except.ok.injEq] at h
  obtain ⟨ts, hts, nodes, hnodes, rfl⟩ := h
  have hown : conditionsOf options params (ts.filter (·.name = name)) =
      .ok (nodes.filter (·.1.name = name)) := conditionsOf_filter (·.name = name) hnodes
  exact ⟨ts, nodes.filter (·.1.name = name), hts, hown, named_eq_assemble nodes name⟩

def Triple.IndicesLe (s t : Triple) : Prop :=
  ∃ a b, rank [] s = .ok a ∧ rank [] t = .ok b ∧ a.le b = true

def ownTriples (params : Params) (name : Text) : List Triple :=
  (triples params).filter (·.name = name)

theorem mem_ownTriples {params : Params} {name : Text} {t : Triple} :
    t ∈ ownTriples params name ↔ (∃ key ∈ params.keys, t.HasKey key) ∧ t.name = name := by
  rw [ownTriples, List.mem_filter, mem_triples, decide_eq_true_eq]

def keptTriples (params : Params) (name : Text) : List Triple :=
  (ownTriples params name).filter fun t => (t.operator params).isOk

theorem conditionsOf_filter_isOk [Host] (options : Text) (params : Params) (ts : List Triple) :
    conditionsOf options params (ts.filter fun t => (t.operator params).isOk) =
      conditionsOf options params ts := by
  have hcomplete : complete params (ts.filter fun t => (t.operator params).isOk) = complete params ts := by
    unfold complete
    rw [List.filterMap_filter]
    apply List.filterMap_congr
    intro t _
    cases t.operator params with
    | error d => rfl
    | ok o => rfl
  rw [conditionsOf, hcomplete]
  rfl

theorem place_lt_of_pairwise {params params' : Params} {l : List Triple}
    (h : l.Pairwise fun s t => s.place params < t.place params)
    (h' : l.Pairwise fun s t => s.place params' < t.place params') {s t : Triple} (hs : s ∈ l) (ht : t ∈ l)
    (hlt : s.place params' < t.place params') : s.place params < t.place params := by
  obtain ⟨i, hi, rfl⟩ := List.getElem_of_mem hs
  obtain ⟨j, hj, rfl⟩ := List.getElem_of_mem ht
  rcases Nat.lt_trichotomy i j with hij | rfl | hij
  · exact List.pairwise_iff_getElem.1 h i j hi hj hij
  · exact absurd hlt (Nat.lt_irrefl _)
  · exact absurd (List.pairwise_iff_getElem.1 h' j i hj hi hij) (Nat.lt_asymm hlt)

theorem pairwise_ownTriples (params : Params) (name : Text) :
    (ownTriples params name).Pairwise fun s t => s.place params < t.place params :=
  (pairwise_triples params).filter _

theorem pairwise_keptTriples (params : Params) (name : Text) :
    (keptTriples params name).Pairwise fun s t => s.place params < t.place params :=
  (pairwise_ownTriples params name).filter _

theorem rank_nil {ns : List Text} {t : Triple} {a : Rank} (h : rank ns t = .ok a) :
    rank [] t = .ok ⟨0, a.andKey, a.orKey⟩ := by
  obtain ⟨-, hand, hor⟩ := rank_eq_ok.1 h
  exact rank_eq_ok.2 ⟨rfl, hand, hor⟩

theorem Rank.le_unnamed {a b : Rank} (h : a.name = b.name) :
    (Rank.mk 0 a.andKey a.orKey).le ⟨0, b.andKey, b.orKey⟩ = a.le b := by
  simp [le, h]

section Own
variable {params params' : Params} {ts ts' : List Triple} {name : Text}

theorem perm_filter_name (h : sortedTriples params = .ok ts) :
    (ts.filter (·.name = name)).Perm (ownTriples params name) := (perm_sortedTriples h).filter _

theorem pairwise_filter_name (h : sortedTriples params = .ok ts) :
    (ts.filter (·.name = name)).Pairwise fun s t =>
      s.IndicesLe t ∧ (t.IndicesLe s → s.place params < t.place params) := by
  refine ((pairwise_sortedTriples h).filter _).imp_of_mem fun {s t} hs ht hst => ?_
  obtain ⟨a, b, ha, hb, hle, htied⟩ := hst
  have hname : a.name = b.name := by
    rw [(rank_eq_ok.1 ha).1, (rank_eq_ok.1 hb).1, of_decide_eq_true (List.mem_filter.1 hs).2,
      of_decide_eq_true (List.mem_filter.1 ht).2]
  refine ⟨⟨_, _, rank_nil ha, rank_nil hb, ?_⟩, ?_⟩
  · rw [Rank.le_unnamed hname]
    exact hle
  · rintro ⟨b', a', hb', ha', hback⟩
    obtain rfl := Except.ok.inj ((rank_nil hb).symm.trans hb')
    obtain rfl := Except.ok.inj ((rank_nil ha).symm.trans ha')
    rw [Rank.le_unnamed hname.symm] at hback
    exact htied hback

theorem perm_filter_kept (h : sortedTriples params = .ok ts) :
    ((ts.filter (·.name = name)).filter fun t => (t.operator params).isOk).Perm
      (keptTriples params name) := (perm_filter_name h).filter _

theorem filter_kept_eq (h : sortedTriples params = .ok ts) (h' : sortedTriples params' = .ok ts')
    (hperm : (keptTriples params name).Perm (keptTriples params' name))
    (htied : ∀ s ∈ keptTriples params name, ∀ t ∈ keptTriples params name, s.IndicesLe t →
      t.IndicesLe s → s.place params' < t.place params' → s.place params < t.place params) :
    (ts.filter (·.name = name)).filter (fun t => (t.operator params).isOk) =
      (ts'.filter (·.name = name)).filter fun t => (t.operator params').isOk := by
  have hsame := (perm_filter_kept h).trans (hperm.trans (perm_filter_kept h').symm)
  have hmem : ∀ t ∈ (ts'.filter (·.name = name)).filter fun t => (t.operator params').isOk,
      t ∈ keptTriples params name :=
    fun t ht => (hperm.trans (perm_filter_kept h').symm).mem_iff.2 ht
  have hsorted : ((ts.filter (·.name = name)).filter fun t => (t.operator params).isOk).Pairwise
      fun s t => s.IndicesLe t ∧ (t.IndicesLe s → s.place params < t.place params) :=
    (pairwise_filter_name h).filter _
  have hsorted' : ((ts'.filter (·.name = name)).filter fun t => (t.operator params').isOk).Pairwise
      fun s t => s.IndicesLe t ∧ (t.IndicesLe s → s.place params < t.place params) := by
    refine ((pairwise_filter_name h').filter _).imp_of_mem fun {s t} hs ht hst => ⟨hst.1, ?_⟩
    intro hback
    exact htied s (hmem s hs) t (hmem t ht) hst.1 hback (hst.2 hback)
  -- No two triples can each come before the other, since one of them is seen first.
  refine List.Perm.eq_of_pairwise ?_ hsorted hsorted' hsame
  intro s t _ _ hst hts
  have hlt := hst.2 hts.1
  have hgt := hts.2 hst.1
  omega

theorem named_eq_of_keptTriples [Host] {options : Text} {filters filters' : Filters}
    (h : parse options params = .ok filters) (h' : parse options params' = .ok filters')
    (hperm : (keptTriples params name).Perm (keptTriples params' name))
    (htied : ∀ s ∈ keptTriples params name, ∀ t ∈ keptTriples params name, s.IndicesLe t →
      t.IndicesLe s → s.place params' < t.place params' → s.place params < t.place params)
    (hagree : ∀ t ∈ keptTriples params name, t.Agrees params params') :
    filters.named name = filters'.named name := by
  obtain ⟨ts, nodes, hts, hnodes, hnamed⟩ := exists_conditionsOf_of_parse h name
  obtain ⟨ts', nodes', hts', hnodes', hnamed'⟩ := exists_conditionsOf_of_parse h' name
  have hsame : conditionsOf options params (ts.filter (·.name = name)) =
      conditionsOf options params' (ts'.filter (·.name = name)) := by
    rw [← conditionsOf_filter_isOk, ← conditionsOf_filter_isOk options params',
      ← filter_kept_eq hts hts' hperm htied]
    exact conditionsOf_congr fun t ht => hagree t ((perm_filter_kept hts).mem_iff.1 ht)
  rw [hnodes, hnodes'] at hsame
  rw [hnamed, hnamed', Except.ok.inj hsame]

theorem named_eq_of_ownTriples [Host] {options : Text} {filters filters' : Filters}
    (h : parse options params = .ok filters) (h' : parse options params' = .ok filters')
    (hperm : (ownTriples params name).Perm (ownTriples params' name))
    (htied : ∀ s ∈ ownTriples params name, ∀ t ∈ ownTriples params name, s.IndicesLe t →
      t.IndicesLe s → s.place params' < t.place params' → s.place params < t.place params)
    (hagree : ∀ t ∈ ownTriples params name, t.Agrees params params') :
    filters.named name = filters'.named name := by
  have hown : ∀ t ∈ keptTriples params name, t ∈ ownTriples params name :=
    fun t ht => (List.mem_filter.1 ht).1
  have hkept : keptTriples params name =
      (ownTriples params name).filter fun t => (t.operator params').isOk := by
    refine List.filter_congr fun t ht => ?_
    rw [(hagree t ht).operator_eq]
  apply named_eq_of_keptTriples h h'
  · rw [hkept]
    exact hperm.filter _
  · exact fun s hs t ht => htied s (hown s hs) t (hown t ht)
  · exact fun t ht => hagree t (hown t ht)

end Own

end FindQuery.Group
