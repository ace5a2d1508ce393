import Mathlib.Data.List.Perm.Basic
import FindQuery.Journal.Request
import FindQuery.Proofs.Group.Arrange
import FindQuery.Proofs.Group.Failure

/-! What becomes of each triple of a request: a leaf, or a message that says why there is none. -/

namespace FindQuery.Group

inductive Fate
  | leaf (node : Node)
  | message (s : Text)

/-- The fate that the parameters of a triple lead to. -/
inductive Triple.Becomes [Host] (options : Text) (params : Params) (t : Triple) : Fate → Prop
  | built {node : Node} : params.first (t.key .field) ≠ [] → t.Builds options params node →
      Becomes options params t (.leaf node)
  | missingField : params.first (t.key .field) = [] →
      Becomes options params t
        (.message ("Dropping filter group ".toList ++ t.stem ++ ": missing field".toList))
  | unknownCondition : params.first (t.key .field) ≠ [] →
      Condition.operator? (params.first (t.key .condition)) = none →
      Becomes options params t
        (.message ("Dropping filter group ".toList ++ t.stem
          ++ ": unknown condition | Context: ".toList
          ++ (Value.document
            [("condition".toList, .text (params.first (t.key .condition)))]).json))

def builtOf (fates : List (Triple × Fate)) : List (Triple × Node) :=
  fates.filterMap fun
    | (t, .leaf node) => some (t, node)
    | (_, .message _) => none

def messagesOf (fates : List (Triple × Fate)) : List Text :=
  fates.filterMap fun
    | (_, .leaf _) => none
    | (_, .message s) => some s

def leavesOf (filters : Filters) : List (Text × Node) :=
  filters.flatMap fun entry => entry.2.node.leaves.map (entry.1, ·)

variable {options : Text} {params : Params}

theorem Triple.becomes_of_defect [Host] {t : Triple} {d : Defect} (h : t.operator params = .error d) :
    t.Becomes options params (.message (Dropped.message ⟨t, d⟩)) := by
  unfold Triple.operator at h
  split at h
  · next hfield =>
    obtain rfl := Except.error.inj h
    have hmessage : Dropped.message ⟨t, .missingField⟩ =
        "Dropping filter group ".toList ++ t.stem ++ ": missing field".toList := by
      show _ ++ _ ++ _ ++ _ = _
      rw [List.append_assoc _ (": ".toList)]
      rfl
    rw [hmessage]
    exact .missingField hfield
  · next hfield =>
    split at h
    · next hcode =>
      obtain rfl := Except.error.inj h
      have hmessage : Dropped.message ⟨t, .unknownCondition (t.rawCode params)⟩ =
          "Dropping filter group ".toList ++ t.stem ++ ": unknown condition | Context: ".toList
            ++ (Value.document [("condition".toList, .text (t.rawCode params))]).json := by
        show _ ++ _ ++ _ ++ _ ++ _ ++ _ = _
        rw [List.append_assoc _ (": ".toList), List.append_assoc _ (": ".toList ++ _)]
        rfl
      rw [hmessage]
      exact .unknownCondition hfield hcode
    · exact nomatch h

theorem exists_fates [Host] {ts : List Triple} {nodes : List (Triple × Node)}
    (h : leaves options params (complete params ts) = .ok nodes) :
    ∃ fates : List (Triple × Fate), fates.map Prod.fst = ts ∧
      (∀ f ∈ fates, f.1.Becomes options params f.2) ∧ builtOf fates = nodes ∧
      messagesOf fates = (droppedOf params ts).map Dropped.message := by
  induction ts generalizing nodes with
  | nil =>
    obtain rfl := Except.ok.inj h
    exact ⟨[], rfl, nofun, rfl, rfl⟩
  | cons t rest ih =>
    cases hop : t.operator params with
    | error d =>
      have hcomplete : complete params (t :: rest) = complete params rest :=
        List.filterMap_cons_none (by rw [hop]; rfl)
      have hdropped : droppedOf params (t :: rest) = ⟨t, d⟩ :: droppedOf params rest :=
        List.filterMap_cons_some (by rw [Triple.defect?, hop]; rfl)
      rw [hcomplete] at h
      obtain ⟨fates, rfl, hbecomes, rfl, hmessages⟩ := ih h
      refine ⟨(t, .message (Dropped.message ⟨t, d⟩)) :: fates, rfl,
        List.forall_mem_cons.2 ⟨Triple.becomes_of_defect hop, hbecomes⟩, rfl, ?_⟩
      rw [hdropped, List.map_cons, ← hmessages]
      rfl
    | ok o =>
      have hcomplete : complete params (t :: rest) = (t, o) :: complete params rest :=
        List.filterMap_cons_some (by rw [hop]; rfl)
      have hdropped : droppedOf params (t :: rest) = droppedOf params rest :=
        List.filterMap_cons_none (by rw [Triple.defect?, hop]; rfl)
      rw [hcomplete] at h
      simp only [leaves, bind_eq_ok, pure, Except.pure, Except.ok.injEq] at h
      obtain ⟨node, hnode, others, hothers, rfl⟩ := h
      obtain ⟨fates, rfl, hbecomes, rfl, hmessages⟩ := ih hothers
      have hfield := (Triple.operator_eq_ok.1 hop).1
      refine ⟨(t, .leaf node) :: fates, rfl, List.forall_mem_cons.2
        ⟨.built hfield (Triple.builds_of_leaf hop hnode), hbecomes⟩, rfl, ?_⟩
      rw [hdropped, ← hmessages]
      rfl

theorem perm_leaves_assemble [Host] {conditions : List (Triple × Node)}
    (h : ∀ p ∈ conditions, p.1.Builds options params p.2) :
    (assemble conditions).node.leaves.Perm (conditions.map Prod.snd) := by
  have hleaves : (assemble conditions).node.leaves =
      ((groupBy (·.1.andIndex) conditions).flatMap Prod.snd).map Prod.snd := by
    rw [Filter.leaves_node, conjuncts_assemble h, List.map_map, groupBy, List.flatMap_map,
      List.map_flatMap, List.flatMap_def]
    congr 1
    apply List.map_congr_left
    intro index _
    exact leaves_combine_or fun node => leaves_of_mem_sharing h
  rw [hleaves]
  exact (perm_groupBy conditions).map Prod.snd

theorem perm_leavesOf [Host] {nodes : List (Triple × Node)}
    (h : ∀ p ∈ nodes, p.1.Builds options params p.2) :
    (leavesOf ((groupBy (·.1.name) nodes).map fun g => (g.1, assemble g.2))).Perm
      (nodes.map fun p => (p.1.name, p.2)) := by
  have hgroup : ∀ g ∈ groupBy (·.1.name) nodes,
      ((assemble g.2).node.leaves.map (g.1, ·)).Perm (g.2.map fun p => (p.1.name, p.2)) := by
    intro g hg
    obtain ⟨name, -, rfl⟩ := List.mem_map.1 hg
    have hnamed : ((nodes.filter (·.1.name = name)).map fun p => (p.1.name, p.2)) =
        ((nodes.filter (·.1.name = name)).map Prod.snd).map (name, ·) := by
      rw [List.map_map]
      apply List.map_congr_left
      intro p hp
      rw [of_decide_eq_true (List.mem_filter.1 hp).2]
      rfl
    rw [hnamed]
    exact (perm_leaves_assemble fun p hp => h p (List.mem_filter.1 hp).1).map _
  rw [leavesOf, List.flatMap_map]
  apply (List.Perm.flatMap_left _ hgroup).trans
  rw [← List.map_flatMap]
  exact (perm_groupBy nodes).map _

theorem isReadable_eq_false_iff [Host] {t : Triple} : isReadable options params t = false ↔
    ∃ o, t.operator params = .ok o ∧ Fails (Coerce.value o (t.rawValue params)) := by
  unfold isReadable
  cases hop : t.operator params with
  | error d => simp
  | ok o =>
    have hfails : (leaf options params t o).isOk = false ↔ Fails (leaf options params t o) := by
      cases leaf options params t o with
      | ok node => exact iff_of_false nofun (not_fails_ok node)
      | error e => exact iff_of_true rfl ⟨e, rfl⟩
    rw [hfails, fails_leaf]
    simp

theorem isReadable_eq_false_iff_isUnvalued [Host] {t : Triple}
    (hseen : ∃ key ∈ params.keys, t.HasKey key) :
    isReadable options params t = false ↔ t.IsUnvalued params := by
  rw [isReadable_eq_false_iff]
  constructor
  · rintro ⟨o, hop, hfails⟩
    obtain ⟨hfield, hcode⟩ := Triple.operator_eq_ok.1 hop
    exact ⟨⟨hseen, hfield, o, hcode⟩, o, hcode, hfails⟩
  · rintro ⟨hkept, o, hcode, hfails⟩
    exact ⟨o, Triple.operator_eq_ok.2 ⟨hkept.field, hcode⟩, hfails⟩

theorem exists_fates_of_readable [Host] {ts : List Triple}
    (h : ∀ t ∈ ts, isReadable options params t = true) :
    ∃ fates : List (Triple × Fate), fates.map Prod.fst = ts ∧
      (∀ f ∈ fates, f.1.Becomes options params f.2) ∧
      messagesOf fates = (droppedOf params ts).map Dropped.message := by
  have hleaves : ¬ Fails (leaves options params (complete params ts)) := by
    rw [fails_leaves]
    rintro ⟨⟨t, o⟩, hc, hfails⟩
    obtain ⟨ht, hop⟩ := mem_complete.1 hc
    have hread := h t ht
    rw [isReadable_eq_false_iff.2 ⟨o, hop, hfails⟩] at hread
    exact nomatch hread
  obtain ⟨nodes, hnodes⟩ := not_fails_iff.1 hleaves
  obtain ⟨fates, hts, hbecomes, -, hmessages⟩ := exists_fates hnodes
  exact ⟨fates, hts, hbecomes, hmessages⟩

theorem exists_unreadable_of_fails [Host] {ts : List Triple}
    (h : Fails (leaves options params (complete params ts))) :
    ∃ t rest, ts = ts.takeWhile (isReadable options params) ++ t :: rest ∧
      isReadable options params t = false := by
  have hstuck : ts.dropWhile (isReadable options params) ≠ [] := by
    intro hnil
    obtain ⟨⟨t, o⟩, hc, hfails⟩ := fails_leaves.1 h
    obtain ⟨ht, hop⟩ := mem_complete.1 hc
    have hread := List.dropWhile_eq_nil_iff.1 hnil t ht
    exact nomatch hread.symm.trans (isReadable_eq_false_iff.2 ⟨o, hop, hfails⟩)
  obtain ⟨t, rest, hdrop⟩ := List.exists_cons_of_ne_nil hstuck
  have hhead := List.head?_dropWhile_not (isReadable options params) ts
  rw [hdrop] at hhead
  refine ⟨t, rest, ?_, hhead⟩
  rw [← hdrop, List.takeWhile_append_dropWhile]

theorem exists_fates_of_parse [Host] {filters : Filters} (h : parse options params = .ok filters) :
    ∃ fates : List (Triple × Fate), sortedTriples params = .ok (fates.map Prod.fst) ∧
      (∀ f ∈ fates, f.1.Becomes options params f.2) ∧
      (leavesOf filters).Perm ((builtOf fates).map fun p => (p.1.name, p.2)) ∧
      (dropped options params).map Dropped.message = messagesOf fates := by
  have hvalued : ∀ t : Triple, ¬ t.IsUnvalued params := by
    intro t ht
    exact not_fails_iff.2 ⟨filters, h⟩ (fails_parse.2 (.inr ⟨t, ht⟩))
  simp only [parse, bind_eq_ok, mapError_eq_ok, pure, Except.pure, Except.ok.injEq] at h
  obtain ⟨ts, hts, nodes, hnodes, rfl⟩ := h
  have hread : ts.takeWhile (isReadable options params) = ts := by
    rw [List.takeWhile_eq_self_iff]
    intro t ht
    have hseen := mem_triples.1 ((perm_sortedTriples hts).mem_iff.1 ht)
    exact Bool.of_not_eq_false
      (mt (isReadable_eq_false_iff_isUnvalued hseen).1 (hvalued t))
  have hbuilds : ∀ p ∈ nodes, p.1.Builds options params p.2 := by
    intro p hp
    obtain ⟨o, ho, hleaf⟩ := (leaves_eq_ok hnodes).2 p hp
    exact Triple.builds_of_leaf (mem_complete.1 ho).2 hleaf
  obtain ⟨fates, rfl, hbecomes, rfl, hmessages⟩ := exists_fates hnodes
  refine ⟨fates, hts, hbecomes, perm_leavesOf hbuilds, ?_⟩
  simp only [dropped, hts, hread, hmessages]

theorem exists_fates_of_parse_error [Host] {e : ParseError} (h : parse options params = .error e) :
    (Fails (sortedTriples params) ∧ dropped options params = []) ∨
      ∃ (fates : List (Triple × Fate)) (t : Triple) (rest : List Triple),
        sortedTriples params = .ok (fates.map Prod.fst ++ t :: rest) ∧ t.IsUnvalued params ∧
          (∀ f ∈ fates, f.1.Becomes options params f.2) ∧
          (dropped options params).map Dropped.message = messagesOf fates := by
  cases hts : sortedTriples params with
  | error cause =>
    left
    refine ⟨⟨cause, rfl⟩, ?_⟩
    rw [dropped, hts]
  | ok ts =>
    right
    have hseen : ∀ t ∈ ts, ∃ key ∈ params.keys, t.HasKey key := fun t ht =>
      mem_triples.1 ((perm_sortedTriples hts).mem_iff.1 ht)
    have hleaves : Fails (leaves options params (complete params ts)) := by
      rcases bind_eq_error.1 h with hsort | ⟨ts', hts', hrest⟩
      · obtain ⟨cause, hcause, -⟩ := mapError_eq_error.1 hsort
        exact nomatch hts.symm.trans hcause
      · obtain rfl := Except.ok.inj (hts.symm.trans (mapError_eq_ok.1 hts'))
        exact fails_mapError.1 (fails_bind_pure.1 ⟨e, hrest⟩)
    obtain ⟨t, rest, hsplit, hunread⟩ := exists_unreadable_of_fails hleaves
    have ht : t ∈ ts := hsplit ▸ List.mem_append_right _ List.mem_cons_self
    have hseen := mem_triples.1 ((perm_sortedTriples hts).mem_iff.1 ht)
    have hread : ∀ s ∈ ts.takeWhile (isReadable options params), isReadable options params s = true :=
      fun s hs => List.mem_takeWhile_imp hs
    obtain ⟨fates, hfates, hbecomes, hmessages⟩ := exists_fates_of_readable hread
    refine ⟨fates, t, rest, ?_, (isReadable_eq_false_iff_isUnvalued hseen).1 hunread, hbecomes, ?_⟩
    · rw [hfates, ← hsplit]
    · simp only [dropped, hts, hmessages]

end FindQuery.Group
