import FindQuery.Node.Build
import FindQuery.Proofs.Entries
import FindQuery.Proofs.Outcome

/-! Expressions through and through: leaves, and logical nodes over expressions. -/

namespace FindQuery.Node

mutual

def isExpression : Node → Bool
  | .leaf _ _ _ => true
  | .logical _ children => areExpressions children
  | .filter _ | .other _ => false

def areExpressions : List Node → Bool
  | [] => true
  | node :: rest => isExpression node && areExpressions rest

end

theorem areExpressions_iff {nodes : List Node} :
    areExpressions nodes = true ↔ ∀ node ∈ nodes, node.isExpression = true := by
  induction nodes with
  | nil => simp [areExpressions]
  | cons node rest ih => simp [areExpressions, ih]

mutual

def rendered : Node → Document
  | .leaf operator field value =>
    if field = [] then operatorDocument operator value
    else [(field, .document (operatorDocument operator value))]
  | .logical connective children => [(connective.token, .list (renderedEach children))]
  | .filter _ | .other _ => []

def renderedEach : List Node → List Value
  | [] => []
  | node :: rest => .document (rendered node) :: renderedEach rest

end

mutual

theorem entries_eq_ok : ∀ {node : Node}, node.isExpression = true →
    node.entries = .ok (rendered node)
  | .leaf operator field value, _ => by
    by_cases h : field = []
    · simp only [entries, rendered, if_pos h]
    · simp only [entries, rendered, if_neg h]
  | .logical connective children, h => by
    have hc : areExpressions children = true := h
    rw [entries, entriesOfEach_eq_ok hc]
    rfl
  | .filter _, h => nomatch h
  | .other _, h => nomatch h

theorem entriesOfEach_eq_ok : ∀ {nodes : List Node}, areExpressions nodes = true →
    entriesOfEach nodes = .ok (renderedEach nodes)
  | [], _ => rfl
  | node :: rest, h => by
    obtain ⟨hn, hr⟩ := Bool.and_eq_true_iff.1 h
    rw [entriesOfEach, entries_eq_ok hn, entriesOfEach_eq_ok hr]
    rfl

end

theorem mergeInto_eq_ok {nodes : List Node} (h : areExpressions nodes = true) (target : Document) :
    mergeInto target nodes = .ok (Entries.merge target (nodes.flatMap rendered)) := by
  induction nodes generalizing target with
  | nil => rfl
  | cons node rest ih =>
    obtain ⟨hn, hr⟩ := Bool.and_eq_true_iff.1 h
    rw [mergeInto, entries_eq_ok hn]
    have hstep := ih hr (Entries.merge target (rendered node))
    rw [List.flatMap_cons, Entries.merge_append]
    exact hstep

theorem merged_eq_ok {nodes : List Node} (h : areExpressions nodes = true) :
    merged nodes = .ok (Entries.ofList (nodes.flatMap rendered)) := mergeInto_eq_ok h []

mutual

theorem isExpression_of_entries : ∀ {node : Node} {d : Document}, node.entries = .ok d →
    node.isExpression = true
  | .leaf _ _ _, _, _ => rfl
  | .logical _ children, _, h => by
    obtain ⟨documents, hdocuments, -⟩ := bind_eq_ok.1 h
    have hc : areExpressions children = true := areExpressions_of_entriesOfEach hdocuments
    exact hc
  | .filter _, _, h => nomatch h
  | .other _, _, h => nomatch h

theorem areExpressions_of_entriesOfEach : ∀ {nodes : List Node} {vs : List Value},
    entriesOfEach nodes = .ok vs → areExpressions nodes = true
  | [], _, _ => rfl
  | node :: rest, _, h => by
    obtain ⟨document, hdocument, hrest⟩ := bind_eq_ok.1 h
    obtain ⟨documents, hdocuments, -⟩ := bind_eq_ok.1 hrest
    exact Bool.and_eq_true_iff.2
      ⟨isExpression_of_entries hdocument, areExpressions_of_entriesOfEach hdocuments⟩

end

theorem areExpressions_of_mergeInto {nodes : List Node} {target d : Document}
    (h : mergeInto target nodes = .ok d) : areExpressions nodes = true := by
  induction nodes generalizing target with
  | nil => rfl
  | cons node rest ih =>
    obtain ⟨es, hes, hrest⟩ := bind_eq_ok.1 h
    exact Bool.and_eq_true_iff.2 ⟨isExpression_of_entries hes, ih hrest⟩

theorem eq_of_merged {nodes : List Node} {d : Document} (h : merged nodes = .ok d) :
    d = Entries.ofList (nodes.flatMap rendered) :=
  Except.ok.inj (h.symm.trans (merged_eq_ok (areExpressions_of_mergeInto h)))

def renderedBare : Node → Document
  | .leaf operator _ value => operatorDocument operator value
  | node => node.rendered

theorem eq_of_document {node : Node} {d : Document} (h : node.document = .ok d) :
    d = node.renderedBare := by
  cases node with
  | leaf operator field value => exact (Except.ok.inj h).symm
  | logical connective children =>
    have hentries : (logical connective children).entries = .ok d := h
    exact Except.ok.inj (hentries.symm.trans (entries_eq_ok (isExpression_of_entries hentries)))
  | filter members => exact nomatch h
  | other value => exact nomatch h

end FindQuery.Node

namespace FindQuery.Backend

mutual

theorem check_full : ∀ node : Node, full.check node = node.entries.map fun _ => ()
  | .leaf operator field value => by
    rw [Node.entries]
    split
    · rfl
    · rfl
  | .logical connective children => by
    have hoperator : full.checkOperator (.connective connective) = .ok () := rfl
    rw [check, hoperator, Node.entries]
    refine (checkAll_full children).trans ?_
    cases Node.entriesOfEach children <;> rfl
  | .filter _ => rfl
  | .other _ => rfl

theorem checkAll_full : ∀ nodes : List Node,
    full.checkAll nodes = (Node.entriesOfEach nodes).map fun _ => ()
  | [] => rfl
  | node :: rest => by
    rw [checkAll, check_full node, checkAll_full rest, Node.entriesOfEach]
    cases node.entries with
    | error e => rfl
    | ok d => cases Node.entriesOfEach rest <;> rfl

end

theorem convert_full_filter {members : List Node} (h : Node.areExpressions members = true) :
    full.convert (.filter members) = .ok (Entries.ofList (members.flatMap Node.rendered)) := by
  have hv : full.validate (.filter members) = .ok () := by
    rw [validate, checkAll_full, Node.entriesOfEach_eq_ok h]
    rfl
  rw [convert, hv]
  exact Node.merged_eq_ok h

end FindQuery.Backend
