import FindQuery.Proofs.Node.Expression

/-! Where expressions are placed in documents and lists. -/

namespace FindQuery

namespace Node

/-- What a node brings into the document that it is placed in. -/
def placement (node : Node) : Except RenderError Document :=
  match node with
  | .leaf _ field _ => node.document.map fun d => if node.isNamed then [(field, .document d)] else d
  | _ => node.document

section Placed
variable {node : Node} {nodes : List Node}

theorem entries_eq_placement : node.entries = node.placement := by
  cases node with
  | leaf operator field value =>
    have hplacement : (leaf operator field value).placement = .ok
        (if (leaf operator field value).isNamed then [(field, .document (operatorDocument operator value))]
          else operatorDocument operator value) := rfl
    rw [entries, hplacement]
    cases field with
    | nil => rfl
    | cons c rest => rfl
  | logical connective children => rfl
  | filter members => rfl
  | other value => rfl

theorem entriesOfEach_eq_mapM :
    entriesOfEach nodes = (nodes.mapM placement).map fun ds => ds.map .document := by
  induction nodes with
  | nil => rfl
  | cons node rest ih =>
    rw [entriesOfEach, List.mapM_cons, ih, entries_eq_placement]
    cases node.placement with
    | error e => rfl
    | ok d => cases rest.mapM placement <;> rfl

theorem mergeInto_eq_mapM {target : Document} :
    mergeInto target nodes = (nodes.mapM placement).map fun ds => Entries.merge target ds.flatten := by
  induction nodes generalizing target with
  | nil => rfl
  | cons node rest ih =>
    rw [mergeInto, List.mapM_cons, entries_eq_placement]
    cases node.placement with
    | error e => rfl
    | ok d =>
      refine ih.trans ?_
      cases rest.mapM placement with
      | error e => rfl
      | ok ds => exact congrArg Except.ok (Entries.merge_append target d ds.flatten).symm

theorem distinct_operatorDocument (operator : Operator) (value : Value) :
    Entries.Distinct (operatorDocument operator value) := by
  unfold operatorDocument
  split
  · split
    · exact Entries.distinct_singleton _ _
    · show [Operator.regex.token, "$options".toList].Nodup
      decide
  · exact Entries.distinct_singleton _ _

theorem distinct_of_placement {d : Document} (h : node.placement = .ok d) : d.Distinct := by
  rw [← entries_eq_placement] at h
  cases node with
  | leaf operator field value =>
    rw [entries] at h
    split at h
    · obtain rfl := Except.ok.inj h
      exact distinct_operatorDocument operator value
    · obtain rfl := Except.ok.inj h
      exact Entries.distinct_singleton _ _
  | logical connective children =>
    obtain ⟨documents, -, hpure⟩ := bind_eq_ok.1 h
    obtain rfl := Except.ok.inj hpure
    exact Entries.distinct_singleton _ _
  | filter members => exact nomatch h
  | other value => exact nomatch h

end Placed

end Node

namespace Backend
open Node (placement merged)

section Full
variable {node : Node} {nodes : List Node}

theorem validate_filter_full :
    full.validate (.filter nodes) = (nodes.mapM placement).map fun _ => () := by
  rw [validate, checkAll_full, Node.entriesOfEach_eq_mapM]
  cases nodes.mapM placement <;> rfl

theorem convert_filter_eq_merged : full.convert (.filter nodes) = merged nodes := by
  rw [convert, validate_filter_full, render, merged, Node.mergeInto_eq_mapM]
  cases nodes.mapM placement <;> rfl

theorem convert_filter_eq : full.convert (.filter nodes) =
    (nodes.mapM placement).map fun ds => Entries.ofList ds.flatten :=
  convert_filter_eq_merged.trans Node.mergeInto_eq_mapM

example : full.convert (.filter [.gt ['a'] (.int 1), .eq [] (.int 2), .lt ['a'] (.int 3)]) =
    .ok [(['a'], .document [("$lt".toList, .int 3)]), ("$eq".toList, .int 2)] := rfl

theorem convert_singleton_eq : full.convert (.filter [node]) = node.placement := by
  rw [convert_filter_eq, List.mapM_cons]
  cases hplacement : node.placement with
  | error e => rfl
  | ok d =>
    show Except.ok (Entries.ofList [d].flatten) = .ok d
    rw [List.flatten_singleton, Entries.ofList_of_distinct (Node.distinct_of_placement hplacement)]

theorem convert_logical_eq {connective : Connective} : full.convert (.logical connective nodes) =
    (nodes.mapM placement).map fun ds => [(connective.token, .list (ds.map .document))] := by
  have hentries : (Node.logical connective nodes).entries =
      (nodes.mapM placement).map fun ds => [(connective.token, .list (ds.map .document))] := by
    rw [Node.entries, Node.entriesOfEach_eq_mapM]
    cases nodes.mapM placement <;> rfl
  have hvalidate : full.validate (.logical connective nodes) =
      (Node.logical connective nodes).entries.map fun _ => () := check_full _
  have hrender : render (.logical connective nodes) = (Node.logical connective nodes).entries := rfl
  rw [convert, hvalidate, hrender, hentries]
  cases nodes.mapM placement <;> rfl

theorem elemMatch?_eq {field : Text} : Node.elemMatch? field nodes =
    ((full.convert (.filter nodes)).mapError .notRendered).map fun d =>
      .leaf .elemMatch field (.document d) := by
  rw [Node.elemMatch?, convert_filter_eq_merged]
  cases merged nodes <;> rfl

/-- The document of a filter is made of what its members bring, one after the other. What the elements of a list
are matched with is this document, and a logical node is the list of the documents that filters of one child each
have. Where there is no such document, the reason is the same. -/
theorem placements_agree (field : Text) (nodes : List Node) :
    (full.convert (.filter nodes) = (nodes.mapM placement).map fun ds => Entries.ofList ds.flatten) ∧
    ((∀ node, Node.elemMatch? field nodes = .ok node ↔
        ∃ d, full.convert (.filter nodes) = .ok d ∧ node = .leaf .elemMatch field (.document d)) ∧
      ∀ e, Node.elemMatch? field nodes = .error e ↔
        ∃ cause, full.convert (.filter nodes) = .error cause ∧ e = .notRendered cause) ∧
    ∀ connective,
      (∀ d, full.convert (.logical connective nodes) = .ok d ↔
        ∃ ds, List.Forall₂ (fun node d => full.convert (.filter [node]) = .ok d) nodes ds ∧
          d = [(connective.token, .list (ds.map .document))]) ∧
      ∀ e, full.convert (.logical connective nodes) = .error e ↔
        ∃ before node after, nodes = before ++ node :: after ∧
          (∀ n ∈ before, ∃ d, full.convert (.filter [n]) = .ok d) ∧
          full.convert (.filter [node]) = .error e := by
  refine ⟨convert_filter_eq, ⟨fun node => ?_, fun e => ?_⟩, fun connective => ⟨fun d => ?_, fun e => ?_⟩⟩
  · rw [elemMatch?_eq, map_eq_ok]
    simp only [mapError_eq_ok, eq_comm (a := node)]
  · rw [elemMatch?_eq, map_eq_error, mapError_eq_error]
    simp only [eq_comm (a := e)]
  · rw [convert_logical_eq, map_eq_ok]
    simp only [mapM_eq_ok, convert_singleton_eq, eq_comm (a := d)]
  · rw [convert_logical_eq, map_eq_error, mapM_eq_error]
    simp only [convert_singleton_eq]

end Full

end Backend

end FindQuery
