import FindQuery.Proofs.Entries
import FindQuery.Node.Render

/-! Documents whose keys are marked with what they stand for. -/

namespace FindQuery

inductive Mark
  | field (name : Text)
  | operator (operator : Operator)
  | options

namespace Mark

def text : Mark → Text
  | .field name => name
  | .operator o => o.token
  | .options => "$options".toList

def operator? : Mark → Option Operator
  | .operator o => some o
  | .field _ | .options => none

end Mark

inductive Marked
  | plain (value : Value)
  | list (items : List Marked)
  | document (entries : List (Mark × Marked))

abbrev MarkedDocument := List (Mark × Marked)

namespace Marked

mutual

def unmarked : Marked → Value
  | .plain value => value
  | .list items => .list (unmarkedItems items)
  | .document entries => .document (unmarkedEntries entries)

def unmarkedItems : List Marked → List Value
  | [] => []
  | item :: rest => unmarked item :: unmarkedItems rest

def unmarkedEntries : List (Mark × Marked) → Document
  | [] => []
  | (mark, content) :: rest => (mark.text, unmarked content) :: unmarkedEntries rest

end

mutual

def operators : Marked → List Operator
  | .plain _ => []
  | .list items => operatorsOfItems items
  | .document entries => operatorsOfEntries entries

def operatorsOfItems : List Marked → List Operator
  | [] => []
  | item :: rest => operators item ++ operatorsOfItems rest

def operatorsOfEntries : List (Mark × Marked) → List Operator
  | [] => []
  | (mark, content) :: rest =>
    mark.operator?.toList ++ operators content ++ operatorsOfEntries rest

end

theorem operatorsOfEntries_singleton (o : Operator) (content : Marked) :
    operatorsOfEntries [(.operator o, content)] = o :: content.operators :=
  congrArg (o :: ·) (List.append_nil _)

theorem mem_operatorsOfEntries {es : MarkedDocument} {o : Operator} :
    o ∈ operatorsOfEntries es ↔ ∃ e ∈ es, e.1.operator? = some o ∨ o ∈ e.2.operators := by
  induction es with
  | nil => simp [operatorsOfEntries]
  | cons e rest ih =>
    simp only [operatorsOfEntries, List.mem_append, Option.mem_toList, ih, List.mem_cons,
      exists_eq_or_imp]

theorem mem_operatorsOfItems {docs : List MarkedDocument} {o : Operator} :
    o ∈ operatorsOfItems (docs.map .document) ↔ ∃ es ∈ docs, o ∈ operatorsOfEntries es := by
  induction docs with
  | nil => simp [operatorsOfItems]
  | cons es rest ih =>
    simp only [List.map_cons, operatorsOfItems, operators, List.mem_append, ih, List.mem_cons,
      exists_eq_or_imp]

theorem unmarkedItems_map_document (docs : List MarkedDocument) :
    unmarkedItems (docs.map .document) = (docs.map unmarkedEntries).map .document := by
  induction docs with
  | nil => rfl
  | cons es rest ih => simp only [List.map_cons, unmarkedItems, unmarked, ih]

theorem unmarkedEntries_append (es others : MarkedDocument) :
    unmarkedEntries (es ++ others) = unmarkedEntries es ++ unmarkedEntries others := by
  induction es with
  | nil => rfl
  | cons e rest ih => simp only [List.cons_append, unmarkedEntries, ih]

theorem unmarkedEntries_flatten (docs : List MarkedDocument) :
    unmarkedEntries docs.flatten = (docs.map unmarkedEntries).flatten := by
  induction docs with
  | nil => rfl
  | cons es rest ih =>
    rw [List.flatten_cons, unmarkedEntries_append, ih, List.map_cons, List.flatten_cons]

def put (es : MarkedDocument) (mark : Mark) (content : Marked) : MarkedDocument :=
  match es with
  | [] => [(mark, content)]
  | (m, c) :: rest =>
    if m.text = mark.text then (mark, content) :: rest else (m, c) :: put rest mark content

def ofList (pairs : MarkedDocument) : MarkedDocument :=
  pairs.foldl (fun es e => put es e.1 e.2) []

theorem unmarkedEntries_put (es : MarkedDocument) (mark : Mark) (content : Marked) :
    unmarkedEntries (put es mark content) =
      (unmarkedEntries es).put mark.text content.unmarked := by
  induction es with
  | nil => rfl
  | cons e rest ih =>
    obtain ⟨m, c⟩ := e
    by_cases h : m.text = mark.text
    · simp only [put, unmarkedEntries, Entries.put, if_pos h]
      rw [h]
    · simp only [put, unmarkedEntries, Entries.put, if_neg h, ih]

theorem unmarkedEntries_foldl (pairs es : MarkedDocument) :
    unmarkedEntries (pairs.foldl (fun es e => put es e.1 e.2) es) =
      (unmarkedEntries es).merge (unmarkedEntries pairs) := by
  induction pairs generalizing es with
  | nil => rfl
  | cons e rest ih =>
    rw [List.foldl_cons, ih, unmarkedEntries_put]
    rfl

theorem unmarkedEntries_ofList (pairs : MarkedDocument) :
    unmarkedEntries (ofList pairs) = Entries.ofList (unmarkedEntries pairs) :=
  unmarkedEntries_foldl pairs []

theorem mem_put {es : MarkedDocument} {mark : Mark} {content : Marked} {e : Mark × Marked}
    (h : e ∈ put es mark content) : e = (mark, content) ∨ e ∈ es := by
  induction es with
  | nil => exact .inl (List.mem_singleton.1 h)
  | cons e' rest ih =>
    rw [put] at h
    split at h
    · rcases List.mem_cons.1 h with rfl | h
      · exact .inl rfl
      · exact .inr (List.mem_cons_of_mem _ h)
    · rcases List.mem_cons.1 h with rfl | h
      · exact .inr List.mem_cons_self
      · exact (ih h).imp_right (List.mem_cons_of_mem _)

theorem mem_foldl_put {pairs es : MarkedDocument} {e : Mark × Marked}
    (h : e ∈ pairs.foldl (fun es e => put es e.1 e.2) es) : e ∈ es ∨ e ∈ pairs := by
  induction pairs generalizing es with
  | nil => exact .inl h
  | cons e' rest ih =>
    rcases ih h with h | h
    · rcases mem_put h with rfl | h
      · exact .inr List.mem_cons_self
      · exact .inl h
    · exact .inr (List.mem_cons_of_mem _ h)

theorem mem_of_mem_ofList {pairs : MarkedDocument} {e : Mark × Marked} (h : e ∈ ofList pairs) :
    e ∈ pairs := (mem_foldl_put h).resolve_left List.not_mem_nil

theorem mem_operators_ofList {docs : List MarkedDocument} {o : Operator}
    (h : o ∈ operatorsOfEntries (ofList docs.flatten)) :
    ∃ es ∈ docs, o ∈ operatorsOfEntries es := by
  obtain ⟨e, he, ho⟩ := mem_operatorsOfEntries.1 h
  obtain ⟨es, hes, hmem⟩ := List.mem_flatten.1 (mem_of_mem_ofList he)
  exact ⟨es, hes, mem_operatorsOfEntries.2 ⟨e, hmem, ho⟩⟩

def comparison (operator : Operator) (value : Value) : MarkedDocument :=
  match operator, value with
  | .regex, .pattern p =>
    (.operator .regex, .plain (.text p.source)) ::
      (if p.options = [] then [] else [(.options, .plain (.text p.options))])
  | operator, value => [(.operator operator, .plain value)]

theorem unmarkedEntries_comparison (operator : Operator) (value : Value) :
    unmarkedEntries (comparison operator value) = Node.operatorDocument operator value := by
  cases operator with
  | regex =>
    cases value with
    | pattern p =>
      by_cases h : p.options = []
      · simp only [comparison, Node.operatorDocument, if_pos h]
        rfl
      · simp only [comparison, Node.operatorDocument, if_neg h]
        rfl
    | _ => rfl
  | _ => rfl

theorem operators_comparison (operator : Operator) (value : Value) :
    operatorsOfEntries (comparison operator value) = [operator] := by
  unfold comparison
  split
  · split
    · rfl
    · rfl
  · rfl

def placed (field : Text) (es : MarkedDocument) : MarkedDocument :=
  if field = [] then es else [(.field field, .document es)]

theorem unmarkedEntries_placed (field : Text) (es : MarkedDocument) :
    unmarkedEntries (placed field es) =
      if field = [] then unmarkedEntries es else [(field, .document (unmarkedEntries es))] := by
  unfold placed
  split
  · rfl
  · rfl

theorem operators_placed (field : Text) (es : MarkedDocument) :
    operatorsOfEntries (placed field es) = operatorsOfEntries es := by
  unfold placed
  split
  · rfl
  · exact List.append_nil _

end Marked
end FindQuery
