import FindQuery.Proofs.Node.Expression

/-! What filters and filter documents say, read as propositions over conditions on single fields. -/

namespace FindQuery

abbrev Assignment := Text → Value → Bool

namespace Value
variable (σ : Assignment)

mutual

/-- A document holds when all its entries do. Nothing else can hold. -/
def holds : Value → Bool
  | .document es => entriesHold es
  | _ => false

def entriesHold : List (Text × Value) → Bool
  | [] => true
  | (k, v) :: rest => entryHolds k v && entriesHold rest

def entryHolds (k : Text) : Value → Bool
  | .list items =>
    if k = Connective.and.token then allHold items
    else if k = Connective.or.token then anyHolds items
    else if k = Connective.nor.token then !anyHolds items
    else σ k (.list items)
  | v => σ k v

def allHold : List Value → Bool
  | [] => true
  | v :: rest => holds v && allHold rest

def anyHolds : List Value → Bool
  | [] => false
  | v :: rest => holds v || anyHolds rest

end

theorem entriesHold_iff {es : List (Text × Value)} :
    entriesHold σ es = true ↔ ∀ e ∈ es, entryHolds σ e.1 e.2 = true := by
  induction es with
  | nil => simp [entriesHold]
  | cons e rest ih => simp [entriesHold, ih]

end Value

namespace Node
variable (σ : Assignment)

mutual

/-- A leaf is a condition on its field; the members of a filter hold together. What is neither a
leaf, a filter nor a logical node over `and`, `or` or `nor` has no meaning, and does not hold. -/
def holds : Node → Bool
  | .leaf operator field value => σ field (.document (operatorDocument operator value))
  | .logical .and children => allHold children
  | .logical .or children => anyHolds children
  | .logical .nor children => !anyHolds children
  | .filter members => allHold members
  | .logical .not _ | .other _ => false

def allHold : List Node → Bool
  | [] => true
  | node :: rest => holds node && allHold rest

def anyHolds : List Node → Bool
  | [] => false
  | node :: rest => holds node || anyHolds rest

end

mutual

def isPropositional : Node → Bool
  | .leaf _ field _ => !field.isEmpty
  | .logical connective children => connective ≠ .not && arePropositional children
  | .filter _ | .other _ => false

def arePropositional : List Node → Bool
  | [] => true
  | node :: rest => isPropositional node && arePropositional rest

end

theorem isPropositional_logical {connective : Connective} {children : List Node} :
    (logical connective children).isPropositional = true ↔
      connective ≠ .not ∧ arePropositional children = true := by
  simp [isPropositional]

theorem allHold_iff {nodes : List Node} :
    allHold σ nodes = true ↔ ∀ node ∈ nodes, node.holds σ = true := by
  induction nodes with
  | nil => simp [allHold]
  | cons node rest ih => simp [allHold, ih]

theorem holds_filter_iff {members : List Node} :
    (filter members).holds σ = true ↔ ∀ m ∈ members, m.holds σ = true := by
  rw [holds, allHold_iff]

mutual

theorem isExpression_of_isPropositional : ∀ {node : Node}, node.isPropositional = true →
    node.isExpression = true
  | .leaf _ _ _, _ => rfl
  | .logical _ children, h => by
    have hc : arePropositional children = true := (isPropositional_logical.1 h).2
    exact areExpressions_of_arePropositional hc
  | .filter _, h => nomatch h
  | .other _, h => nomatch h

theorem areExpressions_of_arePropositional : ∀ {nodes : List Node},
    arePropositional nodes = true → areExpressions nodes = true
  | [], _ => rfl
  | _ :: _, h => by
    obtain ⟨hn, hr⟩ := Bool.and_eq_true_iff.1 h
    exact Bool.and_eq_true_iff.2
      ⟨isExpression_of_isPropositional hn, areExpressions_of_arePropositional hr⟩

end

def key : Node → Text
  | .leaf _ field _ => field
  | .logical connective _ => connective.token
  | .filter _ | .other _ => []

def content : Node → Value
  | .leaf operator _ value => .document (operatorDocument operator value)
  | .logical _ children => .list (renderedEach children)
  | .filter _ | .other _ => .null

theorem rendered_eq_singleton {node : Node} (h : node.isPropositional = true) :
    rendered node = [(node.key, node.content)] := by
  cases node with
  | leaf operator field value =>
    have hf : field ≠ [] := by
      rintro rfl
      exact nomatch h
    simp only [rendered, if_neg hf, key, content]
  | logical connective children => rfl
  | filter members => exact nomatch h
  | other value => exact nomatch h

mutual

theorem entryHolds_content : ∀ {node : Node}, node.isPropositional = true →
    Value.entryHolds σ node.key node.content = node.holds σ
  | .leaf _ _ _, _ => rfl
  | .logical .and children, h => by
    have hc : arePropositional children = true := (isPropositional_logical.1 h).2
    rw [key, content, Value.entryHolds, if_pos rfl, allHold_renderedEach hc, holds]
  | .logical .or children, h => by
    have hc : arePropositional children = true := (isPropositional_logical.1 h).2
    rw [key, content, Value.entryHolds, if_neg (by decide), if_pos rfl,
      anyHolds_renderedEach hc, holds]
  | .logical .nor children, h => by
    have hc : arePropositional children = true := (isPropositional_logical.1 h).2
    rw [key, content, Value.entryHolds, if_neg (by decide), if_neg (by decide), if_pos rfl,
      anyHolds_renderedEach hc, holds]
  | .logical .not _, h => nomatch h
  | .filter _, h => nomatch h
  | .other _, h => nomatch h

theorem allHold_renderedEach : ∀ {nodes : List Node}, arePropositional nodes = true →
    Value.allHold σ (renderedEach nodes) = allHold σ nodes
  | [], _ => rfl
  | node :: rest, h => by
    obtain ⟨hn, hr⟩ := Bool.and_eq_true_iff.1 h
    rw [renderedEach, Value.allHold, Value.holds, rendered_eq_singleton hn, Value.entriesHold,
      Value.entriesHold, Bool.and_true, entryHolds_content hn, allHold_renderedEach hr, allHold]

theorem anyHolds_renderedEach : ∀ {nodes : List Node}, arePropositional nodes = true →
    Value.anyHolds σ (renderedEach nodes) = anyHolds σ nodes
  | [], _ => rfl
  | node :: rest, h => by
    obtain ⟨hn, hr⟩ := Bool.and_eq_true_iff.1 h
    rw [renderedEach, Value.anyHolds, Value.holds, rendered_eq_singleton hn, Value.entriesHold,
      Value.entriesHold, Bool.and_true, entryHolds_content hn, anyHolds_renderedEach hr, anyHolds]

end

def entry (node : Node) : Text × Value := (node.key, node.content)

def latest (nodes : List Node) : List Node := latestBy key nodes

theorem flatMap_rendered {nodes : List Node} (h : arePropositional nodes = true) :
    nodes.flatMap rendered = nodes.map entry := by
  induction nodes with
  | nil => rfl
  | cons node rest ih =>
    obtain ⟨hn, hr⟩ := Bool.and_eq_true_iff.1 h
    rw [List.flatMap_cons, rendered_eq_singleton hn, ih hr]
    rfl

theorem isPropositional_of_mem {nodes : List Node} (h : arePropositional nodes = true)
    {node : Node} (hm : node ∈ nodes) : node.isPropositional = true := by
  induction nodes with
  | nil => exact nomatch hm
  | cons first rest ih =>
    obtain ⟨hn, hr⟩ := Bool.and_eq_true_iff.1 h
    rcases List.mem_cons.1 hm with rfl | hm
    · exact hn
    · exact ih hr hm

theorem entriesHold_ofList {members : List Node} (h : arePropositional members = true) :
    Value.entriesHold σ (Entries.ofList (members.flatMap rendered)) =
      allHold σ (latest members) := by
  rw [Bool.eq_iff_iff, Value.entriesHold_iff, allHold_iff, flatMap_rendered h]
  have hentry (node : Node) (hm : node ∈ latest members) :
      Value.entryHolds σ node.entry.1 node.entry.2 = node.holds σ :=
    entryHolds_content σ (isPropositional_of_mem h (mem_of_mem_latestBy hm))
  constructor
  · intro hall node hm
    rw [← hentry node hm]
    apply hall
    rw [Entries.mem_ofList, latestBy_map]
    exact List.mem_map_of_mem hm
  · intro hall e he
    rw [Entries.mem_ofList, latestBy_map] at he
    obtain ⟨node, hm, rfl⟩ := List.mem_map.1 he
    rw [hentry node hm]
    exact hall node hm

theorem elemMatch_eq_ok {members : List Node} (h : areExpressions members = true) (field : Text) :
    elemMatch? field members =
      .ok (.leaf .elemMatch field (.document (Entries.ofList (members.flatMap rendered)))) := by
  rw [elemMatch?, merged_eq_ok h]
  rfl

end Node

/-- Members built of leaves with fields, `and`, `or` and `nor` become one document, the same for a
filter and for the element of an array. It says what those members say whose key does not come
again. So it says the same as all of them exactly when these imply the members that are replaced,
which is the case when no key comes twice. -/
theorem Node.holds_document_iff_latest {members : List Node}
    (h : Node.arePropositional members = true) :
    ∃ d : Document, Backend.full.convert (.filter members) = .ok d ∧
      (∀ field, Node.elemMatch? field members = .ok (.leaf .elemMatch field (.document d))) ∧
      (∀ σ, Value.holds σ (.document d) = (Node.filter (Node.latest members)).holds σ) ∧
      ((∀ σ, Value.holds σ (.document d) = (Node.filter members).holds σ) ↔
        ∀ σ, (∀ m ∈ Node.latest members, m.holds σ = true) →
          ∀ m ∈ members, m.holds σ = true) ∧
      ((members.map Node.key).Nodup →
        ∀ σ, Value.holds σ (.document d) = (Node.filter members).holds σ) := by
  have he : Node.areExpressions members = true := Node.areExpressions_of_arePropositional h
  have hd (σ : Assignment) :
      Value.holds σ (.document (Entries.ofList (members.flatMap Node.rendered))) =
        (Node.filter (Node.latest members)).holds σ := by
    rw [Value.holds, Node.holds, Node.entriesHold_ofList σ h]
  refine ⟨_, Backend.convert_full_filter he, Node.elemMatch_eq_ok he, hd, ?_, ?_⟩
  · constructor
    · intro hsame σ hlatest
      rw [← Node.holds_filter_iff, ← hsame σ, hd σ, Node.holds_filter_iff]
      exact hlatest
    · intro himp σ
      rw [hd σ, Bool.eq_iff_iff, Node.holds_filter_iff, Node.holds_filter_iff]
      exact ⟨himp σ, fun hall m hm => hall m (mem_of_mem_latestBy hm)⟩
  · intro hnodup σ
    rw [hd σ, Node.latest, latestBy_of_nodup hnodup]

theorem Node.holds_document_of_two_pairs :
    Node.arePropositional
        [.gte ['p'] (.int 5), .logical .or [.eq ['a'] .null, .logical .nor [.eq ['p'] (.int 7)]],
          .lt ['p'] (.int 10), .logical .or [.eq ['b'] .null]] = true ∧
      ∃ d, Backend.full.convert
          (.filter [.gte ['p'] (.int 5),
            .logical .or [.eq ['a'] .null, .logical .nor [.eq ['p'] (.int 7)]],
            .lt ['p'] (.int 10), .logical .or [.eq ['b'] .null]]) = .ok d ∧
        ∀ σ, Value.holds σ (.document d) =
          (Node.filter [.lt ['p'] (.int 10), .logical .or [.eq ['b'] .null]]).holds σ := by
  have h : Node.arePropositional [.gte ['p'] (.int 5),
      .logical .or [.eq ['a'] .null, .logical .nor [.eq ['p'] (.int 7)]],
      .lt ['p'] (.int 10), .logical .or [.eq ['b'] .null]] = true := by
    decide
  obtain ⟨d, hd, -, hlatest, -⟩ := Node.holds_document_iff_latest h
  exact ⟨h, d, hd, hlatest⟩

theorem Node.lower_bound_lost :
    Backend.full.convert
        (.filter [.gte "price".toList (.int 5), .lt "price".toList (.int 10)]) =
      .ok [("price".toList, .document [("$lt".toList, .int 10)])] ∧
    Node.elemMatch? "items".toList
        [.gte "price".toList (.int 5), .lt "price".toList (.int 10)] =
      .ok (.leaf .elemMatch "items".toList
        (.document [("price".toList, .document [("$lt".toList, .int 10)])])) ∧
    ∃ σ, Value.holds σ
          (.document [("price".toList, .document [("$lt".toList, .int 10)])]) = true ∧
        (Node.filter [.gte "price".toList (.int 5), .lt "price".toList (.int 10)]).holds σ =
          false := by
  refine ⟨rfl, rfl, fun _ v => v = .document [("$lt".toList, .int 10)], ?_, ?_⟩
  · decide
  · decide

end FindQuery
