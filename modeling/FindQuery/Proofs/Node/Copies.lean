import FindQuery.Node.Same
import FindQuery.Proofs.Value.Copies

/-! Two copies of an expression that were entered apart, with a payload each. -/

namespace FindQuery

theorem Value.holdsNaN_of_isNaN_mark {m : Nat} {v : Value} (h : (v.mark m).isNaN = true) :
    v.holdsNaN = true := by
  cases v with
  | float x =>
    by_cases hx : x.IsNaN
    · exact decide_eq_true hx
    · have hne : x ≠ Binary64.nan := by
        rintro rfl
        exact hx (by decide)
      rw [mark, if_neg hne] at h
      exact absurd (of_decide_eq_true h) hx
  | _ => exact nomatch h

namespace Node

mutual

def holdsNaN : Node → Bool
  | .leaf _ _ value => value.holdsNaN
  | .logical _ children => anyHoldsNaN children
  | .filter members => anyHoldsNaN members
  | .other value => value.holdsNaN

def anyHoldsNaN : List Node → Bool
  | [] => false
  | node :: rest => holdsNaN node || anyHoldsNaN rest

end

inductive IsFresh : Node → Prop
  | leaf (operator : Operator) (field : Text) {value : Value} :
      value.IsFresh → IsFresh (.leaf operator field value)
  | logical (connective : Connective) {children : List Node} :
      (∀ child ∈ children, IsFresh child) → IsFresh (.logical connective children)
  | filter {members : List Node} : (∀ member ∈ members, IsFresh member) → IsFresh (.filter members)
  | other {value : Value} : value.IsFresh → IsFresh (.other value)

section Copies
variable {m n : Nat}

mutual

theorem same_mark (hmn : m % payloadCount ≠ n % payloadCount) :
    ∀ {node : Node}, node.IsFresh → (node.mark m).same (node.mark n) = .ok (!node.holdsNaN)
  | .leaf operator field value, h => by
    cases h with
    | leaf _ _ h =>
      rw [mark, mark, same, if_pos ⟨rfl, rfl⟩]
      exact Value.same_mark hmn h
  | .logical connective children, h => by
    cases h with
    | logical _ h =>
      rw [mark, mark, same, if_pos rfl]
      exact sameAll_markAll hmn h
  | .filter members, h => by
    cases h with
    | filter h => exact sameAll_markAll hmn h
  | .other value, h => by
    cases h with
    | other h => exact Value.same_mark hmn h

theorem sameAll_markAll (hmn : m % payloadCount ≠ n % payloadCount) :
    ∀ {nodes : List Node}, (∀ node ∈ nodes, node.IsFresh) →
      sameAll (markAll m nodes) (markAll n nodes) = .ok (!anyHoldsNaN nodes)
  | [], _ => rfl
  | node :: rest, h => by
    have hnode := same_mark hmn (h node List.mem_cons_self)
    have hrest := sameAll_markAll hmn fun other hother => h other (List.mem_cons_of_mem node hother)
    rw [markAll, markAll, sameAll, hnode, hrest, Comparison.and_ok, anyHoldsNaN, Bool.not_or]

end

theorem equal_mark (hmn : m % payloadCount ≠ n % payloadCount) {node : Node} (h : node.IsFresh) :
    (node.mark m).equal (node.mark n) = .ok (!node.holdsNaN) := by
  cases h with
  | @other v hv =>
    show (if (v.mark m).isNaN then Except.ok false else (v.mark m).same (v.mark n)) = .ok (!v.holdsNaN)
    rw [Value.same_mark hmn hv]
    split
    · next hnan =>
      rw [Value.holdsNaN_of_isNaN_mark hnan]
      rfl
    · rfl
  | leaf operator field hv => exact same_mark hmn (.leaf operator field hv)
  | logical connective hc => exact same_mark hmn (.logical connective hc)
  | filter hm => exact same_mark hmn (.filter hm)

end Copies

end Node
end FindQuery
