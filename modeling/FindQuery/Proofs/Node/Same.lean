import FindQuery.Node.Same
import FindQuery.Proofs.Value.Same

/-! Equality of expression trees is an equivalence and always gives an answer. -/

namespace FindQuery.Node

variable {a b c : Node} {nodes others : List Node}

theorem sameAll_eq_all : sameAll nodes others = Comparison.all same nodes others := by
  induction nodes generalizing others with
  | nil => cases others <;> rfl
  | cons m rest ih =>
    cases others with
    | nil => rfl
    | cons n rest' => rw [sameAll, ih, Comparison.all]

theorem sameAll_eq_ok_true_iff :
    sameAll nodes others = .ok true ↔ List.Forall₂ (fun m n => m.same n = .ok true) nodes others := by
  rw [sameAll_eq_all, Comparison.all_eq_ok_true]

inductive Matches : Node → Node → Prop
  | leaf (operator : Operator) (field : Text) {v w : Value} : v.same w = .ok true →
      Matches (.leaf operator field v) (.leaf operator field w)
  | logical (connective : Connective) {children others : List Node} :
      List.Forall₂ (fun m n => m.same n = .ok true) children others →
      Matches (.logical connective children) (.logical connective others)
  | filter {members others : List Node} : List.Forall₂ (fun m n => m.same n = .ok true) members others →
      Matches (.filter members) (.filter others)
  | other {v w : Value} : v.same w = .ok true → Matches (.other v) (.other w)

theorem matches_of_same (h : a.same b = .ok true) : a.Matches b := by
  unfold same at h
  split at h
  · split at h
    · next heq =>
      obtain ⟨rfl, rfl⟩ := heq
      exact .leaf _ _ h
    · cases h
  · split at h
    · next heq =>
      obtain rfl := heq
      exact .logical _ (sameAll_eq_ok_true_iff.1 h)
    · cases h
  · exact .filter (sameAll_eq_ok_true_iff.1 h)
  · exact .other h
  · cases h

theorem same_of_matches (h : a.Matches b) : a.same b = .ok true := by
  cases h with
  | leaf operator field h => rw [same, if_pos ⟨rfl, rfl⟩, h]
  | logical connective h => rw [same, if_pos rfl, sameAll_eq_ok_true_iff.2 h]
  | filter h => rw [same, sameAll_eq_ok_true_iff.2 h]
  | other h => rw [same, h]

/-- All values in the tree are settled. -/
inductive IsSettled : Node → Prop
  | leaf (operator : Operator) (field : Text) {value : Value} : value.IsSettled →
      IsSettled (.leaf operator field value)
  | logical (connective : Connective) {children : List Node} : (∀ n ∈ children, IsSettled n) →
      IsSettled (.logical connective children)
  | filter {members : List Node} : (∀ n ∈ members, IsSettled n) → IsSettled (.filter members)
  | other {value : Value} : value.IsSettled → IsSettled (.other value)

section Equivalence

theorem same_refl (h : a.IsSettled) : a.same a = .ok true := by
  induction h with
  | leaf operator field hvalue => exact same_of_matches (.leaf operator field (Value.same_refl hvalue))
  | logical connective _ ih => exact same_of_matches (.logical connective (List.forall₂_same.2 ih))
  | filter _ ih => exact same_of_matches (.filter (List.forall₂_same.2 ih))
  | other hvalue => exact same_of_matches (.other (Value.same_refl hvalue))

theorem same_symm (ha : a.IsSettled) (hb : b.IsSettled) (h : a.same b = .ok true) : b.same a = .ok true := by
  induction ha generalizing b with
  | leaf operator field hv =>
    cases matches_of_same h with
    | leaf _ _ hsame =>
      cases hb with
      | leaf _ _ hw => exact same_of_matches (.leaf operator field (Value.same_symm hv hw hsame))
  | logical connective _ ih =>
    cases matches_of_same h with
    | logical _ hchildren =>
      cases hb with
      | logical _ hothers =>
        exact same_of_matches (.logical connective
          (forall₂_imp_of_mem hchildren fun m hm n hn => ih m hm (hothers n hn)).flip)
  | filter _ ih =>
    cases matches_of_same h with
    | filter hmembers =>
      cases hb with
      | filter hothers =>
        exact same_of_matches (.filter
          (forall₂_imp_of_mem hmembers fun m hm n hn => ih m hm (hothers n hn)).flip)
  | other hv =>
    cases matches_of_same h with
    | other hsame =>
      cases hb with
      | other hw => exact same_of_matches (.other (Value.same_symm hv hw hsame))

theorem same_trans (ha : a.IsSettled) (hb : b.IsSettled) (hc : c.IsSettled) (h : a.same b = .ok true)
    (h' : b.same c = .ok true) : a.same c = .ok true := by
  induction ha generalizing b c with
  | leaf operator field hu =>
    cases matches_of_same h with
    | leaf _ _ huv =>
      cases matches_of_same h' with
      | leaf _ _ hvw =>
        cases hb with
        | leaf _ _ hv =>
          cases hc with
          | leaf _ _ hw => exact same_of_matches (.leaf operator field (Value.same_trans hu hv hw huv hvw))
  | logical connective _ ih =>
    cases matches_of_same h with
    | logical _ hab =>
      cases matches_of_same h' with
      | logical _ hbc =>
        cases hb with
        | logical _ hb =>
          cases hc with
          | logical _ hc =>
            exact same_of_matches (.logical connective (forall₂_trans_of_mem hab hbc
              fun l hl m hm n hn => ih l hl (hb m hm) (hc n hn)))
  | filter _ ih =>
    cases matches_of_same h with
    | filter hab =>
      cases matches_of_same h' with
      | filter hbc =>
        cases hb with
        | filter hb =>
          cases hc with
          | filter hc =>
            exact same_of_matches (.filter (forall₂_trans_of_mem hab hbc
              fun l hl m hm n hn => ih l hl (hb m hm) (hc n hn)))
  | other hu =>
    cases matches_of_same h with
    | other huv =>
      cases matches_of_same h' with
      | other hvw =>
        cases hb with
        | other hv =>
          cases hc with
          | other hw => exact same_of_matches (.other (Value.same_trans hu hv hw huv hvw))

end Equivalence

section Answers

theorem exists_sameAll (hothers : ∀ n ∈ others, n.IsSettled)
    (h : ∀ m ∈ nodes, ∀ {n : Node}, n.IsSettled → ∃ r, m.same n = .ok r) :
    ∃ r, sameAll nodes others = .ok r := by
  rw [sameAll_eq_all]
  exact Comparison.exists_all fun m hm n hn => h m hm (hothers n hn)

theorem exists_same (ha : a.IsSettled) (hb : b.IsSettled) : ∃ r, a.same b = .ok r := by
  induction ha generalizing b with
  | leaf _ _ hv =>
    cases hb with
    | leaf _ _ hw =>
      rw [same]
      split
      · exact Value.exists_same hv hw
      · exact ⟨false, rfl⟩
    | _ => exact ⟨false, rfl⟩
  | logical _ _ ih =>
    cases hb with
    | logical _ hothers =>
      rw [same]
      split
      · exact exists_sameAll hothers ih
      · exact ⟨false, rfl⟩
    | _ => exact ⟨false, rfl⟩
  | filter _ ih =>
    cases hb with
    | filter hothers => exact exists_sameAll hothers ih
    | _ => exact ⟨false, rfl⟩
  | other hv =>
    cases hb with
    | other hw => exact Value.exists_same hv hw
    | _ => exact ⟨false, rfl⟩

theorem same_comm (ha : a.IsSettled) (hb : b.IsSettled) : a.same b = b.same a :=
  Comparison.eq_of_iff (exists_same ha hb) (exists_same hb ha) ⟨same_symm ha hb, same_symm hb ha⟩

end Answers

theorem equal_eq_same (h : a.IsSettled) (b : Node) : a.equal b = a.same b := by
  cases h with
  | leaf operator field _ => rfl
  | logical connective _ => rfl
  | filter _ => rfl
  | @other v hv =>
    cases b with
    | other w =>
      have hnan : v.isNaN = false := by
        cases hv with
        | float hx => exact decide_eq_false hx
        | _ => rfl
      rw [equal, Value.equal, hnan, same]
      rfl
    | _ => rfl

end FindQuery.Node
