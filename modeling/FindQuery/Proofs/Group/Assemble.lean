import FindQuery.Group.Parse

/-! What an assembled filter is made of. -/

namespace FindQuery.Group

variable {P : Node → Prop} {conditions : List (Triple × Node)}

theorem forall_combine (hlogical : ∀ connective children, (∀ node ∈ children, P node) →
      P (.logical connective children)) {connective : Connective} {nodes : List Node}
    (h : ∀ node ∈ nodes, P node) : P (combine connective nodes) := by
  unfold combine
  split
  · next node => exact h node List.mem_cons_self
  · exact hlogical connective _ h

theorem forall_mem_assemble (hlogical : ∀ connective children, (∀ node ∈ children, P node) →
      P (.logical connective children)) (h : ∀ p ∈ conditions, P p.2) :
    ∀ node ∈ (assemble conditions).members, P node := by
  have hconjuncts : ∀ node ∈ (groupBy (·.1.andIndex) conditions).map
      (fun g => combine .or (g.2.map Prod.snd)), P node := by
    intro node hnode
    obtain ⟨g, hg, rfl⟩ := List.mem_map.1 hnode
    obtain ⟨index, -, rfl⟩ := List.mem_map.1 hg
    apply forall_combine hlogical
    intro leaf hleaf
    obtain ⟨p, hp, rfl⟩ := List.mem_map.1 hleaf
    exact h p (List.mem_filter.1 hp).1
  simp only [assemble]
  split
  · exact nofun
  · intro node hnode
    rw [List.mem_singleton.1 hnode]
    exact forall_combine hlogical hconjuncts

theorem length_members_assemble (conditions : List (Triple × Node)) :
    (assemble conditions).members.length ≤ 1 := by
  simp only [assemble]
  split
  · exact Nat.zero_le 1
  · exact Nat.le_refl 1

end FindQuery.Group
