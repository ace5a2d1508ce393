import FindQuery.Params.Basic
import FindQuery.Proofs.Entries
import FindQuery.Proofs.Group.Distinct

/-! First values under keys, and parameters out of pairs whose keys differ. -/

namespace FindQuery

namespace Params

theorem first_eq_nil {params : Params} {key : Text} (h : key ∉ params.keys) :
    params.first key = [] := by
  rw [first, Entries.get?_eq_none h]

section Only
variable {p : Text → Prop} [DecidablePred p]

def only (params : Params) (p : Text → Prop) [DecidablePred p] : Params :=
  params.filter fun e => decide (p e.1)

theorem keys_only (params : Params) :
    (params.only p).keys = params.keys.filter fun key => decide (p key) :=
  Entries.keys_filter (fun key => decide (p key)) params

theorem mem_keys_only {params : Params} {key : Text} :
    key ∈ (params.only p).keys ↔ key ∈ params.keys ∧ p key := by
  rw [keys_only, List.mem_filter, decide_eq_true_eq]

theorem first_only {params : Params} {key : Text} (h : p key) :
    (params.only p).first key = params.first key := by
  have hget : (params.only p).get? key = params.get? key :=
    Entries.get?_filter (p := fun key => decide (p key)) (decide_eq_true h) params
  rw [first, first, hget]

end Only

section OfPairs

def valuesOf (pairs : List (Text × Text)) (key : Text) : List Text :=
  (pairs.filter (·.1 = key)).map Prod.snd

def gathered (pairs : List (Text × Text)) : Params :=
  (Group.distinct (pairs.map Prod.fst)).map fun key => (key, valuesOf pairs key)

theorem valuesOf_concat_self (pairs : List (Text × Text)) (pair : Text × Text) :
    valuesOf (pairs ++ [pair]) pair.1 = valuesOf pairs pair.1 ++ [pair.2] := by
  simp [valuesOf]

theorem valuesOf_concat_of_ne (pairs : List (Text × Text)) {pair : Text × Text} {key : Text}
    (h : key ≠ pair.1) : valuesOf (pairs ++ [pair]) key = valuesOf pairs key := by
  simp [valuesOf, Ne.symm h]

theorem valuesOf_eq_nil {pairs : List (Text × Text)} {key : Text}
    (h : key ∉ pairs.map Prod.fst) : valuesOf pairs key = [] := by
  have hnone : pairs.filter (·.1 = key) = [] := by
    rw [List.filter_eq_nil_iff]
    intro pair hpair hkey
    exact h (of_decide_eq_true hkey ▸ List.mem_map_of_mem hpair)
  rw [valuesOf, hnone, List.map_nil]

theorem valuesOf_of_nodup {pairs : List (Text × Text)} (h : (pairs.map Prod.fst).Nodup)
    {key value : Text} (hmem : (key, value) ∈ pairs) : valuesOf pairs key = [value] := by
  induction pairs with
  | nil => exact nomatch hmem
  | cons pair rest ih =>
    obtain ⟨hpair, hrest⟩ := List.nodup_cons.1 h
    rcases List.mem_cons.1 hmem with rfl | hmem
    · have hothers := valuesOf_eq_nil hpair
      rw [valuesOf] at hothers ⊢
      rw [List.filter_cons, if_pos (decide_eq_true rfl), List.map_cons, hothers]
    · have hkey : key ∈ rest.map Prod.fst := List.mem_map_of_mem (f := Prod.fst) hmem
      have hne : pair.1 ≠ key := fun heq => hpair (heq ▸ hkey)
      have hothers := ih hrest hmem
      rw [valuesOf] at hothers ⊢
      rw [List.filter_cons, if_neg (by simp [hne]), hothers]

theorem ofPairs_concat (pairs : List (Text × Text)) (pair : Text × Text) :
    ofPairs (pairs ++ [pair]) = (ofPairs pairs).add pair.1 pair.2 := List.foldl_append

theorem keys_ofPairs (pairs : List (Text × Text)) :
    (ofPairs pairs).keys = Group.distinct (pairs.map Prod.fst) := by
  induction pairs using List.reverseRecOn with
  | nil => rfl
  | append_singleton pairs pair ih =>
    rw [ofPairs_concat, add, Entries.keys_put, ih, List.map_append, List.map_singleton,
      Group.distinct_concat]
    by_cases hpair : pair.1 ∈ pairs.map Prod.fst
    · rw [if_pos (Group.mem_distinct.2 hpair), if_pos hpair]
    · rw [if_neg (mt Group.mem_distinct.1 hpair), if_neg hpair]

theorem distinct_ofPairs (pairs : List (Text × Text)) : (ofPairs pairs).Distinct := by
  rw [Entries.Distinct, keys_ofPairs]
  exact Group.nodup_distinct _

theorem get?_ofPairs (pairs : List (Text × Text)) (key : Text) :
    (ofPairs pairs).get? key =
      if key ∈ pairs.map Prod.fst then some (valuesOf pairs key) else none := by
  induction pairs using List.reverseRecOn generalizing key with
  | nil => rfl
  | append_singleton pairs pair ih =>
    have hvalues : ((ofPairs pairs).get? pair.1).getD [] = valuesOf pairs pair.1 := by
      rw [ih]
      by_cases hpair : pair.1 ∈ pairs.map Prod.fst
      · rw [if_pos hpair, Option.getD_some]
      · rw [if_neg hpair, Option.getD_none, valuesOf_eq_nil hpair]
    have hmem : key ∈ (pairs ++ [pair]).map Prod.fst ↔ key ∈ pairs.map Prod.fst ∨ key = pair.1 := by
      simp
    rw [ofPairs_concat, add]
    by_cases hkey : key = pair.1
    · rw [if_pos (hmem.2 (.inr hkey)), hkey, hvalues, Entries.get?_put_self, valuesOf_concat_self]
    · rw [or_iff_left hkey] at hmem
      rw [Entries.get?_put_of_ne _ _ hkey, ih, valuesOf_concat_of_ne _ hkey]
      exact if_congr hmem.symm rfl rfl

theorem ofPairs_eq_gathered (pairs : List (Text × Text)) : ofPairs pairs = gathered pairs := by
  apply Entries.eq_of_keys_eq (distinct_ofPairs pairs)
  · have hkeys : (gathered pairs).keys = Group.distinct (pairs.map Prod.fst) := by
      rw [gathered, Entries.keys, List.map_map]
      exact List.map_id _
    rw [keys_ofPairs, hkeys]
  · intro key
    rw [get?_ofPairs, gathered, Entries.get?_map_keys]
    exact if_congr Group.mem_distinct.symm rfl rfl

theorem first_ofPairs {pairs : List (Text × Text)} (h : (pairs.map Prod.fst).Nodup)
    {key value : Text} (hmem : (key, value) ∈ pairs) : (ofPairs pairs).first key = value := by
  have hkey : key ∈ pairs.map Prod.fst := List.mem_map_of_mem (f := Prod.fst) hmem
  rw [first, get?_ofPairs, if_pos hkey, valuesOf_of_nodup h hmem]

end OfPairs

end Params
end FindQuery
