import FindQuery.Proofs.Params.Legal

/-! Two query strings joined by `&`. -/

namespace FindQuery

namespace Params

def values (params : Params) (key : Text) : List Text := (params.get? key).getD []

/-- The keys of the first parameters and then those that are new in the second. Under each key the values of
the first come before those of the second. -/
def followedBy (first second : Params) : Params :=
  (first.keys ++ second.keys.filter (· ∉ first.keys)).map fun key =>
    (key, first.values key ++ second.values key)

theorem valuesOf_append (ps qs : List (Text × Text)) (key : Text) :
    valuesOf (ps ++ qs) key = valuesOf ps key ++ valuesOf qs key := by
  rw [valuesOf, List.filter_append, List.map_append]
  rfl

theorem values_ofPairs (ps : List (Text × Text)) (key : Text) :
    (ofPairs ps).values key = valuesOf ps key := by
  rw [values, get?_ofPairs]
  split
  · rfl
  · next h => rw [valuesOf_eq_nil h, Option.getD_none]

theorem ofPairs_append (ps qs : List (Text × Text)) :
    ofPairs (ps ++ qs) = (ofPairs ps).followedBy (ofPairs qs) := by
  have hkeys : Group.distinct ((ps ++ qs).map Prod.fst) =
      (ofPairs ps).keys ++ (ofPairs qs).keys.filter (· ∉ (ofPairs ps).keys) := by
    rw [keys_ofPairs, keys_ofPairs, List.map_append, Group.distinct_append]
    apply congrArg
    apply List.filter_congr
    intro key _
    exact decide_eq_decide.2 (not_congr Group.mem_distinct.symm)
  rw [ofPairs_eq_gathered, gathered, hkeys, followedBy]
  apply List.map_congr_left
  intro key _
  rw [valuesOf_append, values_ofPairs, values_ofPairs]

end Params

namespace Query

theorem segments_append (a b : Text) : segments (a ++ '&' :: b) = segments a ++ segments b := by
  rw [segments, Text.splitOn_append_cons, List.filter_append]
  rfl

theorem pairs_append_eq_ok {xs ys : List Text} {ps : List (Text × Text)} :
    pairs (xs ++ ys) = .ok ps ↔ ∃ qs rs, pairs xs = .ok qs ∧ pairs ys = .ok rs ∧ qs ++ rs = ps := by
  induction xs generalizing ps with
  | nil => simp [pairs]
  | cons x xs ih =>
    simp only [List.cons_append, pairs, bind_eq_ok, ih, pure, Except.pure, Except.ok.injEq]
    constructor
    · rintro ⟨p, hp, _, ⟨qs, rs, hqs, hrs, rfl⟩, rfl⟩
      exact ⟨p :: qs, rs, ⟨p, hp, qs, hqs, rfl⟩, hrs, rfl⟩
    · rintro ⟨_, rs, ⟨p, hp, qs, hqs, rfl⟩, hrs, rfl⟩
      exact ⟨p, hp, qs ++ rs, ⟨qs, rs, hqs, hrs, rfl⟩, rfl⟩

/-- Two query strings are read side by side: both have to be legal, and the parameters of the one follow
those of the other. -/
theorem parse_amp_eq_ok_iff (a b : Text) (params : Params) : parse (a ++ '&' :: b) = .ok params ↔
    ∃ first second, parse a = .ok first ∧ parse b = .ok second ∧ params = first.followedBy second := by
  have hsemicolon : ';' ∉ a ++ '&' :: b ↔ ';' ∉ a ∧ ';' ∉ b := by
    rw [List.mem_append, List.mem_cons, not_or, not_or, and_iff_right (by decide : ';' ≠ '&')]
  simp only [parse_eq_ok, hasBadEscape_amp, not_or, hsemicolon, segments_append, pairs_append_eq_ok]
  constructor
  · rintro ⟨⟨ha, hb⟩, ⟨ha', hb'⟩, _, ⟨ps, qs, hps, hqs, rfl⟩, rfl⟩
    exact ⟨_, _, ⟨ha, ha', ps, hps, rfl⟩, ⟨hb, hb', qs, hqs, rfl⟩, Params.ofPairs_append ps qs⟩
  · rintro ⟨_, _, ⟨ha, ha', ps, hps, rfl⟩, ⟨hb, hb', qs, hqs, rfl⟩, rfl⟩
    exact ⟨⟨ha, hb⟩, ⟨ha', hb'⟩, _, ⟨ps, qs, hps, hqs, rfl⟩, Params.ofPairs_append ps qs⟩

end Query
end FindQuery
