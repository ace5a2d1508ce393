import FindQuery.Proofs.Entries
import FindQuery.Value.Same

/-! Two copies of a value that were made apart, with a payload each. -/

namespace FindQuery

theorem Comparison.and_ok (a b : Bool) : Comparison.and (.ok a) (.ok b) = .ok (a && b) := by
  cases a <;> rfl

namespace Quantity

theorem same_ofInt (n : Int) : (ofInt n).same (ofInt n) = true := by
  unfold same ofInt
  simp only [decide_true, Bool.true_and, decide_eq_true_eq]
  exact nofun

theorem same_ofFloat {x : Binary64} (h : ¬ x.IsNaN) : (ofFloat x).same (ofFloat x) = true := by
  unfold same ofFloat
  rw [if_neg h]
  simp only [decide_true, Bool.true_and, decide_eq_true_eq]
  split <;> exact nofun

theorem ofFloat_nanWith (payload : Nat) :
    ofFloat (Binary64.nanWith payload) = .notANumber (Binary64.nanWith payload) := by
  have hnan : (Binary64.nanWith payload).IsNaN := by
    have hpos : 0 < payloadCount + payload % payloadCount := Nat.add_pos_left (by decide) _
    exact ⟨rfl, Nat.ne_of_gt hpos⟩
  exact if_pos hnan

theorem same_ofFloat_nanWith {m n : Nat} (h : m % payloadCount ≠ n % payloadCount) :
    (ofFloat (Binary64.nanWith m)).same (ofFloat (Binary64.nanWith n)) = false := by
  rw [ofFloat_nanWith, ofFloat_nanWith, same, Bool.and_eq_false_iff]
  refine .inl (decide_eq_false ?_)
  intro heq
  have hfraction := congrArg (fun x : Binary64 => x.fraction.val) (notANumber.inj heq)
  exact h (Nat.add_left_cancel hfraction)

end Quantity

namespace Value

mutual

def holdsNaN : Value → Bool
  | .float x => decide x.IsNaN
  | .list items => anyHoldsNaN items
  | .document entries => anyEntryHoldsNaN entries
  | _ => false

def anyHoldsNaN : List Value → Bool
  | [] => false
  | v :: rest => holdsNaN v || anyHoldsNaN rest

def anyEntryHoldsNaN : List (Text × Value) → Bool
  | [] => false
  | (_, v) :: rest => holdsNaN v || anyEntryHoldsNaN rest

end

theorem anyHoldsNaN_iff {items : List Value} :
    anyHoldsNaN items = true ↔ ∃ v ∈ items, v.holdsNaN = true := by
  induction items with
  | nil => simp [anyHoldsNaN]
  | cons v rest ih => simp [anyHoldsNaN, ih]

/-- A value as it is made: what is no number has no payload yet, and no document has a key twice. -/
inductive IsFresh : Value → Prop
  | null : IsFresh .null
  | bool (b : Bool) : IsFresh (.bool b)
  | int (n : Int) : IsFresh (.int n)
  | float {x : Binary64} : (x.IsNaN → x = Binary64.nan) → IsFresh (.float x)
  | text (s : Text) : IsFresh (.text s)
  | moment (m : Moment) : IsFresh (.moment m)
  | pattern (p : Pattern) : IsFresh (.pattern p)
  | list {items : List Value} : (∀ v ∈ items, IsFresh v) → IsFresh (.list items)
  | document {entries : Entries Value} : entries.Distinct → (∀ e ∈ entries, IsFresh e.2) →
      IsFresh (.document entries)

theorem markAll_eq_map (payload : Nat) (items : List Value) :
    markAll payload items = items.map (mark payload) := by
  induction items with
  | nil => rfl
  | cons v rest ih => rw [markAll, ih, List.map_cons]

theorem markEntries_eq_map (payload : Nat) (entries : List (Text × Value)) :
    markEntries payload entries = entries.map fun e => (e.1, e.2.mark payload) := by
  induction entries with
  | nil => rfl
  | cons e rest ih => rw [markEntries, ih, List.map_cons]

theorem get?_markEntries {entries : Entries Value} (h : entries.Distinct) {e : Text × Value}
    (he : e ∈ entries) (payload : Nat) :
    Entries.get? (markEntries payload entries) e.1 = some (e.2.mark payload) := by
  have hkeys : Entries.keys (markEntries payload entries) = entries.keys := by
    rw [markEntries_eq_map, Entries.keys, List.map_map]
    rfl
  apply Entries.get?_of_mem
  · rwa [Entries.Distinct, hkeys]
  · rw [markEntries_eq_map]
    exact List.mem_map_of_mem he

section Copies
variable {m n : Nat}

theorem same_mark_float (hmn : m % payloadCount ≠ n % payloadCount) {x : Binary64}
    (h : x.IsNaN → x = Binary64.nan) :
    (mark m (.float x)).same (mark n (.float x)) = .ok (!(Value.float x).holdsNaN) := by
  rw [holdsNaN]
  by_cases hx : x.IsNaN
  · rw [decide_eq_true hx, h hx, mark, mark, if_pos rfl, if_pos rfl]
    exact congrArg Except.ok (Quantity.same_ofFloat_nanWith hmn)
  · have hne : x ≠ Binary64.nan := by
      rintro rfl
      exact hx (by decide)
    rw [decide_eq_false hx, mark, mark, if_neg hne, if_neg hne]
    exact congrArg Except.ok (Quantity.same_ofFloat hx)

mutual

theorem same_mark (hmn : m % payloadCount ≠ n % payloadCount) :
    ∀ {v : Value}, v.IsFresh → (v.mark m).same (v.mark n) = .ok (!v.holdsNaN)
  | .null, _ => rfl
  | .bool b, _ => congrArg Except.ok (Quantity.same_ofInt _)
  | .int k, _ => congrArg Except.ok (Quantity.same_ofInt k)
  | .float x, h => by
    cases h with
    | float h => exact same_mark_float hmn h
  | .text s, _ => by
    show Except.ok (decide (s = s)) = _
    rw [decide_eq_true rfl]
    rfl
  | .moment a, _ => a.same_self
  | .pattern p, _ => by
    show Except.ok (decide (p = p)) = _
    rw [decide_eq_true rfl]
    rfl
  | .list items, h => by
    cases h with
    | list h =>
      have hlength : (markAll m items).length = (markAll n items).length := by
        rw [markAll_eq_map, markAll_eq_map, List.length_map, List.length_map]
      rw [mark, mark, same, if_pos hlength]
      exact sameAll_markAll hmn h
  | .document entries, h => by
    cases h with
    | document hdistinct h =>
      have hlength : (markEntries m entries).length = (markEntries n entries).length := by
        rw [markEntries_eq_map, markEntries_eq_map, List.length_map, List.length_map]
      rw [mark, mark, same, if_pos hlength]
      exact sameWithin_markEntries hmn hdistinct entries (fun e he => he) h

theorem sameAll_markAll (hmn : m % payloadCount ≠ n % payloadCount) :
    ∀ {items : List Value}, (∀ v ∈ items, IsFresh v) →
      sameAll (markAll m items) (markAll n items) = .ok (!anyHoldsNaN items)
  | [], _ => rfl
  | v :: rest, h => by
    have hv := same_mark hmn (h v List.mem_cons_self)
    have hrest := sameAll_markAll hmn fun w hw => h w (List.mem_cons_of_mem v hw)
    rw [markAll, markAll, sameAll, hv, hrest, Comparison.and_ok, anyHoldsNaN, Bool.not_or]

theorem sameWithin_markEntries (hmn : m % payloadCount ≠ n % payloadCount) {whole : Entries Value}
    (hdistinct : whole.Distinct) :
    ∀ entries : List (Text × Value), (∀ e ∈ entries, e ∈ whole) → (∀ e ∈ entries, IsFresh e.2) →
      sameWithin (markEntries m entries) (markEntries n whole) = .ok (!anyEntryHoldsNaN entries)
  | [], _, _ => rfl
  | (k, v) :: rest, hmem, h => by
    have hv := same_mark hmn (h (k, v) List.mem_cons_self)
    have hget := get?_markEntries hdistinct (hmem (k, v) List.mem_cons_self) n
    have hrest := sameWithin_markEntries hmn hdistinct rest
      (fun e he => hmem e (List.mem_cons_of_mem _ he)) (fun e he => h e (List.mem_cons_of_mem _ he))
    rw [markEntries, sameWithin, hget]
    show Comparison.and (same (mark m v) (mark n v)) _ = _
    rw [hv, hrest, Comparison.and_ok, anyEntryHoldsNaN, Bool.not_or]

end

end Copies

end Value
end FindQuery
