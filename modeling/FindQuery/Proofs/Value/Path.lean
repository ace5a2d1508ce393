import FindQuery.Proofs.Entries
import FindQuery.Proofs.Outcome
import FindQuery.Value.Path

/-! What a change at the end of a path leaves there, and that nothing beside the path feels it. -/

namespace FindQuery

section Element
variable {α : Type} {items : List α} {i : Int} {n : Nat} {a : α}

theorem elementAt?_set_self (h : elementAt? items i = some (n, a)) (b : α) :
    elementAt? (items.set n b) i = some (n, b) := by
  unfold elementAt? at h ⊢
  rw [List.length_set]
  generalize (if i < 0 then i + (items.length : Int) else i) = place at h ⊢
  by_cases hplace : place < 0
  · rw [if_pos hplace] at h
    exact nomatch h
  · rw [if_neg hplace] at h ⊢
    obtain ⟨c, hget, heq⟩ := Option.map_eq_some_iff.1 h
    obtain ⟨rfl, rfl⟩ := Prod.mk.inj heq
    obtain ⟨hlt, -⟩ := List.getElem?_eq_some_iff.1 hget
    rw [List.getElem?_set_self hlt]
    rfl

theorem elementAt?_set_of_ne (h : (elementAt? items i).map Prod.fst ≠ some n) (b : α) :
    elementAt? (items.set n b) i = elementAt? items i := by
  unfold elementAt? at h ⊢
  rw [List.length_set]
  generalize (if i < 0 then i + (items.length : Int) else i) = place at h ⊢
  by_cases hplace : place < 0
  · rw [if_pos hplace, if_pos hplace]
  · rw [if_neg hplace] at h ⊢
    rw [if_neg hplace]
    cases hget : items[place.toNat]? with
    | none =>
      have hlength := List.getElem?_eq_none_iff.1 hget
      rw [List.getElem?_eq_none_iff.2 (by rwa [List.length_set])]
    | some c =>
      rw [hget] at h
      have hne : n ≠ place.toNat := fun heq => h (congrArg some heq.symm)
      rw [List.getElem?_set_ne hne, hget]

end Element

namespace Value

def partAt? (v : Value) (path : List PathStep) : Option Value :=
  match path, v with
  | [], v => some v
  | .key k :: path, .document es => (Entries.get? es k).bind (partAt? · path)
  | .position i :: path, .list items => (elementAt? items i).bind fun e => partAt? e.2 path
  | _, _ => none

/-- Two paths that part in a value. Positions are told apart by the places they stand for, since the
last one has two names. -/
inductive Apart : Value → List PathStep → List PathStep → Prop
  | keys {v : Value} {k l : Text} {path other : List PathStep} :
      k ≠ l → Apart v (.key k :: path) (.key l :: other)
  | positions {items : List Value} {i j : Int} {path other : List PathStep} :
      (elementAt? items i).map Prod.fst ≠ (elementAt? items j).map Prod.fst →
      Apart (.list items) (.position i :: path) (.position j :: other)
  | within {es : Document} {k : Text} {part : Value} {path other : List PathStep} :
      Entries.get? es k = some part → Apart part path other →
      Apart (.document es) (.key k :: path) (.key k :: other)
  | inside {items : List Value} {i j : Int} {n : Nat} {part : Value} {path other : List PathStep} :
      elementAt? items i = some (n, part) → elementAt? items j = some (n, part) →
      Apart part path other → Apart (.list items) (.position i :: path) (.position j :: other)

section Change
variable {change : Value → Except PathError Value} {v w : Value} {path other : List PathStep}

theorem changeAt_text (hrefused : ∀ s w, change (.text s) ≠ .ok w) (s : Text) (w : Value) :
    changeAt change (.text s) path ≠ .ok w := by
  induction path generalizing s w with
  | nil => exact hrefused s w
  | cons step path ih =>
    cases step with
    | key k => exact nofun
    | position i =>
      simp only [changeAt]
      split
      · exact nofun
      · next c _ =>
        cases hc : changeAt change (.text [c]) path with
        | error e => exact nofun
        | ok part => exact absurd hc (ih [c] part)

theorem partAt?_changeAt (hrefused : ∀ s w, change (.text s) ≠ .ok w)
    (h : changeAt change v path = .ok w) :
    ∃ part new, v.partAt? path = some part ∧ change part = .ok new ∧ w.partAt? path = some new := by
  induction path generalizing v w with
  | nil => exact ⟨v, w, rfl, h, rfl⟩
  | cons step path ih =>
    cases v with
    | document es =>
      cases step with
      | position i => exact nomatch h
      | key k =>
        simp only [changeAt] at h
        split at h
        · exact nomatch h
        · next part hget =>
          obtain ⟨changed, hchanged, rfl⟩ := map_eq_ok.1 h
          obtain ⟨old, new, hold, hchange, hnew⟩ := ih hchanged
          refine ⟨old, new, ?_, hchange, ?_⟩
          · rw [partAt?, hget]
            exact hold
          · rw [partAt?, Entries.get?_put_self]
            exact hnew
    | list items =>
      cases step with
      | key k => exact nomatch h
      | position i =>
        simp only [changeAt] at h
        split at h
        · exact nomatch h
        · next place part hget =>
          obtain ⟨changed, hchanged, rfl⟩ := map_eq_ok.1 h
          obtain ⟨old, new, hold, hchange, hnew⟩ := ih hchanged
          refine ⟨old, new, ?_, hchange, ?_⟩
          · rw [partAt?, hget]
            exact hold
          · rw [partAt?, elementAt?_set_self hget]
            exact hnew
    | text s => exact absurd h (changeAt_text hrefused s w)
    | _ => cases step <;> exact nomatch h

theorem partAt?_changeAt_of_apart (hapart : v.Apart path other) (h : changeAt change v path = .ok w) :
    w.partAt? other = v.partAt? other := by
  induction hapart generalizing w with
  | @keys v k l path other hne =>
    cases v with
    | document es =>
      simp only [changeAt] at h
      split at h
      · exact nomatch h
      · obtain ⟨changed, -, rfl⟩ := map_eq_ok.1 h
        rw [partAt?, partAt?, Entries.get?_put_of_ne _ _ hne.symm]
    | _ => exact nomatch h
  | positions hne =>
    simp only [changeAt] at h
    split at h
    · exact nomatch h
    · next place part hget =>
      obtain ⟨changed, -, rfl⟩ := map_eq_ok.1 h
      rw [hget] at hne
      rw [partAt?, partAt?, elementAt?_set_of_ne hne.symm]
  | within hpart _ ih =>
    simp only [changeAt, hpart] at h
    obtain ⟨changed, hchanged, rfl⟩ := map_eq_ok.1 h
    rw [partAt?, partAt?, Entries.get?_put_self, hpart]
    exact ih hchanged
  | inside hi hj _ ih =>
    simp only [changeAt, hi] at h
    obtain ⟨changed, hchanged, rfl⟩ := map_eq_ok.1 h
    rw [partAt?, partAt?, elementAt?_set_self hj, hj]
    exact ih hchanged

end Change

section Edits
variable {v w item : Value} {path : List PathStep} {key : Text}

theorem partAt?_appendAt (h : v.appendAt path item = .ok w) :
    ∃ items, v.partAt? path = some (.list items) ∧
      w.partAt? path = some (.list (items ++ [item])) := by
  obtain ⟨part, new, hpart, hchange, hnew⟩ := partAt?_changeAt (by intro s w hw; exact nomatch hw) h
  cases part with
  | list items =>
    obtain rfl := Except.ok.inj hchange
    exact ⟨items, hpart, hnew⟩
  | _ => exact nomatch hchange

theorem partAt?_putAt (h : v.putAt path key item = .ok w) :
    ∃ es, v.partAt? path = some (.document es) ∧
      w.partAt? path = some (.document (Entries.put es key item)) := by
  obtain ⟨part, new, hpart, hchange, hnew⟩ := partAt?_changeAt (by intro s w hw; exact nomatch hw) h
  cases part with
  | document es =>
    obtain rfl := Except.ok.inj hchange
    exact ⟨es, hpart, hnew⟩
  | _ => exact nomatch hchange

end Edits

end Value
end FindQuery
