import FindQuery.Text.Basic

/-! Cuts undo joins when no piece holds the separator, and no piece of a cut holds it. -/

namespace FindQuery.Text

section Characters

@[elab_as_elim]
theorem of_toNat_lt {bound : Nat} {P : Char → Prop} (c : Char) (h : c.toNat < bound)
    (hall : ∀ k < bound, P (Char.ofNat k)) : P c := by
  have hc := hall c.toNat h
  rwa [Char.ofNat_toNat] at hc

theorem toNat_ofNat {n : Nat} (h : n.isValidChar) : (Char.ofNat n).toNat = n := by
  rw [Char.ofNat, dif_pos h]
  rfl

theorem toLower_of_not_capital {c : Char} (h : c.toNat < 65 ∨ 90 < c.toNat) : c.toLower = c := by
  unfold Char.toLower
  split
  · next hcapital =>
    have hrange : 65 ≤ c.toNat ∧ c.toNat ≤ 90 := hcapital
    omega
  · rfl

end Characters

section Strip
variable {kind : Char → Bool} {s before body after : Text}

theorem dropWhile_of_forall (h : ∀ c ∈ s, kind c = false) : s.dropWhile kind = s := by
  cases s with
  | nil => rfl
  | cons c rest =>
    have hc : ¬ kind c = true := by
      rw [h c List.mem_cons_self]
      exact Bool.false_ne_true
    exact List.dropWhile_cons_of_neg hc

theorem stripWith_of_forall (h : ∀ c ∈ s, kind c = false) : stripWith kind s = s := by
  rw [stripWith, dropWhile_of_forall h, dropWhile_of_forall, List.reverse_reverse]
  intro c hc
  exact h c (List.mem_reverse.1 hc)

theorem stripWith_append (hbefore : ∀ c ∈ before, kind c = true) (hafter : ∀ c ∈ after, kind c = true)
    (hne : body ≠ []) (hbody : ∀ c ∈ body, kind c = false) :
    stripWith kind (before ++ body ++ after) = body := by
  have hfront : (before ++ body ++ after).dropWhile kind = body ++ after := by
    rw [List.append_assoc, List.dropWhile_append_of_pos hbefore]
    cases body with
    | nil => exact absurd rfl hne
    | cons c rest =>
      have hc : ¬ kind c = true := by
        rw [hbody c List.mem_cons_self]
        exact Bool.false_ne_true
      exact List.dropWhile_cons_of_neg hc
  have hback : ∀ c ∈ after.reverse, kind c = true := fun c hc => hafter c (List.mem_reverse.1 hc)
  rw [stripWith, hfront, List.reverse_append, List.dropWhile_append_of_pos hback,
    dropWhile_of_forall fun c hc => hbody c (List.mem_reverse.1 hc), List.reverse_reverse]

theorem exists_stripWith (kind : Char → Bool) (s : Text) :
    ∃ before after, s = before ++ stripWith kind s ++ after ∧ (∀ c ∈ before, kind c = true) ∧
      ∀ c ∈ after, kind c = true := by
  have hback : s.dropWhile kind =
      stripWith kind s ++ ((s.dropWhile kind).reverse.takeWhile kind).reverse := by
    rw [stripWith, ← List.reverse_append, List.takeWhile_append_dropWhile, List.reverse_reverse]
  refine ⟨s.takeWhile kind, ((s.dropWhile kind).reverse.takeWhile kind).reverse, ?_, ?_, ?_⟩
  · rw [List.append_assoc, ← hback, List.takeWhile_append_dropWhile]
  · exact List.all_eq_true.1 List.all_takeWhile
  · exact fun c hc => List.all_eq_true.1 List.all_takeWhile c (List.mem_reverse.1 hc)

end Strip

variable {sep : Char}

theorem splitOn_of_not_mem {s : Text} (h : sep ∉ s) : splitOn sep s = [s] := by
  induction s with
  | nil => rfl
  | cons c rest ih =>
    rw [List.mem_cons, not_or] at h
    rw [splitOn, if_neg (Ne.symm h.1), ih h.2]

theorem splitOn_append {s : Text} (h : sep ∉ s) (rest : Text) :
    splitOn sep (s ++ sep :: rest) = s :: splitOn sep rest := by
  induction s with
  | nil => rw [List.nil_append, splitOn, if_pos rfl]
  | cons c s ih =>
    rw [List.mem_cons, not_or] at h
    rw [List.cons_append, splitOn, if_neg (Ne.symm h.1), ih h.2]

theorem splitOn_joinWith {pieces : List Text} (hne : pieces ≠ [])
    (h : ∀ piece ∈ pieces, sep ∉ piece) : splitOn sep (joinWith [sep] pieces) = pieces := by
  induction pieces with
  | nil => exact absurd rfl hne
  | cons s rest ih =>
    cases rest with
    | nil => exact splitOn_of_not_mem (h s List.mem_cons_self)
    | cons t rest =>
      have hrest := ih (List.cons_ne_nil t rest) fun p hp => h p (List.mem_cons_of_mem s hp)
      rw [joinWith, List.append_assoc, List.singleton_append,
        splitOn_append (h s List.mem_cons_self), hrest]
      exact List.cons_ne_nil t rest

theorem cutAt_of_not_mem {s : Text} (h : sep ∉ s) : cutAt sep s = (s, none) := by
  induction s with
  | nil => rfl
  | cons c rest ih =>
    rw [List.mem_cons, not_or] at h
    rw [cutAt, if_neg (Ne.symm h.1), ih h.2]

theorem cutAt_append {s : Text} (h : sep ∉ s) (rest : Text) :
    cutAt sep (s ++ sep :: rest) = (s, some rest) := by
  induction s with
  | nil => rw [List.nil_append, cutAt, if_pos rfl]
  | cons c s ih =>
    rw [List.mem_cons, not_or] at h
    rw [List.cons_append, cutAt, if_neg (Ne.symm h.1), ih h.2]

theorem cutAt_cases (sep : Char) (s : Text) : (sep ∉ s ∧ cutAt sep s = (s, none)) ∨
    ∃ first second, s = first ++ sep :: second ∧ sep ∉ first ∧ cutAt sep s = (first, some second) := by
  by_cases h : sep ∈ s
  · obtain ⟨first, second, rfl, hfirst⟩ := List.eq_append_cons_of_mem h
    exact .inr ⟨first, second, rfl, hfirst, cutAt_append hfirst second⟩
  · exact .inl ⟨h, cutAt_of_not_mem h⟩

theorem splitOn_append_cons (sep : Char) (s rest : Text) :
    splitOn sep (s ++ sep :: rest) = splitOn sep s ++ splitOn sep rest := by
  rcases cutAt_cases sep s with ⟨h, -⟩ | ⟨first, second, rfl, hfirst, -⟩
  · rw [splitOn_append h, splitOn_of_not_mem h, List.singleton_append]
  · rw [List.append_assoc, List.cons_append, splitOn_append hfirst, splitOn_append hfirst,
      splitOn_append_cons sep second rest, List.cons_append]
termination_by s.length

theorem not_mem_of_mem_splitOn {s piece : Text} (h : piece ∈ splitOn sep s) : sep ∉ piece := by
  rcases cutAt_cases sep s with ⟨hs, -⟩ | ⟨first, second, rfl, hfirst, -⟩
  · rw [splitOn_of_not_mem hs, List.mem_singleton] at h
    exact h ▸ hs
  · rw [splitOn_append hfirst, List.mem_cons] at h
    rcases h with rfl | h
    · exact hfirst
    · exact not_mem_of_mem_splitOn h
termination_by s.length

theorem mem_of_mem_splitOn {s piece : Text} {c : Char} (h : piece ∈ splitOn sep s) (hc : c ∈ piece) :
    c ∈ s := by
  rcases cutAt_cases sep s with ⟨hs, -⟩ | ⟨first, second, rfl, hfirst, -⟩
  · rw [splitOn_of_not_mem hs, List.mem_singleton] at h
    exact h ▸ hc
  · rw [splitOn_append hfirst, List.mem_cons] at h
    rcases h with rfl | h
    · exact List.mem_append_left _ hc
    · exact List.mem_append_right _ (List.mem_cons_of_mem sep (mem_of_mem_splitOn h hc))
termination_by s.length

theorem mem_joinWith {sep : Text} {pieces : List Text} {c : Char} (h : c ∈ joinWith sep pieces) :
    c ∈ sep ∨ ∃ piece ∈ pieces, c ∈ piece := by
  induction pieces with
  | nil => exact nomatch h
  | cons s rest ih =>
    cases rest with
    | nil => exact .inr ⟨s, List.mem_cons_self, h⟩
    | cons t rest =>
      rw [joinWith, List.mem_append, List.mem_append] at h
      · rcases h with (h | h) | h
        · exact .inr ⟨s, List.mem_cons_self, h⟩
        · exact .inl h
        · rcases ih h with hsep | ⟨piece, hp, hc⟩
          · exact .inl hsep
          · exact .inr ⟨piece, List.mem_cons_of_mem s hp, hc⟩
      · exact List.cons_ne_nil t rest

end FindQuery.Text
