import Mathlib.Data.List.Induction
import FindQuery.Group.Parse

/-! Lists without repetition, and the groups of elements that share a key. -/

namespace FindQuery.Group

section Distinct
variable {α β γ : Type} [DecidableEq α] [DecidableEq β]

theorem mem_distinct {l : List α} {a : α} : a ∈ distinct l ↔ a ∈ l := by
  induction l with
  | nil => exact Iff.rfl
  | cons b rest ih =>
    simp only [distinct, List.mem_cons, List.mem_filter, ih, decide_eq_true_eq]
    constructor
    · rintro (rfl | ⟨h, -⟩)
      · exact .inl rfl
      · exact .inr h
    · intro h
      by_cases hab : a = b
      · exact .inl hab
      · exact .inr ⟨h.resolve_left hab, hab⟩

theorem nodup_distinct (l : List α) : (distinct l).Nodup := by
  induction l with
  | nil => exact List.nodup_nil
  | cons b rest ih =>
    refine List.nodup_cons.2 ⟨?_, ih.filter _⟩
    intro hb
    have hne := (List.mem_filter.1 hb).2
    exact absurd rfl (of_decide_eq_true hne)

theorem distinct_sublist (l : List α) : (distinct l).Sublist l := by
  induction l with
  | nil => exact List.Sublist.refl _
  | cons b rest ih => exact (List.filter_sublist.trans ih).cons_cons b

theorem distinct_filter (p : α → Bool) (l : List α) :
    distinct (l.filter p) = (distinct l).filter p := by
  induction l with
  | nil => rfl
  | cons a rest ih =>
    by_cases ha : p a = true
    · rw [List.filter_cons_of_pos ha, distinct, distinct, List.filter_cons_of_pos ha, ih,
        List.filter_filter, List.filter_filter]
      simp only [Bool.and_comm]
    · rw [List.filter_cons_of_neg ha, distinct, List.filter_cons_of_neg ha, ih, List.filter_filter]
      apply List.filter_congr
      intro b hb
      by_cases hba : b = a
      · subst hba
        simp [ha]
      · simp [hba]

theorem distinct_concat (l : List α) (a : α) :
    distinct (l ++ [a]) = if a ∈ l then distinct l else distinct l ++ [a] := by
  induction l with
  | nil => rfl
  | cons b rest ih =>
    rw [List.cons_append, distinct, ih, distinct]
    by_cases hab : a = b
    · subst hab
      split <;> simp
    · by_cases ha : a ∈ rest <;> simp [ha, hab]

theorem distinct_append (l rest : List α) :
    distinct (l ++ rest) = distinct l ++ (distinct rest).filter (· ∉ l) := by
  induction l with
  | nil =>
    have hall : (distinct rest).filter (· ∉ ([] : List α)) = distinct rest :=
      List.filter_eq_self.2 fun b _ => decide_eq_true List.not_mem_nil
    rw [hall]
    rfl
  | cons a l ih =>
    have hnew : ((distinct rest).filter (· ∉ l)).filter (· ≠ a) =
        (distinct rest).filter (· ∉ a :: l) := by
      rw [List.filter_filter]
      apply List.filter_congr
      intro b _
      simp only [List.mem_cons, not_or, Bool.decide_and]
    rw [List.cons_append, distinct, ih, List.filter_append, hnew, distinct, List.cons_append]

theorem distinct_filterMap_filter {f : γ → Option α} {p : γ → Bool} {l : List γ}
    (h : ∀ before c after, l = before ++ c :: after → p c = false → ∀ a, f c = some a →
      ∃ d ∈ before, f d = some a) :
    distinct ((l.filter p).filterMap f) = distinct (l.filterMap f) := by
  induction l using List.reverseRecOn with
  | nil => rfl
  | append_singleton l c ih =>
    have hprefix : distinct ((l.filter p).filterMap f) = distinct (l.filterMap f) := by
      apply ih
      intro before d after hl hd
      exact h before d (after ++ [c]) (by rw [hl]; simp) hd
    have hmem (a : α) : a ∈ (l.filter p).filterMap f ↔ a ∈ l.filterMap f := by
      rw [← mem_distinct, hprefix, mem_distinct]
    rw [List.filter_append, List.filterMap_append, List.filterMap_append]
    cases hc : f c with
    | none => by_cases hp : p c = true <;> simp [hc, hp, hprefix]
    | some a =>
      by_cases hp : p c = true
      · have hself : ([c].filter p).filterMap f = [a] := by simp [hc, hp]
        have hself' : [c].filterMap f = [a] := by simp [hc]
        rw [hself, hself', distinct_concat, distinct_concat, hprefix]
        simp only [hmem]
      · obtain ⟨d, hd, hda⟩ := h l c [] rfl (Bool.eq_false_iff.2 hp) a hc
        have ha : a ∈ l.filterMap f := List.mem_filterMap.2 ⟨d, hd, hda⟩
        have hgone : ([c].filter p).filterMap f = [] := by simp [hp]
        have hself' : [c].filterMap f = [a] := by simp [hc]
        rw [hgone, hself', List.append_nil, distinct_concat, if_pos ha, hprefix]

theorem distinct_map_distinct (f : α → β) (l : List α) :
    distinct ((distinct l).map f) = distinct (l.map f) := by
  induction l with
  | nil => rfl
  | cons a rest ih =>
    rw [distinct, List.map_cons, List.map_cons, distinct, distinct, ← ih]
    congr 1
    generalize distinct rest = d
    rw [← distinct_filter, ← distinct_filter, List.filter_map, List.filter_map, List.filter_filter]
    congr 2
    apply List.filter_congr
    intro b hb
    by_cases hba : b = a
    · subst hba
      simp
    · simp [hba]

theorem pairwise_distinct_filterMap (f : γ → Option α) (l : List γ) :
    (distinct (l.filterMap f)).Pairwise fun a b =>
      l.findIdx (fun c => f c = some a) < l.findIdx (fun c => f c = some b) := by
  induction l with
  | nil => exact List.Pairwise.nil
  | cons c rest ih =>
    cases hc : f c with
    | none =>
      rw [List.filterMap_cons_none hc]
      refine ih.imp fun {a b} hab => ?_
      rw [List.findIdx_cons, List.findIdx_cons]
      simpa [hc] using hab
    | some x =>
      rw [List.filterMap_cons_some hc, distinct]
      refine List.pairwise_cons.2 ⟨?_, ?_⟩
      · intro b hb
        have hne : b ≠ x := of_decide_eq_true (List.mem_filter.1 hb).2
        rw [List.findIdx_cons, List.findIdx_cons]
        simp [hc, Ne.symm hne]
      · refine (ih.filter _).imp_of_mem fun {a b} ha hb hab => ?_
        have hna : a ≠ x := of_decide_eq_true (List.mem_filter.1 ha).2
        have hnb : b ≠ x := of_decide_eq_true (List.mem_filter.1 hb).2
        rw [List.findIdx_cons, List.findIdx_cons]
        simpa [hc, Ne.symm hna, Ne.symm hnb] using hab

end Distinct

section GroupBy
variable {α β κ : Type} [DecidableEq κ]

theorem distinct_append_of_forall_eq {k : κ} {l rest : List κ} (hl : ∀ a ∈ l, a = k)
    (hne : l ≠ []) (hrest : k ∉ rest) : distinct (l ++ rest) = k :: distinct rest := by
  cases l with
  | nil => exact absurd rfl hne
  | cons a l =>
    obtain rfl := hl a List.mem_cons_self
    have hnone : l.filter (· ≠ a) = [] := by
      rw [List.filter_eq_nil_iff]
      intro b hb
      simp [hl b (List.mem_cons_of_mem _ hb)]
    have hall : rest.filter (· ≠ a) = rest := by
      rw [List.filter_eq_self]
      intro b hb
      exact decide_eq_true fun hba => hrest (hba ▸ hb)
    rw [List.cons_append, distinct, ← distinct_filter, List.filter_append, hnone, hall,
      List.nil_append]

variable {key : α → κ} {blocks : List β} {f : β → List α} {k : β → κ}

theorem distinct_map_flatMap (hkey : ∀ b ∈ blocks, ∀ a ∈ f b, key a = k b)
    (hne : ∀ b ∈ blocks, f b ≠ []) (hnodup : (blocks.map k).Nodup) :
    distinct ((blocks.flatMap f).map key) = blocks.map k := by
  induction blocks with
  | nil => rfl
  | cons b rest ih =>
    obtain ⟨hb, hrest⟩ := List.nodup_cons.1 hnodup
    have hkeyb := hkey b List.mem_cons_self
    have hkeyrest : ∀ c ∈ rest, ∀ a ∈ f c, key a = k c :=
      fun c hc => hkey c (List.mem_cons_of_mem b hc)
    have ih := ih hkeyrest (fun c hc => hne c (List.mem_cons_of_mem b hc)) hrest
    rw [List.flatMap_cons, List.map_append, List.map_cons, ← ih]
    apply distinct_append_of_forall_eq
    · intro c hc
      obtain ⟨a, ha, rfl⟩ := List.mem_map.1 hc
      exact hkeyb a ha
    · intro hnil
      exact hne b List.mem_cons_self (List.map_eq_nil_iff.1 hnil)
    · intro hmem
      rw [← mem_distinct, ih] at hmem
      exact hb hmem

theorem filter_flatMap_eq (hkey : ∀ b ∈ blocks, ∀ a ∈ f b, key a = k b)
    (hnodup : (blocks.map k).Nodup) {b : β} (hb : b ∈ blocks) :
    (blocks.flatMap f).filter (key · = k b) = f b := by
  induction blocks with
  | nil => exact nomatch hb
  | cons c rest ih =>
    obtain ⟨hc, hrest⟩ := List.nodup_cons.1 hnodup
    have hkeyc := hkey c List.mem_cons_self
    have hkeyrest : ∀ d ∈ rest, ∀ a ∈ f d, key a = k d :=
      fun d hd => hkey d (List.mem_cons_of_mem c hd)
    rw [List.flatMap_cons, List.filter_append]
    rcases List.mem_cons.1 hb with rfl | hb
    · have hself : (f b).filter (key · = k b) = f b := by
        rw [List.filter_eq_self]
        exact fun a ha => decide_eq_true (hkeyc a ha)
      have hothers : (rest.flatMap f).filter (key · = k b) = [] := by
        rw [List.filter_eq_nil_iff]
        intro a ha
        obtain ⟨d, hd, had⟩ := List.mem_flatMap.1 ha
        rw [hkeyrest d hd a had, decide_eq_true_eq]
        exact fun heq => hc (heq ▸ List.mem_map_of_mem hd)
      rw [hself, hothers, List.append_nil]
    · have hnone : (f c).filter (key · = k b) = [] := by
        rw [List.filter_eq_nil_iff]
        intro a ha
        rw [hkeyc a ha, decide_eq_true_eq]
        exact fun heq => hc (heq ▸ List.mem_map_of_mem hb)
      rw [hnone, List.nil_append, ih hkeyrest hrest hb]

theorem groupBy_flatMap (hkey : ∀ b ∈ blocks, ∀ a ∈ f b, key a = k b)
    (hne : ∀ b ∈ blocks, f b ≠ []) (hnodup : (blocks.map k).Nodup) :
    groupBy key (blocks.flatMap f) = blocks.map fun b => (k b, f b) := by
  rw [groupBy, distinct_map_flatMap hkey hne hnodup, List.map_map]
  apply List.map_congr_left
  intro b hb
  rw [Function.comp_apply, filter_flatMap_eq hkey hnodup hb]

theorem groupBy_of_forall_eq {l : List α} {k : κ} (h : ∀ a ∈ l, key a = k) (hne : l ≠ []) :
    groupBy key l = [(k, l)] := by
  have hblock : groupBy key ([()].flatMap fun _ => l) = [()].map fun _ => (k, l) :=
    groupBy_flatMap (fun _ _ => h) (fun _ _ => hne) (List.pairwise_singleton ..)
  rw [List.flatMap_singleton] at hblock
  exact hblock

theorem perm_flatMap_filter {ks : List κ} (h : ks.Nodup) (l : List α) :
    (ks.flatMap fun k => l.filter (key · = k)).Perm (l.filter (key · ∈ ks)) := by
  induction ks with
  | nil => simp
  | cons k ks ih =>
    obtain ⟨hk, hks⟩ := List.nodup_cons.1 h
    have hown : (l.filter (key · ∈ k :: ks)).filter (key · = k) = l.filter (key · = k) := by
      rw [List.filter_filter]
      congr 1
      funext a
      by_cases ha : key a = k <;> simp [ha]
    have hothers : (l.filter (key · ∈ k :: ks)).filter (fun a => !decide (key a = k)) =
        l.filter (key · ∈ ks) := by
      rw [List.filter_filter]
      congr 1
      funext a
      by_cases ha : key a = k
      · simp [ha, hk]
      · simp [ha]
    have hparts := List.filter_append_perm (key · = k) (l.filter (key · ∈ k :: ks))
    rw [hown, hothers] at hparts
    rw [List.flatMap_cons]
    exact ((ih hks).append_left _).trans hparts

theorem perm_groupBy (l : List α) : ((groupBy key l).flatMap Prod.snd).Perm l := by
  have hall : l.filter (key · ∈ distinct (l.map key)) = l := by
    rw [List.filter_eq_self]
    intro a ha
    exact decide_eq_true (mem_distinct.2 (List.mem_map_of_mem ha))
  have hperm : ((distinct (l.map key)).flatMap fun k => l.filter (key · = k)).Perm
      (l.filter (key · ∈ distinct (l.map key))) := perm_flatMap_filter (nodup_distinct _) l
  rw [hall] at hperm
  rw [groupBy, List.flatMap_map]
  exact hperm

end GroupBy

end FindQuery.Group
