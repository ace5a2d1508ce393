import Mathlib.Data.List.Forall2

/-! When computations that can fail succeed, and when they fail. -/

namespace FindQuery

variable {ε δ α β : Type}

theorem bind_eq_ok {x : Except ε α} {f : α → Except ε β} {b : β} :
    x >>= f = .ok b ↔ ∃ a, x = .ok a ∧ f a = .ok b := by
  cases x <;> simp [bind, Except.bind]

theorem bind_eq_error {x : Except ε α} {f : α → Except ε β} {e : ε} :
    x >>= f = .error e ↔ x = .error e ∨ ∃ a, x = .ok a ∧ f a = .error e := by
  cases x <;> simp [bind, Except.bind]

theorem map_eq_ok {x : Except ε α} {f : α → β} {b : β} :
    x.map f = .ok b ↔ ∃ a, x = .ok a ∧ f a = b := by
  cases x <;> simp [Except.map]

theorem map_eq_error {x : Except ε α} {f : α → β} {e : ε} :
    x.map f = .error e ↔ x = .error e := by
  cases x <;> simp [Except.map]

theorem mapError_eq_ok {x : Except ε α} {f : ε → δ} {a : α} :
    x.mapError f = .ok a ↔ x = .ok a := by
  cases x with
  | error e => exact iff_of_false nofun nofun
  | ok b =>
    show Except.ok b = .ok a ↔ Except.ok b = .ok a
    rw [Except.ok.injEq, Except.ok.injEq]

theorem mapError_eq_error {x : Except ε α} {f : ε → δ} {d : δ} :
    x.mapError f = .error d ↔ ∃ e, x = .error e ∧ f e = d := by
  cases x with
  | error e =>
    show Except.error (f e) = .error d ↔ _
    simp
  | ok a => exact iff_of_false nofun nofun

theorem forM_eq_ok {f : α → Except ε Unit} {l : List α} :
    forM l f = .ok () ↔ ∀ a ∈ l, f a = .ok () := by
  induction l with
  | nil => exact iff_of_true rfl nofun
  | cons a rest ih =>
    rw [List.forM_cons, bind_eq_ok, List.forall_mem_cons, ← ih]
    constructor
    · rintro ⟨⟨⟩, ha, hrest⟩
      exact ⟨ha, hrest⟩
    · rintro ⟨ha, hrest⟩
      exact ⟨(), ha, hrest⟩

theorem forM_eq_error {f : α → Except ε Unit} {l : List α} {e : ε} :
    forM l f = .error e ↔ ∃ before a after, l = before ++ a :: after ∧
      (∀ b ∈ before, f b = .ok ()) ∧ f a = .error e := by
  induction l with
  | nil =>
    refine iff_of_false nofun ?_
    rintro ⟨before, a, after, h, -⟩
    exact List.append_ne_nil_of_right_ne_nil before (List.cons_ne_nil a after) h.symm
  | cons b rest ih =>
    rw [List.forM_cons, bind_eq_error, ih]
    constructor
    · rintro (hb | ⟨⟨⟩, hb, before, a, after, rfl, hbefore, ha⟩)
      · exact ⟨[], b, rest, rfl, nofun, hb⟩
      · exact ⟨b :: before, a, after, rfl, List.forall_mem_cons.2 ⟨hb, hbefore⟩, ha⟩
    · rintro ⟨before, a, after, h, hbefore, ha⟩
      cases before with
      | nil =>
        obtain ⟨rfl, rfl⟩ := List.cons.inj h
        exact .inl ha
      | cons c before =>
        obtain ⟨rfl, rfl⟩ := List.cons.inj h
        obtain ⟨hb, hbefore⟩ := List.forall_mem_cons.1 hbefore
        exact .inr ⟨(), hb, before, a, after, rfl, hbefore, ha⟩

section Forall₂
variable {R : α → β → Prop} {as : List α} {bs : List β}

theorem exists_of_mem_left (h : List.Forall₂ R as bs) {a : α} (ha : a ∈ as) :
    ∃ b ∈ bs, R a b := by
  induction h with
  | nil => exact nomatch ha
  | cons hab _ ih =>
    rcases List.mem_cons.1 ha with rfl | ha
    · exact ⟨_, List.mem_cons_self, hab⟩
    · obtain ⟨b, hb, hrel⟩ := ih ha
      exact ⟨b, List.mem_cons_of_mem _ hb, hrel⟩

theorem exists_of_mem_right (h : List.Forall₂ R as bs) {b : β} (hb : b ∈ bs) :
    ∃ a ∈ as, R a b := exists_of_mem_left h.flip hb

theorem forall₂_imp_of_mem {S : α → β → Prop} (h : List.Forall₂ R as bs)
    (himp : ∀ a ∈ as, ∀ b ∈ bs, R a b → S a b) : List.Forall₂ S as bs := by
  induction h with
  | nil => exact .nil
  | cons hab _ ih =>
    exact .cons (himp _ List.mem_cons_self _ List.mem_cons_self hab)
      (ih fun a ha b hb => himp a (List.mem_cons_of_mem _ ha) b (List.mem_cons_of_mem _ hb))

theorem forall₂_trans_of_mem {γ : Type} {S : β → γ → Prop} {T : α → γ → Prop} {cs : List γ}
    (h : List.Forall₂ R as bs) (h' : List.Forall₂ S bs cs)
    (htrans : ∀ a ∈ as, ∀ b ∈ bs, ∀ c ∈ cs, R a b → S b c → T a c) : List.Forall₂ T as cs := by
  induction h generalizing cs with
  | nil =>
    cases h'
    exact .nil
  | cons hab _ ih =>
    cases h' with
    | cons hbc hrest =>
      exact .cons (htrans _ List.mem_cons_self _ List.mem_cons_self _ List.mem_cons_self hab hbc)
        (ih hrest fun a ha b hb c hc => htrans a (List.mem_cons_of_mem _ ha) b (List.mem_cons_of_mem _ hb)
          c (List.mem_cons_of_mem _ hc))

end Forall₂

theorem mapM_eq_ok {f : α → Except ε β} {l : List α} {bs : List β} :
    l.mapM f = .ok bs ↔ List.Forall₂ (fun a b => f a = .ok b) l bs := by
  induction l generalizing bs with
  | nil =>
    show Except.ok [] = .ok bs ↔ _
    rw [List.forall₂_nil_left_iff, Except.ok.injEq, eq_comm]
  | cons a rest ih =>
    rw [List.mapM_cons, bind_eq_ok]
    constructor
    · rintro ⟨b, hb, hrest⟩
      obtain ⟨others, hothers, hpure⟩ := bind_eq_ok.1 hrest
      obtain rfl := Except.ok.inj hpure
      exact .cons hb (ih.1 hothers)
    · intro h
      cases h with
      | cons hb hrest => exact ⟨_, hb, bind_eq_ok.2 ⟨_, ih.2 hrest, rfl⟩⟩

theorem mapM_map_unit (f : α → Except ε β) (l : List α) :
    (l.mapM f).map (fun _ => ()) = forM l fun a => (f a).map fun _ => () := by
  induction l with
  | nil => rfl
  | cons a rest ih =>
    rw [List.mapM_cons, List.forM_cons, ← ih]
    cases f a with
    | error e => rfl
    | ok b => cases rest.mapM f <;> rfl

theorem mapM_eq_error {f : α → Except ε β} {l : List α} {e : ε} :
    l.mapM f = .error e ↔ ∃ before a after, l = before ++ a :: after ∧
      (∀ b ∈ before, ∃ c, f b = .ok c) ∧ f a = .error e := by
  rw [← map_eq_error (f := fun _ => ()), mapM_map_unit, forM_eq_error]
  simp only [map_eq_error, map_eq_ok, and_true]

theorem mapM_pair_eq_ok {f : α → Except ε β} {l : List α} {ps : List (β × α)}
    (h : l.mapM (fun a => (f a).map (·, a)) = .ok ps) :
    ps.map Prod.snd = l ∧ ∀ p ∈ ps, f p.2 = .ok p.1 := by
  induction mapM_eq_ok.1 h with
  | nil => exact ⟨rfl, fun p hp => nomatch hp⟩
  | cons hpair hrest ih =>
    obtain ⟨b, hb, rfl⟩ := map_eq_ok.1 hpair
    obtain ⟨hmap, hmem⟩ := ih (mapM_eq_ok.2 hrest)
    exact ⟨by rw [List.map_cons, hmap], List.forall_mem_cons.2 ⟨hb, hmem⟩⟩

/-- Both computations succeed, with results that are related, or both fail, for reasons that are. -/
inductive Parallel (E : ε → ε → Prop) (R : α → β → Prop) : Except ε α → Except ε β → Prop
  | ok {a : α} {b : β} : R a b → Parallel E R (.ok a) (.ok b)
  | error {e e' : ε} : E e e' → Parallel E R (.error e) (.error e')

namespace Parallel
variable {E : ε → ε → Prop} {R : α → β → Prop} {x : Except ε α} {y : Except ε β}

theorem bind {γ ζ : Type} {S : γ → ζ → Prop} {f : α → Except ε γ} {g : β → Except ε ζ} (h : Parallel E R x y)
    (hnext : ∀ a b, R a b → Parallel E S (f a) (g b)) : Parallel E S (x >>= f) (y >>= g) := by
  cases h with
  | ok hab => exact hnext _ _ hab
  | error he => exact .error he

theorem mono {S : α → β → Prop} (h : Parallel E R x y) (himp : ∀ a b, R a b → S a b) : Parallel E S x y := by
  cases h with
  | ok hab => exact .ok (himp _ _ hab)
  | error he => exact .error he

theorem refl (hE : ∀ e, E e e) (x : Except ε α) : Parallel E Eq x x := by
  cases x with
  | ok a => exact .ok rfl
  | error e => exact .error (hE e)

end Parallel

def Fails (x : Except ε α) : Prop := ∃ e, x = .error e

theorem not_fails_iff {x : Except ε α} : ¬ Fails x ↔ ∃ a, x = .ok a := by
  cases x <;> simp [Fails]

theorem not_fails_ok (a : α) : ¬ Fails (.ok a : Except ε α) := not_fails_iff.2 ⟨a, rfl⟩

theorem fails_bind {x : Except ε α} {f : α → Except ε β} :
    Fails (x >>= f) ↔ Fails x ∨ ∃ a, x = .ok a ∧ Fails (f a) := by
  cases x <;> simp [Fails, bind, Except.bind]

theorem fails_bind_of_forall {x : Except ε α} {f : α → Except ε β} {p : Prop}
    (h : ∀ a, Fails (f a) ↔ p) : Fails (x >>= f) ↔ Fails x ∨ p := by
  cases x with
  | error e => simp [Fails, bind, Except.bind]
  | ok a =>
    show Fails (f a) ↔ Fails (.ok a : Except ε α) ∨ p
    rw [h a, or_iff_right (not_fails_ok a)]

theorem fails_bind_pure {x : Except ε α} {f : α → β} :
    Fails (x >>= fun a => pure (f a)) ↔ Fails x := by
  rw [fails_bind_of_forall (p := False), or_false]
  intro a
  exact iff_of_false (not_fails_ok _) id

theorem fails_map {x : Except ε α} {f : α → β} : Fails (x.map f) ↔ Fails x := by
  cases x <;> simp [Fails, Except.map]

theorem fails_mapM {f : α → Except ε β} {l : List α} :
    Fails (l.mapM f) ↔ ∃ a ∈ l, Fails (f a) := by
  induction l with
  | nil => exact iff_of_false (not_fails_ok _) (by simp)
  | cons a rest ih =>
    rw [List.mapM_cons, fails_bind_of_forall (p := ∃ a ∈ rest, Fails (f a))]
    · simp only [List.mem_cons, exists_eq_or_imp]
    · intro b
      rw [fails_bind_pure, ih]

theorem fails_mapError {x : Except ε α} {f : ε → δ} : Fails (x.mapError f) ↔ Fails x := by
  cases x with
  | error e => exact iff_of_true ⟨f e, rfl⟩ ⟨e, rfl⟩
  | ok a => exact iff_of_false (not_fails_ok a) (not_fails_ok a)

end FindQuery
