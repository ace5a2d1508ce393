import Mathlib.Data.List.TakeDrop
import Mathlib.Data.List.TakeWhile
import FindQuery.Group.Parse

/-! The keys of filter groups, read and written. -/

namespace FindQuery.Group

def IsPart (s : Text) : Prop := s ≠ [] ∧ ∀ c ∈ s, isBracket c = false

theorem isPart_iff {s : Text} : s ≠ [] ∧ (s.all fun c => !isBracket c) = true ↔ IsPart s := by
  simp only [IsPart, List.all_eq_true, Bool.not_eq_true']

instance (s : Text) : Decidable (IsPart s) := decidable_of_iff _ isPart_iff

structure Triple.IsProper (t : Triple) : Prop where
  name : IsPart t.name
  andIndex : IsPart t.andIndex
  orIndex : IsPart t.orIndex

instance (t : Triple) : Decidable t.IsProper :=
  decidable_of_iff (IsPart t.name ∧ IsPart t.andIndex ∧ IsPart t.orIndex)
    ⟨fun ⟨h, h', h''⟩ => ⟨h, h', h''⟩, fun ⟨h, h', h''⟩ => ⟨h, h', h''⟩⟩

/-- A line break may stand behind the last bracket. -/
def Triple.IsKey (t : Triple) (a : Attribute) (key : Text) : Prop :=
  t.IsProper ∧ (key = t.key a ∨ key = t.key a ++ ['\n'])

theorem part?_append {p : Text} (h : IsPart p) {c : Char} (hc : isBracket c = true) (rest : Text) :
    part? (p ++ c :: rest) = some (p, c :: rest) := by
  have hp : ∀ a ∈ p, (!isBracket a) = true := fun a ha => by rw [h.2 a ha]; rfl
  have hsplit : (p ++ c :: rest).span (fun a => !isBracket a) = (p, c :: rest) := by
    rw [List.span_eq_takeWhile_dropWhile, List.takeWhile_append_of_pos hp,
      List.dropWhile_append_of_pos hp, List.takeWhile_cons_of_neg (by simp [hc]),
      List.dropWhile_cons_of_neg (by simp [hc]), List.append_nil]
  have hne := h.1
  rw [part?, hsplit]
  cases p with
  | nil => exact absurd rfl hne
  | cons a as => rfl

theorem isPart_of_part? {s p rest : Text} (h : part? s = some (p, rest)) :
    IsPart p ∧ s = p ++ rest := by
  rw [part?, List.span_eq_takeWhile_dropWhile] at h
  split at h
  · exact nomatch h
  · next hne =>
    obtain ⟨rfl, rfl⟩ := Prod.mk.inj (Option.some.inj h)
    refine ⟨⟨fun hnil => hne _ (by rw [hnil]), ?_⟩, List.takeWhile_append_dropWhile.symm⟩
    intro c hc
    simpa using List.mem_takeWhile_imp hc

theorem bracketedPart?_append {p : Text} (h : IsPart p) (rest : Text) :
    bracketedPart? (bracketed p ++ rest) = some (p, rest) := by
  have hinner : bracketed p ++ rest = '[' :: (p ++ ']' :: rest) := by simp [bracketed]
  simp only [hinner, bracketedPart?, part?_append h (c := ']') rfl]

theorem isPart_of_bracketedPart? {s p rest : Text} (h : bracketedPart? s = some (p, rest)) :
    IsPart p ∧ s = bracketed p ++ rest := by
  unfold bracketedPart? at h
  split at h
  · next inner =>
    split at h
    · next p' rest' hp =>
      obtain ⟨rfl, rfl⟩ := Prod.mk.inj (Option.some.inj h)
      obtain ⟨hpart, rfl⟩ := isPart_of_part? hp
      exact ⟨hpart, by simp [bracketed]⟩
    · exact nomatch h
  · exact nomatch h

theorem Attribute.isPart_word (a : Attribute) : IsPart a.word := by
  cases a <;> decide

theorem Attribute.ofText?_word (a : Attribute) : ofText? a.word = some a := by
  cases a <;> decide

theorem Attribute.word_of_ofText? {s : Text} {a : Attribute} (h : ofText? s = some a) :
    a.word = s := by
  have hfound := List.find?_some h
  simpa using hfound

theorem splitKey?_eq_some_iff {key : Text} {t : Triple} {a : Attribute} :
    splitKey? key = some (t, a) ↔ t.IsKey a key := by
  constructor
  · intro h
    simp only [splitKey?, Option.bind_eq_bind, Option.bind_eq_some_iff, Prod.exists] at h
    obtain ⟨name, r₁, h₁, andIndex, r₂, h₂, orIndex, r₃, h₃, word, r₄, h₄, a', ha, h₅⟩ := h
    obtain ⟨hname, rfl⟩ := isPart_of_part? h₁
    obtain ⟨hand, rfl⟩ := isPart_of_bracketedPart? h₂
    obtain ⟨hor, rfl⟩ := isPart_of_bracketedPart? h₃
    obtain ⟨-, rfl⟩ := isPart_of_bracketedPart? h₄
    obtain rfl := Attribute.word_of_ofText? ha
    split at h₅
    · next hend =>
      obtain ⟨rfl, rfl⟩ := Prod.mk.inj (Option.some.inj h₅)
      refine ⟨⟨hname, hand, hor⟩, ?_⟩
      simp only [Triple.key, Triple.stem, List.append_assoc]
      rcases hend with rfl | rfl
      · exact .inl (by simp)
      · exact .inr rfl
    · exact nomatch h₅
  · rintro ⟨ht, hkey⟩
    -- Both forms of the key are the written key with an ending that is let pass.
    obtain ⟨ending, hend, rfl⟩ : ∃ ending : Text, (ending = [] ∨ ending = ['\n']) ∧
        key = t.name ++ (bracketed t.andIndex ++ (bracketed t.orIndex ++
          (bracketed a.word ++ ending))) := by
      rcases hkey with rfl | rfl
      · exact ⟨[], .inl rfl, by simp [Triple.key, Triple.stem]⟩
      · exact ⟨['\n'], .inr rfl, by simp [Triple.key, Triple.stem]⟩
    have h₁ : part? (t.name ++ (bracketed t.andIndex ++ (bracketed t.orIndex ++
        (bracketed a.word ++ ending)))) = some (t.name, bracketed t.andIndex ++
          (bracketed t.orIndex ++ (bracketed a.word ++ ending))) :=
      part?_append ht.name (c := '[') rfl _
    simp only [splitKey?, Option.bind_eq_bind, h₁, Option.bind_some,
      bracketedPart?_append ht.andIndex, bracketedPart?_append ht.orIndex,
      bracketedPart?_append a.isPart_word, a.ofText?_word, if_pos hend]

theorem Triple.IsProper.splitKey?_key {t : Triple} (h : t.IsProper) (a : Attribute) :
    splitKey? (t.key a) = some (t, a) := splitKey?_eq_some_iff.2 ⟨h, .inl rfl⟩

theorem Triple.IsProper.key_injective {s t : Triple} (hs : s.IsProper) (ht : t.IsProper)
    {a b : Attribute} (h : s.key a = t.key b) : s = t ∧ a = b := by
  have hsplit := hs.splitKey?_key a
  rw [h, ht.splitKey?_key b] at hsplit
  obtain ⟨hst, hab⟩ := Prod.mk.inj (Option.some.inj hsplit)
  exact ⟨hst.symm, hab.symm⟩

end FindQuery.Group
