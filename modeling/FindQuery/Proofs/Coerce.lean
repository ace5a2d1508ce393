import Mathlib.Data.List.Forall2
import FindQuery.Coerce
import FindQuery.Proofs.Outcome

/-! The ways that the reading of a value can take. -/

namespace FindQuery

namespace Value

inductive IsScalar : Value → Prop
  | null : IsScalar .null
  | bool (b : Bool) : IsScalar (.bool b)
  | int (n : Int) : IsScalar (.int n)
  | float (x : Binary64) : IsScalar (.float x)
  | moment (m : Moment) : IsScalar (.moment m)
  | text (s : Text) : IsScalar (.text s)

inductive IsUniform : List Value → Prop
  | floats (xs : List Binary64) : IsUniform (xs.map .float)
  | ints (ns : List Int) : IsUniform (ns.map .int)
  | moments (ms : List Moment) : IsUniform (ms.map .moment)
  | texts (ss : List Text) : IsUniform (ss.map .text)

end Value

namespace Coerce

def IsListing (operator : Operator) : Prop := operator = .isIn ∨ operator = .notIn

instance (operator : Operator) : Decidable (IsListing operator) := inferInstanceAs (Decidable (_ ∨ _))

section Lists
variable {pieces : List Text} {values : List Value}

theorem allAs?_eq_some {α : Type} {read? : Text → Option α} {wrap : α → Value} :
    allAs? read? wrap pieces = some values ↔
      ∃ as, List.Forall₂ (fun piece a => read? piece = some a) pieces as ∧ as.map wrap = values := by
  induction pieces generalizing values with
  | nil =>
    simp only [allAs?, List.forall₂_nil_left_iff, exists_eq_left, List.map_nil, Option.some.injEq]
  | cons piece rest ih =>
    simp only [allAs?, Option.bind_eq_bind, Option.bind_eq_some_iff, ih]
    constructor
    · rintro ⟨a, ha, _, ⟨as, has, rfl⟩, hvalues⟩
      exact ⟨a :: as, .cons ha has, Option.some.inj hvalues⟩
    · rintro ⟨_, hread, rfl⟩
      cases hread with
      | @cons _ a _ as ha has => exact ⟨a, ha, _, ⟨as, has, rfl⟩, rfl⟩

theorem exists_forall₂_iff {α : Type} {read? : Text → Option α} :
    (∃ as, List.Forall₂ (fun piece a => read? piece = some a) pieces as) ↔
      ∀ piece ∈ pieces, (read? piece).isSome = true := by
  induction pieces with
  | nil => exact iff_of_true ⟨[], .nil⟩ nofun
  | cons piece rest ih =>
    rw [List.forall_mem_cons, ← ih, Option.isSome_iff_exists]
    constructor
    · rintro ⟨_, hread⟩
      cases hread with
      | @cons _ a _ as ha has => exact ⟨⟨a, ha⟩, as, has⟩
    · rintro ⟨⟨a, ha⟩, as, has⟩
      exact ⟨a :: as, .cons ha has⟩

theorem allAs?_eq_none {α : Type} {read? : Text → Option α} {wrap : α → Value} :
    allAs? read? wrap pieces = none ↔ ¬ ∀ piece ∈ pieces, (read? piece).isSome = true := by
  rw [← exists_forall₂_iff, ← Option.not_isSome_iff_eq_none, Option.isSome_iff_exists, not_iff_not]
  simp only [allAs?_eq_some]
  exact ⟨fun ⟨_, as, has, _⟩ => ⟨as, has⟩, fun ⟨as, has⟩ => ⟨_, as, has, rfl⟩⟩

theorem allAs?_eq_none_of_mem {α : Type} {read? : Text → Option α} {wrap : α → Value} {piece : Text}
    (hmem : piece ∈ pieces) (h : read? piece = none) : allAs? read? wrap pieces = none := by
  rw [allAs?_eq_none]
  intro hall
  exact Option.isSome_iff_ne_none.1 (hall piece hmem) h

theorem allMoments_eq_some [Host] : allMoments pieces = .ok (some values) ↔
    ∃ ms, List.Forall₂ (fun piece m => moment piece = .ok (some m)) pieces ms ∧
      ms.map .moment = values := by
  induction pieces generalizing values with
  | nil =>
    simp only [allMoments, List.forall₂_nil_left_iff, exists_eq_left, List.map_nil, Except.ok.injEq,
      Option.some.injEq]
  | cons piece rest ih =>
    rw [allMoments, bind_eq_ok]
    constructor
    · rintro ⟨m?, hm, hrest⟩
      cases m? with
      | none => exact nomatch hrest
      | some m =>
        obtain ⟨values?, hvalues, hpure⟩ := bind_eq_ok.1 hrest
        obtain ⟨others, rfl, rfl⟩ := Option.map_eq_some_iff.1 (Except.ok.inj hpure)
        obtain ⟨ms, hms, rfl⟩ := ih.1 hvalues
        exact ⟨m :: ms, .cons hm hms, rfl⟩
    · rintro ⟨_, hread, rfl⟩
      cases hread with
      | @cons _ m _ ms hm hms =>
        exact ⟨some m, hm, bind_eq_ok.2 ⟨_, ih.2 ⟨ms, hms, rfl⟩, rfl⟩⟩

theorem uniform_eq_ok [Host] (h : uniform pieces = .ok values) :
    (∃ xs, List.Forall₂ (fun piece x => float? piece = some x) pieces xs ∧ values = xs.map .float) ∨
      (∃ ns, List.Forall₂ (fun piece n => int? piece = some n) pieces ns ∧ values = ns.map .int) ∨
      (∃ ms, List.Forall₂ (fun piece m => moment piece = .ok (some m)) pieces ms ∧
        values = ms.map .moment) ∨
      values = pieces.map .text := by
  unfold uniform at h
  cases hfloats : allAs? float? .float pieces with
  | some floats =>
    rw [hfloats] at h
    obtain ⟨xs, hxs, rfl⟩ := allAs?_eq_some.1 hfloats
    exact .inl ⟨xs, hxs, (Except.ok.inj h).symm⟩
  | none =>
    rw [hfloats, Option.none_or] at h
    cases hints : allAs? int? .int pieces with
    | some ints =>
      rw [hints] at h
      obtain ⟨ns, hns, rfl⟩ := allAs?_eq_some.1 hints
      exact .inr (.inl ⟨ns, hns, (Except.ok.inj h).symm⟩)
    | none =>
      rw [hints] at h
      obtain ⟨values?, hmoments, hvalues⟩ := map_eq_ok.1 h
      cases values? with
      | none => exact .inr (.inr (.inr hvalues.symm))
      | some moments =>
        obtain ⟨ms, hms, rfl⟩ := allMoments_eq_some.1 hmoments
        exact .inr (.inr (.inl ⟨ms, hms, hvalues.symm⟩))

theorem isUniform_of_uniform [Host] (h : uniform pieces = .ok values) :
    Value.IsUniform values ∧ values.length = pieces.length := by
  rcases uniform_eq_ok h with ⟨xs, hxs, rfl⟩ | ⟨ns, hns, rfl⟩ | ⟨ms, hms, rfl⟩ | rfl
  · exact ⟨.floats xs, by rw [List.length_map, hxs.length_eq]⟩
  · exact ⟨.ints ns, by rw [List.length_map, hns.length_eq]⟩
  · exact ⟨.moments ms, by rw [List.length_map, hms.length_eq]⟩
  · exact ⟨.texts pieces, List.length_map _⟩

end Lists

section Single
variable {operator : Operator} {raw : Text} {v : Value}

theorem plain?_eq_some (h : plain? raw = some v) :
    (∃ x, float? raw = some x ∧ v = .float x) ∨ (∃ n, int? raw = some n ∧ v = .int n) ∨
      ∃ b, bool? raw = some b ∧ v = .bool b := by
  unfold plain? at h
  rcases Option.or_eq_some_iff.1 h with hfloat | ⟨-, h⟩
  · obtain ⟨x, hx, rfl⟩ := Option.map_eq_some_iff.1 hfloat
    exact .inl ⟨x, hx, rfl⟩
  · rcases Option.or_eq_some_iff.1 h with hint | ⟨-, hbool⟩
    · obtain ⟨n, hn, rfl⟩ := Option.map_eq_some_iff.1 hint
      exact .inr (.inl ⟨n, hn, rfl⟩)
    · obtain ⟨b, hb, rfl⟩ := Option.map_eq_some_iff.1 hbool
      exact .inr (.inr ⟨b, hb, rfl⟩)

theorem scalar_eq_ok [Host] (h : scalar raw = .ok v) :
    plain? raw = some v ∨ (∃ m, v = .moment m) ∨ v = .text raw := by
  unfold scalar at h
  cases hplain : plain? raw with
  | some w =>
    rw [hplain] at h
    exact .inl (congrArg some (Except.ok.inj h))
  | none =>
    rw [hplain] at h
    obtain ⟨m?, -, rfl⟩ := map_eq_ok.1 h
    cases m? with
    | none => exact .inr (.inr rfl)
    | some m => exact .inr (.inl ⟨m, rfl⟩)

theorem isScalar_of_scalar [Host] (h : scalar raw = .ok v) : v.IsScalar := by
  rcases scalar_eq_ok h with hplain | ⟨m, rfl⟩ | rfl
  · rcases plain?_eq_some hplain with ⟨x, -, rfl⟩ | ⟨n, -, rfl⟩ | ⟨b, -, rfl⟩
    · exact .float x
    · exact .int n
    · exact .bool b
  · exact .moment m
  · exact .text raw

theorem value_eq_ok [Host] (h : value operator raw = .ok v) :
    ((operator = .regex ∨ raw = []) ∧ v = .text raw) ∨ (isNull raw = true ∧ v = .null) ∨
      (IsListing operator ∧ ∃ items, uniform (Text.splitOn ',' raw) = .ok items ∧ v = .list items) ∨
      (¬ IsListing operator ∧ scalar raw = .ok v) := by
  unfold value at h
  split at h
  · next hraw => exact .inl ⟨hraw, (Except.ok.inj h).symm⟩
  · split at h
    · next hnull => exact .inr (.inl ⟨hnull, (Except.ok.inj h).symm⟩)
    · split at h
      · next hlisting =>
        obtain ⟨items, hitems, rfl⟩ := map_eq_ok.1 h
        exact .inr (.inr (.inl ⟨hlisting, items, hitems, rfl⟩))
      · next hlisting => exact .inr (.inr (.inr ⟨hlisting, h⟩))

theorem isScalar_or_isUniform_of_value [Host] (h : value operator raw = .ok v) : v.IsScalar ∨
    (IsListing operator ∧ ∃ items, v = .list items ∧ items ≠ [] ∧ Value.IsUniform items) := by
  rcases value_eq_ok h with ⟨-, rfl⟩ | ⟨-, rfl⟩ | ⟨hlisting, items, hitems, rfl⟩ | ⟨-, hscalar⟩
  · exact .inl (.text raw)
  · exact .inl .null
  · obtain ⟨huniform, hlength⟩ := isUniform_of_uniform hitems
    refine .inr ⟨hlisting, items, rfl, ?_, huniform⟩
    rintro rfl
    exact Text.splitOn_ne_nil ',' raw (List.length_eq_zero_iff.1 hlength.symm)
  · exact .inl (isScalar_of_scalar hscalar)

end Single

end Coerce
end FindQuery
