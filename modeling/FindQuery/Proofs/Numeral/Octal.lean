import Mathlib.Data.List.Forall2
import FindQuery.Proofs.Numeral.Literal

/-! Octal literals that only a zero in front marks. -/

namespace FindQuery.Numeral

def IsZeroOctal (s : Text) (n : Int) : Prop :=
  ∃ negative sign digits ds, s = sign ++ '0' :: digits ∧ IsSign negative sign ∧ digits ≠ [] ∧
    List.Forall₂ (IsDigit 8) digits ds ∧ n = signed negative (Nat.ofDigits 8 ds.reverse)

section Digits
variable {base : Nat} {s : Text} {ds ds' : List Nat}

theorem mapM_digitValue?_eq_some_iff (h : base ≤ 16) :
    s.mapM (digitValue? base) = some ds ↔ List.Forall₂ (IsDigit base) s ds := by
  induction s generalizing ds with
  | nil =>
    rw [List.mapM_nil, List.forall₂_nil_left_iff]
    exact ⟨fun hds => (Option.some.inj hds).symm, fun hds => congrArg some hds.symm⟩
  | cons c rest ih =>
    simp only [List.mapM_cons, Option.bind_eq_bind, Option.bind_eq_some_iff, Option.pure_def,
      Option.some.injEq, List.forall₂_cons_left_iff, digitValue?_eq_some_iff h, ih]
    constructor
    · rintro ⟨d, hd, others, hothers, rfl⟩
      exact ⟨d, others, hd, hothers, rfl⟩
    · rintro ⟨d, others, hd, hothers, rfl⟩
      exact ⟨d, hd, others, hothers, rfl⟩

theorem grouped_of_forall₂ (hne : s ≠ []) (h : List.Forall₂ (IsDigit base) s ds) :
    Grouped (IsDigit base) s ds := by
  induction h with
  | nil => exact absurd rfl hne
  | @cons c d rest others hd hrest ih =>
    cases hrest with
    | nil => exact .last hd
    | cons hd' hrest => exact .next hd (ih (List.cons_ne_nil _ _))

theorem Grouped.unique (hbase : base ≤ 16) (h : Grouped (IsDigit base) s ds)
    (h' : Grouped (IsDigit base) s ds') : ds = ds' := by
  have hread := (groupedDigits?_eq_some_iff hbase).2 h
  rw [(groupedDigits?_eq_some_iff hbase).2 h'] at hread
  exact (Option.some.inj hread).symm

theorem IsDigit.ten {c : Char} {d : Nat} (h : IsDigit 8 c d) : IsDigit 10 c d :=
  ⟨Nat.lt_trans h.1 (by decide), h.2⟩

end Digits

section Octal
variable {s : Text} {m n : Int}

theorem hasNoSign_zero (digits : Text) : HasNoSign ('0' :: digits) := by
  intro c hc
  obtain rfl := Option.some.inj hc
  decide

theorem zeroOctal?_eq_some_iff : zeroOctal? s = some n ↔ IsZeroOctal s n := by
  constructor
  · intro h
    unfold zeroOctal? at h
    split at h
    · next negative d rest htake =>
      obtain ⟨sign, hsign, rfl⟩ := exists_sign_of_takeSign htake
      obtain ⟨ds, hds, rfl⟩ := Option.map_eq_some_iff.1 h
      rw [mapM_digitValue?_eq_some_iff (by decide)] at hds
      exact ⟨negative, sign, d :: rest, ds, rfl, hsign, List.cons_ne_nil d rest, hds,
        by rw [ofDigits_eq]⟩
    · exact nomatch h
  · rintro ⟨negative, sign, digits, ds, rfl, hsign, hne, hds, rfl⟩
    obtain ⟨d, rest, rfl⟩ := List.exists_cons_of_ne_nil hne
    rw [zeroOctal?, takeSign_append hsign (hasNoSign_zero _)]
    show ((d :: rest).mapM (digitValue? 8)).map _ = _
    rw [(mapM_digitValue?_eq_some_iff (by decide)).2 hds, Option.map_some, ofDigits_eq]

theorem IsZeroOctal.not_mem {c : Char} (h : IsZeroOctal s n) (hc : c.isAlphanum = false)
    (hmark : c ∉ ['+', '-', '_']) : c ∉ s := by
  obtain ⟨negative, sign, digits, ds, rfl, hsign, hne, hds, -⟩ := h
  have hdigits := (grouped_of_forall₂ hne hds).areGroupedAlphanum (by decide)
  exact hsign.not_mem_append (List.forall_mem_cons.2 ⟨.inl rfl, hdigits⟩) hc hmark

theorem eq_zero_of_isUnsigned {digits : Text} {ds : List Nat} {k : Nat} (hne : digits ≠ [])
    (hds : List.Forall₂ (IsDigit 8) digits ds) (h : IsUnsigned ('0' :: digits) k) :
    k = 0 ∧ Nat.ofDigits 8 ds.reverse = 0 := by
  cases h with
  | @decimal _ es hes _ hfront =>
    have hten : List.Forall₂ (IsDigit 10) digits ds := hds.imp fun _ _ hd => hd.ten
    have hsame : Grouped (IsDigit 10) ('0' :: digits) (0 :: ds) :=
      .next ⟨by decide, rfl⟩ (grouped_of_forall₂ hne hten)
    obtain rfl := hes.unique (by decide) hsame
    have hzeros : ∀ d ∈ 0 :: ds, d = 0 := hfront rfl
    refine ⟨(ofDigits_reverse_eq_zero_iff (by decide)).2 hzeros, ?_⟩
    exact (ofDigits_reverse_eq_zero_iff (by decide)).2 (List.forall_mem_cons.1 hzeros).2
  | @marked mark base gap s es hmem _ _ =>
    have hall : ∀ p ∈ marks, digitValue? 8 p.1 = none := by decide
    obtain ⟨d, others, hd, -, -⟩ := List.forall₂_cons_left_iff.1 hds
    exact nomatch (hall _ hmem).symm.trans ((digitValue?_eq_some_iff (by decide)).2 hd)

theorem IsZeroOctal.eq_of_isInteger (h : IsZeroOctal s m) (h' : IsInteger s n) : m = n := by
  obtain ⟨negative, sign, digits, ds, rfl, hsign, hne, hds, rfl⟩ := h
  have hread := literal?_eq_some_iff.2 h'
  rw [literal?, takeSign_append hsign (hasNoSign_zero digits)] at hread
  obtain ⟨k, hk, rfl⟩ := Option.map_eq_some_iff.1 hread
  obtain ⟨rfl, hzero⟩ := eq_zero_of_isUnsigned hne hds (unsignedLiteral?_eq_some_iff.1 hk)
  rw [hzero]

end Octal

end FindQuery.Numeral
