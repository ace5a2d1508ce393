import FindQuery.Numeral.Integer
import FindQuery.Proofs.Numeral.Digits

/-! The language of integer literals. -/

namespace FindQuery.Numeral

inductive IsSign : Bool → Text → Prop
  | absent : IsSign false []
  | plus : IsSign false ['+']
  | minus : IsSign true ['-']

def HasNoSign (s : Text) : Prop := ∀ c ∈ s.head?, c ≠ '-' ∧ c ≠ '+'

def IsDigit (base : Nat) (c : Char) (d : Nat) : Prop := d < base ∧ c.toLower = d.digitChar

inductive Grouped (IsValue : Char → Nat → Prop) : Text → List Nat → Prop
  | last {c : Char} {d : Nat} : IsValue c d → Grouped IsValue [c] [d]
  | next {c : Char} {d : Nat} {s : Text} {ds : List Nat} :
      IsValue c d → Grouped IsValue s ds → Grouped IsValue (c :: s) (d :: ds)
  | parted {c : Char} {d : Nat} {s : Text} {ds : List Nat} :
      IsValue c d → Grouped IsValue s ds → Grouped IsValue (c :: '_' :: s) (d :: ds)

def marks : List (Char × Nat) := [('x', 16), ('X', 16), ('o', 8), ('O', 8), ('b', 2), ('B', 2)]

inductive IsUnsigned : Text → Nat → Prop
  | decimal {s : Text} {ds : List Nat} : Grouped (IsDigit 10) s ds → ds.length ≤ maxDigits →
      (ds.head? = some 0 → ∀ d ∈ ds, d = 0) → IsUnsigned s (Nat.ofDigits 10 ds.reverse)
  | marked {mark : Char} {base : Nat} {gap s : Text} {ds : List Nat} : (mark, base) ∈ marks →
      gap = [] ∨ gap = ['_'] → Grouped (IsDigit base) s ds →
      IsUnsigned ('0' :: mark :: (gap ++ s)) (Nat.ofDigits base ds.reverse)

def IsInteger (s : Text) (n : Int) : Prop :=
  ∃ negative sign body m, s = sign ++ body ∧ IsSign negative sign ∧ IsUnsigned body m ∧
    n = signed negative m

section Sign
variable {negative : Bool} {sign body s : Text}

theorem takeSign_append (hsign : IsSign negative sign) (hbody : HasNoSign body) :
    takeSign (sign ++ body) = (negative, body) := by
  cases hsign with
  | plus => rfl
  | minus => rfl
  | absent =>
    cases body with
    | nil => rfl
    | cons c rest =>
      obtain ⟨hminus, hplus⟩ := hbody c rfl
      show takeSign (c :: rest) = _
      unfold takeSign
      split
      · next h => exact absurd (List.cons.inj h).1 hminus
      · next h => exact absurd (List.cons.inj h).1 hplus
      · rfl

theorem exists_sign_of_takeSign (h : takeSign s = (negative, body)) :
    ∃ sign, IsSign negative sign ∧ s = sign ++ body := by
  unfold takeSign at h
  split at h
  all_goals obtain ⟨rfl, rfl⟩ := Prod.mk.inj h
  · exact ⟨['-'], .minus, rfl⟩
  · exact ⟨['+'], .plus, rfl⟩
  · exact ⟨[], .absent, rfl⟩

end Sign

section Digit
variable {c : Char} {d base : Nat}

theorem digitValue?_of_wide (h : 128 ≤ c.toNat) (base : Nat) : digitValue? base c = none := by
  simp only [digitValue?]
  rw [if_neg (c := 48 ≤ c.toNat ∧ c.toNat ≤ 57) (by omega),
    if_neg (c := 65 ≤ c.toNat ∧ c.toNat ≤ 90) (by omega),
    if_neg (c := 97 ≤ c.toNat ∧ c.toNat ≤ 122) (by omega), if_neg (Nat.lt_irrefl base)]

theorem digitValue?_eq_some_of_le (h : base ≤ 16) :
    digitValue? base c = some d ↔ d < base ∧ digitValue? 16 c = some d := by
  simp only [digitValue?]
  split_ifs
  all_goals simp only [Option.some.injEq, and_false, iff_false, false_iff, not_and]
  all_goals omega

theorem digitValue?_sixteen : digitValue? 16 c = some d ↔ IsDigit 16 c d := by
  by_cases hc : c.toNat < 128
  · have hall : ∀ k < 128, ∀ d < 16, digitValue? 16 (Char.ofNat k) = some d ↔
        (Char.ofNat k).toLower = d.digitChar := by
      decide +kernel
    have h : ∀ d < 16, digitValue? 16 c = some d ↔ c.toLower = d.digitChar :=
      Text.of_toNat_lt c hc hall
    constructor
    · intro hd
      have hlt : d < 16 := ((digitValue?_eq_some_of_le (Nat.le_refl 16)).1 hd).1
      exact ⟨hlt, (h d hlt).1 hd⟩
    · rintro ⟨hlt, hd⟩
      exact (h d hlt).2 hd
  · have hwide : 128 ≤ c.toNat := Nat.le_of_not_lt hc
    rw [digitValue?_of_wide hwide]
    refine iff_of_false nofun ?_
    rintro ⟨hlt, hd⟩
    have hsame : c.toLower = c := Text.toLower_of_not_capital (.inr (by omega))
    have hascii : ∀ d < 16, (Nat.digitChar d).toNat < 128 := by decide
    rw [← hsame, hd] at hwide
    exact Nat.not_lt.2 hwide (hascii d hlt)

theorem digitValue?_eq_some_iff (h : base ≤ 16) :
    digitValue? base c = some d ↔ IsDigit base c d := by
  rw [digitValue?_eq_some_of_le h, digitValue?_sixteen]
  constructor
  · rintro ⟨hlt, -, hd⟩
    exact ⟨hlt, hd⟩
  · rintro ⟨hlt, hd⟩
    exact ⟨hlt, Nat.lt_of_lt_of_le hlt h, hd⟩

theorem le_sixteen_of_mem_marks {mark : Char} (h : (mark, base) ∈ marks) : base ≤ 16 := by
  have hall : ∀ p ∈ marks, p.2 ≤ 16 := by decide
  exact hall _ h

theorem of_isDigit {P : Char → Nat → Prop}
    (hall : ∀ k < 128, ∀ d ∈ digitValue? 16 (Char.ofNat k), P (Char.ofNat k) d)
    (h : base ≤ 16) (hc : IsDigit base c d) : P c d := by
  have hvalue := ((digitValue?_eq_some_of_le h).1 ((digitValue?_eq_some_iff h).2 hc)).2
  have hascii : c.toNat < 128 := by
    by_contra hwide
    rw [digitValue?_of_wide (Nat.le_of_not_lt hwide)] at hvalue
    exact nomatch hvalue
  have hP : ∀ d ∈ digitValue? 16 c, P c d := Text.of_toNat_lt c hascii hall
  exact hP d hvalue

theorem isDigit_zero_iff (h : base ≤ 16) (hc : IsDigit base c d) : c = '0' ↔ d = 0 :=
  of_isDigit (P := fun c d => c = '0' ↔ d = 0) (by decide +kernel) h hc

theorem isAlphanum_of_isDigit (h : base ≤ 16) (hc : IsDigit base c d) : c.isAlphanum = true :=
  of_isDigit (P := fun c _ => c.isAlphanum = true) (by decide +kernel) h hc

theorem isAlphanum_of_toLower (h : c.toLower.isAlphanum = true) : c.isAlphanum = true := by
  by_cases hc : c.toNat < 91
  · have hall : ∀ k < 91, (Char.ofNat k).toLower.isAlphanum = true →
        (Char.ofNat k).isAlphanum = true := by
      decide +kernel
    have halphanum : c.toLower.isAlphanum = true → c.isAlphanum = true :=
      Text.of_toNat_lt c hc hall
    exact halphanum h
  · rwa [Text.toLower_of_not_capital (.inr (by omega))] at h

theorem isDigit_ten_iff : IsDigit 10 c d ↔ c.isDigit = true ∧ d = c.toNat - 48 := by
  constructor
  · intro hc
    exact of_isDigit (P := fun c d => d < 10 → c.isDigit = true ∧ d = c.toNat - 48)
      (by decide +kernel) (by decide) hc hc.1
  · rintro ⟨hc, rfl⟩
    have hrange := toNat_of_isDigit hc
    have hall : ∀ k < 10, (Char.ofNat (48 + k)).toLower = k.digitChar := by decide
    have hdigit := hall (c.toNat - 48) (by omega)
    rw [Nat.add_sub_cancel' hrange.1, Char.ofNat_toNat] at hdigit
    exact ⟨by omega, hdigit⟩

theorem not_isDigit_underscore (h : base ≤ 16) : ¬ IsDigit base '_' d := by
  intro hd
  exact absurd (isAlphanum_of_isDigit h hd) (by decide)

end Digit

section Grouped
variable {IsValue : Char → Nat → Prop} {value? : Char → Option Nat} {c : Char} {s : Text}
  {ds : List Nat}

theorem Grouped.exists_cons (h : Grouped IsValue (c :: s) ds) :
    ∃ d rest, ds = d :: rest ∧ IsValue c d := by
  cases h with
  | last hc => exact ⟨_, _, rfl, hc⟩
  | next hc _ => exact ⟨_, _, rfl, hc⟩
  | parted hc _ => exact ⟨_, _, rfl, hc⟩

theorem Grouped.ne_nil (h : Grouped IsValue s ds) : s ≠ [] := by
  cases h with
  | last _ => exact List.cons_ne_nil _ _
  | next _ _ => exact List.cons_ne_nil _ _
  | parted _ _ => exact List.cons_ne_nil _ _

theorem groupedDigits?_cons {c : Char} (hne : s ≠ []) (hgap : ∀ rest, s ≠ '_' :: rest) :
    groupedDigits? value? (c :: s) = (value? c).bind fun d =>
      (groupedDigits? value? s).map (d :: ·) := by
  rw [groupedDigits?]
  · cases value? c with
    | none => rfl
    | some d =>
      cases groupedDigits? value? s with
      | none => rfl
      | some ds => rfl
  · exact hne
  · exact hgap

theorem grouped_of_groupedDigits? (h : groupedDigits? value? s = some ds) :
    Grouped (fun c d => value? c = some d) s ds := by
  fun_induction groupedDigits? value? s generalizing ds with
  | case1 => exact nomatch h
  | case2 c =>
    obtain ⟨d, hd, rfl⟩ := Option.map_eq_some_iff.1 h
    exact .last hd
  | case3 c rest ih =>
    obtain ⟨d, hd, hrest⟩ := Option.bind_eq_some_iff.1 h
    obtain ⟨ds, hds, hcons⟩ := Option.bind_eq_some_iff.1 hrest
    obtain rfl := Option.some.inj hcons
    exact .parted hd (ih hds)
  | case4 c rest _ _ ih =>
    obtain ⟨d, hd, hrest⟩ := Option.bind_eq_some_iff.1 h
    obtain ⟨ds, hds, hcons⟩ := Option.bind_eq_some_iff.1 hrest
    obtain rfl := Option.some.inj hcons
    exact .next hd (ih hds)

theorem groupedDigits?_of_grouped (hmark : value? '_' = none)
    (h : Grouped (fun c d => value? c = some d) s ds) : groupedDigits? value? s = some ds := by
  induction h with
  | last hc => rw [groupedDigits?, hc, Option.map_some]
  | @next c d s ds hc hs ih =>
    have hgap : ∀ rest, s ≠ '_' :: rest := by
      rintro rest rfl
      obtain ⟨e, _, -, he⟩ := hs.exists_cons
      exact nomatch hmark.symm.trans he
    rw [groupedDigits?_cons hs.ne_nil hgap, hc, ih]
    rfl
  | parted hc hs ih =>
    rw [groupedDigits?, hc, ih]
    rfl

theorem groupedDigits?_eq_some_iff {base : Nat} (h : base ≤ 16) :
    groupedDigits? (digitValue? base) s = some ds ↔ Grouped (IsDigit base) s ds := by
  have hvalue : (fun c d => digitValue? base c = some d) = IsDigit base := by
    funext c d
    exact propext (digitValue?_eq_some_iff h)
  have hmark : digitValue? base '_' = none := by
    rw [Option.eq_none_iff_forall_ne_some]
    intro d hd
    exact not_isDigit_underscore h ((digitValue?_eq_some_iff h).1 hd)
  constructor
  · intro hds
    rw [← hvalue]
    exact grouped_of_groupedDigits? hds
  · intro hgrouped
    rw [← hvalue] at hgrouped
    exact groupedDigits?_of_grouped hmark hgrouped

end Grouped

section Value
variable {base : Nat} {ds : List Nat}

theorem ofDigits_eq_zero_iff (h : 0 < base) : Nat.ofDigits base ds = 0 ↔ ∀ d ∈ ds, d = 0 := by
  induction ds with
  | nil => exact iff_of_true rfl nofun
  | cons d ds ih =>
    rw [Nat.ofDigits_cons, Nat.add_eq_zero_iff, Nat.mul_eq_zero, or_iff_right h.ne', ih,
      List.forall_mem_cons]

theorem ofDigits_reverse_eq_zero_iff (h : 0 < base) :
    Nat.ofDigits base ds.reverse = 0 ↔ ∀ d ∈ ds, d = 0 := by
  rw [ofDigits_eq_zero_iff h]
  simp only [List.mem_reverse]

end Value

section Literal
variable {s rest : Text} {n : Nat} {mark : Char} {base : Nat}

theorem decimal?_eq_some_iff_groupedDigits? {value? : Char → Option Nat} :
    decimal? value? s = some n ↔
      ∃ ds, groupedDigits? value? s = some ds ∧ ds.length ≤ maxDigits ∧
        n = Nat.ofDigits 10 ds.reverse := by
  simp only [decimal?, Option.bind_eq_bind, Option.bind_eq_some_iff, ofDigits_eq]
  refine exists_congr fun ds => and_congr_right fun _ => ?_
  by_cases hlong : maxDigits < ds.length
  · rw [if_pos hlong]
    exact iff_of_false nofun fun h => Nat.not_lt.2 h.1 hlong
  · rw [if_neg hlong, Option.some.injEq, and_iff_right (Nat.le_of_not_lt hlong)]
    exact eq_comm

theorem decimal?_eq_some_iff : decimal? (digitValue? 10) s = some n ↔
    ∃ ds, Grouped (IsDigit 10) s ds ∧ ds.length ≤ maxDigits ∧ n = Nat.ofDigits 10 ds.reverse := by
  simp only [decimal?_eq_some_iff_groupedDigits?, groupedDigits?_eq_some_iff (show 10 ≤ 16 by decide)]

theorem markedDigits?_cons (base : Nat) (rest : Text) :
    markedDigits? base ('_' :: rest) =
      (groupedDigits? (digitValue? base) rest).map (ofDigits base) := rfl

theorem markedDigits?_of_ne (base : Nat) (h : ∀ rest, s ≠ '_' :: rest) :
    markedDigits? base s = (groupedDigits? (digitValue? base) s).map (ofDigits base) := by
  unfold markedDigits?
  split
  · next rest => exact absurd rfl (h rest)
  · rfl

theorem groupedDigits?_map_eq_some_iff (h : base ≤ 16) :
    (groupedDigits? (digitValue? base) s).map (ofDigits base) = some n ↔
      ∃ ds, Grouped (IsDigit base) s ds ∧ n = Nat.ofDigits base ds.reverse := by
  simp only [Option.map_eq_some_iff, groupedDigits?_eq_some_iff h, ofDigits_eq]
  exact exists_congr fun ds => and_congr_right fun _ => eq_comm

theorem markedDigits?_eq_some_iff (h : base ≤ 16) : markedDigits? base s = some n ↔
    ∃ gap digits ds, s = gap ++ digits ∧ (gap = [] ∨ gap = ['_']) ∧
      Grouped (IsDigit base) digits ds ∧ n = Nat.ofDigits base ds.reverse := by
  constructor
  · intro hread
    by_cases hgap : ∃ rest, s = '_' :: rest
    · obtain ⟨rest, rfl⟩ := hgap
      rw [markedDigits?_cons, groupedDigits?_map_eq_some_iff h] at hread
      obtain ⟨ds, hds, hn⟩ := hread
      exact ⟨['_'], rest, ds, rfl, .inr rfl, hds, hn⟩
    · rw [markedDigits?_of_ne base (not_exists.1 hgap), groupedDigits?_map_eq_some_iff h] at hread
      obtain ⟨ds, hds, hn⟩ := hread
      exact ⟨[], s, ds, rfl, .inl rfl, hds, hn⟩
  · rintro ⟨gap, digits, ds, rfl, rfl | rfl, hds, hn⟩
    · have hgap : ∀ rest, digits ≠ '_' :: rest := by
        rintro rest rfl
        obtain ⟨d, _, -, hd⟩ := hds.exists_cons
        exact not_isDigit_underscore h hd
      rw [List.nil_append, markedDigits?_of_ne base hgap, groupedDigits?_map_eq_some_iff h]
      exact ⟨ds, hds, hn⟩
    · rw [List.singleton_append, markedDigits?_cons, groupedDigits?_map_eq_some_iff h]
      exact ⟨ds, hds, hn⟩

theorem unsignedLiteral?_marked (h : (mark, base) ∈ marks) :
    unsignedLiteral? ('0' :: mark :: rest) = markedDigits? base rest := by
  simp only [marks, List.mem_cons, Prod.mk.injEq, List.not_mem_nil, or_false] at h
  rcases h with ⟨rfl, rfl⟩ | ⟨rfl, rfl⟩ | ⟨rfl, rfl⟩ | ⟨rfl, rfl⟩ | ⟨rfl, rfl⟩ | ⟨rfl, rfl⟩
  all_goals rfl

theorem unsignedLiteral?_zero (h : ∀ base, (mark, base) ∉ marks) :
    unsignedLiteral? ('0' :: mark :: rest) =
      (decimal? (digitValue? 10) ('0' :: mark :: rest)).bind fun n =>
        if n = 0 then some 0 else none := by
  have hhex : ¬ (mark = 'x' ∨ mark = 'X') := by
    rintro (rfl | rfl)
    all_goals exact h 16 (by decide)
  have hoctal : ¬ (mark = 'o' ∨ mark = 'O') := by
    rintro (rfl | rfl)
    all_goals exact h 8 (by decide)
  have hbinary : ¬ (mark = 'b' ∨ mark = 'B') := by
    rintro (rfl | rfl)
    all_goals exact h 2 (by decide)
  rw [unsignedLiteral?, if_neg hhex, if_neg hoctal, if_neg hbinary]
  rfl

theorem unsignedLiteral?_of_ne (h : ∀ mark rest, s ≠ '0' :: mark :: rest) :
    unsignedLiteral? s = decimal? (digitValue? 10) s := by
  unfold unsignedLiteral?
  split
  · next mark rest => exact absurd rfl (h mark rest)
  · rfl

theorem not_mem_marks_of_grouped {ds : List Nat} (h : Grouped (IsDigit 10) ('0' :: mark :: rest) ds)
    (base : Nat) : (mark, base) ∉ marks := by
  have hmark : mark = '_' ∨ ∃ d, digitValue? 10 mark = some d := by
    cases h with
    | next _ hs =>
      obtain ⟨d, _, -, hd⟩ := hs.exists_cons
      exact .inr ⟨d, (digitValue?_eq_some_iff (by decide)).2 hd⟩
    | parted _ _ => exact .inl rfl
  have hall : ∀ p ∈ marks, p.1 ≠ '_' ∧ digitValue? 10 p.1 = none := by decide
  intro hmem
  obtain ⟨hne, hnone⟩ := hall _ hmem
  rcases hmark with heq | ⟨d, hd⟩
  · exact hne heq
  · exact nomatch hnone.symm.trans hd

theorem isUnsigned_of_unsignedLiteral? (h : unsignedLiteral? s = some n) : IsUnsigned s n := by
  by_cases hzero : ∃ mark rest, s = '0' :: mark :: rest
  · obtain ⟨mark, rest, rfl⟩ := hzero
    by_cases hmark : ∃ base, (mark, base) ∈ marks
    · obtain ⟨base, hmem⟩ := hmark
      rw [unsignedLiteral?_marked hmem, markedDigits?_eq_some_iff (le_sixteen_of_mem_marks hmem)] at h
      obtain ⟨gap, digits, ds, rfl, hgap, hds, rfl⟩ := h
      exact .marked hmem hgap hds
    · rw [unsignedLiteral?_zero (not_exists.1 hmark)] at h
      obtain ⟨m, hm, hif⟩ := Option.bind_eq_some_iff.1 h
      obtain ⟨ds, hds, hlength, rfl⟩ := decimal?_eq_some_iff.1 hm
      split at hif
      · next hvalue =>
        obtain rfl := Option.some.inj hif
        rw [← hvalue]
        exact .decimal hds hlength fun _ => (ofDigits_reverse_eq_zero_iff (by decide)).1 hvalue
      · exact nomatch hif
  · have hshape : ∀ mark rest, s ≠ '0' :: mark :: rest := by
      intro mark rest heq
      exact hzero ⟨mark, rest, heq⟩
    rw [unsignedLiteral?_of_ne hshape] at h
    obtain ⟨ds, hds, hlength, rfl⟩ := decimal?_eq_some_iff.1 h
    refine .decimal hds hlength fun hhead => ?_
    cases hds with
    | @last c d hc =>
      obtain rfl : d = 0 := Option.some.inj hhead
      exact List.forall_mem_singleton.2 rfl
    | @next c d s ds hc hs =>
      obtain rfl : d = 0 := Option.some.inj hhead
      obtain rfl := (isDigit_zero_iff (by decide) hc).2 rfl
      cases s with
      | nil => exact absurd rfl hs.ne_nil
      | cons mark rest => exact absurd rfl (hshape mark rest)
    | @parted c d s ds hc hs =>
      obtain rfl : d = 0 := Option.some.inj hhead
      obtain rfl := (isDigit_zero_iff (by decide) hc).2 rfl
      exact absurd rfl (hshape '_' s)

theorem unsignedLiteral?_of_isUnsigned (h : IsUnsigned s n) : unsignedLiteral? s = some n := by
  cases h with
  | @marked mark base gap digits ds hmem hgap hds =>
    rw [unsignedLiteral?_marked hmem, markedDigits?_eq_some_iff (le_sixteen_of_mem_marks hmem)]
    exact ⟨gap, digits, ds, rfl, hgap, hds, rfl⟩
  | @decimal _ ds hds hlength hfront =>
    have hread := decimal?_eq_some_iff.2 ⟨ds, hds, hlength, rfl⟩
    by_cases hzero : ∃ mark rest, s = '0' :: mark :: rest
    · obtain ⟨mark, rest, rfl⟩ := hzero
      obtain ⟨d, tail, rfl, hd⟩ := hds.exists_cons
      obtain rfl := (isDigit_zero_iff (by decide) hd).1 rfl
      have hvalue : Nat.ofDigits 10 (0 :: tail).reverse = 0 :=
        (ofDigits_reverse_eq_zero_iff (by decide)).2 (hfront rfl)
      rw [unsignedLiteral?_zero (not_mem_marks_of_grouped hds), hread, hvalue]
      rfl
    · rw [unsignedLiteral?_of_ne, hread]
      intro mark rest heq
      exact hzero ⟨mark, rest, heq⟩

theorem unsignedLiteral?_eq_some_iff : unsignedLiteral? s = some n ↔ IsUnsigned s n :=
  ⟨isUnsigned_of_unsignedLiteral?, unsignedLiteral?_of_isUnsigned⟩

end Literal

section Characters
variable {s : Text} {c : Char} {base : Nat}

def isNumeric (c : Char) : Bool := c.isAlphanum || c ∈ ['+', '-', '.']

def AreGroupedNumeric (s : Text) : Prop := ∀ c ∈ s, isNumeric c = true ∨ c = '_'

theorem isNumeric_of_isAlphanum (h : c.isAlphanum = true) : isNumeric c = true :=
  Bool.or_eq_true_iff.2 (.inl h)

theorem AreDigits.isNumeric (h : AreDigits s) : ∀ c ∈ s, isNumeric c = true :=
  fun c hc => isNumeric_of_isAlphanum
    (isAlphanum_of_isDigit (by decide) (isDigit_ten_iff.2 ⟨h c hc, rfl⟩))

theorem IsSign.isNumeric {negative : Bool} (h : IsSign negative s) : ∀ c ∈ s, isNumeric c = true := by
  cases h with
  | absent => exact nofun
  | plus => exact List.forall_mem_singleton.2 rfl
  | minus => exact List.forall_mem_singleton.2 rfl

def AreGroupedAlphanum (s : Text) : Prop := ∀ c ∈ s, c.isAlphanum = true ∨ c = '_'

theorem AreGroupedAlphanum.areGroupedNumeric (h : AreGroupedAlphanum s) : AreGroupedNumeric s :=
  fun c hc => (h c hc).imp_left isNumeric_of_isAlphanum

theorem Grouped.areGroupedAlphanum {ds : List Nat} (hbase : base ≤ 16)
    (h : Grouped (IsDigit base) s ds) : AreGroupedAlphanum s := by
  induction h with
  | last hc => exact List.forall_mem_singleton.2 (.inl (isAlphanum_of_isDigit hbase hc))
  | next hc _ ih => exact List.forall_mem_cons.2 ⟨.inl (isAlphanum_of_isDigit hbase hc), ih⟩
  | parted hc _ ih =>
    exact List.forall_mem_cons.2
      ⟨.inl (isAlphanum_of_isDigit hbase hc), List.forall_mem_cons.2 ⟨.inr rfl, ih⟩⟩

theorem isAlphanum_of_mem_marks {mark : Char} (h : (mark, base) ∈ marks) :
    mark.isAlphanum = true := by
  have hall : ∀ p ∈ marks, p.1.isAlphanum = true := by decide
  exact hall _ h

theorem IsUnsigned.areGroupedAlphanum {n : Nat} (h : IsUnsigned s n) : AreGroupedAlphanum s := by
  cases h with
  | decimal hds _ _ => exact hds.areGroupedAlphanum (by decide)
  | @marked mark base gap digits ds hmem hgap hds =>
    have hdigits := hds.areGroupedAlphanum (le_sixteen_of_mem_marks hmem)
    refine List.forall_mem_cons.2 ⟨.inl rfl, List.forall_mem_cons.2
      ⟨.inl (isAlphanum_of_mem_marks hmem), ?_⟩⟩
    rcases hgap with rfl | rfl
    · exact hdigits
    · exact List.forall_mem_cons.2 ⟨.inr rfl, hdigits⟩

theorem IsSign.not_mem_append {negative : Bool} {body : Text} (h : IsSign negative s)
    (hbody : AreGroupedAlphanum body) (hc : c.isAlphanum = false) (hmark : c ∉ ['+', '-', '_']) :
    c ∉ s ++ body := by
  rw [List.mem_append, not_or]
  constructor
  · intro hmem
    cases h with
    | absent => exact nomatch hmem
    | plus =>
      obtain rfl := List.mem_singleton.1 hmem
      exact hmark (by decide)
    | minus =>
      obtain rfl := List.mem_singleton.1 hmem
      exact hmark (by decide)
  · intro hmem
    rcases hbody c hmem with halphanum | rfl
    · exact nomatch hc.symm.trans halphanum
    · exact hmark (by decide)

theorem IsInteger.areGroupedNumeric {n : Int} (h : IsInteger s n) : AreGroupedNumeric s := by
  obtain ⟨negative, sign, body, m, rfl, hsign, hbody, -⟩ := h
  exact List.forall_mem_append.2
    ⟨fun c hc => .inl (hsign.isNumeric c hc), hbody.areGroupedAlphanum.areGroupedNumeric⟩

theorem IsInteger.not_mem {n : Int} (h : IsInteger s n) (hc : c.isAlphanum = false)
    (hmark : c ∉ ['+', '-', '_']) : c ∉ s := by
  obtain ⟨negative, sign, body, m, rfl, hsign, hbody, -⟩ := h
  exact hsign.not_mem_append hbody.areGroupedAlphanum hc hmark

theorem IsUnsigned.exists_digit {n : Nat} (h : IsUnsigned s n) :
    ∃ c rest d, s = c :: rest ∧ IsDigit 10 c d := by
  cases h with
  | @decimal _ ds hds _ _ =>
    cases s with
    | nil => exact absurd rfl hds.ne_nil
    | cons c rest =>
      obtain ⟨d, -, -, hd⟩ := hds.exists_cons
      exact ⟨c, rest, d, rfl, hd⟩
  | marked _ _ _ => exact ⟨'0', _, 0, rfl, by decide, rfl⟩

theorem IsUnsigned.hasNoSign {n : Nat} (h : IsUnsigned s n) : HasNoSign s := by
  obtain ⟨c, rest, d, rfl, hd⟩ := h.exists_digit
  have hdigit := (isDigit_ten_iff.1 hd).1
  intro e he
  obtain rfl := Option.some.inj he
  exact ⟨ne_of_isDigit hdigit rfl, ne_of_isDigit hdigit rfl⟩

end Characters

theorem literal?_eq_some_iff {s : Text} {n : Int} : literal? s = some n ↔ IsInteger s n := by
  simp only [literal?, Option.map_eq_some_iff, unsignedLiteral?_eq_some_iff]
  constructor
  · rintro ⟨m, hm, rfl⟩
    obtain ⟨sign, hsign, hs⟩ := exists_sign_of_takeSign (s := s) rfl
    exact ⟨_, sign, _, m, hs, hsign, hm, rfl⟩
  · rintro ⟨negative, sign, body, m, rfl, hsign, hm, rfl⟩
    rw [takeSign_append hsign hm.hasNoSign]
    exact ⟨m, hm, rfl⟩

end FindQuery.Numeral
