import Mathlib.Algebra.Order.Group.Nat
import Mathlib.Order.Monotone.Basic
import Mathlib.Data.Nat.Init
import FindQuery.Calendar.Moment

/-! The numbers of days. -/

namespace FindQuery.Date

theorem le_daysInMonth (year : Nat) {month : Nat} (h : 1 ≤ month) (h' : month ≤ 12) :
    28 ≤ daysInMonth year month := by
  unfold daysInMonth
  split
  case h_12 =>
    split
    · decide
    · decide
  case h_13 => grind
  all_goals decide

theorem Valid.le_daysInMonth {d : Date} (h : d.Valid) : 28 ≤ daysInMonth d.year d.month :=
  Date.le_daysInMonth d.year (month_mem_of_valid h).1 (month_mem_of_valid h).2

theorem daysInMonth_le (year month : Nat) : daysInMonth year month ≤ 31 := by
  unfold daysInMonth
  split
  case h_12 =>
    split
    · decide
    · decide
  all_goals decide

def daysBeforeYear (year : Nat) : Nat :=
  (year - 1) * 365 + (year - 1) / 4 - (year - 1) / 100 + (year - 1) / 400

theorem ordinal_eq (d : Date) :
    d.ordinal = daysBeforeYear d.year + daysBeforeMonth d.year d.month + d.day := rfl

theorem daysBeforeMonth_mono (year : Nat) : Monotone (daysBeforeMonth year) :=
  monotone_nat_of_le_succ fun _ => Nat.le_add_right _ _

theorem daysBeforeMonth_thirteen (year : Nat) :
    daysBeforeMonth year 13 = if isLeapYear year then 366 else 365 := by
  simp only [daysBeforeMonth, daysInMonth]
  split
  · rfl
  · rfl

theorem isLeapYear_iff {year : Nat} :
    isLeapYear year = true ↔ year % 4 = 0 ∧ (year % 100 ≠ 0 ∨ year % 400 = 0) := by
  simp [isLeapYear]

theorem daysBeforeYear_succ {year : Nat} (h : 1 ≤ year) :
    daysBeforeYear (year + 1) = daysBeforeYear year + daysBeforeMonth year 13 := by
  obtain ⟨n, rfl⟩ := Nat.exists_eq_add_of_le' h
  have hcenturies : n / 100 ≤ n := Nat.div_le_self n 100
  rw [daysBeforeMonth_thirteen]
  simp only [daysBeforeYear, isLeapYear_iff, Nat.add_sub_cancel, Nat.succ_div,
    Nat.dvd_iff_mod_eq_zero]
  split_ifs
  all_goals omega

theorem Valid.ordinal_le {d : Date} (h : d.Valid) :
    d.ordinal ≤ daysBeforeYear (d.year + 1) := by
  have hmonth := (month_mem_of_valid h).2
  obtain ⟨hyear, -, -, hday⟩ := h
  have hbefore : daysBeforeMonth d.year (d.month + 1) ≤ daysBeforeMonth d.year 13 :=
    daysBeforeMonth_mono d.year (by omega)
  rw [daysBeforeMonth] at hbefore
  rw [ordinal_eq, daysBeforeYear_succ hyear]
  omega

theorem daysBeforeYear_le {a b : Nat} (ha : 1 ≤ a) (h : a ≤ b) :
    daysBeforeYear a ≤ daysBeforeYear b := by
  induction b, h using Nat.le_induction with
  | base => exact Nat.le_refl _
  | succ b hab ih =>
    rw [daysBeforeYear_succ (ha.trans hab)]
    exact Nat.le_add_right_of_le ih

section Order
variable {a b : Date}

theorem ordinal_lt_of_year (ha : a.Valid) (hb : b.Valid) (h : a.year < b.year) :
    a.ordinal < b.ordinal := by
  have hstart := daysBeforeYear_le (Nat.le_add_left 1 a.year) h
  have hend := ha.ordinal_le
  obtain ⟨-, -, hday, -⟩ := hb
  rw [ordinal_eq b]
  omega

theorem ordinal_lt_of_month (ha : a.Valid) (hb : b.Valid) (hyear : a.year = b.year)
    (h : a.month < b.month) : a.ordinal < b.ordinal := by
  have hbefore : daysBeforeMonth a.year (a.month + 1) ≤ daysBeforeMonth a.year b.month :=
    daysBeforeMonth_mono a.year h
  obtain ⟨-, -, -, hlast⟩ := ha
  obtain ⟨-, -, hday, -⟩ := hb
  rw [daysBeforeMonth] at hbefore
  rw [ordinal_eq, ordinal_eq, ← hyear]
  omega

theorem eq_of_ordinal_eq (ha : a.Valid) (hb : b.Valid) (h : a.ordinal = b.ordinal) : a = b := by
  have hyear : a.year = b.year := by
    rcases Nat.lt_trichotomy a.year b.year with hlt | heq | hlt
    · exact absurd h (ordinal_lt_of_year ha hb hlt).ne
    · exact heq
    · exact absurd h (ordinal_lt_of_year hb ha hlt).ne'
  have hmonth : a.month = b.month := by
    rcases Nat.lt_trichotomy a.month b.month with hlt | heq | hlt
    · exact absurd h (ordinal_lt_of_month ha hb hyear hlt).ne
    · exact heq
    · exact absurd h (ordinal_lt_of_month hb ha hyear.symm hlt).ne'
  have hday : a.day = b.day := by
    rw [ordinal_eq, ordinal_eq, hyear, hmonth] at h
    exact Nat.add_left_cancel h
  cases a
  cases b
  simp_all

end Order

section After
variable {d e : Date} {n : Nat}

theorem ordinal_firstOfMonth (year month : Nat) :
    ordinal ⟨year, month + 1, 1⟩ =
      daysBeforeYear year + (daysBeforeMonth year month + daysInMonth year month) + 1 := rfl

theorem ordinal_firstOfYear {year : Nat} (h : 1 ≤ year) :
    ordinal ⟨year + 1, 1, 1⟩ = daysBeforeYear year + daysBeforeMonth year 13 + 1 := by
  rw [ordinal_eq]
  show daysBeforeYear (year + 1) + 0 + 1 = _
  rw [daysBeforeYear_succ h, Nat.add_zero]

theorem ordinal_next? (h : d.Valid) (hnext : d.next? = some e) :
    e.Valid ∧ e.ordinal = d.ordinal + 1 := by
  have hmonth := (month_mem_of_valid h).2
  obtain ⟨hyear, hyear', hday, hlast⟩ := h
  unfold next? at hnext
  split at hnext
  · next hlt =>
    obtain rfl := Option.some.inj hnext
    exact ⟨⟨hyear, hyear', Nat.le_add_left 1 d.day, hlt⟩, rfl⟩
  · next hfull =>
    have hdays : d.day = daysInMonth d.year d.month :=
      Nat.le_antisymm hlast (Nat.le_of_not_lt hfull)
    split at hnext
    · next hmore =>
      obtain rfl := Option.some.inj hnext
      have hfirst := Date.le_daysInMonth d.year (Nat.le_add_left 1 d.month) hmore
      refine ⟨⟨hyear, hyear', Nat.le_refl 1, Nat.le_trans (by decide : 1 ≤ 28) hfirst⟩, ?_⟩
      rw [ordinal_firstOfMonth, ordinal_eq, hdays, Nat.add_assoc (daysBeforeYear d.year)
        (daysBeforeMonth d.year d.month)]
    · next hdec =>
      split at hnext
      · next hmore =>
        obtain rfl := Option.some.inj hnext
        have htwelve : d.month = 12 := by omega
        have hfirst := Date.le_daysInMonth (d.year + 1) (Nat.le_refl 1) (by decide)
        refine ⟨⟨Nat.le_add_left 1 d.year, hmore, Nat.le_refl 1,
          Nat.le_trans (by decide : 1 ≤ 28) hfirst⟩, ?_⟩
        rw [ordinal_firstOfYear hyear, daysBeforeMonth, ordinal_eq, hdays, htwelve,
          Nat.add_assoc (daysBeforeYear d.year) (daysBeforeMonth d.year 12)]
      · exact nomatch hnext

theorem ordinal_after? (h : d.Valid) (hafter : after? n d = some e) :
    e.Valid ∧ e.ordinal = d.ordinal + n := by
  induction n generalizing d with
  | zero =>
    obtain rfl := Option.some.inj hafter
    exact ⟨h, rfl⟩
  | succ n ih =>
    obtain ⟨c, hnext, hrest⟩ := Option.bind_eq_some_iff.1 hafter
    obtain ⟨hc, hone⟩ := ordinal_next? h hnext
    obtain ⟨he, hmany⟩ := ih hc hrest
    exact ⟨he, by omega⟩

theorem after?_of_le (h : d.day + n ≤ daysInMonth d.year d.month) :
    after? n d = some ⟨d.year, d.month, d.day + n⟩ := by
  induction n generalizing d with
  | zero => rfl
  | succ n ih =>
    have hnext : d.next? = some ⟨d.year, d.month, d.day + 1⟩ := if_pos (by omega)
    have hlast : d.day + 1 + n ≤ daysInMonth d.year d.month := by omega
    rw [after?, hnext, Option.bind_some, ih hlast]
    rw [Nat.add_right_comm, Nat.add_assoc]

theorem weekday_eq_of_ordinal (h : e.ordinal = d.ordinal + n) (w : Nat) :
    (7 - d.weekday + w) % 7 = n % 7 ↔ e.weekday = w % 7 := by
  unfold weekday
  rw [h]
  omega

theorem ordinal_onWeekday? {w : Nat} (h : d.Valid) (hmove : d.onWeekday? w = some e) :
    e.Valid ∧ d.ordinal ≤ e.ordinal ∧ e.ordinal < d.ordinal + 7 ∧ e.weekday = w % 7 := by
  obtain ⟨hvalid, hordinal⟩ := ordinal_after? h hmove
  have hlt : (7 - d.weekday + w) % 7 < 7 := Nat.mod_lt _ (by decide)
  have hweekday := (weekday_eq_of_ordinal hordinal w).1 (Nat.mod_mod _ _).symm
  exact ⟨hvalid, by omega, by omega, hweekday⟩

theorem onWeekday?_of_le (w : Nat) (h : d.day + 6 ≤ daysInMonth d.year d.month) :
    d.onWeekday? w = some ⟨d.year, d.month, d.day + (7 - d.weekday + w) % 7⟩ := by
  have hlt : (7 - d.weekday + w) % 7 < 7 := Nat.mod_lt _ (by decide)
  exact after?_of_le (by omega)

theorem onWeekday?_eq {w : Nat} (hn : n < 7) (h : d.day + n ≤ daysInMonth d.year d.month)
    (hweekday : weekday ⟨d.year, d.month, d.day + n⟩ = w % 7) :
    d.onWeekday? w = some ⟨d.year, d.month, d.day + n⟩ := by
  have hordinal : ordinal ⟨d.year, d.month, d.day + n⟩ = d.ordinal + n :=
    (Nat.add_assoc _ _ _).symm
  have hmove := (weekday_eq_of_ordinal hordinal w).2 hweekday
  rw [onWeekday?, hmove, Nat.mod_eq_of_lt hn, after?_of_le h]

theorem onWeekday?_eq_iff {w day : Nat} (hvalid : Valid ⟨e.year, e.month, day⟩)
    (he : e.Valid) (hweekday : e.weekday = w % 7) (hweek : e.day < day + 7) :
    onWeekday? ⟨e.year, e.month, day⟩ w = some e ↔ day ≤ e.day := by
  constructor
  · intro hmove
    have hle := (ordinal_onWeekday? hvalid hmove).2.1
    simp only [ordinal_eq] at hle
    omega
  · intro hle
    have hsum : day + (e.day - day) = e.day := by omega
    have hlast := he.2.2.2
    have hmove := onWeekday?_eq (d := ⟨e.year, e.month, day⟩) (n := e.day - day) (w := w)
      (by omega) (by rw [hsum]; exact hlast) (by rw [hsum]; exact hweekday)
    rw [hmove, hsum]

end After

end FindQuery.Date
