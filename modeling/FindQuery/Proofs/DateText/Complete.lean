import FindQuery.DateText.Complete
import FindQuery.Proofs.Calendar.Ordinal
import FindQuery.Proofs.DateText.Weekday

/-! What two probe days can tell of a date text. -/

namespace FindQuery.DateText

variable {f : Findings} {parts : Figures.Parts} {default : Date} {e : Date} {m : Moment}

theorem fullYear_near [Host] {year : Nat} (h : year < 100) :
    fullYear year false % 100 = year ∧ Host.year ≤ fullYear year false + 50 ∧
      fullYear year false < Host.year + 50 := by
  have hyear := Host.year_ge
  have hlong : ¬ (100 ≤ year ∨ false = true) := by simp [h]
  rw [fullYear, if_neg hlong]
  dsimp only
  split
  · omega
  · split
    · omega
    · omega

/-- The text alone determines the moment: it is read as that moment whatever the default day is. -/
def Determines [Host] (s : Text) (m : Moment) : Prop :=
  ∀ default : Date, default.Valid → read default s = .ok (some m)

theorem read_eq_some [Host] {s : Text} : read default s = .ok (some m) ↔
    ∃ f, findings s = .ok f ∧ f.moment? default = some m := by
  unfold read
  split
  · next f hf => simp [hf]
  · next hf => simp [hf]
  · next hf => simp [hf]

theorem agreed?_eq_some {first second : Option Moment} : agreed? first second = some m ↔
    first = some m ∧ ∃ b, second = some b ∧ m.wallTime = b.wallTime := by
  unfold agreed?
  simp only [Option.bind_eq_bind, Option.bind_eq_some_iff]
  constructor
  · rintro ⟨a, rfl, b, rfl, h⟩
    split at h
    · next hsame =>
      obtain rfl := Option.some.inj h
      exact ⟨rfl, b, rfl, hsame⟩
    · exact nomatch h
  · rintro ⟨rfl, b, rfl, hsame⟩
    exact ⟨m, rfl, b, rfl, if_pos hsame⟩

theorem exists_findings_of_complete [Host] {s : Text} (h : complete s = .ok (some m)) :
    ∃ f b, findings s = .ok f ∧ f.moment? probeDays.1 = some m ∧ f.moment? probeDays.2 = some b ∧
      m.wallTime = b.wallTime := by
  unfold complete at h
  split at h
  · obtain ⟨first, hfirst, hrest⟩ := bind_eq_ok.1 h
    obtain ⟨second, hsecond, hagreed⟩ := bind_eq_ok.1 hrest
    obtain ⟨rfl, b, rfl, hsame⟩ := agreed?_eq_some.1 (Except.ok.inj hagreed)
    obtain ⟨f, hf, hm⟩ := read_eq_some.1 hfirst
    obtain ⟨g, hg, hb⟩ := read_eq_some.1 hsecond
    obtain rfl := Except.ok.inj (hf.symm.trans hg)
    exact ⟨f, b, hf, hm, hb, hsame⟩
  · exact nomatch h

theorem Findings.moment?_eq_some [Host] : f.moment? default = some m ↔
    f.clock.Valid ∧ (∀ zone ∈ f.zone, OffsetInRange zone.offset) ∧
      f.date? default = some m.date ∧ f.clock = m.clock ∧ f.zone = m.zone := by
  unfold Findings.moment?
  by_cases hclock : f.clock.Valid
  · rw [if_pos hclock, and_iff_right hclock]
    obtain ⟨date, clock, zone⟩ := m
    cases f.date? default with
    | none => exact iff_of_false nofun fun h => nomatch h.2.1
    | some day =>
      cases f.zone with
      | none => simp
      | some z =>
        by_cases hrange : OffsetInRange z.offset
        · simp [hrange]
        · simp [hrange]
  · rw [if_neg hclock]
    exact iff_of_false nofun fun h => hclock h.1

theorem Findings.date?_of_parts [Host] (hparts : f.dateParts? = some parts) (default : Date) :
    f.date? default =
      if (parts.fill default).Valid then
        match f.weekday, parts.day with
        | some w, none => (parts.fill default).onWeekday? w
        | _, _ => some (parts.fill default)
      else none := by
  rw [Findings.date?, hparts]
  rfl

theorem Findings.date?_eq_some [Host] : f.date? default = some e ↔
    ∃ parts, f.dateParts? = some parts ∧ (parts.fill default).Valid ∧
      ((∃ w, f.weekday = some w ∧ parts.day = none ∧ (parts.fill default).onWeekday? w = some e) ∨
        ((f.weekday = none ∨ parts.day.isSome) ∧ parts.fill default = e)) := by
  cases hparts : f.dateParts? with
  | none => simp [Findings.date?, hparts]
  | some parts =>
    rw [Findings.date?_of_parts hparts]
    by_cases hvalid : (parts.fill default).Valid
    · rw [if_pos hvalid]
      cases f.weekday with
      | none => simp [hvalid]
      | some w =>
        cases hday : parts.day with
        | none => simp [hvalid, hday]
        | some day => simp [hvalid, hday]
    · simp [hvalid]

theorem Findings.valid_of_date? [Host] (h : f.date? default = some e) : e.Valid := by
  obtain ⟨parts, -, hvalid, ⟨w, -, -, hmove⟩ | ⟨-, rfl⟩⟩ := Findings.date?_eq_some.1 h
  · exact (Date.ordinal_onWeekday? hvalid hmove).1
  · exact hvalid

theorem Findings.date?_eq_of_wallTime [Host] {default' : Date} {m' : Moment}
    (h : f.moment? default = some m) (h' : f.moment? default' = some m')
    (hsame : m.wallTime = m'.wallTime) : f.date? default' = some m.date := by
  obtain ⟨-, -, hdate, hclock, -⟩ := Findings.moment?_eq_some.1 h
  obtain ⟨-, -, hdate', hclock', -⟩ := Findings.moment?_eq_some.1 h'
  have hordinal : m.date.ordinal = m'.date.ordinal := by
    have hclocks : m.clock = m'.clock := hclock.symm.trans hclock'
    unfold Moment.wallTime at hsame
    rw [hclocks] at hsame
    omega
  rw [hdate', Date.eq_of_ordinal_eq (valid_of_date? hdate) (valid_of_date? hdate') hordinal]

theorem eq_some_of_getD {o : Option Nat} {a b n : Nat} (hab : a ≠ b) (ha : o.getD a = n)
    (hb : o.getD b = n) : o = some n := by
  cases o with
  | none => exact absurd (ha.trans hb.symm) hab
  | some k => exact congrArg some ha

theorem named_of_fill {year month : Nat}
    (hyear : (parts.fill probeDays.1).year = year) (hmonth : (parts.fill probeDays.1).month = month)
    (hyear' : (parts.fill probeDays.2).year = year)
    (hmonth' : (parts.fill probeDays.2).month = month) :
    parts.year = some year ∧ parts.month = some month :=
  ⟨eq_some_of_getD (by decide) hyear hyear', eq_some_of_getD (by decide) hmonth hmonth'⟩

theorem fill_of_day_none (hyear : parts.year = some e.year) (hmonth : parts.month = some e.month)
    (hday : parts.day = none) (default : Date) :
    parts.fill default =
      ⟨e.year, e.month, min default.day (Date.daysInMonth e.year e.month)⟩ := by
  rw [Figures.Parts.fill, hyear, hmonth, hday]
  rfl

theorem valid_fill_of_day_none (he : e.Valid) (hyear : parts.year = some e.year)
    (hmonth : parts.month = some e.month) (hday : parts.day = none) (hdefault : default.Valid) :
    (parts.fill default).Valid := by
  have hlast := he.le_daysInMonth
  obtain ⟨hfirst, hfinal, -, -⟩ := he
  obtain ⟨-, -, hone, -⟩ := hdefault
  rw [fill_of_day_none hyear hmonth hday]
  refine ⟨hfirst, hfinal, ?_, Nat.min_le_right _ _⟩
  show 1 ≤ min default.day (Date.daysInMonth e.year e.month)
  omega

structure NamesDay [Host] (f : Findings) (parts : Figures.Parts) (e : Date) : Prop where
  day : parts.day = some e.day
  determined (default : Date) : f.date? default = some e

/-- The text names a day of the week instead of a day of the month, and the first such day of the
month is the second or a later one. -/
structure NamesWeekday [Host] (f : Findings) (parts : Figures.Parts) (e : Date) : Prop where
  day : parts.day = none
  weekday : ∃ w, f.weekday = some w ∧ e.weekday = w % 7
  second_le : 2 ≤ e.day
  le_seventh : e.day ≤ 7
  date?_eq_iff (default : Date) : default.Valid → (f.date? default = some e ↔ default.day ≤ e.day)

theorem namesDay_of_fill [Host] (hparts : f.dateParts? = some parts)
    (hkeep : f.weekday = none ∨ parts.day.isSome) (hvalid : e.Valid)
    (hfill : parts.fill probeDays.1 = e) (hfill' : parts.fill probeDays.2 = e) :
    parts.year = some e.year ∧ parts.month = some e.month ∧ NamesDay f parts e := by
  obtain ⟨hyear, hmonth⟩ := named_of_fill (congrArg Date.year hfill) (congrArg Date.month hfill)
    (congrArg Date.year hfill') (congrArg Date.month hfill')
  refine ⟨hyear, hmonth, ?_⟩
  cases hday : parts.day with
  | none =>
    -- The probe days would be filled in as the first and the second of the same month.
    have hlast := hvalid.le_daysInMonth
    rw [fill_of_day_none hyear hmonth hday] at hfill hfill'
    have hfirst : min 1 (Date.daysInMonth e.year e.month) = e.day := congrArg Date.day hfill
    have hsecond : min 2 (Date.daysInMonth e.year e.month) = e.day := congrArg Date.day hfill'
    omega
  | some day =>
    have hall (default : Date) : parts.fill default = e := by
      rw [← hfill, Figures.Parts.fill, Figures.Parts.fill, hyear, hmonth, hday]
      rfl
    refine ⟨?_, fun default => ?_⟩
    · rw [hday, ← hfill, Figures.Parts.fill, hday]
      rfl
    · refine Findings.date?_eq_some.2 ⟨parts, hparts, ?_, .inr ⟨hkeep, hall default⟩⟩
      rw [hall]
      exact hvalid

theorem eq_of_move {w : Nat} (hday : parts.day = none) (hprobe : default.day ≤ 2)
    (hvalid : (parts.fill default).Valid) (hmove : (parts.fill default).onWeekday? w = some e) :
    (parts.fill default).year = e.year ∧ (parts.fill default).month = e.month ∧
      default.day ≤ e.day ∧ e.day < default.day + 7 := by
  have hlast := hvalid.le_daysInMonth
  have hfilled : (parts.fill default).day = default.day := by
    have hmin : (parts.fill default).day = min default.day
        (Date.daysInMonth (parts.fill default).year (parts.fill default).month) := by
      rw [Figures.Parts.fill, hday]
      rfl
    omega
  have hstay := Date.onWeekday?_of_le (d := parts.fill default) w (by omega)
  obtain rfl := Option.some.inj (hmove.symm.trans hstay)
  have hlt : (7 - (parts.fill default).weekday + w) % 7 < 7 := Nat.mod_lt _ (by decide)
  refine ⟨rfl, rfl, ?_, ?_⟩
  · show default.day ≤ (parts.fill default).day + _
    omega
  · show (parts.fill default).day + _ < default.day + 7
    omega

theorem namesWeekday_of_move [Host] {w : Nat} (hparts : f.dateParts? = some parts)
    (hw : f.weekday = some w) (hday : parts.day = none)
    (hvalid : (parts.fill probeDays.1).Valid) (hvalid' : (parts.fill probeDays.2).Valid)
    (hmove : (parts.fill probeDays.1).onWeekday? w = some e)
    (hmove' : (parts.fill probeDays.2).onWeekday? w = some e) :
    parts.year = some e.year ∧ parts.month = some e.month ∧ NamesWeekday f parts e := by
  obtain ⟨hyear, hmonth, -, hseventh⟩ := eq_of_move hday (by decide) hvalid hmove
  obtain ⟨hyear', hmonth', hsecond, -⟩ := eq_of_move hday (by decide) hvalid' hmove'
  obtain ⟨he, -, -, hweekday⟩ := Date.ordinal_onWeekday? hvalid hmove
  obtain ⟨hyear, hmonth⟩ := named_of_fill hyear hmonth hyear' hmonth'
  have hle : e.day ≤ 7 := Nat.le_of_lt_succ hseventh
  refine ⟨hyear, hmonth, hday, ⟨w, hw, hweekday⟩, hsecond, hle, ?_⟩
  intro default hdefault
  have hfilled := valid_fill_of_day_none he hyear hmonth hday hdefault
  have hlast := he.le_daysInMonth
  have hone := hdefault.2.2.1
  rw [Findings.date?_of_parts hparts, if_pos hfilled, hw, hday]
  show (parts.fill default).onWeekday? w = some e ↔ _
  rw [fill_of_day_none hyear hmonth hday] at hfilled ⊢
  rw [Date.onWeekday?_eq_iff hfilled he hweekday (by omega)]
  omega

theorem names_of_date? [Host] (h : f.date? probeDays.1 = some e) (h' : f.date? probeDays.2 = some e) :
    ∃ parts, f.dateParts? = some parts ∧ parts.year = some e.year ∧ parts.month = some e.month ∧
      (NamesDay f parts e ∨ NamesWeekday f parts e) := by
  obtain ⟨parts, hparts, hvalid, hcase⟩ := Findings.date?_eq_some.1 h
  obtain ⟨parts', hparts', hvalid', hcase'⟩ := Findings.date?_eq_some.1 h'
  obtain rfl := Option.some.inj (hparts.symm.trans hparts')
  refine ⟨parts, hparts, ?_⟩
  rcases hcase with ⟨w, hw, hday, hmove⟩ | ⟨hkeep, hfill⟩
  · rcases hcase' with ⟨w', hw', -, hmove'⟩ | ⟨hkeep', -⟩
    · obtain rfl := Option.some.inj (hw.symm.trans hw')
      obtain ⟨hyear, hmonth, hnames⟩ :=
        namesWeekday_of_move hparts hw hday hvalid hvalid' hmove hmove'
      exact ⟨hyear, hmonth, .inr hnames⟩
    · simp [hw, hday] at hkeep'
  · rcases hcase' with ⟨w', hw', hday', -⟩ | ⟨-, hfill'⟩
    · simp [hw', hday'] at hkeep
    · obtain ⟨hyear, hmonth, hnames⟩ :=
        namesDay_of_fill hparts hkeep (hfill ▸ hvalid) hfill hfill'
      exact ⟨hyear, hmonth, .inl hnames⟩

theorem read_eq_iff [Host] {s : Text} {start : Date} (hf : findings s = .ok f)
    (hm : f.moment? start = some m) (default : Date) :
    read default s = .ok (some m) ↔ f.date? default = some m.date := by
  obtain ⟨hclock, hzone, -, hclock', hzone'⟩ := Findings.moment?_eq_some.1 hm
  rw [read_eq_some]
  constructor
  · rintro ⟨g, hg, hmoment⟩
    obtain rfl := Except.ok.inj (hf.symm.trans hg)
    exact (Findings.moment?_eq_some.1 hmoment).2.2.1
  · intro hdate
    exact ⟨f, hf, Findings.moment?_eq_some.2 ⟨hclock, hzone, hdate, hclock', hzone'⟩⟩

/-- A text that is read as a complete date names the year and the month, and it alone determines the
moment exactly when it names the day of the month. When it does not, one of its words is a day of the
week, and the moment is on the first such day of a month that begins with another one. Default days
up to that day lead to it, and later ones do not. -/
theorem determines_iff_day_named [Host] {s : Text} (h : complete s = .ok (some m)) :
    ∃ f parts, findings s = .ok f ∧ f.dateParts? = some parts ∧
      parts.year = some m.date.year ∧ parts.month = some m.date.month ∧
      (Determines s m ↔ parts.day = some m.date.day) ∧
      (parts.day = some m.date.day ∨
        parts.day = none ∧ (∃ t ∈ tokens s, weekday? t = some m.date.weekday) ∧
          2 ≤ m.date.day ∧ m.date.day ≤ 7 ∧ ∀ default : Date, default.Valid →
            (read default s = .ok (some m) ↔ default.day ≤ m.date.day)) := by
  obtain ⟨f, b, hf, hm, hb, hsame⟩ := exists_findings_of_complete h
  have hdate := (Findings.moment?_eq_some.1 hm).2.2.1
  have hdate' := Findings.date?_eq_of_wallTime hm hb hsame
  have hread := read_eq_iff hf hm
  obtain ⟨parts, hparts, hyear, hmonth, hnames⟩ := names_of_date? hdate hdate'
  refine ⟨f, parts, hf, hparts, hyear, hmonth, ?_⟩
  rcases hnames with hnames | hnames
  · have hdetermines : Determines s m := fun default _ =>
      (hread default).2 (hnames.determined default)
    exact ⟨iff_of_true hdetermines hnames.day, .inl hnames.day⟩
  · have hlate : ¬ Determines s m := by
      intro hdetermines
      have heighth := hdetermines ⟨2000, 1, 8⟩ (by decide)
      rw [hread, hnames.date?_eq_iff _ (by decide)] at heighth
      exact Nat.not_lt.2 heighth (Nat.lt_succ_of_le hnames.le_seventh)
    have hnone : parts.day ≠ some m.date.day := by
      rw [hnames.day]
      exact nofun
    obtain ⟨w, hw, hweekday⟩ := hnames.weekday
    obtain ⟨hlt, t, ht, htw⟩ := exists_token_of_weekday hf hw
    rw [Nat.mod_eq_of_lt hlt] at hweekday
    refine ⟨iff_of_false hlate hnone, .inr ⟨hnames.day, ⟨t, ht, hweekday ▸ htw⟩, hnames.second_le,
      hnames.le_seventh, ?_⟩⟩
    intro default hdefault
    rw [hread, hnames.date?_eq_iff default hdefault]

def midnightOf (date : Date) : Moment := ⟨date, .midnight, none⟩

theorem determines_dayText :
    complete "2024-01-15".toList = .ok (some (midnightOf ⟨2024, 1, 15⟩)) ∧
      Determines "2024-01-15".toList (midnightOf ⟨2024, 1, 15⟩) := by
  have hcomplete : complete "2024-01-15".toList = .ok (some (midnightOf ⟨2024, 1, 15⟩)) := by
    decide +kernel
  obtain ⟨f, parts, -, -, -, -, hiff, hday | ⟨-, -, -, hle, -⟩⟩ :=
    determines_iff_day_named hcomplete
  · exact ⟨hcomplete, hiff.2 hday⟩
  · exact absurd hle (by decide)

theorem not_determines_weekdayText :
    complete "Mon May 2024".toList = .ok (some (midnightOf ⟨2024, 5, 6⟩)) ∧
      read ⟨2000, 1, 15⟩ "Mon May 2024".toList = .ok (some (midnightOf ⟨2024, 5, 20⟩)) ∧
      ¬ Determines "Mon May 2024".toList (midnightOf ⟨2024, 5, 6⟩) := by
  have hlate : read ⟨2000, 1, 15⟩ "Mon May 2024".toList =
      .ok (some (midnightOf ⟨2024, 5, 20⟩)) := by decide +kernel
  refine ⟨by decide +kernel, hlate, fun hdetermines => ?_⟩
  exact absurd (hlate.symm.trans (hdetermines ⟨2000, 1, 15⟩ (by decide))) (by decide)

end FindQuery.DateText
