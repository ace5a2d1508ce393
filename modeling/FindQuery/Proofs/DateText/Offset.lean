import FindQuery.Proofs.DateText.Complete

/-! Where the offset in the findings comes from. Nothing bounds it by a day. -/

namespace FindQuery.DateText
open Numeral (signed)

/-- A sign is among the tokens, with hours and minutes behind it. -/
def TellsOffset (ts : List Token) (hours minutes : Nat) : Prop :=
  ∃ sign rest taken, sign :: rest <:+ ts ∧ (sign = ['+'] ∨ sign = ['-']) ∧
    Findings.offsetParts? rest = some (hours, minutes, taken)

def IsOffsetOf (ts : List Token) (seconds : Int) : Prop :=
  seconds = 0 ∨ ∃ west hours minutes, TellsOffset ts hours minutes ∧
    seconds = signed west (hours * 3600 + minutes * 60)

theorem IsOffsetOf.cons {ts : List Token} {seconds : Int} (t : Token) (h : IsOffsetOf ts seconds) :
    IsOffsetOf (t :: ts) seconds := by
  rcases h with hzero | ⟨west, hours, minutes, ⟨sign, rest, taken, hsuffix, hsign, hparts⟩, hseconds⟩
  · exact .inl hzero
  · exact .inr ⟨west, hours, minutes,
      ⟨sign, rest, taken, hsuffix.trans (List.suffix_cons t ts), hsign, hparts⟩, hseconds⟩

namespace Findings
open Reading

variable {f : Findings} {t : Token} {rest : List Token}

def TakesOffset (f : Findings) (ts : List Token) (g : Findings) : Prop :=
  g.zoneOffset = f.zoneOffset ∨ ∀ seconds ∈ g.zoneOffset, IsOffsetOf ts seconds

theorem KeepsWords.takesOffset {g : Findings} (h : f.KeepsWords g) (ts : List Token) :
    f.TakesOffset ts g :=
  .inl (congrArg (fun words => words.2.2) h)

theorem gives_zoneNameStep (t : Token) (rest : List Token) :
    Gives (fun r => ∀ seconds ∈ r.1.zoneOffset, seconds = 0) (f.zoneNameStep t rest) := by
  unfold zoneNameStep
  extract_lets signed
  split
  · exact gives_pure nofun
  · refine gives_pure fun seconds hseconds => ?_
    change (if t = ['z'] then some 0 else none) = some seconds at hseconds
    split at hseconds
    · exact (Option.some.inj hseconds).symm
    · exact nomatch hseconds

theorem gives_offsetStep (west : Bool) (rest : List Token) :
    Gives (fun r => ∃ hours minutes taken, offsetParts? rest = some (hours, minutes, taken) ∧
      r.1.zoneOffset = some (signed west (hours * 3600 + minutes * 60))) (f.offsetStep west rest) := by
  intro r hr
  obtain ⟨⟨hours, minutes, taken⟩, hparts, hname⟩ := bind_eq_ok.1 hr
  refine ⟨hours, minutes, taken, ?_, ?_⟩
  · cases hoption : offsetParts? rest with
    | none => exact nomatch hoption ▸ hparts
    | some parts => exact congrArg some (Except.ok.inj (hoption ▸ hparts))
  · dsimp only at hname
    split at hname
    · obtain rfl := Except.ok.inj hname
      rfl
    · obtain rfl := Except.ok.inj hname
      rfl

theorem takesOffset_wordStep [Host] (t : Token) (rest : List Token) :
    Gives (fun r => f.TakesOffset (t :: rest) r.1) (f.wordStep t rest) := by
  unfold wordStep
  split
  · exact gives_pure (.inl rfl)
  · intro r hr
    exact (wordsKeptBy_monthStep _ rest r hr).takesOffset _
  · intro r hr
    exact (wordsKeptBy_halfDayStep _ r hr).takesOffset _
  · split
    · intro r hr
      exact .inr fun seconds hseconds => .inl (gives_zoneNameStep t rest r hr seconds hseconds)
    · split
      · next hsign =>
        intro r hr
        obtain ⟨hours, minutes, taken, hparts, hoffset⟩ := gives_offsetStep _ rest r hr
        refine .inr fun seconds hseconds => ?_
        obtain rfl := Option.some.inj (hoffset.symm.trans hseconds)
        exact .inr ⟨_, hours, minutes, ⟨t, rest, taken, List.suffix_rfl, hsign.2, hparts⟩, rfl⟩
      · split
        · exact gives_pure (.inl rfl)
        · exact gives_error _

theorem takesOffset_step [Host] (before : List Token) (t : Token) (rest : List Token) :
    Gives (fun r => f.TakesOffset (t :: rest) r.1) (f.step before t rest) := by
  unfold step
  split
  · next a _ =>
    intro r hr
    exact (wordsKeptBy_numberStep before t a rest r hr).takesOffset _
  · split
    · exact gives_error _
    · exact takesOffset_wordStep t rest

theorem TakesOffset.after {g h : Findings} (hfg : f.TakesOffset (t :: rest) g)
    (hgh : g.TakesOffset rest h) : f.TakesOffset (t :: rest) h := by
  rcases hgh with hkeep | htakes
  · rcases hfg with hkeep' | htakes'
    · exact .inl (hkeep.trans hkeep')
    · exact .inr fun seconds hseconds => htakes' seconds (hkeep ▸ hseconds)
  · exact .inr fun seconds hseconds => .cons t (htakes seconds hseconds)

theorem takesOffset_scan [Host] (before : List Token) (taken : Nat) (ts : List Token) :
    Gives (f.TakesOffset ts) (f.scan before taken ts) := by
  induction ts generalizing f before taken with
  | nil =>
    cases taken with
    | zero => exact gives_pure (.inl rfl)
    | succ taken => exact gives_pure (.inl rfl)
  | cons t rest ih =>
    cases taken with
    | zero =>
      intro g hg
      obtain ⟨⟨h, taken⟩, hstep, hscan⟩ := bind_eq_ok.1 hg
      exact (takesOffset_step before t rest _ hstep).after (ih _ _ g hscan)
    | succ taken =>
      intro g hg
      rcases ih (t :: before) taken g hg with hkeep | htakes
      · exact .inl hkeep
      · exact .inr fun seconds hseconds => .cons t (htakes seconds hseconds)

end Findings

section Zone
variable {s : Text} {f : Findings} {m : Moment}

theorem isOffsetOf_findings [Host] {seconds : Int} (hf : findings s = .ok f)
    (h : f.zoneOffset = some seconds) : IsOffsetOf (tokens s) seconds := by
  rcases Findings.takesOffset_scan [] 0 (tokens s) f hf with hkeep | htakes
  · exact nomatch h.symm.trans hkeep
  · exact htakes seconds h

theorem Findings.offset_zone [Host] {name : Token} (h : f.zoneName = some name)
    (hhost : name ∈ Host.zoneNames) : f.zone.map Zone.offset = some Host.zoneOffset := by
  rw [Findings.zone, h, Option.any_some, Option.any_some]
  split
  · next huniversal =>
    have hzero : Host.zoneOffset = 0 := Host.universal (List.any_eq_true.2 ⟨name, hhost, huniversal⟩)
    rw [hzero]
    rfl
  · rw [if_pos (List.contains_iff_mem.2 hhost)]
    rfl

theorem Findings.zone_valid_iff [Host] : (∀ z ∈ f.zone, z.Valid) ↔
    f.zoneName.any isKnownZone = true ∨ ∀ seconds ∈ f.zoneOffset, -86400 < seconds ∧ seconds < 86400 := by
  have hvalid {z : Zone} (h : z.Valid) : ∀ z' ∈ some z, z'.Valid := by
    intro z' hz
    obtain rfl := Option.some.inj hz
    exact h
  have hknown : f.zoneName.any isKnownZone = true ↔
      f.zoneName.any isUniversalZone = true ∨ f.zoneName.any Host.zoneNames.contains = true := by
    cases f.zoneName with
    | none => exact iff_of_false nofun (not_or.2 ⟨nofun, nofun⟩)
    | some name => exact Bool.or_eq_true _ _ ▸ Iff.rfl
  rw [hknown]
  unfold Findings.zone
  split
  · next hname => exact iff_of_true (hvalid (by decide)) (.inl (.inl hname))
  · next hname =>
    split
    · next hlocal => exact iff_of_true (hvalid Host.zoneOffset_lt) (.inl (.inr hlocal))
    · next hlocal =>
      rw [or_iff_right (not_or.2 ⟨hname, hlocal⟩)]
      cases f.zoneOffset with
      | none => exact iff_of_true nofun nofun
      | some seconds =>
        simp only [Option.map_some, Option.mem_some, forall_eq']
        split
        · next hzero =>
          subst hzero
          exact iff_of_true (by decide) (by decide)
        · exact Iff.rfl

theorem signed_lt_day_iff (west : Bool) (hours minutes : Nat) :
    (-86400 < signed west (hours * 3600 + minutes * 60) ∧
      signed west (hours * 3600 + minutes * 60) < 86400) ↔ hours * 60 + minutes < 1440 := by
  unfold signed
  split
  all_goals omega

theorem not_hasValidZone_iff [Host] (h : complete s = .ok (some m)) :
    ∃ f, findings s = .ok f ∧ (¬ m.HasValidZone ↔ f.zoneName.any isKnownZone = false ∧
      ∃ west hours minutes, TellsOffset (tokens s) hours minutes ∧ 1440 ≤ hours * 60 + minutes ∧
        f.zoneOffset = some (signed west (hours * 3600 + minutes * 60))) := by
  obtain ⟨f, -, hf, hm, -, -⟩ := exists_findings_of_complete h
  have hzone : f.zone = m.zone := (Findings.moment?_eq_some.1 hm).2.2.2.2
  refine ⟨f, hf, ?_⟩
  rw [Moment.HasValidZone, ← hzone, Findings.zone_valid_iff, not_or, Bool.not_eq_true]
  refine and_congr_right fun _ => ?_
  constructor
  · intro hfar
    obtain ⟨seconds, hseconds, hout⟩ := by simpa only [not_forall] using hfar
    rcases isOffsetOf_findings hf hseconds with rfl | ⟨west, hours, minutes, htells, rfl⟩
    · exact absurd (by decide) hout
    · rw [signed_lt_day_iff] at hout
      exact ⟨west, hours, minutes, htells, Nat.not_lt.1 hout, hseconds⟩
  · rintro ⟨west, hours, minutes, -, hday, hseconds⟩ hnear
    exact Nat.not_lt.2 hday ((signed_lt_day_iff west hours minutes).1 (hnear _ hseconds))

end Zone

end FindQuery.DateText
