import FindQuery.Proofs.DateText.Step

/-! Where the day of the week in the findings comes from. -/

namespace FindQuery.DateText

namespace Findings

variable {f : Findings}

def Keeps (f g : Findings) : Prop := g.weekday = f.weekday

abbrev KeptBy (f : Findings) (step : Step) : Prop := Reading.Gives (fun r => f.Keeps r.1) step

open Reading

theorem WordsKeptBy.keptBy {step : Step} (h : f.WordsKeptBy step) : f.KeptBy step :=
  fun r hr => congrArg Prod.fst (h r hr)

theorem keptBy_zoneNameStep (t : Token) (rest : List Token) : f.KeptBy (f.zoneNameStep t rest) := by
  unfold zoneNameStep
  extract_lets signed
  split
  · exact gives_pure rfl
  · exact gives_pure rfl

theorem keptBy_offsetStep (west : Bool) (rest : List Token) : f.KeptBy (f.offsetStep west rest) := by
  unfold offsetStep
  refine Gives.bind fun (hours, minutes, taken) => ?_
  dsimp only
  split
  · exact gives_pure rfl
  · exact gives_pure rfl

def TakesWeekday (f : Findings) (ts : List Token) (g : Findings) : Prop :=
  f.Keeps g ∨ ∃ t ∈ ts, ∃ w, weekday? t = some w ∧ g.weekday = some w

theorem gives_wordStep [Host] (t : Token) (rest : List Token) :
    Gives (fun r => f.TakesWeekday [t] r.1) (f.wordStep t rest) := by
  unfold wordStep
  split
  · next w hw =>
    exact gives_pure (.inr ⟨t, List.mem_singleton_self t, w, hw, rfl⟩)
  · intro r hr
    exact .inl ((wordsKeptBy_monthStep _ rest).keptBy r hr)
  · intro r hr
    exact .inl ((wordsKeptBy_halfDayStep _).keptBy r hr)
  · split
    · intro r hr
      exact .inl (keptBy_zoneNameStep t rest r hr)
    · split
      · intro r hr
        exact .inl (keptBy_offsetStep (f := { f with signTurned := false }) _ rest r hr)
      · split
        · exact gives_pure (.inl rfl)
        · exact gives_error _

theorem gives_step [Host] (before : List Token) (t : Token) (rest : List Token) :
    Gives (fun r => f.TakesWeekday [t] r.1) (f.step before t rest) := by
  unfold step
  split
  · next a _ =>
    intro r hr
    exact .inl ((wordsKeptBy_numberStep before t a rest).keptBy r hr)
  · split
    · exact gives_error _
    · exact gives_wordStep t rest

theorem TakesWeekday.trans {g h : Findings} {ts us : List Token} (hfg : f.TakesWeekday ts g)
    (hgh : g.TakesWeekday us h) : f.TakesWeekday (ts ++ us) h := by
  rcases hgh with hkeep | ⟨t, ht, hw⟩
  · rcases hfg with hkeep' | ⟨t, ht, w, hw, hg⟩
    · exact .inl (hkeep.trans hkeep')
    · exact .inr ⟨t, List.mem_append_left us ht, w, hw, hkeep.trans hg⟩
  · exact .inr ⟨t, List.mem_append_right ts ht, hw⟩

theorem gives_scan [Host] (before : List Token) (taken : Nat) (ts : List Token) :
    Gives (f.TakesWeekday ts) (f.scan before taken ts) := by
  induction ts generalizing f before taken with
  | nil =>
    cases taken with
    | zero => exact gives_pure (.inl rfl)
    | succ taken => exact gives_pure (.inl rfl)
  | cons t rest ih =>
    cases taken with
    | zero =>
      intro g hg
      obtain ⟨⟨h, taken⟩, hstep, hscan⟩ := bind_eq_ok.1 hg
      exact (gives_step before t rest _ hstep).trans (ih _ _ g hscan)
    | succ taken =>
      intro g hg
      rcases ih (t :: before) taken g hg with hkeep | ⟨u, hu, hw⟩
      · exact .inl hkeep
      · exact .inr ⟨u, List.mem_cons_of_mem t hu, hw⟩

end Findings

theorem placeOf?_lt {word : Text} {groups : List (List String)} {i : Nat}
    (h : placeOf? word groups = some i) : i < groups.length := by
  induction groups generalizing i with
  | nil => exact nomatch h
  | cons group groups ih =>
    rw [placeOf?] at h
    split at h
    · obtain rfl := Option.some.inj h
      exact Nat.zero_lt_succ _
    · obtain ⟨k, hk, rfl⟩ := Option.map_eq_some_iff.1 h
      exact Nat.succ_lt_succ (ih hk)

theorem exists_token_of_weekday [Host] {s : Text} {f : Findings} {w : Nat} (hf : findings s = .ok f)
    (hw : f.weekday = some w) : w < 7 ∧ ∃ t ∈ tokens s, weekday? t = some w := by
  rcases Findings.gives_scan [] 0 (tokens s) f hf with hkeep | ⟨t, ht, v, hv, hfv⟩
  · exact nomatch hw.symm.trans hkeep
  · obtain rfl := Option.some.inj (hw.symm.trans hfv)
    exact ⟨placeOf?_lt hv, t, ht, hv⟩

end FindQuery.DateText
