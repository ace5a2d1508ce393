import FindQuery.Proofs.Journal.FilePath
import FindQuery.Proofs.Journal.Session

/-! Which loggers write to which files. -/

namespace FindQuery.Journal

def WritesTo (j : Journal) (full path : Text) : Prop := ∃ h ∈ (j.logger full).handlers, h.file = path

instance (j : Journal) (full path : Text) : Decidable (j.WritesTo full path) :=
  inferInstanceAs (Decidable (∃ h ∈ _, _))

/-- The logger of the call writes to the file of the call, and if that is not the one for errors, no
other logger does. -/
structure KeepsApart (j : Journal) (c : Call) : Prop where
  own : j.WritesTo c.fullName c.ownFile
  alone : c.ownFile ≠ errorFile → ∀ n, n ≠ c.fullName → ¬ j.WritesTo n c.ownFile

/-- The call is the first of its key. -/
def IsFirst (made : List Call) (c : Call) : Prop := made.find? (·.key = c.key) = some c

section First
variable {made : List Call} {c d : Call}

theorem IsFirst.mem (h : IsFirst made c) : c ∈ made := List.mem_of_find?_eq_some h

theorem exists_isFirst (h : c ∈ made) : ∃ d, IsFirst made d ∧ d.key = c.key := by
  have hsome : (made.find? (·.key = c.key)).isSome := by
    rw [List.find?_isSome]
    exact ⟨c, h, decide_eq_true rfl⟩
  obtain ⟨d, hd⟩ := Option.isSome_iff_exists.1 hsome
  have hkey := List.find?_some hd
  rw [decide_eq_true_eq] at hkey
  refine ⟨d, ?_, hkey⟩
  rw [IsFirst, hkey, hd]

theorem IsFirst.unique (hc : IsFirst made c) (hd : IsFirst made d) (h : c.key = d.key) : c = d := by
  rw [IsFirst, h, hd] at hc
  exact (Option.some.inj hc).symm

theorem IsFirst.append (h : IsFirst made c) (more : List Call) : IsFirst (made ++ more) c := by
  rw [IsFirst, List.find?_append, h, Option.some_or]

end First

section Handlers
variable {j : Journal} {made : List Call} {c d : Call}

theorem Keeps.logger_of_isFirst (h : j.Keeps made) (hopens : ∀ c ∈ made, c.opens j.filing = true)
    (hd : IsFirst made d) : j.logger d.fullName = ⟨if j.debug then Level.debug else 0, j.handlersOf d⟩ := by
  obtain ⟨-, before, rest, hmade, hbefore⟩ := List.find?_eq_some_iff_append.1 hd
  apply h.logger_of_first (hopens d hd.mem) hmade
  intro hkey
  obtain ⟨e, he, heq⟩ := List.mem_map.1 hkey
  simpa [heq] using hbefore e he

theorem Keeps.logger_eq_of_append {j' : Journal} {more : List Call} (h : j.Keeps made)
    (h' : j'.Keeps (made ++ more)) (hfiling : j'.filing = j.filing) (hdebug : j'.debug = j.debug)
    (hopens : ∀ c ∈ made ++ more, c.opens j.filing = true) (hc : c ∈ made) :
    j.logger c.fullName = j'.logger c.fullName := by
  obtain ⟨d, hd, hkey⟩ := exists_isFirst hc
  have hopensMade : ∀ c ∈ made, c.opens j.filing = true :=
    fun c hc => hopens c (List.mem_append_left more hc)
  rw [← Call.fullName_eq_iff.2 hkey, h.logger_of_isFirst hopensMade hd,
    h'.logger_of_isFirst (hfiling ▸ hopens) (hd.append more),
    handlersOf_of_opens (hopensMade d hd.mem),
    handlersOf_of_opens (hfiling ▸ hopensMade d hd.mem), ownHandler, ownHandler, hfiling, hdebug]

theorem Keeps.isFirst_of_handlers (h : j.Keeps made) {n : Text} {handler : Handler}
    (hhandler : handler ∈ (j.logger n).handlers) : ∃ d, IsFirst made d ∧ d.fullName = n := by
  rw [h.handlers] at hhandler
  obtain ⟨d, hd, -⟩ := List.mem_flatMap.1 hhandler
  obtain ⟨hmade, hname⟩ := List.mem_filter.1 (mem_of_mem_untilOpened hd)
  obtain ⟨f, hf, hkey⟩ := exists_isFirst hmade
  exact ⟨f, hf, (Call.fullName_eq_iff.2 hkey).trans (of_decide_eq_true hname)⟩

theorem Keeps.writesTo_iff (h : j.Keeps made) (hopens : ∀ c ∈ made, c.opens j.filing = true)
    (hfiling : j.filing = true) {n path : Text} :
    j.WritesTo n path ↔
      ∃ d, IsFirst made d ∧ d.fullName = n ∧ (d.ownFile = path ∨ errorFile = path) := by
  have hhandlers {d : Call} (hd : IsFirst made d) :
      j.WritesTo d.fullName path ↔ d.ownFile = path ∨ errorFile = path := by
    have hlist : (j.logger d.fullName).handlers = [j.ownHandler d.name d.component, errorHandler] := by
      rw [h.logger_of_isFirst hopens hd]
      show j.handlersOf d = _
      rw [handlersOf_of_opens (hopens d hd.mem), if_pos hfiling]
    rw [WritesTo, hlist, List.exists_mem_cons_iff, List.exists_mem_cons_iff]
    simp only [List.not_mem_nil, false_and, exists_false, or_false]
    rfl
  constructor
  · rintro ⟨handler, hhandler, hfile⟩
    obtain ⟨d, hd, rfl⟩ := h.isFirst_of_handlers hhandler
    exact ⟨d, hd, rfl, (hhandlers hd).1 ⟨handler, hhandler, hfile⟩⟩
  · rintro ⟨d, hd, rfl, hpath⟩
    exact (hhandlers hd).2 hpath

theorem Keeps.keepsApart_iff (h : j.Keeps made) (hopens : ∀ c ∈ made, c.opens j.filing = true)
    (hfiling : j.filing = true) (hc : c ∈ made) :
    j.KeepsApart c ↔
      (c.ownFile ≠ errorFile → ∀ d, IsFirst made d → (d.key = c.key ↔ d.ownFile = c.ownFile)) := by
  obtain ⟨f, hf, hfkey⟩ := exists_isFirst hc
  constructor
  · rintro ⟨hown, halone⟩ hfile d hd
    constructor
    · intro hkey
      obtain ⟨e, he, hename, hpath⟩ := (h.writesTo_iff hopens hfiling).1 hown
      obtain rfl := hd.unique he (hkey.trans (Call.fullName_eq_iff.1 hename).symm)
      exact hpath.resolve_right (Ne.symm hfile)
    · intro hpath
      by_contra hkey
      refine halone hfile d.fullName (mt Call.fullName_eq_iff.1 hkey) ?_
      exact (h.writesTo_iff hopens hfiling).2 ⟨d, hd, rfl, .inl hpath⟩
  · intro hsame
    refine ⟨?_, ?_⟩
    · rw [h.writesTo_iff hopens hfiling]
      refine ⟨f, hf, Call.fullName_eq_iff.2 hfkey, ?_⟩
      by_cases hfile : c.ownFile = errorFile
      · exact .inr hfile.symm
      · exact .inl ((hsame hfile f hf).1 hfkey)
    · intro hfile n hn hwrites
      obtain ⟨d, hd, rfl, hpath⟩ := (h.writesTo_iff hopens hfiling).1 hwrites
      refine hn (Call.fullName_eq_iff.2 ((hsame hfile d hd).2 ?_))
      exact hpath.resolve_right (Ne.symm hfile)

theorem keepsApart_condition_of_isPlain (hplain : ∀ c ∈ made, c.IsPlain) (hc : c ∈ made) :
    (∀ d, IsFirst made d → (d.key = c.key ↔ d.ownFile = c.ownFile)) ↔
      ∀ d ∈ made, d.folder = c.folder → Text.lower d.name = Text.lower c.name → d.name = c.name := by
  constructor
  · intro hsame d hd hfolder hlower
    obtain ⟨f, hf, hfkey⟩ := exists_isFirst hd
    have hfplain := hplain f hf.mem
    obtain ⟨hffolder, hfname⟩ := (Call.key_eq_iff hfplain (hplain d hd)).1 hfkey
    have hpath : f.ownFile = c.ownFile :=
      (Call.ownFile_eq_iff hfplain (hplain c hc)).2 ⟨hffolder.trans hfolder, by rw [hfname, hlower]⟩
    have hkey := (Call.key_eq_iff hfplain (hplain c hc)).1 ((hsame f hf).2 hpath)
    exact hfname.symm.trans hkey.2
  · intro hcase d hd
    have hdplain := hplain d hd.mem
    rw [Call.key_eq_iff hdplain (hplain c hc), Call.ownFile_eq_iff hdplain (hplain c hc)]
    constructor
    · rintro ⟨hfolder, hname⟩
      exact ⟨hfolder, by rw [hname]⟩
    · rintro ⟨hfolder, hlower⟩
      exact ⟨hfolder, hcase d hd.mem hfolder hlower⟩

end Handlers

theorem getLogger_after_start {rootLevel : Level} {debugText : Text} {events before rest : List Event}
    {c : Call} (hopens : ∀ c ∈ calls events, c.opens true = true)
    (hevents : events = before ++ .ask c :: rest) :
    let s := start rootLevel true debugText
    (s.after before).getLogger c.name c.component c.access =
      ((s.after before).ask c, .ok ((s.after events).logger c.fullName)) := by
  intro s
  have hbefore : (s.after before).Keeps (calls before) :=
    keeps_after_start rootLevel true debugText before
  have hsplit : calls events = calls before ++ [c] ++ calls rest := by
    rw [hevents, calls, calls, calls, List.filterMap_append, List.append_assoc]
    rfl
  have hevery : (s.after events).Keeps (calls before ++ [c] ++ calls rest) :=
    hsplit ▸ keeps_after_start rootLevel true debugText events
  obtain ⟨hfiling, hdebug⟩ := settings_after s before
  obtain ⟨hfiling', hdebug'⟩ := settings_after s events
  obtain ⟨haskFiling, haskDebug, -⟩ := settings_ask (s.after before) c
  have hopensAll : ∀ d ∈ calls before ++ [c] ++ calls rest,
      d.opens ((s.after before).ask c).filing = true := by
    rw [← hsplit, haskFiling, hfiling]
    exact hopens
  have hc : c.opens (s.after before).filing = true := by
    rw [hfiling]
    exact hopens c (mem_calls_of_eq hevents)
  have hsame := (hbefore.ask c).logger_eq_of_append hevery
    (by rw [haskFiling, hfiling, hfiling']) (by rw [haskDebug, hdebug, hdebug']) hopensAll
    (List.mem_append_right _ (List.mem_singleton_self c))
  rw [getLogger_of_answer? (hbefore.answer?_of_opens hc), hsame]

def plainLoggers : List Event :=
  [.ask ⟨"Parser".toList, some "filters".toList, .both⟩, .ask ⟨"Main".toList, none, .both⟩,
    .ask ⟨"Parser".toList, some "filters".toList, .both⟩, .ask ⟨"Builder".toList, some "filters".toList, .both⟩,
    .ask ⟨"Parser".toList, none, .both⟩]

end FindQuery.Journal
