import FindQuery.Proofs.Journal.Writing

/-! How often the file that all loggers share for errors receives a record. -/

namespace FindQuery.Journal

section Above

theorem mem_pointsBackwards {s : Text} {i : Nat} :
    i ∈ pointsBackwards s ↔ s[i]? = some '.' := by
  unfold pointsBackwards
  rw [List.mem_reverse, List.mem_filterMap]
  constructor
  · rintro ⟨⟨c, k⟩, hmem, hk⟩
    have hget : s[k]? = some c := List.mem_zipIdx_iff_getElem?.1 hmem
    by_cases hc : c = '.'
    · obtain rfl := Option.some.inj ((if_pos hc).symm.trans hk)
      rw [hget, hc]
    · exact nomatch (if_neg hc).symm.trans hk
  · intro h
    exact ⟨('.', i), List.mem_zipIdx_iff_getElem?.2 h, if_pos rfl⟩

theorem mem_of_mem_cuts {bound i : Nat} {points : List Nat} (h : i ∈ cuts bound points) :
    i ∈ points := by
  induction points generalizing bound with
  | nil => exact nomatch h
  | cons k rest ih =>
    rw [cuts] at h
    split at h
    · exact List.mem_cons_of_mem k (ih h)
    · split at h
      · exact nomatch h
      · rcases List.mem_cons.1 h with rfl | h
        · exact List.mem_cons_self
        · exact List.mem_cons_of_mem k (ih h)

theorem eq_append_of_parent? {j : Journal} {name above : Text} (h : j.parent? name = some above) :
    ∃ rest, name = above ++ '.' :: rest := by
  obtain ⟨i, hi, rfl⟩ := List.mem_map.1 (List.mem_of_find?_eq_some h)
  have hpoint := mem_pointsBackwards.1 (mem_of_mem_cuts hi)
  obtain ⟨hlt, hget⟩ := List.getElem?_eq_some_iff.1 hpoint
  refine ⟨name.drop (i + 1), ?_⟩
  rw [← hget, ← List.drop_eq_getElem_cons hlt, List.take_append_drop]

theorem eq_append_of_mem_ancestors {j : Journal} {bound : Nat} {name above : Text}
    (h : above ∈ j.ancestors bound name) : ∃ rest, name = above ++ '.' :: rest := by
  induction bound generalizing name with
  | zero => exact nomatch h
  | succ bound ih =>
    rw [ancestors] at h
    cases hparent : j.parent? name with
    | none =>
      rw [hparent] at h
      exact nomatch h
    | some parent =>
      rw [hparent] at h
      obtain ⟨rest, hname⟩ := eq_append_of_parent? hparent
      rcases List.mem_cons.1 h with rfl | h
      · exact ⟨rest, hname⟩
      · obtain ⟨rest', hparent'⟩ := ih h
        refine ⟨rest' ++ '.' :: rest, ?_⟩
        rw [hname, hparent', List.append_assoc, List.cons_append]

end Above

namespace Call

def opensOwn (c : Call) : Bool :=
  isNamable c.name c.component && match c.access with
    | .both | .own _ => true
    | .none _ => false

/-- A handler that the call brings writes to the file for errors. -/
def ReachesErrors (c : Call) : Prop :=
  c.opens true = true ∨ c.opensOwn = true ∧ c.ownFile = errorFile

instance (c : Call) : Decidable c.ReachesErrors := inferInstanceAs (Decidable (_ ∨ _))

end Call

section Errors
variable {j : Journal} {made : List Call} {c : Call} {stamp : Stamp} {r : Record} {level : Level}

theorem handlersOf_of_filing (hfiling : j.filing = true) (c : Call) : j.handlersOf c =
    (if c.opensOwn then [j.ownHandler c.name c.component] else []) ++
      if c.opens true then [errorHandler] else [] := by
  have hopens := @Call.opens_true_iff c
  unfold handlersOf handlersFor Call.opensOwn
  rw [if_pos hfiling]
  by_cases hnamable : isNamable c.name c.component = true
  · cases haccess : c.access with
    | both => simp [hnamable, haccess, hopens]
    | own cause => simp [hnamable, haccess, hopens]
    | none cause => simp [hnamable, haccess, hopens]
  · simp [hnamable, hopens]

theorem ownHandler_reaches (hlevel : Level.error ≤ level) (c : Call) :
    (j.ownHandler c.name c.component).Reaches errorFile level ↔ c.ownFile = errorFile := by
  have hzero : (0 : Level) ≤ level := Int.le_trans (by decide) hlevel
  exact and_iff_left hzero

theorem exists_reaches_handlersOf (hfiling : j.filing = true) (hlevel : Level.error ≤ level)
    (c : Call) : (∃ h ∈ j.handlersOf c, h.Reaches errorFile level) ↔ c.ReachesErrors := by
  have hreport : errorHandler.Reaches errorFile level := ⟨rfl, hlevel⟩
  rw [handlersOf_of_filing hfiling, Call.ReachesErrors, ← ownHandler_reaches (j := j) hlevel]
  cases c.opensOwn with
  | true =>
    cases c.opens true with
    | true => simp [hreport]
    | false => simp
  | false =>
    cases c.opens true with
    | true => simp [hreport]
    | false => simp

theorem Keeps.lines_eq_nil_iff (h : j.Keeps made) (hfiling : j.filing = true)
    (hlevel : Level.error ≤ r.level) (names : List Text) :
    lines stamp r errorFile (names.flatMap fun n => (j.logger n).handlers) = [] ↔
      ∀ d ∈ made, d.ReachesErrors → d.fullName ∉ names := by
  rw [Journal.lines_eq_nil_iff]
  constructor
  · intro hnone d hd hreaches hmem
    have hbringer : ∃ e ∈ bringers j.filing made d.fullName, e.ReachesErrors := by
      have hfiltered : d ∈ made.filter (·.fullName = d.fullName) :=
        List.mem_filter.2 ⟨hd, decide_eq_true rfl⟩
      by_cases hopened : ∃ e ∈ made.filter (·.fullName = d.fullName), e.opens j.filing = true
      · obtain ⟨e, he, hopens⟩ := hopened
        obtain ⟨before, last, heq, -, hlast⟩ := exists_untilOpened_eq he hopens
        refine ⟨last, ?_, .inl (hfiling ▸ hlast)⟩
        rw [bringers, heq]
        exact List.mem_append_right _ (List.mem_singleton_self last)
      · refine ⟨d, mem_untilOpened_of_closed ?_ hfiltered, hreaches⟩
        exact fun e he hopens => hopened ⟨e, he, hopens⟩
    obtain ⟨e, he, hereaches⟩ := hbringer
    obtain ⟨handler, hhandler, hreach⟩ := (exists_reaches_handlersOf hfiling hlevel e).2 hereaches
    refine hnone handler ?_ hreach
    rw [List.mem_flatMap]
    refine ⟨d.fullName, hmem, ?_⟩
    rw [h.handlers]
    exact List.mem_flatMap.2 ⟨e, he, hhandler⟩
  · intro hnone handler hhandler hreach
    obtain ⟨n, hn, hhandler⟩ := List.mem_flatMap.1 hhandler
    rw [h.handlers] at hhandler
    obtain ⟨e, he, hmem⟩ := List.mem_flatMap.1 hhandler
    obtain ⟨hmade, hname⟩ := List.mem_filter.1 (mem_of_mem_untilOpened he)
    rw [← of_decide_eq_true hname] at hn
    exact hnone e hmade ((exists_reaches_handlersOf hfiling hlevel e).1 ⟨handler, hmem, hreach⟩) hn

theorem Keeps.exists_handlers_eq (h : j.Keeps made) (hfiling : j.filing = true) (hc : c ∈ made)
    (hopens : c.opens true = true) (hlevel : Level.error ≤ level) :
    ∃ front, (j.logger c.fullName).handlers = front ++ [errorHandler] ∧
      ((∀ handler ∈ front, ¬ handler.Reaches errorFile level) ↔
        ∀ d ∈ bringers true made c.fullName, d.opensOwn = true → d.ownFile ≠ errorFile) := by
  have hfiltered : c ∈ made.filter (·.fullName = c.fullName) :=
    List.mem_filter.2 ⟨hc, decide_eq_true rfl⟩
  obtain ⟨before, last, heq, hbefore, hlast⟩ := exists_untilOpened_eq hfiltered hopens
  have hbringers : bringers true made c.fullName = before ++ [last] := heq
  have hown (d : Call) : (∀ handler ∈ if d.opensOwn then [j.ownHandler d.name d.component] else [],
      ¬ handler.Reaches errorFile level) ↔ (d.opensOwn = true → d.ownFile ≠ errorFile) := by
    rw [Ne, ← ownHandler_reaches (j := j) hlevel]
    cases d.opensOwn with
    | true => simp
    | false => simp
  have hfront : before.flatMap j.handlersOf =
      before.flatMap fun d => if d.opensOwn then [j.ownHandler d.name d.component] else [] := by
    apply List.flatMap_congr
    intro d hd
    rw [handlersOf_of_filing hfiling, if_neg (hbefore d hd), List.append_nil]
  refine ⟨(before ++ [last]).flatMap fun d =>
    if d.opensOwn then [j.ownHandler d.name d.component] else [], ?_, ?_⟩
  · rw [h.handlers, hfiling, hbringers, List.flatMap_append, List.flatMap_append, hfront,
      List.flatMap_singleton, List.flatMap_singleton, handlersOf_of_filing hfiling, if_pos hlast,
      List.append_assoc]
  · rw [hbringers]
    simp only [List.mem_flatMap, forall_exists_index, and_imp]
    constructor
    · intro hnone d hd
      exact (hown d).1 fun handler hmem => hnone handler d hd hmem
    · intro hnone handler d hd hmem
      exact (hown d).2 (hnone d hd) handler hmem

end Errors

theorem append_append_eq_self_iff {front text above : Text} :
    front ++ (text ++ above) = text ↔ front = [] ∧ above = [] := by
  constructor
  · intro h
    have hlength := congrArg List.length h
    rw [List.length_append, List.length_append] at hlength
    exact ⟨List.length_eq_zero_iff.1 (by omega), List.length_eq_zero_iff.1 (by omega)⟩
  · rintro ⟨rfl, rfl⟩
    exact List.append_nil text

def refusedAbove : List Event :=
  [.ask ⟨"a/b".toList, none, .none "No such file or directory".toList⟩,
    .ask ⟨"c".toList, some "a/b".toList, .both⟩]

def nestedLoggers : List Event :=
  [.ask ⟨"Main".toList, none, .both⟩, .ask ⟨"Sub".toList, some "Main".toList, .both⟩]

def fault (name : Text) : Record := ⟨name, Level.error, "fault".toList⟩

theorem log_fault {j : Journal} {name : Text} (h : j.admits name Level.error = true) :
    j.log ⟨[], []⟩ name Level.error "fault".toList [] =
      .ok ((j.record ⟨[], []⟩ name Level.error "fault".toList).1, [fault name]) := by
  unfold log
  rw [if_neg (by rw [h]; decide)]
  unfold record withContext
  rw [if_pos rfl, if_pos h]
  rfl

end FindQuery.Journal
