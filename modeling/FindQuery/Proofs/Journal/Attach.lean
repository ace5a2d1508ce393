import FindQuery.Journal.Attach
import FindQuery.Journal.Write
import FindQuery.Proofs.Entries
import FindQuery.Proofs.Outcome

/-! What one call for a logger does to a journal. -/

namespace FindQuery.Journal

structure Call where
  name : Text
  component : Option Text := none
  access : Access := .both
deriving DecidableEq

namespace Call

def key (c : Call) : Text := Journal.key c.name c.component

def fullName (c : Call) : Text := Journal.fullName c.name c.component

def ownFile (c : Call) : Text := Journal.ownFile c.name c.component

def refusal? (c : Call) : Option AttachError := Journal.refusal? c.name c.component c.access

/-- The files of the logger can be opened, or there are to be none. -/
def opens (filing : Bool) (c : Call) : Bool := !filing || c.refusal?.isNone

theorem fullName_eq (c : Call) : c.fullName = rootName ++ '.' :: c.key := rfl

theorem fullName_eq_iff {c d : Call} : c.fullName = d.fullName ↔ c.key = d.key := by
  rw [fullName_eq, fullName_eq, List.append_cancel_left_eq, List.cons.injEq, and_iff_right rfl]

end Call

def ask (j : Journal) (c : Call) : Journal := (j.attach c.name c.component c.access).1

def answer? (j : Journal) (c : Call) : Option Text := (j.ask c).cache.get? c.key

def handlersOf (j : Journal) (c : Call) : List Handler :=
  if j.filing then j.handlersFor c.name c.component c.access else []

section Handlers
variable {j : Journal} {c : Call}

theorem Call.opens_true_iff : c.opens true = true ↔
    isNamable c.name c.component = true ∧ c.access = .both := by
  unfold opens refusal? Journal.refusal?
  split
  · next hnamable =>
    cases haccess : c.access with
    | both => simp [hnamable]
    | own cause => simp
    | none cause => simp
  · next hnamable => simp [hnamable]

theorem handlersOf_of_opens (hopens : c.opens j.filing = true) : j.handlersOf c =
    if j.filing then [j.ownHandler c.name c.component, errorHandler] else [] := by
  unfold handlersOf handlersFor
  split
  · next hfiling =>
    rw [hfiling] at hopens
    obtain ⟨hnamable, haccess⟩ := Call.opens_true_iff.1 hopens
    rw [if_pos hnamable, haccess]
  · rfl

end Handlers

section Step
variable {j : Journal} {c : Call}

theorem attach_of_cached (h : (j.cache.get? c.key).isSome) :
    j.attach c.name c.component c.access = (j, none) := if_pos h

theorem ask_of_cached (h : (j.cache.get? c.key).isSome) : j.ask c = j := by
  rw [ask, attach_of_cached h]

theorem logger_put (loggers : Entries Logger) (full n : Text) (l : Logger) :
    ({ j with loggers := loggers.put full l } : Journal).logger n =
      if n = full then l else ({ j with loggers := loggers } : Journal).logger n := by
  unfold logger
  show (Entries.get? (loggers.put full l) n).getD {} = _
  rw [Entries.get?_put]
  split
  · rfl
  · rfl

theorem logger_register (full n : Text) : (j.register full).logger n =
    if n = full then ⟨if j.debug then Level.debug else (j.logger n).level, (j.logger n).handlers⟩
    else j.logger n := by
  rw [register, logger_put]
  split
  · next h => rw [h]
  · rfl

theorem logger_addHandlers (full n : Text) (added : List Handler) :
    (j.addHandlers full added).logger n =
      if n = full then ⟨(j.logger n).level, (j.logger n).handlers ++ added⟩ else j.logger n := by
  unfold addHandlers
  show ({ j with loggers := j.loggers.put full _ } : Journal).logger n = _
  rw [logger_put]
  split
  · next h => rw [h]
  · rfl

theorem equip_eq (j : Journal) (c : Call) : j.equip c.name c.component c.access =
    if j.filing then (j.register c.fullName).addHandlers c.fullName (j.handlersOf c)
    else j.register c.fullName := by
  unfold equip handlersOf
  show (if j.filing = true then _ else _) = _
  split
  · rfl
  · rfl

theorem settings_equip (j : Journal) (c : Call) :
    let equipped := j.equip c.name c.component c.access
    equipped.filing = j.filing ∧ equipped.debug = j.debug ∧ equipped.rootLevel = j.rootLevel ∧
      equipped.cache = j.cache := by
  rw [equip_eq]
  split
  · exact ⟨rfl, rfl, rfl, rfl⟩
  · exact ⟨rfl, rfl, rfl, rfl⟩

theorem logger_equip (n : Text) : (j.equip c.name c.component c.access).logger n =
    if n = c.fullName then
      ⟨if j.debug then Level.debug else (j.logger n).level, (j.logger n).handlers ++ j.handlersOf c⟩
    else j.logger n := by
  rw [equip_eq]
  split
  · rw [logger_addHandlers, logger_register]
    split
    · rfl
    · rfl
  · next hfiling =>
    rw [logger_register, handlersOf, if_neg hfiling, List.append_nil]

theorem attach_of_new (h : j.cache.get? c.key = none) :
    j.attach c.name c.component c.access =
      let equipped := j.equip c.name c.component c.access
      if c.opens j.filing then ({ equipped with cache := j.cache.put c.key c.fullName }, none)
      else (equipped, c.refusal?) := by
  have hnew : ¬ (j.cache.get? (key c.name c.component)).isSome := by
    rw [← Call.key, h]
    exact Bool.false_ne_true
  obtain ⟨hfiling, -, -, hcache⟩ := settings_equip j c
  unfold attach
  simp only [if_neg hnew, hfiling, hcache, Call.opens]
  cases j.filing with
  | false => rfl
  | true =>
    rw [if_pos rfl, Call.refusal?]
    cases refusal? c.name c.component c.access with
    | none => rfl
    | some e => rfl

theorem ask_of_new (h : j.cache.get? c.key = none) :
    j.ask c =
      let equipped := j.equip c.name c.component c.access
      if c.opens j.filing then { equipped with cache := j.cache.put c.key c.fullName }
      else equipped := by
  rw [ask, attach_of_new h]
  split
  · rfl
  · rfl

theorem cache_ask (h : j.cache.get? c.key = none) :
    (j.ask c).cache = if c.opens j.filing then j.cache.put c.key c.fullName else j.cache := by
  rw [ask_of_new h]
  split
  · rfl
  · exact (settings_equip j c).2.2.2

theorem logger_ask (h : j.cache.get? c.key = none) (n : Text) :
    (j.ask c).logger n =
      if n = c.fullName then
        ⟨if j.debug then Level.debug else (j.logger n).level, (j.logger n).handlers ++ j.handlersOf c⟩
      else j.logger n := by
  rw [ask_of_new h, ← logger_equip]
  split
  · rfl
  · rfl

theorem settings_ask (j : Journal) (c : Call) :
    (j.ask c).filing = j.filing ∧ (j.ask c).debug = j.debug ∧ (j.ask c).rootLevel = j.rootLevel := by
  cases h : j.cache.get? c.key with
  | some full =>
    rw [ask_of_cached (by rw [h]; rfl)]
    exact ⟨rfl, rfl, rfl⟩
  | none =>
    obtain ⟨hfiling, hdebug, hroot, -⟩ := settings_equip j c
    rw [ask_of_new h]
    split
    · exact ⟨hfiling, hdebug, hroot⟩
    · exact ⟨hfiling, hdebug, hroot⟩

theorem files_ask (j : Journal) (c : Call) : (j.ask c).files = j.files ∨ ∃ paths streams,
    (j.ask c).files = { (j.files.openPaths paths).1 with streams := streams } := by
  cases h : j.cache.get? c.key with
  | some full => exact .inl (congrArg Journal.files (ask_of_cached (by rw [h]; rfl)))
  | none =>
    have hequip : (j.ask c).files = (j.equip c.name c.component c.access).files := by
      rw [ask_of_new h]
      split
      · rfl
      · rfl
    rw [hequip, equip_eq]
    split
    · exact .inr ⟨_, _, rfl⟩
    · exact .inl rfl

theorem log_eq_ok {stamp : Stamp} {name : Text} {level : Level} {message : Text}
    {context : Document} {j' : Journal} {made : List Record}
    (h : j.log stamp name level message context = .ok (j', made)) :
    ∃ files, j' = { j with files := files } := by
  unfold log at h
  split at h
  · exact nomatch h
  · unfold record at h
    split at h
    · obtain ⟨rfl, -⟩ := Prod.mk.inj (Except.ok.inj h)
      exact ⟨_, rfl⟩
    · obtain ⟨rfl, -⟩ := Prod.mk.inj (Except.ok.inj h)
      exact ⟨_, rfl⟩

end Step

end FindQuery.Journal
