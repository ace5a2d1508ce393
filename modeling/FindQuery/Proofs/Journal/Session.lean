import FindQuery.Proofs.Journal.Attach

/-! What a journal knows of its loggers after calls for loggers, with messages in between. -/

namespace FindQuery.Journal

inductive Event
  | ask (c : Call)
  | log (stamp : Stamp) (name : Text) (level : Level) (message : Text) (context : Document)

def Event.call? : Event → Option Call
  | .ask c => some c
  | .log .. => none

def calls (events : List Event) : List Call := events.filterMap Event.call?

def next (j : Journal) : Event → Journal
  | .ask c => j.ask c
  | .log stamp name level message context =>
    match j.log stamp name level message context with
    | .ok (j, _) => j
    | .error _ => j

def after (j : Journal) (events : List Event) : Journal := events.foldl next j

def untilOpened (filing : Bool) : List Call → List Call
  | [] => []
  | c :: rest => if c.opens filing then [c] else c :: untilOpened filing rest

/-- The calls that brought handlers to a logger. -/
def bringers (filing : Bool) (made : List Call) (n : Text) : List Call :=
  untilOpened filing (made.filter (·.fullName = n))

/-- The journal keeps what calls brought. A call whose files cannot be opened brings no entry in the
cache, but its logger is there with its level and with the handlers for what could be opened. -/
structure Keeps (j : Journal) (made : List Call) : Prop where
  cached (k : Text) : j.cache.get? k =
    ((made.filter (·.opens j.filing)).find? (·.key = k)).map Call.fullName
  level (n : Text) : (j.logger n).level =
    if j.debug = true ∧ n ∈ made.map Call.fullName then Level.debug else 0
  handlers (n : Text) : (j.logger n).handlers = (bringers j.filing made n).flatMap j.handlersOf

theorem keeps_start (rootLevel : Level) (filing : Bool) (debugText : Text) :
    (start rootLevel filing debugText).Keeps [] := by
  have hlogger (n : Text) : (start rootLevel filing debugText).logger n = {} := by
    unfold logger start
    simp only [Entries.get?]
    split
    · rfl
    · split
      · rfl
      · rfl
  constructor
  · intro k
    rfl
  · intro n
    rw [hlogger n, if_neg fun h => List.not_mem_nil h.2]
  · intro n
    rw [hlogger n]
    rfl

section Run
variable {j : Journal} {made : List Call} {c : Call}

theorem Keeps.of_files (h : j.Keeps made) (files : Files) :
    ({ j with files := files } : Journal).Keeps made := ⟨h.cached, h.level, h.handlers⟩

theorem handlersOf_ask (j : Journal) (c : Call) : (j.ask c).handlersOf = j.handlersOf := by
  obtain ⟨hfiling, hdebug, -⟩ := settings_ask j c
  funext d
  unfold handlersOf handlersFor ownHandler
  rw [hfiling, hdebug]

section Opened
variable {filing : Bool} {p : Call → Bool}

theorem find?_opened_concat (made : List Call) (c : Call) :
    ((made ++ [c]).filter (·.opens filing)).find? p =
      ((made.filter (·.opens filing)).find? p).or (([c].filter (·.opens filing)).find? p) := by
  rw [List.filter_append, List.find?_append]

theorem find?_opened_of_not (h : ¬ p c = true) :
    ((made ++ [c]).filter (·.opens filing)).find? p = (made.filter (·.opens filing)).find? p := by
  have hnone : ([c].filter (·.opens filing)).find? p = none := by
    rw [List.find?_eq_none]
    intro d hd
    rw [List.mem_singleton.1 (List.mem_filter.1 hd).1]
    exact h
  rw [find?_opened_concat, hnone, Option.or_none]

theorem find?_opened_of_some {d : Call} (h : (made.filter (·.opens filing)).find? p = some d) :
    ((made ++ [c]).filter (·.opens filing)).find? p = some d := by
  rw [find?_opened_concat, h, Option.some_or]

theorem find?_opened_of_none (h : (made.filter (·.opens filing)).find? p = none)
    (hc : p c = true) : ((made ++ [c]).filter (·.opens filing)).find? p =
      if c.opens filing then some c else none := by
  rw [find?_opened_concat, h, Option.none_or, List.filter_cons]
  split
  · exact List.find?_cons_of_pos hc
  · rfl

theorem mem_of_mem_untilOpened {cs : List Call} (h : c ∈ untilOpened filing cs) : c ∈ cs := by
  induction cs with
  | nil => exact h
  | cons e rest ih =>
    rw [untilOpened] at h
    split at h
    · rw [List.mem_singleton.1 h]
      exact List.mem_cons_self
    · rcases List.mem_cons.1 h with rfl | h
      · exact List.mem_cons_self
      · exact List.mem_cons_of_mem e (ih h)

theorem untilOpened_concat_of_mem {cs : List Call} {d : Call} (hd : d ∈ cs)
    (hopens : d.opens filing = true) : untilOpened filing (cs ++ [c]) = untilOpened filing cs := by
  induction cs with
  | nil => exact absurd hd List.not_mem_nil
  | cons e rest ih =>
    rw [List.cons_append, untilOpened, untilOpened]
    split
    · rfl
    · next hclosed =>
      rcases List.mem_cons.1 hd with rfl | hd
      · exact absurd hopens hclosed
      · rw [ih hd]

theorem untilOpened_append_of_not {cs : List Call} (h : ∀ d ∈ cs, ¬ d.opens filing = true)
    (more : List Call) : untilOpened filing (cs ++ more) = cs ++ untilOpened filing more := by
  induction cs with
  | nil => rfl
  | cons e rest ih =>
    obtain ⟨he, hrest⟩ := List.forall_mem_cons.1 h
    rw [List.cons_append, untilOpened, if_neg he, ih hrest, List.cons_append]

theorem untilOpened_of_not {cs : List Call} (h : ∀ d ∈ cs, ¬ d.opens filing = true) :
    untilOpened filing cs = cs := by
  have happend := untilOpened_append_of_not h []
  rwa [untilOpened, List.append_nil] at happend

theorem exists_untilOpened_eq {cs : List Call} {d : Call} (hd : d ∈ cs)
    (hopens : d.opens filing = true) : ∃ before last, untilOpened filing cs = before ++ [last] ∧
      (∀ e ∈ before, ¬ e.opens filing = true) ∧ last.opens filing = true := by
  induction cs with
  | nil => exact absurd hd List.not_mem_nil
  | cons e rest ih =>
    rw [untilOpened]
    split
    · next he => exact ⟨[], e, rfl, nofun, he⟩
    · next he =>
      have hrest : d ∈ rest := by
        rcases List.mem_cons.1 hd with rfl | hd
        · exact absurd hopens he
        · exact hd
      obtain ⟨before, last, heq, hbefore, hlast⟩ := ih hrest
      exact ⟨e :: before, last, congrArg (e :: ·) heq, List.forall_mem_cons.2 ⟨he, hbefore⟩, hlast⟩

theorem mem_untilOpened_of_closed {cs : List Call} (h : ∀ e ∈ cs, ¬ e.opens filing = true) {d : Call}
    (hd : d ∈ cs) : d ∈ untilOpened filing cs := (untilOpened_of_not h).symm ▸ hd

theorem untilOpened_singleton (c : Call) : untilOpened filing [c] = [c] := by
  rw [untilOpened]
  split
  · rfl
  · rfl

theorem bringers_concat_of_ne {n : Text} (h : c.fullName ≠ n) :
    bringers filing (made ++ [c]) n = bringers filing made n := by
  have hnone : [c].filter (·.fullName = n) = [] := List.filter_cons_of_neg (mt of_decide_eq_true h)
  rw [bringers, List.filter_append, hnone, List.append_nil]
  rfl

theorem filter_fullName_concat (made : List Call) (c : Call) :
    (made ++ [c]).filter (·.fullName = c.fullName) =
      made.filter (·.fullName = c.fullName) ++ [c] := by
  have hself : [c].filter (·.fullName = c.fullName) = [c] :=
    List.filter_cons_of_pos (decide_eq_true rfl)
  rw [List.filter_append, hself]

end Opened

theorem Keeps.ask_of_cached (h : j.Keeps made) (hcached : (j.cache.get? c.key).isSome) :
    (j.ask c).Keeps (made ++ [c]) := by
  have hfound : ∃ d, (made.filter (·.opens j.filing)).find? (·.key = c.key) = some d := by
    rw [h.cached, Option.isSome_map] at hcached
    exact Option.isSome_iff_exists.1 hcached
  obtain ⟨d, hd⟩ := hfound
  have hmem : c.fullName ∈ made.map Call.fullName := by
    have hkey := List.find?_some hd
    have hmade := (List.mem_filter.1 (List.mem_of_find?_eq_some hd)).1
    exact List.mem_map.2 ⟨d, hmade, Call.fullName_eq_iff.2 (of_decide_eq_true hkey)⟩
  rw [Journal.ask_of_cached hcached]
  constructor
  · intro k
    rw [h.cached]
    by_cases hk : c.key = k
    · rw [← hk, find?_opened_of_some hd, hd]
    · rw [find?_opened_of_not (mt of_decide_eq_true hk)]
  · intro n
    rw [h.level]
    by_cases hn : n = c.fullName
    · simp [hn, hmem]
    · simp [hn]
  · intro n
    rw [h.handlers]
    by_cases hn : c.fullName = n
    · obtain ⟨hmade, hopens⟩ := List.mem_filter.1 (List.mem_of_find?_eq_some hd)
      have hkey := List.find?_some hd
      have hname : d.fullName = c.fullName := Call.fullName_eq_iff.2 (of_decide_eq_true hkey)
      have hfiltered : d ∈ made.filter (·.fullName = c.fullName) :=
        List.mem_filter.2 ⟨hmade, decide_eq_true hname⟩
      rw [← hn, bringers, bringers, filter_fullName_concat,
        untilOpened_concat_of_mem hfiltered hopens]
    · rw [bringers_concat_of_ne hn]

theorem Keeps.ask_of_new (h : j.Keeps made) (hnew : j.cache.get? c.key = none) :
    (j.ask c).Keeps (made ++ [c]) := by
  obtain ⟨hfiling, hdebug, -⟩ := settings_ask j c
  have hnone : (made.filter (·.opens j.filing)).find? (·.key = c.key) = none := by
    rw [h.cached] at hnew
    exact Option.map_eq_none_iff.1 hnew
  constructor
  · intro k
    rw [cache_ask hnew, hfiling]
    by_cases hk : c.key = k
    · rw [← hk, find?_opened_of_none hnone (decide_eq_true rfl)]
      split
      · exact Entries.get?_put_self _ _ _
      · exact hnew
    · rw [find?_opened_of_not (mt of_decide_eq_true hk), ← h.cached]
      split
      · exact Entries.get?_put_of_ne _ _ (Ne.symm hk)
      · rfl
  · intro n
    rw [logger_ask hnew, hdebug]
    by_cases hn : n = c.fullName
    · rw [if_pos hn, h.level]
      cases j.debug <;> simp [hn]
    · rw [if_neg hn, h.level]
      simp [hn]
  · intro n
    rw [logger_ask hnew, handlersOf_ask, hfiling]
    by_cases hn : c.fullName = n
    · have hclosed : ∀ d ∈ made.filter (·.fullName = c.fullName), ¬ d.opens j.filing = true := by
        intro d hd hopens
        obtain ⟨hmade, hname⟩ := List.mem_filter.1 hd
        have hkey : d.key = c.key := Call.fullName_eq_iff.1 (of_decide_eq_true hname)
        exact List.find?_eq_none.1 hnone d (List.mem_filter.2 ⟨hmade, hopens⟩) (decide_eq_true hkey)
      rw [if_pos hn.symm, h.handlers, ← hn, bringers, bringers, filter_fullName_concat,
        untilOpened_append_of_not hclosed, untilOpened_of_not hclosed, untilOpened_singleton,
        List.flatMap_append, List.flatMap_singleton]
    · rw [bringers_concat_of_ne hn, if_neg (Ne.symm hn), h.handlers]

theorem Keeps.ask (h : j.Keeps made) (c : Call) : (j.ask c).Keeps (made ++ [c]) := by
  cases hcached : j.cache.get? c.key with
  | some full => exact h.ask_of_cached (by rw [hcached]; rfl)
  | none => exact h.ask_of_new hcached

theorem exists_next_log (j : Journal) (stamp : Stamp) (name : Text) (level : Level)
    (message : Text) (context : Document) :
    ∃ files, j.next (.log stamp name level message context) = { j with files := files } := by
  simp only [Journal.next]
  split
  · next hlog => exact log_eq_ok hlog
  · exact ⟨j.files, rfl⟩

theorem Keeps.next (h : j.Keeps made) (event : Event) :
    (j.next event).Keeps (made ++ calls [event]) := by
  cases event with
  | ask c => exact h.ask c
  | log stamp name level message context =>
    obtain ⟨files, hnext⟩ := exists_next_log j stamp name level message context
    rw [calls, List.filterMap_cons_none rfl, List.filterMap_nil, List.append_nil, hnext]
    exact h.of_files files

theorem Keeps.after (h : j.Keeps made) (events : List Event) :
    (j.after events).Keeps (made ++ calls events) := by
  induction events generalizing j made with
  | nil =>
    rw [calls, List.filterMap_nil, List.append_nil]
    exact h
  | cons event rest ih =>
    have hcalls : made ++ calls (event :: rest) = made ++ calls [event] ++ calls rest := by
      rw [List.append_assoc, calls, calls, calls, ← List.filterMap_append, List.singleton_append]
    rw [hcalls]
    exact ih (h.next event)

theorem keeps_after_start (rootLevel : Level) (filing : Bool) (debugText : Text)
    (events : List Event) :
    ((start rootLevel filing debugText).after events).Keeps (calls events) :=
  (keeps_start rootLevel filing debugText).after events

theorem settings_next (j : Journal) (event : Event) :
    (j.next event).filing = j.filing ∧ (j.next event).debug = j.debug := by
  cases event with
  | ask c => exact ⟨(settings_ask j c).1, (settings_ask j c).2.1⟩
  | log stamp name level message context =>
    obtain ⟨files, hnext⟩ := exists_next_log j stamp name level message context
    rw [hnext]
    exact ⟨rfl, rfl⟩

theorem settings_after (j : Journal) (events : List Event) :
    (j.after events).filing = j.filing ∧ (j.after events).debug = j.debug := by
  induction events generalizing j with
  | nil => exact ⟨rfl, rfl⟩
  | cons event rest ih =>
    obtain ⟨hfiling, hdebug⟩ := settings_next j event
    obtain ⟨hfiling', hdebug'⟩ := ih (j.next event)
    exact ⟨hfiling'.trans hfiling, hdebug'.trans hdebug⟩

end Run

section Opening
variable {j : Journal} {made : List Call} {c : Call}

theorem Keeps.cached_of_mem (h : j.Keeps made) (hc : c ∈ made) (hopens : c.opens j.filing = true) :
    j.cache.get? c.key = some c.fullName := by
  have hfound : ((made.filter (·.opens j.filing)).find? (·.key = c.key)).isSome := by
    rw [List.find?_isSome]
    exact ⟨c, List.mem_filter.2 ⟨hc, hopens⟩, decide_eq_true rfl⟩
  obtain ⟨d, hd⟩ := Option.isSome_iff_exists.1 hfound
  have hkey := List.find?_some hd
  rw [h.cached, hd, Option.map_some, Call.fullName_eq_iff.2 (of_decide_eq_true hkey)]

theorem Keeps.cached_of_opens (h : j.Keeps made) (hopens : ∀ c ∈ made, c.opens j.filing = true)
    (k : Text) : j.cache.get? k =
      if k ∈ made.map Call.key then some (rootName ++ '.' :: k) else none := by
  split
  · next hk =>
    obtain ⟨c, hc, rfl⟩ := List.mem_map.1 hk
    exact h.cached_of_mem hc (hopens c hc)
  · next hk =>
    rw [h.cached, Option.map_eq_none_iff, List.find?_eq_none]
    intro d hd hkey
    exact hk (List.mem_map.2 ⟨d, (List.mem_filter.1 hd).1, of_decide_eq_true hkey⟩)

theorem Keeps.logger_of_first (h : j.Keeps made) (hopens : c.opens j.filing = true)
    {before rest : List Call} (hmade : made = before ++ c :: rest)
    (hfirst : c.key ∉ before.map Call.key) :
    j.logger c.fullName = ⟨if j.debug then Level.debug else 0, j.handlersOf c⟩ := by
  have hbefore : before.filter (·.fullName = c.fullName) = [] := by
    rw [List.filter_eq_nil_iff]
    intro d hd hname
    have hkey : d.key = c.key := Call.fullName_eq_iff.1 (of_decide_eq_true hname)
    exact hfirst (List.mem_map.2 ⟨d, hd, hkey⟩)
  have hbringers : bringers j.filing made c.fullName = [c] := by
    have hself : (c :: rest).filter (·.fullName = c.fullName) =
        c :: rest.filter (·.fullName = c.fullName) := List.filter_cons_of_pos (decide_eq_true rfl)
    rw [bringers, hmade, List.filter_append, hbefore, List.nil_append, hself, untilOpened,
      if_pos hopens]
  have hmem : c.fullName ∈ made.map Call.fullName := by
    rw [hmade]
    exact List.mem_map.2 ⟨c, List.mem_append_right before List.mem_cons_self, rfl⟩
  have hlevel : (j.logger c.fullName).level = if j.debug then Level.debug else 0 := by
    rw [h.level]
    simp only [hmem, and_true]
  have hhandlers : (j.logger c.fullName).handlers = j.handlersOf c := by
    rw [h.handlers, hbringers, List.flatMap_singleton]
  rw [← hlevel, ← hhandlers]

theorem attach_of_answer? {full : Text} (h : j.answer? c = some full) :
    j.attach c.name c.component c.access = (j.ask c, none) := by
  cases hcached : j.cache.get? c.key with
  | some known =>
    have hsome : (j.cache.get? c.key).isSome := by
      rw [hcached]
      rfl
    rw [attach_of_cached hsome, ask_of_cached hsome]
  | none =>
    rw [answer?, cache_ask hcached] at h
    rw [attach_of_new hcached, ask_of_new hcached]
    by_cases hopens : c.opens j.filing = true
    · simp only [if_pos hopens]
    · rw [if_neg hopens, hcached] at h
      exact nomatch h

theorem getLogger_of_answer? {full : Text} (h : j.answer? c = some full) :
    j.getLogger c.name c.component c.access = (j.ask c, .ok ((j.ask c).logger c.fullName)) := by
  rw [getLogger, attach_of_answer? h]
  rfl

theorem Keeps.answer?_of_opens (h : j.Keeps made) (hopens : c.opens j.filing = true) :
    j.answer? c = some c.fullName := by
  rw [← (settings_ask j c).1] at hopens
  exact (h.ask c).cached_of_mem (List.mem_append_right made (List.mem_singleton_self c)) hopens

theorem mem_calls_of_eq {events before rest : List Event} (h : events = before ++ .ask c :: rest) :
    c ∈ calls events := by
  rw [h, calls, List.filterMap_append]
  exact List.mem_append_right _ List.mem_cons_self

end Opening

/-- What a journal has become when some calls for loggers, and messages, have gone through it. -/
structure Serves (s : Journal) (events : List Event) : Prop where
  cached (k : Text) : (s.after events).cache.get? k =
    if k ∈ (calls events).map Call.key then some (rootName ++ '.' :: k) else none
  logger (before : List Call) (c : Call) (rest : List Call) :
    calls events = before ++ c :: rest → c.key ∉ before.map Call.key →
      (s.after events).logger c.fullName =
        { level := if s.debug then Level.debug else 0
          handlers :=
            if s.filing then
              [⟨c.ownFile, 0, if s.debug then .located else .brief⟩,
                ⟨errorFile, Level.error, .report⟩]
            else [] }
  answered (before : List Event) (c : Call) (rest : List Event) :
    events = before ++ .ask c :: rest →
      (s.after before).answer? c = some c.fullName ∧
        (s.after before).getLogger c.name c.component c.access =
          ((s.after before).ask c, .ok (((s.after before).ask c).logger c.fullName))
  shared (before : List Event) (c : Call) (rest before' : List Event) (d : Call)
    (rest' : List Event) :
    events = before ++ .ask c :: rest → events = before' ++ .ask d :: rest' →
      ((s.after before).answer? c = (s.after before').answer? d ↔ c.key = d.key)
  unchanged (c : Call) : ((s.after events).cache.get? c.key).isSome →
    (s.after events).getLogger c.name c.component c.access =
      (s.after events, .ok ((s.after events).logger c.fullName))

theorem serves_of_opens (rootLevel : Level) (filing : Bool) (debugText : Text)
    (events : List Event) (hopens : ∀ c ∈ calls events, c.opens filing = true) :
    (start rootLevel filing debugText).Serves events := by
  have hkeeps := keeps_after_start rootLevel filing debugText
  have hsettings := settings_after (start rootLevel filing debugText)
  have hopens' : ∀ c ∈ calls events,
      c.opens ((start rootLevel filing debugText).after events).filing = true := by
    rw [(hsettings events).1]
    exact hopens
  have hanswer (before : List Event) (c : Call) (rest : List Event)
      (h : events = before ++ .ask c :: rest) :
      ((start rootLevel filing debugText).after before).answer? c = some c.fullName := by
    apply (hkeeps before).answer?_of_opens
    rw [(hsettings before).1]
    exact hopens c (mem_calls_of_eq h)
  refine ⟨(hkeeps events).cached_of_opens hopens', ?_, ?_, ?_, ?_⟩
  · intro before c rest hcalls hfirst
    have hc : c ∈ calls events := hcalls ▸ List.mem_append_right before List.mem_cons_self
    rw [(hkeeps events).logger_of_first (hopens' c hc) hcalls hfirst,
      handlersOf_of_opens (hopens' c hc), ownHandler, (hsettings events).1, (hsettings events).2]
    rfl
  · intro before c rest h
    have hc := hanswer before c rest h
    exact ⟨hc, getLogger_of_answer? hc⟩
  · intro before c rest before' d rest' h h'
    rw [hanswer before c rest h, hanswer before' d rest' h', Option.some.injEq,
      Call.fullName_eq_iff]
  · intro c hcached
    have hsame := ask_of_cached hcached
    obtain ⟨full, hfull⟩ := Option.isSome_iff_exists.1 hcached
    have hanswered : ((start rootLevel filing debugText).after events).answer? c = some full := by
      rw [answer?, hsame, hfull]
    rw [getLogger_of_answer? hanswered, hsame]

def sharedKey : List Event :=
  [.ask ⟨"Parser".toList, some "filters".toList, .both⟩,
    .log ⟨[], []⟩ "doc-criteria.filters.Parser".toList Level.error "late".toList [],
    .ask ⟨"filters.Parser".toList, none, .both⟩, .ask ⟨"Parser".toList, none, .both⟩]

theorem serves_sharedKey :
    (∀ c ∈ calls sharedKey, c.opens true = true) ∧ (start 30 true []).Serves sharedKey ∧
      ((start 30 true []).after sharedKey).logger "doc-criteria.filters.Parser".toList =
        ⟨0, [⟨"filters/parser.log".toList, 0, .brief⟩, ⟨errorFile, Level.error, .report⟩]⟩ := by
  have hopens : ∀ c ∈ calls sharedKey, c.opens true = true := by decide
  have hserves := serves_of_opens 30 true [] sharedKey hopens
  exact ⟨hopens, hserves, hserves.logger [] ⟨"Parser".toList, some "filters".toList, .both⟩ _ rfl (by decide)⟩

end FindQuery.Journal
