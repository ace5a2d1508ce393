import FindQuery.Proofs.Journal.Files
import FindQuery.Proofs.Journal.Session
import FindQuery.Proofs.Params.ByteRun

/-! What a record adds to the files, as long as none is rolled over. -/

namespace FindQuery

namespace Files

theorem byteCount_append (s more : Text) : byteCount (s ++ more) = byteCount s + byteCount more := by
  rw [byteCount, List.flatMap_append, List.length_append]
  rfl

theorem length_le_byteCount (s : Text) : s.length ≤ byteCount s := by
  induction s with
  | nil => exact Nat.le_refl _
  | cons c rest ih =>
    have hone := Utf8.length_encode_pos c
    have hcons : byteCount (c :: rest) = (Utf8.encode c).length + byteCount rest := by
      rw [byteCount, List.flatMap_cons, List.length_append]
      rfl
    rw [hcons, List.length_cons]
    omega

structure Gains (f f' : Files) (gain : Text → Text) : Prop where
  sound : f'.Sound
  paths : f'.paths = f.paths
  streams (logger : Text) : f'.streamsOf logger = f.streamsOf logger
  content (path : Text) : f'.content path = f.content path ++ gain path

theorem Gains.refl {f : Files} (h : f.Sound) : f.Gains f fun _ => [] :=
  ⟨h, rfl, fun _ => rfl, fun _ => (List.append_nil _).symm⟩

theorem Gains.trans {f f' f'' : Files} {gain gain' : Text → Text} (h : f.Gains f' gain)
    (h' : f'.Gains f'' gain') : f.Gains f'' fun path => gain path ++ gain' path := by
  refine ⟨h'.sound, h'.paths.trans h.paths, ?_, ?_⟩
  · exact fun logger => (h'.streams logger).trans (h.streams logger)
  · intro path
    rw [h'.content, h.content, List.append_assoc]

end Files

def Handler.Reaches (h : Handler) (path : Text) (level : Level) : Prop :=
  h.file = path ∧ h.threshold ≤ level

instance (h : Handler) (path : Text) (level : Level) : Decidable (h.Reaches path level) :=
  inferInstanceAs (Decidable (_ ∧ _))

namespace Journal
open Files

def content (j : Journal) (path : Text) : Text := j.files.content path

def lines (stamp : Stamp) (r : Record) (path : Text) (hs : List Handler) : Text :=
  (hs.filter (·.Reaches path r.level)).flatMap fun h => line h.layout stamp r

section Lines
variable {stamp : Stamp} {r : Record} {path : Text}

theorem lines_cons (h : Handler) (hs : List Handler) :
    lines stamp r path (h :: hs) =
      (if h.Reaches path r.level then line h.layout stamp r else []) ++ lines stamp r path hs := by
  unfold lines
  rw [List.filter_cons]
  by_cases hreach : h.Reaches path r.level
  · rw [if_pos (decide_eq_true hreach), if_pos hreach, List.flatMap_cons]
  · rw [if_neg (mt of_decide_eq_true hreach), if_neg hreach, List.nil_append]

theorem lines_append (hs hs' : List Handler) :
    lines stamp r path (hs ++ hs') = lines stamp r path hs ++ lines stamp r path hs' := by
  rw [lines, lines, lines, List.filter_append, List.flatMap_append]

theorem line_ne_nil (layout : Layout) (stamp : Stamp) (r : Record) : line layout stamp r ≠ [] := by
  cases layout with
  | brief => exact List.append_ne_nil_of_right_ne_nil _ (List.cons_ne_nil _ _)
  | located => exact List.append_ne_nil_of_right_ne_nil _ (List.cons_ne_nil _ _)
  | report => exact List.append_ne_nil_of_right_ne_nil _ (by decide)

theorem lines_eq_nil_iff {hs : List Handler} :
    lines stamp r path hs = [] ↔ ∀ h ∈ hs, ¬ h.Reaches path r.level := by
  unfold lines
  rw [List.flatMap_eq_nil_iff]
  constructor
  · intro hnil h hh hreach
    exact line_ne_nil _ _ _ (hnil h (List.mem_filter.2 ⟨hh, decide_eq_true hreach⟩))
  · intro hnone h hh
    obtain ⟨hh, hreach⟩ := List.mem_filter.1 hh
    exact absurd (of_decide_eq_true hreach) (hnone h hh)

end Lines

def AreOpen (f : Files) (hs : List Handler) (files : List Nat) : Prop :=
  files.map some = hs.map fun h => f.paths.get? h.file

def Fits (stamp : Stamp) (r : Record) (f : Files) (hs : List Handler) : Prop :=
  ∀ h ∈ hs, byteCount (f.content h.file ++ lines stamp r h.file hs) < rollSize

instance (stamp : Stamp) (r : Record) (f : Files) (hs : List Handler) :
    Decidable (Fits stamp r f hs) := inferInstanceAs (Decidable (∀ h ∈ hs, _ < _))

section Write
variable {stamp : Stamp} {r : Record} {f f' : Files}

theorem Fits.left {hs hs' : List Handler} (h : Fits stamp r f (hs ++ hs')) : Fits stamp r f hs := by
  intro handler hmem
  have hroom := h handler (List.mem_append_left hs' hmem)
  rw [lines_append, ← List.append_assoc, byteCount_append] at hroom
  exact Nat.lt_of_le_of_lt (Nat.le_add_right _ _) hroom

theorem Fits.right {hs hs' : List Handler} (h : Fits stamp r f (hs ++ hs'))
    (hgains : f.Gains f' (lines stamp r · hs)) : Fits stamp r f' hs' := by
  intro handler hmem
  have hroom := h handler (List.mem_append_right hs hmem)
  rwa [lines_append, ← List.append_assoc, ← hgains.content] at hroom

theorem AreOpen.of_gains {hs : List Handler} {files : List Nat} {gain : Text → Text}
    (h : AreOpen f hs files) (hgains : f.Gains f' gain) : AreOpen f' hs files := by
  rw [AreOpen, hgains.paths]
  exact h

theorem writeTo_eq (hsound : f.Sound) {h : Handler} {file : Nat}
    (hopen : f.paths.get? h.file = some file) (hfits : Fits stamp r f [h]) :
    ∃ f', writeTo stamp r f h file = (f', file) ∧ f.Gains f' (lines stamp r · [h]) := by
  by_cases hlevel : h.threshold ≤ r.level
  · have hself : h.Reaches h.file r.level := ⟨rfl, hlevel⟩
    have hline (path : Text) : lines stamp r path [h] =
        if path = h.file then line h.layout stamp r else [] := by
      rw [lines_cons]
      show (if h.file = path ∧ h.threshold ≤ r.level then _ else _) ++ [] = _
      simp only [hlevel, and_true, List.append_nil, eq_comm]
    have hroom : f.isFull file (line h.layout stamp r) = false := by
      have hsmall := hfits h List.mem_cons_self
      rw [hline, if_pos rfl, content_of_path hopen, byteCount_append] at hsmall
      have hlength := length_le_byteCount (line h.layout stamp r)
      rw [isFull, decide_eq_false_iff_not]
      omega
    refine ⟨f.append file (line h.layout stamp r), ?_, ?_⟩
    · rw [writeTo, if_pos hlevel, write, hroom]
      rfl
    · refine ⟨hsound.append _ _, rfl, fun _ => rfl, fun path => ?_⟩
      rw [hline, content_append hsound hopen]
  · refine ⟨f, if_neg hlevel, ?_⟩
    have hnone (path : Text) : lines stamp r path [h] = [] := by
      rw [lines_cons, if_neg fun hreach => hlevel hreach.2]
      rfl
    simp only [hnone]
    exact .refl hsound

theorem writeAll_eq (hsound : f.Sound) {hs : List Handler} {files : List Nat}
    (hopen : AreOpen f hs files) (hfits : Fits stamp r f hs) :
    ∃ f', writeAll stamp r f hs files = (f', files) ∧ f.Gains f' (lines stamp r · hs) := by
  induction hs generalizing f files with
  | nil =>
    obtain rfl := List.map_eq_nil_iff.1 hopen
    exact ⟨f, rfl, .refl hsound⟩
  | cons h rest ih =>
    cases files with
    | nil => exact nomatch hopen
    | cons file files =>
      obtain ⟨hfile, hrest⟩ := List.cons.inj hopen
      have hsplit : Fits stamp r f ([h] ++ rest) := hfits
      obtain ⟨f₁, hwrite, hgains⟩ := writeTo_eq hsound hfile.symm hsplit.left
      obtain ⟨f₂, hwrites, hgains'⟩ :=
        ih hgains.sound (AreOpen.of_gains hrest hgains) (hsplit.right hgains)
      refine ⟨f₂, ?_, ?_⟩
      · simp only [writeAll, hwrite, hwrites]
      · have hlines (path : Text) : lines stamp r path (h :: rest) =
            lines stamp r path [h] ++ lines stamp r path rest := lines_append [h] rest
        simp only [hlines]
        exact hgains.trans hgains'

end Write

structure Connected (j : Journal) (f : Files) : Prop where
  sound : f.Sound
  opened (n : Text) : AreOpen f (j.logger n).handlers (f.streamsOf n)

def FitsRecord (j : Journal) (stamp : Stamp) (r : Record) : Prop :=
  Fits stamp r j.files (j.handlersAbove r.logger)

instance (j : Journal) (stamp : Stamp) (r : Record) : Decidable (j.FitsRecord stamp r) :=
  inferInstanceAs (Decidable (Fits _ _ _ _))

section Record
variable {j : Journal} {stamp : Stamp} {r : Record} {f f' : Files}

theorem Connected.of_gains {gain : Text → Text} (h : j.Connected f) (hgains : f.Gains f' gain) :
    j.Connected f' := by
  refine ⟨hgains.sound, fun n => ?_⟩
  rw [hgains.streams]
  exact AreOpen.of_gains (h.opened n) hgains

theorem gains_writeThrough (h : j.Connected f) {n : Text}
    (hfits : Fits stamp r f (j.logger n).handlers) :
    f.Gains (j.writeThrough stamp r f n) (lines stamp r · (j.logger n).handlers) := by
  obtain ⟨f', hwrite, hgains⟩ := writeAll_eq h.sound (h.opened n) hfits
  simp only [writeThrough, hwrite]
  refine ⟨⟨hgains.sound.bound, hgains.sound.apart⟩, hgains.paths, fun logger => ?_, hgains.content⟩
  show (Entries.get? (f'.streams.put n (f.streamsOf n)) logger).getD [] = _
  rw [Entries.get?_put]
  split
  · next heq => rw [heq, Option.getD_some]
  · exact hgains.streams logger

theorem gains_foldl_writeThrough (h : j.Connected f) {names : List Text}
    (hfits : Fits stamp r f (names.flatMap fun n => (j.logger n).handlers)) :
    f.Gains (names.foldl (j.writeThrough stamp r) f)
      (lines stamp r · (names.flatMap fun n => (j.logger n).handlers)) := by
  induction names generalizing f with
  | nil => exact .refl h.sound
  | cons n rest ih =>
    rw [List.flatMap_cons] at hfits ⊢
    have hgains := gains_writeThrough h hfits.left
    simp only [lines_append]
    exact hgains.trans (ih (h.of_gains hgains) (hfits.right hgains))

theorem gains_record (h : j.Connected j.files) {name : Text} {level : Level} {message : Text}
    (hadmits : j.admits name level = true) (hfits : j.FitsRecord stamp ⟨name, level, message⟩) :
    j.files.Gains (j.record stamp name level message).1.files
      (lines stamp ⟨name, level, message⟩ · (j.handlersAbove name)) := by
  rw [record, if_pos hadmits]
  exact gains_foldl_writeThrough h hfits

end Record

section Run
variable {j : Journal}

theorem connected_start (rootLevel : Level) (filing : Bool) (debugText : Text) :
    (start rootLevel filing debugText).Connected {} := by
  refine ⟨sound_empty, fun n => ?_⟩
  rw [(keeps_start rootLevel filing debugText).handlers]
  rfl

theorem AreOpen.append {f : Files} {hs hs' : List Handler} {files files' : List Nat}
    (h : AreOpen f hs files) (h' : AreOpen f hs' files') : AreOpen f (hs ++ hs') (files ++ files') := by
  rw [AreOpen, List.map_append, List.map_append, h, h']

theorem AreOpen.of_opens {f f' : Files} {paths : List Text} {opened : List Nat} {hs : List Handler}
    {files : List Nat} (h : AreOpen f hs files) (hopens : f.Opens f' paths opened) :
    AreOpen f' hs files := by
  rw [AreOpen, h]
  apply List.map_congr_left
  intro handler hmem
  have hsome : f.paths.get? handler.file ∈ files.map some := h ▸ List.mem_map.2 ⟨handler, hmem, rfl⟩
  obtain ⟨file, -, hfile⟩ := List.mem_map.1 hsome
  rw [← hfile, hopens.kept hfile.symm]

theorem Connected.addHandlers (h : j.Connected j.files) (full : Text) (added : List Handler) :
    (j.addHandlers full added).Connected (j.addHandlers full added).files := by
  have hopens := opens_openPaths h.sound (added.map Handler.file)
  have hadded : AreOpen (j.files.openPaths (added.map Handler.file)).1 added
      (j.files.openPaths (added.map Handler.file)).2 := by
    rw [AreOpen, hopens.opened, List.map_map]
    rfl
  have hold (n : Text) : AreOpen (j.files.openPaths (added.map Handler.file)).1 (j.logger n).handlers
      ((j.files.openPaths (added.map Handler.file)).1.streamsOf n) := by
    rw [streamsOf, hopens.streams]
    exact (h.opened n).of_opens hopens
  refine ⟨⟨hopens.sound.bound, hopens.sound.apart⟩, fun n => ?_⟩
  have hstreams : (j.addHandlers full added).files.streamsOf n =
      if n = full then (j.files.openPaths (added.map Handler.file)).1.streamsOf full ++
        (j.files.openPaths (added.map Handler.file)).2
      else (j.files.openPaths (added.map Handler.file)).1.streamsOf n := by
    show (Entries.get? (Entries.put _ full _) n).getD [] = _
    rw [Entries.get?_put]
    split
    · rfl
    · rfl
  rw [logger_addHandlers, hstreams]
  split
  · next heq =>
    subst heq
    exact (hold n).append hadded
  · exact hold n

theorem Connected.register (h : j.Connected j.files) (full : Text) :
    (j.register full).Connected (j.register full).files := by
  refine ⟨h.sound, fun n => ?_⟩
  rw [logger_register]
  split
  · exact h.opened n
  · exact h.opened n

theorem Connected.ask (h : j.Connected j.files) (c : Call) : (j.ask c).Connected (j.ask c).files := by
  have hequip : (j.equip c.name c.component c.access).Connected
      (j.equip c.name c.component c.access).files := by
    rw [equip_eq]
    split
    · exact (h.register c.fullName).addHandlers _ _
    · exact h.register c.fullName
  cases hcached : j.cache.get? c.key with
  | some full =>
    have hsome : (j.cache.get? c.key).isSome := by
      rw [hcached]
      rfl
    rw [ask_of_cached hsome]
    exact h
  | none =>
    rw [ask_of_new hcached]
    dsimp only
    split
    · exact ⟨hequip.sound, hequip.opened⟩
    · exact hequip

theorem content_ask (h : j.files.Sound) (c : Call) (path : Text) :
    (j.ask c).content path = j.content path := by
  obtain hsame | ⟨paths, streams, hopened⟩ := files_ask j c
  · rw [content, content, hsame]
  · rw [content, content, hopened]
    exact (opens_openPaths h paths).content path

def FitsEvent (j : Journal) : Event → Prop
  | .ask _ => True
  | .log stamp name level message context =>
    j.admits name level = true → j.FitsRecord stamp ⟨name, level, withContext message context⟩

instance (j : Journal) : (event : Event) → Decidable (j.FitsEvent event)
  | .ask _ => inferInstanceAs (Decidable True)
  | .log .. => inferInstanceAs (Decidable (_ → _))

/-- None of the events brings a file to the size at which it is rolled over. -/
def FitsAll (j : Journal) : List Event → Prop
  | [] => True
  | event :: rest => j.FitsEvent event ∧ (j.next event).FitsAll rest

instance decidableFitsAll : (j : Journal) → (events : List Event) → Decidable (j.FitsAll events)
  | _, [] => inferInstanceAs (Decidable True)
  | j, event :: rest =>
    let _ := decidableFitsAll (j.next event) rest
    inferInstanceAs (Decidable (j.FitsEvent event ∧ (j.next event).FitsAll rest))

theorem FitsAll.left {events more : List Event} (h : j.FitsAll (events ++ more)) : j.FitsAll events := by
  induction events generalizing j with
  | nil => trivial
  | cons event rest ih => exact ⟨h.1, ih h.2⟩

theorem FitsAll.right {events more : List Event} (h : j.FitsAll (events ++ more)) :
    (j.after events).FitsAll more := by
  induction events generalizing j with
  | nil => exact h
  | cons event rest ih => exact ih h.2

theorem Connected.record (h : j.Connected j.files) {stamp : Stamp} {name : Text} {level : Level}
    {message : Text} (hfits : j.admits name level = true → j.FitsRecord stamp ⟨name, level, message⟩) :
    (j.record stamp name level message).1.Connected (j.record stamp name level message).1.files := by
  by_cases hadmits : j.admits name level = true
  · have hgains := gains_record h hadmits (hfits hadmits)
    have hfiles := h.of_gains hgains
    rw [Journal.record, if_pos hadmits] at hfiles ⊢
    exact ⟨hfiles.sound, hfiles.opened⟩
  · rw [Journal.record, if_neg hadmits]
    exact h

theorem Connected.next (h : j.Connected j.files) {event : Event} (hfits : j.FitsEvent event) :
    (j.next event).Connected (j.next event).files := by
  cases event with
  | ask c => exact h.ask c
  | log stamp name level message context =>
    unfold Journal.next
    dsimp only
    split
    · next made hlog =>
      unfold log at hlog
      split at hlog
      · exact nomatch hlog
      · have hrecord := h.record hfits
        rw [Except.ok.inj hlog] at hrecord
        exact hrecord
    · exact h

theorem Connected.after (h : j.Connected j.files) {events : List Event} (hfits : j.FitsAll events) :
    (j.after events).Connected (j.after events).files := by
  induction events generalizing j with
  | nil => exact h
  | cons event rest ih => exact ih (h.next hfits.1) hfits.2

theorem gains_of_log {j' : Journal} {stamp : Stamp} {name : Text} {level : Level} {message : Text}
    {context : Document} {r : Record} (h : j.Connected j.files)
    (hfits : j.FitsEvent (.log stamp name level message context))
    (hlog : j.log stamp name level message context = .ok (j', [r])) :
    r = ⟨name, level, withContext message context⟩ ∧
      j.files.Gains j'.files (lines stamp r · (j.handlersAbove name)) := by
  unfold log at hlog
  split at hlog
  · exact nomatch hlog
  · have hrecord := Except.ok.inj hlog
    by_cases hadmits : j.admits name level = true
    · have hr : r = ⟨name, level, withContext message context⟩ := by
        rw [record, if_pos hadmits] at hrecord
        exact (List.head_eq_of_cons_eq (Prod.mk.inj hrecord).2).symm
      have hgains := gains_record h hadmits (hfits hadmits)
      rw [hrecord] at hgains
      subst hr
      exact ⟨rfl, hgains⟩
    · rw [record, if_neg hadmits] at hrecord
      exact nomatch (Prod.mk.inj hrecord).2

end Run

end Journal
end FindQuery
