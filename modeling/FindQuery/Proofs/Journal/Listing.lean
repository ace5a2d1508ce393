import FindQuery.Proofs.Journal.Files
import FindQuery.Proofs.Journal.Session
import FindQuery.Proofs.StableSort

/-! What a journal tells of its files and of its loggers, after any run. -/

namespace FindQuery

theorem Entries.distinct_erase {α : Type} {es : Entries α} (h : es.Distinct) (key : Text) :
    (es.erase key).Distinct := by
  have hkeys : (es.erase key).keys = es.keys.filter fun k => decide (k ≠ key) :=
    Entries.keys_filter (fun k => decide (k ≠ key)) es
  rw [Distinct, hkeys]
  exact List.Nodup.filter _ h

namespace Files

/-- A property that opening, writing and moving leave as it is, whoever has which files open. -/
structure IsKept (P : Files → Prop) : Prop where
  streams {f : Files} : P f → ∀ streams, P { f with streams := streams }
  openPath {f : Files} : P f → ∀ path, P (f.openPath path).1
  append {f : Files} : P f → ∀ file more, P (f.append file more)
  move {f : Files} : P f → ∀ old new, P (f.move old new)

section Kept
variable {P : Files → Prop} {f : Files}

theorem IsKept.openPaths (h : IsKept P) (hf : P f) (paths : List Text) : P (f.openPaths paths).1 := by
  induction paths generalizing f with
  | nil => exact hf
  | cons path rest ih => exact ih (h.openPath hf path)

theorem IsKept.shiftBackups (h : IsKept P) (hf : P f) (path : Text) (n : Nat) :
    P (Files.shiftBackups path n f) := by
  induction n generalizing f with
  | zero => exact hf
  | succ n ih => exact ih (h.move hf _ _)

theorem IsKept.rollOver (h : IsKept P) (hf : P f) (path : Text) : P (f.rollOver path).1 :=
  h.openPath (h.move (h.shiftBackups hf path _) _ _) path

theorem IsKept.write (h : IsKept P) (hf : P f) (path : Text) (file : Nat) (more : Text) :
    P (f.write path file more).1 := by
  by_cases hfull : f.isFull file more = true
  · rw [Files.write, if_pos hfull]
    exact h.append (h.rollOver hf path) _ _
  · rw [Files.write, if_neg hfull]
    exact h.append hf _ _

end Kept

theorem isKept_distinct : IsKept fun f => f.paths.Distinct where
  streams hf _ := hf
  openPath {f} hf path := by
    cases hpath : f.paths.get? path with
    | some file => rwa [openPath_of_some hpath]
    | none =>
      rw [openPath_of_none hpath]
      exact Entries.distinct_put hf _ _
  append hf _ _ := hf
  move {f} hf old new := by
    unfold Files.move
    split
    · exact Entries.distinct_put (Entries.distinct_erase hf _) _ _
    · exact hf

theorem isKept_sound : IsKept Sound where
  streams hf _ := ⟨hf.bound, hf.apart⟩
  openPath hf path := hf.openPath path
  append hf file more := hf.append file more
  move {f} hf old new := by
    cases hold : f.paths.get? old with
    | none =>
      have hsame : f.move old new = f := by rw [Files.move, hold]
      rwa [hsame]
    | some moved =>
      constructor
      · intro path file hpath
        rw [texts_move]
        rw [paths_move, hold, Option.some_or] at hpath
        split at hpath
        · rw [← Option.some.inj hpath]
          exact hf.bound hold
        · split at hpath
          · cases hpath
          · exact hf.bound hpath
      · -- A path with the number of the moved file is the new one, since the old one is gone.
        have hmoved {path : Text} {file : Nat} (hpath : (f.move old new).paths.get? path = some file) :
            (path = new ∧ file = moved) ∨ (path ≠ old ∧ f.paths.get? path = some file) := by
          rw [paths_move, hold, Option.some_or] at hpath
          split at hpath
          · next heq => exact .inl ⟨heq, (Option.some.inj hpath).symm⟩
          · split at hpath
            · cases hpath
            · next hne => exact .inr ⟨hne, hpath⟩
        intro path other file hpath hother
        obtain ⟨hnew, hfile⟩ | ⟨hne, hkept⟩ := hmoved hpath
        · obtain ⟨hnew', -⟩ | ⟨hne', hkept'⟩ := hmoved hother
          · rw [hnew, hnew']
          · exact absurd (hf.apart hkept' (hfile ▸ hold)) hne'
        · obtain ⟨-, hfile'⟩ | ⟨-, hkept'⟩ := hmoved hother
          · exact absurd (hf.apart hkept (hfile' ▸ hold)) hne
          · exact hf.apart hkept hkept'

end Files

namespace Journal

section Kept
variable {P : Files → Prop} {j : Journal} {f : Files}
open Files (IsKept)

theorem kept_writeTo (h : IsKept P) (hf : P f) (stamp : Stamp) (r : Record) (handler : Handler)
    (file : Nat) : P (writeTo stamp r f handler file).1 := by
  unfold writeTo
  split
  · exact h.write hf _ _ _
  · exact hf

theorem kept_writeAll (h : IsKept P) (hf : P f) (stamp : Stamp) (r : Record) (hs : List Handler)
    (files : List Nat) : P (writeAll stamp r f hs files).1 := by
  induction hs generalizing f files with
  | nil => exact hf
  | cons handler rest ih =>
    cases files with
    | nil => exact hf
    | cons file files => exact ih (kept_writeTo h hf stamp r handler file) files

theorem kept_foldl_writeThrough (h : IsKept P) (hf : P f) (stamp : Stamp) (r : Record)
    (names : List Text) : P (names.foldl (j.writeThrough stamp r) f) := by
  induction names generalizing f with
  | nil => exact hf
  | cons n rest ih => exact ih (h.streams (kept_writeAll h hf stamp r _ _) _)

theorem kept_log (h : IsKept P) (hj : P j.files) {stamp : Stamp} {name : Text} {level : Level}
    {message : Text} {context : Document} {j' : Journal} {made : List Record}
    (hlog : j.log stamp name level message context = .ok (j', made)) : P j'.files := by
  unfold log at hlog
  split at hlog
  · exact nomatch hlog
  · unfold record at hlog
    split at hlog
    · obtain ⟨rfl, -⟩ := Prod.mk.inj (Except.ok.inj hlog)
      exact kept_foldl_writeThrough h hj stamp _ _
    · obtain ⟨rfl, -⟩ := Prod.mk.inj (Except.ok.inj hlog)
      exact hj

theorem kept_ask (h : IsKept P) (hj : P j.files) (c : Call) : P (j.ask c).files := by
  obtain hsame | ⟨paths, streams, hopened⟩ := files_ask j c
  · rwa [hsame]
  · rw [hopened]
    exact h.streams (h.openPaths hj paths) streams

theorem kept_after (h : IsKept P) (hj : P j.files) (events : List Event) : P (j.after events).files := by
  induction events generalizing j with
  | nil => exact hj
  | cons event rest ih =>
    apply ih
    cases event with
    | ask c => exact kept_ask h hj c
    | log stamp name level message context =>
      simp only [next]
      split
      · next hlog => exact kept_log h hj hlog
      · exact hj

end Kept

section Listing
variable {j : Journal}

theorem pairwise_listing (j : Journal) : j.listing.Pairwise fun a b => Text.le a.1 b.1 = true := by
  have htrans (a b c : Text × Text) : Text.le a.1 b.1 = true → Text.le b.1 c.1 = true →
      Text.le a.1 c.1 = true := Text.le_trans
  have htotal (a b : Text × Text) : Text.le a.1 b.1 = true ∨ Text.le b.1 a.1 = true :=
    Text.le_total a.1 b.1
  exact pairwise_stableSort htrans htotal _

theorem mem_listing_iff (h : j.files.paths.Distinct) {path text : Text} :
    (path, text) ∈ j.listing ↔ FilePath.isInside path = true ∧ j.files.get? path = some text := by
  rw [listing, mem_stableSort, List.mem_filter, and_comm, Files.listing, List.mem_map, Files.get?,
    Option.map_eq_some_iff]
  refine and_congr_right fun _ => ?_
  constructor
  · rintro ⟨⟨other, file⟩, hmem, heq⟩
    obtain ⟨rfl, rfl⟩ := Prod.mk.inj heq
    exact ⟨file, Entries.get?_of_mem h hmem, rfl⟩
  · rintro ⟨file, hfile, rfl⟩
    exact ⟨(path, file), Entries.mem_of_get? hfile, rfl⟩

theorem pairwise_keys (j : Journal) : j.keys.Pairwise (Text.le · · = true) := by
  have htrans (s t u : Text) : Text.le s t = true → Text.le t u = true → Text.le s u = true := Text.le_trans
  exact pairwise_stableSort htrans Text.le_total j.cache.keys

theorem mem_keys_iff {made : List Call} (h : j.Keeps made) {k : Text} :
    k ∈ j.keys ↔ ∃ c ∈ made, c.opens j.filing = true ∧ c.key = k := by
  rw [keys, mem_stableSort, Entries.mem_keys_iff, h.cached, Option.isSome_map, List.find?_isSome]
  simp only [List.mem_filter, decide_eq_true_eq, and_assoc]

end Listing

/-- After any run, rollovers included, the files are listed by their paths with what they hold, and the
loggers by the keys that calls have had an answer to. -/
theorem listing_after_start (rootLevel : Level) (filing : Bool) (debugText : Text) (events : List Event) :
    let s := (start rootLevel filing debugText).after events
    s.files.Sound ∧ s.listing.Pairwise (fun a b => Text.le a.1 b.1 = true) ∧
      (∀ path text, (path, text) ∈ s.listing ↔
        FilePath.isInside path = true ∧ s.files.get? path = some text) ∧
      s.keys.Pairwise (Text.le · · = true) ∧
      ∀ k, k ∈ s.keys ↔ ∃ c ∈ calls events, c.opens filing = true ∧ c.key = k := by
  intro s
  have hempty : (start rootLevel filing debugText).files.paths.Distinct := List.nodup_nil
  have hdistinct : s.files.paths.Distinct := kept_after Files.isKept_distinct hempty events
  have hkeeps := keeps_after_start rootLevel filing debugText events
  have hfiling : s.filing = filing := (settings_after _ events).1
  refine ⟨kept_after Files.isKept_sound Files.sound_empty events, pairwise_listing s, ?_,
    pairwise_keys s, ?_⟩
  · exact fun path text => mem_listing_iff hdistinct
  · intro k
    rw [mem_keys_iff hkeeps, hfiling]

end Journal
end FindQuery
