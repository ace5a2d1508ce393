import FindQuery.Journal.Files
import FindQuery.Proofs.Entries
import FindQuery.Proofs.Numeral.Decimal

/-! What opening, writing and moving do to files. -/

namespace FindQuery

namespace Entries
variable {α : Type}

theorem get?_erase (es : Entries α) (key other : Text) :
    (es.erase key).get? other = if other = key then none else es.get? other := by
  induction es with
  | nil =>
    split
    · rfl
    · rfl
  | cons e rest ih =>
    obtain ⟨k, v⟩ := e
    rw [erase, List.filter_cons]
    by_cases hkey : k = key
    · rw [if_neg (by simp [hkey])]
      show (erase rest key).get? other = _
      rw [ih, get?]
      split
      · rfl
      · next hother => rw [if_neg fun heq => hother (heq.symm.trans hkey)]
    · rw [if_pos (by simp [hkey]), get?, get?]
      show (if k = other then some v else (erase rest key).get? other) = _
      rw [ih]
      by_cases hother : k = other
      · rw [if_pos hother, if_pos hother, if_neg fun heq => hkey (hother.trans heq)]
      · rw [if_neg hother, if_neg hother]

end Entries

namespace Files

def content (f : Files) (path : Text) : Text := (f.get? path).getD []

structure Sound (f : Files) : Prop where
  bound {path : Text} {file : Nat} : f.paths.get? path = some file → file < f.texts.length
  apart {path other : Text} {file : Nat} :
    f.paths.get? path = some file → f.paths.get? other = some file → path = other

theorem sound_empty : Sound {} := ⟨nofun, nofun⟩

section Append
variable {f : Files} {path : Text} {file : Nat} {more : Text}

theorem content_of_path (h : f.paths.get? path = some file) : f.content path = f.text file := by
  rw [content, get?, h]
  rfl

theorem text_append (hfile : file < f.texts.length) (other : Nat) :
    (f.append file more).text other = f.text other ++ if other = file then more else [] := by
  have hother : f.texts[other]? = none → other ≠ file := by
    rintro hnone rfl
    exact Nat.lt_irrefl _ (Nat.lt_of_lt_of_le hfile (List.getElem?_eq_none_iff.1 hnone))
  rw [text, text, append, List.getD_eq_getElem?_getD, List.getD_eq_getElem?_getD,
    List.getElem?_modify]
  cases hget : f.texts[other]? with
  | none => simp [hother hget]
  | some s =>
    by_cases heq : file = other
    · simp [heq]
    · simp [heq, Ne.symm heq]

theorem Sound.append (h : f.Sound) (file : Nat) (more : Text) : (f.append file more).Sound := by
  refine ⟨fun hpath => ?_, h.apart⟩
  rw [Files.append, List.length_modify]
  exact h.bound hpath

theorem content_append (h : f.Sound) (hpath : f.paths.get? path = some file) (other : Text) :
    (f.append file more).content other = f.content other ++ if other = path then more else [] := by
  have hpaths : (f.append file more).paths = f.paths := rfl
  cases hother : f.paths.get? other with
  | none =>
    have hne : other ≠ path := by
      rintro rfl
      exact nomatch hother.symm.trans hpath
    rw [content, content, get?, get?, hpaths, hother, if_neg hne]
    rfl
  | some k =>
    have hsame : k = file ↔ other = path := by
      constructor
      · rintro rfl
        exact h.apart hother hpath
      · rintro rfl
        exact Option.some.inj (hother.symm.trans hpath)
    rw [content_of_path (f := f.append file more) (hpaths ▸ hother), content_of_path hother,
      text_append (h.bound hpath)]
    simp only [hsame]

end Append

section Open
variable {f : Files} {path : Text}

theorem openPath_of_some {file : Nat} (h : f.paths.get? path = some file) :
    f.openPath path = (f, file) := by
  rw [openPath, h]

theorem openPath_of_none (h : f.paths.get? path = none) : f.openPath path =
    ({ f with texts := f.texts ++ [[]], paths := f.paths.put path f.texts.length },
      f.texts.length) := by
  rw [openPath, h]

theorem text_openPath (f : Files) (path : Text) (file : Nat) :
    (f.openPath path).1.text file = f.text file := by
  cases h : f.paths.get? path with
  | some k => rw [openPath_of_some h]
  | none =>
    rw [openPath_of_none h]
    show (f.texts ++ [[]]).getD file [] = f.texts.getD file []
    rw [List.getD_eq_getElem?_getD, List.getD_eq_getElem?_getD, List.getElem?_append]
    split
    · rfl
    · next hle =>
      rw [List.getElem?_eq_none (Nat.le_of_not_lt hle)]
      cases hget : [([] : Text)][file - f.texts.length]? with
      | none => rfl
      | some s => rw [List.mem_singleton.1 (List.mem_of_getElem? hget)]; rfl

theorem paths_openPath (f : Files) (path other : Text) :
    (f.openPath path).1.paths.get? other =
      if other = path then some (f.openPath path).2 else f.paths.get? other := by
  cases h : f.paths.get? path with
  | some k =>
    rw [openPath_of_some h]
    split
    · next heq => rw [heq, h]
    · rfl
  | none =>
    rw [openPath_of_none h]
    exact Entries.get?_put _ _ _ _

theorem get?_paths_openPath_of_some {other : Text} {file : Nat} (h : f.paths.get? other = some file) :
    (f.openPath path).1.paths.get? other = some file := by
  rw [paths_openPath]
  split
  · next heq =>
    subst heq
    rw [openPath_of_some h]
  · exact h

theorem Sound.openPath (h : f.Sound) (path : Text) : (f.openPath path).1.Sound := by
  cases hpath : f.paths.get? path with
  | some k =>
    rw [openPath_of_some hpath]
    exact h
  | none =>
    have hnew {other : Text} {file : Nat} (hother : f.paths.get? other = some file) :
        file ≠ f.texts.length := Nat.ne_of_lt (h.bound hother)
    rw [openPath_of_none hpath]
    constructor
    · intro other file hother
      rw [Entries.get?_put] at hother
      rw [List.length_append, List.length_singleton]
      split at hother
      · rw [← Option.some.inj hother]
        exact Nat.lt_succ_self _
      · exact Nat.lt_succ_of_lt (h.bound hother)
    · intro p q file hp hq
      rw [Entries.get?_put] at hp hq
      split at hp
      · next heq =>
        split at hq
        · next heq' => rw [heq, heq']
        · exact absurd (Option.some.inj hp).symm (hnew hq)
      · split at hq
        · exact absurd (Option.some.inj hq).symm (hnew hp)
        · exact h.apart hp hq

theorem content_openPath (f : Files) (path other : Text) :
    (f.openPath path).1.content other = f.content other := by
  rw [content, content, get?, get?, paths_openPath]
  split
  · next heq =>
    subst heq
    cases hpath : f.paths.get? other with
    | some k => rw [openPath_of_some hpath, Option.map_some]
    | none =>
      rw [Option.map_some, text_openPath, openPath_of_none hpath, text, List.getD_eq_getElem?_getD,
        List.getElem?_eq_none (Nat.le_refl _)]
      rfl
  · cases f.paths.get? other with
    | none => rfl
    | some k => exact congrArg (Option.getD · []) (congrArg some (text_openPath f path k))

theorem streams_openPath (f : Files) (path : Text) : (f.openPath path).1.streams = f.streams := by
  unfold openPath
  split
  · rfl
  · rfl

structure Opens (f f' : Files) (paths : List Text) (files : List Nat) : Prop where
  sound : f'.Sound
  opened : files.map some = paths.map f'.paths.get?
  kept {path : Text} {file : Nat} : f.paths.get? path = some file → f'.paths.get? path = some file
  content (path : Text) : f'.content path = f.content path
  streams : f'.streams = f.streams

theorem opens_openPaths (h : f.Sound) (paths : List Text) :
    f.Opens (f.openPaths paths).1 paths (f.openPaths paths).2 := by
  induction paths generalizing f with
  | nil => exact ⟨h, rfl, id, fun _ => rfl, rfl⟩
  | cons path rest ih =>
    obtain ⟨hsound, hopened, hkept, hcontent, hstreams⟩ := ih (h.openPath path)
    refine ⟨hsound, ?_, ?_, ?_, ?_⟩
    · have hself : (f.openPath path).1.paths.get? path = some (f.openPath path).2 := by
        rw [paths_openPath, if_pos rfl]
      have hlast : (f.openPaths (path :: rest)).1.paths.get? path = some (f.openPath path).2 :=
        hkept hself
      rw [List.map_cons, hlast]
      exact congrArg (some (f.openPath path).2 :: ·) hopened
    · exact fun hpath => hkept (get?_paths_openPath_of_some hpath)
    · exact fun other => (hcontent other).trans (content_openPath f path other)
    · exact hstreams.trans (streams_openPath f path)

end Open

section Move
variable {f : Files} {path : Text}

theorem paths_move (f : Files) (old new other : Text) :
    (f.move old new).paths.get? other =
      if other = new then (f.paths.get? old).or (f.paths.get? new)
      else if other = old then none else f.paths.get? other := by
  cases hold : f.paths.get? old with
  | none =>
    have hsame : f.move old new = f := by rw [move, hold]
    rw [hsame]
    split
    · next heq => rw [heq, Option.none_or]
    · split
      · next heq => rw [heq, hold]
      · rfl
  | some file =>
    have hmoved : f.move old new = { f with paths := (f.paths.erase old).put new file } := by
      rw [move, hold]
    rw [hmoved]
    show (Entries.put _ _ _).get? other = _
    rw [Entries.get?_put, Entries.get?_erase, Option.some_or]

theorem texts_move (f : Files) (old new : Text) : (f.move old new).texts = f.texts := by
  unfold move
  split
  · rfl
  · rfl

theorem backup_injective {i k : Nat} (h : backup path i = backup path k) : i = k := by
  rw [backup, backup, List.append_cancel_left_eq, List.cons.injEq] at h
  exact Numeral.ofNat_injective h.2

theorem ne_backup (path : Text) (i : Nat) : path ≠ backup path i := by
  intro h
  have hlength := congrArg List.length h
  rw [backup, List.length_append, List.length_cons] at hlength
  omega

theorem texts_shiftBackups (f : Files) (path : Text) (n : Nat) :
    (shiftBackups path n f).texts = f.texts := by
  induction n generalizing f with
  | zero => rfl
  | succ n ih => rw [shiftBackups, ih, texts_move]

theorem paths_shiftBackups_of_ne {other : Text} {n : Nat} (h : ∀ i ≤ n + 1, other ≠ backup path i) :
    (shiftBackups path n f).paths.get? other = f.paths.get? other := by
  induction n generalizing f with
  | zero => rfl
  | succ n ih =>
    rw [shiftBackups, ih fun i hi => h i (Nat.le_succ_of_le hi), paths_move,
      if_neg (h (n + 2) (Nat.le_refl _)), if_neg (h (n + 1) (Nat.le_succ _))]

theorem paths_shiftBackups {i n k : Nat} (h : f.paths.get? (backup path i) = some k) (hpos : 0 < i)
    (hi : i ≤ n) : (shiftBackups path n f).paths.get? (backup path (i + 1)) = some k := by
  induction n generalizing f with
  | zero => omega
  | succ n ih =>
    rw [shiftBackups]
    by_cases hlast : i = n + 1
    · subst hlast
      rw [paths_shiftBackups_of_ne, paths_move, if_pos rfl, h, Option.some_or]
      intro m hm heq
      have := backup_injective heq
      omega
    · apply ih _ (by omega)
      have hnew : backup path i ≠ backup path (n + 2) := fun heq => by
        have := backup_injective heq
        omega
      have hold : backup path i ≠ backup path (n + 1) := mt backup_injective hlast
      rw [paths_move, if_neg hnew, if_neg hold, h]

end Move

section RollOver
variable {f : Files} {path : Text} {file : Nat}

theorem texts_makeRoom (f : Files) (path : Text) : (f.makeRoom path).texts = f.texts := by
  rw [makeRoom, texts_move, texts_shiftBackups]

theorem rollOver_eq (f : Files) (path : Text) : f.rollOver path =
    ({ f.makeRoom path with
        texts := f.texts ++ [[]], paths := (f.makeRoom path).paths.put path f.texts.length },
      f.texts.length) := by
  have hnone : (f.makeRoom path).paths.get? path = none := by
    rw [makeRoom, paths_move, if_neg (ne_backup path 1), if_pos rfl]
  rw [← texts_makeRoom f path]
  exact openPath_of_none hnone

theorem paths_rollOver (f : Files) (path other : Text) : (f.rollOver path).1.paths.get? other =
    if other = path then some f.texts.length else (f.makeRoom path).paths.get? other := by
  rw [rollOver_eq]
  exact Entries.get?_put _ _ _ _

theorem text_rollOver (f : Files) (path : Text) (other : Nat) :
    (f.rollOver path).1.text other = f.text other := by
  have hopened := text_openPath (f.makeRoom path) path other
  rw [text, text, texts_makeRoom] at hopened
  exact hopened

theorem paths_makeRoom_backup {i k : Nat} (h : f.paths.get? (backup path i) = some k) (hpos : 0 < i)
    (hi : i < backupCount) : (f.makeRoom path).paths.get? (backup path (i + 1)) = some k := by
  have hne : backup path (i + 1) ≠ backup path 1 := fun heq => by
    have := backup_injective heq
    omega
  rw [makeRoom, paths_move, if_neg hne, if_neg (ne_backup path (i + 1)).symm]
  exact paths_shiftBackups h hpos (Nat.le_sub_one_of_lt hi)

/-- A file that is rolled over begins anew, what it held is the first backup, and each backup but the
last becomes the next one. Who has the old file open goes on writing to it, and so to the backup. -/
theorem rollOver_splits (h : f.Sound) (hfile : f.paths.get? path = some file) (more : Text) :
    let rolled := f.rollOver path
    ((rolled.1.append rolled.2 more).content path = more ∧
      (rolled.1.append rolled.2 more).content (backup path 1) = f.content path) ∧
    ((rolled.1.append file more).content path = [] ∧
      (rolled.1.append file more).content (backup path 1) = f.content path ++ more) ∧
    ∀ i k, 0 < i → i < backupCount → f.paths.get? (backup path i) = some k →
      rolled.1.paths.get? (backup path (i + 1)) = some k := by
  intro rolled
  have hold : file < f.texts.length := h.bound hfile
  have hlength : rolled.1.texts.length = f.texts.length + 1 := by
    show (f.rollOver path).1.texts.length = _
    rw [rollOver_eq]
    exact List.length_append
  have hnew : rolled.2 = f.texts.length := congrArg Prod.snd (rollOver_eq f path)
  have hempty : f.text f.texts.length = [] := by
    rw [text, List.getD_eq_getElem?_getD, List.getElem?_eq_none (Nat.le_refl _), Option.getD_none]
  have hpath : rolled.1.paths.get? path = some f.texts.length := by
    rw [paths_rollOver, if_pos rfl]
  have hbackup : rolled.1.paths.get? (backup path 1) = some file := by
    rw [paths_rollOver, if_neg (ne_backup path 1).symm, makeRoom, paths_move, if_pos rfl,
      paths_shiftBackups_of_ne fun i _ => ne_backup path i, hfile, Option.some_or]
  have hcontent {k : Nat} {other : Text} {number : Nat} (hk : k < f.texts.length + 1)
      (hother : rolled.1.paths.get? other = some number) :
      (rolled.1.append k more).content other =
        f.text number ++ if number = k then more else [] := by
    rw [content_of_path (f := rolled.1.append k more) hother,
      text_append (hlength ▸ hk), text_rollOver]
  refine ⟨⟨?_, ?_⟩, ⟨?_, ?_⟩, ?_⟩
  · rw [hnew, hcontent (Nat.lt_succ_self _) hpath, hempty, if_pos rfl, List.nil_append]
  · rw [hnew, hcontent (Nat.lt_succ_self _) hbackup, if_neg (Nat.ne_of_lt hold), List.append_nil,
      content_of_path hfile]
  · rw [hcontent (Nat.lt_succ_of_lt hold) hpath, hempty, if_neg (Nat.ne_of_gt hold), List.nil_append]
  · rw [hcontent (Nat.lt_succ_of_lt hold) hbackup, if_pos rfl, content_of_path hfile]
  · intro i k hpos hi hk
    rw [paths_rollOver, if_neg (ne_backup path (i + 1)).symm]
    exact paths_makeRoom_backup hk hpos hi

end RollOver

end Files
end FindQuery
