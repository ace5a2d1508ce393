import FindQuery.Proofs.Journal.Attach
import FindQuery.Proofs.Text

/-! The files of calls with plain names. -/

namespace FindQuery

namespace Text

theorem smallCode_eq_or_le (runs : List (Nat × Nat × Nat × Nat))
    (h : ∀ run ∈ runs, 97 ≤ run.2.2.2) (n : Nat) : smallCode runs n = n ∨ 97 ≤ smallCode runs n := by
  induction runs with
  | nil => exact .inl rfl
  | cons run rest ih =>
    obtain ⟨first, last, step, image⟩ := run
    have himage : 97 ≤ image := h _ List.mem_cons_self
    rw [smallCode]
    split
    · exact .inl rfl
    · split
      · exact .inr (by omega)
      · exact ih fun run hrun => h run (List.mem_cons_of_mem _ hrun)

theorem toNat_ofNat_cases (n : Nat) : (Char.ofNat n).toNat = n ∨ (Char.ofNat n).toNat = 0 := by
  by_cases h : n.isValidChar
  · exact .inl (toNat_ofNat h)
  · rw [Char.ofNat, dif_neg h]
    exact .inr rfl

theorem eq_of_mem_smallForm {c d : Char} (h : c ∈ smallForm d) (hpos : 0 < c.toNat)
    (hlt : c.toNat < 97) : c = d := by
  unfold smallForm at h
  split at h
  · simp only [List.mem_cons, List.not_mem_nil, or_false] at h
    rcases h with rfl | rfl
    all_goals exact absurd hlt (by decide)
  · rw [List.mem_singleton] at h
    have hruns : ∀ run ∈ capitalRuns, 97 ≤ run.2.2.2 := by decide +kernel
    rcases smallCode_eq_or_le capitalRuns hruns d.toNat with hsame | hsmall
    · rw [h, hsame, Char.ofNat_toNat]
    · rw [h] at hpos hlt
      rcases toNat_ofNat_cases (smallCode capitalRuns d.toNat) with hcode | hcode
      · omega
      · omega

theorem mem_of_mem_lowerAfter {s before : Text} {c : Char} (h : c ∈ lowerAfter before s)
    (hpos : 0 < c.toNat) (hlt : c.toNat < 97) : c ∈ s := by
  induction s generalizing before with
  | nil => exact h
  | cons d rest ih =>
    rw [lowerAfter] at h
    rcases List.mem_append.1 h with h | h
    · have hsigma : ∀ final, c ≠ if final = true then 'ς' else 'σ' := by
        rintro (_ | _) rfl
        · exact absurd hlt (by decide)
        · exact absurd hlt (by decide)
      split at h
      · exact absurd (List.mem_singleton.1 h) (hsigma _)
      · rw [eq_of_mem_smallForm h hpos hlt]
        exact List.mem_cons_self
    · exact List.mem_cons_of_mem d (ih h)

theorem mem_of_mem_lower {s : Text} {c : Char} (h : c ∈ lower s) (hpos : 0 < c.toNat)
    (hlt : c.toNat < 97) : c ∈ s := mem_of_mem_lowerAfter h hpos hlt

end Text

namespace FilePath

structure IsStep (s : Text) : Prop where
  ne_nil : s ≠ []
  ne_point : s ≠ ['.']
  ne_up : s ≠ upStep
  slash : '/' ∉ s

theorem walk_of_isStep {s : Text} (h : IsStep s) (done : List Text) : walk done s = s :: done := by
  unfold walk
  rw [if_neg (not_or.2 ⟨h.ne_nil, h.ne_point⟩), if_neg h.ne_up]

theorem foldl_walk {steps : List Text} (h : ∀ s ∈ steps, IsStep s) (done : List Text) :
    steps.foldl walk done = steps.reverse ++ done := by
  induction steps generalizing done with
  | nil => rfl
  | cons s rest ih =>
    obtain ⟨hs, hrest⟩ := List.forall_mem_cons.1 h
    rw [List.foldl_cons, walk_of_isStep hs, ih hrest, List.reverse_cons, List.append_assoc,
      List.singleton_append]

theorem isAbsolute_joinWith {s : Text} {rest : List Text} (h : IsStep s) :
    isAbsolute (Text.joinWith ['/'] (s :: rest)) = false := by
  obtain ⟨hne, -, -, hslash⟩ := h
  cases s with
  | nil => exact absurd rfl hne
  | cons c s =>
    have hc : c ≠ '/' := fun hc => hslash (hc ▸ List.mem_cons_self)
    cases rest with
    | nil => simp [isAbsolute, Text.joinWith, hc]
    | cons t rest => simp [isAbsolute, Text.joinWith, hc]

theorem tidy_joinWith {steps : List Text} (hne : steps ≠ []) (h : ∀ s ∈ steps, IsStep s) :
    tidy (Text.joinWith ['/'] steps) = Text.joinWith ['/'] steps := by
  have hdirect : directSteps (Text.joinWith ['/'] steps) = steps := by
    rw [directSteps, Text.splitOn_joinWith hne fun s hs => (h s hs).slash, foldl_walk h,
      List.append_nil, List.reverse_reverse]
  cases steps with
  | nil => exact absurd rfl hne
  | cons s rest =>
    rw [tidy, hdirect, isAbsolute_joinWith (h s List.mem_cons_self)]
    rfl

end FilePath

namespace Journal
namespace Call

def folder (c : Call) : Text := c.component.getD []

/-- The name holds no point and no slash, and the component is one step of a path. -/
structure IsPlain (c : Call) : Prop where
  name_point : '.' ∉ c.name
  name_slash : '/' ∉ c.name
  folder_slash : '/' ∉ c.folder
  folder_ne_point : c.folder ≠ ['.']
  folder_ne_up : c.folder ≠ FilePath.upStep

instance (c : Call) : Decidable c.IsPlain :=
  decidable_of_iff ('.' ∉ c.name ∧ '/' ∉ c.name ∧ '/' ∉ c.folder ∧ c.folder ≠ ['.'] ∧
    c.folder ≠ FilePath.upStep)
    ⟨fun ⟨h, h', h₁, h₂, h₃⟩ => ⟨h, h', h₁, h₂, h₃⟩, fun ⟨h, h', h₁, h₂, h₃⟩ => ⟨h, h', h₁, h₂, h₃⟩⟩

def file (c : Call) : Text := Text.lower c.name ++ ".log".toList

def steps (c : Call) : List Text := if c.folder = [] then [c.file] else [c.folder, c.file]

theorem key_eq (c : Call) :
    c.key = if c.folder = [] then c.name else c.folder ++ '.' :: c.name := by
  obtain ⟨name, _ | _ | ⟨a, rest⟩⟩ := c
  · rfl
  · rfl
  · rfl

section Plain
variable {c d : Call}

theorem isStep_file (h : c.IsPlain) : FilePath.IsStep c.file := by
  have hlength : 4 ≤ c.file.length := by
    rw [file, List.length_append]
    exact Nat.le_add_left 4 _
  refine ⟨?_, ?_, ?_, ?_⟩
  · exact fun hnil => absurd (hnil ▸ hlength) (by decide)
  · exact fun hpoint => absurd (hpoint ▸ hlength) (by decide)
  · exact fun hup => absurd (hup ▸ hlength) (by decide)
  · intro hmem
    rcases List.mem_append.1 hmem with hname | hending
    · exact h.name_slash (Text.mem_of_mem_lower hname (by decide) (by decide))
    · exact absurd hending (by decide)

theorem isStep_of_mem_steps (h : c.IsPlain) : ∀ s ∈ c.steps, FilePath.IsStep s := by
  unfold steps
  split
  · exact List.forall_mem_singleton.2 (isStep_file h)
  · next hne =>
    have hfolder : FilePath.IsStep c.folder := ⟨hne, h.folder_ne_point, h.folder_ne_up, h.folder_slash⟩
    exact List.forall_mem_cons.2 ⟨hfolder, List.forall_mem_singleton.2 (isStep_file h)⟩

theorem steps_ne_nil (c : Call) : c.steps ≠ [] := by
  unfold steps
  split
  · exact List.cons_ne_nil _ _
  · exact List.cons_ne_nil _ _

theorem ownPath_eq (h : c.IsPlain) :
    ownPath c.name c.component = Text.joinWith ['/'] c.steps := by
  have hrelative : FilePath.isAbsolute c.file = false :=
    @FilePath.isAbsolute_joinWith c.file [] (isStep_file h)
  obtain ⟨name, _ | _ | ⟨a, rest⟩⟩ := c
  · rfl
  · rfl
  · show (if FilePath.isAbsolute _ = true then _ else _) = _
    rw [file] at hrelative
    rw [hrelative]
    show _ ++ _ = _ ++ _ ++ _
    rw [List.append_assoc]
    rfl

theorem ownFile_eq (h : c.IsPlain) : c.ownFile = Text.joinWith ['/'] c.steps := by
  rw [ownFile, Journal.ownFile, ownPath_eq h,
    FilePath.tidy_joinWith c.steps_ne_nil (isStep_of_mem_steps h)]

theorem key_eq_iff (hc : c.IsPlain) (hd : d.IsPlain) :
    c.key = d.key ↔ c.folder = d.folder ∧ c.name = d.name := by
  rw [key_eq, key_eq]
  split
  · next hcnil =>
    split
    · next hdnil => rw [hcnil, hdnil, and_iff_right rfl]
    · next hdne =>
      refine iff_of_false ?_ fun h => hdne (h.1 ▸ hcnil)
      intro hkey
      exact hc.name_point (hkey ▸ List.mem_append_right _ List.mem_cons_self)
  · next hcne =>
    split
    · next hdnil =>
      refine iff_of_false ?_ fun h => hcne (h.1 ▸ hdnil)
      intro hkey
      exact hd.name_point (hkey ▸ List.mem_append_right _ List.mem_cons_self)
    · constructor
      · intro hkey
        -- The component may hold points too: the last piece is the name, the others make the component.
        have hpieces := congrArg (Text.splitOn '.') hkey
        rw [Text.splitOn_append_cons, Text.splitOn_append_cons, Text.splitOn_of_not_mem hc.name_point,
          Text.splitOn_of_not_mem hd.name_point] at hpieces
        obtain ⟨hfolder, hname⟩ := List.append_inj' hpieces rfl
        have hjoined := congrArg (Text.joinWith ['.']) hfolder
        rw [Text.joinWith_splitOn, Text.joinWith_splitOn] at hjoined
        exact ⟨hjoined, List.head_eq_of_cons_eq hname⟩
      · rintro ⟨hfolder, hname⟩
        rw [hfolder, hname]

theorem steps_eq_iff : c.steps = d.steps ↔ c.folder = d.folder ∧ c.file = d.file := by
  unfold steps
  by_cases hc : c.folder = []
  · by_cases hd : d.folder = []
    · rw [if_pos hc, if_pos hd, hc, hd, List.cons.injEq, and_iff_left rfl, and_iff_right rfl]
    · rw [if_pos hc, if_neg hd]
      refine iff_of_false (fun h => ?_) fun h => hd (h.1 ▸ hc)
      exact nomatch (List.cons.inj h).2
  · by_cases hd : d.folder = []
    · rw [if_neg hc, if_pos hd]
      refine iff_of_false (fun h => ?_) fun h => hc (h.1 ▸ hd)
      exact nomatch (List.cons.inj h).2
    · rw [if_neg hc, if_neg hd, List.cons.injEq, List.cons.injEq, and_iff_left rfl]

theorem ownFile_eq_iff (hc : c.IsPlain) (hd : d.IsPlain) :
    c.ownFile = d.ownFile ↔ c.folder = d.folder ∧ Text.lower c.name = Text.lower d.name := by
  have hfile : c.file = d.file ↔ Text.lower c.name = Text.lower d.name := List.append_left_inj _
  rw [ownFile_eq hc, ownFile_eq hd, ← hfile, ← steps_eq_iff]
  constructor
  · intro hpath
    have hsteps := congrArg (Text.splitOn '/') hpath
    rwa [Text.splitOn_joinWith c.steps_ne_nil fun s hs => (isStep_of_mem_steps hc s hs).slash,
      Text.splitOn_joinWith d.steps_ne_nil fun s hs => (isStep_of_mem_steps hd s hs).slash] at hsteps
  · intro hsteps
    rw [hsteps]

end Plain
end Call
end Journal
end FindQuery
