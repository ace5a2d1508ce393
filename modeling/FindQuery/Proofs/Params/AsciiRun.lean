import FindQuery.Proofs.Params.ByteRun
import FindQuery.Proofs.Params.Malformed

/-! Runs of ASCII characters in a text with escapes. -/

namespace FindQuery.Escape
open Query (IsHexDigit)

inductive Spells : Text → List Nat → Prop
  | nil : Spells [] []
  | escape {m n : Nat} {x y : Char} {s : Text} {bytes : List Nat} :
      IsHexDigit m x → IsHexDigit n y → Spells s bytes →
      Spells ('%' :: x :: y :: s) ((m * 16 + n) :: bytes)
  | plain {c : Char} {s : Text} {bytes : List Nat} :
      c ≠ '%' → Spells s bytes → Spells (c :: s) (c.toNat :: bytes)

def asciiRuns (s : Text) : List Text := s.splitOnP fun c => 128 ≤ c.toNat

def IsIllFormed (run : Text) : Prop := ∃ bytes, Spells run bytes ∧ ¬ Utf8.IsWellFormed bytes

def HasIllFormedRun (s : Text) : Prop := ∃ run ∈ asciiRuns s, IsIllFormed run

section Runs
variable {run rest : Text} {bytes : List Nat}

theorem exists_spells {s : Text} (h : ¬ HasBadEscape s) : ∃ bytes, Spells s bytes := by
  rw [← malformed?_eq_none_iff] at h
  induction s using pieces.induct with
  | case1 => exact ⟨[], .nil⟩
  | case2 x y rest b hbyte ih =>
    obtain ⟨m, n, hx, hy, -⟩ := byte?_eq_some_iff.1 hbyte
    rw [malformed?, hbyte, Option.isSome_some, if_pos rfl, Query.malformed?_cons_of_ne (ne_percent hx),
      Query.malformed?_cons_of_ne (ne_percent hy)] at h
    obtain ⟨bytes, hbytes⟩ := ih h
    exact ⟨_, .escape hx hy hbytes⟩
  | case3 x y rest hbyte ih =>
    rw [malformed?, hbyte] at h
    cases h
  | case4 c rest hc ih =>
    have hgood : ¬ IsBad (c :: rest) := by
      intro hbad
      rw [malformed?_of_isBad hbad] at h
      cases h
    have hne : c ≠ '%' := by
      rintro rfl
      refine hgood ⟨rest, rfl, ?_⟩
      rintro ⟨x, y, more, m, n, rfl, -⟩
      exact hc x y more rfl rfl
    rw [malformed?_of_not_isBad hgood] at h
    obtain ⟨bytes, hbytes⟩ := ih h
    exact ⟨_, .plain hne hbytes⟩

theorem Spells.pieces_append (h : Spells run bytes) (hascii : ∀ c ∈ run, c.toNat < 128)
    (rest : Text) : pieces (run ++ rest) = bytes.map .byte ++ pieces rest := by
  induction h with
  | nil => rfl
  | @escape m n x y s bytes hx hy _ ih =>
    have hs : ∀ c ∈ s, c.toNat < 128 := fun c hc => hascii c (by simp [hc])
    have hbyte := byte?_eq_some_iff.2 ⟨m, n, hx, hy, rfl⟩
    simp only [List.cons_append, List.map_cons]
    rw [pieces, hbyte]
    exact congrArg _ (ih hs)
  | @plain c s bytes hc _ ih =>
    obtain ⟨hcascii, hs⟩ := List.forall_mem_cons.1 hascii
    rw [List.cons_append, Query.pieces_cons_of_ne hc, plainPiece, if_pos hcascii, ih hs]
    rfl

theorem ne_percent_of_wide {c : Char} (h : 128 ≤ c.toNat) : c ≠ '%' := by
  rintro rfl
  exact absurd h (by decide)

theorem ascii_or_exists_wide (s : Text) : (∀ c ∈ s, c.toNat < 128) ∨
    ∃ run c rest, s = run ++ c :: rest ∧ (∀ x ∈ run, x.toNat < 128) ∧ 128 ≤ c.toNat := by
  induction s with
  | nil => exact .inl nofun
  | cons c s ih =>
    by_cases hc : c.toNat < 128
    · rcases ih with hs | ⟨run, x, rest, rfl, hrun, hx⟩
      · exact .inl (List.forall_mem_cons.2 ⟨hc, hs⟩)
      · exact .inr ⟨c :: run, x, rest, rfl, List.forall_mem_cons.2 ⟨hc, hrun⟩, hx⟩
    · exact .inr ⟨[], c, s, rfl, nofun, Nat.le_of_not_lt hc⟩

theorem not_wide (h : ∀ c ∈ run, c.toNat < 128) : ∀ c ∈ run, decide (128 ≤ c.toNat) = false :=
  fun c hc => decide_eq_false (Nat.not_le.2 (h c hc))

theorem asciiRuns_of_ascii (h : ∀ c ∈ run, c.toNat < 128) : asciiRuns run = [run] :=
  List.splitOnP_eq_singleton (not_wide h)

theorem asciiRuns_append_cons (h : ∀ c ∈ run, c.toNat < 128) {c : Char} (hc : 128 ≤ c.toNat)
    (rest : Text) : asciiRuns (run ++ c :: rest) = run :: asciiRuns rest :=
  List.splitOnP_append_cons_of_forall_mem (not_wide h) c (decide_eq_true hc) rest

theorem Spells.isIllFormed_iff (h : Spells run bytes) (hascii : ∀ c ∈ run, c.toNat < 128) :
    IsIllFormed run ↔ ¬ Utf8.IsWellFormed bytes := by
  refine ⟨?_, fun hill => ⟨bytes, h, hill⟩⟩
  rintro ⟨bytes', h', hill⟩
  have hmap : bytes.map Piece.byte = bytes'.map Piece.byte :=
    List.append_cancel_right ((h.pieces_append hascii []).symm.trans (h'.pieces_append hascii []))
  rw [(List.map_inj_right fun _ _ heq => Piece.byte.inj heq).1 hmap]
  exact hill

theorem fails_decode_run (h : ¬ HasBadEscape run) (hascii : ∀ c ∈ run, c.toNat < 128) :
    Fails (decode run) ↔ IsIllFormed run := by
  obtain ⟨bytes, hbytes⟩ := exists_spells h
  have hends : EndsRun (pieces []) := endsRun_nil
  have hpieces := hbytes.pieces_append hascii []
  rw [List.append_nil] at hpieces
  rw [hbytes.isIllFormed_iff hascii, decode, hpieces, fails_decodePieces_run hends]
  exact or_iff_left (not_fails_ok _)

theorem fails_decode_append_cons (h : ¬ HasBadEscape run) (hascii : ∀ c ∈ run, c.toNat < 128)
    {c : Char} (hc : 128 ≤ c.toNat) (rest : Text) :
    Fails (decode (run ++ c :: rest)) ↔ IsIllFormed run ∨ Fails (decode rest) := by
  obtain ⟨bytes, hbytes⟩ := exists_spells h
  have hpieces : pieces (c :: rest) = .wide c :: pieces rest := by
    rw [Query.pieces_cons_of_ne (ne_percent_of_wide hc), plainPiece, if_neg (Nat.not_lt.2 hc)]
  have hwide : Fails (decodePieces .between (.wide c :: pieces rest)) ↔ Fails (decode rest) :=
    fails_bind_pure
  rw [decode, hbytes.pieces_append hascii, hpieces, fails_decodePieces_run (endsRun_wide c _), hwide,
    hbytes.isIllFormed_iff hascii]

theorem fails_decode_iff {s : Text} (h : ¬ HasBadEscape s) :
    Fails (decode s) ↔ HasIllFormedRun s := by
  induction hn : s.length using Nat.strongRecOn generalizing s with
  | ind n ih =>
    subst hn
    rcases ascii_or_exists_wide s with hascii | ⟨run, c, rest, rfl, hascii, hc⟩
    · rw [HasIllFormedRun, asciiRuns_of_ascii hascii, fails_decode_run h hascii]
      simp only [List.mem_singleton, exists_eq_left]
    · rw [hasBadEscape_append_cons (hexValue?_eq_none_of_wide hc) rest (ne_percent_of_wide hc),
        not_or] at h
      have hshorter : rest.length < (run ++ c :: rest).length := by
        rw [List.length_append, List.length_cons]
        omega
      rw [HasIllFormedRun, asciiRuns_append_cons hascii hc, fails_decode_append_cons h.1 hascii hc,
        ih rest.length hshorter h.2 rfl, HasIllFormedRun]
      simp only [List.mem_cons, exists_eq_or_imp]

end Runs

section Exchange

def Alike (p q : Piece) : Prop := p = q ∨ ∃ m n, p = .byte m ∧ q = .byte n ∧ m < 128 ∧ n < 128

def OwesNoAscii : Utf8.State → Prop
  | .between => True
  | .inside _ low _ _ => 128 ≤ low

theorem owesNoAscii_between : OwesNoAscii .between := trivial

theorem owesNoAscii_of_step {state state' : Utf8.State} {b : Nat} {c? : Option Char}
    (h : Utf8.step state b = .ok (c?, state')) : OwesNoAscii state' := by
  cases state with
  | between =>
    rcases Utf8.first_eq_ok h with ⟨-, heq⟩ | ⟨-, -, heq⟩ | ⟨-, -, heq⟩ | ⟨-, -, heq⟩
    · rw [(Prod.mk.inj heq).2]
      trivial
    · rw [(Prod.mk.inj heq).2]
      exact Nat.le_refl 128
    · rw [(Prod.mk.inj heq).2, OwesNoAscii]
      split <;> decide
    · rw [(Prod.mk.inj heq).2, OwesNoAscii]
      split <;> decide
  | inside owed low high code =>
    unfold Utf8.step at h
    simp only at h
    split at h
    · split at h
      · rw [← (Prod.mk.inj (Except.ok.inj h)).2]
        trivial
      · rw [← (Prod.mk.inj (Except.ok.inj h)).2]
        exact Nat.le_refl 128
    · exact nomatch h

theorem fails_decodePieces_byte {state : Utf8.State} {b : Nat} {rest : List Piece} :
    Fails (decodePieces state (.byte b :: rest)) ↔ Fails (Utf8.step state b) ∨
      ∃ next, Utf8.step state b = .ok next ∧ Fails (decodePieces next.2 rest) := by
  rw [decodePieces, fails_bind]
  simp only [fails_bind_pure]

theorem fails_decodePieces_wide {state : Utf8.State} {c : Char} {rest : List Piece} :
    Fails (decodePieces state (.wide c :: rest)) ↔
      Fails state.close ∨ Fails (decodePieces .between rest) := by
  rw [decodePieces]
  exact fails_bind_of_forall fun _ => fails_bind_pure

theorem fails_decodePieces_congr {ps qs : List Piece} (h : List.Forall₂ Alike ps qs)
    {state : Utf8.State} (hstate : OwesNoAscii state) :
    Fails (decodePieces state ps) ↔ Fails (decodePieces state qs) := by
  induction h generalizing state with
  | nil => exact Iff.rfl
  | @cons p q ps qs hpq _ ih =>
    rcases hpq with rfl | ⟨m, n, rfl, rfl, hm, hn⟩
    · cases p with
      | byte b =>
        rw [fails_decodePieces_byte, fails_decodePieces_byte]
        refine or_congr_right (exists_congr fun next => and_congr_right fun hstep => ?_)
        exact ih (owesNoAscii_of_step hstep)
      | wide c => rw [fails_decodePieces_wide, fails_decodePieces_wide, ih owesNoAscii_between]
    · rw [fails_decodePieces_byte, fails_decodePieces_byte]
      cases state with
      | between =>
        have hstep {k : Nat} (hk : k < 128) :
            Utf8.step .between k = .ok (some (Char.ofNat k), .between) := if_pos hk
        rw [hstep hm, hstep hn, or_iff_right (not_fails_ok _), or_iff_right (not_fails_ok _)]
        simp only [Except.ok.injEq, exists_eq_left', ih owesNoAscii_between]
      | inside owed low high code =>
        have hstep {k : Nat} (hk : k < 128) :
            Utf8.step (.inside owed low high code) k = .error .badContinuation :=
          if_neg fun hbounds => Nat.not_lt.2 (Nat.le_trans hstate hbounds.1) hk
        rw [hstep hm, hstep hn]
        exact iff_of_true (.inl ⟨_, rfl⟩) (.inl ⟨_, rfl⟩)

theorem hexValue?_plusToSpace (c : Char) : hexValue? (if c = '+' then ' ' else c) = hexValue? c := by
  split
  · next hc =>
    rw [hc]
    decide
  · rfl

theorem alike_plainPiece (c : Char) :
    Alike (plainPiece c) (plainPiece (if c = '+' then ' ' else c)) := by
  split
  · next hc =>
    rw [hc]
    exact .inr ⟨43, 32, rfl, rfl, by decide, by decide⟩
  · exact .inl rfl

theorem alike_plusToSpace (s : Text) :
    List.Forall₂ Alike (pieces s) (pieces (Query.plusToSpace s)) := by
  have hbyte (x y : Char) :
      byte? (if x = '+' then ' ' else x) (if y = '+' then ' ' else y) = byte? x y := by
    rw [byte?, hexValue?_plusToSpace, hexValue?_plusToSpace]
    rfl
  have hpercent (x y : Char) (rest : Text) : Query.plusToSpace ('%' :: x :: y :: rest) =
      '%' :: (if x = '+' then ' ' else x) :: (if y = '+' then ' ' else y) :: Query.plusToSpace rest := rfl
  induction s using pieces.induct with
  | case1 => exact .nil
  | case2 x y rest b hxy ih =>
    rw [hpercent, pieces, hxy, pieces, hbyte, hxy]
    exact .cons (.inl rfl) ih
  | case3 x y rest hxy ih =>
    rw [hpercent, pieces, hxy, pieces, hbyte, hxy]
    exact .cons (.inl rfl) ih
  | case4 c rest hc ih =>
    have hplus : Query.plusToSpace (c :: rest) =
        (if c = '+' then ' ' else c) :: Query.plusToSpace rest := rfl
    rw [hplus, pieces, pieces]
    · exact .cons (alike_plainPiece c) ih
    · intro x y more hpercent hmore
      split at hpercent
      · exact absurd hpercent (by decide)
      · obtain ⟨x', tail, rfl, -, htail⟩ := List.map_eq_cons_iff.1 hmore
        obtain ⟨y', tail', rfl, -, -⟩ := List.map_eq_cons_iff.1 htail
        exact hc x' y' tail' hpercent rfl
    · exact hc

theorem fails_decode_plusToSpace (s : Text) :
    Fails (decode (Query.plusToSpace s)) ↔ Fails (decode s) :=
  (fails_decodePieces_congr (alike_plusToSpace s) owesNoAscii_between).symm

end Exchange

end FindQuery.Escape
