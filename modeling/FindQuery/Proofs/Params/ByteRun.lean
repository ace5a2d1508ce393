import FindQuery.Proofs.Outcome
import FindQuery.Proofs.Params.Utf8
import FindQuery.Proofs.Text

/-! Runs of bytes. -/

namespace FindQuery

namespace Utf8

def IsWellFormed (bytes : List Nat) : Prop := ∃ s : Text, bytes = s.flatMap encode

theorem length_encode_pos (c : Char) : 0 < (encode c).length := by
  unfold encode
  simp only
  split
  · exact Nat.succ_pos _
  · split
    · exact Nat.succ_pos _
    · split
      · exact Nat.succ_pos _
      · exact Nat.succ_pos _

theorem first_eq_ok {b : Nat} {outcome : Option Char × State} (h : first b = .ok outcome) :
    (b < 0x80 ∧ outcome = (some (Char.ofNat b), .between)) ∨
      (0xC2 ≤ b ∧ b < 0xE0 ∧ outcome = (none, .inside 1 0x80 0xBF (b - 0xC0))) ∨
      (0xE0 ≤ b ∧ b < 0xF0 ∧ outcome = (none, .inside 2 (if b = 0xE0 then 0xA0 else 0x80)
        (if b = 0xED then 0x9F else 0xBF) (b - 0xE0))) ∨
      (0xF0 ≤ b ∧ b < 0xF5 ∧ outcome = (none, .inside 3 (if b = 0xF0 then 0x90 else 0x80)
        (if b = 0xF4 then 0x8F else 0xBF) (b - 0xF0))) := by
  unfold first at h
  split at h
  · next hb => exact .inl ⟨hb, (Except.ok.inj h).symm⟩
  · split at h
    · exact nomatch h
    · next hb =>
      split at h
      · next hb' => exact .inr (.inl ⟨Nat.le_of_not_lt hb, hb', (Except.ok.inj h).symm⟩)
      · next hb =>
        split at h
        · next hb' => exact .inr (.inr (.inl ⟨Nat.le_of_not_lt hb, hb', (Except.ok.inj h).symm⟩))
        · next hb =>
          split at h
          · next hb' => exact .inr (.inr (.inr ⟨Nat.le_of_not_lt hb, hb', (Except.ok.inj h).symm⟩))
          · exact nomatch h

section Encoding
variable {a b c d : Nat}

theorem encode_ofNat_one (h : a < 0x80) : encode (Char.ofNat a) = [a] := by
  have hvalid : a.isValidChar := .inl (by omega)
  rw [encode, Text.toNat_ofNat hvalid]
  exact if_pos h

theorem encode_ofNat_two (ha : 0xC2 ≤ a) (ha' : a < 0xE0) (hb : 0x80 ≤ b) (hb' : b ≤ 0xBF) :
    encode (Char.ofNat ((a - 0xC0) * 64 + (b - 0x80))) = [a, b] := by
  have hvalid : Nat.isValidChar ((a - 0xC0) * 64 + (b - 0x80)) := .inl (by omega)
  rw [encode, Text.toNat_ofNat hvalid]
  rw [if_neg (by omega), if_pos (by omega)]
  simp only [List.cons.injEq, and_true]
  omega

theorem encode_ofNat_three (ha : 0xE0 ≤ a) (ha' : a < 0xF0) (hb : (if a = 0xE0 then 0xA0 else 0x80) ≤ b)
    (hb' : b ≤ if a = 0xED then 0x9F else 0xBF) (hc : 0x80 ≤ c) (hc' : c ≤ 0xBF) :
    encode (Char.ofNat (((a - 0xE0) * 64 + (b - 0x80)) * 64 + (c - 0x80))) = [a, b, c] := by
  have hvalid : Nat.isValidChar (((a - 0xE0) * 64 + (b - 0x80)) * 64 + (c - 0x80)) := by
    unfold Nat.isValidChar
    split at hb' <;> omega
  rw [encode, Text.toNat_ofNat hvalid]
  have hlong : 0x800 ≤ ((a - 0xE0) * 64 + (b - 0x80)) * 64 + (c - 0x80) := by
    split at hb <;> omega
  have hcont : 0x80 ≤ b ∧ b ≤ 0xBF := by
    split at hb <;> split at hb' <;> omega
  rw [if_neg (by omega), if_neg (by omega), if_pos (by omega)]
  simp only [List.cons.injEq, and_true]
  omega

theorem encode_ofNat_four (ha : 0xF0 ≤ a) (ha' : a < 0xF5) (hb : (if a = 0xF0 then 0x90 else 0x80) ≤ b)
    (hb' : b ≤ if a = 0xF4 then 0x8F else 0xBF) (hc : 0x80 ≤ c) (hc' : c ≤ 0xBF) (hd : 0x80 ≤ d)
    (hd' : d ≤ 0xBF) :
    encode (Char.ofNat ((((a - 0xF0) * 64 + (b - 0x80)) * 64 + (c - 0x80)) * 64 + (d - 0x80))) =
      [a, b, c, d] := by
  have hcont : 0x80 ≤ b ∧ b ≤ 0xBF := by
    split at hb <;> split at hb' <;> omega
  have hlong : 0x10000 ≤ (((a - 0xF0) * 64 + (b - 0x80)) * 64 + (c - 0x80)) * 64 + (d - 0x80) := by
    split at hb <;> omega
  have hlast : (((a - 0xF0) * 64 + (b - 0x80)) * 64 + (c - 0x80)) * 64 + (d - 0x80) < 0x110000 := by
    split at hb' <;> omega
  have hvalid : Nat.isValidChar
      ((((a - 0xF0) * 64 + (b - 0x80)) * 64 + (c - 0x80)) * 64 + (d - 0x80)) :=
    .inr ⟨by omega, hlast⟩
  rw [encode, Text.toNat_ofNat hvalid]
  rw [if_neg (by omega), if_neg (by omega), if_neg (by omega)]
  simp only [List.cons.injEq, and_true]
  omega

end Encoding

end Utf8

namespace Escape
open Utf8

def EndsRun (rest : List Piece) : Prop := ∀ n more, rest ≠ .byte n :: more

theorem endsRun_nil : EndsRun [] := by
  intro n more h
  cases h

theorem endsRun_wide (c : Char) (rest : List Piece) : EndsRun (.wide c :: rest) := by
  intro n more h
  cases h

variable {bytes : List Nat} {rest : List Piece} {s : Text}

theorem exists_byte_of_inside {owed low high code : Nat} (hrest : EndsRun rest)
    (h : decodePieces (.inside owed low high code) (bytes.map .byte ++ rest) = .ok s) :
    ∃ b more, bytes = b :: more ∧ low ≤ b ∧ b ≤ high := by
  cases bytes with
  | nil =>
    rw [List.map_nil, List.nil_append] at h
    cases rest with
    | nil => cases h
    | cons p more =>
      cases p with
      | byte n => exact absurd rfl (hrest n more)
      | wide c => cases h
  | cons b more =>
    by_cases hbounds : low ≤ b ∧ b ≤ high
    · exact ⟨b, more, rfl, hbounds⟩
    · have hstep : step (.inside owed low high code) b = .error .badContinuation := if_neg hbounds
      rw [List.map_cons, List.cons_append, decodePieces, hstep] at h
      cases h

theorem decode_inner {owed low high code : Nat} (howed : owed ≠ 1) (hrest : EndsRun rest)
    (h : decodePieces (.inside owed low high code) (bytes.map .byte ++ rest) = .ok s) :
    ∃ b more, bytes = b :: more ∧ low ≤ b ∧ b ≤ high ∧
      decodePieces (.inside (owed - 1) 0x80 0xBF (code * 64 + (b - 0x80))) (more.map .byte ++ rest) =
        .ok s := by
  obtain ⟨b, more, rfl, hlow, hhigh⟩ := exists_byte_of_inside hrest h
  rw [List.map_cons, List.cons_append, decodePieces_inner hlow hhigh howed] at h
  exact ⟨b, more, rfl, hlow, hhigh, h⟩

theorem decode_last {low high code : Nat} (hrest : EndsRun rest)
    (h : decodePieces (.inside 1 low high code) (bytes.map .byte ++ rest) = .ok s) :
    ∃ b more, bytes = b :: more ∧ low ≤ b ∧ b ≤ high ∧
      ∃ t, decodePieces .between (more.map .byte ++ rest) = .ok t ∧
        s = Char.ofNat (code * 64 + (b - 0x80)) :: t := by
  obtain ⟨b, more, rfl, hlow, hhigh⟩ := exists_byte_of_inside hrest h
  rw [List.map_cons, List.cons_append, decodePieces_last hlow hhigh] at h
  obtain ⟨t, ht, rfl⟩ := map_eq_ok.1 h
  exact ⟨b, more, rfl, hlow, hhigh, t, ht, rfl⟩

theorem exists_char_of_decode {b : Nat} (hrest : EndsRun rest)
    (h : decodePieces .between ((b :: bytes).map .byte ++ rest) = .ok s) :
    ∃ c more t, b :: bytes = encode c ++ more ∧
      decodePieces .between (more.map .byte ++ rest) = .ok t ∧ s = c :: t := by
  rw [List.map_cons, List.cons_append] at h
  cases hfirst : first b with
  | error fault =>
    have hstep : step .between b = .error fault := hfirst
    rw [decodePieces, hstep] at h
    cases h
  | ok outcome =>
    rcases first_eq_ok hfirst with ⟨hb, rfl⟩ | ⟨hb, hb', rfl⟩ | ⟨hb, hb', rfl⟩ | ⟨hb, hb', rfl⟩
    · have hstep : step .between b = .ok (some (Char.ofNat b), .between) := hfirst
      rw [decodePieces_byte hstep] at h
      obtain ⟨t, ht, rfl⟩ := map_eq_ok.1 h
      exact ⟨Char.ofNat b, bytes, t, by rw [encode_ofNat_one hb]; rfl, ht, rfl⟩
    · rw [decodePieces_lead hfirst] at h
      obtain ⟨x, more, rfl, hx, hx', t, ht, rfl⟩ := decode_last hrest h
      refine ⟨_, more, t, ?_, ht, rfl⟩
      rw [encode_ofNat_two hb hb' hx hx']
      rfl
    · rw [decodePieces_lead hfirst] at h
      obtain ⟨x, more, rfl, hx, hx', h⟩ := decode_inner (by decide) hrest h
      obtain ⟨y, more, rfl, hy, hy', t, ht, rfl⟩ := decode_last hrest h
      refine ⟨_, more, t, ?_, ht, rfl⟩
      rw [encode_ofNat_three hb hb' hx hx' hy hy']
      rfl
    · rw [decodePieces_lead hfirst] at h
      obtain ⟨x, more, rfl, hx, hx', h⟩ := decode_inner (by decide) hrest h
      obtain ⟨y, more, rfl, hy, hy', h⟩ := decode_inner (by decide) hrest h
      obtain ⟨z, more, rfl, hz, hz', t, ht, rfl⟩ := decode_last hrest h
      refine ⟨_, more, t, ?_, ht, rfl⟩
      rw [encode_ofNat_four hb hb' hx hx' hy hy' hz hz']
      rfl

theorem decodePieces_flatMap_encode (cs : Text) (rest : List Piece) :
    decodePieces .between ((cs.flatMap encode).map .byte ++ rest) =
      (decodePieces .between rest).map (cs ++ ·) := by
  induction cs with
  | nil => cases h : decodePieces .between rest <;> simp [h, Except.map]
  | cons c cs ih =>
    rw [List.flatMap_cons, List.map_append, List.append_assoc, decodePieces_encode, ih]
    cases decodePieces .between rest <;> rfl

theorem isWellFormed_of_decode (hrest : EndsRun rest)
    (h : decodePieces .between (bytes.map .byte ++ rest) = .ok s) : IsWellFormed bytes := by
  induction hn : bytes.length using Nat.strongRecOn generalizing bytes s with
  | ind n ih =>
    subst hn
    cases bytes with
    | nil => exact ⟨[], rfl⟩
    | cons b bytes =>
      obtain ⟨c, more, t, hbytes, ht, -⟩ := exists_char_of_decode hrest h
      have hshorter : more.length < (b :: bytes).length := by
        rw [hbytes, List.length_append]
        exact Nat.lt_add_of_pos_left (length_encode_pos c)
      obtain ⟨cs, rfl⟩ := ih more.length hshorter ht rfl
      exact ⟨c :: cs, by rw [hbytes, List.flatMap_cons]⟩

theorem fails_decodePieces_run (hrest : EndsRun rest) :
    Fails (decodePieces .between (bytes.map .byte ++ rest)) ↔
      ¬ IsWellFormed bytes ∨ Fails (decodePieces .between rest) := by
  by_cases h : IsWellFormed bytes
  · rw [or_iff_right (not_not_intro h)]
    obtain ⟨cs, rfl⟩ := h
    rw [decodePieces_flatMap_encode, fails_map]
  · refine iff_of_true ?_ (.inl h)
    cases hs : decodePieces .between (bytes.map .byte ++ rest) with
    | error fault => exact ⟨fault, rfl⟩
    | ok s => exact absurd (isWellFormed_of_decode hrest hs) h

theorem isWellFormed_iff : IsWellFormed bytes ↔
    (decodePieces .between (bytes.map .byte)).isOk = true := by
  have hnil : ¬ Fails (decodePieces .between []) := not_fails_ok []
  have hrun : Fails (decodePieces .between (bytes.map .byte ++ [])) ↔ ¬ IsWellFormed bytes := by
    rw [fails_decodePieces_run endsRun_nil, or_iff_left hnil]
  rw [List.append_nil] at hrun
  cases hdecode : decodePieces .between (bytes.map .byte) with
  | error fault =>
    rw [hdecode] at hrun
    exact iff_of_false (hrun.1 ⟨fault, rfl⟩) Bool.noConfusion
  | ok s =>
    rw [hdecode] at hrun
    exact iff_of_true (Classical.not_not.1 (mt hrun.2 (not_fails_ok s))) rfl

instance : Decidable (IsWellFormed bytes) := decidable_of_iff _ isWellFormed_iff.symm

example : ¬ IsWellFormed [0xC0, 0x80] ∧ ¬ IsWellFormed [0xED, 0xA0, 0x80] ∧
    ¬ IsWellFormed [0xF4, 0x90, 0x80, 0x80] := by
  decide

end Escape
end FindQuery
