import FindQuery.Params.Escape

/-! The bytes of a character are decoded to that character. -/

namespace FindQuery.Escape
open Utf8

theorem decodePieces_byte {state state' : State} {b : Nat} {c? : Option Char}
    (h : step state b = .ok (c?, state')) (rest : List Piece) :
    decodePieces state (.byte b :: rest) =
      (decodePieces state' rest).map fun s => c?.toList ++ s := by
  rw [decodePieces, h]
  show (decodePieces state' rest >>= fun s => pure (c?.toList ++ s)) = _
  cases decodePieces state' rest <;> rfl

theorem decodePieces_lead {b : Nat} {owed low high code : Nat}
    (h : first b = .ok (none, .inside owed low high code)) (rest : List Piece) :
    decodePieces .between (.byte b :: rest) =
      decodePieces (.inside owed low high code) rest := by
  have hstep : step .between b = .ok (none, .inside owed low high code) := h
  rw [decodePieces_byte hstep]
  cases decodePieces (.inside owed low high code) rest <;> rfl

theorem decodePieces_inner {owed low high code b : Nat} (hlow : low ≤ b) (hhigh : b ≤ high)
    (howed : owed ≠ 1) (rest : List Piece) :
    decodePieces (.inside owed low high code) (.byte b :: rest) =
      decodePieces (.inside (owed - 1) 0x80 0xBF (code * 64 + (b - 0x80))) rest := by
  have h : step (.inside owed low high code) b =
      .ok (none, .inside (owed - 1) 0x80 0xBF (code * 64 + (b - 0x80))) := by
    simp only [step, if_pos (And.intro hlow hhigh), if_neg howed]
  rw [decodePieces_byte h]
  cases decodePieces (.inside (owed - 1) 0x80 0xBF (code * 64 + (b - 0x80))) rest <;> rfl

theorem decodePieces_last {low high code b : Nat} (hlow : low ≤ b) (hhigh : b ≤ high)
    (rest : List Piece) :
    decodePieces (.inside 1 low high code) (.byte b :: rest) =
      (decodePieces .between rest).map (Char.ofNat (code * 64 + (b - 0x80)) :: ·) := by
  have h : step (.inside 1 low high code) b =
      .ok (some (Char.ofNat (code * 64 + (b - 0x80))), .between) := by
    simp only [step, if_pos (And.intro hlow hhigh), if_true]
  rw [decodePieces_byte h]
  rfl

theorem toNat_valid (c : Char) :
    c.toNat < 0xD800 ∨ (0xDFFF < c.toNat ∧ c.toNat < 0x110000) := c.valid

theorem decodePieces_encode (c : Char) (rest : List Piece) :
    decodePieces .between ((encode c).map .byte ++ rest) =
      (decodePieces .between rest).map (c :: ·) := by
  have hvalid := toNat_valid c
  have hc (n : Nat) (h : n = c.toNat) : Char.ofNat n = c := by
    rw [h, Char.ofNat_toNat]
  unfold encode
  generalize c.toNat = n at hvalid hc
  simp only
  by_cases h₁ : n < 0x80
  · rw [if_pos h₁]
    have hstep : step .between n = .ok (some (Char.ofNat n), .between) := by
      rw [step, first, if_pos h₁]
    rw [List.map_cons, List.map_nil, List.singleton_append, decodePieces_byte hstep, hc n rfl]
    rfl
  · rw [if_neg h₁]
    by_cases h₂ : n < 0x800
    · rw [if_pos h₂]
      have hlead : first (0xC0 + n / 64) = .ok (none, .inside 1 0x80 0xBF (n / 64)) := by
        rw [first, if_neg (by omega), if_neg (by omega), if_pos (by omega), Nat.add_sub_cancel_left]
      simp only [List.map_cons, List.map_nil, List.cons_append, List.nil_append]
      rw [decodePieces_lead hlead, decodePieces_last (by omega) (by omega), hc _ (by omega)]
    · rw [if_neg h₂]
      by_cases h₃ : n < 0x10000
      · rw [if_pos h₃]
        have hlead : first (0xE0 + n / 4096) = .ok (none, .inside 2
            (if 0xE0 + n / 4096 = 0xE0 then 0xA0 else 0x80)
            (if 0xE0 + n / 4096 = 0xED then 0x9F else 0xBF) (n / 4096)) := by
          rw [first, if_neg (by omega), if_neg (by omega), if_neg (by omega), if_pos (by omega),
            Nat.add_sub_cancel_left]
        simp only [List.map_cons, List.map_nil, List.cons_append, List.nil_append]
        -- The bounds of the second byte shut out overlong forms and surrogates.
        have hlow : (if 0xE0 + n / 4096 = 0xE0 then 0xA0 else 0x80) ≤ 0x80 + n / 64 % 64 := by
          split <;> omega
        have hhigh : 0x80 + n / 64 % 64 ≤ (if 0xE0 + n / 4096 = 0xED then 0x9F else 0xBF) := by
          split <;> omega
        rw [decodePieces_lead hlead, decodePieces_inner hlow hhigh (by omega), decodePieces_last (by omega) (by omega),
          hc _ (by omega)]
      · rw [if_neg h₃]
        have hlead : first (0xF0 + n / 262144) = .ok (none, .inside 3
            (if 0xF0 + n / 262144 = 0xF0 then 0x90 else 0x80)
            (if 0xF0 + n / 262144 = 0xF4 then 0x8F else 0xBF) (n / 262144)) := by
          rw [first, if_neg (by omega), if_neg (by omega), if_neg (by omega), if_neg (by omega),
            if_pos (by omega), Nat.add_sub_cancel_left]
        simp only [List.map_cons, List.map_nil, List.cons_append, List.nil_append]
        have hlow : (if 0xF0 + n / 262144 = 0xF0 then 0x90 else 0x80) ≤
            0x80 + n / 4096 % 64 := by
          split <;> omega
        have hhigh : 0x80 + n / 4096 % 64 ≤
            (if 0xF0 + n / 262144 = 0xF4 then 0x8F else 0xBF) := by
          split <;> omega
        rw [decodePieces_lead hlead, decodePieces_inner hlow hhigh (by omega),
          decodePieces_inner (by omega) (by omega) (by omega), decodePieces_last (by omega) (by omega),
          hc _ (by omega)]

end FindQuery.Escape
