import Mathlib.Data.List.Induction
import Mathlib.Data.Nat.Digits.Defs
import FindQuery.Proofs.Numeral.Decimal
import FindQuery.Proofs.Text

/-! Texts of ASCII digits, and the numbers that they spell. -/

namespace FindQuery.Numeral

def AreDigits (s : Text) : Prop := ∀ c ∈ s, c.isDigit = true

instance (s : Text) : Decidable (AreDigits s) :=
  decidable_of_iff (s.all Char.isDigit = true) List.all_eq_true

def spelled (digits : Text) : Nat := Nat.ofDigits 10 (digits.map (·.toNat - 48)).reverse

theorem ofDigits_eq (base : Nat) (ds : List Nat) : ofDigits base ds = Nat.ofDigits base ds.reverse := by
  induction ds using List.reverseRecOn with
  | nil => rfl
  | append_singleton ds d ih =>
    rw [ofDigits_append_singleton, ih, List.reverse_concat, Nat.ofDigits_cons, Nat.add_comm,
      Nat.mul_comm]

section Digits
variable {c : Char} {s more : Text}

theorem toNat_of_isDigit (h : c.isDigit = true) : 48 ≤ c.toNat ∧ c.toNat ≤ 57 := by
  simpa [Char.isDigit, UInt32.le_iff_toNat_le] using h

theorem ne_of_isDigit {d : Char} (h : c.isDigit = true) (hd : d.isDigit = false) : c ≠ d := by
  rintro rfl
  exact Bool.false_ne_true (hd.symm.trans h)

theorem toLower_of_isDigit (h : c.isDigit = true) : c.toLower = c := by
  have hrange := toNat_of_isDigit h
  exact Text.toLower_of_not_capital (.inl (by omega))

theorem mem_lowerAscii_of_isDigit (hmem : c ∈ s) (h : c.isDigit = true) : c ∈ Text.lowerAscii s := by
  have hlower : c.toLower ∈ Text.lowerAscii s := List.mem_map_of_mem hmem
  rwa [toLower_of_isDigit h] at hlower

@[elab_as_elim]
theorem of_isDigit_ascii {P : Char → Prop} (c : Char) (h : c.isDigit = true)
    (hall : ∀ k < 58, 48 ≤ k → P (Char.ofNat k)) : P c := by
  obtain ⟨hlow, hhigh⟩ := toNat_of_isDigit h
  have hc := hall c.toNat (Nat.lt_succ_of_le hhigh) hlow
  rwa [Char.ofNat_toNat] at hc

theorem decimalValue?_of_isDigit (h : c.isDigit = true) :
    Text.decimalValue? c = some (c.toNat - 48) :=
  of_isDigit_ascii c h (by decide)

theorem AreDigits.append (h : AreDigits s) (h' : AreDigits more) : AreDigits (s ++ more) :=
  List.forall_mem_append.2 ⟨h, h'⟩

theorem AreDigits.not_mem (h : AreDigits s) (hc : c.isDigit = false) : c ∉ s :=
  fun hmem => ne_of_isDigit (h c hmem) hc rfl

theorem leadingDigits_of_areDigits (h : AreDigits s) : leadingDigits s = s.map (·.toNat - 48) := by
  induction s with
  | nil => rfl
  | cons c rest ih =>
    obtain ⟨hc, hrest⟩ := List.forall_mem_cons.1 h
    rw [leadingDigits, decimalValue?_of_isDigit hc, List.map_cons, ih hrest]

theorem read?_of_areDigits (hne : s ≠ []) (hlength : s.length ≤ maxDigits) (h : AreDigits s) :
    read? s = some (spelled s) := by
  have hdigits := leadingDigits_of_areDigits h
  have hcount : (leadingDigits s).length = s.length := by rw [hdigits, List.length_map]
  have hread : read s = .ok (spelled s) := by
    rw [read, hcount, if_neg (Nat.not_lt.2 hlength), if_neg, ofDigits_eq, hdigits, spelled]
    rw [not_or]
    exact ⟨hne, Nat.lt_irrefl _⟩
  rw [read?, hread]
  rfl

theorem spelled_append (s more : Text) :
    spelled (s ++ more) = spelled s * 10 ^ more.length + spelled more := by
  rw [spelled, List.map_append, List.reverse_append, Nat.ofDigits_append, List.length_reverse, List.length_map,
    Nat.add_comm, Nat.mul_comm]
  rfl

theorem spelled_zeros (k : Nat) : spelled (List.replicate k '0') = 0 := by
  rw [spelled, List.map_replicate, List.reverse_replicate]
  exact Nat.ofDigits_replicate_zero

theorem spelled_zeros_append (k : Nat) (s : Text) : spelled (List.replicate k '0' ++ s) = spelled s := by
  rw [spelled_append, spelled_zeros, Nat.zero_mul, Nat.zero_add]

theorem spelled_append_zeros (s : Text) (k : Nat) :
    spelled (s ++ List.replicate k '0') = spelled s * 10 ^ k := by
  rw [spelled_append, spelled_zeros, List.length_replicate, Nat.add_zero]

theorem areDigits_zeros (k : Nat) : AreDigits (List.replicate k '0') := by
  intro c hc
  rw [(List.mem_replicate.1 hc).2]
  rfl

end Digits

section Padded
variable {width n : Nat}

theorem isDigit_of_mem_ofNat {c : Char} (h : c ∈ ofNat n) : c.isDigit = true := by
  have hall : ∀ d < 10, (Nat.digitChar d).isDigit = true := by decide
  obtain ⟨d, hd, rfl, -⟩ := decimalValue?_of_mem_ofNat h
  exact hall d hd

theorem areDigits_padded (width n : Nat) : AreDigits (padded width n) :=
  (areDigits_zeros _).append fun _ hc => isDigit_of_mem_ofNat hc

theorem length_padded (hwidth : 0 < width) (h : n < 10 ^ width) : (padded width n).length = width := by
  have hle : (ofNat n).length ≤ width := (Nat.length_toDigits_le_iff (by decide) hwidth).2 h
  rw [padded, List.length_append, List.length_replicate, Nat.sub_add_cancel hle]

theorem spelled_ofNat : spelled (ofNat n) = n := by
  have hdigits : AreDigits (ofNat n) := fun _ hc => isDigit_of_mem_ofNat hc
  rw [spelled, ← leadingDigits_of_areDigits hdigits, ← ofDigits_eq, ofDigits_leadingDigits_ofNat]

theorem spelled_padded : spelled (padded width n) = n := by
  rw [padded, spelled_zeros_append, spelled_ofNat]

theorem padded_ne_nil (width n : Nat) : padded width n ≠ [] :=
  List.append_ne_nil_of_right_ne_nil _ (ofNat_ne_nil n)

theorem read?_padded (hwidth : 0 < width) (hshort : width ≤ maxDigits) (h : n < 10 ^ width) :
    read? (padded width n) = some n := by
  have hlength : (padded width n).length ≤ maxDigits := by rwa [length_padded hwidth h]
  rw [read?_of_areDigits (padded_ne_nil width n) hlength (areDigits_padded width n), spelled_padded]

end Padded

end FindQuery.Numeral
