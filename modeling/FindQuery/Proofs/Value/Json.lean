import FindQuery.Proofs.Binary64.Print
import FindQuery.Proofs.Coerce.Language
import FindQuery.Value.Json

/-! The characters of JSON texts. -/

namespace FindQuery

namespace Text

def isPrintableAscii (c : Char) : Bool := 0x20 ≤ c.toNat && c.toNat < 0x7f

def IsPrintableAscii (s : Text) : Prop := ∀ c ∈ s, isPrintableAscii c = true

instance (s : Text) : Decidable (IsPrintableAscii s) :=
  decidable_of_iff (s.all isPrintableAscii = true) List.all_eq_true

section Printable
variable {s more : Text}

theorem isPrintableAscii_iff {c : Char} :
    isPrintableAscii c = true ↔ 0x20 ≤ c.toNat ∧ c.toNat < 0x7f := by
  rw [isPrintableAscii, Bool.and_eq_true, decide_eq_true_eq, decide_eq_true_eq]

theorem IsPrintableAscii.append (h : IsPrintableAscii s) (h' : IsPrintableAscii more) :
    IsPrintableAscii (s ++ more) := List.forall_mem_append.2 ⟨h, h'⟩

theorem IsPrintableAscii.cons {c : Char} (hc : isPrintableAscii c = true)
    (h : IsPrintableAscii s) : IsPrintableAscii (c :: s) := List.forall_mem_cons.2 ⟨hc, h⟩

theorem IsPrintableAscii.joinWith {sep : Text} {pieces : List Text} (hsep : IsPrintableAscii sep)
    (h : ∀ piece ∈ pieces, IsPrintableAscii piece) : IsPrintableAscii (Text.joinWith sep pieces) := by
  intro c hc
  rcases mem_joinWith hc with hmem | ⟨piece, hpiece, hmem⟩
  · exact hsep c hmem
  · exact h piece hpiece c hmem

theorem IsPrintableAscii.of_isNumeric (h : ∀ c ∈ s, Numeral.isNumeric c = true) :
    IsPrintableAscii s := by
  intro c hc
  have hall : ∀ k < 128, Numeral.isNumeric (Char.ofNat k) = true →
      isPrintableAscii (Char.ofNat k) = true := by
    decide +kernel
  have hprints : Numeral.isNumeric c = true → isPrintableAscii c = true :=
    of_toNat_lt c (Coerce.toNat_lt_of_isNumeric (.inl (h c hc))) hall
  exact hprints (h c hc)

theorem isPrintableAscii_hex (width n : Nat) : IsPrintableAscii (hex width n) := by
  have hdigits : ∀ d < 16, isPrintableAscii (hexDigit d) = true := by decide
  induction width generalizing n with
  | zero => exact nofun
  | succ width ih =>
    have hdigit := hdigits (n % 16) (Nat.mod_lt n (by decide))
    exact (ih (n / 16)).append (List.forall_mem_singleton.2 hdigit)

theorem isPrintableAscii_jsonUnit (n : Nat) : IsPrintableAscii (jsonUnit n) :=
  .append (by decide) (isPrintableAscii_hex 4 n)

theorem isPrintableAscii_jsonChar (c : Char) : IsPrintableAscii (jsonChar c) := by
  unfold jsonChar
  split_ifs with _ _ _ _ _ _ _ hprints hshort
  iterate 7 decide
  · exact List.forall_mem_singleton.2 (isPrintableAscii_iff.2 hprints)
  · exact isPrintableAscii_jsonUnit _
  · exact (isPrintableAscii_jsonUnit _).append (isPrintableAscii_jsonUnit _)

theorem isPrintableAscii_jsonQuoted (s : Text) : IsPrintableAscii (jsonQuoted s) := by
  have hchars : IsPrintableAscii (s.flatMap jsonChar) := by
    intro c hc
    obtain ⟨d, -, hmem⟩ := List.mem_flatMap.1 hc
    exact isPrintableAscii_jsonChar d c hmem
  exact .append (.cons (by decide) hchars) (by decide)

end Printable

end Text

namespace Value

theorem isPrintableAscii_ofInt (n : Int) : Text.IsPrintableAscii (Numeral.ofInt n) := by
  have hdigits : Text.IsPrintableAscii (Numeral.ofNat n.natAbs) :=
    .of_isNumeric (Numeral.AreDigits.isNumeric fun c => Numeral.isDigit_of_mem_ofNat)
  unfold Numeral.ofInt
  split
  · exact .cons (by decide) hdigits
  · exact hdigits

theorem isPrintableAscii_jsonFloat (x : Binary64) : Text.IsPrintableAscii (jsonFloat x) := by
  unfold jsonFloat
  split_ifs with hnan _ _
  · decide
  · obtain ⟨l, hl, -⟩ := Binary64.exists_isLiteral_print hnan
    exact .of_isNumeric hl.isNumeric
  · decide
  · decide

mutual

theorem isPrintableAscii_json : ∀ v : Value, Text.IsPrintableAscii v.json
  | .null => by decide
  | .bool true => by decide
  | .bool false => by decide
  | .int n => isPrintableAscii_ofInt n
  | .float x => isPrintableAscii_jsonFloat x
  | .text s => Text.isPrintableAscii_jsonQuoted s
  | .moment m => Text.isPrintableAscii_jsonQuoted _
  | .pattern p => Text.isPrintableAscii_jsonQuoted _
  | .list items => by
    have hcomma : Text.IsPrintableAscii ", ".toList := by decide
    have hitems := hcomma.joinWith (isPrintableAscii_jsonAll items)
    exact .append (.cons (by decide) hitems) (by decide)
  | .document entries => by
    have hcomma : Text.IsPrintableAscii ", ".toList := by decide
    have hentries := hcomma.joinWith (isPrintableAscii_jsonEntries entries)
    exact .append (.cons (by decide) hentries) (by decide)

theorem isPrintableAscii_jsonAll :
    ∀ items : List Value, ∀ s ∈ jsonAll items, Text.IsPrintableAscii s
  | [] => nofun
  | v :: rest => List.forall_mem_cons.2 ⟨isPrintableAscii_json v, isPrintableAscii_jsonAll rest⟩

theorem isPrintableAscii_jsonEntries :
    ∀ entries : List (Text × Value), ∀ s ∈ jsonEntries entries, Text.IsPrintableAscii s
  | [] => nofun
  | (k, v) :: rest => by
    have hcolon : Text.IsPrintableAscii ": ".toList := by decide
    have hentry := (Text.isPrintableAscii_jsonQuoted k).append hcolon
    exact List.forall_mem_cons.2
      ⟨hentry.append (isPrintableAscii_json v), isPrintableAscii_jsonEntries rest⟩

end

end Value
end FindQuery
