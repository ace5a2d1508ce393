import Mathlib.Data.List.Forall2
import FindQuery.Params.Query
import FindQuery.Proofs.Params.Basic
import FindQuery.Proofs.Params.Utf8
import FindQuery.Proofs.Text

/-! The ways to write parameters as a query string. -/

namespace FindQuery.Query

def smallHexDigits : Text :=
  ['0', '1', '2', '3', '4', '5', '6', '7', '8', '9', 'a', 'b', 'c', 'd', 'e', 'f']

def capitalHexDigits : Text :=
  ['0', '1', '2', '3', '4', '5', '6', '7', '8', '9', 'A', 'B', 'C', 'D', 'E', 'F']

def IsHexDigit (n : Nat) (c : Char) : Prop :=
  smallHexDigits[n]? = some c ∨ capitalHexDigits[n]? = some c

inductive WritesBytes : List Nat → Text → Prop
  | nil : WritesBytes [] []
  | cons {b : Nat} {bytes : List Nat} {x y : Char} {s : Text} :
      IsHexDigit (b / 16) x → IsHexDigit (b % 16) y → WritesBytes bytes s →
      WritesBytes (b :: bytes) ('%' :: x :: y :: s)

def reserved : List Char := ['%', '+', '&', ';']

inductive WritesChar (inKey : Bool) (c : Char) : Text → Prop
  | escaped {s : Text} : WritesBytes (Utf8.encode c) s → WritesChar inKey c s
  | plus : c = ' ' → WritesChar inKey c ['+']
  | itself : c ∉ reserved → (inKey = true → c ≠ '=') → WritesChar inKey c [c]

inductive WritesText (inKey : Bool) : Text → Text → Prop
  | nil : WritesText inKey [] []
  | cons {c : Char} {cs s rest : Text} :
      WritesChar inKey c s → WritesText inKey cs rest → WritesText inKey (c :: cs) (s ++ rest)

inductive WritesPair (p : Text × Text) : Text → Prop
  | assigned {key value : Text} : WritesText true p.1 key → WritesText false p.2 value →
      WritesPair p (key ++ '=' :: value)
  | bare {key : Text} : WritesText true p.1 key → p.2 = [] → WritesPair p key

/-- The pairs are written one after the other and joined by `&`, with any number of empty segments
anywhere between. -/
def Writes (pairs : List (Text × Text)) (query : Text) : Prop :=
  ∃ segments : List Text, query = Text.joinWith ['&'] segments ∧
    List.Forall₂ WritesPair pairs (segments.filter (· ≠ []))

def isFree (inKey : Bool) (c : Char) : Bool := c ∉ reserved && (!inKey || c ≠ '=')

theorem writesText_self {inKey : Bool} {s : Text} (h : s.all (isFree inKey) = true) :
    WritesText inKey s s := by
  induction s with
  | nil => exact .nil
  | cons c rest ih =>
    simp only [List.all_cons, isFree, Bool.and_eq_true, decide_eq_true_eq, Bool.or_eq_true,
      Bool.not_eq_true'] at h
    obtain ⟨⟨hreserved, hequals⟩, hrest⟩ := h
    refine .cons (.itself hreserved ?_) (ih hrest)
    intro hkey
    exact hequals.resolve_left (by rw [hkey]; exact Bool.noConfusion)

theorem writes_self {ps : List (Text × Text)}
    (h : ∀ p ∈ ps, p.1.all (isFree true) = true ∧ p.2.all (isFree false) = true) :
    Writes ps (Text.joinWith ['&'] (ps.map fun p => p.1 ++ '=' :: p.2)) := by
  refine ⟨_, rfl, ?_⟩
  have hfilter : (ps.map fun p => p.1 ++ '=' :: p.2).filter (· ≠ []) =
      ps.map fun p => p.1 ++ '=' :: p.2 := by
    rw [List.filter_eq_self]
    intro segment hsegment
    obtain ⟨p, -, rfl⟩ := List.mem_map.1 hsegment
    simp
  rw [hfilter, List.forall₂_map_right_iff, List.forall₂_same]
  intro p hp
  exact .assigned (writesText_self (h p hp).1) (writesText_self (h p hp).2)

theorem hexValue?_of_isHexDigit {n : Nat} {c : Char} (h : IsHexDigit n c) :
    Escape.hexValue? c = some n ∧ c ∉ reserved ∧ c ≠ '=' := by
  have hn : n < 16 := by
    rcases h with h | h
    · exact (List.getElem?_eq_some_iff.1 h).1
    · exact (List.getElem?_eq_some_iff.1 h).1
  have hall : ∀ m < 16, (smallHexDigits[m]?.toList ++ capitalHexDigits[m]?.toList).all fun c =>
      Escape.hexValue? c = some m ∧ c ∉ reserved ∧ c ≠ '=' := by
    decide
  apply of_decide_eq_true
  apply List.all_eq_true.1 (hall n hn) c
  rw [List.mem_append, Option.mem_toList, Option.mem_toList]
  exact h

theorem byte?_of_isHexDigit {b : Nat} {x y : Char} (hx : IsHexDigit (b / 16) x)
    (hy : IsHexDigit (b % 16) y) : Escape.byte? x y = some b := by
  have hvalue : b / 16 * 16 + b % 16 = b := by omega
  rw [Escape.byte?, (hexValue?_of_isHexDigit hx).1, (hexValue?_of_isHexDigit hy).1]
  exact congrArg some hvalue

theorem WritesBytes.not_mem {bytes : List Nat} {s : Text} (h : WritesBytes bytes s) :
    ∀ c ∈ s, c ≠ '&' ∧ c ≠ ';' ∧ c ≠ '=' ∧ c ≠ '+' := by
  have hdigit {n : Nat} {c : Char} (hc : IsHexDigit n c) :
      c ≠ '&' ∧ c ≠ ';' ∧ c ≠ '=' ∧ c ≠ '+' := by
    obtain ⟨-, hreserved, heq⟩ := hexValue?_of_isHexDigit hc
    simp only [reserved, List.mem_cons, List.not_mem_nil, or_false, not_or] at hreserved
    exact ⟨hreserved.2.2.1, hreserved.2.2.2, heq, hreserved.2.1⟩
  induction h with
  | nil => exact fun c hc => nomatch hc
  | cons hx hy _ ih =>
    intro c hc
    rcases List.mem_cons.1 hc with rfl | hc
    · decide
    · rcases List.mem_cons.1 hc with rfl | hc
      · exact hdigit hx
      · rcases List.mem_cons.1 hc with rfl | hc
        · exact hdigit hy
        · exact ih c hc

theorem WritesChar.not_mem {inKey : Bool} {c : Char} {s : Text} (h : WritesChar inKey c s) :
    ∀ x ∈ s, x ≠ '&' ∧ x ≠ ';' ∧ (inKey = true → x ≠ '=') := by
  cases h with
  | escaped hs =>
    intro x hx
    obtain ⟨hamp, hsemi, heq, -⟩ := hs.not_mem x hx
    exact ⟨hamp, hsemi, fun _ => heq⟩
  | plus hc =>
    intro x hx
    obtain rfl := List.mem_singleton.1 hx
    exact ⟨by decide, by decide, fun _ => by decide⟩
  | itself hreserved heq =>
    intro x hx
    obtain rfl := List.mem_singleton.1 hx
    simp only [reserved, List.mem_cons, List.not_mem_nil, or_false, not_or] at hreserved
    exact ⟨hreserved.2.2.1, hreserved.2.2.2, heq⟩

theorem WritesText.not_mem {inKey : Bool} {cs s : Text} (h : WritesText inKey cs s) :
    ∀ x ∈ s, x ≠ '&' ∧ x ≠ ';' ∧ (inKey = true → x ≠ '=') := by
  induction h with
  | nil => exact fun x hx => nomatch hx
  | cons hc _ ih =>
    intro x hx
    rcases List.mem_append.1 hx with hx | hx
    · exact hc.not_mem x hx
    · exact ih x hx

theorem malformed?_cons_of_ne {c : Char} (h : c ≠ '%') (rest : Text) :
    Escape.malformed? (c :: rest) = Escape.malformed? rest := by
  rw [Escape.malformed?]
  · exact fun _ _ _ heq => absurd heq h
  · exact fun heq => absurd heq h

theorem WritesBytes.malformed?_append {bytes : List Nat} {s : Text} (h : WritesBytes bytes s)
    (rest : Text) : Escape.malformed? (s ++ rest) = Escape.malformed? rest := by
  have hdigit {n : Nat} {c : Char} (hc : IsHexDigit n c) : c ≠ '%' := by
    obtain ⟨-, hreserved, -⟩ := hexValue?_of_isHexDigit hc
    rintro rfl
    exact hreserved (by decide)
  induction h with
  | nil => rfl
  | cons hx hy _ ih =>
    simp only [List.cons_append]
    rw [Escape.malformed?, byte?_of_isHexDigit hx hy, Option.isSome_some, if_pos rfl,
      malformed?_cons_of_ne (hdigit hx), malformed?_cons_of_ne (hdigit hy), ih]

theorem WritesText.malformed?_append {inKey : Bool} {cs s : Text} (h : WritesText inKey cs s)
    (rest : Text) : Escape.malformed? (s ++ rest) = Escape.malformed? rest := by
  induction h generalizing rest with
  | nil => rfl
  | @cons c cs s t hc _ ih =>
    rw [List.append_assoc]
    have hrest : Escape.malformed? (s ++ (t ++ rest)) = Escape.malformed? (t ++ rest) := by
      cases hc with
      | escaped hs => exact hs.malformed?_append _
      | plus _ => exact malformed?_cons_of_ne (by decide) _
      | itself hreserved _ =>
        refine malformed?_cons_of_ne ?_ _
        rintro rfl
        exact hreserved (by decide)
    rw [hrest, ih]

theorem plusToSpace_append (s t : Text) :
    plusToSpace (s ++ t) = plusToSpace s ++ plusToSpace t := List.map_append

theorem WritesBytes.plusToSpace_eq {bytes : List Nat} {s : Text} (h : WritesBytes bytes s) :
    plusToSpace s = s := by
  have hid (c : Char) (hc : c ∈ s) : (if c = '+' then ' ' else c) = c :=
    if_neg (h.not_mem c hc).2.2.2
  rw [plusToSpace, List.map_congr_left hid, List.map_id']

theorem WritesBytes.pieces_append {bytes : List Nat} {s : Text} (h : WritesBytes bytes s)
    (rest : Text) : Escape.pieces (s ++ rest) = bytes.map .byte ++ Escape.pieces rest := by
  induction h with
  | nil => rfl
  | cons hx hy _ ih =>
    simp only [List.cons_append, List.map_cons]
    rw [Escape.pieces, byte?_of_isHexDigit hx hy]
    exact congrArg _ ih

theorem pieces_cons_of_ne {c : Char} (h : c ≠ '%') (rest : Text) :
    Escape.pieces (c :: rest) = Escape.plainPiece c :: Escape.pieces rest := by
  rw [Escape.pieces]
  exact fun _ _ _ heq => absurd heq h

theorem decodePieces_plainPiece (c : Char) (rest : List Escape.Piece) :
    Escape.decodePieces .between (Escape.plainPiece c :: rest) =
      (Escape.decodePieces .between rest).map (c :: ·) := by
  by_cases h : c.toNat < 128
  · have hencode : Utf8.encode c = [c.toNat] := if_pos h
    have hdecode := Escape.decodePieces_encode c rest
    rw [hencode] at hdecode
    rw [Escape.plainPiece, if_pos h]
    exact hdecode
  · rw [Escape.plainPiece, if_neg h, Escape.decodePieces]
    show (Escape.decodePieces .between rest >>= fun s => pure (c :: s)) = _
    cases Escape.decodePieces .between rest <;> rfl

theorem WritesChar.decodePieces_append {inKey : Bool} {c : Char} {s : Text}
    (h : WritesChar inKey c s) (rest : Text) :
    Escape.decodePieces .between (Escape.pieces (plusToSpace (s ++ rest))) =
      (Escape.decodePieces .between (Escape.pieces (plusToSpace rest))).map (c :: ·) := by
  rw [plusToSpace_append]
  cases h with
  | escaped hs => rw [hs.plusToSpace_eq, hs.pieces_append, Escape.decodePieces_encode]
  | plus hc =>
    subst hc
    show Escape.decodePieces .between (Escape.pieces (' ' :: plusToSpace rest)) = _
    rw [pieces_cons_of_ne (by decide), decodePieces_plainPiece]
  | itself hreserved _ =>
    simp only [reserved, List.mem_cons, List.not_mem_nil, or_false, not_or] at hreserved
    have hself : plusToSpace [c] = [c] := by
      rw [plusToSpace, List.map_cons, if_neg hreserved.2.1, List.map_nil]
    rw [hself, List.singleton_append, pieces_cons_of_ne hreserved.1, decodePieces_plainPiece]

theorem WritesText.decode_eq {inKey : Bool} {cs s : Text} (h : WritesText inKey cs s) :
    Escape.decode (plusToSpace s) = .ok cs := by
  unfold Escape.decode
  induction h with
  | nil => rfl
  | cons hc _ ih =>
    rw [hc.decodePieces_append, ih]
    rfl

theorem WritesText.component_eq {inKey : Bool} {cs s : Text} (h : WritesText inKey cs s) :
    component s = .ok cs := by
  rw [component, h.decode_eq]
  rfl

theorem WritesPair.pair_eq {p : Text × Text} {segment : Text} (h : WritesPair p segment) :
    pair segment = .ok p := by
  have hequals {key : Text} (hkey : WritesText true p.1 key) : '=' ∉ key :=
    fun heq => (hkey.not_mem _ heq).2.2 rfl rfl
  cases h with
  | @assigned key value hkey hvalue =>
    have hcut : Text.cutAt '=' (key ++ '=' :: value) = (key, some value) :=
      Text.cutAt_append (hequals hkey) value
    rw [pair, hcut]
    simp only [Option.getD_some, hkey.component_eq, hvalue.component_eq]
    rfl
  | bare hkey hvalue =>
    have hcut : Text.cutAt '=' segment = (segment, none) := Text.cutAt_of_not_mem (hequals hkey)
    have hnil : component [] = .ok p.2 := by
      rw [hvalue]
      rfl
    rw [pair, hcut]
    simp only [Option.getD_none, hkey.component_eq, hnil]
    rfl

theorem pairs_eq_of_writes {ps : List (Text × Text)} {segs : List Text}
    (h : List.Forall₂ WritesPair ps segs) : pairs segs = .ok ps := by
  induction h with
  | nil => rfl
  | cons hp _ ih =>
    rw [pairs, hp.pair_eq, ih]
    rfl

theorem WritesPair.not_mem {p : Text × Text} {segment : Text} (h : WritesPair p segment) :
    ∀ c ∈ segment, c ≠ '&' ∧ c ≠ ';' := by
  intro c hc
  cases h with
  | assigned hkey hvalue =>
    rcases List.mem_append.1 hc with hc | hc
    · exact ⟨(hkey.not_mem c hc).1, (hkey.not_mem c hc).2.1⟩
    · rcases List.mem_cons.1 hc with rfl | hc
      · decide
      · exact ⟨(hvalue.not_mem c hc).1, (hvalue.not_mem c hc).2.1⟩
  | bare hkey _ => exact ⟨(hkey.not_mem c hc).1, (hkey.not_mem c hc).2.1⟩

theorem WritesPair.malformed?_append {p : Text × Text} {segment : Text}
    (h : WritesPair p segment) (rest : Text) :
    Escape.malformed? (segment ++ rest) = Escape.malformed? rest := by
  cases h with
  | assigned hkey hvalue =>
    rw [List.append_assoc, hkey.malformed?_append, List.cons_append,
      malformed?_cons_of_ne (by decide), hvalue.malformed?_append]
  | bare hkey _ => exact hkey.malformed?_append rest

theorem exists_writesPair {ps : List (Text × Text)} {segs : List Text}
    (h : List.Forall₂ WritesPair ps segs) {segment : Text} (hs : segment ∈ segs) :
    ∃ p, WritesPair p segment := by
  induction h with
  | nil => exact nomatch hs
  | cons hp _ ih =>
    rcases List.mem_cons.1 hs with rfl | hs
    · exact ⟨_, hp⟩
    · exact ih hs

theorem eq_nil_or_writesPair {ps : List (Text × Text)} {segs : List Text}
    (h : List.Forall₂ WritesPair ps (segs.filter (· ≠ []))) {segment : Text}
    (hs : segment ∈ segs) : segment = [] ∨ ∃ p, WritesPair p segment := by
  by_cases hne : segment = []
  · exact .inl hne
  · have hmem : segment ∈ segs.filter (· ≠ []) :=
      List.mem_filter.2 ⟨hs, decide_eq_true hne⟩
    exact .inr (exists_writesPair h hmem)

theorem malformed?_joinWith {segs : List Text}
    (h : ∀ segment ∈ segs, segment = [] ∨ ∃ p, WritesPair p segment) :
    Escape.malformed? (Text.joinWith ['&'] segs) = none := by
  have hhead {segment : Text} (hs : segment = [] ∨ ∃ p, WritesPair p segment) (rest : Text) :
      Escape.malformed? (segment ++ rest) = Escape.malformed? rest := by
    rcases hs with rfl | ⟨p, hp⟩
    · rfl
    · exact hp.malformed?_append rest
  induction segs with
  | nil => rfl
  | cons s rest ih =>
    have hs := h s List.mem_cons_self
    have hrest := ih fun t ht => h t (List.mem_cons_of_mem s ht)
    cases rest with
    | nil =>
      have hnil := hhead hs []
      rw [List.append_nil] at hnil
      exact hnil
    | cons t rest =>
      rw [Text.joinWith, List.append_assoc, hhead hs, List.singleton_append,
        malformed?_cons_of_ne (by decide), hrest]
      exact List.cons_ne_nil t rest

theorem segments_joinWith {segs : List Text} (h : ∀ segment ∈ segs, '&' ∉ segment) :
    segments (Text.joinWith ['&'] segs) = segs.filter (· ≠ []) := by
  rw [segments]
  cases segs with
  | nil => rfl
  | cons s rest => rw [Text.splitOn_joinWith (List.cons_ne_nil s rest) h]

theorem parse_of_writes {ps : List (Text × Text)} {query : Text} (h : Writes ps query) :
    parse query = .ok (Params.ofPairs ps) := by
  obtain ⟨segs, rfl, hsegs⟩ := h
  have hcases : ∀ segment ∈ segs, segment = [] ∨ ∃ p, WritesPair p segment :=
    fun segment hs => eq_nil_or_writesPair hsegs hs
  have hclean : ∀ segment ∈ segs, ∀ c ∈ segment, c ≠ '&' ∧ c ≠ ';' := by
    intro segment hs c hc
    rcases hcases segment hs with rfl | ⟨p, hp⟩
    · exact nomatch hc
    · exact hp.not_mem c hc
  have hsemicolon : ';' ∉ Text.joinWith ['&'] segs := by
    intro hmem
    rcases Text.mem_joinWith hmem with heq | ⟨segment, hs, hc⟩
    · exact absurd heq (by decide)
    · exact (hclean segment hs _ hc).2 rfl
  have hsegments : segments (Text.joinWith ['&'] segs) = segs.filter (· ≠ []) :=
    segments_joinWith fun segment hs hc => (hclean segment hs _ hc).1 rfl
  rw [parse, malformed?_joinWith hcases]
  simp only [if_neg hsemicolon, hsegments, pairs_eq_of_writes hsegs]
  rfl

/-- However pairs are written, they are read back: the keys in the order of their first pairs, and
under each key the values of all its pairs in order. -/
theorem parse_eq_gathered_of_writes {ps : List (Text × Text)} {query : Text} (h : Writes ps query) :
    parse query = .ok (Params.gathered ps) := by
  rw [parse_of_writes h, Params.ofPairs_eq_gathered]

def mixedPairs : List (Text × Text) :=
  [(['a', ' ', 'b'], ['é']), ([], []), (['a', ' ', 'b'], ['=', '+']), (['&'], [])]

def mixedQuery : Text := "a+b=%c3%A9&&=&%61%20b==%2B&%26=&".toList

def mixedSegments : List Text :=
  ["a+b=%c3%A9".toList, [], ['='], "%61%20b==%2B".toList, "%26=".toList, []]

theorem writesChar_escaped {inKey : Bool} {c : Char} {n : Nat} {x y : Char}
    (hc : Utf8.encode c = [n]) (hx : IsHexDigit (n / 16) x) (hy : IsHexDigit (n % 16) y) :
    WritesChar inKey c ['%', x, y] := by
  apply WritesChar.escaped
  rw [hc]
  exact .cons hx hy .nil

theorem writes_mixedQuery : Writes mixedPairs mixedQuery := by
  have hplain : WritesText true ['a', ' ', 'b'] ['a', '+', 'b'] :=
    .cons (s := ['a']) (.itself (by decide) (by decide)) <| .cons (s := ['+']) (.plus rfl) <|
      .cons (s := ['b']) (.itself (by decide) (by decide)) .nil
  have hbytes : WritesBytes (Utf8.encode 'é') ['%', 'c', '3', '%', 'A', '9'] := by
    have hencode : Utf8.encode 'é' = [0xC3, 0xA9] := by decide
    rw [hencode]
    exact .cons (.inl rfl) (.inl rfl) (.cons (.inr rfl) (.inl rfl) .nil)
  have hletter : WritesText false ['é'] ['%', 'c', '3', '%', 'A', '9'] :=
    .cons (s := ['%', 'c', '3', '%', 'A', '9']) (.escaped hbytes) .nil
  have hescaped : WritesText true ['a', ' ', 'b'] ['%', '6', '1', '%', '2', '0', 'b'] :=
    .cons (s := ['%', '6', '1']) (writesChar_escaped rfl (.inl rfl) (.inl rfl)) <|
      .cons (s := ['%', '2', '0']) (writesChar_escaped rfl (.inl rfl) (.inl rfl)) <|
        .cons (s := ['b']) (.itself (by decide) (by decide)) .nil
  have hsigns : WritesText false ['=', '+'] ['=', '%', '2', 'B'] :=
    .cons (s := ['=']) (.itself (by decide) (by decide)) <|
      .cons (s := ['%', '2', 'B']) (writesChar_escaped rfl (.inl rfl) (.inr rfl)) .nil
  have hampersand : WritesText true ['&'] ['%', '2', '6'] :=
    .cons (s := ['%', '2', '6']) (writesChar_escaped rfl (.inl rfl) (.inl rfl)) .nil
  have hfirst : WritesPair (['a', ' ', 'b'], ['é'])
      (['a', '+', 'b'] ++ '=' :: ['%', 'c', '3', '%', 'A', '9']) := .assigned hplain hletter
  have hempty : WritesPair ([], []) ([] ++ '=' :: []) := .assigned .nil .nil
  have hsecond : WritesPair (['a', ' ', 'b'], ['=', '+'])
      (['%', '6', '1', '%', '2', '0', 'b'] ++ '=' :: ['=', '%', '2', 'B']) :=
    .assigned hescaped hsigns
  have hlast : WritesPair (['&'], []) (['%', '2', '6'] ++ '=' :: []) := .assigned hampersand .nil
  have hfilter : mixedSegments.filter (· ≠ []) =
      [['a', '+', 'b'] ++ '=' :: ['%', 'c', '3', '%', 'A', '9'], [] ++ '=' :: [],
        ['%', '6', '1', '%', '2', '0', 'b'] ++ '=' :: ['=', '%', '2', 'B'],
        ['%', '2', '6'] ++ '=' :: []] := by
    decide +kernel
  refine ⟨mixedSegments, by decide +kernel, ?_⟩
  rw [hfilter]
  exact .cons hfirst <| .cons hempty <| .cons hsecond <| .cons hlast .nil

theorem parse_mixedQuery : Writes mixedPairs mixedQuery ∧
    parse mixedQuery = .ok
      [(['a', ' ', 'b'], [['é'], ['=', '+']]), ([], [[]]), (['&'], [[]])] :=
  ⟨writes_mixedQuery, parse_eq_gathered_of_writes writes_mixedQuery⟩

end FindQuery.Query
