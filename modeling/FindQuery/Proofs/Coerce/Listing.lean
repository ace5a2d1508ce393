import FindQuery.Proofs.Coerce.Language
import FindQuery.Proofs.Text

/-! The values of the listing operators. -/

namespace FindQuery.Coerce

def moment? [Host] (s : Text) : Option Moment :=
  match moment s with
  | .ok m? => m?
  | .error _ => none

inductive ListType
  | float | int | moment | text
  deriving DecidableEq, Repr

namespace ListType

def read? [Host] (t : ListType) (piece : Text) : Option Value :=
  match t with
  | float => (float? piece).map .float
  | int => (int? piece).map .int
  | moment => (moment? piece).map .moment
  | text => some (.text piece)

def Reads [Host] (t : ListType) (pieces : List Text) : Prop := ∀ piece ∈ pieces, (t.read? piece).isSome = true

def ReadsAs [Host] (t : ListType) (pieces : List Text) (values : List Value) : Prop :=
  List.Forall₂ (fun piece v => t.read? piece = some v) pieces values

instance [Host] (t : ListType) (pieces : List Text) : Decidable (t.Reads pieces) :=
  inferInstanceAs (Decidable (∀ piece ∈ pieces, _))

def ofPieces [Host] (pieces : List Text) : ListType :=
  if float.Reads pieces then float
  else if int.Reads pieces then int
  else if moment.Reads pieces then moment
  else text

section Order
variable {t : ListType} {pieces pieces' : List Text}

theorem reads_of_perm [Host] (h : pieces'.Perm pieces) : t.Reads pieces' ↔ t.Reads pieces := by
  simp only [Reads, h.mem_iff]

theorem ofPieces_of_perm [Host] (h : pieces'.Perm pieces) : ofPieces pieces' = ofPieces pieces := by
  simp only [ofPieces, reads_of_perm h]

end Order

end ListType

open ListType (ofPieces)

/-- The pieces are no numbers, and the reading of one of them as a date has no result, where all those before it
are dates. -/
structure IsRefused [Host] (pieces : List Text) (e : DateText.PrecisionError) : Prop where
  not_floats : ¬ ListType.float.Reads pieces
  not_ints : ¬ ListType.int.Reads pieces
  refusal : ∃ before piece after, pieces = before ++ piece :: after ∧ ListType.moment.Reads before ∧
    moment piece = .error e

section Lists
variable {pieces : List Text} {values : List Value}

theorem moment?_eq_some [Host] {s : Text} {m : Moment} : moment? s = some m ↔ moment s = .ok (some m) := by
  unfold moment?
  cases moment s with
  | ok m? => rw [Except.ok.injEq]
  | error e => exact iff_of_false nofun nofun

theorem exists_wrapped_iff {α : Type} {read? : Text → Option α} {wrap : α → Value} :
    (∃ as, List.Forall₂ (fun piece a => read? piece = some a) pieces as ∧ as.map wrap = values) ↔
      List.Forall₂ (fun piece v => (read? piece).map wrap = some v) pieces values := by
  constructor
  · rintro ⟨as, has, rfl⟩
    rw [List.forall₂_map_right_iff]
    exact has.imp fun piece a ha => by rw [ha, Option.map_some]
  · intro h
    induction h with
    | nil => exact ⟨[], .nil, rfl⟩
    | cons hv _ ih =>
      obtain ⟨a, ha, rfl⟩ := Option.map_eq_some_iff.1 hv
      obtain ⟨as, has, rfl⟩ := ih
      exact ⟨a :: as, .cons ha has, rfl⟩

theorem eq_map_of_readsAs [Host] {t : ListType} (h : t.ReadsAs pieces values) :
    values = pieces.map fun piece => (t.read? piece).getD .null := by
  induction h with
  | nil => rfl
  | cons hv _ ih => rw [List.map_cons, hv, Option.getD_some, ← ih]

theorem reads_iff [Host] {t : ListType} : t.Reads pieces ↔ ∃ values, t.ReadsAs pieces values :=
  exists_forall₂_iff.symm

theorem allMoments_append_cons [Host] {before after : List Text} {piece : Text}
    (hbefore : ListType.moment.Reads before) (hpiece : moment? piece = none) :
    allMoments (before ++ piece :: after) = (moment piece).map fun _ => none := by
  induction before with
  | nil =>
    rw [List.nil_append, allMoments]
    unfold moment? at hpiece
    cases hread : moment piece with
    | error e => rfl
    | ok m? =>
      rw [hread] at hpiece
      obtain rfl : m? = none := hpiece
      rfl
  | cons first before ih =>
    obtain ⟨hfirst, hbefore⟩ := List.forall_mem_cons.1 hbefore
    obtain ⟨m, hm⟩ := Option.isSome_iff_exists.1 (Option.isSome_map.symm.trans hfirst)
    rw [List.cons_append, allMoments, moment?_eq_some.1 hm, ih hbefore]
    cases moment piece with
    | error e => rfl
    | ok m? => rfl

theorem exists_first_of_not_reads [Host] (h : ¬ ListType.moment.Reads pieces) :
    ∃ before piece after, pieces = before ++ piece :: after ∧ ListType.moment.Reads before ∧
      moment? piece = none := by
  induction pieces with
  | nil => exact absurd nofun h
  | cons piece rest ih =>
    cases hpiece : moment? piece with
    | none => exact ⟨[], piece, rest, rfl, nofun, hpiece⟩
    | some m =>
      have hread : (ListType.moment.read? piece).isSome = true := by
        rw [ListType.read?, hpiece, Option.map_some, Option.isSome_some]
      obtain ⟨before, last, after, rfl, hbefore, hlast⟩ :=
        ih fun hrest => h (List.forall_mem_cons.2 ⟨hread, hrest⟩)
      exact ⟨piece :: before, last, after, rfl, List.forall_mem_cons.2 ⟨hread, hbefore⟩, hlast⟩

theorem allAs?_eq_none_of_not_reads [Host] {α : Type} {t : ListType} {read? : Text → Option α} {wrap : α → Value}
    (ht : ∀ piece, t.read? piece = (read? piece).map wrap) (h : ¬ t.Reads pieces) :
    allAs? read? wrap pieces = none := by
  rw [allAs?_eq_none]
  intro hall
  refine h fun piece hpiece => ?_
  rw [ht, Option.isSome_map]
  exact hall piece hpiece

theorem uniform_eq_allMoments [Host] (hfloats : ¬ ListType.float.Reads pieces) (hints : ¬ ListType.int.Reads pieces) :
    uniform pieces = (allMoments pieces).map (·.getD (pieces.map .text)) := by
  rw [uniform, allAs?_eq_none_of_not_reads (fun _ => rfl) hfloats,
    allAs?_eq_none_of_not_reads (fun _ => rfl) hints]
  rfl

theorem uniform_of_isRefused [Host] {e : DateText.PrecisionError} (h : IsRefused pieces e) :
    uniform pieces = .error e := by
  obtain ⟨before, piece, after, rfl, hbefore, he⟩ := h.refusal
  have hnone : moment? piece = none := by rw [moment?, he]
  rw [uniform_eq_allMoments h.not_floats h.not_ints, allMoments_append_cons hbefore hnone, he]
  rfl

theorem uniform_of_not_isRefused [Host] (h : ∀ e, ¬ IsRefused pieces e) :
    ∃ values, (ofPieces pieces).ReadsAs pieces values ∧ uniform pieces = .ok values := by
  unfold ofPieces
  split
  · next hfloats =>
    obtain ⟨values, hvalues⟩ := reads_iff.1 hfloats
    refine ⟨values, hvalues, ?_⟩
    rw [uniform, allAs?_eq_some.2 (exists_wrapped_iff.2 hvalues), Option.some_or]
  · next hfloats =>
    split
    · next hints =>
      obtain ⟨values, hvalues⟩ := reads_iff.1 hints
      refine ⟨values, hvalues, ?_⟩
      rw [uniform, allAs?_eq_none_of_not_reads (fun _ => rfl) hfloats, Option.none_or,
        allAs?_eq_some.2 (exists_wrapped_iff.2 hvalues)]
    · next hints =>
      rw [uniform_eq_allMoments hfloats hints]
      split
      · next hmoments =>
        obtain ⟨values, hvalues⟩ := reads_iff.1 hmoments
        obtain ⟨ms, hms, rfl⟩ := exists_wrapped_iff.2 hvalues
        have hall : allMoments pieces = .ok (some (ms.map .moment)) :=
          allMoments_eq_some.2 ⟨ms, hms.imp fun _ _ => moment?_eq_some.1, rfl⟩
        exact ⟨_, hvalues, by rw [hall]; rfl⟩
      · next hmoments =>
        obtain ⟨before, piece, after, rfl, hbefore, hnone⟩ := exists_first_of_not_reads hmoments
        refine ⟨(before ++ piece :: after).map .text, ?_, ?_⟩
        · exact List.forall₂_map_right_iff.2 (List.forall₂_same.2 fun _ _ => rfl)
        · rw [allMoments_append_cons hbefore hnone]
          cases hread : moment piece with
          | ok m? => rfl
          | error e => exact absurd ⟨hfloats, hints, before, piece, after, rfl, hbefore, hread⟩ (h e)

theorem uniform_eq_error_iff [Host] {e : DateText.PrecisionError} :
    uniform pieces = .error e ↔ IsRefused pieces e := by
  refine ⟨fun herror => ?_, uniform_of_isRefused⟩
  by_contra hnone
  obtain ⟨values, -, hvalues⟩ := uniform_of_not_isRefused fun _ => hnone
  exact nomatch herror.symm.trans hvalues

theorem uniform_eq_ok_iff [Host] : uniform pieces = .ok values ↔
    (∀ e, ¬ IsRefused pieces e) ∧ (ofPieces pieces).ReadsAs pieces values := by
  constructor
  · intro hok
    have hnone : ∀ e, ¬ IsRefused pieces e := by
      intro e he
      exact nomatch hok.symm.trans (uniform_of_isRefused he)
    obtain ⟨_, hvalues, hread⟩ := uniform_of_not_isRefused hnone
    obtain rfl := Except.ok.inj (hok.symm.trans hread)
    exact ⟨hnone, hvalues⟩
  · rintro ⟨hnone, hvalues⟩
    obtain ⟨others, hothers, hread⟩ := uniform_of_not_isRefused hnone
    rw [hread, eq_map_of_readsAs hothers, ← eq_map_of_readsAs hvalues]

end Lists

section Value
variable {operator : Operator} {raw raw' : Text}

theorem value_eq_null [Host] (hlisting : IsListing operator) (hnull : isNull raw = true) :
    value operator raw = .ok .null := by
  have hraw : ¬ (operator = .regex ∨ raw = []) := by
    rintro (rfl | rfl)
    · exact absurd hlisting (by decide)
    · exact nomatch hnull
  rw [value, if_neg hraw, hnull, if_pos rfl]

theorem value_eq_ok_iff [Host] {v : Value} (hlisting : IsListing operator) (hne : raw ≠ [])
    (hnull : isNull raw = false) : value operator raw = .ok v ↔ ∃ items, v = .list items ∧
      (∀ e, ¬ IsRefused (Text.splitOn ',' raw) e) ∧
      (ofPieces (Text.splitOn ',' raw)).ReadsAs (Text.splitOn ',' raw) items := by
  rw [value_eq_uniform hlisting hne hnull, map_eq_ok]
  refine exists_congr fun items => ?_
  rw [uniform_eq_ok_iff, and_comm, eq_comm]

theorem value_eq_error_iff [Host] {e : DateText.PrecisionError} (hlisting : IsListing operator) (hne : raw ≠ [])
    (hnull : isNull raw = false) :
    value operator raw = .error e ↔ IsRefused (Text.splitOn ',' raw) e := by
  rw [value_eq_uniform hlisting hne hnull, map_eq_error, uniform_eq_error_iff]

theorem value_of_perm [Host] {items : List Value} (hlisting : IsListing operator) (hne : raw' ≠ [])
    (hnull : isNull raw' = false) (hperm : (Text.splitOn ',' raw').Perm (Text.splitOn ',' raw))
    (h : (ofPieces (Text.splitOn ',' raw)).ReadsAs (Text.splitOn ',' raw) items) :
    ∃ read : Text → Value, items = (Text.splitOn ',' raw).map read ∧
      (value operator raw' = .ok (.list ((Text.splitOn ',' raw').map read)) ∨
        ∃ e, IsRefused (Text.splitOn ',' raw') e) := by
  refine ⟨_, eq_map_of_readsAs h, ?_⟩
  by_cases hrefused : ∃ e, IsRefused (Text.splitOn ',' raw') e
  · exact .inr hrefused
  · obtain ⟨items', hread, hitems⟩ := uniform_of_not_isRefused (not_exists.1 hrefused)
    rw [ListType.ofPieces_of_perm hperm] at hread
    rw [value_eq_uniform hlisting hne hnull, hitems, eq_map_of_readsAs hread]
    exact .inl rfl

/-- The empty text stays, the words for null are null, and any other text is a list: of the readings of its pieces
as of the first type that all of them can be read as, unless a date among them is refused. Texts with the same
pieces in other orders have the same readings in these orders. -/
theorem value_listing [Host] (hlisting : IsListing operator) :
    value operator [] = .ok (.text []) ∧
    (∀ raw, isNull raw = true → value operator raw = .ok .null) ∧
    ∀ raw, raw ≠ [] → isNull raw = false → ∀ pieces, Text.splitOn ',' raw = pieces →
      (Text.joinWith [','] pieces = raw ∧ ∀ piece ∈ pieces, ',' ∉ piece) ∧
      (∀ v, value operator raw = .ok v ↔ ∃ items, v = .list items ∧ (∀ e, ¬ IsRefused pieces e) ∧
        (ofPieces pieces).ReadsAs pieces items) ∧
      (∀ e, value operator raw = .error e ↔ IsRefused pieces e) ∧
      ∀ items, value operator raw = .ok (.list items) → Value.IsUniform items ∧
        ∀ raw', raw' ≠ [] → isNull raw' = false → ∀ pieces', Text.splitOn ',' raw' = pieces' →
          pieces'.Perm pieces → ∃ read : Text → Value, items = pieces.map read ∧
            (value operator raw' = .ok (.list (pieces'.map read)) ∨ ∃ e, IsRefused pieces' e) := by
  have hempty : value operator [] = .ok (.text []) := if_pos (.inr rfl)
  refine ⟨hempty, fun raw hnull => value_eq_null hlisting hnull, ?_⟩
  rintro raw hne hnull _ rfl
  refine ⟨⟨Text.joinWith_splitOn ',' raw, fun _ => Text.not_mem_of_mem_splitOn⟩,
    fun _ => value_eq_ok_iff hlisting hne hnull, fun _ => value_eq_error_iff hlisting hne hnull, ?_⟩
  intro items hitems
  obtain ⟨_, heq, hnone, hread⟩ := (value_eq_ok_iff hlisting hne hnull).1 hitems
  obtain rfl := Value.list.inj heq
  refine ⟨(isUniform_of_uniform (uniform_eq_ok_iff.2 ⟨hnone, hread⟩)).1, ?_⟩
  rintro raw' hne' hnull' _ rfl hperm
  exact value_of_perm hlisting hne' hnull' hperm hread

theorem value_listing_marked : IsListing .isIn ∧
    value .isIn "0x10,1".toList = .ok (.list [.int 16, .int 1]) ∧
    value .isIn "1,0x10".toList = .ok (.list [.int 1, .int 16]) := by
  have hlisting : IsListing .isIn := by decide
  obtain ⟨-, -, hlists⟩ := value_listing hlisting
  have hnone : ∀ e, ¬ IsRefused ["0x10".toList, "1".toList] e := by
    intro e he
    exact he.not_ints (by decide +kernel)
  have hnone' : ∀ e, ¬ IsRefused ["1".toList, "0x10".toList] e := by
    intro e he
    exact he.not_ints (by decide +kernel)
  obtain ⟨-, hvalue, -, hperm⟩ := hlists "0x10,1".toList (by decide) (by decide) _ rfl
  have htype : ofPieces ["0x10".toList, "1".toList] = .int := by decide +kernel
  have hread : (ofPieces ["0x10".toList, "1".toList]).ReadsAs ["0x10".toList, "1".toList]
      [.int 16, .int 1] := by
    rw [htype]
    exact .cons (by decide +kernel) (.cons (by decide +kernel) .nil)
  have hmarked := (hvalue (.list [.int 16, .int 1])).2 ⟨_, rfl, hnone, hread⟩
  obtain ⟨read, hitems, hreordered⟩ := (hperm _ hmarked).2 "1,0x10".toList (by decide) (by decide) _ rfl
    (.swap _ _ [])
  obtain ⟨hfirst, hrest⟩ := List.cons.inj hitems
  obtain ⟨hsecond, -⟩ := List.cons.inj hrest
  refine ⟨hlisting, hmarked, ?_⟩
  rw [hreordered.resolve_right (not_exists.2 hnone'), hfirst, hsecond]
  rfl

theorem value_longHourPiece : float? longHourText = none ∧ int? longHourText = none ∧
    (∀ m, moment longHourText ≠ .ok (some m)) ∧
    value .isIn longHourText = .error ⟨⟩ ∧ value .isIn longHourText ≠ .ok (.list [.text longHourText]) ∧
    value .notIn ("may,".toList ++ longHourText) = .ok (.list [.text "may".toList, .text longHourText]) ∧
    value .notIn (longHourText ++ ",may".toList) = .error ⟨⟩ := by
  have hread : moment longHourText = .error ⟨⟩ := by decide +kernel
  have hvalue : value .isIn longHourText = .error ⟨⟩ := by decide +kernel
  refine ⟨by decide +kernel, by decide +kernel, fun m hm => ?_, hvalue, fun htext => ?_,
    by decide +kernel, by decide +kernel⟩
  · exact nomatch hread.symm.trans hm
  · exact nomatch hvalue.symm.trans htext

end Value

end FindQuery.Coerce
