import FindQuery.Proofs.Params.AsciiRun

/-! Which query strings are refused, and why. -/

namespace FindQuery.Query

def IsSegment (query segment : Text) : Prop :=
  ∃ segments : List Text, query = Text.joinWith ['&'] segments ∧
    (∀ s ∈ segments, '&' ∉ s) ∧ segment ∈ segments

inductive IsSide : Text → Text → Prop
  | bare {key : Text} : '=' ∉ key → IsSide key key
  | key {key value : Text} : '=' ∉ key → IsSide (key ++ '=' :: value) key
  | value {key value : Text} : '=' ∉ key → IsSide (key ++ '=' :: value) value

/-- A key or a value has a run of ASCII characters whose bytes are not UTF-8. -/
def HasIllFormedSide (query : Text) : Prop :=
  ∃ segment s, IsSegment query segment ∧ IsSide segment s ∧ Escape.HasIllFormedRun s

theorem isSegment_iff {query segment : Text} :
    IsSegment query segment ↔ segment ∈ Text.splitOn '&' query := by
  constructor
  · rintro ⟨segments, rfl, hclean, hmem⟩
    rw [Text.splitOn_joinWith (List.ne_nil_of_mem hmem) hclean]
    exact hmem
  · intro hmem
    exact ⟨Text.splitOn '&' query, (Text.joinWith_splitOn '&' query).symm,
      fun s hs => Text.not_mem_of_mem_splitOn hs, hmem⟩

section BadEscapes
open Escape (HasBadEscape)

theorem hasBadEscape_amp (s rest : Text) :
    HasBadEscape (s ++ '&' :: rest) ↔ HasBadEscape s ∨ HasBadEscape rest :=
  Escape.hasBadEscape_append_cons (by decide) rest (by decide) s

theorem hasBadEscape_equals (s rest : Text) :
    HasBadEscape (s ++ '=' :: rest) ↔ HasBadEscape s ∨ HasBadEscape rest :=
  Escape.hasBadEscape_append_cons (by decide) rest (by decide) s

theorem IsSegment.hasBadEscape {query segment : Text} (h : IsSegment query segment)
    (hbad : HasBadEscape segment) : HasBadEscape query := by
  obtain ⟨segments, rfl, -, hmem⟩ := h
  induction segments with
  | nil => exact nomatch hmem
  | cons s rest ih =>
    cases rest with
    | nil =>
      rw [List.mem_singleton.1 hmem] at hbad
      exact hbad
    | cons t rest =>
      rw [Text.joinWith, List.append_assoc, List.singleton_append, hasBadEscape_amp]
      · rcases List.mem_cons.1 hmem with rfl | hmem
        · exact .inl hbad
        · exact .inr (ih hmem)
      · exact List.cons_ne_nil t rest

theorem IsSide.hasBadEscape {segment s : Text} (h : IsSide segment s) (hbad : HasBadEscape s) :
    HasBadEscape segment := by
  cases h with
  | bare _ => exact hbad
  | key _ => exact (hasBadEscape_equals _ _).2 (.inl hbad)
  | value _ => exact (hasBadEscape_equals _ _).2 (.inr hbad)

end BadEscapes

theorem fails_component {s : Text} (h : ¬ Escape.HasBadEscape s) :
    Fails (component s) ↔ Escape.HasIllFormedRun s := by
  rw [component, fails_mapError, Escape.fails_decode_plusToSpace, Escape.fails_decode_iff h]

theorem fails_pair {segment : Text} :
    Fails (pair segment) ↔ ∃ s, IsSide segment s ∧ Fails (component s) := by
  have hpair : Fails (pair segment) ↔ Fails (component (Text.cutAt '=' segment).1) ∨
      Fails (component ((Text.cutAt '=' segment).2.getD [])) := by
    rw [pair]
    exact fails_bind_of_forall fun _ => fails_bind_pure
  rw [hpair]
  constructor
  · rcases Text.cutAt_cases '=' segment with ⟨hbare, hcut⟩ | ⟨key, value, rfl, hkey, hcut⟩
    · rw [hcut]
      rintro (hfails | hfails)
      · exact ⟨segment, .bare hbare, hfails⟩
      · exact absurd hfails (not_fails_ok _)
    · rw [hcut]
      rintro (hfails | hfails)
      · exact ⟨key, .key hkey, hfails⟩
      · exact ⟨value, .value hkey, hfails⟩
  · rintro ⟨s, hside, hfails⟩
    cases hside with
    | bare hbare =>
      rw [Text.cutAt_of_not_mem hbare]
      exact .inl hfails
    | key hkey =>
      rw [Text.cutAt_append hkey]
      exact .inl hfails
    | value hkey =>
      rw [Text.cutAt_append hkey]
      exact .inr hfails

theorem fails_pairs {segs : List Text} :
    Fails (pairs segs) ↔ ∃ segment ∈ segs, Fails (pair segment) := by
  induction segs with
  | nil => exact iff_of_false (not_fails_ok _) (by simp)
  | cons segment rest ih =>
    rw [pairs, fails_bind_of_forall (p := ∃ segment ∈ rest, Fails (pair segment))]
    · simp only [List.mem_cons, exists_eq_or_imp]
    · intro p
      rw [fails_bind_pure, ih]

theorem fails_pairs_segments {query : Text} (h : ¬ Escape.HasBadEscape query) :
    Fails (pairs (segments query)) ↔ HasIllFormedSide query := by
  have hsegments {segment : Text} (hfails : Fails (pair segment)) :
      segment ∈ segments query ↔ IsSegment query segment := by
    rw [segments, List.mem_filter, isSegment_iff]
    refine and_iff_left (decide_eq_true ?_)
    rintro rfl
    exact not_fails_ok _ hfails
  have hside {segment s : Text} (hsegment : IsSegment query segment) (hs : IsSide segment s) :
      Fails (component s) ↔ Escape.HasIllFormedRun s :=
    fails_component fun hbad => h (hsegment.hasBadEscape (hs.hasBadEscape hbad))
  rw [fails_pairs]
  constructor
  · rintro ⟨segment, hmem, hfails⟩
    have hsegment := (hsegments hfails).1 hmem
    obtain ⟨s, hs, hcomponent⟩ := fails_pair.1 hfails
    exact ⟨segment, s, hsegment, hs, (hside hsegment hs).1 hcomponent⟩
  · rintro ⟨segment, s, hsegment, hs, hrun⟩
    have hfails : Fails (pair segment) := fails_pair.2 ⟨s, hs, (hside hsegment hs).2 hrun⟩
    exact ⟨segment, (hsegments hfails).2 hsegment, hfails⟩

theorem component_eq_error {s : Text} {e : QueryError} (h : component s = .error e) :
    ∃ fault, e = .notUtf8 fault := by
  obtain ⟨fault, -, rfl⟩ := mapError_eq_error.1 h
  exact ⟨fault, rfl⟩

theorem pair_eq_error {segment : Text} {e : QueryError} (h : pair segment = .error e) :
    ∃ fault, e = .notUtf8 fault := by
  rcases bind_eq_error.1 h with hkey | ⟨key, -, hrest⟩
  · exact component_eq_error hkey
  · rcases bind_eq_error.1 hrest with hvalue | ⟨value, -, hpure⟩
    · exact component_eq_error hvalue
    · exact nomatch hpure

theorem pairs_eq_error {segs : List Text} {e : QueryError} (h : pairs segs = .error e) :
    ∃ fault, e = .notUtf8 fault := by
  induction segs with
  | nil => exact nomatch h
  | cons segment rest ih =>
    rcases bind_eq_error.1 h with hpair | ⟨p, -, hrest⟩
    · exact pair_eq_error hpair
    · rcases bind_eq_error.1 hrest with hpairs | ⟨ps, -, hpure⟩
      · exact ih hpairs
      · exact nomatch hpure

theorem parse_cases (query : Text) :
    (∃ shown, Escape.malformed? query = some shown ∧ parse query = .error (.badEscape shown)) ∨
      (¬ Escape.HasBadEscape query ∧ ';' ∈ query ∧ parse query = .error .semicolon) ∨
      (¬ Escape.HasBadEscape query ∧ ';' ∉ query ∧
        parse query = (pairs (segments query)).map Params.ofPairs) := by
  cases hm : Escape.malformed? query with
  | some shown =>
    have hparse : parse query = .error (.badEscape shown) := by rw [parse, hm]
    exact .inl ⟨shown, rfl, hparse⟩
  | none =>
    have hgood := Escape.malformed?_eq_none_iff.1 hm
    by_cases hsemicolon : ';' ∈ query
    · have hparse : parse query = .error .semicolon := by
        rw [parse, hm]
        exact if_pos hsemicolon
      exact .inr (.inl ⟨hgood, hsemicolon, hparse⟩)
    · have hparse : parse query = (pairs (segments query)).map Params.ofPairs := by
        rw [parse, hm]
        exact if_neg hsemicolon
      exact .inr (.inr ⟨hgood, hsemicolon, hparse⟩)

theorem parse_eq_ok {query : Text} {params : Params} : parse query = .ok params ↔
    ¬ Escape.HasBadEscape query ∧ ';' ∉ query ∧
      ∃ ps, pairs (segments query) = .ok ps ∧ Params.ofPairs ps = params := by
  rcases parse_cases query with ⟨shown, hm, h⟩ | ⟨hgood, hsemicolon, h⟩ | ⟨hgood, hsemicolon, h⟩
  · rw [h]
    refine iff_of_false nofun fun hlegal => ?_
    rw [Escape.malformed?_eq_none_iff.2 hlegal.1] at hm
    exact nomatch hm
  · rw [h]
    exact iff_of_false nofun fun hlegal => hlegal.2.1 hsemicolon
  · rw [h, map_eq_ok, and_iff_right hgood, and_iff_right hsemicolon]

/-- A query string is refused for a bad escape, for a semicolon, or for bytes that are not UTF-8, and for
the first of these that there is. A bad escape is shown, and of several the first one. -/
theorem refuses_exactly_illegal (query : Text) :
    (Fails (parse query) ↔
        Escape.HasBadEscape query ∨ ';' ∈ query ∨ HasIllFormedSide query) ∧
      (∀ shown, parse query = .error (.badEscape shown) ↔ Escape.IsFirstBadEscape query shown) ∧
      (parse query = .error .semicolon ↔ ¬ Escape.HasBadEscape query ∧ ';' ∈ query) ∧
      ((∃ fault, parse query = .error (.notUtf8 fault)) ↔
        ¬ Escape.HasBadEscape query ∧ ';' ∉ query ∧ HasIllFormedSide query) := by
  simp only [← Escape.malformed?_eq_some_iff]
  rcases parse_cases query with ⟨shown, hm, h⟩ | ⟨hgood, hsemicolon, h⟩ | ⟨hgood, hsemicolon, h⟩
  · have hbad : Escape.HasBadEscape query := by
      by_contra hgood
      rw [Escape.malformed?_eq_none_iff.2 hgood] at hm
      exact nomatch hm
    rw [h, hm]
    refine ⟨iff_of_true ⟨_, rfl⟩ (.inl hbad), ?_, iff_of_false nofun fun hno => hno.1 hbad,
      iff_of_false nofun fun hno => hno.1 hbad⟩
    intro shown'
    rw [Except.error.injEq, QueryError.badEscape.injEq, Option.some.injEq]
  · rw [h, Escape.malformed?_eq_none_iff.2 hgood]
    exact ⟨iff_of_true ⟨_, rfl⟩ (.inr (.inl hsemicolon)), fun shown => iff_of_false nofun nofun,
      iff_of_true rfl ⟨hgood, hsemicolon⟩, iff_of_false nofun fun hno => hno.2.1 hsemicolon⟩
  · have hfails : Fails (parse query) ↔ HasIllFormedSide query := by
      rw [h, fails_map, fails_pairs_segments hgood]
    have hkind {e : QueryError} (he : parse query = .error e) : ∃ fault, e = .notUtf8 fault := by
      rw [h, map_eq_error] at he
      exact pairs_eq_error he
    rw [Escape.malformed?_eq_none_iff.2 hgood]
    refine ⟨?_, ?_, ?_, ?_⟩
    · rw [hfails, or_iff_right hgood, or_iff_right hsemicolon]
    · intro shown
      refine iff_of_false (fun he => ?_) nofun
      obtain ⟨fault, heq⟩ := hkind he
      exact nomatch heq
    · refine iff_of_false (fun he => ?_) fun hno => hsemicolon hno.2
      obtain ⟨fault, heq⟩ := hkind he
      exact nomatch heq
    · rw [and_iff_right hgood, and_iff_right hsemicolon, ← hfails]
      constructor
      · rintro ⟨fault, he⟩
        exact ⟨_, he⟩
      · rintro ⟨e, he⟩
        obtain ⟨fault, rfl⟩ := hkind he
        exact ⟨fault, he⟩

end FindQuery.Query
