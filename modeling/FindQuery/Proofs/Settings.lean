import FindQuery.Proofs.Numeral.Padded
import FindQuery.Proofs.Request.WellFormed

/-! Settings come of every environment but those that give a size which is no positive number. -/

namespace FindQuery

namespace Settings
open Numeral (IsPadded isWritable)

variable {env : Environment} {raw : Text} {s : Settings} {e : SettingsError} {n : Int}

def GivesSize (env : Environment) (raw : Text) : Prop :=
  env.get? defaultSizeVariable = some raw ∧ raw ≠ []

section Size

theorem readSize_eq_ok_iff : readSize raw = .ok n ↔ IsPadded raw n ∧ 0 < n := by
  rw [← Numeral.padded?_eq_some_iff, readSize]
  cases Numeral.padded? raw with
  | none => exact iff_of_false nofun nofun
  | some m =>
    show (if m ≤ 0 then .error (SettingsError.notPositive m) else .ok m) = Except.ok n ↔
      some m = some n ∧ 0 < n
    rw [Option.some.injEq]
    split
    · next hm => exact iff_of_false nofun fun h => by omega
    · next hm =>
      rw [Except.ok.injEq]
      exact ⟨fun h => ⟨h, by omega⟩, And.left⟩

theorem readSize_eq_error_iff : readSize raw = .error e ↔
    (e = .notAnInteger raw ∧ ∀ n, ¬ IsPadded raw n) ∨ ∃ n ≤ 0, e = .notPositive n ∧ IsPadded raw n := by
  simp only [← Numeral.padded?_eq_some_iff]
  rw [readSize]
  cases Numeral.padded? raw with
  | none =>
    rw [or_iff_left (fun ⟨_, _, _, h⟩ => nomatch h), Except.error.injEq, eq_comm]
    exact (and_iff_left nofun).symm
  | some m =>
    rw [or_iff_right (fun h => h.2 m rfl)]
    show (if m ≤ 0 then .error (SettingsError.notPositive m) else .ok m) = Except.error e ↔ _
    split
    · next hm =>
      rw [Except.error.injEq]
      constructor
      · rintro rfl
        exact ⟨m, hm, rfl, rfl⟩
      · rintro ⟨n, -, rfl, hn⟩
        rw [Option.some.inj hn]
    · next hm =>
      refine iff_of_false nofun ?_
      rintro ⟨n, hn, -, heq⟩
      exact hm (Option.some.inj heq ▸ hn)

theorem fails_readSize : Fails (readSize raw) ↔ ¬ ∃ n, IsPadded raw n ∧ 0 < n := by
  rw [← not_iff_not, not_fails_iff, not_not]
  exact exists_congr fun n => readSize_eq_ok_iff

end Size

section Environment

theorem ofEnvironment_of_givesSize (h : GivesSize env raw) :
    ofEnvironment env = (readSize raw).map fun size =>
      ⟨(env.get? filterNameVariable).getD defaults.filterName, size⟩ := by
  obtain ⟨hraw, hne⟩ := h
  cases raw with
  | nil => exact absurd rfl hne
  | cons c rest =>
    rw [ofEnvironment, hraw]
    show (readSize (c :: rest) >>= fun size => _) = _
    cases readSize (c :: rest) with
    | error e => rfl
    | ok size => rfl

theorem ofEnvironment_of_not_givesSize (h : ∀ raw, ¬ GivesSize env raw) :
    ofEnvironment env =
      .ok ⟨(env.get? filterNameVariable).getD defaults.filterName, defaults.defaultSize⟩ := by
  unfold ofEnvironment
  cases hraw : env.get? defaultSizeVariable with
  | none => rfl
  | some raw =>
    cases raw with
    | nil => rfl
    | cons c rest => exact absurd ⟨hraw, List.cons_ne_nil c rest⟩ (h (c :: rest))

theorem ofEnvironment_eq_ok (h : ofEnvironment env = .ok s) :
    s.filterName = (env.get? filterNameVariable).getD defaults.filterName ∧
      ((∃ raw, GivesSize env raw ∧ readSize raw = .ok s.defaultSize) ∨
        s.defaultSize = defaults.defaultSize) := by
  by_cases hgives : ∃ raw, GivesSize env raw
  · obtain ⟨raw, hraw⟩ := hgives
    rw [ofEnvironment_of_givesSize hraw, map_eq_ok] at h
    obtain ⟨size, hsize, rfl⟩ := h
    exact ⟨rfl, .inl ⟨raw, hraw, hsize⟩⟩
  · rw [ofEnvironment_of_not_givesSize (not_exists.1 hgives), Except.ok.injEq] at h
    obtain rfl := h
    exact ⟨rfl, .inr rfl⟩

theorem ofEnvironment_eq_error (h : ofEnvironment env = .error e) :
    ∃ raw, GivesSize env raw ∧ readSize raw = .error e := by
  by_cases hgives : ∃ raw, GivesSize env raw
  · obtain ⟨raw, hraw⟩ := hgives
    rw [ofEnvironment_of_givesSize hraw, map_eq_error] at h
    exact ⟨raw, hraw, h⟩
  · rw [ofEnvironment_of_not_givesSize (not_exists.1 hgives)] at h
    exact nomatch h

theorem fails_ofEnvironment : Fails (ofEnvironment env) ↔
    ∃ raw, GivesSize env raw ∧ ¬ ∃ n, IsPadded raw n ∧ 0 < n := by
  constructor
  · rintro ⟨e, he⟩
    obtain ⟨raw, hraw, hread⟩ := ofEnvironment_eq_error he
    exact ⟨raw, hraw, fails_readSize.1 ⟨e, hread⟩⟩
  · rintro ⟨raw, hraw, hsize⟩
    rw [ofEnvironment_of_givesSize hraw, fails_map]
    exact fails_readSize.2 hsize

theorem defaultSize_pos (h : ofEnvironment env = .ok s) : 0 < s.defaultSize := by
  rcases (ofEnvironment_eq_ok h).2 with ⟨raw, -, hread⟩ | hsize
  · exact (readSize_eq_ok_iff.1 hread).2
  · rw [hsize]
    decide

theorem isWritable_defaultSize (h : ofEnvironment env = .ok s) : isWritable s.defaultSize = true := by
  rcases (ofEnvironment_eq_ok h).2 with ⟨raw, -, hread⟩ | hsize
  · exact (readSize_eq_ok_iff.1 hread).1.isWritable
  · rw [hsize]
    decide

end Environment

end Settings

namespace Resolver

variable {r : Resolver} {params : Params} {c : Criteria} {s : Settings} {n : Int}

theorem ofSettings_of_pos (h : 0 < s.defaultSize) : ∃ r, ofSettings s = .ok r ∧
    r.filterName = s.filterName ∧ r.defaultSize = s.defaultSize :=
  ⟨_, dif_pos h, rfl, rfl⟩

inductive Gives [Host] (r : Resolver) (params : Params) (c : Criteria) : Prop
  | ofParams : r.ofParams params = .ok c → Gives r params c
  | ofQuery {query : Text} : Query.parse query = .ok params → r.ofQuery query = .ok c →
      Gives r params c

theorem Gives.eq_ofParams [Host] (h : r.Gives params c) : r.ofParams params = .ok c := by
  cases h with
  | ofParams h => exact h
  | ofQuery hparse h =>
    rw [Resolver.ofQuery, hparse] at h
    exact h

theorem pageSize_of_asked (h : Page.number? (params.first "size".toList) = some n) (hpos : 0 < n) :
    r.pageSize params = n := by
  rw [pageSize, Page.size, Page.requestedSize?, h, Option.bind_some, if_neg (Int.not_le.2 hpos),
    Option.getD_some]

theorem pageSize_of_not_asked
    (h : ∀ n, Page.number? (params.first "size".toList) = some n → n ≤ 0) :
    r.pageSize params = r.defaultSize := by
  rw [pageSize, Page.size, Page.requestedSize?]
  cases hsize : Page.number? (params.first "size".toList) with
  | none => rfl
  | some n => rw [Option.bind_some, if_pos (h n hsize), Option.getD_none]

end Resolver

namespace Settings
open Numeral (IsPadded isWritable)

/-- What is wrong with an environment is found when its settings are read. There is a resolver for all settings
that are read, and the size of a page is theirs unless a request asks for a positive one. -/
theorem ofEnvironment_sound [Host] (env : Environment) :
    (Fails (ofEnvironment env) ↔
      ∃ raw, env.get? defaultSizeVariable = some raw ∧ raw ≠ [] ∧ ¬ ∃ n, IsPadded raw n ∧ 0 < n) ∧
    (∀ e, ofEnvironment env = .error e → ∃ raw, env.get? defaultSizeVariable = some raw ∧
      ((e = .notAnInteger raw ∧ ∀ n, ¬ IsPadded raw n) ∨
        ∃ n ≤ 0, e = .notPositive n ∧ IsPadded raw n ∧ isWritable n = true)) ∧
    ∀ s, ofEnvironment env = .ok s → ∃ r, Resolver.ofSettings s = .ok r ∧
      ∀ params c, r.Gives params c →
        (∀ n, Page.number? (params.first "size".toList) = some n → 0 < n → c.size = n) ∧
        ((∀ n, Page.number? (params.first "size".toList) = some n → n ≤ 0) →
          c.size = s.defaultSize) := by
  refine ⟨?_, fun e he => ?_, fun s hs => ?_⟩
  · simp only [fails_ofEnvironment, GivesSize, and_assoc]
  · obtain ⟨raw, ⟨hraw, -⟩, hread⟩ := ofEnvironment_eq_error he
    refine ⟨raw, hraw, ?_⟩
    rcases readSize_eq_error_iff.1 hread with hnone | ⟨n, hn, rfl, hpadded⟩
    · exact .inl hnone
    · exact .inr ⟨n, hn, rfl, hpadded, hpadded.isWritable⟩
  · obtain ⟨r, hr, -, hsize⟩ := Resolver.ofSettings_of_pos (defaultSize_pos hs)
    refine ⟨r, hr, fun params c hgives => ?_⟩
    have hok := Resolver.ofParams_eq_ok hgives.eq_ofParams
    obtain ⟨-, -, -, -, -, hpage⟩ := hok
    rw [hpage, ← hsize]
    constructor
    · intro n hn hpos
      exact Resolver.pageSize_of_asked hn hpos
    · intro hnone
      rw [Resolver.pageSize_of_not_asked hnone]

def paddedEnvironment : Environment :=
  [(defaultSizeVariable, ['\u00A0', '+', '٢', '_', '٥', '\n'])]

theorem ofEnvironment_sound_padded :
    ofEnvironment paddedEnvironment = .ok ⟨"filters".toList, 25⟩ ∧
      ∃ r, Resolver.ofSettings ⟨"filters".toList, 25⟩ = .ok r ∧
        (∃ c, r.ofQuery "size=010".toList = .ok c ∧ c.size = 8) ∧
        ∃ c, r.ofQuery "size=-0x1".toList = .ok c ∧ c.size = 25 := by
  have hsettings : ofEnvironment paddedEnvironment = .ok ⟨"filters".toList, 25⟩ := by decide +kernel
  obtain ⟨r, hr, hgives⟩ := (ofEnvironment_sound paddedEnvironment).2.2 _ hsettings
  obtain rfl : ⟨"filters".toList, 25, by decide⟩ = r := Except.ok.inj hr
  refine ⟨hsettings, _, hr, ⟨⟨[], none, 0, 8⟩, by decide +kernel, ?_⟩,
    ⟨⟨[], none, 0, 25⟩, by decide +kernel, ?_⟩⟩
  · have hparse : Query.parse "size=010".toList = .ok [("size".toList, ["010".toList])] := by
      decide +kernel
    exact (hgives _ _ (.ofQuery hparse (by decide +kernel))).1 8 (by decide +kernel) (by decide)
  · have hparse : Query.parse "size=-0x1".toList = .ok [("size".toList, ["-0x1".toList])] := by
      decide +kernel
    have hread : Page.number? "-0x1".toList = some (-1) := by decide +kernel
    refine (hgives _ _ (.ofQuery hparse (by decide +kernel))).2 fun n hn => ?_
    obtain rfl := Option.some.inj (hread.symm.trans hn)
    decide

end Settings
end FindQuery
