import FindQuery.Proofs.Journal.Dropped
import FindQuery.Proofs.Value.Json

/-! The lines of what a parse records. -/

namespace FindQuery

namespace Text

/-- The text holds neither of the two characters that end a line. -/
def IsOneLine (s : Text) : Prop := '\n' ∉ s ∧ '\r' ∉ s

instance (s : Text) : Decidable s.IsOneLine := inferInstanceAs (Decidable (_ ∧ _))

theorem isOneLine_append {s more : Text} :
    (s ++ more).IsOneLine ↔ s.IsOneLine ∧ more.IsOneLine := by
  rw [IsOneLine, List.mem_append, List.mem_append, not_or, not_or]
  exact and_and_and_comm

theorem isOneLine_cons {c : Char} {s : Text} (hfeed : c ≠ '\n') (hreturn : c ≠ '\r') :
    IsOneLine (c :: s) ↔ s.IsOneLine := by
  rw [IsOneLine, List.mem_cons, List.mem_cons, or_iff_right hfeed.symm, or_iff_right hreturn.symm]
  rfl

theorem IsPrintableAscii.isOneLine {s : Text} (h : s.IsPrintableAscii) : s.IsOneLine :=
  ⟨fun hfeed => absurd (h _ hfeed) (by decide), fun hreturn => absurd (h _ hreturn) (by decide)⟩

end Text

namespace Group

structure Triple.IsOneLine (t : Triple) : Prop where
  name : t.name.IsOneLine
  andIndex : t.andIndex.IsOneLine
  orIndex : t.orIndex.IsOneLine

theorem isOneLine_bracketed {s : Text} : (bracketed s).IsOneLine ↔ s.IsOneLine := by
  rw [bracketed, Text.isOneLine_append, Text.isOneLine_cons (by decide) (by decide)]
  exact and_iff_left (by decide)

theorem Triple.isOneLine_iff {t : Triple} : t.IsOneLine ↔ t.stem.IsOneLine := by
  rw [stem, Text.isOneLine_append, Text.isOneLine_append, isOneLine_bracketed, isOneLine_bracketed]
  exact ⟨fun h => ⟨⟨h.name, h.andIndex⟩, h.orIndex⟩, fun h => ⟨h.1.1, h.1.2, h.2⟩⟩

theorem Dropped.exists_message_eq (d : Dropped) :
    ∃ ending : Text, ending.IsPrintableAscii ∧
      d.message = "Dropping filter group ".toList ++ d.triple.stem ++ ending := by
  obtain ⟨t, defect⟩ := d
  cases defect with
  | missingField => exact ⟨": missing field".toList, by decide, List.append_assoc _ _ _⟩
  | unknownCondition code =>
    let context : Value := .document [("condition".toList, .text code)]
    refine ⟨": unknown condition | Context: ".toList ++ context.json, ?_, ?_⟩
    · exact .append (by decide) (Value.isPrintableAscii_json context)
    · show _ ++ _ ++ _ ++ _ ++ _ ++ context.json = _
      simp only [List.append_assoc]
      rfl

theorem Dropped.isOneLine_message_iff (d : Dropped) :
    d.message.IsOneLine ↔ d.triple.IsOneLine := by
  obtain ⟨ending, hending, hmessage⟩ := d.exists_message_eq
  rw [hmessage, Text.isOneLine_append, Text.isOneLine_append, Triple.isOneLine_iff,
    and_iff_left hending.isOneLine, and_iff_right]
  decide

end Group

namespace Journal
open FindQuery.Group

theorem dropped_seen [Host] {options : Text} {params : Params} {d : Dropped}
    (h : d ∈ dropped options params) : ∃ key ∈ params.keys, d.triple.HasKey key := by
  unfold dropped at h
  split at h
  · next ts hts =>
    obtain ⟨t, ht, hdefect⟩ := List.mem_filterMap.1 h
    obtain ⟨defect, -, rfl⟩ := Option.map_eq_some_iff.1 hdefect
    have hmem : t ∈ ts := (List.takeWhile_subset _) ht
    exact mem_triples.1 ((perm_sortedTriples hts).mem_iff.1 hmem)
  · exact absurd h List.not_mem_nil

/-- What the parser records of a dropped condition adds no line break to those of its triple. All messages
of a parse are single lines exactly when they are not recorded at all or the triples of the dropped
conditions hold no line break, and so in particular when no triple of the request holds one. -/
theorem messages_one_line_iff [Host] (j : Journal) (stamp : Stamp) (params : Params) :
    let made := (j.parse stamp params).2.1
    (∀ r ∈ made, ∃ d ∈ dropped defaultOptions params, r = note d.message ∧
      (∃ ending : Text, ending.IsPrintableAscii ∧
        r.message = "Dropping filter group ".toList ++ d.triple.stem ++ ending) ∧
      (r.message.IsOneLine ↔ d.triple.IsOneLine)) ∧
    ((∀ r ∈ made, r.message.IsOneLine) ↔
      (j.attachParser.admits (fullName parserName parserComponent) Level.debug = true →
        ∀ d ∈ dropped defaultOptions params, d.triple.IsOneLine)) ∧
    ((∀ key ∈ params.keys, ∀ t : Triple, t.HasKey key → t.IsOneLine) →
      ∀ r ∈ made, r.message.IsOneLine) := by
  intro made
  have hmade : made =
      (j.attachParser.noteDropped stamp (dropped defaultOptions params)).2 := rfl
  clear_value made
  by_cases hadmits : j.attachParser.admits (fullName parserName parserComponent) Level.debug = true
  · rw [noteDropped_of_admits hadmits] at hmade
    subst hmade
    simp only [List.map_map, List.forall_mem_map, Function.comp_apply]
    have hline : ∀ d : Dropped, (note d.message).message.IsOneLine ↔ d.triple.IsOneLine :=
      Dropped.isOneLine_message_iff
    refine ⟨?_, ?_, ?_⟩
    · exact fun d hd => ⟨d, hd, rfl, d.exists_message_eq, hline d⟩
    · rw [forall_prop_of_true hadmits]
      exact forall₂_congr fun d _ => hline d
    · intro hkeys d hd
      obtain ⟨key, hkey, hhas⟩ := dropped_seen hd
      exact (hline d).2 (hkeys key hkey d.triple hhas)
  · rw [noteDropped_of_not_admits (Bool.not_eq_true _ ▸ hadmits)] at hmade
    subst hmade
    refine ⟨nofun, ?_, fun _ => nofun⟩
    exact iff_of_true nofun fun h => absurd h hadmits

def brokenCodeRequest : Params :=
  [(Triple.key ⟨['g'], ['0'], ['0']⟩ .field, [['a']]),
    (Triple.key ⟨['g'], ['0'], ['0']⟩ .condition, ["no\r\nsuch code".toList])]

theorem messages_one_line_brokenCode :
    ((start 10 false []).parse ⟨[], []⟩ brokenCodeRequest).2.1.map (·.message) =
        ["Dropping filter group g[0][0]: unknown condition".toList
          ++ " | Context: \x7b\"condition\": \"no\\r\\nsuch code\"\x7d".toList] ∧
      ∀ r ∈ ((start 10 false []).parse ⟨[], []⟩ brokenCodeRequest).2.1, r.message.IsOneLine := by
  have hones : ∀ t ∈ triples brokenCodeRequest, t.stem.IsOneLine := by decide +kernel
  constructor
  · decide +kernel
  · refine (messages_one_line_iff (start 10 false []) ⟨[], []⟩ brokenCodeRequest).2.2 ?_
    intro key hkey t ht
    exact Triple.isOneLine_iff.2 (hones t (mem_triples.2 ⟨key, hkey, ht⟩))

def forgingName : Text := "a\nT - doc-criteria.orders.Main - ERROR - stock lost".toList

theorem message_two_lines_forgingName :
    let stamp : Stamp := ⟨['T'], []⟩
    let params := [(Triple.key ⟨forgingName, ['0'], ['0']⟩ .value, [['x']])]
    let (j, made, _) := (start 10 true []).parse stamp params
    (∃ r ∈ made, ¬ r.message.IsOneLine) ∧
      j.files.get? (ownFile parserName parserComponent) =
        some (line .brief stamp (note "Dropping filter group a".toList) ++
          line .brief stamp ⟨"doc-criteria.orders.Main".toList, Level.error,
            "stock lost[0][0]: missing field".toList⟩) := by
  decide +kernel

end Journal
end FindQuery
