import FindQuery.Proofs.Group.Fate
import FindQuery.Proofs.Request.Refusal

/-! The records of a parse. -/

namespace FindQuery.Journal

def note (message : Text) : Record :=
  ⟨fullName parserName parserComponent, Level.debug, message⟩

section Notes
variable {j : Journal} {stamp : Stamp}

theorem ancestors_files (j : Journal) (files : Files) (bound : Nat) (name : Text) :
    ({ j with files := files } : Journal).ancestors bound name = j.ancestors bound name := by
  induction bound generalizing name with
  | zero => rfl
  | succ bound ih =>
    have hparent : ({ j with files := files } : Journal).parent? name = j.parent? name := rfl
    rw [ancestors, ancestors, hparent]
    cases j.parent? name with
    | none => rfl
    | some above => exact congrArg (above :: ·) (ih above)

theorem admits_files (j : Journal) (files : Files) (name : Text) (level : Level) :
    ({ j with files := files } : Journal).admits name level = j.admits name level := by
  unfold admits effectiveLevel lineage
  rw [ancestors_files]
  rfl

def recorded (j : Journal) (name : Text) (level : Level) (message : Text) : List Record :=
  if j.admits name level then [⟨name, level, message⟩] else []

theorem record_eq (j : Journal) (stamp : Stamp) (name : Text) (level : Level) (message : Text) :
    ∃ files, j.record stamp name level message =
      ({ j with files := files }, j.recorded name level message) := by
  unfold record recorded
  split
  · exact ⟨_, rfl⟩
  · exact ⟨j.files, rfl⟩

theorem noteDropped_eq (j : Journal) (stamp : Stamp) (ds : List Group.Dropped) :
    ∃ files, j.noteDropped stamp ds = ({ j with files := files }, ds.flatMap fun d =>
      j.recorded (fullName parserName parserComponent) Level.debug d.message) := by
  induction ds generalizing j with
  | nil => exact ⟨j.files, rfl⟩
  | cons d rest ih =>
    obtain ⟨files, hrecord⟩ := record_eq j stamp (fullName parserName parserComponent)
      Level.debug d.message
    obtain ⟨files', hrest⟩ := ih { j with files := files }
    refine ⟨files', ?_⟩
    simp only [noteDropped, hrecord, hrest, List.flatMap_cons, recorded, admits_files]

theorem noteDropped_of_admits
    (h : j.admits (fullName parserName parserComponent) Level.debug = true)
    (ds : List Group.Dropped) :
    (j.noteDropped stamp ds).2 = (ds.map Group.Dropped.message).map note := by
  obtain ⟨files, heq⟩ := noteDropped_eq j stamp ds
  rw [heq, List.map_map, List.map_eq_flatMap]
  exact List.flatMap_congr fun d _ => if_pos h

theorem noteDropped_of_not_admits
    (h : j.admits (fullName parserName parserComponent) Level.debug = false)
    (ds : List Group.Dropped) : (j.noteDropped stamp ds).2 = [] := by
  obtain ⟨files, heq⟩ := noteDropped_eq j stamp ds
  rw [heq]
  exact List.flatMap_eq_nil_iff.2 fun d _ => if_neg (by rw [h]; exact Bool.false_ne_true)

end Notes

open FindQuery.Group

/-- Some triples with what became of them, and the triples behind them, together all triples of a
request, each once and in order. -/
structure Fates [Host] (params : Params) (fates : List (Triple × Fate)) (rest : List Triple) : Prop where
  seen (t : Triple) : t ∈ fates.map Prod.fst ++ rest ↔ ∃ key ∈ params.keys, t.HasKey key
  once : (fates.map Prod.fst ++ rest).Nodup
  sorted : (fates.map Prod.fst ++ rest).Pairwise (Triple.Precedes params)
  becomes : ∀ f ∈ fates, f.1.Becomes defaultOptions params f.2

theorem Fates.of_sortedTriples [Host] {params : Params} {fates : List (Triple × Fate)} {rest : List Triple}
    (h : sortedTriples params = .ok (fates.map Prod.fst ++ rest))
    (hbecomes : ∀ f ∈ fates, f.1.Becomes defaultOptions params f.2) : Fates params fates rest := by
  obtain ⟨hperm, hsorted⟩ := sortedTriples_eq_ok h
  refine ⟨?_, hperm.nodup_iff.2 (nodup_triples params), hsorted, hbecomes⟩
  intro t
  rw [hperm.mem_iff, mem_triples]

/-- No condition is lost without a trace, if the parser may record what it drops. When the parse
ends well, the leaves of the filters and the records are those that the triples came to, and the
records are in the order of the triples. When it does not, there are no records, or those of the
triples in front of one whose value cannot be read. -/
theorem parse_leaves_or_records [Host] {j j' : Journal} {stamp : Stamp} {params : Params}
    {made : List Record} {outcome : Except ResolveError Filters}
    (hdebug : j.attachParser.admits (fullName parserName parserComponent) Level.debug = true)
    (hparse : j.parse stamp params = (j', made, outcome)) :
    (∀ filters, outcome = .ok filters → ∃ fates, Fates params fates [] ∧
        (leavesOf filters).Perm ((builtOf fates).map fun p => (p.1.name, p.2)) ∧
        made = (messagesOf fates).map note) ∧
      (∀ e, outcome = .error e → (HasFalseNumeral params ∧ made = []) ∨
        ∃ fates t rest, Fates params fates (t :: rest) ∧ t.IsUnvalued params ∧
          made = (messagesOf fates).map note) ∧
      (ReadsDates params → ∀ e, outcome = .error e → made = []) := by
  have hrun : j.parse stamp params =
      ((j.attachParser.noteDropped stamp (dropped defaultOptions params)).1,
        (j.attachParser.noteDropped stamp (dropped defaultOptions params)).2,
        Resolver.parse params) := rfl
  obtain ⟨-, hrest⟩ := Prod.mk.inj (hrun.symm.trans hparse)
  obtain ⟨hmade, houtcome⟩ := Prod.mk.inj hrest
  rw [noteDropped_of_admits hdebug] at hmade
  have herror : ∀ e, outcome = .error e → (HasFalseNumeral params ∧ made = []) ∨
      ∃ fates t rest, Fates params fates (t :: rest) ∧ t.IsUnvalued params ∧
        made = (messagesOf fates).map note := by
    intro e he
    obtain ⟨cause, hcause, -⟩ := mapError_eq_error.1 (houtcome.trans he)
    rcases exists_fates_of_parse_error hcause with ⟨hfails, hnone⟩ |
      ⟨fates, t, rest, hsorted, hunvalued, hbecomes, hmessages⟩
    · obtain ⟨t, ht, hunordered⟩ := fails_sortedTriples.1 hfails
      rw [hnone] at hmade
      exact .inl ⟨⟨t, mem_triples.1 ht, hunordered⟩, hmade.symm⟩
    · rw [hmessages] at hmade
      exact .inr ⟨fates, t, rest, .of_sortedTriples hsorted hbecomes, hunvalued, hmade.symm⟩
  refine ⟨?_, herror, ?_⟩
  · intro filters hfilters
    obtain ⟨fates, hsorted, hbecomes, hleaves, hmessages⟩ :=
      exists_fates_of_parse (mapError_eq_ok.1 (houtcome.trans hfilters))
    rw [hmessages] at hmade
    rw [← List.append_nil (fates.map Prod.fst)] at hsorted
    exact ⟨fates, .of_sortedTriples hsorted hbecomes, hleaves, hmade.symm⟩
  · intro hdates e he
    rcases herror e he with ⟨-, hnone⟩ | ⟨fates, t, rest, -, hunvalued, -⟩
    · exact hnone
    · exact absurd hunvalued (hdates.not_isUnvalued t)

def halfRequest : Params :=
  [(Triple.key ⟨['g'], ['0'], ['0']⟩ .field, [['a']]),
    (Triple.key ⟨['g'], ['0'], ['0']⟩ .condition, ["near".toList]),
    (Triple.key ⟨['f'], ['0'], ['1']⟩ .value, [['b']]),
    (Triple.key ⟨['f'], ['0'], ['0']⟩ .field, [['c']])]

theorem parse_leaves_or_records_halfRequest :
    (start 10 false []).attachParser.admits (fullName parserName parserComponent) Level.debug =
        true ∧
      ∃ made filters,
        ((start 10 false []).parse ⟨[], []⟩ halfRequest).2 = (made, .ok filters) ∧
        made.map (·.message) =
          ["Dropping filter group g[0][0]: unknown condition".toList
              ++ " | Context: \x7b\"condition\": \"near\"\x7d".toList,
            "Dropping filter group f[0][1]: missing field".toList] ∧
        ∃ fates, Fates halfRequest fates [] ∧
          (leavesOf filters).Perm ((builtOf fates).map fun p => (p.1.name, p.2)) ∧
          made = (messagesOf fates).map note := by
  have hdebug : (start 10 false []).attachParser.admits (fullName parserName parserComponent)
      Level.debug = true := by decide +kernel
  have hfilters : ((start 10 false []).parse ⟨[], []⟩ halfRequest).2.2 =
      .ok [(['f'], ⟨[.leaf .eq ['c'] (.text [])]⟩)] := by decide +kernel
  have hparse : (start 10 false []).parse ⟨[], []⟩ halfRequest = (_, _, _) := rfl
  have hfates := (parse_leaves_or_records hdebug hparse).1 _ hfilters
  refine ⟨hdebug, _, _, Prod.ext rfl hfilters, ?_, hfates⟩
  decide +kernel

def longHourRequest : Params :=
  [(Triple.key ⟨['a'], ['0'], ['0']⟩ .value, [['x']]),
    (Triple.key ⟨['a'], ['0'], ['1']⟩ .field, [['x']]),
    (Triple.key ⟨['a'], ['0'], ['1']⟩ .value, ["11111111111111111111111111111h".toList])]

theorem record_before_refused_parse :
    (start 10 false []).attachParser.admits (fullName parserName parserComponent) Level.debug =
        true ∧
      ((start 10 false []).parse ⟨[], []⟩ longHourRequest).2 =
        ([note "Dropping filter group a[0][0]: missing field".toList],
          .error (.parse (.precision ⟨⟩))) := by
  constructor
  · decide +kernel
  · decide +kernel

end FindQuery.Journal
