import FindQuery.Proofs.Group.Isolation
import FindQuery.Proofs.Request.Form
import FindQuery.Proofs.Settings

/-! The filter name of the settings. -/

namespace FindQuery

namespace Group

section Brackets
variable {s t : Triple} {a : Attribute}

theorem countP_isBracket_eq_zero {p : Text} : p.countP isBracket = 0 ↔ ∀ c ∈ p, isBracket c = false := by
  simp only [List.countP_eq_zero, Bool.not_eq_true]

theorem countP_bracketed {p : Text} (h : IsPart p) : (bracketed p).countP isBracket = 2 := by
  rw [bracketed, List.countP_append, List.countP_cons, countP_isBracket_eq_zero.2 h.2]
  rfl

theorem countP_key (hand : IsPart t.andIndex) (hor : IsPart t.orIndex) (a : Attribute) :
    (t.key a).countP isBracket = t.name.countP isBracket + 6 := by
  rw [Triple.key, Triple.stem, List.countP_append, List.countP_append, List.countP_append,
    countP_bracketed hand, countP_bracketed hor, countP_bracketed a.isPart_word]

theorem countP_of_hasKey {key : Text} (h : s.HasKey key) : key.countP isBracket = 6 := by
  obtain ⟨b, hs, hkey⟩ := h
  have hcount : (s.key b).countP isBracket = 6 := by
    rw [countP_key hs.andIndex hs.orIndex, countP_isBracket_eq_zero.2 hs.name.2]
  rcases hkey with rfl | rfl
  · exact hcount
  · rw [List.countP_append, hcount]
    rfl

theorem head?_of_hasKey {key : Text} (h : s.HasKey key) : ∀ c ∈ key.head?, isBracket c = false := by
  obtain ⟨rest, rfl⟩ := Triple.HasKey.isPrefix h
  have hname := h.isProper.name
  rw [List.append_assoc, List.head?_append_of_ne_nil _ hname.1]
  exact fun c hc => hname.2 c (List.mem_of_mem_head? hc)

theorem isPart_name_of_hasKey (hand : IsPart t.andIndex) (hor : IsPart t.orIndex)
    (h : s.HasKey (t.key a)) : IsPart t.name := by
  have hcount := countP_of_hasKey h
  rw [countP_key hand hor] at hcount
  refine ⟨fun hnil => ?_, countP_isBracket_eq_zero.1 (Nat.add_right_cancel hcount)⟩
  have hhead : '[' ∈ (t.key a).head? := by
    rw [Triple.key, Triple.stem, hnil]
    rfl
  exact Bool.false_ne_true (head?_of_hasKey h '[' hhead).symm

end Brackets

theorem named_of_not_isPart [Host] {options name : Text} {params : Params} {filters : Filters}
    (h : parse options params = .ok filters) (hname : ¬ IsPart name) : filters.named name = ⟨[]⟩ := by
  obtain ⟨conditions, hnamed, -, hmem⟩ := exists_named_eq_assemble h name
  cases conditions with
  | nil => exact hnamed
  | cons p rest =>
    obtain ⟨hkept, rfl⟩ := (hmem p.1).1 List.mem_cons_self
    obtain ⟨key, -, hkey⟩ := hkept.seen
    exact absurd hkey.isProper.name hname

end Group

def Params.soleCondition (name field value : Text) : Params :=
  [((Group.Triple.ofPosition name (0, 0)).key .field, [field]),
    ((Group.Triple.ofPosition name (0, 0)).key .value, [value])]

section Condition
open Params (soleCondition)
open FindQuery.Group (IsPart Triple Attribute)

variable {name field value : Text}

theorem mem_keys_soleCondition {key : Text} : key ∈ (soleCondition name field value).keys ↔
    key = (Triple.ofPosition name (0, 0)).key .field ∨
      key = (Triple.ofPosition name (0, 0)).key .value := by
  rw [soleCondition, Entries.keys_cons, Entries.keys_cons, Entries.keys_nil, List.mem_cons,
    List.mem_singleton]

theorem first_soleCondition_of_free {key : Text} (h : '[' ∉ key) :
    (soleCondition name field value).first key = [] := by
  have hbracket (a : Attribute) : '[' ∈ (Triple.ofPosition name (0, 0)).key a :=
    List.mem_append_right _ List.mem_cons_self
  apply Params.first_eq_nil
  rw [mem_keys_soleCondition]
  rintro (rfl | rfl)
  · exact h (hbracket .field)
  · exact h (hbracket .value)

theorem triples_soleCondition_of_not_isPart (h : ¬ IsPart name) :
    Group.triples (soleCondition name field value) = [] := by
  rw [List.eq_nil_iff_forall_not_mem]
  intro t ht
  obtain ⟨key, hkey, hhas⟩ := Group.mem_triples.1 ht
  rcases mem_keys_soleCondition.1 hkey with rfl | rfl
  · exact h (Group.isPart_name_of_hasKey (Group.isPart_ofNat 0) (Group.isPart_ofNat 0) hhas)
  · exact h (Group.isPart_name_of_hasKey (Group.isPart_ofNat 0) (Group.isPart_ofNat 0) hhas)

theorem parse_soleCondition_of_not_isPart [Host] (field value : Text) (h : ¬ IsPart name) :
    Group.parse Group.defaultOptions (soleCondition name field value) = .ok [] := by
  rw [Group.parse, Group.sortedTriples, triples_soleCondition_of_not_isPart h]
  rfl

theorem mem_triples_soleCondition (h : IsPart name) {t : Triple} :
    t ∈ Group.triples (soleCondition name field value) ↔
      t ∈ [((0, 0) : Nat × Nat)].map (Triple.ofPosition name) := by
  have hproper := Group.isProper_ofPosition h (0, 0)
  rw [Group.mem_triples, List.map_singleton, List.mem_singleton]
  constructor
  · rintro ⟨key, hkey, hhas⟩
    rcases mem_keys_soleCondition.1 hkey with rfl | rfl
    · exact hhas.unique (hproper.hasKey .field)
    · exact hhas.unique (hproper.hasKey .value)
  · rintro rfl
    exact ⟨_, mem_keys_soleCondition.2 (.inl rfl), hproper.hasKey .field⟩

theorem sortedTriples_soleCondition (h : IsPart name) :
    Group.sortedTriples (soleCondition name field value) = .ok [Triple.ofPosition name (0, 0)] := by
  show Group.sortedTriples _ = .ok ([((0, 0) : Nat × Nat)].map (Triple.ofPosition name))
  apply Group.sortedTriples_eq_ofPosition
  · exact List.forall_mem_singleton.2 ⟨by decide, by decide⟩
  · exact List.pairwise_singleton _ _
  · exact fun t => mem_triples_soleCondition h

theorem first_soleCondition (field value : Text) (h : IsPart name) :
    (soleCondition name field value).first ((Triple.ofPosition name (0, 0)).key .field) = field ∧
      (soleCondition name field value).first ((Triple.ofPosition name (0, 0)).key .value) = value ∧
      (soleCondition name field value).first ((Triple.ofPosition name (0, 0)).key .condition) = [] := by
  have hproper := Group.isProper_ofPosition h (0, 0)
  have hne {a b : Attribute} (hab : a ≠ b) : (Triple.ofPosition name (0, 0)).key a ≠
      (Triple.ofPosition name (0, 0)).key b := fun heq => hab (hproper.key_injective hproper heq).2
  refine ⟨?_, ?_, ?_⟩
  · rw [Params.first, soleCondition, Entries.get?, if_pos rfl]
  · rw [Params.first, soleCondition, Entries.get?, if_neg (hne (by decide)), Entries.get?, if_pos rfl]
  · apply Params.first_eq_nil
    rw [mem_keys_soleCondition, not_or]
    exact ⟨hne (by decide), hne (by decide)⟩

theorem complete_soleCondition (h : IsPart name) (hfield : field ≠ []) :
    Group.complete (soleCondition name field value) [Triple.ofPosition name (0, 0)] =
      [(Triple.ofPosition name (0, 0), .eq)] := by
  obtain ⟨hfirst, -, hcode⟩ := first_soleCondition field value h
  have hoperator : (Triple.ofPosition name (0, 0)).operator (soleCondition name field value) =
      .ok .eq := by
    rw [Triple.operator_eq_ok, hfirst, hcode]
    exact ⟨hfield, by decide⟩
  rw [Group.complete, List.filterMap_cons, hoperator]
  rfl

theorem parse_soleCondition [Host] (value : Text) (h : IsPart name) (hfield : field ≠ []) :
    Group.parse Group.defaultOptions (soleCondition name field value) =
      ((Coerce.value .eq value).mapError Group.ParseError.precision).map fun v =>
        [(name, ⟨[.leaf .eq field v]⟩)] := by
  have hleaf : Group.leaf Group.defaultOptions (soleCondition name field value)
      (Triple.ofPosition name (0, 0)) .eq = (Coerce.value .eq value).map (.leaf .eq field) := by
    obtain ⟨hfirst, hvalue, -⟩ := first_soleCondition field value h
    rw [Group.leaf_of_ne (by decide), Triple.rawField, Triple.rawValue, hfirst, hvalue]
  rw [Group.parse, sortedTriples_soleCondition h]
  show ((Group.leaves _ _ (Group.complete _ _)).mapError Group.ParseError.precision >>= _) = _
  rw [complete_soleCondition h hfield, Group.leaves, hleaf]
  cases Coerce.value .eq value with
  | error e => rfl
  | ok v =>
    have hgroup : ∀ group ∈ [[Node.leaf .eq field v]], group ≠ [] :=
      List.forall_mem_singleton.2 (List.cons_ne_nil _ _)
    have hassemble := Group.assemble_located name (List.cons_ne_nil _ _) hgroup
    show Except.ok ((Group.groupBy (·.1.name) [(Triple.ofPosition name (0, 0), _)]).map _) = _
    rw [Group.groupBy_of_forall_eq (k := name) (List.forall_mem_singleton.2 rfl)
      (List.cons_ne_nil _ _)]
    exact congrArg (fun f => Except.ok [(name, f)]) hassemble

end Condition

namespace Resolver
open Params (soleCondition)
open FindQuery.Group (IsPart)

variable {r : Resolver} {params : Params} {name field value : Text}

theorem exists_ofParams [Host] {filters : Group.Filters}
    (h : Group.parse Group.defaultOptions params = .ok filters) (hpage : ¬ r.HasLongPage params) :
    ∃ c, r.ofParams params = .ok c ∧
      Backend.full.convert (filters.named r.filterName).node = .ok c.filter := by
  have hparse : parse params = .ok filters := by rw [parse, h]; rfl
  obtain ⟨⟨c, line⟩, hcompose⟩ := not_fails_iff.1 (mt (fails_compose h).1 hpage)
  have hc : r.ofParams params = .ok c := by
    rw [ofParams, hparse]
    show (r.compose params filters >>= _) = _
    rw [hcompose]
    rfl
  obtain ⟨filters', hfilters, hdocument, -⟩ := ofParams_eq_ok hc
  obtain rfl := Except.ok.inj (h.symm.trans hfilters)
  exact ⟨c, hc, hdocument⟩

theorem not_hasLongPage_soleCondition (h : Numeral.isWritable r.defaultSize = true) :
    ¬ r.HasLongPage (soleCondition name field value) := by
  have hindex : Page.index (soleCondition name field value) = 0 := by
    rw [Page.index, first_soleCondition_of_free (by decide)]
    decide
  have hsize : r.pageSize (soleCondition name field value) = r.defaultSize := by
    apply pageSize_of_not_asked
    rw [first_soleCondition_of_free (by decide)]
    exact nofun
  rw [Numeral.isWritable, decide_eq_true_eq] at h
  rw [HasLongPage, hindex, hsize, not_or, Nat.not_lt, Nat.not_lt]
  exact ⟨by decide, h⟩

/-- The resolver reads a condition that is sent under the name: it asks that the field equal the value, and there
is no answer only when the value cannot be read to the end. -/
def ReadsUnder [Host] (r : Resolver) (name : Text) : Prop :=
  ∀ field value, field ≠ [] →
    (∀ v, Coerce.value .eq value = .ok v → ∃ c, r.ofParams (soleCondition name field value) = .ok c ∧
      c.filter = [(field, .document [(Operator.eq.token, v)])]) ∧
    ∀ e, Coerce.value .eq value = .error e →
      r.ofParams (soleCondition name field value) = .error (.parse (.precision e))

theorem readsUnder_of_isPart [Host] (hsize : Numeral.isWritable r.defaultSize = true)
    (h : IsPart r.filterName) : r.ReadsUnder r.filterName := by
  intro field value hfield
  have hparse := parse_soleCondition value h hfield
  constructor
  · intro v hv
    rw [hv] at hparse
    obtain ⟨c, hc, hdocument⟩ := exists_ofParams hparse (not_hasLongPage_soleCondition hsize)
    have hnamed : Group.Filters.named [(r.filterName, ⟨[.leaf .eq field v]⟩)] r.filterName =
        ⟨[.leaf .eq field v]⟩ := by
      rw [Group.Filters.named, Entries.get?, if_pos rfl]
      rfl
    have hconvert : Backend.full.convert (.filter [.leaf .eq field v]) =
        .ok [(field, .document [(Operator.eq.token, v)])] := by
      rw [Backend.convert_full_filter rfl, List.flatMap_singleton, Node.rendered, if_neg hfield]
      rfl
    rw [hnamed, Filter.node, hconvert] at hdocument
    exact ⟨c, hc, (Except.ok.inj hdocument).symm⟩
  · intro e he
    rw [he] at hparse
    rw [ofParams, parse, hparse]
    rfl

theorem filter_of_not_isPart [Host] (h : ¬ IsPart r.filterName) {c : Criteria} (hc : r.ofParams params = .ok c) :
    c.filter = [] := by
  obtain ⟨filters, hparse, hdocument, -⟩ := ofParams_eq_ok hc
  rw [Group.named_of_not_isPart hparse h] at hdocument
  exact (Except.ok.inj hdocument).symm

theorem exists_ofParams_of_not_isPart [Host] (hsize : Numeral.isWritable r.defaultSize = true)
    (h : ¬ IsPart r.filterName) (field value : Text) :
    ∃ c, r.ofParams (soleCondition r.filterName field value) = .ok c ∧ c.filter = [] := by
  obtain ⟨c, hc, -⟩ := exists_ofParams (parse_soleCondition_of_not_isPart field value h)
    (not_hasLongPage_soleCondition hsize)
  exact ⟨c, hc, filter_of_not_isPart h hc⟩

theorem isPart_of_readsUnder [Host] (h : r.ReadsUnder r.filterName) : IsPart r.filterName := by
  by_contra hname
  obtain ⟨c, hc, hfilter⟩ := (h ['a'] [] (List.cons_ne_nil _ _)).1 (.text []) rfl
  exact List.cons_ne_nil _ _ (hfilter.symm.trans (filter_of_not_isPart hname hc))

end Resolver

namespace Settings
open Params (soleCondition)
open FindQuery.Group (IsPart)

/-- The name of the settings is honoured when a key can hold it. If none can, there is still a resolver with the
name, and whatever is sent to it, what is sent under its name included, it admits everything. -/
theorem readsUnder_filterName_iff [Host] {env : Environment} {s : Settings} (h : ofEnvironment env = .ok s) :
    ∃ r, Resolver.ofSettings s = .ok r ∧ (r.ReadsUnder s.filterName ↔ IsPart s.filterName) ∧
      (¬ IsPart s.filterName →
        (∀ field value, ∃ c, r.ofParams (soleCondition s.filterName field value) = .ok c) ∧
          ∀ params c, r.ofParams params = .ok c → c.filter = []) := by
  obtain ⟨r, hr, hname, hdefault⟩ := Resolver.ofSettings_of_pos (defaultSize_pos h)
  have hsize : Numeral.isWritable r.defaultSize = true := by
    rw [hdefault]
    exact isWritable_defaultSize h
  rw [← hname]
  refine ⟨r, hr, ⟨Resolver.isPart_of_readsUnder, Resolver.readsUnder_of_isPart hsize⟩,
    fun hpart => ⟨fun field value => ?_, fun params c hc => Resolver.filter_of_not_isPart hpart hc⟩⟩
  obtain ⟨c, hc, -⟩ := Resolver.exists_ofParams_of_not_isPart hsize hpart field value
  exact ⟨c, hc⟩

def wordedEnvironment : Environment := [(filterNameVariable, "where\n".toList)]

theorem readsUnder_where : ofEnvironment wordedEnvironment = .ok ⟨"where\n".toList, 20⟩ ∧
    ∃ r, Resolver.ofSettings ⟨"where\n".toList, 20⟩ = .ok r ∧ r.ReadsUnder "where\n".toList := by
  have h : ofEnvironment wordedEnvironment = .ok ⟨"where\n".toList, 20⟩ := by decide +kernel
  obtain ⟨r, hr, hreads, -⟩ := readsUnder_filterName_iff h
  exact ⟨h, r, hr, hreads.2 (by decide)⟩

theorem emptyName_matches_everything :
    ofEnvironment [(filterNameVariable, []), (defaultSizeVariable, [])] = .ok ⟨[], 20⟩ ∧
      ∃ r, Resolver.ofSettings ⟨[], 20⟩ = .ok r ∧
        Coerce.value .eq ['A'] = .ok (.text ['A']) ∧
        r.ofParams (soleCondition [] "sku".toList ['A']) = .ok ⟨[], none, 0, 20⟩ :=
  ⟨by decide +kernel, ⟨[], 20, by decide⟩, rfl, by decide +kernel, by decide +kernel⟩

end Settings
end FindQuery
