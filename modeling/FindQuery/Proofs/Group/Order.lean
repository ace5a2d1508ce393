import Mathlib.Data.List.Basic
import FindQuery.Proofs.Group.Distinct
import FindQuery.Proofs.Group.Key
import FindQuery.Proofs.Outcome
import FindQuery.Proofs.StableSort

/-! The order of the triples of a request. -/

namespace FindQuery

theorem Text.le_antisymm {s t : Text} (h : le s t = true) (h' : le t s = true) : s = t := by
  induction s generalizing t with
  | nil =>
    cases t with
    | nil => rfl
    | cons b bs => exact nomatch h'
  | cons a as ih =>
    cases t with
    | nil => exact nomatch h
    | cons b bs =>
      simp only [le, Bool.or_eq_true, Bool.and_eq_true, decide_eq_true_eq] at h h'
      rcases h with h | ⟨rfl, h⟩
      · rcases h' with h' | ⟨rfl, h'⟩
        · omega
        · omega
      · rcases h' with h' | ⟨-, h'⟩
        · omega
        · rw [ih h h']

namespace Group

theorem IndexKey.le_antisymm {a b : IndexKey} (h : a.le b = true) (h' : b.le a = true) :
    a = b := by
  cases a with
  | number m =>
    cases b with
    | number n =>
      simp only [le, decide_eq_true_eq] at h h'
      rw [Nat.le_antisymm h h']
    | word t => exact absurd h' Bool.false_ne_true
  | word s =>
    cases b with
    | number n => exact absurd h Bool.false_ne_true
    | word t => rw [Text.le_antisymm h h']

namespace Rank

theorem le_iff {a b : Rank} :
    a.le b = true ↔ a.name < b.name ∨ (a.name = b.name ∧
      ((a.andKey = b.andKey ∧ a.orKey.le b.orKey = true) ∨
        (a.andKey ≠ b.andKey ∧ a.andKey.le b.andKey = true))) := by
  simp only [le, Bool.or_eq_true, Bool.and_eq_true, decide_eq_true_eq]
  by_cases h : a.andKey = b.andKey
  · simp [h]
  · simp [h]

theorem le_total (a b : Rank) : a.le b = true ∨ b.le a = true := by
  rw [le_iff, le_iff]
  rcases Nat.lt_trichotomy a.name b.name with hn | hn | hn
  · exact .inl (.inl hn)
  · by_cases hk : a.andKey = b.andKey
    · rcases IndexKey.le_total a.orKey b.orKey with ho | ho
      · exact .inl (.inr ⟨hn, .inl ⟨hk, ho⟩⟩)
      · exact .inr (.inr ⟨hn.symm, .inl ⟨hk.symm, ho⟩⟩)
    · rcases IndexKey.le_total a.andKey b.andKey with ha | ha
      · exact .inl (.inr ⟨hn, .inr ⟨hk, ha⟩⟩)
      · exact .inr (.inr ⟨hn.symm, .inr ⟨Ne.symm hk, ha⟩⟩)
  · exact .inr (.inl hn)

theorem le_trans {a b c : Rank} (h : a.le b = true) (h' : b.le c = true) : a.le c = true := by
  rw [le_iff] at h h' ⊢
  rcases h with h | ⟨hn, h⟩
  · rcases h' with h' | ⟨hn', -⟩
    · exact .inl (by omega)
    · exact .inl (by omega)
  · rcases h' with h' | ⟨hn', h'⟩
    · exact .inl (by omega)
    · refine .inr ⟨hn.trans hn', ?_⟩
      rcases h with ⟨hk, h⟩ | ⟨hk, h⟩
      · rcases h' with ⟨hk', h'⟩ | ⟨hk', h'⟩
        · exact .inl ⟨hk.trans hk', IndexKey.le_trans h h'⟩
        · exact .inr ⟨hk ▸ hk', hk ▸ h'⟩
      · rcases h' with ⟨hk', h'⟩ | ⟨hk', h'⟩
        · exact .inr ⟨hk' ▸ hk, hk' ▸ h⟩
        · refine .inr ⟨?_, IndexKey.le_trans h h'⟩
          -- The outer keys cannot be equal with another one strictly between them.
          intro hac
          exact hk (IndexKey.le_antisymm h (hac ▸ h'))

theorem le_antisymm {a b : Rank} (h : a.le b = true) (h' : b.le a = true) : a = b := by
  rw [le_iff] at h h'
  rcases h with h | ⟨hn, h⟩
  · omega
  · rcases h' with h' | ⟨-, h'⟩
    · omega
    · rcases h with ⟨hk, h⟩ | ⟨hk, h⟩
      · rcases h' with ⟨-, h'⟩ | ⟨hk', -⟩
        · cases a
          cases b
          simp only [mk.injEq]
          exact ⟨hn, hk, IndexKey.le_antisymm h h'⟩
        · exact absurd hk.symm hk'
      · rcases h' with ⟨hk', -⟩ | ⟨-, h'⟩
        · exact absurd hk'.symm hk
        · exact absurd (IndexKey.le_antisymm h h') hk

end Rank

def Triple.HasKey (t : Triple) (key : Text) : Prop := ∃ a, t.IsKey a key

def HasName (name key : Text) : Prop := ∃ t : Triple, t.name = name ∧ t.HasKey key

theorem Triple.hasKey_iff {t : Triple} {key : Text} :
    t.HasKey key ↔ (splitKey? key).map Prod.fst = some t := by
  simp only [HasKey, ← splitKey?_eq_some_iff, Option.map_eq_some_iff, Prod.exists,
    exists_and_right, exists_eq_right]

theorem Triple.HasKey.isProper {t : Triple} {key : Text} (h : t.HasKey key) : t.IsProper := by
  obtain ⟨a, hproper, -⟩ := h
  exact hproper

theorem Triple.IsProper.hasKey {t : Triple} (h : t.IsProper) (a : Attribute) :
    t.HasKey (t.key a) := ⟨a, h, .inl rfl⟩

theorem Triple.HasKey.unique {s t : Triple} {key : Text} (hs : s.HasKey key) (ht : t.HasKey key) : s = t :=
  Option.some.inj ((hasKey_iff.1 hs).symm.trans (hasKey_iff.1 ht))

theorem hasName_iff {name key : Text} :
    HasName name key ↔ ((splitKey? key).map Prod.fst).map Triple.name = some name := by
  simp only [HasName, Triple.hasKey_iff, Option.map_eq_some_iff]
  constructor
  · rintro ⟨t, rfl, h⟩
    exact ⟨t, h, rfl⟩
  · rintro ⟨t, h, rfl⟩
    exact ⟨t, rfl, h⟩

instance (t : Triple) (key : Text) : Decidable (t.HasKey key) :=
  decidable_of_iff _ Triple.hasKey_iff.symm

instance (name key : Text) : Decidable (HasName name key) :=
  decidable_of_iff _ hasName_iff.symm

def Triple.place (params : Params) (t : Triple) : Nat :=
  params.keys.findIdx fun key => t.HasKey key

def namePlace (params : Params) (name : Text) : Nat :=
  params.keys.findIdx fun key => HasName name key

theorem mem_triples {params : Params} {t : Triple} :
    t ∈ triples params ↔ ∃ key ∈ params.keys, t.HasKey key := by
  simp only [triples, mem_distinct, List.mem_filterMap, Triple.hasKey_iff]

theorem nodup_triples (params : Params) : (triples params).Nodup := nodup_distinct _

theorem pairwise_triples (params : Params) :
    (triples params).Pairwise fun s t => s.place params < t.place params := by
  refine (pairwise_distinct_filterMap _ params.keys).imp fun {s t} h => ?_
  simpa only [Triple.place, Triple.hasKey_iff] using h

def names (params : Params) : List Text := distinct ((triples params).map (·.name))

theorem pairwise_names (params : Params) :
    (names params).Pairwise fun m n => namePlace params m < namePlace params n := by
  rw [names, triples, distinct_map_distinct, List.map_filterMap]
  refine (pairwise_distinct_filterMap _ params.keys).imp fun {m n} h => ?_
  simpa only [namePlace, hasName_iff] using h

theorem namePlace_lt_of_idxOf_le {params : Params} {m n : Text} (hm : m ∈ names params)
    (hn : n ∈ names params) (hne : m ≠ n) (hle : (names params).idxOf m ≤ (names params).idxOf n) :
    namePlace params m < namePlace params n := by
  have hidx : (names params).idxOf m ≠ (names params).idxOf n := fun h =>
    hne ((List.idxOf_inj hm).1 h)
  have hpair := List.pairwise_iff_getElem.1 (pairwise_names params) _ _
    (List.idxOf_lt_length_of_mem hm) (List.idxOf_lt_length_of_mem hn) (by omega)
  simpa only [List.getElem_idxOf] using hpair

def IndexLe (s t : Text) : Prop :=
  ∃ a b, IndexKey.ofText s = .ok a ∧ IndexKey.ofText t = .ok b ∧ a.le b = true

section Indices
variable {indices sorted : List Text}

theorem keyed_eq_mapM : keyed indices = indices.mapM fun s => (IndexKey.ofText s).map (·, s) := by
  induction indices with
  | nil => rfl
  | cons s rest ih =>
    rw [keyed, List.mapM_cons, ih]
    cases IndexKey.ofText s <;> rfl

theorem keyed_eq_ok {keys : List (IndexKey × Text)} (h : keyed indices = .ok keys) :
    keys.map Prod.snd = indices ∧ ∀ k ∈ keys, IndexKey.ofText k.2 = .ok k.1 :=
  mapM_pair_eq_ok (keyed_eq_mapM ▸ h)

theorem perm_sortIndices (h : sortIndices indices = .ok sorted) : sorted.Perm indices := by
  obtain ⟨keys, hkeys, rfl⟩ := map_eq_ok.1 h
  obtain ⟨rfl, -⟩ := keyed_eq_ok hkeys
  exact (perm_stableSort _ keys).map Prod.snd

/-- Whatever relation indices have by their places, sorted ones that the order does not part still have it. -/
theorem pairwise_sortIndices {R : Text → Text → Prop} (hR : indices.Pairwise R)
    (h : sortIndices indices = .ok sorted) :
    sorted.Pairwise fun s t => IndexLe s t ∧ (IndexLe t s → R s t) := by
  obtain ⟨keys, hkeys, rfl⟩ := map_eq_ok.1 h
  obtain ⟨rfl, hread⟩ := keyed_eq_ok hkeys
  have htrans (a b c : IndexKey × Text) : a.1.le b.1 = true → b.1.le c.1 = true → a.1.le c.1 = true :=
    IndexKey.le_trans
  have htotal (a b : IndexKey × Text) : a.1.le b.1 = true ∨ b.1.le a.1 = true := IndexKey.le_total a.1 b.1
  have hsorted := pairwise_stableSort_of_tied htrans htotal (List.pairwise_map.1 hR)
  refine List.pairwise_map.2 (hsorted.imp_of_mem ?_)
  rintro k l hk hl ⟨hle, htied⟩
  have hk := hread k (mem_stableSort.1 hk)
  have hl := hread l (mem_stableSort.1 hl)
  refine ⟨⟨k.1, l.1, hk, hl, hle⟩, ?_⟩
  rintro ⟨b, a, hb, ha, hba⟩
  obtain rfl := Except.ok.inj (hl.symm.trans hb)
  obtain rfl := Except.ok.inj (hk.symm.trans ha)
  exact htied hba

end Indices

/-- What it means that a triple is taken before another one. -/
structure Triple.Precedes (params : Params) (s t : Triple) : Prop where
  name_lt : s.name ≠ t.name → namePlace params s.name < namePlace params t.name
  and_le : s.name = t.name → IndexLe s.andIndex t.andIndex
  or_le : s.name = t.name → s.andIndex = t.andIndex → IndexLe s.orIndex t.orIndex
  tied : s.name = t.name → s.andIndex = t.andIndex → IndexLe t.orIndex s.orIndex →
    s.place params < t.place params

theorem rank_eq_ok {ns : List Text} {t : Triple} {r : Rank} :
    rank ns t = .ok r ↔ r.name = ns.idxOf t.name ∧ IndexKey.ofText t.andIndex = .ok r.andKey ∧
      IndexKey.ofText t.orIndex = .ok r.orKey := by
  obtain ⟨n, a, b⟩ := r
  simp only [rank, bind_eq_ok, pure, Except.pure, Except.ok.injEq, Rank.mk.injEq]
  constructor
  · rintro ⟨a', ha, b', hb, rfl, rfl, rfl⟩
    exact ⟨rfl, ha, hb⟩
  · rintro ⟨rfl, ha, hb⟩
    exact ⟨a, ha, b, hb, rfl, rfl, rfl⟩

theorem ranked_eq_mapM {ns : List Text} {ts : List Triple} :
    ranked ns ts = ts.mapM fun t => (rank ns t).map (·, t) := by
  induction ts with
  | nil => rfl
  | cons t rest ih =>
    rw [ranked, List.mapM_cons, ih]
    cases rank ns t <;> rfl

theorem ranked_eq_ok {ns : List Text} {ts : List Triple} {rs : List (Rank × Triple)}
    (h : ranked ns ts = .ok rs) : rs.map Prod.snd = ts ∧ ∀ p ∈ rs, rank ns p.2 = .ok p.1 :=
  mapM_pair_eq_ok (ranked_eq_mapM ▸ h)

theorem precedes_of_le {params : Params} {s t : Triple} {a b : Rank}
    (hs : s.name ∈ names params) (ht : t.name ∈ names params)
    (ha : rank (names params) s = .ok a) (hb : rank (names params) t = .ok b)
    (hle : a.le b = true) (htied : b.le a = true → s.place params < t.place params) :
    s.Precedes params t := by
  obtain ⟨hna, haa, hao⟩ := rank_eq_ok.1 ha
  obtain ⟨hnb, hba, hbo⟩ := rank_eq_ok.1 hb
  have hcases := Rank.le_iff.1 hle
  -- For equal names the rank compares the indices alone.
  have hsame (hn : s.name = t.name) : a.name = b.name := by rw [hna, hnb, hn]
  have hindices (hn : s.name = t.name) :
      (a.andKey = b.andKey ∧ a.orKey.le b.orKey = true) ∨
        (a.andKey ≠ b.andKey ∧ a.andKey.le b.andKey = true) := by
    rcases hcases with hlt | ⟨-, hk⟩
    · exact absurd (hsame hn) (Nat.ne_of_lt hlt)
    · exact hk
  have hkey (hi : s.andIndex = t.andIndex) : a.andKey = b.andKey := by
    rw [hi] at haa
    exact Except.ok.inj (haa.symm.trans hba)
  have hor (hn : s.name = t.name) (hi : s.andIndex = t.andIndex) :
      a.orKey.le b.orKey = true := by
    rcases hindices hn with ⟨-, ho⟩ | ⟨hne, -⟩
    · exact ho
    · exact absurd (hkey hi) hne
  refine ⟨?_, ?_, ?_, ?_⟩
  · intro hne
    refine namePlace_lt_of_idxOf_le hs ht hne ?_
    rw [← hna, ← hnb]
    rcases hcases with hlt | ⟨heq, -⟩
    · exact Nat.le_of_lt hlt
    · exact Nat.le_of_eq heq
  · intro hn
    refine ⟨a.andKey, b.andKey, haa, hba, ?_⟩
    rcases hindices hn with ⟨heq, -⟩ | ⟨-, hl⟩
    · rw [heq]
      exact (IndexKey.le_total b.andKey b.andKey).elim id id
    · exact hl
  · intro hn hi
    exact ⟨a.orKey, b.orKey, hao, hbo, hor hn hi⟩
  · rintro hn hi ⟨x, y, hx, hy, hxy⟩
    obtain rfl := Except.ok.inj (hbo.symm.trans hx)
    obtain rfl := Except.ok.inj (hao.symm.trans hy)
    exact htied (Rank.le_iff.2 (.inr ⟨(hsame hn).symm, .inl ⟨(hkey hi).symm, hxy⟩⟩))

theorem mem_names_of_mem {params : Params} {t : Triple} (h : t ∈ triples params) :
    t.name ∈ names params := mem_distinct.2 (List.mem_map.2 ⟨t, h, rfl⟩)

theorem perm_sortedTriples {params : Params} {ts : List Triple}
    (h : sortedTriples params = .ok ts) : ts.Perm (triples params) := by
  simp only [sortedTriples, bind_eq_ok, pure, Except.pure, Except.ok.injEq] at h
  obtain ⟨rs, hrs, rfl⟩ := h
  rw [← (ranked_eq_ok hrs).1]
  exact (perm_stableSort _ rs).map Prod.snd

theorem pairwise_sortedTriples {params : Params} {ts : List Triple}
    (h : sortedTriples params = .ok ts) :
    ts.Pairwise fun s t => ∃ a b, rank (names params) s = .ok a ∧ rank (names params) t = .ok b ∧
      a.le b = true ∧ (b.le a = true → s.place params < t.place params) := by
  simp only [sortedTriples, bind_eq_ok, pure, Except.pure, Except.ok.injEq] at h
  obtain ⟨rs, hrs, rfl⟩ := h
  obtain ⟨hmap, hrank⟩ := ranked_eq_ok hrs
  have hplace : rs.Pairwise fun p q => p.2.place params < q.2.place params := by
    have hseen := pairwise_triples params
    rw [← hmap, List.pairwise_map] at hseen
    exact hseen
  have htotal (p q : Rank × Triple) : p.1.le q.1 = true ∨ q.1.le p.1 = true :=
    Rank.le_total p.1 q.1
  have htrans (p q r : Rank × Triple) (h : p.1.le q.1 = true) (h' : q.1.le r.1 = true) :
      p.1.le r.1 = true := Rank.le_trans h h'
  have hsorted : (stableSort (fun p q => p.1.le q.1) rs).Pairwise fun p q =>
      p.1.le q.1 = true ∧ (q.1.le p.1 = true → p.2.place params < q.2.place params) :=
    pairwise_stableSort_of_tied htrans htotal hplace
  rw [List.pairwise_map]
  refine hsorted.imp_of_mem fun {p q} hp hq hpq => ?_
  exact ⟨p.1, q.1, hrank p (mem_stableSort.1 hp), hrank q (mem_stableSort.1 hq), hpq⟩

theorem sortedTriples_eq_ok {params : Params} {ts : List Triple}
    (h : sortedTriples params = .ok ts) :
    ts.Perm (triples params) ∧ ts.Pairwise (Triple.Precedes params) := by
  have hperm := perm_sortedTriples h
  have hname (t : Triple) (ht : t ∈ ts) : t.name ∈ names params :=
    mem_names_of_mem (hperm.mem_iff.1 ht)
  refine ⟨hperm, (pairwise_sortedTriples h).imp_of_mem fun {s t} hs ht hst => ?_⟩
  obtain ⟨a, b, ha, hb, hle, htied⟩ := hst
  exact precedes_of_le (hname s hs) (hname t ht) ha hb hle htied

end Group
end FindQuery
