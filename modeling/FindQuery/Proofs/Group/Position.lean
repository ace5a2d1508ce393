import Mathlib.Data.List.Nodup
import FindQuery.Proofs.Group.Failure

/-! Groups of members, and the triples under which they are written. -/

namespace FindQuery.Group

def Triple.ofPosition (name : Text) (p : Nat × Nat) : Triple :=
  ⟨name, Numeral.ofNat p.1, Numeral.ofNat p.2⟩

def Before (p q : Nat × Nat) : Prop := p.1 < q.1 ∨ (p.1 = q.1 ∧ p.2 < q.2)

theorem Before.ne {p q : Nat × Nat} (h : Before p q) : p ≠ q := by
  rintro rfl
  rcases h with h | ⟨-, h⟩
  · exact Nat.lt_irrefl _ h
  · exact Nat.lt_irrefl _ h

section Located
variable {α β : Type}

def locatedIn (group : List α × Nat) : List ((Nat × Nat) × α) :=
  group.1.zipIdx.map fun m => ((group.2, m.2), m.1)

def located (groups : List (List α)) : List ((Nat × Nat) × α) := groups.zipIdx.flatMap locatedIn

theorem fst_of_mem_locatedIn {group : List α × Nat} {p : (Nat × Nat) × α}
    (h : p ∈ locatedIn group) : p.1.1 = group.2 := by
  obtain ⟨m, -, rfl⟩ := List.mem_map.1 h
  rfl

theorem mem_located {groups : List (List α)} {p : (Nat × Nat) × α} (h : p ∈ located groups) :
    p.1.1 < groups.length ∧ ∃ group ∈ groups, p.1.2 < group.length ∧ p.2 ∈ group := by
  obtain ⟨⟨group, i⟩, hg, hp⟩ := List.mem_flatMap.1 h
  obtain ⟨⟨a, j⟩, hm, rfl⟩ := List.mem_map.1 hp
  obtain ⟨hi, -⟩ := List.mem_zipIdx' hg
  obtain ⟨hj, -⟩ := List.mem_zipIdx' hm
  exact ⟨hi, group, List.fst_mem_of_mem_zipIdx hg, hj, List.fst_mem_of_mem_zipIdx hm⟩

theorem pairwise_zipIdx (l : List α) : l.zipIdx.Pairwise fun a b => a.2 < b.2 := by
  have hrange : (l.zipIdx.map Prod.snd).Pairwise (· < ·) := by
    rw [List.zipIdx_map_snd]
    exact List.pairwise_lt_range'
  rw [List.pairwise_map] at hrange
  exact hrange

theorem pairwise_located (groups : List (List α)) :
    (located groups).Pairwise fun p q => Before p.1 q.1 := by
  rw [located, List.pairwise_flatMap]
  constructor
  · intro group _
    rw [locatedIn, List.pairwise_map]
    exact (pairwise_zipIdx group.1).imp fun h => .inr ⟨rfl, h⟩
  · refine (pairwise_zipIdx groups).imp fun {g h} hgh p hp q hq => ?_
    rw [Before, fst_of_mem_locatedIn hp, fst_of_mem_locatedIn hq]
    exact .inl hgh

end Located

theorem isPart_ofNat (n : Nat) : IsPart (Numeral.ofNat n) := by
  refine ⟨Numeral.ofNat_ne_nil n, ?_⟩
  intro c hc
  obtain ⟨d, hd, rfl, -⟩ := Numeral.decimalValue?_of_mem_ofNat hc
  have hall : ∀ d < 10, isBracket (Nat.digitChar d) = false := by decide
  exact hall d hd

theorem isProper_ofPosition {name : Text} (h : IsPart name) (p : Nat × Nat) :
    (Triple.ofPosition name p).IsProper := ⟨h, isPart_ofNat p.1, isPart_ofNat p.2⟩

theorem ofPosition_injective {name : Text} {p q : Nat × Nat}
    (h : Triple.ofPosition name p = Triple.ofPosition name q) : p = q := by
  obtain ⟨-, hand, hor⟩ := Triple.mk.inj h
  exact Prod.ext (Numeral.ofNat_injective hand) (Numeral.ofNat_injective hor)

def IsShort (p : Nat × Nat) : Prop :=
  Numeral.digitCount p.1 ≤ Numeral.maxDigits ∧ Numeral.digitCount p.2 ≤ Numeral.maxDigits

theorem IndexKey.ofText_ofNat {n : Nat} (h : Numeral.digitCount n ≤ Numeral.maxDigits) :
    IndexKey.ofText (Numeral.ofNat n) = .ok (.number n) := by
  have hdigits : (Numeral.ofNat n).all Text.isDigit = true := by
    rw [List.all_eq_true]
    intro c hc
    obtain ⟨d, -, -, hd⟩ := Numeral.decimalValue?_of_mem_ofNat hc
    rw [Text.isDigit, hd]
    rfl
  rw [ofText, if_pos ⟨Numeral.ofNat_ne_nil n, hdigits⟩, Numeral.read_ofNat h]
  rfl

theorem indexLe_ofNat {m n : Nat} (hm : Numeral.digitCount m ≤ Numeral.maxDigits)
    (hn : Numeral.digitCount n ≤ Numeral.maxDigits) :
    IndexLe (Numeral.ofNat m) (Numeral.ofNat n) ↔ m ≤ n := by
  unfold IndexLe
  simp only [IndexKey.ofText_ofNat hm, IndexKey.ofText_ofNat hn, Except.ok.injEq,
    exists_and_left, exists_eq_left', IndexKey.le, decide_eq_true_eq]

theorem not_isUnordered_ofPosition {name : Text} {p : Nat × Nat} (h : IsShort p) :
    ¬ (Triple.ofPosition name p).IsUnordered := by
  rw [Triple.IsUnordered, ← IndexKey.fails_ofText, ← IndexKey.fails_ofText, not_or]
  constructor
  · exact not_fails_iff.2 ⟨_, IndexKey.ofText_ofNat h.1⟩
  · exact not_fails_iff.2 ⟨_, IndexKey.ofText_ofNat h.2⟩

theorem precedes_ofPosition {params : Params} {name : Text} {p q : Nat × Nat} (hp : IsShort p)
    (hq : IsShort q) (h : Before p q) :
    (Triple.ofPosition name p).Precedes params (Triple.ofPosition name q) := by
  have hle : p.1 ≤ q.1 := by
    rcases h with h | ⟨h, -⟩
    · exact Nat.le_of_lt h
    · exact Nat.le_of_eq h
  have hlt (hindex : Numeral.ofNat p.1 = Numeral.ofNat q.1) : p.2 < q.2 := by
    rcases h with h | ⟨-, h⟩
    · exact absurd (Numeral.ofNat_injective hindex) (Nat.ne_of_lt h)
    · exact h
  refine ⟨fun hne => absurd rfl hne, fun _ => (indexLe_ofNat hp.1 hq.1).2 hle, ?_, ?_⟩
  · intro _ hindex
    exact (indexLe_ofNat hp.2 hq.2).2 (Nat.le_of_lt (hlt hindex))
  · intro _ hindex hback
    exact absurd ((indexLe_ofNat hq.2 hp.2).1 hback) (Nat.not_le.2 (hlt hindex))

theorem ofPosition_antisymm {params : Params} {name : Text} {p q : Nat × Nat} (hp : IsShort p)
    (hq : IsShort q)
    (h : (Triple.ofPosition name p).Precedes params (Triple.ofPosition name q))
    (h' : (Triple.ofPosition name q).Precedes params (Triple.ofPosition name p)) : p = q := by
  have hfst : p.1 = q.1 := Nat.le_antisymm ((indexLe_ofNat hp.1 hq.1).1 (h.and_le rfl))
    ((indexLe_ofNat hq.1 hp.1).1 (h'.and_le rfl))
  have hindex : Numeral.ofNat p.1 = Numeral.ofNat q.1 := congrArg Numeral.ofNat hfst
  have hsnd : p.2 = q.2 :=
    Nat.le_antisymm ((indexLe_ofNat hp.2 hq.2).1 (h.or_le rfl hindex))
      ((indexLe_ofNat hq.2 hp.2).1 (h'.or_le rfl hindex.symm))
  exact Prod.ext hfst hsnd

theorem sortedTriples_eq_ofPosition {params : Params} {name : Text} {ps : List (Nat × Nat)}
    (hshort : ∀ p ∈ ps, IsShort p) (hbefore : ps.Pairwise Before)
    (htriples : ∀ t, t ∈ triples params ↔ t ∈ ps.map (Triple.ofPosition name)) :
    sortedTriples params = .ok (ps.map (Triple.ofPosition name)) := by
  have hordered : ¬ Fails (sortedTriples params) := by
    rw [fails_sortedTriples]
    rintro ⟨t, ht, hunordered⟩
    obtain ⟨p, hp, rfl⟩ := List.mem_map.1 ((htriples t).1 ht)
    exact not_isUnordered_ofPosition (hshort p hp) hunordered
  obtain ⟨ts, hts⟩ := not_fails_iff.1 hordered
  obtain ⟨hperm, hsorted⟩ := sortedTriples_eq_ok hts
  have hnodup : (ps.map (Triple.ofPosition name)).Nodup := by
    rw [List.Nodup, List.pairwise_map]
    exact hbefore.imp fun hpq heq => hpq.ne (ofPosition_injective heq)
  have hperm' : ts.Perm (ps.map (Triple.ofPosition name)) :=
    hperm.trans ((List.perm_ext_iff_of_nodup (nodup_triples params) hnodup).2 htriples)
  have hsorted' : (ps.map (Triple.ofPosition name)).Pairwise (Triple.Precedes params) := by
    rw [List.pairwise_map]
    exact hbefore.imp_of_mem fun hp hq hpq =>
      precedes_ofPosition (hshort _ hp) (hshort _ hq) hpq
  -- Two orders of the same triples are one, since no two positions tie.
  have heq : ts = ps.map (Triple.ofPosition name) := by
    refine List.Perm.eq_of_pairwise ?_ hsorted hsorted' hperm'
    intro s t hs ht hst hts
    obtain ⟨p, hp, rfl⟩ := List.mem_map.1 (hperm'.mem_iff.1 hs)
    obtain ⟨q, hq, rfl⟩ := List.mem_map.1 ht
    rw [ofPosition_antisymm (hshort p hp) (hshort q hq) hst hts]
  rw [hts, heq]

def placed {α : Type} (name : Text) (p : (Nat × Nat) × α) : Triple × α :=
  (Triple.ofPosition name p.1, p.2)

theorem map_snd_placed {α : Type} (name : Text) (group : List α × Nat) :
    (((locatedIn group).map (placed name)).map Prod.snd) = group.1 := by
  rw [locatedIn, List.map_map, List.map_map]
  exact List.zipIdx_map_fst 0 group.1

def joined (groups : List (List Node)) : Node := combine .and (groups.map (combine .or))

theorem assemble_located (name : Text) {nodes : List (List Node)} (hne : nodes ≠ [])
    (hgroup : ∀ group ∈ nodes, group ≠ []) :
    assemble ((located nodes).map (placed name)) =
      ⟨[joined nodes]⟩ := by
  have hgroups : groupBy (·.1.andIndex) ((located nodes).map (placed name)) =
      nodes.zipIdx.map fun g => (Numeral.ofNat g.2, (locatedIn g).map (placed name)) := by
    rw [located, List.map_flatMap]
    apply groupBy_flatMap
    · intro g _ p hp
      obtain ⟨q, hq, rfl⟩ := List.mem_map.1 hp
      exact congrArg Numeral.ofNat (fst_of_mem_locatedIn hq)
    · intro g hg hnil
      have hmembers := map_snd_placed name g
      rw [hnil] at hmembers
      exact hgroup g.1 (List.fst_mem_of_mem_zipIdx hg) hmembers.symm
    · rw [List.Nodup, List.pairwise_map]
      exact (pairwise_zipIdx nodes).imp fun hlt heq =>
        Nat.ne_of_lt hlt (Numeral.ofNat_injective heq)
  have hconjuncts : (nodes.zipIdx.map fun g =>
      (Numeral.ofNat g.2, (locatedIn g).map (placed name))).map
        (fun g => combine .or (g.2.map Prod.snd)) = nodes.map (combine .or) := by
    have hmembers : ((fun g => combine .or (g.2.map Prod.snd)) ∘ fun g : List Node × Nat =>
        (Numeral.ofNat g.2, (locatedIn g).map (placed name))) = combine .or ∘ Prod.fst := by
      funext g
      exact congrArg (combine .or) (map_snd_placed name g)
    rw [List.map_map, hmembers, ← List.map_map, List.zipIdx_map_fst]
  have hsome : nodes.map (combine .or) ≠ [] := fun hnil => hne (List.map_eq_nil_iff.1 hnil)
  simp only [assemble, hgroups, hconjuncts, if_neg hsome, joined]

section Leaves
variable {options : Text} {params : Params}

theorem leaves_append [Host] (cs ds : List (Triple × Operator)) :
    leaves options params (cs ++ ds) = do
      let nodes ← leaves options params cs
      let others ← leaves options params ds
      return nodes ++ others := by
  rw [leaves_eq_mapM, leaves_eq_mapM, leaves_eq_mapM, List.mapM_append]

variable {α : Type} {name : Text} (operator : α → Operator)
  (node? : α → Except DateText.PrecisionError Node)

theorem leaves_zipIdx [Host] {i : Nat} {group : List α} {k : Nat}
    (h : ∀ m ∈ group.zipIdx k, leaf options params (.ofPosition name (i, m.2)) (operator m.1) =
      node? m.1) :
    leaves options params ((group.zipIdx k).map fun m =>
        (.ofPosition name (i, m.2), operator m.1)) =
      (group.mapM node?).map fun nodes => (nodes.zipIdx k).map fun m =>
        (.ofPosition name (i, m.2), m.1) := by
  induction group generalizing k with
  | nil => rfl
  | cons a rest ih =>
    have ha := h (a, k) List.mem_cons_self
    have hrest := ih fun m hm => h m (List.mem_cons_of_mem _ hm)
    simp only [List.zipIdx_cons, List.map_cons, leaves, ha, hrest, List.mapM_cons]
    cases node? a with
    | error e => rfl
    | ok node =>
      cases rest.mapM node? with
      | error e => rfl
      | ok nodes => rfl

theorem leaves_located [Host] {groups : List (List α)}
    (h : ∀ p ∈ located groups, leaf options params (.ofPosition name p.1) (operator p.2) =
      node? p.2) :
    leaves options params ((located groups).map fun p =>
        (.ofPosition name p.1, operator p.2)) =
      (groups.mapM fun group : List α => group.mapM node?).map fun nodes =>
        (located nodes).map (placed name) := by
  unfold located at h ⊢
  -- The number of the first group has to be free for the induction.
  generalize 0 = k at h ⊢
  induction groups generalizing k with
  | nil => rfl
  | cons group rest ih =>
    have hgroup : leaves options params ((locatedIn (group, k)).map fun p =>
        (.ofPosition name p.1, operator p.2)) = (group.mapM node?).map fun nodes =>
          (locatedIn (nodes, k)).map (placed name) := by
      simp only [locatedIn, List.map_map]
      apply leaves_zipIdx
      intro m hm
      exact h ((k, m.2), m.1) (List.mem_flatMap.2 ⟨(group, k), List.mem_cons_self,
        List.mem_map.2 ⟨m, hm, rfl⟩⟩)
    have hrest := ih (k + 1) fun p hp => h p (by
      rw [List.zipIdx_cons, List.flatMap_cons]
      exact List.mem_append_right _ hp)
    rw [List.zipIdx_cons, List.flatMap_cons, List.map_append, leaves_append, hgroup, hrest,
      List.mapM_cons]
    cases group.mapM node? with
    | error e => rfl
    | ok nodes =>
      cases rest.mapM fun group : List α => group.mapM node? with
      | error e => rfl
      | ok others =>
        show Except.ok ((locatedIn (nodes, k)).map (placed name) ++
          ((others.zipIdx (k + 1)).flatMap locatedIn).map (placed name)) = Except.ok _
        rw [← List.map_append]
        rfl

end Leaves

end FindQuery.Group
