import FindQuery.Node.Build
import FindQuery.Proofs.Group.Position
import FindQuery.Proofs.Params.Basic
import FindQuery.Proofs.Params.Encoding

/-! Conditions in groups, as an expression and as parameters of a query string. -/

namespace FindQuery

namespace Condition

inductive Code
  | unnamed
  | eq
  | ne
  | gt
  | gte
  | lt
  | lte
  | isIn
  | notIn
  | regex
  | like
deriving DecidableEq

namespace Code

def word : Code → Text
  | .unnamed => []
  | .eq => "eq".toList
  | .ne => "ne".toList
  | .gt => "gt".toList
  | .gte => "gte".toList
  | .lt => "lt".toList
  | .lte => "lte".toList
  | .isIn => "in".toList
  | .notIn => "nin".toList
  | .regex => "regex".toList
  | .like => "like".toList

def operator : Code → Operator
  | .unnamed | .eq => .eq
  | .ne => .ne
  | .gt => .gt
  | .gte => .gte
  | .lt => .lt
  | .lte => .lte
  | .isIn => .isIn
  | .notIn => .notIn
  | .regex | .like => .regex

def construct (code : Code) (field : Text) (v : Value) : Node :=
  match code, v with
  | .unnamed, v | .eq, v => .eq field v
  | .ne, v => .ne field v
  | .gt, v => .gt field v
  | .gte, v => .gte field v
  | .lt, v => .lt field v
  | .lte, v => .lte field v
  | .isIn, .list vs => .isIn field vs
  | .notIn, .list vs => .notIn field vs
  | .regex, .text source | .like, .text source => .regex field source [['i']]
  | code, v => .leaf code.operator field v

theorem operator?_word (code : Code) : operator? code.word = some code.operator := by
  cases code <;> decide

end Code
end Condition

structure Clause where
  field : Text
  code : Condition.Code
  value : Text
  field_ne_nil : field ≠ []

namespace Clause

def node [Host] (c : Clause) : Except DateText.PrecisionError Node :=
  (Coerce.value c.code.operator c.value).map (c.code.construct c.field)

def text (c : Clause) : Group.Attribute → Text
  | .field => c.field
  | .value => c.value
  | .condition => c.code.word

end Clause

namespace Node

def join? (connective : Connective) : List Node → Except BuildError Node
  | [node] => .ok node
  | nodes => connect? connective nodes

def ofGroups? (groups : List (List Node)) : Except BuildError Node := do
  let conjuncts ← groups.mapM (join? .or)
  join? .and conjuncts

end Node

structure Form where
  name : Text
  groups : List (List Clause)
  isPart_name : Group.IsPart name
  groups_ne_nil : groups ≠ []
  group_ne_nil : ∀ group ∈ groups, group ≠ []
  short_groups : ∀ i < groups.length, Numeral.digitCount i ≤ Numeral.maxDigits
  short_group : ∀ group ∈ groups, ∀ j < group.length, Numeral.digitCount j ≤ Numeral.maxDigits

namespace Form

def pairs (f : Form) : List (Text × Text) :=
  (Group.located f.groups).flatMap fun p =>
    [Group.Attribute.field, .value, .condition].map fun a =>
      ((Group.Triple.ofPosition f.name p.1).key a, p.2.text a)

def triples (f : Form) : List Group.Triple :=
  (Group.located f.groups).map fun p => .ofPosition f.name p.1

/-- The query string writes the parameters, in whatever order. -/
def IsWrittenIn (f : Form) (query : Text) : Prop :=
  ∃ pairs : List (Text × Text), pairs.Perm f.pairs ∧ Query.Writes pairs query

def nodes [Host] (f : Form) : Except DateText.PrecisionError (List (List Node)) :=
  f.groups.mapM fun group => group.mapM Clause.node

end Form

namespace Form
variable {f : Form}

theorem isProper (f : Form) (p : Nat × Nat) : (Group.Triple.ofPosition f.name p).IsProper :=
  Group.isProper_ofPosition f.isPart_name p

theorem isShort {p : (Nat × Nat) × Clause} (h : p ∈ Group.located f.groups) :
    Group.IsShort p.1 := by
  obtain ⟨hi, group, hgroup, hj, -⟩ := Group.mem_located h
  exact ⟨f.short_groups _ hi, f.short_group group hgroup _ hj⟩

theorem mem_pairs {pair : Text × Text} :
    pair ∈ f.pairs ↔ ∃ p ∈ Group.located f.groups, ∃ a,
      ((Group.Triple.ofPosition f.name p.1).key a, p.2.text a) = pair := by
  have hall (a : Group.Attribute) : a ∈ [Group.Attribute.field, .value, .condition] := by
    cases a <;> decide
  simp only [pairs, List.mem_flatMap, List.mem_map, hall, true_and]

theorem nodup_keys (f : Form) : (f.pairs.map Prod.fst).Nodup := by
  rw [pairs, List.map_flatMap, List.Nodup, List.pairwise_flatMap]
  constructor
  · intro p _
    rw [List.pairwise_map, List.pairwise_map]
    have hattributes : [Group.Attribute.field, .value, .condition].Nodup := by decide
    exact hattributes.imp fun hne heq =>
      hne ((f.isProper p.1).key_injective (f.isProper p.1) heq).2
  · refine (Group.pairwise_located f.groups).imp fun {p q} hpq x hx y hy heq => ?_
    obtain ⟨pair, hpair, rfl⟩ := List.mem_map.1 hx
    obtain ⟨a, -, rfl⟩ := List.mem_map.1 hpair
    obtain ⟨pair', hpair', rfl⟩ := List.mem_map.1 hy
    obtain ⟨b, -, rfl⟩ := List.mem_map.1 hpair'
    have htriples := ((f.isProper p.1).key_injective (f.isProper q.1) heq).1
    exact hpq.ne (Group.ofPosition_injective htriples)

variable {pairs : List (Text × Text)}

theorem first_ofPairs (h : pairs.Perm f.pairs) {p : (Nat × Nat) × Clause}
    (hp : p ∈ Group.located f.groups) (a : Group.Attribute) :
    (Params.ofPairs pairs).first ((Group.Triple.ofPosition f.name p.1).key a) = p.2.text a := by
  have hnodup : (pairs.map Prod.fst).Nodup := (h.map Prod.fst).nodup_iff.2 f.nodup_keys
  exact Params.first_ofPairs hnodup (h.mem_iff.2 (mem_pairs.2 ⟨p, hp, a, rfl⟩))

theorem mem_keys_ofPairs (h : pairs.Perm f.pairs) {key : Text} :
    key ∈ (Params.ofPairs pairs).keys ↔ ∃ p ∈ Group.located f.groups, ∃ a,
      (Group.Triple.ofPosition f.name p.1).key a = key := by
  have hperm := h.map Prod.fst
  rw [Params.keys_ofPairs, Group.mem_distinct, hperm.mem_iff, List.mem_map]
  constructor
  · rintro ⟨pair, hpair, rfl⟩
    obtain ⟨p, hp, a, rfl⟩ := mem_pairs.1 hpair
    exact ⟨p, hp, a, rfl⟩
  · rintro ⟨p, hp, a, rfl⟩
    exact ⟨_, mem_pairs.2 ⟨p, hp, a, rfl⟩, rfl⟩

theorem mem_triples_ofPairs (h : pairs.Perm f.pairs) {t : Group.Triple} :
    t ∈ Group.triples (Params.ofPairs pairs) ↔ t ∈ f.triples := by
  rw [triples, Group.mem_triples, List.mem_map]
  constructor
  · rintro ⟨key, hkey, hhas⟩
    obtain ⟨p, hp, a, rfl⟩ := (mem_keys_ofPairs h).1 hkey
    rw [Group.Triple.hasKey_iff, (f.isProper p.1).splitKey?_key a] at hhas
    exact ⟨p, hp, Option.some.inj hhas⟩
  · rintro ⟨p, hp, rfl⟩
    refine ⟨_, (mem_keys_ofPairs h).2 ⟨p, hp, .field, rfl⟩, ?_⟩
    rw [Group.Triple.hasKey_iff, (f.isProper p.1).splitKey?_key]
    rfl

theorem sortedTriples_ofPairs (h : pairs.Perm f.pairs) :
    Group.sortedTriples (Params.ofPairs pairs) = .ok f.triples := by
  have htriples : f.triples =
      ((Group.located f.groups).map Prod.fst).map (Group.Triple.ofPosition f.name) := by
    rw [List.map_map]
    rfl
  rw [htriples]
  apply Group.sortedTriples_eq_ofPosition
  · intro p hp
    obtain ⟨q, hq, rfl⟩ := List.mem_map.1 hp
    exact isShort hq
  · rw [List.pairwise_map]
    exact Group.pairwise_located f.groups
  · intro t
    rw [mem_triples_ofPairs h, htriples]

theorem get?_ofPairs_of_splitKey? (h : pairs.Perm f.pairs) {key : Text}
    (hkey : Group.splitKey? key = none) : (Params.ofPairs pairs).get? key = none := by
  apply Entries.get?_eq_none
  intro hmem
  obtain ⟨p, -, a, rfl⟩ := (mem_keys_ofPairs h).1 hmem
  rw [(f.isProper p.1).splitKey?_key a] at hkey
  exact nomatch hkey

end Form
end FindQuery
