import FindQuery.Proofs.Node.Placement
import FindQuery.Proofs.Node.Same
import FindQuery.Proofs.Value.Number

/-! Equality of expressions is a congruence for rendering. -/

namespace FindQuery

/-- The reasons differ in nothing but the type of what is no expression. -/
inductive RenderError.SameKind : RenderError → RenderError → Prop
  | notAnExpression (typeName typeName' : Text) : SameKind (.notAnExpression typeName) (.notAnExpression typeName')
  | unsupported (operator : Operator) (backend : Text) :
      SameKind (.unsupported operator backend) (.unsupported operator backend)

theorem RenderError.SameKind.refl : ∀ e : RenderError, e.SameKind e
  | .notAnExpression typeName => .notAnExpression typeName typeName
  | .unsupported operator backend => .unsupported operator backend

namespace Value

def SamePair (e e' : Text × Value) : Prop := e.1 = e'.1 ∧ e.2.same e'.2 = .ok true

structure SameInOrder (d d' : Document) : Prop where
  distinct : d.Distinct
  pairs : List.Forall₂ SamePair d d'

section Pairs
variable {d d' : Document} {key : Text} {v w : Value}

theorem keys_eq_of_pairs (h : List.Forall₂ SamePair d d') : d.keys = d'.keys := by
  induction h with
  | nil => rfl
  | cons he _ ih => rw [Entries.keys_cons, Entries.keys_cons, he.1, ih]

theorem pairs_put (h : List.Forall₂ SamePair d d') (hsame : v.same w = .ok true) :
    List.Forall₂ SamePair (d.put key v) (d'.put key w) := by
  induction h with
  | nil => exact .cons ⟨rfl, hsame⟩ .nil
  | @cons e e' rest rest' he hrest ih =>
    obtain ⟨k, a⟩ := e
    obtain ⟨k', b⟩ := e'
    obtain ⟨rfl, hab⟩ : k = k' ∧ a.same b = .ok true := he
    rw [Entries.put, Entries.put]
    split
    · exact .cons ⟨rfl, hsame⟩ hrest
    · exact .cons ⟨rfl, hab⟩ ih

namespace SameInOrder

theorem same (h : SameInOrder d d') : (document d).same (document d') = .ok true := by
  have hdistinct : d'.Distinct := by rw [Entries.Distinct, ← keys_eq_of_pairs h.pairs]; exact h.distinct
  refine same_of_matches (.document h.pairs.length_eq fun e he => ?_)
  obtain ⟨e', he', hkey, hsame⟩ := exists_of_mem_left h.pairs he
  exact ⟨e'.2, hkey ▸ Entries.get?_of_mem hdistinct he', hsame⟩

theorem singleton (key : Text) (h : v.same w = .ok true) : SameInOrder [(key, v)] [(key, w)] :=
  ⟨Entries.distinct_singleton key v, .cons ⟨rfl, h⟩ .nil⟩

theorem merge {es es' : List (Text × Value)} (h : SameInOrder d d') (hes : List.Forall₂ SamePair es es') :
    SameInOrder (Entries.merge d es) (Entries.merge d' es') := by
  induction hes generalizing d d' with
  | nil => exact h
  | @cons e e' _ _ he _ ih =>
    apply ih
    show SameInOrder (Entries.put d e.1 e.2) (Entries.put d' e'.1 e'.2)
    rw [he.1]
    exact ⟨Entries.distinct_put h.distinct _ _, pairs_put h.pairs he.2⟩

end SameInOrder

end Pairs

end Value

namespace Node
open Value (SamePair SameInOrder)
open RenderError (SameKind)

variable {m n : Node} {nodes others : List Node} {v w : Value}

theorem operatorDocument_of_not_pattern (operator : Operator) (h : ∀ p, v ≠ .pattern p) :
    operatorDocument operator v = [(operator.token, v)] := by
  unfold operatorDocument
  split
  · next p => exact absurd rfl (h p)
  · rfl

theorem sameInOrder_operatorDocument (operator : Operator) (h : v.same w = .ok true) :
    SameInOrder (operatorDocument operator v) (operatorDocument operator w) := by
  have hpattern : (∃ p, v = .pattern p ∧ w = .pattern p) ∨
      (∀ p, v ≠ .pattern p) ∧ ∀ p, w ≠ .pattern p := by
    cases Value.matches_of_same h with
    | pattern p => exact .inl ⟨p, rfl, rfl⟩
    | number hv hw _ =>
      refine .inr ⟨?_, ?_⟩
      · rintro p rfl
        exact nomatch hv
      · rintro p rfl
        exact nomatch hw
    | _ => exact .inr ⟨nofun, nofun⟩
  refine ⟨distinct_operatorDocument operator v, ?_⟩
  obtain ⟨p, rfl, rfl⟩ | ⟨hv, hw⟩ := hpattern
  · refine List.forall₂_same.2 fun e he => ⟨rfl, Value.same_refl ?_⟩
    unfold operatorDocument at he
    split at he
    · rcases List.mem_cons.1 he with rfl | he
      · exact .text _
      · split at he
        · exact nomatch he
        · obtain rfl := List.mem_singleton.1 he
          exact .text _
    · obtain rfl := List.mem_singleton.1 he
      exact .pattern p
  · rw [operatorDocument_of_not_pattern operator hv, operatorDocument_of_not_pattern operator hw]
    exact .cons ⟨rfl, h⟩ .nil

mutual

theorem entries_parallel : ∀ {m n : Node}, m.same n = .ok true →
    Parallel SameKind SameInOrder m.entries n.entries
  | .leaf operator field v, n, h => by
    cases matches_of_same h with
    | leaf _ _ hsame =>
      have hdocument := sameInOrder_operatorDocument operator hsame
      rw [entries, entries]
      split
      · exact .ok hdocument
      · exact .ok (.singleton field hdocument.same)
  | .logical connective children, n, h => by
    cases matches_of_same h with
    | logical _ hchildren =>
      refine (entriesOfEach_parallel hchildren).bind fun documents documents' hdocuments => ?_
      exact .ok (.singleton connective.token (Value.same_of_matches (.list hdocuments)))
  | .filter members, n, h => by
    cases matches_of_same h with
    | filter _ => exact .error (.notAnExpression _ _)
  | .other v, n, h => by
    cases matches_of_same h with
    | other _ => exact .error (.notAnExpression _ _)

theorem entriesOfEach_parallel : ∀ {nodes others : List Node},
    List.Forall₂ (fun m n => m.same n = .ok true) nodes others →
      Parallel SameKind (List.Forall₂ fun v w => v.same w = .ok true) (entriesOfEach nodes) (entriesOfEach others)
  | [], _, h => by
    cases h
    exact .ok .nil
  | m :: rest, _, h => by
    cases h with
    | cons hm hrest =>
      refine (entries_parallel hm).bind fun d d' hd => ?_
      exact (entriesOfEach_parallel hrest).bind fun _ _ hothers => .ok (.cons hd.same hothers)

end

theorem document_parallel (h : m.same n = .ok true) : Parallel SameKind SameInOrder m.document n.document := by
  cases matches_of_same h with
  | leaf operator _ hsame => exact .ok (sameInOrder_operatorDocument operator hsame)
  | _ => exact entries_parallel h

theorem mergeInto_parallel {target target' : Document} (ht : SameInOrder target target')
    (h : List.Forall₂ (fun m n => m.same n = .ok true) nodes others) :
    Parallel SameKind SameInOrder (mergeInto target nodes) (mergeInto target' others) := by
  induction h generalizing target target' with
  | nil => exact .ok ht
  | cons hm _ ih => exact (entries_parallel hm).bind fun es es' hes => ih (ht.merge hes.pairs)

end Node

namespace Backend
open Value (SameInOrder)
open RenderError (SameKind)

variable {m n : Node}

mutual

theorem check_parallel (b : Backend) : ∀ {m n : Node}, m.same n = .ok true →
    Parallel SameKind Eq (b.check m) (b.check n)
  | .leaf operator field v, n, h => by
    cases Node.matches_of_same h with
    | leaf _ _ _ => exact .refl SameKind.refl (b.checkOperator operator)
  | .logical connective children, n, h => by
    cases Node.matches_of_same h with
    | logical _ hchildren =>
      refine (Parallel.refl SameKind.refl (b.checkOperator (.connective connective))).bind fun _ _ _ => ?_
      exact checkAll_parallel b hchildren
  | .filter members, n, h => by
    cases Node.matches_of_same h with
    | filter _ => exact .error (.notAnExpression _ _)
  | .other v, n, h => by
    cases Node.matches_of_same h with
    | other _ => exact .error (.notAnExpression _ _)

theorem checkAll_parallel (b : Backend) : ∀ {nodes others : List Node},
    List.Forall₂ (fun m n => m.same n = .ok true) nodes others →
      Parallel SameKind Eq (b.checkAll nodes) (b.checkAll others)
  | [], _, h => by
    cases h
    exact .ok rfl
  | m :: rest, _, h => by
    cases h with
    | cons hm hrest => exact (check_parallel b hm).bind fun _ _ _ => checkAll_parallel b hrest

end

theorem validate_parallel (b : Backend) (h : m.same n = .ok true) :
    Parallel SameKind Eq (b.validate m) (b.validate n) := by
  cases Node.matches_of_same h with
  | filter hmembers => exact checkAll_parallel b hmembers
  | _ => exact check_parallel b h

theorem render_parallel (h : m.same n = .ok true) : Parallel SameKind SameInOrder (render m) (render n) := by
  cases Node.matches_of_same h with
  | filter hmembers => exact Node.mergeInto_parallel ⟨List.nodup_nil, .nil⟩ hmembers
  | _ => exact Node.document_parallel h

theorem convert_parallel (b : Backend) (h : m.same n = .ok true) :
    Parallel SameKind SameInOrder (b.convert m) (b.convert n) :=
  (validate_parallel b h).bind fun _ _ _ => render_parallel h

end Backend

namespace Node
open RenderError (SameKind)
open Binary64 (infinity)

variable {a b c : Node}

/-- Equality is an equivalence on settled trees, in which numbers of all types compare exactly and the order of keys
does not matter. Trees that are equal are rendered to documents that are, or they are refused for the same kind of
reason. -/
theorem equal_congruence (ha : a.IsSettled) (hb : b.IsSettled) (hc : c.IsSettled) (backend : Backend) :
    a.equal a = .ok true ∧ (∃ r, a.equal b = .ok r ∧ b.equal a = .ok r) ∧
      (a.equal b = .ok true → b.equal c = .ok true → a.equal c = .ok true) ∧
      (a.equal b = .ok true → Parallel SameKind (fun d d' => (Value.document d).equal (.document d') = .ok true)
        (backend.convert a) (backend.convert b)) ∧
      (∀ {v w : Value} {r s : ℚ}, v.IsNumber r → w.IsNumber s → v.same w = .ok (decide (r = s))) ∧
      (∀ negative w, (Value.float (infinity negative)).same w = .ok true ↔ w = .float (infinity negative)) ∧
      ∀ {entries more : Document}, (Value.document entries).IsSettled → entries.Perm more →
        (Value.document entries).same (.document more) = .ok true := by
  rw [equal_eq_same ha, equal_eq_same ha, equal_eq_same hb, equal_eq_same hb, equal_eq_same ha]
  obtain ⟨r, hr⟩ := exists_same ha hb
  refine ⟨same_refl ha, ⟨r, hr, same_comm ha hb ▸ hr⟩, same_trans ha hb hc, fun h => ?_,
    Value.same_of_isNumber, fun negative _ => Value.same_infinity_iff negative, Value.same_document_of_perm⟩
  exact (Backend.convert_parallel backend h).mono fun d d' hd => hd.same

def floatOne : Value := .float ⟨false, ⟨1023, by decide⟩, ⟨0, by decide⟩⟩

def floatTwo : Value := .float ⟨false, ⟨1024, by decide⟩, ⟨0, by decide⟩⟩

def tally (total : Value) (parts : Document) : Node :=
  .filter [.leaf .eq ['n'] total, .logical .or [.leaf .gte ['x'] (.document parts)]]

def wholeTally : Node := tally (.int 1) [(['a'], .int 2), (['b'], .bool false)]

def decimalTally : Node := tally floatOne [(['b'], .float (.zero true)), (['a'], floatTwo)]

def mixedTally : Node := tally (.bool true) [(['a'], floatTwo), (['b'], .int 0)]

theorem isSettled_tally {total : Value} {parts : Document} (htotal : total.IsSettled) (hkeys : parts.keys.Nodup)
    (hparts : ∀ e ∈ parts, e.2.IsSettled) : (tally total parts).IsSettled := by
  refine .filter (List.forall_mem_cons.2 ⟨.leaf _ _ htotal, List.forall_mem_singleton.2 ?_⟩)
  exact .logical _ (List.forall_mem_singleton.2 (.leaf _ _ (.document hkeys hparts)))

theorem equal_congruence_tally :
    (wholeTally.IsSettled ∧ decimalTally.IsSettled ∧ mixedTally.IsSettled) ∧
      wholeTally.equal mixedTally = .ok true ∧ decimalTally.equal wholeTally = .ok true ∧
      ∃ d d', Backend.full.convert wholeTally = .ok d ∧ Backend.full.convert decimalTally = .ok d' ∧ d ≠ d' ∧
        (Value.document d).equal (.document d') = .ok true := by
  have hwhole : wholeTally.IsSettled := isSettled_tally (.int 1) (by decide)
    (List.forall_mem_cons.2 ⟨.int 2, List.forall_mem_singleton.2 (.bool false)⟩)
  have hdecimal : decimalTally.IsSettled := isSettled_tally (.float (by decide)) (by decide)
    (List.forall_mem_cons.2 ⟨.float (by decide), List.forall_mem_singleton.2 (.float (by decide))⟩)
  have hmixed : mixedTally.IsSettled := isSettled_tally (.bool true) (by decide)
    (List.forall_mem_cons.2 ⟨.float (by decide), List.forall_mem_singleton.2 (.int 0)⟩)
  have hfirst : wholeTally.equal decimalTally = .ok true := by decide +kernel
  have hsecond : decimalTally.equal mixedTally = .ok true := by decide +kernel
  obtain ⟨-, ⟨r, hr, hturned⟩, htrans, hdocuments, -⟩ := equal_congruence hwhole hdecimal hmixed Backend.full
  obtain rfl : r = true := Except.ok.inj (hr.symm.trans hfirst)
  cases hdocuments hfirst with
  | ok hsame =>
    exact ⟨⟨hwhole, hdecimal, hmixed⟩, htrans hfirst hsecond, hturned, _, _, rfl, rfl, by decide, hsame⟩

end Node

end FindQuery
