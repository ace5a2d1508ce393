import Mathlib.Data.List.Perm.Subperm
import FindQuery.Proofs.Outcome
import FindQuery.Proofs.Value.Copies

/-! Equality of values is an equivalence and always gives an answer. -/

namespace FindQuery

namespace Comparison
variable {x y : Comparison}

theorem and_eq_ok_true : Comparison.and x y = .ok true ↔ x = .ok true ∧ y = .ok true := by
  match x with
  | .error e => exact iff_of_false nofun fun h => nomatch h.1
  | .ok true => exact (and_iff_right rfl).symm
  | .ok false => exact iff_of_false nofun fun h => nomatch h.1

theorem eq_of_iff (hx : ∃ a, x = .ok a) (hy : ∃ b, y = .ok b) (h : x = .ok true ↔ y = .ok true) : x = y := by
  obtain ⟨a, rfl⟩ := hx
  obtain ⟨b, rfl⟩ := hy
  rw [Except.ok.injEq, Except.ok.injEq, ← Bool.eq_iff_iff] at h
  rw [h]

section All
variable {α : Type} {same : α → α → Comparison} {as bs : List α}

def all (same : α → α → Comparison) : List α → List α → Comparison
  | [], [] => .ok true
  | a :: as, b :: bs => Comparison.and (same a b) (all same as bs)
  | _, _ => .ok false

theorem all_eq_ok_true : all same as bs = .ok true ↔ List.Forall₂ (fun a b => same a b = .ok true) as bs := by
  induction as generalizing bs with
  | nil =>
    cases bs with
    | nil => exact iff_of_true rfl .nil
    | cons b rest => exact iff_of_false nofun nofun
  | cons a rest ih =>
    cases bs with
    | nil => exact iff_of_false nofun nofun
    | cons b rest' => rw [all, and_eq_ok_true, ih, List.forall₂_cons]

theorem exists_all (h : ∀ a ∈ as, ∀ b ∈ bs, ∃ r, same a b = .ok r) : ∃ r, all same as bs = .ok r := by
  induction as generalizing bs with
  | nil =>
    cases bs with
    | nil => exact ⟨true, rfl⟩
    | cons b rest => exact ⟨false, rfl⟩
  | cons a rest ih =>
    cases bs with
    | nil => exact ⟨false, rfl⟩
    | cons b rest' =>
      obtain ⟨r, hr⟩ := h a List.mem_cons_self b List.mem_cons_self
      obtain ⟨r', hr'⟩ := ih fun a ha b hb => h a (List.mem_cons_of_mem _ ha) b (List.mem_cons_of_mem _ hb)
      exact ⟨r && r', by rw [all, hr, hr', and_ok]⟩

end All

end Comparison

theorem Moment.same_of_no_zone {m n : Moment} (hm : m.zone = none) (hn : n.zone = none) :
    m.same n = .ok (decide (m.wallTime = n.wallTime)) := if_pos (hm.trans hn.symm)

theorem Moment.same_eq_ok_true_iff {m n : Moment} (hm : m.zone = none) (hn : n.zone = none) :
    m.same n = .ok true ↔ m.wallTime = n.wallTime := by
  rw [same_of_no_zone hm hn, Except.ok.injEq, decide_eq_true_eq]

namespace Value

variable {u v w : Value} {items others : List Value} {entries more : Entries Value}

section Quantity
variable {q : Quantity}

theorem sameQuantity_eq_true_iff : sameQuantity v w = true ↔
    ∃ q, v.quantity? = some q ∧ w.quantity? = some q ∧ q ≠ .notANumber Binary64.nan := by
  unfold sameQuantity
  split
  · next x y hx hy =>
    rw [Quantity.same, Bool.and_eq_true, decide_eq_true_eq, decide_eq_true_eq, hx, hy]
    constructor
    · rintro ⟨rfl, hne⟩
      exact ⟨x, rfl, rfl, hne⟩
    · rintro ⟨q, hxq, hyq, hne⟩
      obtain rfl := Option.some.inj hxq
      exact ⟨(Option.some.inj hyq).symm, hne⟩
  · next hnone =>
    refine iff_of_false Bool.false_ne_true ?_
    rintro ⟨q, hv, hw, -⟩
    exact hnone q q hv hw

theorem quantity_ne_nan (h : v.quantity? = some q) (hnan : ∀ x, v = .float x → ¬ x.IsNaN) :
    q ≠ .notANumber Binary64.nan := by
  rintro rfl
  match v with
  | .float x =>
    have hx := hnan x rfl
    have hq : Quantity.ofFloat x = .notANumber Binary64.nan := Option.some.inj h
    rw [Quantity.ofFloat, if_neg hx] at hq
    split at hq
    · exact nomatch hq
    · exact nomatch hq

end Quantity

section Matches

theorem sameAll_eq_all : sameAll items others = Comparison.all same items others := by
  induction items generalizing others with
  | nil => cases others <;> rfl
  | cons a rest ih =>
    cases others with
    | nil => rfl
    | cons b rest' => rw [sameAll, ih, Comparison.all]

theorem sameAll_eq_ok_true_iff :
    sameAll items others = .ok true ↔ List.Forall₂ (fun a b => a.same b = .ok true) items others := by
  rw [sameAll_eq_all, Comparison.all_eq_ok_true]

theorem sameWithin_eq_ok_true_iff : sameWithin entries more = .ok true ↔
    ∀ e ∈ entries, ∃ b, more.get? e.1 = some b ∧ e.2.same b = .ok true := by
  induction entries with
  | nil => exact iff_of_true rfl nofun
  | cons e rest ih =>
    obtain ⟨k, a⟩ := e
    rw [sameWithin, List.forall_mem_cons]
    cases hget : more.get? k with
    | none => exact iff_of_false nofun fun h => by simp at h
    | some b =>
      simp only [Comparison.and_eq_ok_true, ih, Option.some.injEq, exists_eq_left']

inductive Matches : Value → Value → Prop
  | null : Matches .null .null
  | number {v w : Value} {q : Quantity} : v.quantity? = some q → w.quantity? = some q →
      q ≠ .notANumber Binary64.nan → Matches v w
  | text (s : Text) : Matches (.text s) (.text s)
  | moment {m n : Moment} : m.same n = .ok true → Matches (.moment m) (.moment n)
  | pattern (p : Pattern) : Matches (.pattern p) (.pattern p)
  | list {items others : List Value} : List.Forall₂ (fun a b => a.same b = .ok true) items others →
      Matches (.list items) (.list others)
  | document {entries more : Entries Value} : entries.length = more.length →
      (∀ e ∈ entries, ∃ b, more.get? e.1 = some b ∧ e.2.same b = .ok true) →
      Matches (.document entries) (.document more)

theorem matches_of_same (h : v.same w = .ok true) : v.Matches w := by
  unfold same at h
  split at h
  · exact .null
  · next s t => exact of_decide_eq_true (Except.ok.inj h) ▸ .text s
  · exact .moment h
  · next p q => exact of_decide_eq_true (Except.ok.inj h) ▸ .pattern p
  · split at h
    · exact .list (sameAll_eq_ok_true_iff.1 h)
    · cases h
  · split at h
    · next hlength => exact .document hlength (sameWithin_eq_ok_true_iff.1 h)
    · cases h
  · obtain ⟨q, hv, hw, hne⟩ := sameQuantity_eq_true_iff.1 (Except.ok.inj h)
    exact .number hv hw hne

theorem same_of_quantity (hv : v.quantity? = some q) : v.same w = .ok (sameQuantity v w) := by
  match v with
  | .bool b => rfl
  | .int n => rfl
  | .float x => rfl

theorem same_of_matches (h : v.Matches w) : v.same w = .ok true := by
  cases h with
  | null => rfl
  | number hv hw hne => rw [same_of_quantity hv, sameQuantity_eq_true_iff.2 ⟨_, hv, hw, hne⟩]
  | text s => exact congrArg Except.ok (decide_eq_true rfl)
  | moment h => exact h
  | pattern p => exact congrArg Except.ok (decide_eq_true rfl)
  | list h => rw [same, if_pos h.length_eq, sameAll_eq_ok_true_iff.2 h]
  | document hlength h => rw [same, if_pos hlength, sameWithin_eq_ok_true_iff.2 h]

theorem same_iff_quantity {q : Quantity} (hv : v.quantity? = some q) (hne : q ≠ .notANumber Binary64.nan) :
    v.same w = .ok true ↔ w.quantity? = some q := by
  constructor
  · intro h
    rw [same_of_quantity hv, Except.ok.injEq, sameQuantity_eq_true_iff] at h
    obtain ⟨q', hv', hw, -⟩ := h
    rwa [← hv, hv']
  · intro hw
    exact same_of_matches (.number hv hw hne)

end Matches

/-- Every number in the value is one, no moment has a zone, and no document has a key twice. -/
inductive IsSettled : Value → Prop
  | null : IsSettled .null
  | bool (b : Bool) : IsSettled (.bool b)
  | int (n : Int) : IsSettled (.int n)
  | float {x : Binary64} : ¬ x.IsNaN → IsSettled (.float x)
  | text (s : Text) : IsSettled (.text s)
  | moment {m : Moment} : m.zone = none → IsSettled (.moment m)
  | pattern (p : Pattern) : IsSettled (.pattern p)
  | list {items : List Value} : (∀ v ∈ items, IsSettled v) → IsSettled (.list items)
  | document {entries : Entries Value} : entries.Distinct → (∀ e ∈ entries, IsSettled e.2) →
      IsSettled (.document entries)

section Equivalence

theorem IsSettled.quantity_ne_nan {q : Quantity} (h : v.IsSettled) (hv : v.quantity? = some q) :
    q ≠ .notANumber Binary64.nan := by
  apply Value.quantity_ne_nan hv
  rintro x rfl
  cases h with
  | float hnan => exact hnan

theorem same_iff_same_of_quantity {q : Quantity} (hv : v.quantity? = some q) (hne : q ≠ .notANumber Binary64.nan)
    (h : v.same w = .ok true) : v.same u = .ok true ↔ w.same u = .ok true := by
  rw [same_iff_quantity hv hne] at h
  rw [same_iff_quantity hv hne, same_iff_quantity h hne]

theorem same_refl (h : v.IsSettled) : v.same v = .ok true := by
  induction h with
  | null => rfl
  | bool b => exact (same_iff_quantity rfl ((IsSettled.bool b).quantity_ne_nan rfl)).2 rfl
  | int n => exact (same_iff_quantity rfl ((IsSettled.int n).quantity_ne_nan rfl)).2 rfl
  | float hnan => exact (same_iff_quantity rfl ((IsSettled.float hnan).quantity_ne_nan rfl)).2 rfl
  | text s => exact same_of_matches (.text s)
  | @moment m _ => exact same_of_matches (.moment m.same_self)
  | pattern p => exact same_of_matches (.pattern p)
  | list _ ih => exact same_of_matches (.list (List.forall₂_same.2 ih))
  | document hdistinct _ ih =>
    exact same_of_matches (.document rfl fun e he => ⟨e.2, Entries.get?_of_mem hdistinct he, ih e he⟩)

theorem exists_mem_of_length_eq (hdistinct : entries.Distinct) (hlength : entries.length = more.length)
    (h : ∀ e ∈ entries, ∃ b, more.get? e.1 = some b) {e : Text × Value} (he : e ∈ more) :
    ∃ a, (e.1, a) ∈ entries := by
  have hsub : entries.keys ⊆ more.keys := by
    intro key hkey
    obtain ⟨e, he, rfl⟩ := List.mem_map.1 hkey
    obtain ⟨b, hb⟩ := h e he
    have hmem := Entries.mem_of_get? hb
    exact List.mem_map.2 ⟨_, hmem, rfl⟩
  have hcount : more.keys.length ≤ entries.keys.length := by
    rw [Entries.keys, Entries.keys, List.length_map, List.length_map]
    exact Nat.le_of_eq hlength.symm
  have hperm := (List.subperm_of_subset hdistinct hsub).perm_of_length_le hcount
  obtain ⟨⟨k, a⟩, ha, hk⟩ := List.mem_map.1 (hperm.mem_iff.2 (Entries.mem_keys_of_mem he))
  obtain rfl : k = e.1 := hk
  exact ⟨a, ha⟩

theorem same_symm (hv : v.IsSettled) (hw : w.IsSettled) (h : v.same w = .ok true) : w.same v = .ok true := by
  induction hv generalizing w with
  | null =>
    cases matches_of_same h with
    | null => rfl
    | number hq _ _ => exact nomatch hq
  | bool b =>
    have hne := (IsSettled.bool b).quantity_ne_nan rfl
    exact (same_iff_same_of_quantity rfl hne h).1 (same_refl (.bool b))
  | int n =>
    have hne := (IsSettled.int n).quantity_ne_nan rfl
    exact (same_iff_same_of_quantity rfl hne h).1 (same_refl (.int n))
  | float hnan =>
    have hne := (IsSettled.float hnan).quantity_ne_nan rfl
    exact (same_iff_same_of_quantity rfl hne h).1 (same_refl (.float hnan))
  | text s =>
    cases matches_of_same h with
    | text _ => exact h
    | number hq _ _ => exact nomatch hq
  | moment hzone =>
    cases matches_of_same h with
    | number hq _ _ => exact nomatch hq
    | moment hsame =>
      cases hw with
      | moment hzone' =>
        rw [Moment.same_eq_ok_true_iff hzone hzone'] at hsame
        exact same_of_matches (.moment ((Moment.same_eq_ok_true_iff hzone' hzone).2 hsame.symm))
  | pattern p =>
    cases matches_of_same h with
    | pattern _ => exact h
    | number hq _ _ => exact nomatch hq
  | list _ ih =>
    cases matches_of_same h with
    | number hq _ _ => exact nomatch hq
    | list hitems =>
      cases hw with
      | list hothers =>
        exact same_of_matches (.list (forall₂_imp_of_mem hitems fun a ha b hb => ih a ha (hothers b hb)).flip)
  | @document entries hdistinct _ ih =>
    cases matches_of_same h with
    | number hq _ _ => exact nomatch hq
    | document hlength hentries =>
      cases hw with
      | document hdistinct' hmore =>
        refine same_of_matches (.document hlength.symm fun e he => ?_)
        obtain ⟨a, ha⟩ := exists_mem_of_length_eq hdistinct hlength
          (fun e he => (hentries e he).imp fun _ h => h.1) he
        obtain ⟨b, hb, hsame⟩ := hentries _ ha
        obtain rfl := Option.some.inj (hb.symm.trans (Entries.get?_of_mem hdistinct' he))
        exact ⟨a, Entries.get?_of_mem hdistinct ha, ih _ ha (hmore e he) hsame⟩

theorem same_trans (hu : u.IsSettled) (hv : v.IsSettled) (hw : w.IsSettled) (h : u.same v = .ok true)
    (h' : v.same w = .ok true) : u.same w = .ok true := by
  induction hu generalizing v w with
  | null =>
    cases matches_of_same h with
    | null => exact h'
    | number hq _ _ => exact nomatch hq
  | bool b => exact (same_iff_same_of_quantity rfl ((IsSettled.bool b).quantity_ne_nan rfl) h).2 h'
  | int n => exact (same_iff_same_of_quantity rfl ((IsSettled.int n).quantity_ne_nan rfl) h).2 h'
  | float hnan => exact (same_iff_same_of_quantity rfl ((IsSettled.float hnan).quantity_ne_nan rfl) h).2 h'
  | text s =>
    cases matches_of_same h with
    | text _ => exact h'
    | number hq _ _ => exact nomatch hq
  | moment hzone =>
    cases matches_of_same h with
    | number hq _ _ => exact nomatch hq
    | moment hmn =>
      cases matches_of_same h' with
      | number hq _ _ => exact nomatch hq
      | moment hno =>
        cases hv with
        | moment hzone' =>
          cases hw with
          | moment hzone'' =>
            rw [Moment.same_eq_ok_true_iff hzone hzone'] at hmn
            rw [Moment.same_eq_ok_true_iff hzone' hzone''] at hno
            exact same_of_matches (.moment ((Moment.same_eq_ok_true_iff hzone hzone'').2 (hmn.trans hno)))
  | pattern p =>
    cases matches_of_same h with
    | pattern _ => exact h'
    | number hq _ _ => exact nomatch hq
  | list _ ih =>
    cases matches_of_same h with
    | number hq _ _ => exact nomatch hq
    | list hitems =>
      cases matches_of_same h' with
      | number hq _ _ => exact nomatch hq
      | list hothers =>
        cases hv with
        | list hv =>
          cases hw with
          | list hw =>
            exact same_of_matches (.list (forall₂_trans_of_mem hitems hothers
              fun a ha b hb c hc => ih a ha (hv b hb) (hw c hc)))
  | document _ _ ih =>
    cases matches_of_same h with
    | number hq _ _ => exact nomatch hq
    | document hlength hentries =>
      cases matches_of_same h' with
      | number hq _ _ => exact nomatch hq
      | document hlength' hmore =>
        cases hv with
        | document _ hv =>
          cases hw with
          | document _ hw =>
            refine same_of_matches (.document (hlength.trans hlength') fun e he => ?_)
            obtain ⟨b, hb, hsame⟩ := hentries e he
            obtain ⟨c, hc, hsame'⟩ := hmore _ (Entries.mem_of_get? hb)
            exact ⟨c, hc, ih e he (hv _ (Entries.mem_of_get? hb)) (hw _ (Entries.mem_of_get? hc)) hsame hsame'⟩

end Equivalence

section Answers

theorem exists_sameWithin (hmore : ∀ e ∈ more, e.2.IsSettled)
    (h : ∀ e ∈ entries, ∀ {b : Value}, b.IsSettled → ∃ r, e.2.same b = .ok r) :
    ∃ r, sameWithin entries more = .ok r := by
  induction entries with
  | nil => exact ⟨true, rfl⟩
  | cons e rest ih =>
    obtain ⟨k, a⟩ := e
    rw [sameWithin]
    cases hget : more.get? k with
    | none => exact ⟨false, rfl⟩
    | some b =>
      obtain ⟨r, hr⟩ := h (k, a) List.mem_cons_self (hmore _ (Entries.mem_of_get? hget))
      obtain ⟨r', hr'⟩ := ih fun e he => h e (List.mem_cons_of_mem _ he)
      exact ⟨r && r', by simp only [hr, hr', Comparison.and_ok]⟩

theorem exists_same (hv : v.IsSettled) (hw : w.IsSettled) : ∃ r, v.same w = .ok r := by
  induction hv generalizing w with
  | bool b => exact ⟨_, same_of_quantity rfl⟩
  | int n => exact ⟨_, same_of_quantity rfl⟩
  | float _ => exact ⟨_, same_of_quantity rfl⟩
  | null => cases hw <;> exact ⟨_, rfl⟩
  | text s => cases hw <;> exact ⟨_, rfl⟩
  | pattern p => cases hw <;> exact ⟨_, rfl⟩
  | moment hzone =>
    cases hw with
    | moment hzone' => exact ⟨_, Moment.same_of_no_zone hzone hzone'⟩
    | _ => exact ⟨_, rfl⟩
  | list _ ih =>
    cases hw with
    | list hothers =>
      rw [same]
      split
      · rw [sameAll_eq_all]
        exact Comparison.exists_all fun a ha b hb => ih a ha (hothers b hb)
      · exact ⟨false, rfl⟩
    | _ => exact ⟨_, rfl⟩
  | document _ _ ih =>
    cases hw with
    | document _ hmore =>
      rw [same]
      split
      · exact exists_sameWithin hmore ih
      · exact ⟨false, rfl⟩
    | _ => exact ⟨_, rfl⟩

end Answers

theorem same_document_of_perm (h : (document entries).IsSettled) (hperm : entries.Perm more) :
    (document entries).same (document more) = .ok true := by
  cases h with
  | document hdistinct hsettled =>
    refine same_of_matches (.document hperm.length_eq fun e he => ⟨e.2, ?_, same_refl (hsettled e he)⟩)
    rw [← Entries.get?_eq_of_perm hdistinct hperm, Entries.get?_of_mem hdistinct he]

end Value
end FindQuery
