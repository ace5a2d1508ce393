import FindQuery.Entries

/-! What a map holds under a key, also after pairs have been entered. -/

namespace FindQuery

section Latest
variable {α β κ : Type} [DecidableEq κ]

def latestBy (key : α → κ) : List α → List α
  | [] => []
  | a :: rest => if key a ∈ rest.map key then latestBy key rest else a :: latestBy key rest

theorem mem_of_mem_latestBy {key : α → κ} {l : List α} {a : α} (h : a ∈ latestBy key l) :
    a ∈ l := by
  induction l with
  | nil => exact h
  | cons b rest ih =>
    rw [latestBy] at h
    split at h
    · exact List.mem_cons_of_mem _ (ih h)
    · rcases List.mem_cons.1 h with rfl | h
      · exact List.mem_cons_self
      · exact List.mem_cons_of_mem _ (ih h)

theorem latestBy_of_nodup {key : α → κ} {l : List α} (h : (l.map key).Nodup) :
    latestBy key l = l := by
  induction l with
  | nil => rfl
  | cons a rest ih =>
    obtain ⟨hk, hrest⟩ := List.nodup_cons.1 h
    rw [latestBy, if_neg hk, ih hrest]

theorem latestBy_map (key : α → κ) (f : β → α) (l : List β) :
    latestBy key (l.map f) = (latestBy (fun b => key (f b)) l).map f := by
  induction l with
  | nil => rfl
  | cons b rest ih =>
    have hkeys : (rest.map f).map key = rest.map fun b => key (f b) := List.map_map
    rw [List.map_cons, latestBy, latestBy, hkeys, ih]
    split
    · rfl
    · rfl

end Latest

namespace Entries

variable {α : Type}

theorem mem_keys_of_mem {es : Entries α} {e : Text × α} (h : e ∈ es) : e.1 ∈ es.keys :=
  List.mem_map.2 ⟨e, h, rfl⟩

theorem get?_eq_none {es : Entries α} {key : Text} (h : key ∉ es.keys) :
    es.get? key = none := by
  induction es with
  | nil => rfl
  | cons e rest ih =>
    obtain ⟨k, v⟩ := e
    rw [keys_cons, List.mem_cons, not_or] at h
    rw [get?, if_neg (Ne.symm h.1), ih h.2]

theorem mem_keys_iff {es : Entries α} {key : Text} : key ∈ es.keys ↔ (es.get? key).isSome = true := by
  induction es with
  | nil => exact iff_of_false List.not_mem_nil Bool.false_ne_true
  | cons e rest ih =>
    obtain ⟨k, v⟩ := e
    rw [keys_cons, List.mem_cons, get?]
    split
    · next h => exact iff_of_true (.inl h.symm) rfl
    · next h => rw [ih, or_iff_right (Ne.symm h)]

theorem get?_put (es : Entries α) (key : Text) (value : α) (other : Text) :
    (es.put key value).get? other = if other = key then some value else es.get? other := by
  split
  · next h => rw [h, get?_put_self]
  · next h => exact get?_put_of_ne es value h

theorem mem_of_get? {es : Entries α} {key : Text} {a : α} (h : es.get? key = some a) : (key, a) ∈ es := by
  induction es with
  | nil => exact nomatch h
  | cons e rest ih =>
    obtain ⟨k, v⟩ := e
    rw [get?] at h
    split at h
    · next hkey =>
      rw [hkey, Option.some.inj h]
      exact List.mem_cons_self
    · exact List.mem_cons_of_mem _ (ih h)

theorem get?_of_mem {es : Entries α} (h : es.Distinct) {key : Text} {v : α}
    (hmem : (key, v) ∈ es) : es.get? key = some v := by
  induction es with
  | nil => exact nomatch hmem
  | cons e rest ih =>
    obtain ⟨k, w⟩ := e
    obtain ⟨hk, hrest⟩ := List.nodup_cons.1 h
    rcases List.mem_cons.1 hmem with heq | hmem
    · obtain ⟨rfl, rfl⟩ := Prod.mk.inj heq
      rw [get?, if_pos rfl]
    · have hkey : key ∈ keys rest := mem_keys_of_mem hmem
      have hne : k ≠ key := fun heq => hk (heq ▸ hkey)
      rw [get?, if_neg hne, ih hrest hmem]

theorem get?_map_keys (f : Text → α) (ks : List Text) (key : Text) :
    get? (ks.map fun k => (k, f k)) key = if key ∈ ks then some (f key) else none := by
  induction ks with
  | nil => rfl
  | cons k rest ih =>
    rw [List.map_cons, get?, ih]
    by_cases hk : k = key
    · subst hk
      simp
    · simp [hk, Ne.symm hk]

theorem keys_filter (p : Text → Bool) (es : Entries α) :
    keys (es.filter (p ·.1)) = es.keys.filter p := List.filter_map.symm

theorem get?_filter {p : Text → Bool} {key : Text} (h : p key = true) (es : Entries α) :
    get? (es.filter (p ·.1)) key = es.get? key := by
  induction es with
  | nil => rfl
  | cons e rest ih =>
    obtain ⟨k, v⟩ := e
    by_cases hk : k = key
    · subst hk
      rw [List.filter_cons, if_pos h, get?, get?, if_pos rfl, if_pos rfl]
    · rw [List.filter_cons, get?, if_neg hk]
      split
      · rw [get?, if_neg hk, ih]
      · exact ih

theorem get?_eq_of_perm {es es' : Entries α} (h : es.Distinct) (hperm : es.Perm es')
    (key : Text) : es.get? key = es'.get? key := by
  have hkeys : es.keys.Perm es'.keys := hperm.map Prod.fst
  have h' : es'.Distinct := hkeys.nodup_iff.1 h
  by_cases hkey : key ∈ es.keys
  · obtain ⟨⟨k, v⟩, hmem, rfl⟩ := List.mem_map.1 hkey
    rw [get?_of_mem h hmem, get?_of_mem h' (hperm.mem_iff.1 hmem)]
  · rw [get?_eq_none hkey, get?_eq_none (mt hkeys.mem_iff.2 hkey)]

theorem eq_of_keys_eq {es es' : Entries α} (h : es.Distinct) (hkeys : es.keys = es'.keys)
    (hget : ∀ key, es.get? key = es'.get? key) : es = es' := by
  induction es generalizing es' with
  | nil => exact (List.map_eq_nil_iff.1 hkeys.symm).symm
  | cons e rest ih =>
    obtain ⟨k, v⟩ := e
    cases es' with
    | nil => exact nomatch hkeys
    | cons e' rest' =>
      obtain ⟨k', v'⟩ := e'
      obtain ⟨rfl, htail⟩ := List.cons.inj hkeys
      obtain ⟨hk, hrest⟩ := List.nodup_cons.1 h
      have hhead := hget k
      rw [get?, get?, if_pos rfl, if_pos rfl] at hhead
      have hothers (key : Text) : get? rest key = get? rest' key := by
        by_cases hkey : k = key
        · subst hkey
          have hk' : k ∉ keys rest' := by
            rw [keys, ← htail]
            exact hk
          rw [get?_eq_none hk, get?_eq_none hk']
        · have hboth := hget key
          rw [get?, get?, if_neg hkey, if_neg hkey] at hboth
          exact hboth
      rw [Option.some.inj hhead, ih hrest htail hothers]

theorem mem_put {es : Entries α} (h : es.Distinct) {key : Text} {value : α} {e : Text × α} :
    e ∈ es.put key value ↔ e = (key, value) ∨ (e ∈ es ∧ e.1 ≠ key) := by
  induction es with
  | nil => simp [put]
  | cons e' rest ih =>
    obtain ⟨k, v⟩ := e'
    obtain ⟨hk, hrest⟩ := List.nodup_cons.1 h
    by_cases hkey : k = key
    · subst hkey
      have hne (he : e ∈ rest) : e.1 ≠ k := by
        have hmem := mem_keys_of_mem he
        rintro rfl
        exact hk hmem
      simp only [put, if_true, List.mem_cons]
      constructor
      · rintro (rfl | he)
        · exact .inl rfl
        · exact .inr ⟨.inr he, hne he⟩
      · rintro (rfl | ⟨rfl | he, hd⟩)
        · exact .inl rfl
        · exact absurd rfl hd
        · exact .inr he
    · simp only [put, if_neg hkey, List.mem_cons, ih hrest]
      constructor
      · rintro (rfl | rfl | ⟨he, hd⟩)
        · exact .inr ⟨.inl rfl, hkey⟩
        · exact .inl rfl
        · exact .inr ⟨.inr he, hd⟩
      · rintro (rfl | ⟨rfl | he, hd⟩)
        · exact .inr (.inl rfl)
        · exact .inl rfl
        · exact .inr (.inr ⟨he, hd⟩)

theorem distinct_singleton (key : Text) (value : α) : Distinct [(key, value)] :=
  List.nodup_cons.2 ⟨List.not_mem_nil, List.nodup_nil⟩

theorem put_of_not_mem {es : Entries α} {key : Text} (h : key ∉ es.keys) (value : α) :
    es.put key value = es ++ [(key, value)] := by
  induction es with
  | nil => rfl
  | cons e rest ih =>
    obtain ⟨k, v⟩ := e
    rw [keys_cons, List.mem_cons, not_or] at h
    rw [put, if_neg (Ne.symm h.1), ih h.2, List.cons_append]

theorem merge_of_nodup {es : Entries α} {others : List (Text × α)} (h : (keys (es ++ others)).Nodup) :
    es.merge others = es ++ others := by
  induction others generalizing es with
  | nil => rw [List.append_nil]; rfl
  | cons e rest ih =>
    have hkey : e.1 ∉ es.keys := by
      intro hmem
      rw [keys, List.map_append, List.nodup_append] at h
      exact h.2.2 e.1 hmem e.1 List.mem_cons_self rfl
    have hstep : es.merge (e :: rest) = (es.put e.1 e.2).merge rest := rfl
    have hentered : es.put e.1 e.2 ++ rest = es ++ e :: rest := by
      rw [put_of_not_mem hkey, List.append_assoc, List.singleton_append]
    rw [hstep, ih (hentered ▸ h), hentered]

theorem ofList_of_distinct {es : Entries α} (h : es.Distinct) : ofList es = es := merge_of_nodup h

theorem merge_append (es : Entries α) (others more : List (Text × α)) :
    es.merge (others ++ more) = (es.merge others).merge more := List.foldl_append

theorem mem_merge {es : Entries α} (h : es.Distinct) (others : List (Text × α)) {e : Text × α} :
    e ∈ es.merge others ↔ (e ∈ es ∧ e.1 ∉ keys others) ∨ e ∈ latestBy Prod.fst others := by
  induction others generalizing es with
  | nil => simp [merge, latestBy]
  | cons e' rest ih =>
    have hstep : es.merge (e' :: rest) = (es.put e'.1 e'.2).merge rest := rfl
    have hkeys : e.1 ∉ keys (e' :: rest) ↔ e.1 ≠ e'.1 ∧ e.1 ∉ keys rest := by
      rw [keys_cons, List.mem_cons, not_or]
    rw [hstep, ih (distinct_put h e'.1 e'.2), mem_put h, latestBy, hkeys]
    -- The first pair is still there in the end when no later pair has its key.
    by_cases hk : e'.1 ∈ rest.map Prod.fst
    · rw [if_pos hk]
      constructor
      · rintro (⟨rfl | ⟨he, hd⟩, hn⟩ | hl)
        · exact absurd hk hn
        · exact .inl ⟨he, hd, hn⟩
        · exact .inr hl
      · rintro (⟨he, hd, hn⟩ | hl)
        · exact .inl ⟨.inr ⟨he, hd⟩, hn⟩
        · exact .inr hl
    · rw [if_neg hk, List.mem_cons]
      constructor
      · rintro (⟨rfl | ⟨he, hd⟩, hn⟩ | hl)
        · exact .inr (.inl rfl)
        · exact .inl ⟨he, hd, hn⟩
        · exact .inr (.inr hl)
      · rintro (⟨he, hd, hn⟩ | rfl | hl)
        · exact .inl ⟨.inr ⟨he, hd⟩, hn⟩
        · exact .inl ⟨.inl rfl, hk⟩
        · exact .inr hl

theorem mem_ofList (pairs : List (Text × α)) {e : Text × α} :
    e ∈ ofList pairs ↔ e ∈ latestBy Prod.fst pairs := by
  have hempty : Distinct ([] : Entries α) := List.nodup_nil
  have hmerge := mem_merge hempty pairs (e := e)
  rw [ofList, hmerge, or_iff_right (fun h => List.not_mem_nil h.1)]

end Entries
end FindQuery
