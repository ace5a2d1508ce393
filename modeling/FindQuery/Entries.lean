import FindQuery.Text.Basic

/-! Finite maps with text keys that keep the order in which keys were first entered. -/

namespace FindQuery

abbrev Entries (α : Type) := List (Text × α)

namespace Entries

variable {α : Type}

def keys (es : Entries α) : List Text := es.map Prod.fst

def get? (es : Entries α) (key : Text) : Option α :=
  match es with
  | [] => none
  | (k, v) :: rest => if k = key then some v else get? rest key

def put (es : Entries α) (key : Text) (value : α) : Entries α :=
  match es with
  | [] => [(key, value)]
  | (k, v) :: rest => if k = key then (k, value) :: rest else (k, v) :: put rest key value

def erase (es : Entries α) (key : Text) : Entries α := es.filter (·.1 ≠ key)

def merge (es others : Entries α) : Entries α := others.foldl (fun m e => m.put e.1 e.2) es

def ofList (pairs : List (Text × α)) : Entries α := merge [] pairs

def Distinct (es : Entries α) : Prop := es.keys.Nodup

@[simp] theorem keys_nil : keys ([] : Entries α) = [] := rfl

@[simp] theorem keys_cons (e : Text × α) (es : Entries α) : keys (e :: es) = e.1 :: keys es := rfl

theorem get?_put_self (es : Entries α) (key : Text) (value : α) :
    (es.put key value).get? key = some value := by
  induction es with
  | nil => simp [put, get?]
  | cons e rest ih =>
    obtain ⟨k, v⟩ := e
    by_cases h : k = key
    · simp [put, get?, h]
    · simp [put, get?, h, ih]

theorem get?_put_of_ne (es : Entries α) {key other : Text} (value : α) (h : other ≠ key) :
    (es.put key value).get? other = es.get? other := by
  induction es with
  | nil => simp [put, get?, Ne.symm h]
  | cons e rest ih =>
    obtain ⟨k, v⟩ := e
    by_cases hk : k = key
    · subst hk
      simp [put, get?, Ne.symm h]
    · simp only [put, hk, if_false, get?, ih]

theorem keys_put (es : Entries α) (key : Text) (value : α) :
    (es.put key value).keys = if key ∈ es.keys then es.keys else es.keys ++ [key] := by
  induction es with
  | nil => simp [put]
  | cons e rest ih =>
    obtain ⟨k, v⟩ := e
    by_cases hk : k = key
    · simp [put, hk]
    · by_cases hm : key ∈ keys rest <;> simp [put, hk, ih, hm, Ne.symm hk]

theorem distinct_put {es : Entries α} (h : es.Distinct) (key : Text) (value : α) :
    (es.put key value).Distinct := by
  unfold Distinct at *
  rw [keys_put]
  split
  · exact h
  · next hm =>
    rw [List.nodup_append]
    refine ⟨h, by simp, ?_⟩
    intro a ha b hb
    simp only [List.mem_singleton] at hb
    subst hb
    intro hab
    exact hm (hab ▸ ha)

end Entries
end FindQuery
