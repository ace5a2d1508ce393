import FindQuery.Request.Sort

/-! Sort orders and the entries that tell them. -/

namespace FindQuery.SortField

/-- An entry can tell the field: it has a name, and one that sorts upwards has no minus in front. -/
structure IsWritable (f : SortField) : Prop where
  named : f.field ≠ []
  unmarked : f.direction = .ascending → f.field.head? ≠ some '-'

def entry (f : SortField) : Text :=
  match f.direction with
  | .ascending => f.field
  | .descending => '-' :: f.field

def IsBlank (entry : Text) : Prop := entry = [] ∨ entry = ['-']

/-- The entries of the fields in their order, with any number of blank ones between them. -/
inductive Encodes : List SortField → List Text → Prop
  | nil : Encodes [] []
  | blank {entry : Text} {fields : List SortField} {entries : List Text} :
      IsBlank entry → Encodes fields entries → Encodes fields (entry :: entries)
  | field {f : SortField} {fields : List SortField} {entries : List Text} :
      Encodes fields entries → Encodes (f :: fields) (f.entry :: entries)

/-- The entries that count: those under the list key, and only without one those under the plain key. -/
inductive Holds (params : Params) (entries : List Text) : Prop
  | list : params.get? listKey = some entries → Holds params entries
  | plain : params.get? listKey = none → params.get? plainKey = some entries → Holds params entries

section Entry
variable {s : Text} {f : SortField}

theorem ofEntry?_minus (hne : s ≠ []) : ofEntry? ('-' :: s) = some ⟨s, .descending⟩ := by
  cases s with
  | nil => exact absurd rfl hne
  | cons c rest => rfl

theorem ofEntry?_of_head (hne : s ≠ []) (hhead : s.head? ≠ some '-') :
    ofEntry? s = some ⟨s, .ascending⟩ := by
  unfold ofEntry?
  split
  · exact absurd rfl hne
  · exact absurd rfl hhead
  · exact absurd rfl hhead
  · rfl

theorem ofEntry?_of_isBlank (h : IsBlank s) : ofEntry? s = none := by
  rcases h with rfl | rfl
  · rfl
  · rfl

theorem ofEntry?_entry (h : f.IsWritable) : ofEntry? f.entry = some f := by
  obtain ⟨field, direction⟩ := f
  cases direction with
  | ascending => exact ofEntry?_of_head h.named (h.unmarked rfl)
  | descending => exact ofEntry?_minus h.named

theorem isBlank_or_exists_entry (s : Text) : IsBlank s ∨ ∃ f : SortField, f.IsWritable ∧ s = f.entry := by
  cases s with
  | nil => exact .inl (.inl rfl)
  | cons c rest =>
    by_cases hminus : c = '-'
    · subst hminus
      cases rest with
      | nil => exact .inl (.inr rfl)
      | cons d rest =>
        exact .inr ⟨⟨d :: rest, .descending⟩, ⟨List.cons_ne_nil d rest, nofun⟩, rfl⟩
    · refine .inr ⟨⟨c :: rest, .ascending⟩, ⟨List.cons_ne_nil c rest, fun _ hhead => ?_⟩, rfl⟩
      exact hminus (Option.some.inj hhead)

end Entry

section Order
variable {params : Params} {fields : List SortField} {entries : List Text}

theorem filterMap_of_encodes (h : Encodes fields entries) (hwritable : ∀ f ∈ fields, f.IsWritable) :
    entries.filterMap ofEntry? = fields := by
  induction h with
  | nil => rfl
  | blank hblank _ ih => rw [List.filterMap_cons_none (ofEntry?_of_isBlank hblank), ih hwritable]
  | field _ ih =>
    obtain ⟨hf, hrest⟩ := List.forall_mem_cons.1 hwritable
    rw [List.filterMap_cons_some (ofEntry?_entry hf), ih hrest]

theorem encodes_filterMap (entries : List Text) :
    Encodes (entries.filterMap ofEntry?) entries ∧ ∀ f ∈ entries.filterMap ofEntry?, f.IsWritable := by
  induction entries with
  | nil => exact ⟨.nil, nofun⟩
  | cons s rest ih =>
    obtain ⟨hencodes, hwritable⟩ := ih
    rcases isBlank_or_exists_entry s with hblank | ⟨f, hf, rfl⟩
    · rw [List.filterMap_cons_none (ofEntry?_of_isBlank hblank)]
      exact ⟨.blank hblank hencodes, hwritable⟩
    · rw [List.filterMap_cons_some (ofEntry?_entry hf)]
      exact ⟨.field hencodes, List.forall_mem_cons.2 ⟨hf, hwritable⟩⟩

theorem order_eq_some_iff : order params = some fields ↔
    ∃ entries, Holds params entries ∧ entries.filterMap ofEntry? = fields := by
  rw [order, Option.map_eq_some_iff]
  refine exists_congr fun entries => and_congr_left fun _ => ?_
  rw [Option.or_eq_some_iff]
  constructor
  · rintro (hlist | ⟨hnone, hplain⟩)
    · exact .list hlist
    · exact .plain hnone hplain
  · rintro (hlist | ⟨hnone, hplain⟩)
    · exact .inl hlist
    · exact .inr ⟨hnone, hplain⟩

theorem order_eq_some_iff_encodes : order params = some fields ↔
    (∀ f ∈ fields, f.IsWritable) ∧ ∃ entries, Holds params entries ∧ Encodes fields entries := by
  rw [order_eq_some_iff]
  constructor
  · rintro ⟨entries, hholds, rfl⟩
    obtain ⟨hencodes, hwritable⟩ := encodes_filterMap entries
    exact ⟨hwritable, entries, hholds, hencodes⟩
  · rintro ⟨hwritable, entries, hholds, hencodes⟩
    exact ⟨entries, hholds, filterMap_of_encodes hencodes hwritable⟩

/-- An order that entries can tell is read from any entries that encode it, and whatever order is read is read
again from the entries that encode it. -/
theorem order_round_trip :
    (∀ fields entries params, (∀ f ∈ fields, IsWritable f) → Encodes fields entries →
      Holds params entries → order params = some fields) ∧
    ∀ params fields, order params = some fields → ∀ entries params', Encodes fields entries →
      Holds params' entries → order params' = some fields := by
  refine ⟨fun fields entries params hwritable hencodes hholds => ?_, ?_⟩
  · exact order_eq_some_iff_encodes.2 ⟨hwritable, entries, hholds, hencodes⟩
  · intro params fields hread entries params' hencodes hholds
    obtain ⟨hwritable, -⟩ := order_eq_some_iff_encodes.1 hread
    exact order_eq_some_iff_encodes.2 ⟨hwritable, entries, hholds, hencodes⟩

def dashedOrder : List SortField :=
  [⟨"-".toList, .descending⟩, ⟨"sku".toList, .ascending⟩, ⟨"sku".toList, .descending⟩]

def dashedEntries : List Text := ["", "--", "-", "", "sku", "-sku", "-"].map String.toList

def dashedParams : Params := [(plainKey, ["amount".toList]), (listKey, dashedEntries)]

def plainParams : Params := [(plainKey, dashedOrder.map entry)]

theorem order_round_trip_dashed : (∀ f ∈ dashedOrder, f.IsWritable) ∧
    Encodes dashedOrder dashedEntries ∧ Holds dashedParams dashedEntries ∧
      order dashedParams = some dashedOrder ∧ Encodes dashedOrder (dashedOrder.map entry) ∧
        Holds plainParams (dashedOrder.map entry) ∧ order plainParams = some dashedOrder := by
  have hwritable : ∀ f ∈ dashedOrder, f.IsWritable := (encodes_filterMap dashedEntries).2
  have hencodes : Encodes dashedOrder dashedEntries := (encodes_filterMap dashedEntries).1
  have hplain : Encodes dashedOrder (dashedOrder.map entry) := .field (.field (.field .nil))
  have hholds : Holds dashedParams dashedEntries := .list (by decide)
  have hholds' : Holds plainParams (dashedOrder.map entry) := .plain (by decide) (by decide)
  have hread := order_round_trip.1 dashedOrder dashedEntries dashedParams hwritable hencodes hholds
  exact ⟨hwritable, hencodes, hholds, hread, hplain, hholds',
    order_round_trip.2 dashedParams dashedOrder hread _ plainParams hplain hholds'⟩

end Order

end FindQuery.SortField
