import FindQuery.DateText.Scan
import FindQuery.Proofs.Outcome

/-! What the steps of a date text leave alone. -/

namespace FindQuery.DateText

section Readings
variable {α β : Type} {P : β → Prop}

def Reading.Gives (P : β → Prop) (x : Reading β) : Prop := ∀ b, x = .ok b → P b

namespace Reading

theorem gives_pure {b : β} (h : P b) : Gives P (pure b) := by
  intro c hc
  obtain rfl := Except.ok.inj hc
  exact h

theorem gives_error (e : Obstacle) : Gives P (.error e) := nofun

theorem Gives.bind {x : Reading α} {k : α → Reading β} (h : ∀ a, Gives P (k a)) :
    Gives P (x >>= k) := by
  intro b hb
  obtain ⟨a, -, hk⟩ := bind_eq_ok.1 hb
  exact h a b hk

theorem gives_map {x : Reading α} {k : α → β} (h : ∀ a, x = .ok a → P (k a)) :
    Gives P (x.map k) := by
  intro b hb
  obtain ⟨a, ha, rfl⟩ := map_eq_ok.1 hb
  exact h a ha

theorem gives_ofOption {o : Option β} (h : ∀ b ∈ o, P b) : Gives P (ofOption o) := by
  cases o with
  | none => exact gives_error _
  | some b => exact gives_pure (h b rfl)

end Reading

theorem forall_mem_bind {o : Option α} {k : α → Option β} (h : ∀ a, ∀ b ∈ k a, P b) :
    ∀ b ∈ o >>= k, P b := by
  intro b hb
  obtain ⟨a, -, hk⟩ := Option.bind_eq_some_iff.1 hb
  exact h a b hk

theorem forall_mem_pure {b : β} (h : P b) : ∀ c ∈ (pure b : Option β), P c := by
  intro c hc
  obtain rfl := Option.some.inj hc
  exact h

end Readings

namespace Findings

variable {f : Findings}

def words (f : Findings) : Option Nat × Option Token × Option Int := (f.weekday, f.zoneName, f.zoneOffset)

def KeepsWords (f g : Findings) : Prop := g.words = f.words

abbrev WordsKeptBy (f : Findings) (step : Step) : Prop := Reading.Gives (fun r => f.KeepsWords r.1) step

open Reading

theorem wordsKeptBy_taking {o : Option Findings} (taken : Nat) (h : ∀ g ∈ o, f.KeepsWords g) :
    f.WordsKeptBy (Step.taking taken o) :=
  gives_map (gives_ofOption h)

theorem keepsWords_withFigures (o : Option Figures) : ∀ g ∈ f.withFigures o, f.KeepsWords g := by
  intro g hg
  obtain ⟨_, -, rfl⟩ := Option.map_eq_some_iff.1 hg
  rfl

theorem gives_assignUnit (unit : ClockUnit) (t : Token) (a : Amount) :
    Gives f.KeepsWords (f.assignUnit unit t a) := by
  cases unit with
  | hour =>
    refine gives_map fun minute? _ => ?_
    cases minute? with
    | none => rfl
    | some minute => rfl
  | minute => exact gives_map fun _ _ => rfl
  | second => exact gives_ofOption (forall_mem_bind fun _ => forall_mem_pure rfl)

theorem keepsWords_assignCompactTime? (t : Token) : ∀ g ∈ f.assignCompactTime? t, f.KeepsWords g :=
  forall_mem_bind fun _ => forall_mem_bind fun _ => forall_mem_bind fun _ => forall_mem_pure rfl

theorem keepsWords_assignHourDigits? (t : Token) : ∀ g ∈ f.assignHourDigits? t, f.KeepsWords g := by
  unfold assignHourDigits?
  refine forall_mem_bind fun hour => ?_
  split
  · exact forall_mem_bind fun _ => forall_mem_pure rfl
  · exact forall_mem_pure rfl

theorem keepsWords_assignLongDate? (t : Token) : ∀ g ∈ f.assignLongDate? t, f.KeepsWords g := by
  unfold assignLongDate?
  refine forall_mem_bind fun _ => forall_mem_bind fun _ => forall_mem_bind fun _ => ?_
  split
  · exact forall_mem_pure rfl
  · refine forall_mem_bind fun _ => forall_mem_bind fun _ => ?_
    split
    · exact forall_mem_pure rfl
    · exact forall_mem_bind fun _ => forall_mem_pure rfl

theorem wordsKeptBy_clockStep (a : Amount) (minutes : Token) (rest : List Token) :
    f.WordsKeptBy (f.clockStep a minutes rest) := by
  unfold clockStep
  refine Gives.bind fun m => Gives.bind fun second => ?_
  split
  · exact Gives.bind fun _ => gives_pure rfl
  · exact gives_pure rfl

theorem wordsKeptBy_separatedStep (first separator : Token) (rest : List Token) :
    f.WordsKeptBy (f.separatedStep first separator rest) := by
  unfold separatedStep
  refine gives_ofOption (forall_mem_bind fun g => ?_)
  split
  · exact forall_mem_pure rfl
  · split
    · exact forall_mem_pure rfl
    · extract_lets finish next
      have hfinish : ∀ g, ∀ r ∈ finish g, f.KeepsWords r.1 := fun _ => forall_mem_pure rfl
      have hnext : ∀ g, ∀ r ∈ next g, f.KeepsWords r.1 := by
        intro g
        dsimp only [next]
        split
        · exact forall_mem_pure rfl
        · split
          · refine forall_mem_bind fun third => ?_
            split
            · exact forall_mem_bind hfinish
            · exact forall_mem_bind hfinish
          · exact forall_mem_pure rfl
      split
      · exact forall_mem_bind hnext
      · exact forall_mem_bind hnext

theorem wordsKeptBy_loneStep (a : Amount) (rest : List Token) : f.WordsKeptBy (f.loneStep a rest) := by
  unfold loneStep
  extract_lets half?
  clear_value half?
  cases half? with
  | some half => exact gives_pure rfl
  | none => exact wordsKeptBy_taking 1 (keepsWords_withFigures _)

theorem wordsKeptBy_dayStep (a : Amount) : f.WordsKeptBy (f.dayStep a) := by
  unfold dayStep
  split
  · exact wordsKeptBy_taking 0 (keepsWords_withFigures _)
  · exact gives_error _

theorem wordsKeptBy_contextStep (t : Token) (a : Amount) (rest : List Token) :
    f.WordsKeptBy (f.contextStep t a rest) := by
  unfold contextStep
  split
  · exact wordsKeptBy_loneStep a _
  · split
    · exact wordsKeptBy_clockStep a _ _
    · split
      · exact wordsKeptBy_separatedStep t _ _
      · split
        · exact wordsKeptBy_loneStep a _
        · split
          · split
            · exact gives_pure rfl
            · exact wordsKeptBy_dayStep a
          · exact wordsKeptBy_dayStep a

theorem wordsKeptBy_numberStep (before : List Token) (t : Token) (a : Amount) (rest : List Token) :
    f.WordsKeptBy (f.numberStep before t a rest) := by
  unfold numberStep
  split
  · exact wordsKeptBy_taking 0 (keepsWords_assignHourDigits? t)
  · split
    · apply wordsKeptBy_taking 0
      split
      · exact keepsWords_withFigures _
      · exact keepsWords_assignCompactTime? t
    · split
      · exact wordsKeptBy_taking 0 (keepsWords_assignLongDate? t)
      · split
        · exact gives_map (gives_assignUnit _ t a)
        · exact gives_pure rfl
        · exact wordsKeptBy_contextStep t a rest

theorem wordsKeptBy_monthStep [Host] (m : Nat) (rest : List Token) : f.WordsKeptBy (f.monthStep m rest) := by
  unfold monthStep
  refine gives_ofOption (forall_mem_bind fun g => ?_)
  split
  · exact forall_mem_pure rfl
  · split
    · refine forall_mem_bind fun second => forall_mem_bind fun g => ?_
      split
      · split
        · exact forall_mem_bind fun _ => forall_mem_bind fun _ => forall_mem_pure rfl
        · exact forall_mem_pure rfl
      · exact forall_mem_pure rfl
    · split
      · split
        · split
          · exact forall_mem_bind fun _ => forall_mem_bind fun _ => forall_mem_pure rfl
          · exact forall_mem_pure rfl
        · exact forall_mem_pure rfl
      · exact forall_mem_pure rfl

theorem wordsKeptBy_halfDayStep (half : HalfDay) : f.WordsKeptBy (f.halfDayStep half) := by
  unfold halfDayStep
  refine Gives.bind fun hour => ?_
  split
  · exact gives_pure rfl
  · exact gives_error _

end Findings

end FindQuery.DateText
