import FindQuery.Proofs.Node.Copies
import FindQuery.Proofs.Outcome
import FindQuery.Proofs.Value.Path
import FindQuery.Workspace

/-! Runs of a workspace: expressions and documents keep apart, and so do copies of one expression. -/

namespace FindQuery

namespace Workspace

inductive Command
  | define (name : Text) (node : Node)
  | parse (name filterName : Text) (params : Params)
  | render (name document : Text)
  | append (document : Text) (path : List PathStep) (item : Value)
  | put (document : Text) (path : List PathStep) (key : Text) (value : Value)

namespace Command

def enters? : Command → Option Text
  | .define name _ | .parse name _ _ => some name
  | .render _ _ | .append _ _ _ | .put _ _ _ _ => none

def stores? : Command → Option Text
  | .define _ _ | .parse _ _ _ => none
  | .render _ document | .append document _ _ | .put document _ _ _ => some document

def attempt [Host] (w : Workspace) : Command → Except WorkspaceError Workspace
  | .define name node => .ok (w.define name node)
  | .parse name filterName params => w.defineParsed name filterName params
  | .render name document => (w.rendered name).map (w.storeDocument document)
  | .append document path item =>
    (w.changed document (·.appendAt path item)).map (w.storeDocument document)
  | .put document path key value =>
    (w.changed document (·.putAt path key value)).map (w.storeDocument document)

end Command

/-- A command that fails leaves the workspace as it was. -/
def perform [Host] (w : Workspace) (c : Command) : Workspace :=
  match c.attempt w with
  | .ok after => after
  | .error _ => w

def run [Host] (w : Workspace) (commands : List Command) : Workspace := commands.foldl perform w

theorem node_define_self (w : Workspace) (name : Text) (node : Node) :
    (w.define name node).node name = .ok (node.mark (w.entered + 1)) := by
  rw [Workspace.node, named, define, Entries.get?_put_self]

theorem node_define_of_ne {w : Workspace} {name other : Text} {node : Node} (h : name ≠ other) :
    (w.define other node).node name = w.node name := by
  rw [Workspace.node, Workspace.node, named, named, define, Entries.get?_put_of_ne _ _ h]

section Step
variable [Host] {w after : Workspace} {c : Command} {name : Text}

theorem attempt_cases (h : c.attempt w = .ok after) :
    (∃ name node, c.enters? = some name ∧ after = w.define name node) ∨
      ∃ name document, c.stores? = some name ∧ after = w.storeDocument name document := by
  cases c with
  | define name node => exact .inl ⟨name, node, rfl, (Except.ok.inj h).symm⟩
  | parse name filterName params =>
    obtain ⟨filters, -, hafter⟩ := bind_eq_ok.1 h
    exact .inl ⟨name, _, rfl, (Except.ok.inj hafter).symm⟩
  | render name document =>
    obtain ⟨value, -, rfl⟩ := map_eq_ok.1 h
    exact .inr ⟨document, value, rfl, rfl⟩
  | append document path item =>
    obtain ⟨value, -, rfl⟩ := map_eq_ok.1 h
    exact .inr ⟨document, value, rfl, rfl⟩
  | put document path key value =>
    obtain ⟨value, -, rfl⟩ := map_eq_ok.1 h
    exact .inr ⟨document, value, rfl, rfl⟩

theorem perform_cases (w : Workspace) (c : Command) :
    w.perform c = w ∨ (∃ name node, c.enters? = some name ∧ w.perform c = w.define name node) ∨
      ∃ name document, c.stores? = some name ∧ w.perform c = w.storeDocument name document := by
  unfold perform
  split
  · next after h => exact .inr (attempt_cases h)
  · exact .inl rfl

theorem node_perform (h : c.enters? ≠ some name) : (w.perform c).node name = w.node name := by
  obtain heq | ⟨other, expression, henters, heq⟩ | ⟨other, document, -, heq⟩ := perform_cases w c
  · rw [heq]
  · have hne : name ≠ other := by
      rintro rfl
      exact h henters
    rw [heq, node_define_of_ne hne]
  · rw [heq]
    rfl

theorem document_perform (h : c.stores? ≠ some name) :
    (w.perform c).documents.get? name = w.documents.get? name := by
  obtain heq | ⟨other, node, -, heq⟩ | ⟨other, document, hstores, heq⟩ := perform_cases w c
  · rw [heq]
  · rw [heq]
    rfl
  · have hne : name ≠ other := by
      rintro rfl
      exact h hstores
    rw [heq, storeDocument, Entries.get?_put_of_ne _ _ hne]

theorem entered_perform (w : Workspace) (c : Command) :
    w.entered ≤ (w.perform c).entered ∧ (w.perform c).entered ≤ w.entered + 1 := by
  obtain heq | ⟨other, node, -, heq⟩ | ⟨other, document, -, heq⟩ := perform_cases w c <;> rw [heq]
  · exact ⟨Nat.le_refl _, Nat.le_succ _⟩
  · exact ⟨Nat.le_succ _, Nat.le_refl _⟩
  · exact ⟨Nat.le_refl _, Nat.le_succ _⟩

end Step

section Run
variable [Host] {w : Workspace} {commands : List Command} {name : Text}

theorem node_run (h : ∀ c ∈ commands, c.enters? ≠ some name) : (w.run commands).node name = w.node name := by
  induction commands generalizing w with
  | nil => rfl
  | cons c rest ih =>
    obtain ⟨hc, hrest⟩ := List.forall_mem_cons.1 h
    exact (ih hrest).trans (node_perform hc)

/-- Whatever becomes of the documents that were made of an expression, it gives the same document again. -/
theorem rendered_run (h : ∀ c ∈ commands, c.enters? ≠ some name) :
    (w.run commands).rendered name = w.rendered name := by
  rw [rendered, rendered, node_run h]

theorem document_run (h : ∀ c ∈ commands, c.stores? ≠ some name) :
    (w.run commands).documents.get? name = w.documents.get? name := by
  induction commands generalizing w with
  | nil => rfl
  | cons c rest ih =>
    obtain ⟨hc, hrest⟩ := List.forall_mem_cons.1 h
    exact (ih hrest).trans (document_perform hc)

theorem entered_run (w : Workspace) (commands : List Command) :
    w.entered ≤ (w.run commands).entered ∧
      (w.run commands).entered ≤ w.entered + commands.length := by
  induction commands generalizing w with
  | nil => exact ⟨Nat.le_refl _, Nat.le_refl _⟩
  | cons c rest ih =>
    obtain ⟨hlower, hupper⟩ := entered_perform w c
    obtain ⟨hlower', hupper'⟩ := ih (w.perform c)
    refine ⟨Nat.le_trans hlower hlower', ?_⟩
    rw [List.length_cons]
    exact Nat.le_trans hupper' (by omega)

/-- An expression that is entered twice equals itself exactly when nothing in it is no number. -/
theorem equal_run {first second : Text} {node : Node} {between : List Command} (hfresh : node.IsFresh)
    (hne : first ≠ second) (hkept : ∀ c ∈ between, c.enters? ≠ some first)
    (hcount : between.length + 1 < payloadCount) :
    (((w.define first node).run between).define second node).equal first second =
      .ok (!node.holdsNaN) := by
  obtain ⟨hlower, hupper⟩ := entered_run (w.define first node) between
  have hfirst : (((w.define first node).run between).define second node).node first =
      .ok (node.mark (w.entered + 1)) := by
    rw [node_define_of_ne hne, node_run hkept, node_define_self]
  have hmark : (w.entered + 1) % payloadCount ≠
      (((w.define first node).run between).entered + 1) % payloadCount := by
    have hentered : (w.define first node).entered = w.entered + 1 := rfl
    rw [hentered] at hlower hupper
    intro heq
    have hmod := Nat.sub_mod_eq_zero_of_mod_eq heq.symm
    rw [Nat.mod_eq_of_lt (by omega)] at hmod
    omega
  rw [Workspace.equal, hfirst, node_define_self]
  show ((node.mark _).equal (node.mark _)).mapError WorkspaceError.comparison = _
  rw [Node.equal_mark hmark hfresh]
  rfl

end Run

end Workspace
end FindQuery
