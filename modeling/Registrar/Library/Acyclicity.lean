import Mathlib.Logic.Relation

/-!
# Acyclic relations

A relation stays acyclic when edges into a node without successors are added.
-/

namespace Acyclicity

variable {Node : Type*} {relation extended : Node → Node → Prop}

/-- No node reaches itself. -/
def Acyclic (relation : Node → Node → Prop) : Prop :=
  ∀ node, ¬Relation.TransGen relation node node

theorem mono (acyclic : Acyclic relation)
    (included : ∀ left right, extended left right → relation left right) :
    Acyclic extended := by
  intro node cycle
  exact acyclic node (Relation.TransGen.mono included node node cycle)

/-- A path to a node that has a successor does not pass through a node that has
none. -/
theorem transGen_of_sink {sink left right : Node}
    (added : ∀ left right, extended left right →
      relation left right ∨ right = sink)
    (noSuccessor : ∀ right, ¬extended sink right)
    (path : Relation.TransGen extended left right)
    (continues : ∃ next, extended right next) :
    Relation.TransGen relation left right := by
  have edge {first second : Node} (step : extended first second)
      (onward : ∃ next, extended second next) : relation first second := by
    rcases added first second step with old | isSink
    · exact old
    · obtain ⟨next, outgoing⟩ := onward
      rw [isSink] at outgoing
      exact absurd outgoing (noSuccessor next)
  induction path with
  | single step => exact .single (edge step continues)
  | tail _ step induction =>
      exact .tail (induction ⟨_, step⟩) (edge step continues)

theorem of_sink {sink : Node} (acyclic : Acyclic relation)
    (added : ∀ left right, extended left right →
      relation left right ∨ right = sink)
    (noSuccessor : ∀ right, ¬extended sink right) :
    Acyclic extended := by
  intro node cycle
  obtain ⟨next, first, -⟩ := Relation.TransGen.head'_iff.mp cycle
  exact acyclic node (transGen_of_sink added noSuccessor cycle ⟨next, first⟩)

end Acyclicity
