import SpokenCommand.Event
import SpokenCommand.Notice
/-!
What an operation on a state brings about.

Operations are functions from a state to a REACTION: the state afterwards, the answer, and, each in
order, the events and the notices that it makes known.
-/

namespace SpokenCommand

/-- The outcome of an operation on a state. -/
structure Reaction (σ α : Type) where
  state : σ
  result : α
  events : List Event := []
  notices : List Notice := []

namespace Reaction

variable {σ τ α β : Type}

/-- The same outcome, seen as one on a larger state. -/
def within (r : Reaction σ α) (embed : σ → τ) : Reaction τ α :=
  ⟨embed r.state, r.result, r.events, r.notices⟩

/-- The same outcome with another answer. -/
def mapResult (r : Reaction σ α) (f : α → β) : Reaction σ β :=
  ⟨r.state, f r.result, r.events, r.notices⟩

/-- One operation and then another. -/
def andThen (r : Reaction σ α) (next : σ → α → Reaction τ β) : Reaction τ β :=
  let s := next r.state r.result
  ⟨s.state, s.result, r.events ++ s.events, r.notices ++ s.notices⟩

end Reaction

end SpokenCommand
