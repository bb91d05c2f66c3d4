import ZoneGraph.Fault

/-! Operations that change a state and may be refused. A refused operation still
leaves a state behind: what was declared before the refusal stays declared. -/
namespace ZoneGraph

abbrev Step (σ α : Type) := EStateM Fault σ α

namespace Step

variable {σ τ α : Type}

/-- Takes a result that does not depend on the state. -/
def lift : Except Fault α → Step σ α
  | .ok value => pure value
  | .error fault => throw fault

/-- Works on a part of the state; the rest stays as it is, also after a refusal. -/
def within (get : τ → σ) (put : σ → τ → τ) (step : Step σ α) : Step τ α := fun state =>
  match step (get state) with
  | .ok value part => .ok value (put part state)
  | .error fault part => .error fault (put part state)

/-- The state that an operation leaves behind, refused or not. -/
def after (step : Step σ α) (state : σ) : σ :=
  match step state with
  | .ok _ state => state
  | .error _ state => state

/-- The answer of an operation, or the fault it is refused with. -/
def answer (step : Step σ α) (state : σ) : Except Fault α :=
  match step state with
  | .ok value _ => .ok value
  | .error fault _ => .error fault

/-- The same operations on each item, cut at the first one refused. -/
def each {ι : Type} (step : ι → Step σ Unit) : List ι → Step σ Unit
  | [] => pure ()
  | item :: rest => do
    step item
    each step rest

end Step

end ZoneGraph
