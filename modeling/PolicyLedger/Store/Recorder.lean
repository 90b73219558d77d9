import PolicyLedger.Policy.Event
import PolicyLedger.Policy.State

namespace PolicyLedger

/-- Passes changes on and keeps one event for each that was made, oldest first. Routines of plugins
exist on every replica anyway: creating one leaves no event, and none can be deleted. -/
structure Recorder (σ : Type) where
  inner : σ
  plugins : SortedSet String := ∅
  events : List Event := []

namespace Recorder
variable {σ α : Type}

/-- Why a change is not even passed on. -/
def refusal? (plugins : SortedSet String) : Mutation → Option PolicyError
  | .createOperation ⟨name, .native⟩ => some (.notDeclarative name)
  | .createRoutine ⟨name, .native⟩ => if plugins.contains name then none else some (.notDeclarative name)
  | .deleteRoutine name => if plugins.contains name then some (.pluginRoutine name) else none
  | _ => none

/-- The event kept for a change that was made. -/
def recorded? (plugins : SortedSet String) (m : Mutation) (outcome : Outcome) : Option Event :=
  match m with
  | .createRoutine routine => if plugins.contains routine.name then none else Event.ofMutation? m outcome
  | _ => Event.ofMutation? m outcome

def onInner {ε : Type} (act : Action ε σ α) : Action ε (Recorder σ) α :=
  act.within Recorder.inner fun inner r => { r with inner }

def perform [PolicyState σ] (m : Mutation) : Action PolicyError (Recorder σ) Outcome := do
  let plugins := (← get).plugins
  if let some e := refusal? plugins m then throw e
  let outcome ← onInner (PolicyState.perform m)
  modify fun r => { r with events := r.events ++ (recorded? plugins m outcome).toList }
  return outcome

instance [PolicyState σ] : PolicyState (Recorder σ) where
  graph r := PolicyState.graph r.inner
  perform := perform

/-- Events of changes that are rolled back stay. -/
instance [Transactional σ] : Transactional (Recorder σ) where
  begin := onInner Transactional.begin
  commit := onInner Transactional.commit
  rollback := onInner Transactional.rollback

end Recorder
end PolicyLedger
