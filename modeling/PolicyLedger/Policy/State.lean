import PolicyLedger.Action
import PolicyLedger.Graph.Change
import PolicyLedger.Graph.Query

namespace PolicyLedger

/-- A state that shows a policy graph and can be asked to change it. -/
class PolicyState (σ : Type) where
  graph : σ → Graph
  perform : Mutation → Action PolicyError σ Outcome

/-- Answers a question from the graph shown. -/
def PolicyState.ask {σ : Type} [PolicyState σ] (q : Query) : Action PolicyError σ Answer := do
  .ofExcept ((PolicyState.graph (← get)).answer q)

/-- A state with transactions. Each that is begun is closed by one `commit` or `rollback`. -/
class Transactional (σ : Type) where
  begin : Action PolicyError σ Unit
  commit : Action PolicyError σ Unit
  rollback : Action PolicyError σ Unit

end PolicyLedger
