import PolicyLedger.Language.Parser
import PolicyLedger.Policy.State

/-!
What policy text does to a policy. A statement names nodes; it becomes a change once the names are
looked up in the graph it is carried out on.
-/
namespace PolicyLedger

def SyntaxError.toPolicyError (e : SyntaxError) : PolicyError := .malformedText e.position e.problem.message

namespace Statement

/-- The statements a policy text holds, or the policy error that reports it as malformed. -/
def read (source : String) : Except PolicyError (List Statement) :=
  (compile source).mapError SyntaxError.toPolicyError

/-- The rule a declaration adds. -/
def declared (author : Author) (name source : String) : DeclarationKind → Mutation
  | .obligation => .createObligation ⟨author, name, source⟩
  | .operation => .createOperation ⟨name, .declared source⟩
  | .routine => .createRoutine ⟨name, .declared source⟩

/-- The rule of some kind removed by its name. -/
def removal (name : String) : DeclarationKind → Mutation
  | .obligation => .deleteObligation name
  | .operation => .deleteOperation name
  | .routine => .deleteRoutine name

/-- The change a statement asks for, its names looked up in a graph. -/
def resolve (g : Graph) (author : Author) : Statement → Except PolicyError Mutation
  | createPolicyClass name => return .createNode .policyClass name []
  | createNode kind name descendants => return .createNode kind name (← descendants.mapM g.nodeId)
  | assign ascendant descendants => return .assign (← g.nodeId ascendant) (← descendants.mapM g.nodeId)
  | deassign ascendant descendants => return .deassign (← g.nodeId ascendant) (← descendants.mapM g.nodeId)
  | associate ua target rights => return .associate (← g.nodeId ua) (← g.nodeId target) rights
  | setResourceOperations rights => return .setResourceOperations rights
  | declare kind name source => return declared author name source kind
  | delete .node name => return .deleteNode (← g.nodeId name)
  | delete .prohibition name => return .deleteProhibition name
  | delete (.declaration kind) name => return removal name kind

section Execution
variable {σ : Type} [PolicyState σ]

/-- Makes the change a statement asks for. -/
def execute (author : Author) (s : Statement) : Action PolicyError σ Outcome := do
  let m ← .ofExcept (s.resolve (PolicyState.graph (← get)) author)
  PolicyState.perform m

/-- Executes all statements in order. The first that fails ends it; those before it stay done. -/
def executeAll (author : Author) : List Statement → Action PolicyError σ (List Outcome)
  | [] => pure []
  | statement :: rest => do
    let outcome ← statement.execute author
    return outcome :: (← executeAll author rest)

/-- Executes the statements of a text, none of them if the text is malformed. -/
def run (author : Author) (source : String) : Action PolicyError σ (List Outcome) := do
  executeAll author (← .ofExcept (read source))

end Execution

end Statement
end PolicyLedger
