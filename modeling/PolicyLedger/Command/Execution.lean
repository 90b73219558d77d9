import PolicyLedger.Command.Basic
import PolicyLedger.Language.Execution

/-!
Carrying out commands, one by one or as a batch. A batch happens as a whole or not at all.
-/
namespace PolicyLedger.Command

section Single
variable {σ : Type} [PolicyState σ]

def change (m : Mutation) : Action CommandError σ Outcome := (PolicyState.perform m).mapError .policy

/-- The one declaration of a kind that a text consists of. -/
def singleDeclaration (kind : DeclarationKind) (source : String) : Except CommandError Statement :=
  match Statement.read source with
  | .error e => .error (.policy e)
  | .ok [statement] =>
    if statement.kind = .declare kind then .ok statement else .error (.notSingleDeclaration (.declare kind))
  | .ok _ => .error (.notSingleDeclaration (.declare kind))

def declare (author : Author) (kind : DeclarationKind) (source : String) : Action CommandError σ Outcome := do
  let statement ← .ofExcept (singleDeclaration kind source)
  (statement.execute author).mapError .policy

/-- Executes a command on behalf of its author. -/
def execute (author : Author) : Command → Action CommandError σ Outcome
  | createPolicyClass name => change (.createNode .policyClass name [])
  | createUserAttribute name descendants => change (.createNode .userAttribute name descendants)
  | createObjectAttribute name descendants => change (.createNode .objectAttribute name descendants)
  | createUser name descendants => change (.createNode .user name descendants)
  | createObject name descendants => change (.createNode .object name descendants)
  | deleteNode id => change (.deleteNode id)
  | setProperties id properties => change (.setProperties id properties)
  | assign ascendant descendants => change (.assign ascendant descendants)
  | deassign ascendant descendants => change (.deassign ascendant descendants)
  | associate ua target rights => change (.associate ua target rights)
  | dissociate ua target => change (.dissociate ua target)
  | createProhibition prohibition => change (.createProhibition prohibition)
  | deleteProhibition name => change (.deleteProhibition name)
  | createObligation source => declare author .obligation source
  | deleteObligation name => change (.deleteObligation name)
  | createOperation source => declare author .operation source
  | deleteOperation name => change (.deleteOperation name)
  | setResourceOperations rights => change (.setResourceOperations rights)
  | createRoutine source => declare author .routine source
  | deleteRoutine name => change (.deleteRoutine name)
  | runText source => do
    let _ ← (Statement.run author source).mapError .policy
    return .applied

end Single

section Batch
variable {σ : Type} [PolicyState σ] [Transactional σ]

/-- Executes commands up to the first that fails. -/
def executeSequence (author : Author) : List Command → Action CommandError σ (List Outcome)
  | [] => pure []
  | command :: rest => do
    let outcome ← execute author command
    return outcome :: (← executeSequence author rest)

/-- Executes commands in order inside of one transaction, which is taken back when one fails. -/
def executeBatch (author : Author) (commands : List Command) : Action CommandError σ (List Outcome) := do
  Transactional.begin.mapError .policy
  match ← (executeSequence author commands).attempt with
  | .ok outcomes => do
    Transactional.commit.mapError .policy
    return outcomes
  | .error e => do
    Transactional.rollback.mapError .policy
    throw e

end Batch

end PolicyLedger.Command
