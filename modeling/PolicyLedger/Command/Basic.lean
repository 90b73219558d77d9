import PolicyLedger.Language.Statement
import PolicyLedger.Policy.Error
import PolicyLedger.Policy.Rule

namespace PolicyLedger

/-- A request of an administrator. Declarations are handed in as text with exactly one statement. -/
inductive Command where
  | createPolicyClass (name : String)
  | createUserAttribute (name : String) (descendants : List NodeId)
  | createObjectAttribute (name : String) (descendants : List NodeId)
  | createUser (name : String) (descendants : List NodeId)
  | createObject (name : String) (descendants : List NodeId)
  | deleteNode (id : NodeId)
  | setProperties (id : NodeId) (properties : Properties)
  | assign (ascendant : NodeId) (descendants : List NodeId)
  | deassign (ascendant : NodeId) (descendants : List NodeId)
  | associate (ua target : NodeId) (rights : AccessRights)
  | dissociate (ua target : NodeId)
  | createProhibition (prohibition : Prohibition)
  | deleteProhibition (name : String)
  | createObligation (source : String)
  | deleteObligation (name : String)
  | createOperation (source : String)
  | deleteOperation (name : String)
  | setResourceOperations (rights : AccessRights)
  | createRoutine (source : String)
  | deleteRoutine (name : String)
  | runText (source : String)
  deriving DecidableEq

/-- Kind and name of the node a command creates. -/
def Command.createdNode? : Command → Option (NodeKind × String)
  | createPolicyClass name => some (.policyClass, name)
  | createUserAttribute name _ => some (.userAttribute, name)
  | createObjectAttribute name _ => some (.objectAttribute, name)
  | createUser name _ => some (.user, name)
  | createObject name _ => some (.object, name)
  | _ => none

/-- Why a command is refused. -/
inductive CommandError where
  | policy (error : PolicyError)
  | notSingleDeclaration (expected : StatementKind)
  deriving DecidableEq

def CommandError.message : CommandError → String
  | policy error => error.message
  | notSingleDeclaration expected => "only one " ++ expected.text ++ " statement allowed"

end PolicyLedger
