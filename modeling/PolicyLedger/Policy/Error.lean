import PolicyLedger.Policy.Node

namespace PolicyLedger

/-- Why a policy change or a policy text is refused. -/
inductive PolicyError where
  | nodeNameExists (name : String)
  | nodeIdExists (id : NodeId)
  | unknownNodeName (name : String)
  | unknownNode (id : NodeId)
  | invalidAssignment (ascendant descendant : NodeKind)
  | assignmentCycle (ascendant descendant : NodeId)
  | missingDescendants (kind : NodeKind)
  | policyClassDescendants
  | disconnectedNode (ascendant descendant : NodeId)
  | nodeHasAscendants (id : NodeId)
  | nodeInProhibition (id : NodeId) (prohibition : String)
  | invalidAssociation (id : NodeId)
  | unknownAccessRight (right : String)
  | prohibitionExists (name : String)
  | unknownProhibition (name : String)
  | obligationExists (name : String)
  | unknownObligation (name : String)
  | operationExists (name : String)
  | unknownOperation (name : String)
  | routineExists (name : String)
  | unknownRoutine (name : String)
  | pluginRoutine (name : String)
  | notDeclarative (name : String)
  | noTransaction
  | unauthorized (user : NodeId)
  | malformedText (position : Nat) (problem : String)
  deriving DecidableEq

/-- A text in double quotes. -/
def quoted (text : String) : String := "\"" ++ text ++ "\""

/-- The word by which programs tell an error from others. -/
def PolicyError.label : PolicyError → String
  | nodeNameExists _ => "NodeNameExists"
  | nodeIdExists _ => "NodeIdExists"
  | unknownNodeName _ => "UnknownNodeName"
  | unknownNode _ => "UnknownNode"
  | invalidAssignment .. => "InvalidAssignment"
  | assignmentCycle .. => "AssignmentCycle"
  | missingDescendants _ => "MissingDescendants"
  | policyClassDescendants => "PolicyClassDescendants"
  | disconnectedNode .. => "DisconnectedNode"
  | nodeHasAscendants _ => "NodeHasAscendants"
  | nodeInProhibition .. => "NodeInProhibition"
  | invalidAssociation _ => "InvalidAssociation"
  | unknownAccessRight _ => "UnknownAccessRight"
  | prohibitionExists _ => "ProhibitionExists"
  | unknownProhibition _ => "UnknownProhibition"
  | obligationExists _ => "ObligationExists"
  | unknownObligation _ => "UnknownObligation"
  | operationExists _ => "OperationExists"
  | unknownOperation _ => "UnknownOperation"
  | routineExists _ => "RoutineExists"
  | unknownRoutine _ => "UnknownRoutine"
  | pluginRoutine _ => "PluginRoutine"
  | notDeclarative _ => "NotDeclarative"
  | noTransaction => "NoTransaction"
  | unauthorized _ => "Unauthorized"
  | malformedText .. => "Pml"

def PolicyError.message : PolicyError → String
  | nodeNameExists name => "node with name " ++ quoted name ++ " already exists"
  | nodeIdExists id => "node with id " ++ id.text ++ " already exists"
  | unknownNodeName name => "node " ++ quoted name ++ " does not exist"
  | unknownNode id => "node with id " ++ id.text ++ " does not exist"
  | invalidAssignment ascendant descendant =>
    "a " ++ ascendant.text ++ " can not be assigned to a " ++ descendant.text
  | assignmentCycle ascendant descendant =>
    "assigning " ++ ascendant.text ++ " to " ++ descendant.text ++ " would create a cycle"
  | missingDescendants kind => "a " ++ kind.text ++ " must be created with at least one descendant"
  | policyClassDescendants => "a policy class can not have descendants"
  | disconnectedNode ascendant descendant =>
    "deassigning " ++ ascendant.text ++ " from " ++ descendant.text ++ " would leave it disconnected"
  | nodeHasAscendants id => "node " ++ id.text ++ " can not be deleted as it still has ascendants"
  | nodeInProhibition id prohibition =>
    "node " ++ id.text ++ " is still referenced by prohibition " ++ quoted prohibition
  | invalidAssociation id => "node " ++ id.text ++ " can not be the source of an association"
  | unknownAccessRight right => "unknown access right " ++ quoted right
  | prohibitionExists name => "prohibition " ++ quoted name ++ " already exists"
  | unknownProhibition name => "prohibition " ++ quoted name ++ " does not exist"
  | obligationExists name => "obligation " ++ quoted name ++ " already exists"
  | unknownObligation name => "obligation " ++ quoted name ++ " does not exist"
  | operationExists name => "operation " ++ quoted name ++ " already exists"
  | unknownOperation name => "operation " ++ quoted name ++ " does not exist"
  | routineExists name => "routine " ++ quoted name ++ " already exists"
  | unknownRoutine name => "routine " ++ quoted name ++ " does not exist"
  | pluginRoutine name => "routine " ++ quoted name ++ " is provided by a plugin and can not be deleted"
  | notDeclarative name =>
    "only declarative definitions supported: " ++ quoted name ++ " is implemented natively"
  | noTransaction => "no transaction in progress"
  | unauthorized user => "user " ++ user.text ++ " is not authorized to perform this action"
  | malformedText position problem => "pml error at position " ++ toString position ++ ": " ++ problem

end PolicyLedger
