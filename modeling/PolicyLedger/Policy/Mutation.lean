import PolicyLedger.Policy.Rule

namespace PolicyLedger

/-- One change of a policy, with nodes given by their identifiers. -/
inductive Mutation where
  | createNode (kind : NodeKind) (name : String) (descendants : List NodeId)
  | deleteNode (id : NodeId)
  | setProperties (id : NodeId) (properties : Properties)
  | assign (ascendant : NodeId) (descendants : List NodeId)
  | deassign (ascendant : NodeId) (descendants : List NodeId)
  | associate (ua target : NodeId) (rights : AccessRights)
  | dissociate (ua target : NodeId)
  | createProhibition (prohibition : Prohibition)
  | deleteProhibition (name : String)
  | createObligation (obligation : Obligation)
  | deleteObligation (name : String)
  | createOperation (operation : Operation)
  | deleteOperation (name : String)
  | setResourceOperations (rights : AccessRights)
  | createRoutine (routine : Routine)
  | deleteRoutine (name : String)
  deriving DecidableEq

/-- What a change that was made gives back. -/
inductive Outcome where
  | nodeCreated (id : NodeId)
  | applied
  deriving DecidableEq, Inhabited

def Outcome.nodeId? : Outcome → Option NodeId
  | nodeCreated id => some id
  | applied => none

end PolicyLedger
