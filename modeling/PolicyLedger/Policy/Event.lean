import PolicyLedger.Policy.Mutation

/-!
Events: facts about changes that were made, one for each change.
-/
namespace PolicyLedger

/-- A fact about one change that was made. Created nodes carry the identifier they were given, and
declarations the text they were written as, so that every replica can repeat the change exactly. -/
inductive Event where
  | policyClassCreated (id : NodeId) (name : String)
  | userAttributeCreated (id : NodeId) (name : String) (descendants : List NodeId)
  | objectAttributeCreated (id : NodeId) (name : String) (descendants : List NodeId)
  | userCreated (id : NodeId) (name : String) (descendants : List NodeId)
  | objectCreated (id : NodeId) (name : String) (descendants : List NodeId)
  | nodeDeleted (id : NodeId)
  | propertiesSet (id : NodeId) (properties : Properties)
  | assignmentCreated (ascendant : NodeId) (descendants : List NodeId)
  | assignmentDeleted (ascendant : NodeId) (descendants : List NodeId)
  | associationCreated (ua target : NodeId) (rights : AccessRights)
  | associationDeleted (ua target : NodeId)
  | prohibitionCreated (prohibition : Prohibition)
  | prohibitionDeleted (name : String)
  | obligationCreated (obligation : Obligation)
  | obligationDeleted (name : String)
  | operationCreated (name source : String)
  | operationDeleted (name : String)
  | resourceOperationsSet (rights : AccessRights)
  | routineCreated (name source : String)
  | routineDeleted (name : String)
  deriving DecidableEq

namespace Event

/-- The event of a new node. Policy classes have no descendants to tell of. -/
def nodeCreated (kind : NodeKind) (id : NodeId) (name : String) (descendants : List NodeId) : Event :=
  match kind with
  | .policyClass => policyClassCreated id name
  | .userAttribute => userAttributeCreated id name descendants
  | .objectAttribute => objectAttributeCreated id name descendants
  | .user => userCreated id name descendants
  | .object => objectCreated id name descendants

/-- Name of the schema of an event, under which it is recorded. -/
def schema : Event → String
  | policyClassCreated .. => "PolicyClassCreated"
  | userAttributeCreated .. => "UserAttributeCreated"
  | objectAttributeCreated .. => "ObjectAttributeCreated"
  | userCreated .. => "UserCreated"
  | objectCreated .. => "ObjectCreated"
  | nodeDeleted .. => "NodeDeleted"
  | propertiesSet .. => "NodePropertiesSet"
  | assignmentCreated .. => "AssignmentCreated"
  | assignmentDeleted .. => "AssignmentDeleted"
  | associationCreated .. => "AssociationCreated"
  | associationDeleted .. => "AssociationDeleted"
  | prohibitionCreated .. => "ProhibitionCreated"
  | prohibitionDeleted .. => "ProhibitionDeleted"
  | obligationCreated .. => "ObligationCreated"
  | obligationDeleted .. => "ObligationDeleted"
  | operationCreated .. => "AdminOperationCreated"
  | operationDeleted .. => "AdminOperationDeleted"
  | resourceOperationsSet .. => "ResourceOperationsSet"
  | routineCreated .. => "AdminRoutineCreated"
  | routineDeleted .. => "AdminRoutineDeleted"

/-- The event that tells of a change and its outcome; native definitions can not be told. -/
def ofMutation? : Mutation → Outcome → Option Event
  | .createNode kind name descendants, .nodeCreated id => some (nodeCreated kind id name descendants)
  | .createNode .., .applied => none
  | .deleteNode id, _ => some (nodeDeleted id)
  | .setProperties id properties, _ => some (propertiesSet id properties)
  | .assign ascendant descendants, _ => some (assignmentCreated ascendant descendants)
  | .deassign ascendant descendants, _ => some (assignmentDeleted ascendant descendants)
  | .associate ua target rights, _ => some (associationCreated ua target rights)
  | .dissociate ua target, _ => some (associationDeleted ua target)
  | .createProhibition prohibition, _ => some (prohibitionCreated prohibition)
  | .deleteProhibition name, _ => some (prohibitionDeleted name)
  | .createObligation obligation, _ => some (obligationCreated obligation)
  | .deleteObligation name, _ => some (obligationDeleted name)
  | .createOperation ⟨name, .declared source⟩, _ => some (operationCreated name source)
  | .createOperation ⟨_, .native⟩, _ => none
  | .deleteOperation name, _ => some (operationDeleted name)
  | .setResourceOperations rights, _ => some (resourceOperationsSet rights)
  | .createRoutine ⟨name, .declared source⟩, _ => some (routineCreated name source)
  | .createRoutine ⟨_, .native⟩, _ => none
  | .deleteRoutine name, _ => some (routineDeleted name)

end Event
end PolicyLedger
