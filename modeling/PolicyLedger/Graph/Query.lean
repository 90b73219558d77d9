import PolicyLedger.Graph.Basic

/-!
Questions to a policy and their answers.
-/
namespace PolicyLedger

/-- A question to a policy, with nodes given by their identifiers. -/
inductive Query where
  | node (id : NodeId)
  | nodeId (name : String)
  | nodeExists (name : String)
  /-- The nodes a node is assigned to. -/
  | descendants (id : NodeId)
  /-- The nodes assigned to a node. -/
  | ascendants (id : NodeId)
  | associations (ua : NodeId)
  | prohibition (name : String)
  | obligation (name : String)
  | operation (name : String)
  | routine (name : String)
  | resourceOperations
  deriving DecidableEq

/-- What a question is answered. -/
inductive Answer where
  | node (node : Node)
  | id (id : NodeId)
  | truth (holds : Bool)
  | ids (ids : List NodeId)
  | associations (targets : List (NodeId × AccessRights))
  | prohibition (found : Option Prohibition)
  | obligation (found : Option Obligation)
  | operation (found : Option Operation)
  | routine (found : Option Routine)
  | rights (rights : AccessRights)
  deriving DecidableEq

/-- Only questions about one node can fail: there may be none with this identifier or name. -/
def Graph.answer (g : Graph) : Query → Except PolicyError Answer
  | .node id => (g.node id).map .node
  | .nodeId name => (g.nodeId name).map .id
  | .nodeExists name => .ok (.truth (g.nodeExists name))
  | .descendants id => (g.descendantsOf id).map .ids
  | .ascendants id => (g.ascendantsOf id).map .ids
  | .associations ua => (g.associationsOf ua).map .associations
  | .prohibition name => .ok (.prohibition (g.prohibitions.get? name))
  | .obligation name => .ok (.obligation (g.obligations.get? name))
  | .operation name => .ok (.operation (g.operations.get? name))
  | .routine name => .ok (.routine (g.routines.get? name))
  | .resourceOperations => .ok (.rights g.resourceOperations)

end PolicyLedger
