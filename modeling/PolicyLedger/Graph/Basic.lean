import PolicyLedger.Policy.Error
import PolicyLedger.Policy.Rule

/-!
The policy graph and the questions it answers. Every part is ordered, so graphs that hold the same
policy are equal whatever built them.
-/
namespace PolicyLedger

structure Graph where
  nodes : SortedMap NodeId Node := ∅
  names : SortedMap String NodeId := ∅
  /-- The nodes a node is assigned to; nodes without any are left out. -/
  descendants : SortedMap NodeId (SortedSet NodeId) := ∅
  /-- The nodes assigned to a node; nodes without any are left out. -/
  ascendants : SortedMap NodeId (SortedSet NodeId) := ∅
  /-- Per user attribute the rights it has on its targets; attributes without any are left out. -/
  associations : SortedMap NodeId (SortedMap NodeId AccessRights) := ∅
  prohibitions : SortedMap String Prohibition := ∅
  obligations : SortedMap String Obligation := ∅
  operations : SortedMap String Operation := ∅
  routines : SortedMap String Routine := ∅
  resourceOperations : AccessRights := ∅
  /-- The highest identifier a node was ever created with. -/
  lastId : UInt64 := 0
  deriving DecidableEq

namespace Graph

def empty : Graph := { nodes := ∅ }

instance : EmptyCollection Graph := ⟨empty⟩
instance : Inhabited Graph := ⟨empty⟩

/-- Identifier of the node created next. Behind the highest one identifiers start again from zero. -/
def nextId (g : Graph) : NodeId := ⟨g.lastId + 1⟩

def node (g : Graph) (id : NodeId) : Except PolicyError Node :=
  match g.nodes.get? id with
  | some node => .ok node
  | none => .error (.unknownNode id)

def nodeId (g : Graph) (name : String) : Except PolicyError NodeId :=
  match g.names.get? name with
  | some id => .ok id
  | none => .error (.unknownNodeName name)

def nodeExists (g : Graph) (name : String) : Bool := g.names.contains name

/-- Direct descendants of a node, known or not. -/
def below (g : Graph) (id : NodeId) : SortedSet NodeId := (g.descendants.get? id).getD ∅

/-- Direct ascendants of a node, known or not. -/
def above (g : Graph) (id : NodeId) : SortedSet NodeId := (g.ascendants.get? id).getD ∅

/-- Rights of a user attribute by target, whether it is known or not. -/
def granted (g : Graph) (ua : NodeId) : SortedMap NodeId AccessRights := (g.associations.get? ua).getD ∅

def descendantsOf (g : Graph) (id : NodeId) : Except PolicyError (List NodeId) := do
  let _ ← g.node id
  return (g.below id).toList

def ascendantsOf (g : Graph) (id : NodeId) : Except PolicyError (List NodeId) := do
  let _ ← g.node id
  return (g.above id).toList

def associationsOf (g : Graph) (ua : NodeId) : Except PolicyError (List (NodeId × AccessRights)) := do
  let _ ← g.node ua
  return (g.granted ua).toList

end Graph
end PolicyLedger
