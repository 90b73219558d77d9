import PolicyLedger.Graph.Reachability
import PolicyLedger.Policy.Mutation

/-!
Changes of the policy graph. A change is checked as a whole against the graph before it; what is
refused leaves no new graph.
-/
namespace PolicyLedger.Graph

/-- Access rights that need not be among the resource operations. -/
def adminRights : List String :=
  ["*", "create_policy_class", "create_user_attribute", "create_object_attribute", "create_user",
   "create_object", "delete_node", "set_properties", "assign", "assign_to", "deassign",
   "deassign_from", "associate", "dissociate", "create_prohibition", "create_obligation"]

def knowsRight (g : Graph) (right : String) : Bool :=
  g.resourceOperations.contains right || adminRights.contains right

def checkRights (g : Graph) (rights : AccessRights) : Except PolicyError Unit :=
  match rights.toList.find? fun right => !g.knowsRight right with
  | some right => .error (.unknownAccessRight right)
  | none => .ok ()

def checkAssignable (kind : NodeKind) (g : Graph) (descendant : NodeId) : Except PolicyError Unit := do
  let node ← g.node descendant
  if kind.canAssignTo node.kind then return () else throw (.invalidAssignment kind node.kind)

def checkAssignment (g : Graph) (ascendant descendant : NodeId) : Except PolicyError Unit := do
  let node ← g.node ascendant
  checkAssignable node.kind g descendant
  if g.reaches descendant ascendant then throw (.assignmentCycle ascendant descendant)

def checkNewNode (g : Graph) (kind : NodeKind) (name : String) (descendants : List NodeId) :
    Except PolicyError Unit := do
  if g.names.contains name then throw (.nodeNameExists name)
  if kind = .policyClass then
    unless descendants.isEmpty do throw .policyClassDescendants
  else if descendants.isEmpty then throw (.missingDescendants kind)
  descendants.forM (checkAssignable kind g)

/-- Adds a member to the set at a key. -/
def addEdge (edges : SortedMap NodeId (SortedSet NodeId)) (source target : NodeId) :
    SortedMap NodeId (SortedSet NodeId) :=
  edges.insert source (((edges.get? source).getD ∅).insert target)

/-- Removes a member from the set at a key, and the key with its last member. -/
def removeEdge (edges : SortedMap NodeId (SortedSet NodeId)) (source target : NodeId) :
    SortedMap NodeId (SortedSet NodeId) :=
  edges.alter source fun set? =>
    match set? with
    | none => none
    | some set =>
      let rest := set.erase target
      if rest.isEmpty then none else some rest

def link (g : Graph) (ascendant descendant : NodeId) : Graph :=
  { g with
    descendants := addEdge g.descendants ascendant descendant
    ascendants := addEdge g.ascendants descendant ascendant }

def unlink (g : Graph) (ascendant descendant : NodeId) : Graph :=
  { g with
    descendants := removeEdge g.descendants ascendant descendant
    ascendants := removeEdge g.ascendants descendant ascendant }

def linkAll (g : Graph) (ascendant : NodeId) (descendants : List NodeId) : Graph :=
  descendants.foldl (·.link ascendant ·) g

def unlinkAll (g : Graph) (ascendant : NodeId) (descendants : List NodeId) : Graph :=
  descendants.foldl (·.unlink ascendant ·) g

def addNode (g : Graph) (id : NodeId) (kind : NodeKind) (name : String) (descendants : List NodeId) : Graph :=
  let linked := linkAll
    { g with nodes := g.nodes.insert id ⟨id, kind, name, ∅⟩, names := g.names.insert name id } id descendants
  { linked with lastId := max g.lastId id.value }

/-- Creates a node under the next identifier. -/
def createNode (g : Graph) (kind : NodeKind) (name : String) (descendants : List NodeId) :
    Except PolicyError (NodeId × Graph) := do
  g.checkNewNode kind name descendants
  return (g.nextId, g.addNode g.nextId kind name descendants)

/-- Creates a node under an identifier that was assigned before. -/
def insertNode (g : Graph) (id : NodeId) (kind : NodeKind) (name : String) (descendants : List NodeId) :
    Except PolicyError Graph := do
  if g.nodes.contains id then throw (.nodeIdExists id)
  g.checkNewNode kind name descendants
  return g.addNode id kind name descendants

/-- Associations without those from or to a node. -/
def forgetAssociations (associations : SortedMap NodeId (SortedMap NodeId AccessRights)) (id : NodeId) :
    SortedMap NodeId (SortedMap NodeId AccessRights) :=
  (associations.erase id).filterMap fun _ targets =>
    let rest := targets.erase id
    if rest.isEmpty then none else some rest

def deleteNode (g : Graph) (id : NodeId) : Except PolicyError Graph := do
  let node ← g.node id
  if g.ascendants.contains id then throw (.nodeHasAscendants id)
  if let some prohibition := g.prohibitions.values.find? (·.mentions id) then
    throw (.nodeInProhibition id prohibition.name)
  let free := g.unlinkAll id (g.below id).toList
  return { free with
    associations := forgetAssociations free.associations id
    names := free.names.erase node.name
    nodes := free.nodes.erase id }

def setProperties (g : Graph) (id : NodeId) (properties : Properties) : Except PolicyError Graph := do
  let node ← g.node id
  return { g with nodes := g.nodes.insert id { node with properties } }

def assign (g : Graph) (ascendant : NodeId) (descendants : List NodeId) : Except PolicyError Graph := do
  let _ ← g.node ascendant
  descendants.forM (g.checkAssignment ascendant)
  return g.linkAll ascendant descendants

/-- Checks that removing the listed assignments one after the other never takes the last one. -/
def checkRemovals (g : Graph) (ascendant : NodeId) (kind : NodeKind) :
    SortedSet NodeId → List NodeId → Except PolicyError Unit
  | _, [] => .ok ()
  | remaining, descendant :: more => do
    let _ ← g.node descendant
    let rest := remaining.erase descendant
    if remaining.contains descendant ∧ rest.isEmpty ∧ kind ≠ .policyClass then
      throw (.disconnectedNode ascendant descendant)
    checkRemovals g ascendant kind rest more

def deassign (g : Graph) (ascendant : NodeId) (descendants : List NodeId) : Except PolicyError Graph := do
  let node ← g.node ascendant
  g.checkRemovals ascendant node.kind (g.below ascendant) descendants
  return g.unlinkAll ascendant descendants

def associate (g : Graph) (ua target : NodeId) (rights : AccessRights) : Except PolicyError Graph := do
  let source ← g.node ua
  if source.kind ≠ .userAttribute then throw (.invalidAssociation ua)
  let node ← g.node target
  if node.kind ≠ .userAttribute ∧ node.kind ≠ .objectAttribute then throw (.invalidAssociation target)
  g.checkRights rights
  return { g with associations := g.associations.insert ua ((g.granted ua).insert target rights) }

def dissociate (g : Graph) (ua target : NodeId) : Except PolicyError Graph := do
  let _ ← g.node ua
  let _ ← g.node target
  return { g with
    associations := g.associations.alter ua fun targets? =>
      match targets? with
      | none => none
      | some targets =>
        let rest := targets.erase target
        if rest.isEmpty then none else some rest }

def createProhibition (g : Graph) (p : Prohibition) : Except PolicyError Graph := do
  if g.prohibitions.contains p.name then throw (.prohibitionExists p.name)
  if let .node id := p.subject then discard (g.node id)
  p.conditions.forM fun condition => discard (g.node condition.container)
  g.checkRights p.rights
  return { g with prohibitions := g.prohibitions.insert p.name p }

/-- A named rule added to those of its kind, if the name is free. -/
def addNamed {α : Type} (rules : SortedMap String α) (name : String) (rule : α) (taken : String → PolicyError) :
    Except PolicyError (SortedMap String α) :=
  if rules.contains name then .error (taken name) else .ok (rules.insert name rule)

/-- A named rule removed from those of its kind, if there is one. -/
def removeNamed {α : Type} (rules : SortedMap String α) (name : String) (unknown : String → PolicyError) :
    Except PolicyError (SortedMap String α) :=
  if rules.contains name then .ok (rules.erase name) else .error (unknown name)

/-- The outcome of a change and the graph after it. -/
def apply (g : Graph) : Mutation → Except PolicyError (Outcome × Graph)
  | .createNode kind name descendants => do
    let (id, after) ← g.createNode kind name descendants
    return (.nodeCreated id, after)
  | .deleteNode id => return (.applied, ← g.deleteNode id)
  | .setProperties id properties => return (.applied, ← g.setProperties id properties)
  | .assign ascendant descendants => return (.applied, ← g.assign ascendant descendants)
  | .deassign ascendant descendants => return (.applied, ← g.deassign ascendant descendants)
  | .associate ua target rights => return (.applied, ← g.associate ua target rights)
  | .dissociate ua target => return (.applied, ← g.dissociate ua target)
  | .createProhibition p => return (.applied, ← g.createProhibition p)
  | .deleteProhibition name =>
    return (.applied, { g with prohibitions := ← removeNamed g.prohibitions name .unknownProhibition })
  | .createObligation o =>
    return (.applied, { g with obligations := ← addNamed g.obligations o.name o .obligationExists })
  | .deleteObligation name =>
    return (.applied, { g with obligations := ← removeNamed g.obligations name .unknownObligation })
  | .createOperation o =>
    return (.applied, { g with operations := ← addNamed g.operations o.name o .operationExists })
  | .deleteOperation name =>
    return (.applied, { g with operations := ← removeNamed g.operations name .unknownOperation })
  | .setResourceOperations rights => return (.applied, { g with resourceOperations := rights })
  | .createRoutine r => return (.applied, { g with routines := ← addNamed g.routines r.name r .routineExists })
  | .deleteRoutine name =>
    return (.applied, { g with routines := ← removeNamed g.routines name .unknownRoutine })

end PolicyLedger.Graph
