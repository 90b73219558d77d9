import PolicyLedger.Graph.Change
import PolicyLedger.Proofs.Checked

/-!
What it takes for a change of the graph to be made, and the graph it then leads to. Whatever is shown
of changes starts from these equivalences.
-/
namespace PolicyLedger.Graph

variable {g after : Graph}

theorem createNode_eq_ok {kind : NodeKind} {name : String} {ds : List NodeId} {id : NodeId} :
    g.createNode kind name ds = .ok (id, after) ↔
      g.checkNewNode kind name ds = .ok () ∧ id = g.nextId ∧ after = g.addNode g.nextId kind name ds := by
  simp only [createNode, bind_eq_ok, pure_eq_ok, Prod.mk.injEq]
  constructor
  · rintro ⟨_, checked, rfl, rfl⟩
    exact ⟨checked, rfl, rfl⟩
  · rintro ⟨checked, rfl, rfl⟩
    exact ⟨(), checked, rfl, rfl⟩

theorem insertNode_eq_ok {id : NodeId} {kind : NodeKind} {name : String} {ds : List NodeId} :
    g.insertNode id kind name ds = .ok after ↔
      g.nodes.contains id = false ∧ g.checkNewNode kind name ds = .ok () ∧ after = g.addNode id kind name ds := by
  simp only [insertNode, throw_bind, refuse_eq_ok, bind_eq_ok, pure_eq_ok, Bool.not_eq_true]
  constructor
  · rintro ⟨free, _, checked, rfl⟩
    exact ⟨free, checked, rfl⟩
  · rintro ⟨free, checked, rfl⟩
    exact ⟨free, (), checked, rfl⟩

theorem deleteNode_eq_ok {id : NodeId} :
    g.deleteNode id = .ok after ↔
      ∃ node, g.node id = .ok node ∧ g.ascendants.contains id = false ∧
        g.prohibitions.values.find? (·.mentions id) = none ∧
        after = { g.unlinkAll id (g.below id).toList with
          associations := forgetAssociations (g.unlinkAll id (g.below id).toList).associations id
          names := (g.unlinkAll id (g.below id).toList).names.erase node.name
          nodes := (g.unlinkAll id (g.below id).toList).nodes.erase id } := by
  simp only [deleteNode, bind_eq_ok, throw_bind, refuse_eq_ok, Bool.not_eq_true]
  constructor
  · rintro ⟨node, found, bottom, made⟩
    split at made
    · simp at made
    · rename_i unmentioned
      exact ⟨node, found, bottom, Option.eq_none_iff_forall_ne_some.mpr unmentioned, (pure_eq_ok.mp made).symm⟩
  · rintro ⟨node, found, bottom, unmentioned, rfl⟩
    exact ⟨node, found, bottom, by rw [unmentioned]; rfl⟩

theorem setProperties_eq_ok {id : NodeId} {properties : Properties} :
    g.setProperties id properties = .ok after ↔
      ∃ node, g.node id = .ok node ∧ after = { g with nodes := g.nodes.insert id { node with properties } } := by
  simp only [setProperties, bind_eq_ok, pure_eq_ok, eq_comm (a := after)]

theorem assign_eq_ok {ascendant : NodeId} {ds : List NodeId} :
    g.assign ascendant ds = .ok after ↔
      ∃ node, g.node ascendant = .ok node ∧ ds.forM (g.checkAssignment ascendant) = .ok () ∧
        after = g.linkAll ascendant ds := by
  simp only [assign, bind_eq_ok, pure_eq_ok, eq_comm (a := after)]
  constructor
  · rintro ⟨node, found, _, checked, made⟩
    exact ⟨node, found, checked, made⟩
  · rintro ⟨node, found, checked, made⟩
    exact ⟨node, found, (), checked, made⟩

theorem deassign_eq_ok {ascendant : NodeId} {ds : List NodeId} :
    g.deassign ascendant ds = .ok after ↔
      ∃ node, g.node ascendant = .ok node ∧
        g.checkRemovals ascendant node.kind (g.below ascendant) ds = .ok () ∧ after = g.unlinkAll ascendant ds := by
  simp only [deassign, bind_eq_ok, pure_eq_ok, eq_comm (a := after)]
  constructor
  · rintro ⟨node, found, _, checked, made⟩
    exact ⟨node, found, checked, made⟩
  · rintro ⟨node, found, checked, made⟩
    exact ⟨node, found, (), checked, made⟩

theorem associate_eq_ok {ua target : NodeId} {rights : AccessRights} :
    g.associate ua target rights = .ok after ↔
      ∃ source node, g.node ua = .ok source ∧ source.kind = .userAttribute ∧ g.node target = .ok node ∧
        (node.kind = .userAttribute ∨ node.kind = .objectAttribute) ∧ g.checkRights rights = .ok () ∧
        after = { g with associations := g.associations.insert ua ((g.granted ua).insert target rights) } := by
  simp only [associate, bind_eq_ok, throw_bind, refuse_eq_ok, pure_eq_ok, eq_comm (a := after), ne_eq,
    Decidable.not_and_iff_not_or_not, Decidable.not_not]
  constructor
  · rintro ⟨source, found, isAttribute, node, there, container, _, known, made⟩
    exact ⟨source, node, found, isAttribute, there, container, known, made⟩
  · rintro ⟨source, node, found, isAttribute, there, container, known, made⟩
    exact ⟨source, found, isAttribute, node, there, container, (), known, made⟩

theorem dissociate_eq_ok {ua target : NodeId} :
    g.dissociate ua target = .ok after ↔
      ∃ source node, g.node ua = .ok source ∧ g.node target = .ok node ∧
        after = { g with
          associations := g.associations.alter ua fun targets? =>
            match targets? with
            | none => none
            | some targets => if (targets.erase target).isEmpty then none else some (targets.erase target) } := by
  simp only [dissociate, bind_eq_ok, pure_eq_ok, eq_comm (a := after)]
  constructor
  · rintro ⟨source, found, node, there, made⟩
    exact ⟨source, node, found, there, made⟩
  · rintro ⟨source, node, found, there, made⟩
    exact ⟨source, found, node, there, made⟩

theorem get?_granted {ua target : NodeId} {rights : AccessRights} :
    (g.granted ua).get? target = some rights ↔
      ∃ granted, g.associations.get? ua = some granted ∧ granted.get? target = some rights := by
  unfold granted
  cases g.associations.get? ua <;> simp

/-- The associations of an attribute, other than to a node that is forgotten. -/
theorem get?_forgetAssociations {associations : SortedMap NodeId (SortedMap NodeId AccessRights)} {id ua : NodeId}
    {granted : SortedMap NodeId AccessRights} :
    (forgetAssociations associations id).get? ua = some granted ↔
      ua ≠ id ∧ ∃ old, associations.get? ua = some old ∧ granted = old.erase id ∧ granted.isEmpty = false := by
  rw [forgetAssociations, SortedMap.get?_filterMap, SortedMap.get?_erase]
  by_cases same : ua = id
  · simp [same]
  · simp only [if_neg same, Option.bind_eq_some_iff, Option.ite_none_left_eq_some, Option.some.injEq,
      Bool.not_eq_true]
    constructor
    · rintro ⟨old, before, some, rfl⟩
      exact ⟨same, old, before, rfl, some⟩
    · rintro ⟨_, old, before, rfl, some⟩
      exact ⟨old, before, some, rfl⟩

/-- An attribute that is listed after an association was taken away was listed before. -/
theorem granted_of_dissociate {ua target other : NodeId} {granted : SortedMap NodeId AccessRights}
    (made : g.dissociate ua target = .ok after) (recorded : after.associations.get? other = some granted) :
    g.associations.get? other = some granted ∨
      ∃ old, g.associations.get? other = some old ∧ granted = old.erase target ∧ granted.isEmpty = false := by
  obtain ⟨_, _, _, _, rfl⟩ := dissociate_eq_ok.mp made
  simp only [SortedMap.get?_alter] at recorded
  split at recorded
  · rename_i same
    subst same
    cases before : g.associations.get? other with
    | none => simp [before] at recorded
    | some old =>
      simp only [before, Option.ite_none_left_eq_some, Option.some.injEq] at recorded
      obtain ⟨some, rfl⟩ := recorded
      exact .inr ⟨old, rfl, rfl, by simpa using some⟩
  · exact .inl recorded

/-- Whether the nodes and rights a prohibition names are there. -/
def checkProhibition (g : Graph) (p : Prohibition) : Except PolicyError Unit := do
  if let .node id := p.subject then discard (g.node id)
  p.conditions.forM fun condition => discard (g.node condition.container)
  g.checkRights p.rights

theorem createProhibition_eq_ok {p : Prohibition} :
    g.createProhibition p = .ok after ↔
      g.prohibitions.contains p.name = false ∧ g.checkProhibition p = .ok () ∧
        after = { g with prohibitions := g.prohibitions.insert p.name p } := by
  have staged : g.createProhibition p =
      if g.prohibitions.contains p.name then throw (.prohibitionExists p.name)
      else do
        g.checkProhibition p
        return { g with prohibitions := g.prohibitions.insert p.name p } := by
    simp only [createProhibition, checkProhibition]
    rcases p.subject with id | name <;> simp
  simp only [staged, bind_eq_ok, refuse_eq_ok, pure_eq_ok, eq_comm (a := after), Bool.not_eq_true]
  constructor
  · rintro ⟨free, _, checked, made⟩
    exact ⟨free, checked, made⟩
  · rintro ⟨free, checked, made⟩
    exact ⟨free, (), checked, made⟩

theorem addNamed_eq_ok {α : Type} {rules rest : SortedMap String α} {name : String} {rule : α}
    {taken : String → PolicyError} :
    addNamed rules name rule taken = .ok rest ↔ rules.contains name = false ∧ rest = rules.insert name rule := by
  unfold addNamed
  by_cases found : rules.contains name = true <;> simp [found, eq_comm]

theorem removeNamed_eq_ok {α : Type} {rules rest : SortedMap String α} {name : String}
    {unknown : String → PolicyError} :
    removeNamed rules name unknown = .ok rest ↔ rules.contains name = true ∧ rest = rules.erase name := by
  unfold removeNamed
  by_cases found : rules.contains name = true <;> simp [found, eq_comm]

/-- What each change comes to if it is made. -/
inductive Applied (g : Graph) : Mutation → Outcome → Graph → Prop
  | createNode {kind : NodeKind} {name : String} {ds : List NodeId} (checked : g.checkNewNode kind name ds = .ok ()) :
    Applied g (.createNode kind name ds) (.nodeCreated g.nextId) (g.addNode g.nextId kind name ds)
  | deleteNode {id : NodeId} {after : Graph} (made : g.deleteNode id = .ok after) :
    Applied g (.deleteNode id) .applied after
  | setProperties {id : NodeId} {properties : Properties} {after : Graph}
      (made : g.setProperties id properties = .ok after) :
    Applied g (.setProperties id properties) .applied after
  | assign {ascendant : NodeId} {ds : List NodeId} {after : Graph} (made : g.assign ascendant ds = .ok after) :
    Applied g (.assign ascendant ds) .applied after
  | deassign {ascendant : NodeId} {ds : List NodeId} {after : Graph} (made : g.deassign ascendant ds = .ok after) :
    Applied g (.deassign ascendant ds) .applied after
  | associate {ua target : NodeId} {rights : AccessRights} {after : Graph}
      (made : g.associate ua target rights = .ok after) :
    Applied g (.associate ua target rights) .applied after
  | dissociate {ua target : NodeId} {after : Graph} (made : g.dissociate ua target = .ok after) :
    Applied g (.dissociate ua target) .applied after
  | createProhibition {p : Prohibition} {after : Graph} (made : g.createProhibition p = .ok after) :
    Applied g (.createProhibition p) .applied after
  | deleteProhibition {name : String} (known : g.prohibitions.contains name = true) :
    Applied g (.deleteProhibition name) .applied { g with prohibitions := g.prohibitions.erase name }
  | createObligation {o : Obligation} (free : g.obligations.contains o.name = false) :
    Applied g (.createObligation o) .applied { g with obligations := g.obligations.insert o.name o }
  | deleteObligation {name : String} (known : g.obligations.contains name = true) :
    Applied g (.deleteObligation name) .applied { g with obligations := g.obligations.erase name }
  | createOperation {o : Operation} (free : g.operations.contains o.name = false) :
    Applied g (.createOperation o) .applied { g with operations := g.operations.insert o.name o }
  | deleteOperation {name : String} (known : g.operations.contains name = true) :
    Applied g (.deleteOperation name) .applied { g with operations := g.operations.erase name }
  | setResourceOperations (rights : AccessRights) :
    Applied g (.setResourceOperations rights) .applied { g with resourceOperations := rights }
  | createRoutine {r : Routine} (free : g.routines.contains r.name = false) :
    Applied g (.createRoutine r) .applied { g with routines := g.routines.insert r.name r }
  | deleteRoutine {name : String} (known : g.routines.contains name = true) :
    Applied g (.deleteRoutine name) .applied { g with routines := g.routines.erase name }

theorem apply_eq_ok {m : Mutation} {o : Outcome} : g.apply m = .ok (o, after) ↔ g.Applied m o after := by
  constructor
  · intro made
    cases m <;> simp only [apply, bind_eq_ok, pure_eq_ok, Prod.mk.injEq, Prod.exists, createNode_eq_ok,
      addNamed_eq_ok, removeNamed_eq_ok] at made
    case createNode =>
      obtain ⟨_, _, ⟨checked, rfl, rfl⟩, rfl, rfl⟩ := made
      exact .createNode checked
    case setResourceOperations rights =>
      obtain ⟨rfl, rfl⟩ := made
      exact .setResourceOperations rights
    case createObligation | createOperation | createRoutine | deleteProhibition | deleteObligation | deleteOperation |
        deleteRoutine =>
      obtain ⟨_, ⟨place, rfl⟩, rfl, rfl⟩ := made
      constructor
      exact place
    all_goals
      obtain ⟨_, made, rfl, rfl⟩ := made
      constructor
      exact made
  · intro applied
    cases applied with
    | createNode checked => exact bind_eq_ok.mpr ⟨_, createNode_eq_ok.mpr ⟨checked, rfl, rfl⟩, rfl⟩
    | deleteNode made | setProperties made | assign made | deassign made | associate made | dissociate made
    | createProhibition made => exact bind_eq_ok.mpr ⟨_, made, rfl⟩
    | setResourceOperations => rfl
    | createObligation free | createOperation free | createRoutine free =>
      exact bind_eq_ok.mpr ⟨_, addNamed_eq_ok.mpr ⟨free, rfl⟩, rfl⟩
    | deleteProhibition known | deleteObligation known | deleteOperation known | deleteRoutine known =>
      exact bind_eq_ok.mpr ⟨_, removeNamed_eq_ok.mpr ⟨known, rfl⟩, rfl⟩

end PolicyLedger.Graph
