import PolicyLedger.Proofs.Hierarchy
import PolicyLedger.Store.Basic

/-!
What holds of every policy graph that a store shows, and of the ones its open transactions would go back
to. The parts of a graph are kept in step with each other: whatever is recorded anywhere is about nodes
that are there.
-/
namespace PolicyLedger
namespace Graph

variable {g after : Graph} {id : NodeId} {kind : NodeKind} {name : String} {ds : List NodeId}

/-- Nodes are stored under their identifiers, and names lead to exactly the nodes that have them. -/
structure Registry (g : Graph) : Prop where
  stored : ∀ id node, g.nodes.get? id = some node → node.id = id
  named : ∀ name id, g.names.get? name = some id ↔ ∃ node, g.nodes.get? id = some node ∧ node.name = name

/-- Associations go from user attributes to attributes. No attribute without any is listed. -/
def Granting (g : Graph) : Prop :=
  ∀ ua granted, g.associations.get? ua = some granted →
    g.kind? ua = some .userAttribute ∧ granted.isEmpty = false ∧
      ∀ target rights, granted.get? target = some rights →
        g.kind? target = some .userAttribute ∨ g.kind? target = some .objectAttribute

/-- Prohibitions are stored under their names and mention nodes that are there. -/
def Prohibiting (g : Graph) : Prop :=
  ∀ name p, g.prohibitions.get? name = some p →
    p.name = name ∧ ∀ id, p.mentions id = true → ∃ kind, g.kind? id = some kind

structure WellFormed (g : Graph) : Prop extends Registry g, Hierarchy g where
  granting : g.Granting
  prohibiting : g.Prohibiting
  numbered : g.Numbered

/-! ### Nodes and names -/

/-- Nodes of one name are one node. -/
theorem Registry.unique (h : g.Registry) {other : NodeId} {node node' : Node} (first : g.nodes.get? id = some node)
    (second : g.nodes.get? other = some node') (same : node.name = node'.name) : id = other := by
  have byFirst := (h.named node.name id).mpr ⟨node, first, rfl⟩
  have bySecond := (h.named node.name other).mpr ⟨node', second, same.symm⟩
  exact Option.some.inj (byFirst.symm.trans bySecond)

/-- A node put under a free identifier and a free name, which it carries, is found under both. -/
private theorem Registry.insert (h : g.Registry) {node : Node} (nodes : after.nodes = g.nodes.insert id node)
    (names : after.names = g.names.insert node.name id) (isStored : node.id = id)
    (free : g.nodes.get? id = none) (unused : g.names.get? node.name = none) : after.Registry where
  stored other found there := by
    rw [nodes, SortedMap.get?_insert] at there
    split at there
    · rename_i same
      cases there
      exact isStored.trans same.symm
    · exact h.stored other found there
  named name other := by
    rw [nodes, names, SortedMap.get?_insert, SortedMap.get?_insert]
    by_cases isName : name = node.name
    · subst isName
      by_cases same : other = id
      · simp [same]
      · have absent : ¬ ∃ found, g.nodes.get? other = some found ∧ found.name = node.name := by
          intro some
          cases unused.symm.trans ((h.named node.name other).mpr some)
        simp [same, Ne.symm same, absent]
    · by_cases same : other = id
      · have absent : g.names.get? name ≠ some id := by
          intro found
          obtain ⟨_, there, _⟩ := (h.named name id).mp found
          cases free.symm.trans there
        simp [same, isName, Ne.symm isName, absent]
      · simpa [same, isName] using h.named name other

/-- A node that is taken away with its name is found under neither. -/
private theorem Registry.erase (h : g.Registry) {node : Node} (found : g.nodes.get? id = some node)
    (nodes : after.nodes = g.nodes.erase id) (names : after.names = g.names.erase node.name) : after.Registry where
  stored other rest there := by
    rw [nodes, SortedMap.get?_erase] at there
    split at there
    · cases there
    · exact h.stored other rest there
  named name other := by
    rw [nodes, names, SortedMap.get?_erase, SortedMap.get?_erase]
    by_cases same : other = id
    · have absent : name ≠ node.name → g.names.get? name ≠ some id := by
        intro isOther there
        obtain ⟨again, there, isName⟩ := (h.named name id).mp there
        cases found.symm.trans there
        exact isOther isName.symm
      simpa [same] using absent
    · by_cases isName : name = node.name
      · have absent : ¬ ∃ rest, g.nodes.get? other = some rest ∧ rest.name = name := by
          rintro ⟨rest, there, isSame⟩
          exact same (h.unique there found (isSame.trans isName))
        simpa [isName, same] using absent
      · simpa [same, isName] using h.named name other

/-- A node whose other properties are set is found as before. -/
private theorem Registry.update (h : g.Registry) {node changed : Node} (nodes : after.nodes = g.nodes.insert id changed)
    (names : after.names = g.names) (found : g.nodes.get? id = some node)
    (sameId : changed.id = node.id) (sameName : changed.name = node.name) : after.Registry where
  stored other rest there := by
    rw [nodes, SortedMap.get?_insert] at there
    split at there
    · rename_i same
      cases there
      exact sameId.trans ((h.stored id node found).trans same.symm)
    · exact h.stored other rest there
  named name other := by
    rw [nodes, names, SortedMap.get?_insert, h.named name other]
    by_cases same : other = id
    · simp [same, found, sameName]
    · simp [same]

/-! ### Associations and prohibitions -/

/-- Associations stay in order while all nodes keep their kinds. -/
private theorem Granting.mono (h : g.Granting) (kept : ∀ id kind, g.kind? id = some kind → after.kind? id = some kind)
    (same : after.associations = g.associations) : after.Granting := by
  intro ua granted found
  obtain ⟨source, some, targets⟩ := h ua granted (same ▸ found)
  refine ⟨kept ua _ source, some, ?_⟩
  intro target rights there
  exact (targets target rights there).imp (kept target _) (kept target _)

/-- Prohibitions stay in order while all nodes that they mention are there, of whatever kind. -/
theorem Prohibiting.mono (h : g.Prohibiting)
    (kept : ∀ id, g.prohibitions.values.find? (·.mentions id) ≠ none → g.nodes.contains id = true →
      after.nodes.contains id = true)
    (same : after.prohibitions = g.prohibitions) : after.Prohibiting := by
  intro name p found
  rw [same] at found
  obtain ⟨isName, mentioned⟩ := h name p found
  refine ⟨isName, fun id mentions => contains_nodes.mp ?_⟩
  refine kept id ?_ (contains_nodes.mpr (mentioned id mentions))
  intro unmentioned
  exact List.find?_eq_none.mp unmentioned p (SortedMap.mem_values.mpr ⟨name, found⟩) mentions

theorem Granting.associate (h : g.Granting) {ua target : NodeId} {rights : AccessRights}
    (made : g.associate ua target rights = .ok after) : after.Granting := by
  obtain ⟨source, node, found, isAttribute, there, container, _, rfl⟩ := associate_eq_ok.mp made
  have known : g.kind? ua = some .userAttribute := kind?_eq_some.mpr ⟨source, node_eq_ok.mp found, isAttribute⟩
  have fits : g.kind? target = some .userAttribute ∨ g.kind? target = some .objectAttribute := by
    simpa [kind?, node_eq_ok.mp there] using container
  intro other granted recorded
  rw [SortedMap.get?_insert] at recorded
  split at recorded
  · rename_i same
    cases recorded
    refine ⟨same ▸ known, SortedMap.isEmpty_eq_false.mpr ⟨target, rights, by simp [SortedMap.get?_insert]⟩, ?_⟩
    intro other' rights' there'
    rw [SortedMap.get?_insert] at there'
    split at there'
    · rename_i isTarget
      exact isTarget ▸ fits
    · obtain ⟨old, before, found'⟩ := get?_granted.mp there'
      exact (h ua old before).2.2 other' rights' found'
  · exact h other granted recorded

theorem Granting.dissociate (h : g.Granting) {ua target : NodeId} (made : g.dissociate ua target = .ok after) :
    after.Granting := by
  have kinds : after.kind? = g.kind? := by
    obtain ⟨_, _, _, _, rfl⟩ := dissociate_eq_ok.mp made
    rfl
  intro other granted recorded
  rw [kinds]
  rcases granted_of_dissociate made recorded with same | ⟨old, before, rfl, some⟩
  · exact h other granted same
  · obtain ⟨source, _, targets⟩ := h other old before
    refine ⟨source, some, ?_⟩
    intro left rights there
    rw [SortedMap.get?_erase] at there
    split at there
    · cases there
    · exact targets left rights there

theorem Granting.forget (h : g.Granting)
    (kinds : ∀ other, after.kind? other = if other = id then none else g.kind? other)
    (same : after.associations = forgetAssociations g.associations id) : after.Granting := by
  intro ua granted recorded
  rw [same] at recorded
  obtain ⟨other, old, before, rfl, some⟩ := get?_forgetAssociations.mp recorded
  obtain ⟨source, _, targets⟩ := h ua old before
  refine ⟨by rw [kinds, if_neg other, source], some, ?_⟩
  intro target rights there
  rw [SortedMap.get?_erase] at there
  split at there
  · cases there
  · rename_i differ
    rw [kinds, if_neg differ]
    exact targets target rights there

private theorem known_of_discard {u : Unit} (found : (discard (g.node id) : Except PolicyError Unit) = .ok u) :
    ∃ kind, g.kind? id = some kind := by
  obtain ⟨node, there⟩ := discard_eq_ok.mp found
  exact ⟨node.kind, kind?_eq_some.mpr ⟨node, node_eq_ok.mp there, rfl⟩⟩

/-- The nodes a prohibition mentions are there if its checks passed. -/
private theorem checkProhibition_mentions {p : Prohibition} (passed : g.checkProhibition p = .ok ())
    (mentions : p.mentions id = true) : ∃ kind, g.kind? id = some kind := by
  simp only [Prohibition.mentions, Bool.or_eq_true, decide_eq_true_eq, List.any_eq_true] at mentions
  rcases mentions with subject | ⟨condition, member, rfl⟩
  · simp only [checkProhibition, subject, bind_eq_ok] at passed
    obtain ⟨_, found, _⟩ := passed
    exact known_of_discard found
  · have conditions : p.conditions.forM (fun condition => discard (g.node condition.container)) = .ok () := by
      cases subject : p.subject with
      | node id =>
        simp only [checkProhibition, subject, bind_eq_ok] at passed
        obtain ⟨_, _, _, conditions, _⟩ := passed
        exact conditions
      | process name =>
        simp only [checkProhibition, subject, bind_eq_ok] at passed
        obtain ⟨_, conditions, _⟩ := passed
        exact conditions
    exact known_of_discard (forM_eq_ok.mp conditions condition member)

theorem Prohibiting.create (h : g.Prohibiting) {p : Prohibition} (made : g.createProhibition p = .ok after) :
    after.Prohibiting := by
  obtain ⟨_, passed, rfl⟩ := createProhibition_eq_ok.mp made
  intro name q found
  rw [SortedMap.get?_insert] at found
  split at found
  · rename_i same
    cases found
    exact ⟨same.symm, fun id mentions => checkProhibition_mentions passed mentions⟩
  · exact h name q found

theorem Prohibiting.delete (h : g.Prohibiting) (name : String) :
    { g with prohibitions := g.prohibitions.erase name }.Prohibiting := by
  intro other p found
  rw [SortedMap.get?_erase] at found
  split at found
  · cases found
  · exact h other p found

/-- A node that is mentioned can not be deleted. -/
theorem Prohibiting.deleteNode (h : g.Prohibiting) (made : g.deleteNode id = .ok after) : after.Prohibiting := by
  obtain ⟨node, found, _, unmentioned, rfl⟩ := deleteNode_eq_ok.mp made
  obtain ⟨_, _, cut⟩ := unlinkAll_shape g id (g.below id).toList
  rw [cut]
  refine h.mono ?_ rfl
  intro other mentioned known
  refine SortedMap.contains_erase.mpr ⟨?_, known⟩
  rintro rfl
  exact mentioned unmentioned

/-! ### Whole graphs -/

theorem wellFormed_empty : (∅ : Graph).WellFormed where
  stored _ _ found := nomatch found
  named name id := by
    constructor
    · intro found
      cases found
    · rintro ⟨_, found, _⟩
      cases found
  toHierarchy := hierarchy_empty
  granting _ _ found := nomatch found
  prohibiting _ _ found := nomatch found
  numbered := numbered_empty

/-- Other assignments leave all but the hierarchy as it is. -/
private theorem WellFormed.relinked (h : g.WellFormed) {descendants ascendants : SortedMap NodeId (SortedSet NodeId)}
    (same : after = { g with descendants, ascendants }) (hierarchy : after.Hierarchy) : after.WellFormed where
  toHierarchy := hierarchy
  stored := same ▸ h.stored
  named := same ▸ h.named
  granting := h.granting.mono (fun _ _ known => same ▸ known) (same ▸ rfl)
  prohibiting := h.prohibiting.mono (fun _ _ known => same ▸ known) (same ▸ rfl)
  numbered := same ▸ h.numbered

private theorem WellFormed.regranted (h : g.WellFormed)
    {associations : SortedMap NodeId (SortedMap NodeId AccessRights)}
    (same : after = { g with associations }) (granting : after.Granting) : after.WellFormed where
  toHierarchy := h.toHierarchy.congr (same ▸ rfl) (same ▸ rfl) (same ▸ rfl)
  stored := same ▸ h.stored
  named := same ▸ h.named
  granting := granting
  prohibiting := h.prohibiting.mono (fun _ _ known => same ▸ known) (same ▸ rfl)
  numbered := same ▸ h.numbered

private theorem WellFormed.reprohibited (h : g.WellFormed) {prohibitions : SortedMap String Prohibition}
    (same : after = { g with prohibitions }) (prohibiting : after.Prohibiting) : after.WellFormed where
  toHierarchy := h.toHierarchy.congr (same ▸ rfl) (same ▸ rfl) (same ▸ rfl)
  stored := same ▸ h.stored
  named := same ▸ h.named
  granting := h.granting.mono (fun _ _ known => same ▸ known) (same ▸ rfl)
  prohibiting := prohibiting
  numbered := same ▸ h.numbered

/-- Nothing depends on the obligations, operations and routines. -/
private theorem WellFormed.reruled (h : g.WellFormed) (obligations : SortedMap String Obligation)
    (operations : SortedMap String Operation) (routines : SortedMap String Routine) (rights : AccessRights) :
    { g with obligations, operations, routines, resourceOperations := rights }.WellFormed where
  toHierarchy := h.toHierarchy.congr rfl rfl rfl
  stored := h.stored
  named := h.named
  granting := h.granting
  prohibiting := h.prohibiting
  numbered := h.numbered

theorem WellFormed.addNode (h : g.WellFormed) (free : g.nodes.contains id = false)
    (checked : g.checkNewNode kind name ds = .ok ()) : (g.addNode id kind name ds).WellFormed := by
  obtain ⟨_, _, added⟩ := addNode_shape g id kind name ds
  have unknown : g.nodes.get? id = none := by simpa [SortedMap.contains] using free
  have unused : g.names.get? name = none := by simpa [SortedMap.contains] using (checkNewNode_eq_ok.mp checked).1
  have kept (other : NodeId) (k : NodeKind) (known : g.kind? other = some k) :
      (g.addNode id kind name ds).kind? other = some k := by
    rw [kind?_addNode, if_neg]
    · exact known
    · rintro rfl
      cases (not_contains_nodes.mp free).symm.trans known
  have registry : (g.addNode id kind name ds).Registry :=
    h.toRegistry.insert (addNode_nodes ..) (by rw [added]) rfl unknown unused
  refine { registry with
    toHierarchy := h.toHierarchy.addNode free checked, granting := ?_, prohibiting := ?_, numbered := ?_ }
  · exact h.granting.mono kept (by rw [added])
  · refine h.prohibiting.mono ?_ (by rw [added])
    intro other _ known
    rw [addNode_nodes]
    exact SortedMap.contains_insert.mpr (.inr known)
  · exact numbered_addNode h.numbered id kind name ds

theorem WellFormed.deleteNode (h : g.WellFormed) (made : g.deleteNode id = .ok after) : after.WellFormed := by
  have hierarchy := h.toHierarchy.deleteNode made
  have prohibiting := h.prohibiting.deleteNode made
  obtain ⟨node, found, _, _, rfl⟩ := deleteNode_eq_ok.mp made
  obtain ⟨_, _, cut⟩ := unlinkAll_shape g id (g.below id).toList
  rw [cut] at hierarchy prohibiting ⊢
  refine { h.toRegistry.erase (node_eq_ok.mp found) rfl rfl with
    toHierarchy := hierarchy, granting := ?_, prohibiting := prohibiting, numbered := ?_ }
  · exact h.granting.forget (kind?_of_erase rfl) rfl
  · refine h.numbered.mono (UInt64.le_refl _) ?_
    intro other there
    exact (SortedMap.contains_erase.mp there).2

/-- Setting the properties of a node does not change what it is. -/
theorem kind?_setProperties {node : Node} (properties : Properties) (found : g.nodes.get? id = some node) :
    { g with nodes := g.nodes.insert id { node with properties } }.kind? = g.kind? := by
  funext other
  simp only [kind?, SortedMap.get?_insert]
  by_cases same : other = id
  · simp [same, found]
  · simp [same]

theorem WellFormed.setProperties (h : g.WellFormed) {properties : Properties}
    (made : g.setProperties id properties = .ok after) : after.WellFormed := by
  obtain ⟨node, found, rfl⟩ := setProperties_eq_ok.mp made
  have there := node_eq_ok.mp found
  have kinds := kind?_setProperties properties there
  have registry : { g with nodes := g.nodes.insert id { node with properties } }.Registry :=
    h.toRegistry.update rfl rfl there rfl rfl
  refine { registry with
    toHierarchy := h.toHierarchy.congr kinds rfl rfl, granting := ?_, prohibiting := ?_, numbered := ?_ }
  · exact h.granting.mono (fun _ _ known => kinds ▸ known) rfl
  · exact h.prohibiting.mono (fun _ _ known => SortedMap.contains_insert.mpr (.inr known)) rfl
  · refine h.numbered.mono (UInt64.le_refl _) ?_
    intro other known
    obtain ⟨kind, known⟩ := contains_nodes.mp known
    exact contains_nodes.mpr ⟨kind, kinds ▸ known⟩

/-- A change leaves a well-formed graph well-formed, as long as there was an identifier left for a node
that it created. -/
theorem WellFormed.apply {m : Mutation} {o : Outcome} (h : g.WellFormed) (made : g.apply m = .ok (o, after))
    (left : ∀ id, o = .nodeCreated id → g.lastId.toNat < 2 ^ 64 - 1) : after.WellFormed := by
  cases apply_eq_ok.mp made with
  | createNode checked => exact h.addNode (nextId_free h.numbered (left g.nextId rfl)) checked
  | deleteNode made => exact h.deleteNode made
  | setProperties made => exact h.setProperties made
  | @assign ascendant ds _ made =>
    have hierarchy := h.toHierarchy.assign made
    obtain ⟨_, _, _, rfl⟩ := assign_eq_ok.mp made
    obtain ⟨_, _, linked⟩ := linkAll_shape g ascendant ds
    exact h.relinked linked hierarchy
  | @deassign ascendant ds _ made =>
    have hierarchy := h.toHierarchy.deassign made
    obtain ⟨_, _, _, rfl⟩ := deassign_eq_ok.mp made
    obtain ⟨_, _, cut⟩ := unlinkAll_shape g ascendant ds
    exact h.relinked cut hierarchy
  | associate made =>
    have granting := h.granting.associate made
    obtain ⟨_, _, _, _, _, _, _, rfl⟩ := associate_eq_ok.mp made
    exact h.regranted rfl granting
  | dissociate made =>
    have granting := h.granting.dissociate made
    obtain ⟨_, _, _, _, rfl⟩ := dissociate_eq_ok.mp made
    exact h.regranted rfl granting
  | createProhibition made =>
    have prohibiting := h.prohibiting.create made
    obtain ⟨_, _, rfl⟩ := createProhibition_eq_ok.mp made
    exact h.reprohibited rfl prohibiting
  | deleteProhibition => exact h.reprohibited rfl (h.prohibiting.delete _)
  | _ => exact h.reruled ..

theorem WellFormed.insertNode (h : g.WellFormed) (made : g.insertNode id kind name ds = .ok after) :
    after.WellFormed := by
  obtain ⟨free, checked, rfl⟩ := insertNode_eq_ok.mp made
  exact h.addNode free checked

end Graph

namespace Store

/-- The stores that operations lead to, whether they succeed or fail, while there are identifiers left for
the nodes that are created. -/
inductive Attained : Store → Prop
  | empty : Attained {}
  | perform {s : Store} (m : Mutation) (before : Attained s)
      (left : ∀ id, ((perform m).outcome s).1 = .ok (.nodeCreated id) → s.graph.lastId.toNat < 2 ^ 64 - 1) :
      Attained ((perform m).outcome s).2
  | insertNode {s : Store} (id : NodeId) (kind : NodeKind) (name : String) (ds : List NodeId)
      (before : Attained s) : Attained ((insertNode id kind name ds).outcome s).2
  | begin {s : Store} (before : Attained s) : Attained (begin.outcome s).2
  | commit {s : Store} (before : Attained s) : Attained (commit.outcome s).2
  | rollback {s : Store} (before : Attained s) : Attained (rollback.outcome s).2

/-- Changes keep the graph well-formed; transactions only keep graphs that were, and go back to them. -/
theorem Attained.wellFormed {s : Store} (attained : s.Attained) : ∀ g ∈ s.graph :: s.snapshots, g.WellFormed := by
  induction attained with
  | empty =>
    intro g member
    rw [List.mem_singleton.mp member]
    exact Graph.wellFormed_empty
  | @perform s m _ left ih =>
    obtain ⟨shown, kept⟩ := List.forall_mem_cons.mp ih
    rw [Store.perform, Action.outcome_ofFunction] at left ⊢
    cases made : s.graph.apply m with
    | ok result =>
      obtain ⟨outcome, after⟩ := result
      rw [made] at left
      refine List.forall_mem_cons.mpr ⟨shown.apply made ?_, kept⟩
      intro id created
      exact left id (congrArg Except.ok created)
    | error e => exact ih
  | @insertNode s id kind name ds _ ih =>
    obtain ⟨shown, kept⟩ := List.forall_mem_cons.mp ih
    rw [Store.insertNode, Action.outcome_ofFunction]
    cases made : s.graph.insertNode id kind name ds with
    | ok after => exact List.forall_mem_cons.mpr ⟨shown.insertNode made, kept⟩
    | error e => exact ih
  | @begin s _ ih => exact List.forall_mem_cons.mpr ⟨ih s.graph (.head _), ih⟩
  | @commit s _ ih =>
    rw [Store.commit, Action.outcome_ofFunction]
    cases isOpen : s.snapshots with
    | nil => exact ih
    | cons before outer =>
      rw [isOpen] at ih
      intro g member
      rcases List.mem_cons.mp member with rfl | kept
      · exact ih _ (.head _)
      · exact ih g (.tail _ (.tail _ kept))
  | @rollback s _ ih =>
    rw [Store.rollback, Action.outcome_ofFunction]
    cases isOpen : s.snapshots with
    | nil => exact ih
    | cons before outer =>
      rw [isOpen] at ih
      exact fun g member => ih g (.tail _ member)

/-- The graph of a store and those its transactions would go back to are well-formed at all times, with
policy classes at the bottom and a way down to one from every node. -/
theorem attained_consistent {s : Store} (attained : s.Attained) {g : Graph} (member : g ∈ s.graph :: s.snapshots) :
    g.WellFormed ∧ (∀ id, g.kind? id = some .policyClass → ∀ d, ¬ g.Assigned id d) ∧
      ∀ id kind, g.kind? id = some kind → ∃ pc, g.Reaches id pc ∧ g.kind? pc = some .policyClass := by
  have wellFormed := attained.wellFormed g member
  refine ⟨wellFormed, ?_, ?_⟩
  · intro id isClass d
    exact wellFormed.toHierarchy.bottom isClass d
  · intro id kind known
    exact wellFormed.toHierarchy.reaches_policyClass known

/-- A ward to which nurses are added in a transaction. -/
def ward : Store :=
  ((perform (.createNode .userAttribute "nurses" [⟨1⟩])).outcome
    (begin.outcome ((perform (.createNode .policyClass "ward" [])).outcome {}).2).2).2

theorem ward_consistent :
    ward.Attained ∧ ward.depth = 1 ∧ ward.graph.WellFormed ∧
      ∃ pc, ward.graph.Reaches ⟨2⟩ pc ∧ ward.graph.kind? pc = some .policyClass := by
  have attained : ward.Attained :=
    .perform _ (.begin (.perform _ .empty fun _ _ => by decide)) fun _ _ => by decide
  obtain ⟨wellFormed, _, rooted⟩ := attained_consistent attained (.head _)
  exact ⟨attained, rfl, wellFormed, rooted ⟨2⟩ .userAttribute rfl⟩

end Store
end PolicyLedger
