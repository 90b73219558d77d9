import Mathlib.Data.Fintype.EquivFin
import PolicyLedger.Proofs.Assignments
import PolicyLedger.Proofs.GraphNumbering

/-!
The hierarchy of the nodes. Assignments join nodes of fitting kinds and never lead back to where they
started; so from every node they lead down to a policy class. Each change that adds or removes nodes or
assignments is checked enough to keep it that way.
-/
namespace PolicyLedger

/-- There are only so many identifiers. -/
instance : Finite NodeId := by
  refine Finite.of_injective (fun id : NodeId => id.value.toFin) ?_
  rintro ⟨a⟩ ⟨b⟩ same
  exact congrArg NodeId.mk (UInt64.toFin_inj.mp same)

namespace Graph

variable {g after : Graph} {id ascendant a d : NodeId} {kind : NodeKind} {ds : List NodeId}

/-- The kind of a node, if there is one under the identifier. -/
def kind? (g : Graph) (id : NodeId) : Option NodeKind := (g.nodes.get? id).map (·.kind)

/-- Whether both nodes are there and the first may be assigned to the second. -/
def Legal (g : Graph) (ascendant descendant : NodeId) : Prop :=
  ∃ upper lower, g.kind? ascendant = some upper ∧ g.kind? descendant = some lower ∧ upper.canAssignTo lower = true

/-- Every node is assigned to another one, policy classes excepted. -/
def Placed (g : Graph) : Prop := ∀ id kind, g.kind? id = some kind → kind ≠ .policyClass → ∃ d, g.Assigned id d

structure Hierarchy (g : Graph) : Prop extends Paired g where
  legal : ∀ a d, g.Assigned a d → g.Legal a d
  acyclic : ∀ id, ¬ Relation.TransGen g.Assigned id id
  placed : g.Placed

theorem node_eq_ok {node : Node} : g.node id = .ok node ↔ g.nodes.get? id = some node := by
  unfold Graph.node
  cases g.nodes.get? id <;> simp

theorem kind?_eq_some : g.kind? id = some kind ↔ ∃ node, g.nodes.get? id = some node ∧ node.kind = kind := by
  simp [kind?]

theorem contains_nodes : g.nodes.contains id = true ↔ ∃ kind, g.kind? id = some kind := by
  simp [SortedMap.contains, kind?, Option.isSome_iff_exists]

theorem not_contains_nodes : g.nodes.contains id = false ↔ g.kind? id = none := by
  simp [SortedMap.contains, kind?]

theorem contains_of_node {node : Node} (found : g.node id = .ok node) : g.nodes.contains id = true := by
  simp [SortedMap.contains, node_eq_ok.mp found]

theorem node_of_contains (known : g.nodes.contains id = true) : ∃ node, g.node id = .ok node := by
  simpa [SortedMap.contains, Option.isSome_iff_exists, node_eq_ok] using known

/-! ### What the checks establish -/

theorem checkAssignable_eq_ok :
    checkAssignable kind g d = .ok () ↔ ∃ lower, g.kind? d = some lower ∧ kind.canAssignTo lower = true := by
  simp only [checkAssignable, bind_eq_ok, node_eq_ok, kind?_eq_some]
  constructor
  · rintro ⟨node, found, checked⟩
    by_cases allowed : kind.canAssignTo node.kind = true
    · exact ⟨node.kind, ⟨node, found, rfl⟩, allowed⟩
    · simp [allowed] at checked
  · rintro ⟨_, ⟨node, found, rfl⟩, allowed⟩
    exact ⟨node, found, by simp [allowed]⟩

theorem checkAssignment_eq_ok : g.checkAssignment a d = .ok () ↔ g.Legal a d ∧ ¬ g.Reaches d a := by
  simp only [checkAssignment, bind_eq_ok, node_eq_ok, refuse_eq_ok, reaches_eq_true, pure_eq_ok, and_true]
  constructor
  · rintro ⟨node, found, _, checked, apart⟩
    obtain ⟨lower, there, allowed⟩ := checkAssignable_eq_ok.mp checked
    exact ⟨⟨node.kind, lower, kind?_eq_some.mpr ⟨node, found, rfl⟩, there, allowed⟩, apart⟩
  · rintro ⟨⟨upper, lower, isUpper, there, allowed⟩, apart⟩
    obtain ⟨node, found, rfl⟩ := kind?_eq_some.mp isUpper
    exact ⟨node, found, (), checkAssignable_eq_ok.mpr ⟨lower, there, allowed⟩, apart⟩

theorem checkNewNode_eq_ok {name : String} :
    g.checkNewNode kind name ds = .ok () ↔
      g.names.contains name = false ∧ (kind = .policyClass ↔ ds = []) ∧
        ∀ d ∈ ds, ∃ lower, g.kind? d = some lower ∧ kind.canAssignTo lower = true := by
  have each : ds.forM (checkAssignable kind g) = .ok () ↔ _ := forM_eq_ok
  simp only [checkAssignable_eq_ok] at each
  rw [← each]
  by_cases isClass : kind = .policyClass
  · cases ds <;> simp [checkNewNode, isClass]
  · cases ds <;> simp [checkNewNode, isClass]

/-- The removals that pass leave a node that is no policy class with something it is assigned to. -/
theorem checkRemovals_remains {left : SortedSet NodeId} (passed : g.checkRemovals ascendant kind left ds = .ok ())
    (other : kind ≠ .policyClass) (some : ∃ d, d ∈ left) : ∃ d, d ∈ left ∧ d ∉ ds := by
  induction ds generalizing left with
  | nil =>
    obtain ⟨d, member⟩ := some
    exact ⟨d, member, List.not_mem_nil⟩
  | cons first ds ih =>
    simp only [checkRemovals, bind_eq_ok, throw_bind, refuse_eq_ok] at passed
    obtain ⟨_, _, kept, passed⟩ := passed
    have remains : ∃ d, d ∈ left.erase first := by
      by_cases member : first ∈ left
      · refine SortedSet.isEmpty_eq_false.mp ?_
        simpa [SortedSet.contains_iff.mpr member, other] using kept
      · obtain ⟨d, there⟩ := some
        exact ⟨d, SortedSet.mem_erase.mpr ⟨fun same => member (same ▸ there), there⟩⟩
    obtain ⟨d, member, apart⟩ := ih passed remains
    obtain ⟨differ, there⟩ := SortedSet.mem_erase.mp member
    exact ⟨d, there, by simp [differ, apart]⟩

/-! ### Consequences -/

/-- Policy classes are at the bottom. -/
theorem Hierarchy.bottom (h : g.Hierarchy) (isClass : g.kind? id = some .policyClass) (d : NodeId) :
    ¬ g.Assigned id d := by
  intro assigned
  obtain ⟨upper, lower, found, _, allowed⟩ := h.legal id d assigned
  cases isClass.symm.trans found
  cases lower <;> cases allowed

/-- Down from every node there is a policy class: the way down has an end, as no node is met twice. -/
theorem Hierarchy.reaches_policyClass (h : g.Hierarchy) (known : g.kind? id = some kind) :
    ∃ pc, g.Reaches id pc ∧ g.kind? pc = some .policyClass := by
  -- Without cycles, on finitely many identifiers, being below another node is well-founded.
  let Under (d a : NodeId) : Prop := Relation.TransGen g.Assigned a d
  have : IsTrans NodeId Under := ⟨fun _ _ _ first second => second.trans first⟩
  have : Std.Irrefl Under := ⟨h.acyclic⟩
  induction id using (Finite.wellFounded_of_trans_of_irrefl Under).induction generalizing kind with
  | _ id ih =>
    by_cases isClass : kind = .policyClass
    · exact ⟨id, .refl, isClass ▸ known⟩
    · obtain ⟨d, assigned⟩ := h.placed id kind known isClass
      obtain ⟨_, _, _, there, _⟩ := h.legal id d assigned
      obtain ⟨pc, path, found⟩ := ih d (.single assigned) there
      exact ⟨pc, .head assigned path, found⟩

/-! ### Adding assignments -/

/-- A way along old and new assignments of one node is one along old ones, or comes to the node and goes
on from one of its new descendants. -/
private theorem transGen_linkAll (path : Relation.TransGen (g.linkAll ascendant ds).Assigned a d) :
    Relation.TransGen g.Assigned a d ∨ g.Reaches a ascendant ∧ ∃ next ∈ ds, g.Reaches next d := by
  induction path with
  | single step =>
    rcases assigned_linkAll.mp step with ⟨rfl, member⟩ | old
    · exact .inr ⟨.refl, _, member, .refl⟩
    · exact .inl (.single old)
  | tail _ step ih =>
    rcases assigned_linkAll.mp step with ⟨rfl, member⟩ | old
    · rcases ih with before | ⟨before, _⟩
      · exact .inr ⟨before.to_reflTransGen, _, member, .refl⟩
      · exact .inr ⟨before, _, member, .refl⟩
    · rcases ih with before | ⟨before, next, member, rest⟩
      · exact .inl (before.tail old)
      · exact .inr ⟨before, next, member, rest.tail old⟩

theorem acyclic_linkAll (acyclic : ∀ id, ¬ Relation.TransGen g.Assigned id id)
    (apart : ∀ d ∈ ds, ¬ g.Reaches d ascendant) (id : NodeId) :
    ¬ Relation.TransGen (g.linkAll ascendant ds).Assigned id id := by
  intro cycle
  rcases transGen_linkAll cycle with old | ⟨before, next, member, rest⟩
  · exact acyclic id old
  · exact apart next member (rest.trans before)

private theorem kind?_linkAll : (g.linkAll ascendant ds).kind? = g.kind? := by
  obtain ⟨_, _, linked⟩ := linkAll_shape g ascendant ds
  rw [linked]
  rfl

theorem Placed.assign (placed : g.Placed) (made : g.assign ascendant ds = .ok after) : after.Placed := by
  obtain ⟨_, _, _, rfl⟩ := assign_eq_ok.mp made
  intro id kind known other
  rw [kind?_linkAll] at known
  obtain ⟨d, assigned⟩ := placed id kind known other
  exact ⟨d, assigned_linkAll.mpr (.inr assigned)⟩

theorem Hierarchy.assign (h : g.Hierarchy) (made : g.assign ascendant ds = .ok after) : after.Hierarchy := by
  have placed := h.placed.assign made
  obtain ⟨_, _, checked, rfl⟩ := assign_eq_ok.mp made
  have fits : ∀ d ∈ ds, g.Legal ascendant d ∧ ¬ g.Reaches d ascendant :=
    fun d member => checkAssignment_eq_ok.mp (forM_eq_ok.mp checked d member)
  refine { h.toPaired.linkAll ascendant ds with legal := ?_, acyclic := ?_, placed := placed }
  · intro a d assigned
    simp only [Legal, kind?_linkAll]
    rcases assigned_linkAll.mp assigned with ⟨rfl, member⟩ | old
    · exact (fits d member).1
    · exact h.legal a d old
  · exact acyclic_linkAll h.acyclic fun d member => (fits d member).2

/-! ### Adding nodes -/

theorem assigned_addNode {name : String} :
    (g.addNode id kind name ds).Assigned a d ↔ a = id ∧ d ∈ ds ∨ g.Assigned a d :=
  assigned_linkAll
    (g := { g with nodes := g.nodes.insert id ⟨id, kind, name, ∅⟩, names := g.names.insert name id })

theorem kind?_addNode {name : String} (other : NodeId) :
    (g.addNode id kind name ds).kind? other = if other = id then some kind else g.kind? other := by
  simp only [kind?, addNode_nodes, SortedMap.get?_insert]
  split <;> rfl

/-- A new node is not met on any way, for nothing that was there is assigned to it. -/
private theorem Hierarchy.not_reaches_new (h : g.Hierarchy) (free : g.kind? id = none) (known : g.kind? d = some kind) :
    ¬ g.Reaches d id := by
  intro path
  rcases path.cases_tail with rfl | ⟨last, _, assigned⟩
  · cases free.symm.trans known
  · obtain ⟨_, _, _, there, _⟩ := h.legal last id assigned
    cases free.symm.trans there

/-- A new node comes with an assignment, even if it takes the place of another. -/
theorem Placed.addNode {name : String} (placed : g.Placed) (checked : g.checkNewNode kind name ds = .ok ()) :
    (g.addNode id kind name ds).Placed := by
  obtain ⟨_, bottom, _⟩ := checkNewNode_eq_ok.mp checked
  intro other k found isOther
  rw [kind?_addNode] at found
  split at found
  · rename_i same
    cases found
    have some := mt bottom.mpr isOther
    obtain ⟨d, member⟩ := List.exists_mem_of_ne_nil ds some
    exact ⟨d, assigned_addNode.mpr (.inl ⟨same, member⟩)⟩
  · obtain ⟨d, assigned⟩ := placed other k found isOther
    exact ⟨d, assigned_addNode.mpr (.inr assigned)⟩

theorem Hierarchy.addNode {name : String} (h : g.Hierarchy) (free : g.nodes.contains id = false)
    (checked : g.checkNewNode kind name ds = .ok ()) : (g.addNode id kind name ds).Hierarchy := by
  obtain ⟨_, _, fits⟩ := checkNewNode_eq_ok.mp checked
  have unknown : g.kind? id = none := not_contains_nodes.mp free
  have known {other : NodeId} {k : NodeKind} (found : g.kind? other = some k) :
      (g.addNode id kind name ds).kind? other = some k := by
    rw [kind?_addNode, if_neg]
    · exact found
    · rintro rfl
      cases unknown.symm.trans found
  let named := { g with nodes := g.nodes.insert id ⟨id, kind, name, ∅⟩, names := g.names.insert name id }
  have paired : named.Paired := h.toPaired.congr rfl rfl
  have linked : (g.addNode id kind name ds).Paired := (paired.linkAll id ds).congr rfl rfl
  refine { linked with legal := ?_, acyclic := ?_, placed := h.placed.addNode checked }
  · intro a d assigned
    rcases assigned_addNode.mp assigned with ⟨rfl, member⟩ | old
    · obtain ⟨lower, there, allowed⟩ := fits d member
      exact ⟨kind, lower, by rw [kind?_addNode, if_pos rfl], known there, allowed⟩
    · obtain ⟨upper, lower, found, there, allowed⟩ := h.legal a d old
      exact ⟨upper, lower, known found, known there, allowed⟩
  · refine acyclic_linkAll (g := named) h.acyclic ?_
    intro d member
    obtain ⟨_, there, _⟩ := fits d member
    exact h.not_reaches_new unknown there

/-! ### Removing assignments and nodes -/

/-- A graph without new assignments has no new cycles. -/
private theorem Hierarchy.acyclic_of_imp (h : g.Hierarchy) (old : ∀ a d, after.Assigned a d → g.Assigned a d)
    (id : NodeId) :
    ¬ Relation.TransGen after.Assigned id id := by
  intro cycle
  exact h.acyclic id (Relation.TransGen.mono old id id cycle)

private theorem kind?_unlinkAll : (g.unlinkAll ascendant ds).kind? = g.kind? := by
  funext id
  rw [kind?, unlinkAll_nodes]
  rfl

theorem Placed.deassign (placed : g.Placed) (made : g.deassign ascendant ds = .ok after) : after.Placed := by
  obtain ⟨node, found, checked, rfl⟩ := deassign_eq_ok.mp made
  intro id kind known other
  rw [kind?_unlinkAll] at known
  by_cases same : id = ascendant
  · subst same
    have isKind : node.kind = kind := by
      rw [kind?, node_eq_ok.mp found] at known
      exact Option.some.inj known
    obtain ⟨d, member, apart⟩ := checkRemovals_remains checked (isKind ▸ other) (placed id kind known other)
    exact ⟨d, assigned_unlinkAll.mpr ⟨member, fun cut => apart cut.2⟩⟩
  · obtain ⟨d, assigned⟩ := placed id kind known other
    exact ⟨d, assigned_unlinkAll.mpr ⟨assigned, fun cut => same cut.1⟩⟩

theorem Hierarchy.deassign (h : g.Hierarchy) (made : g.deassign ascendant ds = .ok after) : after.Hierarchy := by
  have placed := h.placed.deassign made
  obtain ⟨_, _, _, rfl⟩ := deassign_eq_ok.mp made
  have old (a d : NodeId) (assigned : (g.unlinkAll ascendant ds).Assigned a d) : g.Assigned a d :=
    (assigned_unlinkAll.mp assigned).1
  refine { h.toPaired.unlinkAll ascendant ds with
    legal := ?_, acyclic := h.acyclic_of_imp old, placed := placed }
  intro a d assigned
  simp only [Legal, kind?_unlinkAll]
  exact h.legal a d (old a d assigned)

/-- Kinds of the nodes of a graph of which one node was removed. -/
theorem kind?_of_erase (nodes : after.nodes = g.nodes.erase id) (other : NodeId) :
    after.kind? other = if other = id then none else g.kind? other := by
  simp only [kind?, nodes, SortedMap.get?_erase]
  split <;> rfl

/-- Nothing is assigned to a node that has no ascendants. -/
theorem Paired.not_assigned_top (paired : g.Paired) (top : g.ascendants.contains id = false) (a : NodeId) :
    ¬ g.Assigned a id := by
  intro assigned
  have recorded : g.ascendants.get? id = none := by simpa [SortedMap.contains] using top
  have empty : a ∉ g.above id := by simp [above, recorded]
  exact empty ((paired.converse a id).mp assigned)

private theorem kind?_deleteNode (made : g.deleteNode id = .ok after) (other : NodeId) :
    after.kind? other = if other = id then none else g.kind? other := by
  obtain ⟨_, _, _, _, made⟩ := deleteNode_eq_ok.mp made
  exact kind?_of_erase (by rw [made, unlinkAll_nodes]) other

/-- With a node go its own assignments. -/
private theorem assigned_deleteNode (made : g.deleteNode id = .ok after) :
    after.Assigned a d ↔ g.Assigned a d ∧ a ≠ id := by
  obtain ⟨_, _, _, _, rfl⟩ := deleteNode_eq_ok.mp made
  refine assigned_unlinkAll.trans (and_congr_right fun assigned => not_congr ⟨And.left, ?_⟩)
  rintro rfl
  exact ⟨rfl, assigned⟩

theorem Placed.deleteNode (placed : g.Placed) (made : g.deleteNode id = .ok after) : after.Placed := by
  intro other kind known isOther
  rw [kind?_deleteNode made] at known
  by_cases same : other = id
  · simp [same] at known
  · rw [if_neg same] at known
    obtain ⟨d, assigned⟩ := placed other kind known isOther
    exact ⟨d, (assigned_deleteNode made).mpr ⟨assigned, same⟩⟩

theorem Hierarchy.deleteNode (h : g.Hierarchy) (made : g.deleteNode id = .ok after) : after.Hierarchy := by
  have kinds := kind?_deleteNode made
  have rest (a d : NodeId) : after.Assigned a d ↔ g.Assigned a d ∧ a ≠ id := assigned_deleteNode made
  have placed := h.placed.deleteNode made
  obtain ⟨_, _, top, _, made⟩ := deleteNode_eq_ok.mp made
  have paired : after.Paired := by
    rw [made]
    exact (h.toPaired.unlinkAll id (g.below id).toList).congr rfl rfl
  refine { paired with
    legal := ?_, acyclic := h.acyclic_of_imp fun a d assigned => ((rest a d).mp assigned).1, placed := placed }
  intro a d assigned
  obtain ⟨old, other⟩ := (rest a d).mp assigned
  have differ : d ≠ id := by
    intro same
    exact h.not_assigned_top top a (same ▸ old)
  simp only [Legal, kinds, if_neg other, if_neg differ]
  exact h.legal a d old

/-! ### Everything else -/

/-- The hierarchy is a matter of the kinds of the nodes and of the assignments only. -/
theorem Hierarchy.congr (h : g.Hierarchy) (kinds : after.kind? = g.kind?)
    (descendants : after.descendants = g.descendants) (ascendants : after.ascendants = g.ascendants) :
    after.Hierarchy := by
  have same : after.Assigned = g.Assigned := by
    funext a d
    simp only [Assigned, below, descendants]
  refine { h.toPaired.congr descendants ascendants with legal := ?_, acyclic := ?_, placed := ?_ }
  · simp only [Legal, same, kinds]
    exact h.legal
  · rw [same]
    exact h.acyclic
  · rw [Placed, same, kinds]
    exact h.placed

theorem hierarchy_empty : (∅ : Graph).Hierarchy where
  converse a d := by
    constructor
    · intro member
      cases member
    · intro member
      cases member
  down _ _ found := nomatch found
  up _ _ found := nomatch found
  legal _ _ assigned := nomatch assigned
  acyclic id cycle := by
    obtain ⟨_, _, last⟩ := Relation.TransGen.tail'_iff.mp cycle
    cases last
  placed _ _ known := nomatch known

end Graph
end PolicyLedger
