import PolicyLedger.Proofs.GraphChange

/-!
Obligations and routines stand apart from the rest of the graph: no other change looks at them or
touches them. What can be done to a graph can be done to the same graph with other obligations and
routines, and leads to the same graph but for these.
-/
namespace PolicyLedger

/-- Whether a change is about routines. -/
def Mutation.onRoutines : Mutation → Bool
  | createRoutine _ | deleteRoutine _ => true
  | _ => false

/-- Whether a change is about obligations or routines. -/
def Mutation.onRules : Mutation → Bool
  | createObligation _ | deleteObligation _ | createRoutine _ | deleteRoutine _ => true
  | _ => false

namespace Graph

variable {g after : Graph} {obligations : SortedMap String Obligation} {routines : SortedMap String Routine}

/-- The same graph with other obligations and routines. -/
def withRules (g : Graph) (obligations : SortedMap String Obligation) (routines : SortedMap String Routine) : Graph :=
  { g with obligations, routines }

/-- The same graph with other routines. -/
def withRoutines (g : Graph) (routines : SortedMap String Routine) : Graph := { g with routines }

@[simp] theorem withRules_self : g.withRules g.obligations g.routines = g := rfl

@[simp] theorem node_withRules (id : NodeId) : (g.withRules obligations routines).node id = g.node id := rfl

@[simp] theorem checkAssignable_withRules (kind : NodeKind) (id : NodeId) :
    checkAssignable kind (g.withRules obligations routines) id = checkAssignable kind g id := rfl

@[simp] theorem checkNewNode_withRules (kind : NodeKind) (name : String) (ds : List NodeId) :
    (g.withRules obligations routines).checkNewNode kind name ds = g.checkNewNode kind name ds := rfl

/-- A search sees nothing but the assignments. -/
private theorem run_congr {g h : Graph} (same : g.descendants = h.descendants) (target : NodeId) (s : Search) :
    s.run g target = s.run h target := by
  have alike (s : Search) : s.round g target = s.round h target := by simp only [Search.round, below, same]
  fun_induction Search.run g target s with
  | case1 s answer ends => exact (Search.run_of_inl ((alike s).symm.trans ends)).symm
  | case2 s next onward ih => exact ih.trans (Search.run_of_inr ((alike s).symm.trans onward)).symm

@[simp] theorem reaches_withRules (source target : NodeId) :
    (g.withRules obligations routines).reaches source target = g.reaches source target :=
  run_congr (g := g.withRules obligations routines) (h := g) rfl target _

@[simp] theorem checkAssignment_withRules (ascendant : NodeId) :
    (g.withRules obligations routines).checkAssignment ascendant = g.checkAssignment ascendant := by
  funext descendant
  simp only [checkAssignment, node_withRules, checkAssignable_withRules, reaches_withRules]

@[simp] theorem checkRemovals_withRules (ascendant : NodeId) (kind : NodeKind) (left : SortedSet NodeId)
    (ds : List NodeId) :
    (g.withRules obligations routines).checkRemovals ascendant kind left ds =
      g.checkRemovals ascendant kind left ds := by
  induction ds generalizing left with
  | nil => rfl
  | cons d ds ih => simp only [checkRemovals, node_withRules, ih]

private theorem linkAll_withRules (g : Graph) (obligations : SortedMap String Obligation)
    (routines : SortedMap String Routine) (ascendant : NodeId) (ds : List NodeId) :
    (g.withRules obligations routines).linkAll ascendant ds =
      (g.linkAll ascendant ds).withRules obligations routines := by
  induction ds generalizing g with
  | nil => rfl
  | cons d ds ih => exact ih (g.link ascendant d)

private theorem unlinkAll_withRules (g : Graph) (obligations : SortedMap String Obligation)
    (routines : SortedMap String Routine) (ascendant : NodeId) (ds : List NodeId) :
    (g.withRules obligations routines).unlinkAll ascendant ds =
      (g.unlinkAll ascendant ds).withRules obligations routines := by
  induction ds generalizing g with
  | nil => rfl
  | cons d ds ih => exact ih (g.unlink ascendant d)

private theorem addNode_withRules (id : NodeId) (kind : NodeKind) (name : String) (ds : List NodeId) :
    (g.withRules obligations routines).addNode id kind name ds =
      (g.addNode id kind name ds).withRules obligations routines := by
  have linked := linkAll_withRules
    { g with nodes := g.nodes.insert id ⟨id, kind, name, ∅⟩, names := g.names.insert name id }
    obligations routines id ds
  exact congrArg (fun h : Graph => { h with lastId := max g.lastId id.value }) linked

/-- A change of anything but these can be made to the same graph with other ones. -/
theorem apply_withRules (obligations : SortedMap String Obligation)
    (routines : SortedMap String Routine) {m : Mutation} {o : Outcome}
    (other : m.onRules = false) (made : g.apply m = .ok (o, after)) :
    (g.withRules obligations routines).apply m = .ok (o, after.withRules obligations routines) := by
  refine apply_eq_ok.mpr ?_
  cases apply_eq_ok.mp made with
  | createNode checked =>
    rw [← addNode_withRules]
    exact .createNode checked
  | @deleteNode id _ made =>
    obtain ⟨node, found, bottom, unmentioned, rfl⟩ := deleteNode_eq_ok.mp made
    refine .deleteNode (deleteNode_eq_ok.mpr ⟨node, found, bottom, unmentioned, ?_⟩)
    have cut := unlinkAll_withRules g obligations routines id (g.below id).toList
    simp only [show (g.withRules obligations routines).below id = g.below id from rfl, cut]
    rfl
  | setProperties made =>
    obtain ⟨node, found, rfl⟩ := setProperties_eq_ok.mp made
    exact .setProperties (setProperties_eq_ok.mpr ⟨node, found, rfl⟩)
  | assign made =>
    obtain ⟨node, found, checked, rfl⟩ := assign_eq_ok.mp made
    refine .assign (assign_eq_ok.mpr ⟨node, found, ?_, (linkAll_withRules ..).symm⟩)
    rw [checkAssignment_withRules]
    exact checked
  | deassign made =>
    obtain ⟨node, found, checked, rfl⟩ := deassign_eq_ok.mp made
    refine .deassign (deassign_eq_ok.mpr ⟨node, found, ?_, (unlinkAll_withRules ..).symm⟩)
    rw [checkRemovals_withRules]
    exact checked
  | associate made =>
    obtain ⟨source, node, found, isAttribute, there, container, known, rfl⟩ := associate_eq_ok.mp made
    exact .associate (associate_eq_ok.mpr ⟨source, node, found, isAttribute, there, container, known, rfl⟩)
  | dissociate made =>
    obtain ⟨source, node, found, there, rfl⟩ := dissociate_eq_ok.mp made
    exact .dissociate (dissociate_eq_ok.mpr ⟨source, node, found, there, rfl⟩)
  | createProhibition made =>
    obtain ⟨free, checked, rfl⟩ := createProhibition_eq_ok.mp made
    exact .createProhibition (createProhibition_eq_ok.mpr ⟨free, checked, rfl⟩)
  | deleteProhibition known => exact .deleteProhibition known
  | createOperation free => exact .createOperation free
  | deleteOperation known => exact .deleteOperation known
  | setResourceOperations rights => exact .setResourceOperations rights
  | createObligation | deleteObligation | createRoutine | deleteRoutine => cases other

/-- It leaves them as they are. -/
theorem apply_rules {m : Mutation} {o : Outcome} (other : m.onRules = false) (made : g.apply m = .ok (o, after)) :
    after.obligations = g.obligations ∧ after.routines = g.routines := by
  have again := apply_withRules g.obligations g.routines other made
  rw [withRules_self, made] at again
  have same : after = after.withRules g.obligations g.routines := (Prod.mk.inj (Except.ok.inj again)).2
  rw [same]
  exact ⟨rfl, rfl⟩

/-- A change of anything but the routines can be made to the same graph with other routines. -/
theorem apply_withRoutines (routines : SortedMap String Routine) {m : Mutation} {o : Outcome}
    (other : m.onRoutines = false) (made : g.apply m = .ok (o, after)) :
    (g.withRoutines routines).apply m = .ok (o, after.withRoutines routines) := by
  by_cases rules : m.onRules = true
  · refine apply_eq_ok.mpr ?_
    cases apply_eq_ok.mp made with
    | createObligation free => exact .createObligation free
    | deleteObligation known => exact .deleteObligation known
    | createRoutine | deleteRoutine => cases other
    | _ => cases rules
  · rw [Bool.not_eq_true] at rules
    have again := apply_withRules g.obligations routines rules made
    have kept : after.withRules g.obligations routines = after.withRoutines routines := by
      rw [← (apply_rules rules made).1]
      rfl
    rw [kept] at again
    exact again

theorem apply_routines {m : Mutation} {o : Outcome} (other : m.onRoutines = false)
    (made : g.apply m = .ok (o, after)) : after.routines = g.routines := by
  by_cases rules : m.onRules = true
  · cases apply_eq_ok.mp made with
    | createObligation | deleteObligation => rfl
    | createRoutine | deleteRoutine => cases other
    | _ => cases rules
  · rw [Bool.not_eq_true] at rules
    exact (apply_rules rules made).2

end Graph
end PolicyLedger
