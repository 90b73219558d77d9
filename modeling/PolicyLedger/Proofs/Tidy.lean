import PolicyLedger.Proofs.Recording
import PolicyLedger.Proofs.WellFormed

/-!
Nothing is left behind in a graph. Whatever was done to it, it lists assignments and associations of nodes
that are there only, and lists no node that has none. So there is nothing in it that its answers do not
tell, and two graphs that answer alike are the same graph.
-/
namespace PolicyLedger
namespace Graph

variable {g h after : Graph} {id ua target : NodeId}

/-- Assignments, associations and prohibitions are about nodes that are there, and names lead to their nodes. Unlike
a well-formed graph, a tidy one can run out of identifiers, and a node can take the place of another one. -/
structure Tidy (g : Graph) : Prop extends Paired g where
  joined : ∀ a d, g.Assigned a d → g.nodes.contains a = true ∧ g.nodes.contains d = true
  placed : g.Placed
  granting : ∀ ua granted, g.associations.get? ua = some granted →
    g.nodes.contains ua = true ∧ granted.isEmpty = false ∧
      ∀ target rights, granted.get? target = some rights → g.nodes.contains target = true
  prohibiting : g.Prohibiting
  named : ∀ id node, g.nodes.get? id = some node → g.names.get? node.name = some id

/-! ### Changes -/

theorem tidy_empty : (∅ : Graph).Tidy where
  toPaired := hierarchy_empty.toPaired
  joined _ _ assigned := nomatch assigned
  placed := hierarchy_empty.placed
  granting _ _ found := nomatch found
  prohibiting := wellFormed_empty.prohibiting
  named _ _ found := nomatch found

/-- Other assignments between nodes that are there leave a graph tidy, if they are recorded both ways. -/
private theorem Tidy.relinked (tidy : g.Tidy) {descendants ascendants : SortedMap NodeId (SortedSet NodeId)}
    (same : after = { g with descendants, ascendants }) (paired : after.Paired) (placed : after.Placed)
    (joined : ∀ a d, after.Assigned a d → g.nodes.contains a = true ∧ g.nodes.contains d = true) : after.Tidy where
  toPaired := paired
  joined a d assigned := same ▸ joined a d assigned
  placed := placed
  granting := same ▸ tidy.granting
  prohibiting := tidy.prohibiting.mono (fun _ _ known => same ▸ known) (same ▸ rfl)
  named := same ▸ tidy.named

private theorem Tidy.regranted (tidy : g.Tidy) {associations : SortedMap NodeId (SortedMap NodeId AccessRights)}
    (same : after = { g with associations })
    (granting : ∀ ua granted, after.associations.get? ua = some granted →
      g.nodes.contains ua = true ∧ granted.isEmpty = false ∧
        ∀ target rights, granted.get? target = some rights → g.nodes.contains target = true) : after.Tidy where
  toPaired := tidy.toPaired.congr (same ▸ rfl) (same ▸ rfl)
  joined := same ▸ tidy.joined
  placed := same ▸ tidy.placed
  granting := same ▸ granting
  prohibiting := tidy.prohibiting.mono (fun _ _ known => same ▸ known) (same ▸ rfl)
  named := same ▸ tidy.named

private theorem Tidy.reruled (tidy : g.Tidy) {prohibitions : SortedMap String Prohibition}
    (prohibiting : { g with prohibitions }.Prohibiting) (obligations : SortedMap String Obligation)
    (operations : SortedMap String Operation) (routines : SortedMap String Routine) (rights : AccessRights) :
    { g with prohibitions, obligations, operations, routines, resourceOperations := rights }.Tidy where
  toPaired := tidy.toPaired.congr rfl rfl
  joined := tidy.joined
  placed := tidy.placed
  granting := tidy.granting
  prohibiting := prohibiting
  named := tidy.named

/-- A new name is not the one of a node that is there, even if the new node takes the place of another. -/
theorem Tidy.addNode (tidy : g.Tidy) {kind : NodeKind} {name : String} {ds : List NodeId}
    (checked : g.checkNewNode kind name ds = .ok ()) : (g.addNode id kind name ds).Tidy := by
  obtain ⟨unused, _, fits⟩ := checkNewNode_eq_ok.mp checked
  let named := { g with nodes := g.nodes.insert id ⟨id, kind, name, ∅⟩, names := g.names.insert name id }
  have paired : named.Paired := tidy.toPaired.congr rfl rfl
  have linked : (g.addNode id kind name ds).Paired := (paired.linkAll id ds).congr rfl rfl
  obtain ⟨_, _, added⟩ := addNode_shape g id kind name ds
  have kept (other : NodeId) (known : g.nodes.contains other = true) :
      (g.addNode id kind name ds).nodes.contains other = true := by
    rw [addNode_nodes]
    exact SortedMap.contains_insert.mpr (.inr known)
  refine { linked with
    joined := ?_, placed := tidy.placed.addNode checked, granting := ?_, prohibiting := ?_, named := ?_ }
  · intro a d assigned
    simp only [addNode_nodes, SortedMap.contains_insert]
    rcases assigned_addNode.mp assigned with ⟨rfl, member⟩ | old
    · obtain ⟨lower, there, _⟩ := fits d member
      exact ⟨.inl rfl, .inr (contains_nodes.mpr ⟨lower, there⟩)⟩
    · exact (tidy.joined a d old).imp .inr .inr
  · intro ua granted found
    rw [added] at found
    obtain ⟨known, filled, targets⟩ := tidy.granting ua granted found
    exact ⟨kept ua known, filled, fun target rights there => kept target (targets target rights there)⟩
  · exact tidy.prohibiting.mono (fun other _ => kept other) (by rw [added])
  · simp only [added]
    intro other node found
    rw [SortedMap.get?_insert] at found ⊢
    by_cases isNew : other = id
    · rw [if_pos isNew] at found
      cases found
      simp [isNew]
    · rw [if_neg isNew] at found
      have old := tidy.named other node found
      rw [if_neg, old]
      rintro rfl
      simp [SortedMap.contains, old] at unused

theorem Tidy.deleteNode (tidy : g.Tidy) (made : g.deleteNode id = .ok after) : after.Tidy := by
  have placed := tidy.placed.deleteNode made
  have prohibiting := tidy.prohibiting.deleteNode made
  obtain ⟨node, found, top, _, rfl⟩ := deleteNode_eq_ok.mp made
  have cut := unlinkAll_shape g id (g.below id).toList
  have paired := tidy.toPaired.unlinkAll id (g.below id).toList
  refine { paired.congr rfl rfl with
    joined := ?_, placed := placed, granting := ?_, prohibiting := prohibiting, named := ?_ }
  · intro a d assigned
    obtain ⟨old, apart⟩ := assigned_unlinkAll.mp assigned
    have other : a ≠ id := by
      rintro rfl
      exact apart ⟨rfl, old⟩
    have differ : d ≠ id := by
      rintro rfl
      exact tidy.not_assigned_top top a old
    obtain ⟨upper, lower⟩ := tidy.joined a d old
    simp only [unlinkAll_nodes, SortedMap.contains_erase]
    exact ⟨⟨other, upper⟩, differ, lower⟩
  · obtain ⟨_, _, cut⟩ := cut
    simp only [cut]
    intro ua granted recorded
    obtain ⟨other, old, before, rfl, some⟩ := get?_forgetAssociations.mp recorded
    obtain ⟨known, _, targets⟩ := tidy.granting ua old before
    refine ⟨SortedMap.contains_erase.mpr ⟨other, known⟩, some, ?_⟩
    intro target rights there
    simp only [SortedMap.get?_erase, Option.ite_none_left_eq_some] at there
    exact SortedMap.contains_erase.mpr ⟨there.1, targets target rights there.2⟩
  · obtain ⟨_, _, cut⟩ := cut
    simp only [cut, SortedMap.get?_erase]
    intro other rest there
    simp only [Option.ite_none_left_eq_some] at there
    obtain ⟨differ, there⟩ := there
    have leads := tidy.named other rest there
    rw [if_neg, leads]
    intro same
    rw [same, tidy.named id node (node_eq_ok.mp found)] at leads
    exact differ (Option.some.inj leads).symm

theorem Tidy.setProperties (tidy : g.Tidy) {properties : Properties}
    (made : g.setProperties id properties = .ok after) : after.Tidy := by
  obtain ⟨node, found, rfl⟩ := setProperties_eq_ok.mp made
  have known (other : NodeId) (there : g.nodes.contains other = true) :
      (g.nodes.insert id { node with properties }).contains other = true :=
    SortedMap.contains_insert.mpr (.inr there)
  have kinds := kind?_setProperties properties (node_eq_ok.mp found)
  refine { tidy.toPaired.congr rfl rfl with
    joined := ?_, placed := ?_, granting := ?_, prohibiting := ?_, named := ?_ }
  · intro a d assigned
    exact (tidy.joined a d assigned).imp (known a) (known d)
  · rw [Placed, kinds]
    exact tidy.placed
  · intro ua granted recorded
    obtain ⟨there, filled, targets⟩ := tidy.granting ua granted recorded
    exact ⟨known ua there, filled, fun target rights found => known target (targets target rights found)⟩
  · exact tidy.prohibiting.mono (fun other _ => known other) rfl
  · intro other changed there
    simp only [SortedMap.get?_insert] at there
    split at there
    · rename_i same
      cases there
      exact same ▸ tidy.named id node (node_eq_ok.mp found)
    · exact tidy.named other changed there

theorem Tidy.associate (tidy : g.Tidy) {rights : AccessRights}
    (made : g.associate ua target rights = .ok after) : after.Tidy := by
  obtain ⟨source, node, found, _, there, _, _, rfl⟩ := associate_eq_ok.mp made
  refine tidy.regranted rfl ?_
  intro other granted recorded
  rw [SortedMap.get?_insert] at recorded
  split at recorded
  · rename_i same
    cases recorded
    have some : ((g.granted ua).insert target rights).get? target = .some rights := by simp [SortedMap.get?_insert]
    refine ⟨same ▸ contains_of_node found, SortedMap.isEmpty_eq_false.mpr ⟨target, rights, some⟩, ?_⟩
    intro target' rights' there'
    rw [SortedMap.get?_insert] at there'
    split at there'
    · rename_i isTarget
      exact isTarget ▸ contains_of_node there
    · obtain ⟨old, before, found'⟩ := get?_granted.mp there'
      exact (tidy.granting ua old before).2.2 target' rights' found'
  · exact tidy.granting other granted recorded

theorem Tidy.dissociate (tidy : g.Tidy) (made : g.dissociate ua target = .ok after) : after.Tidy := by
  obtain ⟨_, _, _, _, shape⟩ := dissociate_eq_ok.mp made
  refine tidy.regranted shape ?_
  intro other targets recorded
  rcases granted_of_dissociate made recorded with same | ⟨old, before, rfl, some⟩
  · exact tidy.granting other targets same
  · obtain ⟨known, _, there⟩ := tidy.granting other old before
    refine ⟨known, some, ?_⟩
    intro left rights found
    simp only [SortedMap.get?_erase, Option.ite_none_left_eq_some] at found
    exact there left rights found.2

/-- Every change leaves a tidy graph tidy. -/
theorem Tidy.apply {m : Mutation} {o : Outcome} (tidy : g.Tidy) (made : g.apply m = .ok (o, after)) :
    after.Tidy := by
  cases apply_eq_ok.mp made with
  | createNode checked => exact tidy.addNode checked
  | deleteNode made => exact tidy.deleteNode made
  | setProperties made => exact tidy.setProperties made
  | @assign ascendant ds _ made =>
    have placed := tidy.placed.assign made
    obtain ⟨_, found, checked, rfl⟩ := assign_eq_ok.mp made
    obtain ⟨_, _, linked⟩ := linkAll_shape g ascendant ds
    refine tidy.relinked linked (tidy.toPaired.linkAll ascendant ds) placed ?_
    intro a d joined
    rcases assigned_linkAll.mp joined with ⟨rfl, member⟩ | old
    · obtain ⟨⟨_, lower, _, there, _⟩, _⟩ := checkAssignment_eq_ok.mp (forM_eq_ok.mp checked d member)
      exact ⟨contains_of_node found, contains_nodes.mpr ⟨lower, there⟩⟩
    · exact tidy.joined a d old
  | @deassign ascendant ds _ made =>
    have placed := tidy.placed.deassign made
    obtain ⟨_, _, _, rfl⟩ := deassign_eq_ok.mp made
    obtain ⟨_, _, cut⟩ := unlinkAll_shape g ascendant ds
    refine tidy.relinked cut (tidy.toPaired.unlinkAll ascendant ds) placed ?_
    intro a d joined
    exact tidy.joined a d (assigned_unlinkAll.mp joined).1
  | associate made => exact tidy.associate made
  | dissociate made => exact tidy.dissociate made
  | createProhibition made =>
    have prohibiting := tidy.prohibiting.create made
    obtain ⟨_, _, rfl⟩ := createProhibition_eq_ok.mp made
    exact tidy.reruled prohibiting ..
  | deleteProhibition => exact tidy.reruled (tidy.prohibiting.delete _) ..
  | _ => exact tidy.reruled tidy.prohibiting ..

theorem Tidy.insertNode (tidy : g.Tidy) {kind : NodeKind} {name : String} {ds : List NodeId}
    (made : g.insertNode id kind name ds = .ok after) : after.Tidy := by
  obtain ⟨_, checked, rfl⟩ := insertNode_eq_ok.mp made
  exact tidy.addNode checked

/-! ### Answers -/

/-- Sparse records that lead the same ways are the same record. -/
theorem Sparse.ext {edges others : SortedMap NodeId (SortedSet NodeId)} (sparse : Sparse edges)
    (sparse' : Sparse others) (same : ∀ a d, d ∈ targets edges a ↔ d ∈ targets others a) : edges = others := by
  have listed {e e' : SortedMap NodeId (SortedSet NodeId)} (sparse : Sparse e)
      (same : ∀ a d, d ∈ targets e a ↔ d ∈ targets e' a) (a : NodeId) (set : SortedSet NodeId)
      (found : e.get? a = some set) : e'.get? a = some set := by
    have leads : (e'.get? a).getD ∅ = set := by
      have all : targets e a = targets e' a := SortedSet.ext (same a)
      simpa [targets, found] using all.symm
    obtain ⟨d, member⟩ := SortedSet.isEmpty_eq_false.mp (sparse a set found)
    cases there : e'.get? a with
    | none => simp [← leads, there] at member
    | some set' => simpa [there] using leads
  refine SortedMap.ext fun a => Option.ext fun set => ?_
  constructor
  · exact listed sparse same a set
  · exact listed sparse' (fun a d => (same a d).symm) a set

/-- Graphs that record the same assignments record them the same way. -/
theorem Paired.records_eq (paired : g.Paired) (paired' : h.Paired) (same : ∀ a d, g.Assigned a d ↔ h.Assigned a d) :
    g.descendants = h.descendants ∧ g.ascendants = h.ascendants := by
  refine ⟨paired.down.ext paired'.down same, paired.up.ext paired'.up fun d a => ?_⟩
  exact (paired.converse a d).symm.trans ((same a d).trans (paired'.converse a d))

/-- Whether two graphs give every question the same answer. -/
def AnswersAs (g h : Graph) : Prop := ∀ q, g.answer q = h.answer q

private theorem AnswersAs.symm (same : g.AnswersAs h) : h.AnswersAs g := fun q => (same q).symm

private theorem AnswersAs.node (same : g.AnswersAs h) (id : NodeId) : g.node id = h.node id :=
  map_injective (fun _ _ => Answer.node.inj) (same (.node id))

private theorem AnswersAs.nodes (same : g.AnswersAs h) : g.nodes = h.nodes := by
  refine SortedMap.ext fun id => Option.ext fun node => ?_
  rw [← node_eq_ok, ← node_eq_ok, same.node id]

private theorem AnswersAs.names (same : g.AnswersAs h) : g.names = h.names := by
  refine SortedMap.ext fun name => ?_
  have answered : g.nodeId name = h.nodeId name := map_injective (fun _ _ => Answer.id.inj) (same (.nodeId name))
  unfold Graph.nodeId at answered
  cases first : g.names.get? name <;> cases second : h.names.get? name <;> simp_all

/-- An assignment is told by the descendants of a node that is there. -/
private theorem AnswersAs.assigned (same : g.AnswersAs h) (tidy : g.Tidy) {a d : NodeId} (assigned : g.Assigned a d) :
    h.Assigned a d := by
  have answered : g.descendantsOf a = h.descendantsOf a :=
    map_injective (fun _ _ => Answer.ids.inj) (same (.descendants a))
  obtain ⟨node, found⟩ := node_of_contains (tidy.joined a d assigned).1
  have told : h.descendantsOf a = .ok (g.below a).toList := answered.symm.trans (bind_eq_ok.mpr ⟨node, found, rfl⟩)
  simp only [descendantsOf, bind_eq_ok, pure_eq_ok] at told
  obtain ⟨_, _, lists⟩ := told
  have sets : h.below a = g.below a := SortedSet.eq_of_elements lists
  show d ∈ h.below a
  rw [sets]
  exact assigned

/-- An association is told by those of an attribute that is there. -/
private theorem AnswersAs.granted (same : g.AnswersAs h) (tidy : g.Tidy) {granted : SortedMap NodeId AccessRights}
    (found : g.associations.get? ua = some granted) : h.associations.get? ua = some granted := by
  have answered : g.associationsOf ua = h.associationsOf ua :=
    map_injective (fun _ _ => Answer.associations.inj) (same (.associations ua))
  obtain ⟨known, filled, _⟩ := tidy.granting ua granted found
  obtain ⟨node, there⟩ := node_of_contains known
  have told : h.associationsOf ua = .ok (g.granted ua).toList :=
    answered.symm.trans (bind_eq_ok.mpr ⟨node, there, rfl⟩)
  simp only [associationsOf, bind_eq_ok, pure_eq_ok] at told
  obtain ⟨_, _, lists⟩ := told
  have leads : (h.associations.get? ua).getD ∅ = granted := by
    have all : h.granted ua = g.granted ua := SortedMap.eq_of_entries lists
    simpa [Graph.granted, found] using all
  obtain ⟨target, rights, member⟩ := SortedMap.isEmpty_eq_false.mp filled
  cases recorded : h.associations.get? ua with
  | none => simp [← leads, recorded] at member
  | some granted' => simpa [recorded] using leads

/-- All there is in a tidy graph but the last identifier is told by its answers. -/
theorem Tidy.eq_of_answers (tidy : g.Tidy) (tidy' : h.Tidy) (same : g.AnswersAs h) (last : g.lastId = h.lastId) :
    g = h := by
  have assigned (a d : NodeId) : g.Assigned a d ↔ h.Assigned a d :=
    ⟨same.assigned tidy, same.symm.assigned tidy'⟩
  obtain ⟨down, up⟩ := tidy.toPaired.records_eq tidy'.toPaired assigned
  have associations : g.associations = h.associations := by
    refine SortedMap.ext fun ua => Option.ext fun granted => ?_
    exact ⟨same.granted tidy, same.symm.granted tidy'⟩
  have prohibitions : g.prohibitions = h.prohibitions :=
    SortedMap.ext fun name => by simpa [answer] using same (.prohibition name)
  have obligations : g.obligations = h.obligations :=
    SortedMap.ext fun name => by simpa [answer] using same (.obligation name)
  have operations : g.operations = h.operations :=
    SortedMap.ext fun name => by simpa [answer] using same (.operation name)
  have routines : g.routines = h.routines :=
    SortedMap.ext fun name => by simpa [answer] using same (.routine name)
  have rights : g.resourceOperations = h.resourceOperations := by simpa [answer] using same .resourceOperations
  have nodes := same.nodes
  have names := same.names
  cases g
  cases h
  simp_all

end Graph

namespace Store

/-- Graphs of stores are tidy, and so are those their transactions would go back to. -/
theorem Reachable.tidy {s : Store} (reachable : s.Reachable) : s.graph.Tidy ∧ ∀ g ∈ s.snapshots, g.Tidy :=
  reachable.kept Graph.tidy_empty (fun tidy made => tidy.apply made) fun tidy made => tidy.insertNode made

/-- Two stores that answer all questions alike and would give a new node the same identifier hold the same graph,
whatever either went through. -/
theorem graph_eq_of_answers {s t : Store} (first : s.Reachable) (second : t.Reachable)
    (same : ∀ q, ((PolicyState.ask q).outcome s).1 = ((PolicyState.ask q).outcome t).1)
    (next : s.graph.nextId = t.graph.nextId) : s.graph = t.graph := by
  have last : s.graph.lastId = t.graph.lastId := by
    have values : s.graph.lastId + 1 = t.graph.lastId + 1 := congrArg NodeId.value next
    exact (UInt64.add_right_inj 1).mp (by rwa [UInt64.add_comm 1, UInt64.add_comm 1])
  exact first.tidy.1.eq_of_answers second.tidy.1 same last

/-- An empty store to which changes are made one after the other, as far as they can be. -/
def ofChanges (ms : List Mutation) : Store := ms.foldl (fun s m => ((perform m).outcome s).2) {}

theorem reachable_ofChanges (ms : List Mutation) : (ofChanges ms).Reachable := by
  induction ms using List.reverseRecOn with
  | nil => exact .empty
  | append_singleton ms m ih =>
    rw [ofChanges, List.foldl_append]
    exact .perform m ih

/-- A ward with nurses, doctors and beds. -/
def hospital : List Mutation :=
  [.createNode .policyClass "ward" [], .createNode .userAttribute "nurses" [⟨1⟩],
    .createNode .userAttribute "doctors" [⟨1⟩], .createNode .objectAttribute "beds" [⟨1⟩]]

/-- Doctors who are nurses as well and are given the beds, until all that is taken back. -/
def demoted : List Mutation :=
  [.createNode .policyClass "ward" [], .createNode .userAttribute "nurses" [⟨1⟩],
    .createNode .userAttribute "doctors" [⟨1⟩, ⟨2⟩], .createNode .objectAttribute "beds" [⟨1⟩],
    .associate ⟨3⟩ ⟨4⟩ ∅, .dissociate ⟨3⟩ ⟨4⟩, .deassign ⟨3⟩ [⟨2⟩]]

/-- What is asked is answered as if it had never been, though it is answered otherwise in between. -/
theorem demotion_leaves_nothing :
    ((PolicyState.ask (.associations ⟨3⟩)).outcome (ofChanges (demoted.take 5))).1 ≠
        ((PolicyState.ask (.associations ⟨3⟩)).outcome (ofChanges hospital)).1 ∧
      (ofChanges demoted).graph = (ofChanges hospital).graph := by
  have answered (q : Query) :
      ((PolicyState.ask q).outcome (ofChanges demoted)).1 = ((PolicyState.ask q).outcome (ofChanges hospital)).1 :=
    congrArg (Graph.answer · q) (by decide +kernel : (ofChanges demoted).graph = (ofChanges hospital).graph)
  exact ⟨by decide +kernel,
    graph_eq_of_answers (reachable_ofChanges _) (reachable_ofChanges _) answered (by decide +kernel)⟩

end Store
end PolicyLedger
