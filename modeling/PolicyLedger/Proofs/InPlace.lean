import PolicyLedger.Proofs.GraphNumbering
import PolicyLedger.Store.Basic

/-!
Changes made in place. There is one graph, and a change asks it and writes to its parts, one after the
other: what is written before a failure stays written. Carried out like this every change comes to what it
is when the graph after it is worked out beside the graph before it. What can refuse a change is asked
before the first write; only a rule that is removed by its name is found missing behind a write, and this
write has then changed nothing.
-/
namespace PolicyLedger
open PolicyLedger.Action

/-- A sequence of questions to the one graph there is and of writes to its parts. -/
abbrev Edit (α : Type) : Type := Action PolicyError Graph α

namespace Edit
variable {α β : Type}

/-- Asks the graph as it is by then. -/
def ask (question : Graph → Except PolicyError α) : Edit α := ofFunction fun g => (question g, g)

/-! ### The changes -/

def link (ascendant descendant : NodeId) : Edit Unit := do
  modify fun g => { g with descendants := Graph.addEdge g.descendants ascendant descendant }
  modify fun g => { g with ascendants := Graph.addEdge g.ascendants descendant ascendant }

def unlink (ascendant descendant : NodeId) : Edit Unit := do
  modify fun g => { g with descendants := Graph.removeEdge g.descendants ascendant descendant }
  modify fun g => { g with ascendants := Graph.removeEdge g.ascendants descendant ascendant }

def addNode (id : NodeId) (kind : NodeKind) (name : String) (descendants : List NodeId) : Edit Unit := do
  modify fun g => { g with nodes := g.nodes.insert id ⟨id, kind, name, ∅⟩ }
  modify fun g => { g with names := g.names.insert name id }
  descendants.forM (link id)
  modify fun g => { g with lastId := max g.lastId id.value }

def createNode (kind : NodeKind) (name : String) (descendants : List NodeId) : Edit NodeId := do
  ask (·.checkNewNode kind name descendants)
  let id := (← get).nextId
  addNode id kind name descendants
  return id

def insertNode (id : NodeId) (kind : NodeKind) (name : String) (descendants : List NodeId) : Edit Unit := do
  if (← get).nodes.contains id then throw (.nodeIdExists id)
  ask (·.checkNewNode kind name descendants)
  addNode id kind name descendants

def deleteNode (id : NodeId) : Edit Unit := do
  let node ← ask (·.node id)
  if (← get).ascendants.contains id then throw (.nodeHasAscendants id)
  if let some prohibition := (← get).prohibitions.values.find? (·.mentions id) then
    throw (.nodeInProhibition id prohibition.name)
  ((← get).below id).toList.forM (unlink id)
  modify fun g => { g with associations := g.associations.erase id }
  modify fun g => { g with
    associations := g.associations.filterMap fun _ targets =>
      let rest := targets.erase id
      if rest.isEmpty then none else some rest }
  modify fun g => { g with names := g.names.erase node.name }
  modify fun g => { g with nodes := g.nodes.erase id }

def setProperties (id : NodeId) (properties : Properties) : Edit Unit := do
  let node ← ask (·.node id)
  modify fun g => { g with nodes := g.nodes.insert id { node with properties } }

def assign (ascendant : NodeId) (descendants : List NodeId) : Edit Unit := do
  let _ ← ask (·.node ascendant)
  descendants.forM fun descendant => ask (·.checkAssignment ascendant descendant)
  descendants.forM (link ascendant)

def checkRemovals (ascendant : NodeId) (kind : NodeKind) : SortedSet NodeId → List NodeId → Edit Unit
  | _, [] => pure ()
  | remaining, descendant :: more => do
    let _ ← ask (·.node descendant)
    let rest := remaining.erase descendant
    if remaining.contains descendant ∧ rest.isEmpty ∧ kind ≠ .policyClass then
      throw (.disconnectedNode ascendant descendant)
    checkRemovals ascendant kind rest more

def deassign (ascendant : NodeId) (descendants : List NodeId) : Edit Unit := do
  let node ← ask (·.node ascendant)
  let remaining := (← get).below ascendant
  checkRemovals ascendant node.kind remaining descendants
  descendants.forM (unlink ascendant)

def associate (ua target : NodeId) (rights : AccessRights) : Edit Unit := do
  let source ← ask (·.node ua)
  if source.kind ≠ .userAttribute then throw (.invalidAssociation ua)
  let node ← ask (·.node target)
  if node.kind ≠ .userAttribute ∧ node.kind ≠ .objectAttribute then throw (.invalidAssociation target)
  ask (·.checkRights rights)
  modify fun g => { g with associations := g.associations.insert ua ((g.granted ua).insert target rights) }

def dissociate (ua target : NodeId) : Edit Unit := do
  let _ ← ask (·.node ua)
  let _ ← ask (·.node target)
  modify fun g => { g with
    associations := g.associations.alter ua fun targets? =>
      match targets? with
      | none => none
      | some targets =>
        let rest := targets.erase target
        if rest.isEmpty then none else some rest }

def createProhibition (p : Prohibition) : Edit Unit := do
  if (← get).prohibitions.contains p.name then throw (.prohibitionExists p.name)
  if let .node id := p.subject then discard (ask (·.node id))
  p.conditions.forM fun condition => discard (ask (·.node condition.container))
  ask (·.checkRights p.rights)
  modify fun g => { g with prohibitions := g.prohibitions.insert p.name p }

/-- A part of the graph that holds rules of one kind by their names. -/
structure Rules (α : Type) where
  all : Graph → SortedMap String α
  put : SortedMap String α → Graph → Graph
  put_all : ∀ g, put (all g) g = g

def prohibitions : Rules Prohibition :=
  ⟨Graph.prohibitions, fun all g => { g with prohibitions := all }, fun _ => rfl⟩
def obligations : Rules Obligation := ⟨Graph.obligations, fun all g => { g with obligations := all }, fun _ => rfl⟩
def operations : Rules Operation := ⟨Graph.operations, fun all g => { g with operations := all }, fun _ => rfl⟩
def routines : Rules Routine := ⟨Graph.routines, fun all g => { g with routines := all }, fun _ => rfl⟩

namespace Rules

def add (rules : Rules α) (name : String) (rule : α) (taken : String → PolicyError) : Edit Unit := do
  if (rules.all (← get)).contains name then throw (taken name)
  modify fun g => rules.put ((rules.all g).insert name rule) g

/-- Removes a rule first, and then reports whether there was one. -/
def remove (rules : Rules α) (name : String) (unknown : String → PolicyError) : Edit Unit := do
  let removed := (rules.all (← get)).get? name
  modify fun g => rules.put ((rules.all g).erase name) g
  if removed.isNone then throw (unknown name)

end Rules

/-- A change of the policy made in place. -/
def perform : Mutation → Edit Outcome
  | .createNode kind name descendants => return .nodeCreated (← createNode kind name descendants)
  | .deleteNode id => do deleteNode id; return .applied
  | .setProperties id properties => do setProperties id properties; return .applied
  | .assign ascendant descendants => do assign ascendant descendants; return .applied
  | .deassign ascendant descendants => do deassign ascendant descendants; return .applied
  | .associate ua target rights => do associate ua target rights; return .applied
  | .dissociate ua target => do dissociate ua target; return .applied
  | .createProhibition p => do createProhibition p; return .applied
  | .deleteProhibition name => do prohibitions.remove name .unknownProhibition; return .applied
  | .createObligation o => do obligations.add o.name o .obligationExists; return .applied
  | .deleteObligation name => do obligations.remove name .unknownObligation; return .applied
  | .createOperation o => do operations.add o.name o .operationExists; return .applied
  | .deleteOperation name => do operations.remove name .unknownOperation; return .applied
  | .setResourceOperations rights => do
    modify fun g => { g with resourceOperations := rights }
    return .applied
  | .createRoutine r => do routines.add r.name r .routineExists; return .applied
  | .deleteRoutine name => do routines.remove name .unknownRoutine; return .applied

/-! ### What they come to -/

/-- An edit that only asks. -/
def Asks (edit : Edit α) (question : Graph → Except PolicyError α) : Prop := ∀ g, edit.outcome g = (question g, g)

/-- An edit that only writes, and never fails. -/
def Writes (edit : Edit Unit) (f : Graph → Graph) : Prop := ∀ g, edit.outcome g = (.ok (), f g)

/-- What an edit of `g` gives back and leads to if it comes to a change that was worked out beside `g`. -/
def settled (g : Graph) : Except PolicyError (α × Graph) → Except PolicyError α × Graph
  | .ok (a, after) => (.ok a, after)
  | .error e => (.error e, g)

/-- An edit that leads to the graph of a change worked out beside it, or fails as that does and leaves
the graph as it was. -/
def Makes (edit : Edit α) (change : Graph → Except PolicyError (α × Graph)) : Prop :=
  ∀ g, edit.outcome g = settled g (change g)

/-- A change that gives nothing back but the graph after it. -/
def bare (change : Graph → Except PolicyError Graph) (g : Graph) : Except PolicyError (Unit × Graph) :=
  (change g).map ((), ·)

section
variable {question : Graph → Except PolicyError α} {edit second : Edit Unit} {f h : Graph → Graph}

private theorem asks_ask : Asks (ask question) question := fun _ => rfl

private theorem asks_forM {check : β → Edit Unit} {question : β → Graph → Except PolicyError Unit}
    (asks : ∀ item, Asks (check item) (question item)) (items : List β) :
    Asks (items.forM check) fun g => items.forM fun item => question item g := by
  intro g
  induction items with
  | nil => rfl
  | cons first rest ih =>
    change (check first >>= fun _ => rest.forM check).outcome g =
      (question first g >>= fun _ => rest.forM fun item => question item g, g)
    rw [outcome_bind, asks first g]
    cases question first g with
    | error e => rfl
    | ok u => exact ih

private theorem Asks.then {first : Edit α} {next : α → Edit β} {further : α → Graph → Except PolicyError β}
    (asks : Asks first question) (ask : ∀ a, Asks (next a) (further a)) :
    Asks (first >>= next) fun g => question g >>= (further · g) := by
  intro g
  rw [outcome_bind, asks g]
  dsimp only
  cases question g with
  | error e => rfl
  | ok a => exact ask a g

private theorem writes_modify : Writes (modify f) f := fun _ => rfl

private theorem Writes.then (first : Writes edit f) (next : Writes second h) :
    Writes (edit >>= fun _ => second) (h ∘ f) := by
  intro g
  rw [outcome_bind, first g]
  exact next (f g)

private theorem writes_forM {edit : β → Edit Unit} {f : Graph → β → Graph}
    (writes : ∀ item, Writes (edit item) (f · item)) (items : List β) : Writes (items.forM edit) (items.foldl f) := by
  intro g
  induction items generalizing g with
  | nil => rfl
  | cons first rest ih =>
    change (edit first >>= fun _ => rest.forM edit).outcome g = (.ok (), rest.foldl f (f g first))
    rw [outcome_bind, writes first g]
    exact ih (f g first)

private theorem Writes.makes (writes : Writes edit f) : Makes edit (bare fun g => .ok (f g)) := writes

/-- What is asked first decides what is made, or that nothing is. -/
private theorem Asks.makes {first : Edit α} {next : α → Edit Unit} {change : α → Graph → Except PolicyError Graph}
    (asks : Asks first question) (makes : ∀ a, Makes (next a) (bare (change a))) :
    Makes (first >>= next) (bare fun g => question g >>= (change · g)) := by
  intro g
  rw [outcome_bind, asks g, bare]
  cases question g with
  | error e => rfl
  | ok a => exact makes a g

/-- A change that is refused for some reason, and else made. -/
private theorem Makes.refusing {p : Prop} [Decidable p] {change : Graph → Except PolicyError Graph} (e : PolicyError)
    (makes : Makes edit (bare change)) :
    Makes
      (do
        if p then throw e
        edit)
      (bare fun g => do
        if p then throw e
        change g) := by
  by_cases refused : p
  · simp only [if_pos refused]
    exact fun _ => rfl
  · simp only [if_neg refused]
    exact makes

private theorem Makes.unless {change : Graph → Except PolicyError Graph} (p : Graph → Bool) (e : PolicyError)
    (makes : Makes edit (bare change)) :
    Makes
      (do
        if p (← get) then throw e
        edit)
      (bare fun g => do
        if p g then throw e
        change g) := by
  intro g
  rw [outcome_bind, outcome_get]
  exact makes.refusing e g

end

private theorem writes_link (ascendant descendant : NodeId) :
    Writes (link ascendant descendant) (·.link ascendant descendant) :=
  writes_modify.then writes_modify

private theorem writes_unlink (ascendant descendant : NodeId) :
    Writes (unlink ascendant descendant) (·.unlink ascendant descendant) :=
  writes_modify.then writes_modify

private theorem writes_linkAll (ascendant : NodeId) (descendants : List NodeId) :
    Writes (descendants.forM (link ascendant)) (·.linkAll ascendant descendants) :=
  writes_forM (writes_link ascendant) descendants

private theorem writes_unlinkAll (ascendant : NodeId) (descendants : List NodeId) :
    Writes (descendants.forM (unlink ascendant)) (·.unlinkAll ascendant descendants) :=
  writes_forM (writes_unlink ascendant) descendants

private theorem writes_addNode (id : NodeId) (kind : NodeKind) (name : String) (descendants : List NodeId) :
    Writes (addNode id kind name descendants) (·.addNode id kind name descendants) := by
  intro g
  have written := (@writes_modify fun g => { g with nodes := g.nodes.insert id ⟨id, kind, name, ∅⟩ }).then
    ((@writes_modify fun g => { g with names := g.names.insert name id }).then
      ((writes_linkAll id descendants).then (@writes_modify fun g => { g with lastId := max g.lastId id.value })))
  refine (written g).trans (congrArg (Prod.mk _) ?_)
  obtain ⟨_, _, linked⟩ := Graph.linkAll_shape
    { g with nodes := g.nodes.insert id ⟨id, kind, name, ∅⟩, names := g.names.insert name id } id descendants
  simp only [Function.comp, Graph.addNode, linked]

theorem makes_insertNode (id : NodeId) (kind : NodeKind) (name : String) (ds : List NodeId) :
    Makes (insertNode id kind name ds) (bare (·.insertNode id kind name ds)) :=
  .unless (·.nodes.contains id) _ (asks_ask.makes fun _ => (writes_addNode id kind name ds).makes)

theorem makes_deleteNode (id : NodeId) : Makes (deleteNode id) (bare (·.deleteNode id)) := by
  refine asks_ask.makes fun node => .unless (·.ascendants.contains id) _ ?_
  intro g
  rw [outcome_bind, outcome_get, bare]
  dsimp only
  cases g.prohibitions.values.find? (·.mentions id) with
  | some p => rfl
  | none =>
    -- The descendants are looked up before the first of them is unlinked.
    exact (writes_unlinkAll id (g.below id).toList).then
      (writes_modify.then (writes_modify.then (writes_modify.then writes_modify))) g

theorem makes_setProperties (id : NodeId) (properties : Properties) :
    Makes (setProperties id properties) (bare (·.setProperties id properties)) :=
  asks_ask.makes fun _ => writes_modify.makes

theorem makes_assign (ascendant : NodeId) (ds : List NodeId) : Makes (assign ascendant ds) (bare (·.assign ascendant ds)) :=
  asks_ask.makes fun _ => (asks_forM (fun _ => asks_ask) ds).makes fun _ => (writes_linkAll ascendant ds).makes

private theorem asks_checkRemovals (ascendant : NodeId) (kind : NodeKind) (remaining : SortedSet NodeId)
    (ds : List NodeId) :
    Asks (checkRemovals ascendant kind remaining ds) (·.checkRemovals ascendant kind remaining ds) := by
  induction ds generalizing remaining with
  | nil => exact fun _ => rfl
  | cons d ds ih =>
    refine asks_ask.then fun _ => ?_
    dsimp only
    split
    · exact fun _ => rfl
    · exact ih _

theorem makes_deassign (ascendant : NodeId) (ds : List NodeId) :
    Makes (deassign ascendant ds) (bare (·.deassign ascendant ds)) := by
  refine asks_ask.makes fun node => ?_
  intro g
  rw [outcome_bind, outcome_get]
  exact (asks_checkRemovals ascendant node.kind (g.below ascendant) ds).makes
    (fun _ => (writes_unlinkAll ascendant ds).makes) g

theorem makes_associate (ua target : NodeId) (rights : AccessRights) :
    Makes (associate ua target rights) (bare (·.associate ua target rights)) :=
  asks_ask.makes fun _ => .refusing _ (asks_ask.makes fun _ => .refusing _ (asks_ask.makes fun _ => writes_modify.makes))

theorem makes_dissociate (ua target : NodeId) : Makes (dissociate ua target) (bare (·.dissociate ua target)) :=
  asks_ask.makes fun _ => asks_ask.makes fun _ => writes_modify.makes

private theorem asks_discard (question : Graph → Except PolicyError α) :
    Asks (discard (ask question)) fun g => discard (question g) := by
  intro g
  change outcome (ask question >>= fun _ => pure ()) g = _
  rw [outcome_bind, asks_ask]
  dsimp only
  cases question g <;> rfl

theorem makes_createProhibition (p : Prohibition) : Makes (createProhibition p) (bare (·.createProhibition p)) := by
  refine .unless (·.prohibitions.contains p.name) _ ?_
  have conditions := asks_forM (fun condition : ContainerCondition => asks_discard (·.node condition.container)) p.conditions
  have others := conditions.makes fun _ => (@asks_ask _ (·.checkRights p.rights)).makes fun _ =>
    (@writes_modify fun g => { g with prohibitions := g.prohibitions.insert p.name p }).makes
  cases p.subject with
  | node id => exact (asks_discard (·.node id)).makes fun _ => others
  | process name => exact others

/-! ### All changes at once -/

private theorem Makes.applied {edit : Edit Unit} {change : Graph → Except PolicyError Graph}
    (makes : Makes edit (bare change)) :
    Makes (do edit; return Outcome.applied) fun g => do return (.applied, ← change g) := by
  intro g
  rw [outcome_bind, makes g, bare]
  dsimp only
  cases change g <;> rfl

theorem makes_add (rules : Rules α) (name : String) (rule : α) (taken : String → PolicyError) :
    Makes (do rules.add name rule taken; return Outcome.applied) fun g =>
      return (.applied, rules.put (← Graph.addNamed (rules.all g) name rule taken) g) := by
  intro g
  unfold Rules.add Graph.addNamed
  rw [outcome_bind, outcome_bind, outcome_get]
  dsimp only
  cases (rules.all g).contains name <;> rfl

theorem makes_remove (rules : Rules α) (name : String) (unknown : String → PolicyError) :
    Makes (do rules.remove name unknown; return Outcome.applied) fun g =>
      return (.applied, rules.put (← Graph.removeNamed (rules.all g) name unknown) g) := by
  intro g
  unfold Rules.remove Graph.removeNamed SortedMap.contains
  rw [outcome_bind, outcome_bind, outcome_get]
  dsimp only
  rw [outcome_bind, outcome_modify]
  cases found : (rules.all g).get? name with
  | some rule => rfl
  | none =>
    -- What is written back is what was there.
    rw [SortedMap.erase_of_get?_none found, rules.put_all]
    rfl

theorem makes_createNode (kind : NodeKind) (name : String) (ds : List NodeId) :
    Makes (createNode kind name ds) (·.createNode kind name ds) := by
  intro g
  unfold createNode Graph.createNode
  rw [outcome_bind, asks_ask]
  dsimp only
  cases g.checkNewNode kind name ds with
  | error e => rfl
  | ok u =>
    dsimp only
    rw [outcome_bind, outcome_get]
    dsimp only
    rw [outcome_bind, writes_addNode]
    rfl

/-- A change made in place comes to what it is beside the graph. -/
theorem makes_perform (m : Mutation) : Makes (perform m) (·.apply m) := by
  cases m with
  | createNode kind name ds =>
    intro g
    rw [perform, outcome_bind, makes_createNode]
    simp only [Graph.apply]
    cases g.createNode kind name ds <;> rfl
  | deleteNode id => exact (makes_deleteNode id).applied
  | setProperties id properties => exact (makes_setProperties id properties).applied
  | assign ascendant ds => exact (makes_assign ascendant ds).applied
  | deassign ascendant ds => exact (makes_deassign ascendant ds).applied
  | associate ua target rights => exact (makes_associate ua target rights).applied
  | dissociate ua target => exact (makes_dissociate ua target).applied
  | createProhibition p => exact (makes_createProhibition p).applied
  | deleteProhibition name => exact makes_remove prohibitions name _
  | createObligation o => exact makes_add obligations o.name o _
  | deleteObligation name => exact makes_remove obligations name _
  | createOperation o => exact makes_add operations o.name o _
  | deleteOperation name => exact makes_remove operations name _
  | setResourceOperations rights => exact fun _ => rfl
  | createRoutine r => exact makes_add routines r.name r _
  | deleteRoutine name => exact makes_remove routines name _

end Edit

namespace Store

/-- An edit of the graph of a store. -/
def edit {α : Type} (act : Edit α) : Action PolicyError Store α := act.within Store.graph fun graph s => { s with graph }

/-- Takes the innermost transaction off first, and then reports whether there was one. -/
def pop : Action PolicyError Store Graph := do
  let innermost := (← get).snapshots.head?
  modify fun s => { s with snapshots := s.snapshots.tail }
  match innermost with
  | some before => return before
  | none => throw .noTransaction

theorem perform_inPlace (m : Mutation) : perform m = edit (Edit.perform m) := by
  funext s
  change (perform m).outcome s = (edit (Edit.perform m)).outcome s
  rw [edit, outcome_within, Edit.makes_perform, perform, outcome_ofFunction]
  dsimp only
  cases s.graph.apply m <;> rfl

theorem insertNode_inPlace (id : NodeId) (kind : NodeKind) (name : String) (ds : List NodeId) :
    insertNode id kind name ds = edit (Edit.insertNode id kind name ds) := by
  funext s
  change (insertNode id kind name ds).outcome s = (edit (Edit.insertNode id kind name ds)).outcome s
  rw [edit, outcome_within, Edit.makes_insertNode, insertNode, outcome_ofFunction, Edit.bare]
  cases s.graph.insertNode id kind name ds <;> rfl

theorem commit_inPlace : commit = discard pop := by
  funext s
  rcases s with ⟨graph, _ | ⟨before, outer⟩⟩ <;> rfl

theorem rollback_inPlace : rollback = pop >>= fun before => modify fun s => { s with graph := before } := by
  funext s
  rcases s with ⟨graph, _ | ⟨before, outer⟩⟩ <;> rfl

end Store
end PolicyLedger
