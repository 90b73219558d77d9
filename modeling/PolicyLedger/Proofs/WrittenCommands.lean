import PolicyLedger.Proofs.Tidy
import PolicyLedger.Proofs.WrittenText

/-!
Commands said in words. Most commands can be written as a statement, with the nodes called by the names the
graph has for them. The names lead back to the nodes, so it makes no difference whether a command is given or
its text is: the same change is passed on, and refused or recorded the same.
-/
namespace PolicyLedger
open PolicyLedger.Action

/-! ### Names for nodes -/

namespace Graph

variable {g : Graph} {id : NodeId} {name : String} {ids : List NodeId} {names : List String}

/-- The name of a node, if there is one under the identifier. -/
def name? (g : Graph) (id : NodeId) : Option String := (g.nodes.get? id).map (·.name)

private theorem exists_name (known : g.nodes.contains id = true) : ∃ name, g.name? id = some name := by
  obtain ⟨node, found⟩ := node_of_contains known
  exact ⟨node.name, by simp [name?, node_eq_ok.mp found]⟩

private theorem exists_names (known : ∀ id ∈ ids, g.nodes.contains id = true) :
    ∃ names, ids.mapM g.name? = some names := by
  induction ids with
  | nil => exact ⟨[], rfl⟩
  | cons id rest ih =>
    obtain ⟨here, others⟩ := List.forall_mem_cons.mp known
    obtain ⟨name, named⟩ := exists_name here
    obtain ⟨names, namedRest⟩ := ih others
    exact ⟨name :: names, by simp [named, namedRest]⟩

/-- A node is found again by its name. -/
private theorem Tidy.nodeId_of_name (tidy : g.Tidy) (named : g.name? id = some name) : g.nodeId name = .ok id := by
  obtain ⟨node, found, rfl⟩ := Option.map_eq_some_iff.mp named
  simp [nodeId, tidy.named id node found]

private theorem Tidy.nodeIds_of_names (tidy : g.Tidy) (named : ids.mapM g.name? = some names) :
    names.mapM g.nodeId = .ok ids := by
  induction ids generalizing names with
  | nil =>
    cases named
    rfl
  | cons id rest ih =>
    simp only [List.mapM_cons, Option.pure_def, Option.bind_eq_bind, Option.bind_eq_some_iff,
      Option.some.injEq] at named
    obtain ⟨name, first, namesRest, others, rfl⟩ := named
    simp [tidy.nodeId_of_name first, ih others]

end Graph

namespace Command
open Statement (compile)

variable {g : Graph} {author : Author} {c : Command} {st : Statement} {ids : List NodeId}

/-! ### Statements for commands -/

/-- The nodes that have to be called by name to put a command into a statement. There is none for a command that
carries text itself, nor one that sets properties, takes an association away or creates a prohibition. -/
def calls? : Command → Option (List NodeId)
  | createPolicyClass _ | setResourceOperations _ => some []
  | createUserAttribute _ ds | createObjectAttribute _ ds | createUser _ ds | createObject _ ds => some ds
  | deleteNode id => some [id]
  | assign ascendant ds | deassign ascendant ds => some (ascendant :: ds)
  | associate ua target _ => some [ua, target]
  | deleteProhibition _ | deleteObligation _ | deleteOperation _ | deleteRoutine _ => some []
  | setProperties .. | dissociate .. | createProhibition _ => none
  | createObligation _ | createOperation _ | createRoutine _ | runText _ => none

/-- The statement of a command, with nodes called by the names they have in a graph. -/
def statement? (g : Graph) : Command → Option Statement
  | createPolicyClass name => some (.createPolicyClass name)
  | createUserAttribute name ds => return .createNode .userAttribute name (← ds.mapM g.name?)
  | createObjectAttribute name ds => return .createNode .objectAttribute name (← ds.mapM g.name?)
  | createUser name ds => return .createNode .user name (← ds.mapM g.name?)
  | createObject name ds => return .createNode .object name (← ds.mapM g.name?)
  | deleteNode id => return .delete .node (← g.name? id)
  | assign ascendant ds => return .assign (← g.name? ascendant) (← ds.mapM g.name?)
  | deassign ascendant ds => return .deassign (← g.name? ascendant) (← ds.mapM g.name?)
  | associate ua target rights => return .associate (← g.name? ua) (← g.name? target) rights
  | setResourceOperations rights => some (.setResourceOperations rights)
  | deleteProhibition name => some (.delete .prohibition name)
  | deleteObligation name => some (.delete (.declaration .obligation) name)
  | deleteOperation name => some (.delete (.declaration .operation) name)
  | deleteRoutine name => some (.delete (.declaration .routine) name)
  | setProperties .. | dissociate .. | createProhibition _ => none
  | createObligation _ | createOperation _ | createRoutine _ | runText _ => none

/-- The command that hands in the text of a declaration. -/
def declaring : DeclarationKind → String → Command
  | .obligation => createObligation
  | .operation => createOperation
  | .routine => createRoutine

/-- There is a statement for a command if all its nodes are there. -/
theorem exists_statement (worded : c.calls? = some ids) (known : ∀ id ∈ ids, g.nodes.contains id = true) :
    ∃ st, c.statement? g = some st := by
  rw [← Option.isSome_iff_exists]
  cases c <;> cases worded
  case createUserAttribute | createObjectAttribute | createUser | createObject =>
    obtain ⟨names, named⟩ := Graph.exists_names known
    simp [statement?, named]
  case assign ascendant ds | deassign ascendant ds =>
    obtain ⟨here, others⟩ := List.forall_mem_cons.mp known
    obtain ⟨name, first⟩ := Graph.exists_name here
    obtain ⟨names, named⟩ := Graph.exists_names others
    simp [statement?, first, named]
  case deleteNode id =>
    obtain ⟨name, named⟩ := Graph.exists_name (known id (.head _))
    simp [statement?, named]
  case associate ua target rights =>
    obtain ⟨name, first⟩ := Graph.exists_name (known ua (.head _))
    obtain ⟨name', second⟩ := Graph.exists_name (known target (.tail _ (.head _)))
    simp [statement?, first, second]
  all_goals rfl

/-- The statement of a command asks for the change that the command names. It is no declaration, and it does not
place a policy class in other nodes. -/
private theorem statement_cases (tidy : g.Tidy) (author : Author) (said : c.statement? g = some st) :
    (∃ m, c.change? = some m ∧ st.resolve g author = .ok m) ∧
      (∀ name ds, st ≠ .createNode .policyClass name ds) ∧ ∀ kind name source, st ≠ .declare kind name source := by
  cases c <;> simp only [statement?, Option.pure_def, Option.bind_eq_bind, Option.bind_eq_some_iff, reduceCtorEq,
    Option.some.injEq] at said
  case createUserAttribute | createObjectAttribute | createUser | createObject =>
    obtain ⟨names, named, rfl⟩ := said
    refine ⟨⟨_, rfl, ?_⟩, nofun, nofun⟩
    simp [Statement.resolve, tidy.nodeIds_of_names named]
  case assign | deassign =>
    obtain ⟨name, first, names, named, rfl⟩ := said
    refine ⟨⟨_, rfl, ?_⟩, nofun, nofun⟩
    simp [Statement.resolve, tidy.nodeId_of_name first, tidy.nodeIds_of_names named]
  case deleteNode =>
    obtain ⟨name, named, rfl⟩ := said
    refine ⟨⟨_, rfl, ?_⟩, nofun, nofun⟩
    simp [Statement.resolve, tidy.nodeId_of_name named]
  case associate =>
    obtain ⟨name, first, name', second, rfl⟩ := said
    refine ⟨⟨_, rfl, ?_⟩, nofun, nofun⟩
    simp [Statement.resolve, tidy.nodeId_of_name first, tidy.nodeId_of_name second]
  all_goals
    subst said
    exact ⟨⟨_, rfl, rfl⟩, nofun, nofun⟩

private theorem compile_statement (tidy : g.Tidy) (said : c.statement? g = some st)
    (plain : ∀ text ∈ st.strings, Quotable text) : compile st.render = .ok [st] := by
  obtain ⟨_, placed, bare⟩ := statement_cases tidy ⟨⟨0⟩, none⟩ said
  refine Statement.compile_render ⟨plain, placed, ?_⟩
  intro kind name source same
  exact absurd same (bare kind name source)

/-! ### Texts that hold one statement -/

section
variable {σ : Type} [PolicyState σ] {m : Mutation} {source : String}

/-- What comes of a step, without what it gives back if it succeeds. -/
def reported (outcome : Except CommandError Outcome × σ) : Except CommandError Outcome × σ :=
  (outcome.1.map fun _ => .applied, outcome.2)

private theorem execute_of_change? (names : c.change? = some m) :
    c.execute author = (change m : Action CommandError σ Outcome) := by
  cases c <;> cases names <;> rfl

/-- A text of one statement does what the statement does, and reports that it was applied. -/
private theorem runText_outcome (compiled : compile source = .ok [st]) (s : σ) :
    ((runText source).execute author).outcome s =
      reported (((st.execute author).mapError .policy).outcome s) := by
  have read : Statement.read source = .ok [st] := by
    rw [Statement.read, compiled]
    rfl
  simp only [execute, Statement.run, read, Statement.executeAll, outcome_bind, outcome_mapError, outcome_ofExcept,
    reported]
  rcases (st.execute author).outcome s with ⟨e | o, after⟩ <;> rfl

private theorem execute_declaring {kind : DeclarationKind} {name text : String}
    (compiled : compile source = .ok [.declare kind name text]) (s : σ) :
    ((declaring kind source).execute author).outcome s =
      (((Statement.declare kind name text).execute author).mapError .policy).outcome s := by
  have single : singleDeclaration kind source = .ok (.declare kind name text) := by
    rw [singleDeclaration, Statement.read, compiled]
    exact if_pos rfl
  have named :
      (declaring kind source).execute author = (declare author kind source : Action CommandError σ Outcome) := by
    cases kind <;> rfl
  rw [named, declare, outcome_bind, outcome_ofExcept, single]

/-- A command of which there is a statement passes the change on that the statement asks for. -/
private theorem execute_said {s : σ} (tidy : (PolicyState.graph s).Tidy)
    (said : c.statement? (PolicyState.graph s) = some st) :
    (c.execute author).outcome s = ((st.execute author).mapError .policy).outcome s := by
  obtain ⟨⟨m, names, resolved⟩, _⟩ := statement_cases tidy author said
  rw [execute_of_change? names, change, outcome_mapError, outcome_mapError, Event.execute_outcome, resolved]

end

/-- On a recorder over anything that shows a graph a store can have, a command whose nodes are there does what its
text does: both leave the same graph and the same events, and both fail for the same reason or neither does.
The names and rights in it must have no quotes. A command that hands in the text of a declaration does what the
text does. -/
theorem text_acts_as_command {σ : Type} [PolicyState σ] {s : Store} (reachable : s.Reachable) (author : Author)
    (r : Recorder σ) (shown : PolicyState.graph r = s.graph) :
    (∀ (c : Command) (ids : List NodeId), c.calls? = some ids →
      (∀ id ∈ ids, (PolicyState.graph r).nodes.contains id = true) →
      ∃ st, c.statement? (PolicyState.graph r) = some st ∧ ((∀ text ∈ st.strings, Quotable text) →
        ((runText st.render).execute author).outcome r = reported ((c.execute author).outcome r))) ∧
    ∀ kind source name text, compile source = .ok [.declare kind name text] →
      ((runText source).execute author).outcome r = reported (((declaring kind source).execute author).outcome r) := by
  have tidy : (PolicyState.graph r).Tidy := shown ▸ reachable.tidy.1
  constructor
  · intro c ids worded known
    obtain ⟨st, said⟩ := exists_statement worded known
    refine ⟨st, said, ?_⟩
    intro plain
    rw [runText_outcome (compile_statement tidy said plain), execute_said tidy said]
  · intro kind source name text compiled
    rw [runText_outcome compiled, execute_declaring compiled]

/-- A hospital with a routine that comes from a plugin. -/
def clinic : Recorder Store := { inner := .ofChanges Store.hospital, plugins := .ofList ["sweep"] }

/-- A nurse is admitted and a routine of the plugin created; of the routine there is no event. -/
theorem ann_admitted :
    (createUser "ann" [⟨2⟩]).statement? clinic.inner.graph = some (.createNode .user "ann" ["nurses"]) ∧
      (((runText "create u \"ann\" in [\"nurses\"]").execute ⟨⟨4⟩, none⟩).outcome clinic).2.events =
        [.userCreated ⟨5⟩ "ann" [⟨2⟩]] ∧
      (((runText "create routine \"sweep\" \x7b\x7d").execute ⟨⟨4⟩, none⟩).outcome clinic).2.events = [] := by
  have acts := text_acts_as_command (Store.reachable_ofChanges Store.hospital) ⟨⟨4⟩, none⟩ clinic rfl
  have said : (createUser "ann" [⟨2⟩]).statement? clinic.inner.graph = some (.createNode .user "ann" ["nurses"]) := by
    decide +kernel
  refine ⟨said, ?_, ?_⟩
  · obtain ⟨st, named, same⟩ := acts.1 (createUser "ann" [⟨2⟩]) [⟨2⟩] rfl (by decide +kernel)
    obtain rfl : Statement.createNode .user "ann" ["nurses"] = st := Option.some.inj (said.symm.trans named)
    have written : Statement.render (.createNode .user "ann" ["nurses"]) = "create u \"ann\" in [\"nurses\"]" := by
      decide +kernel
    rw [← written, same (by decide)]
    decide +kernel
  · rw [acts.2 .routine _ "sweep" "create routine \"sweep\" \x7b\x7d" (by decide +kernel)]
    decide +kernel

end Command
end PolicyLedger
