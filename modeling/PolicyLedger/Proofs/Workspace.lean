import PolicyLedger.Proofs.Checked
import PolicyLedger.Proofs.Declaration
import PolicyLedger.Proofs.Replay
import PolicyLedger.Replication.Adjudication

/-!
What commands do to the workspace they are tried in. All of it comes down to changes made one after
the other, each of which either leaves the workspace alone or moves its graph and is recorded.
-/
namespace PolicyLedger
open PolicyLedger.Action

/-- Whether the text that a rule of a change carries is the declaration of that rule and nothing else. -/
def Mutation.Sourced : Mutation → Prop
  | createObligation o => Statement.compile o.source = .ok [.declare .obligation o.name o.source]
  | createOperation ⟨name, .declared source⟩ => Statement.compile source = .ok [.declare .operation name source]
  | createRoutine ⟨name, .declared source⟩ => Statement.compile source = .ok [.declare .routine name source]
  | _ => True

namespace Workspace

/-- The workspace after a change that led to a graph. -/
def moved (r : Workspace) (m : Mutation) (o : Outcome) (after : Graph) : Workspace :=
  { r with
    inner := { r.inner with store := { r.inner.store with graph := after } }
    events := r.events ++ (Recorder.recorded? r.plugins m o).toList }

private theorem inner_outcome (m : Mutation) (r : Workspace) :
    (Recorder.onInner (PolicyState.perform m)).outcome r = match r.inner.store.graph.apply m with
      | .ok (o, after) =>
        (.ok o, { r with inner := { r.inner with store := { r.inner.store with graph := after } } })
      | .error e => (.error e, r) := by
  have whole : (Recorder.onInner (PolicyState.perform m)).outcome r =
      (((Store.perform m).outcome r.inner.store).1,
        { r with inner := { r.inner with store := ((Store.perform m).outcome r.inner.store).2 } }) := rfl
  rw [whole, Store.perform, outcome_ofFunction]
  cases r.inner.store.graph.apply m <;> rfl

/-- A change is refused, fails on the graph, or moves the graph and is recorded. -/
theorem perform_outcome (m : Mutation) (r : Workspace) :
    (PolicyState.perform m).outcome r = match Recorder.refusal? r.plugins m with
      | some e => (.error e, r)
      | none =>
        match r.inner.store.graph.apply m with
        | .ok (o, after) => (.ok o, moved r m o after)
        | .error e => (.error e, r) := by
  show (Recorder.perform m).outcome r = _
  rw [Recorder.perform, outcome_bind, outcome_get]
  dsimp only
  cases Recorder.refusal? r.plugins m with
  | some e => rfl
  | none =>
    dsimp only
    rw [outcome_bind, inner_outcome]
    cases r.inner.store.graph.apply m <;> rfl

/-- One workspace leads to another by changes made one after the other, all of which pass a test. -/
inductive Leads (test : Mutation → Prop) : Workspace → Workspace → Prop
  | stay (r : Workspace) : Leads test r r
  | move {r r' : Workspace} {m : Mutation} {o : Outcome} {after : Graph} (tested : test m)
      (allowed : Recorder.refusal? r.plugins m = none) (made : r.inner.store.graph.apply m = .ok (o, after))
      (later : Leads test (moved r m o after) r') : Leads test r r'

variable {test : Mutation → Prop} {r r' r'' : Workspace} {ε α β : Type}

theorem Leads.trans (first : Leads test r r') (second : Leads test r' r'') : Leads test r r'' := by
  induction first with
  | stay => exact second
  | move tested allowed made _ ih => exact .move tested allowed made (ih second)

/-- Changes touch neither the transactions around them nor the set of plugins. -/
theorem Leads.frame (leads : Leads test r r') :
    r'.inner.depth = r.inner.depth ∧ r'.inner.store.snapshots = r.inner.store.snapshots ∧ r'.plugins = r.plugins := by
  induction leads with
  | stay => exact ⟨rfl, rfl, rfl⟩
  | move _ _ _ _ ih => exact ih

/-- How deep in transactions the changes are made does not matter. -/
private theorem Leads.atDepth (leads : Leads test r r') (depth : Nat) :
    Leads test { r with inner := { r.inner with depth } } { r' with inner := { r'.inner with depth } } := by
  induction leads with
  | stay r => exact .stay _
  | move tested allowed made _ ih => exact .move tested allowed made ih

/-- A step that does nothing to a workspace but make changes that pass a test, whether it succeeds or not. -/
def Makes (test : Mutation → Prop) (act : Action ε Workspace α) : Prop := ∀ r, Leads test r (act.outcome r).2

theorem makes_perform {m : Mutation} (tested : test m) : Makes test (PolicyState.perform m) := by
  intro r
  rw [perform_outcome]
  split
  · exact .stay r
  · rename_i allowed
    split
    · rename_i made
      exact .move tested allowed made (.stay _)
    · exact .stay r

private theorem makes_bind {act : Action ε Workspace α} {next : α → Action ε Workspace β} (first : Makes test act)
    (second : ∀ a, Makes test (next a)) : Makes test (act >>= next) := by
  intro r
  have begun := first r
  rw [outcome_bind]
  rcases result : act.outcome r with ⟨e | a, middle⟩
  · rwa [result] at begun
  · rw [result] at begun
    exact begun.trans (second a middle)

/-- What follows a step need only be known for the results the step has. -/
private theorem makes_bind_of {act : Action ε Workspace α} {next : α → Action ε Workspace β} (first : Makes test act)
    (second : ∀ r a, (act.outcome r).1 = .ok a → Makes test (next a)) : Makes test (act >>= next) := by
  intro r
  have begun := first r
  rw [outcome_bind]
  rcases result : act.outcome r with ⟨e | a, middle⟩
  · rwa [result] at begun
  · rw [result] at begun
    exact begun.trans (second r a (by rw [result]) middle)

private theorem makes_pure (a : α) : Makes test (pure a : Action ε Workspace α) := Leads.stay

theorem makes_ofExcept (result : Except ε α) : Makes test (Action.ofExcept result) := Leads.stay

private theorem makes_mapError {η : Type} {act : Action ε Workspace α} (makes : Makes test act) (f : ε → η) :
    Makes test (act.mapError f) := makes

end Workspace

/-! ### The changes that commands ask for -/

namespace Command

/-- The change a command names itself. -/
def change? : Command → Option Mutation
  | createPolicyClass name => some (.createNode .policyClass name [])
  | createUserAttribute name ds => some (.createNode .userAttribute name ds)
  | createObjectAttribute name ds => some (.createNode .objectAttribute name ds)
  | createUser name ds => some (.createNode .user name ds)
  | createObject name ds => some (.createNode .object name ds)
  | deleteNode id => some (.deleteNode id)
  | setProperties id properties => some (.setProperties id properties)
  | assign ascendant ds => some (.assign ascendant ds)
  | deassign ascendant ds => some (.deassign ascendant ds)
  | associate ua target rights => some (.associate ua target rights)
  | dissociate ua target => some (.dissociate ua target)
  | createProhibition prohibition => some (.createProhibition prohibition)
  | deleteProhibition name => some (.deleteProhibition name)
  | deleteObligation name => some (.deleteObligation name)
  | deleteOperation name => some (.deleteOperation name)
  | setResourceOperations rights => some (.setResourceOperations rights)
  | deleteRoutine name => some (.deleteRoutine name)
  | createObligation _ | createOperation _ | createRoutine _ | runText _ => none

/-- The policy text a command carries. -/
def text? : Command → Option String
  | createObligation source | createOperation source | createRoutine source | runText source => some source
  | _ => none

/-- Whether a command of this author may ask for a change: it names it, or a statement of its text does. -/
inductive Asks (author : Author) (c : Command) : Mutation → Prop
  | named {m : Mutation} (names : c.change? = some m) : Asks author c m
  | written {m : Mutation} {source : String} {statements : List Statement} {s : Statement} {g : Graph}
      (carries : c.text? = some source) (compiled : Statement.compile source = .ok statements)
      (member : s ∈ statements) (resolved : s.resolve g author = .ok m) : Asks author c m

/-- Commands never ask for a rule whose text is anything but its declaration. -/
theorem Asks.sourced {author : Author} {c : Command} {m : Mutation} (asks : Asks author c m) : m.Sourced := by
  cases asks with
  | named names => cases c <;> cases names <;> trivial
  | written carries compiled member resolved =>
    rename_i source statements s g
    cases s with
    | declare kind name text =>
      have alone := (Statement.compile_declaration compiled member).2
      cases kind <;> cases resolved <;> exact alone
    | delete target name =>
      cases target with
      | node =>
        obtain ⟨_, _, made⟩ := bind_eq_ok.mp resolved
        cases made
        trivial
      | prohibition => cases resolved; trivial
      | declaration kind => cases kind <;> cases resolved <;> trivial
    | createPolicyClass name => cases resolved; trivial
    | setResourceOperations rights => cases resolved; trivial
    | createNode kind name ds =>
      obtain ⟨_, _, made⟩ := bind_eq_ok.mp resolved
      cases made
      trivial
    | assign ascendant ds =>
      obtain ⟨_, _, rest⟩ := bind_eq_ok.mp resolved
      obtain ⟨_, _, made⟩ := bind_eq_ok.mp rest
      cases made
      trivial
    | deassign ascendant ds =>
      obtain ⟨_, _, rest⟩ := bind_eq_ok.mp resolved
      obtain ⟨_, _, made⟩ := bind_eq_ok.mp rest
      cases made
      trivial
    | associate ua target rights =>
      obtain ⟨_, _, rest⟩ := bind_eq_ok.mp resolved
      obtain ⟨_, _, made⟩ := bind_eq_ok.mp rest
      cases made
      trivial

end Command

namespace Workspace

variable {test : Mutation → Prop} {r : Workspace}

private theorem makes_statement {author : Author} {s : Statement}
    (tested : ∀ g m, s.resolve g author = .ok m → test m) : Makes test (s.execute author) := by
  intro r
  rw [Statement.execute, outcome_bind, outcome_get]
  dsimp only
  rw [outcome_bind, outcome_ofExcept]
  cases resolved : s.resolve (PolicyState.graph r) author with
  | error e => exact .stay r
  | ok m => exact makes_perform (tested _ m resolved) r

private theorem makes_statements {author : Author} {statements : List Statement}
    (tested : ∀ s ∈ statements, ∀ g m, s.resolve g author = .ok m → test m) :
    Makes test (Statement.executeAll author statements) := by
  induction statements with
  | nil => exact makes_pure []
  | cons s rest ih =>
    refine makes_bind (makes_statement (tested s (.head _))) ?_
    intro outcome
    exact makes_bind (ih fun other member => tested other (.tail _ member)) fun _ => makes_pure _

private theorem makes_text {author : Author} {source : String}
    (tested : ∀ statements, Statement.compile source = .ok statements → ∀ s ∈ statements,
      ∀ g m, s.resolve g author = .ok m → test m) : Makes test (Statement.run author source) := by
  refine makes_bind_of (makes_ofExcept _) ?_
  intro _ statements found
  exact makes_statements (tested statements (mapError_eq_ok.mp found))

/-- The one declaration of a text is a statement of it. -/
private theorem singleDeclaration_mem {kind : DeclarationKind} {source : String} {s : Statement}
    (found : Command.singleDeclaration kind source = .ok s) : Statement.compile source = .ok [s] := by
  unfold Command.singleDeclaration at found
  split at found
  · cases found
  · rename_i statement read
    split at found
    · cases found
      exact mapError_eq_ok.mp read
    · cases found
  · cases found

private theorem makes_declare {author : Author} {kind : DeclarationKind} {source : String}
    (tested : ∀ statements, Statement.compile source = .ok statements → ∀ s ∈ statements,
      ∀ g m, s.resolve g author = .ok m → test m) : Makes test (Command.declare author kind source) := by
  refine makes_bind_of (makes_ofExcept _) fun _ s found => makes_mapError (makes_statement ?_) _
  exact tested [s] (singleDeclaration_mem found) s (.head _)

theorem makes_execute {author : Author} {c : Command} (tested : ∀ m, c.Asks author m → test m) :
    Makes test (c.execute author) := by
  have named {m : Mutation} (names : c.change? = some m) : Makes test (Command.change m) :=
    makes_mapError (makes_perform (tested m (.named names))) _
  have written {source : String} (carries : c.text? = some source) (statements : List Statement)
      (compiled : Statement.compile source = .ok statements) (s : Statement) (member : s ∈ statements) (g : Graph)
      (m : Mutation) (resolved : s.resolve g author = .ok m) : test m :=
    tested m (.written carries compiled member resolved)
  cases c with
  | createObligation source => exact makes_declare (written rfl)
  | createOperation source => exact makes_declare (written rfl)
  | createRoutine source => exact makes_declare (written rfl)
  | runText source => exact makes_bind (makes_mapError (makes_text (written rfl)) _) fun _ => makes_pure _
  | _ => exact named rfl

private theorem makes_executeSequence {author : Author} {commands : List Command}
    (tested : ∀ c ∈ commands, ∀ m, c.Asks author m → test m) :
    Makes test (Command.executeSequence author commands) := by
  induction commands with
  | nil => exact makes_pure []
  | cons c rest ih =>
    refine makes_bind (makes_execute (tested c (.head _))) ?_
    intro outcome
    exact makes_bind (ih fun other member => tested other (.tail _ member)) fun _ => makes_pure _

private theorem begin_outcome {r : Workspace} (begun : 0 < r.inner.depth) :
    (Transactional.begin (σ := Workspace)).outcome r =
      (.ok (), { r with inner := { r.inner with depth := r.inner.depth + 1 } }) := by
  change (((Scratch.begin (σ := Store)).outcome r.inner).1,
    { r with inner := ((Scratch.begin (σ := Store)).outcome r.inner).2 }) = _
  rw [Scratch.begin, outcome_bind, outcome_get]
  dsimp only
  rw [if_neg (by omega)]
  rfl

/-- Closing an inner transaction, either way, leaves what was done in it. -/
private theorem close_outcome {r : Workspace} {depth : Nat} (inside : r.inner.depth = depth + 1) (begun : 0 < depth) :
    (Transactional.commit (σ := Workspace)).outcome r = (.ok (), { r with inner := { r.inner with depth } }) ∧
      (Transactional.rollback (σ := Workspace)).outcome r = (.ok (), { r with inner := { r.inner with depth } }) := by
  have closed : (Scratch.close (σ := Store)).outcome r.inner = (.ok (), { r.inner with depth }) := by
    rw [Scratch.close, outcome_bind, outcome_get]
    dsimp only
    rw [inside]
    dsimp only
    rw [if_neg (by omega)]
    rfl
  have whole : (((Scratch.close (σ := Store)).outcome r.inner).1,
      ({ r with inner := ((Scratch.close (σ := Store)).outcome r.inner).2 } : Workspace)) =
      (.ok (), { r with inner := { r.inner with depth } }) := by rw [closed]
  exact ⟨whole, whole⟩

/-- Inside of an open transaction, a batch is the sequence of its commands. -/
theorem executeBatch_outcome {author : Author} {commands : List Command} {r after : Workspace}
    {result : Except CommandError (List Outcome)} (begun : 0 < r.inner.depth)
    (executed : (Command.executeSequence author commands).outcome
      { r with inner := { r.inner with depth := r.inner.depth + 1 } } = (result, after))
    (inside : after.inner.depth = r.inner.depth + 1) :
    (Command.executeBatch author commands).outcome r =
      (result, { after with inner := { after.inner with depth := r.inner.depth } }) := by
  have closed := close_outcome inside begun
  unfold Command.executeBatch
  rw [outcome_bind, outcome_mapError, begin_outcome begun]
  dsimp only [Except.mapError]
  rw [outcome_bind, outcome_attempt, executed]
  cases result with
  | ok outcomes =>
    dsimp only
    rw [outcome_bind, outcome_mapError, closed.1]
    rfl
  | error e =>
    dsimp only
    rw [outcome_bind, outcome_mapError, closed.2]
    rfl

/-- Inside of an open transaction, a batch too only makes the changes that its commands ask for. -/
theorem leads_executeBatch {author : Author} {commands : List Command} {r : Workspace}
    (tested : ∀ c ∈ commands, ∀ m, c.Asks author m → test m) (begun : 0 < r.inner.depth) :
    Leads test r ((Command.executeBatch author commands).outcome r).2 := by
  have leads := makes_executeSequence tested { r with inner := { r.inner with depth := r.inner.depth + 1 } }
  rw [executeBatch_outcome begun rfl leads.frame.1]
  exact leads.atDepth r.inner.depth

end Workspace
end PolicyLedger
