import PolicyLedger.Proofs.Declaration
import PolicyLedger.Proofs.GraphNumbering
import PolicyLedger.Replication.Replica

/-!
Events repeated on a graph. A store follows its graph: repeating an event changes nothing else, and
nothing at all where it fails. What was made as a change is made again by the event that tells of it.
-/
namespace PolicyLedger
open PolicyLedger.Action

/-- A store moved on to a new graph, or left alone if there is none. -/
def Store.settle {ε : Type} (result : Except ε Graph) (s : Store) : Except ε Unit × Store :=
  match result with
  | .ok after => (.ok (), { s with graph := after })
  | .error e => (.error e, s)

/-- The graph that repeating an event leads to. -/
def Graph.replay (g : Graph) (e : Event) : Except ReplayError Graph :=
  match e.replay.outcome { graph := g } with
  | (.ok (), s) => .ok s.graph
  | (.error x, _) => .error x

/-- The graph that repeating events one after the other leads to. -/
def Graph.replayAll (g : Graph) (events : List Event) : Except ReplayError Graph := events.foldlM Graph.replay g

/-- The graph that repeating an event leads to, as it was recorded. -/
def Graph.replayRecord (g : Graph) (recorded : Recorded) : Except ReplayError Graph := do
  let e ← recorded.event.mapError .decode
  g.replay e

/-- The graph that repeating recorded events one after the other leads to. -/
def Graph.replayRecords (g : Graph) (events : List Recorded) : Except ReplayError Graph :=
  events.foldlM Graph.replayRecord g

namespace Event
open PolicyLedger.Graph

variable {g after : Graph}

private theorem insert_outcome (id : NodeId) (kind : NodeKind) (name : String) (ds : List NodeId) (s : Store) :
    ((Store.insertNode id kind name ds).mapError ReplayError.policy).outcome s =
      s.settle ((s.graph.insertNode id kind name ds).mapError .policy) := by
  rw [outcome_mapError, Store.insertNode, outcome_ofFunction]
  cases s.graph.insertNode id kind name ds <;> rfl

private theorem change_outcome (m : Mutation) (s : Store) :
    (do let _ ← (Store.perform m).mapError ReplayError.policy : Action ReplayError Store Unit).outcome s =
      s.settle (((s.graph.apply m).map Prod.snd).mapError .policy) := by
  rw [outcome_bind, outcome_mapError, Store.perform, outcome_ofFunction]
  cases s.graph.apply m <;> rfl

/-- A declaration is repeated once its text is known to be that declaration. -/
private theorem declared_outcome (kind : DeclarationKind) (name source : String) (m : Mutation) (s : Store) :
    (do
      let _ ← Action.ofExcept (declaration kind name source)
      let _ ← (Store.perform m).mapError ReplayError.policy : Action ReplayError Store Unit).outcome s =
      s.settle (match declaration kind name source with
        | .error x => .error x
        | .ok _ => ((s.graph.apply m).map Prod.snd).mapError .policy) := by
  rw [outcome_bind, outcome_ofExcept]
  cases declaration kind name source with
  | error x => rfl
  | ok statement => exact change_outcome m s

theorem execute_outcome {σ : Type} [PolicyState σ] (author : Author) (statement : Statement) (s : σ) :
    (statement.execute author).outcome s = match statement.resolve (PolicyState.graph s) author with
      | .error x => (.error x, s)
      | .ok m => (PolicyState.perform m).outcome s := by
  rw [Statement.execute, outcome_bind, outcome_get]
  dsimp only
  rw [outcome_bind, outcome_ofExcept]
  cases statement.resolve (PolicyState.graph s) author <;> rfl

private theorem obligation_outcome (o : Obligation) (s : Store) :
    (obligationCreated o).replay.outcome s =
      s.settle (match declaration .obligation o.name o.source with
        | .error x => .error x
        | .ok statement =>
          match statement.resolve s.graph o.author with
          | .error x => .error (.policy x)
          | .ok m => ((s.graph.apply m).map Prod.snd).mapError .policy) := by
  rw [replay, outcome_bind, outcome_ofExcept]
  cases declaration .obligation o.name o.source with
  | error x => rfl
  | ok statement =>
    dsimp only
    rw [outcome_bind, outcome_mapError, execute_outcome, show PolicyState.graph s = s.graph from rfl]
    cases statement.resolve s.graph o.author with
    | error x => rfl
    | ok m =>
      dsimp only
      rw [show PolicyState.perform m = Store.perform m from rfl, Store.perform, outcome_ofFunction]
      cases s.graph.apply m <;> rfl

/-- What repeating an event makes of a graph, told without a store around it. -/
def effect (g : Graph) : Event → Except ReplayError Graph
  | policyClassCreated id name => (g.insertNode id .policyClass name []).mapError .policy
  | userAttributeCreated id name ds => (g.insertNode id .userAttribute name ds).mapError .policy
  | objectAttributeCreated id name ds => (g.insertNode id .objectAttribute name ds).mapError .policy
  | userCreated id name ds => (g.insertNode id .user name ds).mapError .policy
  | objectCreated id name ds => (g.insertNode id .object name ds).mapError .policy
  | nodeDeleted id => changed (.deleteNode id)
  | propertiesSet id properties => changed (.setProperties id properties)
  | assignmentCreated ascendant ds => changed (.assign ascendant ds)
  | assignmentDeleted ascendant ds => changed (.deassign ascendant ds)
  | associationCreated ua target rights => changed (.associate ua target rights)
  | associationDeleted ua target => changed (.dissociate ua target)
  | prohibitionCreated prohibition => changed (.createProhibition prohibition)
  | prohibitionDeleted name => changed (.deleteProhibition name)
  | obligationCreated o =>
    match declaration .obligation o.name o.source with
    | .error x => .error x
    | .ok statement =>
      match statement.resolve g o.author with
      | .error x => .error (.policy x)
      | .ok m => changed m
  | obligationDeleted name => changed (.deleteObligation name)
  | operationCreated name source =>
    match declaration .operation name source with
    | .error x => .error x
    | .ok _ => changed (.createOperation ⟨name, .declared source⟩)
  | operationDeleted name => changed (.deleteOperation name)
  | resourceOperationsSet rights => changed (.setResourceOperations rights)
  | routineCreated name source =>
    match declaration .routine name source with
    | .error x => .error x
    | .ok _ => changed (.createRoutine ⟨name, .declared source⟩)
  | routineDeleted name => changed (.deleteRoutine name)
where
  changed (m : Mutation) : Except ReplayError Graph := ((g.apply m).map Prod.snd).mapError .policy

private theorem outcome_effect (e : Event) (s : Store) : e.replay.outcome s = s.settle (effect s.graph e) := by
  cases e with
  | policyClassCreated id name => exact insert_outcome id .policyClass name [] s
  | userAttributeCreated id name ds => exact insert_outcome id .userAttribute name ds s
  | objectAttributeCreated id name ds => exact insert_outcome id .objectAttribute name ds s
  | userCreated id name ds => exact insert_outcome id .user name ds s
  | objectCreated id name ds => exact insert_outcome id .object name ds s
  | obligationCreated o => exact obligation_outcome o s
  | operationCreated name source => exact declared_outcome .operation name source _ s
  | routineCreated name source => exact declared_outcome .routine name source _ s
  | _ => exact change_outcome _ s

theorem replay_eq_effect (e : Event) : g.replay e = effect g e := by
  unfold Graph.replay
  rw [outcome_effect]
  cases effect g e <;> rfl

/-- Repeating an event moves a store on to the graph it leads to. -/
theorem replay_outcome (e : Event) (s : Store) : e.replay.outcome s = s.settle (s.graph.replay e) := by
  rw [outcome_effect, replay_eq_effect]

/-- The identifier of the node an event tells was created. -/
def creates? : Event → Option NodeId
  | policyClassCreated id _ => some id
  | userAttributeCreated id .. | objectAttributeCreated id .. | userCreated id .. | objectCreated id .. => some id
  | _ => none

theorem creates?_nodeCreated (kind : NodeKind) (id : NodeId) (name : String) (ds : List NodeId) :
    (nodeCreated kind id name ds).creates? = some id := by cases kind <;> rfl

theorem changed_eq_ok {m : Mutation} : effect.changed g m = .ok after ↔ ∃ o, g.apply m = .ok (o, after) := by
  unfold effect.changed
  rw [mapError_eq_ok]
  constructor
  · intro found
    cases made : g.apply m with
    | error x =>
      rw [made] at found
      cases found
    | ok result =>
      rw [made] at found
      cases found
      exact ⟨result.1, rfl⟩
  · rintro ⟨o, made⟩
    rw [made]
    rfl

/-- A change that creates no node gives no identifier. -/
private theorem changed_shape {m : Mutation} (found : effect.changed g m = .ok after)
    (other : ∀ kind name ds, m ≠ .createNode kind name ds) :
    after.lastId = g.lastId ∧ (g.Numbered → after.Numbered) := by
  obtain ⟨_, made⟩ := changed_eq_ok.mp found
  rcases apply_shape made with ⟨kind, name, ds, rfl, _⟩ | ⟨_, last, _⟩
  · exact absurd rfl (other kind name ds)
  · exact ⟨last, (apply_numbered made).2⟩

/-- The text of a declaration declares. -/
theorem declaration_ok {kind : DeclarationKind} {name source : String} {statement : Statement}
    (found : declaration kind name source = .ok statement) : ∃ text, statement = .declare kind name text := by
  unfold declaration at found
  split at found
  · cases found
  · rename_i text _
    split at found
    · rename_i same
      cases found
      obtain ⟨rfl, rfl⟩ := same
      exact ⟨text, rfl⟩
    · cases found
  · cases found

/-- Repeating an event gives the identifier of the node it tells of, and else none. -/
theorem replay_shape {e : Event} (replayed : g.replay e = .ok after) :
    (∃ id kind name ds, e.creates? = some id ∧ g.insertNode id kind name ds = .ok after) ∨
      e.creates? = none ∧ after.lastId = g.lastId ∧ (g.Numbered → after.Numbered) := by
  rw [replay_eq_effect] at replayed
  cases e with
  | policyClassCreated id name => exact .inl ⟨id, _, _, _, rfl, mapError_eq_ok.mp replayed⟩
  | userAttributeCreated id name ds => exact .inl ⟨id, _, _, _, rfl, mapError_eq_ok.mp replayed⟩
  | objectAttributeCreated id name ds => exact .inl ⟨id, _, _, _, rfl, mapError_eq_ok.mp replayed⟩
  | userCreated id name ds => exact .inl ⟨id, _, _, _, rfl, mapError_eq_ok.mp replayed⟩
  | objectCreated id name ds => exact .inl ⟨id, _, _, _, rfl, mapError_eq_ok.mp replayed⟩
  | obligationCreated o =>
    simp only [effect] at replayed
    split at replayed
    · cases replayed
    · rename_i found
      obtain ⟨text, rfl⟩ := declaration_ok found
      exact .inr ⟨rfl, changed_shape replayed fun _ _ _ => nofun⟩
  | operationCreated name source =>
    simp only [effect] at replayed
    split at replayed
    · cases replayed
    · exact .inr ⟨rfl, changed_shape replayed fun _ _ _ => nofun⟩
  | routineCreated name source =>
    simp only [effect] at replayed
    split at replayed
    · cases replayed
    · exact .inr ⟨rfl, changed_shape replayed fun _ _ _ => nofun⟩
  | resourceOperationsSet rights =>
    exact .inr ⟨rfl, changed_shape (m := .setResourceOperations rights) replayed fun _ _ _ => nofun⟩
  | _ => exact .inr ⟨rfl, changed_shape replayed fun _ _ _ => nofun⟩

theorem replay_numbered {e : Event} (replayed : g.replay e = .ok after) (numbered : g.Numbered) : after.Numbered := by
  rcases replay_shape replayed with ⟨_, _, _, _, _, inserted⟩ | ⟨_, _, kept⟩
  · exact (insertNode_numbered inserted).2.2 numbered
  · exact kept numbered

theorem replay_lastId_lt {e : Event} {bound : Nat} (replayed : g.replay e = .ok after) (before : g.lastId.toNat < bound)
    (created : ∀ id, e.creates? = some id → id.value.toNat < bound) : after.lastId.toNat < bound := by
  rcases replay_shape replayed with ⟨id, _, _, _, tells, inserted⟩ | ⟨_, last, _⟩
  · obtain ⟨_, _, rfl⟩ := insertNode_eq_ok.mp inserted
    exact max_toNat_lt before (created id tells)
  · rwa [last]

/-- Repeats events one after the other. -/
def replayEach : List Event → Action ReplayError Store Unit
  | [] => pure ()
  | e :: rest => do
    e.replay
    replayEach rest

theorem replayEach_outcome {events : List Event} {s : Store} (replayed : s.graph.replayAll events = .ok after) :
    (replayEach events).outcome s = (.ok (), { s with graph := after }) := by
  induction events generalizing s with
  | nil =>
    cases replayed
    rfl
  | cons e rest ih =>
    obtain ⟨middle, first, others⟩ := bind_eq_ok.mp replayed
    rw [replayEach, outcome_bind, replay_outcome, first]
    exact ih (s := { s with graph := middle }) others

end Event

/-! ### Replicas -/

namespace Replica

/-- An event is applied as a whole or not at all: the transaction around it leaves no trace. -/
private theorem apply_outcome (revision : Revision) (e : Event) (r : Replica) :
    (apply revision e).outcome r = match r.store.graph.replay e with
      | .ok after => (.ok (), ⟨{ r.store with graph := after }, revision⟩)
      | .error x => (.error x, r) := by
  have replayed := Event.replay_outcome e { r.store with snapshots := r.store.graph :: r.store.snapshots }
  rw [apply, outcome_bind, onStore, outcome_within, outcome_mapError, Store.begin, outcome_ofFunction]
  change ((onStore e.replay).attempt >>= _).outcome _ = _
  rw [outcome_bind, outcome_attempt, onStore, outcome_within]
  dsimp only
  rw [replayed]
  cases r.store.graph.replay e <;> rfl

theorem applyRecorded_outcome (recorded : Recorded) (r : Replica) :
    (applyRecorded recorded).outcome r = match r.store.graph.replayRecord recorded with
      | .ok after => (.ok (), ⟨{ r.store with graph := after }, recorded.revision⟩)
      | .error x => (.error x, r) := by
  rw [applyRecorded, outcome_bind, outcome_ofExcept, Graph.replayRecord]
  cases recorded.event with
  | error e => rfl
  | ok e => exact apply_outcome recorded.revision e r

/-- Recorded events are applied up to the first that can not be repeated. -/
theorem applyAll_result (records : List Recorded) (r : Replica) :
    ((applyAll records).outcome r).1 = (r.store.graph.replayRecords records).map fun _ => () := by
  induction records generalizing r with
  | nil => rfl
  | cons recorded rest ih =>
    rw [applyAll, outcome_bind, applyRecorded_outcome, Graph.replayRecords, List.foldlM_cons]
    cases r.store.graph.replayRecord recorded with
    | error x => rfl
    | ok after => exact ih _

end Replica

end PolicyLedger
