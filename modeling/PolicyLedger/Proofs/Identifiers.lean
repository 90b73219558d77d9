import PolicyLedger.Proofs.EventLog
import PolicyLedger.Proofs.FailedBatch
import PolicyLedger.Proofs.Payloads

/-!
Identifiers that are given one after the other. A recording gives those that follow the last one of its
graph, a replay of events that carry them gives them again, and a command that is answered with one
recorded just the node it belongs to.
-/
namespace PolicyLedger
open PolicyLedger.Action
open Adjudication (record)

/-! ### Identifiers in a row -/

/-- Identifiers given one after the other, from the one after `last` on, with none left out. -/
def Consecutive (last : Nat) (ids : List NodeId) : Prop :=
  ids.map (·.value.toNat) = List.range' (last + 1) ids.length

namespace Consecutive

variable {last : Nat} {id : NodeId} {ids more : List NodeId}

private theorem nil (last : Nat) : Consecutive last [] := rfl

private theorem cons_iff : Consecutive last (id :: ids) ↔ id.value.toNat = last + 1 ∧ Consecutive (last + 1) ids := by
  rw [Consecutive, List.map_cons, List.length_cons, List.range'_succ, List.cons.injEq, Consecutive]

theorem append (first : Consecutive last ids) (second : Consecutive (last + ids.length) more) :
    Consecutive last (ids ++ more) := by
  induction ids generalizing last with
  | nil => exact second
  | cons id rest ih =>
    obtain ⟨next, others⟩ := cons_iff.mp first
    refine cons_iff.mpr ⟨next, ih others ?_⟩
    rwa [Nat.add_assoc, Nat.add_comm 1]

theorem le (consecutive : Consecutive last ids) (member : id ∈ ids) : id.value.toNat ≤ last + ids.length := by
  have given : id.value.toNat ∈ List.range' (last + 1) ids.length := consecutive ▸ List.mem_map_of_mem member
  obtain ⟨_, below⟩ := List.mem_range'_1.mp given
  omega

end Consecutive

/-- The identifier of the node that a recorded event tells was created. -/
def Recorded.creates? (r : Recorded) : Option NodeId := r.event.toOption.bind Event.creates?

/-- The nodes that a stream tells were created, in the order of their events. -/
def EventLog.creations (log : EventLog) (stream : String) : List NodeId :=
  (log.events stream).filterMap Recorded.creates?

/-- Recorded events tell of the nodes that the events do. -/
theorem EventLog.creations_number {events : List Event} (stream : String) (last : Revision)
    (fits : ∀ e ∈ events, e.toBytes.length < 2 ^ 64) :
    (number stream last (events.map record)).filterMap Recorded.creates? = events.filterMap Event.creates? := by
  induction events generalizing last with
  | nil => rfl
  | cons e rest ih =>
    have told : Recorded.creates? ⟨stream, last + 1, e.schema, e.toBytes⟩ = e.creates? := by
      rw [Recorded.creates?, Recorded.event, Event.ofBytes_toBytes (fits e (.head _))]
      rfl
    have others := ih (last + 1) fun other member => fits other (.tail _ member)
    rw [List.map_cons, number, List.filterMap_cons, List.filterMap_cons, record, told, others]

namespace Graph

variable {g after : Graph}

/-- A node under the next identifier makes that the last one. -/
private theorem lastId_addNode_next {id : NodeId} (next : id.value.toNat = g.lastId.toNat + 1) (kind : NodeKind)
    (name : String) (ds : List NodeId) : (g.addNode id kind name ds).lastId.toNat = g.lastId.toNat + 1 := by
  have low : g.lastId ≤ id.value := UInt64.le_iff_toNat_le.mpr (by omega)
  rw [addNode_lastId, show max g.lastId id.value = id.value from if_pos low, next]

/-- A replay that meets identifiers in a row gives them all. -/
theorem lastId_replayRecords {records : List Recorded} (replayed : g.replayRecords records = .ok after)
    (given : Consecutive g.lastId.toNat (records.filterMap Recorded.creates?)) :
    after.lastId.toNat = g.lastId.toNat + (records.filterMap Recorded.creates?).length := by
  induction records generalizing g with
  | nil =>
    cases replayed
    rfl
  | cons r rest ih =>
    obtain ⟨middle, first, others⟩ := bind_eq_ok.mp replayed
    obtain ⟨e, decoded, again⟩ := bind_eq_ok.mp first
    have told : r.creates? = e.creates? := by rw [Recorded.creates?, mapError_eq_ok.mp decoded]; rfl
    rcases Event.replay_shape again with ⟨id, kind, name, ds, creates, inserted⟩ | ⟨none, last, _⟩
    · obtain ⟨_, _, rfl⟩ := insertNode_eq_ok.mp inserted
      rw [List.filterMap_cons_some (told.trans creates)] at given ⊢
      obtain ⟨next, later⟩ := Consecutive.cons_iff.mp given
      have moved := lastId_addNode_next next kind name ds
      rw [ih others (moved ▸ later), moved, List.length_cons]
      omega
    · rw [List.filterMap_cons_none (told.trans none)] at given ⊢
      rw [ih others (last ▸ given), last]

end Graph

/-! ### Identifiers in a recording -/

/-- The event of a change that is only said to be made tells of no new node. -/
private theorem Recorder.creates?_recorded {plugins : SortedSet String} {m : Mutation} {e : Event}
    (recorded : recorded? plugins m .applied = some e) : e.creates? = none := by
  have told : Event.ofMutation? m .applied = some e := by
    cases m with
    | createRoutine routine =>
      simp only [recorded?] at recorded
      split at recorded
      · cases recorded
      · exact recorded
    | _ => exact recorded
  cases m with
  | createNode => cases told
  | createOperation operation =>
    obtain ⟨name, definition⟩ := operation
    cases definition <;> cases told
    rfl
  | createRoutine routine =>
    obtain ⟨name, definition⟩ := routine
    cases definition <;> cases told
    rfl
  | _ =>
    cases told
    rfl

namespace Workspace

variable {test : Mutation → Prop} {r r' : Workspace}

/-- The nodes that are recorded get the identifiers that follow the last one, as long as there are some left. -/
theorem Leads.identifiers (leads : Leads test r r') {events : List Event} (added : r'.events = r.events ++ events)
    (left : r.inner.store.graph.lastId.toNat + (events.filterMap Event.creates?).length < 2 ^ 64 - 1) :
    Consecutive r.inner.store.graph.lastId.toNat (events.filterMap Event.creates?) := by
  induction leads generalizing events with
  | stay =>
    cases List.self_eq_append_right.mp added
    exact .nil _
  | @move r r' m o after _ _ made later ih =>
    obtain ⟨more, grown⟩ := later.events
    -- The recording is that of this change, then that of the later ones.
    have split : events = (Recorder.recorded? r.plugins m o).toList ++ more := by
      have told : r.events ++ events = r.events ++ ((Recorder.recorded? r.plugins m o).toList ++ more) := by
        rw [← added, ← grown, ← List.append_assoc]
        rfl
      exact List.append_cancel_left told
    rcases Graph.apply_shape made with ⟨kind, name, ds, rfl, rfl, rfl⟩ | ⟨rfl, last, _⟩
    · have all : events.filterMap Event.creates? = r.inner.store.graph.nextId :: more.filterMap Event.creates? := by
        rw [split]
        exact List.filterMap_cons_some (Event.creates?_nodeCreated ..)
      rw [all, List.length_cons] at left
      have next := Graph.nextId_value (g := r.inner.store.graph) (by omega)
      have moved := Graph.lastId_addNode_next next kind name ds
      have rest := ih grown.symm (by
        show (Graph.addNode _ _ kind name ds).lastId.toNat + _ < _
        rw [moved]
        omega)
      rw [all, Consecutive.cons_iff]
      exact ⟨next, moved ▸ rest⟩
    · have all : events.filterMap Event.creates? = more.filterMap Event.creates? := by
        rw [split, List.filterMap_append]
        cases told : Recorder.recorded? r.plugins m .applied with
        | none => rfl
        | some e => rw [Option.toList_some, List.filterMap_cons_none (Recorder.creates?_recorded told)]; rfl
      rw [all] at left ⊢
      rw [← last] at left ⊢
      exact ih grown.symm left

/-- A change that is answered with an identifier creates a node, and its event tells of that. -/
private theorem perform_created {m : Mutation} {id : NodeId}
    (made : (PolicyState.perform m).outcome r = (.ok (.nodeCreated id), r')) :
    ∃ kind name ds, m = .createNode kind name ds ∧ r'.events = r.events ++ [Event.nodeCreated kind id name ds] := by
  rw [perform_outcome] at made
  split at made
  · cases made
  · split at made
    · rename_i applied
      cases made
      rcases Graph.apply_shape applied with ⟨kind, name, ds, rfl, same, _⟩ | ⟨other, _⟩
      · cases same
        exact ⟨kind, name, ds, rfl, rfl⟩
      · cases other
    · cases made

end Workspace

/-! ### Commands that create nodes -/

namespace Command

variable {author : Author} {r r' : Workspace} {id : NodeId}

private theorem createdNode?_of_change? {c : Command} {kind : NodeKind} {name : String} {ds : List NodeId}
    (names : c.change? = some (.createNode kind name ds)) : c.createdNode? = some (kind, name) := by
  cases c <;> cases names <;> rfl

private theorem kind_of_singleDeclaration {kind : DeclarationKind} {source : String} {s : Statement}
    (found : singleDeclaration kind source = .ok s) : ∃ name text, s = .declare kind name text := by
  unfold singleDeclaration at found
  split at found
  · cases found
  · rename_i statement _
    split at found
    · rename_i same
      cases found
      cases s with
      | declare _ name text =>
        cases same
        exact ⟨name, text, rfl⟩
      | _ => cases same
    · cases found
  · cases found

/-- A declaration is no new node. -/
private theorem declare_outcome (author : Author) (kind : DeclarationKind) (source : String) :
    (declare author kind source).outcome r ≠ (.ok (.nodeCreated id), r') := by
  intro created
  obtain ⟨s, _, read, executed⟩ := outcome_bind_eq_ok.mp created
  obtain ⟨found, rfl⟩ := Prod.mk.inj read
  obtain ⟨name, text, rfl⟩ := kind_of_singleDeclaration found
  have declared := outcome_mapError_eq_ok.mp executed
  rw [Statement.execute, outcome_bind, outcome_get] at declared
  obtain ⟨m, _, resolved, performed⟩ := outcome_bind_eq_ok.mp declared
  cases resolved
  obtain ⟨_, _, _, names, _⟩ := Workspace.perform_created performed
  cases kind <;> cases names

/-- A command that is answered with an identifier creates a node of its kind and name, and records that and
nothing else. -/
theorem execute_created {c : Command} (ran : (c.execute author).outcome r = (.ok (.nodeCreated id), r')) :
    ∃ kind name ds, c.createdNode? = some (kind, name) ∧
      r'.events = r.events ++ [Event.nodeCreated kind id name ds] := by
  have named {m : Mutation} (names : c.change? = some m) (same : c.execute author = change (σ := Workspace) m) :
      ∃ kind name ds, c.createdNode? = some (kind, name) ∧
        r'.events = r.events ++ [Event.nodeCreated kind id name ds] := by
    rw [same, change] at ran
    obtain ⟨kind, name, ds, rfl, recorded⟩ := Workspace.perform_created (outcome_mapError_eq_ok.mp ran)
    exact ⟨kind, name, ds, createdNode?_of_change? names, recorded⟩
  cases c with
  | createObligation source => exact absurd ran (declare_outcome author .obligation source)
  | createOperation source => exact absurd ran (declare_outcome author .operation source)
  | createRoutine source => exact absurd ran (declare_outcome author .routine source)
  | runText source =>
    obtain ⟨_, _, _, answered⟩ := outcome_bind_eq_ok.mp ran
    cases answered
  | _ => exact named rfl rfl

/-- Each answer of commands carried out one after the other is that of one of them, where those before it
lead. -/
theorem executeSequence_answer {commands : List Command} {outcomes : List Outcome} {k : Nat} {o : Outcome}
    (ran : (executeSequence author commands).outcome r = (.ok outcomes, r')) (answered : outcomes[k]? = some o) :
    ∃ c middle next, commands[k]? = some c ∧
      (executeSequence author (commands.take k)).outcome r = (.ok (outcomes.take k), middle) ∧
      (c.execute author).outcome middle = (.ok o, next) ∧ next.events <+: r'.events := by
  induction commands generalizing r outcomes k with
  | nil =>
    cases ran
    cases answered
  | cons c rest ih =>
    obtain ⟨outcome, next, first, more⟩ := outcome_bind_eq_ok.mp ran
    obtain ⟨answers, last, others, done⟩ := outcome_bind_eq_ok.mp more
    cases done
    cases k with
    | zero =>
      cases answered
      have kept := recorded_sequence author rest next
      rw [others] at kept
      exact ⟨c, r, next, rfl, rfl, first, kept⟩
    | succ k =>
      obtain ⟨command, middle, next', there, begun, executed, kept⟩ := ih others answered
      refine ⟨command, middle, next', there, ?_, executed, kept⟩
      exact outcome_bind_eq_ok.mpr ⟨outcome, next, first, outcome_bind_eq_ok.mpr ⟨_, middle, begun, rfl⟩⟩

end Command
end PolicyLedger
