import PolicyLedger.Proofs.Calls
import PolicyLedger.Proofs.Recording

/-!
What a recorder over a store that is lent does with calls. It refuses the few that could not be told in the
log, with no effect; all others do what they do to a store of one's own, as if the refused ones had never been
made. From each event the change and its outcome can be read back, and there is one for every change but
those that create a routine of a plugin.
-/
namespace PolicyLedger
open PolicyLedger.Action

namespace Recorder

/-- The calls that are refused, and why: rules without a text could not be told, and the routines of plugins
are not to be deleted. -/
inductive Refuses (plugins : SortedSet String) : PolicyCall → PolicyError → Prop
  | nativeOperation (name : String) :
    Refuses plugins (.change (.createOperation ⟨name, .native⟩)) (.notDeclarative name)
  | nativeRoutine {name : String} (other : plugins.contains name = false) :
    Refuses plugins (.change (.createRoutine ⟨name, .native⟩)) (.notDeclarative name)
  | pluginRoutine {name : String} (plugin : plugins.contains name = true) :
    Refuses plugins (.change (.deleteRoutine name)) (.pluginRoutine name)

def Refused (plugins : SortedSet String) (c : PolicyCall) : Prop := ∃ e, Refuses plugins c e

variable {plugins : SortedSet String}

private theorem refusal?_eq_some {m : Mutation} {e : PolicyError} :
    refusal? plugins m = some e ↔ Refuses plugins (.change m) e := by
  constructor
  · intro refused
    unfold refusal? at refused
    split at refused
    · cases refused
      exact .nativeOperation _
    · split at refused
      · cases refused
      · rename_i other
        cases refused
        exact .nativeRoutine (by simpa using other)
    · split at refused
      · rename_i plugin
        cases refused
        exact .pluginRoutine plugin
      · cases refused
    · cases refused
  · intro refuses
    cases refuses with
    | nativeOperation name => rfl
    | nativeRoutine other => simp [refusal?, other]
    | pluginRoutine plugin => simp [refusal?, plugin]

private theorem refused_change {m : Mutation} : Refused plugins (.change m) ↔ refusal? plugins m ≠ none := by
  rw [Option.ne_none_iff_exists']
  exact exists_congr fun e => refusal?_eq_some.symm

instance (plugins : SortedSet String) : DecidablePred (Refused plugins)
  | .ask _ => .isFalse nofun
  | .change _ => decidable_of_iff' _ refused_change

/-! ### One call -/

section
variable {σ : Type} [PolicyState σ] {r : Recorder σ} {c : PolicyCall}

private theorem call_refused {e : PolicyError} (refuses : Refuses r.plugins c e) : c.act.outcome r = (.error e, r) := by
  cases c with
  | ask q => cases refuses
  | change m =>
    rw [PolicyCall.outcome_change, perform_outcome, refusal?_eq_some.mpr refuses]
    rfl

/-- A call that is not refused is passed on as it is. -/
private theorem call_passed (passed : ¬ Refused r.plugins c) :
    (c.act.outcome r).1 = (c.act.outcome r.inner).1 ∧ (c.act.outcome r).2.inner = (c.act.outcome r.inner).2 := by
  cases c with
  | ask q =>
    rw [PolicyCall.outcome_ask, PolicyCall.outcome_ask]
    exact ⟨rfl, rfl⟩
  | change m =>
    have allowed : refusal? r.plugins m = none := by simpa [refused_change] using passed
    rw [PolicyCall.outcome_change, PolicyCall.outcome_change, perform_outcome, allowed]
    rcases (PolicyState.perform m).outcome r.inner with ⟨e | o, inner⟩ <;> exact ⟨rfl, rfl⟩

private theorem call_plugins : (c.act.outcome r).2.plugins = r.plugins := by
  cases c with
  | ask q => rw [PolicyCall.outcome_ask]
  | change m =>
    rw [PolicyCall.outcome_change, perform_outcome]
    split
    · rfl
    · rcases (PolicyState.perform m).outcome r.inner with ⟨e | o, inner⟩ <;> rfl

private theorem run_plugins (calls : List PolicyCall) (r : Recorder σ) :
    (PolicyCall.run calls r).plugins = r.plugins := by
  induction calls generalizing r with
  | nil => rfl
  | cons c rest ih => rw [PolicyCall.run_cons, ih, call_plugins]

/-- Below a recorder, it is as if the calls that are refused had not been made. -/
private theorem run_inner (calls : List PolicyCall) (r : Recorder σ) :
    (PolicyCall.run calls r).inner = PolicyCall.run (calls.filter fun c => ¬ Refused r.plugins c) r.inner := by
  induction calls generalizing r with
  | nil => rfl
  | cons c rest ih =>
    rw [PolicyCall.run_cons, ih, call_plugins]
    by_cases refused : Refused r.plugins c
    · obtain ⟨e, refuses⟩ := refused
      rw [List.filter_cons_of_neg (by simpa using ⟨e, refuses⟩), call_refused refuses]
    · rw [List.filter_cons_of_pos (by simpa using refused), PolicyCall.run_cons, (call_passed refused).2]

end

end Recorder

/-! ### Events -/

/-- The change an event tells of, and its outcome. -/
def Event.told : Event → Mutation × Outcome
  | policyClassCreated id name => (.createNode .policyClass name [], .nodeCreated id)
  | userAttributeCreated id name ds => (.createNode .userAttribute name ds, .nodeCreated id)
  | objectAttributeCreated id name ds => (.createNode .objectAttribute name ds, .nodeCreated id)
  | userCreated id name ds => (.createNode .user name ds, .nodeCreated id)
  | objectCreated id name ds => (.createNode .object name ds, .nodeCreated id)
  | nodeDeleted id => (.deleteNode id, .applied)
  | propertiesSet id properties => (.setProperties id properties, .applied)
  | assignmentCreated ascendant ds => (.assign ascendant ds, .applied)
  | assignmentDeleted ascendant ds => (.deassign ascendant ds, .applied)
  | associationCreated ua target rights => (.associate ua target rights, .applied)
  | associationDeleted ua target => (.dissociate ua target, .applied)
  | prohibitionCreated prohibition => (.createProhibition prohibition, .applied)
  | prohibitionDeleted name => (.deleteProhibition name, .applied)
  | obligationCreated obligation => (.createObligation obligation, .applied)
  | obligationDeleted name => (.deleteObligation name, .applied)
  | operationCreated name source => (.createOperation ⟨name, .declared source⟩, .applied)
  | operationDeleted name => (.deleteOperation name, .applied)
  | resourceOperationsSet rights => (.setResourceOperations rights, .applied)
  | routineCreated name source => (.createRoutine ⟨name, .declared source⟩, .applied)
  | routineDeleted name => (.deleteRoutine name, .applied)

private theorem Event.told_nodeCreated {kind : NodeKind} {id : NodeId} {name : String} {ds : List NodeId}
    (alone : kind = .policyClass → ds = []) :
    (nodeCreated kind id name ds).told = (.createNode kind name ds, .nodeCreated id) := by
  cases kind with
  | policyClass => rw [alone rfl]; rfl
  | _ => rfl

/-- What an event tells of is what it was made for. -/
private theorem Event.told_of_apply {g after : Graph} {m : Mutation} {o : Outcome} {e : Event}
    (made : g.apply m = .ok (o, after)) (tells : ofMutation? m o = some e) : e.told = (m, o) := by
  cases Graph.apply_eq_ok.mp made with
  | createNode checked =>
    cases tells
    exact told_nodeCreated (descendants_of_checkNewNode checked)
  | @createOperation operation =>
    obtain ⟨name, source | _⟩ := operation
    · cases tells
      rfl
    · cases tells
  | @createRoutine routine =>
    obtain ⟨name, source | _⟩ := routine
    · cases tells
      rfl
    · cases tells
  | _ =>
    cases tells
    rfl

namespace Recorder

variable {plugins : SortedSet String}

/-- What there is to tell of a call with this result: the change, if it was made, and its outcome. Replicas have
the routines of plugins of their own. -/
def toTell? (plugins : SortedSet String) : PolicyCall → Except PolicyError Reply → Option (Mutation × Outcome)
  | .change (.createRoutine routine), .ok (.outcome o) =>
    if plugins.contains routine.name then none else some (.createRoutine routine, o)
  | .change m, .ok (.outcome o) => some (m, o)
  | _, _ => none

private theorem recorded?_told {g after : Graph} {m : Mutation} {o : Outcome} (allowed : refusal? plugins m = none)
    (made : g.apply m = .ok (o, after)) :
    (recorded? plugins m o).map Event.told = toTell? plugins (.change m) (.ok (.outcome o)) := by
  have told {e : Event} (tells : Event.ofMutation? m o = some e) : (some e).map Event.told = some (m, o) :=
    congrArg some (Event.told_of_apply made tells)
  by_cases onRoutines : m.onRoutines = true
  · cases m with
    | createRoutine routine =>
      by_cases plugin : plugins.contains routine.name = true
      · simp [recorded?, toTell?, plugin]
      · rw [Bool.not_eq_true] at plugin
        obtain ⟨e, recorded, tells⟩ := recorded_createRoutine plugin allowed o
        rw [recorded, told tells, toTell?, plugin]
        rfl
    | deleteRoutine name => exact told rfl
    | _ => cases onRoutines
  · rw [Bool.not_eq_true] at onRoutines
    obtain ⟨e, recorded, tells⟩ := recorded_of_apply onRoutines allowed made
    rw [recorded, told tells]
    cases m with
    | createRoutine => cases onRoutines
    | _ => rfl

/-- What a call adds to a recording is told by at most one event. -/
private theorem call_events (c : PolicyCall) (r : Workspace) :
    ∃ e? : Option Event, (c.act.outcome r).2.events = r.events ++ e?.toList ∧
      e?.map Event.told = toTell? r.plugins c (c.act.outcome r).1 := by
  cases c with
  | ask q =>
    rw [PolicyCall.outcome_ask]
    exact ⟨none, (List.append_nil _).symm, rfl⟩
  | change m =>
    have silent (e : PolicyError) : none = toTell? r.plugins (.change m) (.error e) := by cases m <;> rfl
    rw [PolicyCall.outcome_change, Workspace.perform_outcome]
    cases allowed : refusal? r.plugins m with
    | some e => exact ⟨none, (List.append_nil _).symm, silent e⟩
    | none =>
      dsimp only
      cases made : r.inner.store.graph.apply m with
      | error e => exact ⟨none, (List.append_nil _).symm, silent e⟩
      | ok result => exact ⟨recorded? r.plugins m result.1, rfl, recorded?_told allowed made⟩

/-- A recorder over a store that is lent, after any calls. The calls it refuses have no effect. To any other
it gives the answer, and it shows the graph after it, of a store of one's own that began with the same graph and to
which none of the refused calls were made. And it records one event for each change that is made, which tells
of just this change and its outcome, but none for routines of plugins that are created. -/
theorem recorder_transparent (r : Workspace) (outer : List Graph) (calls : List PolicyCall) (c : PolicyCall) :
    let reached := PolicyCall.run calls r
    let plain : Store := PolicyCall.run (calls.filter fun c => ¬ Refused r.plugins c) ⟨PolicyState.graph r, outer⟩
    (∀ e, Refuses r.plugins c e → c.act.outcome reached = (.error e, reached)) ∧
    (¬ Refused r.plugins c → (c.act.outcome reached).1 = (c.act.outcome plain).1 ∧
      PolicyState.graph (c.act.outcome reached).2 = (c.act.outcome plain).2.graph) ∧
    ∃ e? : Option Event, (c.act.outcome reached).2.events = reached.events ++ e?.toList ∧
      e?.map Event.told = toTell? r.plugins c (c.act.outcome reached).1 := by
  intro reached plain
  have plugins : reached.plugins = r.plugins := run_plugins calls r
  have shown : reached.inner.store.graph = plain.graph := by
    rw [run_inner calls r]
    exact Likeness.lent.run _ rfl
  refine ⟨?_, ?_, ?_⟩
  · intro e refuses
    exact call_refused (plugins ▸ refuses)
  · intro passed
    obtain ⟨result, after⟩ := call_passed (r := reached) (plugins ▸ passed)
    obtain ⟨result', after'⟩ := Likeness.lent.call c reached.inner plain shown
    exact ⟨result.trans result', (congrArg PolicyState.graph after).trans after'⟩
  · rw [← plugins]
    exact call_events c reached

end Recorder
end PolicyLedger
