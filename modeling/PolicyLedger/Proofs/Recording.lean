import PolicyLedger.Proofs.GraphRules
import PolicyLedger.Proofs.Replay
import PolicyLedger.Proofs.Workspace

/-!
What is recorded can be repeated. A change that was made to a graph is made to it again by the event
that tells of it, though the change takes the next identifier and the event carries one, and though
the change was handed a rule and the event compiles its text. Routines of plugins are not recorded, so
the graph that follows a recording is the one shown while it was made but for these.
-/
namespace PolicyLedger
open PolicyLedger.Action PolicyLedger.Graph

namespace Event

variable {g after : Graph}

private theorem declaration_of_compile {kind : DeclarationKind} {name source : String}
    (compiled : Statement.compile source = .ok [.declare kind name source]) :
    declaration kind name source = .ok (.declare kind name source) := by
  unfold declaration Statement.read
  rw [compiled]
  exact if_pos ⟨rfl, rfl⟩

/-- The event of a new node inserts the node. -/
private theorem replay_nodeCreated {kind : NodeKind} {id : NodeId} {name : String} {ds : List NodeId}
    (alone : kind = .policyClass → ds = []) :
    g.replay (nodeCreated kind id name ds) = (g.insertNode id kind name ds).mapError .policy := by
  rw [replay_eq_effect]
  cases kind with
  | policyClass => rw [alone rfl]; rfl
  | _ => rfl

/-- Policy classes have no descendants. -/
theorem descendants_of_checkNewNode {kind : NodeKind} {name : String} {ds : List NodeId}
    (checked : g.checkNewNode kind name ds = .ok ()) (isClass : kind = .policyClass) : ds = [] := by
  subst isClass
  simp only [checkNewNode, throw_bind, refuse_eq_ok, if_true] at checked
  obtain ⟨_, rest⟩ := checked
  cases ds with
  | nil => rfl
  | cons d ds => simp [throw, throwThe, MonadExceptOf.throw] at rest

/-- Whether the text an event carries for a declaration is that declaration, and what is wrong with it if it
is not. -/
def checkText : Event → Except ReplayError Unit
  | obligationCreated o => discard (declaration .obligation o.name o.source)
  | operationCreated name source => discard (declaration .operation name source)
  | routineCreated name source => discard (declaration .routine name source)
  | _ => .ok ()

/-- An event with a wrong text can not be repeated on any graph. -/
theorem replay_of_checkText_error {e : Event} {x : ReplayError} (wrong : e.checkText = .error x) :
    g.replay e = .error x := by
  rw [replay_eq_effect]
  cases e with
  | obligationCreated o =>
    simp only [checkText] at wrong
    rw [effect, discard_eq_error.mp wrong]
  | operationCreated name source =>
    simp only [checkText] at wrong
    rw [effect, discard_eq_error.mp wrong]
  | routineCreated name source =>
    simp only [checkText] at wrong
    rw [effect, discard_eq_error.mp wrong]
  | _ => cases wrong

private theorem checkText_of_sourced {m : Mutation} {o : Outcome} {e : Event} (sourced : m.Sourced)
    (told : ofMutation? m o = some e) : e.checkText = .ok () := by
  cases m with
  | createNode kind name ds =>
    cases o with
    | applied => cases told
    | nodeCreated id =>
      cases told
      cases kind <;> rfl
  | createObligation o =>
    cases told
    exact discard_eq_ok.mpr ⟨_, declaration_of_compile sourced⟩
  | createOperation operation =>
    obtain ⟨name, definition⟩ := operation
    cases definition with
    | native => cases told
    | declared source =>
      cases told
      exact discard_eq_ok.mpr ⟨_, declaration_of_compile sourced⟩
  | createRoutine routine =>
    obtain ⟨name, definition⟩ := routine
    cases definition with
    | native => cases told
    | declared source =>
      cases told
      exact discard_eq_ok.mpr ⟨_, declaration_of_compile sourced⟩
  | _ =>
    cases told
    rfl

/-- A change that was made to a graph is made to it again by the event that tells of it, as long as the text
in the event, if any, passes. An obligation is left out: it would be made of the text as it is compiled. -/
theorem replay_of_checked {m : Mutation} {o : Outcome} {e : Event} (numbered : g.Numbered)
    (made : g.apply m = .ok (o, after)) (left : after.lastId.toNat < 2 ^ 64 - 1)
    (other : ∀ obligation, m ≠ .createObligation obligation) (told : ofMutation? m o = some e)
    (checked : e.checkText = .ok ()) : g.replay e = .ok after := by
  have again := changed_eq_ok.mpr ⟨o, made⟩
  cases m with
  | createNode kind name ds =>
    have .createNode passed := apply_eq_ok.mp made
    cases told
    rw [replay_nodeCreated (descendants_of_checkNewNode passed), mapError_eq_ok, insertNode_eq_ok]
    refine ⟨nextId_free numbered ?_, passed, rfl⟩
    have low := UInt64.le_iff_toNat_le.mp (le_max_lastId g.lastId g.nextId.value).1
    rw [addNode_lastId] at left
    omega
  | createObligation o => exact absurd rfl (other o)
  | createOperation operation =>
    obtain ⟨name, definition⟩ := operation
    cases definition with
    | native => cases told
    | declared source =>
      cases told
      obtain ⟨statement, declares⟩ := discard_eq_ok.mp checked
      rw [replay_eq_effect, effect, declares]
      exact again
  | createRoutine routine =>
    obtain ⟨name, definition⟩ := routine
    cases definition with
    | native => cases told
    | declared source =>
      cases told
      obtain ⟨statement, declares⟩ := discard_eq_ok.mp checked
      rw [replay_eq_effect, effect, declares]
      exact again
  | _ =>
    cases told
    rw [replay_eq_effect]
    exact again

/-- A change whose text is the declaration of its rule is made again exactly. -/
private theorem replay_of_apply {m : Mutation} {o : Outcome} {e : Event} (numbered : g.Numbered)
    (made : g.apply m = .ok (o, after)) (left : after.lastId.toNat < 2 ^ 64 - 1) (sourced : m.Sourced)
    (told : ofMutation? m o = some e) : g.replay e = .ok after := by
  cases m with
  | createObligation o =>
    cases told
    rw [replay_eq_effect, effect, declaration_of_compile sourced]
    exact changed_eq_ok.mpr ⟨_, made⟩
  | _ =>
    refine replay_of_checked numbered made left ?_ told (checkText_of_sourced sourced told)
    intro _ same
    cases same

end Event

theorem Graph.replayAll_toList {g next : Graph} {told : Option Event} {e : Event} (tells : told = some e)
    (found : g.replay e = .ok next) : g.replayAll told.toList = .ok next := by
  rw [tells]
  simp only [Option.toList_some, Graph.replayAll, List.foldlM_cons, List.foldlM_nil, found]
  rfl

/-! ### What is recorded -/

namespace Recorder

variable {plugins : SortedSet String}

/-- Every change of anything but routines leaves an event, unless it is refused. -/
theorem recorded_of_apply {g after : Graph} {m : Mutation} {o : Outcome} (other : m.onRoutines = false)
    (allowed : refusal? plugins m = none) (made : g.apply m = .ok (o, after)) :
    ∃ e, recorded? plugins m o = some e ∧ Event.ofMutation? m o = some e := by
  cases m with
  | createNode kind name ds =>
    have .createNode _ := apply_eq_ok.mp made
    exact ⟨_, rfl, rfl⟩
  | createOperation operation =>
    obtain ⟨name, definition⟩ := operation
    cases definition with
    | native => cases allowed
    | declared source => exact ⟨_, rfl, rfl⟩
  | createRoutine routine => cases other
  | deleteRoutine name => cases other
  | _ => exact ⟨_, rfl, rfl⟩

/-- So does the creation of a routine that is not one of a plugin. -/
theorem recorded_createRoutine {routine : Routine} (others : plugins.contains routine.name = false)
    (allowed : refusal? plugins (.createRoutine routine) = none) (o : Outcome) :
    ∃ e, recorded? plugins (.createRoutine routine) o = some e ∧
      Event.ofMutation? (.createRoutine routine) o = some e := by
  obtain ⟨name, definition⟩ := routine
  cases definition with
  | native => simp [refusal?, others] at allowed
  | declared source =>
    refine ⟨.routineCreated name source, ?_, rfl⟩
    simp only [recorded?, others]
    rfl

/-- Routines of plugins are not deleted. -/
theorem others_of_deleteRoutine {name : String} (allowed : refusal? plugins (.deleteRoutine name) = none) :
    plugins.contains name = false := by
  by_cases plugin : plugins.contains name = true
  · simp [refusal?, plugin] at allowed
  · simpa using plugin

end Recorder

/-! ### Following a recording -/

/-- A graph that followed a recording which began at `base`: it is the graph shown meanwhile, but for
the routines of plugins, which are still those of `base`. -/
structure Follows (plugins : SortedSet String) (base shown follower : Graph) : Prop where
  rest : follower = shown.withRoutines follower.routines
  routines : ∀ name, follower.routines.get? name =
    if plugins.contains name then base.routines.get? name else shown.routines.get? name

namespace Follows

variable {plugins : SortedSet String} {base shown after follower : Graph}

theorem start (plugins : SortedSet String) (base : Graph) : Follows plugins base base base :=
  ⟨rfl, fun name => by split <;> rfl⟩

private theorem lastId (follows : Follows plugins base shown follower) : follower.lastId = shown.lastId := by
  rw [follows.rest]
  rfl

private theorem numbered (follows : Follows plugins base shown follower) (numbered : shown.Numbered) :
    follower.Numbered := by
  rw [follows.rest]
  exact numbered

private theorem contains (follows : Follows plugins base shown follower) {name : String}
    (others : plugins.contains name = false) : follower.routines.contains name = shown.routines.contains name := by
  simp only [SortedMap.contains, follows.routines, others]
  rfl

/-- A routine of a plugin is not recorded, and the follower does not get it; any other it gets. -/
private theorem move_createRoutine {routine : Routine} {o : Outcome} (follows : Follows plugins base shown follower)
    (numbered : shown.Numbered) (allowed : Recorder.refusal? plugins (.createRoutine routine) = none)
    (sourced : (Mutation.createRoutine routine).Sourced) (made : shown.apply (.createRoutine routine) = .ok (o, after))
    (left : after.lastId.toNat < 2 ^ 64 - 1) :
    ∃ next, follower.replayAll (Recorder.recorded? plugins (.createRoutine routine) o).toList = .ok next ∧
      Follows plugins base after next := by
  have .createRoutine free := apply_eq_ok.mp made
  by_cases plugin : plugins.contains routine.name = true
  · refine ⟨follower, ?_, follows.rest, ?_⟩
    · simp only [Recorder.recorded?, plugin, if_true]
      rfl
    · intro other
      rw [follows.routines]
      split
      · rfl
      · rename_i others
        show _ = (shown.routines.insert routine.name _).get? other
        rw [SortedMap.get?_insert, if_neg (by rintro rfl; exact others plugin)]
  · rw [Bool.not_eq_true] at plugin
    obtain ⟨e, recorded, told⟩ := Recorder.recorded_createRoutine plugin allowed .applied
    have there := apply_eq_ok.mpr (.createRoutine ((follows.contains plugin).trans free))
    have again := Event.replay_of_apply (follows.numbered numbered) there (follows.lastId ▸ left) sourced told
    refine ⟨_, replayAll_toList recorded again, ?_, ?_⟩
    · conv => lhs; rw [follows.rest]
      rfl
    · intro other
      show (follower.routines.insert routine.name _).get? other =
        if _ then _ else (shown.routines.insert routine.name _).get? other
      rw [SortedMap.get?_insert, SortedMap.get?_insert, follows.routines]
      by_cases same : other = routine.name
      · rw [if_pos same, if_pos same, same, plugin]
        rfl
      · rw [if_neg same, if_neg same]

private theorem move_deleteRoutine {name : String} {o : Outcome} (follows : Follows plugins base shown follower)
    (numbered : shown.Numbered) (allowed : Recorder.refusal? plugins (.deleteRoutine name) = none)
    (made : shown.apply (.deleteRoutine name) = .ok (o, after)) (left : after.lastId.toNat < 2 ^ 64 - 1) :
    ∃ next, follower.replayAll (Recorder.recorded? plugins (.deleteRoutine name) o).toList = .ok next ∧
      Follows plugins base after next := by
  have .deleteRoutine found := apply_eq_ok.mp made
  have plugin := Recorder.others_of_deleteRoutine allowed
  have there := apply_eq_ok.mpr (.deleteRoutine ((follows.contains plugin).trans found))
  have again := Event.replay_of_apply (follows.numbered numbered) there (follows.lastId ▸ left) trivial rfl
  refine ⟨_, replayAll_toList rfl again, ?_, ?_⟩
  · conv => lhs; rw [follows.rest]
    rfl
  · intro other
    show (follower.routines.erase name).get? other = if _ then _ else (shown.routines.erase name).get? other
    rw [SortedMap.get?_erase, SortedMap.get?_erase, follows.routines]
    by_cases same : other = name
    · rw [if_pos same, if_pos same, same, plugin]
      rfl
    · rw [if_neg same, if_neg same]

/-- Whatever change is made to the graph shown, the follower follows by the event recorded of it. -/
private theorem move {m : Mutation} {o : Outcome} (follows : Follows plugins base shown follower)
    (numbered : shown.Numbered) (allowed : Recorder.refusal? plugins m = none) (sourced : m.Sourced)
    (made : shown.apply m = .ok (o, after)) (left : after.lastId.toNat < 2 ^ 64 - 1) :
    ∃ next, follower.replayAll (Recorder.recorded? plugins m o).toList = .ok next ∧
      Follows plugins base after next := by
  by_cases onRoutines : m.onRoutines = true
  · cases m with
    | createRoutine routine => exact follows.move_createRoutine numbered allowed sourced made left
    | deleteRoutine name => exact follows.move_deleteRoutine numbered allowed made left
    | _ => cases onRoutines
  · rw [Bool.not_eq_true] at onRoutines
    obtain ⟨e, recorded, told⟩ := Recorder.recorded_of_apply onRoutines allowed made
    -- The follower has other routines than the graph shown, to which this change is blind.
    have there := apply_withRoutines follower.routines onRoutines made
    rw [← follows.rest] at there
    have again := Event.replay_of_apply (follows.numbered numbered) there left sourced told
    refine ⟨_, replayAll_toList recorded again, rfl, ?_⟩
    intro name
    show follower.routines.get? name = _
    rw [follows.routines, apply_routines onRoutines made]

end Follows

namespace Workspace

variable {test : Mutation → Prop} {r r' : Workspace} {base follower : Graph}

theorem Leads.numbered (leads : Leads test r r') :
    r.inner.store.graph.lastId ≤ r'.inner.store.graph.lastId ∧
      (r.inner.store.graph.Numbered → r'.inner.store.graph.Numbered) := by
  induction leads with
  | stay => exact ⟨UInt64.le_refl _, id⟩
  | move _ _ made _ ih =>
    have first := apply_numbered made
    exact ⟨UInt64.le_trans first.1 ih.1, fun numbered => ih.2 (first.2 numbered)⟩

/-- Events are only ever added, and a graph that followed up to some point follows on by those added. -/
theorem Leads.follows (leads : Leads test r r') (sourced : ∀ m, test m → m.Sourced)
    (numbered : r.inner.store.graph.Numbered) (left : r'.inner.store.graph.lastId.toNat < 2 ^ 64 - 1)
    (begun : Follows r.plugins base r.inner.store.graph follower) :
    ∃ events next, r'.events = r.events ++ events ∧ follower.replayAll events = .ok next ∧
      Follows r.plugins base r'.inner.store.graph next := by
  induction leads generalizing follower with
  | stay => exact ⟨[], follower, (List.append_nil _).symm, rfl, begun⟩
  | @move r r' m o after tested allowed made later ih =>
    have below := UInt64.le_iff_toNat_le.mp later.numbered.1
    obtain ⟨middle, moved, follows⟩ :=
      begun.move numbered allowed (sourced m tested) made (Nat.lt_of_le_of_lt below left)
    obtain ⟨events, next, added, replayed, ended⟩ := ih ((apply_numbered made).2 numbered) left follows
    refine ⟨(Recorder.recorded? r.plugins m o).toList ++ events, next, ?_, ?_, ended⟩
    · rw [added]
      exact List.append_assoc ..
    · rw [Graph.replayAll, List.foldlM_append, bind_eq_ok]
      exact ⟨middle, moved, replayed⟩

end Workspace

/-! ### Batches recorded on a store that could be there -/

/-- The stores that changes, nodes inserted and transactions lead to. -/
inductive Store.Reachable : Store → Prop
  | empty : Reachable {}
  | perform {s : Store} (m : Mutation) (before : Reachable s) : Reachable ((Store.perform m).outcome s).2
  | insertNode {s : Store} (id : NodeId) (kind : NodeKind) (name : String) (ds : List NodeId)
      (before : Reachable s) : Reachable ((Store.insertNode id kind name ds).outcome s).2
  | begin {s : Store} (before : Reachable s) : Reachable (Store.begin.outcome s).2
  | commit {s : Store} (before : Reachable s) : Reachable (Store.commit.outcome s).2
  | rollback {s : Store} (before : Reachable s) : Reachable (Store.rollback.outcome s).2

/-- What the empty graph has and changes keep, the graph has, and so have all those from before the open
transactions. -/
theorem Store.Reachable.kept {s : Store} (reachable : s.Reachable) {P : Graph → Prop} (empty : P ∅)
    (changed : ∀ {g after : Graph} {m : Mutation} {o : Outcome}, P g → g.apply m = .ok (o, after) → P after)
    (inserted : ∀ {g after : Graph} {id : NodeId} {kind : NodeKind} {name : String} {ds : List NodeId},
      P g → g.insertNode id kind name ds = .ok after → P after) :
    P s.graph ∧ ∀ g ∈ s.snapshots, P g := by
  induction reachable with
  | empty => exact ⟨empty, fun _ member => absurd member List.not_mem_nil⟩
  | @perform s m _ ih =>
    rw [Store.perform, outcome_ofFunction]
    split
    · rename_i made
      exact ⟨changed ih.1 made, ih.2⟩
    · exact ih
  | @insertNode s id kind name ds _ ih =>
    rw [Store.insertNode, outcome_ofFunction]
    split
    · rename_i made
      exact ⟨inserted ih.1 made, ih.2⟩
    · exact ih
  | begin _ ih =>
    refine ⟨ih.1, ?_⟩
    intro g member
    rcases List.mem_cons.mp member with rfl | member
    · exact ih.1
    · exact ih.2 g member
  | @commit s _ ih =>
    rw [Store.commit, outcome_ofFunction]
    split
    · exact ih
    · rename_i outer isOpen
      exact ⟨ih.1, fun g member => ih.2 g (isOpen ▸ .tail _ member)⟩
  | @rollback s _ ih =>
    rw [Store.rollback, outcome_ofFunction]
    split
    · exact ih
    · rename_i isOpen
      exact ⟨ih.2 _ (isOpen ▸ .head _), fun g member => ih.2 g (isOpen ▸ .tail _ member)⟩

/-- Nodes are numbered in the graph and in all those from before the open transactions. -/
theorem Store.Reachable.numbered {s : Store} (reachable : s.Reachable) :
    s.graph.Numbered ∧ ∀ g ∈ s.snapshots, g.Numbered :=
  reachable.kept numbered_empty (fun numbered made => (apply_numbered made).2 numbered)
    fun numbered made => (insertNode_numbered made).2.2 numbered

/-- A batch that succeeds inside of an open transaction is repeated by the events recorded of it: they
lead a store from the graph before the batch to the graph shown after it, but for the routines of
plugins, which stay as they were. -/
theorem executeBatch_replays {author : Author} {commands : List Command} {outcomes : List Outcome}
    {r r' : Workspace} (reachable : r.inner.store.Reachable) (begun : 0 < r.inner.depth)
    (done : (Command.executeBatch author commands).outcome r = (.ok outcomes, r'))
    (left : (PolicyState.graph r').lastId.toNat < 2 ^ 64 - 1) :
    ∃ events, r'.events = r.events ++ events ∧
      ∀ s : Store, s.graph = PolicyState.graph r → ∃ after,
        (Event.replayEach events).outcome s = (.ok (), { s with graph := after }) ∧
          after = { PolicyState.graph r' with routines := after.routines } ∧
          ∀ name, after.routines.get? name =
            if r.plugins.contains name then (PolicyState.graph r).routines.get? name
            else (PolicyState.graph r').routines.get? name := by
  have tested : ∀ c ∈ commands, ∀ m, c.Asks author m → m.Sourced := fun _ _ _ asks => asks.sourced
  have leads := Workspace.leads_executeBatch tested begun
  rw [done] at leads
  obtain ⟨events, after, added, replayed, follows⟩ :=
    leads.follows (fun _ sourced => sourced) reachable.numbered.1 left (Follows.start r.plugins _)
  refine ⟨events, added, fun s same => ⟨after, ?_, follows.rest, follows.routines⟩⟩
  exact Event.replayEach_outcome (same ▸ replayed)

/-- A transaction on an empty store. -/
def Workspace.empty : Workspace := { inner := { store := { snapshots := [∅] }, depth := 1 }, plugins := ∅ }

def staffing : List Command := [.createPolicyClass "staff", .createUserAttribute "nurses" [⟨1⟩]]

/-- Two nodes that are created in an empty store are there again when the events are repeated. -/
theorem staffing_replays : ∃ events,
    ((Command.executeBatch ⟨⟨0⟩, none⟩ staffing).outcome Workspace.empty).2.events = events ∧ events.length = 2 ∧
      ∃ after, (Event.replayEach events).outcome {} = (.ok (), { graph := after }) ∧ after.lastId = 2 := by
  have reachable : Workspace.empty.inner.store.Reachable := .begin .empty
  have done : (Command.executeBatch ⟨⟨0⟩, none⟩ staffing).outcome Workspace.empty =
      (.ok [.nodeCreated ⟨1⟩, .nodeCreated ⟨2⟩],
        ((Command.executeBatch ⟨⟨0⟩, none⟩ staffing).outcome Workspace.empty).2) := rfl
  obtain ⟨events, recorded, repeated⟩ := executeBatch_replays reachable (by decide) done (by decide)
  obtain ⟨after, replayed, same, _⟩ := repeated {} rfl
  refine ⟨events, recorded, ?_, after, replayed, ?_⟩
  · rw [show events = _ from recorded.symm]
    rfl
  · rw [same]
    rfl

end PolicyLedger
