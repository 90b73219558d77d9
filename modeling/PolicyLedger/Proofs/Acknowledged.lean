import PolicyLedger.Proofs.Agreement
import PolicyLedger.Proofs.Identifiers
import PolicyLedger.Proofs.SingleWrite

/-!
What requests are answered. Requests that are tried at once are given the same identifiers, since an attempt
takes back what it did. Only one of these attempts is appended; the others are made again on replicas
that know of its nodes. So the nodes in a stream are numbered from one on, and each is created on every
replica under the number it was answered with.
-/
namespace PolicyLedger
open PolicyLedger.Action
open Adjudication (record)

/-! ### Where a request stands with its events -/

/-- What an attempt gave that was made on the replay of a stream up to a revision. -/
structure Attempted {α : Type} (spec : AdjudicationSpec α) (stream : List Recorded) (value : α) (events : List Event)
    (expected : Revision) : Prop where
  within : expected ≤ stream.length
  made : ∃ attempts store, Graph.replayRecords ∅ (stream.take expected) = .ok store.graph ∧
    (Adjudication.runScratch spec.plugins (spec.request attempts) store).1 = .ok (value, events)

private theorem Attempted.mono {α : Type} {spec : AdjudicationSpec α} {stream more : List Recorded} {value : α}
    {events : List Event} {expected : Revision} (attempted : Attempted spec stream value events expected)
    (grows : stream <+: more) : Attempted spec more value events expected := by
  obtain ⟨rest, rfl⟩ := grows
  refine ⟨Nat.le_trans attempted.within (by simp), ?_⟩
  rw [List.take_append_of_le_length attempted.within]
  exact attempted.made

/-- It is what the request was answered on that replay, and the request made nothing but changes. -/
private theorem Attempted.executed {α : Type} {spec : AdjudicationSpec α} {stream : List Recorded} {value : α}
    {events : List Event} {expected : Revision} (attempted : Attempted spec stream value events expected)
    (commanded : spec.Commanded) : ∃ attempts store after,
      Graph.replayRecords ∅ (stream.take expected) = .ok store.graph ∧
      (spec.request attempts).outcome (Workspace.lend spec.plugins store) = (.ok value, after) ∧
      after.events = events ∧ Workspace.Leads Mutation.Sourced (Workspace.lend spec.plugins store) after := by
  obtain ⟨attempts, store, replayed, ran⟩ := attempted.made
  have leads := commanded.leads attempts (r := Workspace.lend spec.plugins store) Nat.zero_lt_one
  obtain ⟨after, executed, recorded⟩ := Workspace.outcome_of_runScratch leads ran
  rw [executed] at leads
  exact ⟨attempts, store, after, replayed, executed, recorded, leads⟩

/-- What a request is about to append stems from an attempt; so does what it was answered, and that stands in
the stream where the attempt was made. -/
def Stage.Traced {α : Type} (spec : AdjudicationSpec α) (stream : List Recorded) : Stage α → Prop
  | .holding value events expected => Attempted spec stream value events expected
  | .settled (.ok done) => ∃ expected, Attempted spec stream done.value done.events expected ∧
      done.revision = expected + done.events.length ∧
      stream.take expected ++ EventLog.number spec.stream expected (done.events.map record) <+: stream
  | _ => True

private theorem Stage.Traced.mono {α : Type} {spec : AdjudicationSpec α} {stream more : List Recorded} {stage : Stage α}
    (traced : stage.Traced spec stream) (grows : stream <+: more) : stage.Traced spec more := by
  cases stage with
  | trying => trivial
  | holding value events expected => exact Attempted.mono traced grows
  | settled result =>
    cases result with
    | error e => trivial
    | ok done =>
      obtain ⟨expected, attempted, revises, stands⟩ := traced
      refine ⟨expected, attempted.mono grows, revises, ?_⟩
      obtain ⟨rest, rfl⟩ := grows
      rw [List.take_append_of_le_length attempted.within]
      exact stands.trans (List.prefix_append _ _)

/-- Each step of a request on a replica that is a replay of the stream keeps that. -/
private theorem Adjudication.traced_step {α : Type} {spec : AdjudicationSpec α} {a b : Adjudication α}
    {w w' : Adjudicating EventLog} (stepped : Stepped spec a w b w')
    (reflects : w.replica.Reflects (w.log.events spec.stream))
    (traced : a.stage.Traced spec (w.log.events spec.stream)) : b.stage.Traced spec (w'.log.events spec.stream) := by
  cases stepped with
  | idle _ stage _ log =>
    rw [stage, log]
    exact traced
  | attempt _ _ stage =>
    have made {value : α} {events : List Event} (result : (attempt spec a.attempts w).1 = .ok (value, events)) :
        Attempted spec (w.log.events spec.stream) value events w.replica.revision :=
      ⟨reflects.within, a.attempts, w.replica.store, reflects.replayed, result⟩
    show b.stage.Traced spec (w.log.events spec.stream)
    rw [stage]
    rcases result : (attempt spec a.attempts w).1 with e | ⟨value, _ | ⟨e, rest⟩⟩
    · trivial
    · refine ⟨w.replica.revision, made result, rfl, ?_⟩
      show List.take _ _ ++ [] <+: _
      rw [List.append_nil]
      exact List.take_prefix _ _
    · exact made result
  | @append value events expected revision log holding done _ stage =>
    obtain ⟨current, revises, grown, _⟩ := EventLog.append_ok done
    rw [holding] at traced
    rw [stage]
    have attempted : Attempted spec (log.events spec.stream) value events expected :=
      Attempted.mono traced (grown ▸ List.prefix_append _ _)
    refine ⟨expected, attempted, by rw [revises, List.length_map], ?_⟩
    show List.take expected (log.events spec.stream) ++ _ <+: log.events spec.stream
    rewrite [grown, List.take_left' current]
    exact List.prefix_refl _
  | conflict _ _ _ stage =>
    rcases stage with stage | ⟨e, stage⟩ <;> rw [stage] <;> trivial

namespace System

variable {stream : String} {owner : String → Nat × Nat} {s : System}

/-! ### What a move does to the stream -/

/-- A stream that only requests append to is left alone by a move, or a request appends what it holds. -/
private theorem step_stream {m : Move} (commanding : Commanding stream owner m) :
    (s.step m).log.events stream = s.log.events stream ∨
      ∃ c ∈ s.calls, ∃ (value : c.Value) (events : List Event) (expected : Revision),
        c.spec.stream = stream ∧ c.state.stage = .holding value events expected ∧
        s.log.tail stream = expected ∧ (s.step m).log.events stream =
          s.log.events stream ++ EventLog.number stream expected (events.map record) := by
  cases m with
  | append other expected records => exact .inl (append_others (Ne.symm commanding) expected records s.log)
  | consume i now jitter =>
    simp only [step]
    cases consumes : s.consume? i now jitter with
    | none => exact .inl rfl
    | some t =>
      obtain ⟨f, task, w, _, stepped, rfl⟩ := consume?_eq_some.mp consumes
      exact .inl (events_of_streams (SubscriberTask.step_cases stepped).onward.streams stream)
  | proceed i now =>
    cases there : s.calls[i]? with
    | none => exact .inl (by simp only [step, proceed?, there]; rfl)
    | some c =>
      by_cases own : c.spec.stream = stream
      · subst own
        simp only [step]
        cases proceeds : s.proceed? i now with
        | none => exact .inl rfl
        | some t =>
          obtain ⟨c', state, w, again, stepped, rfl⟩ := proceed?_eq_some.mp proceeds
          cases there.symm.trans again
          cases Adjudication.step_cases stepped with
          | idle _ _ _ log => exact .inl (congrArg (fun log => EventLog.events log c.spec.stream) log)
          | attempt => exact .inl rfl
          | conflict => exact .inl rfl
          | append holding done =>
            obtain ⟨current, _, grown, _⟩ := EventLog.append_ok done
            exact .inr ⟨c, List.mem_of_getElem? there, _, _, _, rfl, holding, current, grown⟩
      · exact .inl (proceed_others there (Ne.symm own))
  | _ => exact .inl rfl

/-- A system whose requests and replicas agree, and whose nodes are numbered in the order of the stream. -/
structure Numbers (stream : String) (owner : String → Nat × Nat) (s : System) : Prop where
  agrees : s.Agrees stream owner
  consecutive : Consecutive 0 (s.log.creations stream)
  traced : ∀ c ∈ s.calls, c.state.stage.Traced c.spec (s.log.events stream)

private theorem numbers_start (stream : String) (owner : String → Nat × Nat) : ({} : System).Numbers stream owner where
  agrees := agrees_start stream owner
  consecutive := rfl
  traced _ member := absurd member List.not_mem_nil

/-- Records are as records are if they tell of few nodes that are numbered in order. -/
private theorem ordinary_of_consecutive {records : List Recorded} (fits : ∀ r ∈ records, r.data.length < 2 ^ 64)
    (consecutive : Consecutive 0 (records.filterMap Recorded.creates?))
    (few : (records.filterMap Recorded.creates?).length < 2 ^ 64 - 1) : ∀ r ∈ records, r.Ordinary := by
  intro r member
  refine ⟨fits r member, ?_⟩
  intro e decoded id creates
  have told : r.creates? = some id := by
    rw [Recorded.creates?, decoded]
    exact creates
  have bound := consecutive.le (List.mem_filterMap.mpr ⟨r, member, told⟩)
  omega

/-- The nodes of what is appended are numbered on from those in the stream: the attempt was made on a replay
of all of it. -/
private theorem consecutive_append {α : Type} {spec : AdjudicationSpec α} {value : α} {events : List Event}
    {records : List Recorded} (commanded : spec.Commanded)
    (attempted : Attempted spec records value events records.length)
    (consecutive : Consecutive 0 (records.filterMap Recorded.creates?))
    (few : (records.filterMap Recorded.creates?).length + (events.filterMap Event.creates?).length < 2 ^ 64 - 1) :
    Consecutive 0 (records.filterMap Recorded.creates? ++ events.filterMap Event.creates?) := by
  obtain ⟨attempts, store, after, replayed, _, rfl, leads⟩ := attempted.executed commanded
  rw [List.take_length] at replayed
  -- The last identifier of the replica is the number of nodes the stream tells of.
  have last := Graph.lastId_replayRecords replayed consecutive
  have begun : store.graph.lastId.toNat = (records.filterMap Recorded.creates?).length := last.trans (Nat.zero_add _)
  have given : Consecutive store.graph.lastId.toNat (after.events.filterMap Event.creates?) :=
    leads.identifiers rfl (begun ▸ few)
  refine consecutive.append ?_
  rwa [Nat.zero_add, ← begun]

private theorem consecutive_step {m : Move} (numbers : s.Numbers stream owner) (commanding : Commanding stream owner m)
    (fits : ∀ r ∈ (s.step m).log.events stream, r.data.length < 2 ^ 64)
    (few : ((s.step m).log.creations stream).length < 2 ^ 64 - 1) :
    Consecutive 0 ((s.step m).log.creations stream) := by
  unfold EventLog.creations at few ⊢
  rcases step_stream (s := s) commanding with same | ⟨c, member, value, events, expected, _, holding, current, grown⟩
  · rw [same]
    exact numbers.consecutive
  · have traced := numbers.traced c member
    rw [holding] at traced
    have small : ∀ e ∈ events, e.toBytes.length < 2 ^ 64 := by
      intro e among
      obtain ⟨_, stands⟩ := Event.mem_number stream expected among
      exact fits _ (grown ▸ List.mem_append_right _ stands)
    rw [grown, List.filterMap_append, EventLog.creations_number _ _ small] at few ⊢
    rw [List.length_append] at few
    subst current
    exact consecutive_append (numbers.agrees.calls c member).2.1 traced numbers.consecutive few

private theorem traced_step {m : Move} (numbers : s.Numbers stream owner) :
    ∀ c ∈ (s.step m).calls, c.state.stage.Traced c.spec ((s.step m).log.events stream) := by
  have old : ∀ c ∈ s.calls, c.state.stage.Traced c.spec ((s.step m).log.events stream) :=
    fun c member => (numbers.traced c member).mono (step_grows s m stream)
  cases m with
  | call Value replica adjudicator spec =>
    intro c member
    rcases List.mem_append.mp member with before | new
    · exact old c before
    · cases List.mem_singleton.mp new
      trivial
  | proceed i now =>
    simp only [step] at old ⊢
    cases proceeds : s.proceed? i now with
    | none => exact numbers.traced
    | some t =>
      rw [proceeds] at old
      obtain ⟨c, state, w, there, stepped, rfl⟩ := proceed?_eq_some.mp proceeds
      have member : c ∈ s.calls := List.mem_of_getElem? there
      obtain ⟨rfl, _⟩ := numbers.agrees.calls c member
      intro other among
      rcases List.mem_or_eq_of_mem_set among with before | rfl
      · exact old other before
      · exact Adjudication.traced_step (Adjudication.step_cases stepped) (numbers.agrees.inStep.reflects c.replica)
          (numbers.traced c member)
  | consume i now jitter =>
    rw [calls_consume]
    exact old
  | _ => exact old

private theorem numbers_step {m : Move} (numbers : s.Numbers stream owner) (commanding : Commanding stream owner m)
    (fits : ∀ r ∈ (s.step m).log.events stream, r.data.length < 2 ^ 64)
    (few : ((s.step m).log.creations stream).length < 2 ^ 64 - 1) : (s.step m).Numbers stream owner := by
  -- That identifiers stay below the last, on which agreement rests, follows from their being few.
  have consecutive := consecutive_step numbers commanding fits few
  have ordinary := ordinary_of_consecutive fits consecutive few
  exact ⟨agrees_step numbers.agrees commanding ordinary, consecutive, traced_step numbers⟩

theorem numbers_run {moves : List Move} (numbers : s.Numbers stream owner)
    (commanding : ∀ m ∈ moves, Commanding stream owner m)
    (fits : ∀ r ∈ (s.run moves).log.events stream, r.data.length < 2 ^ 64)
    (few : ((s.run moves).log.creations stream).length < 2 ^ 64 - 1) : (s.run moves).Numbers stream owner := by
  induction moves generalizing s with
  | nil => exact numbers
  | cons m rest ih =>
    have grows := run_grows (s.step m) rest stream
    have fewer : ((s.step m).log.creations stream).length ≤ (((s.step m).run rest).log.creations stream).length :=
      (grows.filterMap Recorded.creates?).length_le
    have next := numbers_step numbers (commanding m (.head _)) (fun r member => fits r (grows.subset member))
      (Nat.lt_of_le_of_lt fewer few)
    exact ih next (fun other member => commanding other (.tail _ member)) fits few

/-! ### Replicas take one event at a time -/

private theorem revision_consuming {spec : SubscriberSpec} {subscription : Subscription} {c c' : Consuming}
    {w w' : Following EventLog} {events : List Recorded} {locked : Bool}
    (stepped : Consuming.Stepped spec subscription w c c' w') (inStep : c.InStep events w.replica.revision locked) :
    w'.replica.revision ≤ w.replica.revision + 1 := by
  cases stepped with
  | apply d done =>
    rw [Consuming.applyDelivery_outcome] at done
    split at done
    · cases done
      exact Nat.le_succ _
    · rw [Replica.applyRecorded_outcome] at done
      split at done
      · cases done
        exact inStep.2
      · cases done
  | _ => exact Nat.le_succ _

private theorem revision_subscribing {spec : SubscriberSpec} {before after : Subscribing} {w w' : Following EventLog}
    {events : List Recorded} {locked : Bool} (stepped : SubscriberTask.Stepped spec w before after w')
    (inStep : SubscriberTask.InStep spec events w.replica.revision locked before) :
    w'.replica.revision ≤ w.replica.revision + 1 := by
  cases stepped with
  | consume inner => exact revision_consuming inner inStep.2.2
  | _ => exact Nat.le_succ _

/-- No move takes a replica further than to its next event. -/
private theorem step_next {m : Move} (inStep : s.InStep stream owner) (j : Nat) :
    ((s.step m).replicas j).revision ≤ (s.replicas j).revision + 1 := by
  cases m with
  | proceed i now =>
    simp only [step]
    cases proceeds : s.proceed? i now with
    | none => exact Nat.le_succ _
    | some t =>
      obtain ⟨c, state, w, there, stepped, rfl⟩ := proceed?_eq_some.mp proceeds
      have restored := (frame_of_stepped (Adjudication.step_cases stepped) inStep.inPlace).2.2.2
      have same : w.replica = s.replicas c.replica := restored (inStep.restores c (List.mem_of_getElem? there))
      show (Function.update s.replicas c.replica w.replica j).revision ≤ _
      rw [same, Function.update_eq_self]
      exact Nat.le_succ _
  | consume i now jitter =>
    simp only [step]
    cases consumes : s.consume? i now jitter with
    | none => exact Nat.le_succ _
    | some t =>
      obtain ⟨f, task, w, there, stepped, rfl⟩ := consume?_eq_some.mp consumes
      have safe := (inStep.followers f (List.mem_of_getElem? there)).2.2
      show (Function.update s.replicas f.replica w.replica j).revision ≤ _
      by_cases own : j = f.replica
      · rw [own, Function.update_self]
        exact revision_subscribing (SubscriberTask.step_cases stepped) safe
      · rw [Function.update_of_ne own]
        exact Nat.le_succ _
  | _ => exact Nat.le_succ _

/-- A replica that is as far as some event was taken there by a move, from the event before. -/
private theorem reached_by_move {moves : List Move} {p j : Nat} (commanding : ∀ m ∈ moves, Commanding stream owner m)
    (reached : p + 1 ≤ ((({} : System).run moves).replicas j).revision) :
    ∃ before m after, moves = before ++ m :: after ∧ ((({} : System).run before).replicas j).revision = p ∧
      ((({} : System).run (before ++ [m])).replicas j).revision = p + 1 := by
  induction moves using List.reverseRecOn with
  | nil => cases reached
  | append_singleton moves m ih =>
    have earlier : ∀ m ∈ moves, Commanding stream owner m := fun other member =>
      commanding other (List.mem_append_left _ member)
    by_cases before : p + 1 ≤ ((({} : System).run moves).replicas j).revision
    · obtain ⟨early, move, late, rfl, stood, moved⟩ := ih earlier before
      exact ⟨early, move, late ++ [m], by simp, stood, moved⟩
    · have inStep := inStep_run (inStep_start stream owner) fun other member => (earlier other member).allowed
      have next := step_next (m := m) inStep j
      rw [run_snoc] at reached
      have stood : ((({} : System).run moves).replicas j).revision = p :=
        Nat.le_antisymm (Nat.le_of_lt_succ (Nat.lt_of_not_le before))
          (Nat.le_of_succ_le_succ (Nat.le_trans reached next))
      refine ⟨moves, m, [], rfl, stood, ?_⟩
      rw [run_snoc]
      exact Nat.le_antisymm (stood ▸ next) reached

/-- In the course of a schedule, a replica created a node: a move took it to this revision, at which it knows
the node under an identifier that was free the revision before, and all other nodes as before. -/
def Created (moves : List Move) (j : Nat) (revision : Revision) (node : Node) : Prop :=
  ∃ before m after, moves = before ++ m :: after ∧
    ((({} : System).run before).replicas j).revision + 1 = revision ∧
    ((({} : System).run (before ++ [m])).replicas j).revision = revision ∧
    ((({} : System).run before).replicas j).store.graph.nodes.contains node.id = false ∧
    ((({} : System).run (before ++ [m])).replicas j).store.graph.nodes =
      ((({} : System).run before).replicas j).store.graph.nodes.insert node.id node

/-- A replica that was taken past the event of a node by a move applied the event by that move. -/
private theorem replay_of_reached {records : List Recorded} {r r' : Replica} {p : Nat} {recorded : Recorded}
    (reflects : r.Reflects records) (reflects' : r'.Reflects records) (stood : r.revision = p)
    (moved : r'.revision = p + 1) (found : records[p]? = some recorded) :
    r.store.graph.replayRecord recorded = .ok r'.store.graph := by
  have whole := reflects'.replayed
  rw [moved, List.take_add_one, found, Option.toList_some, Graph.replayRecords, List.foldlM_append,
    bind_eq_ok] at whole
  obtain ⟨before, first, last⟩ := whole
  cases (stood ▸ reflects.replayed).symm.trans first
  simpa using last

private theorem nodes_of_replay {g after : Graph} {kind : NodeKind} {id : NodeId} {name : String} {ds : List NodeId}
    (replayed : g.replay (.nodeCreated kind id name ds) = .ok after) :
    g.nodes.contains id = false ∧ after.nodes = g.nodes.insert id ⟨id, kind, name, ∅⟩ := by
  have inserted : ∃ ds, g.insertNode id kind name ds = .ok after := by
    rw [Event.replay_eq_effect] at replayed
    cases kind <;> exact ⟨_, mapError_eq_ok.mp replayed⟩
  obtain ⟨ds, inserted⟩ := inserted
  obtain ⟨free, _, rfl⟩ := Graph.insertNode_eq_ok.mp inserted
  exact ⟨free, Graph.addNode_nodes ..⟩

/-- Replicas are replays of all that the stream becomes. -/
private theorem reflects_earlier {early late : List Move} (commanding : ∀ m ∈ early ++ late, Commanding stream owner m)
    (j : Nat) : ((({} : System).run early).replicas j).Reflects
      ((({} : System).run (early ++ late)).log.events stream) := by
  have inStep := inStep_run (inStep_start stream owner) fun m (member : m ∈ early) =>
    (commanding m (List.mem_append_left _ member)).allowed
  rw [run_append]
  exact (inStep.reflects j).mono (run_grows _ _ _)

private theorem created_of_reached {moves : List Move} {p j : Nat} {recorded : Recorded} {kind : NodeKind} {id : NodeId}
    {name : String} {ds : List NodeId} (commanding : ∀ m ∈ moves, Commanding stream owner m)
    (found : ((({} : System).run moves).log.events stream)[p]? = some recorded)
    (decoded : recorded.event = .ok (.nodeCreated kind id name ds))
    (reached : p + 1 ≤ ((({} : System).run moves).replicas j).revision) :
    Created moves j (p + 1) ⟨id, kind, name, ∅⟩ := by
  obtain ⟨before, m, after, rfl, stood, moved⟩ := reached_by_move commanding reached
  have reflects := reflects_earlier commanding j
  rw [List.append_cons] at commanding found reflects
  have again := replay_of_reached reflects (reflects_earlier commanding j) stood moved found
  rw [Graph.replayRecord, decoded] at again
  obtain ⟨free, nodes⟩ := nodes_of_replay again
  exact ⟨before, m, after, rfl, congrArg (· + 1) stood, moved, free, nodes⟩

end System

/-! ### What requests are answered -/

/-- What a request of commands was answered, the events it appended, and the revision of the last of them. -/
structure Acknowledgement where
  plugins : SortedSet String
  author : Author
  commands : List Command
  outcomes : List Outcome
  events : List Event
  revision : Revision

/-- A request that succeeded, made of one command or of a batch of them. -/
inductive Call.Acknowledged : Call → Acknowledgement → Prop
  | command {replica adjudicator : Nat} {config : AdjudicatorConfig} {stream : String} {plugins : SortedSet String}
    {author : Author} {c : Command} {state : Adjudication Outcome} {outcome : Outcome} {events : List Event}
    {revision : Revision} (answered : state.result? = some (.ok ⟨outcome, events, revision⟩)) :
    Acknowledged
      ⟨Outcome, replica, adjudicator, { config, stream, plugins, request := fun _ => c.execute author }, state⟩
      ⟨plugins, author, [c], [outcome], events, revision⟩
  | batch {replica adjudicator : Nat} {config : AdjudicatorConfig} {stream : String} {plugins : SortedSet String}
    {author : Author} {commands : List Command} {state : Adjudication (List Outcome)} {outcomes : List Outcome}
    {events : List Event} {revision : Revision} (answered : state.result? = some (.ok ⟨outcomes, events, revision⟩)) :
    Acknowledged
      ⟨List Outcome, replica, adjudicator,
        { config, stream, plugins, request := fun _ => Command.executeBatch author commands }, state⟩
      ⟨plugins, author, commands, outcomes, events, revision⟩

namespace Acknowledgement

/-- The commands were carried out on the replay of the stream up to some revision, and what they recorded
stands in the stream right behind it. -/
structure Ran (a : Acknowledgement) (name : String) (stream : List Recorded) (expected : Revision) (store : Store)
    (after : Workspace) : Prop where
  revises : a.revision = expected + a.events.length
  within : expected ≤ stream.length
  replayed : Graph.replayRecords ∅ (stream.take expected) = .ok store.graph
  executed : (Command.executeSequence a.author a.commands).outcome (Workspace.lend a.plugins store) =
    (.ok a.outcomes, after)
  recorded : after.events = a.events
  stands : stream.take expected ++ EventLog.number name expected (a.events.map record) <+: stream

/-- One of the commands left an event: where the commands before it lead from the replay of the stream up to
some revision, it is answered so and records this event only, which stands in the stream at its place. -/
structure Leaves (a : Acknowledgement) (stream : List Recorded) (k : Nat) (c : Command) (o : Outcome) (e : Event)
    (expected : Revision) (store : Store) (middle next : Workspace) : Prop where
  asked : a.commands[k]? = some c
  revises : a.revision = expected + a.events.length
  replayed : Graph.replayRecords ∅ (stream.take expected) = .ok store.graph
  before : (Command.executeSequence a.author (a.commands.take k)).outcome (Workspace.lend a.plugins store) =
    (.ok (a.outcomes.take k), middle)
  executed : (c.execute a.author).outcome middle = (.ok o, next)
  recorded : next.events = middle.events ++ [e]
  within : next.events <+: a.events
  stands : ∃ recorded, stream[expected + middle.events.length]? = some recorded ∧
    recorded.revision = expected + middle.events.length + 1 ∧ recorded.event = .ok e

variable {a : Acknowledgement} {name : String} {stream : List Recorded} {expected : Revision} {store : Store}
  {after : Workspace}

private theorem ran_of_traced {c : Call} (acknowledged : c.Acknowledged a)
    (traced : c.state.stage.Traced c.spec stream) :
    ∃ expected store after, a.Ran c.spec.stream stream expected store after := by
  cases acknowledged with
  | @command _ _ config name plugins author c state outcome events revision answered =>
    rw [System.stage_of_result? answered] at traced
    obtain ⟨expected, attempted, revises, stands⟩ := traced
    obtain ⟨_, store, after, replayed, executed, recorded, _⟩ :=
      attempted.executed (.command config name plugins author c)
    refine ⟨expected, store, after, revises, attempted.within, replayed, ?_, recorded, stands⟩
    exact outcome_bind_eq_ok.mpr ⟨_, after, executed, rfl⟩
  | @batch _ _ config name plugins author commands state outcomes events revision answered =>
    rw [System.stage_of_result? answered] at traced
    obtain ⟨expected, attempted, revises, stands⟩ := traced
    obtain ⟨_, store, after, replayed, executed, recorded, _⟩ :=
      attempted.executed (.batch config name plugins author commands)
    refine ⟨expected, store, after, revises, attempted.within, replayed, ?_, recorded, stands⟩
    rw [← Command.executeBatch_workspace Nat.zero_lt_one]
    exact executed

/-- The events stand in the stream behind the revision the commands were carried out at. -/
private theorem Ran.stands_at {i : Nat} {e : Event} (ran : a.Ran name stream expected store after)
    (there : a.events[i]? = some e) :
    stream[expected + i]? = some ⟨name, expected + i + 1, e.schema, e.toBytes⟩ := by
  have front : (stream.take expected).length = expected := List.length_take_of_le ran.within
  have found : (stream.take expected ++ EventLog.number name expected (a.events.map record))[expected + i]? =
      some ⟨name, expected + i + 1, e.schema, e.toBytes⟩ := by
    rw [List.getElem?_append_right (by omega), front, Nat.add_sub_cancel_left, EventLog.number_get?,
      List.getElem?_map, there]
    rfl
  obtain ⟨rest, split⟩ := ran.stands
  rw [← split, List.getElem?_append_left (List.getElem?_eq_some_iff.mp found).1]
  exact found

private theorem Ran.leaves {k : Nat} {id : NodeId} (ran : a.Ran name stream expected store after)
    (fits : ∀ r ∈ stream, r.data.length < 2 ^ 64) (answered : a.outcomes[k]? = some (.nodeCreated id)) :
    ∃ c kind name ds middle next, c.createdNode? = some (kind, name) ∧
      a.Leaves stream k c (.nodeCreated id) (.nodeCreated kind id name ds) expected store middle next := by
  obtain ⟨c, middle, next, asked, before, executed, kept⟩ := Command.executeSequence_answer ran.executed answered
  obtain ⟨kind, name, ds, creates, recorded⟩ := Command.execute_created executed
  rw [ran.recorded] at kept
  have there : a.events[middle.events.length]? = some (.nodeCreated kind id name ds) := by
    obtain ⟨rest, split⟩ := kept
    rw [← split, recorded, List.append_assoc, List.getElem?_append_right (Nat.le_refl _), Nat.sub_self]
    rfl
  have found := ran.stands_at there
  have decoded := Event.ofBytes_toBytes (fits _ (List.mem_of_getElem? found))
  exact ⟨c, kind, name, ds, middle, next, creates,
    ⟨asked, ran.revises, ran.replayed, before, executed, recorded, kept, _, found, rfl, decoded⟩⟩

end Acknowledgement

namespace System

variable {stream : String} {owner : String → Nat × Nat}

/-- However requests and subscribers are interleaved, as long as only commands are appended and identifiers are
left: the nodes of the stream are numbered from one on, in the order of their events. Where a command was
answered with an identifier, the event it left in the stream carries this identifier, and each replica
that is as far as this event created a node of the kind and name of the command under this identifier
when it got there. -/
theorem identifiers_agree {stream : String} {owner : String → Nat × Nat} {moves : List Move}
    (commanding : ∀ m ∈ moves, Commanding stream owner m)
    (fits : ∀ r ∈ (({} : System).run moves).log.events stream, r.data.length < 2 ^ 64)
    (few : ((({} : System).run moves).log.creations stream).length < 2 ^ 64 - 1) :
    ((({} : System).run moves).log.creations stream).map (·.value.toNat) =
        List.range' 1 ((({} : System).run moves).log.creations stream).length ∧
      ∀ c ∈ (({} : System).run moves).calls, ∀ a, c.Acknowledged a →
        ∀ k id, a.outcomes[k]? = some (.nodeCreated id) →
          ∃ command kind name ds expected store middle next, command.createdNode? = some (kind, name) ∧
            a.Leaves ((({} : System).run moves).log.events stream) k command (.nodeCreated id)
              (.nodeCreated kind id name ds) expected store middle next ∧
            ∀ j, expected + middle.events.length + 1 ≤ ((({} : System).run moves).replicas j).revision →
              Created moves j (expected + middle.events.length + 1) ⟨id, kind, name, ∅⟩ := by
  have numbers := numbers_run (numbers_start stream owner) commanding fits few
  refine ⟨numbers.consecutive, ?_⟩
  intro c member a acknowledged k id answered
  obtain ⟨expected, store, after, ran⟩ := Acknowledgement.ran_of_traced acknowledged (numbers.traced c member)
  obtain ⟨command, kind, name, ds, middle, next, creates, leaves⟩ := ran.leaves fits answered
  refine ⟨command, kind, name, ds, expected, store, middle, next, creates, leaves, ?_⟩
  obtain ⟨recorded, found, _, decoded⟩ := leaves.stands
  exact fun j reached => created_of_reached commanding found decoded reached

/-- A request for a policy class on another replica, whose attempt comes to nothing. -/
def createGuests : AdjudicationSpec Outcome :=
  { createStaff with request := fun _ => (Command.createPolicyClass "guests").execute ⟨⟨0⟩, none⟩ }

/-- Two requests are tried at once. One is appended, so that the other has to be tried again. -/
def contending : List Move :=
  [.call Outcome 0 0 createStaff, .call Outcome 1 1 createGuests] ++ List.replicate 5 (.proceed 1 0) ++
    List.replicate 9 (.proceed 0 0) ++ List.replicate 2 (.proceed 0 10000) ++ [.proceed 1 0]

/-- The replica on which the other was tried applies what was appended. -/
def contendingApplied : List Move := contending ++ .follow 1 0 usual :: List.replicate 8 (.consume 0 0 (.ofSecs 0))

theorem contendingApplied_creates :
    (({} : System).run contendingApplied).log.creations "policy" = [⟨1⟩] ∧
      Created contendingApplied 1 1 ⟨⟨1⟩, .policyClass, "staff", ∅⟩ := by
  have commanding : ∀ m ∈ contendingApplied, Commanding "policy" (fun _ => (1, 0)) m := by
    have staff : createStaff.Commanded := .command {} "policy" ∅ ⟨⟨0⟩, none⟩ (.createPolicyClass "staff")
    have guests : createGuests.Commanded := .command {} "policy" ∅ ⟨⟨0⟩, none⟩ (.createPolicyClass "guests")
    simp only [contendingApplied, contending, List.forall_mem_append, List.forall_mem_cons, List.forall_mem_replicate]
    exact ⟨⟨⟨⟨⟨⟨⟨rfl, staff⟩, ⟨rfl, guests⟩, List.forall_mem_nil _⟩, .inr trivial⟩, .inr trivial⟩, .inr trivial⟩,
      trivial, List.forall_mem_nil _⟩, ⟨rfl, rfl⟩, .inr trivial⟩
  let e : Event := .policyClassCreated ⟨1⟩ "staff"
  have events : (({} : System).run contendingApplied).log.events "policy" = [⟨"policy", 1, e.schema, e.toBytes⟩] := by
    decide +kernel
  have fits : ∀ r ∈ (({} : System).run contendingApplied).log.events "policy", r.data.length < 2 ^ 64 := by
    rw [events]
    intro r member
    cases List.mem_singleton.mp member
    decide
  have created : (({} : System).run contendingApplied).log.creations "policy" = [⟨1⟩] := by
    decide +kernel
  have there : ⟨Outcome, 0, 0, createStaff, 1, .finished (.ok staffCreated)⟩ ∈
      (({} : System).run contendingApplied).calls := by
    have same : (({} : System).run contendingApplied).calls = (({} : System).run contending).calls := by
      rw [contendingApplied, run_append]
      simp only [run, List.replicate, List.foldl_cons, List.foldl_nil, calls_consume]
      rfl
    rw [same]
    exact List.mem_of_getElem? (i := 0) rfl
  obtain ⟨_, answers⟩ := identifiers_agree commanding fits (by rw [created]; decide)
  obtain ⟨command, kind, name, ds, expected, store, middle, next, creates, leaves, created'⟩ :=
    answers _ there _ (.command rfl) 0 ⟨1⟩ rfl
  cases leaves.asked
  cases creates
  cases leaves.before
  have first : expected = 0 := Nat.succ.inj leaves.revises.symm
  subst first
  have reached : ((({} : System).run contendingApplied).replicas 1).revision = 1 := by decide +kernel
  exact ⟨created, created' 1 (Nat.le_of_eq reached.symm)⟩

end System
end PolicyLedger
