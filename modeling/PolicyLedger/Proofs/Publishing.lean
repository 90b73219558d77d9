import PolicyLedger.Proofs.Agreement
import PolicyLedger.Proofs.Attempts

/-!
What a request publishes. A recorder takes the text of an obligation, an operation or a routine as it is
given, while repeating the event compiles it. So what an attempt appended repeats up to the first event
whose text is not the declaration it is said to be, and as a whole if there is none.
-/
namespace PolicyLedger
open PolicyLedger.Action PolicyLedger.Graph

/-! ### Following a recording whose texts pass -/

/-- A graph that followed a recording whose texts all passed. It is the graph shown meanwhile but for
obligations and routines: it has obligations of the same names, and routines of the same names apart from
those of plugins. -/
structure Trails (plugins : SortedSet String) (shown follower : Graph) : Prop where
  rest : follower = shown.withRules follower.obligations follower.routines
  obligations : ∀ name, follower.obligations.contains name = shown.obligations.contains name
  routines : ∀ name, plugins.contains name = false →
    follower.routines.contains name = shown.routines.contains name

namespace Trails

variable {plugins : SortedSet String} {shown after follower : Graph}

private theorem start (plugins : SortedSet String) (g : Graph) :
    Trails plugins g g := ⟨rfl, fun _ => rfl, fun _ _ => rfl⟩

private theorem lastId (trails : Trails plugins shown follower) : follower.lastId = shown.lastId := by
  rw [trails.rest]
  rfl

private theorem numbered (trails : Trails plugins shown follower) (numbered : shown.Numbered) : follower.Numbered := by
  rw [trails.rest]
  exact numbered

/-- An obligation is repeated with the text as it was compiled, which need not be the text as it was given. -/
private theorem move_createObligation {obligation : Obligation} {o : Outcome} (trails : Trails plugins shown follower)
    (made : shown.apply (.createObligation obligation) = .ok (o, after))
    (checked : (Event.obligationCreated obligation).checkText = .ok ()) :
    ∃ next, follower.replay (.obligationCreated obligation) = .ok next ∧ Trails plugins after next := by
  have .createObligation free := apply_eq_ok.mp made
  obtain ⟨statement, declares⟩ := discard_eq_ok.mp checked
  obtain ⟨text, rfl⟩ := Event.declaration_ok declares
  let compiled : Obligation := ⟨obligation.author, obligation.name, text⟩
  have unused : follower.obligations.contains compiled.name = false := (trails.obligations _).trans free
  refine ⟨{ follower with obligations := follower.obligations.insert compiled.name compiled }, ?_, ?_, ?_,
    trails.routines⟩
  · rw [Event.replay_eq_effect, Event.effect, declares]
    exact Event.changed_eq_ok.mpr ⟨_, apply_eq_ok.mpr (.createObligation unused)⟩
  · conv => lhs; rw [trails.rest]
    rfl
  · intro name
    show (follower.obligations.insert obligation.name _).contains name =
      (shown.obligations.insert obligation.name _).contains name
    rw [Bool.eq_iff_iff, SortedMap.contains_insert, SortedMap.contains_insert, trails.obligations]

private theorem move_deleteObligation {name : String} {o : Outcome} (trails : Trails plugins shown follower)
    (made : shown.apply (.deleteObligation name) = .ok (o, after)) :
    ∃ next, follower.replay (.obligationDeleted name) = .ok next ∧ Trails plugins after next := by
  have .deleteObligation found := apply_eq_ok.mp made
  have there := apply_eq_ok.mpr (.deleteObligation ((trails.obligations name).trans found))
  refine ⟨_, (Event.replay_eq_effect _).trans (Event.changed_eq_ok.mpr ⟨_, there⟩), ?_, ?_, trails.routines⟩
  · conv => lhs; rw [trails.rest]
    rfl
  · intro other
    show (follower.obligations.erase name).contains other = (shown.obligations.erase name).contains other
    rw [Bool.eq_iff_iff, SortedMap.contains_erase, SortedMap.contains_erase, trails.obligations]

private theorem move_createRoutine {routine : Routine} {o : Outcome} (trails : Trails plugins shown follower)
    (numbered : shown.Numbered) (allowed : Recorder.refusal? plugins (.createRoutine routine) = none)
    (made : shown.apply (.createRoutine routine) = .ok (o, after)) (left : after.lastId.toNat < 2 ^ 64 - 1)
    (checked : ∀ e, Recorder.recorded? plugins (.createRoutine routine) o = some e → e.checkText = .ok ()) :
    ∃ next, follower.replayAll (Recorder.recorded? plugins (.createRoutine routine) o).toList = .ok next ∧
      Trails plugins after next := by
  have .createRoutine free := apply_eq_ok.mp made
  by_cases plugin : plugins.contains routine.name = true
  · refine ⟨follower, ?_, trails.rest, trails.obligations, ?_⟩
    · simp only [Recorder.recorded?, plugin, if_true]
      rfl
    · intro name others
      show _ = (shown.routines.insert routine.name _).contains name
      have differs : name ≠ routine.name := by
        rintro rfl
        cases plugin.symm.trans others
      rw [trails.routines name others, Bool.eq_iff_iff, SortedMap.contains_insert, or_iff_right differs]
  · rw [Bool.not_eq_true] at plugin
    obtain ⟨e, recorded, told⟩ := Recorder.recorded_createRoutine plugin allowed .applied
    have there := apply_eq_ok.mpr (.createRoutine ((trails.routines _ plugin).trans free))
    have other : ∀ obligation, Mutation.createRoutine routine ≠ .createObligation obligation := by
      intro _ same
      cases same
    have again := Event.replay_of_checked (trails.numbered numbered) there (trails.lastId ▸ left) other told
      (checked e recorded)
    refine ⟨_, Graph.replayAll_toList recorded again, ?_, trails.obligations, ?_⟩
    · conv => lhs; rw [trails.rest]
      rfl
    · intro name others
      show (follower.routines.insert routine.name _).contains name =
        (shown.routines.insert routine.name _).contains name
      rw [Bool.eq_iff_iff, SortedMap.contains_insert, SortedMap.contains_insert, trails.routines name others]

private theorem move_deleteRoutine {name : String} {o : Outcome} (trails : Trails plugins shown follower)
    (allowed : Recorder.refusal? plugins (.deleteRoutine name) = none)
    (made : shown.apply (.deleteRoutine name) = .ok (o, after)) :
    ∃ next, follower.replay (.routineDeleted name) = .ok next ∧ Trails plugins after next := by
  have .deleteRoutine found := apply_eq_ok.mp made
  have plugin := Recorder.others_of_deleteRoutine allowed
  have there := apply_eq_ok.mpr (.deleteRoutine ((trails.routines name plugin).trans found))
  refine ⟨_, (Event.replay_eq_effect _).trans (Event.changed_eq_ok.mpr ⟨_, there⟩), ?_, trails.obligations, ?_⟩
  · conv => lhs; rw [trails.rest]
    rfl
  · intro other others
    show (follower.routines.erase name).contains other = (shown.routines.erase name).contains other
    rw [Bool.eq_iff_iff, SortedMap.contains_erase, SortedMap.contains_erase, trails.routines other others]

/-- Whatever change is made to the graph shown, the follower goes along if the text recorded of it passes. -/
private theorem move {m : Mutation} {o : Outcome} (trails : Trails plugins shown follower) (numbered : shown.Numbered)
    (allowed : Recorder.refusal? plugins m = none) (made : shown.apply m = .ok (o, after))
    (left : after.lastId.toNat < 2 ^ 64 - 1)
    (checked : ∀ e, Recorder.recorded? plugins m o = some e → e.checkText = .ok ()) :
    ∃ next, follower.replayAll (Recorder.recorded? plugins m o).toList = .ok next ∧ Trails plugins after next := by
  by_cases onRules : m.onRules = true
  · cases m with
    | createObligation obligation =>
      obtain ⟨next, again, trails⟩ := trails.move_createObligation made (checked _ rfl)
      exact ⟨next, Graph.replayAll_toList rfl again, trails⟩
    | deleteObligation name =>
      obtain ⟨next, again, trails⟩ := trails.move_deleteObligation made
      exact ⟨next, Graph.replayAll_toList rfl again, trails⟩
    | createRoutine routine => exact trails.move_createRoutine numbered allowed made left checked
    | deleteRoutine name =>
      obtain ⟨next, again, trails⟩ := trails.move_deleteRoutine allowed made
      exact ⟨next, Graph.replayAll_toList rfl again, trails⟩
    | _ => cases onRules
  · rw [Bool.not_eq_true] at onRules
    have onRoutines : m.onRoutines = false := by cases m <;> first | rfl | cases onRules
    have other : ∀ obligation, m ≠ .createObligation obligation := by
      rintro _ rfl
      cases onRules
    obtain ⟨e, recorded, told⟩ := Recorder.recorded_of_apply onRoutines allowed made
    -- The follower has other rules than the graph shown, to which this change is blind.
    have there := apply_withRules follower.obligations follower.routines onRules made
    rw [← trails.rest] at there
    have again := Event.replay_of_checked (trails.numbered numbered) there left other told (checked e recorded)
    obtain ⟨obligations, routines⟩ := apply_rules onRules made
    refine ⟨_, Graph.replayAll_toList recorded again, rfl, ?_, ?_⟩
    · intro name
      rw [obligations]
      exact trails.obligations name
    · intro name others
      rw [routines]
      exact trails.routines name others

end Trails

namespace Workspace

variable {test : Mutation → Prop} {r r' : Workspace} {follower : Graph}

/-- What was recorded repeats up to the first text that does not pass, if there is one. -/
private theorem Leads.trails (leads : Leads test r r') (numbered : r.inner.store.graph.Numbered)
    (left : r'.inner.store.graph.lastId.toNat < 2 ^ 64 - 1)
    (begun : Trails r.plugins r.inner.store.graph follower) :
    ∃ events, r'.events = r.events ++ events ∧
      (follower.replayAll events).map (fun _ => ()) = events.forM Event.checkText := by
  induction leads generalizing follower with
  | stay => exact ⟨[], (List.append_nil _).symm, rfl⟩
  | @move r r' m o after tested allowed made later ih =>
    have below := Nat.lt_of_le_of_lt (UInt64.le_iff_toNat_le.mp later.numbered.1) left
    by_cases checked : ∀ e, Recorder.recorded? r.plugins m o = some e → e.checkText = .ok ()
    · obtain ⟨middle, moved, trails⟩ := begun.move numbered allowed made below checked
      obtain ⟨events, added, replayed⟩ := ih ((apply_numbered made).2 numbered) left trails
      refine ⟨(Recorder.recorded? r.plugins m o).toList ++ events, added.trans (List.append_assoc ..), ?_⟩
      have passed : (Recorder.recorded? r.plugins m o).toList.forM Event.checkText = .ok () :=
        forM_eq_ok.mpr fun e member => checked e (Option.mem_toList.mp member)
      have goesOn : follower.replayAll ((Recorder.recorded? r.plugins m o).toList ++ events) =
          middle.replayAll events := by
        rw [replayAll, List.foldlM_append, show List.foldlM _ _ _ = _ from moved]
        rfl
      rw [goesOn, replayed, List.forM_eq_forM, List.forM_append, ← List.forM_eq_forM, passed]
      rfl
    · -- The rest of the recording does not matter: repeating it fails here, as the check does.
      simp only [not_forall] at checked
      obtain ⟨e, recorded, fails⟩ := checked
      obtain ⟨events, added⟩ := later.events
      refine ⟨e :: events, ?_, ?_⟩
      · rw [← added]
        show r.events ++ (Recorder.recorded? r.plugins m o).toList ++ events = _
        rw [recorded]
        exact List.append_assoc ..
      · rcases wrong : e.checkText with x | _
        · rw [replayAll, List.foldlM_cons, Event.replay_of_checkText_error wrong]
          show _ = (do e.checkText; events.forM Event.checkText)
          rw [wrong]
          rfl
        · exact absurd wrong fails

end Workspace

/-! ### Requests that leave transactions alone -/

namespace Request

variable {α : Type}

/-- Whether a request makes no transaction calls of its own, whatever it is answered. -/
inductive Plain : Request α → Prop
  | done (result : Except CommandError α) : Plain (done result)
  | ask {next : Graph → Request α} (later : ∀ g, Plain (next g)) : Plain (ask next)
  | change {m : Mutation} {next : Except PolicyError Outcome → Request α} (later : ∀ answer, Plain (next answer)) :
    Plain (change m next)

private theorem Plain.makes {q : Request α} (plain : q.Plain) : Workspace.Makes (fun _ => True) q.act := by
  induction plain with
  | done result => exact Workspace.makes_ofExcept result
  | ask _ ih => exact fun r => ih (PolicyState.graph r) r
  | change _ ih => exact fun r => (Workspace.makes_perform trivial r).trans (ih _ _)

end Request

namespace Adjudication

variable {α : Type}

/-- What an attempt recorded repeats on the graph it was made on up to the first text that does not pass. -/
private theorem runScratch_trails {plugins : SortedSet String} {q : Request α} {store : Store} {value : α}
    {events : List Event} (plain : q.Plain) (ran : (runScratch plugins q.act store).1 = .ok (value, events))
    (numbered : store.graph.Numbered) (left : store.graph.lastId.toNat < 2 ^ 64 - 1)
    (created : ∀ e ∈ events, ∀ id, e.creates? = some id → id.value.toNat < 2 ^ 64 - 1) :
    (store.graph.replayAll events).map (fun _ => ()) = events.forM Event.checkText := by
  have leads := plain.makes (Workspace.lend plugins store)
  obtain ⟨after, acted, rfl⟩ := Workspace.outcome_of_runScratch leads ran
  rw [acted] at leads
  obtain ⟨events, added, replayed⟩ :=
    leads.trails numbered (leads.lastId_lt left created) (Trails.start plugins store.graph)
  have all : after.events = events := added
  rw [all]
  exact replayed

variable {request : Nat → Request α} {attempts : Nat} {w : Adjudicating EventLog} {log log' : EventLog}
  {value : α} {events : List Event} {revision : Revision}

/-- What an attempt recorded on a replica of a whole stream, and then appended to it, is applied by every
replica that is where the first one was, up to the first event whose text is not the declaration it is said to
be: all of it exactly if every text passes. -/
theorem appended_repeats (spec : AdjudicationSpec α) (plain : (request attempts).Plain)
    (reflects : w.replica.Reflects (log.events spec.stream))
    (attempted : (attempt { spec with request := fun n => (request n).act } attempts w).1 = .ok (value, events))
    (appended : (EventLog.append spec.stream w.replica.revision (events.map record)).outcome log = (.ok revision, log'))
    (ordinary : ∀ r ∈ log'.events spec.stream, r.Ordinary) {replica : Replica}
    (same : replica.store.graph = w.replica.store.graph) :
    ((Replica.applyAll ((log'.events spec.stream).drop w.replica.revision)).outcome replica).1 =
      events.forM Event.checkText := by
  obtain ⟨current, _, grown, _⟩ := EventLog.append_ok appended
  have small : ∀ e ∈ events, e.Ordinary := Event.ordinary_of_number fun r among =>
    ordinary r (grown ▸ List.mem_append_right _ among)
  have old : ∀ r ∈ (log.events spec.stream).take w.replica.revision, r.Ordinary := fun r member =>
    ordinary r (grown ▸ List.mem_append_left _ (List.mem_of_mem_take member))
  have numbers := Graph.replayRecords_numbers reflects.replayed Graph.numbered_empty (by decide) old
  have ran : (runScratch spec.plugins (request attempts).act w.replica.store).1 = .ok (value, events) := attempted
  have repeated := runScratch_trails plain ran numbers.1 numbers.2 fun e member => (small e member).identifiers
  rw [grown, List.drop_left' current,
    Replica.applyAll_result, Graph.replayRecords_number _ _ fun e member => (small e member).bytes, same]
  exact repeated

/-- A request for one obligation. -/
def obliging (source : String) : Request Outcome :=
  .change (.createObligation ⟨⟨⟨1⟩, none⟩, "audit", source⟩) fun
    | .ok outcome => .done (.ok outcome)
    | .error e => .done (.error (.policy e))

private theorem plain_obliging (source : String) : (obliging source).Plain := by
  refine .change fun answer => ?_
  cases answer with
  | ok outcome => exact .done _
  | error e => exact .done _

def obligingSpec (source : String) : AdjudicationSpec Outcome :=
  { config := {}, stream := "policy", plugins := ∅, request := fun _ => (obliging source).act }

/-- An obligation whose text is its declaration is recorded, appended and applied. -/
theorem obliging_repeats : ∃ log revision, (EventLog.append "policy" 0
      [record (.obligationCreated ⟨⟨⟨1⟩, none⟩, "audit", "create obligation \"audit\" \x7b\x7d"⟩)]).outcome {} =
        (.ok revision, log) ∧
    ((Replica.applyAll (log.events "policy")).outcome {}).1 = .ok () := by
  let source := "create obligation \"audit\" \x7b\x7d"
  let e : Event := .obligationCreated ⟨⟨⟨1⟩, none⟩, "audit", source⟩
  let w : Adjudicating EventLog := ⟨{}, {}, ⟨0, 0⟩, 0⟩
  have attempted : (attempt { obligingSpec source with request := fun _ => (obliging source).act } 0 w).1 =
      .ok (.applied, [e]) := by decide +kernel
  let log : EventLog := ((EventLog.append "policy" 0 [record e]).outcome {}).2
  have appended : (EventLog.append "policy" 0 [record e]).outcome {} = (.ok 1, log) := by decide +kernel
  have events : log.events "policy" = [⟨"policy", 1, e.schema, e.toBytes⟩] := by decide +kernel
  have ordinary : ∀ r ∈ log.events "policy", r.Ordinary := by
    rw [events]
    intro r member
    cases List.mem_singleton.mp member
    refine ⟨by decide +kernel, ?_⟩
    intro e decoded id told
    cases decoded.symm.trans (Event.ofBytes_toBytes (by decide +kernel))
    cases told
  refine ⟨log, 1, appended, ?_⟩
  exact (appended_repeats (obligingSpec source) (plain_obliging source) ⟨Nat.zero_le _, rfl⟩ attempted appended ordinary
    rfl).trans (by decide +kernel)

/-- The request is made and answered, and a subscriber gets the event until it gives up. -/
def obligingFollowed (source : String) : List Move :=
  .call Outcome 0 0 (obligingSpec source) :: (List.replicate 9 (.proceed 0 0) ++ List.replicate 2 (.proceed 0 10000) ++
    .follow 0 0 System.usual :: List.replicate 30 (.consume 0 0 (.ofSecs 0)))

/-- An obligation whose text is nothing is recorded, appended and acknowledged as well, and then no replica can
apply it: the lockdown is engaged. -/
theorem obliging_locks_down :
    let s := ({} : System).run (obligingFollowed "x")
    (obliging "x").Plain ∧ s.calls.map (fun c => c.state.result?.map Except.toBool) = [some true] ∧
      s.log.events "policy" = EventLog.number "policy" 0 [record (.obligationCreated ⟨⟨⟨1⟩, none⟩, "audit", "x"⟩)] ∧
      (s.replicas 0).revision = 0 ∧ s.lockdowns 0 = true := by
  refine ⟨plain_obliging "x", ?_⟩
  decide +kernel

end Adjudication
end PolicyLedger
