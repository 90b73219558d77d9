import PolicyLedger.Log.Scripted
import PolicyLedger.Proofs.CatchingUp

/-!
A subscriber with a replica and a group of its own, delivery by delivery, while others use the log. Where it
stands is told by how many events it is done with and how often the next one was tried, down to the entries
of its journal; and each step of its own takes it one place further, unless all is done or there is nothing
to deliver. So an event that can not be repeated is tried as often as it may be, then parked, and is the last.
-/
namespace PolicyLedger
open PolicyLedger.Action

/-- What a step says of the delivery at hand: that it was taken, or how it was answered. -/
def Consuming.entry? : Consuming → Consuming → Option JournalEntry
  | _, .received d => some (.delivered d.revision d.retryCount.toNat)
  | .acknowledging d, .announcing _ => some (.acknowledged d.revision)
  | .rejecting d e .retry, .ready => some (.retried d.revision e.message)
  | .rejecting d e .park, .ready => some (.parked d.revision e.message)
  | _, _ => none

/-- A subscriber at work on a subscription, and what it has done with the deliveries so far, oldest first. -/
structure Consumption where
  phase : Consuming := .ready
  world : Following EventLog
  journal : List JournalEntry := []

namespace Consumption

/-- What can happen next: a step of the subscriber, or of somebody else who uses the log. -/
inductive Turn where
  | own
  | other (m : LogMove)
  deriving DecidableEq

/-- A turn. A step that can not be made changes nothing. -/
def step (spec : SubscriberSpec) (s : Subscription) (c : Consumption) : Turn → Consumption
  | .own =>
    match c.phase.step spec s c.world with
    | some (phase, world) => ⟨phase, world, c.journal ++ (c.phase.entry? phase).toList⟩
    | none => c
  | .other m => { c with world := { c.world with log := c.world.log.step m } }

def run (spec : SubscriberSpec) (s : Subscription) (c : Consumption) (turns : List Turn) : Consumption :=
  turns.foldl (step spec s) c

theorem run_append (spec : SubscriberSpec) (s : Subscription) (c : Consumption) (turns more : List Turn) :
    c.run spec s (turns ++ more) = (c.run spec s turns).run spec s more := List.foldl_append

/-- Nobody else answers for the group of the subscription, and nobody ends it. -/
def Undisturbed (s : Subscription) (turns : List Turn) : Prop :=
  ∀ m, .other m ∈ turns → m.Spares s.stream s.group

theorem undisturbed_append {s : Subscription} {early late : List Turn} (undisturbed : Undisturbed s (early ++ late)) :
    Undisturbed s early ∧ Undisturbed s late :=
  ⟨fun m among => undisturbed m (List.mem_append_left late among),
    fun m among => undisturbed m (List.mem_append_right early among)⟩

end Consumption

/-! ### Journals -/

/-- The entries of events that were repeated at once. -/
def handled (n : Nat) : List JournalEntry :=
  (List.range' 1 n).flatMap fun revision => [.delivered revision 0, .acknowledged revision]

/-- The entries of an event that was tried so often, and each time rejected to be tried again. -/
def refused (revision : Revision) (tries : Nat) (reason : String) : List JournalEntry :=
  (List.range tries).flatMap fun before => [.delivered revision before, .retried revision reason]

/-- The entries of an event that was given up. -/
def gaveUp (revision : Revision) (tries : Nat) (reason : String) : List JournalEntry :=
  refused revision tries reason ++ [.delivered revision tries, .parked revision reason]

private theorem handled_succ (n : Nat) :
    handled (n + 1) = handled n ++ [.delivered (n + 1) 0, .acknowledged (n + 1)] := by
  rw [handled, List.range'_1_concat, List.flatMap_append, Nat.add_comm 1]
  rfl

private theorem refused_succ (revision : Revision) (tries : Nat) (reason : String) :
    refused revision (tries + 1) reason =
      refused revision tries reason ++ [.delivered revision tries, .retried revision reason] := by
  rw [refused, List.range_succ, List.flatMap_append]
  rfl

/-! ### Where a subscriber stands -/

/-- The next event of a stream, and why a replica can not repeat it. -/
structure Replica.StuckAt (events : List Recorded) (event : Recorded) (x : ReplayError) (r : Replica) : Prop where
  next : events[r.revision]? = some event
  refused : r.store.graph.replayRecord event = .error x

theorem Replica.StuckAt.stopsAfter {events : List Recorded} {event : Recorded} {x : ReplayError} {r : Replica}
    (stuck : r.StuckAt events event x) (reflects : r.Reflects events) :
    StopsAfter events r.revision r.store.graph x := ⟨reflects.replayed, event, stuck.next, stuck.refused⟩

namespace Following

/-- The state of a group that nobody else uses, of the replica that follows it, and of what was announced. -/
structure Stands (s : Subscription) (group : ConsumerGroup) (revision announced : Revision) (locked : Bool)
    (w : Following EventLog) : Prop where
  inPlace : ∀ stream, InPlace (w.log.events stream)
  live : w.log.generation = s.generation
  there : w.log.group? s.stream s.group = some group
  reflects : w.replica.Reflects (w.log.events s.stream)
  closed : w.replica.store.snapshots = []
  revision : w.replica.revision = revision
  announced : w.current.value = announced
  locked : w.lockdown = locked

variable {s : Subscription} {group : ConsumerGroup} {revision announced : Revision} {locked : Bool}
  {w : Following EventLog}

/-- An answer about the next event moves the group, and nothing else. -/
private theorem Stands.judged (stands : w.Stands s group revision announced locked) (verdict : Verdict)
    (waits : group.position < w.log.tail s.stream) :
    ∃ log, (EventLog.judge s (group.position + 1) verdict).outcome w.log = (.ok (), log) ∧
      log.events s.stream = w.log.events s.stream ∧
      { w with log }.Stands s (verdict.move (group.position + 1) group) revision announced locked := by
  refine ⟨w.log.setGroup s.stream s.group (verdict.move (group.position + 1) group), ?_, rfl, ?_⟩
  · rw [EventLog.judge_live (stands.inPlace s.stream) stands.live stands.there, if_pos ⟨rfl, waits⟩]
  · exact { stands with there := (EventLog.group?_setGroup ..).trans (if_pos ⟨rfl, rfl⟩) }

/-- What others do leaves all this as it is; they only add events. -/
theorem Stands.other (stands : w.Stands s group revision announced locked) {m : LogMove}
    (spares : m.Spares s.stream s.group) :
    { w with log := w.log.step m }.Stands s group revision announced locked where
  inPlace stream := EventLog.step_inPlace m (stands.inPlace stream)
  live := by rw [(EventLog.step_moved w.log m).generation, if_neg spares.1, stands.live]
  there := spares.group stands.inPlace stands.there
  reflects := stands.reflects.mono ((EventLog.step_moved w.log m).grows s.stream)
  closed := stands.closed
  revision := stands.revision
  announced := stands.announced
  locked := stands.locked

end Following

namespace Consumption

/-- About to be handed a delivery, or waiting for one that is not there. -/
def Looks (log : EventLog) (stream : String) (position : Nat) : Consuming → Prop
  | .ready | .asking => True
  | .waiting wakes => wakes ≤ log.wakes ∧ (log.wakes = wakes → log.tail stream ≤ position)
  | _ => False

/-- How far a phase is from the beginning of its delivery. -/
def offset : Consuming → Nat
  | .asking | .waiting _ => 1
  | .received _ => 2
  | .applying _ => 3
  | .acknowledging _ | .lockingDown .. | .rejecting _ _ .retry => 4
  | .rejecting _ _ .park => 5
  | .finished _ => 7
  | _ => 0

theorem Looks.offset_le {log : EventLog} {stream : String} {p : Nat} {phase : Consuming}
    (looks : Looks log stream p phase) : offset phase ≤ 1 := by
  cases phase with
  | ready => exact Nat.zero_le 1
  | asking | waiting => exact Nat.le_refl 1
  | _ => exact looks.elim

theorem offset_holding {d : Delivery} {phase : Consuming} (holds : phase = .received d ∨ phase = .applying d) :
    offset phase ≤ 3 := by
  rcases holds with rfl | rfl
  · exact Nat.le_succ 2
  · exact Nat.le_refl 3

/-- An event may have been tried before, but only one that the replica is stuck at. -/
def Tried (spec : SubscriberSpec) (stream : String) (tries : UInt32) (reason : String) (w : Following EventLog) : Prop :=
  tries ≤ spec.maxRedeliveries ∧
    (tries ≠ 0 → ∃ event x, w.replica.StuckAt (w.log.events stream) event x ∧ reason = x.message)

theorem tried_none (spec : SubscriberSpec) (stream reason : String) (w : Following EventLog) :
    Tried spec stream 0 reason w := ⟨UInt32.zero_le, fun some => absurd rfl some⟩

/-- Where a subscriber stands: done with `p` events, of which its replica has as many, and the next one tried
`q` times. The number counts its steps. -/
inductive Stage (spec : SubscriberSpec) (s : Subscription) :
    Nat → Consuming → Following EventLog → List JournalEntry → Prop
  | between {phase : Consuming} {w : Following EventLog} {journal : List JournalEntry} {p : Nat} {q : UInt32} {reason : String}
    (looks : Looks w.log s.stream p phase) (stands : w.Stands s ⟨p, q, []⟩ p p false)
    (tried : Tried spec s.stream q reason w) (told : journal = handled p ++ refused (p + 1) q.toNat reason) :
    Stage spec s (6 * p + 5 * q.toNat + offset phase) phase w journal
  | holding {phase : Consuming} {w : Following EventLog} {journal : List JournalEntry} {p : Nat} {q : UInt32} {reason : String}
    {event : Recorded} (holds : phase = .received ⟨event, q⟩ ∨ phase = .applying ⟨event, q⟩)
    (found : (w.log.events s.stream)[p]? = some event) (stands : w.Stands s ⟨p, q, []⟩ p p false)
    (tried : Tried spec s.stream q reason w)
    (told : journal = handled p ++ refused (p + 1) q.toNat reason ++ [.delivered (p + 1) q.toNat]) :
    Stage spec s (6 * p + 5 * q.toNat + offset phase) phase w journal
  | acknowledging {w : Following EventLog} {journal : List JournalEntry} {p : Nat} {event : Recorded}
    (found : (w.log.events s.stream)[p]? = some event) (stands : w.Stands s ⟨p, 0, []⟩ (p + 1) p false)
    (told : journal = handled p ++ [.delivered (p + 1) 0]) :
    Stage spec s (6 * p + 4) (.acknowledging ⟨event, 0⟩) w journal
  | announcing {w : Following EventLog} {journal : List JournalEntry} {p : Nat}
    (stands : w.Stands s ⟨p + 1, 0, []⟩ (p + 1) p false) (told : journal = handled (p + 1)) :
    Stage spec s (6 * p + 5) (.announcing (p + 1)) w journal
  | failing {phase : Consuming} {w : Following EventLog} {journal : List JournalEntry} {p : Nat} {q : UInt32} {event : Recorded}
    {x : ReplayError}
    (fails : q < spec.maxRedeliveries ∧ phase = .rejecting ⟨event, q⟩ x .retry ∨
      q = spec.maxRedeliveries ∧ phase = .lockingDown ⟨event, q⟩ x)
    (stuck : w.replica.StuckAt (w.log.events s.stream) event x) (stands : w.Stands s ⟨p, q, []⟩ p p false)
    (told : journal = handled p ++ refused (p + 1) q.toNat x.message ++ [.delivered (p + 1) q.toNat]) :
    Stage spec s (6 * p + 5 * q.toNat + 4) phase w journal
  | parking {w : Following EventLog} {journal : List JournalEntry} {p : Nat} {event : Recorded} {x : ReplayError}
    (stuck : w.replica.StuckAt (w.log.events s.stream) event x)
    (stands : w.Stands s ⟨p, spec.maxRedeliveries, []⟩ p p true)
    (told : journal = handled p ++ refused (p + 1) spec.maxRedeliveries.toNat x.message ++
      [.delivered (p + 1) spec.maxRedeliveries.toNat]) :
    Stage spec s (6 * p + 5 * spec.maxRedeliveries.toNat + 5) (.rejecting ⟨event, spec.maxRedeliveries⟩ x .park) w journal
  | resigned {phase : Consuming} {w : Following EventLog} {journal : List JournalEntry} {p n : Nat} {event : Recorded}
    {x : ReplayError} (ends : n = 6 ∧ phase = .ready ∨ n = 7 ∧ phase = .finished (.ok ()))
    (stuck : w.replica.StuckAt (w.log.events s.stream) event x)
    (stands : w.Stands s ⟨p + 1, 0, [p + 1]⟩ p p true)
    (told : journal = handled p ++ gaveUp (p + 1) spec.maxRedeliveries.toNat x.message) :
    Stage spec s (6 * p + 5 * spec.maxRedeliveries.toNat + n) phase w journal

/-- A subscriber after so many steps that led somewhere. -/
def At (spec : SubscriberSpec) (s : Subscription) (n : Nat) (c : Consumption) : Prop :=
  Stage spec s n c.phase c.world c.journal

/-- Nothing is left to do, or nothing is there to be done. -/
def Rests (s : Subscription) (c : Consumption) : Prop :=
  c.phase = .finished (.ok ()) ∨
    (∃ wakes, c.phase = .waiting wakes) ∧ c.world.log.tail s.stream ≤ c.world.replica.revision

/-! ### Its own steps -/

variable {spec : SubscriberSpec} {s : Subscription} {n : Nat} {phase after : Consuming} {w w' : Following EventLog}
  {journal : List JournalEntry}

private theorem at_own (made : phase.step spec s w = some (after, w'))
    (stage : Stage spec s n after w' (journal ++ (phase.entry? after).toList)) :
    At spec s n (Consumption.step spec s ⟨phase, w, journal⟩ .own) := by
  rw [step, made]
  exact stage

private theorem onLog_eq {α : Type} {act : Action LogError EventLog α} {answer : Except LogError α} {log : EventLog}
    (done : act.outcome w.log = (answer, log)) : w.onLog act = (answer, { w with log }) := by
  rw [Following.onLog, done]

private theorem step_poll {answer : Except LogError (Poll Delivery)}
    (asks : phase = .asking ∨ ∃ wakes, phase = .waiting wakes ∧ w.log.wakes ≠ wakes)
    (answered : (EventLog.next s).outcome w.log = (answer, w.log)) :
    phase.step spec s w = some (Consuming.afterPoll w.log.wakes answer, w) := by
  have polled : w.onLog (EventLog.next s) = (answer, w) := onLog_eq answered
  rcases asks with rfl | ⟨wakes, rfl, woken⟩
  · rw [Consuming.step, EventLog.service_next, polled]
    rfl
  · rw [Consuming.step, if_neg (show ¬ LogService.wakes w.log = wakes from woken)]
    exact congrArg (fun answered => some (Consuming.afterPoll answered.2.log.wakes answered.1, answered.2)) polled

/-- A subscriber that asks is handed the next event, or waits if there is none. -/
private theorem stage_poll {p : Nat} {q : UInt32} {reason : String}
    (asks : phase = .asking ∨ ∃ wakes, phase = .waiting wakes ∧ w.log.wakes ≠ wakes)
    (stands : w.Stands s ⟨p, q, []⟩ p p false) (tried : Tried spec s.stream q reason w)
    (told : journal = handled p ++ refused (p + 1) q.toNat reason) :
    At spec s (6 * p + 5 * q.toNat + 2) (Consumption.step spec s ⟨phase, w, journal⟩ .own) ∨
      At spec s (6 * p + 5 * q.toNat + 1) (Consumption.step spec s ⟨phase, w, journal⟩ .own) ∧
        Rests s (Consumption.step spec s ⟨phase, w, journal⟩ .own) := by
  have silent (wakes : Nat) : journal ++ (phase.entry? (.waiting wakes)).toList = journal := by
    rcases asks with rfl | ⟨_, rfl, _⟩ <;> exact List.append_nil _
  have taken (d : Delivery) : phase.entry? (.received d) = some (.delivered d.revision d.retryCount.toNat) := by
    rcases asks with rfl | ⟨_, rfl, _⟩ <;> rfl
  cases found : (w.log.events s.stream)[p]? with
  | some event =>
    have awaits : w.log.Awaits s ⟨p, q, []⟩ event := ⟨stands.live, stands.there, found⟩
    have place : event.revision = p + 1 := stands.inPlace s.stream p event found
    refine .inl (at_own (step_poll asks awaits.next) (.holding (.inl rfl) found stands tried ?_))
    rw [Consuming.afterPoll, taken, told, Delivery.revision, place]
    rfl
  | none =>
    have exhausted := EventLog.next_exhausted stands.live stands.there found
    have short : w.log.tail s.stream ≤ p := List.getElem?_eq_none_iff.mp found
    have made : phase.step spec s w = some (.waiting w.log.wakes, w) := step_poll asks exhausted
    have looks : Looks w.log s.stream p (.waiting w.log.wakes) := ⟨Nat.le_refl _, fun _ => short⟩
    refine .inr ⟨at_own made (.between looks stands tried ((silent _).trans told)), ?_⟩
    rw [step, made]
    exact .inr ⟨⟨_, rfl⟩, stands.revision.symm ▸ short⟩

/-- The event at hand is repeated, if the replica is not stuck at it. -/
private theorem stage_apply {p : Nat} {q : UInt32} {reason : String} {event : Recorded}
    (found : (w.log.events s.stream)[p]? = some event) (stands : w.Stands s ⟨p, q, []⟩ p p false)
    (tried : Tried spec s.stream q reason w)
    (told : journal = handled p ++ refused (p + 1) q.toNat reason ++ [.delivered (p + 1) q.toNat]) :
    At spec s (6 * p + 5 * q.toNat + 4) (Consumption.step spec s ⟨.applying ⟨event, q⟩, w, journal⟩ .own) := by
  have place : event.revision = p + 1 := stands.inPlace s.stream p event found
  have next : (w.log.events s.stream)[w.replica.revision]? = some event := stands.revision.symm ▸ found
  have unseen : ¬ Delivery.revision ⟨event, q⟩ ≤ w.replica.revision := by
    rw [stands.revision, Delivery.revision, place]
    exact Nat.not_succ_le_self p
  have applied := Consuming.applyDelivery_outcome ⟨event, q⟩ w.replica
  rw [if_neg unseen, Replica.applyRecorded_outcome] at applied
  cases replayed : w.replica.store.graph.replayRecord event with
  | ok graph =>
    rw [replayed] at applied
    have once : q = 0 := by
      by_contra some
      obtain ⟨event', x, stuck, _⟩ := tried.2 some
      cases stuck.next.symm.trans next
      cases stuck.refused.symm.trans replayed
    subst once
    have made : Consuming.step spec s (.applying ⟨event, 0⟩) w = some (.acknowledging ⟨event, 0⟩,
        { w with replica := ⟨{ w.replica.store with graph }, event.revision⟩ }) := by
      rw [Consuming.step, Following.onReplica, applied]
    have further := stands.reflects.advance next replayed
    rw [stands.revision, ← place] at further
    refine at_own made (.acknowledging found { stands with reflects := further, revision := place } ?_)
    rw [told]
    exact (List.append_nil _).trans (congrArg (· ++ _) (List.append_nil _))
  | error x =>
    rw [replayed] at applied
    have stuck : w.replica.StuckAt (w.log.events s.stream) event x := ⟨next, replayed⟩
    have reasons : refused (p + 1) q.toNat reason = refused (p + 1) q.toNat x.message := by
      by_cases some : q = 0
      · rw [some]
        rfl
      · obtain ⟨event', x', stuck', rfl⟩ := tried.2 some
        cases stuck'.next.symm.trans next
        cases stuck'.refused.symm.trans replayed
        rfl
    have made : Consuming.step spec s (.applying ⟨event, q⟩) w = some
        (if q < spec.maxRedeliveries then .rejecting ⟨event, q⟩ x .retry else .lockingDown ⟨event, q⟩ x, w) := by
      rw [Consuming.step, Following.onReplica, applied]
    refine at_own made (.failing ?_ stuck stands ?_)
    · by_cases less : q < spec.maxRedeliveries
      · exact .inl ⟨less, if_pos less⟩
      · exact .inr ⟨UInt32.le_antisymm tried.1 (UInt32.not_lt.mp less), if_neg less⟩
    · rw [told, reasons]
      split <;> exact List.append_nil _

private theorem stage_acknowledge {p : Nat} {event : Recorded} (found : (w.log.events s.stream)[p]? = some event)
    (stands : w.Stands s ⟨p, 0, []⟩ (p + 1) p false) (told : journal = handled p ++ [.delivered (p + 1) 0]) :
    At spec s (6 * p + 5) (Consumption.step spec s ⟨.acknowledging ⟨event, 0⟩, w, journal⟩ .own) := by
  have place : event.revision = p + 1 := stands.inPlace s.stream p event found
  obtain ⟨log, judged, _, moved⟩ := stands.judged .acknowledged (List.getElem?_eq_some_iff.mp found).1
  have answered : (EventLog.acknowledge s ⟨event, 0⟩).outcome w.log = (.ok (), log) := by
    rw [EventLog.acknowledge_eq, Delivery.revision, place]
    exact judged
  have made : Consuming.step spec s (.acknowledging ⟨event, 0⟩) w = some (.announcing (p + 1), { w with log }) := by
    rw [Consuming.step, EventLog.service_acknowledge, onLog_eq answered, ← place]
    rfl
  refine at_own made (.announcing moved ?_)
  rw [told, handled_succ, Consuming.entry?, Delivery.revision, place]
  exact List.append_assoc _ _ _

private theorem stage_announce {p : Nat} (stands : w.Stands s ⟨p + 1, 0, []⟩ (p + 1) p false)
    (told : journal = handled (p + 1)) :
    At spec s (6 * p + 6) (Consumption.step spec s ⟨.announcing (p + 1), w, journal⟩ .own) := by
  have made : Consuming.step spec s (.announcing (p + 1)) w =
      some (.ready, { w with current := w.current.set (p + 1) }) := rfl
  have announced : (w.current.set (p + 1)).value = p + 1 := by
    have behind : w.current.value < p + 1 := Nat.lt_succ_of_le (Nat.le_of_eq stands.announced)
    rw [Watched.set, if_pos behind]
    exact Nat.max_eq_right (Nat.le_of_lt behind)
  have stands' : Following.Stands s ⟨p + 1, 0, []⟩ (p + 1) (p + 1) false
      { w with current := w.current.set (p + 1) } := { stands with announced := announced }
  have looks : Looks w.log s.stream (p + 1) .ready := trivial
  have told' : journal ++ [] = handled (p + 1) ++ refused (p + 1 + 1) 0 "" := by
    rw [told]
    rfl
  have stage : Stage spec s (6 * (p + 1) + 5 * (0 : UInt32).toNat + offset .ready) .ready
      { w with current := w.current.set (p + 1) } (journal ++ []) := .between looks stands' (tried_none ..) told'
  exact at_own made stage

/-- A rejection moves the group and nothing else. -/
private theorem step_reject {p : Nat} {q : UInt32} {event : Recorded} {x : ReplayError} {locked : Bool}
    (rejection : Rejection)
    (stuck : w.replica.StuckAt (w.log.events s.stream) event x) (stands : w.Stands s ⟨p, q, []⟩ p p locked) :
    ∃ log, Consuming.step spec s (.rejecting ⟨event, q⟩ x rejection) w = some (.ready, { w with log }) ∧
      event.revision = p + 1 ∧ w.replica.StuckAt (log.events s.stream) event x ∧
      { w with log }.Stands s ((Verdict.ofRejection rejection).move (p + 1) ⟨p, q, []⟩) p p locked := by
  have found := stands.revision ▸ stuck.next
  have place : event.revision = p + 1 := stands.inPlace s.stream p event found
  obtain ⟨log, judged, events, moved⟩ := stands.judged (.ofRejection rejection) (List.getElem?_eq_some_iff.mp found).1
  have answered : (EventLog.reject s ⟨event, q⟩ rejection).outcome w.log = (.ok (), log) := by
    rw [EventLog.reject_eq, Delivery.revision, place]
    exact judged
  refine ⟨log, ?_, place, events.symm ▸ stuck, moved⟩
  rw [Consuming.step, EventLog.service_reject, onLog_eq answered]

/-- An event that could not be repeated is left to be tried once more. -/
private theorem stage_retry {p : Nat} {q : UInt32} {event : Recorded} {x : ReplayError}
    (less : q < spec.maxRedeliveries)
    (stuck : w.replica.StuckAt (w.log.events s.stream) event x) (stands : w.Stands s ⟨p, q, []⟩ p p false)
    (told : journal = handled p ++ refused (p + 1) q.toNat x.message ++ [.delivered (p + 1) q.toNat]) :
    At spec s (6 * p + 5 * q.toNat + 5) (Consumption.step spec s ⟨.rejecting ⟨event, q⟩ x .retry, w, journal⟩ .own) := by
  obtain ⟨log, made, place, stuck', moved⟩ := step_reject .retry stuck stands
  have looks : Looks log s.stream p .ready := trivial
  have once := toNat_succ_of_lt less
  have allowed : q + 1 ≤ spec.maxRedeliveries := by
    rw [UInt32.le_iff_toNat_le, once]
    exact UInt32.lt_iff_toNat_lt.mp less
  have tried : Tried spec s.stream (q + 1) x.message { w with log } := ⟨allowed, fun _ => ⟨event, x, stuck', rfl⟩⟩
  have told' : journal ++ [.retried event.revision x.message] =
      handled p ++ refused (p + 1) (q + 1).toNat x.message := by
    rw [told, once, refused_succ, place]
    simp only [List.append_assoc]
    rfl
  have stage : Stage spec s (6 * p + 5 * (q + 1).toNat + offset .ready) .ready { w with log }
      (journal ++ [.retried event.revision x.message]) := .between looks moved tried told'
  rw [once] at stage
  exact at_own made stage

/-- An event that was tried often enough is set aside, the replica being locked down. -/
private theorem stage_park {p : Nat} {event : Recorded} {x : ReplayError}
    (stuck : w.replica.StuckAt (w.log.events s.stream) event x)
    (stands : w.Stands s ⟨p, spec.maxRedeliveries, []⟩ p p true)
    (told : journal = handled p ++ refused (p + 1) spec.maxRedeliveries.toNat x.message ++
      [.delivered (p + 1) spec.maxRedeliveries.toNat]) :
    At spec s (6 * p + 5 * spec.maxRedeliveries.toNat + 6)
      (Consumption.step spec s ⟨.rejecting ⟨event, spec.maxRedeliveries⟩ x .park, w, journal⟩ .own) := by
  obtain ⟨log, made, place, stuck', moved⟩ := step_reject .park stuck stands
  refine at_own made (.resigned (.inl ⟨rfl, rfl⟩) stuck' moved ?_)
  rw [told, gaveUp, Consuming.entry?, Delivery.revision, place]
  simp only [List.append_assoc]
  rfl

/-- Each step of a subscriber takes it one place further, unless it rests. -/
theorem own_step {c : Consumption} (stage : At spec s n c) :
    At spec s (n + 1) (c.step spec s .own) ∨ At spec s n (c.step spec s .own) ∧ Rests s (c.step spec s .own) := by
  obtain ⟨phase, w, journal⟩ := c
  unfold At at stage
  dsimp only at stage
  cases stage with
  | @between _ _ _ p q reason looks stands tried told =>
    cases phase with
    | ready =>
      have made : Consuming.step spec s .ready w = some (.asking, w) := by
        rw [Consuming.step, stands.locked]
        rfl
      have looks : Looks w.log s.stream p .asking := trivial
      exact .inl (at_own made (.between looks stands tried ((List.append_nil _).trans told)))
    | asking => exact stage_poll (.inl rfl) stands tried told
    | waiting wakes =>
      by_cases woken : w.log.wakes = wakes
      · have asleep : Consuming.step spec s (.waiting wakes) w = none := by
          rw [Consuming.step, if_pos (show LogService.wakes w.log = wakes from woken)]
        rw [step, asleep]
        exact .inr ⟨.between looks stands tried told, .inr ⟨⟨wakes, rfl⟩, stands.revision.symm ▸ looks.2 woken⟩⟩
      · exact stage_poll (.inr ⟨wakes, rfl, woken⟩) stands tried told
    | _ => exact looks.elim
  | holding holds found stands tried told =>
    rcases holds with rfl | rfl
    · have made (d : Delivery) : Consuming.step spec s (.received d) w = some (.applying d, w) := by
        rw [Consuming.step, stands.locked]
        rfl
      exact .inl (at_own (made _) (.holding (.inr rfl) found stands tried ((List.append_nil _).trans told)))
    · exact .inl (stage_apply found stands tried told)
  | acknowledging found stands told => exact .inl (stage_acknowledge found stands told)
  | announcing stands told => exact .inl (stage_announce stands told)
  | failing fails stuck stands told =>
    rcases fails with ⟨less, rfl⟩ | ⟨rfl, rfl⟩
    · exact .inl (stage_retry less stuck stands told)
    · have made (d : Delivery) (x : ReplayError) : Consuming.step spec s (.lockingDown d x) w =
          some (.rejecting d x .park, { w with lockdown := true }) := rfl
      exact .inl (at_own (made _ _) (.parking stuck { stands with locked := rfl } ((List.append_nil _).trans told)))
  | parking stuck stands told => exact .inl (stage_park stuck stands told)
  | resigned ends stuck stands told =>
    rcases ends with ⟨rfl, rfl⟩ | ⟨rfl, rfl⟩
    · have made : Consuming.step spec s .ready w = some (.finished (.ok ()), w) := by
        rw [Consuming.step, stands.locked]
        rfl
      exact .inl (at_own made (.resigned (.inr ⟨rfl, rfl⟩) stuck stands ((List.append_nil _).trans told)))
    · exact .inr ⟨.resigned (.inr ⟨rfl, rfl⟩) stuck stands told, .inl rfl⟩

end Consumption
end PolicyLedger
