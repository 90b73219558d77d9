import PolicyLedger.Proofs.LogHistory
import PolicyLedger.Replication.Tracker

/-!
A tracker among others who use the log. What it has seen of a stream is never more than there is; and because
it subscribes before it reads the last event, it has seen all that its subscription will not deliver. So if
there is nothing left to be delivered, it knows the last revision.
-/
namespace PolicyLedger
open PolicyLedger.Action

namespace TrackerTask

variable {t t' : TrackerTask} {w w' : Tracking EventLog} {jitter : Duration} {now : Nat}

/-- What a step of a tracker can be. -/
inductive Stepped (t : TrackerTask) (w : Tracking EventLog) : TrackerPhase → Tracking EventLog → Prop
  | subscribed (phase : t.phase = .subscribing) :
    Stepped t w (.reading ⟨t.stream, w.log.tail t.stream, w.log.generation⟩) w
  | read {s : TailSubscription} {revision : Revision} (phase : t.phase = .reading s)
      (last : lastRevision ((EventLog.readFromEnd t.stream 1).outcome w.log).1 = .ok revision) :
    Stepped t w (.observing s revision) w
  | observed {s : TailSubscription} {revision : Revision} (phase : t.phase = .observing s revision) :
    Stepped t w (.following s) { w with latest := w.latest.observe revision }
  | delivered {s : TailSubscription} {event : Recorded} (phase : t.phase = .following s)
      (found : (w.log.events s.stream)[s.position]? = some event) :
    Stepped t w (.observing { s with position := s.position + 1 } event.revision) w
  | slept {s : TailSubscription} (phase : t.phase = .following s) (live : w.log.generation = s.generation)
      (short : w.log.tail s.stream ≤ s.position) : Stepped t w (.waiting s w.log.wakes) w
  | woken {s : TailSubscription} {wakes : Nat} (phase : t.phase = .waiting s wakes) : Stepped t w (.following s) w
  | apart {after : TrackerPhase}
      (without : after = .subscribing ∨ after = .lost ∨ ∃ deadline, after = .pausing deadline) : Stepped t w after w

theorem step_cases (stepped : t.step jitter now w = some (t', w')) :
    t'.stream = t.stream ∧ Stepped t w t'.phase w' := by
  obtain ⟨stream, phase, backoff⟩ := t
  obtain ⟨log, latest⟩ := w
  cases phase with
  | subscribing =>
    cases stepped
    exact ⟨rfl, .subscribed rfl⟩
  | reading s =>
    simp only [step, Tracking.onLog] at stepped
    split at stepped
    · rename_i revision last
      cases stepped
      exact ⟨rfl, .read rfl last⟩
    · cases stepped
      exact ⟨rfl, .apart (.inr (.inl rfl))⟩
  | observing s revision =>
    cases stepped
    exact ⟨rfl, .observed rfl⟩
  | following s =>
    have asked : (LogService.nextTail s).outcome log = (EventLog.nextTail s).outcome log := rfl
    simp only [step, Tracking.onLog, asked, EventLog.nextTail, outcome_ofFunction] at stepped
    by_cases ended : log.generation ≠ s.generation
    · rw [if_pos ended] at stepped
      cases stepped
      exact ⟨rfl, .apart (.inr (.inl rfl))⟩
    · rw [if_neg ended] at stepped
      cases found : (log.events s.stream)[s.position]? with
      | some event =>
        rw [found] at stepped
        cases stepped
        exact ⟨rfl, .delivered rfl found⟩
      | none =>
        rw [found] at stepped
        cases stepped
        exact ⟨rfl, .slept rfl (Decidable.not_not.mp ended) (List.getElem?_eq_none_iff.mp found)⟩
  | waiting s wakes =>
    simp only [step] at stepped
    split at stepped
    · cases stepped
    · cases stepped
      exact ⟨rfl, .woken rfl⟩
  | lost =>
    simp only [step] at stepped
    split at stepped
    · cases stepped
      exact ⟨rfl, .apart (.inl rfl)⟩
    · cases stepped
      exact ⟨rfl, .apart (.inr (.inr ⟨_, rfl⟩))⟩
  | pausing deadline =>
    simp only [step] at stepped
    split at stepped
    · cases stepped
      exact ⟨rfl, .apart (.inl rfl)⟩
    · cases stepped

end TrackerTask

/-- A tracker at work. -/
structure Tracker where
  task : TrackerTask
  world : Tracking EventLog

namespace Tracker

/-- What can happen next: a step of the tracker, or of somebody else who uses the log. -/
inductive Turn where
  | own (jitter : Duration) (now : Nat)
  | other (m : LogMove)

/-- A turn. A step that can not be made changes nothing. -/
def step (k : Tracker) : Turn → Tracker
  | .own jitter now =>
    match k.task.step jitter now k.world with
    | some (task, world) => ⟨task, world⟩
    | none => k
  | .other m => { k with world := { k.world with log := k.world.log.step m } }

def run (k : Tracker) (turns : List Turn) : Tracker := turns.foldl step k

/-- A tracker that has not seen anything yet. -/
def start (stream : String) (config : BackoffConfig) (log : EventLog) : Tracker :=
  ⟨.start stream config, ⟨log, { value := none }⟩⟩

/-- What holds in each phase. A subscription is never further than what the tracker has seen or is about to see, and
a tracker that is asleep has nothing to wake up for. -/
def Knows (log : EventLog) (stream : String) (latest : Option Revision) : TrackerPhase → Prop
  | .reading s => s.stream = stream ∧ s.position ≤ log.tail stream
  | .observing s revision => s.stream = stream ∧ s.position ≤ revision ∧ revision ≤ log.tail stream
  | .following s => s.stream = stream ∧ ∃ v, latest = some v ∧ s.position ≤ v
  | .waiting s wakes => s.stream = stream ∧ (∃ v, latest = some v ∧ s.position ≤ v) ∧ wakes ≤ log.wakes ∧
      (log.wakes = wakes → log.generation = s.generation ∧ log.tail stream ≤ s.position)
  | _ => True

structure Tracks (stream : String) (k : Tracker) : Prop where
  inPlace : InPlace (k.world.log.events stream)
  follows : k.task.stream = stream
  within : ∀ v, k.world.latest.value = some v → v ≤ k.world.log.tail stream
  knows : Knows k.world.log stream k.world.latest.value k.task.phase

/-- What was seen is not forgotten. -/
def Keeps (before after : Option Revision) : Prop := ∀ v, before = some v → ∃ v', after = some v' ∧ v ≤ v'

private theorem Keeps.refl (latest : Option Revision) : Keeps latest latest := fun v seen => ⟨v, seen, Nat.le_refl v⟩

private theorem Keeps.trans {a b c : Option Revision} (first : Keeps a b) (second : Keeps b c) : Keeps a c := by
  intro v seen
  obtain ⟨v', seen', le⟩ := first v seen
  obtain ⟨v'', seen'', le'⟩ := second v' seen'
  exact ⟨v'', seen'', Nat.le_trans le le'⟩

variable {k : Tracker} {stream : String} {log : EventLog}

/-! ### Turns of others -/

private theorem Knows.other {latest : Option Revision} {phase : TrackerPhase} (knows : Knows log stream latest phase)
    (m : LogMove) : Knows (log.step m) stream latest phase := by
  have moved := EventLog.step_moved log m
  have grows : log.tail stream ≤ (log.step m).tail stream := (moved.grows stream).length_le
  cases phase with
  | reading s => exact ⟨knows.1, Nat.le_trans knows.2 grows⟩
  | observing s revision => exact ⟨knows.1, knows.2.1, Nat.le_trans knows.2.2 grows⟩
  | waiting s wakes =>
    obtain ⟨follows, seen, noted, asleep⟩ := knows
    refine ⟨follows, seen, Nat.le_trans noted moved.wakes, ?_⟩
    intro same
    have still : (log.step m).wakes = log.wakes := Nat.le_antisymm (same ▸ noted) moved.wakes
    obtain ⟨lasting, events⟩ := moved.asleep still
    rw [EventLog.tail, events, moved.generation, if_neg lasting]
    exact asleep (still.symm.trans same)
  | _ => exact knows

private theorem tracks_other (tracks : k.Tracks stream) (m : LogMove) : (k.step (.other m)).Tracks stream where
  inPlace := EventLog.step_inPlace m tracks.inPlace
  follows := tracks.follows
  within v seen := Nat.le_trans (tracks.within v seen) ((EventLog.step_moved k.world.log m).grows stream).length_le
  knows := tracks.knows.other m

/-! ### Its own steps -/

/-- The revision of the last event is the number of events. -/
private theorem lastRevision_readFromEnd (inPlace : InPlace (log.events stream)) :
    TrackerTask.lastRevision ((EventLog.readFromEnd stream 1).outcome log).1 = .ok (log.tail stream) := by
  rw [EventLog.readFromEnd, outcome_ofFunction, EventLog.existing, EventLog.tail]
  rcases List.eq_nil_or_concat (log.events stream) with none | ⟨before, last, events⟩
  · rw [none]
    rfl
  · rw [List.concat_eq_append] at events
    have place : last.revision = before.length + 1 := by
      refine inPlace before.length last ?_
      rw [events, List.getElem?_concat_length]
    rw [events]
    cases before with
    | nil => exact congrArg Except.ok place
    | cons first rest =>
      show TrackerTask.lastRevision (.ok (((first :: rest) ++ [last]).reverse.take 1)) = _
      rw [List.reverse_append, List.length_append]
      exact congrArg Except.ok place

/-- The subscription comes before the read, so what is read covers all that the subscription leaves out; from then on
each event it delivers is the one behind those seen. -/
private theorem knows_stepped {after : TrackerPhase} {world : Tracking EventLog} (tracks : k.Tracks stream)
    (stepped : k.task.Stepped k.world after world) :
    world.log = k.world.log ∧ (∀ v, world.latest.value = some v → v ≤ world.log.tail stream) ∧
      Knows world.log stream world.latest.value after ∧ Keeps k.world.latest.value world.latest.value := by
  have knows := tracks.knows
  cases stepped with
  | subscribed phase =>
    rw [tracks.follows]
    exact ⟨rfl, tracks.within, ⟨rfl, Nat.le_refl _⟩, .refl _⟩
  | read phase last =>
    rw [phase] at knows
    rw [tracks.follows, lastRevision_readFromEnd tracks.inPlace] at last
    cases last
    exact ⟨rfl, tracks.within, ⟨knows.1, knows.2, Nat.le_refl _⟩, .refl _⟩
  | @observed s revision phase =>
    rw [phase] at knows
    obtain ⟨follows, position, within⟩ := knows
    have noted : (k.world.latest.observe revision).value = some (max (k.world.latest.value.getD 0) revision) := rfl
    refine ⟨rfl, ?_, ⟨follows, _, noted, Nat.le_trans position (Nat.le_max_right _ _)⟩, ?_⟩
    · intro v seen
      cases noted.symm.trans seen
      refine Nat.max_le.mpr ⟨?_, within⟩
      cases known : k.world.latest.value with
      | none => exact Nat.zero_le _
      | some v => exact tracks.within v known
    · intro v seen
      refine ⟨_, noted, ?_⟩
      rw [seen]
      exact Nat.le_max_left v revision
  | @delivered s event phase found =>
    rw [phase] at knows
    obtain ⟨rfl, _⟩ := knows
    have place : event.revision = s.position + 1 := tracks.inPlace _ _ found
    have there : s.position + 1 ≤ k.world.log.tail s.stream := (List.getElem?_eq_some_iff.mp found).1
    exact ⟨rfl, tracks.within, ⟨rfl, Nat.le_of_eq place.symm, place ▸ there⟩, .refl _⟩
  | slept phase live short =>
    rw [phase] at knows
    obtain ⟨rfl, seen⟩ := knows
    exact ⟨rfl, tracks.within, ⟨rfl, seen, Nat.le_refl _, fun _ => ⟨live, short⟩⟩, .refl _⟩
  | woken phase =>
    rw [phase] at knows
    exact ⟨rfl, tracks.within, ⟨knows.1, knows.2.1⟩, .refl _⟩
  | apart without =>
    refine ⟨rfl, tracks.within, ?_, .refl _⟩
    rcases without with rfl | rfl | ⟨_, rfl⟩ <;> trivial

private theorem tracks_own (tracks : k.Tracks stream) (jitter : Duration) (now : Nat) :
    (k.step (.own jitter now)).Tracks stream ∧
      Keeps k.world.latest.value (k.step (.own jitter now)).world.latest.value := by
  rw [step]
  cases made : k.task.step jitter now k.world with
  | none => exact ⟨tracks, .refl _⟩
  | some next =>
    obtain ⟨follows, stepped⟩ := TrackerTask.step_cases made
    obtain ⟨logs, within, knows, keeps⟩ := knows_stepped tracks stepped
    exact ⟨⟨logs ▸ tracks.inPlace, follows.trans tracks.follows, within, knows⟩, keeps⟩

/-! ### Runs -/

private theorem tracks_step (tracks : k.Tracks stream) (t : Turn) :
    (k.step t).Tracks stream ∧ Keeps k.world.latest.value (k.step t).world.latest.value := by
  cases t with
  | own jitter now => exact tracks_own tracks jitter now
  | other m => exact ⟨tracks_other tracks m, .refl _⟩

theorem tracks_run (tracks : k.Tracks stream) (turns : List Turn) :
    (k.run turns).Tracks stream ∧ Keeps k.world.latest.value (k.run turns).world.latest.value := by
  induction turns generalizing k with
  | nil => exact ⟨tracks, .refl _⟩
  | cons t rest ih =>
    obtain ⟨next, keeps⟩ := tracks_step tracks t
    obtain ⟨last, keeps'⟩ := ih next
    exact ⟨last, keeps.trans keeps'⟩

private theorem tracks_start (config : BackoffConfig) (inPlace : InPlace (log.events stream)) :
    (start stream config log).Tracks stream := ⟨inPlace, rfl, nofun, trivial⟩

/-- The subscription whose next event a tracker is about to ask for or waits for, if that subscription is good and has
delivered all there is. -/
structure CaughtUp (k : Tracker) (s : TailSubscription) : Prop where
  listens : k.task.phase = .following s ∨ ∃ wakes, k.task.phase = .waiting s wakes
  exhausted : (EventLog.nextTail s).outcome k.world.log = (.ok .waiting, k.world.log)

private theorem nextTail_waiting {s : TailSubscription} :
    (EventLog.nextTail s).outcome log = (.ok .waiting, log) ↔
      log.generation = s.generation ∧ log.tail s.stream ≤ s.position := by
  rw [EventLog.nextTail, outcome_ofFunction]
  by_cases live : log.generation = s.generation
  · rw [if_neg (Decidable.not_not.mpr live)]
    cases found : (log.events s.stream)[s.position]? with
    | none => exact ⟨fun _ => ⟨live, List.getElem?_eq_none_iff.mp found⟩, fun _ => rfl⟩
    | some event =>
      have more : s.position < log.tail s.stream := (List.getElem?_eq_some_iff.mp found).1
      exact ⟨nofun, fun ended => absurd ended.2 (Nat.not_le_of_lt more)⟩
  · rw [if_pos live]
    exact ⟨nofun, fun ended => absurd ended.1 live⟩

private theorem CaughtUp.latest {s : TailSubscription} (caughtUp : k.CaughtUp s) (tracks : k.Tracks stream) :
    k.world.latest.value = some (k.world.log.tail stream) := by
  have knows := tracks.knows
  have ended := (nextTail_waiting.mp caughtUp.exhausted).2
  obtain ⟨rfl, v, seen, position⟩ : s.stream = stream ∧ ∃ v, k.world.latest.value = some v ∧ s.position ≤ v := by
    rcases caughtUp.listens with phase | ⟨wakes, phase⟩
    · rw [phase] at knows
      exact knows
    · rw [phase] at knows
      exact ⟨knows.1, knows.2.1⟩
  rw [seen, Nat.le_antisymm (tracks.within v seen) (Nat.le_trans ended position)]

private theorem caughtUp_asleep {s : TailSubscription} {wakes : Nat} (tracks : k.Tracks stream)
    (phase : k.task.phase = .waiting s wakes) (asleep : k.world.log.wakes = wakes) : k.CaughtUp s := by
  have knows := tracks.knows
  rw [phase] at knows
  obtain ⟨rfl, _, _, ended⟩ := knows
  exact ⟨.inr ⟨wakes, phase⟩, nextTail_waiting.mpr (ended asleep)⟩

/-! ### Progress -/

/-- Steps of its own that take a tracker to the end of its stream. -/
def CatchesUp (k : Tracker) : Prop :=
  ∃ turns s, (∀ t ∈ turns, ∃ jitter now, t = .own jitter now) ∧ (k.run turns).CaughtUp s

private theorem CaughtUp.catchesUp {s : TailSubscription} (caughtUp : k.CaughtUp s) : k.CatchesUp :=
  ⟨[], s, fun _ among => absurd among List.not_mem_nil, caughtUp⟩

private theorem catchesUp_of_step {jitter : Duration} {now : Nat} {task : TrackerTask} {world : Tracking EventLog}
    (made : k.task.step jitter now k.world = some (task, world)) (rest : CatchesUp ⟨task, world⟩) : k.CatchesUp := by
  obtain ⟨turns, s, own, caughtUp⟩ := rest
  refine ⟨.own jitter now :: turns, s, List.forall_mem_cons.mpr ⟨⟨jitter, now, rfl⟩, own⟩, ?_⟩
  rw [run, List.foldl_cons, step, made]
  exact caughtUp

section
variable {s : TailSubscription} {backoff : Backoff} {latest : Watched (Option Revision)}

private theorem catchesUp_observing {revision : Revision}
    (rest : CatchesUp ⟨⟨stream, .following s, backoff⟩, ⟨log, latest.observe revision⟩⟩) :
    CatchesUp ⟨⟨stream, .observing s revision, backoff⟩, ⟨log, latest⟩⟩ := by
  have made : TrackerTask.step .zero 0 ⟨stream, .observing s revision, backoff⟩ ⟨log, latest⟩ =
      some (⟨stream, .following s, backoff⟩, ⟨log, latest.observe revision⟩) := rfl
  exact catchesUp_of_step made rest

/-- The events that a good subscription has left are delivered one by one. -/
private theorem catchesUp_live (live : log.generation = s.generation) :
    CatchesUp ⟨⟨stream, .following s, backoff⟩, ⟨log, latest⟩⟩ := by
  generalize more : (log.events s.stream).length - s.position = left
  induction left generalizing s latest with
  | zero =>
    have ended : log.tail s.stream ≤ s.position := Nat.le_of_sub_eq_zero more
    exact CaughtUp.catchesUp ⟨.inl rfl, nextTail_waiting.mpr ⟨live, ended⟩⟩
  | succ left ih =>
    have within : s.position < (log.events s.stream).length := Nat.lt_of_sub_eq_succ more
    have asked : (LogService.nextTail s).outcome log =
        (.ok (.ready ((log.events s.stream)[s.position], { s with position := s.position + 1 })), log) := by
      show (EventLog.nextTail s).outcome log = _
      rw [EventLog.nextTail, outcome_ofFunction, if_neg (Decidable.not_not.mpr live), List.getElem?_eq_getElem within]
    have delivered : TrackerTask.step .zero 0 ⟨stream, .following s, backoff⟩ ⟨log, latest⟩ =
        some (⟨stream, .observing { s with position := s.position + 1 } (log.events s.stream)[s.position].revision,
          backoff⟩, ⟨log, latest⟩) := by
      simp only [TrackerTask.step, Tracking.onLog, asked]
    have fewer : (log.events s.stream).length - (s.position + 1) = left := by omega
    have rest : CatchesUp ⟨⟨stream, .following { s with position := s.position + 1 }, backoff⟩,
        ⟨log, latest.observe (log.events s.stream)[s.position].revision⟩⟩ := ih live fewer
    exact catchesUp_of_step delivered (catchesUp_observing rest)

private theorem catchesUp_reading (inPlace : InPlace (log.events stream))
    (rest : CatchesUp ⟨⟨stream, .following s, backoff.reset⟩, ⟨log, latest.observe (log.tail stream)⟩⟩) :
    CatchesUp ⟨⟨stream, .reading s, backoff⟩, ⟨log, latest⟩⟩ := by
  have last : TrackerTask.lastRevision ((LogService.readFromEnd stream 1).outcome log).1 = .ok (log.tail stream) :=
    lastRevision_readFromEnd inPlace
  have made : TrackerTask.step .zero 0 ⟨stream, .reading s, backoff⟩ ⟨log, latest⟩ =
      some (⟨stream, .observing s (log.tail stream), backoff.reset⟩, ⟨log, latest⟩) := by
    simp only [TrackerTask.step, Tracking.onLog, last]
    rfl
  exact catchesUp_of_step made (catchesUp_observing rest)

/-- With a new subscription a tracker is at the end at once. -/
private theorem catchesUp_subscribing (inPlace : InPlace (log.events stream)) :
    CatchesUp ⟨⟨stream, .subscribing, backoff⟩, ⟨log, latest⟩⟩ := by
  have made : TrackerTask.step .zero 0 ⟨stream, .subscribing, backoff⟩ ⟨log, latest⟩ =
      some (⟨stream, .reading ⟨stream, log.tail stream, log.generation⟩, backoff⟩, ⟨log, latest⟩) := rfl
  exact catchesUp_of_step made (catchesUp_reading inPlace (catchesUp_live rfl))

private theorem catchesUp_pausing (inPlace : InPlace (log.events stream)) (deadline : Nat) :
    CatchesUp ⟨⟨stream, .pausing deadline, backoff⟩, ⟨log, latest⟩⟩ := by
  have made : TrackerTask.step .zero deadline ⟨stream, .pausing deadline, backoff⟩ ⟨log, latest⟩ =
      some (⟨stream, .subscribing, backoff.increment .zero⟩, ⟨log, latest⟩) := if_pos (Nat.le_refl deadline)
  exact catchesUp_of_step made (catchesUp_subscribing inPlace)

private theorem catchesUp_lost (inPlace : InPlace (log.events stream)) :
    CatchesUp ⟨⟨stream, .lost, backoff⟩, ⟨log, latest⟩⟩ := by
  by_cases atOnce : backoff.value.isZero = true
  · have made : TrackerTask.step .zero 0 ⟨stream, .lost, backoff⟩ ⟨log, latest⟩ =
        some (⟨stream, .subscribing, backoff.increment .zero⟩, ⟨log, latest⟩) := if_pos atOnce
    exact catchesUp_of_step made (catchesUp_subscribing inPlace)
  · have made : TrackerTask.step .zero 0 ⟨stream, .lost, backoff⟩ ⟨log, latest⟩ =
        some (⟨stream, .pausing (0 + backoff.value.pauseTicks), backoff⟩, ⟨log, latest⟩) := if_neg atOnce
    exact catchesUp_of_step made (catchesUp_pausing inPlace _)

private theorem catchesUp_following (inPlace : InPlace (log.events stream)) :
    CatchesUp ⟨⟨stream, .following s, backoff⟩, ⟨log, latest⟩⟩ := by
  by_cases live : log.generation = s.generation
  · exact catchesUp_live live
  · have asked : (LogService.nextTail s).outcome log = (.ok .ended, log) := by
      show (EventLog.nextTail s).outcome log = _
      rw [EventLog.nextTail, outcome_ofFunction, if_pos live]
    have made : TrackerTask.step .zero 0 ⟨stream, .following s, backoff⟩ ⟨log, latest⟩ =
        some (⟨stream, .lost, backoff⟩, ⟨log, latest⟩) := by
      simp only [TrackerTask.step, Tracking.onLog, asked]
    exact catchesUp_of_step made (catchesUp_lost inPlace)

/-- From wherever it is, a tracker gets to the end of its stream if nobody keeps it from its steps. -/
private theorem catchesUp_tracks (tracks : k.Tracks stream) : k.CatchesUp := by
  obtain ⟨⟨stream', phase, backoff⟩, ⟨log, latest⟩⟩ := k
  obtain rfl : stream' = stream := tracks.follows
  have inPlace : InPlace (log.events stream') := tracks.inPlace
  cases phase with
  | subscribing => exact catchesUp_subscribing inPlace
  | reading s => exact catchesUp_reading inPlace (catchesUp_following inPlace)
  | observing s revision => exact catchesUp_observing (catchesUp_following inPlace)
  | following s => exact catchesUp_following inPlace
  | waiting s wakes =>
    by_cases asleep : log.wakes = wakes
    · exact (caughtUp_asleep tracks rfl asleep).catchesUp
    · have made : TrackerTask.step .zero 0 ⟨stream', .waiting s wakes, backoff⟩ ⟨log, latest⟩ =
          some (⟨stream', .following s, backoff⟩, ⟨log, latest⟩) := if_neg asleep
      exact catchesUp_of_step made (catchesUp_following inPlace)
  | lost => exact catchesUp_lost inPlace
  | pausing deadline => exact catchesUp_pausing inPlace deadline

end

/-! ### All together -/

/-- Of a stream a tracker never sees more than there is, and never forgets what it saw. When its subscription has
nothing left to deliver, it knows the last revision; it does not sleep before that, and can always get there. -/
theorem misses_nothing (history : List LogMove) (stream : String) (config : BackoffConfig) (turns : List Turn) :
    let k := (start stream config (({} : EventLog).run history)).run turns
    (∀ v, k.world.latest.value = some v → v ≤ k.world.log.tail stream) ∧
      (∀ more v, k.world.latest.value = some v → ∃ v', (k.run more).world.latest.value = some v' ∧ v ≤ v') ∧
      (∀ s, k.CaughtUp s → k.world.latest.value = some (k.world.log.tail stream)) ∧
      (∀ s wakes, k.task.phase = .waiting s wakes → k.world.log.wakes = wakes → k.CaughtUp s) ∧ k.CatchesUp := by
  intro k
  have tracks := (tracks_run (tracks_start config (EventLog.inPlace_history history stream)) turns).1
  exact ⟨tracks.within, fun more => (tracks_run tracks more).2, fun s caughtUp => caughtUp.latest tracks,
    fun s wakes phase asleep => caughtUp_asleep tracks phase asleep, catchesUp_tracks tracks⟩

/-- Events are appended between the steps by which a tracker subscribes, reads and takes note, both before and after its
subscription is cancelled. -/
def overtaken : List Turn :=
  let own : Turn := .own .zero 0
  let append (expected : Revision) : Turn := .other (.append "policy" expected [⟨"", []⟩])
  [own, append 1, own, append 2, own, .other .cancel, own, own, .own .zero 1000, own, append 3, own, own, own, own, own]

/-- A tracker of a stream with one event. -/
def watching : Tracker := start "policy" .default (({} : EventLog).run [.append "policy" 0 [⟨"", []⟩]])

/-- At first the tracker sees only two of three events; it ends asleep, after it saw the fourth twice. -/
theorem overtaken_misses_nothing :
    (watching.run (overtaken.take 6)).world.latest.value = some 2 ∧
      (watching.run (overtaken.take 6)).world.log.tail "policy" = 3 ∧
      (watching.run overtaken).CaughtUp ⟨"policy", 4, 1⟩ ∧ (watching.run overtaken).world.latest.value = some 4 := by
  obtain ⟨_, _, knows, asleep, _⟩ := misses_nothing [.append "policy" 0 [⟨"", []⟩]] "policy" .default overtaken
  have caughtUp : (watching.run overtaken).CaughtUp ⟨"policy", 4, 1⟩ :=
    asleep ⟨"policy", 4, 1⟩ 5 (by decide +kernel) (by decide +kernel)
  have seen : (watching.run overtaken).world.latest.value = some ((watching.run overtaken).world.log.tail "policy") :=
    knows ⟨"policy", 4, 1⟩ caughtUp
  have tail : (watching.run overtaken).world.log.tail "policy" = 4 := by decide +kernel
  rw [tail] at seen
  refine ⟨?_, ?_, caughtUp, seen⟩
  · decide +kernel
  · decide +kernel

end Tracker
end PolicyLedger
