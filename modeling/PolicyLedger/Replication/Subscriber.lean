import PolicyLedger.Config
import PolicyLedger.Replication.Replica
import PolicyLedger.Replication.Revision

/-!
Subscribers keep a replica in step with a stream. Each takes the deliveries of its group one at a
time; an event that can not be repeated is tried again a number of times, then set aside, and the
replica is locked down.
-/
namespace PolicyLedger

/-- What a subscriber reads and where it gives up. -/
structure SubscriberSpec where
  stream : String
  group : String
  maxRedeliveries : UInt32
  backoff : BackoffConfig

/-- What a subscriber works on. -/
structure Following (L : Type) where
  log : L
  replica : Replica
  current : Watched Revision
  /-- Set when an event could not be repeated. Nothing is applied from then on. -/
  lockdown : Bool

namespace Following
variable {L ε α : Type}

def onLog (act : Action LogError L α) (w : Following L) : Except LogError α × Following L :=
  let (result, log) := act.outcome w.log
  (result, { w with log })

def onReplica (act : Action ε Replica α) (w : Following L) : Except ε α × Following L :=
  let (result, replica) := act.outcome w.replica
  (result, { w with replica })

end Following

/-- Where a subscriber stands with the deliveries of a subscription. -/
inductive Consuming where
  /-- About to look whether the replica is locked down. -/
  | ready
  /-- About to ask for the next delivery. -/
  | asking
  /-- Asleep until the log wakes those who wait, which it had done so often when they last looked. -/
  | waiting (wakes : Nat)
  /-- About to look once more whether the replica is locked down. -/
  | received (d : Delivery)
  | applying (d : Delivery)
  | acknowledging (d : Delivery)
  /-- About to tell those who wait how far the replica is. -/
  | announcing (revision : Revision)
  /-- About to lock the replica down. -/
  | lockingDown (d : Delivery) (error : ReplayError)
  | rejecting (d : Delivery) (error : ReplayError) (rejection : Rejection)
  | finished (result : Except ReplayError Unit)

namespace Consuming
variable {L : Type} [LogService L]

/-- What follows an answer to the question for the next delivery, from a log that has woken those who
wait so often. -/
def afterPoll (wakes : Nat) : Except LogError (Poll Delivery) → Consuming
  | .error e => finished (.error (.log e))
  | .ok (.ready d) => received d
  | .ok .waiting => waiting wakes
  | .ok .ended => finished (.ok ())

/-- Repeats a delivered event, unless the replica already did. -/
def applyDelivery (d : Delivery) : Action ReplayError Replica Unit := do
  if d.revision ≤ (← get).revision then return ()
  Replica.applyRecorded d.event

/-- One step, or none while there is nothing new to look for or all is done. Whoever is woken looks, and
waits anew if others took what there was. -/
def step (spec : SubscriberSpec) (subscription : Subscription) (c : Consuming) (w : Following L) :
    Option (Consuming × Following L) :=
  match c with
  | ready => some (if w.lockdown then finished (.ok ()) else asking, w)
  | asking =>
    let (answer, w) := w.onLog (LogService.next subscription)
    some (afterPoll (LogService.wakes w.log) answer, w)
  | waiting wakes =>
    if LogService.wakes w.log = wakes then none
    else
      let (answer, w) := w.onLog (LogService.nextAgain subscription)
      some (afterPoll (LogService.wakes w.log) answer, w)
  | received d => some (if w.lockdown then finished (.ok ()) else applying d, w)
  | applying d =>
    match w.onReplica (applyDelivery d) with
    | (.ok (), w) => some (acknowledging d, w)
    | (.error e, w) => some (if d.retryCount < spec.maxRedeliveries then rejecting d e .retry else lockingDown d e, w)
  | acknowledging d =>
    match w.onLog (LogService.acknowledge subscription d) with
    | (.ok (), w) => some (announcing d.revision, w)
    | (.error e, w) => some (finished (.error (.log e)), w)
  | announcing revision => some (ready, { w with current := w.current.set revision })
  | lockingDown d e => some (rejecting d e .park, { w with lockdown := true })
  | rejecting d e rejection =>
    match w.onLog (LogService.reject subscription d rejection e.message) with
    | (.ok (), w) => some (ready, w)
    | (.error e, w) => some (finished (.error (.log e)), w)
  | finished _ => none

end Consuming

namespace SubscriberSpec
variable {L : Type} [LogService L]

/-- Creates the group; one that exists already is as good. -/
def ensureGroup (spec : SubscriberSpec) : Action LogError L Unit := do
  match ← (LogService.createGroup (L := L) spec.stream spec.group).attempt with
  | .ok () | .error (.groupExists ..) => return ()
  | .error e => throw e

/-- Makes sure that the group exists and joins it. -/
def subscribe (spec : SubscriberSpec) : Action LogError L Subscription := do
  spec.ensureGroup
  LogService.subscribe spec.stream spec.group

end SubscriberSpec

/-- Where a subscriber stands that renews its subscription whenever it is lost. -/
inductive Subscribing where
  /-- About to look whether the replica is locked down. -/
  | starting
  | creating
  | joining
  | consuming (subscription : Subscription) (c : Consuming)
  /-- Without a subscription, and about to look whether the replica is locked down. -/
  | lost
  | pausing (deadline : Nat)
  | stopped

structure SubscriberTask where
  phase : Subscribing
  backoff : Backoff

namespace SubscriberTask
variable {L : Type} [LogService L]

def start (spec : SubscriberSpec) : SubscriberTask := ⟨.starting, .start spec.backoff⟩

/-- The next pause is longer. -/
def resume (jitter : Duration) (t : SubscriberTask) : SubscriberTask := ⟨.starting, t.backoff.increment jitter⟩

/-- One step at time `now`, or none while there is nothing to do. -/
def step (spec : SubscriberSpec) (jitter : Duration) (now : Nat) (t : SubscriberTask) (w : Following L) :
    Option (SubscriberTask × Following L) :=
  match t.phase with
  | .starting => some ({ t with phase := if w.lockdown then .stopped else .creating }, w)
  | .creating =>
    match w.onLog spec.ensureGroup with
    | (.ok (), w) => some ({ t with phase := .joining }, w)
    | (.error _, w) => some ({ t with phase := .lost }, w)
  | .joining =>
    match w.onLog (LogService.subscribe spec.stream spec.group) with
    | (.ok subscription, w) => some (⟨.consuming subscription .ready, t.backoff.reset⟩, w)
    | (.error _, w) => some ({ t with phase := .lost }, w)
  | .consuming _ (.finished _) => some ({ t with phase := .lost }, w)
  | .consuming subscription c =>
    match c.step spec subscription w with
    | some (c, w) => some ({ t with phase := .consuming subscription c }, w)
    | none => none
  | .lost =>
    if w.lockdown then some ({ t with phase := .stopped }, w)
    else if t.backoff.value.isZero then some (t.resume jitter, w)
    else some ({ t with phase := .pausing (now + t.backoff.value.pauseTicks) }, w)
  | .pausing deadline => if deadline ≤ now then some (t.resume jitter, w) else none
  | .stopped => none

def isWaiting (t : SubscriberTask) : Bool :=
  match t.phase with
  | .consuming _ (.waiting _) => true
  | _ => false

def isStopped (t : SubscriberTask) : Bool :=
  match t.phase with
  | .stopped => true
  | _ => false

def wakeTime? (t : SubscriberTask) : Option Nat :=
  match t.phase with
  | .pausing deadline => some deadline
  | _ => none

end SubscriberTask
end PolicyLedger
