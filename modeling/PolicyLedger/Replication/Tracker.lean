import PolicyLedger.Backoff
import PolicyLedger.Log.Service
import PolicyLedger.Replication.Revision

/-!
Trackers learn the revision of the last event of a stream. They subscribe before they read the tail,
so what is appended in between is delivered.
-/
namespace PolicyLedger

/-- What a tracker works on. The latest revision is none until it is first seen. -/
structure Tracking (L : Type) where
  log : L
  latest : Watched (Option Revision)

def Tracking.onLog {L α : Type} (act : Action LogError L α) (w : Tracking L) : Except LogError α × Tracking L :=
  let (result, log) := act.outcome w.log
  (result, { w with log })

inductive TrackerPhase where
  | subscribing
  | reading (subscription : TailSubscription)
  /-- About to tell those who wait of a revision it has seen. -/
  | observing (subscription : TailSubscription) (revision : Revision)
  | following (subscription : TailSubscription)
  /-- Asleep until the log wakes those who wait, which it had done so often when the tracker looked. -/
  | waiting (subscription : TailSubscription) (wakes : Nat)
  | lost
  | pausing (deadline : Nat)
  deriving DecidableEq

structure TrackerTask where
  stream : String
  phase : TrackerPhase
  backoff : Backoff

namespace TrackerTask
variable {L : Type} [LogService L]

def start (stream : String) (config : BackoffConfig) : TrackerTask := ⟨stream, .subscribing, .start config⟩

def resume (jitter : Duration) (t : TrackerTask) : TrackerTask :=
  { t with phase := .subscribing, backoff := t.backoff.increment jitter }

/-- Revision of the last event, as far as an answer tells. A stream that does not exist has none. -/
def lastRevision : Except LogError (List Recorded) → Except LogError Revision
  | .ok [] => .ok 0
  | .ok (last :: _) => .ok last.revision
  | .error (.streamNotFound _) => .ok 0
  | .error e => .error e

/-- One step at time `now`, or none while there is nothing to do. -/
def step (jitter : Duration) (now : Nat) (t : TrackerTask) (w : Tracking L) : Option (TrackerTask × Tracking L) :=
  match t.phase with
  | .subscribing =>
    match w.onLog (LogService.subscribeTail t.stream) with
    | (.ok subscription, w) => some ({ t with phase := .reading subscription }, w)
    | (.error _, w) => some ({ t with phase := .lost }, w)
  | .reading subscription =>
    let (answer, w) := w.onLog (LogService.readFromEnd t.stream 1)
    match lastRevision answer with
    | .ok revision => some ({ t with phase := .observing subscription revision, backoff := t.backoff.reset }, w)
    | .error _ => some ({ t with phase := .lost }, w)
  | .observing subscription revision =>
    some ({ t with phase := .following subscription }, { w with latest := w.latest.observe revision })
  | .following subscription =>
    match w.onLog (LogService.nextTail subscription) with
    | (.ok .waiting, w) => some ({ t with phase := .waiting subscription (LogService.wakes w.log) }, w)
    | (.ok (.ready (event, subscription)), w) =>
      some ({ t with phase := .observing subscription event.revision }, w)
    | (.ok .ended, w) | (.error _, w) => some ({ t with phase := .lost }, w)
  | .waiting subscription wakes =>
    if LogService.wakes w.log = wakes then none else some ({ t with phase := .following subscription }, w)
  | .lost =>
    if t.backoff.value.isZero then some (t.resume jitter, w)
    else some ({ t with phase := .pausing (now + t.backoff.value.pauseTicks) }, w)
  | .pausing deadline => if deadline ≤ now then some (t.resume jitter, w) else none

def isWaiting (t : TrackerTask) : Bool :=
  match t.phase with
  | .waiting .. => true
  | _ => false

def wakeTime? (t : TrackerTask) : Option Nat :=
  match t.phase with
  | .pausing deadline => some deadline
  | _ => none

end TrackerTask
end PolicyLedger
