import PolicyLedger.Command.Execution
import PolicyLedger.Config
import PolicyLedger.Replication.Replica
import PolicyLedger.Replication.Revision
import PolicyLedger.Store.Recorder
import PolicyLedger.Store.Scratch

/-!
Requests to change the policy. Each attempt runs the request on a scratch copy of the replica and
appends the events it recorded, if the stream is still where the replica was; otherwise another
attempt is made. The replica itself changes only by following the stream.
-/
namespace PolicyLedger

/-- What a request works on. -/
abbrev Workspace : Type := Recorder (Scratch Store)

/-- A request that was carried out. -/
structure Adjudicated (α : Type) where
  value : α
  /-- The events it appended. -/
  events : List Event
  /-- Revision of the last of them, or without any the one the request was tried at. -/
  revision : Revision

/-- What an adjudication works on. -/
structure Adjudicating (L : Type) where
  log : L
  replica : Replica
  current : Watched Revision
  /-- Highest revision that requests to this process led to. -/
  published : Revision

structure AdjudicationSpec (α : Type) where
  config : AdjudicatorConfig
  stream : String
  plugins : SortedSet String
  /-- What is run at each attempt, from attempt 0 on. A request may remember that it was run before. -/
  request : Nat → Action CommandError Workspace α

/-- Most requests run the same at each attempt. -/
instance {α : Type} : Coe (Action CommandError Workspace α) (Nat → Action CommandError Workspace α) where
  coe act _ := act

inductive AdjudicationPhase (α : Type) where
  | starting
  /-- Waits for what was published when the attempt began, not for what others publish meanwhile. -/
  | awaitingPublished (target : Revision) (waiter : Waiter Unit)
  | attempting
  | appending (value : α) (events : List Event) (expected : Revision)
  /-- About to note what was appended. -/
  | noting (done : Adjudicated α)
  | pausing (deadline : Nat)
  | awaitingApplied (done : Adjudicated α) (waiter : Waiter Unit)
  | finished (result : Except AdjudicationError (Adjudicated α))

/-- An adjudication under way, and how many attempts it has begun. -/
structure Adjudication (α : Type) where
  attempts : Nat := 0
  phase : AdjudicationPhase α := .starting

namespace Adjudication
variable {L α : Type} [LogService L]

/-- There is always one attempt. -/
def maxAttempts (config : AdjudicatorConfig) : Nat := max 1 config.maxAttempts.toNat

/-- Runs a request on a scratch copy of a store, and takes back whatever it did to it. -/
def runScratch (plugins : SortedSet String) (request : Action CommandError Workspace α) (store : Store) :
    Except CommandError (α × List Event) × Store :=
  match (Transactional.begin (σ := Workspace)).outcome { inner := { store }, plugins } with
  | (.error e, after) => (.error (.policy e), after.inner.release)
  | (.ok (), begun) =>
    let (result, after) := request.outcome begun
    let (closed, scratch) := Scratch.close.outcome after.inner
    let outcome := match closed, result with
      | .error e, _ => .error (.policy e)
      | .ok (), .error e => .error e
      | .ok (), .ok value => .ok (value, after.events)
    (outcome, scratch.release)

/-- An attempt at the revision the replica is at, the first or one after as many others. -/
def attempt (spec : AdjudicationSpec α) (attempts : Nat) (w : Adjudicating L) :
    Except CommandError (α × List Event) × Adjudicating L :=
  let (result, store) := runScratch spec.plugins (spec.request attempts) w.replica.store
  (result, { w with replica := { w.replica with store } })

def record (e : Event) : Record := ⟨e.schema, e.toBytes⟩

/-- Appends the events of an attempt. -/
def publish (spec : AdjudicationSpec α) (events : List Event) (expected : Revision) (w : Adjudicating L) :
    Except LogError Revision × Adjudicating L :=
  let (result, log) := (LogService.append (L := L) spec.stream expected (events.map record)).outcome w.log
  (result, { w with log })

/-- Waits for the replica to apply what is in the stream up to a revision. Times have no bound: there is nothing here
for a request that breaks off, with no answer, because the clock does not go as far as its deadline. -/
def patience (spec : AdjudicationSpec α) (now : Nat) : Waiter Unit :=
  { deadline := now + spec.config.applyTimeout.ticks }

/-- One step at time `now`, or none while there is nothing to do but wait. -/
def step (spec : AdjudicationSpec α) (now : Nat) (a : Adjudication α) (w : Adjudicating L) :
    Option (Adjudication α × Adjudicating L) :=
  match a.phase with
  | .starting => some ({ a with phase := .awaitingPublished w.published (patience spec now) }, w)
  | .awaitingPublished target waiter =>
    match waiter.result? with
    | some _ => some ({ a with phase := .attempting }, w)
    | none =>
      (waiter.step (reached target) now w.current).map fun waiter =>
        ({ a with phase := .awaitingPublished target waiter }, w)
  | .attempting =>
    let expected := w.replica.revision
    let (result, w) := attempt spec a.attempts w
    let phase := match result with
      | .error e => .finished (.error (.command e))
      | .ok (value, []) => .finished (.ok ⟨value, [], expected⟩)
      | .ok (value, events) => .appending value events expected
    some (⟨a.attempts + 1, phase⟩, w)
  | .appending value events expected =>
    match publish spec events expected w with
    | (.ok revision, w) => some ({ a with phase := .noting ⟨value, events, revision⟩ }, w)
    | (.error e, w) =>
      if !e.isConflict then some ({ a with phase := .finished (.error (.log e)) }, w)
      else if maxAttempts spec.config ≤ a.attempts then
        some ({ a with phase := .finished (.error (.attemptsExhausted a.attempts e)) }, w)
      else some ({ a with phase := .pausing (now + spec.config.retryInterval.pauseTicks) }, w)
  | .noting done =>
    some ({ a with phase := .awaitingApplied done (patience spec now) },
      { w with published := max w.published done.revision })
  | .pausing deadline => if deadline ≤ now then some ({ a with phase := .starting }, w) else none
  | .awaitingApplied done waiter =>
    match waiter.result? with
    | some _ => some ({ a with phase := .finished (.ok done) }, w)
    | none =>
      (waiter.step (reached done.revision) now w.current).map fun waiter =>
        ({ a with phase := .awaitingApplied done waiter }, w)
  | .finished _ => none

def result? (a : Adjudication α) : Option (Except AdjudicationError (Adjudicated α)) :=
  match a.phase with
  | .finished result => some result
  | _ => none

def wakeTime? (a : Adjudication α) : Option Nat :=
  match a.phase with
  | .awaitingPublished _ waiter => waiter.wakeTime?
  | .awaitingApplied _ waiter => waiter.wakeTime?
  | .pausing deadline => some deadline
  | _ => none

end Adjudication

/-- Answers a question from the store of a replica; nothing is appended. -/
def Replica.query {α : Type} (question : Store → Except PolicyError α) (r : Replica) :
    Except AdjudicationError α :=
  (question r.store).mapError fun e => .command (.policy e)

end PolicyLedger
