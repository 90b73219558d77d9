import PolicyLedger.Config
import PolicyLedger.Replication.Revision
import PolicyLedger.Status

/-!
The check that a replica has caught up with the log before it serves a request. Both waits, for the
latest revision and for the replica to reach it, end at one deadline.
-/
namespace PolicyLedger

inductive CheckPhase where
  | starting
  | awaitingLatest (waiter : Waiter Revision)
  | comparing (latest : Revision) (deadline : Nat)
  | awaitingCurrent (latest : Revision) (waiter : Waiter Unit)
  | finished (result : Except ConsistencyError Unit)

structure ConsistencyCheck where
  config : ConsistencyConfig
  method : String
  phase : CheckPhase := .starting

namespace ConsistencyCheck

/-- One step at time `now`, or none while there is nothing to do but wait. The clock is read once for the deadline of
the check and that of the wait for the latest revision, and once for the time that is left and the deadline of the wait
for the replica, where it could be read twice, with time passing in between. Times have no bound: there is nothing here
for a call that breaks off, with no answer, because the clock does not go as far as its deadline. -/
def step (now : Nat) (current : Watched Revision) (latest : Watched (Option Revision)) (c : ConsistencyCheck) :
    Option ConsistencyCheck :=
  match c.phase with
  | .starting =>
    if c.config.isExcluded c.method then some { c with phase := .finished (.ok ()) }
    else some { c with phase := .awaitingLatest { deadline := now + c.config.timeout.ticks } }
  | .awaitingLatest waiter =>
    match waiter.result? with
    | some (some revision) => some { c with phase := .comparing revision waiter.deadline }
    | some none => some { c with phase := .finished (.error (.latestUnknown c.config.timeout)) }
    | none => (waiter.step id now latest).map fun waiter => { c with phase := .awaitingLatest waiter }
  | .comparing revision deadline =>
    if revision ≤ current.value then some { c with phase := .finished (.ok ()) }
    else some { c with phase := .awaitingCurrent revision { deadline := max now deadline } }
  | .awaitingCurrent revision waiter =>
    match waiter.result? with
    | some (some ()) => some { c with phase := .finished (.ok ()) }
    | some none => some { c with phase := .finished (.error (.stale current.value revision)) }
    | none =>
      (waiter.step (reached revision) now current).map fun waiter =>
        { c with phase := .awaitingCurrent revision waiter }
  | .finished _ => none

def result? (c : ConsistencyCheck) : Option (Except ConsistencyError Unit) :=
  match c.phase with
  | .finished result => some result
  | _ => none

def wakeTime? (c : ConsistencyCheck) : Option Nat :=
  match c.phase with
  | .awaitingLatest waiter => waiter.wakeTime?
  | .awaitingCurrent _ waiter => waiter.wakeTime?
  | _ => none

end ConsistencyCheck
end PolicyLedger
