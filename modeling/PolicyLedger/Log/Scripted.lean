import PolicyLedger.Log.Basic

/-!
A log that fails on demand and keeps a journal of what happens to the deliveries of groups.
-/
namespace PolicyLedger

/-- Requests to a log that can be made to fail. -/
inductive LogRequest where
  | append
  | read
  | readEnd
  | createGroup
  | subscribe
  | subscribeTail
  | next
  | acknowledge
  | reject
  deriving DecidableEq

inductive JournalEntry where
  | delivered (revision : Revision) (retryCount : Nat)
  | acknowledged (revision : Revision)
  | retried (revision : Revision) (reason : String)
  | parked (revision : Revision) (reason : String)

structure ScriptedLog where
  log : EventLog := {}
  /-- What happens to requests to come: the first entry for a request is used up by it, and fails it
  unless it is none. -/
  script : List (LogRequest × Option LogError) := []
  /-- Newest first. -/
  journal : List JournalEntry := []

namespace ScriptedLog
variable {α : Type}

/-- What the script holds for a request, and the script without it. -/
def takeFault (request : LogRequest) :
    List (LogRequest × Option LogError) → Option LogError × List (LogRequest × Option LogError)
  | [] => (none, [])
  | (scripted, fault) :: rest =>
    if scripted = request then (fault, rest)
    else
      let (found, rest) := takeFault request rest
      (found, (scripted, fault) :: rest)

def onLog (act : Action LogError EventLog α) : Action LogError ScriptedLog α :=
  act.within ScriptedLog.log fun log s => { s with log }

/-- A request that does nothing at all if the script fails it. -/
def scripted (request : LogRequest) (act : Action LogError ScriptedLog α) : Action LogError ScriptedLog α := do
  let (fault, script) := takeFault request (← get).script
  modify fun s => { s with script }
  match fault with
  | some e => throw e
  | none => act

def note (entry : JournalEntry) : Action LogError ScriptedLog Unit :=
  modify fun s => { s with journal := entry :: s.journal }

def deliver (s : Subscription) : Action LogError ScriptedLog (Poll Delivery) := do
  let poll ← onLog (EventLog.next s)
  if let .ready d := poll then note (.delivered d.revision d.retryCount.toNat)
  return poll

instance : LogService ScriptedLog where
  wakes s := s.log.wakes
  append stream expected records := scripted .append (onLog (EventLog.append stream expected records))
  readFrom stream first count := scripted .read (onLog (EventLog.readFrom stream first count))
  readFromEnd stream count := scripted .readEnd (onLog (EventLog.readFromEnd stream count))
  createGroup stream group := scripted .createGroup (onLog (EventLog.createGroup stream group))
  subscribe stream group := scripted .subscribe (onLog (EventLog.subscribe stream group))
  subscribeTail stream := scripted .subscribeTail (onLog (EventLog.subscribeTail stream))
  next s := scripted .next (deliver s)
  nextAgain s := deliver s
  nextTail s := onLog (EventLog.nextTail s)
  acknowledge s d := scripted .acknowledge do
    onLog (EventLog.acknowledge s d)
    note (.acknowledged d.revision)
  reject s d rejection reason := scripted .reject do
    onLog (EventLog.reject s d rejection)
    note (match rejection with
      | .retry => .retried d.revision reason
      | .park => .parked d.revision reason)

end ScriptedLog
end PolicyLedger
