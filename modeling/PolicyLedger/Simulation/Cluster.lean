import PolicyLedger.Log.Scripted
import PolicyLedger.Replication.Adjudication
import PolicyLedger.Replication.Consistency
import PolicyLedger.Replication.Subscriber
import PolicyLedger.Replication.Tracker

/-!
A cluster of members that share one log and one clock. Work takes no time; only waiting does. Those
who work in the background take turns: each goes on until it has to wait, and those that were woken
together go on in the order in which they began to wait or to pause.
-/
namespace PolicyLedger

/-- A replica and the revision it is known to have reached. Members may share one. -/
structure Site where
  replica : Replica
  current : Watched Revision

structure Member where
  /-- Number of the site it keeps. -/
  site : Nat
  subscriber : SubscriberSpec
  adjudicator : AdjudicatorConfig
  plugins : SortedSet String
  published : Revision := 0
  lockdown : Bool := false
  /-- The subscriber at work in the background, if there is one. -/
  task : Option SubscriberTask := none
  /-- A subscription that is consumed by hand. -/
  subscription : Option Subscription := none

structure Cluster where
  /-- Milliseconds on the clock. -/
  now : Nat := 0
  log : ScriptedLog := {}
  sites : List Site := []
  /-- Members by number. One whose name was given to another still answers what it was asked before,
  and works until it has. -/
  members : List Member := []
  memberNames : SortedMap String Nat := ∅
  /-- Numbers of the members, those first whose turn in the background comes first. -/
  queue : List Nat := []
  latests : List (Watched (Option Revision)) := []
  latestNames : SortedMap String Nat := ∅
  /-- Trackers by name, each with the number of the latest revision it keeps. -/
  trackers : List (String × Nat × TrackerTask) := []

namespace Cluster

/-- A list of named values with one replaced where it stands. -/
def replaceNamed {α : Type} (l : List (String × α)) (name : String) (a : α) : List (String × α) :=
  l.map fun entry => if entry.1 = name then (name, a) else entry

/-- A list of named values with one put at its end, in place of the one of its name. -/
def putNamed {α : Type} (l : List (String × α)) (name : String) (a : α) : List (String × α) :=
  l.filter (·.1 ≠ name) ++ [(name, a)]

/-- Number of the member that has a name now. -/
def number? (c : Cluster) (name : String) : Option Nat := c.memberNames.get? name

def member? (c : Cluster) (name : String) : Option Member := do c.members[← c.number? name]?

def setMember (c : Cluster) (number : Nat) (p : Member) : Cluster := { c with members := c.members.set number p }

/-- Puts a member behind all others. -/
def moveLast (c : Cluster) (number : Nat) : Cluster := { c with queue := c.queue.erase number ++ [number] }

/-- A member by its number, and its site. -/
def seated? (c : Cluster) (number : Nat) : Option (Member × Site) := do
  let p ← c.members[number]?
  return (p, ← c.sites[p.site]?)

/-- A member by its name, and its site. -/
def placed? (c : Cluster) (name : String) : Option (Member × Site) := do c.seated? (← c.number? name)

def setSite (c : Cluster) (p : Member) (site : Site) : Cluster := { c with sites := c.sites.set p.site site }

/-- Ends a tracker; what it learned stays. -/
def dropTracker (c : Cluster) (name : String) : Bool × Cluster :=
  ((c.trackers.lookup name).isSome, { c with trackers := c.trackers.filter (·.1 ≠ name) })

def latest? (c : Cluster) (name : String) : Option (Nat × Watched (Option Revision)) := do
  let number ← c.latestNames.get? name
  return (number, ← c.latests[number]?)

def setLatest (c : Cluster) (number : Nat) (latest : Watched (Option Revision)) : Cluster :=
  { c with latests := c.latests.set number latest }

/-- What the subscriber of a member works on. -/
def following (c : Cluster) (p : Member) (site : Site) : Following ScriptedLog :=
  { log := c.log, replica := site.replica, current := site.current, lockdown := p.lockdown }

/-- The cluster after a subscriber has worked. -/
def setFollowing (c : Cluster) (number : Nat) (p : Member) (w : Following ScriptedLog) : Cluster :=
  ({ c with log := w.log }.setSite p ⟨w.replica, w.current⟩).setMember number { p with lockdown := w.lockdown }

/-- Adds nothing to pauses. -/
def noJitter : Duration := .zero

/-- One step of the background subscriber of a member. Those that begin to pause or to wait for events, or
wait anew, queue up behind the others. -/
def stepMember (c : Cluster) (number : Nat) : Option Cluster := do
  let (p, site) ← c.seated? number
  let task ← p.task
  let (task, w) ← task.step p.subscriber noJitter c.now (c.following p site)
  let c := c.setFollowing number { p with task := some task } w
  return if task.isWaiting || task.wakeTime?.isSome then c.moveLast number else c

def stepTracker (c : Cluster) (name : String) (number : Nat) (task : TrackerTask) : Option Cluster := do
  let latest ← c.latests[number]?
  let (task, w) ← task.step noJitter c.now { log := c.log, latest : Tracking ScriptedLog }
  let place := if task.isWaiting || task.wakeTime?.isSome then putNamed else replaceNamed
  return { c with log := w.log, trackers := place c.trackers name (number, task) }.setLatest number w.latest

/-- A list with one put behind those that pass a test and ahead of the others. -/
def putBehind {α : Type} (test : α → Bool) (l : List α) (a : α) : List α :=
  l.filter test ++ a :: l.filter fun other => !test other

/-- Gives a name to a new member. Its turn comes after those that have something to do by now, but before
those that still wait. -/
def enlist (c : Cluster) (name : String) (p : Member) : Cluster :=
  let number := c.members.length
  { c with
    members := c.members ++ [p]
    memberNames := c.memberNames.insert name number
    queue := putBehind (fun other => (c.stepMember other).isSome) c.queue number }

/-- The store that policy text leads to. Nobody in particular is its author. -/
def storeOf (source : Option String) : Except PolicyError Store :=
  match source with
  | none => .ok {}
  | some source =>
    match (Statement.run default source).outcome ({} : Store) with
    | (.ok _, store) => .ok store
    | (.error e, _) => .error e

/-- Sets up a member at a site of its own. -/
def addMember (c : Cluster) (name : String) (store : Store) (revision : Revision) (p : Member) : Cluster :=
  let site : Site := ⟨⟨store, revision⟩, ⟨revision, 0⟩⟩
  { c with sites := c.sites ++ [site] }.enlist name { p with site := c.sites.length }

/-- Sets up a member at the site of another. -/
def shareMember (c : Cluster) (name : String) (other p : Member) : Cluster :=
  c.enlist name { p with site := other.site }

def addLatest (c : Cluster) (name : String) : Cluster :=
  { c with latests := c.latests ++ [⟨none, 0⟩], latestNames := c.latestNames.insert name c.latests.length }

def addTracker (c : Cluster) (name stream : String) (config : BackoffConfig) : Cluster :=
  let others := c.trackers.filter (·.1 ≠ name)
  let busy := fun (other, number, task) => (c.stepTracker other number task).isSome
  let trackers := putBehind busy others (name, c.latests.length, .start stream config)
  { c with trackers }.addLatest name

/-- Numbers of the members that work in the background: those with a name, and those bound by requests
that were made to them. -/
def workers (c : Cluster) (bound : List Nat) : List Nat :=
  c.queue.filter fun number => bound.contains number || c.memberNames.values.contains number

/-- One step of whoever is first to have something to do in the background. -/
def stepBackground (c : Cluster) (bound : List Nat) : Option Cluster :=
  ((c.workers bound).findSome? c.stepMember).or
    (c.trackers.findSome? fun (name, number, task) => c.stepTracker name number task)

/-- When a member goes on by itself. -/
def wakeTime? (c : Cluster) (number : Nat) : Option Nat := do (← (← c.members[number]?).task).wakeTime?

/-- When somebody in the background goes on by itself. -/
def backgroundWakeTimes (c : Cluster) (bound : List Nat) : List Nat :=
  (c.workers bound).filterMap c.wakeTime? ++ c.trackers.filterMap fun (_, _, task) => task.wakeTime?

/-- A list with those that pass a test put ahead of the others. -/
def putAhead {α : Type} (test : α → Bool) (l : List α) : List α :=
  l.filter test ++ l.filter fun other => !test other

/-- Lets the clock go on to a time. Those whose pause is over by then come first, in the order in which they
began to pause: they are awake before anything happens that wakes others. -/
def advance (c : Cluster) (time : Nat) : Cluster :=
  { c with
    now := time
    queue := putAhead (fun number => (c.wakeTime? number).any (· ≤ time)) c.queue
    trackers := putAhead (fun (_, _, task) => task.wakeTime?.any (· ≤ time)) c.trackers }

/-- Takes deliveries by hand until none is left to be received; none stands for waiting for more. -/
def consume (fuel : Nat) (spec : SubscriberSpec) (subscription : Subscription) (state : Consuming)
    (w : Following ScriptedLog) : Option (Except ReplayError Unit) × Following ScriptedLog :=
  match fuel with
  | 0 => (none, w)
  | fuel + 1 =>
    match state with
    | .finished result => (some result, w)
    | _ =>
      match state.step spec subscription w with
      | none => (none, w)
      | some (state, w) => consume fuel spec subscription state w

/-- Consumes the subscription a member keeps, as far as it goes without waiting. -/
def pump (fuel : Nat) (c : Cluster) (name : String) : Option (Option (Except ReplayError Unit) × Cluster) := do
  let number ← c.number? name
  let (p, site) ← c.seated? number
  let subscription ← p.subscription
  let (result, w) := consume fuel p.subscriber subscription .ready (c.following p site)
  return (result, c.setFollowing number p w)

/-- Subscribes for a member by hand. -/
def subscribe (c : Cluster) (name : String) : Option (Except LogError Unit × Cluster) := do
  let number ← c.number? name
  let p ← c.members[number]?
  let (result, log) := p.subscriber.subscribe.outcome c.log
  let c := { c with log }
  match result with
  | .ok subscription => return (.ok (), c.setMember number { p with subscription := some subscription })
  | .error e => return (.error e, c)

/-- Locks the replica of a member down, and tells whether it was not before. -/
def engage (c : Cluster) (name : String) : Option (Bool × Cluster) := do
  let number ← c.number? name
  let p ← c.members[number]?
  return (!p.lockdown, c.setMember number { p with lockdown := true })

/-- Lets the replica of a member catch up with a stream, its own unless another is given. Every page that is not
empty holds an event, so there are fewer of them than pages are allowed. -/
def catchUp (c : Cluster) (name : String) (stream : Option String) :
    Option (Except ReplayError Revision × Cluster) := do
  let (p, site) ← c.placed? name
  let stream := stream.getD p.subscriber.stream
  let pages := c.log.log.tail stream + 1
  let (result, log, replica) := (Replica.catchUp stream pages).outcome (c.log, site.replica)
  return (result.map (·.getD replica.revision), { c with log }.setSite p { site with replica })

/-- The journal, oldest entry first, and the cluster with an empty one. -/
def takeJournal (c : Cluster) : List JournalEntry × Cluster :=
  (c.log.journal.reverse, { c with log := { c.log with journal := [] } })

end Cluster
end PolicyLedger
