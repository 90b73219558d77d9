import PolicyLedger.Log.Service
import PolicyLedger.Sorted.Map

/-!
A log in memory: streams that only grow, groups that move along them one event at a time, and the
generation of the subscriptions that are still good. Those who wait are woken, all of them, by every
change that could concern one of them: new events and the end of their subscriptions.
-/
namespace PolicyLedger

structure ConsumerGroup where
  /-- How many events the group is done with. -/
  position : Nat := 0
  /-- How often the event at hand was rejected to be tried again. Behind its highest value the count starts again
  from zero. -/
  retryCount : UInt32 := 0
  /-- Revisions of the events it gave up on, oldest first. -/
  parked : List Revision := []
  deriving DecidableEq

/-- The group done with the event at hand. -/
def ConsumerGroup.advance (g : ConsumerGroup) : ConsumerGroup := { g with position := g.position + 1, retryCount := 0 }

structure EventLog where
  streams : SortedMap String (List Recorded) := ∅
  /-- Groups by stream and name. -/
  groups : SortedMap String (SortedMap String ConsumerGroup) := ∅
  generation : Nat := 0
  /-- How often those who wait were woken. -/
  wakes : Nat := 0
  deriving DecidableEq

namespace EventLog

/-- Events of a stream; one that was never appended to has none. -/
def events (log : EventLog) (stream : String) : List Recorded := (log.streams.get? stream).getD []

/-- Revision of the last event of a stream. -/
def tail (log : EventLog) (stream : String) : Revision := (log.events stream).length

def group? (log : EventLog) (stream group : String) : Option ConsumerGroup :=
  ((log.groups.get? stream).getD ∅).get? group

def setGroup (log : EventLog) (stream group : String) (state : ConsumerGroup) : EventLog :=
  { log with groups := log.groups.insert stream (((log.groups.get? stream).getD ∅).insert group state) }

def parked (log : EventLog) (stream group : String) : List Revision :=
  ((log.group? stream group).map (·.parked)).getD []

def wake (log : EventLog) : EventLog := { log with wakes := log.wakes + 1 }

/-- Ends all subscriptions there are. -/
def cancelSubscriptions (log : EventLog) : EventLog := { log with generation := log.generation + 1 }.wake

/-- Records numbered on from a revision. -/
def number (stream : String) (last : Revision) : List Record → List Recorded
  | [] => []
  | record :: rest => ⟨stream, last + 1, record.schema, record.data⟩ :: number stream (last + 1) rest

def append (stream : String) (expected : Revision) (records : List Record) : Action LogError EventLog Revision :=
  .ofFunction fun log =>
    let actual := log.tail stream
    if actual ≠ expected then (.error (.conflict stream expected actual), log)
    else if records.isEmpty then (.ok actual, log)
    else
      let events := log.events stream ++ number stream actual records
      (.ok events.length, { log with streams := log.streams.insert stream events }.wake)

/-- Events of a stream that has some. -/
def existing (log : EventLog) (stream : String) : Except LogError (List Recorded) :=
  match log.events stream with
  | [] => .error (.streamNotFound stream)
  | events => .ok events

def readFrom (stream : String) (first : Revision) (count : Nat) : Action LogError EventLog (List Recorded) :=
  .ofFunction fun log => ((log.existing stream).map fun events => (events.drop (first - 1)).take count, log)

def readFromEnd (stream : String) (count : Nat) : Action LogError EventLog (List Recorded) :=
  .ofFunction fun log => ((log.existing stream).map fun events => events.reverse.take count, log)

def createGroup (stream group : String) : Action LogError EventLog Unit :=
  .ofFunction fun log =>
    match log.group? stream group with
    | some _ => (.error (.groupExists stream group), log)
    | none => (.ok (), log.setGroup stream group {})

def subscribe (stream group : String) : Action LogError EventLog Subscription :=
  .ofFunction fun log =>
    match log.group? stream group with
    | some _ => (.ok ⟨stream, group, log.generation⟩, log)
    | none => (.error (.groupNotFound stream group), log)

def subscribeTail (stream : String) : Action LogError EventLog TailSubscription :=
  .ofFunction fun log => (.ok ⟨stream, log.tail stream, log.generation⟩, log)

def next (s : Subscription) : Action LogError EventLog (Poll Delivery) :=
  .ofFunction fun log =>
    if log.generation ≠ s.generation then (.ok .ended, log)
    else
      match log.group? s.stream s.group with
      | none => (.error (.groupNotFound s.stream s.group), log)
      | some group =>
        match (log.events s.stream)[group.position]? with
        | some event => (.ok (.ready ⟨event, group.retryCount⟩), log)
        | none => (.ok .waiting, log)

def nextTail (s : TailSubscription) : Action LogError EventLog (Poll (Recorded × TailSubscription)) :=
  .ofFunction fun log =>
    if log.generation ≠ s.generation then (.ok .ended, log)
    else
      match (log.events s.stream)[s.position]? with
      | some event => (.ok (.ready (event, { s with position := s.position + 1 })), log)
      | none => (.ok .waiting, log)

/-- The group of a subscription, if it is the event it waits for that has this revision. -/
def current (log : EventLog) (s : Subscription) (revision : Revision) : Except LogError (Option ConsumerGroup) :=
  if log.generation ≠ s.generation then .error .subscriptionCancelled
  else
    match log.group? s.stream s.group with
    | none => .error (.groupNotFound s.stream s.group)
    | some group =>
      match (log.events s.stream)[group.position]? with
      | some event => .ok (if event.revision = revision then some group else none)
      | none => .ok none

/-- What is answered about any other event than the one the group waits for is ignored. -/
def answer (s : Subscription) (revision : Revision) (move : ConsumerGroup → ConsumerGroup) :
    Action LogError EventLog Unit :=
  .ofFunction fun log =>
    match log.current s revision with
    | .error e => (.error e, log)
    | .ok none => (.ok (), log)
    | .ok (some group) => (.ok (), log.setGroup s.stream s.group (move group))

def acknowledge (s : Subscription) (d : Delivery) : Action LogError EventLog Unit :=
  answer s d.revision ConsumerGroup.advance

def reject (s : Subscription) (d : Delivery) (rejection : Rejection) : Action LogError EventLog Unit :=
  answer s d.revision fun group =>
    match rejection with
    | .retry => { group with retryCount := group.retryCount + 1 }
    | .park => ConsumerGroup.advance { group with parked := group.parked ++ [d.revision] }

instance : LogService EventLog where
  wakes := wakes
  append := append
  readFrom := readFrom
  readFromEnd := readFromEnd
  createGroup := createGroup
  subscribe := subscribe
  subscribeTail := subscribeTail
  next := next
  nextAgain := next
  nextTail := nextTail
  acknowledge := acknowledge
  reject s d rejection _ := reject s d rejection

end EventLog
end PolicyLedger
