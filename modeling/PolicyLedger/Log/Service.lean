import PolicyLedger.Action
import PolicyLedger.Log.Record

/-!
What the users of an event log ask of it. Everything that follows a stream is stated for any log
that answers these requests.
-/
namespace PolicyLedger

/-- Membership in a consumer group, until subscriptions of this generation are cancelled. -/
structure Subscription where
  stream : String
  group : String
  generation : Nat
  deriving DecidableEq

/-- A reader of what is appended behind the first `position` events, until subscriptions of this
generation are cancelled. -/
structure TailSubscription where
  stream : String
  position : Nat
  generation : Nat
  deriving DecidableEq

/-- What a subscription gives when it is asked for the next event. -/
inductive Poll (α : Type) where
  | ready (a : α)
  /-- There is none yet. -/
  | waiting
  /-- The subscription was cancelled. -/
  | ended
  deriving DecidableEq

/-- A log of events in streams. Each request is answered at once, from the state the log is in. -/
class LogService (L : Type) where
  /-- How often those who wait for something new have been woken. -/
  wakes : L → Nat
  /-- Appends all records, but only to a stream at the `expected` revision, and gives the new one. -/
  append (stream : String) (expected : Revision) (records : List Record) : Action LogError L Revision
  /-- At most `count` events of a stream from revision `first` on. -/
  readFrom (stream : String) (first : Revision) (count : Nat) : Action LogError L (List Recorded)
  /-- The last events of a stream, at most `count`, newest first. -/
  readFromEnd (stream : String) (count : Nat) : Action LogError L (List Recorded)
  /-- Creates a group that starts at the beginning of a stream. -/
  createGroup (stream group : String) : Action LogError L Unit
  subscribe (stream group : String) : Action LogError L Subscription
  subscribeTail (stream : String) : Action LogError L TailSubscription
  /-- Asks for the next delivery. -/
  next (subscription : Subscription) : Action LogError L (Poll Delivery)
  /-- Asks again after having waited. -/
  nextAgain (subscription : Subscription) : Action LogError L (Poll Delivery)
  nextTail (subscription : TailSubscription) : Action LogError L (Poll (Recorded × TailSubscription))
  /-- Reports a delivery as done. -/
  acknowledge (subscription : Subscription) (delivery : Delivery) : Action LogError L Unit
  reject (subscription : Subscription) (delivery : Delivery) (rejection : Rejection) (reason : String) :
    Action LogError L Unit

end PolicyLedger
