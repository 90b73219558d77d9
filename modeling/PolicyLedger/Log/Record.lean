/-!
What an event log holds and hands out, and why it refuses a request.
-/
namespace PolicyLedger

/-- Position of an event in a stream, counted from one. A stream without events is at zero. -/
abbrev Revision := Nat

/-- An event to be appended: the name of its schema and its bytes. -/
structure Record where
  schema : String
  data : List UInt8
  deriving DecidableEq

/-- An event as it stands in a stream. -/
structure Recorded where
  stream : String
  revision : Revision
  schema : String
  data : List UInt8
  deriving DecidableEq

/-- An event handed to a member of a group, and how often it was rejected to be tried again before. -/
structure Delivery where
  event : Recorded
  retryCount : UInt32
  deriving DecidableEq

def Delivery.revision (d : Delivery) : Revision := d.event.revision

/-- What becomes of an event that is rejected. -/
inductive Rejection where
  /-- It is delivered again. -/
  | retry
  /-- It is set aside, and the group goes on. -/
  | park
  deriving DecidableEq

/-- Why the log refuses a request. -/
inductive LogError where
  | conflict (stream : String) (expected actual : Revision)
  | streamNotFound (stream : String)
  | groupExists (stream group : String)
  | groupNotFound (stream group : String)
  | subscriptionCancelled
  | unavailable (reason : String)
  deriving DecidableEq

namespace LogError

/-- The word by which programs tell an error from others. -/
def label : LogError → String
  | conflict .. => "Conflict"
  | streamNotFound _ => "StreamNotFound"
  | groupExists .. => "ConsumerGroupExists"
  | groupNotFound .. => "ConsumerGroupNotFound"
  | subscriptionCancelled => "SubscriptionCancelled"
  | unavailable _ => "Unavailable"

def message : LogError → String
  | conflict stream expected actual =>
    "expected stream \"" ++ stream ++ "\" at revision " ++ toString expected ++ " but it is at " ++ toString actual
  | streamNotFound stream => "stream \"" ++ stream ++ "\" not found"
  | groupExists stream group =>
    "consumer group \"" ++ group ++ "\" already exists on stream \"" ++ stream ++ "\""
  | groupNotFound stream group =>
    "consumer group \"" ++ group ++ "\" does not exist on stream \"" ++ stream ++ "\""
  | subscriptionCancelled => "subscription cancelled"
  | unavailable reason => "event log unavailable: " ++ reason

def isConflict : LogError → Bool
  | conflict .. => true
  | _ => false

end LogError
end PolicyLedger
