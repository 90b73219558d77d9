import PolicyLedger.Command.Basic
import PolicyLedger.Duration
import PolicyLedger.Log.Record

/-!
What callers are told when a request fails.
-/
namespace PolicyLedger

/-- What went wrong, as far as it matters for what to do next. -/
inductive ErrorKind where
  | domain
  | conflict
  | replayFailure
  | timeout
  | malformed
  | internal
  deriving DecidableEq

namespace ErrorKind

def all : List ErrorKind := [domain, conflict, replayFailure, timeout, malformed, internal]

def label : ErrorKind → String
  | domain => "Domain"
  | conflict => "Conflict"
  | replayFailure => "ReplayFailure"
  | timeout => "Timeout"
  | malformed => "Malformed"
  | internal => "Internal"

/-- Whether the same request may succeed later. -/
def isRetryable : ErrorKind → Bool
  | conflict | timeout => true
  | _ => false

end ErrorKind

inductive StatusCode where
  | permissionDenied
  | internal
  | unavailable
  deriving DecidableEq

namespace StatusCode

def all : List StatusCode := [permissionDenied, internal, unavailable]

def ofKind (kind : ErrorKind) : StatusCode := if kind.isRetryable then unavailable else internal

def text : StatusCode → String
  | permissionDenied => "PermissionDenied"
  | internal => "Internal"
  | unavailable => "Unavailable"

end StatusCode

structure Status where
  code : StatusCode
  message : String
  deriving DecidableEq

namespace Status

def text (s : Status) : String := s.code.text ++ ": " ++ s.message

def ofPolicyError (e : PolicyError) : Status :=
  match e with
  | .unauthorized _ => ⟨.permissionDenied, e.message⟩
  | _ => ⟨.internal, e.message⟩

end Status

def CommandError.kind : CommandError → ErrorKind
  | policy _ => .domain
  | notSingleDeclaration _ => .malformed

/-- Why a request to change the policy was not carried out. -/
inductive AdjudicationError where
  | command (error : CommandError)
  /-- Every attempt met events that others had appended first; `last` is what the last one met. -/
  | attemptsExhausted (attempts : Nat) (last : LogError)
  | log (error : LogError)
  deriving DecidableEq

namespace AdjudicationError

def message : AdjudicationError → String
  | command error => error.message
  | attemptsExhausted attempts _ =>
    "appending events kept conflicting, gave up after " ++ toString attempts ++ " attempts"
  | log error => error.message

def kind : AdjudicationError → ErrorKind
  | command error => error.kind
  | attemptsExhausted .. => .conflict
  | log _ => .internal

def status : AdjudicationError → Status
  | command (.policy error) => .ofPolicyError error
  | error => ⟨.ofKind error.kind, error.message⟩

end AdjudicationError

/-- Why a request is not served by a replica. -/
inductive ConsistencyError where
  /-- Nothing is known of the log after waiting so long. -/
  | latestUnknown (waited : Duration)
  | stale (current latest : Revision)
  deriving DecidableEq

namespace ConsistencyError

def message : ConsistencyError → String
  | latestUnknown waited => "latest revision unknown after waiting " ++ waited.text
  | stale current latest =>
    "replica at revision " ++ toString current ++ " did not catch up with revision " ++ toString latest ++ " in time"

def kind (_ : ConsistencyError) : ErrorKind := .timeout

def status (e : ConsistencyError) : Status := ⟨.ofKind e.kind, e.message⟩

end ConsistencyError
end PolicyLedger
