import PolicyLedger.Backoff
import PolicyLedger.Sorted.Set

/-!
Settings of a process that takes policy changes and follows the log.
-/
namespace PolicyLedger

/-- Address of the log. -/
structure LogConfig where
  host : String := "localhost"
  port : UInt16 := 2113
  deriving DecidableEq, Inhabited

/-- How changes are tried and waited for. -/
structure AdjudicatorConfig where
  maxAttempts : UInt32 := 3
  retryInterval : Duration := .ofSecs 2
  applyTimeout : Duration := .ofSecs 5
  deriving DecidableEq, Inhabited

/-- Sets the number of attempts, of which there is always one. -/
def AdjudicatorConfig.withMaxAttempts (config : AdjudicatorConfig) (attempts : UInt32) : AdjudicatorConfig :=
  { config with maxAttempts := max attempts 1 }

/-- How events that fail are tried again, and lost subscriptions renewed. -/
structure SubscriberConfig where
  maxRedeliveries : UInt32 := 3
  backoff : BackoffConfig := .default
  deriving DecidableEq, Inhabited

/-- How long requests wait for their replica, and which do not. -/
structure ConsistencyConfig where
  timeout : Duration := .ofSecs 5
  excluded : SortedSet String := ∅
  deriving DecidableEq, Inhabited

namespace ConsistencyConfig

def exclude (config : ConsistencyConfig) (method : String) : ConsistencyConfig :=
  { config with excluded := config.excluded.insert method }

def isExcluded (config : ConsistencyConfig) (method : String) : Bool := config.excluded.contains method

end ConsistencyConfig

structure Config where
  log : LogConfig := {}
  stream : String := "policy"
  group : String := "policy-replica"
  adjudicator : AdjudicatorConfig := {}
  subscriber : SubscriberConfig := {}
  consistency : ConsistencyConfig := {}
  deriving DecidableEq, Inhabited

end PolicyLedger
