import PolicyLedger.Duration

namespace PolicyLedger

/-- How waiting times grow from one attempt to the next. -/
structure BackoffConfig where
  initial : Duration
  multiplier : UInt32
  /-- At most this much is added by chance at each step. -/
  maxJitter : Duration
  ceiling : Duration
  deriving DecidableEq

namespace BackoffConfig

def default : BackoffConfig where
  initial := .ofMillis 100
  multiplier := 2
  maxJitter := .ofMillis 100
  ceiling := .ofSecs 10

instance : Inhabited BackoffConfig := ⟨default⟩

end BackoffConfig

/-- A waiting time that grows until it reaches the ceiling. -/
structure Backoff where
  config : BackoffConfig
  value : Duration
  deriving DecidableEq

namespace Backoff

def start (config : BackoffConfig) : Backoff := ⟨config, config.initial⟩

def reset (b : Backoff) : Backoff := { b with value := b.config.initial }

/-- The next waiting time, with what chance adds to it. A time too long to be held is the ceiling. -/
def increment (b : Backoff) (jitter : Duration) : Backoff :=
  let ceiling := b.config.ceiling
  if ceiling ≤ b.value then { b with value := ceiling }
  else
    let next := ((b.value.checkedMul b.config.multiplier).bind (·.checkedAdd jitter)).getD ceiling
    { b with value := next.min ceiling }

end Backoff
end PolicyLedger
