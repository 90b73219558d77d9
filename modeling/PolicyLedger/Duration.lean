/-!
Spans of time of nanosecond precision. Arithmetic that leaves the range has no result.
-/
namespace PolicyLedger

/-- The longest span of time: all 64-bit seconds and the last nanosecond after them. -/
def Duration.limit : Nat := (UInt64.size - 1) * 1000000000 + 999999999

/-- A span of time in whole nanoseconds. -/
structure Duration where
  nanoseconds : Nat
  bounded : nanoseconds ≤ Duration.limit
  deriving DecidableEq

namespace Duration

def ofNanoseconds? (n : Nat) : Option Duration :=
  if bounded : n ≤ limit then some ⟨n, bounded⟩ else none

def zero : Duration := ⟨0, Nat.zero_le _⟩

instance : Inhabited Duration := ⟨zero⟩

/-- Whole seconds. -/
def secs (d : Duration) : UInt64 := (d.nanoseconds / 1000000000).toUInt64

/-- Nanoseconds after the last whole second. -/
def subsecNanos (d : Duration) : UInt32 := (d.nanoseconds % 1000000000).toUInt32

/-- Seconds and nanoseconds; whole seconds among the nanoseconds carry over. -/
def ofParts? (secs : UInt64) (nanos : UInt32) : Option Duration :=
  ofNanoseconds? (secs.toNat * 1000000000 + nanos.toNat)

def ofMillis (n : UInt64) : Duration :=
  ⟨n.toNat * 1000000, by have := n.toNat_lt; simp only [limit, UInt64.size]; omega⟩

def ofSecs (n : UInt64) : Duration :=
  ⟨n.toNat * 1000000000, by have := n.toNat_lt; simp only [limit, UInt64.size]; omega⟩

def isZero (d : Duration) : Bool := d.nanoseconds == 0

/-- Milliseconds a timer with one tick a millisecond waits: a begun tick counts. -/
def ticks (d : Duration) : Nat := (d.nanoseconds + 999999) / 1000000

/-- A pause lasts thirty years at most, in milliseconds. -/
def longestPause : Nat := 30 * 365 * 24 * 60 * 60 * 1000

/-- Milliseconds until a pause of this length is over. -/
def pauseTicks (d : Duration) : Nat := Min.min d.ticks longestPause

def checkedMul (d : Duration) (factor : UInt32) : Option Duration := ofNanoseconds? (d.nanoseconds * factor.toNat)

def checkedAdd (d e : Duration) : Option Duration := ofNanoseconds? (d.nanoseconds + e.nanoseconds)

instance : LE Duration := ⟨fun d e => d.nanoseconds ≤ e.nanoseconds⟩

instance (d e : Duration) : Decidable (d ≤ e) := inferInstanceAs (Decidable (d.nanoseconds ≤ e.nanoseconds))

def min (d e : Duration) : Duration := if d ≤ e then d else e

/-- Decimal digits of a fraction below one unit of `width` digits, without the zeros at its end. -/
def fractionDigits (width fraction : Nat) : List Char :=
  let digits := Nat.toDigits 10 fraction
  let padded := List.replicate (width - digits.length) '0' ++ digits
  (padded.reverse.dropWhile (· = '0')).reverse

/-- A decimal number of some unit. -/
def decimal (whole width fraction : Nat) : String :=
  let digits := fractionDigits width fraction
  toString whole ++ if digits.isEmpty then "" else "." ++ String.ofList digits

/-- Written in the largest of s, ms, µs and ns that is not zero. -/
def text (d : Duration) : String :=
  let n := d.nanoseconds
  if 1000000000 ≤ n then decimal (n / 1000000000) 9 (n % 1000000000) ++ "s"
  else if 1000000 ≤ n then decimal (n / 1000000) 6 (n % 1000000) ++ "ms"
  else if 1000 ≤ n then decimal (n / 1000) 3 (n % 1000) ++ "µs"
  else toString n ++ "ns"

end Duration
end PolicyLedger
