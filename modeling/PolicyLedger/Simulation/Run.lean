import PolicyLedger.Simulation.Cluster

/-!
Requests to a cluster, run on its clock. While one waits, others can be made at set times, and the
members and trackers in the background go on. They all take turns, and each turn lasts until those
whose turn it is have to wait: so a request that was woken finds the work of the background done.
-/
namespace PolicyLedger

/-- A request that may have to wait. `α` is what adjudicated requests give. -/
inductive Job (α : Type) where
  | adjudicate (member : Nat) (spec : AdjudicationSpec α) (state : Adjudication α)
  | check (member : Nat) (latest : Nat) (state : ConsistencyCheck)
  | awaitCurrent (member : Nat) (target : Revision) (waiter : Waiter Unit)
  | awaitLatest (latest : Nat) (waiter : Waiter Revision)
  | pause (deadline : Nat)

namespace Job
variable {α : Type}

/-- A pause that begins now. -/
def pauseFor (c : Cluster) (length : Duration) : Job α := .pause (c.now + length.pauseTicks)

/-- One step, or none while there is nothing to do but wait, or nothing at all. -/
def step (c : Cluster) : Job α → Option (Job α × Cluster)
  | adjudicate number spec state => do
    let (p, site) ← c.seated? number
    let (state, w) ← state.step spec c.now
      { log := c.log, replica := site.replica, current := site.current,
        published := p.published : Adjudicating ScriptedLog }
    let c := { c with log := w.log }.setSite p { site with replica := w.replica }
    return (adjudicate number spec state, c.setMember number { p with published := w.published })
  | check number latest state => do
    let (_, site) ← c.seated? number
    let state ← state.step c.now site.current (← c.latests[latest]?)
    return (check number latest state, c)
  | awaitCurrent number target waiter => do
    let (_, site) ← c.seated? number
    let waiter ← waiter.step (reached target) c.now site.current
    return (awaitCurrent number target waiter, c)
  | awaitLatest latest waiter => do
    let waiter ← waiter.step id c.now (← c.latests[latest]?)
    return (awaitLatest latest waiter, c)
  | pause _ => none

/-- Number of the member it was asked of. -/
def member? : Job α → Option Nat
  | adjudicate number .. | check number .. | awaitCurrent number .. => some number
  | awaitLatest .. | pause _ => none

def isDone (now : Nat) : Job α → Bool
  | adjudicate _ _ state => state.result?.isSome
  | check _ _ state => state.result?.isSome
  | awaitCurrent _ _ waiter => waiter.result?.isSome
  | awaitLatest _ waiter => waiter.result?.isSome
  | pause deadline => deadline ≤ now

def wakeTime? : Job α → Option Nat
  | adjudicate _ _ state => state.wakeTime?
  | check _ _ state => state.wakeTime?
  | awaitCurrent _ _ waiter => waiter.wakeTime?
  | awaitLatest _ waiter => waiter.wakeTime?
  | pause deadline => some deadline

end Job

/-- A request made: answered at once, or at work on a job whose end gives the answer. -/
inductive Asked (α β : Type) where
  | answered (answer : β)
  | working (job : Job α) (answer : Job α → β)

/-- Number of the member that is bound until the answer. -/
def Asked.member? {α β : Type} : Asked α β → Option Nat
  | .answered _ => none
  | .working job _ => job.member?

/-- A way to make a request. -/
abbrev Ask (α β : Type) : Type := Cluster → Asked α β × Cluster

/-- Whose turn it is. -/
inductive Turn where
  | request
  | script
  | background
  deriving DecidableEq

/-- A request under way, and others to be made at set times, one after the other. -/
structure Run (α β : Type) where
  cluster : Cluster
  turn : Turn := .request
  outer : Asked α β
  /-- When the request was answered. -/
  answeredAt : Option Nat := none
  script : List (Nat × Ask α β)
  inner : Option (Asked α β) := none
  /-- Answers to requests of the script, newest first. -/
  answers : List β := []

namespace Run
variable {α β : Type}

def begin (c : Cluster) (ask : Ask α β) (script : List (Nat × Ask α β)) : Run α β :=
  let (outer, cluster) := ask c
  { cluster, outer, script := script.map fun (after, ask) => (c.now + after, ask) }

def stepAsked (c : Cluster) : Asked α β → Option (Asked α β × Cluster)
  | .answered _ => none
  | .working job answer =>
    if job.isDone c.now then some (.answered (answer job), c)
    else (job.step c).map fun (job, c) => (.working job answer, c)

def stepOuter (r : Run α β) : Option (Run α β) :=
  match r.outer, r.answeredAt with
  | .answered _, none => some { r with answeredAt := some r.cluster.now }
  | outer, _ => (stepAsked r.cluster outer).map fun (outer, cluster) => { r with outer, cluster }

/-- The script goes on when its last request is answered and the time of the next has come. -/
def stepScript (r : Run α β) : Option (Run α β) :=
  match r.inner with
  | some (.answered answer) => some { r with inner := none, answers := answer :: r.answers }
  | some inner => (stepAsked r.cluster inner).map fun (inner, cluster) => { r with inner := some inner, cluster }
  | none =>
    match r.script with
    | [] => none
    | (time, ask) :: script =>
      if time ≤ r.cluster.now then
        let (inner, cluster) := ask r.cluster
        some { r with inner := some inner, cluster, script }
      else none

/-- Numbers of the members that requests under way were made to. -/
def bound (r : Run α β) : List Nat := [r.outer.member?, r.inner.bind Asked.member?].filterMap id

def stepBackground (r : Run α β) : Option (Run α β) :=
  (r.cluster.stepBackground r.bound).map fun cluster => { r with cluster }

def isOver (r : Run α β) : Bool := r.answeredAt.isSome && r.inner.isNone && r.script.isEmpty

def askedWakeTime? : Asked α β → Option Nat
  | .answered _ => none
  | .working job _ => job.wakeTime?

/-- The time when somebody goes on by itself. -/
def nextTime? (r : Run α β) : Option Nat :=
  let own := [askedWakeTime? r.outer, r.inner.bind askedWakeTime?,
    if r.inner.isNone then r.script.head?.map (·.1) else none].filterMap id
  (own ++ r.cluster.backgroundWakeTimes r.bound).min?

/-- A step of those whose turn it is. -/
def stepTurn (r : Run α β) : Option (Run α β) :=
  match r.turn with
  | .request => r.stepOuter
  | .script => r.stepScript
  | .background => r.stepBackground

/-- Gives the turn to those who come next. -/
def passTurn (r : Run α β) : Run α β :=
  { r with turn := match r.turn with
    | .request => .script
    | .script => .background
    | .background => .request }

/-- The clock goes on to the time when somebody has something to do. -/
def advance (r : Run α β) : Option (Run α β) :=
  r.nextTime?.map fun time => { r with cluster := r.cluster.advance (max r.cluster.now time), turn := .request }

/-- The turn passes on when those who have it must wait. The clock moves only when nobody has anything
to do, and not once everything is answered. -/
def step (r : Run α β) : Option (Run α β) :=
  r.stepTurn <|> r.passTurn.stepTurn <|> r.passTurn.passTurn.stepTurn <|>
    if r.isOver then none else r.advance

def finish : (fuel : Nat) → Run α β → Run α β
  | 0, r => r
  | fuel + 1, r =>
    match r.step with
    | none => r
    | some r => finish fuel r

end Run
end PolicyLedger
