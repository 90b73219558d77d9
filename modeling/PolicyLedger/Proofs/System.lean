import Mathlib.Data.List.Induction
import Mathlib.Logic.Function.Basic
import PolicyLedger.Proofs.EventLog
import PolicyLedger.Replication.Adjudication
import PolicyLedger.Replication.Subscriber

/-!
Many processes at one log. Each move is one step of one of them: of a request under way, or of a
subscriber; in between, anybody may append to the log, end all subscriptions, make a new request or
start a new subscriber. A schedule is any list of moves, so what holds after every schedule holds
however the processes are interleaved.
-/
namespace PolicyLedger

/-- A request under way: the replica it is tried on, the adjudicator it was made to, and how far it is. -/
structure Call where
  Value : Type
  replica : Nat
  adjudicator : Nat
  spec : AdjudicationSpec Value
  state : Adjudication Value := {}

/-- A subscriber at work on a replica, with the lockdown it looks at. -/
structure Follower where
  replica : Nat
  lockdown : Nat
  spec : SubscriberSpec
  task : SubscriberTask

/-- A log, and all that works at it. Replicas, lockdowns and the revisions that adjudicators published
are told apart by numbers; requests and subscribers may share them in any way. -/
structure System where
  log : EventLog := {}
  replicas : Nat → Replica := fun _ => {}
  currents : Nat → Watched Revision := fun _ => ⟨0, 0⟩
  published : Nat → Revision := fun _ => 0
  lockdowns : Nat → Bool := fun _ => false
  calls : List Call := []
  followers : List Follower := []

/-- What may happen next. -/
inductive Move : Type 1
  /-- A request is made. -/
  | call (Value : Type) (replica adjudicator : Nat) (spec : AdjudicationSpec Value)
  /-- A request goes on by a step, at some time. -/
  | proceed (call : Nat) (now : Nat)
  /-- A subscriber is started. -/
  | follow (replica lockdown : Nat) (spec : SubscriberSpec)
  /-- A subscriber goes on by a step. -/
  | consume (follower : Nat) (now : Nat) (jitter : Duration)
  /-- Somebody else appends to the log. -/
  | append (stream : String) (expected : Revision) (records : List Record)
  /-- All subscriptions end. -/
  | cancel

namespace System

/-- What a request works on. -/
def adjudicating (s : System) (c : Call) : Adjudicating EventLog :=
  { log := s.log, replica := s.replicas c.replica, current := s.currents c.replica
    published := s.published c.adjudicator }

/-- What a subscriber works on. -/
def following (s : System) (f : Follower) : Following EventLog :=
  { log := s.log, replica := s.replicas f.replica, current := s.currents f.replica
    lockdown := s.lockdowns f.lockdown }

/-- The system after a request has worked. -/
def adjudicated (s : System) (i : Nat) (c : Call) (w : Adjudicating EventLog) : System :=
  { s with
    log := w.log
    replicas := Function.update s.replicas c.replica w.replica
    currents := Function.update s.currents c.replica w.current
    published := Function.update s.published c.adjudicator w.published
    calls := s.calls.set i c }

/-- The system after a subscriber has worked. -/
def followed (s : System) (i : Nat) (f : Follower) (w : Following EventLog) : System :=
  { s with
    log := w.log
    replicas := Function.update s.replicas f.replica w.replica
    currents := Function.update s.currents f.replica w.current
    lockdowns := Function.update s.lockdowns f.lockdown w.lockdown
    followers := s.followers.set i f }

/-- The step of a request, if there is such a request and it has something to do. -/
def proceed? (s : System) (i now : Nat) : Option System :=
  s.calls[i]?.bind fun c =>
    (c.state.step c.spec now (s.adjudicating c)).map fun (state, w) => s.adjudicated i { c with state } w

def consume? (s : System) (i now : Nat) (jitter : Duration) : Option System :=
  s.followers[i]?.bind fun f =>
    (f.task.step f.spec jitter now (s.following f)).map fun (task, w) => s.followed i { f with task } w

/-- One move. A move that is not possible changes nothing. -/
def step (s : System) : Move → System
  | .call Value replica adjudicator spec => { s with calls := s.calls ++ [{ Value, replica, adjudicator, spec }] }
  | .proceed i now => (s.proceed? i now).getD s
  | .follow replica lockdown spec =>
    { s with followers := s.followers ++ [{ replica, lockdown, spec, task := .start spec }] }
  | .consume i now jitter => (s.consume? i now jitter).getD s
  | .append stream expected records =>
    { s with log := ((EventLog.append stream expected records).outcome s.log).2 }
  | .cancel => { s with log := s.log.cancelSubscriptions }

/-- All moves of a schedule, one after the other. -/
def run (s : System) (moves : List Move) : System := moves.foldl step s

@[simp] theorem run_nil (s : System) : s.run [] = s := rfl

theorem run_append (s : System) (before after : List Move) : s.run (before ++ after) = (s.run before).run after :=
  List.foldl_append

theorem run_snoc (s : System) (moves : List Move) (m : Move) : s.run (moves ++ [m]) = (s.run moves).step m := by
  rw [run_append]
  rfl

theorem proceed?_eq_some {s t : System} {i now : Nat} :
    s.proceed? i now = some t ↔
      ∃ c state w, s.calls[i]? = some c ∧ c.state.step c.spec now (s.adjudicating c) = some (state, w) ∧
        t = s.adjudicated i { c with state } w := by
  simp only [proceed?, Option.bind_eq_some_iff, Option.map_eq_some_iff, Prod.exists, eq_comm (a := t)]
  constructor
  · rintro ⟨c, there, state, w, stepped, made⟩
    exact ⟨c, state, w, there, stepped, made⟩
  · rintro ⟨c, state, w, there, stepped, made⟩
    exact ⟨c, there, state, w, stepped, made⟩

theorem consume?_eq_some {s t : System} {i now : Nat} {jitter : Duration} :
    s.consume? i now jitter = some t ↔
      ∃ f task w, s.followers[i]? = some f ∧ f.task.step f.spec jitter now (s.following f) = some (task, w) ∧
        t = s.followed i { f with task } w := by
  simp only [consume?, Option.bind_eq_some_iff, Option.map_eq_some_iff, Prod.exists, eq_comm (a := t)]
  constructor
  · rintro ⟨f, there, task, w, stepped, made⟩
    exact ⟨f, task, w, there, stepped, made⟩
  · rintro ⟨f, task, w, there, stepped, made⟩
    exact ⟨f, there, task, w, stepped, made⟩

/-- Subscribers leave requests alone. -/
theorem calls_consume (s : System) (i now : Nat) (jitter : Duration) :
    (s.step (.consume i now jitter)).calls = s.calls := by
  simp only [step]
  cases consumes : s.consume? i now jitter with
  | none => rfl
  | some t =>
    obtain ⟨_, _, _, _, _, rfl⟩ := consume?_eq_some.mp consumes
    rfl

/-! ### A request and subscribers of processes that keep all settings -/

/-- A request for a policy class. -/
def createStaff : AdjudicationSpec Outcome where
  config := {}
  stream := "policy"
  plugins := ∅
  request _ := (Command.createPolicyClass "staff").execute ⟨⟨0⟩, none⟩

def staffCreated : Adjudicated Outcome := ⟨.nodeCreated ⟨1⟩, [.policyClassCreated ⟨1⟩ "staff"], 1⟩

/-- The request is made, and waits in vain to see its event applied. -/
def creating : List Move :=
  .call Outcome 0 0 createStaff :: (List.replicate 9 (.proceed 0 0) ++ List.replicate 2 (.proceed 0 10000))

def usual : SubscriberSpec :=
  let config : Config := {}
  { stream := config.stream, group := config.group, maxRedeliveries := config.subscriber.maxRedeliveries
    backoff := config.subscriber.backoff }

end System
end PolicyLedger
