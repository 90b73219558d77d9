import PolicyLedger.Proofs.Steps
import PolicyLedger.Proofs.System

/-!
Logs only grow and replicas only move on, whatever happens.
-/
namespace PolicyLedger.System

theorem events_of_streams {log log' : EventLog} (same : log'.streams = log.streams) (stream : String) :
    log'.events stream = log.events stream := by
  unfold EventLog.events
  rw [same]

theorem append_others {stream other : String} (differ : stream ≠ other) (expected : Revision) (records : List Record)
    (log : EventLog) : ((EventLog.append other expected records).outcome log).2.events stream = log.events stream := by
  rcases done : (EventLog.append other expected records).outcome log with ⟨e | revision, log'⟩
  · rw [(EventLog.append_error done).1]
  · exact (EventLog.append_ok done).2.2.2.1 stream differ

theorem append_grows (stream' : String) (expected : Revision) (records : List Record) (log : EventLog)
    (stream : String) :
    log.events stream <+: ((EventLog.append stream' expected records).outcome log).2.events stream := by
  rcases done : (EventLog.append stream' expected records).outcome log with ⟨e | revision, log'⟩
  · rewrite [(EventLog.append_error done).1]
    exact List.prefix_refl _
  · obtain ⟨_, _, grown, others, _⟩ := EventLog.append_ok done
    by_cases same : stream = stream'
    · rw [same, grown]
      exact List.prefix_append _ _
    · rewrite [others stream same]
      exact List.prefix_refl _

/-- What a step of a request does to the log is an append to its stream. -/
theorem proceed_grows {s t : System} {i now : Nat} (proceeds : s.proceed? i now = some t) (stream : String) :
    s.log.events stream <+: t.log.events stream := by
  obtain ⟨c, state, w, _, stepped, rfl⟩ := proceed?_eq_some.mp proceeds
  cases Adjudication.step_cases stepped with
  | idle _ _ _ log =>
    show _ <+: w.log.events stream
    rw [log]
    exact List.prefix_refl _
  | attempt => exact List.prefix_refl _
  | append _ done =>
    exact (congrArg (fun result => result.2.events stream) done) ▸ append_grows _ _ _ s.log stream
  | conflict => exact List.prefix_refl _

theorem proceed_others {s : System} {i now : Nat} {c : Call} {stream : String} (there : s.calls[i]? = some c)
    (differ : stream ≠ c.spec.stream) : (s.step (.proceed i now)).log.events stream = s.log.events stream := by
  simp only [step]
  cases proceeds : s.proceed? i now with
  | none => rfl
  | some t =>
    obtain ⟨c', state, w, again, stepped, rfl⟩ := proceed?_eq_some.mp proceeds
    cases there.symm.trans again
    cases Adjudication.step_cases stepped with
    | idle _ _ _ log => exact congrArg (fun log => EventLog.events log stream) log
    | attempt => rfl
    | append _ done =>
      exact (congrArg (fun result => result.2.events stream) done) ▸ append_others differ _ _ s.log
    | conflict => rfl

/-- Whatever happens next, no stream loses an event or gets one but at its end. -/
theorem step_grows (s : System) (m : Move) (stream : String) :
    s.log.events stream <+: (s.step m).log.events stream := by
  cases m with
  | call => exact List.prefix_refl _
  | follow => exact List.prefix_refl _
  | cancel => exact List.prefix_refl _
  | append stream' expected records => exact append_grows _ _ _ s.log stream
  | proceed i now =>
    simp only [step]
    cases proceeds : s.proceed? i now with
    | none => exact List.prefix_refl _
    | some t => exact proceed_grows proceeds stream
  | consume i now jitter =>
    simp only [step]
    cases consumes : s.consume? i now jitter with
    | none => exact List.prefix_refl _
    | some t =>
      obtain ⟨f, task, w, _, stepped, rfl⟩ := consume?_eq_some.mp consumes
      show _ <+: w.log.events stream
      rw [events_of_streams (SubscriberTask.step_cases stepped).onward.streams stream]
      exact List.prefix_refl _

theorem run_grows (s : System) (moves : List Move) (stream : String) :
    s.log.events stream <+: (s.run moves).log.events stream := by
  induction moves generalizing s with
  | nil => exact List.prefix_refl _
  | cons m rest ih => exact (step_grows s m stream).trans (ih (s.step m))

theorem update_revision {replicas : Nat → Replica} {k : Nat} {r : Replica} (onward : (replicas k).revision ≤ r.revision)
    (j : Nat) : (replicas j).revision ≤ (Function.update replicas k r j).revision := by
  by_cases same : j = k
  · rw [same, Function.update_self]
    exact onward
  · rewrite [Function.update_of_ne same]
    exact Nat.le_refl _

/-- Replicas never go back. -/
theorem step_revision (s : System) (m : Move) (j : Nat) :
    (s.replicas j).revision ≤ ((s.step m).replicas j).revision := by
  cases m with
  | proceed i now =>
    simp only [step]
    cases proceeds : s.proceed? i now with
    | none => exact Nat.le_refl _
    | some t =>
      obtain ⟨c, state, w, _, stepped, rfl⟩ := proceed?_eq_some.mp proceeds
      have kept : (s.replicas c.replica).revision = w.replica.revision := by
        cases Adjudication.step_cases stepped with
        | idle _ _ _ _ replica => rw [replica]; rfl
        | attempt => rfl
        | append => rfl
        | conflict => rfl
      exact update_revision (Nat.le_of_eq kept) j
  | consume i now jitter =>
    simp only [step]
    cases consumes : s.consume? i now jitter with
    | none => exact Nat.le_refl _
    | some t =>
      obtain ⟨f, task, w, _, stepped, rfl⟩ := consume?_eq_some.mp consumes
      exact update_revision (SubscriberTask.step_cases stepped).onward.revision j
  | _ => exact Nat.le_refl _

end PolicyLedger.System
