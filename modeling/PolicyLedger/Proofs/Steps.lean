import PolicyLedger.Proofs.EventLog
import PolicyLedger.Proofs.Replay
import PolicyLedger.Replication.Adjudication
import PolicyLedger.Replication.Subscriber

/-!
All that one step of a request or of a subscriber can do.
-/
namespace PolicyLedger
open PolicyLedger.Action

/-! ### Requests -/

/-- How far a request is, without what it waits for. -/
inductive Stage (α : Type) where
  /-- Nothing is under way that could be appended. -/
  | trying
  /-- An attempt was made at a revision, and its events are about to be appended. -/
  | holding (value : α) (events : List Event) (expected : Revision)
  /-- What will be answered is settled. -/
  | settled (result : Except AdjudicationError (Adjudicated α))

namespace Adjudication

variable {α : Type} {spec : AdjudicationSpec α} {now : Nat} {a b : Adjudication α} {w w' : Adjudicating EventLog}

def stage (a : Adjudication α) : Stage α :=
  match a.phase with
  | .starting | .awaitingPublished .. | .attempting | .pausing _ => .trying
  | .appending value events expected => .holding value events expected
  | .noting done | .awaitingApplied done _ => .settled (.ok done)
  | .finished result => .settled result

/-- Where an attempt at a revision leaves a request. -/
def attempted (expected : Revision) : Except CommandError (α × List Event) → Stage α
  | .error e => .settled (.error (.command e))
  | .ok (value, []) => .settled (.ok ⟨value, [], expected⟩)
  | .ok (value, e :: rest) => .holding value (e :: rest) expected

/-- What a step of a request does: it gets no further than waiting, or makes an attempt, or appends, or
fails to append. -/
inductive Stepped (spec : AdjudicationSpec α) (a : Adjudication α) (w : Adjudicating EventLog) :
    Adjudication α → Adjudicating EventLog → Prop
  | idle {b : Adjudication α} {w' : Adjudicating EventLog} (phase : a.phase ≠ .attempting)
      (stage : b.stage = a.stage) (attempts : b.attempts = a.attempts) (log : w'.log = w.log)
      (replica : w'.replica = w.replica) (current : w'.current = w.current) : Stepped spec a w b w'
  | attempt {b : Adjudication α} (phase : a.phase = .attempting) (attempts : b.attempts = a.attempts + 1)
      (stage : b.stage = attempted w.replica.revision (attempt spec a.attempts w).1) :
      Stepped spec a w b (attempt spec a.attempts w).2
  | append {b : Adjudication α} {value : α} {events : List Event} {expected revision : Revision} {log : EventLog}
      (phase : a.stage = .holding value events expected)
      (done : (EventLog.append spec.stream expected (events.map record)).outcome w.log = (.ok revision, log))
      (attempts : b.attempts = a.attempts) (stage : b.stage = .settled (.ok ⟨value, events, revision⟩)) :
      Stepped spec a w b { w with log }
  | conflict {b : Adjudication α} {value : α} {events : List Event} {expected : Revision}
      (phase : a.stage = .holding value events expected) (elsewhere : w.log.tail spec.stream ≠ expected)
      (attempts : b.attempts = a.attempts) (stage : b.stage = .trying ∨ ∃ e, b.stage = .settled (.error e)) :
      Stepped spec a w b w

theorem step_cases (stepped : a.step spec now w = some (b, w')) : Stepped spec a w b w' := by
  obtain ⟨attempts, phase⟩ := a
  cases phase with
  | starting =>
    cases stepped
    exact .idle nofun rfl rfl rfl rfl rfl
  | awaitingPublished target waiter =>
    simp only [step] at stepped
    split at stepped
    · cases stepped
      exact .idle nofun rfl rfl rfl rfl rfl
    · obtain ⟨_, _, made⟩ := Option.map_eq_some_iff.mp stepped
      cases made
      exact .idle nofun rfl rfl rfl rfl rfl
  | attempting =>
    simp only [step, Option.some.injEq, Prod.mk.injEq] at stepped
    obtain ⟨rfl, rfl⟩ := stepped
    refine .attempt rfl rfl ?_
    rcases (attempt spec attempts w).1 with e | ⟨value, _ | ⟨e, rest⟩⟩ <;> rfl
  | appending value events expected =>
    simp only [step, publish] at stepped
    rcases done : (EventLog.append spec.stream expected (events.map record)).outcome w.log with ⟨e | revision, log⟩
    · obtain ⟨rfl, elsewhere⟩ := EventLog.append_error done
      rw [EventLog.service_append, done] at stepped
      dsimp only at stepped
      split at stepped
      · cases stepped
        exact .conflict rfl elsewhere rfl (.inr ⟨_, rfl⟩)
      split at stepped
      · cases stepped
        exact .conflict rfl elsewhere rfl (.inr ⟨_, rfl⟩)
      · cases stepped
        exact .conflict rfl elsewhere rfl (.inl rfl)
    · rw [EventLog.service_append, done] at stepped
      cases stepped
      exact .append rfl done rfl rfl
  | noting done =>
    cases stepped
    exact .idle nofun rfl rfl rfl rfl rfl
  | pausing deadline =>
    simp only [step] at stepped
    split at stepped
    · cases stepped
      exact .idle nofun rfl rfl rfl rfl rfl
    · cases stepped
  | awaitingApplied done waiter =>
    simp only [step] at stepped
    split at stepped
    · cases stepped
      exact .idle nofun rfl rfl rfl rfl rfl
    · obtain ⟨_, _, made⟩ := Option.map_eq_some_iff.mp stepped
      cases made
      exact .idle nofun rfl rfl rfl rfl rfl
  | finished result => cases stepped

end Adjudication

/-! ### Subscribers -/

namespace Consuming

variable {spec : SubscriberSpec} {s : Subscription} {c c' : Consuming} {w w' : Following EventLog}

/-- A delivery is skipped by a replica that is as far, and else applied. -/
theorem applyDelivery_outcome (d : Delivery) (r : Replica) :
    (applyDelivery d).outcome r =
      if d.revision ≤ r.revision then (.ok (), r) else (Replica.applyRecorded d.event).outcome r := by
  rw [applyDelivery, outcome_bind, outcome_get]
  dsimp only
  by_cases seen : d.revision ≤ r.revision
  · rw [if_pos seen, if_pos seen]
    rfl
  · rw [if_neg seen, if_neg seen]

/-- An applied delivery takes the replica to its revision, or none further if it was skipped; one that
fails leaves it where it was. -/
theorem applyDelivery_revision (d : Delivery) (r : Replica) :
    r.revision ≤ ((applyDelivery d).outcome r).2.revision ∧
      (((applyDelivery d).outcome r).1 = .ok () → d.revision ≤ ((applyDelivery d).outcome r).2.revision) := by
  rw [applyDelivery_outcome]
  by_cases seen : d.revision ≤ r.revision
  · rw [if_pos seen]
    exact ⟨Nat.le_refl _, fun _ => seen⟩
  · rw [if_neg seen, Replica.applyRecorded_outcome]
    have unseen : r.revision ≤ d.event.revision := Nat.le_of_not_le seen
    split
    · exact ⟨unseen, fun _ => Nat.le_refl _⟩
    · exact ⟨Nat.le_refl _, fun done => by cases done⟩

private theorem applyDelivery_error {d : Delivery} {r r' : Replica} {e : ReplayError}
    (failed : (applyDelivery d).outcome r = (.error e, r')) : r' = r := by
  rw [applyDelivery_outcome] at failed
  split at failed
  · cases failed
  · rw [Replica.applyRecorded_outcome] at failed
    split at failed <;> cases failed
    rfl

/-- What a step with deliveries does. -/
inductive Stepped (spec : SubscriberSpec) (s : Subscription) (w : Following EventLog) :
    Consuming → Consuming → Following EventLog → Prop
  | look : Stepped spec s w ready (if w.lockdown then finished (.ok ()) else asking) w
  | ask {c : Consuming} (asks : c = asking ∨ ∃ wakes, c = waiting wakes) :
    Stepped spec s w c (afterPoll w.log.wakes ((EventLog.next s).outcome w.log).1) w
  | lookAgain (d : Delivery) :
    Stepped spec s w (received d) (if w.lockdown then finished (.ok ()) else applying d) w
  | apply (d : Delivery) {replica : Replica} (done : (applyDelivery d).outcome w.replica = (.ok (), replica)) :
    Stepped spec s w (applying d) (acknowledging d) { w with replica }
  | fail (d : Delivery) {e : ReplayError} (failed : ((applyDelivery d).outcome w.replica).1 = .error e) :
    Stepped spec s w (applying d)
      (if d.retryCount < spec.maxRedeliveries then rejecting d e .retry else lockingDown d e) w
  | acknowledge (d : Delivery) {c : Consuming} {log : EventLog}
      (after : c = announcing d.revision ∨ ∃ r, c = finished r)
      (answered : ((EventLog.acknowledge s d).outcome w.log).2 = log) :
    Stepped spec s w (acknowledging d) c { w with log }
  | announce (revision : Revision) :
    Stepped spec s w (announcing revision) ready { w with current := w.current.set revision }
  | lockDown (d : Delivery) (e : ReplayError) :
    Stepped spec s w (lockingDown d e) (rejecting d e .park) { w with lockdown := true }
  | reject (d : Delivery) (e : ReplayError) (rejection : Rejection) {c : Consuming} {log : EventLog}
      (after : c = ready ∨ ∃ r, c = finished r) (answered : ((EventLog.reject s d rejection).outcome w.log).2 = log) :
    Stepped spec s w (rejecting d e rejection) c { w with log }

private theorem asked (spec : SubscriberSpec) (s : Subscription) (w : Following EventLog) {c : Consuming}
    (asks : c = asking ∨ ∃ wakes, c = waiting wakes) {answer : Except LogError (Poll Delivery) × Following EventLog}
    (answered : w.onLog (LogService.next s) = answer) :
    Stepped spec s w c (afterPoll (LogService.wakes answer.2.log) answer.1) answer.2 := by
  have same : answer = (((EventLog.next s).outcome w.log).1, w) := by
    rw [← answered]
    exact Prod.ext rfl (congrArg (fun log => { w with log }) (EventLog.next_log s w.log))
  rw [same]
  exact .ask asks

theorem step_cases (stepped : c.step spec s w = some (c', w')) : Stepped spec s w c c' w' := by
  cases c with
  | ready => cases stepped; exact .look
  | asking => cases stepped; exact asked spec s w (.inl rfl) rfl
  | waiting wakes =>
    simp only [step] at stepped
    split at stepped
    · cases stepped
    · cases stepped; exact asked spec s w (.inr ⟨wakes, rfl⟩) rfl
  | received d => cases stepped; exact .lookAgain d
  | applying d =>
    simp only [step, Following.onReplica] at stepped
    rcases applied : (applyDelivery d).outcome w.replica with ⟨e | _, replica⟩
    · rw [applied] at stepped
      have same := applyDelivery_error applied
      cases stepped
      rw [same]
      exact .fail d (by rw [applied])
    · rw [applied] at stepped
      cases stepped
      exact .apply d applied
  | acknowledging d =>
    simp only [step, Following.onLog] at stepped
    rcases answered : (EventLog.acknowledge s d).outcome w.log with ⟨e | _, log⟩
    · rw [EventLog.service_acknowledge, answered] at stepped
      cases stepped
      exact .acknowledge d (.inr ⟨_, rfl⟩) (by rw [answered])
    · rw [EventLog.service_acknowledge, answered] at stepped
      cases stepped
      exact .acknowledge d (.inl rfl) (by rw [answered])
  | announcing revision => cases stepped; exact .announce revision
  | lockingDown d e => cases stepped; exact .lockDown d e
  | rejecting d e rejection =>
    simp only [step, Following.onLog] at stepped
    rcases answered : (EventLog.reject s d rejection).outcome w.log with ⟨x | _, log⟩
    · rw [EventLog.service_reject, answered] at stepped
      cases stepped
      exact .reject d e rejection (.inr ⟨_, rfl⟩) (by rw [answered])
    · rw [EventLog.service_reject, answered] at stepped
      cases stepped
      exact .reject d e rejection (.inl rfl) (by rw [answered])
  | finished result => cases stepped

/-- What a step leaves alone: the streams and an engaged lockdown; and replicas only move on. -/
structure Onward (w w' : Following EventLog) : Prop where
  streams : w'.log.streams = w.log.streams
  revision : w.replica.revision ≤ w'.replica.revision
  lockdown : w.lockdown = true → w'.lockdown = true

private theorem Onward.refl (w : Following EventLog) : Onward w w := ⟨rfl, Nat.le_refl _, id⟩

theorem Stepped.onward (stepped : Stepped spec s w c c' w') : Onward w w' := by
  cases stepped with
  | look | ask | lookAgain | fail => exact .refl w
  | apply d done =>
    have moved := (applyDelivery_revision d w.replica).1
    rw [done] at moved
    exact ⟨rfl, moved, id⟩
  | acknowledge d after answered =>
    refine ⟨?_, Nat.le_refl _, id⟩
    rw [← answered]
    exact EventLog.answer_streams s d.revision _ w.log
  | announce revision => exact ⟨rfl, Nat.le_refl _, id⟩
  | lockDown d e => exact ⟨rfl, Nat.le_refl _, fun _ => rfl⟩
  | reject d e rejection after answered =>
    refine ⟨?_, Nat.le_refl _, id⟩
    rw [← answered]
    exact EventLog.answer_streams s d.revision _ w.log

end Consuming

namespace SubscriberTask
open Consuming

variable {spec : SubscriberSpec} {jitter : Duration} {now : Nat} {t t' : SubscriberTask} {w w' : Following EventLog}

/-- What a step of a subscriber does: outside of a subscription it touches the log only to make sure of its
group. -/
inductive Stepped (spec : SubscriberSpec) (w : Following EventLog) :
    Subscribing → Subscribing → Following EventLog → Prop
  | idle {before after : Subscribing} (free : ∀ s c, after ≠ .consuming s c) : Stepped spec w before after w
  | create {after : Subscribing} {log : EventLog} (free : ∀ s c, after ≠ .consuming s c)
      (ensured : ((spec.ensureGroup (L := EventLog)).outcome w.log).2 = log) :
    Stepped spec w .creating after { w with log }
  | join {s : Subscription} (joined : (EventLog.subscribe spec.stream spec.group).outcome w.log = (.ok s, w.log)) :
    Stepped spec w .joining (.consuming s .ready) w
  | consume {s : Subscription} {c c' : Consuming} {w' : Following EventLog}
      (inner : Consuming.Stepped spec s w c c' w') : Stepped spec w (.consuming s c) (.consuming s c') w'

theorem step_cases (stepped : t.step spec jitter now w = some (t', w')) : Stepped spec w t.phase t'.phase w' := by
  obtain ⟨phase, backoff⟩ := t
  cases phase with
  | starting =>
    cases stepped
    refine .idle ?_
    intro s c
    cases w.lockdown <;> exact nofun
  | creating =>
    simp only [step, Following.onLog] at stepped
    rcases ensured : (spec.ensureGroup (L := EventLog)).outcome w.log with ⟨e | _, log⟩
    · rw [ensured] at stepped
      cases stepped
      exact .create (fun _ _ => nofun) (by rw [ensured])
    · rw [ensured] at stepped
      cases stepped
      exact .create (fun _ _ => nofun) (by rw [ensured])
  | joining =>
    have same : ((EventLog.subscribe spec.stream spec.group).outcome w.log).2 = w.log := EventLog.subscribe_log _ _ _
    simp only [step, Following.onLog] at stepped
    rw [EventLog.service_subscribe] at stepped
    rcases joined : (EventLog.subscribe spec.stream spec.group).outcome w.log with ⟨e | s, log⟩
    · rw [joined] at stepped same
      cases stepped
      cases same
      exact .idle fun _ _ => nofun
    · rw [joined] at stepped same
      cases stepped
      cases same
      exact .join joined
  | consuming s c =>
    cases c with
    | finished result => cases stepped; exact .idle fun _ _ => nofun
    | _ =>
      simp only [step] at stepped
      split at stepped
      · rename_i inner
        cases stepped
        exact .consume (Consuming.step_cases inner)
      · cases stepped
  | lost =>
    simp only [step] at stepped
    split at stepped
    · cases stepped; exact .idle fun _ _ => nofun
    · split at stepped <;> cases stepped <;> exact .idle fun _ _ => nofun
  | pausing deadline =>
    simp only [step] at stepped
    split at stepped
    · cases stepped; exact .idle fun _ _ => nofun
    · cases stepped
  | stopped => cases stepped

theorem Stepped.onward {before after : Subscribing} (stepped : Stepped spec w before after w') : Onward w w' := by
  cases stepped with
  | idle | join => exact .refl w
  | create free ensured =>
    refine ⟨?_, Nat.le_refl _, id⟩
    rw [← ensured, EventLog.ensureGroup_outcome]
    exact EventLog.withGroup_streams ..
  | consume inner => exact inner.onward

end SubscriberTask
end PolicyLedger
