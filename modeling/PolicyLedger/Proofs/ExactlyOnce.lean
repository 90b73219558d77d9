import PolicyLedger.Proofs.InOrder

/-!
A subscriber with a replica and a group of its own. Deliveries come at least once: an event that was
applied is delivered again if the subscription ends before the event is acknowledged. That it is applied
only once rests on the replica and the group staying within one event of each other, which lasts until an
event is set aside; and no event is set aside but the next one of a replica that can not repeat it.
-/
namespace PolicyLedger
open PolicyLedger.Action

/-- Whether the next event of a stream can not be repeated on a replica. -/
def Replica.Stuck (events : List Recorded) (r : Replica) : Prop :=
  ∃ event e, events[r.revision]? = some event ∧ r.store.graph.replayRecord event = .error e

private theorem Replica.Stuck.mono {events more : List Recorded} {r : Replica} (stuck : r.Stuck events)
    (grows : events <+: more) : r.Stuck more := by
  obtain ⟨event, e, found, failed⟩ := stuck
  exact ⟨event, e, getElem?_mono grows found, failed⟩

namespace Following

/-- How a replica, its group and what was announced of it stand to each other. -/
structure Exact (stream group : String) (w : Following EventLog) : Prop where
  inPlace : InPlace (w.log.events stream)
  reflects : w.replica.Reflects (w.log.events stream)
  fresh : w.log.group? stream group = none → w.replica.revision = 0
  near : ∀ state, w.log.group? stream group = some state → w.replica.revision ≤ state.position + 1
  behind : ∀ state, w.log.group? stream group = some state → state.parked = [] → state.position ≤ w.replica.revision
  parked : ∀ state, w.log.group? stream group = some state → w.lockdown = false → state.parked = []
  announced : w.current.value ≤ w.replica.revision
  stuck : w.lockdown = true → w.replica.Stuck (w.log.events stream)

/-- What never goes back. A replica that is stuck does not move at all. -/
structure Advance (stream group : String) (w w' : Following EventLog) : Prop where
  grows : w.log.events stream <+: w'.log.events stream
  revision : w.replica.revision ≤ w'.replica.revision
  position : ∀ state, w.log.group? stream group = some state →
    ∃ state', w'.log.group? stream group = some state' ∧ state.position ≤ state'.position
  lockdown : w.lockdown = true → w'.lockdown = true
  stuck : w.replica.Stuck (w.log.events stream) → w'.replica = w.replica

variable {stream group : String} {w w' : Following EventLog}

theorem Advance.refl (w : Following EventLog) : Advance stream group w w :=
  ⟨List.prefix_refl _, Nat.le_refl _, fun state there => ⟨state, there, Nat.le_refl _⟩, id, fun _ => rfl⟩

/-- What happens elsewhere only makes the stream longer. -/
private theorem Exact.frame (exact : w.Exact stream group) (inPlace : InPlace (w'.log.events stream))
    (grows : w.log.events stream <+: w'.log.events stream)
    (same : w'.log.group? stream group = w.log.group? stream group) (replica : w'.replica = w.replica)
    (current : w'.current = w.current) (lockdown : w'.lockdown = w.lockdown) :
    w'.Exact stream group ∧ Advance stream group w w' := by
  constructor
  · refine ⟨inPlace, ?_, ?_, ?_, ?_, ?_, ?_, ?_⟩
    · rw [replica]
      exact exact.reflects.mono grows
    · rw [replica, same]
      exact exact.fresh
    · rw [replica, same]
      exact exact.near
    · rw [replica, same]
      exact exact.behind
    · rw [same, lockdown]
      exact exact.parked
    · rw [current, replica]
      exact exact.announced
    · intro locked
      rw [replica]
      exact (exact.stuck (lockdown ▸ locked)).mono grows
  · refine ⟨grows, ?_, ?_, ?_, fun _ => replica⟩
    · rewrite [replica]
      exact Nat.le_refl _
    · intro state there
      exact ⟨state, same.trans there, Nat.le_refl _⟩
    · rw [lockdown]
      exact id

private theorem Exact.groupBehind (exact : w.Exact stream group) :
    Behind w.log stream group w.replica.revision w.lockdown := by
  intro state there free
  exact exact.behind state there (exact.parked state there free)

end Following

open Following (Exact Advance)

namespace Consuming

/-- What has to hold of a subscriber for this, besides being in step: it holds no event beyond the one its
group waits for, announces no more than its replica has seen, and locks down no replica but a stuck one. -/
def Careful (stream group : String) (w : Following EventLog) : Consuming → Prop
  | received d | applying d => ∃ state, w.log.group? stream group = some state ∧ d.revision ≤ state.position + 1
  | announcing revision => revision ≤ w.replica.revision
  | lockingDown _ _ => w.replica.Stuck (w.log.events stream)
  | _ => True

private theorem Careful.mono {stream group : String} {w w' : Following EventLog} {c : Consuming}
    (careful : c.Careful stream group w) (advance : Advance stream group w w') : c.Careful stream group w' := by
  have onward {d : Delivery}
      (held : ∃ state, w.log.group? stream group = some state ∧ d.revision ≤ state.position + 1) :
      ∃ state, w'.log.group? stream group = some state ∧ d.revision ≤ state.position + 1 := by
    obtain ⟨state, there, bound⟩ := held
    obtain ⟨state', there', further⟩ := advance.position state there
    exact ⟨state', there', Nat.le_trans bound (Nat.succ_le_succ further)⟩
  cases c with
  | received d => exact onward careful
  | applying d => exact onward careful
  | announcing revision => exact Nat.le_trans careful advance.revision
  | lockingDown d e =>
    -- The replica can not have moved since, so the event it is stuck at is still the next.
    show w'.replica.Stuck _
    rw [advance.stuck careful]
    exact Replica.Stuck.mono careful advance.grows
  | _ => trivial

variable {spec : SubscriberSpec} {s : Subscription} {c c' : Consuming} {w w' : Following EventLog} {d : Delivery}

/-- An event that is new to a replica, but no further than the next one, is the next one. -/
private theorem next_event {events : List Recorded} {r : Replica} (inPlace : InPlace events) (stands : d.From events)
    (next : d.revision ≤ r.revision + 1) (unseen : ¬ d.revision ≤ r.revision) : events[r.revision]? = some d.event := by
  obtain ⟨p, found⟩ := stands
  rw [← inPlace.next found next unseen]
  exact found

/-- A delivery that fails is the next event of a replica, which is stuck. -/
private theorem stuck_of_failed {events : List Recorded} {r : Replica} {e : ReplayError} (inPlace : InPlace events)
    (stands : d.From events) (next : d.revision ≤ r.revision + 1)
    (failed : ((applyDelivery d).outcome r).1 = .error e) : r.Stuck events := by
  rw [applyDelivery_outcome] at failed
  split at failed
  · cases failed
  · rename_i unseen
    refine ⟨d.event, e, next_event inPlace stands next unseen, ?_⟩
    rw [Replica.applyRecorded_outcome] at failed
    split at failed
    · cases failed
    · rename_i failure
      cases failed
      exact failure

/-- A stuck replica is not moved by any delivery. -/
private theorem apply_of_stuck {events : List Recorded} {r r' : Replica} (inPlace : InPlace events)
    (stands : d.From events)
    (next : d.revision ≤ r.revision + 1) (done : (applyDelivery d).outcome r = (.ok (), r'))
    (stuck : r.Stuck events) : r' = r := by
  rw [applyDelivery_outcome] at done
  split at done
  · cases done
    rfl
  · rename_i unseen
    obtain ⟨event, e, found, failed⟩ := stuck
    cases found.symm.trans (next_event inPlace stands next unseen)
    rw [Replica.applyRecorded_outcome, failed] at done
    cases done

/-- A delivery that is applied takes a replica to its revision, unless it stays where it is. -/
private theorem apply_revision {r r' : Replica} (done : (applyDelivery d).outcome r = (.ok (), r')) :
    r'.revision = r.revision ∨ r'.revision = d.revision := by
  rw [applyDelivery_outcome] at done
  split at done
  · cases done
    exact .inl rfl
  · rw [Replica.applyRecorded_outcome] at done
    split at done
    · cases done
      exact .inr rfl
    · cases done

/-- A delivery that is applied takes the replica no further than one event beyond its group. -/
private theorem exact_apply {stream group : String} {replica : Replica} (exact : w.Exact stream group)
    (stands : d.From (w.log.events stream)) (next : d.revision ≤ w.replica.revision + 1)
    (held : ∃ state, w.log.group? stream group = some state ∧ d.revision ≤ state.position + 1)
    (done : (applyDelivery d).outcome w.replica = (.ok (), replica)) :
    { w with replica }.Exact stream group ∧ Advance stream group w { w with replica } := by
  obtain ⟨state, there, bound⟩ := held
  have onward : w.replica.revision ≤ replica.revision := by
    have moved := (applyDelivery_revision d w.replica).1
    rwa [done] at moved
  have stays (stuck : w.replica.Stuck (w.log.events stream)) : replica = w.replica :=
    apply_of_stuck exact.inPlace stands next done stuck
  constructor
  · refine ⟨exact.inPlace, reflects_apply exact.inPlace stands next exact.reflects done, ?_, ?_, ?_, exact.parked,
      Nat.le_trans exact.announced onward, ?_⟩
    · intro absent
      cases there.symm.trans absent
    · intro state' there'
      cases there.symm.trans there'
      rcases apply_revision done with same | taken
      · exact same ▸ exact.near state there
      · exact taken ▸ bound
    · intro state' there' unparked
      exact Nat.le_trans (exact.behind state' there' unparked) onward
    · intro locked
      have stuck := exact.stuck locked
      show replica.Stuck (w.log.events stream)
      rw [stays stuck]
      exact stuck
  · exact ⟨List.prefix_refl _, onward, fun state there => ⟨state, there, Nat.le_refl _⟩, id, stays⟩

/-- An answer about a delivery moves its group on without passing the replica, or sets the event aside in a
lockdown. -/
private theorem exact_answer (move : ConsumerGroup → ConsumerGroup) {log : EventLog} (exact : w.Exact s.stream s.group)
    (onward : ∀ state, state.position ≤ (move state).position)
    (moves : ∀ state, state.position + 1 = d.revision →
      (move state).parked = state.parked ∧
          (state.position ≤ w.replica.revision → (move state).position ≤ w.replica.revision) ∨
        (move state).parked ≠ [] ∧ w.lockdown = true)
    (answered : ((EventLog.answer s d.revision move).outcome w.log).2 = log) :
    { w with log }.Exact s.stream s.group ∧ Advance s.stream s.group w { w with log } := by
  rcases EventLog.answer_cases s d.revision move w.log with same | ⟨state, current, moved⟩
  · rw [← answered, same]
    exact ⟨exact, .refl w⟩
  · obtain ⟨event, awaits, revises⟩ := EventLog.current_eq_some.mp current
    have place : state.position + 1 = d.revision := (exact.inPlace _ _ awaits.waits).symm.trans revises
    rw [moved] at answered
    subst answered
    have found : (w.log.setGroup s.stream s.group (move state)).group? s.stream s.group = some (move state) := by
      rw [EventLog.group?_setGroup, if_pos ⟨rfl, rfl⟩]
    constructor
    · refine ⟨exact.inPlace, exact.reflects, ?_, ?_, ?_, ?_, exact.announced, exact.stuck⟩
      · intro absent
        cases found.symm.trans absent
      · intro state' there
        cases found.symm.trans there
        exact Nat.le_trans (exact.near state awaits.there) (Nat.succ_le_succ (onward state))
      · intro state' there unparked
        cases found.symm.trans there
        rcases moves state place with ⟨same, bound⟩ | ⟨parked, _⟩
        · exact bound (exact.behind state awaits.there (same ▸ unparked))
        · exact absurd unparked parked
      · intro state' there free
        cases found.symm.trans there
        rcases moves state place with ⟨same, _⟩ | ⟨_, locked⟩
        · rw [same]
          exact exact.parked state awaits.there free
        · cases free.symm.trans locked
    · refine ⟨List.prefix_refl _, Nat.le_refl _, ?_, id, fun _ => rfl⟩
      intro state' there
      cases awaits.there.symm.trans there
      exact ⟨move state, found, onward state⟩

/-- One step with a delivery. -/
private theorem exact_step (stepped : Stepped spec s w c c' w') (exact : w.Exact s.stream s.group)
    (inStep : c.InStep (w.log.events s.stream) w.replica.revision w.lockdown) (careful : c.Careful s.stream s.group w) :
    w'.Exact s.stream s.group ∧ c'.Careful s.stream s.group w' ∧ Advance s.stream s.group w w' := by
  cases stepped with
  | look =>
    refine ⟨exact, ?_, .refl w⟩
    split <;> trivial
  | ask asks =>
    refine ⟨exact, ?_, .refl w⟩
    rcases asked : ((EventLog.next s).outcome w.log).1 with e | ⟨d⟩ | _ | _
    · trivial
    · obtain ⟨state, awaits⟩ := EventLog.next_ready asked
      exact ⟨state, awaits.there, Nat.le_of_eq (exact.inPlace _ _ awaits.waits)⟩
    · trivial
    · trivial
  | lookAgain d =>
    refine ⟨exact, ?_, .refl w⟩
    cases w.lockdown with
    | true => trivial
    | false => exact careful
  | apply d done =>
    obtain ⟨exact', advance⟩ := exact_apply exact inStep.1 inStep.2 careful done
    exact ⟨exact', trivial, advance⟩
  | fail d failed =>
    refine ⟨exact, ?_, .refl w⟩
    split
    · trivial
    · exact stuck_of_failed exact.inPlace inStep.1 inStep.2 failed
  | acknowledge d after answered =>
    obtain ⟨exact', advance⟩ := exact_answer ConsumerGroup.advance exact (fun state => Nat.le_succ state.position)
      (fun state place => .inl ⟨rfl, fun _ => Nat.le_trans (Nat.le_of_eq place) inStep⟩) answered
    refine ⟨exact', ?_, advance⟩
    rcases after with rfl | ⟨_, rfl⟩
    · exact inStep
    · trivial
  | announce revision =>
    have bound : (w.current.set revision).value ≤ w.replica.revision := by
      unfold Watched.set
      split
      · exact Nat.max_le.mpr ⟨exact.announced, careful⟩
      · exact exact.announced
    exact ⟨{ exact with announced := bound }, trivial, { Advance.refl w with }⟩
  | lockDown d e =>
    refine ⟨{ exact with parked := ?_, stuck := fun _ => careful }, trivial, ?_⟩
    · intro state there free
      cases free
    · exact { Advance.refl w with lockdown := fun _ => rfl }
  | @reject d e rejection c log after answered =>
    have moved : { w with log }.Exact s.stream s.group ∧ Advance s.stream s.group w { w with log } := by
      cases rejection with
      | retry =>
        exact exact_answer (fun state => { state with retryCount := state.retryCount + 1 }) exact
          (fun state => Nat.le_refl state.position) (fun _ _ => .inl ⟨rfl, id⟩) answered
      | park =>
        have leaves (state : ConsumerGroup) : state.parked ++ [d.revision] ≠ [] := by simp
        exact exact_answer (fun state => ConsumerGroup.advance { state with parked := state.parked ++ [d.revision] })
          exact (fun state => Nat.le_succ state.position) (fun state _ => .inr ⟨leaves state, inStep⟩) answered
    obtain ⟨exact', advance⟩ := moved
    refine ⟨exact', ?_, advance⟩
    rcases after with rfl | ⟨_, rfl⟩ <;> trivial

/-- A step leaves all groups alone but that of the subscription. -/
private theorem Stepped.others (stepped : Stepped spec s w c c' w') {stream group : String}
    (differ : ¬ (stream = s.stream ∧ group = s.group)) : w'.log.group? stream group = w.log.group? stream group := by
  have answered {move : ConsumerGroup → ConsumerGroup} {revision : Revision} :
      ((EventLog.answer s revision move).outcome w.log).2.group? stream group = w.log.group? stream group := by
    rcases EventLog.answer_cases s revision move w.log with same | ⟨state, _, moved⟩
    · rw [same]
    · rw [moved]
      exact (EventLog.group?_setGroup ..).trans (if_neg differ)
  cases stepped with
  | acknowledge d _ answer =>
    subst answer
    exact answered
  | reject d e rejection _ answer =>
    subst answer
    exact answered
  | _ => rfl

/-- The event the next step repeats on a replica: one at hand that is new to the replica and does not fail. -/
def repeats? (r : Replica) : Consuming → Option Recorded
  | applying d =>
    if d.revision ≤ r.revision then none
    else match (Replica.applyRecorded d.event).outcome r with
      | (.ok (), _) => some d.event
      | (.error _, _) => none
  | _ => none

private theorem repeats?_eq_some {r : Replica} {event : Recorded} (repeated : c.repeats? r = some event) :
    ∃ d r', c = applying d ∧ d.event = event ∧ ¬ d.revision ≤ r.revision ∧
      (applyDelivery d).outcome r = (.ok (), r') ∧ r'.revision = d.revision := by
  unfold repeats? at repeated
  split at repeated
  · rename_i d
    split at repeated
    · cases repeated
    · rename_i unseen
      split at repeated
      · rename_i r' applied
        cases repeated
        have done : (applyDelivery d).outcome r = (.ok (), r') := by
          rw [applyDelivery_outcome, if_neg unseen]
          exact applied
        refine ⟨d, r', rfl, rfl, unseen, done, ?_⟩
        have moved := (applyDelivery_revision d r).2
        rw [done] at moved
        rcases apply_revision done with same | taken
        · exact absurd (same ▸ moved rfl) unseen
        · exact taken
      · cases repeated
  · cases repeated

/-- A replica changes only where an event is repeated on it. -/
private theorem Stepped.silent (stepped : Stepped spec s w c c' w') (none : c.repeats? w.replica = none) :
    w'.replica = w.replica := by
  cases stepped with
  | @apply d replica done =>
    rw [applyDelivery_outcome] at done
    split at done
    · cases done
      rfl
    · rename_i unseen
      rw [repeats?, if_neg unseen, done] at none
      cases none
  | _ => rfl

end Consuming

namespace SubscriberTask

variable {spec : SubscriberSpec} {before after : Subscribing} {w w' : Following EventLog}

/-- The same of a subscriber as a whole. -/
def Careful (spec : SubscriberSpec) (w : Following EventLog) : Subscribing → Prop
  | .consuming _ c => c.Careful spec.stream spec.group w
  | _ => True

private theorem Careful.mono {phase : Subscribing} (careful : Careful spec w phase)
    (advance : Advance spec.stream spec.group w w') : Careful spec w' phase := by
  cases phase with
  | consuming s c => exact Consuming.Careful.mono careful advance
  | _ => trivial

/-- A group that is new stands at the beginning of the stream, where the replica is too. -/
private theorem exact_withGroup {stream group : String} (exact : w.Exact stream group) :
    { w with log := w.log.withGroup stream group }.Exact stream group ∧
      Advance stream group w { w with log := w.log.withGroup stream group } := by
  cases there : w.log.group? stream group with
  | some state =>
    have same : w.log.withGroup stream group = w.log := by rw [EventLog.withGroup, there]
    rw [same]
    exact ⟨exact, .refl w⟩
  | none =>
    have start : w.replica.revision = 0 := exact.fresh there
    have found : (w.log.withGroup stream group).group? stream group = some {} := by
      rw [EventLog.group?_withGroup, if_pos ⟨rfl, rfl⟩, there]
      rfl
    have events : (w.log.withGroup stream group).events stream = w.log.events stream :=
      System.events_of_streams (EventLog.withGroup_streams ..) _
    constructor
    · refine ⟨events ▸ exact.inPlace, events ▸ exact.reflects, ?_, ?_, ?_, ?_, exact.announced, events ▸ exact.stuck⟩
      · exact fun _ => start
      · intro state there'
        exact Nat.le_trans (Nat.le_of_eq start) (Nat.zero_le _)
      · intro state there' _
        cases found.symm.trans there'
        exact Nat.zero_le _
      · intro state there' _
        cases found.symm.trans there'
        rfl
    · refine ⟨events ▸ List.prefix_refl _, Nat.le_refl _, ?_, id, fun _ => rfl⟩
      intro state there'
      cases there.symm.trans there'

private theorem exact_step (stepped : Stepped spec w before after w') (exact : w.Exact spec.stream spec.group)
    (inStep : InStep spec (w.log.events spec.stream) w.replica.revision w.lockdown before)
    (careful : Careful spec w before) :
    w'.Exact spec.stream spec.group ∧ Careful spec w' after ∧ Advance spec.stream spec.group w w' := by
  cases stepped with
  | idle free =>
    refine ⟨exact, ?_, .refl w⟩
    cases after with
    | consuming s c => exact absurd rfl (free s c)
    | _ => trivial
  | create free ensured =>
    obtain ⟨exact', advance⟩ := exact_withGroup exact
    rw [EventLog.ensureGroup_outcome] at ensured
    subst ensured
    refine ⟨exact', ?_, advance⟩
    cases after with
    | consuming s c => exact absurd rfl (free s c)
    | _ => trivial
  | join => exact ⟨exact, trivial, .refl w⟩
  | @consume s c c' w' inner =>
    obtain ⟨stream, group, safe⟩ := inStep
    unfold Careful at careful ⊢
    rw [← stream, ← group] at exact careful ⊢
    rw [← stream] at safe
    exact Consuming.exact_step inner exact safe careful

/-- A subscription is one to the subscriber's own group. -/
def Bound (spec : SubscriberSpec) : Subscribing → Prop
  | .consuming s _ => s.stream = spec.stream ∧ s.group = spec.group
  | _ => True

private theorem Stepped.bound (stepped : Stepped spec w before after w') (bound : Bound spec before) :
    Bound spec after := by
  cases stepped with
  | idle free | create free =>
    cases after with
    | consuming s c => exact absurd rfl (free s c)
    | _ => trivial
  | join joined =>
    rw [EventLog.subscribe, outcome_ofFunction] at joined
    split at joined <;> cases joined
    exact ⟨rfl, rfl⟩
  | consume => exact bound

/-- A step leaves all groups alone but the subscriber's own. -/
private theorem Stepped.others (stepped : Stepped spec w before after w') (bound : Bound spec before)
    {stream group : String}
    (differ : ¬ (stream = spec.stream ∧ group = spec.group)) :
    w'.log.group? stream group = w.log.group? stream group := by
  cases stepped with
  | create _ ensured =>
    rw [EventLog.ensureGroup_outcome] at ensured
    subst ensured
    exact (EventLog.group?_withGroup ..).trans (if_neg differ)
  | consume inner =>
    refine inner.others ?_
    rw [bound.1, bound.2]
    exact differ
  | _ => rfl

/-- The event the next step repeats on a replica, if it does repeat one. -/
def repeats? (r : Replica) (t : SubscriberTask) : Option Recorded :=
  match t.phase with
  | .consuming _ c => c.repeats? r
  | _ => none

private theorem repeats?_eq_some {t : SubscriberTask} {event : Recorded}
    (repeated : t.repeats? w.replica = some event) :
    ∃ s d replica t', t.phase = .consuming s (.applying d) ∧ d.event = event ∧ ¬ d.revision ≤ w.replica.revision ∧
      replica.revision = d.revision ∧ ∀ spec jitter now, t.step spec jitter now w = some (t', { w with replica }) := by
  obtain ⟨phase, backoff⟩ := t
  unfold repeats? at repeated
  split at repeated
  · rename_i s c phase
    cases phase
    obtain ⟨d, replica, rfl, told, unseen, done, further⟩ := Consuming.repeats?_eq_some repeated
    refine ⟨s, d, replica, ⟨.consuming s (.acknowledging d), backoff⟩, rfl, told, unseen, further, ?_⟩
    intro spec jitter now
    simp only [step, Consuming.step, Following.onReplica, done]
  · cases repeated

private theorem Stepped.silent {t : SubscriberTask} (stepped : Stepped spec w t.phase after w')
    (none : t.repeats? w.replica = none) : w'.replica = w.replica := by
  obtain ⟨phase, backoff⟩ := t
  cases stepped with
  | consume inner => exact inner.silent none
  | _ => rfl

end SubscriberTask

/-! ### Whole systems -/

namespace Follower

/-- A subscriber of a replica, under a lockdown, in the state it must be in. -/
structure Own (r l : Nat) (spec : SubscriberSpec) (w : Following EventLog) (f : Follower) : Prop where
  replica : f.replica = r
  lockdown : f.lockdown = l
  settings : f.spec = spec
  inStep : SubscriberTask.InStep spec (w.log.events spec.stream) w.replica.revision w.lockdown f.task.phase
  careful : SubscriberTask.Careful spec w f.task.phase

/-- One that has nothing to do with that replica, that lockdown and that group. -/
structure Apart (r l : Nat) (spec : SubscriberSpec) (f : Follower) : Prop where
  replica : f.replica ≠ r
  lockdown : f.lockdown ≠ l
  group : ¬ (f.spec.stream = spec.stream ∧ f.spec.group = spec.group)
  bound : SubscriberTask.Bound f.spec f.task.phase

private theorem Own.mono {r l : Nat} {spec : SubscriberSpec} {w w' : Following EventLog} {f : Follower}
    (own : f.Own r l spec w)
    (advance : Advance spec.stream spec.group w w') : f.Own r l spec w' where
  replica := own.replica
  lockdown := own.lockdown
  settings := own.settings
  inStep := own.inStep.mono advance.grows advance.revision advance.lockdown
  careful := own.careful.mono advance

end Follower

private theorem Following.Advance.trans {stream group : String} {w₁ w₂ w₃ : Following EventLog}
    (first : Advance stream group w₁ w₂) (second : Advance stream group w₂ w₃) : Advance stream group w₁ w₃ where
  grows := first.grows.trans second.grows
  revision := Nat.le_trans first.revision second.revision
  position state there := by
    obtain ⟨state', there', further⟩ := first.position state there
    obtain ⟨state'', there'', furthest⟩ := second.position state' there'
    exact ⟨state'', there'', Nat.le_trans further furthest⟩
  lockdown locked := second.lockdown (first.lockdown locked)
  stuck stuck := by
    have same : w₂.replica = w₁.replica := first.stuck stuck
    have still : w₂.replica.Stuck (w₂.log.events stream) := by
      rw [same]
      exact stuck.mono first.grows
    exact (second.stuck still).trans same

namespace System

/-- What the subscribers of a replica under a lockdown see of a system. -/
def seen (s : System) (r l : Nat) : Following EventLog where
  log := s.log
  replica := s.replicas r
  current := s.currents r
  lockdown := s.lockdowns l

/-- A replica, a lockdown and a group that are used by subscribers of one kind only. -/
structure Tracked (r l : Nat) (spec : SubscriberSpec) (s : System) : Prop where
  seen : (s.seen r l).Exact spec.stream spec.group
  followers : ∀ f ∈ s.followers, f.Own r l spec (s.seen r l) ∨ f.Apart r l spec

/-- The same where no request can change the replica either. -/
structure Exact (r l : Nat) (spec : SubscriberSpec) (s : System) : Prop extends s.Tracked r l spec where
  restores : ∀ c ∈ s.calls, c.replica = r → c.spec.Restores

/-- What may happen if no other subscriber uses the replica, the lockdown and the group. -/
def Private (r l : Nat) (spec : SubscriberSpec) : Move → Prop
  | .follow replica lockdown other =>
    replica = r ∧ lockdown = l ∧ other = spec ∨
      replica ≠ r ∧ lockdown ≠ l ∧ ¬ (other.stream = spec.stream ∧ other.group = spec.group)
  | _ => True

/-- What may happen if nobody else uses the replica, the lockdown and the group: whoever subscribes is either one
of these subscribers or has nothing to do with them, and requests made to the replica restore its store. Anybody
may append, and end all subscriptions. -/
def Alone (r l : Nat) (spec : SubscriberSpec) : Move → Prop
  | .call _ replica _ request => replica = r → request.Restores
  | .follow replica lockdown other =>
    replica = r ∧ lockdown = l ∧ other = spec ∨
      replica ≠ r ∧ lockdown ≠ l ∧ ¬ (other.stream = spec.stream ∧ other.group = spec.group)
  | _ => True

/-- The event that a move repeats on a replica, if it does repeat one. -/
def repeated? (r : Nat) (s : System) : Move → Option Recorded
  | .consume i _ _ => s.followers[i]?.bind fun f => if f.replica = r then f.task.repeats? (s.replicas r) else none
  | _ => none

/-- All events repeated on a replica in the course of a schedule. -/
def replayed (r : Nat) (s : System) : List Move → List Recorded
  | [] => []
  | m :: rest => (s.repeated? r m).toList ++ (s.step m).replayed r rest

variable {r l : Nat} {spec : SubscriberSpec} {s t : System}

theorem Alone.isPrivate {m : Move} (alone : Alone r l spec m) : Private r l spec m := by
  cases m with
  | follow replica lockdown other => exact alone
  | _ => trivial

theorem exact_start (r l : Nat) (spec : SubscriberSpec) : ({} : System).Exact r l spec where
  seen :=
    { inPlace := fun p event found => by cases found
      reflects := ⟨Nat.le_refl _, rfl⟩
      fresh := fun _ => rfl
      near := fun state found => by cases found
      behind := fun state found => by cases found
      parked := fun state found => by cases found
      announced := Nat.le_refl _
      stuck := fun locked => by cases locked }
  followers f member := absurd member List.not_mem_nil
  restores c member := absurd member List.not_mem_nil

/-- Whoever follows a system from one state to the next still sees what it has to see. -/
private theorem tracked_of_seen (tracked : s.Tracked r l spec)
    (seen : (t.seen r l).Exact spec.stream spec.group ∧ Advance spec.stream spec.group (s.seen r l) (t.seen r l))
    (followers : ∀ f ∈ t.followers, f ∈ s.followers ∨ f.Own r l spec (t.seen r l) ∨ f.Apart r l spec) :
    t.Tracked r l spec ∧ Advance spec.stream spec.group (s.seen r l) (t.seen r l) := by
  refine ⟨⟨seen.1, ?_⟩, seen.2⟩
  intro f member
  rcases followers f member with old | new
  · exact (tracked.followers f old).imp_left fun own => own.mono seen.2
  · exact new

/-- Requests that leave the replica alone may do what they like. -/
private theorem tracked_proceed {i now : Nat} (tracked : s.Tracked r l spec) (proceeds : s.proceed? i now = some t)
    (kept : t.replicas r = s.replicas r) :
    t.Tracked r l spec ∧ Advance spec.stream spec.group (s.seen r l) (t.seen r l) := by
  obtain ⟨c, state, w, there, stepped, made⟩ := proceed?_eq_some.mp proceeds
  have grows := proceed_grows proceeds spec.stream
  subst made
  obtain ⟨inPlace, groups, current, _⟩ := frame_of_stepped (Adjudication.step_cases stepped) tracked.seen.inPlace
  have announced : Function.update s.currents c.replica w.current r = s.currents r := by
    rw [current]
    exact congrFun (Function.update_eq_self ..) r
  refine tracked_of_seen tracked (tracked.seen.frame inPlace grows ?_ kept announced rfl) fun f old => .inl old
  show w.log.group? _ _ = s.log.group? _ _
  unfold EventLog.group?
  rw [groups]
  rfl

private theorem tracked_consume {i now : Nat} {jitter : Duration} (tracked : s.Tracked r l spec)
    (consumes : s.consume? i now jitter = some t) :
    t.Tracked r l spec ∧ Advance spec.stream spec.group (s.seen r l) (t.seen r l) := by
  obtain ⟨f, task, w, there, stepped, rfl⟩ := consume?_eq_some.mp consumes
  have cases := SubscriberTask.step_cases stepped
  have events : w.log.events spec.stream = s.log.events spec.stream := events_of_streams cases.onward.streams _
  rcases tracked.followers f (List.mem_of_getElem? there) with ⟨rfl, rfl, rfl, inStep, careful⟩ | apart
  · obtain ⟨seen, careful', advance⟩ := SubscriberTask.exact_step cases tracked.seen inStep careful
    have sees : (s.followed i { f with task } w).seen f.replica f.lockdown = w := by
      simp only [System.seen, followed, Function.update_self]
    refine tracked_of_seen tracked (by rw [sees]; exact ⟨seen, advance⟩) ?_
    intro other among
    rcases List.mem_or_eq_of_mem_set among with old | rfl
    · exact .inl old
    · refine .inr (.inl ?_)
      rw [sees]
      refine ⟨rfl, rfl, rfl, ?_, careful'⟩
      rw [events]
      obtain ⟨_, _, _, inStep'⟩ :=
        SubscriberTask.inStep_step cases tracked.seen.inPlace tracked.seen.reflects tracked.seen.groupBehind inStep
      exact inStep'
  · have replica : Function.update s.replicas f.replica w.replica r = s.replicas r :=
      Function.update_of_ne (Ne.symm apart.replica) ..
    have current : Function.update s.currents f.replica w.current r = s.currents r :=
      Function.update_of_ne (Ne.symm apart.replica) ..
    have lockdown : Function.update s.lockdowns f.lockdown w.lockdown l = s.lockdowns l :=
      Function.update_of_ne (Ne.symm apart.lockdown) ..
    have group : w.log.group? spec.stream spec.group = s.log.group? spec.stream spec.group :=
      cases.others apart.bound fun both => apart.group ⟨both.1.symm, both.2.symm⟩
    refine tracked_of_seen tracked (tracked.seen.frame ?_ ?_ group replica current lockdown) ?_
    · exact events ▸ tracked.seen.inPlace
    · exact events ▸ List.prefix_refl _
    · intro other among
      rcases List.mem_or_eq_of_mem_set among with old | rfl
      · exact .inl old
      · exact .inr (.inr ⟨apart.replica, apart.lockdown, apart.group, cases.bound apart.bound⟩)

/-- Whatever happens that leaves the replica to its own subscribers keeps it tracked. -/
theorem tracked_step {m : Move} (tracked : s.Tracked r l spec) (alone : Private r l spec m)
    (kept : ∀ i now, m = .proceed i now → (s.step m).replicas r = s.replicas r) :
    (s.step m).Tracked r l spec ∧ Advance spec.stream spec.group (s.seen r l) ((s.step m).seen r l) := by
  cases m with
  | call => exact tracked_of_seen tracked ⟨tracked.seen, .refl _⟩ fun f old => .inl old
  | follow replica lockdown other =>
    refine tracked_of_seen tracked ⟨tracked.seen, .refl _⟩ ?_
    intro f member
    rcases List.mem_append.mp member with old | new
    · exact .inl old
    · cases List.mem_singleton.mp new
      right
      rcases alone with ⟨rfl, rfl, rfl⟩ | ⟨replica, lockdown, group⟩
      · exact .inl ⟨rfl, rfl, rfl, trivial, trivial⟩
      · exact .inr ⟨replica, lockdown, group, trivial⟩
  | append stream expected records =>
    refine tracked_of_seen tracked (tracked.seen.frame (inPlace_append tracked.seen.inPlace)
      (append_grows _ _ _ s.log spec.stream) ?_ rfl rfl rfl) fun f old => .inl old
    show EventLog.group? ((EventLog.append stream expected records).outcome s.log).2 _ _ = s.log.group? _ _
    unfold EventLog.group?
    rw [append_groups]
  | cancel =>
    exact tracked_of_seen tracked (tracked.seen.frame tracked.seen.inPlace (List.prefix_refl _) rfl rfl rfl rfl)
      fun f old => .inl old
  | proceed i now =>
    have same := kept i now rfl
    simp only [step] at same ⊢
    cases proceeds : s.proceed? i now with
    | none => exact ⟨tracked, .refl _⟩
    | some t =>
      rw [proceeds] at same
      exact tracked_proceed tracked proceeds same
  | consume i now jitter =>
    simp only [step]
    cases consumes : s.consume? i now jitter with
    | none => exact ⟨tracked, .refl _⟩
    | some t => exact tracked_consume tracked consumes

/-- Requests that restore the store leave the replica alone. -/
theorem Exact.kept (exact : s.Exact r l spec) (i now : Nat) :
    (s.step (.proceed i now)).replicas r = s.replicas r := by
  simp only [step]
  cases proceeds : s.proceed? i now with
  | none => rfl
  | some t =>
    obtain ⟨c, state, w, there, stepped, rfl⟩ := proceed?_eq_some.mp proceeds
    show Function.update s.replicas c.replica w.replica r = s.replicas r
    by_cases same : r = c.replica
    · rw [same, Function.update_self]
      obtain ⟨_, _, _, restored⟩ := frame_of_stepped (Adjudication.step_cases stepped) exact.seen.inPlace
      exact restored (exact.restores c (List.mem_of_getElem? there) same.symm)
    · rw [Function.update_of_ne same]

private theorem Exact.restores_step {m : Move} (exact : s.Exact r l spec) (alone : Alone r l spec m) :
    ∀ c ∈ (s.step m).calls, c.replica = r → c.spec.Restores := by
  intro c member
  cases m with
  | call Value replica adjudicator request =>
    rcases List.mem_append.mp member with old | new
    · exact exact.restores c old
    · cases List.mem_singleton.mp new
      exact alone
  | follow | append | cancel => exact exact.restores c member
  | consume i now jitter =>
    rw [calls_consume] at member
    exact exact.restores c member
  | proceed i now =>
    simp only [step] at member
    cases proceeds : s.proceed? i now with
    | none =>
      rw [proceeds] at member
      exact exact.restores c member
    | some t =>
      obtain ⟨c', state, w, there, _, made⟩ := proceed?_eq_some.mp proceeds
      rw [proceeds, made] at member
      rcases List.mem_or_eq_of_mem_set member with old | rfl
      · exact exact.restores c old
      · exact exact.restores c' (List.mem_of_getElem? there)

private theorem exact_step {m : Move} (exact : s.Exact r l spec) (alone : Alone r l spec m) :
    (s.step m).Exact r l spec ∧ Advance spec.stream spec.group (s.seen r l) ((s.step m).seen r l) := by
  have kept (i now : Nat) (same : m = .proceed i now) : (s.step m).replicas r = s.replicas r := by
    rw [same]
    exact exact.kept i now
  obtain ⟨tracked, advance⟩ := tracked_step exact.toTracked alone.isPrivate kept
  exact ⟨⟨tracked, exact.restores_step alone⟩, advance⟩

/-- The replica changes only where an event is repeated on it. -/
private theorem silent_step {m : Move} (exact : s.Exact r l spec) (silent : s.repeated? r m = none) :
    (s.step m).replicas r = s.replicas r := by
  cases m with
  | proceed i now => exact exact.kept i now
  | consume i now jitter =>
    simp only [step]
    cases consumes : s.consume? i now jitter with
    | none => rfl
    | some t =>
      obtain ⟨f, task, w, there, stepped, rfl⟩ := consume?_eq_some.mp consumes
      show Function.update s.replicas f.replica w.replica r = s.replicas r
      by_cases same : f.replica = r
      · subst same
        rw [Function.update_self]
        refine (SubscriberTask.step_cases stepped).silent ?_
        rw [repeated?, there, Option.bind_some, if_pos rfl] at silent
        exact silent
      · rw [Function.update_of_ne (Ne.symm same)]
  | _ => rfl

/-- The next event of the stream is the only one that a step can repeat. -/
private theorem told_step {m : Move} (exact : s.Exact r l spec) (alone : Alone r l spec m) :
    ((s.step m).log.events spec.stream).take ((s.step m).replicas r).revision =
      (s.log.events spec.stream).take (s.replicas r).revision ++ (s.repeated? r m).toList := by
  cases repeated : s.repeated? r m with
  | none =>
    obtain ⟨rest, grown⟩ := step_grows s m spec.stream
    rw [silent_step exact repeated, ← grown, Option.toList_none, List.append_nil]
    exact List.take_append_of_le_length exact.seen.reflects.within
  | some event =>
    -- Whoever repeats an event on the replica is one of its own subscribers, and holds the next event.
    cases m with
    | consume i now jitter =>
      obtain ⟨f, there, repeats⟩ := Option.bind_eq_some_iff.mp repeated
      split at repeats
      · rename_i same
        subst same
        obtain ⟨sub, d, replica, t, phase, rfl, unseen, further, goes⟩ :=
          SubscriberTask.repeats?_eq_some (w := s.following f) repeats
        rcases exact.followers f (List.mem_of_getElem? there) with own | apart
        · have inStep := own.inStep
          rw [phase] at inStep
          have next : (s.log.events spec.stream)[(s.replicas f.replica).revision]? = some d.event :=
            Consuming.next_event exact.seen.inPlace inStep.2.2.1 inStep.2.2.2 unseen
          have place : d.revision = (s.replicas f.replica).revision + 1 := exact.seen.inPlace _ _ next
          have consumes : s.consume? i now jitter =
              some (s.followed i { f with task := t } { s.following f with replica }) :=
            consume?_eq_some.mpr ⟨f, t, _, there, goes f.spec jitter now, rfl⟩
          simp only [step, consumes, Option.getD_some]
          show ((s.log.events spec.stream).take (Function.update s.replicas f.replica replica f.replica).revision) = _
          rw [Function.update_self, further, place, List.take_add_one, next]
        · exact absurd rfl apart.replica
      · cases repeats
    | _ => cases repeated

theorem exact_run {moves : List Move} (exact : s.Exact r l spec) (alone : ∀ m ∈ moves, Alone r l spec m) :
    (s.run moves).Exact r l spec ∧ Advance spec.stream spec.group (s.seen r l) ((s.run moves).seen r l) ∧
      ((s.run moves).log.events spec.stream).take ((s.run moves).replicas r).revision =
        (s.log.events spec.stream).take (s.replicas r).revision ++ s.replayed r moves := by
  induction moves generalizing s with
  | nil => exact ⟨exact, .refl _, (List.append_nil _).symm⟩
  | cons m rest ih =>
    obtain ⟨after, advance⟩ := exact_step exact (alone m (.head _))
    obtain ⟨final, further, told⟩ := ih after fun other member => alone other (.tail _ member)
    refine ⟨final, advance.trans further, ?_⟩
    show _ = _ ++ ((s.repeated? r m).toList ++ (s.step m).replayed r rest)
    rw [← List.append_assoc, ← told_step exact (alone m (.head _))]
    exact told

/-- A replica that is locked down stays as it is, and nothing is repeated on it any more. -/
theorem locked_run {moves : List Move} (exact : s.Exact r l spec) (alone : ∀ m ∈ moves, Alone r l spec m)
    (locked : s.lockdowns l = true) :
    (s.run moves).lockdowns l = true ∧ (s.run moves).replicas r = s.replicas r ∧ s.replayed r moves = [] := by
  obtain ⟨_, advance, told⟩ := exact_run exact alone
  have same : (s.run moves).replicas r = s.replicas r := advance.stuck (exact.seen.stuck locked)
  refine ⟨advance.lockdown locked, same, ?_⟩
  have within : (s.replicas r).revision ≤ (s.log.events spec.stream).length := exact.seen.reflects.within
  obtain ⟨rest, grown⟩ := run_grows s moves spec.stream
  rw [same, ← grown, List.take_append_of_le_length within] at told
  exact List.self_eq_append_right.mp told

/-- Of events that stand at their revisions, the first so many have the first so many revisions. -/
private theorem numbered_take {events : List Recorded} (inPlace : InPlace events) {n : Nat}
    (within : n ≤ events.length) :
    (events.take n).map (·.revision) = List.range' 1 n := by
  refine List.ext_getElem ?_ ?_
  · rw [List.length_map, List.length_take_of_le within, List.length_range']
  · intro p here there
    have place := inPlace p _ (List.getElem?_eq_getElem (Nat.lt_of_lt_of_le (by simpa using there) within))
    simpa [Nat.add_comm 1] using place

/-- What holds of a replica, its group and its lockdown after a schedule. -/
structure AppliedOnce (r l : Nat) (spec : SubscriberSpec) (moves : List Move) (s : System) : Prop where
  /-- What was repeated on the replica are the events of the stream up to its revision. -/
  replayed : ({} : System).replayed r moves = (s.log.events spec.stream).take (s.replicas r).revision
  /-- Each of them was repeated once, and in order. -/
  numbered : (({} : System).replayed r moves).map (·.revision) = List.range' 1 (s.replicas r).revision
  reflects : (s.replicas r).Reflects (s.log.events spec.stream)
  announced : (s.currents r).value ≤ (s.replicas r).revision
  /-- Until it sets an event aside, the group is where the replica is or one event behind it. -/
  group : ∀ state, s.log.group? spec.stream spec.group = some state → state.parked = [] →
    state.position = (s.replicas r).revision ∨ state.position + 1 = (s.replicas r).revision
  stuck : s.lockdowns l = true → (s.replicas r).Stuck (s.log.events spec.stream)
  /-- Nothing is repeated on a replica that is locked down, whatever happens next. -/
  frozen : s.lockdowns l = true → ∀ more, (∀ m ∈ more, Alone r l spec m) →
    (s.run more).lockdowns l = true ∧ (s.run more).replicas r = s.replicas r ∧ s.replayed r more = []

/-- A replica whose subscribers have a group of their own repeats each event once, however often it is
delivered. -/
theorem applied_once (r l : Nat) (spec : SubscriberSpec) (moves : List Move)
    (alone : ∀ m ∈ moves, Alone r l spec m) : AppliedOnce r l spec moves (({} : System).run moves) := by
  obtain ⟨exact, _, told⟩ := exact_run (exact_start r l spec) alone
  have nothing : (({} : System).log.events spec.stream).take (({} : System).replicas r).revision = [] := rfl
  rw [nothing, List.nil_append] at told
  refine ⟨told.symm, ?_, exact.seen.reflects, exact.seen.announced, ?_, exact.seen.stuck, ?_⟩
  · rw [← told]
    exact numbered_take exact.seen.inPlace exact.seen.reflects.within
  · intro state there unparked
    rcases Nat.lt_or_eq_of_le (exact.seen.behind state there unparked) with behind | same
    · exact .inr (Nat.le_antisymm behind (exact.seen.near state there))
    · exact .inl same
  · exact fun locked more others => locked_run exact others locked

/-- A subscriber loses its subscription before it can acknowledge the first event, which is delivered again;
then it meets an event that can not be repeated. -/
def interrupted : List Move :=
  let goes (steps now : Nat) : List Move := List.replicate steps (.consume 0 now .zero)
  [.append "policy" 0 [Adjudication.record (.policyClassCreated ⟨1⟩ "a")], .follow 0 0 usual] ++ goes 7 0 ++
    [.cancel] ++ goes 3 0 ++ goes 10 100 ++ [.append "policy" 1 [⟨"", []⟩]] ++ goes 21 100

/-- The first event is repeated once, and the second never. -/
theorem interrupted_applied_once :
    (∀ m ∈ interrupted, Alone 0 0 usual m) ∧ (({} : System).run interrupted).lockdowns 0 = true ∧
      ((({} : System).run interrupted).log.events "policy").length = 2 ∧
      (({} : System).replayed 0 interrupted).length = 1 ∧
      AppliedOnce 0 0 usual interrupted (({} : System).run interrupted) := by
  have alone : ∀ m ∈ interrupted, Alone 0 0 usual m := by
    simp [interrupted, Alone]
  exact ⟨alone, by decide +kernel, by decide +kernel, by decide +kernel, applied_once 0 0 usual interrupted alone⟩

end System
end PolicyLedger
