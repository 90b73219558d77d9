import Mathlib.Logic.Relation
import PolicyLedger.Proofs.InOrder
import PolicyLedger.Proofs.Payloads

/-!
Groups that are shared. Events are applied in order whatever happens exactly if no two subscribers of
different replicas, or under different lockdowns, use the same group. For whoever acknowledges or sets
aside an event moves the group for all its members, and the others never get to see that event.
-/
namespace PolicyLedger
open PolicyLedger.Action

/-- The delivery a subscriber is about to apply. -/
def Follower.applying? (f : Follower) : Option Delivery :=
  match f.task.phase with
  | .consuming _ (.applying d) => some d
  | _ => none

namespace System

/-- An event about to be applied is the next one for its replica, unless that has seen it; and all replicas
are replays of the stream up to their revisions. -/
structure InOrder (stream : String) (s : System) : Prop where
  next : ∀ f ∈ s.followers, ∀ d, f.applying? = some d → (s.replicas f.replica).revision < d.revision →
    d.revision = (s.replicas f.replica).revision + 1
  reflects : ∀ j, (s.replicas j).Reflects (s.log.events stream)

private theorem InStep.inOrder {stream : String} {owner : String → Nat × Nat} {s : System}
    (inStep : s.InStep stream owner) : s.InOrder stream where
  next f member d applying unseen := by
    obtain ⟨_, _, safe⟩ := inStep.followers f member
    unfold Follower.applying? at applying
    split at applying
    · rename_i phase
      cases applying
      rw [phase] at safe
      exact Nat.le_antisymm safe.2.2.2 unseen
    · cases applying
  reflects := inStep.reflects

/-- What may happen where it is told which subscribers of a stream there may be: of which replica and under
which lockdown. Requests restore the store, and anybody may append. -/
def Subscribes (stream : String) (may : Nat → Nat → SubscriberSpec → Prop) : Move → Prop
  | .call _ _ _ spec => spec.Restores
  | .follow replica lockdown spec => spec.stream = stream ∧ may replica lockdown spec
  | _ => True

end System

/-! ### Runs of one subscriber -/

/-- The subscription a subscriber has as soon as it joined its group. -/
def SubscriberSpec.joined (spec : SubscriberSpec) (log : EventLog) : Subscription :=
  ⟨spec.stream, spec.group, log.generation⟩

namespace SubscriberTask

variable {spec : SubscriberSpec}

/-- One step of a subscriber, at some time. -/
def Goes (spec : SubscriberSpec) (before after : SubscriberTask × Following EventLog) : Prop :=
  ∃ jitter now, before.1.step spec jitter now before.2 = some after

/-- Any number of them. -/
abbrev Reaches (spec : SubscriberSpec) (before after : SubscriberTask × Following EventLog) : Prop :=
  Relation.ReflTransGen (Goes spec) before after

variable {s : Subscription} {c c' : Consuming} {b : Backoff} {w w' : Following EventLog}

/-- A step with deliveries is one of the subscriber. -/
private theorem reaches_of_step (stepped : c.step spec s w = some (c', w')) :
    Reaches spec (⟨.consuming s c, b⟩, w) (⟨.consuming s c', b⟩, w') := by
  refine .single ⟨spec.backoff.initial, 0, ?_⟩
  cases c with
  | finished result => cases stepped
  | _ => simp only [step, stepped]

/-- A subscriber that starts joins its group. -/
private theorem reaches_ready (free : w.lockdown = false) :
    Reaches spec (start spec, w)
      (⟨.consuming (spec.joined (w.log.withGroup spec.stream spec.group)) .ready, (start spec).backoff.reset⟩,
        { w with log := w.log.withGroup spec.stream spec.group }) := by
  have ensured := EventLog.ensureGroup_outcome spec w.log
  have subscribed : (EventLog.subscribe spec.stream spec.group).outcome (w.log.withGroup spec.stream spec.group) =
      (.ok (spec.joined (w.log.withGroup spec.stream spec.group)), w.log.withGroup spec.stream spec.group) := by
    rw [EventLog.subscribe, outcome_ofFunction, EventLog.group?_withGroup, if_pos ⟨rfl, rfl⟩]
    rfl
  let grouped : Following EventLog := { w with log := w.log.withGroup spec.stream spec.group }
  have looks : Goes spec (start spec, w) (⟨.creating, (start spec).backoff⟩, w) := by
    refine ⟨spec.backoff.initial, 0, ?_⟩
    simp only [step, start, free]
    rfl
  have creates : Goes spec (⟨.creating, (start spec).backoff⟩, w) (⟨.joining, (start spec).backoff⟩, grouped) := by
    refine ⟨spec.backoff.initial, 0, ?_⟩
    simp only [step, Following.onLog, ensured]
    rfl
  have joins : Goes spec (⟨.joining, (start spec).backoff⟩, grouped)
      (⟨.consuming (spec.joined grouped.log) .ready, (start spec).backoff.reset⟩, grouped) := by
    refine ⟨spec.backoff.initial, 0, ?_⟩
    simp only [step, Following.onLog]
    rw [EventLog.service_subscribe, subscribed]
  exact .head looks (.head creates (.single joins))

variable {group : ConsumerGroup} {event : Recorded}

/-- A subscriber that is ready takes the event its group waits for. -/
private theorem reaches_applying (free : w.lockdown = false) (awaits : w.log.Awaits s group event) :
    Reaches spec (⟨.consuming s .ready, b⟩, w) (⟨.consuming s (.applying ⟨event, group.retryCount⟩), b⟩, w) := by
  have looks : Consuming.ready.step spec s w = some (.asking, w) := by simp [Consuming.step, free]
  have asks : Consuming.asking.step spec s w = some (.received ⟨event, group.retryCount⟩, w) := by
    simp only [Consuming.step, Following.onLog]
    rw [EventLog.service_next, awaits.next]
    rfl
  have looksAgain : (Consuming.received ⟨event, group.retryCount⟩).step spec s w =
      some (.applying ⟨event, group.retryCount⟩, w) := by simp [Consuming.step, free]
  exact (reaches_of_step looks).trans ((reaches_of_step asks).trans (reaches_of_step looksAgain))

/-- An event that could be applied is acknowledged. -/
private theorem reaches_announcing {d : Delivery} {replica : Replica}
    (applied : (Consuming.applyDelivery d).outcome w.replica = (.ok (), replica))
    (awaits : w.log.Awaits s group d.event) :
    Reaches spec (⟨.consuming s (.applying d), b⟩, w) (⟨.consuming s (.announcing d.revision), b⟩,
      { w with replica, log := w.log.setGroup s.stream s.group group.advance }) := by
  have applies : (Consuming.applying d).step spec s w = some (.acknowledging d, { w with replica }) := by
    simp only [Consuming.step, Following.onReplica, applied]
  have acknowledges : (Consuming.acknowledging d).step spec s { w with replica } = some (.announcing d.revision,
      { w with replica, log := w.log.setGroup s.stream s.group group.advance }) := by
    simp only [Consuming.step, Following.onLog]
    rw [EventLog.service_acknowledge, EventLog.acknowledge,
      show (EventLog.answer s d.revision _).outcome w.log = _ from awaits.answer ConsumerGroup.advance]
  exact (reaches_of_step applies).trans (reaches_of_step acknowledges)

/-- A group that is told to try its event again, and one that is told to leave it. -/
def retried (group : ConsumerGroup) : ConsumerGroup := { group with retryCount := group.retryCount + 1 }

def parked (group : ConsumerGroup) (revision : Revision) : ConsumerGroup :=
  ConsumerGroup.advance { group with parked := group.parked ++ [revision] }

private theorem retry_step {d : Delivery} (e : ReplayError) (awaits : w.log.Awaits s group d.event) :
    (Consuming.rejecting d e .retry).step spec s w =
      some (.ready, { w with log := w.log.setGroup s.stream s.group (retried group) }) := by
  simp only [Consuming.step, Following.onLog]
  rewrite [EventLog.service_reject, EventLog.reject,
    show (EventLog.answer s d.revision _).outcome w.log = _ from awaits.answer _]
  rfl

private theorem park_step {d : Delivery} (e : ReplayError) (awaits : w.log.Awaits s group d.event) :
    (Consuming.rejecting d e .park).step spec s w =
      some (.ready, { w with log := w.log.setGroup s.stream s.group (parked group d.revision) }) := by
  simp only [Consuming.step, Following.onLog]
  rewrite [EventLog.service_reject, EventLog.reject,
    show (EventLog.answer s d.revision _).outcome w.log = _ from awaits.answer _]
  rfl

/-- An event that always fails is tried as often as it may be, then set aside, and the lockdown is engaged. -/
private theorem reaches_parked (spec : SubscriberSpec) (free : w.lockdown = false) (awaits : w.log.Awaits s group event)
    (fails : ∀ n, ∃ e, (Consuming.applyDelivery ⟨event, n⟩).outcome w.replica = (.error e, w.replica)) :
    ∃ log group', Reaches spec (⟨.consuming s .ready, b⟩, w)
        (⟨.consuming s .ready, b⟩, { w with log, lockdown := true }) ∧
      log.streams = w.log.streams ∧ log.group? s.stream s.group = some group' ∧
        group'.position = group.position + 1 := by
  obtain ⟨e, failed⟩ := fails group.retryCount
  have taken : Reaches spec (⟨.consuming s .ready, b⟩, w)
      (⟨.consuming s (.applying ⟨event, group.retryCount⟩), b⟩, w) := reaches_applying free awaits
  -- Each time the group is told to try again, one time less is left.
  induction budget : spec.maxRedeliveries.toNat - group.retryCount.toNat generalizing group w e with
  | zero =>
    have spent : ¬ group.retryCount < spec.maxRedeliveries := by
      rw [UInt32.lt_iff_toNat_lt]
      omega
    have locks : (Consuming.applying ⟨event, group.retryCount⟩).step spec s w =
        some (.lockingDown ⟨event, group.retryCount⟩ e, w) := by
      simp only [Consuming.step, Following.onReplica, failed]
      rw [if_neg spent]
    have engages : (Consuming.lockingDown ⟨event, group.retryCount⟩ e).step spec s w =
        some (.rejecting ⟨event, group.retryCount⟩ e .park, { w with lockdown := true }) := rfl
    have parks : (Consuming.rejecting ⟨event, group.retryCount⟩ e .park).step spec s { w with lockdown := true } =
        some (.ready, { w with
          lockdown := true, log := w.log.setGroup s.stream s.group (parked group event.revision) }) :=
      park_step e ⟨awaits.valid, awaits.there, awaits.waits⟩
    have rejected := taken.trans
      ((reaches_of_step locks).trans ((reaches_of_step engages).trans (reaches_of_step parks)))
    refine ⟨_, parked group event.revision, rejected, rfl, ?_, rfl⟩
    rw [EventLog.group?_setGroup, if_pos ⟨rfl, rfl⟩]
  | succ n ih =>
    have left : group.retryCount < spec.maxRedeliveries := by
      rw [UInt32.lt_iff_toNat_lt]
      omega
    have tries : (Consuming.applying ⟨event, group.retryCount⟩).step spec s w =
        some (.rejecting ⟨event, group.retryCount⟩ e .retry, w) := by
      simp only [Consuming.step, Following.onReplica, failed]
      rw [if_pos left]
    have again := taken.trans ((reaches_of_step tries).trans (reaches_of_step (retry_step e awaits)))
    have there : (w.log.setGroup s.stream s.group (retried group)).group? s.stream s.group = some (retried group) := by
      rw [EventLog.group?_setGroup, if_pos ⟨rfl, rfl⟩]
    have still : (w.log.setGroup s.stream s.group (retried group)).Awaits s (retried group) event :=
      ⟨awaits.valid, there, awaits.waits⟩
    have less : spec.maxRedeliveries.toNat - (retried group).retryCount.toNat = n := by
      rw [retried, toNat_succ_of_lt left]
      omega
    obtain ⟨e', failed'⟩ := fails (retried group).retryCount
    obtain ⟨log, group', reached, streams, found, moved⟩ :=
      ih (w := { w with log := w.log.setGroup s.stream s.group (retried group) }) free still fails e' failed'
        (reaches_applying free still) less
    exact ⟨log, group', again.trans reached, streams, found, moved⟩

end SubscriberTask

namespace System

variable {s : System} {i : Nat} {f : Follower}

/-- What a subscriber can reach by itself, some schedule makes it reach. -/
private theorem run_of_reaches {after : SubscriberTask × Following EventLog} (there : s.followers[i]? = some f)
    (reaches : SubscriberTask.Reaches f.spec (f.task, s.following f) after) :
    ∃ moves : List Move, (∀ m ∈ moves, ∃ now jitter, m = .consume i now jitter) ∧
      s.run moves = s.followed i { f with task := after.1 } after.2 := by
  induction reaches with
  | refl =>
    refine ⟨[], nofun, ?_⟩
    have known := (List.getElem?_eq_some_iff.mp there).2
    simp only [run_nil, followed, following, Function.update_eq_self]
    rw [← known, List.set_getElem_self]
  | @tail middle after _ goes ih =>
    obtain ⟨moves, own, ran⟩ := ih
    obtain ⟨jitter, now, stepped⟩ := goes
    refine ⟨moves ++ [.consume i now jitter], ?_, ?_⟩
    · intro m member
      rcases List.mem_append.mp member with old | last
      · exact own m old
      · exact ⟨now, jitter, List.mem_singleton.mp last⟩
    · have known := (List.getElem?_eq_some_iff.mp there).1
      have found : (s.followed i { f with task := middle.1 } middle.2).followers[i]? =
          some { f with task := middle.1 } := List.getElem?_set_self known
      have sees : (s.followed i { f with task := middle.1 } middle.2).following { f with task := middle.1 } =
          middle.2 := by simp only [followed, following, Function.update_self]
      have consumes : (s.followed i { f with task := middle.1 } middle.2).consume? i now jitter =
          some ((s.followed i { f with task := middle.1 } middle.2).followed i { f with task := after.1 } after.2) := by
        refine consume?_eq_some.mpr ⟨_, after.1, after.2, found, ?_, rfl⟩
        rw [sees]
        exact stepped
      rw [run_snoc, ran]
      simp only [step, consumes, Option.getD_some]
      simp only [followed, Function.update_idem, List.set_set]

variable {stream : String} {may : Nat → Nat → SubscriberSpec → Prop}

private theorem subscribes_consume {i : Nat} {moves : List Move}
    (own : ∀ m ∈ moves, ∃ now jitter, m = .consume i now jitter) : ∀ m ∈ moves, Subscribes stream may m := by
  intro m member
  obtain ⟨_, _, rfl⟩ := own m member
  trivial

/-- A subscriber whose group is beyond its replica takes an event out of order. -/
private theorem leaves_order {r l : Nat} {spec : SubscriberSpec} {state : ConsumerGroup} {first : Recorded}
    (known : may r l spec) (stands : s.log.events spec.stream = [first])
    (there : s.log.group? spec.stream spec.group = some state) (moved : state.position = 1)
    (fresh : (s.replicas r).revision = 0) (free : s.lockdowns l = false) :
    ∃ moves, (∀ m ∈ moves, Subscribes spec.stream may m) ∧ ¬ (s.run moves).InOrder spec.stream := by
  have current : s.log.tail spec.stream = 1 := by rw [EventLog.tail, stands]; rfl
  obtain ⟨revision, log, appended⟩ := EventLog.append_succeeds [⟨"", []⟩] current
  obtain ⟨_, _, grown, _, groups, generation⟩ := EventLog.append_ok appended
  -- The newcomer works on the log with one more event, and its own replica and lockdown.
  let f : Follower := ⟨r, l, spec, .start spec⟩
  let t : System := { s with log, followers := s.followers ++ [f] }
  have begun : s.run [.append spec.stream 1 [⟨"", []⟩], .follow r l spec] = t := by
    simp only [run, List.foldl_cons, List.foldl_nil, step, appended]
    rfl
  have member : t.followers[s.followers.length]? = some f := List.getElem?_concat_length
  have found : log.group? spec.stream spec.group = some state := by
    unfold EventLog.group? at there ⊢
    rw [groups]
    exact there
  have joined : (log.withGroup spec.stream spec.group).group? spec.stream spec.group = some state := by
    rw [EventLog.group?_withGroup, if_pos ⟨rfl, rfl⟩, found]
    rfl
  have waits : ((log.withGroup spec.stream spec.group).events spec.stream)[state.position]? =
      some ⟨spec.stream, 2, "", []⟩ := by
    rw [events_of_streams (EventLog.withGroup_streams ..), grown, stands, moved]
    rfl
  have awaits : (log.withGroup spec.stream spec.group).Awaits (spec.joined (log.withGroup spec.stream spec.group))
      state ⟨spec.stream, 2, "", []⟩ := ⟨rfl, joined, waits⟩
  have reaches : SubscriberTask.Reaches spec (.start spec, t.following f) _ :=
    (SubscriberTask.reaches_ready free).trans (SubscriberTask.reaches_applying free awaits)
  obtain ⟨moves, own, ran⟩ := run_of_reaches member reaches
  refine ⟨[.append spec.stream 1 [⟨"", []⟩], .follow r l spec] ++ moves, ?_, ?_⟩
  · intro m among
    rcases List.mem_append.mp among with first | own'
    · simp only [List.mem_cons, List.not_mem_nil, or_false] at first
      rcases first with rfl | rfl
      · trivial
      · exact ⟨rfl, known⟩
    · exact subscribes_consume own m own'
  · intro inOrder
    rw [run_append, begun, ran] at inOrder
    have inside : s.followers.length < t.followers.length := (List.getElem?_eq_some_iff.mp member).1
    have still : (Function.update t.replicas r (s.replicas r) r).revision = 0 := by
      rw [Function.update_self]
      exact fresh
    have next := inOrder.next _ (List.mem_set inside _) ⟨⟨spec.stream, 2, "", []⟩, state.retryCount⟩ rfl
    have skips : 0 < 2 → 2 = 0 + 1 := still ▸ next
    exact absurd (skips (by decide)) (by decide)

/-- A log with one event, and one subscriber to it that has not done anything. -/
def alone (r l : Nat) (spec : SubscriberSpec) (record : Record) : System :=
  ({} : System).run [.append spec.stream 0 [record], .follow r l spec]

private theorem alone_log (r l : Nat) (spec : SubscriberSpec) (record : Record) :
    (alone r l spec record).log.events spec.stream = [⟨spec.stream, 1, record.schema, record.data⟩] := by
  have current : ({} : EventLog).tail spec.stream = 0 := rfl
  obtain ⟨revision, log, appended⟩ := EventLog.append_succeeds [record] current
  show ((EventLog.append spec.stream 0 [record]).outcome {}).2.events spec.stream = _
  rw [appended, (EventLog.append_ok appended).2.2.1]
  rfl

/-- Where one subscriber has moved its group, another of the group misses the event. -/
private theorem overtaken {r l r' l' : Nat} {spec spec' : SubscriberSpec} {record : Record} {task : SubscriberTask}
    {w : Following EventLog} {state : ConsumerGroup} (known : may r l spec) (known' : may r' l' spec')
    (stream : spec.stream = spec'.stream) (group : spec.group = spec'.group)
    (reaches : SubscriberTask.Reaches spec
      (.start spec, (alone r l spec record).following ⟨r, l, spec, .start spec⟩) (task, w))
    (same : w.log.streams = (alone r l spec record).log.streams)
    (there : w.log.group? spec.stream spec.group = some state) (moved : state.position = 1)
    (fresh : r' = r → w.replica.revision = 0) (free : l' = l → w.lockdown = false) :
    ∃ moves, (∀ m ∈ moves, Subscribes spec.stream may m) ∧ ¬ (({} : System).run moves).InOrder spec.stream := by
  let f : Follower := ⟨r, l, spec, .start spec⟩
  obtain ⟨moves, own, ran⟩ := run_of_reaches (s := alone r l spec record) (i := 0) (f := f) rfl reaches
  have stands : ((alone r l spec record).followed 0 { f with task } w).log.events spec'.stream = _ :=
    (events_of_streams same _).trans (stream ▸ alone_log r l spec record)
  have unapplied : (((alone r l spec record).followed 0 { f with task } w).replicas r').revision = 0 := by
    show (Function.update (alone r l spec record).replicas r w.replica r').revision = 0
    rw [Function.update_apply]
    split
    · exact fresh ‹_›
    · rfl
  have unlocked : ((alone r l spec record).followed 0 { f with task } w).lockdowns l' = false := by
    show Function.update (alone r l spec record).lockdowns l w.lockdown l' = false
    rw [Function.update_apply]
    split
    · exact free ‹_›
    · rfl
  obtain ⟨more, others, outOfOrder⟩ :=
    leaves_order known' stands (by rw [← stream, ← group]; exact there) moved unapplied unlocked
  rw [← stream] at others outOfOrder
  refine ⟨[.append spec.stream 0 [record], .follow r l spec] ++ (moves ++ more), ?_, ?_⟩
  · intro m among
    rcases List.mem_append.mp among with first | among
    · simp only [List.mem_cons, List.not_mem_nil, or_false] at first
      rcases first with rfl | rfl
      · trivial
      · exact ⟨rfl, known⟩
    · rcases List.mem_append.mp among with own' | other
      · exact subscribes_consume own m own'
      · exact others m other
  · rw [run_append, run_append]
    show ¬ (((alone r l spec record).run moves).run more).InOrder spec.stream
    rw [ran]
    exact outOfOrder

/-- The one subscriber joins its group, which then waits for the one event. -/
private theorem alone_ready (r l : Nat) (spec : SubscriberSpec) (record : Record) :
    ∃ b log, SubscriberTask.Reaches spec
        (.start spec, (alone r l spec record).following ⟨r, l, spec, .start spec⟩)
        (⟨.consuming (spec.joined log) .ready, b⟩, ⟨log, {}, ⟨0, 0⟩, false⟩) ∧
      log.streams = (alone r l spec record).log.streams ∧
      log.Awaits (spec.joined log) {} ⟨spec.stream, 1, record.schema, record.data⟩ := by
  have joins : SubscriberTask.Reaches spec
      (.start spec, (alone r l spec record).following ⟨r, l, spec, .start spec⟩) _ := SubscriberTask.reaches_ready rfl
  have unused : (alone r l spec record).log.group? spec.stream spec.group = none := by
    unfold EventLog.group?
    rw [show (alone r l spec record).log.groups = ({} : EventLog).groups from append_groups ..]
    rfl
  refine ⟨_, _, joins, EventLog.withGroup_streams .., rfl, ?_, ?_⟩
  · show (EventLog.withGroup spec.stream spec.group _).group? spec.stream spec.group = some {}
    rw [EventLog.group?_withGroup, if_pos ⟨rfl, rfl⟩]
    show some (((alone r l spec record).log.group? spec.stream spec.group).getD {}) = _
    rw [unused]
    rfl
  · show ((EventLog.withGroup spec.stream spec.group _).events spec.stream)[0]? = _
    rw [events_of_streams (EventLog.withGroup_streams ..)]
    exact congrArg (fun events => events[0]?) (alone_log r l spec record)

/-- One of two replicas that share a group can miss an event that the other one applied. -/
private theorem missed_applied {r l r' l' : Nat} {spec spec' : SubscriberSpec} (known : may r l spec)
    (known' : may r' l' spec') (stream : spec.stream = spec'.stream) (group : spec.group = spec'.group)
    (differ : r' ≠ r) :
    ∃ moves, (∀ m ∈ moves, Subscribes spec.stream may m) ∧ ¬ (({} : System).run moves).InOrder spec.stream := by
  let e : Event := .resourceOperationsSet ∅
  let d : Delivery := ⟨⟨spec.stream, 1, e.schema, e.toBytes⟩, 0⟩
  have decoded : d.event.event = .ok e := Event.ofBytes_toBytes (by decide)
  have unseen : ¬ d.revision ≤ ({} : Replica).revision := Nat.not_succ_le_zero 0
  have applied : (Consuming.applyDelivery d).outcome ({} : Replica) = (.ok (), ⟨{}, 1⟩) := by
    rw [Consuming.applyDelivery_outcome, if_neg unseen, Replica.applyRecorded_outcome, Graph.replayRecord, decoded]
    rfl
  obtain ⟨b, log, ready, same, awaits⟩ := alone_ready r l spec ⟨e.schema, e.toBytes⟩
  have takes : SubscriberTask.Reaches spec (⟨.consuming (spec.joined log) .ready, b⟩, _)
      (_, ⟨log, {}, ⟨0, 0⟩, false⟩) := SubscriberTask.reaches_applying rfl awaits
  have acknowledges : SubscriberTask.Reaches spec
      (⟨.consuming (spec.joined log) (.applying d), b⟩, ⟨log, {}, ⟨0, 0⟩, false⟩) _ :=
    SubscriberTask.reaches_announcing applied awaits
  have moved : (log.setGroup spec.stream spec.group (ConsumerGroup.advance {})).group? spec.stream spec.group =
      some (ConsumerGroup.advance {}) := by rw [EventLog.group?_setGroup, if_pos ⟨rfl, rfl⟩]
  exact overtaken known known' stream group (ready.trans (takes.trans acknowledges)) same moved rfl
    (fun same => absurd same differ) fun _ => rfl

/-- A lockdown does not stop a subscriber that looks at another one from missing the event set aside. -/
private theorem missed_parked {r l r' l' : Nat} {spec spec' : SubscriberSpec} (known : may r l spec)
    (known' : may r' l' spec') (stream : spec.stream = spec'.stream) (group : spec.group = spec'.group)
    (differ : l' ≠ l) :
    ∃ moves, (∀ m ∈ moves, Subscribes spec.stream may m) ∧ ¬ (({} : System).run moves).InOrder spec.stream := by
  obtain ⟨b, log, ready, same, awaits⟩ := alone_ready r l spec ⟨"", []⟩
  have fails : ∀ n, ∃ e,
      (Consuming.applyDelivery ⟨⟨spec.stream, 1, "", []⟩, n⟩).outcome ({} : Replica) = (.error e, {}) := by
    intro n
    have unseen : ¬ (⟨⟨spec.stream, 1, "", []⟩, n⟩ : Delivery).revision ≤ ({} : Replica).revision :=
      Nat.not_succ_le_zero 0
    exact ⟨_, by rw [Consuming.applyDelivery_outcome, if_neg unseen]; rfl⟩
  obtain ⟨log', state, parks, same', there', moved⟩ := SubscriberTask.reaches_parked spec (s := spec.joined log)
    (b := b) (w := ⟨log, {}, ⟨0, 0⟩, false⟩) rfl awaits fails
  exact overtaken known known' stream group (ready.trans parks) (same'.trans same) there' moved (fun _ => rfl)
    fun same => absurd same differ

/-- Events are applied in order whatever happens exactly if those who may use a group of the stream are
subscribers of one replica under one lockdown. -/
theorem in_order_iff_unshared (stream : String) (may : Nat → Nat → SubscriberSpec → Prop) :
    (∀ moves : List Move, (∀ m ∈ moves, Subscribes stream may m) → (({} : System).run moves).InOrder stream) ↔
      ∀ r l spec r' l' spec', may r l spec → may r' l' spec' → spec.stream = stream → spec'.stream = stream →
        spec.group = spec'.group → r = r' ∧ l = l' := by
  constructor
  · intro always r l spec r' l' spec' known known' stands stands' group
    by_contra shared
    have missed : ∃ moves, (∀ m ∈ moves, Subscribes stream may m) ∧ ¬ (({} : System).run moves).InOrder stream := by
      rcases Decidable.not_and_iff_not_or_not.mp shared with differ | differ
      · exact stands ▸ missed_applied known known' (stands.trans stands'.symm) group (Ne.symm differ)
      · exact stands ▸ missed_parked known known' (stands.trans stands'.symm) group (Ne.symm differ)
    obtain ⟨moves, subscribe, outOfOrder⟩ := missed
    exact outOfOrder (always moves subscribe)
  · classical
    intro unshared moves subscribe
    -- The owner of a group is whoever may use it; that it is the only one is what is given.
    let used (group : String) (owner : Nat × Nat) : Prop :=
      ∃ spec, may owner.1 owner.2 spec ∧ spec.stream = stream ∧ spec.group = group
    let owner (group : String) : Nat × Nat := if h : ∃ owner, used group owner then h.choose else (0, 0)
    refine (inStep_run (inStep_start stream owner) fun m member => ?_).inOrder
    cases m with
    | call => exact subscribe _ member
    | follow r l spec =>
      obtain ⟨stands, known⟩ := subscribe _ member
      have used' : ∃ owner, used spec.group owner := ⟨(r, l), spec, known, stands, rfl⟩
      obtain ⟨spec', known', stands', group⟩ := used'.choose_spec
      obtain ⟨sameReplica, sameLockdown⟩ := unshared _ _ _ _ _ _ known' known stands' stands group
      refine ⟨stands, ?_⟩
      show (if h : ∃ owner, used spec.group owner then h.choose else (0, 0)) = (r, l)
      rw [dif_pos used']
      exact Prod.ext sameReplica sameLockdown
    | _ => trivial

/-- Of two replicas in the usual group, one applies the first event, then the other the second. -/
def skipping : List Move :=
  let first := Event.policyClassCreated ⟨1⟩ "a"
  let second := Event.policyClassCreated ⟨2⟩ "b"
  [.append "policy" 0 [Adjudication.record first], .follow 0 0 usual, .follow 1 1 usual] ++
    List.replicate 8 (.consume 0 0 (.ofSecs 0)) ++ [.append "policy" 1 [Adjudication.record second]] ++
      List.replicate 7 (.consume 1 0 (.ofSecs 0))

/-- That takes a replica that starts at nothing to the second revision without the first event. -/
theorem skipping_out_of_order :
    (∀ m ∈ skipping, Subscribes "policy" (fun _ _ spec => spec = usual) m) ∧
      ((({} : System).run skipping).replicas 1).revision = 2 ∧ ¬ (({} : System).run skipping).InOrder "policy" := by
  refine ⟨?_, by decide +kernel, ?_⟩
  · have usuals : usual.stream = "policy" := rfl
    simp [skipping, Subscribes, usuals]
  · intro inOrder
    have replayed := (inOrder.reflects 1).replayed
    revert replayed
    decide +kernel

end System

end PolicyLedger
