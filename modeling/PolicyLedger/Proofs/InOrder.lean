import PolicyLedger.Proofs.Growth

/-!
Events applied in order. A replica only checks that an event is new to it, not that it is the next one.
That no event is missed rests on the group: it is never further than the replica, unless the replica is
locked down. So it holds as long as nobody but the subscribers of one replica, under one lockdown, moves
the group.
-/
namespace PolicyLedger
open PolicyLedger.Action

/-- What a stream holds at some place it holds there as it grows. -/
theorem getElem?_mono {events more : List Recorded} {p : Nat} {event : Recorded} (grows : events <+: more)
    (found : events[p]? = some event) : more[p]? = some event := by
  obtain ⟨rest, rfl⟩ := grows
  rw [List.getElem?_append_left (List.getElem?_eq_some_iff.mp found).1]
  exact found

/-- Every event stands at its revision. -/
def InPlace (events : List Recorded) : Prop :=
  ∀ (p : Nat) (event : Recorded), events[p]? = some event → event.revision = p + 1

/-- An event that is new to a replica, but not beyond the next one, is the next one. -/
theorem InPlace.next {events : List Recorded} {p : Nat} {event : Recorded} {revision : Revision}
    (inPlace : InPlace events) (found : events[p]? = some event) (next : event.revision ≤ revision + 1)
    (unseen : ¬ event.revision ≤ revision) : p = revision := by
  have place : event.revision = p + 1 := inPlace p event found
  have notAbove : p + 1 ≤ revision + 1 := place ▸ next
  have notBelow : ¬ p + 1 ≤ revision := place ▸ unseen
  omega

/-- A replica that is the replay of all events of a stream up to its revision. -/
structure Replica.Reflects (events : List Recorded) (r : Replica) : Prop where
  within : r.revision ≤ events.length
  replayed : Graph.replayRecords ∅ (events.take r.revision) = .ok r.store.graph

theorem Replica.Reflects.mono {events more : List Recorded} {r : Replica} (reflects : r.Reflects events)
    (grows : events <+: more) : r.Reflects more := by
  obtain ⟨rest, rfl⟩ := grows
  refine ⟨Nat.le_trans reflects.within (by simp), ?_⟩
  rw [List.take_append_of_le_length reflects.within]
  exact reflects.replayed

/-- A delivery that hands out an event of a stream. -/
def Delivery.From (events : List Recorded) (d : Delivery) : Prop := ∃ p : Nat, events[p]? = some d.event

private theorem Delivery.From.mono {events more : List Recorded} {d : Delivery} (stands : d.From events)
    (grows : events <+: more) : d.From more := by
  obtain ⟨p, found⟩ := stands
  exact ⟨p, getElem?_mono grows found⟩

/-- A group that is no further than a replica, as long as that is not locked down. -/
def Behind (log : EventLog) (stream group : String) (revision : Revision) (locked : Bool) : Prop :=
  ∀ state, log.group? stream group = some state → locked = false → state.position ≤ revision

namespace Consuming

/-- What has to hold of a subscriber, given the stream, how far its replica is and whether that is locked
down: it never holds an event that is not the next one for the replica or an old one. -/
def InStep (events : List Recorded) (revision : Revision) (locked : Bool) : Consuming → Prop
  | received d => d.From events ∧ (locked = false → d.revision ≤ revision + 1)
  | applying d => d.From events ∧ d.revision ≤ revision + 1
  | acknowledging d => d.revision ≤ revision
  | rejecting _ _ .park => locked = true
  | _ => True

private theorem InStep.mono {events more : List Recorded} {revision revision' : Revision} {locked locked' : Bool}
    {c : Consuming} (inStep : c.InStep events revision locked) (grows : events <+: more)
    (onward : revision ≤ revision') (lockdown : locked = true → locked' = true) : c.InStep more revision' locked' := by
  cases c with
  | received d =>
    refine ⟨inStep.1.mono grows, ?_⟩
    intro free
    have wasFree : locked = false := by
      cases locked with
      | false => rfl
      | true => rw [lockdown rfl] at free; cases free
    exact Nat.le_trans (inStep.2 wasFree) (Nat.succ_le_succ onward)
  | applying d => exact ⟨inStep.1.mono grows, Nat.le_trans inStep.2 (Nat.succ_le_succ onward)⟩
  | acknowledging d => exact Nat.le_trans inStep onward
  | rejecting d e rejection =>
    cases rejection with
    | retry => trivial
    | park => exact lockdown inStep
  | _ => trivial

variable {spec : SubscriberSpec} {s : Subscription} {c c' : Consuming} {w w' : Following EventLog}

/-- The next event takes a replica one step further along the stream, as the replay does. -/
theorem reflects_apply {events : List Recorded} {d : Delivery} {r r' : Replica} (inPlace : InPlace events)
    (stands : d.From events) (next : d.revision ≤ r.revision + 1) (reflects : r.Reflects events)
    (done : (applyDelivery d).outcome r = (.ok (), r')) : r'.Reflects events := by
  rw [applyDelivery_outcome] at done
  split at done
  · cases done
    exact reflects
  · rename_i unseen
    rw [Replica.applyRecorded_outcome] at done
    split at done
    · rename_i after replayed
      cases done
      obtain ⟨p, found⟩ := stands
      have place : d.event.revision = p + 1 := inPlace p d.event found
      have here : p = r.revision := inPlace.next found next unseen
      subst here
      refine ⟨place ▸ (List.getElem?_eq_some_iff.mp found).1, ?_⟩
      show Graph.replayRecords ∅ (events.take d.event.revision) = .ok after
      rw [place, List.take_add_one, found, Option.toList_some, Graph.replayRecords, List.foldlM_append, bind_eq_ok]
      refine ⟨r.store.graph, reflects.replayed, ?_⟩
      simp only [List.foldlM_cons, List.foldlM_nil, replayed]
      rfl
    · cases done

/-- What an answer about a delivery does to its own group; others it leaves alone. -/
private theorem behind_answer {move : ConsumerGroup → ConsumerGroup} {d : Delivery} {revision : Revision}
    {locked : Bool}
    {log log' : EventLog} (inPlace : InPlace (log.events s.stream))
    (behind : Behind log s.stream s.group revision locked)
    (moves : locked = false → ∀ group : ConsumerGroup, group.position ≤ revision → group.position + 1 = d.revision →
      (move group).position ≤ revision)
    (answered : ((EventLog.answer s d.revision move).outcome log).2 = log') :
    Behind log' s.stream s.group revision locked ∧
      ∀ group, group ≠ s.group → log'.group? s.stream group = log.group? s.stream group := by
  rcases EventLog.answer_cases s d.revision move log with same | ⟨group, current, moved⟩
  · rw [← answered, same]
    exact ⟨behind, fun _ _ => rfl⟩
  · obtain ⟨event, awaits, revises⟩ := EventLog.current_eq_some.mp current
    rw [← answered, moved]
    constructor
    · intro state found free
      rw [EventLog.group?_setGroup, if_pos ⟨rfl, rfl⟩] at found
      cases found
      exact moves free group (behind group awaits.there free) ((inPlace _ _ awaits.waits).symm.trans revises)
    · intro other differ
      rw [EventLog.group?_setGroup, if_neg fun both => differ both.2]

private theorem inStep_step (stepped : Stepped spec s w c c' w') (inPlace : InPlace (w.log.events s.stream))
    (reflects : w.replica.Reflects (w.log.events s.stream))
    (behind : Behind w.log s.stream s.group w.replica.revision w.lockdown)
    (inStep : c.InStep (w.log.events s.stream) w.replica.revision w.lockdown) :
    w'.replica.Reflects (w.log.events s.stream) ∧ Behind w'.log s.stream s.group w'.replica.revision w'.lockdown ∧
      (∀ group, group ≠ s.group → w'.log.group? s.stream group = w.log.group? s.stream group) ∧
      c'.InStep (w.log.events s.stream) w'.replica.revision w'.lockdown := by
  cases stepped with
  | look =>
    refine ⟨reflects, behind, fun _ _ => rfl, ?_⟩
    split <;> trivial
  | ask asks =>
    refine ⟨reflects, behind, fun _ _ => rfl, ?_⟩
    rcases asked : ((EventLog.next s).outcome w.log).1 with e | ⟨d⟩ | _ | _
    · trivial
    · obtain ⟨group, awaits⟩ := EventLog.next_ready asked
      refine ⟨⟨_, awaits.waits⟩, ?_⟩
      intro free
      have place : d.revision = group.position + 1 := inPlace _ _ awaits.waits
      rw [place]
      exact Nat.succ_le_succ (behind group awaits.there free)
    · trivial
    · trivial
  | lookAgain d =>
    refine ⟨reflects, behind, fun _ _ => rfl, ?_⟩
    cases locked : w.lockdown with
    | true => trivial
    | false => exact ⟨inStep.1, inStep.2 locked⟩
  | apply d done =>
    have moved := applyDelivery_revision d w.replica
    rw [done] at moved
    refine ⟨reflects_apply inPlace inStep.1 inStep.2 reflects done, ?_, fun _ _ => rfl, moved.2 rfl⟩
    exact fun state found free => Nat.le_trans (behind state found free) moved.1
  | fail d failed =>
    refine ⟨reflects, behind, fun _ _ => rfl, ?_⟩
    split <;> trivial
  | acknowledge d after answered =>
    have groups := behind_answer inPlace behind (fun _ _ _ next => Nat.le_trans (Nat.le_of_eq next) inStep) answered
    refine ⟨reflects, groups.1, groups.2, ?_⟩
    rcases after with rfl | ⟨_, rfl⟩ <;> trivial
  | announce revision => exact ⟨reflects, behind, fun _ _ => rfl, trivial⟩
  | lockDown d e => exact ⟨reflects, fun _ _ free => (nomatch free), fun _ _ => rfl, rfl⟩
  | reject d e rejection after answered =>
    have groups := behind_answer inPlace behind (fun free group bound _ => by
      cases rejection with
      | retry => exact bound
      | park => rw [show w.lockdown = true from inStep] at free; cases free) answered
    refine ⟨reflects, groups.1, groups.2, ?_⟩
    rcases after with rfl | ⟨_, rfl⟩ <;> trivial

end Consuming

namespace SubscriberTask

variable {spec : SubscriberSpec} {before after : Subscribing} {w w' : Following EventLog}

/-- The same of a subscriber as a whole: its subscription is one to its own group. -/
def InStep (spec : SubscriberSpec) (events : List Recorded) (revision : Revision) (locked : Bool) : Subscribing → Prop
  | .consuming s c => s.stream = spec.stream ∧ s.group = spec.group ∧ c.InStep events revision locked
  | _ => True

theorem InStep.mono {events more : List Recorded} {revision revision' : Revision} {locked locked' : Bool}
    {phase : Subscribing} (inStep : InStep spec events revision locked phase) (grows : events <+: more)
    (onward : revision ≤ revision') (lockdown : locked = true → locked' = true) :
    InStep spec more revision' locked' phase := by
  cases phase with
  | consuming s c => exact ⟨inStep.1, inStep.2.1, inStep.2.2.mono grows onward lockdown⟩
  | _ => trivial

theorem inStep_step (stepped : Stepped spec w before after w') (inPlace : InPlace (w.log.events spec.stream))
    (reflects : w.replica.Reflects (w.log.events spec.stream))
    (behind : Behind w.log spec.stream spec.group w.replica.revision w.lockdown)
    (inStep : InStep spec (w.log.events spec.stream) w.replica.revision w.lockdown before) :
    w'.replica.Reflects (w.log.events spec.stream) ∧
      Behind w'.log spec.stream spec.group w'.replica.revision w'.lockdown ∧
      (∀ group, group ≠ spec.group → w'.log.group? spec.stream group = w.log.group? spec.stream group) ∧
      InStep spec (w.log.events spec.stream) w'.replica.revision w'.lockdown after := by
  cases stepped with
  | idle free =>
    refine ⟨reflects, behind, fun _ _ => rfl, ?_⟩
    cases after with
    | consuming s c => exact absurd rfl (free s c)
    | _ => trivial
  | create free ensured =>
    refine ⟨reflects, ?_, ?_, ?_⟩
    · intro state found free
      rw [← ensured, EventLog.ensureGroup_outcome, EventLog.group?_withGroup, if_pos ⟨rfl, rfl⟩] at found
      cases there : w.log.group? spec.stream spec.group with
      | none =>
        rw [there] at found
        cases found
        exact Nat.zero_le _
      | some before =>
        rw [there] at found
        cases found
        exact behind before there free
    · intro group differ
      rw [← ensured, EventLog.ensureGroup_outcome, EventLog.group?_withGroup, if_neg fun both => differ both.2]
    · cases after with
      | consuming s c => exact absurd rfl (free s c)
      | _ => trivial
  | join joined =>
    rw [EventLog.subscribe, outcome_ofFunction] at joined
    split at joined <;> cases joined
    exact ⟨reflects, behind, fun _ _ => rfl, rfl, rfl, trivial⟩
  | @consume s c c' w' inner =>
    obtain ⟨stream, group, safe⟩ := inStep
    rw [← stream] at inPlace reflects behind safe ⊢
    rw [← group] at behind ⊢
    obtain ⟨reflects', behind', others, safe'⟩ := Consuming.inStep_step inner inPlace reflects behind safe
    exact ⟨reflects', behind', others, stream, group, safe'⟩

end SubscriberTask

/-! ### Whole systems -/

/-- A request that gives a store back as it got it. -/
def AdjudicationSpec.Restores {α : Type} (spec : AdjudicationSpec α) : Prop :=
  ∀ attempts store, (Adjudication.runScratch spec.plugins (spec.request attempts) store).2 = store

namespace System

/-- All replicas are replays of the stream, and no group is ahead of the replica it belongs to. -/
structure InStep (stream : String) (owner : String → Nat × Nat) (s : System) : Prop where
  inPlace : InPlace (s.log.events stream)
  reflects : ∀ j, (s.replicas j).Reflects (s.log.events stream)
  behind : ∀ group, Behind s.log stream group (s.replicas (owner group).1).revision (s.lockdowns (owner group).2)
  followers : ∀ f ∈ s.followers, f.spec.stream = stream ∧ owner f.spec.group = (f.replica, f.lockdown) ∧
    SubscriberTask.InStep f.spec (s.log.events stream) (s.replicas f.replica).revision (s.lockdowns f.lockdown)
      f.task.phase
  restores : ∀ c ∈ s.calls, c.spec.Restores

theorem inStep_start (stream : String) (owner : String → Nat × Nat) : ({} : System).InStep stream owner where
  inPlace := fun p event found => by cases found
  reflects := fun j => ⟨Nat.le_refl _, rfl⟩
  behind := fun group state found => by cases found
  followers := fun f member => absurd member List.not_mem_nil
  restores := fun c member => absurd member List.not_mem_nil

/-- What somebody may do: requests restore the store, and only subscribers of its owner use a group. -/
def Allowed (stream : String) (owner : String → Nat × Nat) : Move → Prop
  | .call _ _ _ spec => spec.Restores
  | .follow replica lockdown spec => spec.stream = stream ∧ owner spec.group = (replica, lockdown)
  | _ => True

theorem inPlace_append {log : EventLog} {stream stream' : String} {expected : Revision} {records : List Record}
    (inPlace : InPlace (log.events stream)) :
    InPlace (((EventLog.append stream' expected records).outcome log).2.events stream) := by
  rcases done : (EventLog.append stream' expected records).outcome log with ⟨e | revision, log'⟩
  · rwa [(EventLog.append_error done).1]
  · obtain ⟨current, _, grown, others, _⟩ := EventLog.append_ok done
    by_cases same : stream = stream'
    · subst same
      intro p event found
      rw [grown] at found
      by_cases old : p < (log.events stream).length
      · rw [List.getElem?_append_left old] at found
        exact inPlace p event found
      · rw [List.getElem?_append_right (by omega), EventLog.number_get?] at found
        obtain ⟨record, _, rfl⟩ := Option.map_eq_some_iff.mp found
        have later : (log.events stream).length ≤ p := Nat.le_of_not_lt old
        show expected + (p - (log.events stream).length) + 1 = p + 1
        rw [← current, show log.tail stream = (log.events stream).length from rfl, Nat.add_sub_cancel' later]
    · rwa [others stream same]

theorem append_groups (stream : String) (expected : Revision) (records : List Record) (log : EventLog) :
    ((EventLog.append stream expected records).outcome log).2.groups = log.groups := by
  rcases done : (EventLog.append stream expected records).outcome log with ⟨e | revision, log'⟩
  · rw [(EventLog.append_error done).1]
  · obtain ⟨_, _, _, _, groups, _⟩ := EventLog.append_ok done
    exact groups

variable {stream : String} {owner : String → Nat × Nat} {s t : System}

/-- A system stays in step where nothing but its log changes, and there only by events added. -/
private theorem inStep_of_log (inStep : s.InStep stream owner) (inPlace : InPlace (t.log.events stream))
    (grows : s.log.events stream <+: t.log.events stream) (groups : t.log.groups = s.log.groups)
    (replicas : t.replicas = s.replicas) (lockdowns : t.lockdowns = s.lockdowns)
    (followers : t.followers = s.followers) (calls : ∀ c ∈ t.calls, c.spec.Restores) : t.InStep stream owner where
  inPlace := inPlace
  reflects j := by
    rw [replicas]
    exact (inStep.reflects j).mono grows
  behind group state found := by
    rw [replicas, lockdowns]
    refine inStep.behind group state ?_
    unfold EventLog.group? at found ⊢
    rwa [groups] at found
  followers f member := by
    rw [followers] at member
    obtain ⟨follows, owned, safe⟩ := inStep.followers f member
    rw [replicas, lockdowns]
    exact ⟨follows, owned, safe.mono grows (Nat.le_refl _) id⟩
  restores := calls

/-- A request changes the log at most by an append, and a replica not at all if it restores the store. -/
theorem frame_of_stepped {α : Type} {spec : AdjudicationSpec α} {a b : Adjudication α} {w w' : Adjudicating EventLog}
    (stepped : Adjudication.Stepped spec a w b w') (inPlace : InPlace (w.log.events stream)) :
    InPlace (w'.log.events stream) ∧ w'.log.groups = w.log.groups ∧ w'.current = w.current ∧
      (spec.Restores → w'.replica = w.replica) := by
  cases stepped with
  | idle _ _ _ log replica current =>
    rw [log]
    exact ⟨inPlace, rfl, current, fun _ => replica⟩
  | attempt =>
    refine ⟨inPlace, rfl, rfl, ?_⟩
    intro restores
    exact congrArg (fun store => { w.replica with store }) (restores a.attempts w.replica.store)
  | append _ done =>
    refine ⟨?_, ?_, rfl, fun _ => rfl⟩
    · exact (congrArg (fun result => result.2.events stream) done) ▸ inPlace_append inPlace
    · exact (congrArg (fun result => result.2.groups) done) ▸ append_groups _ _ _ w.log
  | conflict => exact ⟨inPlace, rfl, rfl, fun _ => rfl⟩

theorem inStep_proceed {i now : Nat} (inStep : s.InStep stream owner) (proceeds : s.proceed? i now = some t) :
    t.InStep stream owner := by
  obtain ⟨c, state, w, there, stepped, made⟩ := proceed?_eq_some.mp proceeds
  have grows := proceed_grows proceeds stream
  have member : c ∈ s.calls := List.mem_of_getElem? there
  subst made
  obtain ⟨inPlace, groups, _, restored⟩ := frame_of_stepped (Adjudication.step_cases stepped) inStep.inPlace
  refine inStep_of_log inStep inPlace grows groups ?_ rfl rfl ?_
  · show Function.update s.replicas c.replica w.replica = s.replicas
    rw [restored (inStep.restores c member)]
    exact Function.update_eq_self ..
  · intro other among
    rcases List.mem_or_eq_of_mem_set among with old | rfl
    · exact inStep.restores other old
    · exact inStep.restores c member

theorem inStep_consume {i now : Nat} {jitter : Duration} (inStep : s.InStep stream owner)
    (consumes : s.consume? i now jitter = some t) : t.InStep stream owner := by
  obtain ⟨f, task, w, there, stepped, rfl⟩ := consume?_eq_some.mp consumes
  obtain ⟨rfl, owned, safe⟩ := inStep.followers f (List.mem_of_getElem? there)
  have cases := SubscriberTask.step_cases stepped
  have onward := cases.onward
  have events : ∀ stream, w.log.events stream = s.log.events stream := events_of_streams onward.streams
  have own : Behind s.log f.spec.stream f.spec.group (s.replicas f.replica).revision (s.lockdowns f.lockdown) := by
    have behind := inStep.behind f.spec.group
    rwa [owned] at behind
  obtain ⟨reflects, behind, others, safe'⟩ :=
    SubscriberTask.inStep_step cases inStep.inPlace (inStep.reflects f.replica) own safe
  have revision (j : Nat) : (s.replicas j).revision ≤ (Function.update s.replicas f.replica w.replica j).revision :=
    update_revision onward.revision j
  have lockdown (l : Nat) : s.lockdowns l = true → Function.update s.lockdowns f.lockdown w.lockdown l = true := by
    by_cases same : l = f.lockdown
    · rw [same, Function.update_self]
      exact onward.lockdown
    · rw [Function.update_of_ne same]
      exact id
  refine ⟨?_, ?_, ?_, ?_, inStep.restores⟩
  · show InPlace (w.log.events _)
    rw [events]
    exact inStep.inPlace
  · intro j
    show (Function.update s.replicas f.replica w.replica j).Reflects (w.log.events _)
    rw [events]
    by_cases same : j = f.replica
    · rw [same, Function.update_self]
      exact reflects
    · rw [Function.update_of_ne same]
      exact inStep.reflects j
  · intro group
    show Behind w.log _ group (Function.update s.replicas f.replica w.replica (owner group).1).revision
      (Function.update s.lockdowns f.lockdown w.lockdown (owner group).2)
    by_cases mine : group = f.spec.group
    · rw [mine, owned, Function.update_self, Function.update_self]
      exact behind
    · intro state found free
      rw [others group mine] at found
      refine Nat.le_trans (inStep.behind group state found ?_) (revision _)
      cases locked : s.lockdowns (owner group).2 with
      | false => rfl
      | true => rw [lockdown _ locked] at free; cases free
  · intro other among
    show other.spec.stream = f.spec.stream ∧ owner other.spec.group = (other.replica, other.lockdown) ∧
      SubscriberTask.InStep other.spec (w.log.events _)
        (Function.update s.replicas f.replica w.replica other.replica).revision
        (Function.update s.lockdowns f.lockdown w.lockdown other.lockdown) other.task.phase
    rw [events]
    rcases List.mem_or_eq_of_mem_set among with old | rfl
    · obtain ⟨follows, ownedToo, safeToo⟩ := inStep.followers other old
      exact ⟨follows, ownedToo, safeToo.mono (List.prefix_refl _) (revision _) (lockdown _)⟩
    · rw [Function.update_self, Function.update_self]
      exact ⟨rfl, owned, safe'⟩

theorem inStep_step {m : Move} (inStep : s.InStep stream owner) (allowed : Allowed stream owner m) :
    (s.step m).InStep stream owner := by
  cases m with
  | call Value replica adjudicator spec =>
    refine inStep_of_log inStep inStep.inPlace (List.prefix_refl _) rfl rfl rfl rfl ?_
    intro c member
    rcases List.mem_append.mp member with old | new
    · exact inStep.restores c old
    · cases List.mem_singleton.mp new
      exact allowed
  | follow replica lockdown spec =>
    refine { inStep with followers := ?_ }
    intro f member
    rcases List.mem_append.mp member with old | new
    · exact inStep.followers f old
    · cases List.mem_singleton.mp new
      exact ⟨allowed.1, allowed.2, trivial⟩
  | append stream' expected records =>
    exact inStep_of_log inStep (inPlace_append inStep.inPlace) (append_grows _ _ _ s.log stream)
      (append_groups _ _ _ s.log) rfl rfl rfl inStep.restores
  | cancel => exact inStep_of_log inStep inStep.inPlace (List.prefix_refl _) rfl rfl rfl rfl inStep.restores
  | proceed i now =>
    simp only [step]
    cases proceeds : s.proceed? i now with
    | none => exact inStep
    | some t => exact inStep_proceed inStep proceeds
  | consume i now jitter =>
    simp only [step]
    cases consumes : s.consume? i now jitter with
    | none => exact inStep
    | some t => exact inStep_consume inStep consumes

theorem inStep_run {moves : List Move} (inStep : s.InStep stream owner)
    (allowed : ∀ m ∈ moves, Allowed stream owner m) : (s.run moves).InStep stream owner := by
  induction moves generalizing s with
  | nil => exact inStep
  | cons m rest ih =>
    exact ih (inStep_step inStep (allowed m (.head _))) fun other member => allowed other (.tail _ member)

end System
end PolicyLedger
