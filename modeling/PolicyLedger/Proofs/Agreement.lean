import PolicyLedger.Proofs.InOrder
import PolicyLedger.Proofs.Payloads
import PolicyLedger.Proofs.Requests

/-!
Many writers, one policy. Where only commands are appended to a stream, each event in it repeats on the
graph that those before it lead to. For an attempt was made on the graph at its revision, and is only
appended while that is the end of the stream. So nothing is ever locked down, and every replica is the
replay of the stream up to its revision.
-/
namespace PolicyLedger
open PolicyLedger.Action
open Adjudication (record)

/-- An event as events are: of fewer than 2^64 bytes, as any bytes in memory, and with no node under the last
identifier. -/
structure Recorded.Ordinary (recorded : Recorded) : Prop where
  bytes : recorded.data.length < 2 ^ 64
  identifiers : ∀ e, recorded.event = .ok e → ∀ id, e.creates? = some id → id.value.toNat < 2 ^ 64 - 1

namespace Graph

variable {g after : Graph}

/-- Events repeat as they were recorded. -/
theorem replayRecords_number {events : List Event} (stream : String) (last : Revision)
    (fits : ∀ e ∈ events, e.toBytes.length < 2 ^ 64) :
    g.replayRecords (EventLog.number stream last (events.map record)) = g.replayAll events := by
  induction events generalizing g last with
  | nil => rfl
  | cons e rest ih =>
    have decoded : replayRecord g ⟨stream, last + 1, e.schema, e.toBytes⟩ = g.replay e := by
      rw [replayRecord, Recorded.event, Event.ofBytes_toBytes (fits e (.head _))]
      rfl
    rw [List.map_cons, EventLog.number, replayRecords, List.foldlM_cons, replayAll, List.foldlM_cons]
    dsimp only [record]
    rw [decoded]
    cases g.replay e with
    | error x => rfl
    | ok next => exact ih (last + 1) fun other member => fits other (.tail _ member)

/-- Identifiers stay below the last where no event tells of it. -/
theorem replayRecords_numbers {records : List Recorded} (replayed : g.replayRecords records = .ok after)
    (numbered : g.Numbered) (left : g.lastId.toNat < 2 ^ 64 - 1) (ordinary : ∀ r ∈ records, r.Ordinary) :
    after.Numbered ∧ after.lastId.toNat < 2 ^ 64 - 1 := by
  induction records generalizing g with
  | nil =>
    cases replayed
    exact ⟨numbered, left⟩
  | cons r rest ih =>
    obtain ⟨next, first, others⟩ := bind_eq_ok.mp replayed
    obtain ⟨e, decoded, again⟩ := bind_eq_ok.mp first
    have created := (ordinary r (.head _)).identifiers e (mapError_eq_ok.mp decoded)
    exact ih others (Event.replay_numbered again numbered) (Event.replay_lastId_lt again left created)
      fun other member => ordinary other (.tail _ member)

end Graph

/-! ### What is about to be appended -/

/-- An event whose record is as records are. -/
structure Event.Ordinary (e : Event) : Prop where
  bytes : e.toBytes.length < 2 ^ 64
  identifiers : ∀ id, e.creates? = some id → id.value.toNat < 2 ^ 64 - 1

theorem Event.mem_number {e : Event} {events : List Event} (stream : String) (last : Revision) (member : e ∈ events) :
    ∃ revision, ⟨stream, revision, e.schema, e.toBytes⟩ ∈ EventLog.number stream last (events.map record) := by
  obtain ⟨i, there⟩ := List.getElem?_of_mem member
  refine ⟨last + i + 1, List.mem_of_getElem? (i := i) ?_⟩
  rw [EventLog.number_get?, List.getElem?_map, there]
  rfl

theorem Event.ordinary_of_number {events : List Event} {stream : String} {last : Revision}
    (ordinary : ∀ r ∈ EventLog.number stream last (events.map record), r.Ordinary) : ∀ e ∈ events, e.Ordinary := by
  intro e member
  obtain ⟨_, stands⟩ := Event.mem_number stream last member
  have small := ordinary _ stands
  exact ⟨small.bytes, small.identifiers e (Event.ofBytes_toBytes small.bytes)⟩

/-- What a request is about to append, if anything, repeats behind the events it was recorded at. -/
def Stage.Prepared {α : Type} (stream : List Recorded) : Stage α → Prop
  | .holding _ events expected => expected ≤ stream.length ∧ ((∀ e ∈ events, e.Ordinary) → ∃ before after,
      Graph.replayRecords ∅ (stream.take expected) = .ok before ∧ before.replayAll events = .ok after)
  | _ => True

private theorem Stage.Prepared.mono {α : Type} {events more : List Recorded} {stage : Stage α}
    (prepared : stage.Prepared events) (grows : events <+: more) : stage.Prepared more := by
  cases stage with
  | holding value held expected =>
    obtain ⟨rest, rfl⟩ := grows
    obtain ⟨bound, replays⟩ := prepared
    refine ⟨Nat.le_trans bound (by simp), ?_⟩
    intro ordinary
    rw [List.take_append_of_le_length bound]
    exact replays ordinary
  | _ => trivial

/-- A subscriber that no event has failed. -/
def Consuming.Calm : Consuming → Prop
  | lockingDown .. | rejecting .. => False
  | _ => True

/-- The next event of a stream that can be replayed as a whole is applied. -/
private theorem Replica.Reflects.applies {events : List Recorded} {whole : Graph} {d : Delivery} {r : Replica}
    (reflects : r.Reflects events) (replayed : Graph.replayRecords ∅ events = .ok whole) (inPlace : InPlace events)
    (stands : d.From events) (next : d.revision ≤ r.revision + 1) :
    ((Consuming.applyDelivery d).outcome r).1 = .ok () := by
  rw [Consuming.applyDelivery_outcome]
  split
  · rfl
  · rename_i unseen
    obtain ⟨p, found⟩ := stands
    have here : p = r.revision := inPlace.next found next unseen
    subst here
    obtain ⟨known, there⟩ := List.getElem?_eq_some_iff.mp found
    rw [← List.take_append_drop r.revision events, List.drop_eq_getElem_cons known, there, Graph.replayRecords,
      List.foldlM_append, bind_eq_ok] at replayed
    obtain ⟨before, first, rest⟩ := replayed
    obtain ⟨after, applied, _⟩ := bind_eq_ok.mp rest
    cases reflects.replayed.symm.trans first
    rw [Replica.applyRecorded_outcome, applied]

/-- No event fails a subscriber that only meets events its replica can apply. -/
private theorem Consuming.calm_step {spec : SubscriberSpec} {s : Subscription} {c c' : Consuming}
    {w w' : Following EventLog}
    (stepped : Stepped spec s w c c' w') (calm : c.Calm)
    (applies : ∀ d, c = applying d → ((applyDelivery d).outcome w.replica).1 = .ok ()) :
    c'.Calm ∧ w'.lockdown = w.lockdown := by
  cases stepped with
  | look => exact ⟨by split <;> trivial, rfl⟩
  | ask =>
    rcases ((EventLog.next s).outcome w.log).1 with e | ⟨d⟩ | _ | _ <;> exact ⟨trivial, rfl⟩
  | lookAgain d => exact ⟨by split <;> trivial, rfl⟩
  | apply d done => exact ⟨trivial, rfl⟩
  | fail d failed =>
    rw [applies d rfl] at failed
    cases failed
  | acknowledge d after => rcases after with rfl | ⟨_, rfl⟩ <;> exact ⟨trivial, rfl⟩
  | announce revision => exact ⟨trivial, rfl⟩
  | lockDown d e => exact calm.elim
  | reject d e rejection => exact calm.elim

/-- The same of a subscriber as a whole. -/
def Subscribing.Calm : Subscribing → Prop
  | .consuming _ c => c.Calm
  | _ => True

private theorem SubscriberTask.calm_step {spec : SubscriberSpec} {before after : Subscribing}
    {w w' : Following EventLog}
    (stepped : Stepped spec w before after w') (calm : before.Calm)
    (applies : ∀ s d, before = .consuming s (.applying d) →
      ((Consuming.applyDelivery d).outcome w.replica).1 = .ok ()) :
    after.Calm ∧ w'.lockdown = w.lockdown := by
  cases stepped with
  | idle free =>
    refine ⟨?_, rfl⟩
    cases after with
    | consuming s c => exact absurd rfl (free s c)
    | _ => trivial
  | create free =>
    refine ⟨?_, rfl⟩
    cases after with
    | consuming s c => exact absurd rfl (free s c)
    | _ => trivial
  | join => exact ⟨trivial, rfl⟩
  | consume inner => exact Consuming.calm_step inner calm fun d applying => applies _ d (by rw [applying])

namespace System

/-- A system that is in step, whose stream repeats as a whole, and in which nothing failed. -/
structure Agrees (stream : String) (owner : String → Nat × Nat) (s : System) : Prop where
  inStep : s.InStep stream owner
  replayed : ∃ whole, Graph.replayRecords ∅ (s.log.events stream) = .ok whole
  free : ∀ l, s.lockdowns l = false
  calm : ∀ f ∈ s.followers, f.task.phase.Calm
  calls : ∀ c ∈ s.calls, c.spec.stream = stream ∧ c.spec.Commanded ∧ c.state.stage.Prepared (s.log.events stream)

theorem agrees_start (stream : String) (owner : String → Nat × Nat) : ({} : System).Agrees stream owner where
  inStep := inStep_start stream owner
  replayed := ⟨∅, rfl⟩
  free _ := rfl
  calm _ member := absurd member List.not_mem_nil
  calls _ member := absurd member List.not_mem_nil

/-- What somebody may do: only commands are appended to the stream, and only subscribers of its owner use a
group. -/
def Commanding (stream : String) (owner : String → Nat × Nat) : Move → Prop
  | .call _ _ _ spec => spec.stream = stream ∧ spec.Commanded
  | .append other _ _ => other ≠ stream
  | .follow replica lockdown spec => spec.stream = stream ∧ owner spec.group = (replica, lockdown)
  | _ => True

theorem Commanding.allowed {stream : String} {owner : String → Nat × Nat} {m : Move}
    (commanding : Commanding stream owner m) : Allowed stream owner m := by
  cases m with
  | call Value replica adjudicator spec => exact commanding.2.restores
  | follow replica lockdown spec => exact commanding
  | _ => trivial

variable {stream : String} {owner : String → Nat × Nat} {s t : System}

/-- What an attempt recorded repeats behind the events its replica is the replay of. -/
private theorem prepared_attempt {α : Type} {spec : AdjudicationSpec α} {attempts : Nat} {w : Adjudicating EventLog}
    {events : List Recorded} (commanded : spec.Commanded) (reflects : w.replica.Reflects events)
    (ordinary : ∀ r ∈ events, r.Ordinary) :
    (Adjudication.attempted w.replica.revision (Adjudication.attempt spec attempts w).1).Prepared events := by
  have numbers := Graph.replayRecords_numbers reflects.replayed Graph.numbered_empty (by decide)
    fun r member => ordinary r (List.mem_of_mem_take member)
  rcases result : (Adjudication.attempt spec attempts w).1 with e | ⟨value, _ | ⟨e, rest⟩⟩
  · trivial
  · trivial
  · refine ⟨reflects.within, ?_⟩
    intro small
    have created : ∀ other ∈ e :: rest, ∀ id, other.creates? = some id → id.value.toNat < 2 ^ 64 - 1 :=
      fun other member => (small other member).identifiers
    obtain ⟨after, again⟩ := commanded.replays result numbers.1 numbers.2 created
    exact ⟨_, after, reflects.replayed, again⟩

private theorem agrees_proceed {i now : Nat} (agrees : s.Agrees stream owner) (proceeds : s.proceed? i now = some t)
    (ordinary : ∀ r ∈ t.log.events stream, r.Ordinary) : t.Agrees stream owner := by
  have inStep := inStep_proceed agrees.inStep proceeds
  have grows := proceed_grows proceeds stream
  obtain ⟨c, state, w, there, stepped, rfl⟩ := proceed?_eq_some.mp proceeds
  have member : c ∈ s.calls := List.mem_of_getElem? there
  obtain ⟨rfl, commanded, prepared⟩ := agrees.calls c member
  have made : (∃ whole, Graph.replayRecords ∅ (w.log.events c.spec.stream) = .ok whole) ∧
      state.stage.Prepared (w.log.events c.spec.stream) := by
    cases Adjudication.step_cases stepped with
    | idle _ stage _ log =>
      rw [log, stage]
      exact ⟨agrees.replayed, prepared⟩
    | attempt _ _ stage =>
      rw [stage]
      exact ⟨agrees.replayed, prepared_attempt commanded (agrees.inStep.reflects c.replica) ordinary⟩
    | @append value events expected revision log holding done _ stage =>
      obtain ⟨current, _, grown, _⟩ := EventLog.append_ok done
      rw [holding] at prepared
      rw [stage]
      refine ⟨?_, trivial⟩
      have small : ∀ e ∈ events, e.Ordinary := Event.ordinary_of_number fun r among =>
        ordinary r (by
          show r ∈ log.events c.spec.stream
          rw [grown]
          exact List.mem_append_right _ among)
      obtain ⟨before, after, first, again⟩ := prepared.2 small
      have all : (s.log.events c.spec.stream).take expected = s.log.events c.spec.stream :=
        List.take_of_length_le (Nat.le_of_eq current)
      refine ⟨after, ?_⟩
      show Graph.replayRecords ∅ (log.events c.spec.stream) = .ok after
      rw [grown, Graph.replayRecords, List.foldlM_append, bind_eq_ok]
      refine ⟨before, all ▸ first, ?_⟩
      rw [← again]
      exact Graph.replayRecords_number c.spec.stream expected fun e among => (small e among).bytes
    | conflict _ _ _ stage =>
      refine ⟨agrees.replayed, ?_⟩
      rcases stage with stage | ⟨e, stage⟩ <;> rw [stage] <;> trivial
  refine ⟨inStep, made.1, agrees.free, agrees.calm, ?_⟩
  intro other among
  rcases List.mem_or_eq_of_mem_set among with old | rfl
  · obtain ⟨onStream, commands, ready⟩ := agrees.calls other old
    exact ⟨onStream, commands, ready.mono grows⟩
  · exact ⟨rfl, commanded, made.2⟩

private theorem agrees_consume {i now : Nat} {jitter : Duration} (agrees : s.Agrees stream owner)
    (consumes : s.consume? i now jitter = some t) : t.Agrees stream owner := by
  have inStep := inStep_consume agrees.inStep consumes
  obtain ⟨f, task, w, there, stepped, rfl⟩ := consume?_eq_some.mp consumes
  have member : f ∈ s.followers := List.mem_of_getElem? there
  obtain ⟨rfl, _, safe⟩ := agrees.inStep.followers f member
  have cases := SubscriberTask.step_cases stepped
  have events : w.log.events f.spec.stream = s.log.events f.spec.stream := events_of_streams cases.onward.streams _
  obtain ⟨whole, replayed⟩ := agrees.replayed
  obtain ⟨calm, lockdown⟩ := SubscriberTask.calm_step cases (agrees.calm f member) fun _ d applying => by
    rw [applying] at safe
    exact (agrees.inStep.reflects f.replica).applies replayed agrees.inStep.inPlace safe.2.2.1 safe.2.2.2
  refine ⟨inStep, ⟨whole, ?_⟩, ?_, ?_, ?_⟩
  · show Graph.replayRecords ∅ (w.log.events f.spec.stream) = .ok whole
    rwa [events]
  · intro l
    show Function.update s.lockdowns f.lockdown w.lockdown l = false
    rw [lockdown, show (s.following f).lockdown = s.lockdowns f.lockdown from rfl, Function.update_eq_self]
    exact agrees.free l
  · intro other among
    rcases List.mem_or_eq_of_mem_set among with old | rfl
    · exact agrees.calm other old
    · exact calm
  · intro c among
    show c.spec.stream = f.spec.stream ∧ c.spec.Commanded ∧ c.state.stage.Prepared (w.log.events f.spec.stream)
    rw [events]
    exact agrees.calls c among

theorem agrees_step {m : Move} (agrees : s.Agrees stream owner) (commanding : Commanding stream owner m)
    (ordinary : ∀ r ∈ (s.step m).log.events stream, r.Ordinary) : (s.step m).Agrees stream owner := by
  have inStep := inStep_step agrees.inStep commanding.allowed
  cases m with
  | call Value replica adjudicator spec =>
    refine { agrees with inStep, calls := ?_ }
    intro c member
    rcases List.mem_append.mp member with old | new
    · exact agrees.calls c old
    · cases List.mem_singleton.mp new
      exact ⟨commanding.1, commanding.2, trivial⟩
  | follow replica lockdown spec =>
    refine { agrees with inStep, calm := ?_ }
    intro f member
    rcases List.mem_append.mp member with old | new
    · exact agrees.calm f old
    · cases List.mem_singleton.mp new
      trivial
  | append other expected records =>
    have events : (s.step (.append other expected records)).log.events stream = s.log.events stream :=
      append_others (Ne.symm commanding) expected records s.log
    refine { agrees with inStep, replayed := ?_, calls := ?_ }
    · rw [events]
      exact agrees.replayed
    · rw [events]
      exact agrees.calls
  | cancel => exact { agrees with inStep }
  | proceed i now =>
    simp only [step] at ordinary ⊢
    cases proceeds : s.proceed? i now with
    | none => exact agrees
    | some t =>
      rw [proceeds] at ordinary
      exact agrees_proceed agrees proceeds ordinary
  | consume i now jitter =>
    simp only [step]
    cases consumes : s.consume? i now jitter with
    | none => exact agrees
    | some t => exact agrees_consume agrees consumes

theorem agrees_run {moves : List Move} (agrees : s.Agrees stream owner)
    (commanding : ∀ m ∈ moves, Commanding stream owner m)
    (ordinary : ∀ r ∈ (s.run moves).log.events stream, r.Ordinary) : (s.run moves).Agrees stream owner := by
  induction moves generalizing s with
  | nil => exact agrees
  | cons m rest ih =>
    have next := agrees_step agrees (commanding m (.head _)) fun r member =>
      ordinary r ((run_grows (s.step m) rest stream).subset member)
    exact ih next (fun other member => commanding other (.tail _ member)) ordinary

/-- However requests and subscribers are interleaved, as long as only commands are appended: every event
of the stream can be read and repeated on the graph that those before it lead to, no lockdown is ever
engaged, and every replica is at all times the replay of the events up to its revision. -/
theorem writers_agree {stream : String} {owner : String → Nat × Nat} {moves : List Move}
    (commanding : ∀ m ∈ moves, Commanding stream owner m)
    (ordinary : ∀ r ∈ (({} : System).run moves).log.events stream, r.Ordinary) :
    (∀ (p : Nat) (recorded : Recorded), ((({} : System).run moves).log.events stream)[p]? = some recorded →
      ∃ e before after, recorded.event = .ok e ∧
        Graph.replayRecords ∅ (((({} : System).run moves).log.events stream).take p) = .ok before ∧
        before.replay e = .ok after) ∧
    (∀ l, (({} : System).run moves).lockdowns l = false) ∧
    (∀ j, ((({} : System).run moves).replicas j).Reflects ((({} : System).run moves).log.events stream)) := by
  have agrees := agrees_run (agrees_start stream owner) commanding ordinary
  refine ⟨?_, agrees.free, agrees.inStep.reflects⟩
  intro p recorded found
  obtain ⟨whole, replayed⟩ := agrees.replayed
  obtain ⟨known, there⟩ := List.getElem?_eq_some_iff.mp found
  rw [← List.take_append_drop p (EventLog.events _ stream), List.drop_eq_getElem_cons known, there,
    Graph.replayRecords, List.foldlM_append, bind_eq_ok] at replayed
  obtain ⟨before, first, rest⟩ := replayed
  obtain ⟨after, applied, _⟩ := bind_eq_ok.mp rest
  obtain ⟨e, decoded, again⟩ := bind_eq_ok.mp applied
  exact ⟨e, before, after, mapError_eq_ok.mp decoded, first, again⟩

/-- A policy class is created, and the replica applies that. -/
def creatingApplied : List Move := creating ++ .follow 0 0 usual :: List.replicate 8 (.consume 0 0 (.ofSecs 0))

theorem creatingApplied_agrees :
    ((({} : System).run creatingApplied).replicas 0).revision = 1 ∧
      ((({} : System).run creatingApplied).replicas 0).Reflects
        ((({} : System).run creatingApplied).log.events "policy") := by
  have requests : ∀ m ∈ List.replicate 9 (Move.proceed 0 0) ++ List.replicate 2 (Move.proceed 0 10000),
      Commanding "policy" (fun _ => (0, 0)) m := by
    intro m member
    rcases List.mem_append.mp member with early | late
    · cases List.eq_of_mem_replicate early
      trivial
    · cases List.eq_of_mem_replicate late
      trivial
  have consumes : ∀ m ∈ List.replicate 8 (Move.consume 0 0 (.ofSecs 0)),
      Commanding "policy" (fun _ => (0, 0)) m := by
    intro m member
    cases List.eq_of_mem_replicate member
    trivial
  have commanding : ∀ m ∈ creatingApplied, Commanding "policy" (fun _ => (0, 0)) m :=
    List.forall_mem_append.mpr ⟨List.forall_mem_cons.mpr
      ⟨⟨rfl, .command {} "policy" ∅ ⟨⟨0⟩, none⟩ (.createPolicyClass "staff")⟩, requests⟩,
      List.forall_mem_cons.mpr ⟨⟨rfl, rfl⟩, consumes⟩⟩
  let e : Event := .policyClassCreated ⟨1⟩ "staff"
  have events : (({} : System).run creatingApplied).log.events "policy" = [⟨"policy", 1, e.schema, e.toBytes⟩] := by
    decide +kernel
  have ordinary : ∀ r ∈ (({} : System).run creatingApplied).log.events "policy", r.Ordinary := by
    rw [events]
    intro r member
    cases List.mem_singleton.mp member
    refine ⟨by decide, ?_⟩
    intro e decoded id told
    cases decoded.symm.trans (Event.ofBytes_toBytes (by decide))
    cases told
    decide
  exact ⟨by decide +kernel, (writers_agree commanding ordinary).2.2 0⟩

end System
end PolicyLedger
