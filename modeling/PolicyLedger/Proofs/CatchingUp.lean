import PolicyLedger.Proofs.LogHistory

/-!
Catching up with a stream, page by page. Where pages begin and end makes no difference: a replica gets as
far as the stream can be repeated, and reading all of it at once or in several calls, while others go on
appending, comes to the same.
-/
namespace PolicyLedger
open PolicyLedger.Action

/-- The first events of a stream can be repeated, and the one behind them can not. -/
structure StopsAfter (events : List Recorded) (n : Nat) (g : Graph) (x : ReplayError) : Prop where
  replayed : Graph.replayRecords ∅ (events.take n) = .ok g
  refused : ∃ event, events[n]? = some event ∧ g.replayRecord event = .error x

/-- How far a stream takes a replica: to its end, or up to the event that can not be repeated, which is the answer
then. Transactions that were open before stay open. -/
inductive Furthest (events : List Recorded) (snapshots : List Graph) : Except ReplayError Revision → Replica → Prop
  | whole {g : Graph} (replayed : Graph.replayRecords ∅ events = .ok g) :
    Furthest events snapshots (.ok events.length) ⟨⟨g, snapshots⟩, events.length⟩
  | upTo {n : Nat} {g : Graph} {x : ReplayError} (stops : StopsAfter events n g x) :
    Furthest events snapshots (.error x) ⟨⟨g, snapshots⟩, n⟩

/-! ### Events one after the other -/

private theorem Graph.replayRecords_append (g : Graph) (events more : List Recorded) :
    g.replayRecords (events ++ more) = g.replayRecords events >>= fun after => after.replayRecords more :=
  List.foldlM_append

private theorem Graph.replayRecords_take_succ {events : List Recorded} {p : Nat} {event : Recorded}
    (found : events[p]? = some event) (g : Graph) :
    g.replayRecords (events.take (p + 1)) =
      g.replayRecords (events.take p) >>= fun after => after.replayRecord event := by
  rw [List.take_add_one, found, Option.toList_some, replayRecords_append]
  cases g.replayRecords (events.take p) with
  | error x => rfl
  | ok after =>
    show after.replayRecords [event] = after.replayRecord event
    rw [replayRecords, List.foldlM_cons]
    cases after.replayRecord event <;> rfl

/-- Where events can be repeated, their beginnings can. -/
private theorem Graph.replayRecords_prefix {g after : Graph} {events more : List Recorded} (begins : events <+: more)
    (replayed : g.replayRecords more = .ok after) : ∃ before, g.replayRecords events = .ok before := by
  obtain ⟨rest, rfl⟩ := begins
  rw [replayRecords_append] at replayed
  obtain ⟨before, first, _⟩ := bind_eq_ok.mp replayed
  exact ⟨before, first⟩

theorem StopsAfter.mono {events more : List Recorded} {n : Nat} {g : Graph} {x : ReplayError}
    (stops : StopsAfter events n g x) (grows : events <+: more) : StopsAfter more n g x := by
  obtain ⟨event, found, failed⟩ := stops.refused
  refine ⟨?_, event, getElem?_mono grows found, failed⟩
  have within : n ≤ events.length := Nat.le_of_lt (List.getElem?_eq_some_iff.mp found).1
  obtain ⟨rest, rfl⟩ := grows
  rw [List.take_append_of_le_length within]
  exact stops.replayed

/-- Nothing that reaches beyond the event that can not be repeated can be repeated. -/
theorem StopsAfter.le {events : List Recorded} {n : Nat} {g after : Graph} {x : ReplayError}
    (stops : StopsAfter events n g x) {v : Nat} (replayed : Graph.replayRecords ∅ (events.take v) = .ok after) :
    v ≤ n := by
  obtain ⟨event, found, failed⟩ := stops.refused
  refine Nat.le_of_not_lt fun beyond => ?_
  obtain ⟨between, upTo⟩ := Graph.replayRecords_prefix (List.take_prefix_take_left beyond) replayed
  rw [Graph.replayRecords_take_succ found, stops.replayed] at upTo
  cases failed.symm.trans upTo

theorem StopsAfter.within {events : List Recorded} {n : Nat} {g : Graph} {x : ReplayError}
    (stops : StopsAfter events n g x) : n < events.length := by
  obtain ⟨event, found, _⟩ := stops.refused
  exact (List.getElem?_eq_some_iff.mp found).1

theorem StopsAfter.unique {events : List Recorded} {n m : Nat} {g h : Graph} {x y : ReplayError}
    (stops : StopsAfter events n g x) (too : StopsAfter events m h y) : n = m ∧ g = h ∧ x = y := by
  have same : n = m := Nat.le_antisymm (too.le stops.replayed) (stops.le too.replayed)
  subst same
  cases stops.replayed.symm.trans too.replayed
  obtain ⟨event, found, failed⟩ := stops.refused
  obtain ⟨event', found', failed'⟩ := too.refused
  cases found.symm.trans found'
  cases failed.symm.trans failed'
  exact ⟨rfl, rfl, rfl⟩

/-- A stream that can not be repeated beyond some event can not be repeated as a whole. -/
private theorem StopsAfter.not_whole {events : List Recorded} {n : Nat} {g whole : Graph} {x : ReplayError}
    (stops : StopsAfter events n g x) : Graph.replayRecords ∅ events ≠ .ok whole := by
  intro replayed
  rw [← List.take_length (l := events)] at replayed
  exact absurd (stops.le replayed) (Nat.not_le_of_lt stops.within)

theorem Furthest.unique {events : List Recorded} {snapshots : List Graph} {a b : Except ReplayError Revision}
    {r q : Replica} (furthest : Furthest events snapshots a r) (too : Furthest events snapshots b q) :
    a = b ∧ r = q := by
  cases furthest with
  | whole replayed =>
    cases too with
    | whole again =>
      cases replayed.symm.trans again
      exact ⟨rfl, rfl⟩
    | upTo stops => exact absurd replayed stops.not_whole
  | upTo stops =>
    cases too with
    | whole replayed => exact absurd replayed stops.not_whole
    | upTo again =>
      obtain ⟨rfl, rfl, rfl⟩ := stops.unique again
      exact ⟨rfl, rfl⟩

theorem Furthest.reflects {events : List Recorded} {snapshots : List Graph} {answer : Except ReplayError Revision}
    {r : Replica} (furthest : Furthest events snapshots answer r) : r.Reflects events := by
  cases furthest with
  | whole replayed =>
    refine ⟨Nat.le_refl _, ?_⟩
    rw [List.take_length]
    exact replayed
  | upTo stops => exact ⟨Nat.le_of_lt stops.within, stops.replayed⟩

private theorem Furthest.snapshots {events : List Recorded} {snapshots : List Graph}
    {answer : Except ReplayError Revision}
    {r : Replica} (furthest : Furthest events snapshots answer r) : r.store.snapshots = snapshots := by
  cases furthest <;> rfl

namespace Replica

variable {events : List Recorded} {r : Replica}

/-- A replica that takes the next event reflects one event more. -/
theorem Reflects.advance {event : Recorded} {after : Graph} (reflects : r.Reflects events)
    (found : events[r.revision]? = some event) (replayed : r.store.graph.replayRecord event = .ok after) :
    Reflects events ⟨{ r.store with graph := after }, r.revision + 1⟩ := by
  refine ⟨(List.getElem?_eq_some_iff.mp found).1, ?_⟩
  show Graph.replayRecords ∅ (events.take (r.revision + 1)) = .ok after
  rw [Graph.replayRecords_take_succ found, reflects.replayed]
  exact replayed

/-- At the end of a stream a replica has got as far as it can. -/
theorem Reflects.furthest (reflects : r.Reflects events) (ended : events.length ≤ r.revision) :
    Furthest events r.store.snapshots (.ok r.revision) r := by
  obtain ⟨⟨graph, snapshots⟩, revision⟩ := r
  have replayed : Graph.replayRecords ∅ (events.take revision) = .ok graph := reflects.replayed
  have same : revision = events.length := Nat.le_antisymm reflects.within ended
  subst same
  rw [List.take_length] at replayed
  exact .whole replayed

/-- A page of the events that a replica has not seen is applied as a whole, or takes it to the event that can not be
repeated. -/
private theorem applyAll_page (inPlace : InPlace events) (count : Nat) (reflects : r.Reflects events) :
    (∃ next, (applyAll ((events.drop r.revision).take count)).outcome r = (.ok (), next) ∧ next.Reflects events ∧
        next.revision = r.revision + min count (events.length - r.revision) ∧
        next.store.snapshots = r.store.snapshots) ∨
      ∃ x last, (applyAll ((events.drop r.revision).take count)).outcome r = (.error x, last) ∧
        Furthest events r.store.snapshots (.error x) last := by
  induction count generalizing r with
  | zero =>
    rw [List.take_zero, Nat.zero_min]
    exact .inl ⟨r, rfl, reflects, rfl, rfl⟩
  | succ count ih =>
    cases found : events[r.revision]? with
    | none =>
      have ended : events.length ≤ r.revision := List.getElem?_eq_none_iff.mp found
      rw [List.drop_of_length_le ended, List.take_nil, Nat.sub_eq_zero_of_le ended, Nat.min_zero]
      exact .inl ⟨r, rfl, reflects, rfl, rfl⟩
    | some event =>
      obtain ⟨known, there⟩ := List.getElem?_eq_some_iff.mp found
      have place : event.revision = r.revision + 1 := inPlace _ _ found
      rw [List.drop_eq_getElem_cons known, there, List.take_succ_cons, applyAll, outcome_bind, applyRecorded_outcome]
      cases replayed : r.store.graph.replayRecord event with
      | error x =>
        refine .inr ⟨x, r, rfl, ?_⟩
        have stops : StopsAfter events r.revision r.store.graph x := ⟨reflects.replayed, event, found, replayed⟩
        exact .upTo stops
      | ok after =>
        dsimp only
        rw [place]
        rcases ih (reflects.advance found replayed) with ⟨next, done, further, reached, kept⟩ | failed
        · refine .inl ⟨next, done, further, ?_, kept⟩
          rw [reached]
          show r.revision + 1 + min count (events.length - (r.revision + 1)) = _
          have rest : events.length - r.revision = events.length - (r.revision + 1) + 1 := by omega
          rw [rest, Nat.add_min_add_right, Nat.add_assoc, Nat.add_comm 1]
        · exact .inr failed

/-! ### Pages -/

/-- How many pages are read to find that there are no more than so many events: those that hold them, and one that
is empty. -/
def pagesFor (count : Nat) : Nat := (count + pageSize - 1) / pageSize + 1

/-- Once a page was read, one page less is needed. -/
private theorem pagesFor_after_page {tail revision pages : Nat} (enough : pagesFor (tail - revision) ≤ pages + 1)
    (more : revision < tail) : pagesFor (tail - (revision + min pageSize (tail - revision))) ≤ pages := by
  unfold pagesFor pageSize at *
  omega

variable {log : EventLog} {stream : String}

/-- A page that holds no event ends it; what any other page comes to is what its events come to. -/
private theorem catchUp_succ (pages : Nat) :
    (catchUp stream (pages + 1)).outcome (log, r) =
      if log.tail stream ≤ r.revision then (.ok (some r.revision), log, r)
      else match (applyAll (((log.events stream).drop r.revision).take pageSize)).outcome r with
        | (.ok (), next) => (catchUp stream pages).outcome (log, next)
        | (.error x, last) => (.error x, log, last) := by
  have read := EventLog.readFrom_outcome stream (r.revision + 1) pageSize log
  rw [catchUp, outcome_bind, outcome_get]
  dsimp only
  rw [outcome_bind, outcome_attempt, outcome_within]
  dsimp only
  rw [EventLog.service_readFrom, read, Nat.add_sub_cancel]
  by_cases unknown : log.events stream = []
  · have ended : log.tail stream ≤ r.revision := by
      rw [EventLog.tail, unknown]
      exact Nat.zero_le r.revision
    rw [if_pos unknown, if_pos ended]
    rfl
  · rw [if_neg unknown]
    cases page : ((log.events stream).drop r.revision).take pageSize with
    | nil =>
      have ended : log.tail stream ≤ r.revision := by
        rcases List.take_eq_nil_iff.mp page with empty | empty
        · cases empty
        · exact List.drop_eq_nil_iff.mp empty
      rw [if_pos ended]
      rfl
    | cons event rest =>
      have more : ¬ log.tail stream ≤ r.revision := by
        intro ended
        rw [List.drop_of_length_le ended] at page
        cases page
      rw [if_neg more]
      dsimp only
      rw [outcome_bind, outcome_within]
      rcases (applyAll (event :: rest)).outcome r with ⟨x | _, last⟩ <;> rfl

/-- A call that is allowed the pages it needs takes a replica as far as the stream can be repeated. -/
theorem catchUp_furthest (inPlace : InPlace (log.events stream)) {pages : Nat}
    (reflects : r.Reflects (log.events stream)) (enough : pagesFor (log.tail stream - r.revision) ≤ pages) :
    ∃ answer last, Furthest (log.events stream) r.store.snapshots answer last ∧
      (catchUp stream pages).outcome (log, r) = (answer.map some, log, last) := by
  induction pages generalizing r with
  | zero => cases enough
  | succ pages ih =>
    rw [catchUp_succ pages]
    by_cases ended : log.tail stream ≤ r.revision
    · rw [if_pos ended]
      exact ⟨_, r, reflects.furthest ended, rfl⟩
    · rw [if_neg ended]
      rcases applyAll_page inPlace pageSize reflects with
        ⟨next, done, further, reached, kept⟩ | ⟨x, last, failed, stops⟩
      · rw [done, ← kept]
        refine ih further ?_
        rw [reached]
        exact pagesFor_after_page enough (Nat.lt_of_not_le ended)
      · rw [failed]
        exact ⟨.error x, last, stops, rfl⟩

/-! ### Several calls -/

/-- Calls one after the other, others using the log before each of them. Each is allowed the pages it needs. -/
def catchUpInTurns (stream : String) : List (List LogMove) → EventLog × Replica → EventLog × Replica
  | [], state => state
  | moves :: rest, (log, r) =>
    let log := log.run moves
    catchUpInTurns stream rest ((catchUp stream (pagesFor (log.tail stream - r.revision))).outcome (log, r)).2

/-- They leave the log as the others made it, and the replica at some point of the stream. -/
theorem catchUpInTurns_reflects (rounds : List (List LogMove)) (inPlace : InPlace (log.events stream))
    (reflects : r.Reflects (log.events stream)) :
    (catchUpInTurns stream rounds (log, r)).1 = log.run rounds.flatten ∧
      (catchUpInTurns stream rounds (log, r)).2.Reflects ((log.run rounds.flatten).events stream) ∧
      (catchUpInTurns stream rounds (log, r)).2.store.snapshots = r.store.snapshots := by
  induction rounds generalizing log r with
  | nil => exact ⟨rfl, reflects, rfl⟩
  | cons moves rest ih =>
    have grown := reflects.mono (EventLog.run_grows log moves stream)
    have placed := EventLog.run_inPlace moves inPlace
    obtain ⟨answer, last, furthest, done⟩ := catchUp_furthest placed grown (Nat.le_refl _)
    obtain ⟨logs, replica, kept⟩ := ih placed furthest.reflects
    rw [catchUpInTurns, List.flatten_cons, EventLog.run_append, done]
    exact ⟨logs, replica, kept.trans furthest.snapshots⟩

/-- However often a replica has caught up before, a call at the end answers the same, and leaves the same. -/
theorem catchUp_inTurns (rounds : List (List LogMove)) (inPlace : InPlace (log.events stream))
    (reflects : r.Reflects (log.events stream)) {pages : Nat}
    (enough : pagesFor ((log.run rounds.flatten).tail stream) ≤ pages) :
    (catchUp stream pages).outcome (catchUpInTurns stream rounds (log, r)) =
      (catchUp stream pages).outcome (log.run rounds.flatten, r) := by
  obtain ⟨logs, replica, kept⟩ := catchUpInTurns_reflects rounds inPlace reflects
  have placed := EventLog.run_inPlace rounds.flatten inPlace
  have grown := reflects.mono (EventLog.run_grows log rounds.flatten stream)
  have fewer (v : Revision) : pagesFor ((log.run rounds.flatten).tail stream - v) ≤ pages := by
    unfold pagesFor pageSize at *
    omega
  obtain ⟨answer, last, furthest, once⟩ := catchUp_furthest placed grown (fewer r.revision)
  obtain ⟨answer', last', furthest', often⟩ := catchUp_furthest placed replica (fewer _)
  rw [kept] at furthest'
  obtain ⟨rfl, rfl⟩ := furthest.unique furthest'
  rw [once, ← often, ← logs]

end Replica
end PolicyLedger
