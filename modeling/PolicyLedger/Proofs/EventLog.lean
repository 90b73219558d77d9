import PolicyLedger.Log.Basic
import PolicyLedger.Proofs.Checked
import PolicyLedger.Replication.Subscriber

/-!
What requests do to a log in memory. Streams only ever grow, by whole appends made at their very end;
groups move only by the answers to the event they wait for.
-/
namespace PolicyLedger
open PolicyLedger.Action

/-- While fewer tries were made than there may be, one more is one more: the count does not start again. -/
theorem toNat_succ_of_lt {tries bound : UInt32} (fewer : tries < bound) : (tries + 1).toNat = tries.toNat + 1 := by
  have room := Nat.lt_of_le_of_lt (Nat.succ_le_of_lt (UInt32.lt_iff_toNat_lt.mp fewer)) bound.toNat_lt
  rw [UInt32.toNat_add]
  exact Nat.mod_eq_of_lt room

namespace EventLog

variable {log log' : EventLog} {stream other : String}

/-! ### The log as a service -/

theorem service_append (stream : String) (expected : Revision) (records : List Record) :
    LogService.append stream expected records = append stream expected records := rfl

theorem service_readFrom (stream : String) (first : Revision) (count : Nat) :
    LogService.readFrom stream first count = readFrom stream first count := rfl

private theorem service_createGroup (stream group : String) :
    LogService.createGroup stream group = createGroup stream group := rfl

theorem service_subscribe (stream group : String) : LogService.subscribe stream group = subscribe stream group := rfl

theorem service_next (s : Subscription) : LogService.next s = next s := rfl

theorem service_acknowledge (s : Subscription) (d : Delivery) : LogService.acknowledge s d = acknowledge s d := rfl

theorem service_reject (s : Subscription) (d : Delivery) (rejection : Rejection) (reason : String) :
    LogService.reject s d rejection reason = reject s d rejection := rfl

/-! ### Streams -/

theorem number_length (stream : String) (last : Revision) (records : List Record) :
    (number stream last records).length = records.length := by
  induction records generalizing last with
  | nil => rfl
  | cons record rest ih => simp [number, ih]

theorem number_get? (stream : String) (last : Revision) (records : List Record) (i : Nat) :
    (number stream last records)[i]? = records[i]?.map fun r => ⟨stream, last + i + 1, r.schema, r.data⟩ := by
  induction records generalizing last i with
  | nil => rfl
  | cons record rest ih =>
    cases i with
    | zero => rfl
    | succ i =>
      simp only [number, List.getElem?_cons_succ, ih, Nat.add_assoc, Nat.add_comm 1]

/-- An append that succeeds is made at the end of its stream, and adds its records and nothing else. -/
theorem append_ok {expected revision : Revision} {records : List Record}
    (done : (append stream expected records).outcome log = (.ok revision, log')) :
    log.tail stream = expected ∧ revision = expected + records.length ∧
      log'.events stream = log.events stream ++ number stream expected records ∧
      (∀ other, other ≠ stream → log'.events other = log.events other) ∧ log'.groups = log.groups ∧
      log'.generation = log.generation := by
  rw [append, outcome_ofFunction] at done
  dsimp only at done
  split at done
  · cases done
  rename_i current
  rw [Decidable.not_not] at current
  split at done
  · rename_i none
    cases done
    cases records with
    | nil => exact ⟨current, current, (List.append_nil _).symm, fun _ _ => rfl, rfl, rfl⟩
    | cons record rest => cases none
  · cases done
    refine ⟨current, ?_, ?_, ?_, rfl, rfl⟩
    · rw [List.length_append, number_length, ← current]
      rfl
    · simp only [events, wake, SortedMap.get?_insert, if_true, Option.getD_some, current]
    · intro other differ
      simp only [events, wake, SortedMap.get?_insert, if_neg differ]

/-- An append that fails met another end of the stream than it expected, and changes nothing. -/
theorem append_error {expected : Revision} {records : List Record} {e : LogError}
    (failed : (append stream expected records).outcome log = (.error e, log')) :
    log' = log ∧ log.tail stream ≠ expected := by
  rw [append, outcome_ofFunction] at failed
  dsimp only at failed
  split at failed
  · rename_i elsewhere
    cases failed
    exact ⟨rfl, elsewhere⟩
  · split at failed <;> cases failed

/-- Elsewhere than at the end of its stream an append is told where the end is. -/
theorem append_conflict {expected : Revision} (records : List Record) (elsewhere : log.tail stream ≠ expected) :
    (append stream expected records).outcome log = (.error (.conflict stream expected (log.tail stream)), log) := by
  rw [append, outcome_ofFunction]
  exact if_pos elsewhere

/-- At the end of its stream an append succeeds. -/
theorem append_succeeds {expected : Revision} (records : List Record) (current : log.tail stream = expected) :
    ∃ revision log', (append stream expected records).outcome log = (.ok revision, log') := by
  rw [append, outcome_ofFunction]
  dsimp only
  rw [if_neg (Decidable.not_not.mpr current)]
  split <;> exact ⟨_, _, rfl⟩

/-- Reading takes so many events from a revision on, if the stream has any events at all. -/
theorem readFrom_outcome (stream : String) (first : Revision) (count : Nat) (log : EventLog) :
    (readFrom stream first count).outcome log =
      (if log.events stream = [] then .error (.streamNotFound stream)
        else .ok (((log.events stream).drop (first - 1)).take count), log) := by
  rw [readFrom, outcome_ofFunction, existing]
  cases log.events stream <;> rfl

/-! ### Groups -/

theorem group?_setGroup (stream group : String) (state : ConsumerGroup) (stream' group' : String) :
    (log.setGroup stream group state).group? stream' group' =
      if stream' = stream ∧ group' = group then some state else log.group? stream' group' := by
  unfold setGroup group?
  dsimp only
  rw [SortedMap.get?_insert]
  by_cases same : stream' = stream
  · subst same
    rw [if_pos rfl, Option.getD_some, SortedMap.get?_insert]
    by_cases too : group' = group <;> simp [too]
  · rw [if_neg same, if_neg fun both => same both.1]

/-- The subscription has not ended, and this is the state of its group and the event that waits for. -/
structure Awaits (log : EventLog) (s : Subscription) (group : ConsumerGroup) (event : Recorded) : Prop where
  valid : log.generation = s.generation
  there : log.group? s.stream s.group = some group
  waits : (log.events s.stream)[group.position]? = some event

variable {s : Subscription} {group : ConsumerGroup} {event : Recorded}

theorem current_eq_some {revision : Revision} :
    log.current s revision = .ok (some group) ↔ ∃ event, log.Awaits s group event ∧ event.revision = revision := by
  constructor
  · intro found
    unfold current at found
    split at found
    · cases found
    rename_i valid
    rw [Decidable.not_not] at valid
    split at found
    · cases found
    · rename_i state there
      split at found
      · rename_i event waits
        split at found
        · rename_i same
          cases found
          exact ⟨event, ⟨valid, there, waits⟩, same⟩
        · cases found
      · cases found
  · rintro ⟨event, ⟨valid, there, waits⟩, same⟩
    rw [current, if_neg (Decidable.not_not.mpr valid), there]
    dsimp only
    rw [waits]
    exact congrArg Except.ok (if_pos same)

theorem Awaits.next (awaits : log.Awaits s group event) :
    (EventLog.next s).outcome log = (.ok (.ready ⟨event, group.retryCount⟩), log) := by
  rw [EventLog.next, outcome_ofFunction, if_neg (Decidable.not_not.mpr awaits.valid), awaits.there]
  dsimp only
  rw [awaits.waits]

theorem Awaits.answer (awaits : log.Awaits s group event) (move : ConsumerGroup → ConsumerGroup) :
    (EventLog.answer s event.revision move).outcome log = (.ok (), log.setGroup s.stream s.group (move group)) := by
  rw [EventLog.answer, outcome_ofFunction, current_eq_some.mpr ⟨event, awaits, rfl⟩]

/-- What is answered about an event moves its group if it is the one the group waits for, and otherwise
does nothing. -/
theorem answer_cases (s : Subscription) (revision : Revision) (move : ConsumerGroup → ConsumerGroup)
    (log : EventLog) :
    ((answer s revision move).outcome log).2 = log ∨
      ∃ group, log.current s revision = .ok (some group) ∧
        (answer s revision move).outcome log = (.ok (), log.setGroup s.stream s.group (move group)) := by
  rw [answer, outcome_ofFunction]
  split
  · exact .inl rfl
  · exact .inl rfl
  · rename_i group found
    exact .inr ⟨group, found, rfl⟩

/-! ### Requests that leave the streams alone -/

theorem subscribe_log (stream group : String) (log : EventLog) : ((subscribe stream group).outcome log).2 = log := by
  rw [subscribe, outcome_ofFunction]
  split <;> rfl

theorem next_log (s : Subscription) (log : EventLog) : ((next s).outcome log).2 = log := by
  rw [next, outcome_ofFunction]
  split
  · rfl
  · split
    · rfl
    · split <;> rfl

theorem answer_streams (s : Subscription) (revision : Revision) (move : ConsumerGroup → ConsumerGroup)
    (log : EventLog) : ((answer s revision move).outcome log).2.streams = log.streams := by
  rcases answer_cases s revision move log with same | ⟨group, _, moved⟩
  · rw [same]
  · rw [moved]
    rfl

/-- What a subscription hands out is the event its group waits for. -/
theorem next_ready {d : Delivery} (asked : ((next s).outcome log).1 = .ok (.ready d)) :
    ∃ group, log.Awaits s group d.event := by
  rw [next, outcome_ofFunction] at asked
  split at asked
  · cases asked
  · rename_i valid
    split at asked
    · cases asked
    · rename_i group there
      split at asked
      · rename_i event waits
        cases asked
        exact ⟨group, Decidable.not_not.mp valid, there, waits⟩
      · cases asked

/-- The log with a group, which stands at the beginning of its stream if it is new. -/
def withGroup (stream group : String) (log : EventLog) : EventLog :=
  match log.group? stream group with
  | some _ => log
  | none => log.setGroup stream group {}

@[simp] theorem withGroup_streams (stream group : String) (log : EventLog) :
    (log.withGroup stream group).streams = log.streams := by
  unfold withGroup
  split <;> rfl

theorem group?_withGroup (stream group : String) (log : EventLog) (stream' group' : String) :
    (log.withGroup stream group).group? stream' group' =
      if stream' = stream ∧ group' = group then some ((log.group? stream group).getD {})
      else log.group? stream' group' := by
  unfold withGroup
  split
  · rename_i state there
    split
    · rename_i same
      rw [same.1, same.2, there, Option.getD_some]
    · rfl
  · rename_i absent
    rw [group?_setGroup, absent, Option.getD_none]

/-- Making sure of a group always succeeds. -/
theorem ensureGroup_outcome (spec : SubscriberSpec) (log : EventLog) :
    (spec.ensureGroup (L := EventLog)).outcome log = (.ok (), log.withGroup spec.stream spec.group) := by
  have created : (createGroup spec.stream spec.group).outcome log =
      match log.group? spec.stream spec.group with
      | some _ => (.error (.groupExists spec.stream spec.group), log)
      | none => (.ok (), log.setGroup spec.stream spec.group {}) := rfl
  unfold withGroup
  rw [SubscriberSpec.ensureGroup, outcome_bind, outcome_attempt]
  rw [service_createGroup, created]
  cases log.group? spec.stream spec.group <;> rfl

end EventLog
end PolicyLedger
