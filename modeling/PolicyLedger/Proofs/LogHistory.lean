import Mathlib.Data.List.Induction
import PolicyLedger.Proofs.InOrder

/-!
All that can happen to a log, in any order. Streams grow at their ends, generations only go up, and
whatever concerns somebody who waits wakes all who do. A group does one of three things when it is answered
about the event it waits for, and ignores all other answers.
-/
namespace PolicyLedger
open PolicyLedger.Action

/-- What somebody may ask of a log. Members of groups may answer with any delivery: one they were handed
long ago, one handed to somebody else, or one they answered before. -/
inductive LogMove where
  | append (stream : String) (expected : Revision) (records : List Record)
  | createGroup (stream group : String)
  | subscribe (stream group : String)
  | next (s : Subscription)
  | acknowledge (s : Subscription) (d : Delivery)
  | reject (s : Subscription) (d : Delivery) (rejection : Rejection)
  /-- All subscriptions end. -/
  | cancel
  deriving DecidableEq

/-- What an answer about an event can come to. -/
inductive Verdict where
  | acknowledged
  | retried
  | parked
  deriving DecidableEq

namespace Verdict

/-- What becomes of a group that waits for the event. -/
def move (revision : Revision) : Verdict → ConsumerGroup → ConsumerGroup
  | acknowledged, group => group.advance
  | retried, group => { group with retryCount := group.retryCount + 1 }
  | parked, group => ConsumerGroup.advance { group with parked := group.parked ++ [revision] }

/-- Whether the group is done with the event. -/
def settles : Verdict → Bool
  | retried => false
  | _ => true

def ofRejection : Rejection → Verdict
  | .retry => retried
  | .park => parked

theorem move_ne (revision : Revision) (verdict : Verdict) (group : ConsumerGroup) :
    verdict.move revision group ≠ group := by
  intro same
  cases verdict with
  | acknowledged => exact absurd (congrArg ConsumerGroup.position same) (Nat.succ_ne_self group.position)
  | retried => exact absurd (congrArg ConsumerGroup.retryCount same) (by simp [Verdict.move])
  | parked => exact absurd (congrArg ConsumerGroup.position same) (Nat.succ_ne_self group.position)

theorem move_position (revision : Revision) (verdict : Verdict) (group : ConsumerGroup) :
    (verdict.move revision group).position = if verdict.settles then group.position + 1 else group.position := by
  cases verdict <;> rfl

end Verdict

/-- A verdict on the event at some revision. -/
structure Effect where
  revision : Revision
  verdict : Verdict
  deriving DecidableEq

/-- The answer that a move gives to a group, whether it has an effect or not. -/
def LogMove.answer? (stream group : String) : LogMove → Option Effect
  | acknowledge s d => if s.stream = stream ∧ s.group = group then some ⟨d.revision, .acknowledged⟩ else none
  | reject s d rejection =>
    if s.stream = stream ∧ s.group = group then some ⟨d.revision, .ofRejection rejection⟩ else none
  | _ => none

namespace EventLog

/-- The log after a request, whether it succeeds or fails. -/
def step (log : EventLog) : LogMove → EventLog
  | .append stream expected records => ((append stream expected records).outcome log).2
  | .createGroup stream group => ((createGroup stream group).outcome log).2
  | .subscribe stream group => ((subscribe stream group).outcome log).2
  | .next s => ((next s).outcome log).2
  | .acknowledge s d => ((acknowledge s d).outcome log).2
  | .reject s d rejection => ((reject s d rejection).outcome log).2
  | .cancel => log.cancelSubscriptions

def run (log : EventLog) (moves : List LogMove) : EventLog := moves.foldl step log

variable {log : EventLog} {stream group : String}

theorem run_append (log : EventLog) (moves more : List LogMove) : log.run (moves ++ more) = (log.run moves).run more :=
  List.foldl_append

theorem run_snoc (log : EventLog) (moves : List LogMove) (m : LogMove) :
    log.run (moves ++ [m]) = (log.run moves).step m := by
  rw [run_append]
  rfl

/-! ### Answers -/

/-- An answer as the log takes it. -/
def judge (s : Subscription) (revision : Revision) (verdict : Verdict) : Action LogError EventLog Unit :=
  answer s revision (verdict.move revision)

theorem acknowledge_eq (s : Subscription) (d : Delivery) : acknowledge s d = judge s d.revision .acknowledged := rfl

theorem reject_eq (s : Subscription) (d : Delivery) (rejection : Rejection) :
    reject s d rejection = judge s d.revision (.ofRejection rejection) := by
  cases rejection <;> rfl

/-- After a cancellation answers are refused. -/
theorem judge_cancelled {s : Subscription} (ended : log.generation ≠ s.generation) (revision : Revision)
    (verdict : Verdict) : (judge s revision verdict).outcome log = (.error .subscriptionCancelled, log) := by
  rw [judge, answer, outcome_ofFunction, current, if_pos ended]

theorem next_cancelled {s : Subscription} (ended : log.generation ≠ s.generation) :
    (next s).outcome log = (.ok .ended, log) := by
  rw [next, outcome_ofFunction, if_pos ended]

/-- At the end of its stream a group has nothing to hand out. -/
theorem next_exhausted {s : Subscription} {state : ConsumerGroup} (live : log.generation = s.generation)
    (there : log.group? s.stream s.group = some state) (none : (log.events s.stream)[state.position]? = none) :
    (next s).outcome log = (.ok .waiting, log) := by
  rw [next, outcome_ofFunction, if_neg (Decidable.not_not.mpr live), there]
  dsimp only
  rw [none]

/-- A group takes an answer about the event it waits for, and no other. -/
theorem judge_live {s : Subscription} {state : ConsumerGroup} (inPlace : InPlace (log.events s.stream))
    (live : log.generation = s.generation) (there : log.group? s.stream s.group = some state) (revision : Revision)
    (verdict : Verdict) :
    (judge s revision verdict).outcome log =
      (.ok (), if revision = state.position + 1 ∧ revision ≤ log.tail s.stream
        then log.setGroup s.stream s.group (verdict.move revision state) else log) := by
  rw [judge, answer, outcome_ofFunction, current, if_neg (Decidable.not_not.mpr live), there]
  dsimp only
  cases waits : (log.events s.stream)[state.position]? with
  | none =>
    have short : log.tail s.stream ≤ state.position := List.getElem?_eq_none_iff.mp waits
    have beyond : ¬ (revision = state.position + 1 ∧ revision ≤ log.tail s.stream) := by
      rintro ⟨rfl, within⟩
      exact Nat.not_succ_le_self _ (Nat.le_trans within short)
    rw [if_neg beyond]
  | some event =>
    have place : event.revision = state.position + 1 := inPlace _ _ waits
    have within : state.position + 1 ≤ log.tail s.stream := (List.getElem?_eq_some_iff.mp waits).1
    dsimp only
    rw [place]
    by_cases same : revision = state.position + 1
    · rw [if_pos same.symm, if_pos ⟨same, same ▸ within⟩]
    · rw [if_neg (Ne.symm same), if_neg fun both => same both.1]

/-- Every answer leaves the streams, the generation and the groups of others alone, and its own group too unless
that waits for the event. -/
private theorem judge_cases (s : Subscription) (revision : Revision) (verdict : Verdict) (log : EventLog)
    (inPlace : InPlace (log.events s.stream)) :
    ((judge s revision verdict).outcome log).2 = log ∨
      ∃ state, log.group? s.stream s.group = some state ∧ revision = state.position + 1 ∧
        revision ≤ log.tail s.stream ∧
        ((judge s revision verdict).outcome log).2 = log.setGroup s.stream s.group (verdict.move revision state) := by
  by_cases live : log.generation = s.generation
  · cases there : log.group? s.stream s.group with
    | none =>
      rw [judge, answer, outcome_ofFunction, current, if_neg (Decidable.not_not.mpr live), there]
      exact .inl rfl
    | some state =>
      rw [judge_live inPlace live there]
      dsimp only
      by_cases waits : revision = state.position + 1 ∧ revision ≤ log.tail s.stream
      · exact .inr ⟨state, rfl, waits.1, waits.2, if_pos waits⟩
      · exact .inl (if_neg waits)
  · rw [judge_cancelled live]
    exact .inl rfl

/-- A move, told apart only as far as it matters: most that do not append or cancel come to an answer, or to a new
group. -/
theorem step_cases (log : EventLog) (m : LogMove) :
    log.step m = log ∨
      (∃ stream expected records, m = .append stream expected records) ∨
      (∃ stream group, m = .createGroup stream group ∧ log.group? stream group = none ∧
        log.step m = log.setGroup stream group {}) ∨
      (∃ s revision verdict, m.answer? s.stream s.group = some ⟨revision, verdict⟩ ∧
        (∀ stream group, ¬ (s.stream = stream ∧ s.group = group) → m.answer? stream group = none) ∧
        log.step m = ((judge s revision verdict).outcome log).2) ∨
      m = .cancel := by
  cases m with
  | append stream expected records => exact .inr (.inl ⟨stream, expected, records, rfl⟩)
  | createGroup stream group =>
    rw [step, createGroup, outcome_ofFunction]
    cases there : log.group? stream group with
    | some state => exact .inl rfl
    | none => exact .inr (.inr (.inl ⟨stream, group, rfl, there, rfl⟩))
  | subscribe stream group => exact .inl (subscribe_log stream group log)
  | next s => exact .inl (next_log s log)
  | acknowledge s d =>
    exact .inr (.inr (.inr (.inl ⟨s, d.revision, .acknowledged, if_pos ⟨rfl, rfl⟩,
      fun _ _ differ => if_neg differ, rfl⟩)))
  | reject s d rejection =>
    refine .inr (.inr (.inr (.inl ⟨s, d.revision, .ofRejection rejection, if_pos ⟨rfl, rfl⟩,
      fun _ _ differ => if_neg differ, ?_⟩)))
    rw [step, reject_eq]
  | cancel => exact .inr (.inr (.inr (.inr rfl)))

/-! ### Streams, generations and wakes -/

/-- Only an append changes a stream, and only a cancellation ends subscriptions; both wake those who wait. -/
structure Moved (log log' : EventLog) (m : LogMove) : Prop where
  grows : ∀ stream, log.events stream <+: log'.events stream
  generation : log'.generation = if m = .cancel then log.generation + 1 else log.generation
  wakes : log.wakes ≤ log'.wakes
  asleep : log'.wakes = log.wakes → m ≠ .cancel ∧ ∀ stream, log'.events stream = log.events stream

private theorem moved_of_same {log' : EventLog} {m : LogMove} (other : m ≠ .cancel)
    (streams : ∀ stream, log'.events stream = log.events stream) (generation : log'.generation = log.generation)
    (wakes : log'.wakes = log.wakes) : Moved log log' m where
  grows stream := by
    rewrite [streams]
    exact List.prefix_refl _
  generation := by rw [if_neg other, generation]
  wakes := Nat.le_of_eq wakes.symm
  asleep _ := ⟨other, streams⟩

private theorem append_wakes (stream : String) (expected : Revision) (records : List Record) (log : EventLog) :
    let log' := ((append stream expected records).outcome log).2
    log.wakes ≤ log'.wakes ∧ (log'.wakes = log.wakes → log' = log) := by
  dsimp only
  rw [append, outcome_ofFunction]
  dsimp only
  split
  · exact ⟨Nat.le_refl _, fun _ => rfl⟩
  · split
    · exact ⟨Nat.le_refl _, fun _ => rfl⟩
    · exact ⟨Nat.le_succ _, fun same => absurd same (Nat.succ_ne_self _)⟩

theorem judge_log (s : Subscription) (revision : Revision) (verdict : Verdict) (log : EventLog) :
    let log' := ((judge s revision verdict).outcome log).2
    (∀ stream, log'.events stream = log.events stream) ∧ log'.generation = log.generation ∧ log'.wakes = log.wakes := by
  rcases answer_cases s revision (verdict.move revision) log with same | ⟨state, _, moved⟩
  · rw [judge, same]
    exact ⟨fun _ => rfl, rfl, rfl⟩
  · rw [judge, moved]
    exact ⟨fun _ => rfl, rfl, rfl⟩

theorem step_moved (log : EventLog) (m : LogMove) : Moved log (log.step m) m := by
  rcases step_cases log m with same | ⟨stream, expected, records, rfl⟩ | ⟨stream, group, rfl, _, made⟩ |
    ⟨s, revision, verdict, tells, _, made⟩ | rfl
  · by_cases cancelled : m = .cancel
    · subst cancelled
      exact absurd (congrArg EventLog.wakes same) (Nat.succ_ne_self _)
    · rw [same]
      exact moved_of_same cancelled (fun _ => rfl) rfl rfl
  · have woken := append_wakes stream expected records log
    refine ⟨fun other => System.append_grows stream expected records log other, ?_, woken.1, ?_⟩
    · rw [if_neg nofun, step]
      rcases done : (append stream expected records).outcome log with ⟨e | revision, log'⟩
      · rw [(append_error done).1]
      · exact (append_ok done).2.2.2.2.2
    · intro same
      rw [step, woken.2 same]
      exact ⟨nofun, fun _ => rfl⟩
  · rw [made]
    exact moved_of_same nofun (fun _ => rfl) rfl rfl
  · have kept := judge_log s revision verdict log
    rw [made]
    refine moved_of_same ?_ kept.1 kept.2.1 kept.2.2
    intro cancelled
    rw [cancelled] at tells
    cases tells
  · refine ⟨fun _ => List.prefix_refl _, (if_pos rfl).symm, Nat.le_succ _, ?_⟩
    exact fun same => absurd same (Nat.succ_ne_self _)

theorem run_grows (log : EventLog) (moves : List LogMove) (stream : String) :
    log.events stream <+: (log.run moves).events stream := by
  induction moves generalizing log with
  | nil => exact List.prefix_refl _
  | cons m rest ih => exact ((step_moved log m).grows stream).trans (ih (log.step m))

theorem step_inPlace (m : LogMove) (inPlace : InPlace (log.events stream)) : InPlace ((log.step m).events stream) := by
  rcases step_cases log m with same | ⟨stream', expected, records, rfl⟩ | ⟨stream', group, rfl, _, made⟩ |
    ⟨s, revision, verdict, _, _, made⟩ | rfl
  · rwa [same]
  · exact System.inPlace_append inPlace
  · rwa [made]
  · rwa [made, (judge_log s revision verdict log).1]
  · exact inPlace

theorem run_inPlace (moves : List LogMove) (inPlace : InPlace (log.events stream)) :
    InPlace ((log.run moves).events stream) := by
  induction moves generalizing log with
  | nil => exact inPlace
  | cons m rest ih => exact ih (step_inPlace m inPlace)

private theorem inPlace_start (stream : String) : InPlace (({} : EventLog).events stream) := by
  intro p event found
  cases found

/-- However it came about, a log has its events at their revisions. -/
theorem inPlace_history (moves : List LogMove) (stream : String) :
    InPlace ((({} : EventLog).run moves).events stream) := run_inPlace moves (inPlace_start stream)

theorem run_generation (log : EventLog) (moves : List LogMove) :
    log.generation ≤ (log.run moves).generation ∧
      ((log.run moves).generation = log.generation ↔ .cancel ∉ moves) := by
  induction moves generalizing log with
  | nil => exact ⟨Nat.le_refl _, fun _ => List.not_mem_nil, fun _ => rfl⟩
  | cons m rest ih =>
    obtain ⟨later, same⟩ := ih (log.step m)
    have first := (step_moved log m).generation
    show log.generation ≤ ((log.step m).run rest).generation ∧
      (((log.step m).run rest).generation = log.generation ↔ _)
    rw [List.mem_cons, not_or]
    by_cases cancelled : m = .cancel
    · rw [if_pos cancelled] at first
      refine ⟨by omega, ?_⟩
      constructor
      · intro kept
        omega
      · rintro ⟨other, _⟩
        exact absurd cancelled.symm other
    · rw [if_neg cancelled] at first
      rw [first] at later same
      exact ⟨later, same.trans (and_iff_right (Ne.symm cancelled)).symm⟩

/-! ### Groups -/

/-- All that a move can do to a group. -/
inductive Regrouped (stream group : String) (log log' : EventLog) (m : LogMove) : Prop
  | same (kept : log'.group? stream group = log.group? stream group)
  | created (absent : log.group? stream group = none) (new : log'.group? stream group = some {})
      (silent : m.answer? stream group = none)
  | answered {state : ConsumerGroup} {verdict : Verdict} (there : log.group? stream group = some state)
      (waits : state.position < log.tail stream)
      (tells : m.answer? stream group = some ⟨state.position + 1, verdict⟩)
      (moved : log'.group? stream group = some (verdict.move (state.position + 1) state))

theorem step_regrouped (stream group : String) (log : EventLog) (m : LogMove)
    (inPlace : ∀ stream, InPlace (log.events stream)) : Regrouped stream group log (log.step m) m := by
  rcases step_cases log m with same | ⟨stream', expected, records, rfl⟩ | ⟨stream', group', rfl, absent, made⟩ |
    ⟨s, revision, verdict, tells, others, made⟩ | rfl
  · rw [same]
    exact .same rfl
  · refine .same ?_
    unfold group?
    rw [step, System.append_groups]
  · rw [made]
    by_cases mine : stream = stream' ∧ group = group'
    · obtain ⟨rfl, rfl⟩ := mine
      exact .created absent ((group?_setGroup ..).trans (if_pos ⟨rfl, rfl⟩)) rfl
    · exact .same ((group?_setGroup ..).trans (if_neg mine))
  · rcases judge_cases s revision verdict log (inPlace s.stream) with kept | ⟨state, there, rfl, within, moved⟩
    · rw [made, kept]
      exact .same rfl
    · rw [made, moved]
      by_cases mine : stream = s.stream ∧ group = s.group
      · obtain ⟨rfl, rfl⟩ := mine
        exact .answered there within tells ((group?_setGroup ..).trans (if_pos ⟨rfl, rfl⟩))
      · exact .same ((group?_setGroup ..).trans (if_neg mine))
  · exact .same rfl

/-- A group that exists stays, and moves by one event at most. -/
theorem step_position {state : ConsumerGroup} (m : LogMove) (inPlace : ∀ stream, InPlace (log.events stream))
    (there : log.group? stream group = some state) :
    ∃ state', (log.step m).group? stream group = some state' ∧
      (state'.position = state.position ∨ state'.position = state.position + 1) := by
  cases step_regrouped stream group log m inPlace with
  | same kept => exact ⟨state, kept.trans there, .inl rfl⟩
  | created absent => cases absent.symm.trans there
  | @answered state' verdict there' _ _ moved =>
    cases there.symm.trans there'
    refine ⟨_, moved, ?_⟩
    rw [Verdict.move_position]
    cases verdict.settles with
    | true => exact .inr rfl
    | false => exact .inl rfl

theorem run_group (moves : List LogMove) (inPlace : ∀ stream, InPlace (log.events stream)) {state : ConsumerGroup}
    (there : log.group? stream group = some state) : ∃ state', (log.run moves).group? stream group = some state' := by
  induction moves generalizing log state with
  | nil => exact ⟨state, there⟩
  | cons m rest ih =>
    obtain ⟨_, kept, _⟩ := step_position m inPlace there
    exact ih (fun stream => step_inPlace m (inPlace stream)) kept

end EventLog

/-! ### Moves of others -/

/-- A move of somebody who has nothing to do with a group and ends no subscription. -/
def LogMove.Spares (stream group : String) (m : LogMove) : Prop := m ≠ .cancel ∧ m.answer? stream group = none

instance (stream group : String) (m : LogMove) : Decidable (m.Spares stream group) :=
  inferInstanceAs (Decidable (_ ∧ _))

/-- A group that is spared stays as it is. -/
theorem LogMove.Spares.group {stream group : String} {m : LogMove} {log : EventLog} {state : ConsumerGroup}
    (spares : m.Spares stream group) (inPlace : ∀ stream, InPlace (log.events stream))
    (there : log.group? stream group = some state) : (log.step m).group? stream group = some state := by
  cases EventLog.step_regrouped stream group log m inPlace with
  | same kept => exact kept.trans there
  | created absent => cases absent.symm.trans there
  | answered _ _ tells => cases spares.2.symm.trans tells

end PolicyLedger
