import Mathlib.Data.List.Basic
import PolicyLedger.Proofs.LogHistory

/-!
Groups settle every event of a stream once, and in order. However many members a group has, and whatever
they answer, only answers about the event it waits for have an effect; so the effects tell the story of the
group: which event was acknowledged or parked, one after the other, and how often each was tried.
-/
namespace PolicyLedger
open PolicyLedger.Action

namespace EventLog

/-- The answer a move gives to a group, if it changes the group. -/
def effect? (stream group : String) (log : EventLog) (m : LogMove) : Option Effect :=
  if (log.step m).group? stream group = log.group? stream group then none else m.answer? stream group

/-- All effects that answers have on a group, oldest first. -/
def effects (stream group : String) (log : EventLog) : List LogMove → List Effect
  | [] => []
  | m :: rest => (log.effect? stream group m).toList ++ (log.step m).effects stream group rest

variable {log : EventLog} {stream group : String}

private theorem effects_append (log : EventLog) (moves more : List LogMove) :
    log.effects stream group (moves ++ more) =
      log.effects stream group moves ++ (log.run moves).effects stream group more := by
  induction moves generalizing log with
  | nil => rfl
  | cons m rest ih =>
    show _ ++ (log.step m).effects stream group (rest ++ more) = _
    rw [ih, ← List.append_assoc]
    rfl

private theorem effects_snoc (log : EventLog) (moves : List LogMove) (m : LogMove) :
    log.effects stream group (moves ++ [m]) =
      log.effects stream group moves ++ ((log.run moves).effect? stream group m).toList := by
  rw [effects_append]
  exact congrArg _ (List.append_nil _)

end EventLog

/-- The revisions of the events that a group is done with. -/
def settledRevisions (effects : List Effect) : List Revision :=
  (effects.filter (·.verdict.settles)).map (·.revision)

def parkedRevisions (effects : List Effect) : List Revision :=
  (effects.filter (·.verdict = .parked)).map (·.revision)

/-- How often the event at hand was rejected to be tried again: the effects since the last that settled one. -/
def triesSince (effects : List Effect) : Nat := (effects.reverse.takeWhile (!·.verdict.settles)).length

/-- A group is what the answers to it have made of it. -/
structure ConsumerGroup.Resolved (tail : Revision) (effects : List Effect) (state : ConsumerGroup) : Prop where
  within : state.position ≤ tail
  /-- Each event up to its position was settled once, in the order of the stream. -/
  settled : settledRevisions effects = List.range' 1 state.position
  parked : state.parked = parkedRevisions effects
  increasing : state.parked.Pairwise (· < ·)
  /-- The count of tries has 32 bits: it starts again after as many as there is no room for. -/
  tries : state.retryCount.toNat = triesSince effects % 2 ^ 32

namespace ConsumerGroup

variable {tail : Revision} {effects : List Effect} {state : ConsumerGroup}

private theorem resolved_start (tail : Revision) : ConsumerGroup.Resolved tail [] {} where
  within := Nat.zero_le tail
  settled := rfl
  parked := rfl
  increasing := .nil
  tries := rfl

private theorem Resolved.mono {more : Revision} (resolved : state.Resolved tail effects) (grows : tail ≤ more) :
    state.Resolved more effects := { resolved with within := Nat.le_trans resolved.within grows }

/-- Parked revisions are among those settled, which are in order. -/
private theorem parked_increasing {position : Nat} (settled : settledRevisions effects = List.range' 1 position) :
    (parkedRevisions effects).Pairwise (· < ·) := by
  have among : (parkedRevisions effects).Sublist (settledRevisions effects) := by
    refine List.Sublist.map _ (List.monotone_filter_right effects ?_)
    intro effect parked
    rw [decide_eq_true_eq] at parked
    rw [parked]
    rfl
  rw [settled] at among
  exact (List.pairwise_lt_range' 1).sublist among

/-- An answer about the next event adds to the story of a group what it does to the group. -/
private theorem Resolved.answered (resolved : state.Resolved tail effects) (waits : state.position < tail)
    (verdict : Verdict) :
    (verdict.move (state.position + 1) state).Resolved tail (effects ++ [⟨state.position + 1, verdict⟩]) := by
  have settled : settledRevisions (effects ++ [⟨state.position + 1, verdict⟩]) =
      List.range' 1 (verdict.move (state.position + 1) state).position := by
    rw [Verdict.move_position, settledRevisions, List.filter_append, List.map_append]
    change settledRevisions effects ++ _ = _
    rw [resolved.settled]
    cases done : verdict.settles with
    | true => simp [done, List.range'_1_concat, Nat.add_comm 1]
    | false => simp [done]
  have parked : (verdict.move (state.position + 1) state).parked =
      parkedRevisions (effects ++ [⟨state.position + 1, verdict⟩]) := by
    rw [parkedRevisions, List.filter_append, List.map_append]
    change _ = parkedRevisions effects ++ _
    rw [← resolved.parked]
    cases verdict with
    | acknowledged | retried => exact (List.append_nil _).symm
    | parked => rfl
  refine ⟨?_, settled, parked, ?_, ?_⟩
  · rw [Verdict.move_position]
    split
    · exact waits
    · exact resolved.within
  · rw [parked]
    exact parked_increasing settled
  · rw [triesSince, List.reverse_append, List.reverse_singleton, List.singleton_append]
    cases verdict with
    | acknowledged | parked => rfl
    | retried =>
      show (state.retryCount + 1).toNat = (triesSince effects + 1) % 2 ^ 32
      rw [UInt32.toNat_add, resolved.tries]
      exact Nat.mod_add_mod _ _ _

end ConsumerGroup

namespace EventLog

variable {log : EventLog} {stream group : String}

/-- The story of a group as far as a log has come. -/
def Tells (stream group : String) (effects : List Effect) (log : EventLog) : Prop :=
  match log.group? stream group with
  | none => effects = []
  | some state => state.Resolved (log.tail stream) effects

private theorem tells_step {effects : List Effect} (m : LogMove) (inPlace : ∀ stream, InPlace (log.events stream))
    (tells : log.Tells stream group effects) :
    (log.step m).Tells stream group (effects ++ (log.effect? stream group m).toList) := by
  have grows : log.tail stream ≤ (log.step m).tail stream := ((step_moved log m).grows stream).length_le
  unfold Tells at tells ⊢
  cases step_regrouped stream group log m inPlace with
  | same kept =>
    rw [effect?, if_pos kept, Option.toList_none, List.append_nil, kept]
    split at tells
    · exact tells
    · exact tells.mono grows
  | created absent new silent =>
    rw [absent] at tells
    rw [effect?, new, absent, if_neg nofun, silent, tells]
    exact ConsumerGroup.resolved_start _
  | @answered state verdict there waits told moved =>
    rw [there] at tells
    have changed : ¬ some (verdict.move (state.position + 1) state) = some state :=
      fun same => verdict.move_ne _ _ (Option.some.inj same)
    rw [effect?, moved, there, if_neg changed, told]
    exact (tells.answered waits verdict).mono grows

private theorem tells_history (stream group : String) (moves : List LogMove) :
    (({} : EventLog).run moves).Tells stream group (({} : EventLog).effects stream group moves) := by
  induction moves using List.reverseRecOn with
  | nil => rfl
  | append_singleton moves m ih =>
    rw [run_snoc, effects_snoc]
    exact tells_step m (inPlace_history moves) ih

/-! ### Members -/

theorem subscribe_eq_ok {s : Subscription} (joined : ((subscribe stream group).outcome log).1 = .ok s) :
    s = ⟨stream, group, log.generation⟩ ∧ ∃ state, log.group? stream group = some state := by
  rw [subscribe, outcome_ofFunction] at joined
  split at joined
  · rename_i state there
    exact ⟨(Except.ok.inj joined).symm, state, there⟩
  · cases joined

/-- What a member is answered while its subscription lasts: it is handed the event behind the position of its group,
and the group takes answers about that event and no other. -/
structure Serves (log : EventLog) (s : Subscription) (state : ConsumerGroup) : Prop where
  next : if state.position < log.tail s.stream
    then ∃ d, (next s).outcome log = (.ok (.ready d), log) ∧ d.revision = state.position + 1 ∧
      d.retryCount = state.retryCount
    else (EventLog.next s).outcome log = (.ok .waiting, log)
  acknowledges : ∀ d, ((acknowledge s d).outcome log).1 = .ok () ∧
    ((acknowledge s d).outcome log).2.group? s.stream s.group = some
      (if d.revision = state.position + 1 ∧ d.revision ≤ log.tail s.stream
        then Verdict.acknowledged.move d.revision state else state)
  rejects : ∀ d rejection, ((reject s d rejection).outcome log).1 = .ok () ∧
    ((reject s d rejection).outcome log).2.group? s.stream s.group = some
      (if d.revision = state.position + 1 ∧ d.revision ≤ log.tail s.stream
        then (Verdict.ofRejection rejection).move d.revision state else state)

/-- What it is answered from then on. -/
structure TurnsAway (log : EventLog) (s : Subscription) : Prop where
  next : (EventLog.next s).outcome log = (.ok .ended, log)
  acknowledges : ∀ d, (acknowledge s d).outcome log = (.error .subscriptionCancelled, log)
  rejects : ∀ d rejection, (reject s d rejection).outcome log = (.error .subscriptionCancelled, log)

private theorem next_live {s : Subscription} {state : ConsumerGroup} (inPlace : InPlace (log.events s.stream))
    (live : log.generation = s.generation) (there : log.group? s.stream s.group = some state) :
    if state.position < log.tail s.stream
    then ∃ d, (next s).outcome log = (.ok (.ready d), log) ∧ d.revision = state.position + 1 ∧
      d.retryCount = state.retryCount
    else (next s).outcome log = (.ok .waiting, log) := by
  cases waits : (log.events s.stream)[state.position]? with
  | none =>
    have short : log.tail s.stream ≤ state.position := List.getElem?_eq_none_iff.mp waits
    rw [if_neg (Nat.not_lt.mpr short)]
    exact next_exhausted live there waits
  | some event =>
    have within : state.position < log.tail s.stream := (List.getElem?_eq_some_iff.mp waits).1
    rw [if_pos within]
    exact ⟨⟨event, state.retryCount⟩, Awaits.next ⟨live, there, waits⟩, inPlace _ _ waits, rfl⟩

private theorem judge_group {s : Subscription} {state : ConsumerGroup} (inPlace : InPlace (log.events s.stream))
    (live : log.generation = s.generation) (there : log.group? s.stream s.group = some state) (revision : Revision)
    (verdict : Verdict) :
    ((judge s revision verdict).outcome log).1 = .ok () ∧
      ((judge s revision verdict).outcome log).2.group? s.stream s.group = some
        (if revision = state.position + 1 ∧ revision ≤ log.tail s.stream then verdict.move revision state
          else state) := by
  rw [judge_live inPlace live there]
  refine ⟨rfl, ?_⟩
  dsimp only
  split
  · exact (group?_setGroup ..).trans (if_pos ⟨rfl, rfl⟩)
  · exact there

private theorem serves_of_live {s : Subscription} {state : ConsumerGroup} (inPlace : InPlace (log.events s.stream))
    (live : log.generation = s.generation) (there : log.group? s.stream s.group = some state) :
    log.Serves s state where
  next := next_live inPlace live there
  acknowledges d := by
    rw [acknowledge_eq]
    exact judge_group inPlace live there _ _
  rejects d rejection := by
    rw [reject_eq]
    exact judge_group inPlace live there _ _

private theorem turnsAway_of_ended {s : Subscription} (ended : log.generation ≠ s.generation) : log.TurnsAway s where
  next := next_cancelled ended
  acknowledges d := by
    rw [acknowledge_eq]
    exact judge_cancelled ended _ _
  rejects d rejection := by
    rw [reject_eq]
    exact judge_cancelled ended _ _

/-- Members are served until subscriptions are cancelled, and turned away from then on. -/
private theorem serves_history (earlier later : List LogMove) {s : Subscription}
    (joined : ((subscribe stream group).outcome (({} : EventLog).run earlier)).1 = .ok s) :
    if .cancel ∈ later then (({} : EventLog).run (earlier ++ later)).TurnsAway s
    else ∃ state, (({} : EventLog).run (earlier ++ later)).group? stream group = some state ∧
      (({} : EventLog).run (earlier ++ later)).Serves s state := by
  obtain ⟨rfl, state, there⟩ := subscribe_eq_ok joined
  have generation := (run_generation (({} : EventLog).run earlier) later).2
  have inPlace := inPlace_history (earlier ++ later) stream
  obtain ⟨state', there'⟩ := run_group later (inPlace_history earlier) there
  rw [run_append] at inPlace ⊢
  split
  · rename_i cancelled
    exact turnsAway_of_ended fun same => generation.mp same cancelled
  · rename_i lasting
    exact ⟨state', there', serves_of_live inPlace (generation.mpr lasting) there'⟩

/-- A group settles the events of its stream one by one, each by one answer, whoever answers what, in whatever
order, and however often subscriptions are cancelled and renewed; and each of its members is served or turned
away. How often the event at hand was tried is counted modulo 2 ^ 32. -/
theorem settled_in_order (stream group : String) (moves : List LogMove) :
    (∀ state, (({} : EventLog).run moves).group? stream group = some state →
      state.Resolved ((({} : EventLog).run moves).tail stream) (({} : EventLog).effects stream group moves) ∧
        ∀ m, ∃ state', (({} : EventLog).run (moves ++ [m])).group? stream group = some state' ∧
          (state'.position = state.position ∨ state'.position = state.position + 1)) ∧
      ∀ earlier later s, moves = earlier ++ later →
        ((subscribe stream group).outcome (({} : EventLog).run earlier)).1 = .ok s →
        if .cancel ∈ later then (({} : EventLog).run moves).TurnsAway s
        else ∃ state, (({} : EventLog).run moves).group? stream group = some state ∧
          (({} : EventLog).run moves).Serves s state := by
  refine ⟨?_, ?_⟩
  · intro state there
    have tells := tells_history stream group moves
    rw [Tells, there] at tells
    refine ⟨tells, ?_⟩
    intro m
    rw [run_snoc]
    exact step_position m (inPlace_history moves) there
  · rintro earlier later s rfl joined
    exact serves_history earlier later joined

/-- A member that was handed an event whenever it asks, and answers early, late, and more than once. -/
def answering (s : Subscription) : List LogMove :=
  let handed (revision : Revision) : Delivery := ⟨⟨s.stream, revision, "", []⟩, 0⟩
  [.next s, .acknowledge s (handed 2), .acknowledge s (handed 1), .acknowledge s (handed 1), .next s,
    .reject s (handed 2) .retry, .reject s (handed 2) .park, .reject s (handed 2) .retry]

/-- The member goes on answering after subscriptions were cancelled, while another one takes its place. -/
def contested : List LogMove :=
  let old : Subscription := ⟨"policy", "replica", 0⟩
  let new : Subscription := ⟨"policy", "replica", 1⟩
  [.append "policy" 0 [⟨"", []⟩, ⟨"", []⟩, ⟨"", []⟩], .createGroup "policy" "replica", .subscribe "policy" "replica"] ++
    answering old ++ [.cancel, .acknowledge old ⟨⟨"policy", 3, "", []⟩, 0⟩, .subscribe "policy" "replica"] ++
    answering new ++ [.reject new ⟨⟨"policy", 3, "", []⟩, 0⟩ .retry]

/-- Of all these answers four have an effect; the third event is still to be settled, by the new member. -/
theorem contested_settled :
    let effects := [⟨1, .acknowledged⟩, ⟨2, .retried⟩, ⟨2, .parked⟩, ⟨3, .retried⟩]
    ({} : EventLog).effects "policy" "replica" contested = effects ∧
      ConsumerGroup.Resolved 3 effects ⟨2, 1, [2]⟩ ∧
      (({} : EventLog).run contested).TurnsAway ⟨"policy", "replica", 0⟩ ∧
      (({} : EventLog).run contested).Serves ⟨"policy", "replica", 1⟩ ⟨2, 1, [2]⟩ := by
  have told : ({} : EventLog).effects "policy" "replica" contested =
      [⟨1, .acknowledged⟩, ⟨2, .retried⟩, ⟨2, .parked⟩, ⟨3, .retried⟩] := by
    decide +kernel
  have there : (({} : EventLog).run contested).group? "policy" "replica" = some ⟨2, 1, [2]⟩ := by decide +kernel
  have tail : (({} : EventLog).run contested).tail "policy" = 3 := by decide +kernel
  obtain ⟨groups, members⟩ := settled_in_order "policy" "replica" contested
  have resolved := (groups _ there).1
  rw [told, tail] at resolved
  have old := members (contested.take 3) (contested.drop 3) ⟨"policy", "replica", 0⟩ rfl (by decide +kernel)
  have new := members (contested.take 14) (contested.drop 14) ⟨"policy", "replica", 1⟩ rfl (by decide +kernel)
  rw [if_pos (by decide)] at old
  rw [if_neg (by decide)] at new
  obtain ⟨state, there', serves⟩ := new
  cases there.symm.trans there'
  exact ⟨told, resolved, old, serves⟩

/-- A member that is handed an event and rejects it so often, each time to be tried again. -/
def insisting (tries : Nat) : List LogMove :=
  let s : Subscription := ⟨"policy", "replica", 0⟩
  [.append "policy" 0 [⟨"", []⟩], .createGroup "policy" "replica", .subscribe "policy" "replica", .next s] ++
    List.replicate tries (.reject s ⟨⟨"policy", 1, "", []⟩, 0⟩ .retry)

/-- Each of these rejections has an effect. -/
private theorem effects_insisting (tries : Nat) :
    ({} : EventLog).effects "policy" "replica" (insisting tries) = List.replicate tries ⟨1, .retried⟩ ∧
      (({} : EventLog).run (insisting tries)).generation = 0 ∧
      (({} : EventLog).run (insisting tries)).tail "policy" = 1 ∧
      ∃ state, (({} : EventLog).run (insisting tries)).group? "policy" "replica" = some state ∧ state.position = 0 := by
  induction tries with
  | zero => exact ⟨rfl, rfl, rfl, {}, rfl, rfl⟩
  | succ tries ih =>
    obtain ⟨effects, live, one, state, there, first⟩ := ih
    have inPlace := inPlace_history (insisting tries)
    let s : Subscription := ⟨"policy", "replica", 0⟩
    let d : Delivery := ⟨⟨"policy", 1, "", []⟩, 0⟩
    have more : insisting (tries + 1) = insisting tries ++ [.reject s d .retry] := by
      rw [insisting, List.replicate_succ', ← List.append_assoc]
      rfl
    have moved : (({} : EventLog).run (insisting tries)).step (.reject s d .retry) =
        (({} : EventLog).run (insisting tries)).setGroup "policy" "replica" (Verdict.retried.move 1 state) := by
      rw [step, reject_eq, judge_live (inPlace "policy") live there]
      exact if_pos ⟨congrArg (· + 1) first.symm, Nat.le_of_eq one.symm⟩
    have there' : ((({} : EventLog).run (insisting tries)).step (.reject s d .retry)).group? "policy" "replica" =
        some (Verdict.retried.move 1 state) := by
      rw [moved, group?_setGroup, if_pos ⟨rfl, rfl⟩]
    rw [more, effects_snoc, run_snoc]
    refine ⟨?_, ?_, ?_, _, there', first⟩
    · have changed : ¬ some (Verdict.retried.move 1 state) = some state :=
        fun same => Verdict.move_ne _ _ _ (Option.some.inj same)
      rw [effects, effect?, there', there, if_neg changed, List.replicate_succ']
      rfl
    · rw [moved]
      exact live
    · rw [moved]
      exact one

private theorem tries_insisting (tries : Nat) :
    ∃ state, (({} : EventLog).run (insisting tries)).group? "policy" "replica" = some state ∧
      triesSince (({} : EventLog).effects "policy" "replica" (insisting tries)) = tries ∧
      state.retryCount.toNat = tries % 2 ^ 32 := by
  obtain ⟨effects, _, _, state, there, _⟩ := effects_insisting tries
  have since : triesSince (List.replicate tries ⟨1, .retried⟩) = tries := by
    rw [triesSince, List.reverse_replicate, List.takeWhile_replicate]
    exact List.length_replicate
  have tells := tells_history "policy" "replica" (insisting tries)
  rw [Tells, there] at tells
  exact ⟨state, there, effects ▸ since, by rw [tells.tries, effects, since]⟩

/-- After 2 ^ 32 rejections in a row the count of tries is back at zero. -/
theorem tries_start_over :
    ∃ state, (({} : EventLog).run (insisting (2 ^ 32))).group? "policy" "replica" = some state ∧
      triesSince (({} : EventLog).effects "policy" "replica" (insisting (2 ^ 32))) = 2 ^ 32 ∧
      state.retryCount = 0 := by
  obtain ⟨state, there, since, tries⟩ := tries_insisting (2 ^ 32)
  exact ⟨state, there, since, UInt32.toNat_inj.mp (tries.trans (Nat.mod_self _))⟩

end EventLog
end PolicyLedger
