import PolicyLedger.Proofs.Attempts
import PolicyLedger.Proofs.Steps

/-!
One request from its first attempt to its answer, whatever the log answers and others do meanwhile. The
request runs once per attempt. Of an attempt that recorded events, just these are appended, once and at the
revision it was made at; only a conflict leads to a pause and another attempt, and none follows the last.
-/
namespace PolicyLedger
open PolicyLedger.Action

/-- What a request came to that was run on a store lent to it. -/
structure Trial (α : Type) where
  result : Except CommandError α
  left : Workspace

namespace Trial
variable {α : Type}

/-- The transaction around a request is closed behind it. -/
def close (t : Trial α) : Except PolicyError Unit × Scratch Store :=
  (Scratch.close (σ := Store)).outcome t.left.inner

/-- The request succeeded and left the transaction around it open, so what it recorded can be appended. -/
structure Succeeded (t : Trial α) (value : α) : Prop where
  result : t.result = .ok value
  closed : t.close.1 = .ok ()

end Trial

/-- A transaction can be closed unless it was closed before. -/
private theorem Scratch.Keeps.close_result {g : Graph} {outer : List Graph} {s : Scratch Store}
    (keeps : s.Keeps g outer) :
    ((Scratch.close (σ := Store)).outcome s).1 = if s.depth = 0 then .error .noTransaction else .ok () := by
  obtain ⟨⟨shown, snapshots⟩, depth⟩ := s
  rcases depth with _ | _ | depth
  · rfl
  · obtain rfl : snapshots = g :: outer := keeps
    rfl
  · rfl

/-- What an adjudication does that is noticed outside of it. -/
inductive Deed (α : Type) where
  /-- Runs the request, which ran `earlier` times before, on a replica at a revision. -/
  | tried (earlier : Nat) (revision : Revision) (trial : Trial α)
  | appended (stream : String) (expected : Revision) (records : List Record) (answer : Except LogError Revision)
  /-- Ends a pause. -/
  | slept (deadline : Nat)

/-- Whether an attempt is about to be made, and no pause comes before it. -/
def AdjudicationPhase.isAhead {α : Type} : AdjudicationPhase α → Bool
  | starting | awaitingPublished .. | attempting => true
  | _ => false

namespace Adjudication
variable {L α : Type} [LogService L] {spec : AdjudicationSpec α}

def trial (spec : AdjudicationSpec α) (earlier : Nat) (store : Store) : Trial α :=
  let ran := (spec.request earlier).outcome (Workspace.lend spec.plugins store)
  ⟨ran.1, ran.2⟩

/-- What an adjudication does in its next step. -/
def deed? (spec : AdjudicationSpec α) (a : Adjudication α) (w : Adjudicating L) : Option (Deed α) :=
  match a.phase with
  | .attempting => some (.tried a.attempts w.replica.revision (trial spec a.attempts w.replica.store))
  | .appending _ events expected =>
    let records := events.map record
    some (.appended spec.stream expected records
      ((LogService.append (L := L) spec.stream expected records).outcome w.log).1)
  | .pausing deadline => some (.slept deadline)
  | _ => none

/-- Log and replica after something was done to them, or nothing. -/
def leaves (w : Adjudicating L) : Option (Deed α) → L × Replica
  | some (.tried _ _ t) => (w.log, { w.replica with store := t.close.2.release })
  | some (.appended stream expected records _) =>
    (((LogService.append (L := L) stream expected records).outcome w.log).2, w.replica)
  | _ => (w.log, w.replica)

/-- A time at which an adjudication may take a step, and what it finds then. Others may have changed any of it
since its last step. -/
structure Moment (L : Type) where
  now : Nat
  world : Adjudicating L

/-- An adjudication at a moment, with the deeds so far and when they were done. -/
def advance (spec : AdjudicationSpec α) (p : Adjudication α × List (Nat × Deed α)) (m : Moment L) :
    Adjudication α × List (Nat × Deed α) :=
  match p.1.step spec m.now m.world with
  | none => p
  | some (a, _) => (a, p.2 ++ ((deed? spec p.1 m.world).map (m.now, ·)).toList)

def run (spec : AdjudicationSpec α) (moments : List (Moment L)) : Adjudication α × List (Nat × Deed α) :=
  moments.foldl (advance spec) ({}, [])

/-! ### What a run can be -/

/-- An attempt, and the one append of what it recorded. -/
def answered (spec : AdjudicationSpec α) (n : Nat) (revision : Revision) (t : Trial α) (tried appended : Nat)
    (answer : Except LogError Revision) : List (Nat × Deed α) :=
  [(tried, .tried n revision t), (appended, .appended spec.stream revision (t.left.events.map record) answer)]

/-- Attempts that were lost to others, and the pauses behind them. There is always one left. -/
inductive Course (spec : AdjudicationSpec α) : Nat → List (Nat × Deed α) → Prop
  | nil : Course spec 0 []
  | lost {n tried appended woken : Nat} {before : List (Nat × Deed α)} {revision : Revision} {t : Trial α}
    {value : α} {e : LogError} (earlier : Course spec n before) (succeeded : t.Succeeded value)
    (something : t.left.events ≠ []) (conflict : e.isConflict = true) (left : n + 1 < maxAttempts spec.config)
    (rested : appended + spec.config.retryInterval.pauseTicks ≤ woken) :
    Course spec (n + 1) (before ++ (answered spec n revision t tried appended (.error e) ++
      [(woken, .slept (appended + spec.config.retryInterval.pauseTicks))]))

/-- The attempt after `n` others, as far as the adjudication is with it. What fails for good is answered at once. -/
inductive Latest (spec : AdjudicationSpec α) (n : Nat) : List (Nat × Deed α) → Adjudication α → Prop
  | ahead {phase : AdjudicationPhase α} (ahead : phase.isAhead = true) : Latest spec n [] ⟨n, phase⟩
  /-- The request closed the transaction around it. -/
  | unclosed {tried : Nat} {revision : Revision} {t : Trial α} {e : PolicyError} (failed : t.close.1 = .error e) :
    Latest spec n [(tried, .tried n revision t)] ⟨n + 1, .finished (.error (.command (.policy e)))⟩
  | refused {tried : Nat} {revision : Revision} {t : Trial α} {e : CommandError} (closed : t.close.1 = .ok ())
    (failed : t.result = .error e) :
    Latest spec n [(tried, .tried n revision t)] ⟨n + 1, .finished (.error (.command e))⟩
  | unchanged {tried : Nat} {revision : Revision} {t : Trial α} {value : α} (succeeded : t.Succeeded value)
    (nothing : t.left.events = []) :
    Latest spec n [(tried, .tried n revision t)] ⟨n + 1, .finished (.ok ⟨value, [], revision⟩)⟩
  | recorded {tried : Nat} {revision : Revision} {t : Trial α} {value : α} (succeeded : t.Succeeded value)
    (something : t.left.events ≠ []) :
    Latest spec n [(tried, .tried n revision t)] ⟨n + 1, .appending value t.left.events revision⟩
  | appended {tried appended : Nat} {revision reached : Revision} {t : Trial α} {value : α} {a : Adjudication α}
    (succeeded : t.Succeeded value) (something : t.left.events ≠ []) (attempts : a.attempts = n + 1)
    (settled : a.stage = .settled (.ok ⟨value, t.left.events, reached⟩)) :
    Latest spec n (answered spec n revision t tried appended (.ok reached)) a
  | failed {tried appended : Nat} {revision : Revision} {t : Trial α} {value : α} {e : LogError}
    (succeeded : t.Succeeded value) (something : t.left.events ≠ []) (other : e.isConflict = false) :
    Latest spec n (answered spec n revision t tried appended (.error e)) ⟨n + 1, .finished (.error (.log e))⟩
  | exhausted {tried appended : Nat} {revision : Revision} {t : Trial α} {value : α} {e : LogError}
    (succeeded : t.Succeeded value) (something : t.left.events ≠ []) (conflict : e.isConflict = true)
    (last : n + 1 = maxAttempts spec.config) :
    Latest spec n (answered spec n revision t tried appended (.error e))
      ⟨n + 1, .finished (.error (.attemptsExhausted (n + 1) e))⟩
  | pausing {tried appended : Nat} {revision : Revision} {t : Trial α} {value : α} {e : LogError}
    (succeeded : t.Succeeded value) (something : t.left.events ≠ []) (conflict : e.isConflict = true)
    (left : n + 1 < maxAttempts spec.config) :
    Latest spec n (answered spec n revision t tried appended (.error e))
      ⟨n + 1, .pausing (appended + spec.config.retryInterval.pauseTicks)⟩

/-- The deeds of an adjudication up to where it stands. -/
def Goes (spec : AdjudicationSpec α) (a : Adjudication α) (deeds : List (Nat × Deed α)) : Prop :=
  ∃ n before latest, deeds = before ++ latest ∧ Course spec n before ∧ n < maxAttempts spec.config ∧
    Latest spec n latest a

/-! ### Steps -/

private theorem close_trial {n : Nat} {q : Request α} (runs : spec.request n = q.act) (store : Store) :
    (trial spec n store).close.1 =
      if (trial spec n store).left.inner.depth = 0 then .error .noTransaction else .ok () := by
  have lent : (Workspace.lend spec.plugins store).inner.Keeps store.graph store.snapshots := rfl
  obtain ⟨g, -, keeps⟩ := q.keeps_act lent
  rw [← runs] at keeps
  exact keeps.close_result

omit [LogService L] in
theorem attempt_eq (spec : AdjudicationSpec α) (n : Nat) (w : Adjudicating L) :
    attempt spec n w =
      (match (trial spec n w.replica.store).close.1, (trial spec n w.replica.store).result with
        | .error e, _ => .error (.policy e)
        | .ok (), .error e => .error e
        | .ok (), .ok value => .ok (value, (trial spec n w.replica.store).left.events),
      { w with replica := { w.replica with store := (trial spec n w.replica.store).close.2.release } }) := rfl

section
variable {n now tried : Nat} {a b : Adjudication α} {w w' : Adjudicating L} {deeds : List (Nat × Deed α)}

/-- One who waits for an earlier write goes on waiting, or is ready to make the attempt. -/
private theorem step_awaitingPublished {target : Revision} {waiter : Waiter Unit}
    (stepped : (⟨n, .awaitingPublished target waiter⟩ : Adjudication α).step spec now w = some (b, w')) :
    w' = w ∧ ∃ phase, b = ⟨n, phase⟩ ∧ phase.isAhead = true := by
  simp only [step] at stepped
  split at stepped
  · cases stepped
    exact ⟨rfl, _, rfl, rfl⟩
  · obtain ⟨_, _, made⟩ := Option.map_eq_some_iff.mp stepped
    cases made
    exact ⟨rfl, _, rfl, rfl⟩

private theorem step_awaitingApplied {done : Adjudicated α} {waiter : Waiter Unit}
    (stepped : (⟨n, .awaitingApplied done waiter⟩ : Adjudication α).step spec now w = some (b, w')) :
    w' = w ∧ b.attempts = n ∧ b.stage = .settled (.ok done) := by
  simp only [step] at stepped
  split at stepped
  · cases stepped
    exact ⟨rfl, rfl, rfl⟩
  · obtain ⟨_, _, made⟩ := Option.map_eq_some_iff.mp stepped
    cases made
    exact ⟨rfl, rfl, rfl⟩

/-- What comes of an append. -/
private theorem step_appending {value : α} {events : List Event} {expected : Revision}
    (stepped : (⟨n, .appending value events expected⟩ : Adjudication α).step spec now w = some (b, w')) :
    (∃ revision, publish spec events expected w = (.ok revision, w') ∧ b = ⟨n, .noting ⟨value, events, revision⟩⟩) ∨
    ∃ e, publish spec events expected w = (.error e, w') ∧
      (e.isConflict = false ∧ b = ⟨n, .finished (.error (.log e))⟩ ∨
      e.isConflict = true ∧ maxAttempts spec.config ≤ n ∧ b = ⟨n, .finished (.error (.attemptsExhausted n e))⟩ ∨
      e.isConflict = true ∧ n < maxAttempts spec.config ∧
        b = ⟨n, .pausing (now + spec.config.retryInterval.pauseTicks)⟩) := by
  simp only [step] at stepped
  rcases answered : publish spec events expected w with ⟨e | revision, after⟩
  · rw [answered] at stepped
    dsimp only at stepped
    split at stepped
    · rename_i other
      cases stepped
      exact .inr ⟨e, rfl, .inl ⟨by simpa using other, rfl⟩⟩
    · rename_i conflict
      have conflict : e.isConflict = true := by simpa using conflict
      split at stepped
      · rename_i spent
        cases stepped
        exact .inr ⟨e, rfl, .inr (.inl ⟨conflict, spent, rfl⟩)⟩
      · rename_i left
        cases stepped
        exact .inr ⟨e, rfl, .inr (.inr ⟨conflict, Nat.lt_of_not_le left, rfl⟩)⟩
  · rw [answered] at stepped
    cases stepped
    exact .inl ⟨revision, rfl, rfl⟩

/-- An adjudication touches the log and the replica by what it is said to do only. -/
private theorem step_leaves (stepped : a.step spec now w = some (b, w')) :
    (w'.log, w'.replica) = leaves w (deed? spec a w) := by
  obtain ⟨attempts, phase⟩ := a
  cases phase with
  | starting | noting =>
    cases stepped
    rfl
  | attempting =>
    simp only [step, Option.some.injEq, Prod.mk.injEq] at stepped
    obtain ⟨-, rfl⟩ := stepped
    rfl
  | awaitingPublished target waiter =>
    rw [(step_awaitingPublished stepped).1]
    rfl
  | appending value events expected =>
    have kept : w' = (publish spec events expected w).2 := by
      rcases step_appending stepped with ⟨_, answered, _⟩ | ⟨_, answered, _⟩ <;> rw [answered]
    rw [kept]
    rfl
  | pausing deadline =>
    simp only [step] at stepped
    split at stepped
    · cases stepped
      rfl
    · cases stepped
  | awaitingApplied done waiter =>
    rw [(step_awaitingApplied stepped).1]
    rfl
  | finished result => cases stepped

private theorem latest_attempt (stepped : (⟨n, .attempting⟩ : Adjudication α).step spec now w = some (b, w')) :
    Latest spec n [(now, .tried n w.replica.revision (trial spec n w.replica.store))] b := by
  simp only [step, attempt_eq, Option.some.injEq, Prod.mk.injEq] at stepped
  obtain ⟨rfl, -⟩ := stepped
  generalize trial spec n w.replica.store = t
  rcases closed : t.close.1 with e | _
  · exact .unclosed closed
  · rcases ran : t.result with e | value
    · exact .refused closed ran
    · rcases recorded : t.left.events with _ | ⟨e, rest⟩
      · exact .unchanged ⟨ran, closed⟩ recorded
      · have latest : Latest spec n [(now, .tried n w.replica.revision t)]
            ⟨n + 1, .appending value t.left.events w.replica.revision⟩ :=
          .recorded ⟨ran, closed⟩ (by rw [recorded]; exact List.cons_ne_nil _ _)
        rwa [recorded] at latest

private theorem latest_append {revision : Revision} {t : Trial α} {value : α} (succeeded : t.Succeeded value)
    (something : t.left.events ≠ []) (within : n < maxAttempts spec.config)
    (stepped : (⟨n + 1, .appending value t.left.events revision⟩ : Adjudication α).step spec now w =
      some (b, w')) :
    Latest spec n (answered spec n revision t tried now (publish spec t.left.events revision w).1) b := by
  rcases step_appending stepped with ⟨reached, done, rfl⟩ |
    ⟨e, refused, ⟨other, rfl⟩ | ⟨conflict, spent, rfl⟩ | ⟨conflict, left, rfl⟩⟩
  · rw [done]
    exact .appended succeeded something rfl rfl
  · rw [refused]
    exact .failed succeeded something other
  · rw [refused]
    exact .exhausted succeeded something conflict (Nat.le_antisymm within spent)
  · rw [refused]
    exact .pausing succeeded something conflict left

/-- An adjudication that noted what was appended only waits for it. -/
private theorem settled_step {result : Except AdjudicationError (Adjudicated α)} (settled : a.stage = .settled result)
    (stepped : a.step spec now w = some (b, w')) :
    b.stage = .settled result ∧ b.attempts = a.attempts ∧ deed? spec a w = none := by
  obtain ⟨attempts, phase⟩ := a
  cases phase with
  | noting done =>
    cases stepped
    exact ⟨settled, rfl, rfl⟩
  | awaitingApplied done waiter =>
    obtain ⟨-, same, stage⟩ := step_awaitingApplied stepped
    exact ⟨stage.trans settled, same, rfl⟩
  | finished result => cases stepped
  | _ => cases settled

private theorem Goes.step (goes : Goes spec a deeds) (stepped : a.step spec now w = some (b, w')) :
    Goes spec b (deeds ++ ((deed? spec a w).map (now, ·)).toList) := by
  obtain ⟨n, before, latest, rfl, course, within, stands⟩ := goes
  rw [List.append_assoc]
  have goesOn (later : Latest spec n (latest ++ ((deed? spec a w).map (now, ·)).toList) b) :
      Goes spec b (before ++ (latest ++ ((deed? spec a w).map (now, ·)).toList)) :=
    ⟨n, before, _, rfl, course, within, later⟩
  cases stands with
  | @ahead phase ahead =>
    cases phase with
    | starting =>
      cases stepped
      exact goesOn (.ahead rfl)
    | awaitingPublished target waiter =>
      obtain ⟨-, phase, rfl, ahead⟩ := step_awaitingPublished stepped
      exact goesOn (.ahead ahead)
    | attempting => exact goesOn (latest_attempt stepped)
    | _ => cases ahead
  | unclosed | refused | unchanged | failed | exhausted => cases stepped
  | recorded succeeded something => exact goesOn (latest_append succeeded something within stepped)
  | appended succeeded something attempts settled =>
    obtain ⟨stage, same, nothing⟩ := settled_step settled stepped
    rw [nothing] at goesOn ⊢
    exact goesOn (.appended succeeded something (same.trans attempts) stage)
  | pausing succeeded something conflict left =>
    simp only [Adjudication.step] at stepped
    split at stepped
    · rename_i rested
      cases stepped
      -- With its pause behind it the attempt is one of those that were lost, and the next one is ahead.
      refine ⟨n + 1, _, [], (List.append_nil _).symm, ?_, left, .ahead rfl⟩
      exact .lost course succeeded something conflict left rested
    · cases stepped

end

theorem goes_run (spec : AdjudicationSpec α) (moments : List (Moment L)) :
    Goes spec (run spec moments).1 (run spec moments).2 := by
  have within : 0 < maxAttempts spec.config := Nat.le_max_left 1 _
  have begun : Goes spec ({} : Adjudication α) [] := ⟨0, [], [], rfl, .nil, within, .ahead rfl⟩
  unfold run
  generalize ({} : Adjudication α) = a at begun ⊢
  generalize ([] : List (Nat × Deed α)) = deeds at begun ⊢
  induction moments generalizing a deeds with
  | nil => exact begun
  | cons m rest ih =>
    rw [List.foldl_cons, advance]
    cases stepped : a.step spec m.now m.world with
    | none => exact ih a deeds begun
    | some result => exact ih _ _ (begun.step stepped)

/-! ### Attempts -/

/-- The attempts made, each by how many there were before it. -/
def attemptsOf (deeds : List (Nat × Deed α)) : List Nat := deeds.filterMap fun
  | (_, .tried n _ _) => some n
  | _ => none

private theorem attemptsOf_append (deeds later : List (Nat × Deed α)) :
    attemptsOf (deeds ++ later) = attemptsOf deeds ++ attemptsOf later := List.filterMap_append

private theorem Course.attempts {n : Nat} {deeds : List (Nat × Deed α)} (course : Course spec n deeds) :
    attemptsOf deeds = List.range n := by
  induction course with
  | nil => rfl
  | lost earlier succeeded something conflict left rested ih =>
    rw [attemptsOf_append, ih, List.range_succ]
    rfl

private theorem Latest.attempts {n : Nat} {latest : List (Nat × Deed α)} {a : Adjudication α}
    (stands : Latest spec n latest a) :
    attemptsOf latest = [] ∧ a.attempts = n ∨ attemptsOf latest = [n] ∧ a.attempts = n + 1 := by
  cases stands with
  | ahead => exact .inl ⟨rfl, rfl⟩
  | appended succeeded something attempts settled => exact .inr ⟨rfl, attempts⟩
  | _ => exact .inr ⟨rfl, rfl⟩

/-- The request runs once for each attempt, and no more often than there are attempts. -/
private theorem Goes.attempts {a : Adjudication α} {deeds : List (Nat × Deed α)} (goes : Goes spec a deeds) :
    attemptsOf deeds = List.range a.attempts ∧ a.attempts ≤ maxAttempts spec.config := by
  obtain ⟨n, before, latest, rfl, course, within, stands⟩ := goes
  rw [attemptsOf_append, course.attempts]
  rcases stands.attempts with ⟨made, attempts⟩ | ⟨made, attempts⟩
  · rw [made, attempts, List.append_nil]
    exact ⟨rfl, Nat.le_of_lt within⟩
  · rw [made, attempts, List.range_succ]
    exact ⟨rfl, within⟩

/-! ### Conflicts -/

def Deed.conflict? : Deed α → Option LogError
  | .appended _ _ _ (.error e) => if e.isConflict then some e else none
  | _ => none

/-- The conflicts that appends were answered with, in order. -/
def conflicts (deeds : List (Nat × Deed α)) : List LogError := deeds.filterMap fun d => Deed.conflict? d.2

private theorem conflicts_append (deeds later : List (Nat × Deed α)) :
    conflicts (deeds ++ later) = conflicts deeds ++ conflicts later := List.filterMap_append

private theorem conflicts_lost {n tried appended : Nat} {revision : Revision} {t : Trial α} {e : LogError}
    (conflict : e.isConflict = true) : conflicts (answered spec n revision t tried appended (.error e)) = [e] := by
  simp [conflicts, answered, Deed.conflict?, conflict]

private theorem Course.conflicts_length {n : Nat} {deeds : List (Nat × Deed α)} (course : Course spec n deeds) :
    (conflicts deeds).length = n := by
  induction course with
  | nil => rfl
  | lost earlier succeeded something conflict left rested ih =>
    rw [conflicts_append, conflicts_append, conflicts_lost conflict, List.length_append, ih]
    rfl

/-- The latest attempt ended in a conflict if the adjudication gave up or pauses, and in no other case. -/
private theorem Latest.conflicts_cases {n : Nat} {latest : List (Nat × Deed α)} {a : Adjudication α}
    (stands : Latest spec n latest a) :
    (conflicts latest = [] ∧ ∀ k e, a.result? ≠ some (.error (.attemptsExhausted k e))) ∨
    ∃ e, conflicts latest = [e] ∧
      (n + 1 = maxAttempts spec.config ∧ a.result? = some (.error (.attemptsExhausted (n + 1) e)) ∨
      n + 1 < maxAttempts spec.config ∧ a.result? = none) := by
  cases stands with
  | @ahead phase ahead =>
    refine .inl ⟨rfl, fun k e => ?_⟩
    cases phase with
    | starting | awaitingPublished | attempting => nofun
    | _ => cases ahead
  | unclosed | refused | unchanged | recorded => exact .inl ⟨rfl, nofun⟩
  | appended succeeded something attempts settled =>
    obtain ⟨attempts, phase⟩ := a
    refine .inl ⟨rfl, fun k e => ?_⟩
    cases phase with
    | finished result =>
      cases settled
      nofun
    | _ => nofun
  | failed succeeded something other =>
    refine .inl ⟨?_, nofun⟩
    simp [conflicts, answered, Deed.conflict?, other]
  | exhausted succeeded something conflict last => exact .inr ⟨_, conflicts_lost conflict, .inl ⟨last, rfl⟩⟩
  | pausing succeeded something conflict left => exact .inr ⟨_, conflicts_lost conflict, .inr ⟨left, rfl⟩⟩

/-- An adjudication gives up if and only if all attempts it may make ended in conflicts. -/
theorem Goes.exhausted_iff {a : Adjudication α} {deeds : List (Nat × Deed α)} (goes : Goes spec a deeds) (k : Nat)
    (e : LogError) : a.result? = some (.error (.attemptsExhausted k e)) ↔
      k = maxAttempts spec.config ∧ (conflicts deeds).length = k ∧ (conflicts deeds).getLast? = some e := by
  obtain ⟨n, before, latest, rfl, course, within, stands⟩ := goes
  rw [conflicts_append, List.length_append, course.conflicts_length]
  rcases stands.conflicts_cases with ⟨none, goesOn⟩ | ⟨e', one, ⟨last, gaveUp⟩ | ⟨left, goesOn⟩⟩
  · rw [none]
    refine ⟨fun gaveUp => absurd gaveUp (goesOn k e), ?_⟩
    rintro ⟨rfl, all, -⟩
    simp only [List.length_nil] at all
    omega
  · rw [one, gaveUp, List.getLast?_concat]
    constructor
    · intro same
      cases same
      exact ⟨last, rfl, rfl⟩
    · rintro ⟨rfl, -, same⟩
      cases same
      rw [last]
  · rw [one, goesOn]
    refine ⟨nofun, ?_⟩
    rintro ⟨rfl, all, -⟩
    simp only [List.length_singleton] at all
    omega

/-- One adjudication, whatever the log answers and whatever others do between its steps. It makes no more attempts than
it may. Each runs the request once, and appends what this run recorded at the revision it ran at. Another attempt
follows a conflict only, after one pause; what fails otherwise is answered at once. It gives up if and only if all
attempts it may make ended in conflicts, and answers the last of these. Nothing is done to the log and the replica but
what it is said to do. And a request finds its own failure answered unless it closed the transaction around it. -/
theorem bounded_retries (spec : AdjudicationSpec α) (moments : List (Moment L)) :
    let a := (run spec moments).1
    let deeds := (run spec moments).2
    Goes spec a deeds ∧
    attemptsOf deeds = List.range a.attempts ∧ a.attempts ≤ maxAttempts spec.config ∧
    (∀ k e, a.result? = some (.error (.attemptsExhausted k e)) ↔
      k = maxAttempts spec.config ∧ (conflicts deeds).length = k ∧ (conflicts deeds).getLast? = some e) ∧
    (∀ (m : Moment L) (b : Adjudication α) (after : Adjudicating L), a.step spec m.now m.world = some (b, after) →
      (after.log, after.replica) = leaves m.world (deed? spec a m.world)) ∧
    ∀ n (q : Request α), spec.request n = q.act → ∀ store,
      (trial spec n store).close.1 =
        if (trial spec n store).left.inner.depth = 0 then .error .noTransaction else .ok () := by
  intro a deeds
  have goes : Goes spec a deeds := goes_run spec moments
  obtain ⟨once, bounded⟩ := goes.attempts
  refine ⟨goes, once, bounded, goes.exhausted_iff, ?_, ?_⟩
  · intro m b after stepped
    exact step_leaves stepped
  · intro n q runs store
    exact close_trial runs store

/-- Three attempts are made on a replica that stays behind the log. -/
example :
    let log := ((EventLog.append "policy" 0 [record (.policyClassCreated ⟨1⟩ "a")]).outcome {}).2
    let behind : Adjudicating EventLog := ⟨log, {}, ⟨0, 0⟩, 0⟩
    let spec : AdjudicationSpec Outcome :=
      ⟨{}, "policy", ∅, fun _ => (Command.createPolicyClass "b").execute ⟨⟨0⟩, none⟩⟩
    let moments := (List.range 24).map fun k => ⟨2000 * k, behind⟩
    (run spec moments).1.result? = some (.error (.attemptsExhausted 3 (.conflict "policy" 0 1))) := rfl

/-- A request that takes the transaction around it back, and then fails. -/
def masking : Request Unit :=
  .transact .rollback fun _ => .change (.deleteNode ⟨99⟩) fun
    | .error e => .done (.error (.policy e))
    | .ok _ => .done (.ok ())

/-- What is answered is not what the request failed with. -/
theorem failure_masked :
    let spec : AdjudicationSpec Unit := ⟨{}, "policy", ∅, fun _ => masking.act⟩
    let w : Adjudicating EventLog := ⟨{ streams := ∅ }, {}, ⟨0, 0⟩, 0⟩
    (trial spec 0 w.replica.store).result = .error (.policy (.unknownNode ⟨99⟩)) ∧
      (run spec (List.replicate 6 ⟨0, w⟩)).1.result? = some (.error (.command (.policy .noTransaction))) :=
  ⟨rfl, rfl⟩

end Adjudication
end PolicyLedger
