import Mathlib.Data.List.Induction
import PolicyLedger.Proofs.Waiting
import PolicyLedger.Replication.Consistency
import PolicyLedger.Replication.Replica

/-!
A request held back until its replica has caught up, among others who raise the applied revision and
observe the log meanwhile. Each of their calls is taken apart into what it does at once, so that any of it
may happen between any two steps of the check. A request that is let through sees all that was observed
before it came; one that is refused waited until its deadline in vain, and both waits end there.
-/
namespace PolicyLedger

namespace ConsistencyCheck

variable {now : Nat} {current : Watched Revision} {latest : Watched (Option Revision)} {c next : ConsistencyCheck}

/-- What a step of a check can be. -/
inductive Stepped (now : Nat) (current : Watched Revision) (latest : Watched (Option Revision))
    (c next : ConsistencyCheck) : Prop
  | excluded (phase : c.phase = .starting) (passed : c.config.isExcluded c.method = true)
      (made : next = { c with phase := .finished (.ok ()) })
  | held (phase : c.phase = .starting)
      (made : next = { c with phase := .awaitingLatest { deadline := now + c.config.timeout.ticks } })
  | looked (w after : Waiter Revision) (phase : c.phase = .awaitingLatest w)
      (stepped : w.step id now latest = some after) (made : next = { c with phase := .awaitingLatest after })
  | learned (w : Waiter Revision) (revision : Revision) (phase : c.phase = .awaitingLatest w)
      (answered : w.result? = some (some revision)) (made : next = { c with phase := .comparing revision w.deadline })
  | unknown (w : Waiter Revision) (phase : c.phase = .awaitingLatest w) (answered : w.result? = some none)
      (made : next = { c with phase := .finished (.error (.latestUnknown c.config.timeout)) })
  | fresh (revision : Revision) (deadline : Nat) (phase : c.phase = .comparing revision deadline)
      (reached : revision ≤ current.value) (made : next = { c with phase := .finished (.ok ()) })
  | behind (revision : Revision) (deadline : Nat) (phase : c.phase = .comparing revision deadline)
      (made : next = { c with phase := .awaitingCurrent revision { deadline := max now deadline } })
  | waited (revision : Revision) (w after : Waiter Unit) (phase : c.phase = .awaitingCurrent revision w)
      (stepped : w.step (reached revision) now current = some after)
      (made : next = { c with phase := .awaitingCurrent revision after })
  | caughtUp (revision : Revision) (w : Waiter Unit) (phase : c.phase = .awaitingCurrent revision w)
      (answered : w.result? = some (some ())) (made : next = { c with phase := .finished (.ok ()) })
  | stale (revision : Revision) (w : Waiter Unit) (phase : c.phase = .awaitingCurrent revision w)
      (answered : w.result? = some none)
      (made : next = { c with phase := .finished (.error (.stale current.value revision)) })

theorem step_cases (stepped : c.step now current latest = some next) : Stepped now current latest c next := by
  unfold step at stepped
  split at stepped
  · rename_i phase
    split at stepped
    · rename_i passed
      exact .excluded phase passed (Option.some.inj stepped).symm
    · exact .held phase (Option.some.inj stepped).symm
  · rename_i w phase
    split at stepped
    · rename_i revision answered
      exact .learned w revision phase answered (Option.some.inj stepped).symm
    · rename_i answered
      exact .unknown w phase answered (Option.some.inj stepped).symm
    · obtain ⟨after, made, rfl⟩ := Option.map_eq_some_iff.mp stepped
      exact .looked w after phase made rfl
  · rename_i revision deadline phase
    split at stepped
    · rename_i reached
      exact .fresh revision deadline phase reached (Option.some.inj stepped).symm
    · exact .behind revision deadline phase (Option.some.inj stepped).symm
  · rename_i revision w phase
    split at stepped
    · rename_i answered
      exact .caughtUp revision w phase answered (Option.some.inj stepped).symm
    · rename_i answered
      exact .stale revision w phase answered (Option.some.inj stepped).symm
    · obtain ⟨after, made, rfl⟩ := Option.map_eq_some_iff.mp stepped
      exact .waited revision w after phase made rfl
  · cases stepped

private theorem step_config (stepped : c.step now current latest = some next) : next.config = c.config := by
  cases step_cases stepped with
  | excluded _ _ made | held _ made | looked _ _ _ _ made | learned _ _ _ _ made | unknown _ _ _ made
  | fresh _ _ _ _ made | behind _ _ _ made | waited _ _ _ _ _ made | caughtUp _ _ _ _ made
  | stale _ _ _ _ made => rw [made]

private theorem phase_of_result? {result : Except ConsistencyError Unit} (answered : c.result? = some result) :
    c.phase = .finished result := by
  unfold result? at answered
  split at answered
  · rename_i phase
    rw [phase, Option.some.inj answered]
  · cases answered

end ConsistencyCheck

/-- The latest revision as it is stored: a number, and whether it means anything yet. -/
structure Observed where
  number : Revision := 0
  known : Bool := false
  wakes : Nat := 0

/-- The latest revision as those who wait for it see it. -/
def Observed.watched (o : Observed) : Watched (Option Revision) := ⟨if o.known then some o.number else none, o.wakes⟩

@[simp] theorem Observed.watched_wakes (o : Observed) : o.watched.wakes = o.wakes := rfl

/-- A check among calls that raise the applied revision or observe the latest one. Of these calls it is
counted how many are at which place between two of their steps. -/
structure Gate where
  now : Nat := 0
  current : Watched Revision
  /-- Calls that have raised the applied revision and not yet woken anybody. -/
  raised : Nat := 0
  latest : Observed := {}
  /-- Calls that have noted a revision and not yet made it known. -/
  noted : Nat := 0
  /-- Calls that have made it known and not yet woken anybody. -/
  shown : Nat := 0
  check : ConsistencyCheck

/-- What can happen at a gate. -/
inductive Gate.Turn where
  /-- A call to set the applied revision raises it, or is over if it is not below. -/
  | raise (revision : Revision)
  | wakeCurrent
  /-- A call to observe a revision notes it. -/
  | note (revision : Revision)
  | makeKnown
  | wakeLatest
  /-- Time passes. A check takes its own deadline and that of its first wait from the clock in one step, and so it does
  the time that is left and the deadline of its second wait. -/
  | pass (ticks : Nat)
  /-- The check makes a step, if it has one to make. -/
  | go
  deriving DecidableEq

/-- Whether those who wait are woken. -/
def Gate.Turn.wakes : Gate.Turn → Bool
  | wakeCurrent | wakeLatest => true
  | _ => false

namespace Gate

def step (g : Gate) : Turn → Gate
  | .raise revision =>
    if g.current.value < revision then { g with current := g.current.raise revision, raised := g.raised + 1 } else g
  | .wakeCurrent => if g.raised = 0 then g else { g with current := g.current.wake, raised := g.raised - 1 }
  | .note revision =>
    { g with latest := { g.latest with number := max g.latest.number revision }, noted := g.noted + 1 }
  | .makeKnown =>
    if g.noted = 0 then g
    else { g with latest := { g.latest with known := true }, noted := g.noted - 1, shown := g.shown + 1 }
  | .wakeLatest =>
    if g.shown = 0 then g
    else { g with latest := { g.latest with wakes := g.latest.wakes + 1 }, shown := g.shown - 1 }
  | .pass ticks => { g with now := g.now + ticks }
  | .go => match g.check.step g.now g.current g.latest.watched with
    | some check => { g with check }
    | none => g

def run (g : Gate) (turns : List Turn) : Gate := turns.foldl step g

@[simp] theorem run_nil (g : Gate) : g.run [] = g := rfl

@[simp] theorem run_cons (g : Gate) (t : Turn) (turns : List Turn) : g.run (t :: turns) = (g.step t).run turns := rfl

private theorem run_append (g : Gate) (first second : List Turn) : g.run (first ++ second) = (g.run first).run second :=
  List.foldl_append

private theorem run_snoc (g : Gate) (turns : List Turn) (t : Turn) : g.run (turns ++ [t]) = (g.run turns).step t :=
  run_append g turns [t]

/-- The steps of a call to set the applied revision, one right after the other, are the whole call. -/
theorem run_set (g : Gate) (revision : Revision) (alone : g.raised = 0) :
    g.run [.raise revision, .wakeCurrent] = { g with current := g.current.set revision } := by
  by_cases below : g.current.value < revision
  · simp only [run_cons, run_nil, step, Watched.set, below, alone, if_true]
    rfl
  · have stays : g.run [.raise revision, .wakeCurrent] = g := by simp [step, below, alone]
    rw [stays, Watched.set, if_neg below]

/-- The steps of a call to observe a revision, one right after the other, are the whole call. -/
theorem run_observe (g : Gate) (revision : Revision) (alone : g.noted = 0 ∧ g.shown = 0)
    (unknown : g.latest.known = false → g.latest.number = 0) :
    let after := g.run [.note revision, .makeKnown, .wakeLatest]
    after = { g with latest := after.latest } ∧ after.latest.watched = g.latest.watched.observe revision := by
  cases known : g.latest.known with
  | false => simp [step, alone, Observed.watched, Watched.observe, Watched.wake, known, unknown known]
  | true => simp [step, alone, Observed.watched, Watched.observe, Watched.wake, known]

/-- Nothing goes back: neither time nor what was raised, noted or made known. -/
structure Onward (g h : Gate) : Prop where
  now : g.now ≤ h.now
  current : g.current.value ≤ h.current.value
  number : g.latest.number ≤ h.latest.number
  known : g.latest.known = true → h.latest.known = true

private theorem Onward.refl (g : Gate) : g.Onward g := ⟨Nat.le_refl _, Nat.le_refl _, Nat.le_refl _, id⟩

private theorem Onward.trans {g h i : Gate} (first : g.Onward h) (second : h.Onward i) : g.Onward i :=
  ⟨Nat.le_trans first.now second.now, Nat.le_trans first.current second.current,
    Nat.le_trans first.number second.number, second.known ∘ first.known⟩

private theorem step_onward (g : Gate) (t : Turn) : g.Onward (g.step t) := by
  cases t with
  | raise revision =>
    simp only [step]
    split
    · exact ⟨Nat.le_refl _, Nat.le_max_left _ _, Nat.le_refl _, id⟩
    · exact .refl g
  | wakeCurrent =>
    simp only [step]
    split
    · exact .refl g
    · exact ⟨Nat.le_refl _, Nat.le_refl _, Nat.le_refl _, id⟩
  | note revision => exact ⟨Nat.le_refl _, Nat.le_refl _, Nat.le_max_left _ _, id⟩
  | makeKnown =>
    simp only [step]
    split
    · exact .refl g
    · exact ⟨Nat.le_refl _, Nat.le_refl _, Nat.le_refl _, fun _ => rfl⟩
  | wakeLatest =>
    simp only [step]
    split
    · exact .refl g
    · exact ⟨Nat.le_refl _, Nat.le_refl _, Nat.le_refl _, id⟩
  | pass ticks => exact ⟨Nat.le_add_right _ _, Nat.le_refl _, Nat.le_refl _, id⟩
  | go =>
    simp only [step]
    split
    · exact ⟨Nat.le_refl _, Nat.le_refl _, Nat.le_refl _, id⟩
    · exact .refl g

private theorem run_onward (g : Gate) (turns : List Turn) : g.Onward (g.run turns) := by
  induction turns generalizing g with
  | nil => exact .refl g
  | cons t turns ih => exact (step_onward g t).trans (ih (g.step t))

/-- Along a run, what is noted once counts from then on. -/
private theorem le_number {g : Gate} {turns : List Turn} {revision : Revision} (noted : .note revision ∈ turns) :
    revision ≤ (g.run turns).latest.number := by
  obtain ⟨before, after, rfl⟩ := List.append_of_mem noted
  rw [run_append, run_cons]
  exact Nat.le_trans (Nat.le_max_right _ _) (run_onward ((g.run before).step (.note revision)) after).number

/-- Nobody but the check itself makes it go on. -/
private theorem step_check {g : Gate} {t : Turn} (other : t ≠ .go) : (g.step t).check = g.check := by
  cases t with
  | go => exact absurd rfl other
  | raise | wakeCurrent | makeKnown | wakeLatest =>
    simp only [step]
    split <;> rfl
  | _ => rfl

private theorem run_check {g : Gate} {turns : List Turn} (uncalled : .go ∉ turns) : (g.run turns).check = g.check := by
  induction turns generalizing g with
  | nil => rfl
  | cons t turns ih =>
    rw [List.mem_cons, not_or] at uncalled
    rw [run_cons, ih uncalled.2, step_check (Ne.symm uncalled.1)]

/-! ### What a check has seen -/

/-- Whether something was so at some moment of a run, at its beginning or later. -/
def Saw (g : Gate) (turns : List Turn) (p : Gate → Prop) : Prop := ∃ past, past <+: turns ∧ p (g.run past)

private theorem Saw.now {g : Gate} {turns : List Turn} {p : Gate → Prop} (holds : p (g.run turns)) : g.Saw turns p :=
  ⟨turns, List.prefix_refl turns, holds⟩

private theorem Saw.snoc {g : Gate} {turns : List Turn} {p : Gate → Prop} (saw : g.Saw turns p) (t : Turn) :
    g.Saw (turns ++ [t]) p := by
  obtain ⟨past, before, holds⟩ := saw
  exact ⟨past, before.trans (List.prefix_append turns [t]), holds⟩

/-- Whether something was so all along, up to a moment of a run at the deadline or later. -/
def HeldUntil (g : Gate) (turns : List Turn) (deadline : Nat) (p : Gate → Prop) : Prop :=
  ∃ past, past <+: turns ∧ deadline ≤ (g.run past).now ∧ ∀ earlier, earlier <+: past → p (g.run earlier)

/-- What can not become so was so all along. -/
private theorem HeldUntil.now {g : Gate} {turns : List Turn} {deadline : Nat} {p : Gate → Prop}
    (back : ∀ h i, h.Onward i → p i → p h) (late : deadline ≤ (g.run turns).now) (holds : p (g.run turns)) :
    g.HeldUntil turns deadline p := by
  refine ⟨turns, List.prefix_refl turns, late, ?_⟩
  rintro earlier ⟨rest, rfl⟩
  rw [run_append] at holds
  exact back _ _ (run_onward _ rest) holds

private theorem HeldUntil.snoc {g : Gate} {turns : List Turn} {deadline : Nat} {p : Gate → Prop}
    (held : g.HeldUntil turns deadline p) (t : Turn) : g.HeldUntil (turns ++ [t]) deadline p := by
  obtain ⟨past, before, rest⟩ := held
  exact ⟨past, before.trans (List.prefix_append turns [t]), rest⟩

/-- The latest revision is this one. -/
def Shows (revision : Revision) (g : Gate) : Prop := g.latest.watched.value = some revision

private theorem Shows.number {revision : Revision} {g : Gate} (shows : Shows revision g) :
    revision = g.latest.number := by
  unfold Shows Observed.watched at shows
  split at shows
  · exact (Option.some.inj shows).symm
  · cases shows

/-- No revision is known. -/
def Unknown (g : Gate) : Prop := g.latest.watched.value = none

private theorem Unknown.back (g h : Gate) (onward : g.Onward h) (unknown : h.Unknown) : g.Unknown := by
  unfold Unknown Observed.watched at *
  cases known : g.latest.known with
  | false => rfl
  | true => simp [onward.known known] at unknown

/-- The applied revision is below this one. -/
def Below (revision : Revision) (g : Gate) : Prop := g.current.value < revision

private theorem Below.back {revision : Revision} (g h : Gate) (onward : g.Onward h) (below : h.Below revision) :
    g.Below revision := Nat.lt_of_le_of_lt onward.current below

/-- What stands behind each place a check has come to: what it saw in the run of `turns` since it was
called at `g`, where it got its deadline. -/
def Justified (g : Gate) (deadline : Nat) (turns : List Turn) : CheckPhase → Prop
  | .starting => False
  | .awaitingLatest w => w.deadline = deadline ∧
      (∀ revision, w.result? = some (some revision) → g.Saw turns (Shows revision)) ∧
      (w.result? = some none → g.HeldUntil turns deadline Unknown)
  | .comparing revision due => due = deadline ∧ g.Saw turns (Shows revision)
  | .awaitingCurrent revision w => g.Saw turns (Shows revision) ∧
      deadline ≤ w.deadline ∧ (w.deadline = deadline ∨ w.deadline ≤ (g.run turns).now) ∧
      (w.result? = some (some ()) → revision ≤ (g.run turns).current.value) ∧
      (w.result? = some none → g.HeldUntil turns deadline (Below revision))
  | .finished (.ok ()) => ∃ revision, g.Saw turns (Shows revision) ∧ revision ≤ (g.run turns).current.value
  | .finished (.error e) => e = .latestUnknown g.check.config.timeout ∧ g.HeldUntil turns deadline Unknown ∨
      ∃ reported revision, e = .stale reported revision ∧ g.Saw turns (Shows revision) ∧
        g.HeldUntil turns deadline (Below revision)

private theorem Justified.snoc {g : Gate} {deadline : Nat} {turns : List Turn} {phase : CheckPhase}
    (justified : g.Justified deadline turns phase) (t : Turn) : g.Justified deadline (turns ++ [t]) phase := by
  have onward : (g.run turns).Onward (g.run (turns ++ [t])) := by
    rw [run_snoc]
    exact step_onward _ t
  unfold Justified at justified ⊢
  -- What was seen stays seen, so only what is said of the present moment needs that nothing goes back.
  split at justified
  · exact justified
  · obtain ⟨due, shown, blank⟩ := justified
    exact ⟨due, fun revision answered => (shown revision answered).snoc t, fun answered => (blank answered).snoc t⟩
  · exact ⟨justified.1, justified.2.snoc t⟩
  · obtain ⟨shown, late, due, reached, behind⟩ := justified
    refine ⟨shown.snoc t, late, ?_, ?_, fun answered => (behind answered).snoc t⟩
    · exact due.imp_right fun passed => Nat.le_trans passed onward.now
    · intro answered
      exact Nat.le_trans (reached answered) onward.current
  · obtain ⟨revision, shown, reached⟩ := justified
    exact ⟨revision, shown.snoc t, Nat.le_trans reached onward.current⟩
  · rcases justified with ⟨told, blank⟩ | ⟨reported, revision, told, shown, behind⟩
    · exact .inl ⟨told, blank.snoc t⟩
    · exact .inr ⟨reported, revision, told, shown.snoc t, behind.snoc t⟩

/-- A step of the check comes to a place that what was seen until now stands behind. -/
private theorem Justified.step {g : Gate} {deadline : Nat} {turns : List Turn} {c next : ConsistencyCheck}
    (justified : g.Justified deadline turns c.phase) (config : c.config = g.check.config)
    (stepped : c.step (g.run turns).now (g.run turns).current (g.run turns).latest.watched = some next) :
    g.Justified deadline turns next.phase := by
  cases ConsistencyCheck.step_cases stepped with
  | excluded phase _ made | held phase made =>
    rw [phase] at justified
    exact justified.elim
  | looked w after phase stepped made =>
    rw [phase] at justified
    obtain ⟨due, shown, blank⟩ := justified
    rw [made]
    refine ⟨(Waiter.step_deadline stepped).trans due, ?_, ?_⟩
    · intro revision answered
      exact Saw.now (Waiter.step_result stepped answered).1.symm
    · intro answered
      obtain ⟨nothing, late⟩ := Waiter.step_result stepped answered
      exact HeldUntil.now Unknown.back (due ▸ late rfl) nothing.symm
  | learned w revision phase answered made =>
    rw [phase] at justified
    rw [made]
    exact ⟨justified.1, justified.2.1 revision answered⟩
  | unknown w phase answered made =>
    rw [phase] at justified
    rw [made]
    exact .inl ⟨by rw [config], justified.2.2 answered⟩
  | fresh revision due phase reached made =>
    rw [phase] at justified
    rw [made]
    exact ⟨revision, justified.2, reached⟩
  | behind revision due phase made =>
    rw [phase] at justified
    obtain ⟨rfl, shown⟩ := justified
    rw [made]
    -- If time has passed since the comparison, what is left of the patience is nothing, and the wait ends at once.
    refine ⟨shown, Nat.le_max_right _ _, ?_, nofun, nofun⟩
    rcases Nat.le_total (g.run turns).now due with early | late
    · exact .inl (Nat.max_eq_right early)
    · exact .inr (Nat.le_of_eq (Nat.max_eq_left late))
  | waited revision w after phase stepped made =>
    rw [phase] at justified
    obtain ⟨shown, late, due, _⟩ := justified
    rw [made]
    have same := Waiter.step_deadline stepped
    refine ⟨shown, same ▸ late, same ▸ due, ?_, ?_⟩
    · intro answered
      exact reached_eq_some.mp (Waiter.step_result stepped answered).1.symm
    · intro answered
      obtain ⟨short, overdue⟩ := Waiter.step_result stepped answered
      exact HeldUntil.now Below.back (Nat.le_trans late (overdue rfl)) (reached_eq_none.mp short.symm)
  | caughtUp revision w phase answered made =>
    rw [phase] at justified
    rw [made]
    exact ⟨revision, justified.1, justified.2.2.2.1 answered⟩
  | stale revision w phase answered made =>
    rw [phase] at justified
    rw [made]
    exact .inr ⟨_, revision, rfl, justified.1, justified.2.2.2.2 answered⟩

private theorem step_config {g : Gate} {t : Turn} : (g.step t).check.config = g.check.config := by
  by_cases own : t = .go
  · subst own
    simp only [step]
    split
    · rename_i next stepped
      exact ConsistencyCheck.step_config stepped
    · rfl
  · rw [step_check own]

private theorem run_config {g : Gate} {turns : List Turn} : (g.run turns).check.config = g.check.config := by
  induction turns generalizing g with
  | nil => rfl
  | cons t turns ih => exact ih.trans step_config

private theorem justified_snoc {g : Gate} {deadline : Nat} {turns : List Turn}
    (justified : g.Justified deadline turns (g.run turns).check.phase) (t : Turn) :
    g.Justified deadline (turns ++ [t]) (g.run (turns ++ [t])).check.phase := by
  refine Justified.snoc ?_ t
  rw [run_snoc]
  by_cases own : t = .go
  · subst own
    simp only [Gate.step]
    split
    · rename_i next stepped
      exact justified.step run_config stepped
    · exact justified
  · rw [step_check own]
    exact justified

theorem justified_run {g : Gate} {w : Waiter Revision} (phase : g.check.phase = .awaitingLatest w)
    (waiting : w.result? = none) (turns : List Turn) :
    g.Justified w.deadline turns (g.run turns).check.phase := by
  induction turns using List.reverseRecOn with
  | nil =>
    rw [run_nil, phase]
    exact ⟨rfl, by simp [waiting], by simp [waiting]⟩
  | append_singleton turns t ih => exact justified_snoc ih t

/-! ### How long a check can go on -/

/-- How many steps of its own a check needs to its answer after the deadline, if nobody is woken any more. -/
def stepsLeft (g : Gate) : Nat :=
  match g.check.phase with
  | .starting => 10
  | .awaitingLatest w => w.stepsLeft g.latest.wakes + 6
  | .comparing .. => 5
  | .awaitingCurrent _ w => w.stepsLeft g.current.wakes + 1
  | .finished _ => 0

/-- The deadline of whatever the check waits for is there. -/
def Due (g : Gate) : Prop :=
  match g.check.phase with
  | .starting => False
  | .awaitingLatest w => w.deadline ≤ g.now
  | .comparing _ deadline => deadline ≤ g.now
  | .awaitingCurrent _ w => w.deadline ≤ g.now
  | .finished _ => True

private theorem Justified.due {g : Gate} {deadline : Nat} {turns : List Turn}
    (justified : g.Justified deadline turns (g.run turns).check.phase) (late : deadline ≤ (g.run turns).now) :
    (g.run turns).Due := by
  unfold Due
  cases phase : (g.run turns).check.phase with
  | starting =>
    rw [phase] at justified
    exact justified
  | awaitingLatest w =>
    rw [phase] at justified
    exact Nat.le_trans (Nat.le_of_eq justified.1) late
  | comparing revision due =>
    rw [phase] at justified
    exact Nat.le_trans (Nat.le_of_eq justified.1) late
  | awaitingCurrent revision w =>
    rw [phase] at justified
    rcases justified.2.2.1 with same | passed
    · exact Nat.le_trans (Nat.le_of_eq same) late
    · exact passed
  | finished result => trivial

private theorem stepsLeft_le (g : Gate) : g.stepsLeft ≤ 11 := by
  unfold stepsLeft
  split
  · omega
  · rename_i w _
    have few := w.stepsLeft_le g.latest.wakes
    omega
  · omega
  · rename_i w _
    have few := w.stepsLeft_le g.current.wakes
    omega
  · omega

private theorem result?_of_stepsLeft {g : Gate} (done : g.stepsLeft = 0) : g.check.result?.isSome := by
  unfold stepsLeft at done
  split at done
  · omega
  · omega
  · omega
  · omega
  · rename_i result phase
    simp [ConsistencyCheck.result?, phase]

/-- From the deadline on, every step of the check counts. -/
private theorem stepsLeft_go {g : Gate} (due : g.Due) : (g.step .go).stepsLeft ≤ g.stepsLeft - 1 := by
  obtain ⟨now, current, raised, latest, noted, shown, ⟨config, method, phase⟩⟩ := g
  cases phase with
  | starting => exact due.elim
  | awaitingLatest w =>
    cases answered : w.result? with
    | none =>
      obtain ⟨after, stepped⟩ := Waiter.exists_step id latest.watched due answered
      have fewer := Waiter.stepsLeft_lt stepped
      rw [Observed.watched_wakes] at fewer
      simp only [step, ConsistencyCheck.step, answered, stepped, Option.map_some, stepsLeft]
      omega
    | some answer =>
      cases answer with
      | none => simp [step, ConsistencyCheck.step, answered, stepsLeft]
      | some revision =>
        simp only [step, ConsistencyCheck.step, answered, stepsLeft]
        omega
  | comparing revision deadline =>
    by_cases enough : revision ≤ current.value
    · simp [step, ConsistencyCheck.step, enough, stepsLeft]
    · simp [step, ConsistencyCheck.step, enough, stepsLeft, Waiter.stepsLeft]
  | awaitingCurrent revision w =>
    cases answered : w.result? with
    | none =>
      obtain ⟨after, stepped⟩ := Waiter.exists_step (reached revision) current due answered
      have fewer := Waiter.stepsLeft_lt stepped
      simp only [step, ConsistencyCheck.step, answered, stepped, Option.map_some, stepsLeft]
      omega
    | some answer =>
      cases answer with
      | none => simp [step, ConsistencyCheck.step, answered, stepsLeft]
      | some reached => simp [step, ConsistencyCheck.step, answered, stepsLeft]
  | finished result => exact Nat.le_refl 0

/-- What others do costs the check nothing but three steps for each time that somebody is woken. -/
private theorem stepsLeft_other {g : Gate} {t : Turn} (other : t ≠ .go) :
    (g.step t).stepsLeft ≤ g.stepsLeft + if t.wakes then 3 else 0 := by
  have same {h : Gate} (check : h.check = g.check) (latest : h.latest.wakes = g.latest.wakes)
      (current : h.current.wakes = g.current.wakes) : h.stepsLeft = g.stepsLeft := by
    unfold stepsLeft
    rw [check, latest, current]
  cases t with
  | go => exact absurd rfl other
  | raise revision =>
    simp only [step]
    split
    · exact Nat.le_of_eq (same rfl rfl rfl)
    · exact Nat.le_add_right _ _
  | note revision => exact Nat.le_of_eq (same rfl rfl rfl)
  | makeKnown =>
    simp only [step]
    split
    · exact Nat.le_add_right _ _
    · exact Nat.le_of_eq (same rfl rfl rfl)
  | pass ticks => exact Nat.le_of_eq (same rfl rfl rfl)
  | wakeCurrent =>
    simp only [step, Turn.wakes, if_true]
    split
    · exact Nat.le_add_right _ _
    · unfold stepsLeft
      cases phase : g.check.phase with
      | awaitingCurrent revision w =>
        have cost := w.stepsLeft_wake g.current.wakes
        simp only [Watched.wake]
        omega
      | _ => simp
  | wakeLatest =>
    simp only [step, Turn.wakes, if_true]
    split
    · exact Nat.le_add_right _ _
    · unfold stepsLeft
      cases phase : g.check.phase with
      | awaitingLatest w =>
        have cost := w.stepsLeft_wake g.latest.wakes
        simp only
        omega
      | _ => simp

/-- An answer stays. -/
private theorem step_answered {g : Gate} {t : Turn} (answered : g.check.result?.isSome) :
    (g.step t).check.result?.isSome := by
  by_cases own : t = .go
  · subst own
    cases phase : g.check.phase with
    | finished result =>
      have ended : g.check.step g.now g.current g.latest.watched = none := by simp [ConsistencyCheck.step, phase]
      simp only [step, ended]
      exact answered
    | _ => simp [ConsistencyCheck.result?, phase] at answered
  · rw [step_check own]
    exact answered

private theorem run_answered {g : Gate} {turns : List Turn} (answered : g.check.result?.isSome) :
    (g.run turns).check.result?.isSome := by
  induction turns generalizing g with
  | nil => exact answered
  | cons t turns ih => exact ih (step_answered answered)

/-- From the deadline on, a check is over after so many steps of its own. -/
private theorem answered_after {g : Gate} {deadline : Nat} {turns : List Turn}
    (justified : g.Justified deadline turns (g.run turns).check.phase) (late : deadline ≤ (g.run turns).now)
    {more : List Turn} (enough : (g.run turns).stepsLeft + 3 * more.countP Turn.wakes ≤ more.count .go) :
    ((g.run turns).run more).check.result?.isSome := by
  -- Every step of the check lowers `stepsLeft`, and what others raise it by is paid for in `enough`.
  induction more generalizing turns with
  | nil => exact result?_of_stepsLeft (by simpa using enough)
  | cons t more ih =>
    rcases Nat.eq_zero_or_pos (g.run turns).stepsLeft with ended | waiting
    · exact run_answered (result?_of_stepsLeft ended)
    have onward := step_onward (g.run turns) t
    rw [run_cons, ← run_snoc]
    apply ih (justified_snoc justified t)
    · rw [run_snoc]
      exact Nat.le_trans late onward.now
    · rw [run_snoc]
      by_cases own : t = .go
      · subst own
        have fewer := stepsLeft_go (justified.due late)
        rw [List.countP_cons_of_neg (by decide), List.count_cons_self] at enough
        omega
      · have cost := stepsLeft_other (g := g.run turns) own
        rw [List.countP_cons, List.count_cons_of_ne own] at enough
        split at cost
        · rename_i wakes
          rw [if_pos wakes] at enough
          omega
        · rename_i silent
          rw [if_neg silent] at enough
          omega

/-! ### Reads that are let through -/

/-- A gate before anything was observed, in front of a replica at some revision. -/
def opening (config : ConsistencyConfig) (method : String) (applied : Revision) : Gate :=
  { current := ⟨applied, 0⟩, check := { config, method } }

/-- The gate when a request has just come, after all that happened before it. -/
def calledAfter (before : List Turn) (config : ConsistencyConfig) (method : String) (applied : Revision) : Gate :=
  ((opening config method applied).run before).step .go

/-- A check has its deadline from when it was called, whatever was under way then. -/
private theorem justified_called {config : ConsistencyConfig} {method : String} {before : List Turn}
    (applied : Revision)
    (held : config.isExcluded method = false) (uncalled : .go ∉ before) (after : List Turn) :
    let called := calledAfter before config method applied
    called.check.config = config ∧
      called.Justified (called.now + config.timeout.ticks) after (called.run after).check.phase := by
  intro called
  have check : ((opening config method applied).run before).check = { config, method } := run_check uncalled
  have begun : called.check =
      { config, method, phase := .awaitingLatest { deadline := called.now + config.timeout.ticks } } := by
    simp [called, calledAfter, step, check, ConsistencyCheck.step, held]
  exact ⟨by rw [begun], justified_run (by rw [begun]) rfl after⟩

/-- Of the latest revision that a check was shown, nothing is missing that was noted before it was called. -/
private theorem noted_before {config : ConsistencyConfig} {method : String} {applied : Revision}
    {before after : List Turn}
    {latest revision : Revision} (shown : (calledAfter before config method applied).Saw after (Shows latest))
    (noted : .note revision ∈ before) : revision ≤ latest := by
  obtain ⟨past, _, shows⟩ := shown
  have called := step_onward ((opening config method applied).run before) .go
  have onward := called.trans (run_onward (calledAfter before config method applied) past)
  exact Nat.le_trans (le_number noted) (Nat.le_trans onward.number (Nat.le_of_eq shows.number.symm))

/-- A check sleeps until its deadline, or until a moment that has passed already. -/
private theorem Justified.wakes {g : Gate} {deadline time : Nat} {turns : List Turn}
    (justified : g.Justified deadline turns (g.run turns).check.phase)
    (sleeps : (g.run turns).check.wakeTime? = some time) :
    time = deadline ∨ deadline < time ∧ time ≤ (g.run turns).now := by
  unfold ConsistencyCheck.wakeTime? at sleeps
  split at sleeps
  · rename_i w phase
    rw [phase] at justified
    exact .inl ((Waiter.wakeTime?_eq_some sleeps).trans justified.1)
  · rename_i latest w phase
    rw [phase] at justified
    obtain ⟨_, late, due, _⟩ := justified
    rw [Waiter.wakeTime?_eq_some sleeps]
    rcases Nat.lt_or_eq_of_le late with later | same
    · exact due.imp_right fun passed => ⟨later, passed⟩
    · exact .inl same.symm
  · cases sleeps

/-- A request comes after the calls of `before`, of which any may still be under way. If it is let through, the
applied revision has reached a latest revision that was shown since it came and that is not below any that was
noted before it came; so a replica not behind the applied revision has all of these. If it is refused, then either
no revision was known until the deadline, or the applied revision was below the latest one that was shown until
the deadline. It never sleeps beyond the deadline, and from then on it is answered after eleven steps of its own,
and three more for each time that somebody is woken. -/
theorem admitted_read_is_fresh (config : ConsistencyConfig) (method : String) (applied : Revision)
    (before after : List Turn) (held : config.isExcluded method = false) (uncalled : .go ∉ before) :
    let called := calledAfter before config method applied
    let deadline := called.now + config.timeout.ticks
    let g := called.run after
    (g.check.result? = some (.ok ()) →
      (∃ latest, called.Saw after (Shows latest) ∧ (∀ revision, .note revision ∈ before → revision ≤ latest) ∧
        latest ≤ g.current.value) ∧
      ∀ replica : Replica, g.current.value ≤ replica.revision →
        ∀ revision, .note revision ∈ before → revision ≤ replica.revision) ∧
    (∀ e, g.check.result? = some (.error e) →
      e = .latestUnknown config.timeout ∧ called.HeldUntil after deadline Unknown ∨
      ∃ reported latest, e = .stale reported latest ∧ called.Saw after (Shows latest) ∧
        called.HeldUntil after deadline (Below latest)) ∧
    (∀ time, g.check.wakeTime? = some time → time = deadline ∨ deadline < time ∧ time ≤ g.now) ∧
    (deadline ≤ g.now → ∀ more : List Turn, 11 + 3 * more.countP Turn.wakes ≤ more.count .go →
      (g.run more).check.result?.isSome) := by
  intro called deadline g
  obtain ⟨own, justified⟩ := justified_called applied held uncalled after
  refine ⟨?_, ?_, fun time sleeps => justified.wakes sleeps, ?_⟩
  · intro passed
    rw [ConsistencyCheck.phase_of_result? passed] at justified
    obtain ⟨latest, shown, reached⟩ := justified
    refine ⟨⟨latest, shown, fun revision noted => noted_before shown noted, reached⟩, ?_⟩
    intro replica follows revision noted
    exact Nat.le_trans (noted_before shown noted) (Nat.le_trans reached follows)
  · intro e refused
    rw [ConsistencyCheck.phase_of_result? refused] at justified
    rw [← own]
    exact justified
  · intro late more enough
    exact answered_after justified late (Nat.le_trans (Nat.add_le_add_right (stepsLeft_le g) _) enough)

/-- The request sleeps, the replica goes on to revision 2, and the request is woken. -/
def catchingUp : List Turn :=
  List.replicate 6 .go ++ [.pass 10, .raise 2, .wakeCurrent] ++ List.replicate 4 .go

/-- The gate when a request comes to a replica at revision 1 and revision 2 was observed before. -/
def behindByOne : Gate := calledAfter [.note 2, .makeKnown, .wakeLatest] {} "Query/Read" 1

/-- The request waits until the replica gets there, and not longer. -/
theorem waited_read_is_fresh :
    (behindByOne.run (catchingUp.take 6)).check.wakeTime? = some 5000 ∧ (behindByOne.run catchingUp).now = 10 ∧
      ∃ latest, 2 ≤ latest ∧ latest ≤ (behindByOne.run catchingUp).current.value := by
  have passed : (behindByOne.run catchingUp).check.result? = some (.ok ()) := by decide +kernel
  have sleeps : (behindByOne.run (catchingUp.take 6)).check.wakeTime? = some 5000 := by decide +kernel
  have soon : (behindByOne.run catchingUp).now = 10 := by decide +kernel
  obtain ⟨⟨latest, _, above, reached⟩, _⟩ := (admitted_read_is_fresh {} "Query/Read" 1
    [.note 2, .makeKnown, .wakeLatest] catchingUp (by decide +kernel) (by decide +kernel)).1 passed
  rw [← behindByOne] at reached
  exact ⟨sleeps, soon, latest, above 2 (.head _), reached⟩

end Gate
end PolicyLedger
