import PolicyLedger.Replication.Revision

/-!
One who waits, step by step. The answer is what the test said at the last look, and it is given up only
after a look at the deadline or later. From there on it takes a few steps to the answer, and at most three
more for each time that others are woken in between.
-/
namespace PolicyLedger

namespace Waiter

variable {α β : Type} {test : α → Option β} {now : Nat} {watched : Watched α} {w next : Waiter β}

/-- What a step of one who waits can be. -/
inductive Stepped (test : α → Option β) (now : Nat) (watched : Watched α) (w next : Waiter β) : Prop
  | registered (phase : w.phase = .registering) (made : next = { w with phase := .checking watched.wakes })
  | found (noted : Nat) (b : β) (phase : w.phase = .checking noted) (passed : test watched.value = some b)
      (made : next = { w with phase := .over (some b) })
  | slept (noted : Nat) (phase : w.phase = .checking noted) (failed : test watched.value = none)
      (made : next = { w with phase := .sleeping noted })
  | woken (noted : Nat) (phase : w.phase = .sleeping noted) (moved : watched.wakes ≠ noted)
      (made : next = { w with phase := .registering })
  | timedOut (noted : Nat) (phase : w.phase = .sleeping noted) (due : w.deadline ≤ now)
      (made : next = { w with phase := .over (test watched.value) })

theorem step_cases (stepped : w.step test now watched = some next) : Stepped test now watched w next := by
  unfold step at stepped
  split at stepped
  · rename_i phase
    exact .registered phase (Option.some.inj stepped).symm
  · rename_i noted phase
    split at stepped
    · rename_i b passed
      exact .found noted b phase passed (Option.some.inj stepped).symm
    · rename_i failed
      exact .slept noted phase failed (Option.some.inj stepped).symm
  · rename_i noted phase
    split at stepped
    · rename_i moved
      exact .woken noted phase moved (Option.some.inj stepped).symm
    · split at stepped
      · rename_i due
        exact .timedOut noted phase due (Option.some.inj stepped).symm
      · cases stepped
  · cases stepped

theorem step_deadline (stepped : w.step test now watched = some next) : next.deadline = w.deadline := by
  cases step_cases stepped with
  | registered _ made | found _ _ _ _ made | slept _ _ _ made | woken _ _ _ made | timedOut _ _ _ made => rw [made]

/-- The answer is what the test says just now; that it says nothing is the answer only from the deadline on. -/
theorem step_result {answer : Option β} (stepped : w.step test now watched = some next)
    (answered : next.result? = some answer) :
    answer = test watched.value ∧ (answer = none → w.deadline ≤ now) := by
  cases step_cases stepped with
  | registered _ made | slept _ _ _ made | woken _ _ _ made =>
    rw [made] at answered
    cases answered
  | found noted b _ passed made =>
    rw [made] at answered
    cases answered
    exact ⟨passed.symm, nofun⟩
  | timedOut noted _ due made =>
    rw [made] at answered
    cases answered
    exact ⟨rfl, fun _ => due⟩

theorem wakeTime?_eq_some {time : Nat} (sleeps : w.wakeTime? = some time) : time = w.deadline := by
  unfold wakeTime? at sleeps
  split at sleeps
  · exact (Option.some.inj sleeps).symm
  · cases sleeps

/-- How many steps of its own one who waits needs to the answer after the deadline, if nobody is woken any
more. -/
def stepsLeft (wakes : Nat) (w : Waiter β) : Nat :=
  match w.phase with
  | .registering => 3
  | .checking noted => if noted = wakes then 2 else 5
  | .sleeping noted => if noted = wakes then 1 else 4
  | .over _ => 0

theorem stepsLeft_le (wakes : Nat) (w : Waiter β) : w.stepsLeft wakes ≤ 5 := by
  unfold stepsLeft
  split
  · omega
  · split <;> omega
  · split <;> omega
  · omega

/-- To be woken costs at most three more steps. -/
theorem stepsLeft_wake (wakes : Nat) (w : Waiter β) : w.stepsLeft (wakes + 1) ≤ w.stepsLeft wakes + 3 := by
  unfold stepsLeft
  split
  · omega
  · split <;> split <;> omega
  · split <;> split <;> omega
  · omega

/-- Each step counts. -/
theorem stepsLeft_lt (stepped : w.step test now watched = some next) :
    next.stepsLeft watched.wakes < w.stepsLeft watched.wakes := by
  unfold stepsLeft
  cases step_cases stepped with
  | registered phase made => simp [phase, made]
  | found noted b phase passed made =>
    simp only [phase, made]
    split <;> omega
  | slept noted phase failed made =>
    simp only [phase, made]
    split <;> omega
  | woken noted phase moved made => simp [phase, made, Ne.symm moved]
  | timedOut noted phase due made =>
    simp only [phase, made]
    split <;> omega

/-- From the deadline on there is a step to make until the answer is there. -/
theorem exists_step (test : α → Option β) (watched : Watched α) (due : w.deadline ≤ now) (waiting : w.result? = none) :
    ∃ next, w.step test now watched = some next := by
  unfold step
  cases phase : w.phase with
  | registering => exact ⟨_, rfl⟩
  | checking noted => cases test watched.value <;> exact ⟨_, rfl⟩
  | sleeping noted =>
    simp only [if_pos due]
    split <;> exact ⟨_, rfl⟩
  | _ => simp [result?, phase] at waiting

end Waiter

theorem reached_eq_some {target current : Revision} : reached target current = some () ↔ target ≤ current := by
  by_cases passed : target ≤ current <;> simp [reached, passed]

theorem reached_eq_none {target current : Revision} : reached target current = none ↔ current < target := by
  by_cases passed : target ≤ current
  · simp [reached, passed]
  · simp [reached, passed, Nat.lt_of_not_le]

end PolicyLedger
