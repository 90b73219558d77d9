import Mathlib.Data.List.Induction
import PolicyLedger.Duration
import PolicyLedger.Proofs.Waiting

/-!
Any number of callers that wait for the applied revision, among calls that set it. A call to set it first raises
the revision and then wakes those who wait, and anything may happen in between. No caller sleeps on once its
revision is reached, unless a call that will wake it is still under way; and none is told that its revision was not
reached if it was by the deadline.
-/
namespace PolicyLedger

namespace Waiter

variable {α β : Type} {test : α → Option β} {now : Nat} {watched : Watched α} {w next : Waiter β}

/-- The last look of one whose time was up before it was woken. If it is woken before it looks, that comes too late. -/
def lapse (test : α → Option β) (now : Nat) (watched : Watched α) (w : Waiter β) : Option (Waiter β) :=
  match w.phase with
  | .sleeping wakes => w.step test now { watched with wakes }
  | _ => none

private theorem lapse_eq_some :
    w.lapse test now watched = some next ↔ (∃ noted, w.phase = .sleeping noted) ∧ w.deadline ≤ now ∧
      next = { w with phase := .over (test watched.value) } := by
  unfold lapse
  cases phase : w.phase <;> simp [step, phase, eq_comm]

end Waiter

/-- One who waits for a revision. -/
structure Awaiting where
  target : Revision
  waiter : Waiter Unit

/-- Steps that one whose revision is reached makes from its sleep, or from later on, to the answer. -/
def Awaiting.toGo (a : Awaiting) : Nat :=
  match a.waiter.phase with
  | .sleeping _ => 3
  | .registering => 2
  | .checking _ => 1
  | .over _ => 0

private theorem Awaiting.toGo_le (a : Awaiting) : a.toGo ≤ 3 := by
  unfold toGo
  split <;> omega

/-- The applied revision and all who ever waited for one. -/
structure Lobby where
  now : Nat := 0
  current : Watched Revision
  /-- Calls that have raised the revision and not yet woken anybody. -/
  raised : Nat := 0
  callers : List Awaiting := []

namespace Lobby

/-- What can happen in a lobby. -/
inductive Turn where
  /-- A call to set the revision raises it, or is over if it is not below. -/
  | raise (revision : Revision)
  /-- A call that has raised it wakes those who wait. -/
  | wake
  | pass (ticks : Nat)
  /-- Somebody begins to wait. -/
  | call (target : Revision) (timeout : Duration)
  /-- A caller makes a step, if it has one to make. -/
  | go (who : Nat)
  /-- A caller whose time was up before it was woken looks for the last time. -/
  | lapse (who : Nat)
  deriving DecidableEq

/-- The revision that a turn sets. -/
def Turn.set? : Turn → Option Revision
  | raise revision => some revision
  | _ => none

/-- A caller moved on by a step, if there is one. -/
def moveOn (l : Lobby) (who : Nat) (step : Awaiting → Option (Waiter Unit)) : Lobby :=
  { l with
    callers := l.callers.modify who fun a =>
      match step a with
      | some waiter => { a with waiter }
      | none => a }

/-- What a turn does. Times have no bound: there is nothing here for a call that breaks off, before it waits, because
the clock does not go as far as its deadline. -/
def step (l : Lobby) : Turn → Lobby
  | .raise revision =>
    if l.current.value < revision then { l with current := l.current.raise revision, raised := l.raised + 1 } else l
  | .wake => if l.raised = 0 then l else { l with current := l.current.wake, raised := l.raised - 1 }
  | .pass ticks => { l with now := l.now + ticks }
  | .call target timeout =>
    { l with callers := l.callers ++ [{ target, waiter := { deadline := l.now + timeout.ticks } }] }
  | .go who => l.moveOn who fun a => a.waiter.step (reached a.target) l.now l.current
  | .lapse who => l.moveOn who fun a => a.waiter.lapse (reached a.target) l.now l.current

def run (l : Lobby) (turns : List Turn) : Lobby := turns.foldl step l

/-- Where nobody waits yet. -/
def opened (applied : Revision) : Lobby := { current := ⟨applied, 0⟩ }

@[simp] theorem run_nil (l : Lobby) : l.run [] = l := rfl

@[simp] theorem run_cons (l : Lobby) (t : Turn) (turns : List Turn) : l.run (t :: turns) = (l.step t).run turns := rfl

private theorem run_append (l : Lobby) (first second : List Turn) :
    l.run (first ++ second) = (l.run first).run second :=
  List.foldl_append

private theorem run_snoc (l : Lobby) (turns : List Turn) (t : Turn) : l.run (turns ++ [t]) = (l.run turns).step t :=
  run_append l turns [t]

/-- The steps of a call to set the revision, one right after the other, are the whole call. -/
theorem run_set (l : Lobby) (revision : Revision) (alone : l.raised = 0) :
    l.run [.raise revision, .wake] = { l with current := l.current.set revision } := by
  by_cases below : l.current.value < revision
  · simp [step, Watched.set, below, alone]
  · have stays : l.run [.raise revision, .wake] = l := by simp [step, below, alone]
    rw [stays, Watched.set, if_neg below]

/-! ### The revision -/

private theorem step_value (l : Lobby) (t : Turn) :
    (l.step t).current.value = t.set?.toList.foldl max l.current.value := by
  cases t with
  | raise revision =>
    by_cases below : l.current.value < revision
    · simp [step, Watched.raise, Turn.set?, below]
    · simp [step, Turn.set?, below, Nat.max_eq_left (Nat.le_of_not_lt below)]
  | wake =>
    simp only [step]
    split <;> rfl
  | _ => rfl

/-- The revision is the highest of those it began with and was set to. -/
private theorem run_value (l : Lobby) (turns : List Turn) :
    (l.run turns).current.value = (turns.filterMap Turn.set?).foldl max l.current.value := by
  induction turns generalizing l with
  | nil => rfl
  | cons t turns ih =>
    rw [run_cons, ih, step_value]
    cases sets : t.set? <;> simp [sets]

/-- What happens to all who wait: time and revision only grow, and where nobody is woken, nothing changes unless some
call is about to wake them. -/
structure Onward (l after : Lobby) : Prop where
  now : l.now ≤ after.now
  value : l.current.value ≤ after.current.value
  wakes : l.current.wakes ≤ after.current.wakes
  quiet : after.current.wakes = l.current.wakes →
    after.current.value = l.current.value ∧ after.raised = l.raised ∨ 0 < after.raised

private theorem step_onward (l : Lobby) (t : Turn) : l.Onward (l.step t) := by
  have same {after : Lobby} (now : l.now ≤ after.now) (current : after.current = l.current)
      (raised : after.raised = l.raised) : l.Onward after := by
    constructor <;> simp [now, current, raised]
  cases t with
  | raise revision =>
    simp only [step]
    split
    · exact ⟨Nat.le_refl _, Nat.le_max_left _ _, Nat.le_refl _, fun _ => .inr (Nat.succ_pos _)⟩
    · exact same (Nat.le_refl _) rfl rfl
  | wake =>
    simp only [step]
    split
    · exact same (Nat.le_refl _) rfl rfl
    · refine ⟨Nat.le_refl _, Nat.le_refl _, Nat.le_succ _, ?_⟩
      intro quiet
      simp [Watched.wake] at quiet
  | pass ticks => exact same (Nat.le_add_right _ _) rfl rfl
  | _ => exact same (Nat.le_refl _) rfl rfl

private theorem run_value_le (l : Lobby) {turns rest : List Turn} (before : turns <+: rest) :
    (l.run turns).current.value ≤ (l.run rest).current.value := by
  obtain ⟨later, rfl⟩ := before
  rw [run_append]
  generalize l.run turns = m
  induction later generalizing m with
  | nil => exact Nat.le_refl _
  | cons t later ih => exact Nat.le_trans (step_onward m t).value (ih (m.step t))

/-! ### One caller -/

/-- What a turn does to a caller. -/
inductive Moved (l : Lobby) (who : Nat) (t : Turn) (a : Awaiting) : Awaiting → Prop
  | stays (idle : t = .go who → a.waiter.step (reached a.target) l.now l.current = none) : Moved l who t a a
  | goes {next : Waiter Unit} (own : t = .go who)
      (stepped : a.waiter.step (reached a.target) l.now l.current = some next) :
      Moved l who t a { a with waiter := next }
  | lapses {next : Waiter Unit} (own : t = .lapse who)
      (lapsed : a.waiter.lapse (reached a.target) l.now l.current = some next) :
      Moved l who t a { a with waiter := next }

private theorem step_moved {l : Lobby} {who : Nat} {a : Awaiting} (there : l.callers[who]? = some a) (t : Turn) :
    ∃ after, (l.step t).callers[who]? = some after ∧ Moved l who t a after := by
  have other (same : (l.step t).callers[who]? = l.callers[who]?) (notOwn : t ≠ .go who) :
      ∃ after, (l.step t).callers[who]? = some after ∧ Moved l who t a after :=
    ⟨a, same.trans there, .stays fun own => absurd own notOwn⟩
  cases t with
  | raise revision =>
    refine other ?_ nofun
    simp only [step]
    split <;> rfl
  | wake =>
    refine other ?_ nofun
    simp only [step]
    split <;> rfl
  | pass ticks => exact other rfl nofun
  | call target timeout =>
    have inside : who < l.callers.length := (List.getElem?_eq_some_iff.mp there).1
    refine other ?_ nofun
    simp [step, List.getElem?_append_left inside]
  | go someone =>
    by_cases own : someone = who
    · subst own
      cases stepped : a.waiter.step (reached a.target) l.now l.current with
      | none => exact ⟨a, by simp [step, moveOn, there, stepped], .stays fun _ => stepped⟩
      | some next => exact ⟨_, by simp [step, moveOn, there, stepped], .goes rfl stepped⟩
    · refine other ?_ (by simpa using own)
      simp [step, moveOn, own]
  | lapse someone =>
    by_cases own : someone = who
    · subst own
      cases lapsed : a.waiter.lapse (reached a.target) l.now l.current with
      | none => exact ⟨a, by simp [step, moveOn, there, lapsed], .stays nofun⟩
      | some next => exact ⟨_, by simp [step, moveOn, there, lapsed], .lapses rfl lapsed⟩
    · refine other ?_ nofun
      simp [step, moveOn, own]

/-- The revision was below this one all along, up to a moment of the run at the deadline or later. -/
def BelowUntil (l : Lobby) (turns : List Turn) (deadline : Nat) (target : Revision) : Prop :=
  ∃ past, past <+: turns ∧ deadline ≤ (l.run past).now ∧
    ∀ earlier, earlier <+: past → (l.run earlier).current.value < target

private theorem BelowUntil.now {l : Lobby} {turns : List Turn} {deadline : Nat} {target : Revision}
    (late : deadline ≤ (l.run turns).now) (below : (l.run turns).current.value < target) :
    l.BelowUntil turns deadline target :=
  ⟨turns, List.prefix_refl turns, late, fun _ before => Nat.lt_of_le_of_lt (l.run_value_le before) below⟩

private theorem BelowUntil.snoc {l : Lobby} {turns : List Turn} {deadline : Nat} {target : Revision}
    (below : l.BelowUntil turns deadline target) (t : Turn) : l.BelowUntil (turns ++ [t]) deadline target := by
  obtain ⟨past, before, rest⟩ := below
  exact ⟨past, before.trans (List.prefix_append turns [t]), rest⟩

/-- Where a caller stands after the run of `turns` from `l`. If it sleeps and was not woken since it looked, its
revision is not reached, or a call that raised it is about to wake it. -/
structure Stands (l : Lobby) (turns : List Turn) (a : Awaiting) : Prop where
  noted : ∀ wakes, a.waiter.phase = .checking wakes ∨ a.waiter.phase = .sleeping wakes →
    wakes ≤ (l.run turns).current.wakes
  asleep : a.waiter.phase = .sleeping (l.run turns).current.wakes → a.target ≤ (l.run turns).current.value →
    0 < (l.run turns).raised
  answered : a.waiter.result? = some (some ()) → a.target ≤ (l.run turns).current.value
  gaveUp : a.waiter.result? = some none → l.BelowUntil turns a.waiter.deadline a.target

variable {l : Lobby} {turns : List Turn} {a after : Awaiting} {who : Nat} {t : Turn}

/-- Nothing that others do lets a caller sleep on in vain. -/
private theorem Stands.stays (stands : l.Stands turns a) (t : Turn) : l.Stands (turns ++ [t]) a := by
  have onward := step_onward (l.run turns) t
  rw [← run_snoc] at onward
  refine ⟨?_, ?_, ?_, ?_⟩
  · intro wakes phase
    exact Nat.le_trans (stands.noted wakes phase) onward.wakes
  · intro phase high
    have same := Nat.le_antisymm (stands.noted _ (.inr phase)) onward.wakes
    rcases onward.quiet same with ⟨value, raised⟩ | waking
    · rw [raised]
      rw [same] at phase
      exact stands.asleep phase (value ▸ high)
    · exact waking
  · intro yes
    exact Nat.le_trans (stands.answered yes) onward.value
  · intro no
    exact (stands.gaveUp no).snoc t

/-- An answer is what the last look showed. -/
private theorem Stands.over {phase : Waiting Unit} (same : (l.run (turns ++ [t])).current = (l.run turns).current)
    (looked : phase = .over (reached a.target (l.run turns).current.value))
    (late : (l.run turns).current.value < a.target → a.waiter.deadline ≤ (l.run turns).now) :
    l.Stands (turns ++ [t]) { a with waiter := { a.waiter with phase } } := by
  subst looked
  refine ⟨?_, nofun, ?_, ?_⟩
  · intro wakes looking
    simp at looking
  · intro yes
    rw [same]
    exact reached_eq_some.mp (Option.some.inj yes)
  · intro no
    have below := reached_eq_none.mp (Option.some.inj no)
    exact (BelowUntil.now (late below) below).snoc t

private theorem Stands.goes {next : Waiter Unit} (stands : l.Stands turns a)
    (same : (l.run (turns ++ [t])).current = (l.run turns).current)
    (stepped : a.waiter.step (reached a.target) (l.run turns).now (l.run turns).current = some next) :
    l.Stands (turns ++ [t]) { a with waiter := next } := by
  cases Waiter.step_cases stepped with
  | registered phase made =>
    subst made
    refine ⟨?_, nofun, nofun, nofun⟩
    intro wakes looking
    obtain rfl : (l.run turns).current.wakes = wakes := by simpa using looking
    exact Nat.le_of_eq (by rw [same])
  | found noted yes phase passed made =>
    subst made
    refine Stands.over same (by rw [passed]) ?_
    intro below
    cases (reached_eq_none.mpr below).symm.trans passed
  | slept noted phase failed made =>
    subst made
    refine ⟨?_, ?_, nofun, nofun⟩
    · intro wakes looking
      obtain rfl : noted = wakes := by simpa using looking
      rw [same]
      exact stands.noted noted (.inl phase)
    · intro sleeping high
      rw [same] at high
      exact absurd high (Nat.not_le_of_lt (reached_eq_none.mp failed))
  | woken noted phase moved made =>
    subst made
    refine ⟨?_, nofun, nofun, nofun⟩
    intro wakes looking
    simp at looking
  | timedOut noted phase due made =>
    subst made
    exact Stands.over same rfl fun _ => due

private theorem Stands.moved (stands : l.Stands turns a) (moved : Moved (l.run turns) who t a after) :
    l.Stands (turns ++ [t]) after := by
  cases moved with
  | stays => exact stands.stays t
  | goes own stepped =>
    subst own
    exact stands.goes (by rw [run_snoc]; rfl) stepped
  | lapses own lapsed =>
    subst own
    obtain ⟨_, due, rfl⟩ := Waiter.lapse_eq_some.mp lapsed
    exact Stands.over (by rw [run_snoc]; rfl) rfl fun _ => due

private theorem Moved.same (moved : Moved l who t a after) :
    after.target = a.target ∧ after.waiter.deadline = a.waiter.deadline := by
  cases moved with
  | stays => exact ⟨rfl, rfl⟩
  | goes _ stepped => exact ⟨rfl, Waiter.step_deadline stepped⟩
  | lapses _ lapsed =>
    obtain ⟨_, _, rfl⟩ := Waiter.lapse_eq_some.mp lapsed
    exact ⟨rfl, rfl⟩

/-- A caller is found again after any run, for the same revision and with the same deadline. -/
theorem stands_run {before : List Turn} (there : (l.run before).callers[who]? = some a) (stands : l.Stands before a)
    (turns : List Turn) :
    ∃ after, (l.run (before ++ turns)).callers[who]? = some after ∧ l.Stands (before ++ turns) after ∧
      after.target = a.target ∧ after.waiter.deadline = a.waiter.deadline := by
  induction turns using List.reverseRecOn with
  | nil => exact ⟨a, by simpa using there, by simpa using stands, rfl, rfl⟩
  | append_singleton turns t ih =>
    obtain ⟨middle, found, stood, target, deadline⟩ := ih
    obtain ⟨after, next, moved⟩ := step_moved found t
    rw [← run_snoc, List.append_assoc] at next
    have standing := stood.moved moved
    rw [List.append_assoc] at standing
    exact ⟨after, next, standing, moved.same.1.trans target, moved.same.2.trans deadline⟩

/-! ### On the way to the answer -/

/-- Nothing keeps a caller from the answer that its revision is reached: it is not asleep, or has been woken. -/
structure Served (l : Lobby) (a : Awaiting) : Prop where
  high : a.target ≤ l.current.value
  woken : ∀ wakes, a.waiter.phase = .sleeping wakes → wakes < l.current.wakes
  unrefused : a.waiter.result? ≠ some none

/-- Each of its steps brings it closer, and nothing that others do takes it back. -/
private theorem Served.moved (served : l.Served a) (moved : Moved l who t a after) :
    (l.step t).Served after ∧ after.toGo ≤ a.toGo - if t = .go who then 1 else 0 := by
  have onward := step_onward l t
  have yes : reached a.target l.current.value = some () := reached_eq_some.mpr served.high
  have high := Nat.le_trans served.high onward.value
  cases moved with
  | stays idle =>
    have woken (wakes : Nat) (phase : a.waiter.phase = .sleeping wakes) : wakes < (l.step t).current.wakes :=
      Nat.lt_of_lt_of_le (served.woken wakes phase) onward.wakes
    refine ⟨⟨high, woken, served.unrefused⟩, ?_⟩
    split
    · rename_i own
      have still := idle own
      unfold Awaiting.toGo
      cases phase : a.waiter.phase with
      | «over» => simp
      | sleeping wakes => simp [Waiter.step, phase, Nat.ne_of_gt (served.woken wakes phase)] at still
      | _ => simp [Waiter.step, phase, yes] at still
    · exact Nat.le_refl _
  | @goes next own stepped =>
    rw [if_pos own]
    cases Waiter.step_cases stepped with
    | registered phase made =>
      subst made
      exact ⟨⟨high, nofun, nofun⟩, by simp [Awaiting.toGo, phase]⟩
    | found noted _ phase passed made =>
      subst made
      exact ⟨⟨high, nofun, nofun⟩, by simp [Awaiting.toGo, phase]⟩
    | slept noted phase failed made => cases yes.symm.trans failed
    | woken noted phase moved made =>
      subst made
      exact ⟨⟨high, nofun, nofun⟩, by simp [Awaiting.toGo, phase]⟩
    | timedOut noted phase due made =>
      subst made
      exact ⟨⟨high, nofun, by simp [Waiter.result?, yes]⟩, by simp [Awaiting.toGo, phase]⟩
  | lapses own lapsed =>
    obtain ⟨_, _, rfl⟩ := Waiter.lapse_eq_some.mp lapsed
    exact ⟨⟨high, nofun, by simp [Waiter.result?, yes]⟩, by simp [Awaiting.toGo]⟩

theorem Served.run (served : l.Served a) (there : l.callers[who]? = some a) (turns : List Turn) :
    ∃ after, (l.run turns).callers[who]? = some after ∧ (l.run turns).Served after ∧ after.target = a.target ∧
      after.toGo ≤ a.toGo - turns.count (.go who) := by
  induction turns generalizing l a with
  | nil => exact ⟨a, there, served, rfl, Nat.le_refl _⟩
  | cons t turns ih =>
    obtain ⟨middle, found, moved⟩ := step_moved there t
    obtain ⟨going, closer⟩ := served.moved moved
    obtain ⟨after, last, ends, same, closest⟩ := ih going found
    refine ⟨after, last, ends, same.trans moved.same.1, ?_⟩
    by_cases own : t = .go who
    · simp only [own, if_true] at closer
      rw [own, List.count_cons_self]
      omega
    · simp only [own, if_false] at closer
      rw [List.count_cons_of_ne own]
      omega

private theorem Served.answered (served : l.Served a) (arrived : a.toGo = 0) : a.waiter.result? = some (some ()) := by
  have unrefused := served.unrefused
  unfold Awaiting.toGo at arrived
  cases phase : a.waiter.phase with
  | «over» result =>
    cases result with
    | none => simp [Waiter.result?, phase] at unrefused
    | some yes => simp [Waiter.result?, phase]
  | _ => simp [phase] at arrived

/-! ### All together -/

/-- A caller that just came. -/
private theorem stands_called (l : Lobby) (before : List Turn) (target : Revision) (timeout : Duration) :
    let a : Awaiting := { target, waiter := { deadline := (l.run before).now + timeout.ticks } }
    (l.run (before ++ [.call target timeout])).callers[(l.run before).callers.length]? = some a ∧
      l.Stands (before ++ [.call target timeout]) a := by
  intro a
  constructor
  · rw [run_snoc]
    exact List.getElem?_concat_length
  · refine ⟨?_, nofun, nofun, nofun⟩
    intro wakes looking
    simp [a] at looking

/-- A caller comes at any time, among any others, to wait for any revision, whatever happens before and after. The
applied revision is the highest of those it began with and was set to. The caller is told that its revision is reached
only when it is. If it is and no call to set it is under way, the caller is not asleep without having been woken, and
three more of its steps bring it that answer, whatever happens in between. It is told that the revision was not reached
only after a moment, at its deadline or later, up to which the revision was below all along. -/
theorem no_wakeup_lost (applied : Revision) (before after : List Turn) (target : Revision) (timeout : Duration) :
    let turns := before ++ .call target timeout :: after
    let called := (opened applied).run before
    let who := called.callers.length
    let l := (opened applied).run turns
    l.current.value = (turns.filterMap Turn.set?).foldl max applied ∧
    ∃ w : Waiter Unit, l.callers[who]? = some ⟨target, w⟩ ∧ w.deadline = called.now + timeout.ticks ∧
      (w.result? = some (some ()) → target ≤ l.current.value) ∧
      (w.result? = none → target ≤ l.current.value → l.raised = 0 →
        (∀ wakes, w.phase = .sleeping wakes → wakes < l.current.wakes) ∧
        ∀ more, 3 ≤ more.count (.go who) → ∃ w', (l.run more).callers[who]? = some ⟨target, w'⟩ ∧
          w'.result? = some (some ())) ∧
      (w.result? = some none → ∃ past, past <+: turns ∧ w.deadline ≤ ((opened applied).run past).now ∧
        ∀ earlier, earlier <+: past → ((opened applied).run earlier).current.value < target) := by
  intro turns called who l
  refine ⟨run_value _ turns, ?_⟩
  obtain ⟨there, begun⟩ := stands_called (opened applied) before target timeout
  obtain ⟨⟨aim, w⟩, found, stands, same, deadline⟩ := stands_run there begun after
  obtain rfl : aim = target := same
  rw [List.append_assoc, List.singleton_append] at found stands
  refine ⟨w, found, deadline, stands.answered, ?_, stands.gaveUp⟩
  intro unanswered high quiet
  have woken (wakes : Nat) (sleeps : w.phase = .sleeping wakes) : wakes < l.current.wakes := by
    refine Nat.lt_of_le_of_ne (stands.noted wakes (.inr sleeps)) ?_
    rintro rfl
    exact absurd quiet (Nat.ne_of_gt (stands.asleep sleeps high))
  refine ⟨woken, ?_⟩
  intro more enough
  have served : l.Served ⟨aim, w⟩ := ⟨high, woken, by simp [unanswered]⟩
  obtain ⟨⟨aim', w'⟩, last, ends, same, closer⟩ := served.run found more
  obtain rfl : aim' = aim := same
  have few := Awaiting.toGo_le ⟨aim', w⟩
  have enough : 3 ≤ more.count (.go ((opened applied).run before).callers.length) := enough
  exact ⟨w', last, ends.answered (by omega)⟩

/-- Somebody waits for revision 4, somebody else for revision 9. Both look while the revision is set to 1, and
are woken. The first looks again in vain before it is set to 4. -/
def crowded : List Turn :=
  [.call 4 (.ofSecs 1), .call 9 (.ofMillis 5), .go 0, .go 1, .raise 1, .go 0, .go 1, .wake, .go 0, .go 0, .go 0,
    .raise 4, .wake]

/-- The time of the second is up, and only then the revision is set to 9. -/
def tooLate : List Turn := [.pass 5, .lapse 1, .raise 9, .wake, .go 0, .go 0, .go 0]

/-- The first is asleep and gets its answer; the second waited in vain until five milliseconds had passed. -/
theorem crowded_wakeups :
    let l := (opened 0).run crowded
    let m := (opened 0).run (crowded ++ tooLate)
    (l.callers[0]?.map fun a => a.waiter.phase) = some (.sleeping 1) ∧ l.current = ⟨4, 2⟩ ∧
      (∃ w, m.callers[0]? = some ⟨4, w⟩ ∧ w.result? = some (some ())) ∧
      m.current.value = 9 ∧ (m.callers[1]?.bind fun a => a.waiter.result?) = some none ∧
      ∃ past, past <+: crowded ++ tooLate ∧ 5 ≤ ((opened 0).run past).now ∧
        ∀ earlier, earlier <+: past → ((opened 0).run earlier).current.value < 9 := by
  intro l m
  have asleep : (l.callers[0]?.map fun a => a.waiter.phase) = some (.sleeping 1) := by decide +kernel
  have refused : (m.callers[1]?.bind fun a => a.waiter.result?) = some none := by decide +kernel
  refine ⟨asleep, by decide +kernel, ?_, by decide +kernel, refused, ?_⟩
  · obtain ⟨_, w, found, _, _, served, _⟩ := no_wakeup_lost 0 [] (crowded.drop 1) 4 (.ofSecs 1)
    have there : l.callers[0]? = some ⟨4, w⟩ := found
    have phase : w.phase = .sleeping 1 := by simpa [there] using asleep
    obtain ⟨_, answered⟩ := served (by simp [Waiter.result?, phase]) (by decide +kernel) (by decide +kernel)
    have again : m = l.run tooLate := run_append _ crowded tooLate
    rw [again]
    exact answered tooLate (by decide +kernel)
  · obtain ⟨_, w, found, deadline, _, _, late⟩ :=
      no_wakeup_lost 0 (crowded.take 1) (crowded.drop 2 ++ tooLate) 9 (.ofMillis 5)
    have there : m.callers[1]? = some ⟨9, w⟩ := found
    have inVain : w.result? = some none := by simpa [there] using refused
    have five : w.deadline = 5 := deadline
    rw [five] at late
    exact late inVain

end Lobby
end PolicyLedger
