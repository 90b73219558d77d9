import PolicyLedger.Log.Record

/-!
Revisions that are waited for. Those who wait first note how often others were woken, then look, and
sleep only until that number changes or their time is up; so no change after the look is missed.
-/
namespace PolicyLedger

/-- A value, and how often those who wait for it were woken. -/
structure Watched (α : Type) where
  value : α
  wakes : Nat := 0
  deriving DecidableEq

def Watched.wake {α : Type} (w : Watched α) : Watched α := { w with wakes := w.wakes + 1 }

namespace Watched

/-- Raises the revision a replica has applied. It never falls. -/
def raise (w : Watched Revision) (revision : Revision) : Watched Revision := { w with value := max w.value revision }

/-- Raises the revision a replica has applied, and wakes those who wait if it grew. -/
def set (w : Watched Revision) (revision : Revision) : Watched Revision :=
  if w.value < revision then (w.raise revision).wake else w

/-- Takes note of a revision seen in the log, and wakes those who wait. The highest counts. -/
def observe (w : Watched (Option Revision)) (revision : Revision) : Watched (Option Revision) :=
  { w with value := some (max (w.value.getD 0) revision) }.wake

end Watched

/-- Where one who waits stands. -/
inductive Waiting (β : Type) where
  | registering
  /-- About to look, having noted the number of wakes. -/
  | checking (wakes : Nat)
  | sleeping (wakes : Nat)
  | over (result : Option β)
  deriving DecidableEq

/-- Waits until a value passes a test, but not beyond a deadline. -/
structure Waiter (β : Type) where
  deadline : Nat
  phase : Waiting β := .registering

namespace Waiter
variable {α β : Type}

/-- One step of waiting, or none while there is nothing to do but sleep. -/
def step (test : α → Option β) (now : Nat) (watched : Watched α) (w : Waiter β) : Option (Waiter β) :=
  match w.phase with
  | .registering => some { w with phase := .checking watched.wakes }
  | .checking wakes =>
    match test watched.value with
    | some b => some { w with phase := .over (some b) }
    | none => some { w with phase := .sleeping wakes }
  | .sleeping wakes =>
    if watched.wakes ≠ wakes then some { w with phase := .registering }
    else if w.deadline ≤ now then some { w with phase := .over (test watched.value) }
    else none
  | .over _ => none

def result? (w : Waiter β) : Option (Option β) :=
  match w.phase with
  | .over result => some result
  | _ => none

/-- When a waiter has to be looked at though nothing changed. -/
def wakeTime? (w : Waiter β) : Option Nat :=
  match w.phase with
  | .sleeping _ => some w.deadline
  | _ => none

end Waiter

/-- The test for a revision being reached. -/
def reached (target current : Revision) : Option Unit := if target ≤ current then some () else none

end PolicyLedger
