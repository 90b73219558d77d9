import PolicyLedger.Proofs.Alike
import PolicyLedger.Proofs.Requests

/-!
Batches that fail. The transaction of a batch takes the graph back, but not the recording: the events of
all that was done before the failure stay. A workspace, whose inner transactions only count, does not even
take the graph back.
-/
namespace PolicyLedger
open PolicyLedger.Action

namespace Command

section
variable {σ : Type} [PolicyState σ]

/-- A run of commands up to one that fails: those before it succeed, and it takes the state they leave to
the last one. -/
def FailsIn (author : Author) (commands : List Command) (r : σ) (e : CommandError) (middle last : σ) : Prop :=
  ∃ before c later outcomes, commands = before ++ c :: later ∧
    (executeSequence author before).outcome r = (.ok outcomes, middle) ∧
    (c.execute author).outcome middle = (.error e, last)

theorem executeSequence_error {author : Author} {commands : List Command} {r last : σ} {e : CommandError}
    (failed : (executeSequence author commands).outcome r = (.error e, last)) :
    ∃ middle, FailsIn author commands r e middle last := by
  induction commands generalizing r with
  | nil => cases failed
  | cons c rest ih =>
    rw [executeSequence, outcome_bind] at failed
    rcases ran : (c.execute author).outcome r with ⟨e' | outcome, next⟩
    · rw [ran] at failed
      cases failed
      exact ⟨r, [], c, rest, [], rfl, rfl, ran⟩
    · rw [ran] at failed
      dsimp only at failed
      rw [outcome_bind] at failed
      rcases went : (executeSequence author rest).outcome next with ⟨e' | outcomes, final⟩
      · rw [went] at failed
        cases failed
        obtain ⟨middle, before, failing, later, outcomes, rfl, begun, ended⟩ := ih went
        refine ⟨middle, c :: before, failing, later, outcome :: outcomes, rfl, ?_, ended⟩
        rw [executeSequence, outcome_bind, ran]
        dsimp only
        rw [outcome_bind, begun]
        rfl
      · rw [went] at failed
        cases failed

end

variable {author : Author} {commands : List Command}

/-! ### On a store -/

/-- A batch on the recording of a store does what its commands do one after the other. If one of them
fails the store is as before, and the recording is not. -/
private theorem executeBatch_recording (r : Recorder Store) :
    (executeBatch author commands).outcome r = match (executeSequence author commands).outcome r with
      | (.ok outcomes, after) => (.ok outcomes, after)
      | (.error e, last) => (.error e, { last with inner := r.inner }) := by
  let inside : Recorder Store := { r with inner := ⟨r.inner.graph, r.inner.graph :: r.inner.snapshots⟩ }
  have begun : (Transactional.begin (σ := Recorder Store)).outcome r = (.ok (), inside) := rfl
  have like := (Likeness.store inside.inner.snapshots r.inner.snapshots).recorder.executeSequence author commands
  have alike := like inside r ⟨⟨rfl, rfl⟩, rfl, rfl⟩
  unfold executeBatch
  rw [outcome_bind, outcome_mapError, begun]
  dsimp only [Except.mapError]
  rw [outcome_bind, outcome_attempt]
  generalize (executeSequence author commands).outcome inside = ran at alike
  generalize (executeSequence author commands).outcome r = alone at alike
  obtain ⟨result, s, plugins, events⟩ := ran
  obtain ⟨result', ⟨graph, outer⟩, plugins', events'⟩ := alone
  dsimp only at alike
  obtain ⟨rfl, ⟨rfl, rfl⟩, rfl, rfl⟩ := alike
  cases result with
  | ok outcomes => rfl
  | error e => rfl

/-! ### On a workspace -/

/-- Inside of an open transaction of a workspace, a batch does what its commands do one after the other,
whether it succeeds or fails. -/
theorem executeBatch_workspace {r : Workspace} (begun : 0 < r.inner.depth) :
    (executeBatch author commands).outcome r = (executeSequence author commands).outcome r := by
  let inside : Workspace := { r with inner := { r.inner with depth := r.inner.depth + 1 } }
  have like :=
    (Likeness.scratch (σ := Store) inside.inner.depth r.inner.depth).recorder.executeSequence author commands
  have alike := like inside r ⟨⟨rfl, rfl⟩, rfl, rfl⟩
  rcases ran : (executeSequence author commands).outcome inside with ⟨result, s, plugins, events⟩
  rcases alone : (executeSequence author commands).outcome r with ⟨result', ⟨store, depth⟩, plugins', events'⟩
  rw [ran, alone] at alike
  dsimp only at alike
  obtain ⟨rfl, ⟨rfl, rfl⟩, rfl, rfl⟩ := alike
  exact Workspace.executeBatch_outcome begun ran rfl

/-! ### What stays -/

/-- A recording is never taken back while commands fail or succeed. -/
theorem recorded_sequence {σ : Type} [PolicyState σ] (author : Author) (commands : List Command) (r : Recorder σ) :
    r.events <+: ((executeSequence author commands).outcome r).2.events :=
  ((Likeness.recorded r.events).executeSequence author commands r r ⟨rfl, List.prefix_refl _⟩).2.2

private theorem recorded_execute {σ : Type} [PolicyState σ] (author : Author) (c : Command) (r : Recorder σ) :
    r.events <+: ((c.execute author).outcome r).2.events :=
  ((Likeness.recorded r.events).execute author c r r ⟨rfl, List.prefix_refl _⟩).2.2

private theorem FailsIn.recorded {σ : Type} [PolicyState σ] {r middle last : Recorder σ} {e : CommandError}
    (fails : FailsIn author commands r e middle last) : r.events <+: middle.events ∧ middle.events <+: last.events := by
  obtain ⟨before, c, _, _, _, ran, failed⟩ := fails
  have first := recorded_sequence author before r
  have second := recorded_execute author c middle
  rw [ran] at first
  rw [failed] at second
  exact ⟨first, second⟩

/-- A batch that fails on the recording of a store gives the store back as it was, and one that fails on a
workspace keeps all that was done. Either way the recording keeps the events of the commands before the
one that failed, and those that this one recorded itself before it failed. -/
theorem failed_batch_keeps_events (author : Author) (commands : List Command) (e : CommandError) :
    (∀ r after : Recorder Store, (executeBatch author commands).outcome r = (.error e, after) →
      ∃ middle last, FailsIn author commands r e middle last ∧ after = { last with inner := r.inner } ∧
        r.events <+: middle.events ∧ middle.events <+: after.events) ∧
    ∀ r after : Workspace, 0 < r.inner.depth → (executeBatch author commands).outcome r = (.error e, after) →
      ∃ middle, FailsIn author commands r e middle after ∧
        r.events <+: middle.events ∧ middle.events <+: after.events := by
  constructor
  · intro r after failed
    rw [executeBatch_recording] at failed
    split at failed
    · cases failed
    · rename_i e' last ran
      cases failed
      obtain ⟨middle, fails⟩ := executeSequence_error ran
      exact ⟨middle, last, fails, rfl, fails.recorded⟩
  · intro r after begun failed
    rw [executeBatch_workspace begun] at failed
    obtain ⟨middle, fails⟩ := executeSequence_error failed
    exact ⟨middle, fails, fails.recorded⟩

/-- The second command wants the name that the first took. -/
def twice : List Command := [.createPolicyClass "a", .createPolicyClass "a"]

/-- The failure of this batch leaves an event in a recording that had none. -/
theorem twice_leaves_event :
    (executeBatch ⟨⟨0⟩, none⟩ twice).outcome ({ inner := {} } : Recorder Store) =
        (.error (.policy (.nodeNameExists "a")), { inner := {}, events := [.policyClassCreated ⟨1⟩ "a"] }) ∧
      ∃ after, (executeBatch ⟨⟨0⟩, none⟩ twice).outcome (Workspace.lend ∅ {}) =
          (.error (.policy (.nodeNameExists "a")), after) ∧
        after.events = [.policyClassCreated ⟨1⟩ "a"] :=
  ⟨rfl, _, rfl, rfl⟩

theorem twice_keeps_event :
    (∃ middle last : Recorder Store,
      FailsIn ⟨⟨0⟩, none⟩ twice { inner := {} } (.policy (.nodeNameExists "a")) middle last ∧
        last.events = [.policyClassCreated ⟨1⟩ "a"]) ∧
    ∃ middle last : Workspace,
      FailsIn ⟨⟨0⟩, none⟩ twice (Workspace.lend ∅ {}) (.policy (.nodeNameExists "a")) middle last ∧
        last.events = [.policyClassCreated ⟨1⟩ "a"] := by
  obtain ⟨recording, workspace⟩ := failed_batch_keeps_events ⟨⟨0⟩, none⟩ twice (.policy (.nodeNameExists "a"))
  constructor
  · obtain ⟨middle, last, fails, same, _⟩ := recording { inner := {} } _ rfl
    exact ⟨middle, last, fails, (congrArg Recorder.events same).symm⟩
  · obtain ⟨middle, fails, _⟩ := workspace (Workspace.lend ∅ {}) _ Nat.zero_lt_one rfl
    exact ⟨middle, _, fails, rfl⟩

end Command
end PolicyLedger
