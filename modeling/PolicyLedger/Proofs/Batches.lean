import PolicyLedger.Proofs.FailedBatch

/-!
Batches on a store. A text that fails leaves what its first statements did, so commands one after the other
may stop in the middle of one. A batch of them does not: its transaction is closed once, whether they all
succeed or not, and takes back what the failed one left.
-/
namespace PolicyLedger.Command
open PolicyLedger.Action

section Sequence
variable {σ : Type} [PolicyState σ] {author : Author}

/-- Commands that all succeed, one after the other, with their outcomes and the state that the last one leaves. -/
inductive Succeed (author : Author) : List Command → σ → List Outcome → σ → Prop
  | nil (s : σ) : Succeed author [] s [] s
  | cons {c : Command} {rest : List Command} {s next last : σ} {outcome : Outcome} {outcomes : List Outcome}
    (first : (c.execute author).outcome s = (.ok outcome, next)) (others : Succeed author rest next outcomes last) :
    Succeed author (c :: rest) s (outcome :: outcomes) last

/-- Commands of which one fails after all before it succeeded, and the error it fails with. -/
def Fail (author : Author) (commands : List Command) (s : σ) (e : CommandError) : Prop :=
  ∃ before c later outcomes middle last, commands = before ++ c :: later ∧ Succeed author before s outcomes middle ∧
    (c.execute author).outcome middle = (.error e, last)

variable {commands : List Command} {s last : σ} {outcomes : List Outcome}

theorem executeSequence_eq_ok :
    (executeSequence author commands).outcome s = (.ok outcomes, last) ↔ Succeed author commands s outcomes last := by
  constructor
  · intro ran
    induction commands generalizing s outcomes with
    | nil =>
      cases ran
      exact .nil _
    | cons c rest ih =>
      obtain ⟨outcome, next, first, ran⟩ := outcome_bind_eq_ok.mp ran
      obtain ⟨others, final, went, ended⟩ := outcome_bind_eq_ok.mp ran
      cases ended
      exact .cons first (ih went)
  · intro succeed
    induction succeed with
    | nil s => rfl
    | cons first others ih =>
      exact outcome_bind_eq_ok.mpr ⟨_, _, first, outcome_bind_eq_ok.mpr ⟨_, _, ih, rfl⟩⟩

private theorem executeSequence_eq_error {e : CommandError} :
    (∃ last, (executeSequence author commands).outcome s = (.error e, last)) ↔ Fail author commands s e := by
  constructor
  · rintro ⟨last, failed⟩
    obtain ⟨middle, before, c, later, outcomes, rfl, ran, ended⟩ := executeSequence_error failed
    exact ⟨before, c, later, outcomes, middle, last, rfl, executeSequence_eq_ok.mp ran, ended⟩
  · rintro ⟨before, c, later, outcomes, middle, last, rfl, succeed, failed⟩
    refine ⟨last, ?_⟩
    induction succeed with
    | nil s => exact outcome_bind_eq_error.mpr (.inl failed)
    | cons first others ih =>
      refine outcome_bind_eq_error.mpr (.inr ⟨_, _, first, ?_⟩)
      exact outcome_bind_eq_error.mpr (.inl (ih failed))

end Sequence

/-! ### Batches -/

/-- A batch has the result of its commands inside of its transaction, which is closed once. -/
private theorem executeBatch_outcome {σ : Type} [PolicyState σ] [Transactional σ] {author : Author}
    {commands : List Command}
    {s inside last ended : σ} {result : Except CommandError (List Outcome)}
    (closed : (match result with | .ok _ => Transactional.commit | .error _ => Transactional.rollback :
      Action PolicyError σ Unit).outcome last = (.ok (), ended))
    (begun : Transactional.begin.outcome s = (.ok (), inside))
    (executed : (executeSequence author commands).outcome inside = (result, last)) :
    (executeBatch author commands).outcome s = (result, ended) := by
  unfold executeBatch
  rw [outcome_bind, outcome_mapError, begun]
  dsimp only [Except.mapError]
  rw [outcome_bind, outcome_attempt, executed]
  cases result with
  | ok outcomes =>
    dsimp only at closed ⊢
    rw [outcome_bind, outcome_mapError, closed]
    rfl
  | error e =>
    dsimp only at closed ⊢
    rw [outcome_bind, outcome_mapError, closed]
    rfl

/-- A batch on a store does what its commands do one after the other, if they succeed. If they do not, it fails as
they do and leaves the store as it was. -/
private theorem executeBatch_store (author : Author) (commands : List Command) (s : Store) :
    (executeBatch author commands).outcome s = match (executeSequence author commands).outcome s with
      | (.ok outcomes, after) => (.ok outcomes, after)
      | (.error e, _) => (.error e, s) := by
  let inside : Store := ⟨s.graph, s.graph :: s.snapshots⟩
  have like := (Likeness.store inside.snapshots s.snapshots).executeSequence author commands
  have begun : Transactional.begin.outcome s = (.ok (), inside) := rfl
  obtain ⟨last, ⟨graph, snapshots⟩, ⟨rfl, rfl⟩, ⟨e, failed, failed'⟩ | ⟨outcomes, done, done'⟩⟩ :=
    like.cases (show inside = ⟨s.graph, inside.snapshots⟩ ∧ s.snapshots = s.snapshots from ⟨rfl, rfl⟩)
  · rw [executeBatch_outcome rfl begun failed, failed']
  · rw [executeBatch_outcome rfl begun done, done']

private theorem executeSequence_snapshots (author : Author) (commands : List Command) (s : Store) :
    ((executeSequence author commands).outcome s).2.snapshots = s.snapshots :=
  ((Likeness.store s.snapshots s.snapshots).executeSequence author commands s s ⟨rfl, rfl⟩).2.2

/-- A batch on a store succeeds if and only if its commands do, one after the other, and with the same outcomes
and the same graph in the end. Otherwise it fails as the first of them that fails, and the store is as it was,
also if this is a text that was carried out in part. Either way as many transactions are open as before. -/
theorem batch_all_or_nothing (author : Author) (commands : List Command) (s : Store) :
    (∀ outcomes after, (executeBatch author commands).outcome s = (.ok outcomes, after) ↔
      Succeed author commands s outcomes after) ∧
    (∀ e after, (executeBatch author commands).outcome s = (.error e, after) ↔
      after = s ∧ Fail author commands s e) ∧
    ((executeBatch author commands).outcome s).2.snapshots = s.snapshots := by
  have depth := executeSequence_snapshots author commands s
  have batch := executeBatch_store author commands s
  rcases ran : (executeSequence author commands).outcome s with ⟨e | outcomes, last⟩
  · have fail : Fail author commands s e := executeSequence_eq_error.mp ⟨last, ran⟩
    rw [ran] at batch
    rw [batch]
    refine ⟨fun outcomes after => ⟨nofun, fun succeed => ?_⟩, fun e' after => ⟨?_, ?_⟩, rfl⟩
    · rw [executeSequence_eq_ok.mpr succeed] at ran
      cases ran
    · intro failed
      cases failed
      exact ⟨rfl, fail⟩
    · rintro ⟨rfl, other⟩
      obtain ⟨last', ran'⟩ := executeSequence_eq_error.mpr other
      rw [ran] at ran'
      cases ran'
      rfl
  · have succeed : Succeed author commands s outcomes last := executeSequence_eq_ok.mp ran
    rw [ran] at batch depth
    rw [batch]
    refine ⟨fun outcomes' after => ⟨?_, fun other => ?_⟩, fun e after => ⟨nofun, ?_⟩, depth⟩
    · intro done
      cases done
      exact succeed
    · rw [← executeSequence_eq_ok.mpr other, ran]
    · rintro ⟨-, fail⟩
      obtain ⟨last', ran'⟩ := executeSequence_eq_error.mpr fail
      rw [ran] at ran'
      cases ran'

/-- The second statement of the text fails. On its own, the text leaves the class that the first created. -/
example :
    let text : Command := .runText "create pc \"a\" create pc \"a\""
    let author : Author := ⟨⟨0⟩, none⟩
    ((text.execute author).outcome ({} : Store)).2.graph.nodes.size = 1 ∧
      ((executeBatch author [.createPolicyClass "b", text]).outcome ({} : Store)).2 = {} := by
  decide +kernel

end PolicyLedger.Command
