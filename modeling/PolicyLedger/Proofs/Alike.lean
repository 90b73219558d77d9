import PolicyLedger.Command.Execution
import PolicyLedger.Store.Basic
import PolicyLedger.Store.Recorder
import PolicyLedger.Store.Scratch

/-!
Commands see nothing of a state but its graph and what becomes of their changes. So states that show the
same graph, and on which every change has the same result and leaves them alike again, are alike to all
commands.
-/
namespace PolicyLedger
open PolicyLedger.Action

section Steps
variable {σ τ ε α β : Type} {R : σ → τ → Prop}

/-- Steps that have the same result on states that are alike and leave them alike. -/
def Alike (R : σ → τ → Prop) (act : Action ε σ α) (act' : Action ε τ α) : Prop :=
  ∀ s t, R s t → (act.outcome s).1 = (act'.outcome t).1 ∧ R (act.outcome s).2 (act'.outcome t).2

private theorem alike_pure (a : α) : Alike R (pure a : Action ε σ α) (pure a) := fun _ _ alike => ⟨rfl, alike⟩

private theorem alike_ofExcept (result : Except ε α) : Alike R (.ofExcept result) (.ofExcept result) :=
  fun _ _ alike => ⟨rfl, alike⟩

private theorem alike_mapError {η : Type} {act : Action ε σ α} {act' : Action ε τ α} (same : Alike R act act')
    (f : ε → η) :
    Alike R (act.mapError f) (act'.mapError f) := by
  intro s t alike
  obtain ⟨result, after⟩ := same s t alike
  exact ⟨congrArg (Except.mapError f) result, after⟩

/-- Both fail in the same way, or both succeed with the same result. -/
theorem Alike.cases {act : Action ε σ α} {act' : Action ε τ α} (same : Alike R act act') {s : σ} {t : τ} (alike : R s t) :
    ∃ s' t', R s' t' ∧
      ((∃ e, act.outcome s = (.error e, s') ∧ act'.outcome t = (.error e, t')) ∨
        ∃ a, act.outcome s = (.ok a, s') ∧ act'.outcome t = (.ok a, t')) := by
  obtain ⟨result, after⟩ := same s t alike
  refine ⟨_, _, after, ?_⟩
  cases ran : (act.outcome s).1 with
  | error e => exact .inl ⟨e, Prod.ext ran rfl, Prod.ext (result.symm.trans ran) rfl⟩
  | ok a => exact .inr ⟨a, Prod.ext ran rfl, Prod.ext (result.symm.trans ran) rfl⟩

private theorem alike_bind {act : Action ε σ α} {act' : Action ε τ α} {next : α → Action ε σ β}
    {next' : α → Action ε τ β}
    (first : Alike R act act') (second : ∀ a, Alike R (next a) (next' a)) :
    Alike R (act >>= next) (act' >>= next') := by
  intro s t alike
  rw [outcome_bind, outcome_bind]
  obtain ⟨s', t', after, ⟨e, failed, failed'⟩ | ⟨a, done, done'⟩⟩ := first.cases alike
  · rw [failed, failed']
    exact ⟨rfl, after⟩
  · rw [done, done']
    exact second a s' t' after

end Steps

/-- A likeness of states that changes keep. -/
structure Likeness {σ τ : Type} [PolicyState σ] [PolicyState τ] (R : σ → τ → Prop) : Prop where
  graph : ∀ {s t}, R s t → PolicyState.graph s = PolicyState.graph t
  perform : ∀ m, Alike R (PolicyState.perform m) (PolicyState.perform m)

namespace Likeness

section Commands
variable {σ τ : Type} [PolicyState σ] [PolicyState τ] {R : σ → τ → Prop}

private theorem statement (like : Likeness R) (author : Author) (statement : Statement) :
    Alike R (statement.execute author) (statement.execute author) := by
  intro s t alike
  rw [Statement.execute, Statement.execute, outcome_bind, outcome_bind, outcome_get, outcome_get]
  dsimp only
  rw [like.graph alike]
  exact alike_bind (alike_ofExcept _) like.perform s t alike

private theorem statements (like : Likeness R) (author : Author) (statements : List Statement) :
    Alike R (Statement.executeAll author statements) (Statement.executeAll author statements) := by
  induction statements with
  | nil => exact alike_pure []
  | cons first rest ih =>
    exact alike_bind (like.statement author first) fun _ => alike_bind ih fun _ => alike_pure _

private theorem declare (like : Likeness R) (author : Author) (kind : DeclarationKind) (source : String) :
    Alike R (Command.declare author kind source) (Command.declare author kind source) :=
  alike_bind (alike_ofExcept _) fun found => alike_mapError (like.statement author found) _

theorem execute (like : Likeness R) (author : Author) (c : Command) :
    Alike R (c.execute author) (c.execute author) := by
  have change (m : Mutation) : Alike R (Command.change m) (Command.change m) := alike_mapError (like.perform m) _
  cases c with
  | createObligation source => exact like.declare author .obligation source
  | createOperation source => exact like.declare author .operation source
  | createRoutine source => exact like.declare author .routine source
  | runText source =>
    refine alike_bind (alike_mapError ?_ _) fun _ => alike_pure _
    exact alike_bind (alike_ofExcept _) (like.statements author)
  | _ => exact change _

theorem executeSequence (like : Likeness R) (author : Author) (commands : List Command) :
    Alike R (Command.executeSequence author commands) (Command.executeSequence author commands) := by
  induction commands with
  | nil => exact alike_pure []
  | cons c rest ih => exact alike_bind (like.execute author c) fun _ => alike_bind ih fun _ => alike_pure _

end Commands

end Likeness

/-- A change is refused, or is passed on and recorded if it succeeds. -/
theorem Recorder.perform_outcome {σ : Type} [PolicyState σ] (m : Mutation) (r : Recorder σ) :
    (PolicyState.perform m).outcome r = match refusal? r.plugins m with
      | some e => (.error e, r)
      | none =>
        match (PolicyState.perform m).outcome r.inner with
        | (.ok o, inner) => (.ok o, { r with inner, events := r.events ++ (recorded? r.plugins m o).toList })
        | (.error e, inner) => (.error e, { r with inner }) := by
  show (Recorder.perform m).outcome r = _
  rw [Recorder.perform, outcome_bind, outcome_get]
  dsimp only
  cases refusal? r.plugins m with
  | some e => rfl
  | none =>
    dsimp only
    rw [outcome_bind, onInner, outcome_within]
    rcases (PolicyState.perform m).outcome r.inner with ⟨e | o, inner⟩ <;> rfl

namespace Likeness

section Layers
variable {σ τ : Type} [PolicyState σ] [PolicyState τ] {R : σ → τ → Prop}

/-- Recordings on states that are alike are alike as long as they are the same. -/
theorem recorder (like : Likeness R) :
    Likeness fun (r : Recorder σ) (r' : Recorder τ) =>
      R r.inner r'.inner ∧ r.plugins = r'.plugins ∧ r.events = r'.events where
  graph alike := like.graph alike.1
  perform m := by
    rintro r r' ⟨inner, plugins, events⟩
    rw [Recorder.perform_outcome, Recorder.perform_outcome, ← plugins, ← events]
    cases Recorder.refusal? r.plugins m with
    | some e => exact ⟨rfl, inner, plugins, events⟩
    | none =>
      obtain ⟨s, s', after, ⟨e, failed, failed'⟩ | ⟨o, done, done'⟩⟩ := (like.perform m).cases inner
      · rw [failed, failed']
        exact ⟨rfl, after, rfl, rfl⟩
      · rw [done, done']
        exact ⟨rfl, after, rfl, rfl⟩

/-- Events recorded before stay at the front. -/
theorem recorded (events : List Event) :
    Likeness fun r r' : Recorder σ => r = r' ∧ events <+: r.events where
  graph alike := congrArg PolicyState.graph alike.1
  perform m := by
    rintro r _ ⟨rfl, kept⟩
    refine ⟨rfl, rfl, ?_⟩
    rw [Recorder.perform_outcome]
    split
    · exact kept
    · split
      · exact kept.trans (List.prefix_append _ _)
      · exact kept

end Layers

end Likeness

theorem Store.perform_outcome (m : Mutation) (s : Store) :
    (PolicyState.perform m).outcome s = match s.graph.apply m with
      | .ok (o, after) => (.ok o, { s with graph := after })
      | .error e => (.error e, s) := rfl

namespace Likeness

/-- Stores with the same graph are alike whatever transactions are open. -/
theorem store (inside outside : List Graph) :
    Likeness fun s t : Store => s = ⟨t.graph, inside⟩ ∧ t.snapshots = outside where
  graph := by
    rintro _ t ⟨rfl, _⟩
    rfl
  perform m := by
    rintro _ t ⟨rfl, snapshots⟩
    rw [Store.perform_outcome, Store.perform_outcome]
    cases t.graph.apply m with
    | ok result => exact ⟨rfl, rfl, snapshots⟩
    | error e => exact ⟨rfl, rfl, snapshots⟩

/-- Stores that are lent are alike however deep in transactions. -/
theorem scratch {σ : Type} [PolicyState σ] (inside outside : Nat) :
    Likeness fun s t : Scratch σ => s = { t with depth := inside } ∧ t.depth = outside where
  graph := by
    rintro _ t ⟨rfl, _⟩
    rfl
  perform m := by
    rintro _ t ⟨rfl, depth⟩
    exact ⟨rfl, rfl, depth⟩

end Likeness
end PolicyLedger
