import Mathlib.Data.List.Infix
import PolicyLedger.Proofs.Alike
import PolicyLedger.Proofs.InPlace

/-!
Failures that leave no trace. A change of a store that fails has changed nothing, though it asks and writes in
place; nothing that stands in front of a change, the lookup of names or the reading of a text, changes anything
either. So a statement that fails, and a command other than the one that runs a whole text, leaves the store
and the recording around it as they were.
-/
namespace PolicyLedger
open PolicyLedger.Action

section Steps
variable {σ τ ε α β : Type}

/-- Whether a step that fails leaves the state as it was. -/
def Atomic (act : Action ε σ α) : Prop := ∀ ⦃s t e⦄, act.outcome s = (.error e, t) → t = s

private theorem Atomic.mapError {η : Type} {act : Action ε σ α} (atomic : Atomic act) (f : ε → η) :
    Atomic (act.mapError f) := by
  intro s t e failed
  rw [outcome_mapError] at failed
  obtain ⟨result, rfl⟩ := Prod.mk.inj failed
  cases ran : (act.outcome s).1 with
  | ok a =>
    rw [ran] at result
    cases result
  | error e' => exact atomic (Prod.ext ran rfl)

/-- What only looks at a state can stand in front of an atomic step. -/
private theorem Atomic.after {act : Action ε σ α} {next : α → Action ε σ β} (looks : ∀ s, (act.outcome s).2 = s)
    (atomic : ∀ a, Atomic (next a)) : Atomic (act >>= next) := by
  intro s t e failed
  have same := looks s
  rw [outcome_bind] at failed
  rcases ran : act.outcome s with ⟨e' | a, middle⟩
  · rw [ran] at failed same
    cases failed
    exact same
  · rw [ran] at failed same
    cases same
    exact atomic a failed

end Steps

section Commands
variable {σ : Type} [PolicyState σ] (changes : ∀ m, Atomic (PolicyState.perform m : Action PolicyError σ Outcome))
  (author : Author)

include changes

theorem Statement.atomic_execute (s : Statement) : Atomic (s.execute author : Action PolicyError σ Outcome) :=
  .after (fun _ => rfl) fun _ => .after (fun _ => rfl) changes

namespace Command

theorem atomic_change (m : Mutation) : Atomic (change m : Action CommandError σ Outcome) :=
  (changes m).mapError CommandError.policy

theorem atomic_declare (kind : DeclarationKind) (source : String) :
    Atomic (declare author kind source : Action CommandError σ Outcome) :=
  .after (fun _ => rfl) fun s => (s.atomic_execute changes author).mapError CommandError.policy

theorem atomic_execute {c : Command} (single : ∀ source, c ≠ runText source) :
    Atomic (c.execute author : Action CommandError σ Outcome) := by
  cases c with
  | createObligation source => exact atomic_declare changes author .obligation source
  | createOperation source => exact atomic_declare changes author .operation source
  | createRoutine source => exact atomic_declare changes author .routine source
  | runText source => exact absurd rfl (single source)
  | _ => exact atomic_change changes _

end Command

/-- A change that fails behind a recorder is not recorded. -/
theorem Recorder.atomic_perform (m : Mutation) :
    Atomic (PolicyState.perform m : Action PolicyError (Recorder σ) Outcome) := by
  intro r t e failed
  rw [Recorder.perform_outcome] at failed
  split at failed
  · cases failed
    rfl
  · split at failed
    · cases failed
    · rename_i e' inner refused
      cases failed
      rw [changes m refused]

end Commands

private theorem Edit.Makes.atomic {α : Type} {edit : Edit α} {change : Graph → Except PolicyError (α × Graph)}
    (makes : Makes edit change) : Atomic edit := by
  intro g after e failed
  rw [makes g] at failed
  cases made : change g with
  | ok result =>
    rw [made] at failed
    cases failed
  | error e' =>
    rw [made] at failed
    cases failed
    rfl

namespace Store

theorem atomic_edit {α : Type} {act : Edit α} (atomic : Atomic act) : Atomic (edit act) := by
  intro s t e failed
  rw [edit, outcome_within] at failed
  obtain ⟨result, rfl⟩ := Prod.mk.inj failed
  have same : (act.outcome s.graph).2 = s.graph := atomic (Prod.ext result rfl)
  rw [same]

theorem atomic_perform (m : Mutation) : Atomic (PolicyState.perform m : Action PolicyError Store Outcome) := by
  change Atomic (perform m)
  rw [perform_inPlace]
  exact atomic_edit (Edit.makes_perform m).atomic

theorem atomic_insertNode (id : NodeId) (kind : NodeKind) (name : String) (ds : List NodeId) :
    Atomic (insertNode id kind name ds) := by
  rw [insertNode_inPlace]
  exact atomic_edit (Edit.makes_insertNode id kind name ds).atomic

theorem atomic_commit : Atomic commit := by
  rintro ⟨graph, _ | ⟨before, outer⟩⟩ t e failed
  · cases failed
    rfl
  · cases failed

theorem atomic_rollback : Atomic rollback := by
  rintro ⟨graph, _ | ⟨before, outer⟩⟩ t e failed
  · cases failed
    rfl
  · cases failed

/-- Whatever is asked of a store, made in place and step by step, and fails leaves the store as it was. So does
a statement that fails, and a command other than to run a text, and both leave a recording as it was. -/
theorem failure_leaves_no_trace :
    (∀ m, perform m = edit (Edit.perform m) ∧ Atomic (perform m)) ∧
    (∀ id kind name ds, insertNode id kind name ds = edit (Edit.insertNode id kind name ds) ∧
      Atomic (insertNode id kind name ds)) ∧
    (commit = discard pop ∧ Atomic commit) ∧
    (rollback = (pop >>= fun before => modify fun s => { s with graph := before }) ∧ Atomic rollback) ∧
    ∀ author : Author,
      (∀ s : Statement, Atomic (s.execute author : Action PolicyError Store Outcome) ∧
        Atomic (s.execute author : Action PolicyError (Recorder Store) Outcome)) ∧
      ∀ c : Command, (∀ source, c ≠ .runText source) →
        Atomic (c.execute author : Action CommandError Store Outcome) ∧
        Atomic (c.execute author : Action CommandError (Recorder Store) Outcome) := by
  have recorded := Recorder.atomic_perform atomic_perform
  refine ⟨fun m => ⟨perform_inPlace m, atomic_perform m⟩, ?_, ⟨commit_inPlace, atomic_commit⟩,
    ⟨rollback_inPlace, atomic_rollback⟩, fun author => ⟨?_, ?_⟩⟩
  · exact fun id kind name ds => ⟨insertNode_inPlace id kind name ds, atomic_insertNode id kind name ds⟩
  · exact fun s => ⟨s.atomic_execute atomic_perform author, s.atomic_execute recorded author⟩
  · exact fun c single => ⟨Command.atomic_execute atomic_perform author single, Command.atomic_execute recorded author single⟩

/-- The recording of a user in two attributes of a policy class, made while a transaction is open. -/
def halfway : Recorder Store :=
  let commands : List Command :=
    [.createPolicyClass "p", .createUserAttribute "a" [⟨1⟩], .createUserAttribute "b" [⟨1⟩],
      .createUser "u" [⟨2⟩, ⟨3⟩]]
  ((Command.executeSequence ⟨⟨0⟩, none⟩ commands).outcome { inner := { snapshots := [∅] } }).2

/-- The user can be taken out of one of the attributes, but not out of the other as well. -/
theorem halfway_keeps :
    let c : Command := .deassign ⟨4⟩ [⟨2⟩, ⟨3⟩]
    let act : Action CommandError (Recorder Store) Outcome := c.execute ⟨⟨0⟩, none⟩
    (act.outcome halfway).1 = .error (.policy (.disconnectedNode ⟨4⟩ ⟨3⟩)) ∧ (act.outcome halfway).2 = halfway ∧
      halfway.events.length = 4 := by
  intro c act
  have failed : (act.outcome halfway).1 = .error (.policy (.disconnectedNode ⟨4⟩ ⟨3⟩)) := by decide +kernel
  obtain ⟨-, -, -, -, commands⟩ := failure_leaves_no_trace
  have single : ∀ source, c ≠ .runText source := by
    intro source
    exact nofun
  exact ⟨failed, ((commands ⟨⟨0⟩, none⟩).2 c single).2 (Prod.ext failed rfl), by decide +kernel⟩

/-- To run a text is not all or nothing: what stands before a statement that fails is done. -/
theorem not_atomic_runText : ∃ source,
    ¬ Atomic ((Command.runText source).execute ⟨⟨0⟩, none⟩ : Action CommandError Store Outcome) := by
  refine ⟨"create pc \"a\" create pc \"a\"", fun atomic => ?_⟩
  have failed : (((Command.runText "create pc \"a\" create pc \"a\"").execute ⟨⟨0⟩, none⟩ :
      Action CommandError Store Outcome).outcome {}).1 = .error (.policy (.nodeNameExists "a")) := by decide +kernel
  have same := atomic (Prod.ext failed rfl)
  revert same
  decide +kernel

end Store
end PolicyLedger
