import PolicyLedger.Proofs.Alike

/-!
Calls to a policy, questions and changes alike. To a client, a state is what its calls are answered, and this
is determined by the graph it shows, whatever else the state keeps.
-/
namespace PolicyLedger
open PolicyLedger.Action

/-- A call to a policy. -/
inductive PolicyCall where
  | ask (q : Query)
  | change (m : Mutation)

/-- What a call gives back. -/
inductive Reply where
  | answer (a : Answer)
  | outcome (o : Outcome)
  deriving DecidableEq

namespace PolicyCall

section
variable {σ : Type} [PolicyState σ]

def act : PolicyCall → Action PolicyError σ Reply
  | ask q => do return .answer (← PolicyState.ask q)
  | change m => do return .outcome (← PolicyState.perform m)

/-- A state after calls made one after the other, whether they succeed or fail. -/
def run (calls : List PolicyCall) (s : σ) : σ := calls.foldl (fun s c => (c.act.outcome s).2) s

theorem run_cons (c : PolicyCall) (calls : List PolicyCall) (s : σ) :
    run (c :: calls) s = run calls (c.act.outcome s).2 := rfl

theorem outcome_ask (q : Query) (s : σ) :
    (ask q).act.outcome s = (((PolicyState.graph s).answer q).map .answer, s) := by
  rw [act, outcome_bind, PolicyState.ask, outcome_bind, outcome_get]
  dsimp only
  rw [outcome_ofExcept]
  cases (PolicyState.graph s).answer q <;> rfl

theorem outcome_change (m : Mutation) (s : σ) :
    (change m).act.outcome s =
      (((PolicyState.perform m).outcome s).1.map .outcome, ((PolicyState.perform m).outcome s).2) := by
  rw [act, outcome_bind]
  rcases (PolicyState.perform m).outcome s with ⟨_ | _, _⟩ <;> rfl

end

end PolicyCall

namespace Likeness

variable {σ τ : Type} [PolicyState σ] [PolicyState τ] {R : σ → τ → Prop}

theorem call (like : Likeness R) (c : PolicyCall) : Alike R (c.act : Action PolicyError σ Reply) c.act := by
  intro s t alike
  cases c with
  | ask q =>
    rw [PolicyCall.outcome_ask, PolicyCall.outcome_ask, like.graph alike]
    exact ⟨rfl, alike⟩
  | change m =>
    rw [PolicyCall.outcome_change, PolicyCall.outcome_change]
    obtain ⟨result, after⟩ := like.perform m s t alike
    exact ⟨congrArg (Except.map Reply.outcome) result, after⟩

theorem run (like : Likeness R) (calls : List PolicyCall) {s : σ} {t : τ} (alike : R s t) :
    R (PolicyCall.run calls s) (PolicyCall.run calls t) := by
  induction calls generalizing s t with
  | nil => exact alike
  | cons c rest ih => exact ih (like.call c s t alike).2

/-- A store that is lent is like any store with the same graph. -/
theorem lent : Likeness fun (s : Scratch Store) (t : Store) => s.store.graph = t.graph where
  graph same := same
  perform m := by
    intro s t same
    have whole : (PolicyState.perform m).outcome s = (((PolicyState.perform m).outcome s.store).1,
      { s with store := ((PolicyState.perform m).outcome s.store).2 }) := rfl
    rw [whole, Store.perform_outcome, Store.perform_outcome, same]
    cases t.graph.apply m with
    | ok result => exact ⟨rfl, rfl⟩
    | error e => exact ⟨rfl, same⟩

end Likeness
end PolicyLedger
