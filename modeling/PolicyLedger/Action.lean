namespace PolicyLedger

/-- A step on a state that may fail. What it did to the state before it failed stays done. -/
abbrev Action (ε σ : Type) : Type → Type := ExceptT ε (StateM σ)

namespace Action

variable {ε σ τ α β : Type}

/-- Result of a step and the state after it. -/
def outcome (act : Action ε σ α) (s : σ) : Except ε α × σ := act.run.run s

@[simp] theorem outcome_pure (a : α) (s : σ) : (pure a : Action ε σ α).outcome s = (.ok a, s) := rfl

@[simp] theorem outcome_throw (e : ε) (s : σ) : (throw e : Action ε σ α).outcome s = (.error e, s) := rfl

@[simp] theorem outcome_get (s : σ) : (get : Action ε σ σ).outcome s = (.ok s, s) := rfl

@[simp] theorem outcome_modify (f : σ → σ) (s : σ) : (modify f : Action ε σ Unit).outcome s = (.ok (), f s) := rfl

theorem outcome_bind (act : Action ε σ α) (next : α → Action ε σ β) (s : σ) :
    (act >>= next).outcome s =
      match act.outcome s with
      | (.ok a, t) => (next a).outcome t
      | (.error e, t) => (.error e, t) := by
  change (ExceptT.bindCont next (act.outcome s).1).run (act.outcome s).2 = _
  rcases act.outcome s with ⟨_ | _, t⟩ <;> rfl

/-- A step given by what it makes of each state. -/
def ofFunction (f : σ → Except ε α × σ) : Action ε σ α := ExceptT.mk f

@[simp] theorem outcome_ofFunction (f : σ → Except ε α × σ) (s : σ) : (ofFunction f).outcome s = f s := rfl

/-- A step on a part of a state. -/
def within (part : σ → τ) (replace : τ → σ → σ) (act : Action ε τ α) : Action ε σ α :=
  ofFunction fun s =>
    let (result, t) := act.outcome (part s)
    (result, replace t s)

@[simp] theorem outcome_within (part : σ → τ) (replace : τ → σ → σ) (act : Action ε τ α) (s : σ) :
    (within part replace act).outcome s = ((act.outcome (part s)).1, replace (act.outcome (part s)).2 s) := rfl

/-- A step that goes on after a failure, with the failure as its result. -/
def attempt {η : Type} (act : Action ε σ α) : Action η σ (Except ε α) :=
  ofFunction fun s =>
    let (result, after) := act.outcome s
    (.ok result, after)

@[simp] theorem outcome_attempt {η : Type} (act : Action ε σ α) (s : σ) :
    (act.attempt : Action η σ (Except ε α)).outcome s = (.ok (act.outcome s).1, (act.outcome s).2) := rfl

/-- A result that needs no state. -/
def ofExcept (result : Except ε α) : Action ε σ α := ofFunction fun s => (result, s)

@[simp] theorem outcome_ofExcept (result : Except ε α) (s : σ) :
    (ofExcept result : Action ε σ α).outcome s = (result, s) := rfl

/-- The same step with its errors seen as another kind of error. -/
def mapError {η : Type} (f : ε → η) (act : Action ε σ α) : Action η σ α :=
  ofFunction fun s =>
    let (result, after) := act.outcome s
    (result.mapError f, after)

@[simp] theorem outcome_mapError {η : Type} (f : ε → η) (act : Action ε σ α) (s : σ) :
    (act.mapError f).outcome s = ((act.outcome s).1.mapError f, (act.outcome s).2) := rfl

end Action

end PolicyLedger
