import PolicyLedger.Action

/-!
What the success of a sequence of checks says about each of them.
-/
namespace PolicyLedger

variable {ε η α β : Type}

@[simp] theorem bind_eq_ok {first : Except ε α} {next : α → Except ε β} {b : β} :
    (first >>= next) = .ok b ↔ ∃ a, first = .ok a ∧ next a = .ok b := by
  cases first <;> simp [bind, Except.bind]

@[simp] theorem pure_eq_ok {a b : α} : (pure a : Except ε α) = .ok b ↔ a = b := by
  simp [pure, Except.pure]

@[simp] theorem throw_ne_ok {e : ε} {a : α} : (throw e : Except ε α) ≠ .ok a := by
  intro same
  cases same

@[simp] theorem throw_bind {e : ε} {next : α → Except ε β} : (throw e : Except ε α) >>= next = throw e := rfl

/-- A check that refuses is passed where it does not apply. -/
@[simp] theorem refuse_eq_ok {refused : Prop} [Decidable refused] {e : ε} {next : Except ε α} {a : α} :
    (if refused then throw e else next) = .ok a ↔ ¬ refused ∧ next = .ok a := by
  by_cases refused <;> simp_all

@[simp] theorem mapError_eq_ok {f : ε → η} {result : Except ε α} {a : α} :
    result.mapError f = .ok a ↔ result = .ok a := by
  cases result with
  | ok b =>
    constructor
    · intro same
      exact congrArg _ (Except.ok.inj same)
    · intro same
      exact congrArg _ (Except.ok.inj same)
  | error e =>
    constructor
    · intro same
      cases same
    · intro same
      cases same

/-- Results that are told apart before they are wrapped are told apart after. -/
theorem map_injective {f : α → β} (injective : Function.Injective f) :
    Function.Injective (Except.map f : Except ε α → Except ε β) := by
  rintro (e | a) (e' | b) same
  · exact congrArg _ (Except.error.inj same)
  · cases same
  · cases same
  · exact congrArg _ (injective (Except.ok.inj same))

theorem discard_eq_ok {result : Except ε α} {u : Unit} :
    (discard result : Except ε Unit) = .ok u ↔ ∃ a, result = .ok a := by
  cases result with
  | ok a =>
    constructor
    · intro _
      exact ⟨a, rfl⟩
    · intro _
      rfl
  | error e =>
    constructor
    · intro same
      cases same
    · rintro ⟨_, same⟩
      cases same

theorem discard_eq_error {result : Except ε α} {e : ε} :
    (discard result : Except ε Unit) = .error e ↔ result = .error e := by
  cases result with
  | ok a =>
    constructor
    · intro same
      cases same
    · intro same
      cases same
  | error x =>
    constructor
    · intro same
      cases same
      rfl
    · intro same
      cases same
      rfl

/-- A list passes a check if all its members do. -/
theorem forM_eq_ok {check : α → Except ε Unit} {items : List α} :
    items.forM check = .ok () ↔ ∀ item ∈ items, check item = .ok () := by
  induction items with
  | nil => simp
  | cons first rest ih =>
    rw [List.forall_mem_cons, ← ih]
    refine bind_eq_ok.trans ⟨?_, ?_⟩
    · rintro ⟨_, passed, others⟩
      exact ⟨passed, others⟩
    · rintro ⟨passed, others⟩
      exact ⟨(), passed, others⟩

namespace Action

variable {σ : Type} {act : Action ε σ α} {s t : σ} {b : β}

/-- Two steps succeed if the second succeeds where the first leads. -/
theorem outcome_bind_eq_ok {next : α → Action ε σ β} :
    (act >>= next).outcome s = (.ok b, t) ↔
      ∃ a middle, act.outcome s = (.ok a, middle) ∧ (next a).outcome middle = (.ok b, t) := by
  rw [outcome_bind]
  constructor
  · intro done
    rcases first : act.outcome s with ⟨e | a, middle⟩
    · rw [first] at done
      cases done
    · rw [first] at done
      exact ⟨a, middle, rfl, done⟩
  · rintro ⟨a, middle, first, second⟩
    rw [first]
    exact second

/-- They fail if the first does, or the second does where the first leads. -/
theorem outcome_bind_eq_error {next : α → Action ε σ β} {e : ε} :
    (act >>= next).outcome s = (.error e, t) ↔ act.outcome s = (.error e, t) ∨
      ∃ a middle, act.outcome s = (.ok a, middle) ∧ (next a).outcome middle = (.error e, t) := by
  rw [outcome_bind]
  constructor
  · intro failed
    rcases first : act.outcome s with ⟨e' | a, middle⟩
    · rw [first] at failed
      cases failed
      exact .inl rfl
    · rw [first] at failed
      exact .inr ⟨a, middle, rfl, failed⟩
  · rintro (first | ⟨a, middle, first, second⟩)
    · rw [first]
    · rw [first]
      exact second

theorem outcome_mapError_eq_ok {act : Action ε σ β} {f : ε → η} :
    (act.mapError f).outcome s = (.ok b, t) ↔ act.outcome s = (.ok b, t) := by
  rw [outcome_mapError, Prod.mk.injEq, mapError_eq_ok]
  constructor
  · rintro ⟨result, rfl⟩
    exact Prod.ext result rfl
  · intro done
    rw [done]
    exact ⟨rfl, rfl⟩

end Action
end PolicyLedger
