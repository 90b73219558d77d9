import PolicyLedger.Policy.State

namespace PolicyLedger

/-- A store lent for changes that are never kept. Transactions nest by counting; only the outermost
is one of the store, and closing it, either way, takes everything back. -/
structure Scratch (σ : Type) where
  store : σ
  depth : Nat := 0

namespace Scratch
variable {σ α : Type}

def onStore {ε : Type} (act : Action ε σ α) : Action ε (Scratch σ) α :=
  act.within Scratch.store fun store s => { s with store }

section
variable [Transactional σ]

def begin : Action PolicyError (Scratch σ) Unit := do
  if (← get).depth = 0 then onStore Transactional.begin
  modify fun s => { s with depth := s.depth + 1 }

def close : Action PolicyError (Scratch σ) Unit := do
  match (← get).depth with
  | 0 => throw .noTransaction
  | outer + 1 =>
    modify fun s => { s with depth := outer }
    if outer = 0 then onStore Transactional.rollback

/-- The store as it is given back. -/
def release (s : Scratch σ) : σ :=
  if s.depth = 0 then s.store else (Transactional.rollback.outcome s.store).2

instance : Transactional (Scratch σ) := ⟨begin, close, close⟩

end

instance [PolicyState σ] : PolicyState (Scratch σ) where
  graph s := PolicyState.graph s.store
  perform m := onStore (PolicyState.perform m)

end Scratch
end PolicyLedger
