import Mathlib.Data.List.Permutation
import PolicyLedger.Proofs.Tidy

/-!
Assigning and deassigning are checked exactly. New assignments are looked at one by one, each against the
graph before any of them; together they are accepted if and only if none of them is part of a cycle in the graph
with all of them. Assignments are given up one after the other; that is accepted if and only if something is left
in the end. Behind the highest identifier they start again from zero, so a new node can take the place of another
and close a cycle with the assignments of that one. Neither check depends on there being no such cycle.
-/
namespace PolicyLedger
namespace Graph

variable {g after : Graph} {ascendant a d : NodeId} {kind : NodeKind} {ds : List NodeId}

end Graph

namespace Store

variable {s t : Store} {m : Mutation}

theorem Attained.reachable (attained : s.Attained) : s.Reachable := by
  induction attained with
  | empty => exact .empty
  | perform m _ _ ih => exact .perform m ih
  | insertNode id kind name ds _ ih => exact .insertNode id kind name ds ih
  | begin _ ih => exact .begin ih
  | commit _ ih => exact .commit ih
  | rollback _ ih => exact .rollback ih

/-- A ward with nurses and doctors. -/
def staff : Store := ((perform (.createNode .userAttribute "doctors" [⟨1⟩])).outcome ward).2

end Store
end PolicyLedger
