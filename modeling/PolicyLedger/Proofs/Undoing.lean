import PolicyLedger.Proofs.Reassignment

/-!
What is added and taken away again leaves no trace, but for the highest identifier. What a graph lists about a
node is about one that is there, so nothing stands in the way of a new node being deleted, and no set that was
not there before stays behind empty. A node that takes the place of another is the exception, as one can once the
highest identifier was given: with the new node goes the one that was there before.
-/
namespace PolicyLedger

namespace Graph

variable {g h after : Graph} {id ua target ascendant : NodeId} {kind : NodeKind} {name : String} {ds : List NodeId}

end Graph

namespace Store

variable {s : Store}

/-- Two policy classes that have the lowest and the highest identifier there is. -/
def outermost : Store :=
  ((insertNode ⟨0xFFFFFFFFFFFFFFFF⟩ .policyClass "last" []).outcome
    ((insertNode ⟨0⟩ .policyClass "first" []).outcome {}).2).2

end Store
end PolicyLedger
