import PolicyLedger.Sorted.Map
import PolicyLedger.Sorted.Set

/-!
Nodes of the policy graph: their identifiers, which kind may be assigned to which, and what a node
records about itself.
-/
namespace PolicyLedger

/-- Identifier of a node; assigned when the node is created and never used again. -/
structure NodeId where
  value : UInt64
  deriving DecidableEq, Inhabited

namespace NodeId

instance : LT NodeId := ⟨fun a b => a.value < b.value⟩

instance : DecidableLT NodeId := fun a b => inferInstanceAs (Decidable (a.value < b.value))

instance : KeyOrder NodeId where
  irrefl a := KeyOrder.irrefl a.value
  trans := KeyOrder.trans (κ := UInt64)
  total a b := by
    rcases KeyOrder.total a.value b.value with below | equal | above
    · exact .inl below
    · exact .inr (.inl (by cases a; cases b; cases equal; rfl))
    · exact .inr (.inr above)

def text (id : NodeId) : String := toString id.value.toNat

end NodeId

abbrev AccessRights := SortedSet String
abbrev Properties := SortedMap String String

/-- The five kinds of nodes of a policy graph. -/
inductive NodeKind where
  | policyClass
  | userAttribute
  | objectAttribute
  | user
  | object
  deriving DecidableEq, Inhabited

namespace NodeKind

/-- Whether a node of this kind may be assigned to a node of kind `target`. -/
def canAssignTo : NodeKind → NodeKind → Bool
  | userAttribute, userAttribute => true
  | userAttribute, policyClass => true
  | objectAttribute, objectAttribute => true
  | objectAttribute, policyClass => true
  | user, userAttribute => true
  | object, objectAttribute => true
  | _, _ => false

/-- Keyword of the kind in policy statements. -/
def keyword : NodeKind → String
  | policyClass => "pc"
  | userAttribute => "ua"
  | objectAttribute => "oa"
  | user => "u"
  | object => "o"

def ofKeyword? (word : String) : Option NodeKind :=
  [policyClass, userAttribute, objectAttribute, user, object].find? (·.keyword = word)

/-- The kind in messages. -/
def text : NodeKind → String
  | policyClass => "policy class"
  | userAttribute => "user attribute"
  | objectAttribute => "object attribute"
  | user => "user"
  | object => "object"

end NodeKind

structure Node where
  id : NodeId
  kind : NodeKind
  name : String
  properties : Properties
  deriving DecidableEq

end PolicyLedger
