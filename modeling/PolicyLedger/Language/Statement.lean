import PolicyLedger.Policy.Node

/-!
Policy statements: the changes an administrator writes down. Nodes are named, not numbered, and a
declaration keeps the text it was written as.
-/
namespace PolicyLedger

/-- What is declared by a name and a body. -/
inductive DeclarationKind where
  | obligation
  | operation
  | routine
  deriving DecidableEq

def DeclarationKind.word : DeclarationKind → String
  | obligation => "obligation"
  | operation => "operation"
  | routine => "routine"

def DeclarationKind.ofWord? (word : String) : Option DeclarationKind :=
  [obligation, operation, routine].find? (·.word = word)

/-- What a `delete` statement removes. -/
inductive DeleteTarget where
  | node
  | prohibition
  | declaration (kind : DeclarationKind)
  deriving DecidableEq

def DeleteTarget.word : DeleteTarget → String
  | node => "node"
  | prohibition => "prohibition"
  | declaration kind => kind.word

def DeleteTarget.ofWord? (word : String) : Option DeleteTarget :=
  [node, prohibition, declaration .obligation, declaration .operation, declaration .routine].find? (·.word = word)

inductive Statement where
  | createPolicyClass (name : String)
  | createNode (kind : NodeKind) (name : String) (descendants : List String)
  | assign (ascendant : String) (descendants : List String)
  | deassign (ascendant : String) (descendants : List String)
  | associate (ua target : String) (rights : AccessRights)
  | setResourceOperations (rights : AccessRights)
  | declare (kind : DeclarationKind) (name source : String)
  | delete (target : DeleteTarget) (name : String)
  deriving DecidableEq

inductive StatementKind where
  | createPolicyClass
  | createNode
  | assign
  | deassign
  | associate
  | setResourceOperations
  | declare (kind : DeclarationKind)
  | delete
  deriving DecidableEq

namespace StatementKind

def all : List StatementKind :=
  [createPolicyClass, createNode, assign, deassign, associate, setResourceOperations, declare .obligation,
    declare .operation, declare .routine, delete]

def text : StatementKind → String
  | createPolicyClass => "create policy class"
  | createNode => "create node"
  | assign => "assign"
  | deassign => "deassign"
  | associate => "associate"
  | setResourceOperations => "set resource operations"
  | declare kind => "create " ++ kind.word
  | delete => "delete"

/-- The words of its text without blanks, each with a capital letter. -/
def label (kind : StatementKind) : String := String.join ((kind.text.splitOn " ").map String.capitalize)

end StatementKind

def Statement.kind : Statement → StatementKind
  | createPolicyClass _ => .createPolicyClass
  | createNode .. => .createNode
  | assign .. => .assign
  | deassign .. => .deassign
  | associate .. => .associate
  | setResourceOperations _ => .setResourceOperations
  | declare kind .. => .declare kind
  | delete .. => .delete

end PolicyLedger
