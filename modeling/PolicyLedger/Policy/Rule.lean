import PolicyLedger.Policy.Node

namespace PolicyLedger

/-- The user, and perhaps the process, on whose behalf the policy is changed. -/
structure Author where
  user : NodeId
  process : Option String
  deriving DecidableEq, Inhabited

/-- Who a prohibition applies to. -/
inductive Subject where
  | node (id : NodeId)
  | process (name : String)
  deriving DecidableEq

/-- A container a prohibition covers, or with `complement` all that lies outside of it. -/
structure ContainerCondition where
  container : NodeId
  complement : Bool
  deriving DecidableEq

/-- Denies its subject a set of access rights on containers. -/
structure Prohibition where
  name : String
  subject : Subject
  rights : AccessRights
  intersection : Bool
  conditions : List ContainerCondition
  deriving DecidableEq

/-- Whether a prohibition names a node, as its subject or as a container. -/
def Prohibition.mentions (p : Prohibition) (id : NodeId) : Bool :=
  p.subject = .node id || p.conditions.any (·.container = id)

/-- An event-response rule, kept as its source text. -/
structure Obligation where
  author : Author
  name : String
  source : String
  deriving DecidableEq

/-- How an operation or routine is defined. Only source text can be carried to other replicas. -/
inductive Definition where
  | declared (source : String)
  | native
  deriving DecidableEq

structure Operation where
  name : String
  definition : Definition
  deriving DecidableEq

structure Routine where
  name : String
  definition : Definition
  deriving DecidableEq

end PolicyLedger
