import PolicyLedger.Policy.State

namespace PolicyLedger

/-- A policy graph, and per open transaction the graph from before it, innermost first. -/
structure Store where
  graph : Graph := ∅
  snapshots : List Graph := []
  deriving DecidableEq, Inhabited

namespace Store

/-- Number of open transactions. -/
def depth (s : Store) : Nat := s.snapshots.length

def perform (m : Mutation) : Action PolicyError Store Outcome := .ofFunction fun s =>
  match s.graph.apply m with
  | .ok (outcome, after) => (.ok outcome, { s with graph := after })
  | .error e => (.error e, s)

/-- Creates a node under an identifier that was assigned before. -/
def insertNode (id : NodeId) (kind : NodeKind) (name : String) (descendants : List NodeId) :
    Action PolicyError Store Unit := .ofFunction fun s =>
  match s.graph.insertNode id kind name descendants with
  | .ok after => (.ok (), { s with graph := after })
  | .error e => (.error e, s)

def begin : Action PolicyError Store Unit := .ofFunction fun s =>
  (.ok (), { s with snapshots := s.graph :: s.snapshots })

/-- Keeps what the innermost transaction changed. -/
def commit : Action PolicyError Store Unit := .ofFunction fun s =>
  match s.snapshots with
  | [] => (.error .noTransaction, s)
  | _ :: outer => (.ok (), { s with snapshots := outer })

/-- Takes back what the innermost transaction changed. -/
def rollback : Action PolicyError Store Unit := .ofFunction fun s =>
  match s.snapshots with
  | [] => (.error .noTransaction, s)
  | before :: outer => (.ok (), ⟨before, outer⟩)

instance : PolicyState Store := ⟨Store.graph, perform⟩
instance : Transactional Store := ⟨begin, commit, rollback⟩

end Store
end PolicyLedger
