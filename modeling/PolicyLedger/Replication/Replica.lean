import PolicyLedger.Cbor.Payload
import PolicyLedger.Language.Execution
import PolicyLedger.Log.Service
import PolicyLedger.Status
import PolicyLedger.Store.Basic

/-!
Replicas: stores that repeat the changes told by the events of a stream, in order.
-/
namespace PolicyLedger

/-- Why an event could not be repeated. -/
inductive ReplayError where
  | policy (error : PolicyError)
  | decode (error : DecodeError)
  /-- The text carried for a declaration is not this one declaration. -/
  | invalidSource (kind : StatementKind) (name : String)
  | log (error : LogError)
  deriving DecidableEq

namespace ReplayError

def message : ReplayError → String
  | policy error => error.message
  | decode error => error.message
  | invalidSource kind name =>
    "source of " ++ kind.text ++ " \"" ++ name ++ "\" does not compile to this single declaration"
  | log error => error.message

def kind : ReplayError → ErrorKind
  | log _ => .internal
  | _ => .replayFailure

end ReplayError

namespace Event

/-- The declaration a carried text consists of, which has to be the one the event names. -/
def declaration (kind : DeclarationKind) (name source : String) : Except ReplayError Statement :=
  match Statement.read source with
  | .error e => .error (.policy e)
  | .ok [.declare found declared text] =>
    if found = kind ∧ declared = name then .ok (.declare found declared text)
    else .error (.invalidSource (.declare kind) name)
  | .ok _ => .error (.invalidSource (.declare kind) name)

/-- Repeats the change an event tells of, with exactly the identifiers and names it carries. -/
def replay (e : Event) : Action ReplayError Store Unit :=
  let insert (id : NodeId) (kind : NodeKind) (name : String) (descendants : List NodeId) :
      Action ReplayError Store Unit := (Store.insertNode id kind name descendants).mapError .policy
  let change (m : Mutation) : Action ReplayError Store Unit := do
    let _ ← (Store.perform m).mapError ReplayError.policy
  match e with
  | policyClassCreated id name => insert id .policyClass name []
  | userAttributeCreated id name descendants => insert id .userAttribute name descendants
  | objectAttributeCreated id name descendants => insert id .objectAttribute name descendants
  | userCreated id name descendants => insert id .user name descendants
  | objectCreated id name descendants => insert id .object name descendants
  | nodeDeleted id => change (.deleteNode id)
  | propertiesSet id properties => change (.setProperties id properties)
  | assignmentCreated ascendant descendants => change (.assign ascendant descendants)
  | assignmentDeleted ascendant descendants => change (.deassign ascendant descendants)
  | associationCreated ua target rights => change (.associate ua target rights)
  | associationDeleted ua target => change (.dissociate ua target)
  | prohibitionCreated prohibition => change (.createProhibition prohibition)
  | prohibitionDeleted name => change (.deleteProhibition name)
  | obligationCreated obligation => do
    let statement ← .ofExcept (declaration .obligation obligation.name obligation.source)
    let _ ← (statement.execute obligation.author).mapError ReplayError.policy
  | obligationDeleted name => change (.deleteObligation name)
  | operationCreated name source => do
    let _ ← .ofExcept (declaration .operation name source)
    change (.createOperation ⟨name, .declared source⟩)
  | operationDeleted name => change (.deleteOperation name)
  | resourceOperationsSet rights => change (.setResourceOperations rights)
  | routineCreated name source => do
    let _ ← .ofExcept (declaration .routine name source)
    change (.createRoutine ⟨name, .declared source⟩)
  | routineDeleted name => change (.deleteRoutine name)

end Event

/-- The event a stream holds at some revision. -/
def Recorded.event (r : Recorded) : Except DecodeError Event := Event.ofBytes r.schema r.data

/-- A store and the revision of the last event it repeated. -/
structure Replica where
  store : Store := {}
  revision : Revision := 0
  deriving DecidableEq

namespace Replica

def onStore {ε α : Type} (act : Action ε Store α) : Action ε Replica α :=
  act.within Replica.store fun store r => { r with store }

/-- Repeats one event as a transaction. A replica that fails stays as it was. -/
def apply (revision : Revision) (e : Event) : Action ReplayError Replica Unit := do
  onStore (Store.begin.mapError .policy)
  match ← (onStore e.replay).attempt with
  | .ok () => do
    onStore (Store.commit.mapError .policy)
    modify fun r => { r with revision }
  | .error error => do
    onStore (Store.rollback.mapError .policy)
    throw error

/-- Repeats an event as it was recorded. -/
def applyRecorded (recorded : Recorded) : Action ReplayError Replica Unit := do
  let e ← .ofExcept (recorded.event.mapError .decode)
  apply recorded.revision e

def applyAll : List Recorded → Action ReplayError Replica Unit
  | [] => pure ()
  | recorded :: rest => do
    applyRecorded recorded
    applyAll rest

/-- Events are read so many at a time. -/
def pageSize : Nat := 256

/-- Repeats the events of a stream that a replica has not seen, page by page, until a page is empty, and gives
the revision it reached. At most `pages` of them are read; if none of these is empty, there is no result. -/
def catchUp {L : Type} [LogService L] (stream : String) :
    (pages : Nat) → Action ReplayError (L × Replica) (Option Revision)
  | 0 => return none
  | pages + 1 => do
    let first := (← get).2.revision + 1
    let read : Action LogError L (List Recorded) := LogService.readFrom stream first pageSize
    match ← (read.within Prod.fst fun log s => (log, s.2)).attempt with
    | .error (.streamNotFound _) => return some (← get).2.revision
    | .error e => throw (.log e)
    | .ok [] => return some (← get).2.revision
    | .ok events => do
      (applyAll events).within Prod.snd fun replica s => (s.1, replica)
      catchUp stream pages

end Replica
end PolicyLedger
